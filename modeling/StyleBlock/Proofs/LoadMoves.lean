import StyleBlock.Proofs.LoadSound

/-!
What the poll of one task leaves as it was. The tasks under way are those whose polls are nested in
one another: each waits for the next one, and a poll further down touches neither of them. So a poll
never comes back to a task under way, and no more polls nest than the bound allows.
-/

namespace StyleBlock.Loader

/-- Whether a load waits for permits only: for its own, which it has not got, or for other loads
that all do. -/
inductive IsQueued (loader : Loader) : TaskId → Prop
  | permits {id : TaskId} {task : Task} {ticket : Nat} (found : loader.tasks[id]? = some task)
      (waits : task.ticket? = some ticket) (missing : loader.queue.permits.takeUp? ticket = none) :
      loader.IsQueued id
  | loads {id : TaskId} {task : Task} (found : loader.tasks[id]? = some task)
      (waits : task.watches ≠ []) (queued : ∀ watch ∈ task.watches, loader.IsQueued watch.task) :
      loader.IsQueued id

/-- Tasks under way may be left out of account: nobody waits for one of them. -/
theorem IsQueued.later {loader other : Loader} {id : TaskId} (queued : loader.IsQueued id)
    (queue : other.queue = loader.queue)
    (stages : ∀ (id : TaskId) (task : Task), loader.tasks[id]? = some task →
      task.stage ≠ .advancing → ∃ again, other.tasks[id]? = some again ∧ again.stage = task.stage) :
    other.IsQueued id := by
  induction queued with
  | @permits id task ticket found waits missing =>
    have resting : task.stage ≠ .advancing := by
      intro advancing
      simp [Task.ticket?, advancing] at waits
    obtain ⟨again, foundAgain, same⟩ := stages id task found resting
    refine .permits foundAgain ?_ (queue ▸ missing)
    rw [Task.ticket?, same]
    exact waits
  | @loads id task found waits _ ih =>
    have resting : task.stage ≠ .advancing := by
      intro advancing
      simp [Task.watches, advancing] at waits
    obtain ⟨again, foundAgain, same⟩ := stages id task found resting
    have watches : again.watches = task.watches := by rw [Task.watches, Task.watches, same]
    exact .loads foundAgain (watches ▸ waits) (watches ▸ ih)

theorem IsQueued.of_sameLoads {loader other : Loader} {id : TaskId} (queued : loader.IsQueued id)
    (same : loader.SameLoads other) (queue : other.queue = loader.queue) : other.IsQueued id := by
  refine queued.later queue fun id task found _ => ?_
  obtain ⟨again, foundAgain, alone⟩ := same.exists_task found
  exact ⟨again, foundAgain, Task.stage_eq_of_alone alone⟩

/-! How deep polls can nest -/

/-- One for a task that may come to wait for others. -/
def nestingOf (importer : Importer) (file : FileId) : Stage → Nat
  | .fresh => if file ∈ importer.files then 1 else 0
  | .active _ _ => if file ∈ importer.files then 1 else 0
  | _ => 0

theorem nestingOf_le_one (importer : Importer) (file : FileId) (stage : Stage) :
    nestingOf importer file stage ≤ 1 := by
  unfold nestingOf
  split
  · split <;> omega
  · split <;> omega
  · omega

/-- How many tasks and files may still come to wait for others. -/
def nesting (loader : Loader) : Nat := loader.total (nestingOf loader.importer) fun _ => 1

theorem nesting_lt_depthBound (loader : Loader) : loader.nesting < loader.depthBound := by
  have tasks : (loader.tasks.toList.map fun task =>
      nestingOf loader.importer task.file task.stage).sum ≤ loader.tasks.size := by
    have bound := List.sum_le_card_nsmul (loader.tasks.toList.map fun task =>
      nestingOf loader.importer task.file task.stage) 1 (by
        intro value member
        obtain ⟨task, _, rfl⟩ := List.mem_map.mp member
        exact nestingOf_le_one ..)
    simpa using bound
  have files : ((loader.importer.files.filter fun file =>
      (loader.loadOf? file).isNone).map fun _ => 1).sum ≤ loader.importer.files.length := by
    simpa using List.length_filter_le _ loader.importer.files
  simp only [nesting, total, depthBound]
  omega

theorem SameLoads.nesting {loader other : Loader} (same : loader.SameLoads other) :
    other.nesting = loader.nesting := by
  rw [Loader.nesting, Loader.nesting, same.importer, same.total]

theorem nesting_setStage {loader : Loader} {id : TaskId} {task : Task}
    (found : loader.tasks[id]? = some task) (stage : Stage) :
    (loader.setStage id stage).nesting + nestingOf loader.importer task.file task.stage =
      loader.nesting + nestingOf loader.importer task.file stage :=
  total_setStage _ _ found stage

/-! The tasks under way -/

/-- An entry among the waits that belongs to a task under way, but not to the load of a file. -/
def Climbs (loader : Loader) (file source target : FileId) : Prop :=
  loader.waits.Entered source target ∧ source ≠ file ∧
    ∃ (id : TaskId) (task : Task),
      loader.tasks[id]? = some task ∧ task.file = source ∧ task.stage = .advancing

/-- Whether all tasks under way wait for the load of a file, through one another. -/
def IsLedTo (loader : Loader) (file : FileId) : Prop :=
  ∀ (id : TaskId) (task : Task), loader.tasks[id]? = some task → task.stage = .advancing →
    Relation.ReflTransGen (loader.Climbs file) task.file file

theorem leads_of_climbs {loader : Loader} {file source target : FileId}
    (way : Relation.ReflTransGen (loader.Climbs file) source target) :
    loader.waits.Leads source target :=
  Relation.ReflTransGen.mono (fun _ _ climbs => climbs.1) _ _ way

/-- What the work of a visited task leaves as it was. -/
structure Moved (visited : TaskId) (loader other : Loader) : Prop where
  setting : other.setting = loader.setting
  sound : other.Sound
  nesting : other.nesting ≤ loader.nesting
  advancing : ∀ id, other.IsAdvancing id ↔ loader.IsAdvancing id
  loads : ∀ file id, loader.loadOf? file = some id → other.loadOf? file = some id
  /-- The other tasks under way keep their entries. -/
  targets : ∀ (id : TaskId) (task : Task), id ≠ visited → loader.tasks[id]? = some task →
    task.stage = .advancing → other.waits.targets task.file = loader.waits.targets task.file

theorem SameLoads.isAdvancing {loader other : Loader} (same : loader.SameLoads other)
    (id : TaskId) : other.IsAdvancing id ↔ loader.IsAdvancing id := by
  constructor
  · rintro ⟨task, found, advancing⟩
    obtain ⟨before, known, alone⟩ := same.symm.exists_task found
    exact ⟨before, known, (Task.stage_eq_of_alone alone).trans advancing⟩
  · rintro ⟨task, found, advancing⟩
    obtain ⟨after, known, alone⟩ := same.exists_task found
    exact ⟨after, known, (Task.stage_eq_of_alone alone).trans advancing⟩

theorem importer_eq_of_setting {loader other : Loader} (same : other.setting = loader.setting) :
    other.importer = loader.importer := (congrArg Setting.importer same :)

section Moved

variable {visited : TaskId} {loader other : Loader}

theorem Moved.of_sameLoads (sound : loader.Sound) (same : loader.SameLoads other) :
    loader.Moved visited other where
  setting := same.setting
  sound := sound.of_sameLoads same
  nesting := same.nesting.le
  advancing := same.isAdvancing
  loads file id found := by rw [same.loadOf?, found]
  targets id task _ _ _ := by rw [same.waits]

theorem Moved.refl (sound : loader.Sound) : loader.Moved visited loader :=
  .of_sameLoads sound (.refl loader)

/-- A task keeps its file. -/
theorem Moved.exists_task (moved : loader.Moved visited other) (sound : loader.Sound) {id : TaskId}
    {task : Task} (found : loader.tasks[id]? = some task) :
    ∃ again, other.tasks[id]? = some again ∧ again.file = task.file :=
  moved.sound.tasks _ _ (moved.loads _ _ (sound.loaded id task found))

/-- A task under way stays under way. -/
theorem Moved.exists_advancing (moved : loader.Moved visited other) (sound : loader.Sound)
    {id : TaskId} {task : Task} (found : loader.tasks[id]? = some task)
    (advancing : task.stage = .advancing) :
    ∃ again, other.tasks[id]? = some again ∧ again.file = task.file ∧
      again.stage = .advancing := by
  obtain ⟨again, known, isFile⟩ := moved.exists_task sound found
  obtain ⟨same, knownSame, advancing⟩ := (moved.advancing id).mpr ⟨task, found, advancing⟩
  rw [known] at knownSame
  cases knownSame
  exact ⟨again, known, isFile, advancing⟩

theorem Moved.trans {third : Loader} (sound : loader.Sound) (one : loader.Moved visited other)
    (next : other.Moved visited third) : loader.Moved visited third where
  setting := next.setting.trans one.setting
  sound := next.sound
  nesting := next.nesting.trans one.nesting
  advancing id := (next.advancing id).trans (one.advancing id)
  loads file id found := next.loads file id (one.loads file id found)
  targets id task notVisited found advancing := by
    obtain ⟨again, known, isFile, stillAdvancing⟩ := one.exists_advancing sound found advancing
    rw [← one.targets id task notVisited found advancing, ← isFile]
    exact next.targets id again notVisited known stillAdvancing

/-- What a nested poll leaves as it was, the task that it is nested in leaves as it was too. -/
theorem Moved.nested {inner : TaskId} (moved : loader.Moved inner other)
    (resting : ¬ loader.IsAdvancing inner) : loader.Moved visited other :=
  { moved with
    targets := fun id task _ found advancing =>
      moved.targets id task
        (fun same => resting (same ▸ ⟨task, found, advancing⟩)) found advancing }

/-- The tasks under way go on waiting for the visited one. -/
theorem IsLedTo.moved {task : Task} (led : loader.IsLedTo task.file) (sound : loader.Sound)
    (found : loader.tasks[visited]? = some task) (moved : loader.Moved visited other) :
    other.IsLedTo task.file := by
  intro id again foundAgain advancing
  obtain ⟨before, known, wasAdvancing⟩ := (moved.advancing id).mp ⟨again, foundAgain, advancing⟩
  obtain ⟨same, knownSame, isFile⟩ := moved.exists_task sound known
  rw [foundAgain] at knownSame
  cases knownSame
  rw [isFile]
  refine Relation.ReflTransGen.mono ?_ _ _ (led id before known wasAdvancing)
  rintro source target ⟨entered, notFile, index, climber, climberFound, rfl, climbing⟩
  have notVisited : index ≠ visited := by
    rintro rfl
    rw [found] at climberFound
    cases climberFound
    exact notFile rfl
  obtain ⟨climber', foundLater, fileLater, climbingLater⟩ :=
    moved.exists_advancing sound climberFound climbing
  refine ⟨?_, notFile, index, climber', foundLater, fileLater, climbingLater⟩
  rw [Waits.Entered, moved.targets index climber notVisited climberFound climbing]
  exact entered

/-- A task under way never waits for one of the others, and all of them wait for what the last one
waits for. -/
theorem IsLedTo.next {task inner : Task} {id : TaskId} (led : loader.IsLedTo task.file)
    (sound : loader.Sound) (found : loader.tasks[visited]? = some task)
    (advancing : task.stage = .advancing) (foundInner : loader.tasks[id]? = some inner)
    (entered : loader.waits.Entered task.file inner.file) :
    ¬ loader.IsAdvancing id ∧ loader.IsLedTo inner.file := by
  have resting : ¬ loader.IsAdvancing id := by
    rintro ⟨again, foundAgain, alsoAdvancing⟩
    rw [foundInner] at foundAgain
    cases foundAgain
    have back := leads_of_climbs (led id inner foundInner alsoAdvancing)
    exact sound.acyclic task.file (Relation.TransGen.head' entered back)
  refine ⟨resting, fun index climber climberFound climbing => ?_⟩
  have climbs : ∀ source, (∃ (index : TaskId) (climber : Task),
      loader.tasks[index]? = some climber ∧ climber.file = source ∧ climber.stage = .advancing) →
      source ≠ inner.file := by
    rintro source ⟨index, climber, climberFound, rfl, climbing⟩ same
    have : index = id := sound.task_unique climberFound foundInner same
    exact resting (this ▸ ⟨climber, climberFound, climbing⟩)
  refine Relation.ReflTransGen.tail (Relation.ReflTransGen.mono ?_ _ _
    (led index climber climberFound climbing))
    ⟨entered, climbs _ ⟨visited, task, found, rfl, advancing⟩,
      visited, task, found, rfl, advancing⟩
  rintro source target ⟨step, _, climber⟩
  exact ⟨step, climbs source climber, climber⟩

/-! Steps of the visited task -/

variable {task : Task}

theorem Moved.setWaits (sound : loader.Sound) (found : loader.tasks[visited]? = some task)
    (advancing : task.stage = .advancing) {waits : Waits} (acyclic : waits.IsAcyclic)
    (targets : ∀ file, file ≠ task.file → waits.targets file = loader.waits.targets file) :
    loader.Moved visited { loader with waits } := by
  have apart : ∀ (id : TaskId) (again : Task), loader.tasks[id]? = some again → id ≠ visited →
      again.file ≠ task.file := fun id again foundAgain notVisited same =>
    notVisited (sound.task_unique foundAgain found same)
  refine ⟨rfl, sound.setWaits acyclic ?_, le_rfl, fun _ => Iff.rfl, fun _ _ load => load, ?_⟩
  · intro id again foundAgain resting target
    have notVisited : id ≠ visited := by
      rintro rfl
      rw [found] at foundAgain
      cases foundAgain
      exact resting advancing
    rw [targets _ (apart id again foundAgain notVisited)]
  · intro id again notVisited foundAgain _
    exact targets _ (apart id again foundAgain notVisited)

theorem Moved.setCache (sound : loader.Sound) {cache : ImportCache}
    (imports : ∀ entry ∈ cache.imports, loader.importer.read entry.1 = .ok entry.2)
    (identifiers : ∀ entry ∈ cache.identifiers,
      loader.importer.identifier entry.1.1 entry.1.2 = entry.2) :
    loader.Moved visited { loader with cache } :=
  ⟨rfl, sound.setCache imports identifiers, le_rfl, fun _ => Iff.rfl, fun _ _ load => load,
    fun _ _ _ _ _ => rfl⟩

theorem Moved.load (sound : loader.Sound) (file : FileId) :
    loader.Moved visited (loader.load file).1 ∧
      (loader.load file).1.loadOf? file = some (loader.load file).2 := by
  cases found : loader.loadOf? file with
  | some id =>
    rw [load_of_some found]
    exact ⟨.refl sound, found⟩
  | none =>
    obtain ⟨soundAfter, load, loads⟩ := sound.load_of_none found
    have setting : (loader.load file).1.setting = loader.setting := by
      rw [load_of_none found]
      rfl
    have waits : (loader.load file).1.waits = loader.waits := by
      rw [load_of_none found]
      rfl
    refine ⟨⟨setting, soundAfter, ?_, ?_, loads, fun _ _ _ _ _ => by rw [waits]⟩, load⟩
    · have bound := total_load_of_none (nestingOf loader.importer) (fun _ => 1) found
      rw [Loader.nesting, Loader.nesting, importer_eq_of_setting setting]
      simp only [nestingOf] at bound
      omega
    · intro id
      constructor
      · rintro ⟨again, foundAgain, advancing⟩
        rcases eq_or_found_of_load found foundAgain with ⟨_, rfl⟩ | known
        · cases advancing
        · exact ⟨again, known, advancing⟩
      · rintro ⟨again, foundAgain, advancing⟩
        exact ⟨again, getElem?_load_of_some foundAgain file, advancing⟩

end Moved

end StyleBlock.Loader
