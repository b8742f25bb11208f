import StyleBlock.Proofs.LoadWork

/-!
Every poll of a task lowers what the loads cost, or finds the task waiting for permits only. The
induction is on how deep polls may nest; the files and tasks there are bound that.
-/

namespace StyleBlock.Loader

variable {loader other : Loader} {visited : TaskId} {file : FileId} {depth cost : Nat}

/-! From a file to its contents -/

theorem prepare_progresses {visit : Visit} (visiting : loader.IsVisiting visited file depth)
    (listed : file ∈ loader.importer.files) (serves : visit.poll.Serves depth)
    {found : ImportedFile} (isFile : found.identifier = file) :
    loader.Progresses visited file (loader.setting.prepareCost found)
      (prepare visit loader found) := by
  have known : loader.preprocessor? found.dialect = loader.setting.preprocessor? found.dialect :=
    rfl
  rw [prepare, Setting.prepareCost]
  split
  · exact chain_progresses visiting listed serves isFile _
  · dsimp only
    rw [known]
    cases loader.setting.preprocessor? found.dialect with
    | none => exact fail_progresses visiting.sound _ (by simp [Setting.failing])
    | some preprocessor =>
      dsimp only
      rcases continuePreparing_progresses visiting listed serves isFile _ with progress | still
      · exact progress.weaken (Nat.le_succ _)
      · exact absurd still (not_standsStill rfl rfl)

theorem continueImporting_progresses {visit : Visit}
    (visiting : loader.IsVisiting visited file depth) (serves : visit.poll.Serves depth)
    (left : Nat) :
    loader.Progresses visited file (loader.setting.importingCost file left)
      (continueImporting visit loader file left) := by
  have sound := visiting.sound
  cases left with
  | succ left =>
    have told := SameLoads.of_quiet (quiet_tell loader (.task visit.task))
    have cost := told.cost
    refine ⟨.of_sameLoads sound told, ?_, ?_⟩
    · rintro work ⟨⟩
      exact trivial
    · simp only [continueImporting, Setting.stepCost, Setting.workCost, Setting.importingCost, cost]
      omega
  | zero =>
    have importer : loader.setting.importer = loader.importer := rfl
    rw [continueImporting, Setting.importingCost, importer]
    cases read : loader.importer.read file with
    | error error =>
      refine (fail_progresses ?_ error le_rfl).after sound (.setCache sound ?_ sound.identifiers) ?_
      · exact sound.setCache sound.imports sound.identifiers
      · exact sound.imports
      · show loader.cost + 2 ≤ loader.cost + (0 + 1 + Setting.failing)
        simp only [Setting.failing]
        omega
    | ok found =>
      have imports : ∀ entry ∈ (loader.cache.settle file (.ok found)).imports,
          loader.importer.read entry.1 = .ok entry.2 := by
        intro entry member
        rcases List.mem_append.mp member with old | new
        · exact sound.imports entry (List.mem_filter.mp old).1
        · rw [List.mem_singleton.mp new]
          exact read
      have moved : loader.Moved visited
          { loader with cache := loader.cache.settle file (.ok found) } :=
        .setCache sound imports sound.identifiers
      have progress := prepare_progresses (visiting.moved moved)
        (sound.lawful.files file found read) serves (sound.lawful.identifier file found read)
      refine progress.after sound moved ?_
      show loader.cost + loader.setting.prepareCost found ≤
        loader.cost + (0 + 1 + loader.setting.prepareCost found)
      omega

theorem beginImporting_progresses (visit : Visit)
    (visiting : loader.IsVisiting visited file depth) (serves : visit.poll.Serves depth) :
    loader.Progresses visited file (loader.setting.freshCost file)
      (beginImporting visit loader file) := by
  have sound := visiting.sound
  have importer : loader.setting.importer = loader.importer := rfl
  rw [beginImporting]
  cases known : loader.cache.imported? file with
  | some found =>
    obtain ⟨entry, member, isFound⟩ := Option.map_eq_some_iff.mp known
    have read := sound.imports entry (List.mem_of_find?_eq_some member)
    have isFile : entry.1 = file := by simpa using List.find?_some member
    rw [isFile, isFound] at read
    refine (prepare_progresses visiting (sound.lawful.files file found read) serves
      (sound.lawful.identifier file found read)).weaken ?_
    simp only [Setting.freshCost, Setting.importingCost, importer, read]
    omega
  | none =>
    have moved : loader.Moved visited { loader with cache := loader.cache.noteRead file } :=
      .setCache sound sound.imports sound.identifiers
    exact (continueImporting_progresses (visiting.moved moved) serves _).after sound moved
      (Nat.le_succ _)

/-! The poll of a task -/

theorem isAdvancing_setStage {id : TaskId} {stage : Stage} (rests : stage ≠ .advancing)
    (index : TaskId) :
    (loader.setStage id stage).IsAdvancing index ↔ index ≠ id ∧ loader.IsAdvancing index := by
  unfold IsAdvancing
  rw [getElem?_setStage]
  by_cases same : index = id
  · simp only [same, ne_eq, not_true_eq_false, false_and, iff_false]
    rintro ⟨task, found, advancing⟩
    obtain ⟨before, _, rfl⟩ := Option.map_eq_some_iff.mp found
    exact rests advancing
  · simp [same]

/-- What a task under way leaves, once it rests again. -/
theorem moved_rest (sound : loader.Sound) {id : TaskId} {task : Task}
    (found : loader.tasks[id]? = some task) (resting : task.stage ≠ .advancing)
    (moved : (loader.setStage id .advancing).Moved id other) {stage : Stage}
    (rests : stage ≠ .advancing) (soundStage : other.IsSoundStage task.file stage)
    (nesting : nestingOf loader.importer task.file stage ≤
      nestingOf loader.importer task.file task.stage) :
    loader.Moved id (other.setStage id stage) := by
  have soundNow : (loader.setStage id .advancing).Sound := sound.setStage fun _ _ => trivial
  have foundNow : (loader.setStage id .advancing).tasks[id]? =
      some { task with stage := .advancing } := by
    rw [getElem?_setStage, if_pos rfl, found]
    rfl
  obtain ⟨again, foundAgain, isFile⟩ := moved.exists_task soundNow foundNow
  have isFile : again.file = task.file := isFile
  have kept : ∀ (index : TaskId), index ≠ id →
      (loader.setStage id .advancing).tasks[index]? = loader.tasks[index]? := by
    intro index different
    rw [getElem?_setStage, if_neg different]
  refine ⟨moved.setting, moved.sound.setStage ?_, ?_, fun index => ?_, moved.loads, ?_⟩
  · intro task' foundTask
    rw [foundAgain] at foundTask
    cases foundTask
    rw [isFile]
    exact soundStage
  · have before := nesting_setStage found .advancing
    have after := nesting_setStage foundAgain stage
    have between := moved.nesting
    have importer : other.importer = loader.importer := importer_eq_of_setting moved.setting
    rw [importer, isFile] at after
    have none : nestingOf loader.importer task.file .advancing = 0 := rfl
    omega
  · rw [isAdvancing_setStage rests, moved.advancing]
    unfold IsAdvancing
    by_cases same : index = id
    · subst same
      simp only [ne_eq, not_true_eq_false, false_and, false_iff]
      rintro ⟨task', foundTask, advancing⟩
      rw [found] at foundTask
      cases foundTask
      exact resting advancing
    · rw [kept index same]
      simp [same]
  · intro index climber different foundClimber climbing
    exact moved.targets index climber different
      (by rw [kept index different, foundClimber]) climbing

/-- Work that stood still leaves the loads as they were before it was taken up. -/
theorem sameLoads_rest {id : TaskId} {task : Task} (found : loader.tasks[id]? = some task)
    (same : (loader.setStage id .advancing).SameLoads other) :
    loader.SameLoads (other.setStage id task.stage) := by
  refine ⟨same.options, same.importer, same.preprocessors, same.together, same.cache, same.loads,
    same.waits, ?_⟩
  apply Array.ext_getElem?
  intro index
  rw [Array.getElem?_map, Array.getElem?_map, getElem?_setStage]
  have before := same.getElem? index
  rw [getElem?_setStage] at before
  by_cases here : index = id
  · subst here
    rw [if_pos rfl, found] at before
    obtain ⟨again, foundAgain, alone⟩ := Option.map_eq_some_iff.mp before
    have isFile := Task.file_eq_of_alone alone
    have isOrigin := Task.origin_eq_of_alone alone
    rw [if_pos rfl, found, foundAgain]
    simp only [Option.map_some, Task.alone, isFile, isOrigin]
  · rw [if_neg here] at before ⊢
    exact before

theorem nestingOf_of_isOpen {task : Task} (isOpen : task.isOpen = true) (importer : Importer)
    (stage : Stage) :
    nestingOf importer task.file stage ≤ nestingOf importer task.file task.stage := by
  have here :
      nestingOf importer task.file task.stage = if task.file ∈ importer.files then 1 else 0 := by
    unfold Task.isOpen at isOpen
    split at isOpen
    · rename_i fresh
      rw [fresh]
      rfl
    · rename_i active
      rw [active]
      rfl
    · cases isOpen
  rw [here]
  unfold nestingOf
  split
  · exact le_rfl
  · exact le_rfl
  · exact Nat.zero_le _

theorem rests_of_isOpen {task : Task} (isOpen : task.isOpen = true) :
    task.stage ≠ .advancing ∧ task.isOver = false := by
  unfold Task.isOpen at isOpen
  split at isOpen
  · simp [*, Task.isOver]
  · simp [*, Task.isOver]
  · cases isOpen

/-- What the loads cost once a task that has got on is put down again. -/
theorem Progresses.cost_setStage {id : TaskId} {task : Task} {result : Loader × WorkStep}
    (sound : loader.Sound) (found : loader.tasks[id]? = some task)
    (progress : (loader.setStage id .advancing).Progresses id task.file
      (loader.setting.stageCost task.file task.stage) result) (stage : Stage) :
    (result.1.setStage id stage).cost + loader.setting.stepCost task.file result.2 <
      loader.cost + loader.setting.stageCost task.file stage := by
  have foundNow : (loader.setStage id .advancing).tasks[id]? =
      some { task with stage := .advancing } := by
    rw [getElem?_setStage, if_pos rfl, found]
    rfl
  obtain ⟨again, foundAgain, isFile, advancing⟩ :=
    progress.moved.exists_advancing (sound.setStage fun _ _ => trivial) foundNow rfl
  have isFile : again.file = task.file := isFile
  have settingAfter : result.1.setting = loader.setting := progress.moved.setting
  have less := progress.less
  have setting : (loader.setStage id .advancing).setting = loader.setting := rfl
  rw [setting] at less
  have taken := Loader.cost_setStage found .advancing
  have put := Loader.cost_setStage foundAgain stage
  rw [advancing, isFile, settingAfter] at put
  omega

/-- What is recorded of work that has got on. -/
theorem Progresses.record_sound (sound : loader.Sound) {id : TaskId} {task : Task}
    (found : loader.tasks[id]? = some task) (isOpen : task.isOpen = true) (slot : BlockId)
    {result : Loader × WorkStep}
    (progress : (loader.setStage id .advancing).Progresses id task.file
      (loader.setting.stageCost task.file task.stage) result) :
    loader.IsSoundPoll id (result.1.record id task slot result.2) := by
  obtain ⟨after, step⟩ := result
  obtain ⟨resting, notOver⟩ := rests_of_isOpen isOpen
  have moved := progress.moved
  cases step with
  | more work =>
    have less := progress.cost_setStage sound found (.active slot work)
    refine ⟨moved_rest sound found resting moved (by simp) (progress.work work rfl)
      (nestingOf_of_isOpen isOpen _ _), fun _ answered => ?_, fun _ =>
        ⟨fun task' again => ?_, .inl ?_⟩⟩
    · cases answered
    · cases found.symm.trans again
      exact notOver
    · exact Nat.lt_of_add_lt_add_right less
  | done outcome =>
    have less := progress.cost_setStage sound found (.finished outcome)
    have told := SameLoads.of_quiet (quiet_tell (after.setStage id (.finished outcome)) (.task id))
    have costTold := told.cost
    have movedLater : loader.Moved id (after.setStage id (.finished outcome)) :=
      moved_rest sound found resting moved (by simp) trivial (nestingOf_of_isOpen isOpen _ _)
    have recorded : after.record id task slot (.done outcome) =
        ((after.setStage id (.finished outcome)).tell (.task id), .ready outcome) := by
      simp only [record, sound.imported id task found]
    rw [recorded]
    refine ⟨movedLater.trans sound (.of_sameLoads movedLater.sound told), fun _ _ => ?_,
      fun waiting => by cases waiting⟩
    show ((after.setStage id (.finished outcome)).tell (.task id)).cost ≤ loader.cost
    simp only [Setting.stageCost] at less
    omega

/-- What is recorded of work that waits for permits only. -/
theorem StandsStill.record_sound (sound : loader.Sound) {id : TaskId} {task : Task}
    (found : loader.tasks[id]? = some task) (isOpen : task.isOpen = true) {slot : BlockId}
    {work : Work} (active : task.stage = .active slot work) {result : Loader × WorkStep}
    (still : (loader.setStage id .advancing).StandsStill work result) :
    loader.IsSoundPoll id (result.1.record id task slot result.2) := by
  obtain ⟨after, step⟩ := result
  obtain ⟨same, queue, rfl, queued⟩ := still
  have rest := sameLoads_rest found same
  rw [active] at rest
  have recorded : after.record id task slot (.more work) =
      (after.setStage id (.active slot work), .pending) := rfl
  rw [recorded]
  refine ⟨.of_sameLoads sound rest, fun _ answered => ?_,
    fun _ => ⟨fun task' again => ?_, .inr ⟨rest, queue, ?_⟩⟩⟩
  · cases answered
  · cases found.symm.trans again
    exact (rests_of_isOpen isOpen).2
  rcases queued task slot active with ⟨ticket, waits, missing⟩ | ⟨waits, queued⟩
  · exact .permits found waits missing
  · refine .loads found waits fun watch member => (queued watch member).later rfl ?_
    intro index climber foundClimber notAdvancing
    rw [getElem?_setStage] at foundClimber
    split at foundClimber
    · obtain ⟨before, _, rfl⟩ := Option.map_eq_some_iff.mp foundClimber
      exact absurd rfl notAdvancing
    · exact ⟨climber, foundClimber, rfl⟩

/-- A task that is taken up is led to by all others under way. -/
theorem isVisiting_setStage (sound : loader.Sound) {id : TaskId} {task : Task}
    (found : loader.tasks[id]? = some task) (isOpen : task.isOpen = true)
    (led : loader.IsLedTo task.file) (nesting : loader.nesting < depth + 1) :
    (loader.setStage id .advancing).IsVisiting id task.file depth := by
  obtain ⟨resting, _⟩ := rests_of_isOpen isOpen
  refine ⟨sound.setStage fun _ _ => trivial, ⟨{ task with stage := .advancing }, ?_, rfl, rfl⟩, ?_,
    fun listed => ?_⟩
  · rw [getElem?_setStage, if_pos rfl, found]
    rfl
  · intro index climber foundClimber climbing
    rw [getElem?_setStage] at foundClimber
    split at foundClimber
    · rw [found] at foundClimber
      cases foundClimber
      exact .refl
    · refine Relation.ReflTransGen.mono ?_ _ _ (led index climber foundClimber climbing)
      rintro source target ⟨entered, notFile, position, other, foundOther, isSource, climbingOther⟩
      refine ⟨entered, notFile, position, other, ?_, isSource, climbingOther⟩
      rw [getElem?_setStage, if_neg, foundOther]
      rintro rfl
      rw [found] at foundOther
      cases foundOther
      exact resting climbingOther
  · have before := nesting_setStage found .advancing
    have one := nestingOf_of_isOpen isOpen loader.importer .fresh
    have listed : task.file ∈ loader.importer.files := listed
    simp only [nestingOf, if_pos listed] at one before
    omega

theorem continueTask_progresses (visit : Visit) {task : Task} {work : Work}
    (visiting : loader.IsVisiting visited task.file depth) (serves : visit.poll.Serves depth)
    (soundWork : loader.IsSoundWork task.file work) :
    loader.Progresses visited task.file (loader.setting.workCost task.file work)
        (continueTask visit loader task work) ∨
      loader.StandsStill work (continueTask visit loader task work) := by
  cases work with
  | importing left => exact .inl (continueImporting_progresses visiting serves left)
  | preparing found run =>
    exact continuePreparing_progresses visiting soundWork.2 serves soundWork.1 run
  | chaining found before run =>
    exact continueChaining_progresses visiting soundWork.2 serves soundWork.1 before run
  | linking assembly =>
    obtain ⟨listed, pace, resting, links⟩ := soundWork
    exact continueLinking_progresses visiting listed serves assembly pace links
      fun part member => .inr (resting part member)
  | draining error drain => exact pollDrain_progresses visiting.sound error drain

/-- Polls that may nest so deep do what they should. -/
theorem pollWithin_serves (depth : Nat) : Poller.Serves (pollWithin depth) depth := by
  induction depth with
  | zero =>
    intro loader id task _ _ _ _ nesting
    exact absurd nesting (Nat.not_lt_zero _)
  | succ depth ih =>
    intro loader id task sound found resting led nesting
    rw [pollWithin, found]
    dsimp only
    cases stage : task.stage with
    | finished outcome =>
      exact ⟨.refl sound, fun _ _ => le_rfl, fun waiting => by cases waiting⟩
    | advancing => exact absurd stage resting
    | dropped =>
      have impossible := sound.stages id task found
      rw [stage] at impossible
      exact impossible.elim
    | fresh =>
      have isOpen : task.isOpen = true := by rw [Task.isOpen, stage]
      have visiting := isVisiting_setStage sound found isOpen led nesting
      have reserved := sameLoads_reserve (loader.setStage id .advancing) task.file
      have moved : (loader.setStage id .advancing).Moved id
          ((loader.setStage id .advancing).reserve task.file).1 :=
        .of_sameLoads visiting.sound reserved
      dsimp only
      generalize (loader.setStage id .advancing).reserve task.file = start at *
      obtain ⟨now, slot⟩ := start
      have begun : beginTask ⟨pollWithin depth, id, slot⟩ now task =
          beginImporting ⟨pollWithin depth, id, slot⟩ now task.file := by
        simp only [beginTask, sound.imported id task found]
      have progress := beginImporting_progresses ⟨pollWithin depth, id, slot⟩
        (visiting.moved moved) ih
      have cost := reserved.cost
      refine Progresses.record_sound sound found isOpen slot ?_
      rw [begun, stage]
      refine progress.after visiting.sound moved ?_
      have setting : now.setting = loader.setting := moved.setting
      rw [cost, setting]
      exact le_rfl
    | active slot work =>
      have isOpen : task.isOpen = true := by rw [Task.isOpen, stage]
      have visiting := isVisiting_setStage sound found isOpen led nesting
      have soundStage := sound.stages id task found
      rw [stage] at soundStage
      have progress := continueTask_progresses ⟨pollWithin depth, id, slot⟩ visiting ih
        (IsSoundWork.later soundStage rfl (fun _ _ load => load) fun _ => le_rfl)
      rcases progress with progress | still
      · refine Progresses.record_sound sound found isOpen slot ?_
        rwa [stage]
      · exact still.record_sound sound found isOpen stage

end StyleBlock.Loader
