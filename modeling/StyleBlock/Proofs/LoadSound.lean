import StyleBlock.Proofs.LoadCost
import StyleBlock.Proofs.WaitsGraph

/-!
What holds of a loader whenever one of its requests is polled. Every file has at most one task, what
is remembered of the importer is what it answers, and every reference that waits has an entry of its
own among the waits, which make no cycle.
-/

namespace StyleBlock

/-- Whether every file that can be read is listed, and knows the identifier that it was asked for
by. -/
structure Importer.IsLawful (importer : Importer) : Prop where
  files : ∀ id file, importer.read id = .ok file → id ∈ importer.files
  identifier : ∀ id file, importer.read id = .ok file → file.identifier = id

/-- Whether a reference has nothing left to do before the load it waits for. -/
def LinkState.IsResting : LinkState → Prop
  | fresh => False
  | waiting watch => watch.seat.isSome
  | linked _ => True
  | failed _ => False

/-- How many references to a file wait for its load. -/
def Assembly.waitingFor (target : FileId) (links : List (Link × LinkState)) : Nat :=
  links.countP fun (link, state) => link.target = target && state.watch?.isSome

namespace Loader

def IsAdvancing (loader : Loader) (id : TaskId) : Prop :=
  ∃ task, loader.tasks[id]? = some task ∧ task.stage = .advancing

/-- Whether each of the references of a file that wait does so for the task of its target, and has
an entry of its own among the waits besides so many others. -/
structure IsSoundLinks (loader : Loader) (file : FileId) (others : FileId → Nat)
    (links : List (Link × LinkState)) : Prop where
  loads : ∀ part ∈ links, ∀ watch, part.2 = .waiting watch →
    loader.loadOf? part.1.target = some watch.task
  entries : ∀ target,
    others target + Assembly.waitingFor target links ≤ (loader.waits.targets file).count target

def IsSoundWork (loader : Loader) (file : FileId) : Work → Prop
  | .importing _ => True
  | .preparing found _ => found.identifier = file ∧ file ∈ loader.importer.files
  | .chaining found _ _ => found.identifier = file ∧ file ∈ loader.importer.files
  | .linking assembly =>
    file ∈ loader.importer.files ∧ assembly.pace = .together ∧
      (∀ part ∈ assembly.links, part.2.IsResting) ∧
      loader.IsSoundLinks file (fun _ => 0) assembly.links
  | .draining _ _ => True

def IsSoundStage (loader : Loader) (file : FileId) : Stage → Prop
  | .active _ work => loader.IsSoundWork file work
  | .dropped => False
  | _ => True

structure Sound (loader : Loader) : Prop where
  lawful : loader.importer.IsLawful
  together : ∀ count, loader.together count = true
  imports : ∀ entry ∈ loader.cache.imports, loader.importer.read entry.1 = .ok entry.2
  identifiers : ∀ entry ∈ loader.cache.identifiers,
    loader.importer.identifier entry.1.1 entry.1.2 = entry.2
  acyclic : loader.waits.IsAcyclic
  loaded : ∀ (id : TaskId) (task : Task), loader.tasks[id]? = some task →
    loader.loadOf? task.file = some id
  tasks : ∀ file id, loader.loadOf? file = some id →
    ∃ task, loader.tasks[id]? = some task ∧ task.file = file
  imported : ∀ (id : TaskId) (task : Task), loader.tasks[id]? = some task → task.origin = .imported
  stages : ∀ (id : TaskId) (task : Task), loader.tasks[id]? = some task →
    loader.IsSoundStage task.file task.stage

/-! What depends on little of the loader -/

section Later

variable {loader other : Loader} {file : FileId}

theorem IsSoundLinks.later {others : FileId → Nat} {links : List (Link × LinkState)}
    (sound : loader.IsSoundLinks file others links)
    (loads : ∀ target id, loader.loadOf? target = some id → other.loadOf? target = some id)
    (targets : ∀ target, (loader.waits.targets file).count target ≤
      (other.waits.targets file).count target) :
    other.IsSoundLinks file others links where
  loads part member watch waits := loads _ _ (sound.loads part member watch waits)
  entries target := (sound.entries target).trans (targets target)

theorem IsSoundWork.later {work : Work} (sound : loader.IsSoundWork file work)
    (importer : other.importer = loader.importer)
    (loads : ∀ target id, loader.loadOf? target = some id → other.loadOf? target = some id)
    (targets : ∀ target, (loader.waits.targets file).count target ≤
      (other.waits.targets file).count target) :
    other.IsSoundWork file work := by
  cases work with
  | importing left => exact trivial
  | preparing found run => exact ⟨sound.1, importer ▸ sound.2⟩
  | chaining found before run => exact ⟨sound.1, importer ▸ sound.2⟩
  | linking assembly =>
    obtain ⟨listed, pace, resting, links⟩ := sound
    exact ⟨importer ▸ listed, pace, resting, links.later loads targets⟩
  | draining error drain => exact trivial

theorem IsSoundStage.later {stage : Stage} (sound : loader.IsSoundStage file stage)
    (importer : other.importer = loader.importer)
    (loads : ∀ target id, loader.loadOf? target = some id → other.loadOf? target = some id)
    (targets : ∀ target, (loader.waits.targets file).count target ≤
      (other.waits.targets file).count target) :
    other.IsSoundStage file stage := by
  cases stage with
  | active slot work => exact IsSoundWork.later sound importer loads targets
  | dropped => exact sound
  | fresh | advancing | finished => exact trivial

end Later

/-! Steps that keep a loader sound -/

namespace Sound

variable {loader : Loader} (sound : loader.Sound)
include sound

/-- Two tasks for one file are one task. -/
theorem task_unique {first second : TaskId} {task again : Task}
    (found : loader.tasks[first]? = some task) (foundAgain : loader.tasks[second]? = some again)
    (same : task.file = again.file) : first = second := by
  have one := sound.loaded first task found
  have other := sound.loaded second again foundAgain
  rw [same, other] at one
  exact (Option.some.inj one).symm

theorem of_sameLoads {other : Loader} (same : loader.SameLoads other) : other.Sound where
  lawful := same.importer ▸ sound.lawful
  together := same.together ▸ sound.together
  imports := by simpa only [same.cache, same.importer] using sound.imports
  identifiers := by simpa only [same.cache, same.importer] using sound.identifiers
  acyclic := same.waits ▸ sound.acyclic
  loaded id task found := by
    obtain ⟨before, known, alone⟩ := same.symm.exists_task found
    rw [same.loadOf?, ← Task.file_eq_of_alone alone]
    exact sound.loaded id before known
  tasks file id found := by
    rw [same.loadOf?] at found
    obtain ⟨before, known, isFile⟩ := sound.tasks file id found
    obtain ⟨task, found, alone⟩ := same.exists_task known
    exact ⟨task, found, (Task.file_eq_of_alone alone).trans isFile⟩
  imported id task found := by
    obtain ⟨before, known, alone⟩ := same.symm.exists_task found
    exact (Task.origin_eq_of_alone alone).symm.trans (sound.imported id before known)
  stages id task found := by
    obtain ⟨before, known, alone⟩ := same.symm.exists_task found
    have fine := sound.stages id before known
    rw [Task.file_eq_of_alone alone, Task.stage_eq_of_alone alone] at fine
    refine fine.later same.importer (fun target id load => ?_) fun target => ?_
    · rw [same.loadOf?, load]
    · rw [same.waits]

theorem setStage {id : TaskId} {stage : Stage}
    (fine : ∀ task, loader.tasks[id]? = some task → loader.IsSoundStage task.file stage) :
    (loader.setStage id stage).Sound where
  lawful := sound.lawful
  together := sound.together
  imports := sound.imports
  identifiers := sound.identifiers
  acyclic := sound.acyclic
  loaded index task found := by
    rw [getElem?_setStage] at found
    split at found
    · rename_i same
      obtain ⟨before, known, rfl⟩ := Option.map_eq_some_iff.mp found
      exact same ▸ sound.loaded id before known
    · exact sound.loaded index task found
  tasks file index found := by
    obtain ⟨task, known, isFile⟩ := sound.tasks file index found
    rw [getElem?_setStage]
    split
    · rename_i same
      subst same
      exact ⟨{ task with stage }, by rw [known]; rfl, isFile⟩
    · exact ⟨task, known, isFile⟩
  imported index task found := by
    rw [getElem?_setStage] at found
    split at found
    · obtain ⟨before, known, rfl⟩ := Option.map_eq_some_iff.mp found
      exact sound.imported id before known
    · exact sound.imported index task found
  stages index task found := by
    rw [getElem?_setStage] at found
    split at found
    · obtain ⟨before, known, rfl⟩ := Option.map_eq_some_iff.mp found
      exact (fine before known).later rfl (fun _ _ load => load) fun _ => le_rfl
    · exact (sound.stages index task found).later rfl (fun _ _ load => load) fun _ => le_rfl

/-- A changed cache that still holds nothing but answers of the importer. -/
theorem setCache {cache : ImportCache}
    (imports : ∀ entry ∈ cache.imports, loader.importer.read entry.1 = .ok entry.2)
    (identifiers : ∀ entry ∈ cache.identifiers,
      loader.importer.identifier entry.1.1 entry.1.2 = entry.2) : { loader with cache }.Sound where
  lawful := sound.lawful
  together := sound.together
  imports := imports
  identifiers := identifiers
  acyclic := sound.acyclic
  loaded := sound.loaded
  tasks := sound.tasks
  imported := sound.imported
  stages id task found :=
    (sound.stages id task found).later rfl (fun _ _ load => load) fun _ => le_rfl

/-- Changed waits without cycles, of which no task that rests misses an entry. -/
theorem setWaits {waits : Waits} (acyclic : waits.IsAcyclic)
    (targets : ∀ (id : TaskId) (task : Task), loader.tasks[id]? = some task →
      task.stage ≠ .advancing → ∀ target, (loader.waits.targets task.file).count target ≤
        (waits.targets task.file).count target) :
    { loader with waits }.Sound where
  lawful := sound.lawful
  together := sound.together
  imports := sound.imports
  identifiers := sound.identifiers
  acyclic := acyclic
  loaded := sound.loaded
  tasks := sound.tasks
  imported := sound.imported
  stages id task found := by
    by_cases advancing : task.stage = .advancing
    · rw [advancing]
      exact trivial
    · exact (sound.stages id task found).later rfl (fun _ _ load => load)
        (targets id task found advancing)

/-- A task is made for a file that has none. -/
theorem load_of_none {file : FileId} (new : loader.loadOf? file = none) :
    (loader.load file).1.Sound ∧ (loader.load file).1.loadOf? file = some (loader.load file).2 ∧
      ∀ target id, loader.loadOf? target = some id →
        (loader.load file).1.loadOf? target = some id := by
  have made := Loader.load_of_none new
  have loads := loadOf?_load_of_none new
  have tasks := tasks_load_of_none new
  have later : ∀ target id, loader.loadOf? target = some id →
      (loader.load file).1.loadOf? target = some id :=
    fun _ _ found => loadOf?_load_of_some found file
  have importer : (loader.load file).1.importer = loader.importer := by rw [made]; rfl
  have waits : (loader.load file).1.waits = loader.waits := by rw [made]; rfl
  have cache : (loader.load file).1.cache = loader.cache := by rw [made]; rfl
  have together : (loader.load file).1.together = loader.together := by rw [made]; rfl
  refine ⟨⟨importer ▸ sound.lawful, together ▸ sound.together, ?_, ?_, waits ▸ sound.acyclic,
    ?_, ?_, ?_, ?_⟩, ?_, later⟩
  · simpa only [cache, importer] using sound.imports
  · simpa only [cache, importer] using sound.identifiers
  · intro id task found
    rcases eq_or_found_of_load new found with ⟨rfl, rfl⟩ | known
    · rw [loads, Task.ofFile, if_pos rfl]
    · exact later _ _ (sound.loaded id task known)
  · intro target id found
    rw [loads] at found
    split at found
    · rename_i same
      cases found
      exact ⟨.ofFile file .imported, by rw [tasks, Array.getElem?_push, if_pos rfl], same.symm⟩
    · obtain ⟨task, known, isFile⟩ := sound.tasks target id found
      exact ⟨task, getElem?_load_of_some known file, isFile⟩
  · intro id task found
    rcases eq_or_found_of_load new found with ⟨rfl, rfl⟩ | known
    · rfl
    · exact sound.imported id task known
  · intro id task found
    rcases eq_or_found_of_load new found with ⟨rfl, rfl⟩ | known
    · exact trivial
    · exact (sound.stages id task known).later importer later fun _ => by rw [waits]
  · rw [loads, if_pos rfl, made]

end Sound

end Loader

end StyleBlock
