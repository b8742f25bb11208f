import Mathlib
import StyleBlock.Load.Progress

/-!
What a loader keeps of its loads, apart from who is told of what. Telling, sitting down and getting
up change no more than rosters and turns, so nothing that is said here of loads notices them.
-/

namespace StyleBlock

namespace Task

/-- The task without those who wait for it. -/
def alone (task : Task) : Task := { task with roster := .empty }

theorem file_eq_of_alone {first second : Task} (same : first.alone = second.alone) :
    first.file = second.file := (congrArg Task.file same :)

theorem origin_eq_of_alone {first second : Task} (same : first.alone = second.alone) :
    first.origin = second.origin := (congrArg Task.origin same :)

theorem stage_eq_of_alone {first second : Task} (same : first.alone = second.alone) :
    first.stage = second.stage := (congrArg Task.stage same :)

end Task

namespace Loader

/-- The loader without those who wait to be told. -/
def quiet (loader : Loader) : Loader :=
  { loader with tasks := loader.tasks.map Task.alone, joins := #[] }

theorem queue_eq_of_quiet {loader other : Loader} (same : other.quiet = loader.quiet) :
    other.queue = loader.queue := (congrArg Loader.queue same :)

theorem quiet_setRoster (loader : Loader) (id : TaskId) (roster : Roster) :
    (loader.setRoster id roster).quiet = loader.quiet := by
  have tasks : (loader.tasks.modify id fun task => { task with roster }).map Task.alone =
      loader.tasks.map Task.alone := by
    apply Array.ext_getElem?
    intro index
    rw [Array.getElem?_map, Array.getElem?_map, Array.getElem?_modify]
    split
    · cases loader.tasks[index]? <;> rfl
    · rfl
  simp only [quiet, setRoster, tasks]

theorem quiet_setTurns (loader : Loader) (join : JoinId) (turns : Turns) :
    (loader.setTurns join turns).quiet = loader.quiet := rfl

theorem quiet_tellOne (loader : Loader) (listener : Listener) :
    (loader.tellOne listener).1.quiet = loader.quiet := by
  cases listener with
  | caller => rfl
  | task id =>
    unfold tellOne
    dsimp only
    split
    · rfl
    · exact quiet_setRoster ..
  | part join index =>
    unfold tellOne
    dsimp only
    split
    · rfl
    · rfl

theorem quiet_tellWithin (steps : Nat) (listeners : List Listener) (loader : Loader) :
    (tellWithin steps listeners loader).quiet = loader.quiet := by
  induction steps generalizing listeners loader with
  | zero => rfl
  | succ steps ih =>
    cases listeners with
    | nil => rfl
    | cons listener rest =>
      rw [tellWithin, ih, quiet_tellOne]

theorem quiet_tell (loader : Loader) (listener : Listener) :
    (loader.tell listener).quiet = loader.quiet := quiet_tellWithin ..

theorem quiet_attend (loader : Loader) (watch : Watch) (listener : Listener) :
    (loader.attend watch listener).1.quiet = loader.quiet := by
  unfold attend
  split
  · rfl
  · split
    · rfl
    · split <;> exact quiet_setRoster ..

theorem task_attend (loader : Loader) (watch : Watch) (listener : Listener) :
    (loader.attend watch listener).2.task = watch.task := by
  unfold attend
  split
  · rfl
  · split
    · rfl
    · split <;> rfl

theorem quiet_leave (loader : Loader) (watch : Watch) :
    (loader.leave watch).quiet = loader.quiet := by
  unfold leave
  split
  · split
    · rfl
    · exact quiet_setRoster ..
  · rfl

theorem quiet_leaveAll (watches : List Watch) (loader : Loader) :
    (watches.foldl leave loader).quiet = loader.quiet := by
  induction watches generalizing loader with
  | nil => rfl
  | cons watch rest ih => rw [List.foldl_cons, ih, quiet_leave]

theorem quiet_setQueue (loader : Loader) (queue : Queue) :
    (loader.setQueue queue).quiet = { loader with queue }.quiet := by
  unfold setQueue
  generalize queue.permits.servedSince loader.queue.permits = served
  generalize { loader with queue } = start
  induction served generalizing start with
  | nil => rfl
  | cons ticket rest ih =>
    rw [List.foldl_cons, ih]
    split
    · exact quiet_tell ..
    · rfl

/-! What decides how loads go on -/

/-- The task that loads a file. -/
def loadOf? (loader : Loader) (file : FileId) : Option TaskId :=
  (loader.loads.find? fun (other, _) => other == file).map Prod.snd

theorem load_of_some {loader : Loader} {file : FileId} {id : TaskId}
    (found : loader.loadOf? file = some id) : loader.load file = (loader, id) := by
  unfold loadOf? at found
  unfold load
  split
  · rename_i same
    rw [same] at found
    cases found
    rfl
  · rename_i missing
    rw [missing] at found
    cases found

theorem load_of_none {loader : Loader} {file : FileId} (new : loader.loadOf? file = none) :
    loader.load file = ((loader.addTask (.ofFile file .imported)).1.setLoad file loader.tasks.size,
      loader.tasks.size) := by
  unfold loadOf? at new
  unfold load
  split
  · rename_i same
    rw [same] at new
    cases new
  · rfl

/-- Whether two states of a loader agree on the files, the loads and how far each of them is: on all
that decides how loads go on, apart from the queue. -/
structure SameLoads (loader other : Loader) : Prop where
  options : other.options = loader.options
  importer : other.importer = loader.importer
  preprocessors : other.preprocessors = loader.preprocessors
  together : other.together = loader.together
  cache : other.cache = loader.cache
  loads : other.loads = loader.loads
  waits : other.waits = loader.waits
  tasks : other.tasks.map Task.alone = loader.tasks.map Task.alone

theorem SameLoads.of_quiet {loader other : Loader} (same : other.quiet = loader.quiet) :
    loader.SameLoads other :=
  ⟨(congrArg Loader.options same :), (congrArg Loader.importer same :),
    (congrArg Loader.preprocessors same :), (congrArg Loader.together same :),
    (congrArg Loader.cache same :), (congrArg Loader.loads same :),
    (congrArg Loader.waits same :), (congrArg Loader.tasks same :)⟩

namespace SameLoads

theorem refl (loader : Loader) : loader.SameLoads loader := .of_quiet rfl

theorem trans {first second third : Loader} (one : first.SameLoads second)
    (other : second.SameLoads third) : first.SameLoads third :=
  ⟨other.options.trans one.options, other.importer.trans one.importer,
    other.preprocessors.trans one.preprocessors, other.together.trans one.together,
    other.cache.trans one.cache, other.loads.trans one.loads, other.waits.trans one.waits,
    other.tasks.trans one.tasks⟩

theorem symm {first second : Loader} (same : first.SameLoads second) : second.SameLoads first :=
  ⟨same.options.symm, same.importer.symm, same.preprocessors.symm, same.together.symm,
    same.cache.symm, same.loads.symm, same.waits.symm, same.tasks.symm⟩

variable {loader other : Loader} (same : loader.SameLoads other)
include same

theorem getElem? (id : TaskId) :
    (other.tasks[id]?).map Task.alone = (loader.tasks[id]?).map Task.alone := by
  rw [← Array.getElem?_map, ← Array.getElem?_map, same.tasks]

theorem exists_task {id : TaskId} {task : Task} (found : loader.tasks[id]? = some task) :
    ∃ again, other.tasks[id]? = some again ∧ again.alone = task.alone := by
  have equal := same.getElem? id
  rw [found] at equal
  exact Option.map_eq_some_iff.mp equal

theorem loadOf? (file : FileId) : other.loadOf? file = loader.loadOf? file := by
  rw [Loader.loadOf?, Loader.loadOf?, same.loads]

theorem map_tasks {β : Type} (value : FileId → Stage → β) :
    other.tasks.toList.map (fun task => value task.file task.stage) =
      loader.tasks.toList.map fun task => value task.file task.stage := by
  have tasks := congrArg (fun tasks => tasks.toList.map fun task => value task.file task.stage)
    same.tasks
  simpa [Task.alone, Function.comp_def] using tasks

end SameLoads

end Loader

end StyleBlock
