import StyleBlock.Load.Request
import StyleBlock.Proofs.TaskWork

/-!
What loads do to the graph. Whatever is asked of a loader, in any order, its graph, its slots and
its counts of names change in two ways only: a slot is reserved, or a block is completed. A reset
forgets all three.
-/

namespace StyleBlock

namespace Loader

/-- A later state of a loader, as far as its graph, its slots and its counts of names go. -/
inductive Fills : Loader → Loader → Prop
  | keep {loader other : Loader} (graph : other.graph = loader.graph)
      (slots : other.slots = loader.slots) (names : other.names = loader.names) :
      Fills loader other
  | reserve (loader : Loader) (file : FileId) : Fills loader (loader.reserve file).1
  | complete (loader : Loader) (slot : BlockId) (assembly : Assembly)
      (linked : List (Link × BlockId)) : Fills loader (loader.complete slot assembly linked).1
  | trans {first second third : Loader} (one : Fills first second) (other : Fills second third) :
      Fills first third

/-- What holds of a loader whatever it fills. -/
theorem Fills.induct {Holds : Loader → Prop} {loader other : Loader} (fills : loader.Fills other)
    (keep : ∀ {loader other : Loader}, other.graph = loader.graph → other.slots = loader.slots →
      other.names = loader.names → Holds loader → Holds other)
    (reserve : ∀ (loader : Loader) (file : FileId), Holds loader → Holds (loader.reserve file).1)
    (complete : ∀ (loader : Loader) (slot : BlockId) (assembly : Assembly)
      (linked : List (Link × BlockId)), Holds loader →
        Holds (loader.complete slot assembly linked).1) (start : Holds loader) : Holds other := by
  induction fills with
  | keep graph slots names => exact keep graph slots names start
  | reserve loader file => exact reserve loader file start
  | complete loader slot assembly linked => exact complete loader slot assembly linked start
  | trans _ _ one other => exact other (one start)

theorem Fills.refl (loader : Loader) : loader.Fills loader := .keep rfl rfl rfl

/-- Telling, sitting down and getting up fill nothing. -/
theorem Fills.of_quiet {loader other : Loader} (same : other.quiet = loader.quiet) :
    loader.Fills other :=
  .keep (congrArg Loader.graph same :) (congrArg Loader.slots same :)
    (congrArg Loader.names same :)

theorem Fills.isStepwise : IsStepwise Fills := ⟨.of_quiet, .trans⟩

/-- All that the work on tasks does to a graph is to fill it. -/
theorem Works.fills {capacity : Nat} {loader other : Loader} {before after : List Holding}
    (works : Works capacity loader before other after) : loader.Fills other := by
  induction works with
  | keep graph slots names => exact .keep graph slots names
  | reserve loader file => exact .reserve loader file
  | load loader file =>
    unfold Loader.load
    split
    · exact .refl _
    · exact .keep rfl rfl rfl
  | complete loader slot assembly linked => exact .complete loader slot assembly linked
  | run => exact .keep rfl rfl rfl
  | drain => exact .keep rfl rfl rfl
  | @visit loader other id task stage _ _ _ _ work =>
    have taken : loader.Fills (loader.setStage id .advancing) := .keep rfl rfl rfl
    have put : other.Fills (other.setStage id stage) := .keep rfl rfl rfl
    exact (taken.trans work).trans put
  | trans _ _ one other => exact one.trans other

/-! Requests -/

variable (loader : Loader)

theorem fills_setRequest (id : RequestId) (state : RequestState) :
    loader.Fills (loader.setRequest id state) := .keep rfl rfl rfl

theorem fills_dropTask (id : TaskId) : loader.Fills (loader.dropTask id) := by
  unfold dropTask
  split
  · exact .refl _
  · rename_i task _
    split
    · dsimp only
      have dropped : loader.Fills (loader.setStage id .dropped) := .keep rfl rfl rfl
      have left := dropped.trans (.of_quiet (quiet_leaveAll task.watches _))
      generalize task.watches.foldl leave (loader.setStage id .dropped) = last at left
      have released : last.Fills { last with queue := task.releaseFrom last.queue } :=
        .keep rfl rfl rfl
      exact (left.trans released).trans (.of_quiet (quiet_setQueue ..))
    · exact .refl _

theorem fills_sweep : loader.Fills loader.sweep := by
  unfold sweep
  dsimp only
  generalize (List.range loader.tasks.size).filter _ = lost
  induction lost generalizing loader with
  | nil => exact .refl _
  | cons id rest ih => exact (fills_dropTask loader id).trans (ih _)

theorem fills_beginRequest (request : Request) : loader.Fills (loader.beginRequest request).1 := by
  have loads : ∀ (loader : Loader) (file : FileId), loader.Fills (loader.load file).1 :=
    fun loader file => (@Works.load 0 loader file []).fills
  have identified : ∀ base path, loader.Fills (loader.identifier base path).1 :=
    fun _ _ => .keep rfl rfl rfl
  cases request with
  | block id => exact loads ..
  | relative base path => exact (identified (some base) path).trans (loads ..)
  | path path => exact (identified none path).trans (loads ..)
  | source contents id defaultName => exact .keep rfl rfl rfl

theorem fills_pollWatch (listener : Listener) (id : RequestId) (watch : Watch) :
    loader.Fills (loader.pollWatch listener id watch).1 := by
  unfold pollWatch
  dsimp only
  have attended : loader.Fills (loader.attend watch listener).1 := .of_quiet (quiet_attend ..)
  have polled := attended.trans
    (works_pollTask 0 _ (loader.attend watch listener).2.task []).fills
  split <;> rename_i same <;> rw [same] at polled
  · exact (polled.trans (fills_setRequest ..)).trans (fills_sweep _)
  · exact (polled.trans (fills_setRequest ..)).trans (fills_sweep _)

theorem fills_pollFor (listener : Listener) (id : RequestId) :
    loader.Fills (loader.pollFor listener id).1 := by
  unfold pollFor
  split
  · dsimp only
    exact (fills_beginRequest ..).trans (fills_pollWatch ..)
  · exact fills_pollWatch ..
  · exact .refl _

theorem fills_cancel (id : RequestId) : loader.Fills (loader.cancel id) := by
  unfold cancel
  split
  · have left := Fills.of_quiet (quiet_leave loader ‹Watch›)
    exact (left.trans (fills_setRequest ..)).trans (fills_sweep _)
  · exact (fills_setRequest ..).trans (fills_sweep _)

/-! Reachable states -/

/-- The states that a loader can reach. It starts empty; then requests are made, polled one by one
or together, and given up, in any order, with resets between them, while files, preprocessors and
all that others do with the cache and the queue may change. -/
inductive Reachable : Loader → Prop
  | start (options : Options) (importer : Importer) : Reachable (ofImporter options importer)
  | surroundings {loader : Loader} (reached : Reachable loader) (importer : Importer)
      (cache : ImportCache) (preprocessors : List (Dialect × Preprocessor)) (queue : Queue)
      (together : Nat → Bool) :
      Reachable { loader with importer, cache, preprocessors, queue, together }
  | ask {loader : Loader} (reached : Reachable loader) (request : Request) :
      Reachable (loader.ask request).1
  | poll {loader : Loader} (reached : Reachable loader) (listener : Listener) (id : RequestId) :
      Reachable (loader.pollFor listener id).1
  | openJoin {loader : Loader} (reached : Reachable loader) (count : Nat) :
      Reachable (loader.openJoin count).1
  | pollJoin {loader : Loader} (reached : Reachable loader) (pace : Pace) (listener : Listener)
      (answers : List (RequestId × Poll (Except Error BlockId))) :
      Reachable (requestParts.pollJoin pace listener answers loader).1
  | cancel {loader : Loader} (reached : Reachable loader) (id : RequestId) :
      Reachable (loader.cancel id)
  | reset {loader : Loader} (reached : Reachable loader) : Reachable loader.reset

/-- What holds of every loader without blocks, and goes on holding whatever is filled, holds of
every state that a loader can reach. -/
theorem Reachable.induct {Holds : Loader → Prop} {loader : Loader} (reached : loader.Reachable)
    (empty : ∀ loader : Loader, loader.graph = .empty → loader.slots = [] → loader.names = .empty →
      Holds loader)
    (fills : ∀ loader other : Loader, loader.Fills other → Holds loader → Holds other) :
    Holds loader := by
  induction reached with
  | start options importer => exact empty _ rfl rfl rfl
  | @surroundings loader _ importer cache preprocessors queue together holds =>
    exact fills loader _ (.keep rfl rfl rfl) holds
  | @ask loader _ request holds => exact fills loader _ (.keep rfl rfl rfl) holds
  | poll _ listener id holds => exact fills _ _ (fills_pollFor ..) holds
  | openJoin _ count holds => exact fills _ _ (.of_quiet (quiet_openJoin ..)) holds
  | pollJoin _ pace listener answers holds =>
    exact fills _ _ (Fills.isStepwise.pollJoin (fun loader listener part => fills_pollFor ..) ..)
      holds
  | cancel _ id holds => exact fills _ _ (fills_cancel ..) holds
  | reset _ _ => exact fills _ _ (fills_sweep _) (empty _ rfl rfl rfl)

end Loader

end StyleBlock
