import StyleBlock.Proofs.Joins
import StyleBlock.Proofs.PermitAccounts

/-!
What polls of tasks do to a loader. A poll takes a task up, works on it and puts it down again, and
the work is made of few kinds of steps: a slot is reserved, a load is begun, a block is completed, a
run or a drain is polled, or another task. What a task holds of the queue is in hand while the task
is worked on.
-/

namespace StyleBlock

/-- What the work on a task holds of a queue of so many permits. -/
def Work.holdings (capacity : Nat) : Work → List Holding
  | .importing _ => []
  | .preparing _ run => run.holdings
  | .chaining _ _ run => run.holdings
  | .linking _ => []
  | .draining _ drain => drain.holdings capacity

/-- What a task holds of a queue of so many permits between two polls. -/
def Stage.holdings (capacity : Nat) : Stage → List Holding
  | .active _ work => work.holdings capacity
  | _ => []

def WorkStep.holdings (capacity : Nat) : WorkStep → List Holding
  | .more work => work.holdings capacity
  | .done _ => []

namespace Loader

/-! Steps -/

/-- A loader becomes a later one by work that holds something of the queue before, and something
afterwards. -/
inductive Works (capacity : Nat) : Loader → List Holding → Loader → List Holding → Prop
  | keep {loader other : Loader} {held : List Holding} (graph : other.graph = loader.graph)
      (slots : other.slots = loader.slots) (names : other.names = loader.names)
      (queue : other.queue = loader.queue) (requests : other.requests = loader.requests)
      (tasks : other.tasks.map Task.alone = loader.tasks.map Task.alone) :
      Works capacity loader held other held
  | reserve (loader : Loader) (file : FileId) (held : List Holding) :
      Works capacity loader held (loader.reserve file).1 held
  | load (loader : Loader) (file : FileId) (held : List Holding) :
      Works capacity loader held (loader.load file).1 held
  | complete (loader : Loader) (slot : BlockId) (assembly : Assembly)
      (linked : List (Link × BlockId)) (held : List Holding) :
      Works capacity loader held (loader.complete slot assembly linked).1 held
  | run (loader : Loader) (run : Run Processed) (held : List Holding) :
      Works capacity loader (run.holdings ++ held)
        { loader with queue := (run.poll loader.queue).1 }
        (Run.holdingsAfter (run.poll loader.queue).2.2 ++ held)
  | drain (loader : Loader) (drain : Drain) (held : List Holding) :
      Works capacity loader (drain.holdings capacity ++ held)
        { loader with queue := (drain.poll loader.queue).1 }
        (Drain.holdingsAfter capacity (drain.poll loader.queue).2 ++ held)
  /-- A task is taken up and put down again. -/
  | visit {loader other : Loader} {id : TaskId} {task : Task} {stage : Stage}
      {held : List Holding} (found : loader.tasks[id]? = some task) (isOpen : task.isOpen = true)
      (work : Works capacity (loader.setStage id .advancing) (task.stage.holdings capacity ++ held)
        other (stage.holdings capacity ++ held)) :
      Works capacity loader held (other.setStage id stage) held
  | trans {first second third : Loader} {before between after : List Holding}
      (one : Works capacity first before second between)
      (other : Works capacity second between third after) : Works capacity first before third after

variable {capacity : Nat} {held : List Holding} {loader other : Loader}

namespace Works

theorem of_quiet (same : other.quiet = loader.quiet) : Works capacity loader held other held :=
  .keep (congrArg Loader.graph same :) (congrArg Loader.slots same :)
    (congrArg Loader.names same :) (queue_eq_of_quiet same)
    (congrArg Loader.requests same :) (congrArg Loader.tasks same :)

theorem refl (loader : Loader) : Works capacity loader held loader held := .of_quiet rfl

theorem isStepwise : IsStepwise fun loader other => Works capacity loader held other held :=
  ⟨of_quiet, trans⟩

end Works

/-! The queue -/

theorem works_pollDrain (loader : Loader) (error : Error) (drain : Drain) :
    Works capacity loader (drain.holdings capacity ++ held) (loader.pollDrain error drain).1
      ((loader.pollDrain error drain).2.holdings capacity ++ held) := by
  have polled : Works capacity loader (drain.holdings capacity ++ held)
      (loader.setQueue (drain.poll loader.queue).1)
      (Drain.holdingsAfter capacity (drain.poll loader.queue).2 ++ held) :=
    (Works.drain loader drain held).trans (.of_quiet (quiet_setQueue ..))
  unfold pollDrain
  split <;> rename_i same <;> rw [same] at polled <;> exact polled

theorem works_fail (loader : Loader) (error : Error) :
    Works capacity loader held (loader.fail error).1
      ((loader.fail error).2.holdings capacity ++ held) :=
  works_pollDrain loader error .fresh

theorem works_pollRun (visit : Visit) (loader : Loader) (file : FileId)
    (sourceMap : Option String) (run : Run Processed) :
    Works capacity loader (run.holdings ++ held) (pollRun visit loader file sourceMap run).1
      (Run.holdingsAfter (pollRun visit loader file sourceMap run).2 ++ held) := by
  have polled : ∀ processed : List (String × Option String),
      Works capacity loader (run.holdings ++ held)
        ({ loader with processed }.setQueue (run.poll loader.queue).1)
        (Run.holdingsAfter (run.poll loader.queue).2.2 ++ held) := by
    intro processed
    have noted : Works capacity { loader with queue := (run.poll loader.queue).1 }
        (Run.holdingsAfter (run.poll loader.queue).2.2 ++ held)
        { loader with processed, queue := (run.poll loader.queue).1 }
        (Run.holdingsAfter (run.poll loader.queue).2.2 ++ held) :=
      .keep rfl rfl rfl rfl rfl rfl
    exact ((Works.run loader run held).trans noted).trans (.of_quiet (quiet_setQueue ..))
  unfold pollRun
  dsimp only
  split
  · rename_i same
    have now := polled (loader.processed ++ if (run.poll loader.queue).2.1.contains .started then
      [(loader.importer.fullPath file, sourceMap)] else [])
    rw [same] at now
    exact now.trans (.of_quiet (quiet_tell _ (.task visit.task)))
  · exact polled _

end Loader

/-- Whether a way to poll tasks does nothing but work, and has nothing in hand afterwards. -/
def Poller.Works (poll : Poller) (capacity : Nat) : Prop :=
  ∀ (loader : Loader) (id : TaskId) (held : List Holding),
    Loader.Works capacity loader held (poll loader id).1 held

namespace Loader

variable {capacity : Nat} {held : List Holding}

/-! References -/

section Links

variable {poll : Poller} (works : poll.Works capacity) (loader : Loader)
include works

theorem works_pollAwaited (requester target : FileId) (listener : Listener) (watch : Watch) :
    Works capacity loader held
      (pollAwaited poll requester target loader listener watch).1 held := by
  unfold pollAwaited
  dsimp only
  have attended : Works capacity loader held (loader.attend watch listener).1 held :=
    .of_quiet (quiet_attend ..)
  have polled := attended.trans (works _ (loader.attend watch listener).2.task held)
  split
  · rename_i same
    rwa [same] at polled
  · rename_i same
    rw [same] at polled
    exact polled.trans (.keep rfl rfl rfl rfl rfl rfl)

theorem works_pollLink (requester : FileId) (listener : Listener) (link : Link)
    (state : LinkState) :
    Works capacity loader held (pollLink poll requester loader listener link state).1 held := by
  unfold pollLink
  split
  · exact .refl _
  · exact .refl _
  · exact works_pollAwaited works ..
  · split
    · exact .reserve ..
    · dsimp only
      have added : Works capacity loader held
          { loader with waits := loader.waits.add requester link.target } held :=
        .keep rfl rfl rfl rfl rfl rfl
      exact (added.trans (.load ..)).trans (works_pollAwaited works ..)

theorem works_pollLinks (requester : FileId) (pace : Pace) (listener : Listener)
    (links : List (Link × LinkState)) :
    Works capacity loader held ((linkParts poll requester).pollJoin pace listener links loader).1
      held :=
  Works.isStepwise.pollJoin (fun _ _ _ => works_pollLink works ..) ..

end Links

theorem works_assemble (loader : Loader) (file : FileId) (contents defaultName : String)
    (dependencies : List String) :
    Works capacity loader held (loader.assemble file contents defaultName dependencies).1 held :=
  Works.isStepwise.assemble (fun _ _ _ => .keep rfl rfl rfl rfl rfl rfl) ..

/-! From a file to a block -/

section Work

variable {visit : Visit} (works : visit.poll.Works capacity) (loader : Loader)
include works

theorem works_continueLinking (file : FileId) (assembly : Assembly) :
    Works capacity loader held (continueLinking visit loader file assembly).1
      ((continueLinking visit loader file assembly).2.holdings capacity ++ held) := by
  unfold continueLinking
  dsimp only
  have polled := @works_pollLinks capacity held _ works loader file assembly.pace
    (.task visit.task) assembly.links
  split
  · exact (polled.trans (.of_quiet (quiet_leaveAll ..))).trans (works_fail ..)
  · split
    · exact polled
    · rename_i linked _
      have completed := polled.trans (.complete _ visit.slot assembly linked held)
      split
      · rename_i same
        rw [same] at completed
        exact completed.trans (works_fail ..)
      · rename_i same
        rwa [same] at completed

theorem works_build (file : FileId) (contents defaultName : String)
    (dependencies : List String) :
    Works capacity loader held (build visit loader file contents defaultName dependencies).1
      ((build visit loader file contents defaultName dependencies).2.holdings capacity ++
        held) := by
  unfold build
  have noted : Works capacity loader held
      { loader with built := loader.built ++ [visit.task] } held :=
    .keep rfl rfl rfl rfl rfl rfl
  have read := noted.trans (works_assemble _ file contents defaultName dependencies)
  dsimp only
  split
  · rename_i same
    rw [same] at read
    exact read.trans (works_fail ..)
  · rename_i same
    rw [same] at read
    exact read.trans (works_continueLinking works ..)

theorem works_continueChaining (file : ImportedFile) (before : Processed) (run : Run Processed) :
    Works capacity loader (run.holdings ++ held) (continueChaining visit loader file before run).1
      ((continueChaining visit loader file before run).2.holdings capacity ++ held) := by
  unfold continueChaining
  have polled := @works_pollRun capacity held visit loader file.identifier before.sourceMap run
  split <;> rename_i same <;> rw [same] at polled
  · exact polled
  · exact polled.trans (works_fail ..)
  · exact polled.trans (works_build works ..)

theorem works_chain (file : ImportedFile) (before : Processed) :
    Works capacity loader held (chain visit loader file before).1
      ((chain visit loader file before).2.holdings capacity ++ held) := by
  unfold chain
  dsimp only
  split
  · exact works_build works ..
  · exact works_continueChaining works loader file before (.fresh _)

theorem works_continuePreparing (file : ImportedFile) (run : Run Processed) :
    Works capacity loader (run.holdings ++ held) (continuePreparing visit loader file run).1
      ((continuePreparing visit loader file run).2.holdings capacity ++ held) := by
  unfold continuePreparing
  have polled := @works_pollRun capacity held visit loader file.identifier none run
  split <;> rename_i same <;> rw [same] at polled
  · exact polled
  · exact polled.trans (works_fail ..)
  · exact polled.trans (works_chain works ..)

theorem works_prepare (file : ImportedFile) :
    Works capacity loader held (prepare visit loader file).1
      ((prepare visit loader file).2.holdings capacity ++ held) := by
  unfold prepare
  dsimp only
  split
  · exact works_chain works ..
  · split
    · exact works_fail ..
    · exact works_continuePreparing works loader file (.fresh _)

theorem works_continueImporting (file : FileId) (left : Nat) :
    Works capacity loader held (continueImporting visit loader file left).1
      ((continueImporting visit loader file left).2.holdings capacity ++ held) := by
  cases left with
  | succ left => exact .of_quiet (quiet_tell loader (.task visit.task))
  | zero =>
    unfold continueImporting
    dsimp only
    have settled : Works capacity loader held
        { loader with cache := loader.cache.settle file (loader.importer.read file) } held :=
      .keep rfl rfl rfl rfl rfl rfl
    split
    · exact settled.trans (works_fail ..)
    · exact settled.trans (works_prepare works ..)

theorem works_beginTask (task : Task) :
    Works capacity loader held (beginTask visit loader task).1
      ((beginTask visit loader task).2.holdings capacity ++ held) := by
  unfold beginTask
  split
  · unfold beginImporting
    split
    · exact works_prepare works ..
    · have noted : Works capacity loader held
          { loader with cache := loader.cache.noteRead task.file } held :=
        .keep rfl rfl rfl rfl rfl rfl
      exact noted.trans (works_continueImporting works ..)
  · exact works_build works ..

theorem works_continueTask (task : Task) (work : Work) :
    Works capacity loader (work.holdings capacity ++ held) (continueTask visit loader task work).1
      ((continueTask visit loader task work).2.holdings capacity ++ held) := by
  cases work with
  | importing left => exact works_continueImporting works ..
  | preparing file run => exact works_continuePreparing works ..
  | chaining file before run => exact works_continueChaining works ..
  | linking assembly => exact works_continueLinking works ..
  | draining error drain => exact works_pollDrain ..

end Work

/-! The poll of a task -/

theorem works_record {loader : Loader} {id : TaskId} {task : Task}
    (found : loader.tasks[id]? = some task) (isOpen : task.isOpen = true) (slot : BlockId)
    {result : Loader × WorkStep}
    (work : Works capacity (loader.setStage id .advancing) (task.stage.holdings capacity ++ held)
      result.1 (result.2.holdings capacity ++ held)) :
    Works capacity loader held (result.1.record id task slot result.2).1 held := by
  obtain ⟨after, step⟩ := result
  cases step with
  | more work' => exact @Works.visit capacity _ _ _ _ (.active slot work') _ found isOpen work
  | done outcome =>
    have put : Works capacity loader held
        ((after.setStage id (.finished outcome)).tell (.task id)) held :=
      (@Works.visit capacity _ _ _ _ (.finished outcome) _ found isOpen work).trans
        (.of_quiet (quiet_tell ..))
    unfold record
    dsimp only
    split
    · exact put
    · exact put.trans (.keep rfl rfl rfl rfl rfl rfl)

/-- Polls do nothing but work, however deep they nest. -/
theorem works_pollWithin (capacity depth : Nat) : Poller.Works (pollWithin depth) capacity := by
  induction depth with
  | zero => exact fun loader _ _ => .refl loader
  | succ depth ih =>
    intro loader id held
    unfold pollWithin
    cases found : loader.tasks[id]? with
    | none => exact .refl _
    | some task =>
      dsimp only
      cases stage : task.stage with
      | finished => exact .refl _
      | advancing => exact .refl _
      | dropped => exact .refl _
      | fresh =>
        refine works_record found (by rw [Task.isOpen, stage]) _ ?_
        rw [stage]
        exact (Works.reserve _ task.file held).trans (works_beginTask ih ..)
      | active slot work =>
        refine works_record found (by rw [Task.isOpen, stage]) slot ?_
        rw [stage]
        exact works_continueTask ih ..

theorem works_pollTask (capacity : Nat) (loader : Loader) (id : TaskId) (held : List Holding) :
    Works capacity loader held (loader.pollTask id).1 held :=
  works_pollWithin capacity _ loader id held

end Loader

end StyleBlock
