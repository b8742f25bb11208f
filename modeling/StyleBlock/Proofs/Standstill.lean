import StyleBlock.Proofs.LoadAccounts
import StyleBlock.Proofs.LoadPolls

/-!
Loads that wait for permits only. Nothing comes of polling them, as often as it may be done; and
since not everybody who holds a ticket can miss permits, somebody else must hold the permits that
they wait for: a load that none of them waits for.
-/

namespace StyleBlock

namespace Task

theorem holdings_of_ticket? {task : Task} {number : Nat} (waits : task.ticket? = some number)
    (capacity : Nat) :
    ∃ wanted, task.stage.holdings capacity = [.ticket number wanted] := by
  unfold ticket? at waits
  split at waits
  · rename_i slot file run stage
    cases run with
    | waiting ticket job =>
      cases waits
      exact ⟨1, by rw [stage]; rfl⟩
    | fresh | running => cases waits
  · rename_i slot file before run stage
    cases run with
    | waiting ticket job =>
      cases waits
      exact ⟨1, by rw [stage]; rfl⟩
    | fresh | running => cases waits
  · rename_i slot error drain stage
    cases drain with
    | waiting ticket =>
      cases waits
      exact ⟨capacity, by rw [stage]; rfl⟩
    | fresh => cases waits
  · cases waits

theorem exists_work_of_ticket? {task : Task} {number : Nat}
    (waits : task.ticket? = some number) : ∃ slot work, task.stage = .active slot work := by
  unfold ticket? at waits
  split at waits
  · exact ⟨_, _, ‹_›⟩
  · exact ⟨_, _, ‹_›⟩
  · exact ⟨_, _, ‹_›⟩
  · cases waits

/-- A task that waits for others is waiting for the references of its block. -/
theorem exists_assembly_of_watches {task : Task} (waits : task.watches ≠ []) :
    ∃ slot assembly, task.stage = .active slot (.linking assembly) ∧
      task.watches = Assembly.watches assembly.links := by
  unfold watches at waits
  split at waits
  · rename_i slot assembly stage
    exact ⟨slot, assembly, stage, by rw [watches, stage]⟩
  · exact absurd rfl waits

theorem holdings_of_watches {task : Task} (waits : task.watches ≠ []) (capacity : Nat) :
    task.stage.holdings capacity = [] := by
  obtain ⟨slot, assembly, stage, _⟩ := exists_assembly_of_watches waits
  rw [stage]
  rfl

end Task

namespace Run

theorem poll_of_missing {α : Type} {queue : Queue} {run : Run α} {number : Nat}
    (waits : run.ticket? = some number) (missing : queue.permits.takeUp? number = none) :
    run.poll queue = (queue, [], .more run) := by
  cases run with
  | waiting ticket job =>
    cases waits
    rw [poll, missing]
  | fresh | running => cases waits

end Run

namespace Drain

theorem poll_of_missing {queue : Queue} {drain : Drain} {number : Nat}
    (waits : drain.ticket? = some number) (missing : queue.permits.takeUp? number = none) :
    drain.poll queue = (queue, some drain) := by
  cases drain with
  | waiting ticket =>
    cases waits
    rw [poll, missing]
  | fresh => cases waits

end Drain

namespace Loader

/-! Polls that find nothing to do -/

/-- Whether a poll finds nothing to do. -/
structure FindsNothing (loader : Loader) (result : Loader × Poll (Except Error BlockId)) :
    Prop where
  pending : result.2 = .pending
  same : loader.SameLoads result.1
  queue : result.1.queue = loader.queue

/-- Whether a state is an earlier one, but for tasks that have been taken up. -/
structure IsTakenUp (loader now : Loader) : Prop where
  queue : now.queue = loader.queue
  tasks : ∀ (id : TaskId) (task : Task), loader.tasks[id]? = some task →
    ∃ again, now.tasks[id]? = some again ∧ (again.stage = .advancing ∨ again.stage = task.stage)

namespace IsTakenUp

variable {loader now other : Loader}

theorem refl (loader : Loader) : loader.IsTakenUp loader :=
  ⟨rfl, fun _ task found => ⟨task, found, .inr rfl⟩⟩

theorem later (taken : loader.IsTakenUp now) (same : now.SameLoads other)
    (queue : other.queue = now.queue) : loader.IsTakenUp other := by
  refine ⟨queue.trans taken.queue, fun id task found => ?_⟩
  obtain ⟨again, foundAgain, stage⟩ := taken.tasks id task found
  obtain ⟨last, foundLast, alone⟩ := same.exists_task foundAgain
  exact ⟨last, foundLast, by rwa [Task.stage_eq_of_alone alone]⟩

theorem setStage (taken : loader.IsTakenUp now) (id : TaskId) :
    loader.IsTakenUp (now.setStage id .advancing) := by
  refine ⟨taken.queue, fun index task found => ?_⟩
  obtain ⟨again, foundAgain, stage⟩ := taken.tasks index task found
  rw [getElem?_setStage]
  split
  · rename_i same
    subst same
    exact ⟨{ again with stage := .advancing }, by rw [foundAgain]; rfl, .inl rfl⟩
  · exact ⟨again, foundAgain, stage⟩

end IsTakenUp

variable {loader now : Loader}

/-- References that wait for loads without anything to do. -/
theorem pollTogether_findsNothing {poll : Poller} {file : FileId} (listener : Listener)
    {links : List (Link × LinkState)} (resting : ∀ part ∈ links, part.2.IsResting)
    (still : ∀ (now : Loader), loader.IsTakenUp now → ∀ part ∈ links, ∀ watch,
      part.2 = .waiting watch → now.FindsNothing (poll now watch.task))
    (taken : loader.IsTakenUp now) :
    let result := (linkParts poll file).pollTogether listener links now
    result.2 = links ∧ now.SameLoads result.1 ∧ result.1.queue = now.queue := by
  induction links generalizing now with
  | nil => exact ⟨rfl, .refl now, rfl⟩
  | cons part rest ih =>
    obtain ⟨link, state⟩ := part
    have restingRest : ∀ part ∈ rest, part.2.IsResting := fun part member =>
      resting part (List.mem_cons_of_mem _ member)
    have stillRest : ∀ (now : Loader), loader.IsTakenUp now → ∀ part ∈ rest, ∀ watch,
        part.2 = .waiting watch → now.FindsNothing (poll now watch.task) :=
      fun now taken part member => still now taken part (List.mem_cons_of_mem _ member)
    have here := resting _ List.mem_cons_self
    cases state with
    | fresh => cases here
    | failed error => cases here
    | linked id =>
      obtain ⟨links, same, queue⟩ := ih restingRest stillRest taken
      exact ⟨congrArg _ links, same, queue⟩
    | waiting watch =>
      have attended := SameLoads.of_quiet (quiet_attend now watch listener)
      have queueAttended : (now.attend watch listener).1.queue = now.queue :=
        queue_eq_of_quiet (quiet_attend now watch listener)
      have seated : (now.attend watch listener).2 = watch := attend_of_seat here listener
      have takenNow := taken.later attended queueAttended
      obtain ⟨pending, same, queue⟩ :=
        still _ takenNow _ List.mem_cons_self watch rfl
      have step : (linkParts poll file).poll now listener (link, .waiting watch) =
          ((poll (now.attend watch listener).1 watch.task).1, (link, .waiting watch)) := by
        simp only [linkParts, pollLink, pollAwaited, seated]
        generalize poll (now.attend watch listener).1 watch.task = polled at pending
        obtain ⟨after, answer⟩ := polled
        cases pending
        rfl
      obtain ⟨links, sameLater, queueLater⟩ :=
        ih restingRest stillRest (takenNow.later same queue)
      simp only [Parts.pollTogether, step]
      exact ⟨congrArg _ links, (attended.trans same).trans sameLater,
        (queueLater.trans queue).trans queueAttended⟩

/-- Work that waits for a permit without having got it stays as it is. -/
theorem continueTask_of_missing (visit : Visit) (loader : Loader) {task : Task} {slot : BlockId}
    {work : Work} {number : Nat} (stage : task.stage = .active slot work)
    (waits : task.ticket? = some number)
    (missing : loader.queue.permits.takeUp? number = none) :
    (continueTask visit loader task work).2 = .more work ∧
      loader.SameLoads (continueTask visit loader task work).1 ∧
        (continueTask visit loader task work).1.queue = loader.queue := by
  rw [Task.ticket?, stage] at waits
  cases work with
  | importing left => cases waits
  | linking assembly => cases waits
  | preparing file run =>
    have same := pollRun_eq visit loader file.identifier none run
    rw [Run.poll_of_missing waits missing] at same
    simp only [continueTask, continuePreparing]
    generalize pollRun visit loader file.identifier none run = polled at same
    obtain ⟨after, step⟩ := polled
    obtain ⟨same, queue, rfl⟩ := same
    exact ⟨rfl, same, queue⟩
  | chaining file before run =>
    have same := pollRun_eq visit loader file.identifier before.sourceMap run
    rw [Run.poll_of_missing waits missing] at same
    simp only [continueTask, continueChaining]
    generalize pollRun visit loader file.identifier before.sourceMap run = polled at same
    obtain ⟨after, step⟩ := polled
    obtain ⟨same, queue, rfl⟩ := same
    exact ⟨rfl, same, queue⟩
  | draining error drain =>
    simp only [continueTask, pollDrain, Drain.poll_of_missing waits missing]
    exact ⟨trivial, sameLoads_setQueue .., queue_setQueue ..⟩

theorem continueLinking_findsNothing {visit : Visit} {file : FileId} {assembly : Assembly}
    (pace : assembly.pace = .together) (resting : ∀ part ∈ assembly.links, part.2.IsResting)
    (waits : Assembly.watches assembly.links ≠ [])
    (still : ∀ (now : Loader), loader.IsTakenUp now → ∀ part ∈ assembly.links, ∀ watch,
      part.2 = .waiting watch → now.FindsNothing (visit.poll now watch.task))
    (taken : loader.IsTakenUp now) :
    (continueLinking visit now file assembly).2 = .more (.linking assembly) ∧
      now.SameLoads (continueLinking visit now file assembly).1 ∧
        (continueLinking visit now file assembly).1.queue = now.queue := by
  obtain ⟨draft, dependencies, _, links⟩ := assembly
  obtain rfl : _ = Pace.together := pace
  have polled := @pollTogether_findsNothing loader now visit.poll file (.task visit.task) links
    resting still taken
  have noError : Assembly.error? .together links = none := by
    refine List.findSome?_eq_none_iff.mpr fun part member => ?_
    have here := resting part member
    obtain ⟨link, state⟩ := part
    cases state <;> simp_all [LinkState.IsResting, LinkState.error?]
  simp only [continueLinking, Parts.pollJoin]
  generalize (linkParts visit.poll file).pollTogether (.task visit.task) links now =
    result at polled
  obtain ⟨after, parts⟩ := result
  obtain ⟨rfl, same, queue⟩ := polled
  simp only [noError, linked?_eq_none_of_watches waits]
  exact ⟨trivial, same, queue⟩

/-- A task whose work stays as it is is put down as it was taken up. -/
theorem record_findsNothing {after : Loader} {id : TaskId} {task : Task} {slot : BlockId}
    {work : Work} (found : now.tasks[id]? = some task) (stage : task.stage = .active slot work)
    (same : (now.setStage id .advancing).SameLoads after) (queue : after.queue = now.queue) :
    now.FindsNothing (after.record id task slot (.more work)) := by
  have rest := sameLoads_rest found same
  rw [stage] at rest
  exact ⟨rfl, rest, queue⟩

/-- Nothing comes of polling a load that waits for permits only, whoever is under way besides. -/
theorem IsQueued.findsNothing_of_isTakenUp (sound : loader.Sound) (depth : Nat) {id : TaskId}
    (queued : loader.IsQueued id) (taken : loader.IsTakenUp now) :
    now.FindsNothing (pollWithin depth now id) := by
  induction depth generalizing now id with
  | zero => exact ⟨rfl, .refl now, rfl⟩
  | succ depth ih =>
    rw [pollWithin]
    have known : ∃ task, loader.tasks[id]? = some task := by
      cases queued with
      | permits found => exact ⟨_, found⟩
      | loads found => exact ⟨_, found⟩
    obtain ⟨task, found⟩ := known
    obtain ⟨again, foundAgain, stage⟩ := taken.tasks id task found
    rw [foundAgain]
    dsimp only
    rcases stage with advancing | stage
    · rw [advancing]
      exact ⟨rfl, .refl now, rfl⟩
    · have takenNow := taken.setStage id
      cases queued with
      | @permits _ _ number foundTask waits missing =>
        obtain rfl : task = _ := Option.some.inj (found.symm.trans foundTask)
        have waitsAgain : again.ticket? = some number := by rwa [Task.ticket?, stage]
        obtain ⟨slot, work, isStage⟩ := Task.exists_work_of_ticket? waits
        have isStage : again.stage = .active slot work := stage.trans isStage
        rw [isStage]
        dsimp only
        obtain ⟨step, same, queue⟩ := continueTask_of_missing ⟨pollWithin depth, id, slot⟩
          (now.setStage id .advancing) isStage waitsAgain (takenNow.queue ▸ missing)
        rw [step]
        exact record_findsNothing foundAgain isStage same queue
      | loads foundTask waits queued =>
        obtain rfl : task = _ := Option.some.inj (found.symm.trans foundTask)
        obtain ⟨slot, assembly, isStage, watches⟩ := Task.exists_assembly_of_watches waits
        have soundStage := sound.stages id task found
        rw [isStage] at soundStage
        obtain ⟨_, pace, resting, _⟩ := soundStage
        have isStage : again.stage = .active slot (.linking assembly) := stage.trans isStage
        rw [isStage]
        dsimp only
        have still : ∀ (now : Loader), loader.IsTakenUp now → ∀ part ∈ assembly.links, ∀ watch,
            part.2 = .waiting watch → now.FindsNothing (pollWithin depth now watch.task) := by
          rintro now taken ⟨link, state⟩ member watch rfl
          refine ih (queued watch ?_) taken
          rw [watches]
          exact List.mem_filterMap.mpr ⟨_, member, rfl⟩
        obtain ⟨step, same, queue⟩ := @continueLinking_findsNothing loader
          (now.setStage id .advancing) ⟨pollWithin depth, id, slot⟩ again.file assembly pace resting
          (watches ▸ waits) still takenNow
        rw [continueTask, step]
        exact record_findsNothing foundAgain isStage same queue

/-- Nothing comes of polling a load that waits for permits only. -/
theorem IsQueued.findsNothing (sound : loader.Sound) {id : TaskId} (queued : loader.IsQueued id) :
    loader.FindsNothing (loader.pollTask id) :=
  queued.findsNothing_of_isTakenUp sound _ (.refl loader)

/-! Who holds the permits -/

/-- Whether a task waits for another one, for the block of a reference. -/
def Awaits (loader : Loader) (id other : TaskId) : Prop :=
  ∃ task, loader.tasks[id]? = some task ∧ ∃ watch ∈ task.watches, watch.task = other

/-- Whether a task holds a permit or a ticket for permits. -/
def Holds (loader : Loader) (id : TaskId) : Prop :=
  ∃ task, loader.tasks[id]? = some task ∧ task.stage.holdings loader.queue.capacity ≠ []

theorem IsQueued.of_awaits {id other : TaskId} (queued : loader.IsQueued id)
    (way : Relation.ReflTransGen loader.Awaits id other) : loader.IsQueued other := by
  induction way with
  | refl => exact queued
  | tail _ awaits ih =>
    obtain ⟨task, found, watch, member, rfl⟩ := awaits
    cases ih with
    | permits foundTask waits _ =>
      obtain rfl : task = _ := Option.some.inj (found.symm.trans foundTask)
      obtain ⟨wanted, holdings⟩ := Task.holdings_of_ticket? waits 0
      rw [Task.holdings_of_watches (List.ne_nil_of_mem member)] at holdings
      cases holdings
    | loads foundTask _ all =>
      obtain rfl : task = _ := Option.some.inj (found.symm.trans foundTask)
      exact all watch member

/-- A load that waits for permits only waits for somebody who holds a ticket. -/
theorem IsQueued.exists_holds {id : TaskId} (queued : loader.IsQueued id) :
    ∃ other, loader.Holds other := by
  induction queued with
  | permits found waits =>
    obtain ⟨wanted, holdings⟩ := Task.holdings_of_ticket? waits loader.queue.capacity
    exact ⟨_, _, found, by rw [holdings]; simp⟩
  | loads _ waits _ ih =>
    obtain ⟨watch, member⟩ := List.exists_mem_of_ne_nil _ waits
    exact ih watch member

/-- Some of the permits that a load waits for are not where it can get them: at a load that it does
not wait for. -/
theorem IsQueued.exists_abandoned {id : TaskId} (queued : loader.IsQueued id)
    (accounts : loader.queue.Accounts (loader.holdings loader.queue.capacity)) :
    ∃ other, loader.Holds other ∧ ¬ Relation.ReflTransGen loader.Awaits id other := by
  by_contra none
  have awaited : ∀ other, loader.Holds other → loader.IsQueued other := by
    intro other holds
    by_contra apart
    exact none ⟨other, holds, fun way => apart (queued.of_awaits way)⟩
  have missing : ∀ holding ∈ loader.holdings loader.queue.capacity, ∃ number wanted,
      holding = .ticket number wanted ∧ loader.queue.permits.takeUp? number = .none := by
    intro holding member
    obtain ⟨other, task, found, member⟩ := mem_holdings.mp member
    cases awaited other ⟨task, found, List.ne_nil_of_mem member⟩ with
    | permits foundTask waits missing =>
      obtain rfl : task = _ := Option.some.inj (found.symm.trans foundTask)
      obtain ⟨wanted, holdings⟩ := Task.holdings_of_ticket? waits loader.queue.capacity
      rw [holdings] at member
      exact ⟨_, wanted, List.mem_singleton.mp member, missing⟩
    | loads foundTask waits _ =>
      obtain rfl : task = _ := Option.some.inj (found.symm.trans foundTask)
      rw [Task.holdings_of_watches waits] at member
      cases member
  obtain ⟨other, task, found, holds⟩ := queued.exists_holds
  obtain ⟨holding, member⟩ := List.exists_mem_of_ne_nil _ holds
  have inAll : holding ∈ loader.holdings loader.queue.capacity :=
    mem_holdings.mpr ⟨other, task, found, member⟩
  rw [accounts.permits.eq_nil_of_missing missing] at inAll
  cases inAll

end Loader

end StyleBlock
