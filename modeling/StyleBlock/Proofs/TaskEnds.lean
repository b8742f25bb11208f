import StyleBlock.Proofs.FlightAccounts

/-!
How tasks end. What a poll answers stays with the task, and a task that nobody can ask for any more
is dropped, with no effect on the loads of others. Tasks stay what they are in all this.
-/

namespace StyleBlock

namespace Loader

variable {start loader other : Loader}

/-! The end of a task -/

theorem finished_of_record {id : TaskId} (advancing : loader.IsAdvancing id) (task : Task)
    (slot : BlockId) {step : WorkStep} {outcome : Except Error BlockId}
    (ready : (loader.record id task slot step).2 = .ready outcome) :
    ∃ last, (loader.record id task slot step).1.tasks[id]? = some last ∧
      last.stage = .finished outcome := by
  cases step with
  | more work => cases ready
  | done result =>
    obtain ⟨before, found, _⟩ := advancing
    have put : (loader.setStage id (.finished result)).tasks[id]? =
        some { before with stage := .finished result } := by
      rw [getElem?_setStage, if_pos rfl, found]
      rfl
    obtain ⟨last, foundLast, alone⟩ := exists_task_of_alone
      (congrArg Loader.tasks (quiet_tell (loader.setStage id (.finished result)) (.task id)) :) put
    have stage := Task.stage_eq_of_alone alone
    unfold record at ready ⊢
    cases origin : task.origin with
    | imported =>
      rw [origin] at ready
      cases ready
      exact ⟨last, foundLast, stage⟩
    | given contents defaultName =>
      rw [origin] at ready
      cases ready
      exact ⟨last, foundLast, stage⟩

/-- What a poll answers stays with the task. -/
theorem finished_of_ready {id : TaskId} {outcome : Except Error BlockId}
    (ready : (loader.pollTask id).2 = .ready outcome) :
    ∃ last, (loader.pollTask id).1.tasks[id]? = some last ∧ last.stage = .finished outcome := by
  unfold pollTask at ready ⊢
  generalize loader.depthBound = depth at ready ⊢
  cases depth with
  | zero => cases ready
  | succ depth =>
    unfold pollWithin at ready ⊢
    cases found : loader.tasks[id]? with
    | none =>
      rw [found] at ready
      cases ready
    | some task =>
      have under : (loader.setStage id .advancing).IsAdvancing id :=
        ⟨{ task with stage := .advancing }, by rw [getElem?_setStage, if_pos rfl, found]; rfl, rfl⟩
      rw [found] at ready
      dsimp only at ready ⊢
      cases stage : task.stage with
      | finished result =>
        rw [stage] at ready
        cases ready
        exact ⟨task, found, stage⟩
      | advancing =>
        rw [stage] at ready
        cases ready
      | dropped =>
        rw [stage] at ready
        cases ready
      | fresh =>
        rw [stage] at ready
        have works := (Works.reserve (loader.setStage id .advancing) task.file []).trans
          (@works_beginTask 0 [] ⟨pollWithin depth, id,
            ((loader.setStage id .advancing).reserve task.file).2⟩
              (works_pollWithin 0 depth) _ task)
        exact finished_of_record (works.isAdvancing under) task _ ready
      | active slot work =>
        rw [stage] at ready
        have works := @works_continueTask 0 [] ⟨pollWithin depth, id, slot⟩
          (works_pollWithin 0 depth) (loader.setStage id .advancing) task work
        exact finished_of_record (works.isAdvancing under) task slot ready

theorem pollTask_of_none {id : TaskId} (missing : loader.tasks[id]? = none) :
    loader.pollTask id = (loader, .pending) := by
  unfold pollTask
  cases loader.depthBound with
  | zero => rfl
  | succ depth => rw [pollWithin, missing]

/-! Tasks that are dropped -/

/-- Whether a task has been dropped, or rests anyway. -/
def IsClosedAt (loader : Loader) (id : TaskId) : Prop :=
  ∀ task, loader.tasks[id]? = some task → task.isOpen = false

theorem dropTask_cases (loader : Loader) (id : TaskId) :
    (loader.IsClosedAt id ∧ loader.dropTask id = loader) ∨
      ∃ task, loader.tasks[id]? = some task ∧ task.isOpen = true ∧
        (loader.setStage id .dropped).SameFlights (loader.dropTask id) ∧
          (loader.dropTask id).requests = loader.requests := by
  cases found : loader.tasks[id]? with
  | none =>
    refine .inl ⟨fun task same => ?_, by rw [dropTask, found]⟩
    rw [found] at same
    cases same
  | some task =>
    have same : loader.dropTask id = if task.isOpen then
        (task.watches.foldl leave (loader.setStage id .dropped)).setQueue
          (task.releaseFrom (task.watches.foldl leave (loader.setStage id .dropped)).queue)
      else loader := by rw [dropTask, found]
    cases isOpen : task.isOpen with
    | false =>
      refine .inl ⟨fun again known => ?_, by rw [same, isOpen]; rfl⟩
      rw [← Option.some.inj (found.symm.trans known), isOpen]
    | true =>
      have left := quiet_leaveAll task.watches (loader.setStage id .dropped)
      rw [same, if_pos isOpen]
      generalize task.watches.foldl leave (loader.setStage id .dropped) = last at left
      have requests : (last.setQueue (task.releaseFrom last.queue)).requests = last.requests :=
        (congrArg Loader.requests (quiet_setQueue last _) :)
      exact .inr ⟨task, rfl, isOpen, (SameFlights.of_quiet left).trans (.setQueue last _),
        requests.trans (congrArg Loader.requests left :)⟩

theorem isLater_dropTask (loader : Loader) (id : TaskId) : loader.IsLater (loader.dropTask id) := by
  obtain ⟨_, same⟩ | ⟨task, found, isOpen, same, _⟩ := dropTask_cases loader id
  · rw [same]
    exact .refl loader
  · exact (IsLater.setStage found isOpen .dropped).trans (.of_alone same.tasks)

theorem IsSingle.dropTask (single : start.IsSingle loader []) (id : TaskId) :
    start.IsSingle (loader.dropTask id) [] := by
  obtain ⟨_, same⟩ | ⟨task, found, isOpen, same, _⟩ := dropTask_cases loader id
  · rwa [same]
  · have dropped := IsSingle.setStage .dropped found (single.first found isOpen) trivial single
    exact (dropped.of_sublist (List.nil_sublist _)).keep same

theorem isLater_sweep (loader : Loader) : loader.IsLater loader.sweep := by
  unfold sweep
  dsimp only
  generalize (List.range loader.tasks.size).filter _ = lost
  induction lost generalizing loader with
  | nil => exact .refl _
  | cons id rest ih => exact (isLater_dropTask loader id).trans (ih _)

theorem IsSingle.sweep (single : start.IsSingle loader []) : start.IsSingle loader.sweep [] := by
  unfold Loader.sweep
  dsimp only
  generalize (List.range loader.tasks.size).filter _ = lost
  induction lost generalizing loader with
  | nil => exact single
  | cons id rest ih => exact ih (single.dropTask id)

theorem requests_dropTask (loader : Loader) (id : TaskId) :
    (loader.dropTask id).requests = loader.requests := by
  obtain ⟨_, same⟩ | ⟨_, _, _, _, requests⟩ := dropTask_cases loader id
  · rw [same]
  · exact requests

theorem requests_sweep (loader : Loader) : loader.sweep.requests = loader.requests := by
  unfold sweep
  dsimp only
  generalize (List.range loader.tasks.size).filter _ = lost
  induction lost generalizing loader with
  | nil => rfl
  | cons id rest ih => exact (ih _).trans (requests_dropTask loader id)

theorem IsClosedAt.dropTask {id : TaskId} (closed : loader.IsClosedAt id) (other : TaskId) :
    (loader.dropTask other).IsClosedAt id := by
  obtain ⟨_, same⟩ | ⟨task, found, _, same, _⟩ := dropTask_cases loader other
  · rwa [same]
  · intro last known
    obtain ⟨before, foundBefore, alone⟩ := exists_task_of_alone same.tasks.symm known
    rw [← isOpen_of_alone alone]
    rw [getElem?_setStage, found] at foundBefore
    split at foundBefore
    · cases foundBefore
      rfl
    · exact closed before foundBefore

theorem isClosedAt_dropTask (loader : Loader) (id : TaskId) :
    (loader.dropTask id).IsClosedAt id := by
  obtain ⟨closed, same⟩ | ⟨task, found, _, same, _⟩ := dropTask_cases loader id
  · rwa [same]
  · intro last known
    obtain ⟨before, foundBefore, alone⟩ := exists_task_of_alone same.tasks.symm known
    rw [← isOpen_of_alone alone]
    rw [getElem?_setStage, if_pos rfl, found] at foundBefore
    cases foundBefore
    rfl

theorem isClosedAt_dropAll {ids : List TaskId} {id : TaskId}
    (dropped : id ∈ ids ∨ loader.IsClosedAt id) : (ids.foldl dropTask loader).IsClosedAt id := by
  induction ids generalizing loader with
  | nil => exact dropped.resolve_left List.not_mem_nil
  | cons first rest ih =>
    refine ih ?_
    rcases dropped with member | closed
    · rcases List.mem_cons.mp member with rfl | member
      · exact .inr (isClosedAt_dropTask loader id)
      · exact .inl member
    · exact .inr (closed.dropTask first)

theorem sweep_of_roots (unheld : loader.roots = []) :
    loader.sweep = (List.range loader.tasks.size).foldl dropTask loader := by
  have nobody : ∀ rounds, loader.saturate [] rounds = [] := by
    intro rounds
    induction rounds with
    | zero => rfl
    | succ rounds ih => exact ih
  unfold sweep heldTasks
  rw [unheld, nobody]
  simp

theorem loads_dropTask (loader : Loader) (id : TaskId) :
    (loader.dropTask id).loads = loader.loads ∧ (loader.dropTask id).slots = loader.slots := by
  obtain ⟨_, same⟩ | ⟨_, _, _, same, _⟩ := dropTask_cases loader id
  · rw [same]
    exact ⟨rfl, rfl⟩
  · exact ⟨same.loads, same.slots⟩

theorem size_dropTask (loader : Loader) (id : TaskId) :
    (loader.dropTask id).tasks.size = loader.tasks.size := by
  obtain ⟨_, same⟩ | ⟨_, _, _, same, _⟩ := dropTask_cases loader id
  · rw [same]
  · rw [size_of_alone same.tasks]
    simp [setStage]

theorem dropAll_keeps (ids : List TaskId) (loader : Loader) :
    (ids.foldl dropTask loader).loads = loader.loads ∧
      (ids.foldl dropTask loader).slots = loader.slots ∧
        (ids.foldl dropTask loader).tasks.size = loader.tasks.size := by
  induction ids generalizing loader with
  | nil => exact ⟨rfl, rfl, rfl⟩
  | cons id rest ih =>
    obtain ⟨loads, slots, size⟩ := ih (loader.dropTask id)
    obtain ⟨loadsFirst, slotsFirst⟩ := loads_dropTask loader id
    exact ⟨loads.trans loadsFirst, slots.trans slotsFirst, size.trans (size_dropTask loader id)⟩

end Loader

end StyleBlock
