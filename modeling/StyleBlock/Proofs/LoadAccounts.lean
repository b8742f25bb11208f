import StyleBlock.Proofs.LoadSound
import StyleBlock.Proofs.TaskWork

/-!
Where the permits of a loader are. What the tasks hold of the queue, and what is in hand of the
tasks under way, is all that anybody holds of it: polls lose no permit, however deep they nest.
-/

namespace StyleBlock

theorem flatMap_modify_perm {α β : Type} (parts : α → List β) (change : α → α) {items : List α}
    {index : Nat} {item : α} (found : items[index]? = some item) :
    (parts item ++ (items.modify index change).flatMap parts).Perm
      (parts (change item) ++ items.flatMap parts) := by
  induction items generalizing index with
  | nil => simp at found
  | cons first rest ih =>
    cases index with
    | zero =>
      obtain rfl : first = item := by simpa using found
      simp only [List.modify_zero_cons, List.flatMap_cons]
      exact List.perm_append_comm_assoc ..
    | succ index =>
      have later := ih (by simpa using found)
      simp only [List.modify_succ_cons, List.flatMap_cons]
      exact (List.perm_append_comm_assoc ..).trans
        ((later.append_left _).trans (List.perm_append_comm_assoc ..))

namespace Loader

/-- What all tasks hold of a queue of so many permits. -/
def holdings (loader : Loader) (capacity : Nat) : List Holding :=
  loader.tasks.toList.flatMap fun task => task.stage.holdings capacity

variable {capacity : Nat} {loader other : Loader}

theorem holdings_eq_of_alone (same : other.tasks.map Task.alone = loader.tasks.map Task.alone) :
    other.holdings capacity = loader.holdings capacity := by
  have tasks := congrArg
    (fun tasks => tasks.toList.flatMap fun task : Task => task.stage.holdings capacity) same
  simpa [holdings, Task.alone, List.flatMap_map] using tasks

theorem holdings_load (loader : Loader) (file : FileId) :
    (loader.load file).1.holdings capacity = loader.holdings capacity := by
  cases found : loader.loadOf? file with
  | some id => rw [load_of_some found]
  | none =>
    rw [load_of_none found]
    simp [holdings, addTask, setLoad, Task.ofFile, Stage.holdings]

theorem holdings_setStage {id : TaskId} {task : Task} (found : loader.tasks[id]? = some task)
    (stage : Stage) :
    (task.stage.holdings capacity ++ (loader.setStage id stage).holdings capacity).Perm
      (stage.holdings capacity ++ loader.holdings capacity) := by
  have known : loader.tasks.toList[id]? = some task := by simpa using found
  have changed := flatMap_modify_perm (fun task : Task => task.stage.holdings capacity)
    (fun task => { task with stage }) known
  simpa only [holdings, setStage, Array.toList_modify] using changed

theorem mem_holdings {holding : Holding} : holding ∈ loader.holdings capacity ↔
    ∃ (id : TaskId) (task : Task),
      loader.tasks[id]? = some task ∧ holding ∈ task.stage.holdings capacity := by
  rw [holdings, List.mem_flatMap]
  constructor
  · rintro ⟨task, present, member⟩
    obtain ⟨id, found⟩ := Array.mem_iff_getElem?.mp (Array.mem_toList_iff.mp present)
    exact ⟨id, task, found, member⟩
  · rintro ⟨id, task, found, member⟩
    exact ⟨task, Array.mem_toList_iff.mpr (Array.mem_of_getElem? found), member⟩

/-! Slots and blocks -/

theorem queue_reserve (loader : Loader) (file : FileId) :
    (loader.reserve file).1.queue = loader.queue ∧
      (loader.reserve file).1.requests = loader.requests ∧
        (loader.reserve file).1.tasks = loader.tasks := by
  unfold reserve
  split <;> exact ⟨rfl, rfl, rfl⟩

theorem queue_load (loader : Loader) (file : FileId) :
    (loader.load file).1.queue = loader.queue ∧
      (loader.load file).1.requests = loader.requests := by
  unfold load
  split <;> exact ⟨rfl, rfl⟩

theorem queue_complete (loader : Loader) (slot : BlockId) (assembly : Assembly)
    (linked : List (Link × BlockId)) :
    (loader.complete slot assembly linked).1.queue = loader.queue ∧
      (loader.complete slot assembly linked).1.requests = loader.requests ∧
        (loader.complete slot assembly linked).1.tasks = loader.tasks := by
  unfold complete store
  split
  · exact ⟨rfl, rfl, rfl⟩
  · dsimp only
    split
    · exact ⟨rfl, rfl, rfl⟩
    · split <;> exact ⟨rfl, rfl, rfl⟩

namespace Works

variable {before after : List Holding}

/-- Work on tasks answers no request. -/
theorem requests (works : Works capacity loader before other after) :
    other.requests = loader.requests := by
  induction works with
  | keep _ _ _ _ requests => exact requests
  | reserve loader file => exact (queue_reserve loader file).2.1
  | load loader file => exact (queue_load loader file).2
  | complete loader slot assembly linked => exact (queue_complete loader slot assembly linked).2.1
  | run => rfl
  | drain => rfl
  | visit _ _ _ work => exact work
  | trans _ _ one other => exact other.trans one

theorem isAdvancing_of_alone (same : other.tasks.map Task.alone = loader.tasks.map Task.alone)
    {id : TaskId} (advancing : loader.IsAdvancing id) : other.IsAdvancing id := by
  obtain ⟨task, found, stage⟩ := advancing
  have equal : (other.tasks[id]?).map Task.alone = (loader.tasks[id]?).map Task.alone := by
    rw [← Array.getElem?_map, ← Array.getElem?_map, same]
  rw [found] at equal
  obtain ⟨again, foundAgain, alone⟩ := Option.map_eq_some_iff.mp equal
  exact ⟨again, foundAgain, (Task.stage_eq_of_alone alone).trans stage⟩

/-- A task under way stays under way as long as others are worked on. -/
theorem isAdvancing (works : Works capacity loader before other after) {id : TaskId}
    (advancing : loader.IsAdvancing id) : other.IsAdvancing id := by
  induction works with
  | keep _ _ _ _ _ tasks => exact isAdvancing_of_alone tasks advancing
  | reserve loader file =>
    obtain ⟨task, found, stage⟩ := advancing
    exact ⟨task, (queue_reserve loader file).2.2 ▸ found, stage⟩
  | load loader file =>
    obtain ⟨task, found, stage⟩ := advancing
    exact ⟨task, getElem?_load_of_some found file, stage⟩
  | complete loader slot assembly linked =>
    obtain ⟨task, found, stage⟩ := advancing
    exact ⟨task, (queue_complete loader slot assembly linked).2.2 ▸ found, stage⟩
  | run => exact advancing
  | drain => exact advancing
  | @visit loader other index task stage _ found isOpen work ih =>
    obtain ⟨again, foundAgain, isAdvancing⟩ := advancing
    have apart : id ≠ index := by
      rintro rfl
      rw [found] at foundAgain
      cases foundAgain
      rw [Task.isOpen, isAdvancing] at isOpen
      cases isOpen
    obtain ⟨last, foundLast, stageLast⟩ := ih ⟨again, by
      rwa [getElem?_setStage, if_neg apart], isAdvancing⟩
    exact ⟨last, by rwa [getElem?_setStage, if_neg apart], stageLast⟩
  | trans _ _ one other => exact other (one advancing)

/-- Work on tasks loses no permit. -/
theorem accounts (works : Works capacity loader before other after)
    (fits : loader.queue.capacity = capacity)
    (accounts : loader.queue.Accounts (before ++ loader.holdings capacity)) :
    other.queue.capacity = capacity ∧ other.queue.Accounts (after ++ other.holdings capacity) := by
  induction works with
  | keep _ _ _ queue _ tasks =>
    rw [queue, holdings_eq_of_alone tasks]
    exact ⟨fits, accounts⟩
  | reserve loader file =>
    obtain ⟨queue, _, tasks⟩ := queue_reserve loader file
    rw [queue, holdings, tasks]
    exact ⟨fits, accounts⟩
  | load loader file =>
    rw [(queue_load loader file).1, holdings_load]
    exact ⟨fits, accounts⟩
  | complete loader slot assembly linked =>
    obtain ⟨queue, _, tasks⟩ := queue_complete loader slot assembly linked
    rw [queue, holdings, tasks]
    exact ⟨fits, accounts⟩
  | run loader run held =>
    rw [List.append_assoc] at accounts ⊢
    obtain ⟨same, accounts⟩ := run.accounts_poll accounts
    exact ⟨same.trans fits, accounts⟩
  | drain loader drain held =>
    subst fits
    rw [List.append_assoc] at accounts ⊢
    exact drain.accounts_poll accounts
  | @visit loader other id task stage held found isOpen work ih =>
    -- what the task holds is in hand while it is under way
    have taken := @holdings_setStage capacity loader id task found .advancing
    have atHand := ih fits (accounts.of_perm (by
      rw [List.append_assoc]
      exact (List.perm_append_comm_assoc ..).trans (taken.append_left held)))
    have under : (loader.setStage id .advancing).IsAdvancing id :=
      ⟨{ task with stage := .advancing }, by rw [getElem?_setStage, if_pos rfl, found]; rfl, rfl⟩
    obtain ⟨last, foundLast, advancing⟩ := work.isAdvancing under
    have put := @holdings_setStage capacity other id last foundLast stage
    rw [advancing] at put
    refine ⟨atHand.1, atHand.2.of_perm ?_⟩
    rw [List.append_assoc]
    exact (put.append_left held).trans (List.perm_append_comm_assoc ..)
  | trans _ _ one other =>
    obtain ⟨fits, accounts⟩ := one fits accounts
    exact other fits accounts

end Works

end Loader

end StyleBlock
