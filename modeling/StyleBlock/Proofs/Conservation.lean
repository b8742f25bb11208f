import Mathlib
import StyleBlock.Proofs.PermitAccounts
import StyleBlock.Queue.Session

/-!
What holds of a queue however its jobs and drains are made, polled and dropped. Each permit is free,
held by a job that runs, or owned by somebody who waits; so no more jobs run than there are permits,
and none does when a drain is over.
-/

namespace StyleBlock

/-- The names that a log has an event with. -/
def loggedIn (event : JobEvent) (log : List (JobEvent × String)) : List String :=
  (log.filter fun entry => entry.1 = event).map Prod.snd

theorem loggedIn_append (event : JobEvent) (log more : List (JobEvent × String)) :
    loggedIn event (log ++ more) = loggedIn event log ++ loggedIn event more := by
  simp [loggedIn]

namespace Run

variable {α : Type} {queue : Queue} {holdings : List Holding}

/-- The name that a run counts under while it runs. -/
def runningAs (name : String) : Run α → List String
  | running _ => [name]
  | _ => []

def runningAfter (name : String) : RunStep α → List String
  | .more run => run.runningAs name
  | .done _ => []

/-- Whether the events of a poll fit in: a run starts before it runs, and runs until it ends. -/
def FitsIn (name : String) (before : List String) (result : Queue × List JobEvent × RunStep α) :
    Prop :=
  let events := result.2.1.map fun event => (event, name)
  loggedIn .started events ++ before = loggedIn .ended events ++ runningAfter name result.2.2

theorem fitsIn_advance (queue : Queue) (job : Job α) (name : String) :
    FitsIn name [name] (advance queue job) := by
  unfold advance
  split <;> rfl

theorem fitsIn_start (queue : Queue) (job : Job α) (name : String) :
    FitsIn name [] (start queue job) := by
  unfold start advance
  cases job.polls <;> rfl

theorem fitsIn_poll (run : Run α) (queue : Queue) (name : String) :
    FitsIn name (run.runningAs name) (run.poll queue) := by
  cases run with
  | fresh job =>
    rw [poll]
    split
    · rfl
    · split
      · exact fitsIn_start ..
      · rfl
  | waiting number job =>
    rw [poll]
    split
    · exact fitsIn_start ..
    · rfl
  | running job =>
    rw [poll]
    exact fitsIn_advance ..

/-- A job starts with a permit that no other job holds. -/
theorem sum_permits_lt_of_started (run : Run α)
    (accounts : queue.Accounts (run.holdings ++ holdings))
    (starts : JobEvent.started ∈ (run.poll queue).2.1) :
    ((run.holdings ++ holdings).map Holding.permits).sum < queue.capacity := by
  obtain ⟨_, accounts⟩ := accounts
  have below : ∀ {permits : Permits}, permits.Accounts queue.capacity (0 + 1) holdings →
      (holdings.map Holding.permits).sum < queue.capacity := by
    intro permits accounts
    have total := accounts.total
    omega
  cases run with
  | fresh job =>
    rw [poll] at starts
    split at starts
    · cases starts
    · split at starts
      · rename_i permits acquired
        exact below (accounts.acquire_none acquired)
      · cases starts
  | waiting number job =>
    rw [poll] at starts
    split at starts
    · rename_i permits taken
      simpa [Run.holdings, Holding.permits] using below (accounts.takeUp taken)
    · cases starts
  | running job =>
    rw [poll] at starts
    unfold advance at starts
    split at starts <;> simp at starts

end Run

/-! Tasks -/

namespace QueueTask

/-- What a task holds of a queue of so many permits. -/
def holdings (capacity : Nat) : QueueTask → List Holding
  | job run => run.holdings
  | drain pending => pending.holdings capacity

/-- The name that a task counts under while it is a job that runs. -/
def runningAs (name : String) : QueueTask → List String
  | job run => run.runningAs name
  | drain _ => []

def ticket? : QueueTask → Option Nat
  | job run => run.ticket?
  | drain pending => pending.ticket?

theorem length_runningAs (task : QueueTask) (name : String) (capacity : Nat) :
    (task.runningAs name).length = ((task.holdings capacity).map Holding.permits).sum := by
  rcases task with (_ | _ | _) | (_ | _) <;> rfl

theorem tickets_holdings (task : QueueTask) (capacity : Nat) :
    ((task.holdings capacity).filterMap Holding.ticket?).map Prod.fst = task.ticket?.toList := by
  rcases task with (_ | _ | _) | (_ | _) <;> rfl

/-- Dropping a task loses no permit. -/
theorem accounts_drop (task : QueueTask) {queue : Queue} {others : List Holding}
    (accounts : queue.Accounts (task.holdings queue.capacity ++ others)) :
    (task.drop queue).capacity = queue.capacity ∧ (task.drop queue).Accounts others := by
  cases task with
  | job run => exact run.accounts_drop accounts
  | drain pending => exact pending.accounts_drop accounts

end QueueTask

/-! Sessions -/

/-- What tasks hold of a queue of so many permits. -/
def holdingsOf (capacity : Nat) (tasks : List (String × QueueTask)) : List Holding :=
  tasks.flatMap fun entry => entry.2.holdings capacity

/-- The names of the jobs among tasks that run. -/
def runningOf (tasks : List (String × QueueTask)) : List String :=
  tasks.flatMap fun entry => entry.2.runningAs entry.1

theorem length_runningOf (capacity : Nat) (tasks : List (String × QueueTask)) :
    (runningOf tasks).length = ((holdingsOf capacity tasks).map Holding.permits).sum := by
  induction tasks with
  | nil => rfl
  | cons first rest ih =>
    rw [runningOf, holdingsOf, List.flatMap_cons, List.flatMap_cons, List.length_append,
      List.map_append, List.sum_append, ← first.2.length_runningAs first.1]
    exact congrArg _ ih

theorem tickets_holdingsOf (capacity : Nat) (tasks : List (String × QueueTask)) :
    ((holdingsOf capacity tasks).filterMap Holding.ticket?).map Prod.fst =
      tasks.filterMap fun entry => entry.2.ticket? := by
  induction tasks with
  | nil => rfl
  | cons first rest ih =>
    rw [holdingsOf, List.flatMap_cons, List.filterMap_append, List.map_append,
      first.2.tickets_holdings, List.filterMap_cons]
    cases first.2.ticket? with
    | none => exact ih
    | some ticket => exact congrArg _ ih

namespace QueueSession

/-- The names of the jobs that run. -/
def running (session : QueueSession) : List String := runningOf session.tasks

/-- How many permits those who wait own. -/
def owned (session : QueueSession) : Nat :=
  ((session.tasks.filterMap fun entry => entry.2.ticket?).map session.queue.permits.ownedBy).sum

/-- The names of the jobs that ever started. -/
def started (session : QueueSession) : List String := loggedIn .started session.log

/-- The names of the jobs that ended. -/
def ended (session : QueueSession) : List String := loggedIn .ended session.log

/-- Whether the tasks of a session have different names, and hold what is not free of its queue. -/
structure IsSound (capacity : Nat) (session : QueueSession) : Prop where
  names : (session.tasks.map Prod.fst).Nodup
  capacity_eq : session.queue.capacity = capacity
  accounts : session.queue.Accounts (holdingsOf capacity session.tasks)

variable {session : QueueSession} {capacity : Nat} {name : String} {task : QueueTask}

/-- Each permit is free, held by a job that runs, or owned by somebody who waits. -/
theorem IsSound.total (sound : session.IsSound capacity) :
    session.queue.permits.free + session.running.length + session.owned =
      session.queue.capacity := by
  obtain ⟨_, rfl, accounts⟩ := sound
  have total := accounts.permits.total
  have owners := accounts.permits.sum_ownedBy
  have tickets : session.owned = (((holdingsOf session.queue.capacity session.tasks).filterMap
      Holding.ticket?).map fun claim => session.queue.permits.ownedBy claim.1).sum := by
    rw [owned, ← tickets_holdingsOf session.queue.capacity, List.map_map]
    rfl
  have runs := length_runningOf session.queue.capacity session.tasks
  change session.running.length = _ at runs
  omega

theorem mem_tasks_of_task? (found : session.task? name = some task) :
    (name, task) ∈ session.tasks := by
  obtain ⟨⟨other, _⟩, isFound, rfl⟩ := Option.map_eq_some_iff.mp found
  have same : other = name := by simpa using List.find?_some isFound
  exact same ▸ List.mem_of_find?_eq_some isFound

theorem tasks_perm (names : (session.tasks.map Prod.fst).Nodup)
    (found : session.task? name = some task) :
    session.tasks.Perm ((name, task) :: session.without name) :=
  perm_cons_filter names (mem_tasks_of_task? found)

theorem without_eq_tasks (missing : session.task? name = none) :
    session.without name = session.tasks := by
  refine List.filter_eq_self.mpr fun entry member => ?_
  have others := List.find?_eq_none.mp (Option.map_eq_none_iff.mp missing) entry member
  simpa using others

theorem nodup_names_without (names : (session.tasks.map Prod.fst).Nodup) (name : String) :
    ((session.without name).map Prod.fst).Nodup :=
  (List.filter_sublist.map _).nodup names

/-- The tasks when the one of a name has become another one or is over. -/
def replacing (session : QueueSession) (name : String) (after : Option QueueTask) :
    List (String × QueueTask) :=
  session.without name ++ after.toList.map fun task => (name, task)

theorem nodup_names_replacing (names : (session.tasks.map Prod.fst).Nodup) (name : String)
    (after : Option QueueTask) : ((session.replacing name after).map Prod.fst).Nodup := by
  unfold replacing
  rw [List.map_append, List.nodup_append]
  refine ⟨nodup_names_without names name, by cases after <;> simp, ?_⟩
  intro other kept _ last same
  obtain ⟨entry, member, rfl⟩ := List.mem_map.mp kept
  have last : entry.1 = name := by
    rw [← same] at last
    cases after <;> simp_all
  simp [without, last] at member

/-- What one gathers of the tasks then is what there is of the new one, and of the others. -/
theorem flatMap_replacing {β : Type} (session : QueueSession) (name : String)
    (after : Option QueueTask) (gather : String × QueueTask → List β) :
    ((session.replacing name after).flatMap gather).Perm
      (((after.map fun task => gather (name, task)).getD []) ++
        (session.without name).flatMap gather) := by
  unfold replacing
  rw [List.flatMap_append]
  refine List.perm_append_comm.trans (.of_eq (congrArg (· ++ _) ?_))
  cases after <;> simp

theorem drop_tasks (session : QueueSession) (name : String) :
    (session.drop name).1.tasks = session.without name := by
  unfold drop
  cases found : session.task? name with
  | none => exact (without_eq_tasks found).symm
  | some task => rfl

theorem drop_log (session : QueueSession) (name : String) :
    (session.drop name).1.log = session.log := by
  unfold drop
  cases session.task? name <;> rfl

theorem IsSound.holdings_perm (sound : session.IsSound capacity)
    (found : session.task? name = some task) :
    (task.holdings session.queue.capacity ++ holdingsOf capacity (session.without name)).Perm
      (holdingsOf capacity session.tasks) := by
  rw [sound.capacity_eq]
  exact ((tasks_perm sound.names found).flatMap_right fun entry => entry.2.holdings capacity).symm

/-- A task and the others hold what is not free. -/
theorem IsSound.accounts_cons (sound : session.IsSound capacity)
    (found : session.task? name = some task) :
    session.queue.Accounts
      (task.holdings session.queue.capacity ++ holdingsOf capacity (session.without name)) :=
  sound.accounts.of_perm (sound.holdings_perm found)

/-- A session stays sound if a task becomes another one that holds what is not free then. -/
theorem IsSound.replace (sound : session.IsSound capacity) (name : String)
    {after : Option QueueTask} {queue : Queue} (log : List (JobEvent × String))
    (same : queue.capacity = capacity)
    (accounts : queue.Accounts ((after.map (QueueTask.holdings capacity)).getD [] ++
      holdingsOf capacity (session.without name))) :
    IsSound capacity ⟨queue, session.replacing name after, log⟩ :=
  ⟨nodup_names_replacing sound.names name after, same,
    accounts.of_perm (session.flatMap_replacing name after fun entry => entry.2.holdings capacity)⟩

theorem IsSound.drop (sound : session.IsSound capacity) (name : String) :
    (session.drop name).1.IsSound capacity := by
  cases found : session.task? name with
  | none =>
    unfold QueueSession.drop
    rwa [found]
  | some task =>
    obtain ⟨same, accounts⟩ := task.accounts_drop (sound.accounts_cons found)
    unfold QueueSession.drop
    rw [found]
    exact ⟨nodup_names_without sound.names name, same.trans sound.capacity_eq, accounts⟩

theorem IsSound.add (sound : session.IsSound capacity) (name : String)
    (fresh : task.holdings capacity = []) : (session.add name task).IsSound capacity := by
  obtain ⟨_, same, accounts⟩ := sound.drop name
  rw [drop_tasks] at accounts
  simp only [QueueSession.add, drop_tasks]
  exact @IsSound.replace session capacity sound name (some task) _ _ same
    (by simpa [fresh] using accounts)

/-! Polls -/

/-- What a poll leaves of a job. -/
def jobAfter : RunStep String → Option QueueTask
  | .more run => some (.job run)
  | .done _ => none

theorem poll_job {run : Run String} (found : session.task? name = some (.job run)) :
    (session.poll name).1 = ⟨(run.poll session.queue).1,
      session.replacing name (jobAfter (run.poll session.queue).2.2),
      session.log ++ (run.poll session.queue).2.1.map fun event => (event, name)⟩ ∧
    (session.poll name).2 ≠ .drained := by
  simp only [poll, found]
  generalize run.poll session.queue = result
  obtain ⟨queue, events, run | outcome⟩ := result
  · exact ⟨rfl, fun same => nomatch same⟩
  · exact ⟨by simp [replacing, jobAfter], fun same => nomatch same⟩

theorem poll_drain {drain : Drain} (found : session.task? name = some (.drain drain)) :
    (session.poll name).1 = ⟨(drain.poll session.queue).1,
      session.replacing name ((drain.poll session.queue).2.map .drain), session.log⟩ ∧
    ((session.poll name).2 = .drained ↔ (drain.poll session.queue).2 = none) := by
  simp only [poll, found]
  generalize drain.poll session.queue = result
  obtain ⟨queue, _ | drain⟩ := result
  · exact ⟨by simp [replacing], by simp⟩
  · exact ⟨rfl, by simp⟩

theorem poll_none (missing : session.task? name = none) : session.poll name = (session, .gone) := by
  simp only [poll, missing]

theorem IsSound.poll (sound : session.IsSound capacity) (name : String) :
    (session.poll name).1.IsSound capacity := by
  cases found : session.task? name with
  | none => rwa [poll_none found]
  | some task =>
    have before := sound.accounts_cons found
    cases task with
    | job run =>
      obtain ⟨same, accounts⟩ := run.accounts_poll before
      rw [(poll_job found).1]
      refine sound.replace name _ (same.trans sound.capacity_eq) ?_
      cases step : (run.poll session.queue).2.2 <;> rwa [step] at accounts
    | drain drain =>
      obtain ⟨same, accounts⟩ := drain.accounts_poll before
      rw [(poll_drain found).1]
      refine sound.replace name _ (same.trans sound.capacity_eq) ?_
      cases left : (drain.poll session.queue).2 with
      | none => rwa [left] at accounts
      | some drain => rwa [left, sound.capacity_eq] at accounts

/-- A job that a poll starts has a permit that no job held that ran before. -/
theorem IsSound.length_running_lt (sound : session.IsSound capacity) {name : String}
    {events : List (JobEvent × String)} (logged : (session.poll name).1.log = session.log ++ events)
    (starts : (JobEvent.started, name) ∈ events) : session.running.length < capacity := by
  cases found : session.task? name with
  | none =>
    rw [poll_none found, List.self_eq_append_right] at logged
    simp [logged] at starts
  | some task =>
    cases task with
    | job run =>
      rw [(poll_job found).1] at logged
      obtain rfl := List.append_cancel_left logged
      obtain ⟨event, happens, same⟩ := List.mem_map.mp starts
      obtain rfl : event = .started := congrArg Prod.fst same
      have below := run.sum_permits_lt_of_started (sound.accounts_cons found) happens
      rw [running, length_runningOf capacity,
        ← ((sound.holdings_perm found).map Holding.permits).sum_eq]
      exact below.trans_eq sound.capacity_eq
    | drain drain =>
      rw [(poll_drain found).1, List.self_eq_append_right] at logged
      simp [logged] at starts

/-- No job runs when a drain is over. -/
theorem IsSound.running_eq_nil (sound : session.IsSound capacity)
    (drained : (session.poll name).2 = .drained) : (session.poll name).1.running = [] := by
  cases found : session.task? name with
  | none =>
    rw [poll_none found] at drained
    cases drained
  | some task =>
    cases task with
    | job run => exact absurd drained (poll_job found).2
    | drain drain =>
      have isOver := (poll_drain found).2.mp drained
      have none := drain.sum_permits_of_poll_eq_none (sound.accounts_cons found) isOver
      rw [← length_runningOf] at none
      rw [(poll_drain found).1, isOver]
      simpa [running, replacing] using none

end QueueSession

/-! Calls -/

/-- What can be done with a queue: a job or a drain is made, polled or dropped. -/
inductive QueueCall where
  | run (name : String) (job : Job String)
  | drain (name : String)
  | poll (name : String)
  | drop (name : String)

namespace QueueSession

open scoped List

variable {session : QueueSession} {capacity : Nat} {name : String}

def perform (session : QueueSession) : QueueCall → QueueSession
  | .run name job => session.add name (.job (.fresh job))
  | .drain name => session.add name (.drain .fresh)
  | .poll name => (session.poll name).1
  | .drop name => (session.drop name).1

/-- The name of a task, if it is a job that runs. -/
def runningAs (session : QueueSession) (name : String) : List String :=
  ((session.task? name).map fun task => task.runningAs name).getD []

/-- The name of the job that a call drops while it runs. -/
def cutShort (session : QueueSession) : QueueCall → List String
  | .run name _ => session.runningAs name
  | .drain name => session.runningAs name
  | .poll _ => []
  | .drop name => session.runningAs name

theorem IsSound.perform (sound : session.IsSound capacity) (call : QueueCall) :
    (session.perform call).IsSound capacity := by
  cases call with
  | run name job => exact sound.add name rfl
  | drain name => exact sound.add name rfl
  | poll name => exact sound.poll name
  | drop name => exact sound.drop name

theorem running_perm (names : (session.tasks.map Prod.fst).Nodup) (name : String) :
    session.running.Perm (session.runningAs name ++ runningOf (session.without name)) := by
  unfold running runningAs
  cases found : session.task? name with
  | none => rw [without_eq_tasks found]; rfl
  | some task => exact (tasks_perm names found).flatMap_right _

theorem drop_runs (names : (session.tasks.map Prod.fst).Nodup) (name : String) :
    session.running.Perm (session.runningAs name ++ (session.drop name).1.running) := by
  have perm := running_perm names name
  rwa [← drop_tasks] at perm

/-- A job that a poll starts runs until it ends. -/
theorem poll_job_runs {run : Run String}
    (before : session.running.Perm (run.runningAs name ++ runningOf (session.without name))) :
    let events := (run.poll session.queue).2.1.map fun event => (event, name)
    (loggedIn .started events ++ session.running).Perm (loggedIn .ended events ++
      runningOf (session.replacing name (jobAfter (run.poll session.queue).2.2))) := by
  intro events
  have fits : loggedIn .started events ++ run.runningAs name =
      loggedIn .ended events ++ Run.runningAfter name (run.poll session.queue).2.2 :=
    run.fitsIn_poll session.queue name
  have after := session.flatMap_replacing name (jobAfter (run.poll session.queue).2.2)
    fun entry => entry.2.runningAs entry.1
  have gathered : (((jobAfter (run.poll session.queue).2.2).map fun task =>
      task.runningAs name).getD []) = Run.runningAfter name (run.poll session.queue).2.2 := by
    cases (run.poll session.queue).2.2 <;> rfl
  rw [gathered] at after
  calc loggedIn .started events ++ session.running
    _ ~ loggedIn .started events ++ (run.runningAs name ++ runningOf (session.without name)) :=
      before.append_left _
    _ = loggedIn .ended events ++ (Run.runningAfter name (run.poll session.queue).2.2 ++
          runningOf (session.without name)) := by
      rw [← List.append_assoc, fits, List.append_assoc]
    _ ~ _ := after.symm.append_left _

/-- Jobs that start run until they end or are dropped. -/
theorem IsSound.perform_runs (sound : session.IsSound capacity) (call : QueueCall) :
    ∃ begun finished, (session.perform call).started = session.started ++ begun ∧
      (session.perform call).ended = session.ended ++ finished ∧
        (begun ++ session.running).Perm
          (finished ++ session.cutShort call ++ (session.perform call).running) := by
  have rests : ∀ {next : QueueSession}, next.log = session.log →
      session.running.Perm (session.cutShort call ++ next.running) →
        ∃ begun finished, next.started = session.started ++ begun ∧
          next.ended = session.ended ++ finished ∧
            (begun ++ session.running).Perm (finished ++ session.cutShort call ++ next.running) :=
    fun same perm => ⟨[], [], by simp [started, same], by simp [ended, same], perm⟩
  have added : ∀ (name : String) {task : QueueTask}, task.runningAs name = [] →
      (session.add name task).running = (session.drop name).1.running := by
    intro name task fresh
    simp [running, runningOf, QueueSession.add, fresh]
  cases call with
  | run name job =>
    refine rests (drop_log ..) ?_
    rw [QueueSession.perform, added name rfl]
    exact drop_runs sound.names name
  | drain name =>
    refine rests (drop_log ..) ?_
    rw [QueueSession.perform, added name rfl]
    exact drop_runs sound.names name
  | drop name => exact rests (drop_log ..) (drop_runs sound.names name)
  | poll name =>
    have before := running_perm sound.names name
    rw [runningAs] at before
    cases found : session.task? name with
    | none =>
      refine rests ?_ ?_ <;> rw [QueueSession.perform, poll_none found]
      rfl
    | some task =>
      rw [found] at before
      cases task with
      | job run =>
        have runs := poll_job_runs before
        rw [QueueSession.perform, (poll_job found).1]
        refine ⟨_, _, loggedIn_append .., loggedIn_append .., ?_⟩
        rw [cutShort, List.append_nil]
        exact runs
      | drain drain =>
        have after := session.flatMap_replacing name ((drain.poll session.queue).2.map .drain)
          fun entry => entry.2.runningAs entry.1
        rw [QueueSession.perform, (poll_drain found).1]
        refine rests rfl (before.trans ?_)
        refine .trans (.of_eq ?_) after.symm
        cases (drain.poll session.queue).2 <;> rfl

end QueueSession

/-- A session together with the names of the jobs that were dropped while they ran. -/
structure QueueHistory where
  session : QueueSession
  dropped : List String

namespace QueueHistory

def perform (history : QueueHistory) (call : QueueCall) : QueueHistory :=
  ⟨history.session.perform call, history.dropped ++ history.session.cutShort call⟩

/-- What calls make of a new queue for so many jobs. -/
def ofCalls (limit : Nat) (calls : List QueueCall) : QueueHistory :=
  calls.foldl perform ⟨.ofLimit limit, []⟩

structure IsSound (capacity : Nat) (history : QueueHistory) : Prop where
  session : history.session.IsSound capacity
  /-- Each job that started has ended, has been dropped, or runs. -/
  jobs : history.session.started.Perm
    (history.session.ended ++ history.dropped ++ history.session.running)

theorem IsSound.perform {history : QueueHistory} {capacity : Nat} (sound : history.IsSound capacity)
    (call : QueueCall) : (history.perform call).IsSound capacity := by
  obtain ⟨begun, finished, starts, ends, runs⟩ := sound.session.perform_runs call
  refine ⟨sound.session.perform call, List.perm_iff_count.mpr fun name => ?_⟩
  have counts := sound.jobs.count_eq name
  have more := runs.count_eq name
  simp only [QueueHistory.perform, starts, ends, List.count_append] at counts more ⊢
  omega

theorem isSound_ofCalls (limit : Nat) (calls : List QueueCall) :
    (ofCalls limit calls).IsSound (Queue.ofLimit limit).capacity := by
  suffices kept : ∀ history : QueueHistory, history.IsSound (Queue.ofLimit limit).capacity →
      (calls.foldl QueueHistory.perform history).IsSound (Queue.ofLimit limit).capacity from
    kept _ ⟨⟨List.nodup_nil, rfl, Queue.accounts_ofLimit limit⟩, .refl _⟩
  induction calls with
  | nil => exact fun _ sound => sound
  | cons call rest ih => exact fun history sound => ih _ (sound.perform call)

/-- Whatever is done with a queue, each of its permits is free, held by a job that runs, or owned by
somebody who waits; the jobs that started and neither ended nor were dropped are those that run; a
job starts only while fewer of them run than there are permits; and none runs when a drain is over.
-/
theorem permits_conserved (limit : Nat) (calls : List QueueCall) :
    let history := ofCalls limit calls
    let session := history.session
    session.queue.capacity = (Queue.ofLimit limit).capacity ∧
      session.queue.permits.free + session.running.length + session.owned =
        session.queue.capacity ∧
      session.queue.inFlight = session.running.length + session.owned ∧
      session.started.Perm (session.ended ++ history.dropped ++ session.running) ∧
      (∀ name events, (session.poll name).1.log = session.log ++ events →
        (.started, name) ∈ events → session.running.length < session.queue.capacity) ∧
      ∀ name, (session.poll name).2 = .drained →
        (session.poll name).1.running = [] ∧
          (session.poll name).1.started.Perm ((session.poll name).1.ended ++ history.dropped) := by
  intro history session
  have sound := isSound_ofCalls limit calls
  have capacity := sound.session.capacity_eq
  have total : session.queue.permits.free + session.running.length + session.owned =
      session.queue.capacity := sound.session.total
  refine ⟨capacity, total, ?_, sound.jobs, ?_, ?_⟩
  · unfold Queue.inFlight
    omega
  · intro name events logged starts
    rw [capacity]
    exact sound.session.length_running_lt logged starts
  · intro name drained
    have none := sound.session.running_eq_nil drained
    have jobs := (sound.perform (.poll name)).jobs
    refine ⟨none, ?_⟩
    simpa [perform, QueueSession.perform, QueueSession.cutShort, none] using jobs

/-- A drain gets one permit at once and the others when the one job that runs ends and the other one
is dropped. -/
theorem drained_after_drop :
    let history := ofCalls 3 [.run "short" ⟨1, .ok "short"⟩, .run "long" ⟨9, .ok "long"⟩,
      .drain "drain", .poll "short", .poll "long", .poll "drain", .drop "long", .poll "short"]
    (history.session.poll "drain").2 = .drained ∧
      (history.session.poll "drain").1.started.Perm
        ((history.session.poll "drain").1.ended ++ history.dropped) ∧
      history.session.ended = ["short"] ∧ history.dropped = ["long"] := by
  intro history
  have isOver : (history.session.poll "drain").2 = .drained := rfl
  exact ⟨isOver, ((permits_conserved 3 _).2.2.2.2.2 "drain" isOver).2, rfl, rfl⟩

end QueueHistory

end StyleBlock
