import StyleBlock.Queue.Basic

/-!
A queue together with the named jobs and drains that were made for it and are not over yet.
-/

namespace StyleBlock

/-- A job or a drain that is not over. Jobs yield their name. -/
inductive QueueTask where
  | job (run : Run String)
  | drain (drain : Drain)

def QueueTask.drop (queue : Queue) : QueueTask → Queue
  | job run => run.drop queue
  | drain pending => pending.drop queue

/-- What a poll of a task tells. -/
inductive QueueAnswer where
  | gone
  | pending
  | drained
  | finished (outcome : Except Error String)

structure QueueSession where
  queue : Queue
  tasks : List (String × QueueTask)
  /-- The jobs that started and ended, in order. -/
  log : List (JobEvent × String)

namespace QueueSession

def ofLimit (limit : Nat) : QueueSession := ⟨.ofLimit limit, [], []⟩

def task? (session : QueueSession) (name : String) : Option QueueTask :=
  (session.tasks.find? fun (other, _) => other == name).map Prod.snd

def without (session : QueueSession) (name : String) : List (String × QueueTask) :=
  session.tasks.filter fun (other, _) => other ≠ name

/-- Drops the task of a name, if there is one. -/
def drop (session : QueueSession) (name : String) : QueueSession × Bool :=
  match session.task? name with
  | none => (session, false)
  | some task =>
    ({ session with queue := task.drop session.queue, tasks := session.without name }, true)

/-- Adds a task; one that had the name before is dropped. -/
def add (session : QueueSession) (name : String) (task : QueueTask) : QueueSession :=
  let session := (session.drop name).1
  { session with tasks := session.tasks ++ [(name, task)] }

/-- Polls the task of a name once. -/
def poll (session : QueueSession) (name : String) : QueueSession × QueueAnswer :=
  match session.task? name with
  | none => (session, .gone)
  | some (.job run) =>
    let (queue, events, step) := run.poll session.queue
    let log := session.log ++ events.map fun event => (event, name)
    match step with
    | .more run =>
      ({ queue, tasks := session.without name ++ [(name, .job run)], log }, .pending)
    | .done outcome => ({ queue, tasks := session.without name, log }, .finished outcome)
  | some (.drain drain) =>
    match drain.poll session.queue with
    | (queue, some drain) =>
      ({ session with queue, tasks := session.without name ++ [(name, .drain drain)] }, .pending)
    | (queue, none) => ({ session with queue, tasks := session.without name }, .drained)

end QueueSession

end StyleBlock
