import StyleBlock.Error
import StyleBlock.Queue.Permits

/-!
The queue that jobs run through. A job holds one permit while it runs; draining the queue asks for
all permits at once and so waits until every job that came before has finished. Jobs and drains
advance only when they are polled.
-/

namespace StyleBlock

/-- What a poll finds: nothing yet, or the final value. -/
inductive Poll (α : Type) where
  | pending
  | ready (value : α)
deriving Repr

structure Queue where
  /-- How many jobs may run at once; at least one. -/
  capacity : Nat
  permits : Permits
  /-- How many drains have begun and not finished. -/
  drains : Nat
deriving DecidableEq, Repr

namespace Queue

/-- The most jobs that a queue can be made for. -/
def maxCapacity : Nat := Nat.pow 2 32 - 1

/-- A queue for at most `limit` jobs, brought between one and the greatest capacity. -/
def ofLimit (limit : Nat) : Queue :=
  let capacity := min (max limit 1) maxCapacity
  ⟨capacity, .ofCount capacity, 0⟩

/-- The permits that are not free. -/
def inFlight (queue : Queue) : Nat := queue.capacity - queue.permits.free

def isDraining (queue : Queue) : Bool := 0 < queue.drains

def release (queue : Queue) (count : Nat) : Queue :=
  { queue with permits := queue.permits.release count }

def giveUp (queue : Queue) (ticket : Nat) : Queue :=
  { queue with permits := queue.permits.giveUp ticket }

end Queue

/-- Work that is pending for some polls and then has an outcome. -/
structure Job (α : Type) where
  polls : Nat
  outcome : Except Error α

/-- A job on its way through the queue. -/
inductive Run (α : Type) where
  /-- Not polled yet. -/
  | fresh (job : Job α)
  /-- Waiting for a permit. -/
  | waiting (ticket : Nat) (job : Job α)
  /-- Holding a permit. -/
  | running (job : Job α)

/-- What a poll of a job does besides advancing it. -/
inductive JobEvent where
  | started
  | ended
deriving DecidableEq, Repr

/-- What a poll makes of a job: the job as it goes on, or its outcome. -/
inductive RunStep (α : Type) where
  | more (run : Run α)
  | done (outcome : Except Error α)

namespace Run

/-- The error of a job that is refused while the queue drains. -/
def refusal : Error := .misuse (.load .cancelled) none

/-- Polls a job that holds a permit; at its end the permit is given back. -/
def advance (queue : Queue) (job : Job α) : Queue × List JobEvent × RunStep α :=
  match job.polls with
  | 0 => (queue.release 1, [.ended], .done job.outcome)
  | left + 1 => (queue, [], .more (.running { job with polls := left }))

/-- Polls a job that has just got its permit. -/
def start (queue : Queue) (job : Job α) : Queue × List JobEvent × RunStep α :=
  let (queue, events, step) := advance queue job
  (queue, .started :: events, step)

/-- Polls a job. Only its first poll can be refused. -/
def poll (queue : Queue) : Run α → Queue × List JobEvent × RunStep α
  | fresh job =>
    if queue.isDraining then (queue, [], .done (.error refusal))
    else
      match queue.permits.acquire 1 with
      | (permits, none) => start { queue with permits } job
      | (permits, some ticket) => ({ queue with permits }, [], .more (waiting ticket job))
  | waiting ticket job =>
    match queue.permits.takeUp? ticket with
    | some permits => start { queue with permits } job
    | none => (queue, [], .more (waiting ticket job))
  | running job => advance queue job

/-- The ticket that a job waits with. -/
def ticket? : Run α → Option Nat
  | waiting ticket _ => some ticket
  | _ => none

/-- Drops a job with what it holds. -/
def drop (queue : Queue) : Run α → Queue
  | fresh _ => queue
  | waiting ticket _ => queue.giveUp ticket
  | running _ => queue.release 1

end Run

/-- A drain of the queue. -/
inductive Drain where
  /-- Not polled yet. -/
  | fresh
  /-- Waiting for the permits of the jobs that still run. -/
  | waiting (ticket : Nat)
deriving DecidableEq, Repr

namespace Drain

/-- A drain that holds all permits gives them back and is over. -/
def finish (queue : Queue) (permits : Permits) : Queue :=
  { queue with permits := permits.release queue.capacity, drains := queue.drains - 1 }

/-- Polls a drain; nothing is left of one that is over. -/
def poll (queue : Queue) : Drain → Queue × Option Drain
  | fresh =>
    let queue := { queue with drains := queue.drains + 1 }
    match queue.permits.acquire queue.capacity with
    | (permits, none) => (finish queue permits, none)
    | (permits, some ticket) => ({ queue with permits }, some (waiting ticket))
  | waiting ticket =>
    match queue.permits.takeUp? ticket with
    | some permits => (finish queue permits, none)
    | none => (queue, some (waiting ticket))

/-- The ticket that a drain waits with. -/
def ticket? : Drain → Option Nat
  | fresh => none
  | waiting ticket => some ticket

/-- Drops a drain with what it owns. The queue goes on refusing jobs. -/
def drop (queue : Queue) : Drain → Queue
  | fresh => queue
  | waiting ticket => queue.giveUp ticket

end Drain

end StyleBlock
