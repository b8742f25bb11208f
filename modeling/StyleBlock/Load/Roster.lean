/-!
Those who wait and want to be told when there is something to poll again. Everyone who waits for a
task has a seat at its roster. Telling goes by the order of the seats; who has been told is not
told again before asking for it once more.
-/

namespace StyleBlock

/-- The place of a task among all tasks. -/
abbrev TaskId : Type := Nat

/-- The place of a join among all joins. -/
abbrev JoinId : Type := Nat

/-- Somebody to tell. -/
inductive Listener where
  /-- Whoever polls the requests, and comes back without being told. -/
  | caller
  /-- Everyone who waits for a task. -/
  | task (id : TaskId)
  /-- One part of a join, whose turn it then is. -/
  | part (join : JoinId) (index : Nat)
deriving DecidableEq, Repr

/-- The seats of those who wait for one task. -/
structure Roster where
  /-- Whoever is to be told from each seat, nobody once told. -/
  seats : List (Option Listener)
  /-- The seats that were given up, the last one first. -/
  vacant : List Nat
deriving DecidableEq, Repr

namespace Roster

def empty : Roster := ⟨[], []⟩

/-- Takes the seat that was given up last, or a new one behind all others. -/
def sit (roster : Roster) (listener : Listener) : Roster × Nat :=
  match roster.vacant with
  | seat :: vacant => (⟨roster.seats.set seat (some listener), vacant⟩, seat)
  | [] => (⟨roster.seats ++ [some listener], []⟩, roster.seats.length)

/-- Asks to be told, from a seat taken before. -/
def renew (roster : Roster) (seat : Nat) (listener : Listener) : Roster :=
  { roster with seats := roster.seats.set seat (some listener) }

/-- Gives a seat up. -/
def leave (roster : Roster) (seat : Nat) : Roster :=
  ⟨roster.seats.set seat none, seat :: roster.vacant⟩

/-- Those who are to be told, in order. -/
def listeners (roster : Roster) : List Listener := roster.seats.filterMap id

/-- The roster after everyone has been told. -/
def told (roster : Roster) : Roster := { roster with seats := roster.seats.map fun _ => none }

end Roster

/-- A seat at the roster of a task, or no seat as long as the task has not been asked. -/
structure Watch where
  task : TaskId
  seat : Option Nat
deriving DecidableEq, Repr

end StyleBlock
