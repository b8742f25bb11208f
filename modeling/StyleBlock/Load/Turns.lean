import StyleBlock.Load.Roster

/-!
The parts of a join that are polled by turns. A part gets a turn when it is told that it can go
on, and turns are taken in the order in which they were got. Nobody has two turns at once.
-/

namespace StyleBlock

structure Turns where
  /-- The parts that have a turn, first come first. -/
  ready : List Nat
  /-- Whoever polls the join, to be told of the next new turn. -/
  listener : Option Listener
deriving DecidableEq, Repr

namespace Turns

/-- In the beginning each of so many parts has its turn, in order. -/
def ofCount (count : Nat) : Turns := ⟨List.range count, none⟩

/-- Those who are to be told when a part gets a turn. -/
def listeners (turns : Turns) : List Listener := turns.listener.toList

/-- Gives a part a turn, unless it has one; whoever is to be told of it is named. -/
def give (turns : Turns) (index : Nat) : Turns × List Listener :=
  if index ∈ turns.ready then (turns, [])
  else (⟨turns.ready ++ [index], none⟩, turns.listeners)

/-- The part whose turn it is. -/
def take (turns : Turns) : Turns × Option Nat :=
  match turns.ready with
  | [] => (turns, none)
  | index :: rest => ({ turns with ready := rest }, some index)

/-- Takes the turn of a part away. -/
def withdraw (turns : Turns) (index : Nat) : Turns :=
  { turns with ready := turns.ready.erase index }

end Turns

end StyleBlock
