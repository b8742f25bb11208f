import StyleBlock.Load.Notice

/-!
Joins: several parts that are polled until all are over, or until one of them ends them all. A
join of few parts polls each of them every time. A join of many parts goes by turns, and gives way
when two parts that still wait have got a new turn during their poll, or when every part that
waits has been polled since the last one came to an end. In a join by turns a part ends the others
only when all parts before it are over.
-/

namespace StyleBlock

/-- How the parts of a join are polled, and what their states mean. -/
structure Parts (Part : Type) where
  /-- Polls a part on behalf of a listener. -/
  poll : Loader → Listener → Part → Loader × Part
  isOver : Part → Bool
  /-- Whether the end of a part is the end of all parts. -/
  isFatal : Part → Bool

namespace Parts

variable {Part : Type} (parts : Parts Part)

/-- Polls every part that is not over. -/
def pollTogether (listener : Listener) : List Part → Loader → Loader × List Part
  | [], loader => (loader, [])
  | part :: rest, loader =>
    if parts.isOver part then
      let (loader, rest) := pollTogether listener rest loader
      (loader, part :: rest)
    else
      let (loader, part) := parts.poll loader listener part
      if parts.isFatal part then (loader, part :: rest)
      else
        let (loader, rest) := pollTogether listener rest loader
        (loader, part :: rest)

/-- Whether nothing is left to wait for: all parts are over, or those in front of a fatal one. -/
def isSettled (states : List Part) : Bool :=
  match states.dropWhile fun part => parts.isOver part && !parts.isFatal part with
  | [] => true
  | part :: _ => parts.isFatal part

/-- Polls parts by turns until one is over, which is told by `true`, or until the join gives way,
after at most `polls` polls and `patience` new turns. -/
def pollTurns (join : JoinId) (listener : Listener) :
    (polls patience : Nat) → List Part → Loader → Loader × List Part × Bool
  | 0, _, states, loader => (loader.tell listener, states, false)
  | _ + 1, 0, states, loader => (loader.tell listener, states, false)
  | polls + 1, patience + 1, states, loader =>
    match loader.takeTurn join with
    | (loader, none) => (loader, states, false)
    | (loader, some index) =>
      match states[index]? with
      | none => (loader, states, false)
      | some part =>
        let (loader, part) := parts.poll loader (.part join index) part
        let states := states.set index part
        if parts.isOver part then (loader.withdraw join index, states, true)
        else
          let patience := if loader.hasTurn join index then patience else patience + 1
          pollTurns join listener polls patience states loader

/-- Polls parts by turns until the join is settled or gives way, with at most so many parts still
to come to an end. -/
def pollByTurns (join : JoinId) (listener : Listener) :
    Nat → List Part → Loader → Loader × List Part
  | 0, states, loader => (loader, states)
  | left + 1, states, loader =>
    if parts.isSettled states then (loader, states)
    else
      let waiting := states.countP fun part => !parts.isOver part
      match parts.pollTurns join listener waiting 2 states (loader.attendJoin join listener) with
      | (loader, states, false) => (loader, states)
      | (loader, states, true) => pollByTurns join listener left states loader

/-- Polls a join once. -/
def pollJoin (pace : Pace) (listener : Listener) (states : List Part) (loader : Loader) :
    Loader × List Part :=
  match pace with
  | .together => parts.pollTogether listener states loader
  | .byTurns join => parts.pollByTurns join listener (states.length + 1) states loader

end Parts

end StyleBlock
