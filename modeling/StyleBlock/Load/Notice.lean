import StyleBlock.Load.Basic

/-!
How word gets to those who wait. Telling a task tells everyone at its roster, and giving a turn to
a part of a join tells whoever polls the join; each of them passes the word on at once. Everyone
is told at most once before asking again, so the word comes to an end.
-/

namespace StyleBlock.Loader

/-- How many are to be told of something. -/
def listenerCount (loader : Loader) : Nat :=
  (loader.tasks.toList.map fun task => task.roster.listeners.length).foldr (· + ·) 0 +
    (loader.joins.toList.map fun turns => turns.listeners.length).foldr (· + ·) 0

/-- Tells one listener. Those who are to be told next come back. -/
def tellOne (loader : Loader) : Listener → Loader × List Listener
  | .caller => (loader, [])
  | .task id =>
    match loader.tasks[id]? with
    | none => (loader, [])
    | some task => (loader.setRoster id task.roster.told, task.roster.listeners)
  | .part join index =>
    match loader.joins[join]? with
    | none => (loader, [])
    | some turns =>
      let (turns, listeners) := turns.give index
      (loader.setTurns join turns, listeners)

/-- Tells listeners in order, each with all that follows from it, in so many steps at most. -/
def tellWithin : Nat → List Listener → Loader → Loader
  | 0, _, loader => loader
  | _ + 1, [], loader => loader
  | steps + 1, listener :: rest, loader =>
    let (loader, listeners) := loader.tellOne listener
    tellWithin steps (listeners ++ rest) loader

/-- Tells a listener. Every further step uses up one who is to be told. -/
def tell (loader : Loader) (listener : Listener) : Loader :=
  tellWithin (loader.listenerCount + 1) [listener] loader

/-- Takes or renews a seat at the roster of a task that has not come to an end. -/
def attend (loader : Loader) (watch : Watch) (listener : Listener) : Loader × Watch :=
  match loader.tasks[watch.task]? with
  | none => (loader, watch)
  | some task =>
    if task.isOver then (loader, watch)
    else
      match watch.seat with
      | none =>
        let (roster, seat) := task.roster.sit listener
        (loader.setRoster watch.task roster, { watch with seat := some seat })
      | some seat => (loader.setRoster watch.task (task.roster.renew seat listener), watch)

/-- Gives up the seat of a watch. -/
def leave (loader : Loader) (watch : Watch) : Loader :=
  match loader.tasks[watch.task]?, watch.seat with
  | some task, some seat =>
    if task.isOver then loader else loader.setRoster watch.task (task.roster.leave seat)
  | _, _ => loader

/-- The task that waits for permits with a ticket. -/
def holder? (loader : Loader) (ticket : Nat) : Option TaskId :=
  loader.tasks.findIdx? fun task => task.ticket? = some ticket

/-- Puts the queue into a later state, and tells the tasks that now have all their permits. -/
def setQueue (loader : Loader) (queue : Queue) : Loader :=
  let served := queue.permits.servedSince loader.queue.permits
  served.foldl (fun loader ticket =>
    match loader.holder? ticket with
    | some id => loader.tell (.task id)
    | none => loader) { loader with queue }

/-- The part of a join whose turn it is. -/
def takeTurn (loader : Loader) (join : JoinId) : Loader × Option Nat :=
  match loader.joins[join]? with
  | none => (loader, none)
  | some turns =>
    let (turns, index) := turns.take
    (loader.setTurns join turns, index)

/-- Whether a part of a join has a turn. -/
def hasTurn (loader : Loader) (join : JoinId) (index : Nat) : Bool :=
  match loader.joins[join]? with
  | none => false
  | some turns => index ∈ turns.ready

/-- Takes the turn of a part away, if it has one. -/
def withdraw (loader : Loader) (join : JoinId) (index : Nat) : Loader :=
  match loader.joins[join]? with
  | none => loader
  | some turns => loader.setTurns join (turns.withdraw index)

/-- Asks to be told of the next new turn in a join. -/
def attendJoin (loader : Loader) (join : JoinId) (listener : Listener) : Loader :=
  match loader.joins[join]? with
  | none => loader
  | some turns => loader.setTurns join { turns with listener := some listener }

end StyleBlock.Loader
