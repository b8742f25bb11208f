import StyleBlock.Draft
import StyleBlock.Import.Importer
import StyleBlock.Load.Preprocessor
import StyleBlock.Load.Roster

/-!
The loads of blocks as tasks that advance when they are polled. A task belongs to everyone who
asked for its block; a task that nobody polls stays where it is.
-/

namespace StyleBlock

/-- How far a reference of a block has come. -/
inductive LinkState where
  | fresh
  /-- Waiting for the task that loads the block. -/
  | waiting (watch : Watch)
  | linked (id : BlockId)
  | failed (error : Error)
deriving DecidableEq

namespace LinkState

def isOver : LinkState → Bool
  | linked _ => true
  | failed _ => true
  | _ => false

def error? : LinkState → Option Error
  | failed error => some error
  | _ => none

def id? : LinkState → Option BlockId
  | linked id => some id
  | _ => none

def watch? : LinkState → Option Watch
  | waiting watch => some watch
  | _ => none

end LinkState

/-- Which parts of a join a poll of the join polls. -/
inductive Pace where
  /-- All that are not over, in order. -/
  | together
  /-- Those that have a turn. -/
  | byTurns (join : JoinId)
deriving DecidableEq, Repr

/-- A draft on its way to a block. -/
structure Assembly where
  draft : Draft
  /-- The files that preprocessing added. -/
  dependencies : List String
  pace : Pace
  links : List (Link × LinkState)

namespace Assembly

/-- The slots of all references, once they are known. -/
def linked? (links : List (Link × LinkState)) : Option (List (Link × BlockId)) :=
  links.mapM fun (link, state) => state.id?.map fun id => (link, id)

/-- The references whose failure counts. Among those polled by turns it counts only when all
references before it are over. -/
def decisive (pace : Pace) (links : List (Link × LinkState)) : List (Link × LinkState) :=
  match pace with
  | .together => links
  | .byTurns _ => links.takeWhile fun (_, state) => state.isOver

/-- The error that the references end with, if they do. -/
def error? (pace : Pace) (links : List (Link × LinkState)) : Option Error :=
  (decisive pace links).findSome? fun (_, state) => state.error?

/-- What references wait for. -/
def watches (links : List (Link × LinkState)) : List Watch :=
  links.filterMap fun (_, state) => state.watch?

end Assembly

/-- What a task that is under way does next. -/
inductive Work where
  /-- Waiting for the contents of the file, for so many polls. -/
  | importing (left : Nat)
  /-- Turning the file into a plain sheet. -/
  | preparing (file : ImportedFile) (run : Run Processed)
  /-- Passing the plain sheet through the preprocessor for plain sheets. -/
  | chaining (file : ImportedFile) (before : Processed) (run : Run Processed)
  /-- Waiting for the blocks that the sheet refers to. -/
  | linking (assembly : Assembly)
  /-- Waiting for the queue to drain after a failure. -/
  | draining (error : Error) (drain : Drain)

/-- The state of a task. -/
inductive Stage where
  /-- Not polled yet. -/
  | fresh
  /-- Under way, with a slot for the block. -/
  | active (slot : BlockId) (work : Work)
  /-- Being polled at this moment; another poll finds nothing. -/
  | advancing
  | finished (outcome : Except Error BlockId)
  /-- Dropped before its end, because nobody can ask for it any more. -/
  | dropped

/-- What a task reads its block from. -/
inductive Origin where
  | imported
  | given (contents defaultName : String)
deriving DecidableEq, Repr

structure Task where
  file : FileId
  origin : Origin
  stage : Stage
  /-- Those who wait for the task. -/
  roster : Roster

namespace Task

/-- A task that has not begun. -/
def ofFile (file : FileId) (origin : Origin) : Task := ⟨file, origin, .fresh, .empty⟩

/-- What a task waits for. -/
def watches (task : Task) : List Watch :=
  match task.stage with
  | .active _ (.linking assembly) => Assembly.watches assembly.links
  | _ => []

/-- The ticket that a task waits with for permits. -/
def ticket? (task : Task) : Option Nat :=
  match task.stage with
  | .active _ (.preparing _ run) => run.ticket?
  | .active _ (.chaining _ _ run) => run.ticket?
  | .active _ (.draining _ drain) => drain.ticket?
  | _ => none

/-- The queue after a task with all that it holds there is dropped. -/
def releaseFrom (queue : Queue) (task : Task) : Queue :=
  match task.stage with
  | .active _ (.preparing _ run) => run.drop queue
  | .active _ (.chaining _ _ run) => run.drop queue
  | .active _ (.draining _ drain) => drain.drop queue
  | _ => queue

/-- Whether a task rests between two polls, or before the first one. -/
def isOpen (task : Task) : Bool :=
  match task.stage with
  | .fresh => true
  | .active _ _ => true
  | _ => false

/-- Whether a task has come to an end, or was dropped before that. -/
def isOver (task : Task) : Bool :=
  match task.stage with
  | .finished _ => true
  | .dropped => true
  | _ => false

end Task

end StyleBlock
