import StyleBlock.Load.Join

/-!
How a poll advances a task. It goes on until the task has to wait: for its file, for a permit, for
a preprocessor, for another block, or for the queue to drain after a failure. Polling a task that
waits for blocks polls the tasks of those blocks first. A task that only needs more polls tells
those who wait for it right away; one that waits for permits tells them when it has got them.

A task that is being polled finds itself already under way when its own references lead back to
it, so polls nest through different tasks only. Their number is bounded by the tasks there are and
the files that can still be read.
-/

namespace StyleBlock

/-- A way to poll tasks. -/
abbrev Poller : Type := Loader → TaskId → Loader × Poll (Except Error BlockId)

/-- The poll of a task that has a slot for its block: the task, its slot, and a way to poll other
tasks. -/
structure Visit where
  poll : Poller
  task : TaskId
  slot : BlockId

/-- What a poll makes of work that is under way. -/
inductive WorkStep where
  | more (work : Work)
  | done (outcome : Except Error BlockId)

namespace Loader

/-- Polls a drain before a failure is told. -/
def pollDrain (loader : Loader) (error : Error) (drain : Drain) : Loader × WorkStep :=
  match drain.poll loader.queue with
  | (queue, none) => (loader.setQueue queue, .done (.error error))
  | (queue, some drain) => (loader.setQueue queue, .more (.draining error drain))

/-- Drains the queue before a failure is told. -/
def fail (loader : Loader) (error : Error) : Loader × WorkStep := loader.pollDrain error .fresh

/-- Polls the task that a reference waits for, on behalf of a listener. -/
def pollAwaited (poll : Poller) (requester target : FileId) (loader : Loader) (listener : Listener)
    (watch : Watch) : Loader × LinkState :=
  let (loader, watch) := loader.attend watch listener
  match poll loader watch.task with
  | (loader, .pending) => (loader, .waiting watch)
  | (loader, .ready outcome) =>
    ({ loader with waits := loader.waits.remove requester target },
      match outcome with
      | .ok id => .linked id
      | .error error => .failed error)

/-- Advances one reference. A block that waits for the requester is not waited for: its slot is
enough. -/
def pollLink (poll : Poller) (requester : FileId) (loader : Loader) (listener : Listener)
    (link : Link) : LinkState → Loader × LinkState
  | .linked id => (loader, .linked id)
  | .failed error => (loader, .failed error)
  | .waiting watch => pollAwaited poll requester link.target loader listener watch
  | .fresh =>
    if loader.waits.reaches link.target requester then
      let (loader, slot) := loader.reserve link.target
      (loader, .linked slot)
    else
      let loader := { loader with waits := loader.waits.add requester link.target }
      let (loader, task) := loader.load link.target
      pollAwaited poll requester link.target loader listener ⟨task, none⟩

/-- The references of a block as the parts of a join. Any failure ends them all; what waited then
is not waited for any more, but its entry among the waits stays. -/
def linkParts (poll : Poller) (requester : FileId) : Parts (Link × LinkState) where
  poll := fun loader listener (link, state) =>
    let (loader, state) := pollLink poll requester loader listener link state
    (loader, (link, state))
  isOver := fun (_, state) => state.isOver
  isFatal := fun (_, state) => state.error?.isSome

/-- Waits for the references of a block, and completes it when all are there. -/
def continueLinking (visit : Visit) (loader : Loader) (file : FileId) (assembly : Assembly) :
    Loader × WorkStep :=
  let (loader, links) := (linkParts visit.poll file).pollJoin assembly.pace (.task visit.task)
    assembly.links loader
  match Assembly.error? assembly.pace links with
  | some error => ((Assembly.watches links).foldl leave loader).fail error
  | none =>
    match Assembly.linked? links with
    | none => (loader, .more (.linking { assembly with links }))
    | some linked =>
      match loader.complete visit.slot assembly linked with
      | (loader, .error error) => loader.fail error
      | (loader, .ok ()) => (loader, .done (.ok visit.slot))

/-- Reads the text of a block. -/
def build (visit : Visit) (loader : Loader) (file : FileId) (contents defaultName : String)
    (dependencies : List String) : Loader × WorkStep :=
  let loader := { loader with built := loader.built ++ [visit.task] }
  match loader.assemble file contents defaultName dependencies with
  | (loader, .error error) => loader.fail error
  | (loader, .ok assembly) => continueLinking visit loader file assembly

/-- Polls a preprocessing job and records its beginning. A running job wants to be polled again
right away; one that waits for its permit does not. -/
def pollRun (visit : Visit) (loader : Loader) (file : FileId) (sourceMap : Option String)
    (run : Run Processed) : Loader × RunStep Processed :=
  let (queue, events, step) := run.poll loader.queue
  let begun := if events.contains .started then [(loader.importer.fullPath file, sourceMap)] else []
  let loader := { loader with processed := loader.processed ++ begun }.setQueue queue
  match step with
  | .more (.running job) => (loader.tell (.task visit.task), .more (.running job))
  | step => (loader, step)

/-- Waits for the preprocessor for plain sheets. -/
def continueChaining (visit : Visit) (loader : Loader) (file : ImportedFile) (before : Processed)
    (run : Run Processed) : Loader × WorkStep :=
  match pollRun visit loader file.identifier before.sourceMap run with
  | (loader, .more run) => (loader, .more (.chaining file before run))
  | (loader, .done (.error error)) => loader.fail error
  | (loader, .done (.ok after)) =>
    let processed := before.chain after
    build visit loader file.identifier processed.content file.defaultName processed.dependencies

/-- Passes a plain sheet on: a sheet that was plain from the start always goes through the
preprocessor for plain sheets, others unless the options keep them out. -/
def chain (visit : Visit) (loader : Loader) (file : ImportedFile) (before : Processed) :
    Loader × WorkStep :=
  let chained := file.dialect = .css || !loader.options.disablePreprocessChaining
  match if chained then loader.preprocessor? .css else none with
  | none => build visit loader file.identifier before.content file.defaultName before.dependencies
  | some preprocessor =>
    let job := preprocessor (loader.importer.fullPath file.identifier) before.content
      before.sourceMap
    continueChaining visit loader file before (.fresh job)

/-- Waits for the preprocessor of the dialect of a file. -/
def continuePreparing (visit : Visit) (loader : Loader) (file : ImportedFile)
    (run : Run Processed) : Loader × WorkStep :=
  match pollRun visit loader file.identifier none run with
  | (loader, .more run) => (loader, .more (.preparing file run))
  | (loader, .done (.error error)) => loader.fail error
  | (loader, .done (.ok processed)) => chain visit loader file processed

/-- Turns a file into a plain sheet. -/
def prepare (visit : Visit) (loader : Loader) (file : ImportedFile) : Loader × WorkStep :=
  if file.dialect = .css then chain visit loader file (.unchanged file.contents)
  else
    let path := loader.importer.fullPath file.identifier
    match loader.preprocessor? file.dialect with
    | none => loader.fail (.misuse (.load (.noPreprocessor file.dialect.name path)) none)
    | some preprocessor =>
      continuePreparing visit loader file (.fresh (preprocessor path file.contents none))

/-- Waits for the contents of a file; it wants to be polled again right away. -/
def continueImporting (visit : Visit) (loader : Loader) (file : FileId) : Nat → Loader × WorkStep
  | left + 1 => (loader.tell (.task visit.task), .more (.importing left))
  | 0 =>
    let outcome := loader.importer.read file
    let loader := { loader with cache := loader.cache.settle file outcome }
    match outcome with
    | .error error => loader.fail error
    | .ok found => prepare visit loader found

/-- Begins to import a file, unless its import is remembered. -/
def beginImporting (visit : Visit) (loader : Loader) (file : FileId) : Loader × WorkStep :=
  match loader.cache.imported? file with
  | some found => prepare visit loader found
  | none =>
    let loader := { loader with cache := loader.cache.noteRead file }
    continueImporting visit loader file (loader.importer.delay file)

/-- Begins a task. -/
def beginTask (visit : Visit) (loader : Loader) (task : Task) : Loader × WorkStep :=
  match task.origin with
  | .imported => beginImporting visit loader task.file
  | .given contents defaultName => build visit loader task.file contents defaultName []

/-- Goes on with the work of a task. -/
def continueTask (visit : Visit) (loader : Loader) (task : Task) : Work → Loader × WorkStep
  | .importing left => continueImporting visit loader task.file left
  | .preparing file run => continuePreparing visit loader file run
  | .chaining file before run => continueChaining visit loader file before run
  | .linking assembly => continueLinking visit loader task.file assembly
  | .draining error drain => loader.pollDrain error drain

/-- Records what a poll made of a task. A given text that has been read takes the place of the
load of its file. -/
def record (loader : Loader) (id : TaskId) (task : Task) (slot : BlockId) :
    WorkStep → Loader × Poll (Except Error BlockId)
  | .more work => (loader.setStage id (.active slot work), .pending)
  | .done outcome =>
    let loader := (loader.setStage id (.finished outcome)).tell (.task id)
    match task.origin with
    | .imported => (loader, .ready outcome)
    | .given _ _ => (loader.setLoad task.file id, .ready outcome)

/-- Polls a task, where at most `depth` polls may nest. -/
def pollWithin : Nat → Poller
  | 0, loader, _ => (loader, .pending)
  | depth + 1, loader, id =>
    match loader.tasks[id]? with
    | none => (loader, .pending)
    | some task =>
      match task.stage with
      | .finished outcome => (loader, .ready outcome)
      | .advancing => (loader, .pending)
      | .dropped => (loader, .pending)
      | .fresh =>
        let (loader, slot) := (loader.setStage id .advancing).reserve task.file
        let (loader, step) := beginTask ⟨pollWithin depth, id, slot⟩ loader task
        loader.record id task slot step
      | .active slot work =>
        let (loader, step) :=
          continueTask ⟨pollWithin depth, id, slot⟩ (loader.setStage id .advancing) task work
        loader.record id task slot step

/-- More polls cannot nest: each is of another task that waits for blocks, and that task either
exists already or reads a file of its own. -/
def depthBound (loader : Loader) : Nat :=
  loader.tasks.size + loader.importer.files.length + loader.cache.imports.length + 2

/-- Polls a task once. -/
def pollTask (loader : Loader) (id : TaskId) : Loader × Poll (Except Error BlockId) :=
  pollWithin loader.depthBound loader id

end Loader

end StyleBlock
