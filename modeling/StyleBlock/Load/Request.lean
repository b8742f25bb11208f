import StyleBlock.Load.Progress

/-!
Requests for blocks. They may be made, polled and given up in any order, with resets of the loader
between them. A task is dropped, with the permits it holds, as soon as neither the loads, nor a
request, nor a task that is itself held refer to it.
-/

namespace StyleBlock.Loader

/-- Makes a request; nothing happens before its first poll. -/
def ask (loader : Loader) (request : Request) : Loader × RequestId :=
  ({ loader with requests := loader.requests.push (.fresh request) }, loader.requests.size)

def setRequest (loader : Loader) (id : RequestId) (state : RequestState) : Loader :=
  { loader with requests := loader.requests.setIfInBounds id state }

/-- The tasks that the loads and the requests refer to. -/
def roots (loader : Loader) : List TaskId :=
  loader.loads.map Prod.snd ++ loader.requests.toList.filterMap fun request =>
    match request with
    | .waiting watch => some watch.task
    | _ => none

/-- Adds the tasks that the held tasks wait for. -/
def addAwaited (loader : Loader) (held : List TaskId) : List TaskId :=
  let awaited := held.flatMap fun id =>
    (((loader.tasks[id]?).map Task.watches).getD []).map Watch.task
  held ++ (awaited.filter fun id => !held.contains id).eraseDups

/-- Adds awaited tasks as many times as given. -/
def saturate (loader : Loader) (held : List TaskId) : Nat → List TaskId
  | 0 => held
  | rounds + 1 => loader.saturate (loader.addAwaited held) rounds

/-- The tasks that somebody can still ask for. -/
def heldTasks (loader : Loader) : List TaskId :=
  loader.saturate loader.roots loader.tasks.size

/-- Drops a task that has not come to an end, with its seats and permits. -/
def dropTask (loader : Loader) (id : TaskId) : Loader :=
  match loader.tasks[id]? with
  | none => loader
  | some task =>
    if task.isOpen then
      let loader := task.watches.foldl leave (loader.setStage id .dropped)
      loader.setQueue (task.releaseFrom loader.queue)
    else loader

/-- Drops the tasks that nobody can ask for any more. -/
def sweep (loader : Loader) : Loader :=
  let held := loader.heldTasks
  let lost := (List.range loader.tasks.size).filter fun id => !held.contains id
  lost.foldl dropTask loader

/-- Begins a request: finds the file and the task that it is about. -/
def beginRequest (loader : Loader) : Request → Loader × TaskId
  | .block id => loader.load id
  | .relative base path =>
    let (loader, id) := loader.identifier (some base) path
    loader.load id
  | .path path =>
    let (loader, id) := loader.identifier none path
    loader.load id
  | .source contents id defaultName => loader.addTask (.ofFile id (.given contents defaultName))

/-- Polls the task of a request on behalf of a listener. -/
def pollWatch (loader : Loader) (listener : Listener) (id : RequestId) (watch : Watch) :
    Loader × Poll (Except Error BlockId) :=
  let (loader, watch) := loader.attend watch listener
  match loader.pollTask watch.task with
  | (loader, .pending) => ((loader.setRequest id (.waiting watch)).sweep, .pending)
  | (loader, .ready outcome) => ((loader.setRequest id .closed).sweep, .ready outcome)

/-- Polls a request once on behalf of a listener. A request that has been answered or given up has
no more answers. -/
def pollFor (loader : Loader) (listener : Listener) (id : RequestId) :
    Loader × Poll (Except Error BlockId) :=
  match loader.requests[id]? with
  | some (.fresh request) =>
    let (loader, task) := loader.beginRequest request
    loader.pollWatch listener id ⟨task, none⟩
  | some (.waiting watch) => loader.pollWatch listener id watch
  | _ => (loader, .pending)

/-- Polls a request once. -/
def poll (loader : Loader) (id : RequestId) : Loader × Poll (Except Error BlockId) :=
  loader.pollFor .caller id

/-- Gives a request up. -/
def cancel (loader : Loader) (id : RequestId) : Loader :=
  match loader.requests[id]? with
  | some (.waiting watch) => ((loader.leave watch).setRequest id .closed).sweep
  | _ => (loader.setRequest id .closed).sweep

/-- Forgets every import, block, load and name. Requests go on with the tasks they have. -/
def reset (loader : Loader) : Loader :=
  { loader with
    cache := loader.cache.purgeAll, graph := .empty, slots := [], loads := [], waits := .empty,
    names := .empty }.sweep

/-- Requests as the parts of a join. No answer ends the others. -/
def requestParts : Parts (RequestId × Poll (Except Error BlockId)) where
  poll := fun loader listener (id, _) =>
    let (loader, answer) := loader.pollFor listener id
    (loader, (id, answer))
  isOver := fun (_, answer) =>
    match answer with
    | .pending => false
    | .ready _ => true
  isFatal := fun _ => false

/-- The answers, if all requests have one. -/
def answers? (answers : List (RequestId × Poll (Except Error BlockId))) :
    Option (List (Except Error BlockId)) :=
  answers.mapM fun (_, answer) =>
    match answer with
    | .pending => none
    | .ready outcome => some outcome

/-- Polls requests in rounds until all are answered, for at most `limit` rounds. -/
def settle (loader : Loader) (pace : Pace)
    (answers : List (RequestId × Poll (Except Error BlockId))) :
    Nat → Loader × Option (List (Except Error BlockId))
  | 0 => (loader, answers? answers)
  | limit + 1 =>
    match answers? answers with
    | some outcomes => (loader, some outcomes)
    | none =>
      let (loader, answers) := requestParts.pollJoin pace .caller answers loader
      loader.settle pace answers limit

/-- Makes requests and polls them as a join until all are answered, for at most `limit` rounds;
then they are given up. -/
def run (loader : Loader) (requests : List Request) (limit : Nat) :
    Loader × Option (List (Except Error BlockId)) :=
  let (loader, answers) := requests.foldl (fun (loader, answers) request =>
    let (loader, id) := loader.ask request
    (loader, answers ++ [(id, Poll.pending)])) (loader, [])
  let (loader, pace) := loader.openJoin requests.length
  match loader.settle pace answers limit with
  | (loader, some outcomes) => (loader, some outcomes)
  | (loader, none) => (answers.foldl (fun loader (id, _) => loader.cancel id) loader, none)

end StyleBlock.Loader
