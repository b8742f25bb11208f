import StyleBlock.Graph.Listing
import StyleBlock.Import.Cache
import StyleBlock.Load.Names
import StyleBlock.Load.Task
import StyleBlock.Load.Turns
import StyleBlock.Load.Waits

/-!
The state that loads of blocks share: the graph they fill, the files they import, the queue they
preprocess in, the tasks they are carried out by, and the turns of the parts of joins. There is one
task for each file.
-/

namespace StyleBlock

/-- What can be asked of a loader. -/
inductive Request where
  | block (id : FileId)
  /-- The block at a path as written in a file. -/
  | relative (base : FileId) (path : String)
  /-- The block at a path as given at the top level. -/
  | path (path : String)
  /-- The block that a given text makes under an identifier. -/
  | source (contents : String) (id : FileId) (defaultName : String)
deriving DecidableEq, Repr

inductive RequestState where
  /-- Not polled yet. -/
  | fresh (request : Request)
  | waiting (watch : Watch)
  | closed
deriving DecidableEq, Repr

/-- The place of a request among all requests. -/
abbrev RequestId : Type := Nat

structure Loader where
  options : Options
  importer : Importer
  cache : ImportCache
  preprocessors : List (Dialect × Preprocessor)
  queue : Queue
  graph : Graph
  /-- The slot of every file whose load has begun. -/
  slots : List (FileId × BlockId)
  /-- The task that loads each file, finished or not. -/
  loads : List (FileId × TaskId)
  waits : Waits
  names : NameCounts
  tasks : Array Task
  joins : Array Turns
  /-- Whether a join of so many parts polls all of them every time. -/
  together : Nat → Bool
  requests : Array RequestState
  /-- The path and the incoming source map of every preprocessing that began, in order. -/
  processed : List (String × Option String)
  /-- The tasks that began to read the text of their block, in order. -/
  built : List TaskId
  /-- The slots of the blocks that were completed, each with the name that the block declared, in
  order. -/
  completed : List (BlockId × String)

namespace Loader

/-- The most parts of a join that are all polled every time. -/
def togetherLimit : Nat := 30

def ofImporter (options : Options) (importer : Importer) : Loader where
  options
  importer
  cache := .empty
  preprocessors := []
  queue := .ofLimit options.maxConcurrentCompiles
  graph := .empty
  slots := []
  loads := []
  waits := .empty
  names := .empty
  tasks := #[]
  joins := #[]
  together count := count ≤ togetherLimit
  requests := #[]
  processed := []
  built := []
  completed := []

/-- Registers the preprocessor of a dialect in place of an earlier one. -/
def addPreprocessor (loader : Loader) (dialect : Dialect) (preprocessor : Preprocessor) : Loader :=
  { loader with
    preprocessors :=
      loader.preprocessors.filter (fun (known, _) => known ≠ dialect) ++ [(dialect, preprocessor)] }

def preprocessor? (loader : Loader) (dialect : Dialect) : Option Preprocessor :=
  (loader.preprocessors.find? fun (known, _) => known = dialect).map Prod.snd

/-- The file that a path leads to. -/
def identifier (loader : Loader) (base : Option FileId) (path : String) : Loader × FileId :=
  let (cache, id) := loader.cache.identifier loader.importer base path
  ({ loader with cache }, id)

/-- The slot of a file, a new one if it has none. -/
def reserve (loader : Loader) (id : FileId) : Loader × BlockId :=
  match loader.slots.find? fun (other, _) => other == id with
  | some (_, slot) => (loader, slot)
  | none =>
    let (graph, slot) := loader.graph.reserve
    ({ loader with graph, slots := loader.slots ++ [(id, slot)] }, slot)

/-- Makes a task that has not begun. -/
def addTask (loader : Loader) (task : Task) : Loader × TaskId :=
  ({ loader with tasks := loader.tasks.push task }, loader.tasks.size)

def setStage (loader : Loader) (id : TaskId) (stage : Stage) : Loader :=
  { loader with tasks := loader.tasks.modify id fun task => { task with stage } }

def setRoster (loader : Loader) (id : TaskId) (roster : Roster) : Loader :=
  { loader with tasks := loader.tasks.modify id fun task => { task with roster } }

def setTurns (loader : Loader) (id : JoinId) (turns : Turns) : Loader :=
  { loader with joins := loader.joins.setIfInBounds id turns }

/-- The pace of a new join of so many parts. -/
def openJoin (loader : Loader) (count : Nat) : Loader × Pace :=
  if loader.together count then (loader, .together)
  else ({ loader with joins := loader.joins.push (.ofCount count) }, .byTurns loader.joins.size)

/-- Makes a task the one that loads its file. -/
def setLoad (loader : Loader) (file : FileId) (id : TaskId) : Loader :=
  { loader with loads := loader.loads.filter (fun (other, _) => other ≠ file) ++ [(file, id)] }

/-- The task that loads a file, a new one if there is none. -/
def load (loader : Loader) (file : FileId) : Loader × TaskId :=
  match loader.loads.find? fun (other, _) => other == file with
  | some (_, id) => (loader, id)
  | none =>
    let (loader, id) := loader.addTask (.ofFile file .imported)
    (loader.setLoad file id, id)

/-- Names a block and puts it into its slot, if it has all objects of the blocks it implements. -/
def store (loader : Loader) (slot : BlockId) (block : Block) : Loader × Except Error Unit :=
  let declared := block.name
  let (names, name) := loader.names.claim declared
  match block.setName name with
  | .error error => ({ loader with names := names.release declared }, .error error)
  | .ok block =>
    let graph := loader.graph.insert slot block
    match graph.checkImplementations slot with
    | .ok () =>
      ({ loader with names, graph, completed := loader.completed ++ [(slot, declared)] }, .ok ())
    | .error error =>
      ({ loader with names := names.release declared, graph := graph.remove slot }, .error error)

/-- Completes a block when the slots of all its references are known. -/
def complete (loader : Loader) (slot : BlockId) (assembly : Assembly)
    (linked : List (Link × BlockId)) : Loader × Except Error Unit :=
  match assembly.draft.complete loader.graph loader.importer.defaultName linked with
  | .error error => (loader, .error error)
  | .ok block => loader.store slot (block.addDependencies assembly.dependencies)

/-- Reads the references of a sheet in order and finds the files they lead to. -/
def readLinks (file : FileId) :
    List ReferenceStatement → Loader → Loader × Except Error (List (Link × LinkState))
  | [], loader => (loader, .ok [])
  | statement :: rest, loader =>
    match statement.parse with
    | .error error => (loader, .error error)
    | .ok reference =>
      let (loader, target) := loader.identifier (some file) reference.path
      match readLinks file rest loader with
      | (loader, .error error) => (loader, .error error)
      | (loader, .ok links) =>
        (loader, .ok ((⟨reference, target, statement.location⟩, .fresh) :: links))

/-- Reads the text of a block as far as it goes without other blocks. -/
def assemble (loader : Loader) (file : FileId) (contents defaultName : String)
    (dependencies : List String) : Loader × Except Error Assembly :=
  let debugIdentifier := loader.importer.debugIdentifier file
  match parseSheet contents debugIdentifier with
  | .error error =>
    (loader, .error (.invalidAt (.sheet error.fault) (error.place.inFile debugIdentifier)))
  | .ok sheet =>
    match Draft.ofSheet sheet file debugIdentifier defaultName with
    | .error error => (loader, .error error)
    | .ok draft =>
      match readLinks file sheet.references loader with
      | (loader, .error error) => (loader, .error error)
      | (loader, .ok links) =>
        let (loader, pace) := loader.openJoin links.length
        (loader, .ok ⟨draft, dependencies, pace, links⟩)

end Loader

end StyleBlock
