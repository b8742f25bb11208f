import StyleBlock.Proofs.FlightAccounts
import StyleBlock.Proofs.WaitsGraph

/-!
How loads get on with what they share: the graph and its slots, the loads that are known, and the
waits. A load rests with its task between two polls and is in hand while the task is polled. All
that loads do with what they share is made of few kinds of steps, and what each of these keeps is
kept by the polls of all tasks, however deep they nest and wherever they stop.
-/

namespace StyleBlock

/-- How far a load has come. -/
inductive Phase where
  | fresh
  /-- On the way to a block for a slot. The block may have a base already, and the load waits for
  the loads of some files. -/
  | filling (slot : BlockId) (base : Option BlockId) (targets : Multiset FileId)
  /-- At an end that nobody has been told. -/
  | ended (outcome : Except Error BlockId)
  | finished (outcome : Except Error BlockId)
  | dropped

/-- Whether a load may rest between two polls and is not over. -/
def Phase.IsOpen : Phase → Prop
  | fresh => True
  | filling _ _ _ => True
  | ended (.error _) => True
  | _ => False

/-- Whether a load has come to its end or was dropped, and nothing more happens to it. -/
def Phase.IsOver : Phase → Prop
  | finished _ => True
  | dropped => True
  | _ => False

theorem Phase.not_isOver_of_isOpen {phase : Phase} (isOpen : phase.IsOpen) : ¬ phase.IsOver := by
  cases phase with
  | finished outcome | dropped => cases isOpen
  | fresh | filling | ended => exact id

/-- A load of a file, as far as other loads notice it. -/
structure Flight where
  file : FileId
  origin : Origin
  phase : Phase

/-- The slot that a load has filled. -/
def Flight.filled? (flight : Flight) : Option BlockId :=
  match flight.phase with
  | .ended (.ok slot) => some slot
  | .finished (.ok slot) => some slot
  | _ => none

theorem Flight.filled_of_isOpen {flight : Flight} (isOpen : flight.phase.IsOpen) :
    flight.filled? = none := by
  unfold filled?
  cases phase : flight.phase with
  | fresh | filling | dropped => rfl
  | finished outcome =>
    rw [phase] at isOpen
    cases isOpen
  | ended outcome =>
    rw [phase] at isOpen
    cases outcome with
    | ok slot => cases isOpen
    | error error => rfl

/-- The file that a reference waits for, if it does. -/
def LinkState.awaited (link : Link) : LinkState → Multiset FileId
  | .waiting _ => {link.target}
  | _ => 0

/-- The files that references wait for. -/
def Assembly.awaited (links : List (Link × LinkState)) : Multiset FileId :=
  (links.map fun (link, state) => state.awaited link).sum

def Work.phase (slot : BlockId) : Work → Phase
  | .linking assembly => .filling slot assembly.draft.block.base? (Assembly.awaited assembly.links)
  | .draining error _ => .ended (.error error)
  | _ => .filling slot none 0

def WorkStep.phase (slot : BlockId) : WorkStep → Phase
  | .more work => work.phase slot
  | .done outcome => .ended outcome

/-- The load that rests with a task in some stage. -/
def Stage.flights (file : FileId) (origin : Origin) : Stage → List Flight
  | .fresh => [⟨file, origin, .fresh⟩]
  | .active slot work => [⟨file, origin, work.phase slot⟩]
  | .advancing => []
  | .finished outcome => [⟨file, origin, .finished outcome⟩]
  | .dropped => [⟨file, origin, .dropped⟩]

def Task.flights (task : Task) : List Flight := task.stage.flights task.file task.origin

theorem Task.exists_phase (task : Task) (rests : task.isOpen = true) :
    ∃ phase, task.flights = [⟨task.file, task.origin, phase⟩] ∧ phase.IsOpen := by
  unfold isOpen at rests
  unfold flights
  cases stage : task.stage with
  | fresh => exact ⟨.fresh, rfl, trivial⟩
  | active slot work => exact ⟨work.phase slot, rfl, by cases work <;> trivial⟩
  | advancing | finished | dropped =>
    rw [stage] at rests
    cases rests

/-- The failure of a block that lacks objects of the blocks it implements. -/
def Error.IsIncomplete (error : Error) : Prop :=
  ∃ (missing : List String) (interface : String),
    error = .misuse (.header (.missingObjects missing interface)) none

/-! One item in front of others -/

section Fronts

variable {α : Type} {first next : α} {rest : List α} {Before After : α → Prop}

/-- What holds of all items goes on to hold when the first of them makes way for another. -/
theorem forall_mem_replace (all : ∀ item ∈ first :: rest, Before item)
    (replaced : Before first → After next) (kept : ∀ item, Before item → After item) :
    ∀ item ∈ next :: rest, After item := by
  rw [List.forall_mem_cons] at all ⊢
  exact ⟨replaced all.1, fun item member => kept item (all.2 item member)⟩

/-- What holds of an item goes on to hold of one when the first item makes way for another. -/
theorem exists_mem_replace (found : ∃ item ∈ first :: rest, Before item)
    (replaced : Before first → After next) (kept : ∀ item, Before item → After item) :
    ∃ item ∈ next :: rest, After item := by
  rw [List.exists_mem_cons_iff] at found ⊢
  rcases found with isFirst | ⟨item, member, holds⟩
  · exact .inl (replaced isFirst)
  · exact .inr ⟨item, member, kept item holds⟩

end Fronts

/-! What files are called -/

section Names

variable (Named : FileId → FileId → Prop)

/-- Whether the file that work goes on with may go by its identifier. -/
def Work.IsNamed (asked : FileId) : Work → Prop
  | .preparing found _ => Named asked found.identifier
  | .chaining found _ _ => Named asked found.identifier
  | _ => True

def Stage.IsNamed (asked : FileId) : Stage → Prop
  | .active _ work => work.IsNamed Named asked
  | _ => True

/-- Whether files come from an importer, or are remembered of it, under identifiers that are allowed
for what they are asked for by. -/
structure GivesNamed (importer : Importer) (cache : ImportCache) : Prop where
  own : ∀ file, Named file file
  read : ∀ asked file, importer.read asked = .ok file → Named asked file.identifier
  imports : ∀ entry ∈ cache.imports, Named entry.1 entry.2.identifier

/-- Whether all files that a loader can come to know, or goes on with, have allowed identifiers. -/
structure Loader.IsNamed (loader : Loader) : Prop
    extends GivesNamed Named loader.importer loader.cache where
  works : ∀ (id : TaskId) (task : Task), loader.tasks[id]? = some task →
    task.stage.IsNamed Named task.file

end Names

namespace Loader

/-- The loads that rest with the tasks. -/
def flights (loader : Loader) : List Flight := loader.tasks.toList.flatMap Task.flights

/-- A text that was given takes the place of the load of its file when it has been read. -/
def publish (loader : Loader) (origin : Origin) (file : FileId) (id : TaskId) : Loader :=
  match origin with
  | .imported => loader
  | .given _ _ => loader.setLoad file id

theorem graph_publish (loader : Loader) (origin : Origin) (file : FileId) (id : TaskId) :
    (loader.publish origin file id).graph = loader.graph := by
  cases origin <;> rfl

theorem slots_publish (loader : Loader) (origin : Origin) (file : FileId) (id : TaskId) :
    (loader.publish origin file id).slots = loader.slots := by
  cases origin <;> rfl

theorem waits_publish (loader : Loader) (origin : Origin) (file : FileId) (id : TaskId) :
    (loader.publish origin file id).waits = loader.waits := by
  cases origin <;> rfl

theorem graph_load (loader : Loader) (file : FileId) :
    (loader.load file).1.graph = loader.graph := by
  unfold load
  split <;> rfl

theorem slots_load (loader : Loader) (file : FileId) :
    (loader.load file).1.slots = loader.slots := by
  unfold load
  split <;> rfl

theorem waits_load (loader : Loader) (file : FileId) :
    (loader.load file).1.waits = loader.waits := by
  unfold load
  split <;> rfl

theorem waits_reserve (loader : Loader) (file : FileId) :
    (loader.reserve file).1.waits = loader.waits := by
  unfold reserve
  split <;> rfl

/-- The files that there are tasks for. -/
def taskFiles (loader : Loader) : List FileId := loader.tasks.toList.map Task.file

/-- Whether two states of a loader agree on all that loads share. -/
structure SameStores (loader other : Loader) : Prop where
  graph : other.graph = loader.graph
  slots : other.slots = loader.slots
  loads : other.loads = loader.loads
  waits : other.waits = loader.waits
  files : other.taskFiles = loader.taskFiles
  names : other.names.count = loader.names.count
  completed : other.completed = loader.completed

/-- A loader becomes a later one by steps of loads, of which some are in hand before and some
afterwards. -/
inductive Proceeds (Named : FileId → FileId → Prop) :
    Loader → List Flight → Loader → List Flight → Prop
  | keep {loader other : Loader} {held : List Flight} (same : loader.SameStores other)
      (tasks : other.tasks.map Task.alone = loader.tasks.map Task.alone)
      (named : loader.IsNamed Named → other.IsNamed Named) : Proceeds Named loader held other held
  | shuffle {loader : Loader} {held more : List Flight} (perm : held.Perm more) :
      Proceeds Named loader held loader more
  | reserve (loader : Loader) (file : FileId) (held : List Flight) :
      Proceeds Named loader held (loader.reserve file).1 held
  | load (loader : Loader) (file : FileId) (held : List Flight) :
      Proceeds Named loader held (loader.load file).1 held
  | begin (loader : Loader) (file : FileId) (origin : Origin) (held : List Flight) :
      Proceeds Named loader (⟨file, origin, .fresh⟩ :: held) (loader.reserve file).1
        (⟨file, origin, .filling (loader.reserve file).2 none 0⟩ :: held)
  | wait {loader : Loader} {file requester target : FileId} {origin : Origin} {slot : BlockId}
      {base : Option BlockId} {targets : Multiset FileId} {held : List Flight}
      (named : Named file requester) (free : loader.waits.reaches target requester = false) :
      Proceeds Named loader (⟨file, origin, .filling slot base targets⟩ :: held)
        { loader with waits := loader.waits.add requester target }
        (⟨file, origin, .filling slot base ({target} + targets)⟩ :: held)
  | arrive {loader : Loader} {file requester target : FileId} {origin : Origin} {slot : BlockId}
      {base : Option BlockId} {targets : Multiset FileId} {held : List Flight}
      (named : Named file requester) :
      Proceeds Named loader (⟨file, origin, .filling slot base ({target} + targets)⟩ :: held)
        { loader with waits := loader.waits.remove requester target }
        (⟨file, origin, .filling slot base targets⟩ :: held)
  | fail {loader : Loader} {file : FileId} {origin : Origin} {slot : BlockId}
      {base : Option BlockId} {targets : Multiset FileId} {held : List Flight} (error : Error) :
      Proceeds Named loader (⟨file, origin, .filling slot base targets⟩ :: held) loader
        (⟨file, origin, .ended (.error error)⟩ :: held)
  /-- A block that waits for nothing gets a name and is put into its slot. A base that it got last
  was complete. -/
  | store {loader : Loader} {file : FileId} {origin : Origin} {slot : BlockId}
      {base : Option BlockId} {held : List Flight} {block : Block} {declared : String}
      (based : ∀ next, block.base? = some next →
        base = some next ∨ loader.graph.isComplete next = true)
      (numbered : block.name = (loader.names.claim declared).2) :
      Proceeds Named loader (⟨file, origin, .filling slot base 0⟩ :: held)
        { loader with
          graph := loader.graph.insert slot block
          names := (loader.names.claim declared).1
          completed := loader.completed ++ [(slot, declared)] }
        (⟨file, origin, .ended (.ok slot)⟩ :: held)
  /-- A block that lacks objects leaves its slot empty. -/
  | withdraw {loader : Loader} {file : FileId} {origin : Origin} {slot : BlockId}
      {base : Option BlockId} {targets : Multiset FileId} {held : List Flight} {error : Error}
      (incomplete : error.IsIncomplete) :
      Proceeds Named loader (⟨file, origin, .filling slot base targets⟩ :: held)
        { loader with graph := loader.graph.remove slot }
        (⟨file, origin, .ended (.error error)⟩ :: held)
  | finish (loader : Loader) (id : TaskId) (file : FileId) (origin : Origin)
      (outcome : Except Error BlockId) (held : List Flight) :
      Proceeds Named loader (⟨file, origin, .ended outcome⟩ :: held)
        (loader.publish origin file id) (⟨file, origin, .finished outcome⟩ :: held)
  | drop {loader : Loader} {flight : Flight} {held : List Flight} (isOpen : flight.phase.IsOpen) :
      Proceeds Named loader (flight :: held) loader ({ flight with phase := .dropped } :: held)
  | takeUp {loader : Loader} {id : TaskId} {task : Task} {held : List Flight}
      (found : loader.tasks[id]? = some task) (isOpen : task.isOpen = true) :
      Proceeds Named loader held (loader.setStage id .advancing) (task.flights ++ held)
  | putDown {loader : Loader} {id : TaskId} {task : Task} {stage : Stage} {held : List Flight}
      (found : loader.tasks[id]? = some task) (advancing : task.stage = .advancing)
      (named : stage.IsNamed Named task.file) :
      Proceeds Named loader (stage.flights task.file task.origin ++ held)
        (loader.setStage id stage) held
  | trans {first second third : Loader} {before between after : List Flight}
      (one : Proceeds Named first before second between)
      (other : Proceeds Named second between third after) : Proceeds Named first before third after

variable {Named : FileId → FileId → Prop} {loader other : Loader} {held before after : List Flight}

theorem SameStores.refl (loader : Loader) : loader.SameStores loader :=
  ⟨rfl, rfl, rfl, rfl, rfl, rfl, rfl⟩

theorem taskFiles_eq_of_alone (same : other.tasks.map Task.alone = loader.tasks.map Task.alone) :
    other.taskFiles = loader.taskFiles := by
  have files := congrArg (fun tasks : Array Task => tasks.toList.map Task.file) same
  have alone : ∀ task : Task, task.alone.file = task.file := fun _ => rfl
  simpa [taskFiles, Function.comp_def, alone] using files

theorem SameStores.of_quiet (same : other.quiet = loader.quiet) : loader.SameStores other :=
  ⟨(congrArg Loader.graph same :), (congrArg Loader.slots same :), (congrArg Loader.loads same :),
    (congrArg Loader.waits same :), taskFiles_eq_of_alone (congrArg Loader.tasks same :),
    (congrArg (fun quiet : Loader => quiet.names.count) same :),
    (congrArg Loader.completed same :)⟩

theorem SameStores.setStage (loader : Loader) (id : TaskId) (stage : Stage) :
    loader.SameStores (loader.setStage id stage) := by
  refine ⟨rfl, rfl, rfl, rfl, List.ext_getElem? fun index => ?_, rfl, rfl⟩
  rw [taskFiles, taskFiles, List.getElem?_map, List.getElem?_map, Array.getElem?_toList,
    Array.getElem?_toList, getElem?_setStage]
  split
  · rename_i same
    rw [same]
    cases loader.tasks[id]? <;> rfl
  · rfl

theorem SameStores.loadOf? (same : loader.SameStores other) (file : FileId) :
    other.loadOf? file = loader.loadOf? file := by
  rw [Loader.loadOf?, Loader.loadOf?, same.loads]

/-! Names -/

namespace IsNamed

variable (named : loader.IsNamed Named)
include named

/-- Names depend on the files and the tasks only. -/
theorem of_files (importer : other.importer = loader.importer)
    (imports : ∀ entry ∈ other.cache.imports, Named entry.1 entry.2.identifier)
    (tasks : other.tasks.map Task.alone = loader.tasks.map Task.alone) : other.IsNamed Named where
  own := named.own
  read := importer ▸ named.read
  imports := imports
  works id task found := by
    obtain ⟨again, known, alone⟩ := exists_task_of_alone tasks.symm found
    rw [← Task.file_eq_of_alone alone, ← Task.stage_eq_of_alone alone]
    exact named.works id again known

theorem keep (importer : other.importer = loader.importer) (cache : other.cache = loader.cache)
    (tasks : other.tasks.map Task.alone = loader.tasks.map Task.alone) : other.IsNamed Named :=
  named.of_files importer (cache ▸ named.imports) tasks

theorem of_quiet (same : other.quiet = loader.quiet) : other.IsNamed Named :=
  named.keep (congrArg Loader.importer same :) (congrArg Loader.cache same :)
    (congrArg Loader.tasks same :)

theorem push (task : Task) (fresh : task.stage = .fresh) :
    (loader.addTask task).1.IsNamed Named where
  own := named.own
  read := named.read
  imports := named.imports
  works id last found := by
    rw [addTask, Array.getElem?_push] at found
    split at found
    · rw [← Option.some.inj found, fresh]
      exact trivial
    · exact named.works id last found

theorem setStage {id : TaskId} {task : Task} {stage : Stage}
    (found : loader.tasks[id]? = some task) (stageNamed : stage.IsNamed Named task.file) :
    (loader.setStage id stage).IsNamed Named where
  own := named.own
  read := named.read
  imports := named.imports
  works index last known := by
    rw [getElem?_setStage] at known
    split at known
    · rename_i same
      rw [found] at known
      cases known
      exact stageNamed
    · exact named.works index last known

end IsNamed

namespace Proceeds

theorem of_quiet (same : other.quiet = loader.quiet) : Proceeds Named loader held other held :=
  .keep (.of_quiet same) (congrArg Loader.tasks same :) fun named => named.of_quiet same

theorem refl (loader : Loader) : Proceeds Named loader held loader held := .of_quiet rfl

/-- Steps that concern neither files nor tasks nor what loads share. -/
theorem of_rest (same : loader.SameStores other) (tasks : other.tasks = loader.tasks)
    (importer : other.importer = loader.importer) (cache : other.cache = loader.cache) :
    Proceeds Named loader held other held :=
  .keep same (by rw [tasks]) fun named => named.keep importer cache (by rw [tasks])

theorem isNamed (proceeds : Proceeds Named loader before other after)
    (named : loader.IsNamed Named) : other.IsNamed Named := by
  have reserved : ∀ {loader : Loader}, loader.IsNamed Named → ∀ file,
      (loader.reserve file).1.IsNamed Named := by
    intro loader named file
    unfold Loader.reserve
    split
    · exact named
    · exact named.keep rfl rfl rfl
  induction proceeds with
  | keep _ _ names => exact names named
  | shuffle | fail | drop => exact named
  | reserve loader file => exact reserved named file
  | begin loader file => exact reserved named file
  | load loader file =>
    cases known : loader.loadOf? file with
    | some id => rwa [load_of_some known]
    | none =>
      rw [load_of_none known]
      exact (named.push (.ofFile file .imported) rfl).keep rfl rfl rfl
  | wait | arrive | store | withdraw => exact named.keep rfl rfl rfl
  | finish loader id file origin =>
    cases origin with
    | imported => exact named
    | given contents defaultName => exact named.keep rfl rfl rfl
  | takeUp found => exact named.setStage found trivial
  | putDown found _ stageNamed => exact named.setStage found stageNamed
  | trans _ _ one other => exact other (one named)

/-- Tasks stay what they are, and a task that is over stays as it is. -/
theorem exists_task (proceeds : Proceeds Named loader before other after) {id : TaskId}
    {task : Task} (found : loader.tasks[id]? = some task) :
    ∃ again, other.tasks[id]? = some again ∧ again.file = task.file ∧ again.origin = task.origin ∧
      (task.isOver = true → again.stage = task.stage) := by
  have staged : ∀ {loader : Loader} {index id : TaskId} {before task : Task} (stage : Stage),
      loader.tasks[index]? = some before → before.isOver = false → loader.tasks[id]? = some task →
        ∃ again, (loader.setStage index stage).tasks[id]? = some again ∧ again.file = task.file ∧
          again.origin = task.origin ∧ (task.isOver = true → again.stage = task.stage) := by
    intro loader index id before task stage known live found
    rw [getElem?_setStage]
    split
    · rename_i same
      subst same
      cases known.symm.trans found
      refine ⟨{ before with stage }, by rw [known]; rfl, rfl, rfl, fun isOver => ?_⟩
      rw [live] at isOver
      cases isOver
    · exact ⟨task, found, rfl, rfl, fun _ => rfl⟩
  induction proceeds generalizing task with
  | keep _ tasks =>
    obtain ⟨again, known, alone⟩ := exists_task_of_alone tasks found
    exact ⟨again, known, Task.file_eq_of_alone alone, Task.origin_eq_of_alone alone,
      fun _ => Task.stage_eq_of_alone alone⟩
  | shuffle | fail | drop | wait | arrive | store | withdraw =>
    exact ⟨task, found, rfl, rfl, fun _ => rfl⟩
  | reserve loader file | begin loader file =>
    exact ⟨task, (queue_reserve loader file).2.2 ▸ found, rfl, rfl, fun _ => rfl⟩
  | load loader file =>
    exact ⟨task, getElem?_load_of_some found file, rfl, rfl, fun _ => rfl⟩
  | finish loader index file origin =>
    cases origin <;> exact ⟨task, found, rfl, rfl, fun _ => rfl⟩
  | @takeUp loader index before _ known isOpen =>
    refine staged .advancing known ?_ found
    cases stage : before.stage <;> simp_all [Task.isOpen, Task.isOver]
  | @putDown loader index before stage _ known advancing =>
    exact staged stage known (by rw [Task.isOver, advancing]) found
  | trans _ _ one other =>
    obtain ⟨again, known, file, origin, rests⟩ := one found
    obtain ⟨last, knownLast, fileLast, originLast, restsLast⟩ := other known
    refine ⟨last, knownLast, fileLast.trans file, originLast.trans origin, fun isOver => ?_⟩
    have same := rests isOver
    rw [restsLast (by rw [Task.isOver, same, ← Task.isOver, isOver]), same]

end Proceeds

/-! The loads of all tasks -/

theorem flights_eq_of_alone (same : other.tasks.map Task.alone = loader.tasks.map Task.alone) :
    other.flights = loader.flights := by
  have equal := congrArg (fun tasks : Array Task => tasks.toList.flatMap Task.flights) same
  have alone : ∀ task : Task, task.alone.flights = task.flights := fun _ => rfl
  simpa [flights, List.flatMap_map, Function.comp_def, alone] using equal

theorem flights_setStage {id : TaskId} {task : Task} (found : loader.tasks[id]? = some task)
    (stage : Stage) :
    (task.flights ++ (loader.setStage id stage).flights).Perm
      (stage.flights task.file task.origin ++ loader.flights) := by
  have known : loader.tasks.toList[id]? = some task := by simpa using found
  have changed := flatMap_modify_perm Task.flights (fun task => { task with stage }) known
  simpa only [flights, setStage, Array.toList_modify, Task.flights] using changed

theorem flights_addTask (loader : Loader) (file : FileId) (origin : Origin) :
    (loader.addTask (.ofFile file origin)).1.flights =
      loader.flights ++ [⟨file, origin, .fresh⟩] := by
  simp [flights, addTask, Task.flights, Task.ofFile, Stage.flights]

theorem flights_load_of_none {file : FileId} (new : loader.loadOf? file = none) :
    (loader.load file).1.flights = loader.flights ++ [⟨file, .imported, .fresh⟩] := by
  rw [load_of_none new]
  exact flights_addTask loader file .imported

theorem setStage_setStage (loader : Loader) (id : TaskId) (first second : Stage) :
    (loader.setStage id first).setStage id second = loader.setStage id second := by
  have tasks : ((loader.tasks.modify id fun task => { task with stage := first }).modify id
      fun task => { task with stage := second }) =
        loader.tasks.modify id fun task => { task with stage := second } := by
    apply Array.ext_getElem?
    intro index
    rw [Array.getElem?_modify, Array.getElem?_modify, Array.getElem?_modify]
    split
    · cases loader.tasks[index]? <;> rfl
    · rfl
  simp only [setStage, tasks]

/-! What the steps of loads keep -/

/-- Whether a property of what loads share, and of all loads that there are, is kept by every step
of a load. -/
structure IsKept (Named : FileId → FileId → Prop) (Holds : Loader → List Flight → Prop) : Prop where
  keep : ∀ {loader other : Loader} {flights more : List Flight}, loader.SameStores other →
    flights.Perm more → Holds loader flights → Holds other more
  reserve : ∀ {loader : Loader} {flights : List Flight} (file : FileId),
    Holds loader flights → Holds (loader.reserve file).1 flights
  load : ∀ {loader : Loader} {flights : List Flight} {file : FileId},
    loader.loadOf? file = none → Holds loader flights →
      Holds (loader.load file).1 (⟨file, .imported, .fresh⟩ :: flights)
  begin : ∀ {loader : Loader} {file : FileId} {origin : Origin} {rest : List Flight},
    Holds loader (⟨file, origin, .fresh⟩ :: rest) →
      Holds (loader.reserve file).1
        (⟨file, origin, .filling (loader.reserve file).2 none 0⟩ :: rest)
  wait : ∀ {loader : Loader} {file requester target : FileId} {origin : Origin} {slot : BlockId}
    {base : Option BlockId} {targets : Multiset FileId} {rest : List Flight},
    Named file requester → loader.waits.reaches target requester = false →
      Holds loader (⟨file, origin, .filling slot base targets⟩ :: rest) →
        Holds { loader with waits := loader.waits.add requester target }
          (⟨file, origin, .filling slot base ({target} + targets)⟩ :: rest)
  arrive : ∀ {loader : Loader} {file requester target : FileId} {origin : Origin} {slot : BlockId}
    {base : Option BlockId} {targets : Multiset FileId} {rest : List Flight},
    Named file requester →
      Holds loader (⟨file, origin, .filling slot base ({target} + targets)⟩ :: rest) →
        Holds { loader with waits := loader.waits.remove requester target }
          (⟨file, origin, .filling slot base targets⟩ :: rest)
  fail : ∀ {loader : Loader} {file : FileId} {origin : Origin} {slot : BlockId}
    {base : Option BlockId} {targets : Multiset FileId} {rest : List Flight} (error : Error),
    Holds loader (⟨file, origin, .filling slot base targets⟩ :: rest) →
      Holds loader (⟨file, origin, .ended (.error error)⟩ :: rest)
  store : ∀ {loader : Loader} {file : FileId} {origin : Origin} {slot : BlockId}
    {base : Option BlockId} {rest : List Flight} {block : Block} {declared : String},
    (∀ next, block.base? = some next → base = some next ∨ loader.graph.isComplete next = true) →
      block.name = (loader.names.claim declared).2 →
        Holds loader (⟨file, origin, .filling slot base 0⟩ :: rest) →
          Holds { loader with
              graph := loader.graph.insert slot block
              names := (loader.names.claim declared).1
              completed := loader.completed ++ [(slot, declared)] }
            (⟨file, origin, .ended (.ok slot)⟩ :: rest)
  withdraw : ∀ {loader : Loader} {file : FileId} {origin : Origin} {slot : BlockId}
    {base : Option BlockId} {targets : Multiset FileId} {rest : List Flight} {error : Error},
    error.IsIncomplete → Holds loader (⟨file, origin, .filling slot base targets⟩ :: rest) →
      Holds { loader with graph := loader.graph.remove slot }
        (⟨file, origin, .ended (.error error)⟩ :: rest)
  finish : ∀ {loader : Loader} {file : FileId} {origin : Origin}
    {outcome : Except Error BlockId} {rest : List Flight} (id : TaskId),
    Holds loader (⟨file, origin, .ended outcome⟩ :: rest) →
      Holds (loader.publish origin file id) (⟨file, origin, .finished outcome⟩ :: rest)
  drop : ∀ {loader : Loader} {flight : Flight} {rest : List Flight}, flight.phase.IsOpen →
    Holds loader (flight :: rest) → Holds loader ({ flight with phase := .dropped } :: rest)

/-- What every step keeps holds of all that comes of steps. -/
theorem Proceeds.keeps {Holds : Loader → List Flight → Prop}
    (proceeds : Proceeds Named loader before other after) (kept : IsKept Named Holds)
    (start : Holds loader (loader.flights ++ before)) : Holds other (other.flights ++ after) := by
  -- a step of the first load in hand leaves the tasks alone
  have step : ∀ {first second : Loader} {one next : Flight} {held : List Flight},
      Holds first (first.flights ++ one :: held) → second.flights = first.flights →
        (∀ rest, Holds first (one :: rest) → Holds second (next :: rest)) →
          Holds second (second.flights ++ next :: held) := by
    intro first second one next held holds flights goes
    rw [flights]
    exact kept.keep (.refl _) List.perm_middle.symm
      (goes _ (kept.keep (.refl _) List.perm_middle holds))
  have tasksReserve : ∀ (loader : Loader) (file : FileId),
      (loader.reserve file).1.flights = loader.flights := fun loader file => by
    rw [Loader.flights, (queue_reserve loader file).2.2, ← Loader.flights]
  induction proceeds with
  | keep same tasks =>
    rw [flights_eq_of_alone tasks]
    exact kept.keep same (.refl _) start
  | shuffle perm => exact kept.keep (.refl _) (perm.append_left _) start
  | reserve loader file =>
    rw [tasksReserve]
    exact kept.reserve file start
  | load loader file held =>
    cases known : loader.loadOf? file with
    | some id => rwa [load_of_some known]
    | none =>
      rw [flights_load_of_none known, List.append_assoc]
      exact kept.keep (.refl _) List.perm_middle.symm (kept.load known start)
  | begin loader file =>
    exact step start (tasksReserve loader file) fun _ => kept.begin
  | wait named free => exact step start rfl fun _ => kept.wait named free
  | arrive named => exact step start rfl fun _ => kept.arrive named
  | fail error => exact step start rfl fun _ => kept.fail error
  | store based numbered => exact step start rfl fun _ => kept.store based numbered
  | withdraw incomplete => exact step start rfl fun _ => kept.withdraw incomplete
  | finish loader id file origin =>
    exact step start (by cases origin <;> rfl) fun _ => kept.finish id
  | drop isOpen => exact step start rfl fun _ => kept.drop isOpen
  | @takeUp loader id task held found =>
    refine kept.keep (.setStage loader id .advancing) ?_ start
    have taken := (flights_setStage found .advancing).append_right held
    refine taken.symm.trans ?_
    rw [List.append_assoc]
    exact List.perm_append_comm_assoc ..
  | @putDown loader id task stage held found advancing =>
    refine kept.keep (.setStage loader id stage) ?_ start
    have put := (flights_setStage found stage).append_right held
    rw [Task.flights, advancing] at put
    refine .trans ?_ put.symm
    rw [List.append_assoc]
    exact List.perm_append_comm_assoc ..
  | trans _ _ one other => exact other (one start)

/-! Beside loads that are over -/

/-- Whether a property holds of what loads share and of all loads besides those of the past. -/
def HoldsBeside (past : List Flight) (Holds : Loader → List Flight → Prop) (loader : Loader)
    (flights : List Flight) : Prop :=
  ∃ new, flights.Perm (past ++ new) ∧ Holds loader new

variable {past rest : List Flight} {flight next : Flight} {Holds : Loader → List Flight → Prop}

/-- A step of a load that is not over is one beside the past. -/
theorem HoldsBeside.step (holds : HoldsBeside past Holds loader (flight :: rest))
    (isPast : ∀ flight ∈ past, flight.phase.IsOver) (live : ¬ flight.phase.IsOver)
    (goes : ∀ more, Holds loader (flight :: more) → Holds other (next :: more))
    (keep : ∀ {flights more}, flights.Perm more → Holds loader flights → Holds loader more) :
    HoldsBeside past Holds other (next :: rest) := by
  obtain ⟨new, perm, holds⟩ := holds
  have member : flight ∈ new := by
    rcases List.mem_append.mp (perm.subset List.mem_cons_self) with old | isNew
    · exact absurd (isPast flight old) live
    · exact isNew
  obtain ⟨front, behind, split⟩ := List.append_of_mem member
  rw [split] at holds perm
  refine ⟨next :: (front ++ behind), ?_, goes _ (keep List.perm_middle holds)⟩
  have others : rest.Perm (past ++ (front ++ behind)) := by
    apply (List.perm_cons flight).mp
    refine perm.trans ?_
    rw [← List.append_assoc, ← List.append_assoc]
    exact List.perm_middle
  exact (others.cons next).trans List.perm_middle.symm

/-- Steps leave loads that are over alone, so what they keep of all loads they keep of those beside
the past. -/
theorem IsKept.beside (kept : IsKept Named Holds)
    (isPast : ∀ flight ∈ past, flight.phase.IsOver) : IsKept Named (HoldsBeside past Holds) where
  keep same perm := fun ⟨new, split, holds⟩ =>
    ⟨new, perm.symm.trans split, kept.keep same (.refl _) holds⟩
  reserve file := fun ⟨new, split, holds⟩ => ⟨new, split, kept.reserve file holds⟩
  load unknown := fun ⟨_, split, holds⟩ =>
    ⟨_, (split.cons _).trans List.perm_middle.symm, kept.load unknown holds⟩
  begin holds := holds.step isPast id (fun _ => kept.begin) (kept.keep (.refl _))
  wait named free holds :=
    holds.step isPast id (fun _ => kept.wait named free) (kept.keep (.refl _))
  arrive named holds := holds.step isPast id (fun _ => kept.arrive named) (kept.keep (.refl _))
  fail error holds := holds.step isPast id (fun _ => kept.fail error) (kept.keep (.refl _))
  store based numbered holds :=
    holds.step isPast id (fun _ => kept.store based numbered) (kept.keep (.refl _))
  withdraw lacks holds := holds.step isPast id (fun _ => kept.withdraw lacks) (kept.keep (.refl _))
  finish task holds := holds.step isPast id (fun _ => kept.finish task) (kept.keep (.refl _))
  drop isOpen holds := holds.step isPast (Phase.not_isOver_of_isOpen isOpen)
    (fun _ => kept.drop isOpen) (kept.keep (.refl _))

end Loader

end StyleBlock
