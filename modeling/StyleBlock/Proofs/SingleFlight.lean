import StyleBlock.Import.Memory
import StyleBlock.Proofs.TaskEnds

/-!
Between two resets of a loader every file is read at most once and its block is built at most once,
however requests and polls follow each other. All answers for a file are the same, and answers for
different files never name one slot.
-/

namespace StyleBlock

/-- What a request was answered, and the file that it was about. -/
structure Answer where
  file : FileId
  outcome : Except Error BlockId

namespace Request

/-- Whether the text of the block comes from the importer. -/
def isImport : Request → Bool
  | source _ _ _ => false
  | _ => true

end Request

namespace Loader

/-! Requests between two resets -/

/-- The file that a request leads to. -/
def requestedFile (loader : Loader) : Request → FileId
  | .block id => id
  | .relative base path => (loader.identifier (some base) path).2
  | .path path => (loader.identifier none path).2
  | .source _ id _ => id

/-- The file that an open request is about. -/
def fileOf? (loader : Loader) (id : RequestId) : Option FileId :=
  match loader.requests[id]? with
  | some (.fresh request) => some (loader.requestedFile request)
  | some (.waiting watch) => (loader.tasks[watch.task]?).map Task.file
  | _ => none

theorem fileOf?_of_waiting {loader : Loader} {id : RequestId} {watch : Watch}
    (waits : loader.requests[id]? = some (.waiting watch)) :
    loader.fileOf? id = (loader.tasks[watch.task]?).map Task.file := by
  rw [fileOf?, waits]

/-- What the poll of a request answers, with the file that the request is about. -/
def answers (loader : Loader) (id : RequestId) : Poll (Except Error BlockId) → List Answer
  | .pending => []
  | .ready outcome => (loader.fileOf? id).toList.map fun file => ⟨file, outcome⟩

theorem answers_ready {loader : Loader} {id : RequestId} {file : FileId}
    (isAbout : loader.fileOf? id = some file) (outcome : Except Error BlockId) :
    loader.answers id (.ready outcome) = [⟨file, outcome⟩] := by
  rw [answers, isAbout]
  rfl

/-- Whether no request is under way, and those that have not begun are for files. -/
def IsIdle (loader : Loader) : Prop :=
  ∀ (id : RequestId) (state : RequestState), loader.requests[id]? = some state →
    state = .closed ∨ ∃ request, state = .fresh request ∧ request.isImport = true

/-- Whether nothing is known of any file, and no request and no load goes on. -/
structure IsCleared (loader : Loader) : Prop where
  loads : loader.loads = []
  slots : loader.slots = []
  tasks : ∀ (id : TaskId) (task : Task), loader.tasks[id]? = some task → task.isOpen = false
  idle : loader.IsIdle

/-- The runs of a loader between two resets, with the answers that are given, in order: requests for
files are made, polled and given up, and whoever polls several of them together keeps turns. -/
inductive Runs : Loader → List Answer → Loader → Prop
  | refl (loader : Loader) : Runs loader [] loader
  | ask (loader : Loader) (request : Request) (isImport : request.isImport = true) :
      Runs loader [] (loader.ask request).1
  | poll (loader : Loader) (listener : Listener) (id : RequestId) :
      Runs loader (loader.answers id (loader.pollFor listener id).2) (loader.pollFor listener id).1
  | cancel (loader : Loader) (id : RequestId) : Runs loader [] (loader.cancel id)
  | quiet {loader other : Loader} (same : other.quiet = loader.quiet) : Runs loader [] other
  | preprocess (loader : Loader) (preprocessors : List (Dialect × Preprocessor)) :
      Runs loader [] { loader with preprocessors }
  | trans {first second third : Loader} {before after : List Answer}
      (one : Runs first before second) (other : Runs second after third) :
      Runs first (before ++ after) third

/-- Polls of several requests at once are runs of single polls. -/
theorem exists_runs_pollJoin (loader : Loader) (pace : Pace) (listener : Listener)
    (states : List (RequestId × Poll (Except Error BlockId))) :
    ∃ answers, loader.Runs answers (requestParts.pollJoin pace listener states loader).1 :=
  have stepwise : IsStepwise fun loader other => ∃ answers, Runs loader answers other :=
    ⟨fun same => ⟨[], .quiet same⟩,
      fun ⟨before, one⟩ ⟨after, other⟩ => ⟨before ++ after, one.trans other⟩⟩
  stepwise.pollJoin (fun loader listener part => ⟨_, .poll loader listener part.1⟩) ..

theorem isCleared_ofImporter (options : Options) (importer : Importer) :
    (ofImporter options importer).IsCleared :=
  ⟨rfl, rfl, by simp [ofImporter], by simp [IsIdle, ofImporter]⟩

variable {start loader other : Loader} {atHand : List Right}

/-- No answer goes by without the file that it is about. -/
theorem exists_file_of_ready {listener : Listener} {id : RequestId}
    {outcome : Except Error BlockId} (ready : (loader.pollFor listener id).2 = .ready outcome) :
    ∃ file, loader.fileOf? id = some file := by
  unfold pollFor at ready
  cases state : loader.requests[id]? with
  | none =>
    rw [state] at ready
    cases ready
  | some request =>
    rw [state] at ready
    cases request with
    | closed => cases ready
    | fresh request => exact ⟨loader.requestedFile request, by rw [fileOf?, state]⟩
    | waiting watch =>
      rw [fileOf?_of_waiting state]
      cases found : loader.tasks[watch.task]? with
      | some task => exact ⟨task.file, rfl⟩
      | none =>
        have size := size_of_alone (congrArg Loader.tasks (quiet_attend loader watch listener) :)
        have gone : (loader.attend watch listener).1.tasks[(loader.attend watch listener).2.task]? =
            none := by
          rw [task_attend, Array.getElem?_eq_none_iff, size]
          exact Array.getElem?_eq_none_iff.mp found
        have pending : (loader.pollWatch listener id watch).2 = .pending := by
          unfold pollWatch
          dsimp only
          rw [pollTask_of_none gone]
        rw [show (loader.pollWatch listener id watch).2 = .ready outcome from ready] at pending
        cases pending

/-- A reset starts anew as long as no request is under way. -/
theorem isCleared_reset (idle : loader.IsIdle) : loader.reset.IsCleared := by
  unfold reset
  generalize cleared : ({ loader with
    cache := loader.cache.purgeAll, graph := .empty, slots := [], loads := [], waits := .empty,
    names := .empty } : Loader) = empty
  have requests : empty.requests = loader.requests := by rw [← cleared]
  have nothing : empty.loads = [] ∧ empty.slots = [] := by rw [← cleared]; exact ⟨rfl, rfl⟩
  have unheld : empty.roots = [] := by
    rw [roots, nothing.1, List.map_nil, List.nil_append]
    refine List.filterMap_eq_nil_iff.mpr fun state member => ?_
    obtain ⟨id, found⟩ := Array.mem_iff_getElem?.mp (Array.mem_toList_iff.mp member)
    rw [requests] at found
    rcases idle id state found with rfl | ⟨_, rfl, _⟩ <;> rfl
  obtain ⟨loads, slots, size⟩ := dropAll_keeps (List.range empty.tasks.size) empty
  refine ⟨?_, ?_, fun id task found => ?_, ?_⟩
  · rw [sweep_of_roots unheld, loads, nothing.1]
  · rw [sweep_of_roots unheld, slots, nothing.2]
  · rw [sweep_of_roots unheld] at found
    refine isClosedAt_dropAll (.inl (List.mem_range.mpr ?_)) task found
    by_contra outside
    rw [Array.getElem?_eq_none (by omega)] at found
    cases found
  · rw [IsIdle, requests_sweep, requests]
    exact idle

/-! Answers -/

/-- Whether an answer is what the task of its file ended with. -/
def HasAnswered (start loader : Loader) (answer : Answer) : Prop :=
  ∃ (id : TaskId) (task : Task), start.tasks.size ≤ id ∧ loader.tasks[id]? = some task ∧
    task.file = answer.file ∧ task.stage = .finished answer.outcome

theorem HasAnswered.later {answer : Answer} (answered : start.HasAnswered loader answer)
    (later : loader.IsLater other) : start.HasAnswered other answer := by
  obtain ⟨id, task, first, found, file, stage⟩ := answered
  obtain ⟨again, foundAgain, fileAgain, rests⟩ := later id task found
  exact ⟨id, again, first, foundAgain, fileAgain.trans file,
    (rests (by rw [Task.isOpen, stage])).trans stage⟩

/-- Whether the requests of a loader are for files, and those under way began since the start. -/
structure AreRequests (start : Loader) (requests : Array RequestState) : Prop where
  fresh : ∀ (id : RequestId) (request : Request), requests[id]? = some (.fresh request) →
    request.isImport = true
  waiting : ∀ (id : RequestId) (watch : Watch), requests[id]? = some (.waiting watch) →
    start.tasks.size ≤ watch.task

/-- Whether a loader gave these answers since the start, and did everything once. -/
structure IsWindow (start loader : Loader) (answers : List Answer) : Prop where
  single : start.IsSingle loader []
  requests : start.AreRequests loader.requests
  answered : ∀ answer ∈ answers, start.HasAnswered loader answer

namespace AreRequests

variable {requests : Array RequestState} (are : start.AreRequests requests)
include are

theorem set (id : RequestId) {state : RequestState} (fresh : ∀ request, state ≠ .fresh request)
    (waiting : ∀ watch, state = .waiting watch → start.tasks.size ≤ watch.task) :
    start.AreRequests (requests.setIfInBounds id state) where
  fresh index request found := by
    rw [Array.getElem?_setIfInBounds] at found
    split at found
    · split at found
      · exact absurd (Option.some.inj found) (fresh request)
      · cases found
    · exact are.fresh index request found
  waiting index watch found := by
    rw [Array.getElem?_setIfInBounds] at found
    split at found
    · split at found
      · exact waiting watch (Option.some.inj found)
      · cases found
    · exact are.waiting index watch found

theorem push {request : Request} (isImport : request.isImport = true) :
    start.AreRequests (requests.push (.fresh request)) where
  fresh index other found := by
    rw [Array.getElem?_push] at found
    split at found
    · cases found
      exact isImport
    · exact are.fresh index other found
  waiting index watch found := by
    rw [Array.getElem?_push] at found
    split at found
    · cases found
    · exact are.waiting index watch found

end AreRequests

namespace IsWindow

variable {given : List Answer} (window : start.IsWindow loader given)
include window

theorem later (single : start.IsSingle other []) (later : loader.IsLater other)
    (requests : start.AreRequests other.requests) : start.IsWindow other given :=
  ⟨single, requests, fun answer member => (window.answered answer member).later later⟩

theorem keep (same : loader.SameFlights other) (requests : other.requests = loader.requests) :
    start.IsWindow other given :=
  window.later (window.single.keep same) (.of_alone same.tasks) (requests ▸ window.requests)

theorem quiet (same : other.quiet = loader.quiet) : start.IsWindow other given :=
  window.keep (.of_quiet same) (congrArg Loader.requests same :)

/-- A request changes its state, and what nobody asks for any more is dropped. -/
theorem setRequest (id : RequestId) (state : RequestState)
    (fresh : ∀ request, state ≠ .fresh request)
    (waiting : ∀ watch, state = .waiting watch → start.tasks.size ≤ watch.task) :
    start.IsWindow (loader.setRequest id state).sweep given ∧
      loader.IsLater (loader.setRequest id state).sweep := by
  have single : start.IsSingle (loader.setRequest id state) [] :=
    window.single.keep ⟨rfl, rfl, rfl, rfl, rfl, rfl⟩
  have later : loader.IsLater (loader.setRequest id state).sweep :=
    isLater_sweep (loader.setRequest id state)
  exact ⟨window.later single.sweep later
    (requests_sweep (loader.setRequest id state) ▸ window.requests.set id fresh waiting), later⟩

/-- The poll of a task on behalf of a request. -/
theorem pollWatch (listener : Listener) (id : RequestId) (watch : Watch)
    (first : start.tasks.size ≤ watch.task) :
    start.IsWindow (loader.pollWatch listener id watch).1 given ∧
      loader.IsLater (loader.pollWatch listener id watch).1 ∧
        ∀ outcome, (loader.pollWatch listener id watch).2 = .ready outcome →
          ∃ task, (loader.pollWatch listener id watch).1.tasks[watch.task]? = some task ∧
            task.stage = .finished outcome := by
  have attended := window.quiet (quiet_attend loader watch listener)
  have seated := SameFlights.of_quiet (quiet_attend loader watch listener)
  have isTask := task_attend loader watch listener
  unfold Loader.pollWatch
  dsimp only
  generalize loader.attend watch listener = seat at attended seated isTask ⊢
  obtain ⟨between, seat⟩ := seat
  dsimp only at attended seated isTask ⊢
  obtain ⟨single, later⟩ := (flies_pollTask between seat.task).isSingle attended.single
  have requests := (works_pollTask 0 between seat.task []).requests
  have polled := attended.later single later (requests ▸ attended.requests)
  have later := (IsLater.of_alone seated.tasks).trans later
  split
  · rename_i after same
    rw [same] at polled later
    obtain ⟨put, laterPut⟩ := polled.setRequest id (.waiting seat) nofun
      (fun other is => by cases is; exact isTask ▸ first)
    refine ⟨put, later.trans laterPut, fun outcome ready => ?_⟩
    cases ready
  · rename_i after outcome same
    have ends := finished_of_ready (congrArg Prod.snd same)
    rw [same] at polled later ends
    obtain ⟨put, laterPut⟩ := polled.setRequest id .closed nofun nofun
    refine ⟨put, later.trans laterPut, fun result is => ?_⟩
    cases is
    obtain ⟨task, found, stage⟩ := ends
    rw [isTask] at found
    obtain ⟨last, foundLast, _, rests⟩ := laterPut watch.task task found
    exact ⟨last, foundLast, (rests (by rw [Task.isOpen, stage])).trans stage⟩

theorem load (file : FileId) :
    start.IsWindow (loader.load file).1 given ∧ start.tasks.size ≤ (loader.load file).2 ∧
      ∃ task, (loader.load file).1.tasks[(loader.load file).2]? = some task ∧ task.file = file := by
  have single := window.single.load file
  have loaded := single.tasks file (loader.load file).2 (loadOf?_load loader file)
  exact ⟨window.later single (.load loader file) ((queue_load loader file).2 ▸ window.requests),
    loaded⟩

theorem beginRequest {request : Request} (isImport : request.isImport = true) :
    start.IsWindow (loader.beginRequest request).1 given ∧
      start.tasks.size ≤ (loader.beginRequest request).2 ∧
        ∃ task, (loader.beginRequest request).1.tasks[(loader.beginRequest request).2]? =
          some task ∧
          task.file = loader.requestedFile request := by
  have identified : ∀ base path, start.IsWindow (loader.identifier base path).1 given :=
    fun base path => window.keep (.identifier loader base path) rfl
  cases request with
  | block id => exact window.load id
  | relative base path => exact (identified (some base) path).load _
  | path path => exact (identified none path).load _
  | source contents id defaultName => cases isImport

/-- An answer of a task is one more answer. -/
theorem answer {id : TaskId} {task last : Task} {outcome : Except Error BlockId}
    (first : start.tasks.size ≤ id) (found : loader.tasks[id]? = some last)
    (file : last.file = task.file) (stage : last.stage = .finished outcome) :
    start.IsWindow loader (given ++ [⟨task.file, outcome⟩]) := by
  refine ⟨window.single, window.requests, fun answer member => ?_⟩
  rcases List.mem_append.mp member with member | member
  · exact window.answered answer member
  · rw [List.mem_singleton.mp member]
    exact ⟨id, last, first, found, file, stage⟩

theorem pollFor (listener : Listener) (id : RequestId) :
    start.IsWindow (loader.pollFor listener id).1
      (given ++ loader.answers id (loader.pollFor listener id).2) := by
  unfold Loader.pollFor
  cases state : loader.requests[id]? with
  | none => simpa [answers] using window
  | some request =>
    cases request with
    | closed => simpa [answers] using window
    | fresh request =>
      have isAbout : loader.fileOf? id = some (loader.requestedFile request) := by
        rw [fileOf?, state]
      obtain ⟨begun, first, task, found, file⟩ :=
        window.beginRequest (window.requests.fresh id request state)
      obtain ⟨polled, later, ends⟩ := begun.pollWatch listener id
        ⟨(loader.beginRequest request).2, none⟩ first
      dsimp only
      cases poll : ((loader.beginRequest request).1.pollWatch listener id
          ⟨(loader.beginRequest request).2, none⟩).2 with
      | pending => simpa [answers] using polled
      | ready outcome =>
        obtain ⟨last, foundLast, stage⟩ := ends outcome poll
        obtain ⟨again, foundAgain, fileAgain, _⟩ := later _ task found
        cases foundLast.symm.trans foundAgain
        rw [answers_ready isAbout, ← file]
        exact polled.answer first foundLast fileAgain stage
    | waiting watch =>
      have first := window.requests.waiting id watch state
      obtain ⟨polled, later, ends⟩ := window.pollWatch listener id watch first
      dsimp only
      cases poll : (loader.pollWatch listener id watch).2 with
      | pending => simpa [answers] using polled
      | ready outcome =>
        obtain ⟨last, foundLast, stage⟩ := ends outcome poll
        cases found : loader.tasks[watch.task]? with
        | none =>
          have missing : loader.fileOf? id = none := by rw [fileOf?_of_waiting state, found]; rfl
          simpa [answers, missing] using polled
        | some task =>
          have isAbout : loader.fileOf? id = some task.file := by
            rw [fileOf?_of_waiting state, found]
            rfl
          obtain ⟨again, foundAgain, file, _⟩ := later _ task found
          cases foundLast.symm.trans foundAgain
          rw [answers_ready isAbout]
          exact polled.answer first foundLast file stage

theorem cancel (id : RequestId) : start.IsWindow (loader.cancel id) given := by
  unfold Loader.cancel
  split
  · exact ((window.quiet (quiet_leave loader _)).setRequest id .closed nofun nofun).1
  · exact (window.setRequest id .closed nofun nofun).1

/-- Whatever is asked of the loader, every file flies once. -/
theorem runs {more : List Answer} (runs : loader.Runs more other) :
    start.IsWindow other (given ++ more) := by
  induction runs generalizing given with
  | refl loader => simpa using window
  | ask loader request isImport =>
    rw [List.append_nil]
    exact window.later (window.single.keep ⟨rfl, rfl, rfl, rfl, rfl, rfl⟩) (.of_alone rfl)
      (window.requests.push isImport)
  | poll loader listener id => exact window.pollFor listener id
  | cancel loader id => simpa using window.cancel id
  | quiet same => simpa using window.quiet same
  | preprocess loader preprocessors =>
    rw [List.append_nil]
    exact window.keep ⟨rfl, rfl, rfl, rfl, rfl, rfl⟩ rfl
  | trans _ _ one other =>
    rw [← List.append_assoc]
    exact other (one window)

end IsWindow

theorem IsCleared.isWindow (cleared : start.IsCleared) : start.IsWindow start [] := by
  have noLoads : ∀ file, start.loadOf? file = none := fun file => by
    rw [loadOf?, cleared.loads]
    rfl
  have noTask : ∀ {id : TaskId} {task : Task}, start.tasks.size ≤ id →
      start.tasks[id]? ≠ some task := by
    intro id task first found
    rw [Array.getElem?_eq_none first] at found
    cases found
  have noRights : start.rights = [] := by
    refine List.flatMap_eq_nil_iff.mpr fun entry member => ?_
    have found : start.tasks[entry.2]? = some entry.1 := by
      simpa using List.mem_zipIdx_iff_getElem?.mp member
    have closed := cleared.tasks entry.2 entry.1 found
    cases stage : entry.1.stage <;> simp_all [Task.isOpen, Stage.rights]
  refine ⟨⟨Nat.le_refl _, fun id task first found => absurd found (noTask first),
    fun file id found => ?_, fun id task _ found => cleared.tasks id task found, ?_, ?_, ?_,
    fun id task first found => absurd found (noTask first), [], [], ?_⟩, ⟨?_, ?_⟩,
    fun answer member => absurd member List.not_mem_nil⟩
  · rw [noLoads] at found
    cases found
  · simp [cleared.slots]
  · simp [cleared.slots]
  · simp [cleared.slots]
  · exact ⟨by simp, by simp, by simp [ledger, noRights], by simp [ledger, noRights]⟩
  · intro id request found
    rcases cleared.idle id _ found with is | ⟨_, is, isImport⟩
    · cases is
    · cases is
      exact isImport
  · intro id watch found
    rcases cleared.idle id _ found with is | ⟨_, is, _⟩ <;> cases is

/-- What was built since the start belongs to different files. -/
theorem IsSingle.exists_files (single : start.IsSingle loader atHand) {built : List TaskId}
    (different : built.Nodup)
    (since : ∀ id ∈ built, start.tasks.size ≤ id ∧ id < loader.tasks.size) :
    ∃ files : List FileId, files.Nodup ∧
      built.map (fun id => (loader.tasks[id]?).map Task.file) = files.map some := by
  have there : ∀ id ∈ built, ∃ task, loader.tasks[id]? = some task ∧
      loader.loadOf? task.file = some id := by
    intro id member
    obtain ⟨first, inside⟩ := since id member
    have found := Array.getElem?_eq_getElem inside
    exact ⟨_, found, (single.loaded id _ first found).1⟩
  refine ⟨built.map fun id => ((loader.tasks[id]?).map Task.file).getD "", ?_, ?_⟩
  · refine different.map_on fun one isOne other isOther same => ?_
    obtain ⟨task, found, loaded⟩ := there one isOne
    obtain ⟨task', found', loaded'⟩ := there other isOther
    rw [found, found'] at same
    have sameFile : task.file = task'.file := same
    rw [sameFile, loaded'] at loaded
    exact (Option.some.inj loaded).symm
  · rw [List.map_map]
    refine List.map_congr_left fun id member => ?_
    obtain ⟨task, found, _⟩ := there id member
    simp [found]

/-- Between two resets every file is read at most once, and its block is built at most once.
Requests for one file have the same answer, and requests for different files never get the same
slot. The window starts with no load in flight: the loader is new, or was reset while no load went
on and no request had begun. -/
theorem single_flight {last : Loader} {answers : List Answer} (cleared : start.IsCleared)
    (runs : start.Runs answers last) :
    (∃ files : List FileId, last.cache.reads = start.cache.reads ++ files ∧ files.Nodup) ∧
      (∃ (built : List TaskId) (files : List FileId), last.built = start.built ++ built ∧
        built.map (fun id => (last.tasks[id]?).map Task.file) = files.map some ∧ files.Nodup) ∧
      (∀ one ∈ answers, ∀ other ∈ answers, one.file = other.file → one.outcome = other.outcome) ∧
      ∀ one ∈ answers, ∀ other ∈ answers, ∀ slot, one.outcome = .ok slot →
        other.outcome = .ok slot →
        one.file = other.file := by
  have window := cleared.isWindow.runs runs
  have single := window.single
  obtain ⟨files, built, spent⟩ := single.spent
  have used := (List.nodup_append.mp spent.once).2.1
  rw [List.nil_append] at window
  refine ⟨⟨files, spent.reads, ?_⟩, ?_, fun one isOne other isOther same => ?_,
    fun one isOne other isOther slot gets getsToo => ?_⟩
  · exact .of_map _ (List.nodup_append.mp (List.nodup_append.mp used).2.1).1
  · have different : built.Nodup :=
      .of_map _ (List.nodup_append.mp (List.nodup_append.mp used).2.1).2.1
    obtain ⟨names, namesNodup, names_eq⟩ := single.exists_files different fun id member =>
      spent.known (.building id) (by simp [ledger, member])
    exact ⟨built, names, spent.built, names_eq, namesNodup⟩
  · obtain ⟨id, task, first, found, file, stage⟩ := window.answered one isOne
    obtain ⟨id', task', first', found', file', stage'⟩ := window.answered other isOther
    have loaded := (single.loaded id task first found).1
    have loaded' := (single.loaded id' task' first' found').1
    rw [file, same, ← file', loaded'] at loaded
    obtain rfl := Option.some.inj loaded
    cases found.symm.trans found'
    exact Stage.finished.inj (stage.symm.trans stage')
  · obtain ⟨id, task, first, found, file, stage⟩ := window.answered one isOne
    obtain ⟨id', task', first', found', file', stage'⟩ := window.answered other isOther
    have place := single.stages id task first found
    have place' := single.stages id' task' first' found'
    rw [stage, gets, file] at place
    rw [stage', getsToo, file'] at place'
    exact congrArg Prod.fst (List.inj_on_of_nodup_map single.places place place' rfl)

/-! Two files -/

/-- Polls requests one after the other, and collects the answers. -/
def pollInTurn : List RequestId → Loader → Loader × List Answer
  | [], loader => (loader, [])
  | id :: rest, loader =>
    let (after, poll) := loader.pollFor .caller id
    let (last, answers) := pollInTurn rest after
    (last, loader.answers id poll ++ answers)

theorem runs_pollInTurn (ids : List RequestId) (loader : Loader) :
    loader.Runs (pollInTurn ids loader).2 (pollInTurn ids loader).1 := by
  induction ids generalizing loader with
  | nil => exact .refl loader
  | cons id rest ih => exact (Runs.poll loader .caller id).trans (ih _)

/-- Two files that refer to each other, one of which takes a while. -/
def couple : MemoryFiles where
  contents := [("one.css", "@block-reference two from \"two.css\"; .root \x7b color: red; \x7d"),
    ("two.css", "@block-reference one from \"one.css\"; .root \x7b color: blue; \x7d")]
  delays := [("two.css", 1)]

/-- Two requests for one of them, and one for the other. -/
def coupleAsked : Loader :=
  ((((ofImporter .default couple.importer).ask (.block "one.css")).1.ask (.path "two.css")).1.ask
    (.relative "two.css" "./one.css")).1

theorem runs_couple (ids : List RequestId) :
    (ofImporter .default couple.importer).Runs (pollInTurn ids coupleAsked).2
      (pollInTurn ids coupleAsked).1 :=
  (((Runs.ask _ (.block "one.css") rfl).trans (.ask _ (.path "two.css") rfl)).trans
    (.ask _ (.relative "two.css" "./one.css") rfl)).trans (runs_pollInTurn ids coupleAsked)

/-- All three requests are answered, those for one file with one slot, after one read of each. -/
theorem couple_flies_once :
    let flown := pollInTurn [0, 1, 2, 2, 0, 1] coupleAsked
    flown.2.map Answer.file = ["two.css", "one.css", "one.css"] ∧
      (∃ files, flown.1.cache.reads = files ∧ files.Nodup) ∧
        ∀ one ∈ flown.2, ∀ other ∈ flown.2, one.file = other.file →
          one.outcome = other.outcome := by
  have flight := single_flight (isCleared_ofImporter .default couple.importer)
    (runs_couple [0, 1, 2, 2, 0, 1])
  exact ⟨by decide +kernel, flight.1, flight.2.2.1⟩

end Loader

end StyleBlock
