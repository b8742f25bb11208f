import StyleBlock.Import.Memory
import StyleBlock.Load.Request
import StyleBlock.Proofs.Standstill

/-!
A request that is polled again and again. Each poll lowers what the loads cost, until the request is
answered, or waits for permits only. Then it waits forever, for permits of a load that nobody waits
for: one that was left behind when another reference of the same block failed.
-/

namespace StyleBlock

theorem MemoryFiles.isLawful_importer (files : MemoryFiles) : files.importer.IsLawful := by
  have known : ∀ id file, files.read id = .ok file →
      id ∈ files.contents.map Prod.fst ∧ file.identifier = id := by
    intro id file found
    unfold MemoryFiles.read at found
    split at found
    · cases found
    · rename_i contents isContents
      cases found
      obtain ⟨entry, member, _⟩ := Option.map_eq_some_iff.mp isContents
      have isFile : entry.1 = id := by simpa using List.find?_some member
      exact ⟨isFile ▸ List.mem_map_of_mem (List.mem_of_find?_eq_some member), rfl⟩
  exact ⟨fun id file found => (known id file found).1, fun id file found => (known id file found).2⟩

namespace Poll

def isPending {α : Type} : Poll α → Bool
  | pending => true
  | ready _ => false

theorem eq_pending {α : Type} {poll : Poll α} (waits : poll.isPending = true) : poll = pending := by
  cases poll with
  | pending => rfl
  | ready value => cases waits

end Poll

namespace Loader

/-! Nothing is dropped -/

theorem subset_saturate (loader : Loader) (held : List TaskId) (rounds : Nat) :
    held ⊆ loader.saturate held rounds := by
  induction rounds generalizing held with
  | zero => exact List.Subset.refl held
  | succ rounds ih =>
    intro id member
    exact ih _ (List.mem_append_left _ member)

/-- Every task loads its file, so none is dropped. -/
theorem Sound.sweep_eq {loader : Loader} (sound : loader.Sound) : loader.sweep = loader := by
  have none :
      (List.range loader.tasks.size).filter (fun id => !loader.heldTasks.contains id) = [] := by
    refine List.filter_eq_nil_iff.mpr fun id inside => ?_
    obtain ⟨task, found⟩ : ∃ task, loader.tasks[id]? = some task :=
      ⟨_, Array.getElem?_eq_getElem (List.mem_range.mp inside)⟩
    obtain ⟨entry, member, isTask⟩ := Option.map_eq_some_iff.mp (sound.loaded id task found)
    have root : id ∈ loader.roots := List.mem_append_left _
      (isTask ▸ List.mem_map_of_mem (List.mem_of_find?_eq_some member))
    have held : id ∈ loader.heldTasks := loader.subset_saturate _ _ root
    simpa using held
  rw [sweep, none]
  rfl

/-! One poll -/

/-- Polls a request again and again until it is answered, at most so many times. -/
def drive (loader : Loader) (id : RequestId) : Nat → Loader × Poll (Except Error BlockId)
  | 0 => (loader, .pending)
  | polls + 1 =>
    match loader.poll id with
    | (loader, .pending) => loader.drive id polls
    | (loader, .ready outcome) => (loader, .ready outcome)

/-- What holds of a loader between two polls of its only request. -/
structure IsResting (loader : Loader) : Prop where
  sound : loader.Sound
  resting : ∀ id, ¬ loader.IsAdvancing id
  accounts : loader.queue.Accounts (loader.holdings loader.queue.capacity)

/-- Whether a request has been polled and waits for the load of a task. -/
def IsWaitingFor (loader : Loader) (id : RequestId) (root : TaskId) : Prop :=
  ∃ watch, loader.requests[id]? = some (.waiting watch) ∧ watch.task = root

variable {loader other : Loader} {root : TaskId} {id : RequestId}

theorem IsResting.of_works {capacity : Nat} (resting : loader.IsResting)
    (fits : loader.queue.capacity = capacity) (works : Works capacity loader [] other [])
    (sound : other.Sound) (advancing : ∀ id, other.IsAdvancing id → loader.IsAdvancing id) :
    other.IsResting := by
  subst fits
  obtain ⟨capacity, accounts⟩ := works.accounts rfl resting.accounts
  exact ⟨sound, fun id isAdvancing => resting.resting id (advancing id isAdvancing),
    by rwa [capacity]⟩

theorem IsResting.of_quiet (resting : loader.IsResting) (same : other.quiet = loader.quiet) :
    other.IsResting :=
  resting.of_works rfl (.of_quiet same) (resting.sound.of_sameLoads (.of_quiet same))
    fun id => ((SameLoads.of_quiet same).isAdvancing id).mp

/-- A poll of a task while no other poll is under way. -/
theorem IsResting.pollTask (resting : loader.IsResting)
    (found : ∃ task, loader.tasks[root]? = some task) :
    let result := loader.pollTask root
    result.1.IsResting ∧ (∃ task, result.1.tasks[root]? = some task) ∧
      ((∃ outcome, result.2 = .ready outcome) ∧ ¬ loader.IsQueued root ∨
        result.2 = .pending ∧ (result.1.cost < loader.cost ∧ ¬ loader.IsQueued root ∨
          loader.SameLoads result.1 ∧ result.1.queue = loader.queue ∧ loader.IsQueued root)) := by
  obtain ⟨task, found⟩ := found
  have polled : loader.IsSoundPoll root (loader.pollTask root) := by
    refine pollWithin_serves _ loader root task resting.sound found ?_ ?_
      loader.nesting_lt_depthBound
    · exact fun advancing => resting.resting root ⟨task, found, advancing⟩
    · exact fun index climber known advancing =>
        absurd ⟨climber, known, advancing⟩ (resting.resting index)
  obtain ⟨again, foundAgain, _⟩ := polled.moved.exists_task resting.sound found
  refine ⟨resting.of_works rfl (works_pollTask ..) polled.moved.sound
    fun index => (polled.moved.advancing index).mp, ⟨again, foundAgain⟩, ?_⟩
  by_cases queued : loader.IsQueued root
  · obtain ⟨pending, same, queue⟩ := queued.findsNothing resting.sound
    exact .inr ⟨pending, .inr ⟨same, queue, queued⟩⟩
  · cases answer : (loader.pollTask root).2 with
    | ready outcome => exact .inl ⟨⟨outcome, rfl⟩, queued⟩
    | pending =>
      rcases (polled.pending answer).2 with less | still
      · exact .inr ⟨rfl, .inl ⟨less, queued⟩⟩
      · exact absurd still.2.2 queued

theorem requests_pollTask (loader : Loader) (root : TaskId) :
    (loader.pollTask root).1.requests = loader.requests :=
  (works_pollTask 0 loader root []).requests

theorem sameLoads_setRequest (loader : Loader) (id : RequestId) (state : RequestState) :
    loader.SameLoads (loader.setRequest id state) := ⟨rfl, rfl, rfl, rfl, rfl, rfl, rfl, rfl⟩

theorem IsResting.setRequest (resting : loader.IsResting) (state : RequestState) :
    (loader.setRequest id state).IsResting :=
  ⟨resting.sound.of_sameLoads (sameLoads_setRequest ..), resting.resting, resting.accounts⟩

/-- What a poll makes of a request: it gets on, so that it is answered or the loads cost less, as
long as it does not wait for permits only. -/
theorem IsResting.pollWatch (listener : Listener) {watch : Watch} (resting : loader.IsResting)
    (found : ∃ task, loader.tasks[watch.task]? = some task) (inside : id < loader.requests.size) :
    let result := loader.pollWatch listener id watch
    (∃ outcome, result.2 = .ready outcome) ∧ ¬ loader.IsQueued watch.task ∨
      result.2 = .pending ∧ result.1.IsResting ∧ result.1.IsWaitingFor id watch.task ∧
        (∃ task, result.1.tasks[watch.task]? = some task) ∧
          (result.1.cost < loader.cost ∧ ¬ loader.IsQueued watch.task ∨
            result.1.IsQueued watch.task) := by
  have attended := quiet_attend loader watch listener
  have same := SameLoads.of_quiet attended
  have sameTask := task_attend loader watch listener
  have queue := queue_eq_of_quiet attended
  have requests : (loader.attend watch listener).1.requests = loader.requests :=
    (congrArg Loader.requests attended :)
  have restingNow := resting.of_quiet attended
  unfold Loader.pollWatch
  generalize loader.attend watch listener = start at *
  obtain ⟨now, seat⟩ := start
  dsimp only at *
  rw [← sameTask] at found ⊢
  obtain ⟨task, found⟩ := found
  obtain ⟨again, foundNow, _⟩ := same.exists_task found
  have queuedNow : now.IsQueued seat.task ↔ loader.IsQueued seat.task :=
    ⟨fun queued => queued.of_sameLoads same.symm queue.symm,
      fun queued => queued.of_sameLoads same queue⟩
  have polled := restingNow.pollTask ⟨again, foundNow⟩
  have requestsLater := requests_pollTask now seat.task
  rw [queuedNow, same.cost] at polled
  generalize now.pollTask seat.task = result at *
  obtain ⟨after, answer⟩ := result
  obtain ⟨restingLater, foundLater, cases⟩ := polled
  dsimp only at *
  rcases cases with ⟨⟨outcome, rfl⟩, unqueued⟩ | ⟨rfl, progress⟩
  · exact .inl ⟨⟨outcome, rfl⟩, unqueued⟩
  · have restingLast := @IsResting.setRequest after id restingLater (.waiting seat)
    have waits : (after.setRequest id (.waiting seat)).IsWaitingFor id seat.task := by
      refine ⟨seat, ?_, rfl⟩
      rw [Loader.setRequest, requestsLater, requests, Array.getElem?_setIfInBounds]
      simp [inside]
    have sameLast := sameLoads_setRequest after id (.waiting seat)
    dsimp only
    rw [restingLast.sound.sweep_eq, sameLast.cost]
    refine .inr ⟨rfl, restingLast, waits, foundLater, ?_⟩
    rcases progress with less | ⟨sameLater, queueLater, queued⟩
    · exact .inl less
    · exact .inr ((queuedNow.mpr queued).of_sameLoads (sameLater.trans sameLast) queueLater)

/-! Many polls -/

/-- A request that has been polled, and the load that it waits for, between two polls. -/
structure IsDriven (loader : Loader) (id : RequestId) (root : TaskId) : Prop where
  resting : loader.IsResting
  waits : loader.IsWaitingFor id root
  found : ∃ task, loader.tasks[root]? = some task

theorem IsDriven.poll (driven : loader.IsDriven id root) :
    let result := loader.poll id
    (∃ outcome, result.2 = .ready outcome) ∧ ¬ loader.IsQueued root ∨
      result.2 = .pending ∧ result.1.IsDriven id root ∧
        (result.1.cost < loader.cost ∧ ¬ loader.IsQueued root ∨ result.1.IsQueued root) := by
  obtain ⟨resting, ⟨watch, waits, rfl⟩, found⟩ := driven
  have inside : id < loader.requests.size := (Array.getElem?_eq_some_iff.mp waits).1
  have step : loader.poll id = loader.pollWatch .caller id watch := by
    rw [Loader.poll, pollFor, waits]
  rw [step]
  rcases resting.pollWatch .caller found inside with ready |
    ⟨pending, resting, waits, found, progress⟩
  · exact .inl ready
  · exact .inr ⟨pending, ⟨resting, waits, found⟩, progress⟩

theorem drive_of_pending (pending : (loader.poll id).2 = .pending) (polls : Nat) :
    loader.drive id (polls + 1) = (loader.poll id).1.drive id polls := by
  rw [drive]
  generalize loader.poll id = result at *
  obtain ⟨after, answer⟩ := result
  obtain rfl : answer = .pending := pending
  rfl

theorem drive_of_ready {outcome : Except Error BlockId}
    (ready : (loader.poll id).2 = .ready outcome) (polls : Nat) :
    loader.drive id (polls + 1) = loader.poll id := by
  rw [drive]
  generalize loader.poll id = result at *
  obtain ⟨after, answer⟩ := result
  obtain rfl : answer = .ready outcome := ready
  rfl

theorem drive_add {polls : Nat} (pending : (loader.drive id polls).2 = .pending) (more : Nat) :
    loader.drive id (polls + more) = (loader.drive id polls).1.drive id more := by
  induction polls generalizing loader with
  | zero => rw [Nat.zero_add, drive]
  | succ polls ih =>
    cases answer : (loader.poll id).2 with
    | pending =>
      rw [drive_of_pending answer] at pending ⊢
      rw [Nat.add_right_comm, drive_of_pending answer]
      exact ih pending
    | ready outcome =>
      rw [drive_of_ready answer, answer] at pending
      cases pending

/-- Whoever has no answer after some polls had none before. -/
theorem pending_of_add {polls more : Nat}
    (pending : (loader.drive id (polls + more)).2 = .pending) :
    (loader.drive id polls).2 = .pending := by
  induction polls generalizing loader with
  | zero => rfl
  | succ polls ih =>
    rw [Nat.add_right_comm] at pending
    cases answer : (loader.poll id).2 with
    | pending =>
      rw [drive_of_pending answer] at pending ⊢
      exact ih pending
    | ready outcome =>
      rw [drive_of_ready answer, answer] at pending
      cases pending

theorem IsDriven.drive (driven : loader.IsDriven id root) {polls : Nat}
    (pending : (loader.drive id polls).2 = .pending) :
    (loader.drive id polls).1.IsDriven id root := by
  induction polls generalizing loader with
  | zero => exact driven
  | succ polls ih =>
    rcases driven.poll with ⟨⟨outcome, ready⟩, _⟩ | ⟨waits, drivenLater, _⟩
    · rw [drive_of_ready ready, ready] at pending
      cases pending
    · rw [drive_of_pending waits] at pending ⊢
      exact ih drivenLater pending

/-- A request that waits for permits only is not answered any more. -/
theorem IsDriven.drive_of_queued (driven : loader.IsDriven id root)
    (queued : loader.IsQueued root) (polls : Nat) : (loader.drive id polls).2 = .pending := by
  induction polls generalizing loader with
  | zero => rfl
  | succ polls ih =>
    rcases driven.poll with ⟨_, unqueued⟩ | ⟨pending, drivenLater, progress⟩
    · exact absurd queued unqueued
    · rw [drive_of_pending pending]
      rcases progress with ⟨_, unqueued⟩ | queuedLater
      · exact absurd queued unqueued
      · exact ih drivenLater queuedLater

/-- Whether a load that a request does not wait for holds permits, or a ticket for some. -/
def Abandons (loader : Loader) (id : RequestId) : Prop :=
  ∃ root other, loader.IsWaitingFor id root ∧ loader.Holds other ∧
    ¬ Relation.ReflTransGen loader.Awaits root other

theorem IsDriven.abandons (driven : loader.IsDriven id root) (queued : loader.IsQueued root) :
    loader.Abandons id := by
  obtain ⟨other, holds, apart⟩ := queued.exists_abandoned driven.resting.accounts
  exact ⟨root, other, driven.waits, holds, apart⟩

/-- Whether a request is answered after so many polls, or is never answered because of a load that
it does not wait for. -/
def IsDecided (loader : Loader) (id : RequestId) (polls : Nat) : Prop :=
  (∃ outcome, (loader.drive id polls).2 = .ready outcome) ∨
    (loader.drive id polls).1.Abandons id ∧ ∀ more, (loader.drive id (polls + more)).2 = .pending

theorem IsDecided.of_poll {polls : Nat} (pending : (loader.poll id).2 = .pending)
    (decided : (loader.poll id).1.IsDecided id polls) : loader.IsDecided id (polls + 1) := by
  rcases decided with ⟨outcome, ready⟩ | ⟨abandons, forever⟩
  · refine .inl ⟨outcome, ?_⟩
    rwa [drive_of_pending pending]
  · refine .inr ⟨?_, fun more => ?_⟩
    · rwa [drive_of_pending pending]
    · rw [Nat.add_right_comm, drive_of_pending pending]
      exact forever more

/-- The induction is on what the loads still cost. -/
theorem IsDriven.exists_isDecided (driven : loader.IsDriven id root) :
    ∃ polls, loader.IsDecided id polls := by
  induction cost : loader.cost using Nat.strongRecOn generalizing loader with
  | ind cost ih =>
    subst cost
    by_cases queued : loader.IsQueued root
    · refine ⟨0, .inr ⟨driven.abandons queued, fun more => driven.drive_of_queued queued _⟩⟩
    · rcases driven.poll with ⟨⟨outcome, ready⟩, _⟩ | ⟨pending, drivenLater, progress⟩
      · refine ⟨1, .inl ⟨outcome, ?_⟩⟩
        rw [drive_of_ready ready 0, ready]
      · rcases progress with ⟨less, _⟩ | queuedLater
        · obtain ⟨polls, decided⟩ := ih _ less drivenLater rfl
          exact ⟨polls + 1, decided.of_poll pending⟩
        · refine ⟨1, .of_poll pending (.inr ⟨drivenLater.abandons queuedLater, fun more => ?_⟩)⟩
          exact drivenLater.drive_of_queued queuedLater _

/-! From the first poll on -/

/-- A loader in its beginning, of which all joins poll all of their parts that are not over. -/
def start (options : Options) (importer : Importer)
    (preprocessors : List (Dialect × Preprocessor)) : Loader :=
  { ofImporter options importer with preprocessors, together := fun _ => true }

theorem isResting_start {importer : Importer} (lawful : importer.IsLawful) (options : Options)
    (preprocessors : List (Dialect × Preprocessor)) :
    (start options importer preprocessors).IsResting := by
  have none : ∀ (id : TaskId) (task : Task),
      (start options importer preprocessors).tasks[id]? ≠ some task := by
    intro id task found
    simp [start, ofImporter] at found
  refine ⟨⟨lawful, fun _ => rfl, ?_, ?_, Waits.isAcyclic_empty, ?_, ?_, ?_, ?_⟩, ?_, ?_⟩
  · intro entry member
    cases member
  · intro entry member
    cases member
  · exact fun id task found => absurd found (none id task)
  · intro file id found
    cases found
  · exact fun id task found => absurd found (none id task)
  · exact fun id task found => absurd found (none id task)
  · rintro id ⟨task, found, _⟩
    exact none id task found
  · exact Queue.accounts_ofLimit options.maxConcurrentCompiles

theorem IsResting.load (resting : loader.IsResting) (file : FileId) :
    (loader.load file).1.IsResting ∧
      ∃ task, (loader.load file).1.tasks[(loader.load file).2]? = some task := by
  obtain ⟨moved, load⟩ := @Moved.load 0 loader resting.sound file
  obtain ⟨task, found, _⟩ := moved.sound.tasks file _ load
  exact ⟨resting.of_works rfl (.load ..) moved.sound fun id => (moved.advancing id).mp, task, found⟩

theorem IsResting.identifier (resting : loader.IsResting) (base : Option FileId) (path : String) :
    (loader.identifier base path).1.IsResting := by
  obtain ⟨_, moved, _⟩ := @identifier_eq loader 0 resting.sound base path
  exact resting.of_works rfl (.keep rfl rfl rfl rfl rfl rfl) moved.sound
    fun id => (moved.advancing id).mp

/-- A request for a file begins its load. -/
theorem IsResting.beginRequest (resting : loader.IsResting) {request : Request}
    (loads : ∀ contents file defaultName, request ≠ .source contents file defaultName) :
    (loader.beginRequest request).1.IsResting ∧
      (loader.beginRequest request).1.requests = loader.requests ∧
        ∃ task, (loader.beginRequest request).1.tasks[(loader.beginRequest request).2]? =
          some task := by
  cases request with
  | block file =>
    obtain ⟨restingLater, found⟩ := resting.load file
    exact ⟨restingLater, (queue_load loader file).2, found⟩
  | relative base path =>
    obtain ⟨restingLater, found⟩ := (resting.identifier (some base) path).load
      (loader.identifier (some base) path).2
    exact ⟨restingLater, (queue_load _ _).2, found⟩
  | path path =>
    obtain ⟨restingLater, found⟩ := (resting.identifier none path).load
      (loader.identifier none path).2
    exact ⟨restingLater, (queue_load _ _).2, found⟩
  | source contents file defaultName => exact absurd rfl (loads contents file defaultName)

theorem IsResting.poll_ask (resting : loader.IsResting) {request : Request}
    (loads : ∀ contents file defaultName, request ≠ .source contents file defaultName) :
    let asked := loader.ask request
    (∃ outcome, (asked.1.poll asked.2).2 = .ready outcome) ∨
      (asked.1.poll asked.2).2 = .pending ∧
        ∃ root, (asked.1.poll asked.2).1.IsDriven asked.2 root := by
  have restingAsked : (loader.ask request).1.IsResting :=
    ⟨resting.sound.of_sameLoads ⟨rfl, rfl, rfl, rfl, rfl, rfl, rfl, rfl⟩, resting.resting,
      resting.accounts⟩
  have fresh :
      (loader.ask request).1.requests[(loader.ask request).2]? = some (.fresh request) := by
    simp [ask]
  have inside : (loader.ask request).2 < (loader.ask request).1.requests.size :=
    (Array.getElem?_eq_some_iff.mp fresh).1
  obtain ⟨restingBegun, requests, found⟩ := restingAsked.beginRequest loads
  generalize loader.ask request = asked at *
  obtain ⟨now, id⟩ := asked
  dsimp only at *
  have step : now.poll id =
      (now.beginRequest request).1.pollWatch .caller id ⟨(now.beginRequest request).2, none⟩ := by
    rw [Loader.poll, pollFor, fresh]
  rw [step]
  rcases @IsResting.pollWatch _ id .caller ⟨(now.beginRequest request).2, none⟩ restingBegun found
    (requests ▸ inside) with ⟨ready, _⟩ | ⟨pending, resting, waits, found, _⟩
  · exact .inl ready
  · exact .inr ⟨pending, _, resting, waits, found⟩

theorem IsResting.isDriven_of_pending (resting : loader.IsResting) {request : Request}
    (loads : ∀ contents file defaultName, request ≠ .source contents file defaultName) {polls : Nat}
    (pending : ((loader.ask request).1.drive (loader.ask request).2 (polls + 1)).2 = .pending) :
    ∃ root, ((loader.ask request).1.drive (loader.ask request).2 (polls + 1)).1.IsDriven
      (loader.ask request).2 root := by
  rcases resting.poll_ask loads with ⟨outcome, ready⟩ | ⟨waits, root, driven⟩
  · rw [drive_of_ready ready, ready] at pending
    cases pending
  · rw [drive_of_pending waits] at pending ⊢
    exact ⟨root, driven.drive pending⟩

/-- A request whose load misses the permits of its ticket after some polls is never answered. -/
theorem IsResting.never_answered (resting : loader.IsResting) {request : Request}
    (loads : ∀ contents file defaultName, request ≠ .source contents file defaultName) {polls : Nat}
    {now : Loader}
    (driven : (loader.ask request).1.drive (loader.ask request).2 (polls + 1) = (now, .pending))
    {watch : Watch} (waits : now.requests[(loader.ask request).2]? = some (.waiting watch))
    {number : Nat} (ticket : (now.tasks[watch.task]?).map Task.ticket? = some (some number))
    (missing : now.queue.permits.takeUp? number = none) (any : Nat) :
    ((loader.ask request).1.drive (loader.ask request).2 any).2 = .pending := by
  have pending := congrArg Prod.snd driven
  obtain ⟨root, drivenNow⟩ := resting.isDriven_of_pending loads pending
  rw [driven] at drivenNow
  obtain ⟨same, waitsSame, isRoot⟩ := drivenNow.waits
  obtain rfl : watch = same := by
    rw [waits] at waitsSame
    cases waitsSame
    rfl
  obtain ⟨task, found, isTicket⟩ := Option.map_eq_some_iff.mp ticket
  have queued : now.IsQueued root := isRoot ▸ .permits found isTicket missing
  have forever := drivenNow.drive_of_queued queued any
  have later := drive_add pending any
  rw [driven] at later
  rw [← later, Nat.add_comm] at forever
  exact pending_of_add forever

/-- A request for a file is answered after finitely many polls, unless a load that it does not wait
for keeps permits, or a place in the line for them, and then there is never an answer. -/
theorem exists_answer_or_abandons {importer : Importer} (lawful : importer.IsLawful)
    (options : Options) (preprocessors : List (Dialect × Preprocessor)) {request : Request}
    (loads : ∀ contents file defaultName, request ≠ .source contents file defaultName) :
    let asked := (start options importer preprocessors).ask request
    ∃ polls, asked.1.IsDecided asked.2 polls := by
  rcases (isResting_start lawful options preprocessors).poll_ask loads with
    ⟨outcome, ready⟩ | ⟨pending, root, driven⟩
  · exact ⟨1, .inl ⟨outcome, (congrArg Prod.snd (drive_of_ready ready 0)).trans ready⟩⟩
  · obtain ⟨polls, decided⟩ := driven.exists_isDecided
    exact ⟨polls + 1, decided.of_poll pending⟩

/-! Two blocks -/

/-- A request for a block after so many polls, where a preprocessor takes two polls for each of its
files. -/
def answerFor (files : MemoryFiles) (file : FileId) (polls : Nat) :
    Loader × Poll (Except Error BlockId) :=
  let asked := (start .default files.importer
    [(.sass, Script.preprocessor ⟨[], none, [], none, 2⟩)]).ask (.block file)
  asked.1.drive asked.2 polls

/-- A block that refers to one whose file takes a while and is prepared. -/
def patient : MemoryFiles where
  contents := [("main.css", "@block-reference d from \"d.sass\"; .root \x7b color: red; \x7d"),
    ("d.sass", ".root \x7b color: blue; \x7d")]
  delays := [("d.sass", 2)]

theorem patient_answered :
    ∃ polls outcome, (answerFor patient "main.css" polls).2 = .ready outcome := by
  have decided := @exists_answer_or_abandons patient.importer patient.isLawful_importer .default
    [(.sass, Script.preprocessor ⟨[], none, [], none, 2⟩)] (.block "main.css") (by simp)
  obtain ⟨polls, ⟨outcome, ready⟩ | ⟨_, forever⟩⟩ := decided
  · exact ⟨polls, outcome, ready⟩
  · -- the fifth poll has an answer
    have pending := forever 5
    rw [Nat.add_comm] at pending
    have early : (answerFor patient "main.css" 5).2 = .pending := pending_of_add pending
    have answered : (answerFor patient "main.css" 5).2.isPending = false := by decide +kernel
    rw [early] at answered
    cases answered

/-- A block that refers to one whose file is prepared, and to two that do not exist. -/
def stranding : MemoryFiles where
  contents := [("main.css", "@block-reference d from \"d.sass\"; " ++
      "@block-reference e from \"e.css\"; @block-reference f from \"f.css\"; " ++
      ".root \x7b color: red; \x7d"),
    ("d.sass", ".root \x7b color: blue; \x7d")]
  delays := []

/-- The loads of both missing files wait for the job to end. The first of them then ends the block,
which goes on to wait for the permits that the second one has got. -/
theorem stranding_never_answered :
    stranding.importer.IsLawful ∧ ∀ polls, (answerFor stranding "main.css" polls).2 = .pending := by
  refine ⟨stranding.isLawful_importer, fun polls => ?_⟩
  have waits : (answerFor stranding "main.css" 3).2.isPending = true := by decide +kernel
  have state : (answerFor stranding "main.css" 3).1.requests[0]? = some (.waiting ⟨0, some 0⟩) ∧
      ((answerFor stranding "main.css" 3).1.tasks[0]?).map Task.ticket? = some (some 2) ∧
        (answerFor stranding "main.css" 3).1.queue.permits.takeUp? 2 = none := by decide +kernel
  obtain ⟨requests, ticket, missing⟩ := state
  exact (isResting_start stranding.isLawful_importer .default
    [(.sass, Script.preprocessor ⟨[], none, [], none, 2⟩)]).never_answered (by simp)
      (Prod.ext rfl (Poll.eq_pending waits)) requests ticket missing polls

end Loader

end StyleBlock
