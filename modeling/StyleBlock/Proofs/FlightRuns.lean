import StyleBlock.Proofs.Driving
import StyleBlock.Proofs.FlightPolls
import StyleBlock.Proofs.SingleFlight

/-!
Requests as steps of loads. Whatever is asked of a loader between two resets, its loads go on by
their steps, and all that is new are the loads of texts that are given. So what the steps of loads
keep holds of every state that a loader can reach, in the middle of a poll too.
-/

namespace StyleBlock.Loader

variable {Named : FileId → FileId → Prop} {loader other start last : Loader} {held : List Flight}

/-! Steps of requests -/

theorem proceeds_setRequest (loader : Loader) (id : RequestId) (state : RequestState) :
    Proceeds Named loader held (loader.setRequest id state) held :=
  .of_rest ⟨rfl, rfl, rfl, rfl, rfl, rfl, rfl⟩ rfl rfl rfl

theorem proceeds_dropTask (loader : Loader) (id : TaskId) :
    Proceeds Named loader held (loader.dropTask id) held := by
  cases found : loader.tasks[id]? with
  | none =>
    rw [dropTask, found]
    exact .refl loader
  | some task =>
    cases isOpen : task.isOpen with
    | false =>
      rw [dropTask, found]
      dsimp only
      rw [isOpen]
      exact .refl loader
    | true =>
      have up : Proceeds Named loader held (loader.setStage id .advancing) (task.flights ++ held) :=
        .takeUp found isOpen
      have taken : (loader.setStage id .advancing).tasks[id]? =
          some { task with stage := .advancing } := by
        rw [getElem?_setStage, if_pos rfl, found]
        rfl
      obtain ⟨phase, flights, phaseOpen⟩ := task.exists_phase isOpen
      rw [flights] at up
      have down := @Proceeds.putDown Named _ id _ .dropped held taken rfl trivial
      rw [setStage_setStage] at down
      have same :
          loader.dropTask id = (task.watches.foldl leave (loader.setStage id .dropped)).setQueue
          (task.releaseFrom (task.watches.foldl leave (loader.setStage id .dropped)).queue) := by
        rw [dropTask, found]
        dsimp only
        rw [if_pos isOpen]
      rw [same]
      have left := (up.trans (.drop phaseOpen)).trans down
      exact (left.trans (.of_quiet (quiet_leaveAll task.watches _))).trans (proceeds_setQueue _ _)

theorem proceeds_sweep (loader : Loader) : Proceeds Named loader held loader.sweep held := by
  unfold sweep
  dsimp only
  generalize (List.range loader.tasks.size).filter _ = lost
  induction lost generalizing loader with
  | nil => exact .refl _
  | cons id rest ih => exact (proceeds_dropTask loader id).trans (ih _)

/-- A request for a file begins with steps of loads. -/
theorem proceeds_beginRequest (loader : Loader) {request : Request}
    (isImport : request.isImport = true) :
    Proceeds Named loader held (loader.beginRequest request).1 held := by
  cases request with
  | block id => exact .load loader id held
  | relative base path =>
    exact (proceeds_identifier loader (some base) path).trans (.load _ _ held)
  | path path => exact (proceeds_identifier loader none path).trans (.load _ _ held)
  | source contents id defaultName => cases isImport

/-- The poll of a request goes on with the load of its task, and the answer is what that load ends
with. -/
theorem proceeds_pollWatch (named : loader.IsNamed Named) (listener : Listener) (id : RequestId)
    (watch : Watch) :
    Proceeds Named loader held (loader.pollWatch listener id watch).1 held ∧
      ∀ outcome, (loader.pollWatch listener id watch).2 = .ready outcome →
        ∃ task, (loader.pollWatch listener id watch).1.tasks[watch.task]? = some task ∧
          task.stage = .finished outcome := by
  have quiet := quiet_attend loader watch listener
  have isTask := task_attend loader watch listener
  have polled := (@Proceeds.of_quiet Named loader _ held quiet).trans
    (proceeds_pollTask (named.of_quiet quiet) (loader.attend watch listener).2.task held)
  have ends :=
    @finished_of_ready (loader.attend watch listener).1 (loader.attend watch listener).2.task
  have put : ∀ (after : Loader) (state : RequestState),
      Proceeds Named after held (after.setRequest id state).sweep held :=
    fun after state => (proceeds_setRequest after id state).trans (proceeds_sweep _)
  unfold pollWatch
  dsimp only
  split
  · rename_i same
    rw [same] at polled
    exact ⟨polled.trans (put ..), fun _ ready => by cases ready⟩
  · rename_i after result same
    rw [same] at polled ends
    refine ⟨polled.trans (put ..), fun outcome is => ?_⟩
    cases is
    obtain ⟨task, found, stage⟩ := ends rfl
    rw [isTask] at found
    obtain ⟨again, foundAgain, _, _, rests⟩ := (@put after .closed).exists_task found
    exact ⟨again, foundAgain, (rests (by rw [Task.isOver, stage])).trans stage⟩

/-- The poll of a request goes on with the loads, once the request has begun. -/
theorem proceeds_pollFor (named : loader.IsNamed Named) (listener : Listener) (id : RequestId) :
    Proceeds Named loader held (loader.pollFor listener id).1 held ∨
      ∃ contents file defaultName,
        Proceeds Named (loader.addTask (.ofFile file (.given contents defaultName))).1 held
          (loader.pollFor listener id).1 held := by
  unfold pollFor
  cases state : loader.requests[id]? with
  | none => exact .inl (.refl loader)
  | some request =>
    cases request with
    | closed => exact .inl (.refl loader)
    | waiting watch => exact .inl (proceeds_pollWatch named listener id watch).1
    | fresh request =>
      dsimp only
      cases isImport : request.isImport with
      | true =>
        have begun := @proceeds_beginRequest Named held loader request isImport
        exact .inl (begun.trans (proceeds_pollWatch (begun.isNamed named) listener id _).1)
      | false =>
        cases request with
        | block | relative | path => cases isImport
        | source contents file defaultName =>
          exact .inr ⟨contents, file, defaultName,
            (proceeds_pollWatch (named.push _ rfl) listener id _).1⟩

theorem proceeds_cancel (loader : Loader) (id : RequestId) :
    Proceeds Named loader held (loader.cancel id) held := by
  have put : ∀ after : Loader, Proceeds Named after held (after.setRequest id .closed).sweep held :=
    fun after => (proceeds_setRequest after id .closed).trans (proceeds_sweep _)
  unfold cancel
  split
  · exact (Proceeds.of_quiet (quiet_leave loader _)).trans (put _)
  · exact put loader

/-! Between two resets -/

/-- What can happen to a loader without a reset: requests are made, polled one by one or together,
and given up, in any order, while files, preprocessors and all that others do with the cache and the
queue may change. -/
inductive Continues (Named : FileId → FileId → Prop) : Loader → Loader → Prop
  | refl (loader : Loader) : Continues Named loader loader
  | surroundings (loader : Loader) {importer : Importer} {cache : ImportCache}
      (gives : GivesNamed Named importer cache)
      (preprocessors : List (Dialect × Preprocessor)) (queue : Queue) (together : Nat → Bool) :
      Continues Named loader { loader with importer, cache, preprocessors, queue, together }
  | ask (loader : Loader) (request : Request) : Continues Named loader (loader.ask request).1
  | poll (loader : Loader) (listener : Listener) (id : RequestId) :
      Continues Named loader (loader.pollFor listener id).1
  | openJoin (loader : Loader) (count : Nat) : Continues Named loader (loader.openJoin count).1
  | pollJoin (loader : Loader) (pace : Pace) (listener : Listener)
      (answers : List (RequestId × Poll (Except Error BlockId))) :
      Continues Named loader (requestParts.pollJoin pace listener answers loader).1
  | cancel (loader : Loader) (id : RequestId) : Continues Named loader (loader.cancel id)
  | trans {first second third : Loader} (one : Continues Named first second)
      (other : Continues Named second third) : Continues Named first third

/-- The states that a loader can reach as long as files have allowed identifiers. -/
inductive Arises (Named : FileId → FileId → Prop) : Loader → Prop
  | start (options : Options) {importer : Importer} (gives : GivesNamed Named importer .empty) :
      Arises Named (ofImporter options importer)
  | continues {loader other : Loader} (arisen : Arises Named loader)
      (continues : Continues Named loader other) : Arises Named other
  | reset {loader : Loader} (arisen : Arises Named loader) : Arises Named loader.reset

/-- The states that a loader goes through, at rest and in the middle of a poll, with the loads that
are in hand then. -/
def Amid (Named : FileId → FileId → Prop) (loader : Loader) (held : List Flight) : Prop :=
  ∃ rest, Arises Named rest ∧ Proceeds Named rest [] loader held

/-- Any identifier may be allowed. -/
theorem isNamed_any (loader : Loader) : loader.IsNamed fun _ _ => True where
  own _ := trivial
  read _ _ _ := trivial
  imports _ _ := trivial
  works _ task _ := by
    unfold Stage.IsNamed Work.IsNamed
    split
    · split <;> exact trivial
    · exact trivial

theorem Reachable.arises (reached : loader.Reachable) : Arises (fun _ _ => True) loader := by
  induction reached with
  | start options importer => exact .start options ⟨by simp, by simp, by simp⟩
  | surroundings _ importer cache preprocessors queue together arisen =>
    exact arisen.continues (.surroundings _ ⟨by simp, by simp, by simp⟩ ..)
  | ask _ request arisen => exact arisen.continues (.ask ..)
  | poll _ listener id arisen => exact arisen.continues (.poll ..)
  | openJoin _ count arisen => exact arisen.continues (.openJoin ..)
  | pollJoin _ pace listener answers arisen => exact arisen.continues (.pollJoin ..)
  | cancel _ id arisen => exact arisen.continues (.cancel ..)
  | reset _ arisen => exact arisen.reset

theorem Arises.amid (arisen : Arises Named loader) : Amid Named loader [] :=
  ⟨loader, arisen, .refl loader⟩

/-- Whether a property is kept by the steps of loads and by new loads of given texts. -/
structure IsKeptOn (Named : FileId → FileId → Prop) (Holds : Loader → List Flight → Prop) : Prop
    extends IsKept Named Holds where
  give : ∀ {loader : Loader} {flights : List Flight} (file : FileId)
    (contents defaultName : String),
    Holds loader flights → Holds (loader.addTask (.ofFile file (.given contents defaultName))).1
      (⟨file, .given contents defaultName, .fresh⟩ :: flights)

theorem IsKeptOn.beside {Holds : Loader → List Flight → Prop} (kept : IsKeptOn Named Holds)
    {past : List Flight} (isPast : ∀ flight ∈ past, flight.phase.IsOver) :
    IsKeptOn Named (HoldsBeside past Holds) where
  toIsKept := kept.toIsKept.beside isPast
  give file contents defaultName := fun ⟨_, split, holds⟩ =>
    ⟨_, (split.cons _).trans List.perm_middle.symm, kept.give file contents defaultName holds⟩

/-- All that happens without a reset comes of steps of loads and of new loads of given texts. -/
theorem Continues.relates {Related : Loader → Loader → Prop}
    (continues : Continues Named start last)
    (trans : ∀ {first second third : Loader}, Related first second → Related second third →
      Related first third)
    (proceeds : ∀ {loader other : Loader}, Proceeds Named loader [] other [] → Related loader other)
    (give : ∀ (loader : Loader) (file : FileId) (contents defaultName : String),
      Related loader (loader.addTask (.ofFile file (.given contents defaultName))).1)
    (named : start.IsNamed Named) : last.IsNamed Named ∧ Related start last := by
  let Goes (loader other : Loader) : Prop :=
    loader.IsNamed Named → other.IsNamed Named ∧ Related loader other
  have goes : ∀ {loader other : Loader}, Proceeds Named loader [] other [] → Goes loader other :=
    fun steps named => ⟨steps.isNamed named, proceeds steps⟩
  have polled : ∀ (loader : Loader) (listener : Listener) (id : RequestId),
      Goes loader (loader.pollFor listener id).1 := by
    intro loader listener id named
    rcases @proceeds_pollFor Named loader [] named listener id with
      steps | ⟨contents, file, defaultName, steps⟩
    · exact goes steps named
    · obtain ⟨after, related⟩ := goes steps (named.push _ rfl)
      exact ⟨after, trans (give loader file contents defaultName) related⟩
  have stepwise : IsStepwise Goes :=
    ⟨fun same => goes (.of_quiet same), fun one other named =>
      let ⟨between, before⟩ := one named
      let ⟨after, later⟩ := other between
      ⟨after, trans before later⟩⟩
  suffices Goes start last from this named
  clear named
  induction continues with
  | refl loader => exact goes (.refl loader)
  | surroundings loader gives preprocessors queue together =>
    exact goes (.keep ⟨rfl, rfl, rfl, rfl, rfl, rfl, rfl⟩ rfl fun named =>
      ⟨gives, named.works⟩)
  | ask loader request => exact goes (.of_rest ⟨rfl, rfl, rfl, rfl, rfl, rfl, rfl⟩ rfl rfl rfl)
  | poll loader listener id => exact polled loader listener id
  | openJoin loader count => exact stepwise.quiet (quiet_openJoin loader count)
  | pollJoin loader pace listener answers =>
    have parts : ∀ (loader : Loader) (listener : Listener)
        (part : RequestId × Poll (Except Error BlockId)),
        Goes loader (requestParts.poll loader listener part).1 :=
      fun loader listener part => polled loader listener part.1
    exact stepwise.pollJoin parts loader pace listener answers
  | cancel loader id => exact goes (proceeds_cancel loader id)
  | trans _ _ one other => exact stepwise.trans one other

/-- What is kept by all that loads do holds of all that comes without a reset. -/
theorem Continues.keeps {Holds : Loader → List Flight → Prop}
    (continues : Continues Named start last)
    (kept : IsKeptOn Named Holds) (named : start.IsNamed Named)
    (holds : Holds start start.flights) :
    last.IsNamed Named ∧ Holds last last.flights := by
  let Related (loader other : Loader) : Prop :=
    Holds loader loader.flights → Holds other other.flights
  obtain ⟨namedLast, related⟩ : last.IsNamed Named ∧ Related start last := by
    refine continues.relates (fun one other holds => other (one holds)) ?_ ?_ named
    · intro loader other steps holds
      simpa using steps.keeps kept.toIsKept (by simpa using holds)
    · intro loader file contents defaultName holds
      rw [flights_addTask]
      exact kept.keep (.refl _) (List.perm_append_singleton _ _).symm
        (kept.give file contents defaultName holds)
  exact ⟨namedLast, related holds⟩

/-- Whether nothing that loads share is left. -/
structure IsBlank (loader : Loader) : Prop where
  graph : loader.graph = .empty
  slots : loader.slots = []
  loads : loader.loads = []
  waits : loader.waits = .empty

/-- What holds of every loader that nothing is known of, and is kept by all that loads do, holds
wherever a loader comes. -/
theorem Arises.keeps {Holds : Loader → List Flight → Prop} (arisen : Arises Named loader)
    (kept : IsKeptOn Named Holds)
    (start : ∀ loader : Loader, loader.IsBlank → loader.tasks = #[] → Holds loader [])
    (clear : ∀ {loader other : Loader} {flights : List Flight}, Holds loader flights →
      other.IsBlank → other.tasks = loader.tasks → Holds other flights) :
    loader.IsNamed Named ∧ Holds loader loader.flights := by
  induction arisen with
  | start options gives =>
    exact ⟨⟨gives, by simp [ofImporter]⟩, start _ ⟨rfl, rfl, rfl, rfl⟩ rfl⟩
  | continues _ continues ih => exact continues.keeps kept ih.1 ih.2
  | @reset loader _ ih =>
    obtain ⟨named, holds⟩ := ih
    let empty : Loader := { loader with
      cache := loader.cache.purgeAll, graph := .empty, slots := [], loads := [], waits := .empty,
      names := .empty }
    have namedEmpty : empty.IsNamed Named :=
      ⟨⟨named.own, named.read, by simp [empty, ImportCache.purgeAll]⟩, named.works⟩
    have holdsEmpty : Holds empty empty.flights := clear holds ⟨rfl, rfl, rfl, rfl⟩ rfl
    have swept : Proceeds Named empty [] loader.reset [] := proceeds_sweep empty
    exact ⟨swept.isNamed namedEmpty,
      by simpa using swept.keeps kept.toIsKept (by simpa using holdsEmpty)⟩

theorem Amid.keeps {Holds : Loader → List Flight → Prop} (amid : Amid Named loader held)
    (kept : IsKeptOn Named Holds)
    (start : ∀ loader : Loader, loader.IsBlank → loader.tasks = #[] → Holds loader [])
    (clear : ∀ {loader other : Loader} {flights : List Flight}, Holds loader flights →
      other.IsBlank → other.tasks = loader.tasks → Holds other flights) :
    Holds loader (loader.flights ++ held) := by
  obtain ⟨rest, arisen, proceeds⟩ := amid
  have holds := (arisen.keeps kept start clear).2
  exact proceeds.keeps kept.toIsKept (by simpa using holds)

/-! After a certain state -/

/-- The states that a loader goes through after another one, without a reset between them, at rest
and in the middle of a poll, with the loads that are in hand then. -/
def Since (Named : FileId → FileId → Prop) (start loader : Loader) (held : List Flight) : Prop :=
  ∃ rest, Continues Named start rest ∧ Proceeds Named rest [] loader held

theorem Continues.since (continues : Continues Named start last) : Since Named start last [] :=
  ⟨last, continues, .refl last⟩

theorem Since.keeps {Holds : Loader → List Flight → Prop} (since : Since Named start loader held)
    (kept : IsKeptOn Named Holds) (named : start.IsNamed Named)
    (holds : Holds start start.flights) :
    Holds loader (loader.flights ++ held) := by
  obtain ⟨rest, continues, proceeds⟩ := since
  have holdsRest := (continues.keeps kept named holds).2
  exact proceeds.keeps kept.toIsKept (by simpa using holdsRest)

/-- Makes a request and polls it until it is answered, at most so many times. -/
def serve (loader : Loader) (request : Request) (polls : Nat) :
    Loader × Poll (Except Error BlockId) :=
  (loader.ask request).1.drive (loader.ask request).2 polls

/-- Makes requests one after another, each of them polled at most so many times. -/
def serveAll (loader : Loader) (requests : List Request) (polls : Nat) : Loader :=
  requests.foldl (fun loader request => (loader.serve request polls).1) loader

theorem continues_drive (loader : Loader) (id : RequestId) (polls : Nat) :
    Continues Named loader (loader.drive id polls).1 := by
  induction polls generalizing loader with
  | zero => exact .refl loader
  | succ polls ih =>
    have polled : Continues Named loader (loader.poll id).1 := .poll loader .caller id
    unfold drive
    split
    · rename_i same
      rw [same] at polled
      exact polled.trans (ih _)
    · rename_i same
      rwa [same] at polled

theorem continues_serve (loader : Loader) (request : Request) (polls : Nat) :
    Continues Named loader (loader.serve request polls).1 :=
  (Continues.ask loader request).trans (continues_drive ..)

theorem continues_serveAll (loader : Loader) (requests : List Request) (polls : Nat) :
    Continues Named loader (loader.serveAll requests polls) := by
  induction requests generalizing loader with
  | nil => exact .refl loader
  | cons request rest ih => exact (continues_serve loader request polls).trans (ih _)

/-! One request -/

theorem isWaitingFor_of_pending {listener : Listener} {id : RequestId} {watch : Watch}
    (inside : id < loader.requests.size)
    (pending : (loader.pollWatch listener id watch).2 = .pending) :
    (loader.pollWatch listener id watch).1.IsWaitingFor id watch.task := by
  have requests : ((loader.attend watch listener).1.pollTask
      (loader.attend watch listener).2.task).1.requests = loader.requests :=
    (requests_pollTask ..).trans (congrArg Loader.requests (quiet_attend loader watch listener) :)
  have isTask := task_attend loader watch listener
  unfold pollWatch at pending ⊢
  dsimp only at pending ⊢
  split at pending
  · rename_i same
    rw [same] at requests
    refine ⟨(loader.attend watch listener).2, ?_, isTask⟩
    rw [requests_sweep, setRequest, requests, Array.getElem?_setIfInBounds, if_pos rfl,
      if_pos inside]
  · cases pending

/-- The polls of a request that is answered in the end, from its first poll on. -/
theorem proceeds_drive {id : RequestId} {watch : Watch} {polls : Nat}
    {outcome : Except Error BlockId}
    (named : other.IsNamed Named) (inside : id < other.requests.size)
    (step : loader.poll id = other.pollWatch .caller id watch)
    (answer : loader.drive id polls = (last, .ready outcome)) :
    Proceeds Named other [] last [] ∧
      ∃ task, last.tasks[watch.task]? = some task ∧ task.stage = .finished outcome := by
  induction polls generalizing loader other watch with
  | zero => cases answer
  | succ polls ih =>
    obtain ⟨proceeds, ends⟩ := @proceeds_pollWatch Named other [] named .caller id watch
    cases poll : (other.pollWatch .caller id watch).2 with
    | ready result =>
      rw [drive_of_ready (step ▸ poll), step] at answer
      rw [answer] at poll proceeds ends
      obtain rfl : outcome = result := by injection poll
      exact ⟨proceeds, ends outcome rfl⟩
    | pending =>
      obtain ⟨next, waits, isTask⟩ := isWaitingFor_of_pending inside poll
      rw [drive_of_pending (step ▸ poll), step] at answer
      rw [← isTask]
      have again : (other.pollWatch .caller id watch).1.poll id =
          (other.pollWatch .caller id watch).1.pollWatch .caller id next := by
        rw [Loader.poll, pollFor, waits]
      obtain ⟨later, finished⟩ := ih (proceeds.isNamed named)
        (Array.getElem?_eq_some_iff.mp waits).1 again answer
      exact ⟨proceeds.trans later, finished⟩

theorem requests_beginRequest (loader : Loader) (request : Request) :
    (loader.beginRequest request).1.requests = loader.requests := by
  cases request with
  | block | relative | path => exact (queue_load _ _).2
  | source => rfl

theorem poll_ask (loader : Loader) (request : Request) :
    let asked := loader.ask request
    asked.1.poll asked.2 = (asked.1.beginRequest request).1.pollWatch .caller asked.2
        ⟨(asked.1.beginRequest request).2, none⟩ ∧
      asked.2 < (asked.1.beginRequest request).1.requests.size := by
  have fresh :
      (loader.ask request).1.requests[(loader.ask request).2]? = some (.fresh request) := by
    simp [ask]
  dsimp only
  refine ⟨?_, ?_⟩
  · rw [Loader.poll, pollFor, fresh]
  · rw [requests_beginRequest]
    exact (Array.getElem?_eq_some_iff.mp fresh).1

theorem proceeds_ask (loader : Loader) (request : Request) :
    Proceeds Named loader held (loader.ask request).1 held :=
  .of_rest ⟨rfl, rfl, rfl, rfl, rfl, rfl, rfl⟩ rfl rfl rfl

/-- A request for a file that is answered makes loads go on. -/
theorem proceeds_serve {request : Request} {polls : Nat} {outcome : Except Error BlockId}
    (named : loader.IsNamed Named) (isImport : request.isImport = true)
    (answer : loader.serve request polls = (last, .ready outcome)) :
    Proceeds Named loader [] last [] := by
  have begun : Proceeds Named loader [] ((loader.ask request).1.beginRequest request).1 [] :=
    (proceeds_ask loader request).trans (proceeds_beginRequest _ isImport)
  obtain ⟨step, inside⟩ := poll_ask loader request
  exact begun.trans (proceeds_drive (begun.isNamed named) inside step answer).1

/-- A given text that is answered is a new load, which ends with the answer. -/
theorem proceeds_serve_source {contents defaultName : String} {file : FileId} {polls : Nat}
    {outcome : Except Error BlockId} (named : loader.IsNamed Named)
    (answer : loader.serve (.source contents file defaultName) polls = (last, .ready outcome)) :
    Proceeds Named (loader.addTask (.ofFile file (.given contents defaultName))).1 [] last [] ∧
      ∃ task, last.tasks[loader.tasks.size]? = some task ∧ task.stage = .finished outcome := by
  have asked : Proceeds Named (loader.addTask (.ofFile file (.given contents defaultName))).1 []
      ((loader.addTask (.ofFile file (.given contents defaultName))).1.ask
        (.source contents file defaultName)).1 [] := proceeds_ask _ _
  obtain ⟨step, inside⟩ := poll_ask loader (.source contents file defaultName)
  obtain ⟨driven, ends⟩ :=
    proceeds_drive (asked.isNamed (named.push _ rfl)) inside step answer
  exact ⟨asked.trans driven, ends⟩

end StyleBlock.Loader
