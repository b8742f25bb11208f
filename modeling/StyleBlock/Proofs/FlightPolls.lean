import StyleBlock.Proofs.BlockNames
import StyleBlock.Proofs.Flights
import StyleBlock.Proofs.LoadedBlock

/-!
The polls of tasks as steps of loads. While a task is polled its load is in hand, and the loads it
waits for are those of its references that wait. A join moves what its parts wait for in and out of
the load piece by piece, in whatever order it polls them.
-/

namespace StyleBlock

/-! What a block gets for its base -/

namespace Draft

/-- The base of a completed block is one that the draft has, or a complete block. -/
theorem isComplete_of_complete {draft : Draft} {graph : Graph} {defaults : FileId → String}
    {links : List (Link × BlockId)} {block : Block}
    (completed : draft.complete graph defaults links = .ok block) (base : BlockId)
    (extended : block.base? = some base) :
    draft.block.base? = some base ∨ graph.isComplete base = true := by
  obtain ⟨linked, folded, completed⟩ := bind_eq_ok_iff.mp completed
  have same : linked.block.extension = draft.block.extension :=
    foldlM_keeps (fun later => later.block.extension = draft.block.extension)
      (fun _ kept added => by
        unfold addLink at added
        dsimp only at added
        split at added
        · cases added
        · cases added
          exact kept) rfl folded
  let Fine (block : Block) : Prop := ∀ base, block.base? = some base →
    draft.block.base? = some base ∨ graph.isComplete base = true
  obtain ⟨based, folded, completed⟩ := bind_eq_ok_iff.mp completed
  have fine : Fine based := foldlM_keeps Fine (fun _ _ added => by
    unfold addExtension at added
    dsimp only at added
    split at added
    · cases added
    · obtain ⟨target, found, added⟩ := bind_eq_ok_iff.mp added
      cases added
      rintro _ ⟨⟩
      unfold completeReference at found
      split at found
      · cases found
      · split at found
        · rename_i isComplete
          cases found
          exact .inr isComplete
        · cases found) (fun _ found => .inl (by rwa [Block.base?, same] at found)) folded
  obtain ⟨implementing, folded, completed⟩ := bind_eq_ok_iff.mp completed
  have implemented := foldlM_keeps (Block.SameSource _)
    (fun _ kept added => kept.trans (sameSource_addInterfaces added)) (.refl _) folded
  obtain ⟨last, folded, completed⟩ := bind_eq_ok_iff.mp completed
  cases completed
  have ruled := foldlM_keeps (fun draft => Block.SameSource _ draft.block)
    (fun _ kept added => kept.trans (sameSource_addRule added)) implemented folded
  exact fine base (by rwa [Block.base?, ruled.extension] at extended)

end Draft

/-- Whether all that a way to poll tasks does is made of steps of loads. -/
def Poller.Proceeds (poll : Poller) (Named : FileId → FileId → Prop) : Prop :=
  ∀ (loader : Loader) (id : TaskId) (held : List Flight), loader.IsNamed Named →
    Loader.Proceeds Named loader held (poll loader id).1 held

namespace Loader

variable {Named : FileId → FileId → Prop} {held : List Flight} {file : FileId} {origin : Origin}

/-! References -/

section Links

variable {poll : Poller} (proceeds : poll.Proceeds Named) {slot : BlockId} {base : Option BlockId}
  {requester : FileId} (called : Named file requester)
include proceeds called

theorem proceeds_pollAwaited {loader : Loader} (named : loader.IsNamed Named) (link : Link)
    (listener : Listener) (watch : Watch) (rest : Multiset FileId) :
    Proceeds Named loader (⟨file, origin, .filling slot base ({link.target} + rest)⟩ :: held)
      (pollAwaited poll requester link.target loader listener watch).1
      (⟨file, origin, .filling slot base
        ((pollAwaited poll requester link.target loader listener watch).2.awaited link + rest)⟩ ::
          held) := by
  unfold pollAwaited
  dsimp only
  have quiet := quiet_attend loader watch listener
  have polled := Proceeds.trans
    (@Proceeds.of_quiet Named loader _
      (⟨file, origin, .filling slot base ({link.target} + rest)⟩ :: held) quiet)
    (proceeds (loader.attend watch listener).1 (loader.attend watch listener).2.task _
      (named.of_quiet quiet))
  split
  · rename_i same
    rw [same] at polled
    exact polled
  · rename_i after outcome same
    rw [same] at polled
    have arrived : ∀ state : LinkState, state.awaited link = 0 →
        Proceeds Named loader (⟨file, origin, .filling slot base ({link.target} + rest)⟩ :: held)
          { after with waits := after.waits.remove requester link.target }
          (⟨file, origin, .filling slot base (state.awaited link + rest)⟩ :: held) := by
      intro state none
      rw [none, zero_add]
      exact polled.trans (.arrive called)
    cases outcome with
    | ok id => exact arrived (.linked id) rfl
    | error error => exact arrived (.failed error) rfl

theorem proceeds_pollLink {loader : Loader} (named : loader.IsNamed Named) (listener : Listener)
    (link : Link) (state : LinkState) (rest : Multiset FileId) :
    Proceeds Named loader (⟨file, origin, .filling slot base (state.awaited link + rest)⟩ :: held)
      (pollLink poll requester loader listener link state).1
      (⟨file, origin, .filling slot base
        ((pollLink poll requester loader listener link state).2.awaited link + rest)⟩ :: held) := by
  unfold pollLink
  split
  · exact .refl _
  · exact .refl _
  · exact proceeds_pollAwaited proceeds called named ..
  · rw [show LinkState.awaited link .fresh + rest = rest from zero_add rest]
    split
    · rw [show ∀ id, LinkState.awaited link (.linked id) + rest = rest from
        fun _ => zero_add rest]
      exact .reserve ..
    · rename_i free
      dsimp only
      have waits : Proceeds Named loader (⟨file, origin, .filling slot base rest⟩ :: held)
          { loader with waits := loader.waits.add requester link.target }
          (⟨file, origin, .filling slot base ({link.target} + rest)⟩ :: held) :=
        .wait called (by simpa using free)
      have loaded := waits.trans (.load _ link.target _)
      exact loaded.trans (proceeds_pollAwaited proceeds called (loaded.isNamed named) ..)

theorem proceeds_pollLinks {loader : Loader} (named : loader.IsNamed Named) (pace : Pace)
    (listener : Listener) (links : List (Link × LinkState)) :
    Proceeds Named loader (⟨file, origin, .filling slot base (Assembly.awaited links)⟩ :: held)
      ((linkParts poll requester).pollJoin pace listener links loader).1
      (⟨file, origin, .filling slot base (Assembly.awaited
        ((linkParts poll requester).pollJoin pace listener links loader).2)⟩ :: held) := by
  let Related : Loader → Multiset FileId → Loader → Multiset FileId → Prop :=
    fun loader targets other more => loader.IsNamed Named →
      Proceeds Named loader (⟨file, origin, .filling slot base targets⟩ :: held) other
        (⟨file, origin, .filling slot base more⟩ :: held)
  have weighing : IsWeighing Related :=
    ⟨fun same _ => .of_quiet same,
      fun one other named => (one named).trans (other ((one named).isNamed named))⟩
  have polls : ∀ (loader : Loader) (listener : Listener) (part : Link × LinkState)
      (rest : Multiset FileId), Related loader (part.2.awaited part.1 + rest)
        ((linkParts poll requester).poll loader listener part).1
        (((linkParts poll requester).poll loader listener part).2.2.awaited
          ((linkParts poll requester).poll loader listener part).2.1 + rest) :=
    fun _ listener part rest named =>
      proceeds_pollLink proceeds called named listener part.1 part.2 rest
  have joined := weighing.pollJoin polls loader 0 pace listener links named
  rwa [add_zero, add_zero] at joined

end Links

/-- References that are all linked wait for nothing. -/
theorem awaited_of_linked {links : List (Link × LinkState)} {linked : List (Link × BlockId)}
    (all : Assembly.linked? links = some linked) : Assembly.awaited links = 0 := by
  unfold Assembly.linked? at all
  induction links generalizing linked with
  | nil => rfl
  | cons part rest ih =>
    obtain ⟨link, state⟩ := part
    rw [List.mapM_cons] at all
    cases state with
    | linked id =>
      obtain ⟨first, _, all⟩ := Option.bind_eq_some_iff.mp all
      obtain ⟨others, more, _⟩ := Option.bind_eq_some_iff.mp all
      rw [Assembly.awaited, List.map_cons, List.sum_cons, ← Assembly.awaited, ih more]
      rfl
    | fresh | waiting | failed => cases all

/-- References that have not been polled wait for nothing. -/
theorem awaited_readLinks {loader : Loader} {file : FileId} {statements : List ReferenceStatement}
    {after : Loader} {links : List (Link × LinkState)}
    (read : readLinks file statements loader = (after, .ok links)) :
      Assembly.awaited links = 0 := by
  induction statements generalizing loader links after with
  | nil =>
    cases read
    rfl
  | cons statement rest ih =>
    unfold readLinks at read
    split at read
    · cases read
    · dsimp only at read
      split at read
      · cases read
      · rename_i later
        cases read
        rw [Assembly.awaited, List.map_cons, List.sum_cons, ← Assembly.awaited, ih later]
        rfl

theorem proceeds_identifier (loader : Loader) (base : Option FileId) (path : String) :
    Proceeds Named loader held (loader.identifier base path).1 held := by
  refine .keep ⟨rfl, rfl, rfl, rfl, rfl, rfl, rfl⟩ rfl fun named => named.of_files rfl ?_ rfl
  unfold identifier ImportCache.identifier
  dsimp only
  split <;> exact named.imports

/-- Reading a text changes nothing that loads share. -/
theorem proceeds_assemble (loader : Loader) (file : FileId) (contents defaultName : String)
    (dependencies : List String) :
    Proceeds Named loader held (loader.assemble file contents defaultName dependencies).1 held :=
  have stepwise : IsStepwise fun loader other => Proceeds Named loader held other held :=
    ⟨.of_quiet, .trans⟩
  stepwise.assemble proceeds_identifier ..

/-- The draft that was read has no base so far, and its references wait for nothing. -/
theorem base_and_awaited_of_assemble {loader after : Loader} {contents defaultName : String}
    {dependencies : List String} {assembly : Assembly}
    (read : loader.assemble file contents defaultName dependencies = (after, .ok assembly)) :
    assembly.draft.block.base? = none ∧ Assembly.awaited assembly.links = 0 := by
  unfold assemble at read
  dsimp only at read
  split at read
  · cases read
  split at read
  · cases read
  · rename_i draft drafted
    split at read
    · cases read
    · rename_i links same
      cases read
      refine ⟨?_, awaited_readLinks same⟩
      rw [Block.base?, (Draft.keepsPlain_ofSheet drafted).1]
      rfl

/-! From a file to a block -/

/-- What a poll makes of the load that is in hand. -/
structure ProceedsTo (Named : FileId → FileId → Prop) (loader : Loader) (flight : Flight)
    (held : List Flight) (slot : BlockId) (result : Loader × WorkStep) : Prop where
  proceeds : Proceeds Named loader (flight :: held) result.1
    (⟨flight.file, flight.origin, result.2.phase slot⟩ :: held)
  named : ∀ work, result.2 = .more work → work.IsNamed Named flight.file

theorem ProceedsTo.after {loader other : Loader} {flight : Flight} {phase : Phase} {slot : BlockId}
    {result : Loader × WorkStep}
    (proceeds : Proceeds Named loader (flight :: held) other
      (⟨flight.file, flight.origin, phase⟩ :: held))
    (later : ProceedsTo Named other ⟨flight.file, flight.origin, phase⟩ held slot result) :
    ProceedsTo Named loader flight held slot result :=
  ⟨proceeds.trans later.proceeds, later.named⟩

theorem proceeds_setQueue (loader : Loader) (queue : Queue) :
    Proceeds Named loader held (loader.setQueue queue) held := by
  have changed : Proceeds Named loader held { loader with queue } held :=
    .of_rest ⟨rfl, rfl, rfl, rfl, rfl, rfl, rfl⟩ rfl rfl rfl
  exact changed.trans (.of_quiet (quiet_setQueue loader queue))

theorem proceedsTo_pollDrain (loader : Loader) (slot : BlockId) (error : Error) (drain : Drain) :
    ProceedsTo Named loader ⟨file, origin, .ended (.error error)⟩ held slot
      (loader.pollDrain error drain) := by
  have moved : ∀ queue, Proceeds Named loader (⟨file, origin, .ended (.error error)⟩ :: held)
      (loader.setQueue queue) (⟨file, origin, .ended (.error error)⟩ :: held) :=
    fun queue => proceeds_setQueue loader queue
  unfold pollDrain
  split
  · rename_i queue _
    refine ⟨moved queue, fun work is => ?_⟩
    cases is
  · rename_i queue _ _
    refine ⟨moved queue, fun work is => ?_⟩
    cases is
    exact trivial

theorem proceedsTo_fail (loader : Loader) (slot place : BlockId) (base : Option BlockId)
    (targets : Multiset FileId) (error : Error) :
    ProceedsTo Named loader ⟨file, origin, .filling place base targets⟩ held slot
      (loader.fail error) :=
  .after (.fail error) (proceedsTo_pollDrain loader slot error .fresh)

theorem proceeds_pollRun (visit : Visit) (loader : Loader) (file : FileId)
    (sourceMap : Option String) (run : Run Processed) :
    Proceeds Named loader held (pollRun visit loader file sourceMap run).1 held := by
  have polled : ∀ (processed : List (String × Option String)) (queue : Queue),
      Proceeds Named loader held ({ loader with processed }.setQueue queue) held := by
    intro processed queue
    have noted : Proceeds Named loader held { loader with processed } held :=
      .of_rest ⟨rfl, rfl, rfl, rfl, rfl, rfl, rfl⟩ rfl rfl rfl
    exact noted.trans (proceeds_setQueue ..)
  unfold pollRun
  dsimp only
  split
  · exact (polled _ _).trans (.of_quiet (quiet_tell _ (.task visit.task)))
  · exact polled _ _

theorem isIncomplete_of_check {graph : Graph} {id : BlockId} {error : Error}
    (failed : graph.checkImplementations id = .error error) : error.IsIncomplete := by
  unfold Graph.checkImplementations at failed
  split at failed
  · cases failed
  · obtain ⟨_, interface, _, _, _, failed⟩ := exists_of_forM_error failed
    split at failed
    · cases failed
    · dsimp only at failed
      split at failed
      · cases failed
      · cases failed
        exact ⟨_, _, rfl⟩

/-- A completed block is stored, or nothing of it stays. -/
theorem complete_cases (loader : Loader) (slot : BlockId) (assembly : Assembly)
    (linked : List (Link × BlockId)) :
    let flight : Flight := ⟨file, origin, .filling slot assembly.draft.block.base? 0⟩
    let result := loader.complete slot assembly linked
    (result.2 = .ok () ∧ Proceeds Named loader (flight :: held) result.1
        (⟨file, origin, .ended (.ok slot)⟩ :: held)) ∨
      ∃ error, result.2 = .error error ∧ Proceeds Named loader (flight :: held) result.1
        (⟨file, origin, .ended (.error error)⟩ :: held) := by
  intro flight result
  unfold result complete
  split
  · rename_i error _
    exact .inr ⟨error, rfl, .fail error⟩
  · rename_i block completed
    have based := Draft.isComplete_of_complete completed
    unfold store
    dsimp only
    split
    · rename_i error _
      have failed : Proceeds Named loader (flight :: held) loader
          (⟨file, origin, .ended (.error error)⟩ :: held) := .fail error
      refine .inr
        ⟨error, rfl, failed.trans (.of_rest ⟨rfl, rfl, rfl, rfl, rfl, ?_, rfl⟩ rfl rfl rfl)⟩
      exact funext (loader.names.count_release_claim _)
    · rename_i body named
      have extension : body.extension = block.extension :=
        ((Block.sameSource_addDependencies _ _).trans (Block.sameSource_setName named)).extension
      split
      · have extended : ∀ next, body.base? = some next →
            assembly.draft.block.base? = some next ∨ loader.graph.isComplete next = true :=
          fun next found => based next (by rwa [Block.base?, extension] at found)
        exact .inl ⟨rfl, .store extended (Block.name_of_setName named)⟩
      · rename_i error checked
        refine .inr ⟨error, rfl, ?_⟩
        have withdrawn : Proceeds Named loader (flight :: held)
            { loader with graph := loader.graph.remove slot }
            (⟨file, origin, .ended (.error error)⟩ :: held) :=
          .withdraw (isIncomplete_of_check checked)
        refine withdrawn.trans (.of_rest ⟨?_, rfl, rfl, rfl, rfl, ?_, rfl⟩ rfl rfl rfl)
        · simp [Graph.remove, Graph.insert]
        · exact funext (loader.names.count_release_claim _)

section Work

variable {visit : Visit} (proceeds : visit.poll.Proceeds Named)
include proceeds

theorem proceedsTo_continueLinking {loader : Loader} (named : loader.IsNamed Named)
    {requester : FileId} (called : Named file requester) (assembly : Assembly) :
    ProceedsTo Named loader
      ⟨file, origin, .filling visit.slot assembly.draft.block.base?
        (Assembly.awaited assembly.links)⟩ held visit.slot
      (continueLinking visit loader requester assembly) := by
  have polled := @proceeds_pollLinks Named held file origin visit.poll proceeds visit.slot
    assembly.draft.block.base? requester called loader named assembly.pace (.task visit.task)
    assembly.links
  unfold continueLinking
  dsimp only
  generalize (linkParts visit.poll requester).pollJoin assembly.pace (.task visit.task)
    assembly.links loader = joined at polled ⊢
  obtain ⟨after, links⟩ := joined
  split
  · exact .after (polled.trans (.of_quiet (quiet_leaveAll (Assembly.watches links) after)))
      (proceedsTo_fail ..)
  · split
    · refine ⟨polled, fun work is => ?_⟩
      cases is
      exact trivial
    · rename_i linked all
      rw [awaited_of_linked all] at polled
      rcases @complete_cases Named held file origin after visit.slot assembly linked with
        ⟨done, stored⟩ | ⟨error, failed, ended⟩
      · split
        · rename_i same
          rw [same] at done
          cases done
        · rename_i same
          rw [same] at stored
          refine ⟨polled.trans stored, fun work is => ?_⟩
          cases is
      · split
        · rename_i same
          rw [same] at ended failed
          cases failed
          exact .after (polled.trans ended) (proceedsTo_pollDrain _ visit.slot _ .fresh)
        · rename_i same
          rw [same] at failed
          cases failed

theorem proceedsTo_build {loader : Loader} (named : loader.IsNamed Named) {requester : FileId}
    (called : Named file requester) (contents defaultName : String) (dependencies : List String) :
    ProceedsTo Named loader ⟨file, origin, .filling visit.slot none 0⟩ held visit.slot
      (build visit loader requester contents defaultName dependencies) := by
  have noted : Proceeds Named loader (⟨file, origin, .filling visit.slot none 0⟩ :: held)
      { loader with built := loader.built ++ [visit.task] }
      (⟨file, origin, .filling visit.slot none 0⟩ :: held) :=
    .of_rest ⟨rfl, rfl, rfl, rfl, rfl, rfl, rfl⟩ rfl rfl rfl
  have read := @proceeds_assemble Named (⟨file, origin, .filling visit.slot none 0⟩ :: held)
    { loader with built := loader.built ++ [visit.task] } requester contents defaultName
      dependencies
  unfold build
  dsimp only
  split
  · rename_i same
    rw [same] at read
    exact .after (noted.trans read) (proceedsTo_fail ..)
  · rename_i assembly same
    rw [same] at read
    obtain ⟨base, awaited⟩ := base_and_awaited_of_assemble same
    have later := @proceedsTo_continueLinking Named held file origin visit proceeds _
      ((noted.trans read).isNamed named) requester called assembly
    rw [base, awaited] at later
    exact .after (noted.trans read) later

theorem proceedsTo_continueChaining {loader : Loader} (named : loader.IsNamed Named)
    (found : ImportedFile) (called : Named file found.identifier) (before : Processed)
    (run : Run Processed) :
    ProceedsTo Named loader ⟨file, origin, .filling visit.slot none 0⟩ held visit.slot
      (continueChaining visit loader found before run) := by
  have polled := @proceeds_pollRun Named (⟨file, origin, .filling visit.slot none 0⟩ :: held) visit
    loader found.identifier before.sourceMap run
  unfold continueChaining
  split <;> rename_i same <;> rw [same] at polled
  · refine ⟨polled, fun work is => ?_⟩
    cases is
    exact called
  · exact .after polled (proceedsTo_fail ..)
  · exact .after polled (proceedsTo_build proceeds (polled.isNamed named) called ..)

theorem proceedsTo_chain {loader : Loader} (named : loader.IsNamed Named) (found : ImportedFile)
    (called : Named file found.identifier) (before : Processed) :
    ProceedsTo Named loader ⟨file, origin, .filling visit.slot none 0⟩ held visit.slot
      (chain visit loader found before) := by
  unfold chain
  dsimp only
  split
  · exact proceedsTo_build proceeds named called ..
  · exact proceedsTo_continueChaining proceeds named found called ..

theorem proceedsTo_continuePreparing {loader : Loader} (named : loader.IsNamed Named)
    (found : ImportedFile) (called : Named file found.identifier) (run : Run Processed) :
    ProceedsTo Named loader ⟨file, origin, .filling visit.slot none 0⟩ held visit.slot
      (continuePreparing visit loader found run) := by
  have polled := @proceeds_pollRun Named (⟨file, origin, .filling visit.slot none 0⟩ :: held) visit
    loader found.identifier none run
  unfold continuePreparing
  split <;> rename_i same <;> rw [same] at polled
  · refine ⟨polled, fun work is => ?_⟩
    cases is
    exact called
  · exact .after polled (proceedsTo_fail ..)
  · exact .after polled (proceedsTo_chain proceeds (polled.isNamed named) found called ..)

theorem proceedsTo_prepare {loader : Loader} (named : loader.IsNamed Named) (found : ImportedFile)
    (called : Named file found.identifier) :
    ProceedsTo Named loader ⟨file, origin, .filling visit.slot none 0⟩ held visit.slot
      (prepare visit loader found) := by
  unfold prepare
  dsimp only
  split
  · exact proceedsTo_chain proceeds named found called ..
  · split
    · exact proceedsTo_fail ..
    · exact proceedsTo_continuePreparing proceeds named found called ..

theorem proceedsTo_continueImporting {loader : Loader} (named : loader.IsNamed Named) (left : Nat) :
    ProceedsTo Named loader ⟨file, origin, .filling visit.slot none 0⟩ held visit.slot
      (continueImporting visit loader file left) := by
  cases left with
  | succ left =>
    refine ⟨.of_quiet (quiet_tell loader (.task visit.task)), fun work is => ?_⟩
    cases is
    exact trivial
  | zero =>
    have settled : Proceeds Named loader (⟨file, origin, .filling visit.slot none 0⟩ :: held)
        { loader with cache := loader.cache.settle file (loader.importer.read file) }
        (⟨file, origin, .filling visit.slot none 0⟩ :: held) := by
      refine .keep ⟨rfl, rfl, rfl, rfl, rfl, rfl, rfl⟩ rfl fun named =>
        named.of_files rfl ?_ rfl
      cases read : loader.importer.read file with
      | error error => exact named.imports
      | ok found =>
        intro entry member
        rcases List.mem_append.mp member with old | new
        · exact named.imports entry (List.mem_of_mem_filter old)
        · rw [List.mem_singleton.mp new]
          exact named.read file found read
    unfold continueImporting
    dsimp only
    split
    · exact .after settled (proceedsTo_fail ..)
    · rename_i found read
      exact .after settled (proceedsTo_prepare proceeds (settled.isNamed named) found
        (named.read file found read))

theorem proceedsTo_beginTask {loader : Loader} (named : loader.IsNamed Named) (task : Task) :
    ProceedsTo Named loader ⟨task.file, task.origin, .filling visit.slot none 0⟩ held visit.slot
      (beginTask visit loader task) := by
  unfold beginTask
  split
  · unfold beginImporting
    split
    · rename_i found imported
      obtain ⟨entry, known, rfl⟩ := Option.map_eq_some_iff.mp imported
      have asked : entry.1 = task.file := by simpa using List.find?_some known
      have called := named.imports entry (List.mem_of_find?_eq_some known)
      exact proceedsTo_prepare proceeds named entry.2 (asked ▸ called)
    · have noted : Proceeds Named loader
          (⟨task.file, task.origin, .filling visit.slot none 0⟩ :: held)
          { loader with cache := loader.cache.noteRead task.file }
          (⟨task.file, task.origin, .filling visit.slot none 0⟩ :: held) :=
        .keep ⟨rfl, rfl, rfl, rfl, rfl, rfl, rfl⟩ rfl fun named =>
          named.of_files rfl named.imports rfl
      exact .after noted (proceedsTo_continueImporting proceeds (noted.isNamed named) _)
  · exact proceedsTo_build proceeds named (named.own task.file) ..

theorem proceedsTo_continueTask {loader : Loader} (named : loader.IsNamed Named) (task : Task)
    (work : Work) (called : work.IsNamed Named task.file) :
    ProceedsTo Named loader ⟨task.file, task.origin, work.phase visit.slot⟩ held visit.slot
      (continueTask visit loader task work) := by
  cases work with
  | importing left => exact proceedsTo_continueImporting proceeds named left
  | preparing found run => exact proceedsTo_continuePreparing proceeds named found called run
  | chaining found before run =>
    exact proceedsTo_continueChaining proceeds named found called before run
  | linking assembly =>
    exact proceedsTo_continueLinking proceeds named (named.own task.file) assembly
  | draining error drain => exact proceedsTo_pollDrain loader visit.slot error drain

end Work

/-! The poll of a task -/

/-- What a poll made of a load goes back to its task. -/
theorem proceeds_record {loader after : Loader} {id : TaskId} {task again : Task} {slot : BlockId}
    {phase : Phase} {step : WorkStep}
    (worked : ProceedsTo Named loader ⟨task.file, task.origin, phase⟩ held slot (after, step))
    (found : after.tasks[id]? = some again) (advancing : again.stage = .advancing)
    (file : again.file = task.file) (origin : again.origin = task.origin) :
    Proceeds Named loader (⟨task.file, task.origin, phase⟩ :: held)
      (after.record id task slot step).1 held := by
  have put : ∀ (between : Loader) (stage : Stage), between.tasks = after.tasks →
      stage.IsNamed Named task.file →
        Proceeds Named between (stage.flights task.file task.origin ++ held)
          (between.setStage id stage) held := by
    intro between stage tasks named
    rw [← file, ← origin]
    exact .putDown (tasks ▸ found) advancing (file ▸ named)
  cases step with
  | more work =>
    exact worked.proceeds.trans (put after (.active slot work) rfl (worked.named work rfl))
  | done outcome =>
    have told := quiet_tell (after.setStage id (.finished outcome)) (.task id)
    have finished := worked.proceeds.trans (.finish after id task.file task.origin outcome held)
    unfold record
    cases given : task.origin with
    | imported =>
      rw [given] at finished put
      exact (finished.trans (put after (.finished outcome) rfl trivial)).trans (.of_quiet told)
    | given contents defaultName =>
      rw [given] at finished put
      exact (finished.trans
        (put (after.setLoad task.file id) (.finished outcome) rfl trivial)).trans
        (.of_quiet (congrArg (fun quiet : Loader => quiet.setLoad task.file id) told))

/-- A task that is taken up, worked on and put down again. -/
theorem proceeds_visit {loader : Loader} {id : TaskId} {task : Task} {slot : BlockId}
    {phase : Phase}
    {result : Loader × WorkStep} (found : loader.tasks[id]? = some task)
    (isOpen : task.isOpen = true) (flights : task.flights = [⟨task.file, task.origin, phase⟩])
    (worked : ProceedsTo Named (loader.setStage id .advancing) ⟨task.file, task.origin, phase⟩ held
      slot result) (advancing : result.1.IsAdvancing id) :
    Proceeds Named loader held (result.1.record id task slot result.2).1 held := by
  have taken :
      (loader.setStage id .advancing).tasks[id]? = some { task with stage := .advancing } := by
    rw [getElem?_setStage, if_pos rfl, found]
    rfl
  -- the task that was taken up is still there when its work is done
  obtain ⟨again, foundAgain, file, origin, _⟩ := worked.proceeds.exists_task taken
  obtain ⟨last, foundLast, advancing⟩ := advancing
  cases foundAgain.symm.trans foundLast
  have up : Proceeds Named loader held (loader.setStage id .advancing) (task.flights ++ held) :=
    .takeUp found isOpen
  rw [flights] at up
  exact up.trans (proceeds_record worked foundAgain advancing file origin)

/-- All that polls do is made of steps of loads, however deep they nest. -/
theorem proceeds_pollWithin (Named : FileId → FileId → Prop) (depth : Nat) :
    Poller.Proceeds (pollWithin depth) Named := by
  induction depth with
  | zero => exact fun loader _ _ _ => .refl loader
  | succ depth ih =>
    intro loader id held named
    unfold pollWithin
    cases found : loader.tasks[id]? with
    | none => exact .refl _
    | some task =>
      have under : (loader.setStage id .advancing).IsAdvancing id := by
        refine ⟨{ task with stage := .advancing }, ?_, rfl⟩
        rw [getElem?_setStage, if_pos rfl, found]
        rfl
      have namedTaken : (loader.setStage id .advancing).IsNamed Named :=
        named.setStage found trivial
      dsimp only
      cases stage : task.stage with
      | finished outcome => exact .refl _
      | advancing => exact .refl _
      | dropped => exact .refl _
      | fresh =>
        have began : Proceeds Named (loader.setStage id .advancing)
            (⟨task.file, task.origin, .fresh⟩ :: held) _ _ :=
          .begin _ task.file task.origin held
        have works := (Works.reserve (loader.setStage id .advancing) task.file []).trans
          (@works_beginTask 0 [] ⟨pollWithin depth, id,
            ((loader.setStage id .advancing).reserve task.file).2⟩
              (works_pollWithin 0 depth) _ task)
        exact proceeds_visit found (by rw [Task.isOpen, stage]) (by rw [Task.flights, stage]; rfl)
          (.after began (@proceedsTo_beginTask Named held ⟨pollWithin depth, id, _⟩ ih _
            (began.isNamed namedTaken) task)) (works.isAdvancing under)
      | active slot work =>
        have called : work.IsNamed Named task.file := by
          have here := named.works id task found
          rwa [stage] at here
        have works := @works_continueTask 0 [] ⟨pollWithin depth, id, slot⟩
          (works_pollWithin 0 depth) (loader.setStage id .advancing) task work
        exact proceeds_visit found (by rw [Task.isOpen, stage]) (by rw [Task.flights, stage]; rfl)
          (@proceedsTo_continueTask Named held
            ⟨pollWithin depth, id, slot⟩ ih _ namedTaken task work
            called) (works.isAdvancing under)

theorem proceeds_pollTask {loader : Loader} (named : loader.IsNamed Named) (id : TaskId)
    (held : List Flight) : Proceeds Named loader held (loader.pollTask id).1 held :=
  proceeds_pollWithin Named _ loader id held named

end Loader

end StyleBlock
