import StyleBlock.Proofs.FlightRuns

/-!
Which loads wait. The waits never make a cycle, and the search among them comes to an end and finds
exactly what can be reached. Every entry belongs to a load that is under way, unless a load of the
file has given up: what its references waited for then stays among the waits.
-/

namespace StyleBlock

/-! The search -/

namespace Waits

variable {waits : Waits}

/-- A search finds nothing but what can be reached. -/
theorem exists_leads_of_search {target : FileId} (stack seen : List FileId)
    (found : waits.search target stack seen = true) :
    ∃ source ∈ stack, waits.Leads source target := by
  induction stack, seen using search.induct waits target with
  | case1 => simp [search] at found
  | case2 seen rest => exact ⟨target, List.mem_cons_self, .refl⟩
  | case3 seen current rest other present ih =>
    rw [search, if_neg other, if_pos present] at found
    obtain ⟨source, member, leads⟩ := ih found
    exact ⟨source, List.mem_cons_of_mem current member, leads⟩
  | case4 seen current rest other fresh ih =>
    rw [search, if_neg other, if_neg fresh] at found
    obtain ⟨source, member, leads⟩ := ih found
    rcases List.mem_append.mp member with isTarget | member
    · exact ⟨current, List.mem_cons_self, .head isTarget leads⟩
    · exact ⟨source, List.mem_cons_of_mem current member, leads⟩

/-- The search finds the file itself and all that its load waits for. -/
theorem reaches_iff {source target : FileId} :
    waits.reaches source target = true ↔
      target = source ∨ Relation.TransGen waits.Entered source target := by
  constructor
  · intro found
    obtain ⟨first, member, leads⟩ := exists_leads_of_search [source] [] found
    rw [List.mem_singleton.mp member] at leads
    exact Relation.reflTransGen_iff_eq_or_transGen.mp leads
  · intro way
    exact reaches_of_leads (Relation.reflTransGen_iff_eq_or_transGen.mpr way)

/-- The search as a loop with its stack and the files seen before, which gives nothing if it has not
come to an end after so many rounds. -/
def searchWithin (waits : Waits) (target : FileId) :
    Nat → List FileId → List FileId → Option Bool
  | 0, _, _ => none
  | _ + 1, [], _ => some false
  | rounds + 1, current :: rest, seen =>
    if current = target then some true
    else if current ∈ seen then waits.searchWithin target rounds rest seen
    else waits.searchWithin target rounds (waits.targets current ++ rest) (current :: seen)

/-- Each round takes a file off the stack, and each entry puts at most one there. -/
theorem searchWithin_eq {target : FileId} (stack seen : List FileId) {rounds : Nat}
    (enough : (waits.entriesOutside seen).length + stack.length < rounds) :
    waits.searchWithin target rounds stack seen = some (waits.search target stack seen) := by
  induction stack, seen using search.induct waits target generalizing rounds with
  | case1 seen =>
    cases rounds with
    | zero => omega
    | succ rounds => rw [searchWithin, search]
  | case2 seen rest =>
    cases rounds with
    | zero => omega
    | succ rounds => rw [searchWithin, search, if_pos rfl, if_pos rfl]
  | case3 seen current rest other present ih =>
    cases rounds with
    | zero => omega
    | succ rounds =>
      rw [searchWithin, search, if_neg other, if_neg other, if_pos present, if_pos present]
      apply ih
      rw [List.length_cons] at enough
      omega
  | case4 seen current rest other fresh ih =>
    cases rounds with
    | zero => omega
    | succ rounds =>
      rw [searchWithin, search, if_neg other, if_neg other, if_neg fresh, if_neg fresh]
      apply ih
      have shrink := @length_entriesOutside_cons waits seen current fresh
      rw [List.length_cons] at enough
      rw [List.length_append]
      omega

theorem entriesOutside_nil (waits : Waits) : waits.entriesOutside [] = waits.entries := by
  simp [entriesOutside]

end Waits

/-! Loads that wait, and loads that come to nothing -/

/-- What a load waits for. -/
def Flight.targets (flight : Flight) : Multiset FileId :=
  match flight.phase with
  | .filling _ _ targets => targets
  | _ => 0

/-- How often the load of a file waits for another. -/
def Flight.waitingFor (requester target : FileId) (flight : Flight) : Nat :=
  if flight.file = requester then flight.targets.count target else 0

/-- Whether a load is known to come to nothing. -/
def Flight.HasGivenUp (flight : Flight) : Prop :=
  match flight.phase with
  | .ended (.error _) => True
  | .finished (.error _) => True
  | .dropped => True
  | _ => False

/-- Whether a task ended without a block, or was dropped before its end. -/
def Task.hasGivenUp (task : Task) : Bool :=
  match task.stage with
  | .finished (.error _) => true
  | .dropped => true
  | _ => false

/-- The error that a task ended with. -/
def Task.failure? (task : Task) : Option Error :=
  match task.stage with
  | .finished (.error error) => some error
  | _ => none

theorem Task.stage_of_failure {task : Task} {error : Error} (failure : task.failure? = some error) :
    task.stage = .finished (.error error) := by
  unfold failure? at failure
  split at failure
  · rename_i stage
    rw [stage, Option.some.inj failure]
  · cases failure

namespace Loader

variable {Named : FileId → FileId → Prop} {loader other : Loader} {held flights : List Flight}

/-- A wait is entered only if nothing leads back from its end to its beginning. -/
theorem isKeptOn_isAcyclic (Named : FileId → FileId → Prop) :
    IsKeptOn Named fun loader _ => loader.waits.IsAcyclic where
  keep same _ acyclic := same.waits ▸ acyclic
  reserve file acyclic := by rwa [waits_reserve]
  load _ acyclic := by rwa [waits_load]
  begin acyclic := by rwa [waits_reserve]
  wait _ free acyclic := by
    refine acyclic.add fun way => ?_
    rw [Waits.reaches_of_leads way] at free
    cases free
  arrive _ acyclic := acyclic.remove _ _
  fail _ acyclic := acyclic
  store _ _ acyclic := acyclic
  withdraw _ acyclic := acyclic
  finish id acyclic := by rwa [waits_publish]
  drop _ acyclic := acyclic
  give _ _ _ acyclic := acyclic

/-- In every state of a loader, also in the middle of a poll, the waits have no cycle. The search
among any entries comes to an end, each round using up a file on its stack and no entry being
followed twice, and it finds the file itself and what can be reached from it, and nothing else. -/
theorem waits_isAcyclic (amid : Amid (fun _ _ => True) loader held) :
    loader.waits.IsAcyclic ∧ ∀ (waits : Waits) (source target : FileId),
      waits.searchWithin target (waits.entries.length + 2) [source] [] =
          some (waits.reaches source target) ∧
        (waits.reaches source target = true ↔
          target = source ∨ Relation.TransGen waits.Entered source target) := by
  have acyclic := amid.keeps (isKeptOn_isAcyclic _)
    (fun loader blank _ => blank.waits ▸ Waits.isAcyclic_empty)
    fun _ blank _ => blank.waits ▸ Waits.isAcyclic_empty
  refine ⟨acyclic, fun waits source target => ⟨?_, Waits.reaches_iff⟩⟩
  apply Waits.searchWithin_eq
  rw [Waits.entriesOutside_nil, List.length_singleton]
  omega

theorem continues_pollInTurn (ids : List RequestId) (loader : Loader) :
    Continues Named loader (pollInTurn ids loader).1 := by
  induction ids generalizing loader with
  | nil => exact .refl loader
  | cons id rest ih => exact (Continues.poll loader .caller id).trans (ih _)

/-- While one of two files that refer to each other takes a while, the other one waits for it. -/
theorem couple_waits :
    let loader := (pollInTurn [0] coupleAsked).1
    loader.waits = ⟨[("one.css", "two.css")]⟩ ∧ loader.waits.IsAcyclic ∧
      loader.waits.reaches "one.css" "two.css" = true ∧
        ¬ Relation.TransGen loader.waits.Entered "two.css" "one.css" := by
  have reached : Arises (fun _ _ => True) (pollInTurn [0] coupleAsked).1 :=
    .continues (.start .default ⟨by simp, by simp, by simp⟩)
      ((((Continues.ask _ (.block "one.css")).trans (.ask _ (.path "two.css"))).trans
        (.ask _ (.relative "two.css" "./one.css"))).trans (continues_pollInTurn [0] coupleAsked))
  obtain ⟨acyclic, finds⟩ := waits_isAcyclic reached.amid
  have entries : (pollInTurn [0] coupleAsked).1.waits = ⟨[("one.css", "two.css")]⟩ := by
    decide +kernel
  refine ⟨entries, acyclic, (finds _ _ _).2.mpr (.inr (.single ?_)), fun back => ?_⟩
  · rw [entries]
    unfold Waits.Entered
    decide
  · have reaches := (finds _ _ _).2.mpr (.inr back)
    rw [entries] at reaches
    exact absurd reaches (by decide +kernel)

/-! Which loads the entries belong to -/

/-- Whether the load of a file has begun or is about to, and is not over. -/
def IsUnderWay (loader : Loader) (file : FileId) : Prop :=
  ∃ task ∈ loader.tasks, task.file = file ∧ task.isOver = false

/-- Whether a load of a file ended without a block, or was dropped before its end. -/
def HasGivenUp (loader : Loader) (file : FileId) : Prop :=
  ∃ task ∈ loader.tasks, task.file = file ∧ task.hasGivenUp = true

/-- Whether a file has no more entries than its loads wait, unless one of them has given up. -/
def CoversWaits (loader : Loader) (flights : List Flight) : Prop :=
  ∀ requester target, (∃ flight ∈ flights, flight.file = requester ∧ flight.HasGivenUp) ∨
    loader.waits.entries.count (requester, target) ≤
      (flights.map (Flight.waitingFor requester target)).sum

namespace CoversWaits

variable {flight next : Flight} {rest : List Flight}

/-- A load goes on, and what it enters among the waits or takes out is what it waits for. -/
theorem step (covers : loader.CoversWaits (flight :: rest)) (file : next.file = flight.file)
    (gone : flight.HasGivenUp → next.HasGivenUp)
    (moved : ∀ requester target others,
      loader.waits.entries.count (requester, target) ≤ flight.waitingFor requester target + others →
        other.waits.entries.count (requester, target) ≤ next.waitingFor requester target + others) :
    other.CoversWaits (next :: rest) := by
  intro requester target
  rcases covers requester target with lost | covered
  · exact .inl (exists_mem_replace lost
      (fun ⟨isFile, givenUp⟩ => ⟨file.trans isFile, gone givenUp⟩) fun _ same => same)
  · apply Or.inr
    rw [List.map_cons, List.sum_cons] at covered ⊢
    exact moved requester target _ covered

/-- A load that gives up leaves its entries behind. -/
theorem giveUp (covers : loader.CoversWaits (flight :: rest)) (file : next.file = flight.file)
    (waits : other.waits = loader.waits) (gone : next.HasGivenUp) :
    other.CoversWaits (next :: rest) := by
  intro requester target
  by_cases isFile : next.file = requester
  · exact .inl ⟨next, List.mem_cons_self, isFile, gone⟩
  · have idle : ∀ flight : Flight, flight.file ≠ requester →
        flight.waitingFor requester target = 0 := fun flight differs => if_neg differs
    rcases covers requester target with lost | covered
    · exact .inl (exists_mem_replace lost (fun ⟨isLost, _⟩ => absurd (file.trans isLost) isFile)
        fun _ same => same)
    · apply Or.inr
      rw [List.map_cons, List.sum_cons, idle flight (file ▸ isFile)] at covered
      rw [List.map_cons, List.sum_cons, idle next isFile, waits]
      exact covered

end CoversWaits

/-- The waits go with the loads, as long as files are called what they are asked for by. -/
theorem isKeptOn_coversWaits : IsKeptOn Eq CoversWaits where
  keep same perm covers requester target := by
    rw [same.waits]
    rcases covers requester target with ⟨lost, member, given⟩ | covered
    · exact .inl ⟨lost, perm.subset member, given⟩
    · exact .inr (covered.trans_eq (perm.map _).sum_eq)
  reserve file covers := by
    unfold CoversWaits
    rwa [waits_reserve]
  load _ covers requester target := by
    rw [waits_load]
    rcases covers requester target with ⟨lost, member, given⟩ | covered
    · exact .inl ⟨lost, List.mem_cons_of_mem _ member, given⟩
    · exact .inr (covered.trans (Nat.le_add_left ..))
  begin covers := covers.step rfl (by simp [Flight.HasGivenUp])
    (by simp [waits_reserve, Flight.waitingFor, Flight.targets])
  wait named free covers := by
    subst named
    refine covers.step rfl (by simp [Flight.HasGivenUp]) fun requester target others fits => ?_
    rw [Waits.add, List.count_append, List.count_singleton]
    simp only [Flight.waitingFor, Flight.targets, Multiset.count_add, Multiset.count_singleton]
      at fits ⊢
    grind
  arrive named covers := by
    subst named
    refine covers.step rfl (by simp [Flight.HasGivenUp]) fun requester target others fits => ?_
    rw [Waits.remove, List.count_erase]
    simp only [Flight.waitingFor, Flight.targets, Multiset.count_add, Multiset.count_singleton]
      at fits ⊢
    grind
  fail error covers := covers.giveUp rfl rfl trivial
  store _ _ covers := covers.step rfl (by simp [Flight.HasGivenUp])
    (by simp [Flight.waitingFor, Flight.targets])
  withdraw incomplete covers := covers.giveUp rfl rfl trivial
  finish id covers := by
    refine covers.step rfl ?_ (by simp [waits_publish, Flight.waitingFor, Flight.targets])
    rename_i outcome _
    cases outcome <;> exact fun gone => gone
  drop _ covers := covers.giveUp rfl rfl trivial
  give file contents defaultName covers requester target := by
    rcases covers requester target with ⟨lost, member, given⟩ | covered
    · exact .inl ⟨lost, List.mem_cons_of_mem _ member, given⟩
    · exact .inr (covered.trans (Nat.le_add_left ..))

/-- Every task has one load, be it at rest or in hand. -/
theorem isKeptOn_files (Named : FileId → FileId → Prop) :
    IsKeptOn Named fun loader flights => (flights.map Flight.file).Perm loader.taskFiles := by
  have pushed : ∀ (loader : Loader) (file : FileId) (origin : Origin) (flights : List Flight),
      (flights.map Flight.file).Perm loader.taskFiles →
        (file :: flights.map Flight.file).Perm
          (loader.addTask (.ofFile file origin)).1.taskFiles := by
    intro loader file origin flights perm
    have files :
        (loader.addTask (.ofFile file origin)).1.taskFiles = loader.taskFiles ++ [file] := by
      simp [taskFiles, addTask, Task.ofFile]
    rw [files]
    exact (perm.cons file).trans (List.perm_append_singleton file _).symm
  have reserved : ∀ (loader : Loader) (file : FileId),
      (loader.reserve file).1.taskFiles = loader.taskFiles := fun loader file => by
    rw [taskFiles, (queue_reserve loader file).2.2, ← taskFiles]
  exact {
    keep := fun same more perm => by
      rw [same.files]
      exact (more.symm.map _).trans perm
    reserve := fun file perm => by rwa [reserved]
    load := fun new perm => by
      rw [load_of_none new]
      exact pushed _ _ .imported _ perm
    begin := fun perm => by rwa [reserved]
    wait := fun _ _ perm => perm
    arrive := fun _ perm => perm
    fail := fun _ perm => perm
    store := fun _ _ perm => perm
    withdraw := fun _ perm => perm
    finish := fun {_ _ origin _ _} id perm => by cases origin <;> exact perm
    drop := fun _ perm => perm
    give := fun file contents defaultName perm => pushed _ file _ _ perm }

/-- A load in hand is that of a task that is being polled. -/
theorem Amid.exists_advancing (amid : Amid Named loader held) {flight : Flight}
    (member : flight ∈ held) :
    ∃ task ∈ loader.tasks, task.file = flight.file ∧ task.stage = .advancing := by
  have perm := amid.keeps (isKeptOn_files Named)
    (fun loader _ empty => by simp [taskFiles, empty])
    fun perm _ tasks => by rwa [taskFiles, tasks]
  by_contra none
  -- tasks that are not being polled account for all the loads of their file
  have resting : ∀ tasks : List Task,
      (∀ task ∈ tasks, task.file = flight.file → task.stage ≠ .advancing) →
        ((tasks.flatMap Task.flights).map Flight.file).count flight.file =
          (tasks.map Task.file).count flight.file := by
    intro tasks still
    induction tasks with
    | nil => rfl
    | cons task rest ih =>
      rw [List.flatMap_cons, List.map_append, List.count_append, List.map_cons, List.count_cons,
        ih fun task inside => still task (List.mem_cons_of_mem _ inside), Nat.add_comm]
      congr 1
      have own := still task List.mem_cons_self
      by_cases same : task.file = flight.file
      · cases stage : task.stage <;> simp_all [Task.flights, Stage.flights]
      · cases stage : task.stage <;> simp_all [Task.flights, Stage.flights]
  have counts := perm.count_eq flight.file
  rw [List.map_append, List.count_append, Loader.flights, taskFiles, resting] at counts
  · have some := List.count_pos_iff.mpr (List.mem_map_of_mem (f := Flight.file) member)
    omega
  · intro task inside same advancing
    exact none ⟨task, by simpa using inside, same, advancing⟩

/-- Every load is that of a task, which is being polled if the load is in hand. -/
theorem Amid.exists_task (amid : Amid Named loader held) {flight : Flight}
    (member : flight ∈ loader.flights ++ held) :
    ∃ task ∈ loader.tasks, task.file = flight.file ∧
      (flight ∈ task.flights ∨ task.stage = .advancing) := by
  rcases List.mem_append.mp member with rests | inHand
  · obtain ⟨task, inside, own⟩ := List.mem_flatMap.mp rests
    refine ⟨task, by simpa using inside, ?_, .inl own⟩
    cases stage : task.stage <;> simp_all [Task.flights, Stage.flights]
  · obtain ⟨task, inside, same, advancing⟩ := amid.exists_advancing inHand
    exact ⟨task, inside, same, .inr advancing⟩

/-- Every entry belongs to a load that is not over, or to one that came to nothing. -/
theorem Amid.isUnderWay_or_hasGivenUp (amid : Amid Eq loader held) {requester target : FileId}
    (entered : (requester, target) ∈ loader.waits.entries) :
    loader.IsUnderWay requester ∨ loader.HasGivenUp requester := by
  have covers : loader.CoversWaits (loader.flights ++ held) := amid.keeps isKeptOn_coversWaits
    (fun loader blank _ _ _ => .inr (by simp [blank.waits, Waits.empty]))
    fun _ blank _ _ _ => .inr (by simp [blank.waits, Waits.empty])
  rcases covers requester target with ⟨flight, member, isFile, gone⟩ | covered
  · obtain ⟨task, inside, same, rests⟩ := amid.exists_task member
    by_cases isOver : task.isOver = true
    · refine .inr ⟨task, inside, same.trans isFile, ?_⟩
      rcases rests with own | advancing
      · unfold Task.flights at own
        cases stage : task.stage with
        | finished outcome =>
          cases outcome <;> simp_all [Stage.flights, Flight.HasGivenUp, Task.hasGivenUp]
        | dropped => simp [Task.hasGivenUp, stage]
        | fresh | active | advancing => simp [Task.isOver, stage] at isOver
      · simp [Task.isOver, advancing] at isOver
    · exact .inl ⟨task, inside, same.trans isFile, Bool.eq_false_iff.mpr isOver⟩
  · have positive : 0 < ((loader.flights ++ held).map (Flight.waitingFor requester target)).sum :=
      (List.count_pos_iff.mpr entered).trans_le covered
    obtain ⟨flight, member, waits⟩ : ∃ flight ∈ loader.flights ++ held,
        0 < flight.waitingFor requester target := by
      by_contra none
      push Not at none
      have zero : ((loader.flights ++ held).map (Flight.waitingFor requester target)).sum = 0 :=
        List.sum_eq_zero fun count isCount => by
          obtain ⟨flight, member, same⟩ := List.mem_map.mp isCount
          have idle := none flight member
          omega
      omega
    have isFile : flight.file = requester := by
      by_contra differs
      rw [Flight.waitingFor, if_neg differs] at waits
      omega
    obtain ⟨task, inside, same, rests⟩ := amid.exists_task member
    refine .inl ⟨task, inside, same.trans isFile, ?_⟩
    rcases rests with own | advancing
    · unfold Task.flights at own
      cases stage : task.stage with
      | fresh | active | advancing => simp [Task.isOver, stage]
      | finished | dropped => simp_all [Stage.flights, Flight.waitingFor, Flight.targets]
    · simp [Task.isOver, advancing]

/-- A way among the waits begins with an entry of the file that it leaves. -/
theorem exists_entry_of_reaches {source target : FileId} (other : target ≠ source)
    (found : loader.waits.reaches source target = true) :
    ∃ next, (source, next) ∈ loader.waits.entries := by
  rcases Waits.reaches_iff.mp found with same | way
  · exact absurd same other
  · obtain ⟨next, entered, _⟩ := Relation.TransGen.head'_iff.mp way
    exact ⟨next, Waits.mem_targets.mp entered⟩

/-- A reference that gets a slot without an answer of any load refers to a file that leads back. -/
theorem pollLink_of_silent {poll : Poller} {requester : FileId} {listener : Listener} {link : Link}
    {after : Loader} {slot : BlockId} (silent : ∀ loader id, (poll loader id).2 = .pending)
    (answer : pollLink poll requester loader listener link .fresh = (after, .linked slot)) :
    loader.waits.reaches link.target requester = true ∧
      (after, slot) = loader.reserve link.target := by
  unfold pollLink at answer
  dsimp only at answer
  split at answer
  · rename_i back
    refine ⟨back, ?_⟩
    cases answer
    rfl
  · unfold pollAwaited at answer
    dsimp only at answer
    split at answer
    · cases answer
    · rename_i ready
      have pending := congrArg Prod.snd ready
      rw [silent] at pending
      cases pending

/-- The poll of a reference to a file whose load is over tells how it ended. -/
theorem pollLink_of_failed {depth : Nat} {requester : FileId} {link : Link} {id : TaskId}
    {task : Task}
    {error : Error} (known : loader.loadOf? link.target = some id)
    (found : loader.tasks[id]? = some task) (failed : task.stage = .finished (.error error))
    (free : loader.waits.reaches link.target requester = false) (listener : Listener) :
    (pollLink (pollWithin (depth + 1)) requester loader listener link .fresh).2 =
      .failed error := by
  have isOver : task.isOver = true := by rw [Task.isOver, failed]
  have entered : ({ loader with waits := loader.waits.add requester link.target } : Loader).load
      link.target = ({ loader with waits := loader.waits.add requester link.target }, id) :=
    load_of_some known
  unfold pollLink
  rw [if_neg (by rw [free]; exact Bool.false_ne_true)]
  dsimp only
  rw [entered, pollAwaited, attend]
  dsimp only
  rw [found]
  dsimp only
  rw [if_pos isOver, pollWithin]
  dsimp only
  rw [found]
  dsimp only
  rw [failed]

/-- Every entry belongs to a load that is not over, or to one that came to nothing: when a reference
fails, what the other references of the block wait for stays among the waits. So a slot that is
given out without an answer of the load of its file belongs to the file that asks, or to a load that
is not over, or to one that came to nothing; and a reference to a file whose load has failed fails
in the same way if that load left nothing among the waits. -/
theorem waits_of_unfinished (amid : Amid Eq loader held) :
    (∀ entry ∈ loader.waits.entries, loader.IsUnderWay entry.1 ∨ loader.HasGivenUp entry.1) ∧
      ∀ (requester : FileId) (listener : Listener) (link : Link),
        (∀ (poll : Poller) (after : Loader) (slot : BlockId),
          (∀ loader id, (poll loader id).2 = .pending) →
            pollLink poll requester loader listener link .fresh = (after, .linked slot) →
              (link.target, slot) ∈ after.slots ∧ (link.target = requester ∨
                loader.IsUnderWay link.target ∨ loader.HasGivenUp link.target)) ∧
        ∀ (depth : Nat) (id : TaskId) (task : Task) (error : Error),
          loader.loadOf? link.target = some id → loader.tasks[id]? = some task →
            task.stage = .finished (.error error) → link.target ≠ requester →
              (∀ entry ∈ loader.waits.entries, entry.1 ≠ link.target) →
                (pollLink (pollWithin (depth + 1)) requester loader listener link .fresh).2 =
                  .failed error := by
  refine ⟨fun entry member => amid.isUnderWay_or_hasGivenUp member, fun requester listener link =>
    ⟨fun poll after slot silent answer => ?_,
      fun depth id task error known found failed other free => ?_⟩⟩
  · obtain ⟨back, reserved⟩ := pollLink_of_silent silent answer
    obtain ⟨rfl, rfl⟩ := Prod.mk.inj reserved
    refine ⟨mem_slots_reserve loader link.target, ?_⟩
    by_cases same : link.target = requester
    · exact .inl same
    · obtain ⟨next, entered⟩ := exists_entry_of_reaches (Ne.symm same) back
      exact .inr (amid.isUnderWay_or_hasGivenUp entered)
  · apply pollLink_of_failed known found failed
    rw [Bool.eq_false_iff]
    intro back
    obtain ⟨next, entered⟩ := exists_entry_of_reaches other.symm back
    exact free _ entered rfl

theorem givesNamed_files (files : MemoryFiles) : GivesNamed Eq files.importer .empty :=
  ⟨fun _ => rfl, fun asked file read => (files.isLawful_importer.identifier asked file read).symm,
    by simp [ImportCache.empty]⟩

/-- A file with two references. One of the files refers back and takes a while, the other one is
missing. -/
def severed : MemoryFiles where
  contents := [("main.css", "@block-reference a from \"a.css\"; " ++
      "@block-reference x from \"x.css\"; .root \x7b color: red; \x7d"),
    ("a.css", "@block-reference main from \"main.css\"; .root \x7b color: blue; \x7d")]
  delays := [("a.css", 1)]

/-- A request for the file, and one for the file that it refers to. -/
def severedAsked : Loader :=
  (((ofImporter .default severed.importer).ask (.block "main.css")).1.ask (.block "a.css")).1

theorem amid_severed (ids : List RequestId) : Amid Eq (pollInTurn ids severedAsked).1 [] :=
  (Arises.continues (.start .default (givesNamed_files severed))
    (((Continues.ask _ (.block "main.css")).trans (.ask _ (.block "a.css"))).trans
      (continues_pollInTurn ids severedAsked))).amid

/-- The load with the missing reference has given up and left its other wait behind. The load of the
missing file left nothing, so whoever refers to that file is told. -/
theorem severed_waits :
    (pollInTurn [0] severedAsked).1.waits = ⟨[("main.css", "a.css")]⟩ ∧
      (pollInTurn [0] severedAsked).1.HasGivenUp "main.css" ∧
        (pollLink (pollWithin 1) "c.css" (pollInTurn [0] severedAsked).1 .caller
          ⟨⟨some "x", "x.css"⟩, "x.css", default⟩ .fresh).2 =
            .failed (.unreadable (.load (.noSuchFile "x.css"))) := by
  have state : (pollInTurn [0] severedAsked).1.waits = ⟨[("main.css", "a.css")]⟩ ∧
      ¬ (pollInTurn [0] severedAsked).1.IsUnderWay "main.css" ∧
        (pollInTurn [0] severedAsked).1.loadOf? "x.css" = some 2 ∧
          (pollInTurn [0] severedAsked).1.tasks[2]?.bind Task.failure? =
            some (.unreadable (.load (.noSuchFile "x.css"))) := by
    unfold IsUnderWay
    decide +kernel
  obtain ⟨entries, rests, known, ended⟩ := state
  obtain ⟨task, found, failure⟩ := Option.bind_eq_some_iff.mp ended
  obtain ⟨owners, references⟩ := waits_of_unfinished (amid_severed [0])
  refine ⟨entries, (owners ("main.css", "a.css") ?_).resolve_left rests, ?_⟩
  · rw [entries]
    exact List.mem_singleton_self _
  · apply (references "c.css" .caller ⟨⟨some "x", "x.css"⟩, "x.css", default⟩).2 0 2 task
    · exact known
    · exact found
    · exact Task.stage_of_failure failure
    · decide
    · rw [entries]
      decide

/-- The load that failed is over, but the file it waited for is still entered as what it waits for.
So the load of that file gets the slot of the failed block, which stays empty, and is answered. -/
theorem severed_answered :
    Amid Eq (pollInTurn [0] severedAsked).1 [] ∧
      (pollInTurn [0] severedAsked).1.waits = ⟨[("main.css", "a.css")]⟩ ∧
        ¬ (pollInTurn [0] severedAsked).1.IsUnderWay "main.css" ∧
          (pollInTurn [0, 1] severedAsked).2.map (fun answer => answer.outcome.toOption) =
            [none, some ⟨1⟩] ∧
              (pollInTurn [0, 1] severedAsked).1.graph.isComplete ⟨0⟩ = false := by
  have failed : (pollInTurn [0] severedAsked).1.waits = ⟨[("main.css", "a.css")]⟩ ∧
      ¬ (pollInTurn [0] severedAsked).1.IsUnderWay "main.css" := by
    unfold IsUnderWay
    decide +kernel
  exact ⟨amid_severed [0], failed.1, failed.2, by decide +kernel⟩

end Loader

end StyleBlock
