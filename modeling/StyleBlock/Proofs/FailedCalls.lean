import StyleBlock.Proofs.BaseChains

/-!
What a request that fails leaves behind. Every slot belongs to one file, and a file whose block is
stored is loaded no more, so the loads that a request begins fill and empty slots of other files
only. The one exception is the load of a text that is given for such a file: if the block lacks
objects of the blocks it implements, the slot is emptied, and the block that was there is lost.
-/

namespace StyleBlock

/-! What loads own -/

/-- The slot that a load fills or has filled. -/
def Flight.slot? (flight : Flight) : Option BlockId :=
  match flight.phase with
  | .filling slot _ _ => some slot
  | _ => flight.filled?

theorem Flight.slot_of_filled {flight : Flight} {slot : BlockId}
    (filled : flight.filled? = some slot) :
    flight.slot? = some slot := by
  unfold slot?
  split
  · rename_i phase
    rw [filled?, phase] at filled
    cases filled
  · exact filled

def Flight.isGiven (flight : Flight) : Bool := flight.origin ≠ .imported

/-- Whether a load that came to this end may have changed what was stored in a slot. -/
def MayUndo (graph : Graph) (id : BlockId) : Except Error BlockId → Prop
  | .ok _ => True
  | .error error => error.IsIncomplete ∧ graph.block? id = none

/-- Whether the load of a given text may have changed what was stored in a slot. -/
def Flight.Undoes (graph : Graph) (id : BlockId) (flight : Flight) : Prop :=
  flight.origin ≠ .imported ∧
    match flight.phase with
    | .ended outcome => MayUndo graph id outcome
    | .finished outcome => MayUndo graph id outcome
    | .dropped => True
    | _ => False

theorem Flight.Undoes.of_same {graph other : Graph} {id : BlockId} {flight : Flight}
    (undoes : flight.Undoes graph id) (same : other.block? id = graph.block? id) :
    flight.Undoes other id := by
  have outcomes : ∀ outcome, MayUndo graph id outcome → MayUndo other id outcome := by
    intro outcome undoes
    cases outcome with
    | ok slot => exact trivial
    | error error => exact ⟨undoes.1, same.trans undoes.2⟩
  refine ⟨undoes.1, ?_⟩
  have ends := undoes.2
  revert ends
  cases flight.phase with
  | fresh | filling | dropped => exact fun ends => ends
  | ended outcome | finished outcome => exact outcomes outcome

/-- The error that a request is answered with. -/
def Poll.failure? : Poll (Except Error BlockId) → Option Error
  | .ready (.error error) => some error
  | _ => none

theorem Poll.eq_of_failure {poll : Poll (Except Error BlockId)} {error : Error}
    (failure : poll.failure? = some error) : poll = .ready (.error error) := by
  unfold failure? at failure
  split at failure
  · rw [Option.some.inj failure]
  · cases failure

namespace Graph

theorem size_insert (graph : Graph) (id : BlockId) (block : Block) :
    (graph.insert id block).slots.size = graph.slots.size := by
  simp [insert]

theorem size_remove (graph : Graph) (id : BlockId) :
    (graph.remove id).slots.size = graph.slots.size := by
  simp [remove]

end Graph

namespace Loader

variable {Named : FileId → FileId → Prop} {start loader other last first : Loader}
  {flights rest more : List Flight} {flight next : Flight}

/-- A reservation finds the slot of the file, or makes a new one at the end. -/
theorem reserve_cases (loader : Loader) (file : FileId) :
    (loader.reserve file).1.slots = loader.slots ∧
        (loader.reserve file).1.graph = loader.graph ∨
      (loader.reserve file).1.slots = loader.slots ++ [(file, ⟨loader.graph.slots.size⟩)] ∧
        (loader.reserve file).1.graph = loader.graph.reserve.1 := by
  unfold reserve
  split
  · exact .inl ⟨rfl, rfl⟩
  · exact .inr ⟨rfl, rfl⟩

theorem loads_reserve (loader : Loader) (file : FileId) :
    (loader.reserve file).1.loads = loader.loads := by
  unfold reserve
  split <;> rfl

theorem loadOf?_reserve (loader : Loader) (file known : FileId) :
    (loader.reserve file).1.loadOf? known = loader.loadOf? known := by
  rw [loadOf?, loadOf?, loads_reserve]

theorem isSome_loadOf?_setLoad {file known : FileId} (id : TaskId)
    (isKnown : (loader.loadOf? known).isSome = true) :
    ((loader.setLoad file id).loadOf? known).isSome = true := by
  rw [loadOf?_setLoad]
  split
  · rfl
  · exact isKnown

theorem isSome_loadOf?_load {file known : FileId} (isKnown : (loader.loadOf? known).isSome = true) :
    ((loader.load file).1.loadOf? known).isSome = true := by
  obtain ⟨id, found⟩ := Option.isSome_iff_exists.mp isKnown
  rw [loadOf?_load_of_some found, Option.isSome_some]

theorem isSome_loadOf?_publish {origin : Origin} {file known : FileId} (id : TaskId)
    (isKnown : (loader.loadOf? known).isSome = true) :
    ((loader.publish origin file id).loadOf? known).isSome = true := by
  cases origin with
  | imported => exact isKnown
  | given => exact isSome_loadOf?_setLoad id isKnown

/-! While nothing is forgotten -/

/-- Whether every slot belongs to one file, each load fills the slot of its file, and all full slots
were filled by loads that are remembered when they are over. -/
structure IsOrderly (loader : Loader) (flights : List Flight) : Prop where
  below : ∀ entry ∈ loader.slots, entry.2.slot < loader.graph.slots.size
  single : (loader.slots.map Prod.snd).Nodup
  placed : ∀ flight ∈ flights, ∀ slot, flight.slot? = some slot →
    (flight.file, slot) ∈ loader.slots
  filled : ∀ id, loader.graph.isComplete id = true → ∃ flight ∈ flights, flight.filled? = some id
  known : ∀ flight ∈ flights, (flight.origin = .imported ∨
    ∃ outcome, flight.phase = .finished outcome) → (loader.loadOf? flight.file).isSome = true

namespace IsOrderly

theorem reserve (orderly : loader.IsOrderly flights) (file : FileId) :
    (loader.reserve file).1.IsOrderly flights := by
  have complete : ∀ id, (loader.reserve file).1.graph.isComplete id = loader.graph.isComplete id :=
    fun id => by rw [Graph.isComplete, block?_reserve, Graph.isComplete]
  have known : ∀ flight ∈ flights, (flight.origin = .imported ∨
      ∃ outcome, flight.phase = .finished outcome) →
        ((loader.reserve file).1.loadOf? flight.file).isSome = true :=
          fun flight member isKnown => by
    rw [loadOf?_reserve]
    exact orderly.known flight member isKnown
  have filled : ∀ id, (loader.reserve file).1.graph.isComplete id = true →
      ∃ flight ∈ flights, flight.filled? = some id :=
    fun id isStored => orderly.filled id (complete id ▸ isStored)
  rcases reserve_cases loader file with ⟨slots, graph⟩ | ⟨slots, graph⟩
  · exact ⟨by rw [slots, graph]; exact orderly.below, by rw [slots]; exact orderly.single,
      by rw [slots]; exact orderly.placed, filled, known⟩
  · have size : (loader.reserve file).1.graph.slots.size = loader.graph.slots.size + 1 := by
      rw [graph]
      exact Array.size_push none
    refine ⟨fun entry member => ?_, ?_, fun flight member slot isSlot => ?_, filled, known⟩
    · rw [slots] at member
      rw [size]
      rcases List.mem_append.mp member with old | new
      · exact Nat.lt_succ_of_lt (orderly.below entry old)
      · rw [List.mem_singleton.mp new]
        exact Nat.lt_succ_self _
    · rw [slots, List.map_append, List.nodup_append]
      refine ⟨orderly.single, List.nodup_singleton _, fun id old last new same => ?_⟩
      obtain ⟨entry, member, isId⟩ := List.mem_map.mp old
      have below := orderly.below entry member
      rw [isId, same, List.mem_singleton.mp new] at below
      exact Nat.lt_irrefl _ below
    · rw [slots]
      exact List.mem_append_left _ (orderly.placed flight member slot isSlot)

/-- A load that is new and not on its way to a slot. -/
theorem cons (orderly : loader.IsOrderly flights) (slots : other.slots = loader.slots)
    (graph : other.graph = loader.graph)
    (loads : ∀ file, (loader.loadOf? file).isSome = true → (other.loadOf? file).isSome = true)
    (fresh : flight.phase = .fresh)
    (known : flight.origin = .imported → (other.loadOf? flight.file).isSome = true) :
    other.IsOrderly (flight :: flights) := by
  refine ⟨by rw [slots, graph]; exact orderly.below, by rw [slots]; exact orderly.single, ?_,
    fun id isStored => ?_, List.forall_mem_cons.mpr ⟨fun isKnown => ?_, fun later member isKnown =>
      loads _ (orderly.known later member isKnown)⟩⟩
  · rw [slots]
    refine List.forall_mem_cons.mpr ⟨fun slot isSlot => ?_, orderly.placed⟩
    simp [Flight.slot?, Flight.filled?, fresh] at isSlot
  · obtain ⟨later, member, isFilled⟩ := orderly.filled id (graph ▸ isStored)
    exact ⟨later, List.mem_cons_of_mem flight member, isFilled⟩
  · rcases isKnown with imported | ⟨outcome, finished⟩
    · exact known imported
    · rw [fresh] at finished
      cases finished

/-- A load goes on. -/
theorem head (orderly : loader.IsOrderly (flight :: rest)) (slots : other.slots = loader.slots)
    (size : other.graph.slots.size = loader.graph.slots.size)
    (loads : ∀ file, (loader.loadOf? file).isSome = true → (other.loadOf? file).isSome = true)
    (placed : ∀ slot, next.slot? = some slot → (next.file, slot) ∈ loader.slots)
    (filled : ∀ id, other.graph.isComplete id = true →
      loader.graph.isComplete id = true ∨ next.filled? = some id)
    (stays : ∀ id, flight.filled? = some id → next.filled? = some id)
    (file : next.file = flight.file) (origin : next.origin = flight.origin)
    (known : ∀ outcome, next.phase = .finished outcome →
      (other.loadOf? next.file).isSome = true) : other.IsOrderly (next :: rest) := by
  refine ⟨by rw [slots, size]; exact orderly.below, by rw [slots]; exact orderly.single, ?_,
    fun id isStored => ?_, forall_mem_replace orderly.known (fun wasKnown isKnown => ?_)
      fun _ wasKnown isKnown => loads _ (wasKnown isKnown)⟩
  · rw [slots]
    exact forall_mem_replace orderly.placed (fun _ => placed) fun _ same => same
  · rcases filled id isStored with stored | isFilled
    · exact exists_mem_replace (orderly.filled id stored) (stays id) fun _ same => same
    · exact ⟨next, List.mem_cons_self, isFilled⟩
  · rcases isKnown with imported | ⟨outcome, finished⟩
    · rw [file]
      exact loads _ (wasKnown (.inl (origin ▸ imported)))
    · exact known outcome finished

end IsOrderly

theorem isKeptOn_isOrderly (Named : FileId → FileId → Prop) : IsKeptOn Named IsOrderly where
  keep same perm orderly := by
    refine ⟨by rw [same.slots, same.graph]; exact orderly.below,
      by rw [same.slots]; exact orderly.single, fun flight member slot isSlot => ?_,
      fun id isStored => ?_, fun flight member isKnown => ?_⟩
    · rw [same.slots]
      exact orderly.placed flight (perm.symm.subset member) slot isSlot
    · obtain ⟨flight, member, isFilled⟩ := orderly.filled id (same.graph ▸ isStored)
      exact ⟨flight, perm.subset member, isFilled⟩
    · rw [same.loadOf?]
      exact orderly.known flight (perm.symm.subset member) isKnown
  reserve file orderly := orderly.reserve file
  load unknown orderly := by
    refine orderly.cons (slots_load ..) (graph_load ..)
      (fun _ => isSome_loadOf?_load) rfl fun _ => ?_
    rw [loadOf?_load]
    rfl
  begin {loader file _ _} orderly := by
    refine (orderly.reserve file).head rfl rfl (fun _ known => known) (fun slot isSlot => ?_)
      (fun _ => .inl) (fun _ isFilled => ?_) rfl rfl fun _ finished => by cases finished
    · cases isSlot
      exact mem_slots_reserve loader file
    · cases isFilled
  wait _ _ orderly := by
    have placed := orderly.placed _ List.mem_cons_self
    exact orderly.head rfl rfl (fun _ known => known) placed (fun _ => .inl)
      (fun _ isFilled => isFilled) rfl rfl fun _ finished => by cases finished
  arrive _ orderly := by
    have placed := orderly.placed _ List.mem_cons_self
    exact orderly.head rfl rfl (fun _ known => known) placed (fun _ => .inl)
      (fun _ isFilled => isFilled) rfl rfl fun _ finished => by cases finished
  fail error orderly := by
    refine orderly.head rfl rfl (fun _ known => known) (fun _ isSlot => ?_) (fun _ => .inl)
      (fun _ isFilled => isFilled) rfl rfl fun _ finished => by cases finished
    cases isSlot
  store _ _ orderly := by
    have placed := orderly.placed _ List.mem_cons_self
    refine orderly.head rfl (Graph.size_insert ..) (fun _ known => known) placed
      (fun id isStored => ?_) (fun _ isFilled => ?_) rfl rfl fun _ finished => by cases finished
    · obtain ⟨block, stored⟩ := Graph.isComplete_iff.mp isStored
      rcases Graph.block?_insert stored with ⟨same, _⟩ | ⟨_, stored⟩
      · exact .inr (congrArg some same.symm)
      · exact .inl (Graph.isComplete_iff.mpr ⟨block, stored⟩)
    · cases isFilled
  withdraw _ orderly := by
    refine orderly.head rfl (Graph.size_remove ..) (fun _ known => known) (fun _ isSlot => ?_)
      (fun id isStored => ?_) (fun _ isFilled => isFilled) rfl rfl fun _ finished => by
        cases finished
    · cases isSlot
    · obtain ⟨block, stored⟩ := Graph.isComplete_iff.mp isStored
      exact .inl (Graph.isComplete_iff.mpr ⟨block, (Graph.block?_remove stored).2⟩)
  finish {loader file origin outcome _} task orderly := by
    have placed := orderly.placed _ List.mem_cons_self
    have graph := loader.graph_publish origin file task
    refine orderly.head (slots_publish ..) (by rw [graph]) (fun _ => isSome_loadOf?_publish task) ?_
      (fun _ isStored => .inl (graph ▸ isStored)) ?_ rfl rfl fun _ _ => ?_
    · cases outcome <;> exact placed
    · cases outcome <;> exact fun _ isFilled => isFilled
    · cases origin with
      | imported =>
        exact orderly.known ⟨file, .imported, .ended outcome⟩ List.mem_cons_self (.inl rfl)
      | given =>
        rw [publish, loadOf?_setLoad, if_pos rfl]
        rfl
  drop isOpen orderly := by
    refine orderly.head rfl rfl (fun _ known => known) (fun _ isSlot => ?_) (fun _ => .inl)
      (fun _ isFilled => ?_) rfl rfl fun _ finished => by cases finished
    · cases isSlot
    · rw [Flight.filled_of_isOpen isOpen] at isFilled
      cases isFilled
  give file contents defaultName orderly := by
    refine orderly.cons rfl rfl (fun _ known => known) rfl fun imported => ?_
    cases imported

/-! In one call -/

/-- Whether each file with a full slot is loaded, at the beginning of a call. -/
def KnowsStored (first : Loader) : Prop :=
  ∀ entry ∈ first.slots, first.graph.isComplete entry.2 = true →
    (first.loadOf? entry.1).isSome = true

/-- What the loads that began since leave of the blocks that were stored: those of files were not
known then, and fill slots that were empty; no more than so many are of given texts. -/
structure Spares (first : Loader) (count : Nat) (loader : Loader) (flights : List Flight) :
    Prop where
  larger : first.graph.slots.size ≤ loader.graph.slots.size
  later : ∀ entry ∈ loader.slots, entry ∈ first.slots ∨ first.graph.slots.size ≤ entry.2.slot
  loads : ∀ file, (first.loadOf? file).isSome = true → (loader.loadOf? file).isSome = true
  unknown : ∀ flight ∈ flights, flight.origin = .imported → first.loadOf? flight.file = none
  placed : ∀ flight ∈ flights, ∀ slot, flight.slot? = some slot →
    (flight.file, slot) ∈ loader.slots
  givens : (flights.filter Flight.isGiven).length ≤ count
  spared : ∀ id, first.graph.isComplete id = true →
    loader.graph.block? id = first.graph.block? id ∨
      ∃ flight ∈ flights, (flight.file, id) ∈ first.slots ∧ flight.Undoes loader.graph id

namespace Spares

variable {count : Nat}

theorem refl (first : Loader) : first.Spares 0 first [] :=
  ⟨le_refl _, fun _ => .inl, fun _ => id, by simp, by simp, by simp, fun _ _ => .inl rfl⟩

theorem ofGiven (first : Loader) (file : FileId) (contents defaultName : String) :
    first.Spares 1 (first.addTask (.ofFile file (.given contents defaultName))).1
      [⟨file, .given contents defaultName, .fresh⟩] := by
  refine ⟨le_refl _, fun _ => .inl, fun _ => id, fun flight member isFile => ?_,
    fun flight member slot isSlot => ?_, by simp [Flight.isGiven], fun _ _ => .inl rfl⟩
  · rw [List.mem_singleton.mp member] at isFile
    cases isFile
  · rw [List.mem_singleton.mp member] at isSlot
    cases isSlot

theorem reserve (spares : first.Spares count loader flights) (file : FileId) :
    first.Spares count (loader.reserve file).1 flights := by
  have loads : ∀ known, (first.loadOf? known).isSome = true →
      ((loader.reserve file).1.loadOf? known).isSome = true := fun known isKnown => by
    rw [loadOf?_reserve]
    exact spares.loads known isKnown
  have spared : ∀ id, first.graph.isComplete id = true →
      (loader.reserve file).1.graph.block? id = first.graph.block? id ∨ ∃ flight ∈ flights,
        (flight.file, id) ∈ first.slots ∧ flight.Undoes (loader.reserve file).1.graph id := by
    intro id stored
    rcases spares.spared id stored with same | ⟨flight, member, owned, undoes⟩
    · exact .inl ((block?_reserve ..).trans same)
    · exact .inr ⟨flight, member, owned, undoes.of_same (block?_reserve ..)⟩
  rcases reserve_cases loader file with ⟨slots, graph⟩ | ⟨slots, graph⟩
  · exact ⟨by rw [graph]; exact spares.larger, by rw [slots]; exact spares.later, loads,
      spares.unknown, by rw [slots]; exact spares.placed, spares.givens, spared⟩
  · refine ⟨?_, fun entry member => ?_, loads, spares.unknown, fun flight member slot isSlot => ?_,
      spares.givens, spared⟩
    · rw [graph, Graph.reserve, Array.size_push]
      exact spares.larger.trans (Nat.le_succ _)
    · rw [slots] at member
      rcases List.mem_append.mp member with old | new
      · exact spares.later entry old
      · rw [List.mem_singleton.mp new]
        exact .inr spares.larger
    · rw [slots]
      exact List.mem_append_left _ (spares.placed flight member slot isSlot)

/-- A load that begins, of a file that was not known. -/
theorem cons (spares : first.Spares count loader flights) {file : FileId}
    (new : loader.loadOf? file = none) :
    first.Spares count (loader.load file).1 (⟨file, .imported, .fresh⟩ :: flights) := by
  refine ⟨by rw [graph_load]; exact spares.larger, by rw [slots_load]; exact spares.later,
    fun known isKnown => isSome_loadOf?_load (spares.loads known isKnown),
    List.forall_mem_cons.mpr ⟨fun _ => ?_, spares.unknown⟩, ?_, spares.givens, fun id stored => ?_⟩
  · by_contra isKnown
    have known := spares.loads file (Option.isSome_iff_ne_none.mpr isKnown)
    rw [new] at known
    cases known
  · rw [slots_load]
    refine List.forall_mem_cons.mpr ⟨fun slot isSlot => ?_, spares.placed⟩
    cases isSlot
  · rw [graph_load]
    rcases spares.spared id stored with same | ⟨flight, member, owned, undoes⟩
    · exact .inl same
    · exact .inr ⟨flight, List.mem_cons_of_mem _ member, owned, undoes⟩

/-- A load goes on, and changes what was stored only in a slot of its file. -/
theorem head (spares : first.Spares count loader (flight :: rest))
    (slots : other.slots = loader.slots)
    (size : other.graph.slots.size = loader.graph.slots.size)
    (loads : ∀ file, (loader.loadOf? file).isSome = true → (other.loadOf? file).isSome = true)
    (file : next.file = flight.file) (origin : next.origin = flight.origin)
    (placed : ∀ slot, next.slot? = some slot → (next.file, slot) ∈ loader.slots)
    (spared : ∀ id, first.graph.isComplete id = true →
      (other.graph.block? id = loader.graph.block? id ∧
          (flight.Undoes loader.graph id → next.Undoes other.graph id)) ∨
        (next.file, id) ∈ first.slots ∧ next.Undoes other.graph id) :
    first.Spares count other (next :: rest) := by
  refine ⟨by rw [size]; exact spares.larger, by rw [slots]; exact spares.later,
    fun known isKnown => loads known (spares.loads known isKnown),
    forall_mem_replace spares.unknown (fun unknown imported => ?_) fun _ same => same, ?_, ?_,
    fun id stored => ?_⟩
  · rw [file]
    exact unknown (origin ▸ imported)
  · rw [slots]
    exact forall_mem_replace spares.placed (fun _ => placed) fun _ same => same
  · have isGiven : next.isGiven = flight.isGiven := by rw [Flight.isGiven, origin, ← Flight.isGiven]
    have givens := spares.givens
    rw [List.filter_cons] at givens ⊢
    rw [isGiven]
    by_cases given : flight.isGiven = true
    · rwa [if_pos given] at givens ⊢
    · rwa [if_neg given] at givens ⊢
  · rcases spared id stored with ⟨kept, goes⟩ | undone
    · rcases spares.spared id stored with same | undone
      · exact .inl (kept.trans same)
      · exact .inr (exists_mem_replace undone
          (fun ⟨owned, undoes⟩ => ⟨file ▸ owned, goes undoes⟩)
          fun _ ⟨owned, undoes⟩ => ⟨owned, undoes.of_same kept⟩)
    · exact .inr ⟨next, List.mem_cons_self, undone⟩

/-- A load that is on its way to a slot that was full is that of a given text, for the file of the
slot. -/
theorem owns {file : FileId} {origin : Origin} {slot : BlockId} {base : Option BlockId}
    {targets : Multiset FileId}
    (spares : first.Spares count loader (⟨file, origin, .filling slot base targets⟩ :: rest))
    (knows : first.KnowsStored) (stored : first.graph.isComplete slot = true) :
    (file, slot) ∈ first.slots ∧ origin ≠ .imported := by
  have placed :=
    spares.placed ⟨file, origin, .filling slot base targets⟩ List.mem_cons_self slot rfl
  obtain ⟨block, isBlock⟩ := Graph.isComplete_iff.mp stored
  rcases spares.later _ placed with old | new
  · refine ⟨old, fun imported => ?_⟩
    have known := knows _ old stored
    have unknown := spares.unknown ⟨file, origin, .filling slot base targets⟩ List.mem_cons_self
      imported
    dsimp only at known unknown
    rw [unknown] at known
    cases known
  · exact absurd (Graph.slot_lt_of_block isBlock) (Nat.not_lt.mpr new)

end Spares

theorem isKept_spares {count : Nat} (Named : FileId → FileId → Prop) (knows : first.KnowsStored) :
    IsKept Named (Spares first count) where
  keep same perm spares := by
    refine ⟨by rw [same.graph]; exact spares.larger, by rw [same.slots]; exact spares.later,
      fun file isKnown => by rw [same.loadOf?]; exact spares.loads file isKnown,
      fun flight member => spares.unknown flight (perm.symm.subset member),
      fun flight member => ?_, ?_, fun id stored => ?_⟩
    · rw [same.slots]
      exact spares.placed flight (perm.symm.subset member)
    · rw [(perm.symm.filter Flight.isGiven).length_eq]
      exact spares.givens
    · rw [same.graph]
      rcases spares.spared id stored with kept | ⟨flight, member, undone⟩
      · exact .inl kept
      · exact .inr ⟨flight, perm.subset member, undone⟩
  reserve file spares := spares.reserve file
  load new spares := spares.cons new
  begin {loader file _ _} spares := by
    refine (spares.reserve file).head rfl rfl (fun _ known => known) rfl rfl (fun slot isSlot => ?_)
      fun _ _ => .inl ⟨rfl, fun undoes => absurd undoes.2 id⟩
    cases isSlot
    exact mem_slots_reserve loader file
  wait _ _ spares := by
    have placed := spares.placed _ List.mem_cons_self
    exact spares.head rfl rfl (fun _ known => known) rfl rfl placed
      fun _ _ => .inl ⟨rfl, fun undoes => absurd undoes.2 id⟩
  arrive _ spares := by
    have placed := spares.placed _ List.mem_cons_self
    exact spares.head rfl rfl (fun _ known => known) rfl rfl placed
      fun _ _ => .inl ⟨rfl, fun undoes => absurd undoes.2 id⟩
  fail error spares := by
    refine spares.head rfl rfl (fun _ known => known) rfl rfl (fun _ isSlot => ?_)
      fun _ _ => .inl ⟨rfl, fun undoes => absurd undoes.2 id⟩
    cases isSlot
  store {loader file origin slot base rest block declared} _ _ spares := by
    have placed := spares.placed _ List.mem_cons_self
    refine spares.head rfl (Graph.size_insert ..) (fun _ known => known) rfl rfl placed
      fun id stored => ?_
    by_cases isSlot : id = slot
    · subst isSlot
      obtain ⟨owned, given⟩ := spares.owns knows stored
      exact .inr ⟨owned, given, trivial⟩
    · exact .inl
        ⟨Graph.block?_insert_of_ne isSlot block, fun undoes => absurd undoes.2 fun no => no⟩
  withdraw {loader file origin slot base targets rest error} incomplete spares := by
    refine spares.head rfl (Graph.size_remove ..) (fun _ known => known) rfl rfl
      (fun _ isSlot => ?_)
      fun id stored => ?_
    · cases isSlot
    · by_cases isSlot : id = slot
      · subst isSlot
        obtain ⟨owned, given⟩ := spares.owns knows stored
        exact .inr ⟨owned, given, incomplete, Graph.block?_remove_self ..⟩
      · exact .inl ⟨Graph.block?_remove_of_ne isSlot, fun undoes => absurd undoes.2 fun no => no⟩
  finish {loader file origin outcome _} task spares := by
    have placed := spares.placed _ List.mem_cons_self
    refine spares.head (slots_publish ..) (by rw [graph_publish])
      (fun _ => isSome_loadOf?_publish task) rfl rfl ?_
      fun id _ => .inl ⟨by rw [graph_publish], fun undoes => ?_⟩
    · cases outcome <;> exact placed
    · rw [graph_publish]
      exact undoes
  drop {loader flight _} isOpen spares := by
    refine spares.head rfl rfl (fun _ known => known) rfl rfl (fun _ isSlot => ?_)
      fun _ _ => .inl ⟨rfl, fun undoes => ⟨undoes.1, trivial⟩⟩
    cases isSlot

/-! Between calls -/

/-- Whether no load is in progress. -/
def IsStill (loader : Loader) : Prop :=
  ∀ (id : TaskId) (task : Task), loader.tasks[id]? = some task → task.isOver = true

theorem IsStill.isOver (still : loader.IsStill) :
    ∀ flight ∈ loader.flights, flight.phase.IsOver := by
  intro flight member
  obtain ⟨task, inside, own⟩ := List.mem_flatMap.mp member
  obtain ⟨id, found⟩ := List.mem_iff_getElem?.mp inside
  have isOver := still id task (by simpa using found)
  unfold Task.flights at own
  unfold Task.isOver at isOver
  cases stage : task.stage with
  | finished | dropped =>
    rw [stage] at own
    rw [List.mem_singleton.mp own]
    exact trivial
  | fresh | active | advancing =>
    rw [stage] at isOver
    cases isOver

/-- Nobody has to ask for a task that is over. -/
theorem sweep_of_still (still : loader.IsStill) : loader.sweep = loader := by
  unfold sweep
  dsimp only
  generalize (List.range loader.tasks.size).filter _ = lost
  induction lost with
  | nil => rfl
  | cons id rest ih =>
    have same : loader.dropTask id = loader := by
      unfold dropTask
      cases found : loader.tasks[id]? with
      | none => rfl
      | some task =>
        have isOver := still id task found
        have closed : task.isOpen = false := by
          unfold Task.isOver at isOver
          unfold Task.isOpen
          cases stage : task.stage <;> simp_all
        dsimp only
        rw [closed]
        rfl
    rw [List.foldl_cons, same, ih]

/-- Whether no block is stored, no slot is given away and no load is in progress. -/
structure IsVacant (loader : Loader) : Prop where
  graph : loader.graph = .empty
  slots : loader.slots = []
  still : loader.IsStill

theorem isVacant_ofImporter (options : Options) (importer : Importer) :
    (ofImporter options importer).IsVacant :=
  ⟨rfl, rfl, by simp [IsStill, ofImporter]⟩

/-- A reset while no load is in progress starts anew. -/
theorem isVacant_reset (still : loader.IsStill) : loader.reset.IsVacant := by
  unfold reset
  rw [sweep_of_still]
  · exact ⟨rfl, rfl, still⟩
  · exact still

theorem IsVacant.isOrderly (vacant : loader.IsVacant) : loader.IsOrderly [] where
  below := by simp [vacant.slots]
  single := by simp [vacant.slots]
  placed := by simp
  filled id stored := absurd stored (isComplete_of_empty vacant.graph id)
  known := by simp

/-- As long as nothing is forgotten, a file whose block is stored is loaded no more. -/
theorem IsOrderly.knowsStored (orderly : HoldsBeside start.flights IsOrderly loader loader.flights)
    (still : loader.IsStill) : loader.KnowsStored := by
  obtain ⟨new, perm, orderly⟩ := orderly
  intro entry member stored
  obtain ⟨flight, isNew, isFilled⟩ := orderly.filled entry.2 stored
  have isOver := still.isOver flight (perm.symm.subset (List.mem_append_right _ isNew))
  have finished : ∃ outcome, flight.phase = .finished outcome := by
    unfold Flight.filled? at isFilled
    cases phase : flight.phase with
    | finished outcome => exact ⟨outcome, rfl⟩
    | dropped =>
      rw [phase] at isFilled
      cases isFilled
    | fresh | filling | ended =>
      rw [phase] at isOver
      cases isOver
  -- the load that filled the slot is one of the file that the slot belongs to
  have placed := orderly.placed flight isNew entry.2 (Flight.slot_of_filled isFilled)
  have same : (flight.file, entry.2) = entry :=
    List.inj_on_of_nodup_map orderly.single placed member rfl
  rw [← same]
  exact orderly.known flight isNew (.inr finished)

/-- Loads of tasks that are kept come first. -/
theorem flights_eq_append (kept : ∀ (id : TaskId) (task : Task), loader.tasks[id]? = some task →
    ∃ again, last.tasks[id]? = some again ∧ again.flights = task.flights) :
    last.flights =
      loader.flights ++ (last.tasks.toList.drop loader.tasks.size).flatMap Task.flights := by
  have front : (last.tasks.toList.take loader.tasks.size).map Task.flights =
      loader.tasks.toList.map Task.flights := by
    apply List.ext_getElem?
    intro index
    rw [List.getElem?_map, List.getElem?_map, List.getElem?_take, Array.getElem?_toList,
      Array.getElem?_toList]
    split
    · rename_i inside
      obtain ⟨again, found, same⟩ := kept index _ (Array.getElem?_eq_getElem inside)
      rw [found, Array.getElem?_eq_getElem inside, Option.map_some, Option.map_some, same]
    · rename_i outside
      rw [Array.getElem?_eq_none (Nat.not_lt.mp outside)]
  have whole := congrArg (List.flatMap Task.flights)
    (List.take_append_drop loader.tasks.size last.tasks.toList)
  rw [List.flatMap_append, List.flatMap_def, front, ← List.flatMap_def] at whole
  exact whole.symm

/-- A call that is made while no load is in progress, and what its loads leave of the stored
blocks. -/
theorem exists_spares {count : Nat} {more : List Flight} (still : loader.IsStill)
    (knows : loader.KnowsStored) (spares : loader.Spares count first more)
    (begins : first.flights = loader.flights ++ more)
    (proceeds : Proceeds Named first [] last []) :
    ∃ new, last.flights.Perm (loader.flights ++ new) ∧ loader.Spares count last new := by
  have begun : HoldsBeside loader.flights (Spares loader count) first (first.flights ++ []) :=
    ⟨more, by rw [begins, List.append_nil], spares⟩
  have ends := proceeds.keeps ((isKept_spares Named knows).beside still.isOver) begun
  rwa [List.append_nil] at ends

/-- A given text makes one load, and that is the load that ends with the answer. -/
theorem given_unique {contents defaultName : String} {file : FileId} {new : List Flight}
    {outcome : Except Error BlockId} {task : Task} {count : Nat} (still : loader.IsStill)
    (proceeds : Proceeds Named (loader.addTask (.ofFile file (.given contents defaultName))).1 []
      last [])
    (found : last.tasks[loader.tasks.size]? = some task) (finished : task.stage = .finished outcome)
    (perm : last.flights.Perm (loader.flights ++ new)) (spares : loader.Spares count last new)
    (single : count ≤ 1) (member : flight ∈ new) (given : flight.origin ≠ .imported) :
    flight = ⟨file, .given contents defaultName, .finished outcome⟩ := by
  -- the tasks of the past are over, so the new loads are those of the tasks behind them
  have kept : ∀ (id : TaskId) (task : Task), loader.tasks[id]? = some task →
      ∃ again, last.tasks[id]? = some again ∧ again.flights = task.flights := by
    intro id task found
    obtain ⟨again, foundAgain, isFile, isOrigin, stays⟩ :=
      proceeds.exists_task (getElem?_push_of_some found _)
    exact ⟨again, foundAgain, by
      rw [Task.flights, isFile, isOrigin, stays (still id task found), ← Task.flights]⟩
  have later : ((last.tasks.toList.drop loader.tasks.size).flatMap Task.flights).Perm new := by
    apply (List.perm_append_left_iff loader.flights).mp
    rwa [← flights_eq_append kept]
  have added : (loader.addTask (.ofFile file (.given contents defaultName))).1.tasks[
      loader.tasks.size]? = some (.ofFile file (.given contents defaultName)) := by simp [addTask]
  obtain ⟨again, foundAgain, isFile, isOrigin, _⟩ := proceeds.exists_task added
  obtain rfl : task = again := Option.some.inj (found.symm.trans foundAgain)
  have own : (⟨file, .given contents defaultName, .finished outcome⟩ : Flight) ∈ new := by
    apply later.subset
    refine List.mem_flatMap.mpr ⟨task, ?_, ?_⟩
    · apply List.mem_of_getElem? (i := 0)
      rw [List.getElem?_drop, Nat.add_zero, Array.getElem?_toList, found]
    · rw [Task.flights, finished, isFile, isOrigin]
      exact List.mem_singleton_self _
  have both : ∀ other ∈ new, other.origin ≠ .imported → other ∈ new.filter Flight.isGiven :=
    fun other isNew isGiven => List.mem_filter.mpr ⟨isNew, decide_eq_true isGiven⟩
  have one := both flight member given
  have another := both _ own fun imported => by cases imported
  have givens := spares.givens.trans single
  cases filtered : new.filter Flight.isGiven with
  | nil =>
    rw [filtered] at one
    cases one
  | cons first rest =>
    rw [filtered] at one another givens
    obtain rfl : rest = [] :=
      List.eq_nil_of_length_eq_zero (by rw [List.length_cons] at givens; omega)
    exact (List.mem_singleton.mp one).trans (List.mem_singleton.mp another).symm

/-- A request that fails while no load is in progress leaves all stored blocks as they were, with
one exception: a text that is given for a file whose block is stored, and that lacks objects of the
blocks it implements, leaves the slot of the file empty. -/
theorem stored_of_failed (vacant : start.IsVacant)
    (continues : Continues (fun _ _ => True) start loader) (still : loader.IsStill)
    {request : Request} {polls : Nat} {error : Error}
    (failed : loader.serve request polls = (last, .ready (.error error))) {id : BlockId}
    {block : Block}
    (stored : loader.graph.block? id = some block) :
    last.graph.block? id = some block ∨ ∃ contents file defaultName,
      request = .source contents file defaultName ∧ (file, id) ∈ loader.slots ∧
        error.IsIncomplete ∧ last.graph.block? id = none := by
  have orderly := (continues.keeps ((isKeptOn_isOrderly _).beside vacant.still.isOver)
    (isNamed_any start) ⟨[], by rw [List.append_nil], vacant.isOrderly⟩).2
  have knows := IsOrderly.knowsStored orderly still
  have full := Graph.isComplete_iff.mpr ⟨block, stored⟩
  cases isImport : request.isImport with
  | true =>
    obtain ⟨new, _, spares⟩ := exists_spares still knows (Spares.refl loader) (by simp)
      (proceeds_serve (isNamed_any loader) isImport failed)
    rcases spares.spared id full with same | ⟨flight, isNew, _, undoes⟩
    · exact .inl (same.trans stored)
    · have given : flight ∈ new.filter Flight.isGiven :=
        List.mem_filter.mpr ⟨isNew, decide_eq_true undoes.1⟩
      rw [List.eq_nil_of_length_eq_zero (Nat.le_zero.mp spares.givens)] at given
      cases given
  | false =>
    cases request with
    | block | relative | path => cases isImport
    | source contents file defaultName =>
      obtain ⟨proceeds, task, found, finished⟩ := proceeds_serve_source (isNamed_any loader) failed
      obtain ⟨new, perm, spares⟩ := exists_spares still knows
        (Spares.ofGiven loader file contents defaultName) (flights_addTask ..) proceeds
      rcases spares.spared id full with same | ⟨flight, isNew, owned, undoes⟩
      · exact .inl (same.trans stored)
      · have isLoad :=
          given_unique still proceeds found finished perm spares (le_refl 1) isNew undoes.1
        rw [isLoad] at owned undoes
        exact .inr ⟨contents, file, defaultName, rfl, owned, undoes.2.1, undoes.2.2⟩

/-! One block -/

/-- The loader that has loaded one of the files. -/
def baseLoaded : Loader := (ofImporter .default disowned.importer).serveAll [.block "base.css"] 1

theorem continues_baseLoaded :
    Continues (fun _ _ => True) (ofImporter .default disowned.importer) baseLoaded :=
  continues_serveAll ..

theorem isStill_baseLoaded : baseLoaded.IsStill := by
  have isOver : baseLoaded.tasks.all Task.isOver = true := by decide +kernel
  intro id task found
  exact Array.all_eq_true'.mp isOver task (Array.mem_of_getElem? found)

/-- The text refers to the interface, and to a file that is missing. -/
def dangling : String :=
  "@block-reference interface from \"interface.css\"; @block-reference x from \"x.css\"; " ++
    ".root \x7b implements: interface; \x7d"

/-- With a reference that fails the text leaves the block as it was, although the load of the
interface has stored a block. -/
theorem dangling_spares_base :
    ((baseLoaded.serve (.source dangling "base.css" "base") 1).2.failure? =
        some (.unreadable (.load (.noSuchFile "x.css")))) ∧
      (baseLoaded.serve (.source dangling "base.css" "base") 1).1.graph.isComplete ⟨1⟩ = true ∧
        (baseLoaded.serve (.source dangling "base.css" "base") 1).1.graph.block? ⟨0⟩ =
          baseLoaded.graph.block? ⟨0⟩ := by
  have full : baseLoaded.graph.isComplete ⟨0⟩ = true := by decide +kernel
  have failed : (baseLoaded.serve (.source dangling "base.css" "base") 1).2.failure? =
        some (.unreadable (.load (.noSuchFile "x.css"))) ∧
      (baseLoaded.serve (.source dangling "base.css" "base") 1).1.graph.isComplete ⟨1⟩ = true := by
    decide +kernel
  obtain ⟨failure, loaded⟩ := failed
  obtain ⟨block, stored⟩ := Graph.isComplete_iff.mp full
  refine ⟨failure, loaded, ?_⟩
  rcases stored_of_failed (isVacant_ofImporter .default disowned.importer) continues_baseLoaded
    isStill_baseLoaded (Prod.ext rfl (Poll.eq_of_failure failure)) stored with same | lost
  · exact same.trans stored.symm
  · obtain ⟨_, _, _, _, _, ⟨_, _, incomplete⟩, _⟩ := lost
    cases incomplete

/-- With an object of the interface missing the text takes the block out of its slot. -/
theorem lacking_loses_base :
    Arises (fun _ _ => True) baseLoaded ∧ baseLoaded.IsStill ∧
      baseLoaded.graph.isComplete ⟨0⟩ = true ∧
        ((baseLoaded.serve (.source lacking "base.css" "base") 1).2.failure? =
          some (.misuse (.header (.missingObjects [".needed"] "interface.css")) none)) ∧
          (baseLoaded.serve (.source lacking "base.css" "base") 1).1.graph.isComplete ⟨0⟩ = false :=
  ⟨(Reachable.start .default disowned.importer).arises.continues continues_baseLoaded,
    isStill_baseLoaded, by decide +kernel⟩

end Loader

end StyleBlock
