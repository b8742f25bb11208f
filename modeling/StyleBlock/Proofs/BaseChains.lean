import StyleBlock.Proofs.Ancestors
import StyleBlock.Proofs.BlockNames
import StyleBlock.Proofs.FlightRuns

/-!
The chains of all stored blocks. A block is stored when its base is complete, so as long as no slot
is filled a second time and none of those filled is emptied again, every chain comes to a block that
extends nothing. A text that is given for a file whose block is stored breaks this: the new block
may extend one that extends the old block, and if it lacks objects of its interfaces, the slot is
left empty.
-/

namespace StyleBlock

namespace Graph

variable {graph other : Graph} {id slot : BlockId} {block : Block}

/-- A block whose base is not stored has no chain. -/
theorem not_chain_of_vacant {base : BlockId}
    (extended : (graph.block? id).bind Block.base? = some base)
    (vacant : graph.isComplete base = false) : ¬ ∃ blocks, graph.Chain id blocks := by
  intro ⟨blocks, chain⟩
  obtain ⟨rest, above, _⟩ := chain.above extended
  have first : base ∈ rest := by cases above <;> exact List.mem_cons_self
  rw [above.isComplete base first] at vacant
  cases vacant

/-- Two blocks that extend each other have no chain: it would be shorter than itself. -/
theorem not_chain_of_mutual {base : BlockId}
    (extended : (graph.block? id).bind Block.base? = some base)
    (back : (graph.block? base).bind Block.base? = some id) :
      ¬ ∃ blocks, graph.Chain id blocks := by
  have never : ∀ size (blocks : List BlockId), blocks.length = size → ¬ graph.Chain id blocks := by
    intro size
    induction size using Nat.strongRecOn with
    | ind size ih =>
      intro blocks isSize chain
      obtain ⟨between, above, shorter⟩ := chain.above extended
      obtain ⟨rest, again, shortest⟩ := above.above back
      exact ih rest.length (by omega) rest rfl again
  intro ⟨blocks, chain⟩
  exact never blocks.length blocks rfl chain

/-- Whether every stored block has a chain, on which no block comes twice. -/
def HasChains (graph : Graph) : Prop :=
  ∀ id, graph.isComplete id = true → ∃ blocks, graph.Chain id blocks ∧ blocks.Nodup

theorem HasChains.of_same (chains : graph.HasChains)
    (same : ∀ id, other.block? id = graph.block? id) : other.HasChains := by
  intro id stored
  rw [isComplete, same] at stored
  obtain ⟨blocks, chain, single⟩ := chains id stored
  exact ⟨blocks, chain.of_kept fun member _ => same member, single⟩

theorem block?_insert_of_ne (different : id ≠ slot) (block : Block) :
    (graph.insert slot block).block? id = graph.block? id := by
  unfold block? insert
  dsimp only
  rw [Array.getElem?_setIfInBounds, if_neg]
  intro same
  exact different (by cases id; cases slot; exact congrArg BlockId.mk same.symm)

theorem block?_remove_of_ne (different : id ≠ slot) :
    (graph.remove slot).block? id = graph.block? id := by
  unfold block? remove
  dsimp only
  rw [Array.getElem?_setIfInBounds, if_neg]
  intro same
  exact different (by cases id; cases slot; exact congrArg BlockId.mk same.symm)

theorem block?_remove_self (graph : Graph) (slot : BlockId) :
    (graph.remove slot).block? slot = none := by
  by_contra full
  obtain ⟨block, kept⟩ := Option.ne_none_iff_exists'.mp full
  exact (block?_remove kept).1 rfl

/-- An empty slot may be emptied again. -/
theorem block?_remove_of_vacant (vacant : graph.block? slot = none) (id : BlockId) :
    (graph.remove slot).block? id = graph.block? id := by
  by_cases same : id = slot
  · rw [same, vacant, block?_remove_self]
  · exact block?_remove_of_ne same

/-- A block in a slot that was empty carries on the chain of its base. -/
theorem HasChains.insert (chains : graph.HasChains) (vacant : graph.isComplete slot = false)
    (based : ∀ base, block.base? = some base → graph.isComplete base = true) :
    (graph.insert slot block).HasChains := by
  have outside :
      ∀ {id : BlockId} {blocks : List BlockId}, graph.Chain id blocks → slot ∉ blocks := by
    intro id blocks chain member
    rw [chain.isComplete slot member] at vacant
    cases vacant
  have carried : ∀ {id : BlockId} {blocks : List BlockId}, graph.Chain id blocks →
      (graph.insert slot block).Chain id blocks := by
    intro id blocks chain
    apply chain.of_kept
    intro member isMember
    apply block?_insert_of_ne
    intro same
    exact outside chain (same ▸ isMember)
  intro id stored
  obtain ⟨found, known⟩ := isComplete_iff.mp stored
  rcases block?_insert known with ⟨rfl, rfl⟩ | ⟨_, before⟩
  · cases extended : found.base? with
    | none => exact ⟨[id], .plain known extended, List.nodup_singleton id⟩
    | some base =>
      obtain ⟨blocks, chain, single⟩ := chains base (based base extended)
      exact ⟨id :: blocks, .extending known extended (carried chain),
        List.nodup_cons.mpr ⟨outside chain, single⟩⟩
  · obtain ⟨blocks, chain, single⟩ := chains id (isComplete_iff.mpr ⟨found, before⟩)
    exact ⟨blocks, carried chain, single⟩

end Graph

/-! Which slots have been filled -/

/-- The slots that loads have filled, each as often as it was filled. -/
def filledBy (flights : List Flight) : List BlockId := flights.filterMap Flight.filled?

/-- Whether no slot has been filled twice besides those filled before, and all that have been filled
are still full. -/
def Graph.FillsOnce (graph : Graph) (before filled : List BlockId) : Prop :=
  (filled.diff before).Nodup ∧ ∀ slot ∈ filled.diff before, graph.isComplete slot = true

theorem Graph.fillsOnce_iff {graph : Graph} {before filled : List BlockId} :
    graph.FillsOnce before filled ↔ ∀ slot, filled.count slot ≤ before.count slot + 1 ∧
      (before.count slot < filled.count slot → graph.isComplete slot = true) := by
  have counts : ∀ slot, (filled.diff before).count slot = filled.count slot - before.count slot :=
    fun slot => List.count_diff slot filled before
  have isNew : ∀ slot, slot ∈ filled.diff before ↔ before.count slot < filled.count slot := by
    intro slot
    rw [← List.count_pos_iff, counts]
    omega
  rw [FillsOnce, List.nodup_iff_count_le_one]
  constructor
  · intro ⟨once, kept⟩ slot
    have most := once slot
    rw [counts] at most
    exact ⟨by omega, fun more => kept slot ((isNew slot).mpr more)⟩
  · intro fills
    refine ⟨fun slot => ?_, fun slot isFilled => (fills slot).2 ((isNew slot).mp isFilled)⟩
    rw [counts]
    have most := (fills slot).1
    omega

namespace Loader

/-- What the loads account for: every full slot has been filled since, and loads on their way have
no base yet. As long as slots are filled once, all stored blocks have chains. -/
structure HasLinked (before : List BlockId) (loader : Loader) (flights : List Flight) : Prop where
  grown : ∀ slot, before.count slot ≤ (filledBy flights).count slot
  stored : ∀ slot, loader.graph.isComplete slot = true →
    before.count slot < (filledBy flights).count slot
  plain : ∀ flight ∈ flights, ∀ slot base targets,
    flight.phase = .filling slot base targets → base = none
  chains : loader.graph.FillsOnce before (filledBy flights) → loader.graph.HasChains

namespace HasLinked

variable {before : List BlockId} {loader other : Loader} {flights more rest : List Flight}

/-- Steps that fill and empty no slot. -/
theorem keep (linked : HasLinked before loader flights)
    (filled : (filledBy more).Perm (filledBy flights))
    (same : ∀ id, other.graph.block? id = loader.graph.block? id)
    (plain : ∀ flight ∈ more, ∀ slot base targets,
      flight.phase = .filling slot base targets → base = none) : HasLinked before other more := by
  have complete : ∀ id, other.graph.isComplete id = loader.graph.isComplete id := fun id => by
    rw [Graph.isComplete, same, Graph.isComplete]
  refine ⟨fun slot => ?_, fun slot isStored => ?_, plain, fun once => ?_⟩
  · rw [filled.count_eq]
    exact linked.grown slot
  · rw [filled.count_eq]
    exact linked.stored slot (complete slot ▸ isStored)
  · refine (linked.chains (Graph.fillsOnce_iff.mpr fun slot => ?_)).of_same same
    have fills := Graph.fillsOnce_iff.mp once slot
    rwa [filled.count_eq, complete] at fills

/-- A load goes on. -/
theorem head (linked : HasLinked before loader (flight :: rest)) {next : Flight}
    (filled : next.filled? = flight.filled?)
    (same : ∀ id, other.graph.block? id = loader.graph.block? id)
    (plain : ∀ slot base targets, next.phase = .filling slot base targets → base = none) :
    HasLinked before other (next :: rest) := by
  refine linked.keep ?_ same (forall_mem_replace linked.plain (fun _ => plain) fun _ same => same)
  rw [filledBy, filledBy, List.filterMap_cons, List.filterMap_cons, filled]

/-- A block fills its slot when its base is complete. -/
theorem store {file : FileId} {origin : Origin} {slot : BlockId} {base : Option BlockId}
    {targets : Multiset FileId} {block : Block}
    (linked : HasLinked before loader (⟨file, origin, .filling slot base targets⟩ :: rest))
    (based : ∀ next, block.base? = some next →
      base = some next ∨ loader.graph.isComplete next = true) :
    HasLinked before { loader with graph := loader.graph.insert slot block }
      (⟨file, origin, .ended (.ok slot)⟩ :: rest) := by
  have counts : ∀ id, (filledBy (⟨file, origin, .ended (.ok slot)⟩ :: rest)).count id =
      (filledBy (⟨file, origin, .filling slot base targets⟩ :: rest)).count id +
        if slot = id then 1 else 0 := by
    intro id
    simp only [filledBy, List.filterMap_cons, Flight.filled?, List.count_cons, beq_iff_eq]
  have split : ∀ id, (loader.graph.insert slot block).isComplete id = true →
      id = slot ∨ loader.graph.isComplete id = true := by
    intro id isStored
    obtain ⟨found, known⟩ := Graph.isComplete_iff.mp isStored
    rcases Graph.block?_insert known with ⟨same, _⟩ | ⟨_, known⟩
    · exact .inl same
    · exact .inr (Graph.isComplete_iff.mpr ⟨found, known⟩)
  refine ⟨fun id => ?_, fun id isStored => ?_,
    forall_mem_replace linked.plain (fun _ _ _ _ phase => by cases phase) fun _ same => same,
    fun once => ?_⟩
  · rw [counts]
    exact (linked.grown id).trans (Nat.le_add_right _ _)
  · rw [counts]
    rcases split id isStored with same | isStored
    · rw [if_pos same.symm]
      exact Nat.lt_succ_of_le (linked.grown id)
    · exact (linked.stored id isStored).trans_le (Nat.le_add_right _ _)
  · have fills := Graph.fillsOnce_iff.mp once
    -- a full slot was filled before, and would be filled a second time now
    have vacant : loader.graph.isComplete slot = false := by
      by_contra isStored
      have filled := linked.stored slot (by simpa using isStored)
      have most := (fills slot).1
      rw [counts, if_pos rfl] at most
      omega
    have onceBefore : loader.graph.FillsOnce before
        (filledBy (⟨file, origin, .filling slot base targets⟩ :: rest)) := by
      refine Graph.fillsOnce_iff.mpr fun id => ?_
      obtain ⟨most, kept⟩ := fills id
      rw [counts] at most kept
      refine ⟨by omega, fun filled => ?_⟩
      rcases split id (kept (by omega)) with same | isStored
      · rw [if_pos same.symm] at most
        omega
      · exact isStored
    refine (linked.chains onceBefore).insert vacant fun next extended => ?_
    rcases based next extended with early | isStored
    · rw [linked.plain _ List.mem_cons_self slot base targets rfl] at early
      cases early
    · exact isStored

/-- As long as what was filled stays, a slot is emptied only if it is empty. -/
theorem withdraw {file : FileId} {origin : Origin} {slot : BlockId} {base : Option BlockId}
    {targets : Multiset FileId} {error : Error}
    (linked : HasLinked before loader (⟨file, origin, .filling slot base targets⟩ :: rest)) :
    HasLinked before { loader with graph := loader.graph.remove slot }
      (⟨file, origin, .ended (.error error)⟩ :: rest) := by
  have emptied : (loader.graph.remove slot).isComplete slot = false := by
    rw [Graph.isComplete, Graph.block?_remove_self]
    rfl
  have kept : HasLinked before loader (⟨file, origin, .ended (.error error)⟩ :: rest) :=
    linked.head rfl (fun _ => rfl) fun _ _ _ phase => by cases phase
  refine ⟨kept.grown, fun id isStored => ?_, kept.plain, fun once => ?_⟩
  · obtain ⟨block, stored⟩ := Graph.isComplete_iff.mp isStored
    exact kept.stored id (Graph.isComplete_iff.mpr ⟨block, (Graph.block?_remove stored).2⟩)
  · -- a full slot was filled by a load, and would have to stay full
    have vacant : loader.graph.isComplete slot = false := by
      by_contra isStored
      have full := (Graph.fillsOnce_iff.mp once slot).2 (kept.stored slot (by simpa using isStored))
      rw [emptied] at full
      cases full
    rw [Graph.isComplete, Option.isSome_eq_false_iff, Option.isNone_iff_eq_none] at vacant
    have same := Graph.block?_remove_of_vacant vacant
    exact (kept.keep (.refl _) same kept.plain).chains once

end HasLinked

variable {Named : FileId → FileId → Prop} {start loader : Loader} {held : List Flight}

theorem block?_reserve (loader : Loader) (file : FileId) (id : BlockId) :
    (loader.reserve file).1.graph.block? id = loader.graph.block? id := by
  unfold reserve
  split
  · rfl
  · exact Graph.block?_reserve loader.graph id

theorem isKeptOn_hasLinked (Named : FileId → FileId → Prop) (before : List BlockId) :
    IsKeptOn Named (HasLinked before) where
  keep same perm linked := linked.keep (perm.symm.filterMap _) (fun id => by rw [same.graph])
    fun flight member => linked.plain flight (perm.symm.subset member)
  reserve file linked := linked.keep (.refl _) (block?_reserve _ file) linked.plain
  load new linked := by
    refine linked.keep (.refl _) (fun id => by rw [graph_load])
      (List.forall_mem_cons.mpr ⟨fun _ _ _ phase => ?_, linked.plain⟩)
    cases phase
  begin linked := linked.head rfl (block?_reserve _ _) fun _ _ _ phase => by
    cases phase
    rfl
  wait _ _ linked := linked.head rfl (fun _ => rfl) fun _ _ _ phase => by
    cases phase
    exact linked.plain _ List.mem_cons_self _ _ _ rfl
  arrive _ linked := linked.head rfl (fun _ => rfl) fun _ _ _ phase => by
    cases phase
    exact linked.plain _ List.mem_cons_self _ _ _ rfl
  fail error linked := linked.head rfl (fun _ => rfl) nofun
  store based _ linked :=
    (linked.store based).keep (.refl _) (fun _ => rfl) (linked.store based).plain
  withdraw _ linked := linked.withdraw
  finish {_ _ _ outcome _} id linked := by
    refine linked.head ?_ (fun _ => by rw [graph_publish]) nofun
    cases outcome <;> rfl
  drop isOpen linked := linked.head (Flight.filled_of_isOpen isOpen).symm (fun _ => rfl) nofun
  give file contents defaultName linked := by
    refine linked.keep (.refl _) (fun _ => rfl)
      (List.forall_mem_cons.mpr ⟨fun _ _ _ phase => ?_, linked.plain⟩)
    cases phase

theorem isComplete_of_empty (empty : loader.graph = .empty) (id : BlockId) :
    loader.graph.isComplete id ≠ true := by
  rw [empty]
  exact Bool.false_ne_true

/-- Nothing is stored in an empty graph, so nothing needs a chain. -/
theorem hasLinked_of_empty (empty : loader.graph = .empty) {flights : List Flight}
    (plain : ∀ flight ∈ flights, ∀ slot base targets,
      flight.phase = .filling slot base targets → base = none) {before : List BlockId}
    (grown : ∀ slot, before.count slot ≤ (filledBy flights).count slot) :
    HasLinked before loader flights :=
  ⟨grown, fun id isStored => absurd isStored (isComplete_of_empty empty id), plain,
    fun _ id isStored => absurd isStored (isComplete_of_empty empty id)⟩

/-- As long as no slot has been filled twice since the graph was empty, and all that have been
filled are full, every stored block has a chain: what it extends, what that extends, and so on are
stored blocks, none of them comes twice, and the last of them extends nothing. This holds in every
state, also in the middle of a poll, and whatever had begun before. -/
theorem exists_chain (arisen : Arises (fun _ _ => True) start) (empty : start.graph = .empty)
    (since : Since (fun _ _ => True) start loader held)
    (once : loader.graph.FillsOnce (filledBy start.flights) (filledBy (loader.flights ++ held)))
    {id : BlockId} {block : Block} (stored : loader.graph.block? id = some block) :
    ∃ blocks, loader.graph.Chain id blocks ∧ blocks.Nodup ∧
      blocks.length ≤ loader.graph.slots.size := by
  obtain ⟨named, early⟩ := arisen.keeps (isKeptOn_hasLinked _ [])
    (fun loader blank _ => hasLinked_of_empty blank.graph (by simp) (by simp))
    fun linked blank _ => hasLinked_of_empty blank.graph linked.plain linked.grown
  have linked := since.keeps (isKeptOn_hasLinked _ (filledBy start.flights)) named
    (hasLinked_of_empty empty early.plain fun _ => le_refl _)
  obtain ⟨blocks, chain, single⟩ :=
    linked.chains once id (Graph.isComplete_iff.mpr ⟨block, stored⟩)
  exact ⟨blocks, chain, single, chain.length_le_slots single⟩

/-- A file that extends another one. -/
def heir : MemoryFiles where
  contents := [("base.css", ".root \x7b color: red; \x7d"),
    ("heir.css", "@block-reference base from \"base.css\"; .root \x7b extends: base; \x7d")]
  delays := []

/-- The loader that has loaded the file. -/
def heirLoaded : Loader := (ofImporter .default heir.importer).serveAll [.block "heir.css"] 1

/-- Both files are forgotten and loaded again. -/
theorem heir_has_chain :
    (((heirLoaded.reset.serveAll [.block "heir.css"] 1).graph.block? ⟨0⟩).bind Block.base? =
        some ⟨1⟩) ∧
      ∃ blocks, (heirLoaded.reset.serveAll [.block "heir.css"] 1).graph.Chain ⟨0⟩ blocks ∧
        blocks.Nodup ∧
          blocks.length ≤ (heirLoaded.reset.serveAll [.block "heir.css"] 1).graph.slots.size := by
  have arisen : Arises (fun _ _ => True) heirLoaded.reset :=
    ((Reachable.start .default heir.importer).arises.continues (continues_serveAll ..)).reset
  have extended : ((heirLoaded.reset.serveAll [.block "heir.css"] 1).graph.block? ⟨0⟩).bind
      Block.base? = some ⟨1⟩ := by decide +kernel
  obtain ⟨block, stored, _⟩ := Option.bind_eq_some_iff.mp extended
  refine ⟨extended, exists_chain arisen ?_ (continues_serveAll ..).since ?_ stored⟩
  · exact congrArg Graph.mk (Array.eq_empty_of_size_eq_zero (by decide +kernel))
  · unfold Graph.FillsOnce
    decide +kernel

/-- A file that extends another one, and the interface of a text that is given for the other one. -/
def disowned : MemoryFiles where
  contents := [("base.css", ".root \x7b color: red; \x7d"),
    ("heir.css", "@block-reference base from \"base.css\"; .root \x7b extends: base; \x7d"),
    ("interface.css", ".needed \x7b color: red; \x7d")]
  delays := []

/-- The file is loaded. Then a text is given for the one that it extends. -/
def disownedBy (text : String) : Loader :=
  (ofImporter .default disowned.importer).serveAll
    [.block "heir.css", .source text "base.css" "base"] 1

/-- The text lacks an object of its interface, so the block that is extended is lost. -/
def lacking : String :=
  "@block-reference interface from \"interface.css\"; .root \x7b implements: interface; \x7d"

/-- The text extends the file that extends the block. -/
def circular : String :=
  "@block-reference heir from \"heir.css\"; .root \x7b extends: heir; \x7d"

/-- A text for a file whose block is stored ends the chains that go through it: with a failure its
slot is empty, and without one the new block may extend a block that extends it. -/
theorem disowned_has_no_chain :
    (∀ text, Arises (fun _ _ => True) (disownedBy text)) ∧
      ((disownedBy lacking).graph.isComplete ⟨0⟩ = true ∧
        ¬ ∃ blocks, (disownedBy lacking).graph.Chain ⟨0⟩ blocks) ∧
      ((disownedBy circular).graph.isComplete ⟨0⟩ = true ∧
        ¬ ∃ blocks, (disownedBy circular).graph.Chain ⟨0⟩ blocks) := by
  have lost : (disownedBy lacking).graph.isComplete ⟨0⟩ = true ∧
      ((disownedBy lacking).graph.block? ⟨0⟩).bind Block.base? = some ⟨1⟩ ∧
        (disownedBy lacking).graph.isComplete ⟨1⟩ = false := by decide +kernel
  have closed : (disownedBy circular).graph.isComplete ⟨0⟩ = true ∧
      ((disownedBy circular).graph.block? ⟨0⟩).bind Block.base? = some ⟨1⟩ ∧
        ((disownedBy circular).graph.block? ⟨1⟩).bind Block.base? = some ⟨0⟩ := by decide +kernel
  exact ⟨fun text =>
      (Reachable.start .default disowned.importer).arises.continues (continues_serveAll ..),
    ⟨lost.1, Graph.not_chain_of_vacant lost.2.1 lost.2.2⟩,
    ⟨closed.1, Graph.not_chain_of_mutual closed.2.1 closed.2.2⟩⟩

end Loader

end StyleBlock
