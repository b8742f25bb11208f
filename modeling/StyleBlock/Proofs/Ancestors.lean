import StyleBlock.Proofs.Lookup

/-!
Chains of extended blocks, and what is found along them. A reference leads to the first block of a
chain that defines its object; the objects that an object overrides come from the blocks behind its
own.
-/

namespace StyleBlock

namespace Graph

variable {graph other : Graph} {id : BlockId} {block : Block}

/-- A chain of stored blocks, each of them extended by the one before it. The last one extends
nothing. -/
inductive Chain (graph : Graph) : BlockId → List BlockId → Prop
  | plain {id : BlockId} {block : Block} (stored : graph.block? id = some block)
      (ends : block.base? = none) : Chain graph id [id]
  | extending {id base : BlockId} {block : Block} {rest : List BlockId}
      (stored : graph.block? id = some block) (extended : block.base? = some base)
      (above : Chain graph base rest) : Chain graph id (id :: rest)

theorem isComplete_iff : graph.isComplete id = true ↔ ∃ block, graph.block? id = some block := by
  rw [isComplete, Option.isSome_iff_exists]

theorem Chain.isComplete {blocks : List BlockId} (chain : graph.Chain id blocks) :
    ∀ member ∈ blocks, graph.isComplete member = true := by
  induction chain with
  | plain stored ends =>
    intro member isMember
    rw [List.mem_singleton.mp isMember]
    exact isComplete_iff.mpr ⟨_, stored⟩
  | extending stored extended above ih =>
    intro member isMember
    rcases List.mem_cons.mp isMember with same | isMember
    · rw [same]
      exact isComplete_iff.mpr ⟨_, stored⟩
    · exact ih member isMember

/-- A chain is the same in every graph that has its blocks. -/
theorem Chain.of_kept {blocks : List BlockId} (chain : graph.Chain id blocks)
    (kept : ∀ member ∈ blocks, other.block? member = graph.block? member) :
    other.Chain id blocks := by
  induction chain with
  | plain stored ends => exact .plain ((kept _ List.mem_cons_self).trans stored) ends
  | extending stored extended above ih =>
    apply Chain.extending ((kept _ List.mem_cons_self).trans stored) extended
    exact ih fun member isMember => kept member (List.mem_cons_of_mem _ isMember)

theorem Chain.length_le_slots {blocks : List BlockId} (chain : graph.Chain id blocks)
    (single : blocks.Nodup) : blocks.length ≤ graph.slots.size := by
  apply Graph.length_le_slots single
  intro member isMember
  obtain ⟨block, stored⟩ := isComplete_iff.mp (chain.isComplete member isMember)
  exact slot_lt_of_block stored

/-- What a block extends has a shorter chain. -/
theorem Chain.above {blocks : List BlockId} {base : BlockId} (chain : graph.Chain id blocks)
    (extended : (graph.block? id).bind Block.base? = some base) :
    ∃ rest, graph.Chain base rest ∧ rest.length < blocks.length := by
  cases chain with
  | plain stored ends =>
    rw [stored, Option.bind_some, ends] at extended
    cases extended
  | extending stored extended' above =>
    rw [stored, Option.bind_some, extended'] at extended
    cases extended
    exact ⟨_, above, Nat.lt_succ_self _⟩

theorem Chain.starts {blocks : List BlockId} (chain : graph.Chain id blocks) :
    ∃ rest, blocks = id :: rest := by
  cases chain with
  | plain => exact ⟨[], rfl⟩
  | extending => exact ⟨_, rfl⟩

theorem Chain.stored {blocks : List BlockId} (chain : graph.Chain id blocks) :
    ∃ block, graph.block? id = some block := by
  cases chain with
  | plain stored => exact ⟨_, stored⟩
  | extending stored => exact ⟨_, stored⟩

theorem Chain.unique {blocks more : List BlockId} (chain : graph.Chain id blocks)
    (again : graph.Chain id more) : blocks = more := by
  induction chain generalizing more with
  | plain stored ends =>
    cases again with
    | plain => rfl
    | extending stored' extended =>
      cases stored.symm.trans stored'
      rw [ends] at extended
      cases extended
  | extending stored extended above ih =>
    cases again with
    | plain stored' ends =>
      cases stored.symm.trans stored'
      rw [ends] at extended
      cases extended
    | extending stored' extended' above' =>
      cases stored.symm.trans stored'
      cases extended.symm.trans extended'
      rw [ih above']

/-- What stands behind a block of a chain is the chain of that block. -/
theorem Chain.behind {before after : List BlockId} {member : BlockId}
    (chain : graph.Chain id (before ++ member :: after)) :
      graph.Chain member (member :: after) := by
  induction before generalizing id with
  | nil =>
    obtain ⟨rest, same⟩ := chain.starts
    obtain ⟨rfl, rfl⟩ := List.cons.inj same
    exact chain
  | cons first before ih =>
    generalize shape : first :: before ++ member :: after = blocks at chain
    cases chain with
    | plain => simp at shape
    | extending stored extended above =>
      obtain ⟨rfl, rfl⟩ := List.cons.inj shape
      exact ih above

/-- No block extends itself along a chain: its chain would be shorter than itself. -/
theorem Chain.nodup {blocks : List BlockId} (chain : graph.Chain id blocks) : blocks.Nodup := by
  induction chain with
  | plain => exact List.nodup_singleton _
  | @extending id base block rest stored extended above ih =>
    refine List.nodup_cons.mpr ⟨fun again => ?_, ih⟩
    obtain ⟨before, after, rfl⟩ := List.append_of_mem again
    have same := above.behind.unique (.extending stored extended above)
    have lengths := congrArg List.length same
    simp only [List.length_cons, List.length_append] at lengths
    omega

/-- Whether a stored block extends another one. -/
def Extends (graph : Graph) (id base : BlockId) : Prop :=
  (graph.block? id).bind Block.base? = some base

/-- What is found from a block belongs to it or to a block that it extends, at any distance. -/
theorem Inherits.reaches {reference : ObjectReference} {object : BlockObject}
    (inherits : graph.Inherits reference id object) :
    Relation.ReflTransGen graph.Extends id object.id.block := by
  induction inherits with
  | own => exact .refl
  | base stored _ extended _ ih =>
    refine .head ?_ ih
    rw [Extends, stored, Option.bind_some, extended]

/-! Lookups -/

/-- The object of a block that a reference names there. -/
def ownOf? (graph : Graph) (reference : ObjectReference) (id : BlockId) : Option BlockObject :=
  (graph.block? id).bind fun block =>
    (block.findOwn? reference).map fun key => ⟨⟨id, key⟩, block⟩

theorem ownOf?_eq_some_iff {reference : ObjectReference} {object : BlockObject} :
    graph.ownOf? reference id = some object ↔
      object.id.block = id ∧ graph.block? id = some object.block ∧
        object.block.findOwn? reference = some object.key := by
  obtain ⟨⟨owner, key⟩, block⟩ := object
  simp only [ownOf?, Option.bind_eq_some_iff, Option.map_eq_some_iff, BlockObject.key]
  constructor
  · rintro ⟨_, stored, _, found, ⟨⟩⟩
    exact ⟨rfl, stored, found⟩
  · rintro ⟨rfl, stored, found⟩
    exact ⟨block, stored, key, found, rfl⟩

/-- A block looks at its own objects first, then where its base does. -/
theorem resolveLocal_eq_or (stored : graph.block? id = some block) (reference : ObjectReference) :
    graph.resolveLocal? id reference = (graph.ownOf? reference id).or
      (block.base?.bind fun base => graph.resolveLocal? base reference) := by
  ext object
  rw [resolveLocal_eq_some_iff, Option.or_eq_some_iff, ownOf?_eq_some_iff]
  simp only [ownOf?, stored, Option.bind_some, Option.map_eq_none_iff, Option.bind_eq_some_iff,
    resolveLocal_eq_some_iff, Option.some.injEq]
  constructor
  · intro inherits
    cases inherits with
    | own stored' found =>
      cases stored.symm.trans stored'
      exact .inl ⟨rfl, rfl, found⟩
    | base stored' absent extended above =>
      cases stored.symm.trans stored'
      exact .inr ⟨absent, _, extended, above⟩
  · rintro (⟨rfl, rfl, found⟩ | ⟨absent, base, extended, above⟩)
    · exact .own stored found
    · exact .base stored absent extended above

/-- A reference leads to the first block of the chain that defines its object. -/
theorem Chain.resolveLocal_eq {blocks : List BlockId} (chain : graph.Chain id blocks)
    (reference : ObjectReference) :
    graph.resolveLocal? id reference = blocks.findSome? (graph.ownOf? reference) := by
  induction chain with
  | plain stored ends =>
    rw [resolveLocal_eq_or stored, ends, Option.bind_none, Option.or_none, List.findSome?_cons]
    cases graph.ownOf? reference _ <;> rfl
  | extending stored extended above ih =>
    rw [resolveLocal_eq_or stored, extended, Option.bind_some, ih, List.findSome?_cons]
    cases graph.ownOf? reference _ <;> rfl

/-- What an object overrides first is found behind its block. -/
theorem Chain.baseOf_eq {object : BlockObject} {rest : List BlockId}
    (chain : graph.Chain object.id.block (object.id.block :: rest))
    (stored : graph.block? object.id.block = some object.block) :
    graph.baseOf? object = rest.findSome? (graph.ownOf? object.reference) := by
  cases chain with
  | plain stored' ends =>
    cases stored.symm.trans stored'
    rw [baseOf?, ends, Option.bind_none, List.findSome?_nil]
  | extending stored' extended above =>
    cases stored.symm.trans stored'
    rw [baseOf?, extended, Option.bind_some, above.resolveLocal_eq]

end Graph

end StyleBlock
