import StyleBlock.Proofs.Lookup

/-!
The objects of a block as a list. The root lists every object of its block, so the objects of a
graph are those that the roots of its blocks list.
-/

namespace StyleBlock

namespace BlockObject

theorem mem_statesOf_iff {root object : BlockObject} {owner : Option Nat} :
    object ∈ root.statesOf owner ↔
      ∃ index, object = root.sibling (.ofState owner index) ∧
        root.block.contains (.ofState owner index) = true := by
  unfold statesOf
  simp only [List.mem_map, List.mem_range, Block.contains]
  have inside : ∀ index, index < ((root.block.statesOf? owner).getD []).length ↔
      ((root.block.statesOf? owner).bind fun states => states[index]?).isSome = true := by
    intro index
    cases root.block.statesOf? owner <;> simp
  constructor
  · rintro ⟨index, below, rfl⟩
    exact ⟨index, rfl, (inside index).mp below⟩
  · rintro ⟨index, rfl, present⟩
    exact ⟨index, (inside index).mpr present, rfl⟩

theorem mem_classWithStates_iff {root object : BlockObject} {index : Nat} :
    object ∈ root.classWithStates index ↔
      object = root.sibling (.ofClass index) ∨
        ∃ state, object = root.sibling (.ofState (some index) state) ∧
          root.block.contains (.ofState (some index) state) = true := by
  simp [classWithStates, mem_statesOf_iff]

/-- A state of a class stands in a class of the block. -/
theorem class_lt_of_contains {block : Block} {index state : Nat}
    (present : block.contains (.ofState (some index) state) = true) :
    index < block.classes.length := by
  by_contra outside
  simp [Block.contains, Block.statesOf?, List.getElem?_eq_none (Nat.le_of_not_lt outside)]
    at present

/-- The root of a block lists the objects of the block. -/
theorem mem_own_iff {root object : BlockObject} (isRoot : root.key = .root) :
    object ∈ root.own ↔
      ∃ key, object = root.sibling key ∧ root.block.contains key = true := by
  have self : root = root.sibling .root := by
    obtain ⟨⟨block, key⟩, content⟩ := root
    cases isRoot
    rfl
  simp only [own, isRoot, List.mem_cons, List.mem_append, mem_statesOf_iff, List.mem_flatMap,
    List.mem_range, mem_classWithStates_iff]
  constructor
  · rintro (rfl | ⟨index, rfl, present⟩ | ⟨index, below, rfl | ⟨state, rfl, present⟩⟩)
    · exact ⟨.root, self, rfl⟩
    · exact ⟨_, rfl, present⟩
    · exact ⟨_, rfl, by simpa [Block.contains] using below⟩
    · exact ⟨_, rfl, present⟩
  · rintro ⟨key, rfl, present⟩
    cases key with
    | root => exact .inl self.symm
    | ofClass index =>
      exact .inr (.inr ⟨index, by simpa [Block.contains] using present, .inl rfl⟩)
    | ofState owner index =>
      cases owner with
      | none => exact .inr (.inl ⟨index, rfl, present⟩)
      | some owner =>
        exact .inr (.inr ⟨owner, class_lt_of_contains present, .inr ⟨index, rfl, present⟩⟩)

end BlockObject

namespace Graph

/-- The objects of all complete blocks, block by block. -/
def objects (graph : Graph) : List BlockObject :=
  graph.blocks.flatMap fun (id, block) => (⟨⟨id, .root⟩, block⟩ : BlockObject).own

theorem mem_blocks_iff {graph : Graph} {id : BlockId} {block : Block} :
    (id, block) ∈ graph.blocks ↔ graph.block? id = some block := by
  unfold blocks block?
  simp only [List.mem_filterMap, Option.map_eq_some_iff, Prod.mk.injEq, Prod.exists,
    List.mem_zipIdx_iff_getElem?, Array.getElem?_toList]
  constructor
  · rintro ⟨slot, index, placed, _, rfl, rfl, rfl⟩
    simp [placed]
  · intro loaded
    obtain ⟨slot⟩ := id
    exact ⟨some block, slot, Option.join_eq_some_iff.mp loaded, block, rfl, rfl, rfl⟩

theorem mem_objects_iff {graph : Graph} {object : BlockObject} :
    object ∈ graph.objects ↔ graph.Has object := by
  unfold objects Has
  simp only [List.mem_flatMap, Prod.exists, mem_blocks_iff]
  constructor
  · rintro ⟨id, block, loaded, listed⟩
    obtain ⟨key, rfl, present⟩ := (BlockObject.mem_own_iff rfl).mp listed
    exact ⟨loaded, present⟩
  · rintro ⟨loaded, present⟩
    exact ⟨object.id.block, object.block, loaded,
      (BlockObject.mem_own_iff rfl).mpr ⟨object.key, rfl, present⟩⟩

end Graph

end StyleBlock
