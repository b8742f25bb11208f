import Mathlib
import StyleBlock.Graph.Object

/-!
Looking objects up. A reference leads to the first block of a base chain that defines its object,
and one step through the references of a block may come before. The walk along the chain is
limited by the number of slots; since no block of the walk is met twice, the limit never cuts a
lookup short.
-/

namespace StyleBlock

namespace Graph

/-- An object that a block of the graph really has. -/
def Has (graph : Graph) (object : BlockObject) : Prop :=
  graph.block? object.id.block = some object.block ∧ object.block.contains object.key = true

/-- The objects of all complete blocks of a graph. -/
abbrev Object (graph : Graph) : Type := { object : BlockObject // graph.Has object }

/-- A reference leads from a block to the object of the nearest block along its base chain that
defines it. -/
inductive Inherits (graph : Graph) (reference : ObjectReference) :
    BlockId → BlockObject → Prop where
  | own {id : BlockId} {block : Block} {key : ObjectKey} (loaded : graph.block? id = some block)
      (found : block.findOwn? reference = some key) :
      Inherits graph reference id ⟨⟨id, key⟩, block⟩
  | base {id base : BlockId} {block : Block} {object : BlockObject}
      (loaded : graph.block? id = some block) (absent : block.findOwn? reference = none)
      (extended : block.base? = some base) (above : Inherits graph reference base object) :
      Inherits graph reference id object

/-- A reference without a block name is looked up from the block itself, one with a block name
from the block that the name refers to. -/
def Refers (graph : Graph) (id : BlockId) (reference : ObjectReference)
    (object : BlockObject) : Prop :=
  match reference.block with
  | none => graph.Inherits reference id object
  | some name =>
    ∃ block target, graph.block? id = some block ∧ block.reference? name = some target ∧
      graph.Inherits reference.withoutBlock target object

theorem slot_lt_of_block {graph : Graph} {id : BlockId} {block : Block}
    (loaded : graph.block? id = some block) : id.slot < graph.slots.size := by
  unfold block? at loaded
  by_contra outside
  rw [Array.getElem?_eq_none (by omega)] at loaded
  exact absurd loaded (by simp)

variable {graph : Graph} {reference : ObjectReference}

theorem inherits_of_findAlong {steps : Nat} {id : BlockId} {object : BlockObject}
    (found : graph.findAlong? reference steps id = some object) :
    graph.Inherits reference id object := by
  induction steps generalizing id with
  | zero => simp [findAlong?] at found
  | succ steps ih =>
    unfold findAlong? at found
    split at found
    · simp at found
    · next block loaded =>
      split at found
      · next key own =>
        cases found
        exact .own loaded own
      · next absent =>
        split at found
        · next base extended => exact .base loaded absent extended (ih found)
        · simp at found

theorem findAlong_own {steps : Nat} {id : BlockId} {block : Block} {key : ObjectKey}
    (loaded : graph.block? id = some block) (found : block.findOwn? reference = some key) :
    graph.findAlong? reference (steps + 1) id = some ⟨⟨id, key⟩, block⟩ := by
  simp [findAlong?, loaded, found]

theorem findAlong_base {steps : Nat} {id base : BlockId} {block : Block}
    (loaded : graph.block? id = some block) (absent : block.findOwn? reference = none)
    (extended : block.base? = some base) :
    graph.findAlong? reference (steps + 1) id = graph.findAlong? reference steps base := by
  simp [findAlong?, loaded, absent, extended]

/-- More steps find the same. -/
theorem findAlong_mono {steps more : Nat} {id : BlockId} {object : BlockObject}
    (found : graph.findAlong? reference steps id = some object) (enough : steps ≤ more) :
    graph.findAlong? reference more id = some object := by
  induction steps generalizing id more with
  | zero => simp [findAlong?] at found
  | succ steps ih =>
    obtain ⟨more, rfl⟩ : ∃ rest, more = rest + 1 := ⟨more - 1, by omega⟩
    have inherited := inherits_of_findAlong found
    cases inherited with
    | own loaded own => exact findAlong_own loaded own
    | base loaded absent extended above =>
      rw [findAlong_base loaded absent extended] at found ⊢
      exact ih found (by omega)

/-- The fewest steps that a lookup takes. -/
def LeastSteps (graph : Graph) (reference : ObjectReference) (object : BlockObject) (steps : Nat)
    (id : BlockId) : Prop :=
  graph.findAlong? reference steps id = some object ∧
    ∀ fewer < steps, graph.findAlong? reference fewer id ≠ some object

theorem LeastSteps.unique {object : BlockObject} {first second : Nat} {id : BlockId}
    (one : graph.LeastSteps reference object first id)
    (other : graph.LeastSteps reference object second id) : first = second := by
  rcases Nat.lt_trichotomy first second with less | same | more
  · exact absurd one.1 (other.2 first less)
  · exact same
  · exact absurd other.1 (one.2 second more)

/-- Every lookup has a shortest one, whose walk meets no block twice: the blocks it meets need
different numbers of steps to the end. -/
theorem LeastSteps.walk {object : BlockObject} {steps : Nat} {id : BlockId}
    (least : graph.LeastSteps reference object steps id) :
    ∃ walk : List BlockId, walk.length = steps ∧ walk.Nodup ∧
      ∀ block ∈ walk, block.slot < graph.slots.size ∧
        ∃ left ≤ steps, graph.LeastSteps reference object left block := by
  induction steps generalizing id with
  | zero => exact absurd least.1 (by simp [findAlong?])
  | succ steps ih =>
    have inherited := inherits_of_findAlong least.1
    cases inherited with
    | own loaded own =>
      have short : steps = 0 := by
        by_contra positive
        exact least.2 1 (by omega) (findAlong_own loaded own)
      subst short
      refine ⟨[id], rfl, by simp, ?_⟩
      intro block present
      obtain rfl := List.mem_singleton.mp present
      exact ⟨slot_lt_of_block loaded, 1, le_rfl, least⟩
    | base loaded absent extended above =>
      rename_i base block
      have leastBase : graph.LeastSteps reference object steps base := by
        refine ⟨by rw [← findAlong_base loaded absent extended]; exact least.1, ?_⟩
        intro fewer less found
        apply least.2 (fewer + 1) (by omega)
        rw [findAlong_base loaded absent extended, found]
      obtain ⟨walk, length, single, known⟩ := ih leastBase
      refine ⟨id :: walk, by simp [length], List.nodup_cons.mpr ⟨?_, single⟩, ?_⟩
      · intro again
        obtain ⟨_, left, bound, other⟩ := known id again
        have same := other.unique least
        omega
      · intro block present
        rcases List.mem_cons.mp present with rfl | later
        · exact ⟨slot_lt_of_block loaded, steps + 1, le_rfl, least⟩
        · obtain ⟨inside, left, bound, other⟩ := known block later
          exact ⟨inside, left, by omega, other⟩

/-- Blocks in different slots of the graph are no more than its slots. -/
theorem length_le_slots {blocks : List BlockId} (single : blocks.Nodup)
    (inside : ∀ block ∈ blocks, block.slot < graph.slots.size) :
    blocks.length ≤ graph.slots.size := by
  have slots : (blocks.map BlockId.slot).Nodup :=
    single.map fun left right same => by cases left; cases right; simp_all
  have below : blocks.map BlockId.slot ⊆ List.range graph.slots.size := by
    intro slot present
    obtain ⟨block, member, rfl⟩ := List.mem_map.mp present
    exact List.mem_range.mpr (inside block member)
  simpa using (List.subperm_of_subset slots below).length_le

theorem findAlong_of_inherits {id : BlockId} {object : BlockObject}
    (inherited : graph.Inherits reference id object) :
    ∃ steps, graph.findAlong? reference steps id = some object := by
  induction inherited with
  | own loaded own => exact ⟨1, findAlong_own loaded own⟩
  | base loaded absent extended _ ih =>
    obtain ⟨steps, found⟩ := ih
    exact ⟨steps + 1, by rw [findAlong_base loaded absent extended, found]⟩

/-- As many steps as there are slots find whatever can be found. -/
theorem resolveLocal_eq_some_iff {id : BlockId} {object : BlockObject} :
    graph.resolveLocal? id reference = some object ↔ graph.Inherits reference id object := by
  refine ⟨inherits_of_findAlong, fun inherited => ?_⟩
  classical
  have found := findAlong_of_inherits inherited
  have least : graph.LeastSteps reference object (Nat.find found) id :=
    ⟨Nat.find_spec found, fun fewer less => Nat.find_min found less⟩
  obtain ⟨walk, length, single, known⟩ := least.walk
  have bound := length_le_slots single fun block present => (known block present).1
  exact findAlong_mono least.1 (by omega)

theorem resolve_eq_some_iff {id : BlockId} {object : BlockObject} :
    graph.resolve? id reference = some object ↔ graph.Refers id reference object := by
  unfold resolve? Refers
  cases reference.block with
  | none => exact resolveLocal_eq_some_iff
  | some name => simp [Option.bind_eq_some_iff, resolveLocal_eq_some_iff]

end Graph

namespace Block

/-- The class that a class name stands for, or nothing for the root. -/
def owner? (block : Block) : Option String → Option (Option Nat)
  | none => some none
  | some name => if name = rootClass then some none else (block.findClass? name).map some

/-- The key of the root or a class, or of one of its states. -/
def keyIn? (block : Block) (owner : Option Nat) : Option StateName → Option ObjectKey
  | none => some (owner.elim .root .ofClass)
  | some state =>
    (block.statesOf? owner).bind fun states => (findState? states state).map (.ofState owner)

theorem findOwn_eq_bind (block : Block) (reference : ObjectReference) :
    block.findOwn? reference =
      (block.owner? reference.className).bind fun owner => block.keyIn? owner reference.state := by
  obtain ⟨_, className, state⟩ := reference
  cases className with
  | none =>
    cases state with
    | none => rfl
    | some state => simp [findOwn?, owner?, keyIn?, Option.map_eq_bind]
  | some name =>
    by_cases isRoot : name = rootClass
    · cases state with
      | none => simp [findOwn?, owner?, keyIn?, isRoot]
      | some state => simp [findOwn?, owner?, keyIn?, isRoot, Option.map_eq_bind]
    · cases found : block.findClass? name with
      | none => simp [findOwn?, owner?, isRoot, found]
      | some index =>
        cases state with
        | none => simp [findOwn?, owner?, keyIn?, isRoot, found]
        | some state =>
          simp [findOwn?, owner?, keyIn?, isRoot, found, Option.map_eq_bind]

theorem contains_of_keyIn {block : Block} {owner : Option Nat} {state : Option StateName}
    {key : ObjectKey} (inside : ∀ index ∈ owner, index < block.classes.length)
    (found : block.keyIn? owner state = some key) : block.contains key = true := by
  cases state with
  | none =>
    cases found
    cases owner with
    | none => rfl
    | some index => simpa [contains] using inside index rfl
  | some state =>
    obtain ⟨states, existing, found⟩ := Option.bind_eq_some_iff.mp found
    obtain ⟨index, placed, rfl⟩ := Option.map_eq_some_iff.mp found
    have below := (List.findIdx?_eq_some_iff_findIdx_eq.mp placed).1
    simp [contains, existing, below]

/-- The own object that a reference finds is an object of the block. -/
theorem contains_of_findOwn {block : Block} {reference : ObjectReference} {key : ObjectKey}
    (found : block.findOwn? reference = some key) : block.contains key = true := by
  rw [findOwn_eq_bind] at found
  obtain ⟨owner, owned, found⟩ := Option.bind_eq_some_iff.mp found
  refine contains_of_keyIn ?_ found
  intro index same
  obtain rfl := Option.mem_def.mp same
  unfold owner? at owned
  split at owned
  · simp at owned
  · split at owned
    · simp at owned
    · obtain ⟨index', classFound, same⟩ := Option.map_eq_some_iff.mp owned
      cases same
      exact (List.findIdx?_eq_some_iff_findIdx_eq.mp classFound).1

end Block

namespace Graph

theorem Inherits.has {graph : Graph} {reference : ObjectReference} {id : BlockId}
    {object : BlockObject} (inherited : graph.Inherits reference id object) :
    graph.Has object := by
  induction inherited with
  | own loaded found => exact ⟨loaded, Block.contains_of_findOwn found⟩
  | base _ _ _ _ ih => exact ih

theorem Refers.has {graph : Graph} {id : BlockId} {reference : ObjectReference}
    {object : BlockObject} (refers : graph.Refers id reference object) : graph.Has object := by
  unfold Refers at refers
  split at refers
  · exact refers.has
  · obtain ⟨_, _, _, _, inherited⟩ := refers
    exact inherited.has

end Graph

end StyleBlock
