import StyleBlock.Proofs.Ancestors
import StyleBlock.Proofs.Annotations
import StyleBlock.Proofs.SourceNames

/-!
What a block inherits. Its chain decides it: a reference leads to the first block of the chain that
has its object, the list of all objects holds the object that each name leads to, and an object
overrides those of its name in the blocks behind its own.
-/

namespace StyleBlock

/-- What a reference asks of the block it leads to, where the root has no class name. -/
def ObjectReference.inner (reference : ObjectReference) : ObjectReference :=
  ⟨none, if reference.className = some rootClass then none else reference.className,
    reference.state⟩

/-- The names of the states of a block: those of its root, then those of each class. -/
def Block.stateLists (block : Block) : List (List StateName) :=
  block.states.map State.name :: block.classes.map fun entry => entry.states.map State.name

/-- Whether the names of a block tell its objects apart: no class is called like the root, no name
comes twice, and none needs an escape. -/
structure Block.IsWellNamed (block : Block) : Prop where
  classes : block.classNames.Nodup
  noRoot : rootClass ∉ block.classNames
  states : ∀ names ∈ block.stateLists, names.Nodup
  bareClasses : ∀ name ∈ block.classNames, IsBare name
  bareStates : ∀ names ∈ block.stateLists, ∀ name ∈ names, name.IsBare

instance (block : Block) : Decidable block.IsWellNamed :=
  decidable_of_iff (block.classNames.Nodup ∧ rootClass ∉ block.classNames ∧
      (∀ names ∈ block.stateLists, names.Nodup) ∧ (∀ name ∈ block.classNames, IsBare name) ∧
        ∀ names ∈ block.stateLists, ∀ name ∈ names, name.IsBare)
    ⟨fun ⟨classes, noRoot, states, bareClasses, bareStates⟩ =>
      ⟨classes, noRoot, states, bareClasses, bareStates⟩,
      fun ⟨classes, noRoot, states, bareClasses, bareStates⟩ =>
        ⟨classes, noRoot, states, bareClasses, bareStates⟩⟩

namespace Block

variable {block : Block} {key : ObjectKey} {id : BlockId}

theorem stateNames_mem_stateLists {owner : Option Nat} {names : List StateName}
    (known : block.stateNames? owner = some names) : names ∈ block.stateLists := by
  cases owner with
  | none =>
    cases known
    exact List.mem_cons_self
  | some index =>
    obtain ⟨states, existing, rfl⟩ := Option.map_eq_some_iff.mp known
    obtain ⟨entry, placed, rfl⟩ := Option.map_eq_some_iff.mp existing
    exact List.mem_cons_of_mem _
      (List.mem_map_of_mem (f := fun entry : BlockClass => entry.states.map State.name)
        (List.mem_of_getElem? placed))

theorem IsWellNamed.unique (wellNamed : block.IsWellNamed) : block.HasUniqueNames :=
  ⟨wellNamed.classes, wellNamed.noRoot,
    fun _ names known => wellNamed.states names (stateNames_mem_stateLists known)⟩

theorem IsWellNamed.bare {object : BlockObject} (wellNamed : object.block.IsWellNamed) :
    object.HasBareNames where
  className entry found := by
    obtain ⟨index, _, placed⟩ := Option.bind_eq_some_iff.mp found
    exact wellNamed.bareClasses _ (List.mem_map_of_mem (List.mem_of_getElem? placed))
  state state found := by
    obtain ⟨⟨id, key⟩, block⟩ := object
    cases key with
    | root => cases found
    | ofClass index => cases found
    | ofState owner index =>
      obtain ⟨states, existing, placed⟩ := Option.bind_eq_some_iff.mp found
      have known : block.stateNames? owner = some (states.map State.name) := by
        rw [stateNames?, existing, Option.map_some]
      exact wellNamed.bareStates _ (stateNames_mem_stateLists known) _
        (List.mem_map_of_mem (List.mem_of_getElem? placed))

theorem findOwn_inner (block : Block) (reference : ObjectReference) :
    block.findOwn? reference.inner = block.findOwn? reference := by
  rw [findOwn_eq_bind, findOwn_eq_bind, ObjectReference.inner]
  dsimp only
  split
  · next isRoot => rw [isRoot, owner?, owner?, if_pos rfl]
  · rfl

/-- The class that a class name stands for has that name; the root has none. -/
theorem className_of_owner {className : Option String} {owner : Option Nat}
    (owned : block.owner? className = some owner) :
    (owner.bind fun index => block.classes[index]?).map BlockClass.name =
      if className = some rootClass then none else className := by
  cases className with
  | none =>
    cases owned
    rfl
  | some name =>
    rw [owner?] at owned
    split at owned
    · next isRoot =>
      cases owned
      rw [if_pos (congrArg some isRoot)]
      rfl
    · next notRoot =>
      obtain ⟨index, found, rfl⟩ := Option.map_eq_some_iff.mp owned
      obtain ⟨entry, placed, rfl⟩ := class_of_findClass found
      simp [placed, notRoot]

/-- The object that a reference finds has the names that the reference gives. -/
theorem reference_of_findOwn {reference : ObjectReference}
    (found : block.findOwn? reference = some key) :
    (⟨⟨id, key⟩, block⟩ : BlockObject).reference = reference.inner := by
  rw [findOwn_eq_bind] at found
  obtain ⟨owner, owned, found⟩ := Option.bind_eq_some_iff.mp found
  have className := className_of_owner owned
  obtain ⟨_, name, state⟩ := reference
  cases state with
  | none =>
    cases found
    cases owner with
    | none => exact congrArg (fun name => ObjectReference.mk none name none) className
    | some index => exact congrArg (fun name => ObjectReference.mk none name none) className
  | some state =>
    obtain ⟨states, existing, found⟩ := Option.bind_eq_some_iff.mp found
    obtain ⟨index, placed, rfl⟩ := Option.map_eq_some_iff.mp found
    obtain ⟨entry, present, rfl⟩ := state_of_findState placed
    have named : block.stateAt? (.ofState owner index) = some entry := by
      rw [stateAt?, existing, Option.bind_some, present]
    rw [BlockObject.reference, BlockObject.class?, BlockObject.state?, BlockObject.key, named]
    exact congrArg (fun name => ObjectReference.mk none name (some entry.name)) className

theorem inner_sourceReference (unique : block.HasUniqueNames) :
    (block.sourceReference key).inner = (⟨⟨id, key⟩, block⟩ : BlockObject).reference := by
  have kept : (block.classAt? key).map BlockClass.name ≠ some rootClass := by
    intro named
    obtain ⟨entry, found, isRoot⟩ := Option.map_eq_some_iff.mp named
    obtain ⟨index, _, placed⟩ := Option.bind_eq_some_iff.mp found
    exact unique.noRoot (isRoot ▸ List.mem_map_of_mem (List.mem_of_getElem? placed))
  rw [ObjectReference.inner, sourceReference, BlockObject.reference, BlockObject.class?,
    BlockObject.state?, BlockObject.key]
  dsimp only
  by_cases isRoot : key = .root
  · subst isRoot
    rfl
  · rw [if_neg isRoot, if_neg kept]

/-- An object is the only one that its names stand for. -/
theorem findOwn_eq_some_iff (unique : block.HasUniqueNames) {reference : ObjectReference} :
    block.findOwn? reference = some key ↔ block.contains key = true ∧
      (⟨⟨id, key⟩, block⟩ : BlockObject).reference = reference.inner := by
  refine ⟨fun found => ⟨contains_of_findOwn found, reference_of_findOwn found⟩, ?_⟩
  intro ⟨has, named⟩
  rw [← findOwn_inner, ← named, ← inner_sourceReference unique, findOwn_inner]
  exact findOwn_sourceReference unique has

end Block

/-- The tokens of a state tell its name and its group. -/
theorem StateName.inside_injective : Function.Injective StateName.inside := by
  rintro ⟨_ | group, name⟩ ⟨_ | group', name'⟩ same <;>
    simp_all [StateName.inside, AttributeSelector.operatorToken, AttributeSelector.flagTokens]

namespace ObjectReference

/-- The nodes of a reference tell its class and its state. -/
theorem pieces_injective {one other : ObjectReference} (block : one.block = other.block)
    (same : one.pieces.flatten = other.pieces.flatten) : one = other := by
  obtain ⟨_, className, state⟩ := one
  obtain ⟨_, className', state'⟩ := other
  cases block
  have states : ∀ {state state' : StateName}, state.inside = state'.inside ↔ state = state' :=
    StateName.inside_injective.eq_iff
  cases className <;> cases className' <;> cases state <;> cases state' <;>
    simp_all [pieces]

/-- References without escapes are told apart by how they are written. -/
theorem bareSource_injective {one other : ObjectReference} (bare : one.IsBare)
    (bare' : other.IsBare) (block : one.block = other.block)
    (same : one.bareSource = other.bareSource) : one = other := by
  apply pieces_injective block
  rw [← bare.tokens, ← bare'.tokens, same]

end ObjectReference

namespace BlockObject

variable {root object other : BlockObject}

theorem statesOf_nodup (root : BlockObject) (owner : Option Nat) : (root.statesOf owner).Nodup := by
  refine List.Nodup.map (fun one other same => ?_) List.nodup_range
  have keys : ObjectKey.ofState owner one = .ofState owner other := congrArg BlockObject.key same
  exact (ObjectKey.ofState.inj keys).2

theorem classWithStates_nodup (root : BlockObject) (index : Nat) :
    (root.classWithStates index).Nodup := by
  refine List.nodup_cons.mpr ⟨fun listed => ?_, statesOf_nodup root _⟩
  obtain ⟨state, same, _⟩ := mem_statesOf_iff.mp listed
  have keys : ObjectKey.ofClass index = .ofState (some index) state := congrArg BlockObject.key same
  cases keys

/-- The root of a block lists each of its objects once. -/
theorem own_nodup (isRoot : root.key = .root) : root.own.Nodup := by
  have rootState : ∀ object ∈ root.statesOf none, ∃ index, object.key = .ofState none index := by
    intro object listed
    obtain ⟨index, rfl, _⟩ := mem_statesOf_iff.mp listed
    exact ⟨index, rfl⟩
  have ofClass : ∀ index, ∀ object ∈ root.classWithStates index,
      object.key.class? = some index := by
    intro index object listed
    rcases mem_classWithStates_iff.mp listed with rfl | ⟨state, rfl, _⟩ <;> rfl
  rw [own, isRoot]
  refine List.nodup_cons.mpr ⟨fun listed => ?_,
    List.nodup_append.mpr ⟨statesOf_nodup root none, List.nodup_flatMap.mpr
      ⟨fun index _ => classWithStates_nodup root index, ?_⟩, ?_⟩⟩
  · rcases List.mem_append.mp listed with listed | listed
    · obtain ⟨index, isState⟩ := rootState root listed
      cases isRoot.symm.trans isState
    · obtain ⟨index, _, listed⟩ := List.mem_flatMap.mp listed
      have isClass := ofClass index root listed
      rw [isRoot] at isClass
      cases isClass
  · refine List.nodup_range.imp fun {one other} apart => ?_
    intro object first second
    have same := (ofClass one object first).symm.trans (ofClass other object second)
    exact apart (Option.some.inj same)
  · rintro object first _ second rfl
    obtain ⟨index, isState⟩ := rootState object first
    obtain ⟨owner, _, second⟩ := List.mem_flatMap.mp second
    have isClass := ofClass owner object second
    rw [isState] at isClass
    cases isClass

/-- The object that a name stands for is the only one of that name. -/
theorem own_filter_reference (isRoot : root.key = .root) (unique : root.block.HasUniqueNames)
    (reference : ObjectReference) :
    root.own.filter (·.reference = reference.inner) =
      ((root.block.findOwn? reference).map root.sibling).toList := by
  have listed : ∀ object, object ∈ root.own.filter (·.reference = reference.inner) ↔
      object ∈ ((root.block.findOwn? reference).map root.sibling).toList := by
    intro object
    rw [List.mem_filter, mem_own_iff isRoot, decide_eq_true_iff, Option.mem_toList,
      Option.map_eq_some_iff]
    constructor
    · rintro ⟨⟨key, rfl, has⟩, named⟩
      exact ⟨key, (Block.findOwn_eq_some_iff unique).mpr ⟨has, named⟩, rfl⟩
    · rintro ⟨key, found, rfl⟩
      exact ⟨⟨key, rfl, Block.contains_of_findOwn found⟩, Block.reference_of_findOwn found⟩
  have once := (own_nodup isRoot).filter (·.reference = reference.inner)
  cases found : root.block.findOwn? reference with
  | none =>
    rw [found] at listed
    refine List.eq_nil_iff_forall_not_mem.mpr fun object member => ?_
    simpa using (listed object).mp member
  | some key =>
    rw [found] at listed
    have same := (List.perm_ext_iff_of_nodup once (List.nodup_singleton _)).mpr listed
    exact List.perm_singleton.mp same

/-- The source of an object spells its reference; that of the root spells its class name. -/
theorem sourceReference_eq (has : object.block.contains object.key = true) :
    object.block.sourceReference object.key =
      if object.reference = .empty then ⟨none, some rootClass, none⟩ else object.reference := by
  have filled := Block.sourceReference_ne_empty has
  obtain ⟨⟨id, key⟩, block⟩ := object
  by_cases isRoot : key = .root
  · subst isRoot
    rfl
  · have same : block.sourceReference key = (⟨⟨id, key⟩, block⟩ : BlockObject).reference := by
      rw [Block.sourceReference, if_neg isRoot]
      rfl
    rw [if_neg (same ▸ filled)]
    exact same

/-- Where no name needs an escape, objects of the same name are written alike, and no others are. -/
theorem source_eq_iff (wellNamed : object.block.IsWellNamed) (wellNamed' : other.block.IsWellNamed)
    (has : object.block.contains object.key = true)
    (has' : other.block.contains other.key = true) :
    object.source = other.source ↔ object.reference = other.reference := by
  have written : ∀ {object : BlockObject}, object.block.contains object.key = true →
      object.source.toList = (object.block.sourceReference object.key).bareSource :=
    fun has => Block.toList_objectSource has
  rw [← String.toList_inj, written has, written has']
  constructor
  · intro same
    have references := ObjectReference.bareSource_injective wellNamed.bare.reference
      wellNamed'.bare.reference rfl same
    exact (Block.inner_sourceReference wellNamed.unique).symm.trans
      ((congrArg ObjectReference.inner references).trans
        (Block.inner_sourceReference wellNamed'.unique))
  · intro same
    rw [sourceReference_eq has, sourceReference_eq has', same]

/-- Leaving out the objects that are written like an own one leaves those whose names no own one
has. -/
theorem filter_unlike {own inherited : List BlockObject} {name : ObjectReference}
    (sources : ∀ object ∈ inherited, ∀ mine ∈ own,
      (mine.source = object.source ↔ mine.reference = object.reference)) :
    (inherited.filter fun object => !(own.map source).contains object.source).filter
        (·.reference = name) =
      if own.filter (·.reference = name) = [] then inherited.filter (·.reference = name)
        else [] := by
  have like : ∀ object ∈ inherited, object.reference = name →
      (object.source ∈ own.map source ↔ own.filter (·.reference = name) ≠ []) := by
    rintro object listed rfl
    rw [List.mem_map, Ne, List.filter_eq_nil_iff]
    push Not
    simp only [decide_eq_true_eq]
    exact exists_congr fun mine => and_congr_right fun isMine => sources object listed mine isMine
  rw [List.filter_filter]
  split
  · next absent =>
    refine List.filter_congr fun object listed => ?_
    by_cases named : object.reference = name
    · have unlike : object.source ∉ own.map source := by
        rw [like object listed named]
        exact not_not_intro absent
      simpa [named] using unlike
    · simp [named]
  · next present =>
    refine List.filter_eq_nil_iff.mpr fun object listed chosen => ?_
    obtain ⟨named, unlike⟩ := Bool.and_eq_true_iff.mp chosen
    have hidden := (like object listed (of_decide_eq_true named)).mpr present
    simp [hidden] at unlike

end BlockObject

namespace Graph

variable {graph : Graph} {id : BlockId} {block : Block}

theorem ownOf?_inner (graph : Graph) (reference : ObjectReference) :
    graph.ownOf? reference.inner = graph.ownOf? reference := by
  funext id
  simp only [ownOf?, Block.findOwn_inner]

theorem ownOf?_reference {reference : ObjectReference} {object : BlockObject}
    (found : graph.ownOf? reference id = some object) :
    graph.ownOf? object.reference = graph.ownOf? reference := by
  obtain ⟨⟨owner, key⟩, block⟩ := object
  obtain ⟨_, _, known⟩ := ownOf?_eq_some_iff.mp found
  have named : (⟨⟨owner, key⟩, block⟩ : BlockObject).reference = reference.inner :=
    Block.reference_of_findOwn known
  rw [named, ownOf?_inner]

/-- Along the chain of its block, an object overrides the objects of its name. -/
theorem Chain.addBases_eq {found : List BlockObject} {object : BlockObject} {rest : List BlockId}
    {steps : Nat} (chain : graph.Chain object.id.block (object.id.block :: rest))
    (stored : graph.block? object.id.block = some object.block)
    (new : ∀ other ∈ found, other.id.block ∉ rest) (enough : rest.length ≤ steps) :
    graph.addBases found object steps =
      found ++ rest.filterMap (graph.ownOf? object.reference) := by
  induction steps generalizing found object rest with
  | zero =>
    obtain rfl := List.eq_nil_of_length_eq_zero (Nat.le_zero.mp enough)
    rw [addBases, List.filterMap_nil, List.append_nil]
  | succ steps ih =>
    rw [addBases, chain.baseOf_eq stored]
    cases nearest : rest.findSome? (graph.ownOf? object.reference) with
    | none =>
      have absent := List.findSome?_eq_none_iff.mp nearest
      dsimp only
      rw [List.filterMap_eq_nil_iff.mpr absent, List.append_nil]
    | some base =>
      obtain ⟨before, member, after, rfl, known, absent⟩ := List.findSome?_eq_some_iff.mp nearest
      obtain ⟨rfl, storedBase, _⟩ := ownOf?_eq_some_iff.mp known
      have single := chain.nodup
      have above : graph.Chain base.id.block (base.id.block :: after) :=
        @Chain.behind graph _ (object.id.block :: before) after _ chain
      have unmet : found.any (fun other => decide (other.id = base.id)) = false := by
        rw [List.any_eq_false]
        intro other isFound same
        apply new other isFound
        rw [of_decide_eq_true same]
        exact List.mem_append_right before List.mem_cons_self
      have later : ∀ other ∈ found ++ [base], other.id.block ∉ after := by
        intro other isFound again
        rcases List.mem_append.mp isFound with isFound | isBase
        · exact new other isFound (List.mem_append_right before (List.mem_cons_of_mem _ again))
        · rw [List.mem_singleton.mp isBase] at again
          exact (List.nodup_cons.mp above.nodup).1 again
      have shorter : after.length ≤ steps := by
        simp only [List.length_append, List.length_cons] at enough
        omega
      dsimp only
      rw [unmet, if_neg Bool.false_ne_true, ih above storedBase later shorter,
        ownOf?_reference known, List.filterMap_append, List.filterMap_cons, known,
        List.filterMap_eq_nil_iff.mpr absent, List.append_assoc]
      rfl

/-- The styles of an object are itself and those of its name along the chain. -/
theorem Chain.stylesOf_eq {object : BlockObject} {rest : List BlockId}
    (chain : graph.Chain object.id.block (object.id.block :: rest))
    (stored : graph.block? object.id.block = some object.block) :
    graph.stylesOf object = object :: rest.filterMap (graph.ownOf? object.reference) := by
  have single := chain.nodup
  have enough := chain.length_le_slots single
  have unmet : ∀ other ∈ [object], other.id.block ∉ rest := by
    intro other isObject
    rw [List.mem_singleton.mp isObject]
    exact (List.nodup_cons.mp single).1
  exact chain.addBases_eq stored unmet (Nat.le_of_succ_le enough)

/-- Different blocks hold different objects, even of one name. -/
theorem filterMap_ownOf_nodup {blocks : List BlockId} (single : blocks.Nodup)
    (reference : ObjectReference) : (blocks.filterMap (graph.ownOf? reference)).Nodup := by
  refine List.pairwise_filterMap.mpr (single.imp fun {one other} apart => ?_)
  intro object found object' found' same
  apply apart
  rw [← (ownOf?_eq_some_iff.mp found).1, ← (ownOf?_eq_some_iff.mp found').1, same]

theorem Chain.stylesOf_nodup {object : BlockObject} {rest : List BlockId}
    (chain : graph.Chain object.id.block (object.id.block :: rest))
    (stored : graph.block? object.id.block = some object.block) :
    (graph.stylesOf object).Nodup := by
  obtain ⟨outside, single⟩ := List.nodup_cons.mp chain.nodup
  rw [chain.stylesOf_eq stored]
  refine List.nodup_cons.mpr ⟨fun again => outside ?_, filterMap_ownOf_nodup single _⟩
  obtain ⟨member, inside, found⟩ := List.mem_filterMap.mp again
  rw [(ownOf?_eq_some_iff.mp found).1]
  exact inside

/-! The list of all objects -/

/-- The object with the names of a reference among those of a block. -/
def named? (graph : Graph) (reference : ObjectReference) (id : BlockId) : Option BlockObject :=
  (graph.root? id).bind fun root => root.own.find? (·.reference = reference.inner)

theorem root_eq_some (stored : graph.block? id = some block) :
    graph.root? id = some ⟨⟨id, .root⟩, block⟩ := by
  rw [root?, object?, stored, Option.map_some]

theorem named_eq_ownOf (stored : graph.block? id = some block) (unique : block.HasUniqueNames)
    (reference : ObjectReference) : graph.named? reference id = graph.ownOf? reference id := by
  have listed := @BlockObject.own_filter_reference ⟨⟨id, .root⟩, block⟩ rfl unique reference
  rw [named?, root_eq_some stored, Option.bind_some, ← List.head?_filter, listed, ownOf?, stored,
    Option.bind_some, Option.head?_toList]
  rfl

theorem ownAndInherited_plain (ends : block.base? = none) (steps : Nat) :
    graph.ownAndInherited steps ⟨⟨id, .root⟩, block⟩ =
      (⟨⟨id, .root⟩, block⟩ : BlockObject).own := by
  cases steps with
  | zero => rfl
  | succ steps =>
    rw [ownAndInherited]
    simp only [BlockObject.key, baseOf?, ends, Option.bind_none]

theorem ownAndInherited_extending {base : BlockId} {above : Block}
    (extended : block.base? = some base) (stored : graph.block? base = some above) (steps : Nat) :
    graph.ownAndInherited (steps + 1) ⟨⟨id, .root⟩, block⟩ =
      (⟨⟨id, .root⟩, block⟩ : BlockObject).own ++
        (graph.ownAndInherited steps ⟨⟨base, .root⟩, above⟩).filter fun inherited =>
          !((⟨⟨id, .root⟩, block⟩ : BlockObject).own.map BlockObject.source).contains
            inherited.source := by
  have found : graph.resolveLocal? base .empty = some ⟨⟨base, .root⟩, above⟩ :=
    resolveLocal_eq_some_iff.mpr (.own stored rfl)
  have nearest : graph.baseOf? ⟨⟨id, .root⟩, block⟩ = some ⟨⟨base, .root⟩, above⟩ := by
    rw [baseOf?, extended, Option.bind_some]
    exact found
  rw [ownAndInherited, nearest]
  rfl

/-- Whether every stored block among some has names that tell its objects apart. -/
def AreWellNamed (graph : Graph) (blocks : List BlockId) : Prop :=
  ∀ id ∈ blocks, ∀ block, graph.block? id = some block → block.IsWellNamed

theorem Chain.mem_ownAndInherited {blocks : List BlockId} (chain : graph.Chain id blocks)
    (stored : graph.block? id = some block) {steps : Nat} {object : BlockObject}
    (listed : object ∈ graph.ownAndInherited steps ⟨⟨id, .root⟩, block⟩) :
    object.id.block ∈ blocks ∧ graph.Has object := by
  have own : ∀ {id : BlockId} {block : Block}, graph.block? id = some block →
      object ∈ (⟨⟨id, .root⟩, block⟩ : BlockObject).own →
        object.id.block = id ∧ graph.Has object := by
    intro id block stored listed
    obtain ⟨key, rfl, has⟩ := (BlockObject.mem_own_iff rfl).mp listed
    exact ⟨rfl, stored, has⟩
  induction chain generalizing block steps with
  | plain stored' ends =>
    cases stored.symm.trans stored'
    rw [ownAndInherited_plain ends] at listed
    obtain ⟨same, has⟩ := own stored listed
    exact ⟨same ▸ List.mem_cons_self, has⟩
  | @extending id base block' rest stored' extended above ih =>
    obtain rfl : block = block' := Option.some.inj (stored.symm.trans stored')
    obtain ⟨content, storedBase⟩ := above.stored
    have front : object ∈ (⟨⟨id, .root⟩, block⟩ : BlockObject).own →
        object.id.block ∈ id :: rest ∧ graph.Has object := by
      intro listed
      obtain ⟨same, has⟩ := own stored listed
      exact ⟨same ▸ List.mem_cons_self, has⟩
    cases steps with
    | zero => exact front listed
    | succ steps =>
      rw [ownAndInherited_extending extended storedBase] at listed
      rcases List.mem_append.mp listed with listed | listed
      · exact front listed
      · obtain ⟨inside, has⟩ := ih storedBase (List.mem_filter.mp listed).1
        exact ⟨List.mem_cons_of_mem _ inside, has⟩

/-- The list of all objects of a block holds the object that a name leads to, and no other of that
name. -/
theorem Chain.filter_ownAndInherited {blocks : List BlockId} (chain : graph.Chain id blocks)
    (wellNamed : graph.AreWellNamed blocks) (stored : graph.block? id = some block) {steps : Nat}
    (enough : blocks.length ≤ steps + 1) (reference : ObjectReference) :
    (graph.ownAndInherited steps ⟨⟨id, .root⟩, block⟩).filter (·.reference = reference.inner) =
      (blocks.findSome? (graph.ownOf? reference)).toList := by
  have own : ∀ {id : BlockId} {block : Block}, graph.block? id = some block → block.IsWellNamed →
      (⟨⟨id, .root⟩, block⟩ : BlockObject).own.filter (·.reference = reference.inner) =
        (graph.ownOf? reference id).toList := by
    intro id block stored wellNamed
    rw [BlockObject.own_filter_reference rfl wellNamed.unique, ownOf?, stored, Option.bind_some]
    rfl
  induction chain generalizing block steps with
  | plain stored' ends =>
    cases stored.symm.trans stored'
    rw [ownAndInherited_plain ends, own stored (wellNamed _ List.mem_cons_self _ stored),
      List.findSome?_singleton]
  | @extending id base block' rest stored' extended above ih =>
    obtain rfl : block = block' := Option.some.inj (stored.symm.trans stored')
    have plain := wellNamed id List.mem_cons_self block stored
    obtain ⟨content, storedBase⟩ := above.stored
    obtain ⟨steps, rfl⟩ : ∃ fewer, steps = fewer + 1 := by
      obtain ⟨rest, rfl⟩ := above.starts
      exact ⟨steps - 1, by simp only [List.length_cons] at enough; omega⟩
    have inherited := ih (fun member inside => wellNamed member (List.mem_cons_of_mem _ inside))
      storedBase (Nat.le_of_succ_le_succ enough)
    have sources : ∀ object ∈ graph.ownAndInherited steps ⟨⟨base, .root⟩, content⟩,
        ∀ mine ∈ (⟨⟨id, .root⟩, block⟩ : BlockObject).own,
          (mine.source = object.source ↔ mine.reference = object.reference) := by
      intro object listed mine isMine
      obtain ⟨key, rfl, has⟩ := (BlockObject.mem_own_iff rfl).mp isMine
      obtain ⟨inside, known, has'⟩ := above.mem_ownAndInherited storedBase listed
      exact BlockObject.source_eq_iff plain
        (wellNamed _ (List.mem_cons_of_mem _ inside) _ known) has has'
    rw [ownAndInherited_extending extended storedBase, List.filter_append,
      BlockObject.filter_unlike sources, own stored plain, inherited, List.findSome?_cons]
    -- an own object of the name hides the inherited ones
    cases graph.ownOf? reference id with
    | none => rfl
    | some mine => rfl

theorem Chain.named_eq_ownOf {blocks : List BlockId} (chain : graph.Chain id blocks)
    (wellNamed : graph.AreWellNamed blocks) (reference : ObjectReference) :
    ∀ member ∈ blocks, graph.named? reference member = graph.ownOf? reference member := by
  intro member inside
  obtain ⟨content, known⟩ := isComplete_iff.mp (chain.isComplete member inside)
  exact graph.named_eq_ownOf known (wellNamed member inside content known).unique reference

theorem Chain.allOf_eq {blocks : List BlockId} (chain : graph.Chain id blocks)
    (stored : graph.block? id = some block) :
    ∃ inherited, graph.allOf ⟨⟨id, .root⟩, block⟩ =
        (⟨⟨id, .root⟩, block⟩ : BlockObject).own ++ inherited ∧
      ∀ object ∈ inherited, object.id.block ≠ id := by
  have single := chain.nodup
  cases chain with
  | plain stored' ends =>
    cases stored.symm.trans stored'
    exact ⟨[], by rw [allOf, ownAndInherited_plain ends, List.append_nil], nofun⟩
  | @extending _ base block' rest stored' extended above =>
    obtain rfl : block = block' := Option.some.inj (stored.symm.trans stored')
    obtain ⟨content, storedBase⟩ := above.stored
    obtain ⟨steps, slots⟩ : ∃ steps, graph.slots.size = steps + 1 :=
      ⟨graph.slots.size - 1, by have := slot_lt_of_block stored; omega⟩
    refine ⟨_, by rw [allOf, slots, ownAndInherited_extending extended storedBase], ?_⟩
    intro object listed same
    obtain ⟨inside, _⟩ := above.mem_ownAndInherited storedBase (List.mem_filter.mp listed).1
    exact (List.nodup_cons.mp single).1 (same ▸ inside)

/-- The chain of a block decides what the block has: a reference leads to the object of the first
block of the chain with its names, all objects are those that the names lead to, own ones first, and
an object overrides those of its names behind its block, nearest first. -/
theorem Chain.decides_objects {blocks : List BlockId} (chain : graph.Chain id blocks)
    (wellNamed : graph.AreWellNamed blocks) :
    ∃ root, graph.root? id = some root ∧
      (∀ reference : ObjectReference, reference.block = none →
        graph.resolve? id reference = blocks.findSome? (graph.named? reference) ∧
          (graph.allOf root).filter (·.reference = reference.inner) =
            (graph.resolve? id reference).toList) ∧
      (∃ inherited, graph.allOf root = root.own ++ inherited ∧
        ∀ object ∈ inherited, object.id.block ≠ id) ∧
      ∀ object ∈ root.own,
        graph.stylesOf object =
            object :: blocks.tail.filterMap (graph.named? object.reference) ∧
          (graph.stylesOf object).Nodup := by
  obtain ⟨block, stored⟩ := chain.stored
  have enough := chain.length_le_slots chain.nodup
  have same := chain.named_eq_ownOf wellNamed
  refine ⟨_, root_eq_some stored, fun reference noBlock => ?_, chain.allOf_eq stored, ?_⟩
  · have resolved : graph.resolve? id reference = blocks.findSome? (graph.ownOf? reference) := by
      rw [resolve?, noBlock]
      exact chain.resolveLocal_eq reference
    refine ⟨?_, ?_⟩
    · rw [resolved, ← List.head?_filterMap, ← List.head?_filterMap,
        List.filterMap_congr (same reference)]
    · rw [resolved]
      exact chain.filter_ownAndInherited wellNamed stored (by omega) reference
  · intro object listed
    obtain ⟨key, rfl, -⟩ := (BlockObject.mem_own_iff rfl).mp listed
    obtain ⟨rest, rfl⟩ := chain.starts
    let object : BlockObject := ⟨⟨id, key⟩, block⟩
    have styles : graph.stylesOf object =
        object :: rest.filterMap (graph.ownOf? object.reference) := chain.stylesOf_eq stored
    have names : rest.filterMap (graph.named? object.reference) =
        rest.filterMap (graph.ownOf? object.reference) :=
      List.filterMap_congr fun member inside => same _ member (List.mem_cons_of_mem _ inside)
    exact ⟨styles.trans (congrArg (object :: ·) names.symm), chain.stylesOf_nodup stored⟩

end Graph

/-- A block with a menu that opens and has two sizes. -/
def shellBlock : Block :=
  { Block.bare "shell" "shell.css" "shell.css" with
    classes := [⟨"menu", [⟨⟨none, "open"⟩, .empty⟩, ⟨⟨some "size", "big"⟩, .empty⟩], .empty⟩] }

/-- A block that extends the first one and opens the menu in its own way. -/
def frameBlock : Block :=
  { Block.bare "frame" "frame.css" "frame.css" with
    extension := some ⟨⟨0⟩, "shell"⟩
    references := [("shell", ⟨0⟩)]
    classes := [⟨"menu", [⟨⟨none, "open"⟩, .empty⟩], .empty⟩, ⟨"bar", [], .empty⟩] }

/-- A block that extends the second one and has a state of its own for the root. -/
def windowBlock : Block :=
  { Block.bare "window" "window.css" "window.css" with
    extension := some ⟨⟨1⟩, "frame"⟩
    references := [("frame", ⟨1⟩)]
    states := [⟨⟨none, "open"⟩, .empty⟩]
    classes := [⟨"menu", [⟨⟨some "size", "big"⟩, .empty⟩], .empty⟩] }

def windowGraph : Graph := ⟨#[some shellBlock, some frameBlock, some windowBlock]⟩

/-- The open menu of the window is that of the frame, which overrides that of the shell, and the
window lists it once. -/
theorem windowGraph_decides_objects :
    windowGraph.Chain ⟨2⟩ [⟨2⟩, ⟨1⟩, ⟨0⟩] ∧ windowGraph.AreWellNamed [⟨2⟩, ⟨1⟩, ⟨0⟩] ∧
      let menu : ObjectReference := ⟨none, some "menu", some ⟨none, "open"⟩⟩
      let inherited : BlockObject := ⟨⟨⟨1⟩, .ofState (some 0) 0⟩, frameBlock⟩
      windowGraph.resolve? ⟨2⟩ menu = some inherited ∧
        (windowGraph.allOf ⟨⟨⟨2⟩, .root⟩, windowBlock⟩).filter (·.reference = menu) = [inherited] ∧
        windowGraph.stylesOf inherited =
          [inherited, ⟨⟨⟨0⟩, .ofState (some 0) 0⟩, shellBlock⟩] := by
  have plain : windowGraph.Chain ⟨0⟩ [⟨0⟩] := .plain rfl rfl
  have frame : windowGraph.Chain ⟨1⟩ [⟨1⟩, ⟨0⟩] := .extending rfl rfl plain
  have window : windowGraph.Chain ⟨2⟩ [⟨2⟩, ⟨1⟩, ⟨0⟩] := .extending rfl rfl frame
  have shellNamed : shellBlock.IsWellNamed := by decide +kernel
  have frameNamed : frameBlock.IsWellNamed := by decide +kernel
  have windowNamed : windowBlock.IsWellNamed := by decide +kernel
  have named : windowGraph.AreWellNamed [⟨2⟩, ⟨1⟩, ⟨0⟩] := by
    intro id inside block stored
    fin_cases inside <;> cases stored <;> assumption
  have namedAbove : windowGraph.AreWellNamed [⟨1⟩, ⟨0⟩] :=
    fun id inside => named id (List.mem_cons_of_mem _ inside)
  obtain ⟨root, isRoot, lookups, -⟩ := window.decides_objects named
  cases isRoot
  obtain ⟨root, isRoot, -, -, styles⟩ := frame.decides_objects namedAbove
  cases isRoot
  refine ⟨window, named, ?_⟩
  intro menu inherited
  obtain ⟨found, listed⟩ := lookups menu rfl
  have nearest : windowGraph.resolve? ⟨2⟩ menu = some inherited := found.trans rfl
  rw [nearest] at listed
  have isOwn : inherited ∈ (⟨⟨⟨1⟩, .root⟩, frameBlock⟩ : BlockObject).own :=
    (BlockObject.mem_own_iff rfl).mpr ⟨.ofState (some 0) 0, rfl, rfl⟩
  exact ⟨nearest, listed, (styles inherited isOwn).1⟩

end StyleBlock
