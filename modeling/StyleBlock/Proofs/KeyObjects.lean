import StyleBlock.Proofs.ClassMeaning
import StyleBlock.Proofs.Reading

/-!
Which object a key selects. Reading a selector registers an object for its key; a look at the key
afterwards finds the reference that it spells. Where the key spells one, both are the same object.
-/

namespace StyleBlock

namespace ObjectReference

variable {reference found : ObjectReference} {parts : List SimpleSelector}

/-- Nothing follows a state. -/
theorem foldlM_addNode_of_state (full : reference.state.isSome = true)
    (objects : ∀ node ∈ parts, node.isObjectPart = true) :
    parts.foldlM addNode? reference = some found ↔ parts = [] ∧ reference = found := by
  cases parts with
  | nil => simp
  | cons node rest =>
    have refused : addNode? reference node = none := by
      have occupied : reference.state.isNone = false := by simpa using full
      have part := objects node (List.mem_cons_self ..)
      cases node with
      | type _ => rfl
      | className _ => simp [addNode?, occupied]
      | attr _ => simp [addNode?, occupied]
      | universal | id _ | pseudoClass _ _ => cases part
    simp [List.foldlM_cons, refused]

/-- A state alone may follow a class. -/
theorem foldlM_addNode_of_class (full : reference.className.isSome = true)
    (stateless : reference.state = none) (objects : ∀ node ∈ parts, node.isObjectPart = true) :
    parts.foldlM addNode? reference = some found ↔
      parts.map SimpleSelector.state? = found.state.toList.map some ∧
        { reference with state := found.state } = found := by
  obtain ⟨block, className, state⟩ := reference
  obtain rfl : state = none := stateless
  obtain ⟨block', className', state'⟩ := found
  cases parts with
  | nil => cases state' <;> simp
  | cons node rest =>
    have part := objects node (List.mem_cons_self ..)
    have others : ∀ other ∈ rest, other.isObjectPart = true := fun other member =>
      objects other (List.mem_cons_of_mem _ member)
    cases node with
    | type _ => cases state' <;> simp [List.foldlM_cons, addNode?, SimpleSelector.state?]
    | className _ =>
      have occupied : className.isNone = false := by simpa using full
      cases state' <;> simp [List.foldlM_cons, addNode?, SimpleSelector.state?, occupied]
    | attr attr =>
      obtain ⟨name, same⟩ := @SimpleSelector.exists_state attr (by simpa using part)
      have rest' := @foldlM_addNode_of_state ⟨block, className, some name⟩
        ⟨block', className', state'⟩ rest rfl others
      cases state' with
      | none => simp [List.foldlM_cons, addNode?, same, rest']
      | some other =>
        simp [List.foldlM_cons, addNode?, same, rest']
        tauto
    | universal | id _ | pseudoClass _ _ => cases part

/-- A class may come first, and a state behind it. -/
theorem foldlM_addNode (classless : reference.className = none) (stateless : reference.state = none)
    (objects : ∀ node ∈ parts, node.isObjectPart = true) :
    parts.foldlM addNode? reference = some found ↔
      reference.block = found.block ∧ ∃ states, parts =
        found.className.toList.map .className ++ states ∧
          states.map SimpleSelector.state? = found.state.toList.map some := by
  obtain ⟨block, className, state⟩ := reference
  obtain rfl : className = none := classless
  obtain rfl : state = none := stateless
  obtain ⟨block', className', state'⟩ := found
  cases parts with
  | nil => cases className' <;> cases state' <;> simp
  | cons node rest =>
    have part := objects node (List.mem_cons_self ..)
    have others : ∀ other ∈ rest, other.isObjectPart = true := fun other member =>
      objects other (List.mem_cons_of_mem _ member)
    cases node with
    | type _ =>
      cases className' <;> cases state' <;>
        simp [List.foldlM_cons, addNode?, SimpleSelector.state?]
    | className name =>
      have rest' := @foldlM_addNode_of_class ⟨block, some name, none⟩
        ⟨block', className', state'⟩ rest rfl rfl others
      cases className' with
      | none => cases state' <;> simp [List.foldlM_cons, addNode?, rest', SimpleSelector.state?]
      | some other =>
        simp [List.foldlM_cons, addNode?, rest']
        tauto
    | attr attr =>
      obtain ⟨name, same⟩ := @SimpleSelector.exists_state attr (by simpa using part)
      have rest' := @foldlM_addNode_of_state ⟨block, none, some name⟩
        ⟨block', className', state'⟩ rest rfl others
      cases className' <;> cases state' <;> simp [List.foldlM_cons, addNode?, same, rest']
      tauto
    | universal | id _ | pseudoClass _ _ => cases part

/-- The block name of a reference comes first or not at all. -/
theorem block_of_foldlM_addNode (folded : parts.foldlM addNode? reference = some found) :
    found.block = reference.block ∧ ∀ name, .type name ∉ parts := by
  induction parts generalizing reference with
  | nil =>
    cases folded
    exact ⟨rfl, nofun⟩
  | cons node rest ih =>
    rw [List.foldlM_cons] at folded
    obtain ⟨next, added, folded⟩ := Option.bind_eq_some_iff.mp folded
    obtain ⟨kept, noType⟩ := ih folded
    unfold addNode? at added
    split at added
    · split at added
      · cases added
        exact ⟨kept, by simpa using noType⟩
      · cases added
    · split at added
      · obtain ⟨_, _, rfl⟩ := Option.map_eq_some_iff.mp added
        exact ⟨kept, by simpa using noType⟩
      · cases added
    · split at added
      · obtain ⟨_, _, rfl⟩ := Option.map_eq_some_iff.mp added
        exact ⟨kept, by simpa using noType⟩
      · cases added
    · cases added

theorem nonempty_eq_some_iff (folded : Option ObjectReference) :
    (folded >>= fun reference => if reference = empty then none else some reference) = some found ↔
      folded = some found ∧ found ≠ empty := by
  cases folded with
  | none => simp
  | some reference =>
    by_cases same : reference = empty
    · simp only [same, Option.bind_eq_bind, Option.bind_some, if_true, reduceCtorEq, false_iff]
      rintro ⟨⟨⟩, nonempty⟩
      exact nonempty rfl
    · simp only [Option.bind_eq_bind, Option.bind_some, if_neg same, Option.some.injEq]
      constructor
      · rintro rfl
        exact ⟨rfl, same⟩
      · exact And.left

/-- Parts make up a reference when they are its block name, its class and its state. -/
theorem ofNodes_eq_some_iff (objects : ∀ node ∈ parts, node.isObjectPart = true) :
    ofNodes? parts = some found ↔
      (∃ states : List SimpleSelector,
        parts = found.block.toList.map .type ++ found.className.toList.map .className ++ states ∧
        states.map SimpleSelector.state? = found.state.toList.map some) ∧ found ≠ .empty := by
  unfold ofNodes?
  dsimp only
  split
  · rename_i name rest
    rw [nonempty_eq_some_iff, foldlM_addNode rfl rfl fun other member =>
      objects other (List.mem_cons_of_mem _ member)]
    refine and_congr_left fun _ => ?_
    obtain ⟨block, className, state⟩ := found
    cases block with
    | none =>
      cases className <;> cases state <;> simp [SimpleSelector.state?]
    | some other => simp [and_assoc]
  · rename_i notType
    rw [nonempty_eq_some_iff, foldlM_addNode rfl rfl objects]
    refine and_congr_left fun _ => ?_
    cases block : found.block with
    | none => simp [empty]
    | some name => simpa [empty] using fun states same => absurd same (notType _ _)

/-- A compound without foreign nodes names the reference that it spells. -/
theorem inCompound_eq_some_iff {compound : Compound} (noId : ∀ id, .id id ∉ compound.nodes)
    (notUniversal : .universal ∉ compound.nodes)
    (noStateFunction : ∀ argument, .pseudoClass stateScope argument ∉ compound.nodes) :
    inCompound? compound = some found ↔ compound.Spells found := by
  have same : compound.nodes.filter isPart = compound.nodes.filter SimpleSelector.isObjectPart := by
    refine List.filter_congr fun node member => ?_
    cases node with
    | type _ | className _ | attr _ => rfl
    | universal => exact absurd member notUniversal
    | id name => exact absurd member (noId name)
    | pseudoClass name argument =>
      have apart : name ≠ stateScope := fun same => noStateFunction argument (same ▸ member)
      simp [isPart, apart]
  rw [inCompound?, same, ofNodes_eq_some_iff fun node member => (List.mem_filter.mp member).2]
  exact ⟨fun ⟨parts, nonempty⟩ => ⟨parts, noStateFunction, nonempty⟩,
    fun spells => ⟨spells.parts, spells.nonempty⟩⟩

end ObjectReference

theorem Legality.state_of_plainState {node : SimpleSelector} {attr : AttributeSelector}
    {name : StateName} (plain : plainState? node attr = some name) : node.state? = some name := by
  unfold plainState? at plain
  split at plain
  · exact plain
  · split at plain
    · exact plain
    · cases plain

namespace Compound.Spells

variable {compound : Compound} {reference : ObjectReference}

theorem mem_parts (spells : compound.Spells reference) {node : SimpleSelector}
    (member : node ∈ compound.nodes) (part : node.isObjectPart = true) :
    (∃ name ∈ reference.block, node = .type name) ∨
      (∃ name ∈ reference.className, node = .className name) ∨
        ∃ name ∈ reference.state, node.state? = some name := by
  obtain ⟨states, parts, spelled⟩ := spells.parts
  have listed : node ∈ compound.nodes.filter SimpleSelector.isObjectPart :=
    List.mem_filter.mpr ⟨member, part⟩
  rw [parts, List.mem_append, List.mem_append] at listed
  rcases listed with (isBlock | isClass) | isState
  · obtain ⟨name, present, rfl⟩ := List.mem_map.mp isBlock
    exact .inl ⟨name, Option.mem_toList.mp present, rfl⟩
  · obtain ⟨name, present, rfl⟩ := List.mem_map.mp isClass
    exact .inr (.inl ⟨name, Option.mem_toList.mp present, rfl⟩)
  · have image := List.mem_map_of_mem (f := SimpleSelector.state?) isState
    rw [spelled] at image
    obtain ⟨name, present, same⟩ := List.mem_map.mp image
    exact .inr (.inr ⟨name, Option.mem_toList.mp present, same.symm⟩)

theorem mem_nodes (spells : compound.Spells reference) :
    (∀ name ∈ reference.block, .type name ∈ compound.nodes) ∧
      (∀ name ∈ reference.className, .className name ∈ compound.nodes) ∧
        ∀ name ∈ reference.state, ∃ node ∈ compound.nodes, node.isObjectPart = true ∧
          node.state? = some name := by
  obtain ⟨states, parts, spelled⟩ := spells.parts
  have inside : ∀ node, node ∈ reference.block.toList.map SimpleSelector.type ++
      reference.className.toList.map .className ++ states →
        node ∈ compound.nodes ∧ node.isObjectPart = true := fun node member =>
    List.mem_filter.mp (parts ▸ member)
  refine ⟨fun name present => (inside _ ?_).1, fun name present => (inside _ ?_).1,
    fun name present => ?_⟩
  · simp [Option.mem_def.mp present]
  · simp [Option.mem_def.mp present]
  · obtain ⟨node, member, same⟩ : ∃ node ∈ states, node.state? = some name := by
      have image : some name ∈ states.map SimpleSelector.state? := by
        rw [spelled, Option.mem_def.mp present]
        exact List.mem_singleton_self _
      exact List.mem_map.mp image
    exact ⟨node, (inside node (by simp [member])).1, (inside node (by simp [member])).2, same⟩

/-- A compound that writes an own object and spells a reference finds the object by it. -/
theorem findOwn_eq (spells : compound.Spells reference) {className : Option String}
    {state : Option StateName} (noType : ∀ name, .type name ∉ compound.nodes)
    (writes : Writes compound.nodes className state) (block : Block) :
    reference.block = none ∧
      block.findOwn? reference = block.findOwn? ⟨none, className, state⟩ := by
  obtain ⟨hasBlock, hasClass, hasState⟩ := spells.mem_nodes
  have own : reference.block = none :=
    Option.eq_none_iff_forall_not_mem.mpr fun name present => noType name (hasBlock name present)
  have owner : block.owner? reference.className = block.owner? className := by
    cases spelled : reference.className with
    | some name =>
      have same := writes.classes name (hasClass name spelled)
      cases className with
      | some other => exact congrArg (fun name => block.owner? (some name)) same
      | none =>
        subst same
        simp [Block.owner?]
    | none =>
      cases className with
      | none => rfl
      | some name =>
        obtain ⟨before, after, nodes, _⟩ := writes.owned name rfl
        have member : .className name ∈ compound.nodes := by simp [nodes]
        rcases spells.mem_parts member rfl with ⟨_, _, same⟩ | ⟨_, present, _⟩ | ⟨_, _, same⟩
        · cases same
        · simp [spelled] at present
        · cases same
  have states : reference.state = state := by
    cases spelled : reference.state with
    | some name =>
      obtain ⟨node, member, part, same⟩ := hasState name spelled
      cases node with
      | attr attr =>
        obtain ⟨other, present, plain⟩ := writes.states attr member (by simpa using part)
        rw [Option.mem_def.mp present, ← same]
        exact (Legality.state_of_plainState plain)
      | type _ | className _ | universal | id _ | pseudoClass _ _ => cases same
    | none =>
      cases state with
      | none => rfl
      | some name =>
        obtain ⟨attr, member, isState⟩ := writes.stated rfl
        rcases spells.mem_parts member (by simpa using isState) with
          ⟨_, _, same⟩ | ⟨_, _, same⟩ | ⟨_, present, _⟩
        · cases same
        · cases same
        · simp [spelled] at present
  exact ⟨own, by rw [Block.findOwn_eq_bind, Block.findOwn_eq_bind, owner, states]⟩

end Compound.Spells

/-- A compound with a type node names an object of another block, if any. -/
theorem ObjectReference.block_of_inCompound {compound : Compound} {reference : ObjectReference}
    {name : String} (typed : .type name ∈ compound.nodes)
    (named : inCompound? compound = some reference) : reference.block.isSome = true := by
  have listed : .type name ∈ compound.nodes.filter isPart := List.mem_filter.mpr ⟨typed, rfl⟩
  unfold inCompound? ofNodes? at named
  dsimp only at named
  split at named
  · rw [nonempty_eq_some_iff] at named
    rw [(block_of_foldlM_addNode named.1).1]
    rfl
  · rw [nonempty_eq_some_iff] at named
    exact absurd listed ((block_of_foldlM_addNode named.1).2 name)

theorem BlockObject.isNamedBy_iff {compound : Compound} (object : BlockObject) :
    object.isNamedBy compound = true ↔ ∃ reference, ObjectReference.inCompound? compound =
      some reference ∧ reference.block = none ∧
        object.block.findOwn? reference = some object.key := by
  unfold isNamedBy
  cases ObjectReference.inCompound? compound <;> simp

theorem Selector.getLast_compounds (selector : Selector) :
    ∃ combinator, selector.compounds.getLast? = some (combinator, selector.key) := by
  unfold compounds key
  cases tail : selector.tail.getLast? with
  | none =>
    rw [List.getLast?_eq_none_iff] at tail
    exact ⟨none, by simp [tail]⟩
  | some last =>
    exact ⟨some last.1, by simp [List.getLast?_cons, tail]⟩

/-- Lists that are related element by element are related at their ends. -/
theorem forall₂_getLast {α β : Type} {related : α → β → Prop} {left : List α} {right : List β}
    {last : α} (each : List.Forall₂ related left right) (isLast : left.getLast? = some last) :
    ∃ other, right.getLast? = some other ∧ related last other := by
  rw [← List.head?_reverse] at isLast
  have turned := List.forall₂_reverse_iff.mpr each
  rw [← List.head?_reverse]
  generalize left.reverse = lefts, right.reverse = rights at turned isLast ⊢
  cases turned with
  | nil => simp at isLast
  | cons first _ =>
    cases isLast
    exact ⟨_, rfl, first⟩

namespace Block.Loading

variable {block : Block}

/-- The object that a load found for the key of a selector, where it came to it. -/
def KeyOf (loading : block.Loading) (rule : Rule) (selector : Selector) (key : Option ObjectKey) :
    Prop :=
  ∃ stage read, loading.ComesTo rule selector stage ∧
    Legality.classify loading.graph stage selector = .ok (read, key)

/-- What the load found for a key, in terms of the finished block. -/
theorem KeyOf.found {loading : block.Loading} {rule : Rule} {selector : Selector}
    {key : Option ObjectKey} (keyOf : loading.KeyOf rule selector key) :
    (∀ id, .id id ∉ selector.key.nodes) ∧ .universal ∉ selector.key.nodes ∧
      ∃ object, Legality.Found block selector.key object ∧
        ∀ found, key = some found ↔ object = .own found := by
  obtain ⟨stage, read, comes, classified⟩ := keyOf
  obtain ⟨_, read', key', again, grows⟩ := loading.classified comes
  cases classified.symm.trans again
  obtain ⟨objects, all, last⟩ := Legality.classify_eq_ok classified
  obtain ⟨combinator, isKey⟩ := selector.getLast_compounds
  obtain ⟨⟨_, object⟩, isLast, _, noId, notUniversal, found⟩ :=
    forall₂_getLast (Legality.areRead_classifyAll all).each isKey
  exact ⟨noId, notUniversal, object, found.grow grows, fun found => by simp [last, isLast]⟩

/-- Reading a selector and looking at its key afterwards agree. The load finds an object for the
key of every selector of every style rule, own or not; and where the key spells one reference, the
object found is the only object of the block that the key names, or it names none if the load found
an object of another block. -/
theorem isNamedBy_key_iff (loading : block.Loading) (id : BlockId) {rule : Rule}
    {selector : Selector} (style : rule ∈ block.sheet.styleRules)
    (written : selector ∈ block.selectorsOf rule.head.id) :
    (∃ key, loading.KeyOf rule selector key) ∧
      ∀ key, loading.KeyOf rule selector key →
        (key.isSome = true → ∃ reference, selector.key.Spells reference) →
          let root : BlockObject := ⟨⟨id, .root⟩, block⟩
          (∀ found ∈ key, root.sibling found ∈ root.own) ∧
            ∀ object ∈ root.own, object.isNamedBy selector.key = true ↔ key = some object.key := by
  refine ⟨?_, fun key keyOf spelled => ?_⟩
  · obtain ⟨stage, comes⟩ := loading.exists_comesTo style written
    obtain ⟨_, read, key, classified, _⟩ := loading.classified comes
    exact ⟨key, stage, read, comes, classified⟩
  obtain ⟨noId, notUniversal, object, found, isKey⟩ := keyOf.found
  have listed : ∀ other ∈ (⟨⟨id, .root⟩, block⟩ : BlockObject).own, other.block = block := by
    intro other member
    obtain ⟨key, rfl, _⟩ := (BlockObject.mem_own_iff rfl).mp member
    rfl
  cases found with
  | foreign typed =>
    have free : key = none := by
      cases key with
      | none => rfl
      | some other => exact nomatch (isKey other).mp rfl
    subst free
    refine ⟨nofun, fun other _ => ⟨fun names => ?_, nofun⟩⟩
    obtain ⟨reference, named, own, _⟩ := other.isNamedBy_iff.mp names
    simpa [own] using ObjectReference.block_of_inCompound typed named
  | @own className state own noType writes _ found =>
    obtain rfl : key = some own := (isKey own).mpr rfl
    obtain ⟨reference, spells⟩ := spelled rfl
    obtain ⟨unnamed, same⟩ := spells.findOwn_eq noType writes block
    have named := (ObjectReference.inCompound_eq_some_iff noId notUniversal
      spells.noStateFunction).mpr spells
    refine ⟨?_, fun other member => ?_⟩
    · rintro _ ⟨⟩
      exact (BlockObject.mem_own_iff rfl).mpr ⟨own, rfl, Block.contains_of_findOwn found⟩
    · rw [other.isNamedBy_iff, listed other member, named]
      constructor
      · rintro ⟨_, ⟨⟩, _, names⟩
        rw [same, found] at names
        exact names
      · intro isOwn
        exact ⟨reference, rfl, unnamed, by rw [same, found, isOwn]⟩

end Block.Loading

/-- The selector `tabs.tab > .item:hover[state|open]`. -/
def menuSelector : Selector :=
  ⟨⟨[.type "tabs", .className "tab"], none⟩, [(.child,
    ⟨[.className "item", .pseudoClass "hover" none, .ofState ⟨none, "open"⟩], none⟩)]⟩

def menuRule : Rule :=
  ⟨⟨0, "tabs.tab > .item:hover[state|open]", ⟨1, 40, 39⟩⟩,
    [.declaration ⟨"color", "red", false, ⟨1, 77, 76⟩⟩]⟩

/-- A block with a state of its own behind an object of another block. -/
def menuBlock : Block :=
  { Block.bare "menu" "menu.css" "menu.css" with
    named := true
    references := [("tabs", ⟨1⟩)]
    classes := [⟨"item", [⟨⟨none, "open"⟩, ⟨[⟨none, "color"⟩]⟩⟩], .empty⟩]
    sheet := ⟨"menu.css", [.statement ⟨"block-reference", "tabs from \"tabs.css\"", ⟨1, 1, 0⟩⟩,
      .rule menuRule.head menuRule.nodes], 1⟩
    selectors := [(0, [menuSelector])] }

def menuLoading : menuBlock.Loading where
  text := "@block-reference tabs from \"tabs.css\"; " ++
    "tabs.tab > .item:hover[state|open] \x7b color: red; \x7d"
  debugIdentifier := "menu.css"
  defaultName := "menu"
  identifier := "menu.css"
  sheet := menuBlock.sheet
  draft := ⟨{ menuBlock with named := false, classes := [], references := [] }, []⟩
  graph := ⟨#[none, some tabsBlock]⟩
  defaults := id
  links := [(⟨⟨some "tabs", "tabs.css"⟩, "tabs.css", ⟨"menu.css", 1, 1, 0⟩⟩, ⟨1⟩)]
  body := { menuBlock with named := false }
  dependencies := []
  name := "menu"
  read := by with_unfolding_all rfl
  drafted := by with_unfolding_all rfl
  completed := by with_unfolding_all rfl
  named := by with_unfolding_all rfl

/-- The state is the only object that the key `.item:hover[state|open]` names. -/
theorem menuSelector_key_names_state :
    (∃ key, menuLoading.KeyOf menuRule menuSelector key) ∧
      ∀ key, menuLoading.KeyOf menuRule menuSelector key →
        ∀ object ∈ (⟨⟨⟨0⟩, .root⟩, menuBlock⟩ : BlockObject).own,
          object.isNamedBy menuSelector.key = true ↔ key = some object.key := by
  have spelled : ∃ reference, menuSelector.key.Spells reference := by
    refine ⟨⟨none, some "item", some ⟨none, "open"⟩⟩, ⟨[.ofState ⟨none, "open"⟩], ?_, ?_⟩, ?_, ?_⟩
    · decide
    · decide
    · simp [menuSelector, Selector.key, SimpleSelector.ofState, stateScope]
    · decide
  have agree := @Block.Loading.isNamedBy_key_iff _ menuLoading ⟨0⟩ menuRule menuSelector
    (List.mem_singleton_self _) (List.mem_singleton_self _)
  exact ⟨agree.1, fun key keyOf => (agree.2 key keyOf fun _ => spelled).2⟩

/-- The selector `.tab[state|on][state|on]`, which writes a state twice. -/
def twiceSelector : Selector :=
  .ofCompound ⟨[.className "tab", .ofState ⟨none, "on"⟩, .ofState ⟨none, "on"⟩], none⟩

def twiceRule : Rule :=
  ⟨⟨0, ".tab[state|on][state|on]", ⟨1, 1, 0⟩⟩, [.declaration ⟨"color", "red", false, ⟨1, 28, 27⟩⟩]⟩

def twiceBlock : Block :=
  { Block.bare "twice" "twice.css" "twice.css" with
    named := true
    classes := [⟨"tab", [⟨⟨none, "on"⟩, ⟨[⟨none, "color"⟩]⟩⟩], .empty⟩]
    sheet := ⟨"twice.css", [.rule twiceRule.head twiceRule.nodes], 1⟩
    selectors := [(0, [twiceSelector])] }

def twiceLoading : twiceBlock.Loading where
  text := ".tab[state|on][state|on] \x7b color: red; \x7d"
  debugIdentifier := "twice.css"
  defaultName := "twice"
  identifier := "twice.css"
  sheet := twiceBlock.sheet
  draft := ⟨{ twiceBlock with named := false, classes := [] }, []⟩
  graph := ⟨#[none]⟩
  defaults := id
  links := []
  body := { twiceBlock with named := false }
  dependencies := []
  name := "twice"
  read := by with_unfolding_all rfl
  drafted := by with_unfolding_all rfl
  completed := by with_unfolding_all rfl
  named := by with_unfolding_all rfl

theorem twiceLoading_comesTo :
    twiceLoading.ComesTo twiceRule twiceSelector twiceLoading.draft.block :=
  ⟨twiceLoading.draft, rfl, @Draft.ComesTo.here _ _ _ _ _ _ [] [] rfl rfl⟩

/-- The load finds the state for a key that writes it twice, and yet no object of the block is named
by that key. -/
theorem twiceSelector_key_names_nothing :
    twiceLoading.KeyOf twiceRule twiceSelector (some (.ofState (some 0) 0)) ∧
      ∀ object ∈ (⟨⟨⟨0⟩, .root⟩, twiceBlock⟩ : BlockObject).own,
        object.isNamedBy twiceSelector.key = false := by
  constructor
  · let read : Block := { twiceLoading.draft.block with
      classes := [⟨"tab", [⟨⟨none, "on"⟩, .empty⟩], .empty⟩] }
    exact ⟨twiceLoading.draft.block, read, twiceLoading_comesTo, rfl⟩
  · intro object member
    obtain ⟨key, rfl, _⟩ := (BlockObject.mem_own_iff rfl).mp member
    rfl

end StyleBlock
