import StyleBlock.Proofs.KeyObjects

/-!
What is left of a legal compound once its objects are replaced by their classes: no block names, no
states, and no classes but those of objects, among them the class of the object that reading the
compound found.
-/

namespace StyleBlock

/-- Nodes in which all objects were replaced by classes of a graph. -/
structure OnlyClasses (graph : Graph) (mode : OutputMode) (nodes : List SimpleSelector) : Prop where
  noType : ∀ name, .type name ∉ nodes
  noState : ∀ attr, .attr attr ∈ nodes → attr.isState = false
  classes : ∀ name, .className name ∈ nodes →
    ∃ object, graph.Has object ∧ object.cssClass mode = name

namespace OnlyClasses

variable {graph : Graph} {mode : OutputMode} {nodes : List SimpleSelector}

theorem nil : OnlyClasses graph mode [] :=
  ⟨nofun, nofun, nofun⟩

theorem cons_class (only : OnlyClasses graph mode nodes) {object : BlockObject}
    (has : graph.Has object) : OnlyClasses graph mode (.className (object.cssClass mode) :: nodes)
    where
  noType name := by simpa using only.noType name
  noState attr := by simpa using only.noState attr
  classes name member := by
    rcases List.mem_cons.mp member with same | member
    · cases same
      exact ⟨object, has, rfl⟩
    · exact only.classes name member

theorem cons_other (only : OnlyClasses graph mode nodes) {node : SimpleSelector}
    (plain : node.isObjectPart = false) : OnlyClasses graph mode (node :: nodes) where
  noType name member := by
    rcases List.mem_cons.mp member with rfl | member
    · cases plain
    · exact only.noType name member
  noState attr member := by
    rcases List.mem_cons.mp member with rfl | member
    · exact plain
    · exact only.noState attr member
  classes name member := by
    rcases List.mem_cons.mp member with rfl | member
    · cases plain
    · exact only.classes name member

end OnlyClasses

/-- Every state stands behind a class that no other state stands behind. `ready` says whether such
a class came before. -/
def statesOwned (ready : Bool) : List SimpleSelector → Bool
  | [] => true
  | .className _ :: rest => statesOwned true rest
  | .attr attr :: rest =>
    if attr.isState then ready && statesOwned false rest else statesOwned ready rest
  | _ :: rest => statesOwned ready rest

/-- Nodes without a block name, whose classes and states are all the same. Where the class is not
the root, every state has a class of its own. -/
structure Repeats (nodes : List SimpleSelector) (className : Option String)
    (state : Option StateName) : Prop where
  noType : ∀ name, .type name ∉ nodes
  classes : ∀ name, .className name ∈ nodes → name = className.getD rootClass
  states : ∀ attr, .attr attr ∈ nodes → attr.isState = true →
    ∃ name ∈ state, (SimpleSelector.attr attr).state? = some name
  owned : className.isSome = true → statesOwned false nodes = true

/-- Whether nodes write the last part of an object: its state if it has one, or else its class. -/
def WritesLast (nodes : List SimpleSelector) (state : Option StateName) : Prop :=
  match state with
  | some _ => ∃ attr, .attr attr ∈ nodes ∧ attr.isState = true
  | none => ∃ name, .className name ∈ nodes

theorem not_writesLast_nil {state : Option StateName} : ¬WritesLast [] state := by
  unfold WritesLast
  cases state <;> simp

theorem WritesLast.tail {node : SimpleSelector} {rest : List SimpleSelector}
    {state : Option StateName} (writes : WritesLast (node :: rest) state)
    (noClass : state = none → ∀ name, node ≠ .className name)
    (noState : ∀ attr, node = .attr attr → attr.isState = false) : WritesLast rest state := by
  unfold WritesLast at writes ⊢
  cases state with
  | some _ =>
    obtain ⟨attr, member, isState⟩ := writes
    rcases List.mem_cons.mp member with same | member
    · simp [noState attr same.symm] at isState
    · exact ⟨attr, member, isState⟩
  | none =>
    obtain ⟨name, member⟩ := writes
    rcases List.mem_cons.mp member with same | member
    · exact absurd same.symm (noClass rfl name)
    · exact ⟨name, member⟩

namespace Repeats

variable {nodes rest others : List SimpleSelector} {className : Option String}
  {state : Option StateName}

theorem of_subset (repeats : Repeats nodes className state) (inside : rest ⊆ nodes)
    (owned : className.isSome = true → statesOwned false rest = true) :
    Repeats rest className state where
  noType name member := repeats.noType name (inside member)
  classes name member := repeats.classes name (inside member)
  states attr member := repeats.states attr (inside member)
  owned := owned

theorem tail_other {node : SimpleSelector} (repeats : Repeats (node :: rest) className state)
    (plain : node.isObjectPart = false) : Repeats rest className state := by
  refine repeats.of_subset (List.subset_cons_self ..) fun stated => ?_
  have owned := repeats.owned stated
  cases node with
  | type _ | className _ => cases plain
  | attr attr =>
    have notState : attr.isState = false := plain
    simpa [statesOwned, notState] using owned
  | universal | id _ | pseudoClass _ _ => exact owned

end Repeats

namespace Classes

variable {graph : Graph} {id : BlockId} {block : Block} {key : ObjectKey}
  {nodes rest : List SimpleSelector} {className : Option String} {state : Option StateName}

/-- What follows a class up to the next class is gathered, if it has a state: then the nodes behind
the state are left, which still own theirs. Otherwise all nodes are. -/
theorem gather_of_repeats (reference : ObjectReference) (full : reference.className.isSome = true)
    (noType : ∀ name, .type name ∉ nodes)
    (states : ∀ attr, .attr attr ∈ nodes → attr.isState = true →
      ∃ name ∈ state, (SimpleSelector.attr attr).state? = some name) :
    (gather reference nodes = (reference, nodes) ∧
      (statesOwned true nodes = true → statesOwned false nodes = true)) ∨
    (state.isSome = true ∧ ∃ others, gather reference nodes = ({ reference with state }, others) ∧
      others ⊆ nodes ∧ (statesOwned true nodes = true → statesOwned false others = true)) := by
  induction nodes with
  | nil => exact .inl ⟨rfl, id⟩
  | cons node rest ih =>
    have later := ih (fun name member => noType name (List.mem_cons_of_mem _ member))
      fun attr member => states attr (List.mem_cons_of_mem _ member)
    cases node with
    | type name => exact absurd (List.mem_cons_self ..) (noType name)
    | className name =>
      have occupied : reference.className.isNone = false := by simpa using full
      exact .inl ⟨by simp [gather, occupied], id⟩
    | attr attr =>
      cases isState : attr.isState with
      | true =>
        obtain ⟨name, isName, same⟩ := states attr (List.mem_cons_self ..) isState
        obtain rfl := Option.mem_def.mp isName
        exact .inr ⟨rfl, rest, by simp [gather, same], List.subset_cons_self .., fun owned => by
          simpa [statesOwned, isState] using owned⟩
      | false =>
        have nothing := SimpleSelector.state_eq_none_of_isState isState
        rcases later with ⟨same, owned⟩ | ⟨stated, others, same, inside, owned⟩
        · exact .inl ⟨by simp [gather, nothing, same], by simpa [statesOwned, isState] using owned⟩
        · exact .inr ⟨stated, .attr attr :: others, by simp [gather, nothing, same],
            List.cons_subset_cons _ inside, by simpa [statesOwned, isState] using owned⟩
    | universal | id _ | pseudoClass _ _ =>
      rcases later with ⟨same, owned⟩ | ⟨stated, others, same, inside, owned⟩
      · exact .inl ⟨by simp [gather, SimpleSelector.state?, same], owned⟩
      · exact .inr ⟨stated, _ :: others, by simp [gather, SimpleSelector.state?, same],
          List.cons_subset_cons _ inside, owned⟩

theorem resolve_own (present : graph.block? id = some block) {reference : ObjectReference}
    (unnamed : reference.block = none) (found : block.findOwn? reference = some key) :
    graph.resolve? id reference = some ⟨⟨id, key⟩, block⟩ := by
  rw [Graph.resolve_eq_some_iff, Graph.Refers, unnamed]
  exact .own present found

/-- Of an own object, the class or the root is found by its name too. -/
theorem exists_owner (found : block.findOwn? ⟨none, className, state⟩ = some key) :
    ∃ owner, block.findOwn? ⟨none, some (className.getD rootClass), none⟩ = some owner ∧
      block.findOwn? ⟨none, some (className.getD rootClass), state⟩ = some key ∧
      (state = none → owner = key) := by
  have same : block.owner? (some (className.getD rootClass)) = block.owner? className := by
    cases className with
    | some name => rfl
    | none => simp [Block.owner?]
  simp only [Block.findOwn_eq_bind] at found ⊢
  obtain ⟨owner, owned, found⟩ := Option.bind_eq_some_iff.mp found
  rw [same, owned]
  refine ⟨owner.elim .root .ofClass, rfl, found, ?_⟩
  rintro rfl
  exact Option.some.inj found

/-- A class stands for its object with the state that belongs to it, if there is one. -/
theorem objectAt_class (present : graph.block? id = some block)
    (found : block.findOwn? ⟨none, className, state⟩ = some key)
    (repeats : Repeats (.className (className.getD rootClass) :: rest) className state) :
    ∃ object others, objectAt? graph id (.className (className.getD rootClass)) rest =
        some (object, others) ∧ graph.Has object ∧ Repeats others className state ∧
      (object = ⟨⟨id, key⟩, block⟩ ∨ state.isSome = true ∧ others = rest) := by
  obtain ⟨owner, isOwner, isWhole, same⟩ := exists_owner found
  have foundOwner := resolve_own present rfl isOwner
  have foundWhole := resolve_own present rfl isWhole
  have started : start? (.className (className.getD rootClass)) =
      some ⟨none, some (className.getD rootClass), none⟩ := rfl
  rcases gather_of_repeats ⟨none, some (className.getD rootClass), none⟩ rfl
    (fun name member => repeats.noType name (List.mem_cons_of_mem _ member))
    (fun attr member => repeats.states attr (List.mem_cons_of_mem _ member)) with
    ⟨gathered, owned⟩ | ⟨stated, others, gathered, inside, owned⟩
  · refine ⟨⟨⟨id, owner⟩, block⟩, rest,
      by simp [objectAt?, started, complete, gathered, foundOwner],
      ⟨present, Block.contains_of_findOwn isOwner⟩,
      repeats.of_subset (List.subset_cons_self ..) fun classy => owned (repeats.owned classy), ?_⟩
    cases state with
    | none => exact .inl (same rfl ▸ rfl)
    | some name => exact .inr ⟨rfl, rfl⟩
  · exact ⟨⟨⟨id, key⟩, block⟩, others,
      by simp [objectAt?, started, complete, gathered, foundWhole],
      ⟨present, Block.contains_of_findOwn isWhole⟩,
      repeats.of_subset (fun _ member => List.mem_cons_of_mem _ (inside member))
        fun classy => owned (repeats.owned classy), .inl rfl⟩

/-- A state that has no class of its own stands for a state of the root. -/
theorem objectAt_state (present : graph.block? id = some block)
    (found : block.findOwn? ⟨none, className, state⟩ = some key) {attr : AttributeSelector}
    (isState : attr.isState = true)
    (repeats : Repeats (.attr attr :: rest) className state) :
    objectAt? graph id (.attr attr) rest = some (⟨⟨id, key⟩, block⟩, rest) ∧
      Repeats rest className state := by
  obtain ⟨name, isName, same⟩ := repeats.states attr (List.mem_cons_self ..) isState
  obtain rfl := Option.mem_def.mp isName
  have rootLevel : className = none := by
    cases className with
    | none => rfl
    | some other => simpa [statesOwned, isState] using repeats.owned rfl
  subst rootLevel
  have whole := resolve_own present rfl found
  exact ⟨by simp [objectAt?, start?, same, complete, whole, ObjectReference.empty],
    repeats.of_subset (List.subset_cons_self ..) nofun⟩

/-- Replacing objects leaves only classes of objects, and the class of the object that was found is
among them. -/
theorem onlyClasses_ofNodes (mode : OutputMode) (present : graph.block? id = some block)
    (found : block.findOwn? ⟨none, className, state⟩ = some key)
    (repeats : Repeats nodes className state) :
    OnlyClasses graph mode (ofNodes graph id mode nodes) ∧
      (WritesLast nodes state →
        .className ((⟨⟨id, key⟩, block⟩ : BlockObject).cssClass mode) ∈
          ofNodes graph id mode nodes) := by
  have has : graph.Has ⟨⟨id, key⟩, block⟩ := ⟨present, Block.contains_of_findOwn found⟩
  induction nodes using ofNodes.induct graph id with
  | case1 =>
    rw [ofNodes]
    exact ⟨.nil, fun last => absurd last not_writesLast_nil⟩
  | case2 node rest object others replaced shorter ih =>
    rw [ofNodes_cons_of_found mode replaced]
    cases node with
    | type name => exact absurd (List.mem_cons_self ..) (repeats.noType name)
    | className name =>
      obtain rfl := repeats.classes name (List.mem_cons_self ..)
      obtain ⟨_, _, same, hasFirst, later, whole⟩ := objectAt_class present found repeats
      cases same.symm.trans replaced
      obtain ⟨only, last⟩ := ih later
      refine ⟨only.cons_class hasFirst, fun writes => ?_⟩
      rcases whole with rfl | ⟨stated, rfl⟩
      · exact List.mem_cons_self ..
      · exact List.mem_cons_of_mem _
          (last (writes.tail (fun free => by simp [free] at stated) (by simp)))
    | attr attr =>
      cases isState : attr.isState with
      | true =>
        obtain ⟨same, later⟩ := objectAt_state present found isState repeats
        cases same.symm.trans replaced
        exact ⟨(ih later).1.cons_class has, fun _ => List.mem_cons_self ..⟩
      | false =>
        have plain : (SimpleSelector.attr attr).isObjectPart = false := isState
        simp [objectAt_of_no_part graph id rest plain] at replaced
    | universal | id _ | pseudoClass _ _ =>
      simp [objectAt?, start?, SimpleSelector.state?] at replaced
  | case3 node rest missing ih =>
    have plain : node.isObjectPart = false := by
      cases node with
      | type name => exact absurd (List.mem_cons_self ..) (repeats.noType name)
      | className name =>
        obtain rfl := repeats.classes name (List.mem_cons_self ..)
        obtain ⟨_, _, same, _⟩ := objectAt_class present found repeats
        simp [same] at missing
      | attr attr =>
        cases isState : attr.isState with
        | true => simp [(objectAt_state present found isState repeats).1] at missing
        | false => exact isState
      | universal | id _ | pseudoClass _ _ => rfl
    rw [ofNodes_cons_of_plain mode plain]
    obtain ⟨only, last⟩ := ih (repeats.tail_other plain)
    refine ⟨only.cons_other plain, fun writes => List.mem_cons_of_mem _ (last (writes.tail ?_ ?_))⟩
    · rintro _ name rfl
      cases plain
    · rintro attr rfl
      exact plain

end Classes

theorem Block.isClassLevel_of_findOwn {block : Block} {name : String} {state : Option StateName}
    {key : ObjectKey} (notRoot : name ≠ rootClass)
    (found : block.findOwn? ⟨none, some name, state⟩ = some key) : key.isClassLevel = true := by
  rw [findOwn_eq_bind] at found
  obtain ⟨owner, owned, found⟩ := Option.bind_eq_some_iff.mp found
  rw [owner?, if_neg notRoot] at owned
  obtain ⟨index, _, rfl⟩ := Option.map_eq_some_iff.mp owned
  cases state with
  | none =>
    cases found
    rfl
  | some state =>
    obtain ⟨states, _, found⟩ := Option.bind_eq_some_iff.mp found
    obtain ⟨place, _, rfl⟩ := Option.map_eq_some_iff.mp found
    rfl

/-- The object of the graph that reading a compound of a block assigned to it: one of the block
itself, or what the compound names from there. -/
def Graph.Assigned (graph : Graph) (id : BlockId) (block : Block) (compound : Compound)
    (object : BlockObject) : CompoundObject → Prop
  | .own key => object = ⟨⟨id, key⟩, block⟩
  | .foreign => ∃ reference, ObjectReference.inCompound? compound = some reference ∧
      graph.resolve? id reference = some object

/-- Where the parts of a compound can all be replaced: every state of a class of the block has a
class of its own, and states of other blocks are written as attributes. -/
def Compound.IsReplaceable (compound : Compound) : CompoundObject → Prop
  | .own key => key.isClassLevel = true → statesOwned false compound.nodes = true
  | .foreign => ∀ argument, .pseudoClass stateScope argument ∉ compound.nodes

namespace Legality.Found

variable {graph : Graph} {id : BlockId} {block : Block} {compound : Compound}
  {named : CompoundObject} {object : BlockObject}

theorem onlyClasses (found : Found block compound named) (noId : ∀ id, .id id ∉ compound.nodes)
    (notUniversal : .universal ∉ compound.nodes) (present : graph.block? id = some block)
    (assigned : graph.Assigned id block compound object named)
    (replaceable : compound.IsReplaceable named) (mode : OutputMode) :
    OnlyClasses graph mode (Classes.ofCompound graph id mode compound).nodes ∧
      .className (object.cssClass mode) ∈ (Classes.ofCompound graph id mode compound).nodes := by
  unfold Classes.ofCompound
  cases found with
  | @own className state key noType writes nonempty found =>
    obtain rfl : object = ⟨⟨id, key⟩, block⟩ := assigned
    have repeats : Repeats compound.nodes className state := by
      refine ⟨noType, writes.classes, fun attr member isState => ?_, fun classy => ?_⟩
      · obtain ⟨name, isName, plain⟩ := writes.states attr member isState
        exact ⟨name, isName, state_of_plainState plain⟩
      · obtain ⟨name, rfl⟩ := Option.isSome_iff_exists.mp classy
        exact replaceable
          (Block.isClassLevel_of_findOwn (fun same => writes.notRoot (same ▸ rfl)) found)
    have last : WritesLast compound.nodes state := by
      cases state with
      | some _ => exact writes.stated rfl
      | none =>
        cases className with
        | some name =>
          obtain ⟨before, after, nodes, _⟩ := writes.owned name rfl
          exact ⟨name, by simp [nodes]⟩
        | none => exact ⟨rootClass, nonempty rfl rfl⟩
    obtain ⟨only, among⟩ := Classes.onlyClasses_ofNodes mode present found repeats
    exact ⟨only, among last⟩
  | foreign typed =>
    obtain ⟨reference, names, resolved⟩ := assigned
    have spells :=
      (ObjectReference.inCompound_eq_some_iff noId notUniversal replaceable).mp names
    have has := (Graph.resolve_eq_some_iff.mp resolved).has
    have mem := Classes.mem_ofNodes_iff mode spells resolved
    have others : ∀ node ∈ compound.others, node.isObjectPart = false := fun node member => by
      simpa using (List.mem_filter.mp member).2
    refine ⟨⟨fun name member => ?_, fun attr member => ?_, fun name member => ?_⟩,
      (mem _).mpr (.inl rfl)⟩
    · rcases (mem _).mp member with same | other
      · cases same
      · cases others _ other
    · rcases (mem _).mp member with same | other
      · cases same
      · exact others _ other
    · rcases (mem _).mp member with same | other
      · cases same
        exact ⟨object, has, rfl⟩
      · cases others _ other

end Legality.Found

namespace Block.Loading

variable {block : Block}

/-- The object that a load found for a compound of a selector, where it came to it. -/
def ObjectOf (loading : block.Loading) (rule : Rule) (selector : Selector) (compound : Compound)
    (named : CompoundObject) : Prop :=
  ∃ stage read objects, loading.ComesTo rule selector stage ∧
    Legality.classifyAll loading.graph selector stage selector.compounds = .ok (read, objects) ∧
      ∃ pair ∈ selector.compounds.zip objects, pair.1.2 = compound ∧ pair.2.2 = named

/-- Reading a selector is enough for replacing its objects. The load finds an object for every
compound of every selector of every style rule; and where its parts can all be replaced, nothing is
left of them but classes of objects, among them the class of the object that was found. -/
theorem onlyClasses_ofCompound (loading : block.Loading) {graph : Graph} {id : BlockId}
    (present : graph.block? id = some block) {rule : Rule} {selector : Selector}
    {compound : Compound} (style : rule ∈ block.sheet.styleRules)
    (written : selector ∈ block.selectorsOf rule.head.id)
    (part : compound ∈ selector.compounds.map Prod.snd) :
    (∃ named, loading.ObjectOf rule selector compound named) ∧
      ∀ named object, loading.ObjectOf rule selector compound named →
        graph.Assigned id block compound object named → compound.IsReplaceable named →
          ∀ mode, OnlyClasses graph mode (Classes.ofCompound graph id mode compound).nodes ∧
            .className (object.cssClass mode) ∈
              (Classes.ofCompound graph id mode compound).nodes := by
  constructor
  · obtain ⟨stage, comes⟩ := loading.exists_comesTo style written
    obtain ⟨_, read, key, classified, _⟩ := loading.classified comes
    obtain ⟨objects, all, _⟩ := Legality.classify_eq_ok classified
    have each := (Legality.areRead_classifyAll all).each
    obtain ⟨pair, member, rfl⟩ := List.mem_map.mp part
    obtain ⟨index, below, rfl⟩ := List.getElem_of_mem member
    have inside : index < (selector.compounds.zip objects).length := by
      simp [below, ← each.length_eq]
    exact ⟨_, stage, read, objects, comes, all, _, List.getElem_mem inside, by simp, rfl⟩
  · rintro named object ⟨stage, read, objects, comes, all, pair, member, rfl, rfl⟩ assigned
      replaceable mode
    obtain ⟨_, read', key, classified, grows⟩ := loading.classified comes
    obtain ⟨objects', all', _⟩ := Legality.classify_eq_ok classified
    cases all.symm.trans all'
    obtain ⟨_, noId, notUniversal, found⟩ :=
      (List.forall₂_iff_zip.mp (Legality.areRead_classifyAll all).each).2 member
    exact (found.grow grows).onlyClasses noId notUniversal present assigned replaceable mode

end Block.Loading

def menuGraph : Graph := ⟨#[some menuBlock, some tabsBlock]⟩

/-- The selector `tabs.tab > .item:hover[state|open]` becomes
`.tabs__tab > .menu__item--open:hover`. -/
theorem menuSelector_leaves_classes :
    (OnlyClasses menuGraph .bem (Classes.ofCompound menuGraph ⟨0⟩ .bem menuSelector.head).nodes ∧
      .className "tabs__tab" ∈ (Classes.ofCompound menuGraph ⟨0⟩ .bem menuSelector.head).nodes) ∧
    (OnlyClasses menuGraph .bem (Classes.ofCompound menuGraph ⟨0⟩ .bem menuSelector.key).nodes ∧
      .className "menu__item--open" ∈
        (Classes.ofCompound menuGraph ⟨0⟩ .bem menuSelector.key).nodes) := by
  let stage : Block := { menuBlock with named := false, classes := [] }
  let read : Block := { stage with classes := [⟨"item", [⟨⟨none, "open"⟩, .empty⟩], .empty⟩] }
  have comes : menuLoading.ComesTo menuRule menuSelector stage :=
    ⟨⟨stage, []⟩, rfl, @Draft.ComesTo.here _ _ _ _ _ _ [] [] rfl rfl⟩
  have all : Legality.classifyAll menuLoading.graph menuSelector stage menuSelector.compounds =
      .ok (read, [(none, .foreign), (some .child, .own (.ofState (some 0) 0))]) := rfl
  have style : menuRule ∈ menuBlock.sheet.styleRules := List.mem_singleton_self _
  have written : menuSelector ∈ menuBlock.selectorsOf menuRule.head.id := List.mem_singleton_self _
  have present : menuGraph.block? ⟨0⟩ = some menuBlock := rfl
  constructor
  · refine (menuLoading.onlyClasses_ofCompound present style written
      (by simp [Selector.compounds])).2 .foreign tabClass
      ⟨stage, read, _, comes, all, _, List.mem_cons_self .., rfl, rfl⟩
      ⟨⟨some "tabs", some "tab", none⟩, rfl, rfl⟩ ?_ .bem
    simp [Compound.IsReplaceable, menuSelector]
  · refine (menuLoading.onlyClasses_ofCompound present style written
      (by simp [Selector.compounds, menuSelector])).2 (.own (.ofState (some 0) 0)) _
      ⟨stage, read, _, comes, all, _, List.mem_cons_of_mem _ (List.mem_singleton_self _), rfl, rfl⟩
      rfl ?_ .bem
    exact fun _ => rfl

/-- A state that is written twice is found once only, and the second one stays. -/
theorem twiceSelector_keeps_state :
    twiceLoading.ObjectOf twiceRule twiceSelector twiceSelector.key
        (.own (.ofState (some 0) 0)) ∧
      ¬OnlyClasses ⟨#[some twiceBlock]⟩ .bem
        (Classes.ofCompound ⟨#[some twiceBlock]⟩ ⟨0⟩ .bem twiceSelector.key).nodes := by
  constructor
  · let read : Block := { twiceLoading.draft.block with
      classes := [⟨"tab", [⟨⟨none, "on"⟩, .empty⟩], .empty⟩] }
    exact ⟨twiceLoading.draft.block, read, [(none, .own (.ofState (some 0) 0))],
      twiceLoading_comesTo, rfl, _, List.mem_singleton_self _, rfl, rfl⟩
  · intro only
    have left : .ofState ⟨none, "on"⟩ ∈
        (Classes.ofCompound ⟨#[some twiceBlock]⟩ ⟨0⟩ .bem twiceSelector.key).nodes := by
      decide +kernel
    cases only.noState _ left

end StyleBlock
