import StyleBlock.Compile.Classes
import StyleBlock.Proofs.Document
import StyleBlock.Proofs.Objects

/-!
What a selector means before and after its objects are replaced by classes. Before, a compound asks
an element to carry the object that it names; afterwards, to have the class of that object. Where
different objects have different classes, both select the same elements of every document.
-/

namespace StyleBlock

/-- Whether a node is a part of the name of an object: a block name, a class or a state. -/
def SimpleSelector.isObjectPart : SimpleSelector → Bool
  | .type _ => true
  | .className _ => true
  | .attr selector => selector.isState
  | _ => false

namespace SimpleSelector

@[simp] theorem isObjectPart_type (name : String) : (type name).isObjectPart = true := rfl

@[simp] theorem isObjectPart_className (name : String) : (className name).isObjectPart = true := rfl

@[simp] theorem isObjectPart_attr (selector : AttributeSelector) :
    (attr selector).isObjectPart = selector.isState := rfl

@[simp] theorem isObjectPart_universal : universal.isObjectPart = false := rfl

@[simp] theorem isObjectPart_id (name : String) : (id name).isObjectPart = false := rfl

@[simp] theorem isObjectPart_pseudoClass (name : String) (argument : Option String) :
    (pseudoClass name argument).isObjectPart = false := rfl

end SimpleSelector

/-- The nodes that are no parts of the name of an object. -/
def Compound.others (compound : Compound) : List SimpleSelector :=
  compound.nodes.filter fun node => !node.isObjectPart

/-- A compound that spells a reference once: the block name, then the class, then the state, each
where the reference has one, and any other nodes between them. A state is written as an attribute,
never as a pseudo-class. -/
structure Compound.Spells (compound : Compound) (reference : ObjectReference) : Prop where
  parts : ∃ states : List SimpleSelector,
    compound.nodes.filter SimpleSelector.isObjectPart =
      reference.block.toList.map .type ++ reference.className.toList.map .className ++ states ∧
    states.map SimpleSelector.state? = reference.state.toList.map some
  noStateFunction : ∀ argument, .pseudoClass stateScope argument ∉ compound.nodes
  nonempty : reference ≠ .empty

/-- A compound that names one existing object, as seen from a block. -/
def Graph.NamedBy (graph : Graph) (id : BlockId) (compound : Compound)
    (object : BlockObject) : Prop :=
  ∃ reference, compound.Spells reference ∧ graph.Refers id reference object

theorem Graph.NamedBy.has {graph : Graph} {id : BlockId} {compound : Compound}
    {object : BlockObject} (named : graph.NamedBy id compound object) : graph.Has object := by
  obtain ⟨_, _, refers⟩ := named
  exact refers.has

/-- What an element of a document answers before classes are generated: the objects it carries, and
which of the other simple selectors hold for it. -/
structure Bearing (graph : Graph) where
  objects : Set graph.Object
  satisfies : SimpleSelector → Prop

namespace Bearing

variable {graph : Graph}

/-- An element holds a compound when it carries the object that the compound names and satisfies
the remaining nodes. -/
def Fits (bearing : Bearing graph) (id : BlockId) (compound : Compound) : Prop :=
  (∃ object ∈ bearing.objects, graph.NamedBy id compound object.val) ∧
    ∀ node ∈ compound.others, bearing.satisfies node

/-- The element with the classes of its objects in their place. -/
def traits (mode : OutputMode) (bearing : Bearing graph) : Traits where
  classes := { name | ∃ object ∈ bearing.objects, object.val.cssClass mode = name }
  satisfies := bearing.satisfies

end Bearing

/-- Whether the element at an address holds a compound of a block's sheet. -/
def Document.Bears {graph : Graph} (document : Document (Bearing graph)) (id : BlockId)
    (compound : Compound) (address : Address) : Prop :=
  ∃ bearing, document.label? address = some bearing ∧ bearing.Fits id compound

/-- Whether different objects of a graph have different classes. -/
def Graph.HasDistinctClasses (graph : Graph) (mode : OutputMode) : Prop :=
  ∀ first second : graph.Object, first.val.cssClass mode = second.val.cssClass mode →
    first = second

namespace SimpleSelector

theorem state_eq_none_of_isState {attr : AttributeSelector} (plain : attr.isState = false) :
    (SimpleSelector.attr attr).state? = none := by
  simp [state?, plain]

theorem exists_state {attr : AttributeSelector} (isState : attr.isState = true) :
    ∃ state, (SimpleSelector.attr attr).state? = some state := by
  simp only [state?, isState, if_true]
  cases attr.test with
  | none => exact ⟨_, rfl⟩
  | some test => exact ⟨_, rfl⟩

end SimpleSelector

namespace Classes

theorem filter_others_of_no_parts {nodes : List SimpleSelector}
    (none : nodes.filter SimpleSelector.isObjectPart = []) :
    nodes.filter (fun node => !node.isObjectPart) = nodes := by
  rw [List.filter_eq_self]
  intro node present
  simpa using List.filter_eq_nil_iff.mp none node present

/-- Where no class is left, the state is gathered if there is one, and all other nodes stay. -/
theorem gather_of_states (reference : ObjectReference) {nodes : List SimpleSelector}
    {state : Option StateName} (stateless : reference.state = none)
    (spelled : (nodes.filter SimpleSelector.isObjectPart).map SimpleSelector.state? =
      state.toList.map some) :
    gather reference nodes =
      ({ reference with state }, nodes.filter fun node => !node.isObjectPart) := by
  induction nodes with
  | nil =>
    obtain rfl : state = none := by simpa using spelled.symm
    simp [gather, ← stateless]
  | cons node rest ih =>
    -- a part that spells no state cannot come first
    have isState : node.isObjectPart = true → node.state? ≠ none := by
      intro isPart nothing
      cases state <;> simp [isPart, nothing] at spelled
    cases node with
    | type name => exact absurd rfl (isState rfl)
    | className name => exact absurd rfl (isState rfl)
    | attr attr =>
      cases stated : attr.isState with
      | false =>
        have later := ih (by simpa [stated] using spelled)
        simp [gather, SimpleSelector.state_eq_none_of_isState stated, later, stated]
      | true =>
        obtain ⟨found, same⟩ := SimpleSelector.exists_state stated
        obtain ⟨rfl, nothing⟩ :
            state = some found ∧ rest.filter SimpleSelector.isObjectPart = [] := by
          cases state with
          | none => simp [stated] at spelled
          | some other =>
            simp only [List.filter_cons, SimpleSelector.isObjectPart_attr, stated, if_true,
              List.map_cons, same, Option.toList_some, List.map_nil, List.cons.injEq,
              List.map_eq_nil_iff] at spelled
            exact ⟨spelled.1.symm, spelled.2⟩
        simp [gather, same, stated, filter_others_of_no_parts nothing]
    | universal | id _ | pseudoClass _ _ =>
      have later := ih (by simpa using spelled)
      simp [gather, SimpleSelector.state?, later]

/-- The parts of an object that follow its first part are gathered, and all other nodes stay. -/
theorem gather_of_parts (reference : ObjectReference) {nodes states : List SimpleSelector}
    {className : Option String} {state : Option StateName}
    (parts : nodes.filter SimpleSelector.isObjectPart =
      className.toList.map .className ++ states)
    (room : className.isSome → reference.className = none)
    (stateless : reference.state = none)
    (spelled : states.map SimpleSelector.state? = state.toList.map some) :
    gather reference nodes =
      ({ reference with className := className <|> reference.className, state },
        nodes.filter fun node => !node.isObjectPart) := by
  cases className with
  | none => exact gather_of_states reference stateless (parts ▸ spelled)
  | some name =>
    have free : reference.className = none := room rfl
    -- nodes that are no parts stay until the class is met
    induction nodes with
    | nil => simp at parts
    | cons node rest ih =>
      cases node with
      | type other => simp [List.filter_cons] at parts
      | className other =>
        obtain ⟨rfl, same⟩ : other = name ∧ rest.filter SimpleSelector.isObjectPart = states := by
          simpa [List.filter_cons] using parts
        have later := @gather_of_states { reference with className := some other } rest state
          stateless (same ▸ spelled)
        simp [gather, free, later]
      | attr attr =>
        cases stated : attr.isState with
        | true => simp [stated] at parts
        | false =>
          have later := ih (by simpa [stated] using parts)
          simp [gather, SimpleSelector.state_eq_none_of_isState stated, later, stated]
      | universal | id _ | pseudoClass _ _ =>
        have later := ih (by simpa using parts)
        simp [gather, SimpleSelector.state?, later]

theorem start_of_no_part {node : SimpleSelector} (plain : node.isObjectPart = false) :
    start? node = none := by
  cases node with
  | type name => simp at plain
  | className name => simp at plain
  | attr selector => simp [start?, SimpleSelector.state_eq_none_of_isState (by simpa using plain)]
  | universal | id _ | pseudoClass _ _ => rfl

theorem objectAt_of_no_part (graph : Graph) (id : BlockId) {node : SimpleSelector}
    (rest : List SimpleSelector) (plain : node.isObjectPart = false) :
    objectAt? graph id node rest = none := by
  simp [objectAt?, start_of_no_part plain]

/-- Nodes that are no parts stay as they are. -/
theorem ofNodes_of_no_parts (graph : Graph) (id : BlockId) (mode : OutputMode)
    {nodes : List SimpleSelector} (plain : ∀ node ∈ nodes, node.isObjectPart = false) :
    ofNodes graph id mode nodes = nodes := by
  induction nodes with
  | nil => simp [ofNodes]
  | cons node rest ih =>
    have unknown := objectAt_of_no_part graph id rest (plain node (by simp))
    rw [ofNodes]
    split
    · next found => simp [unknown] at found
    · rw [ih fun other present => plain other (by simp [present])]

/-- A class or a state that comes first begins the same object as nothing would. -/
theorem complete_eq_gather {node : SimpleSelector} {first : ObjectReference}
    (rest : List SimpleSelector) (started : start? node = some first)
    (own : ∀ name, node ≠ .type name) :
    complete first rest = gather .empty (node :: rest) := by
  cases node with
  | type name => exact absurd rfl (own name)
  | className name =>
    cases started
    simp [complete, gather, ObjectReference.empty]
  | attr selector =>
    obtain ⟨state, same, rfl⟩ := Option.map_eq_some_iff.mp started
    simp [complete, gather, same]
  | universal | id _ | pseudoClass _ _ => simp [start?, SimpleSelector.state?] at started

/-- A first part and the nodes after it make up the whole reference that a compound spells. -/
theorem complete_of_spells {node : SimpleSelector} {rest : List SimpleSelector}
    {pseudoElement : Option PseudoElement} {reference : ObjectReference}
    (part : node.isObjectPart = true)
    (spells : Compound.Spells ⟨node :: rest, pseudoElement⟩ reference) :
    ∃ first, start? node = some first ∧
      complete first rest = (reference, rest.filter fun node => !node.isObjectPart) := by
  obtain ⟨states, parts, spelled⟩ := spells.parts
  obtain ⟨block, className, state⟩ := reference
  cases block with
  | some name =>
    obtain ⟨rfl, after⟩ : node = .type name ∧ rest.filter SimpleSelector.isObjectPart =
        className.toList.map .className ++ states := by
      simpa [List.filter_cons_of_pos part] using parts
    have gathered := gather_of_parts ⟨some name, none, none⟩ after (fun _ => rfl)
      rfl spelled
    exact ⟨_, rfl, by simpa [complete, ObjectReference.empty] using gathered⟩
  | none =>
    have gathered := gather_of_parts .empty (by simpa using parts) (fun _ => rfl)
      rfl spelled
    have own : ∀ name, node ≠ .type name := by
      rintro name rfl
      apply spells.nonempty
      cases className <;> exact (congrArg Prod.fst gathered).symm
    obtain ⟨first, started⟩ : ∃ first, start? node = some first := by
      cases node with
      | type name => exact absurd rfl (own name)
      | className name => exact ⟨_, rfl⟩
      | attr selector =>
        obtain ⟨state, same⟩ := SimpleSelector.exists_state (by simpa using part)
        exact ⟨_, congrArg (Option.map _) same⟩
      | universal | id _ | pseudoClass _ _ => simp at part
    refine ⟨first, started, ?_⟩
    rw [complete_eq_gather rest started own, gathered]
    simp [part, ObjectReference.empty]

theorem ofNodes_cons_of_found {graph : Graph} {id : BlockId} (mode : OutputMode)
    {node : SimpleSelector} {rest others : List SimpleSelector} {object : BlockObject}
    (found : objectAt? graph id node rest = some (object, others)) :
    ofNodes graph id mode (node :: rest) =
      .className (object.cssClass mode) :: ofNodes graph id mode others := by
  rw [ofNodes]
  split
  · next same =>
    cases found.symm.trans same
    rfl
  · next missing => simp [found] at missing

theorem ofNodes_cons_of_plain {graph : Graph} {id : BlockId} (mode : OutputMode)
    {node : SimpleSelector} {rest : List SimpleSelector} (plain : node.isObjectPart = false) :
    ofNodes graph id mode (node :: rest) = node :: ofNodes graph id mode rest := by
  rw [ofNodes]
  split
  · next found => simp [objectAt_of_no_part graph id rest plain] at found
  · rfl

/-- The nodes of a compound that names an object are its class and the other nodes. -/
theorem mem_ofNodes_iff {graph : Graph} {id : BlockId} (mode : OutputMode) {compound : Compound}
    {reference : ObjectReference} {object : BlockObject} (spells : compound.Spells reference)
    (found : graph.resolve? id reference = some object) (node : SimpleSelector) :
    node ∈ ofNodes graph id mode compound.nodes ↔
      node = .className (object.cssClass mode) ∨ node ∈ compound.others := by
  obtain ⟨nodes, pseudoElement⟩ := compound
  unfold Compound.others
  induction nodes with
  | nil =>
    exfalso
    obtain ⟨states, parts, spelled⟩ := spells.parts
    apply spells.nonempty
    obtain ⟨block, className, state⟩ := reference
    cases block <;> cases className <;> cases state <;> simp_all [ObjectReference.empty]
  | cons first rest ih =>
    cases part : first.isObjectPart with
    | true =>
      obtain ⟨begun, started, whole⟩ := complete_of_spells part spells
      have here : objectAt? graph id first rest =
          some (object, rest.filter fun node => !node.isObjectPart) := by
        simp [objectAt?, started, whole, found]
      have later : ∀ other ∈ rest.filter fun node => !node.isObjectPart,
          other.isObjectPart = false := by
        intro other present
        simpa using (List.mem_filter.mp present).2
      simp [ofNodes_cons_of_found mode here, ofNodes_of_no_parts graph id mode later, part]
    | false =>
      have later : Compound.Spells ⟨rest, pseudoElement⟩ reference := by
        obtain ⟨parts, noStateFunction, nonempty⟩ := spells
        refine ⟨by simpa [List.filter_cons, part] using parts, fun argument present => ?_, nonempty⟩
        exact noStateFunction argument (List.mem_cons_of_mem _ present)
      simp only [ofNodes_cons_of_plain mode part, List.mem_cons, ih later, part,
        List.filter_cons, Bool.not_false, if_true]
      tauto

end Classes

theorem Compound.className_not_mem_others (compound : Compound) (name : String) :
    .className name ∉ compound.others := by
  simp [others]

theorem Traits.meets_of_mem_others {traits : Traits} {compound : Compound} {node : SimpleSelector}
    (present : node ∈ compound.others) : traits.Meets node ↔ traits.satisfies node := by
  cases node with
  | className name => exact absurd present (compound.className_not_mem_others name)
  | _ => exact Iff.rfl

/-- An element holds a compound before its object is replaced if and only if it holds it after. -/
theorem Bearing.fits_ofCompound {graph : Graph} {mode : OutputMode}
    (distinct : graph.HasDistinctClasses mode) {id : BlockId} {compound : Compound}
    {object : BlockObject} (named : graph.NamedBy id compound object) (bearing : Bearing graph) :
    bearing.Fits id compound ↔
      (bearing.traits mode).Fits (Classes.ofCompound graph id mode compound) := by
  obtain ⟨reference, spells, refers⟩ := named
  have nodes := Classes.mem_ofNodes_iff mode spells (Graph.resolve_eq_some_iff.mpr refers)
  have own : .className (object.cssClass mode) ∈ Classes.ofNodes graph id mode compound.nodes :=
    (nodes _).mpr (.inl rfl)
  constructor
  · rintro ⟨⟨carried, present, otherReference, otherSpells, otherRefers⟩, rest⟩ node member
    rcases (nodes node).mp member with rfl | other
    · -- Both ways to read the compound lead to its one class, so to one object.
      have otherNodes := Classes.mem_ofNodes_iff mode otherSpells
        (Graph.resolve_eq_some_iff.mpr otherRefers)
      rcases (otherNodes _).mp own with same | absent
      · exact ⟨carried, present, (SimpleSelector.className.inj same).symm⟩
      · exact absurd absent (compound.className_not_mem_others _)
    · exact (Traits.meets_of_mem_others other).mpr (rest node other)
  · intro holds
    obtain ⟨carried, present, same⟩ := holds _ own
    have equal : carried = ⟨object, refers.has⟩ := distinct carried ⟨object, refers.has⟩ same
    refine ⟨⟨carried, present, reference, spells, by rw [equal]; exact refers⟩, ?_⟩
    intro node other
    exact (Traits.meets_of_mem_others other).mp (holds node ((nodes node).mpr (.inr other)))

theorem Document.bears_iff_fits {graph : Graph} {mode : OutputMode}
    (distinct : graph.HasDistinctClasses mode) {id : BlockId} {compound : Compound}
    {object : BlockObject} (named : graph.NamedBy id compound object)
    (document : Document (Bearing graph)) (address : Address) :
    document.Bears id compound address ↔
      (document.map (Bearing.traits mode)).Fits (Classes.ofCompound graph id mode compound)
        address := by
  simp only [Bears, Fits, label?_map, Option.map_eq_some_iff]
  constructor
  · rintro ⟨bearing, labelled, fits⟩
    exact ⟨_, ⟨bearing, labelled, rfl⟩, (bearing.fits_ofCompound distinct named).mp fits⟩
  · rintro ⟨_, ⟨bearing, labelled, rfl⟩, fits⟩
    exact ⟨bearing, labelled, (bearing.fits_ofCompound distinct named).mpr fits⟩

/-- Replacing objects by their classes keeps the meaning of a selector: it selects the same elements
of every document. -/
theorem selects_iff_selectsIn_classSelector {graph : Graph} {mode : OutputMode}
    (distinct : graph.HasDistinctClasses mode) {id : BlockId} {selector : Selector}
    (named : ∀ pair ∈ selector.compounds, ∃ object, graph.NamedBy id pair.2 object)
    (document : Document (Bearing graph)) (element : Address) :
    selector.Selects (document.Bears id) element ↔
      (classSelector graph id mode selector).SelectsIn (document.map (Bearing.traits mode))
        element := by
  apply Selector.selects_mapCompounds
  intro pair present address
  obtain ⟨object, known⟩ := named pair present
  exact document.bears_iff_fits distinct known address

theorem Graph.hasDistinctClasses_of_nodup {graph : Graph} {mode : OutputMode}
    (single : (graph.objects.map fun object => object.cssClass mode).Nodup) :
    graph.HasDistinctClasses mode := by
  intro first second same
  exact Subtype.ext (List.inj_on_of_nodup_map single (mem_objects_iff.mpr first.property)
    (mem_objects_iff.mpr second.property) same)

/-- A block with a class that has a state. -/
def tabsBlock : Block :=
  { Block.bare "tabs" "tabs.css" "tabs.css" with
    classes := [⟨"tab", [⟨⟨none, "on"⟩, .empty⟩], .empty⟩] }

/-- A block that extends the other one and refers to it. -/
def navBlock : Block :=
  { Block.bare "nav" "nav.css" "nav.css" with
    extension := some ⟨⟨1⟩, "tabs"⟩
    references := [("tabs", ⟨1⟩)]
    classes := [⟨"item", [], .empty⟩] }

def navGraph : Graph := ⟨#[some navBlock, some tabsBlock]⟩

/-- The selector `tabs.tab:hover[state|on] > .tab::before`, whose key is inherited. -/
def navSelector : Selector :=
  ⟨⟨[.type "tabs", .className "tab", .pseudoClass "hover" none, .ofState ⟨none, "on"⟩], none⟩,
    [(.child, ⟨[.className "tab"], some ⟨"before", false⟩⟩)]⟩

def tabState : BlockObject := ⟨⟨⟨1⟩, .ofState (some 0) 0⟩, tabsBlock⟩

def tabClass : BlockObject := ⟨⟨⟨1⟩, .ofClass 0⟩, tabsBlock⟩

theorem tabState_named :
    navGraph.NamedBy ⟨0⟩ navSelector.head tabState := by
  refine ⟨⟨some "tabs", some "tab", some ⟨none, "on"⟩⟩, ⟨⟨[.ofState ⟨none, "on"⟩], ?_, ?_⟩, ?_, ?_⟩,
    Graph.resolve_eq_some_iff.mp rfl⟩
  · decide
  · decide
  · simp [navSelector, SimpleSelector.ofState, stateScope]
  · decide

theorem tabClass_named :
    navGraph.NamedBy ⟨0⟩ navSelector.key tabClass := by
  refine ⟨⟨none, some "tab", none⟩, ⟨⟨[], ?_, ?_⟩, ?_, ?_⟩, Graph.resolve_eq_some_iff.mp rfl⟩
  · decide
  · decide
  · simp [navSelector, Selector.key]
  · decide

/-- A hovered element that carries the state, with a child that carries the class. -/
def navDocument : Document (Bearing navGraph) :=
  .element ⟨{⟨tabState, tabState_named.has⟩}, fun node => node = .pseudoClass "hover" none⟩
    [.element ⟨{⟨tabClass, tabClass_named.has⟩}, fun _ => False⟩ []]

/-- The child of the hovered element is selected before and after. -/
theorem navSelector_selects_child :
    navGraph.HasDistinctClasses .bem ∧
      (∀ pair ∈ navSelector.compounds, ∃ object, navGraph.NamedBy ⟨0⟩ pair.2 object) ∧
      navSelector.Selects (navDocument.Bears ⟨0⟩) [0] ∧
      (classSelector navGraph ⟨0⟩ .bem navSelector).SelectsIn
        (navDocument.map (Bearing.traits .bem)) [0] := by
  have distinct : navGraph.HasDistinctClasses .bem :=
    Graph.hasDistinctClasses_of_nodup (by decide)
  have named : ∀ pair ∈ navSelector.compounds, ∃ object, navGraph.NamedBy ⟨0⟩ pair.2 object := by
    intro pair present
    simp only [navSelector, Selector.compounds, List.map_cons, List.map_nil, List.mem_cons,
      List.not_mem_nil, or_false] at present
    rcases present with rfl | rfl
    · exact ⟨tabState, tabState_named⟩
    · exact ⟨tabClass, tabClass_named⟩
  have outer : navDocument.Bears ⟨0⟩ navSelector.head [] := by
    refine ⟨_, rfl, ⟨_, rfl, tabState_named⟩, ?_⟩
    have others : navSelector.head.others = [.pseudoClass "hover" none] := by decide
    intro node present
    exact List.mem_singleton.mp (others ▸ present)
  have inner : navDocument.Bears ⟨0⟩ navSelector.key [0] := by
    refine ⟨_, rfl, ⟨_, rfl, tabClass_named⟩, ?_⟩
    have others : navSelector.key.others = [] := by decide
    simp [others]
  have selected : navSelector.Selects (navDocument.Bears ⟨0⟩) [0] :=
    ⟨[], outer, [0], ⟨0, rfl⟩, inner, rfl⟩
  exact ⟨distinct, named, selected,
    (selects_iff_selectsIn_classSelector distinct named navDocument [0]).mp selected⟩

end StyleBlock
