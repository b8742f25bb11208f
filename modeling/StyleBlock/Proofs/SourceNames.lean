import StyleBlock.Proofs.GeneratedNames
import StyleBlock.Proofs.SelectorReading

/-!
Looking objects up by their sources. The source of an object holds its names without escapes; where
each of them is an identifier as it stands, the source reads back as a reference to the object, from
its own block and from every block that has a name for that one.
-/

namespace StyleBlock

open Css (Token EndsName)
open AttributeSelector (scopeTokens operatorToken flagTokens)
open SelectorReader (ReadsNode readsNode_token readsNode_className readsNode_attr)

/-- Whether a name is an identifier as it stands, so that it needs no escape. -/
def IsBare (name : String) : Prop :=
  IsName name ∧ Css.writeIdent name.toList = name.toList

instance (name : String) : Decidable (IsName name) := inferInstanceAs (Decidable (_ ∧ _))

instance (name : String) : Decidable (IsBare name) := inferInstanceAs (Decidable (_ ∧ _))

theorem IsBare.tokens {name : String} (bare : IsBare name) {rest : List Char}
    (ends : EndsName rest) : Css.tokens (name.toList ++ rest) = .ident name :: Css.tokens rest := by
  have tokens := bare.1.tokens_writeIdent ends
  rwa [bare.2] at tokens

theorem IsBare.startsIdent {name : String} (bare : IsBare name) (rest : List Char) :
    Css.startsIdent (name.toList ++ rest) = true := by
  have starts := bare.1.startsIdent rest
  rwa [bare.2] at starts

/-! States -/

namespace StateName

/-- How a state is written without escapes. -/
def bareSource (state : StateName) : List Char :=
  match state.group with
  | some group => "[state|".toList ++ group.toList ++ "=".toList ++ state.name.toList ++ "]".toList
  | none => "[state|".toList ++ state.name.toList ++ "]".toList

/-- The tokens of a state between its brackets. -/
def inside (state : StateName) : List Token :=
  match state.group with
  | some group =>
    scopeTokens (some stateScope) ++ [.ident group] ++
      operatorToken .equals :: .ident state.name :: flagTokens none
  | none => scopeTokens (some stateScope) ++ [.ident state.name]

/-- Whether the name of a state, and that of its group, need no escape. -/
structure IsBare (state : StateName) : Prop where
  name : StyleBlock.IsBare state.name
  group : ∀ group ∈ state.group, StyleBlock.IsBare group

instance (state : StateName) : Decidable state.IsBare :=
  decidable_of_iff (StyleBlock.IsBare state.name ∧ ∀ group ∈ state.group, StyleBlock.IsBare group)
    ⟨fun bare => ⟨bare.1, bare.2⟩, fun bare => ⟨bare.name, bare.group⟩⟩

theorem toList_source (state : State) : state.source.toList = state.name.bareSource := by
  obtain ⟨⟨group, name⟩, _⟩ := state
  cases group <;> simp only [State.source, bareSource, String.toList_append]

theorem readsNode (state : StateName) :
    ReadsNode (.opening .square :: (state.inside ++ [.closing .square]))
      (SimpleSelector.ofState state) := by
  obtain ⟨group, name⟩ := state
  cases group with
  | none => exact readsNode_attr (.bare (some stateScope) name)
  | some group => exact readsNode_attr (.test (some stateScope) group .equals none (.inl rfl))

theorem tokens_scope {chars : List Char} (starts : Css.startsIdent chars = true) :
    Css.tokens ("[state|".toList ++ chars) =
      .opening .square :: (scopeTokens (some stateScope) ++ Css.tokens chars) := by
  have bare : StyleBlock.IsBare stateScope := ⟨⟨by decide, by decide⟩, by decide⟩
  have scope := bare.tokens (AttributeSelector.endsPart_cons (c := '|') (by decide) chars).endsName
  rw [AttributeSelector.tokens_bar starts] at scope
  exact (Css.tokens_openingSquare _).trans (congrArg (.opening .square :: ·) scope)

theorem IsBare.tokens {state : StateName} (bare : state.IsBare) (rest : List Char) :
    Css.tokens (state.bareSource ++ rest) =
      .opening .square :: (state.inside ++ .closing .square :: Css.tokens rest) := by
  obtain ⟨isBare, groupBare⟩ := bare
  obtain ⟨group, name⟩ := state
  have closing : Css.tokens (']' :: rest) = .closing .square :: Css.tokens rest :=
    Css.tokens_of_scanToken rfl
  have last := isBare.tokens (AttributeSelector.endsPart_cons (c := ']') (by decide) rest).endsName
  rw [closing] at last
  cases group with
  | none =>
    have scope := tokens_scope (isBare.startsIdent (']' :: rest))
    rw [last] at scope
    simpa [bareSource, inside] using scope
  | some group =>
    have equals : Css.tokens ('=' :: (name.toList ++ ']' :: rest)) =
        .delim '=' :: .ident name :: .closing .square :: Css.tokens rest := by
      rw [Css.tokens_of_scanToken (show Css.scanToken '=' _ = (.delim '=', _) from rfl), last]
    have first := (groupBare group rfl).tokens
      (AttributeSelector.endsPart_cons (c := '=') (by decide) (name.toList ++ ']' :: rest)).endsName
    have scope := tokens_scope
      ((groupBare group rfl).startsIdent ('=' :: (name.toList ++ ']' :: rest)))
    rw [first, equals] at scope
    simpa [bareSource, inside, operatorToken, flagTokens] using scope

end StateName

/-! References -/

namespace ObjectReference

/-- How a reference is written without escapes. -/
def bareSource (reference : ObjectReference) : List Char :=
  (reference.block.elim [] String.toList) ++
    (reference.className.elim [] fun name => '.' :: name.toList) ++
    (reference.state.elim [] StateName.bareSource)

/-- The nodes that spell a reference. -/
def nodes (reference : ObjectReference) : List SimpleSelector :=
  reference.block.toList.map .type ++ reference.className.toList.map .className ++
    reference.state.toList.map .ofState

/-- The tokens of each node of a reference. -/
def pieces (reference : ObjectReference) : List (List Token) :=
  (reference.block.toList.map fun name => [.ident name]) ++
    (reference.className.toList.map fun name => [.delim '.', .ident name]) ++
    (reference.state.toList.map fun state =>
      .opening .square :: (state.inside ++ [.closing .square]))

/-- Whether no name of a reference needs an escape. -/
structure IsBare (reference : ObjectReference) : Prop where
  block : ∀ name ∈ reference.block, StyleBlock.IsBare name
  className : ∀ name ∈ reference.className, StyleBlock.IsBare name
  state : ∀ state ∈ reference.state, state.IsBare

variable (reference : ObjectReference)

theorem readsNode_pieces : List.Forall₂ ReadsNode reference.pieces reference.nodes := by
  obtain ⟨block, className, state⟩ := reference
  have types : List.Forall₂ ReadsNode (block.toList.map fun name => [.ident name])
      (block.toList.map .type) := by
    cases block with
    | none => exact .nil
    | some name => exact .cons (readsNode_token fun _ _ => rfl) .nil
  have classes : List.Forall₂ ReadsNode (className.toList.map fun name => [.delim '.', .ident name])
      (className.toList.map .className) := by
    cases className with
    | none => exact .nil
    | some name => exact .cons (readsNode_className name) .nil
  have states : List.Forall₂ ReadsNode
      (state.toList.map fun state => .opening .square :: (state.inside ++ [.closing .square]))
      (state.toList.map .ofState) := by
    cases state with
    | none => exact .nil
    | some state => exact .cons state.readsNode .nil
  exact List.rel_append (List.rel_append types classes) states

theorem ofNodes_nodes (filled : reference ≠ empty) : ofNodes? reference.nodes = some reference := by
  have known : ∀ state : StateName, (SimpleSelector.ofState state).state? = some state ∧
      (SimpleSelector.ofState state).isObjectPart = true := by
    rintro ⟨_ | group, name⟩ <;> exact ⟨rfl, rfl⟩
  refine (ofNodes_eq_some_iff fun node member => ?_).mpr ⟨⟨_, rfl, ?_⟩, filled⟩
  · rcases List.mem_append.mp member with member | member
    · rcases List.mem_append.mp member with member | member
      all_goals
        obtain ⟨_, _, rfl⟩ := List.mem_map.mp member
        rfl
    · obtain ⟨state, _, rfl⟩ := List.mem_map.mp member
      exact (known state).2
  · rw [List.map_map]
    exact List.map_congr_left fun state _ => (known state).1

variable {reference}

theorem nodes_ne_nil (filled : reference ≠ empty) : reference.nodes ≠ [] := by
  obtain ⟨block, className, state⟩ := reference
  cases block <;> cases className <;> cases state <;> simp_all [nodes, empty]

/-- The tokens of a reference are those of its parts. -/
theorem IsBare.tokens (bare : reference.IsBare) :
    Css.tokens reference.bareSource = reference.pieces.flatten := by
  obtain ⟨isBlock, isClass, isState⟩ := bare
  obtain ⟨block, className, state⟩ := reference
  have states : Css.tokens (state.elim [] StateName.bareSource) =
      (state.toList.map fun state =>
        .opening .square :: (state.inside ++ [.closing .square])).flatten := by
    cases state with
    | none => exact Css.tokens_nil
    | some state =>
      have tokens := (isState state rfl).tokens []
      rw [List.append_nil, Css.tokens_nil] at tokens
      simpa using tokens
  have endsClass : EndsName (state.elim [] StateName.bareSource) := by
    rcases state with _ | ⟨_ | group, name⟩
    · exact EndsNode.endsName endsNode_nil
    · exact (endsNode_cons (c := '[') (by decide) _).endsName
    · exact (endsNode_cons (c := '[') (by decide) _).endsName
  have classes : Css.tokens ((className.elim [] fun name => '.' :: name.toList) ++
        state.elim [] StateName.bareSource) =
      (className.toList.map fun name => [.delim '.', .ident name]).flatten ++
        Css.tokens (state.elim [] StateName.bareSource) := by
    cases className with
    | none => rfl
    | some name =>
      have bare := isClass name rfl
      exact (Css.tokens_point (bare.startsIdent _)).trans
        (congrArg (.delim '.' :: ·) (bare.tokens endsClass))
  have endsBlock : EndsName ((className.elim [] fun name => '.' :: name.toList) ++
      state.elim [] StateName.bareSource) := by
    cases className with
    | none => exact endsClass
    | some name => exact (endsNode_cons (c := '.') (by decide) _).endsName
  rw [bareSource, pieces, List.append_assoc, List.flatten_append, List.flatten_append, ← states]
  cases block with
  | none => simpa using classes
  | some name =>
    have tokens := (isBlock name rfl).tokens endsBlock
    rw [classes] at tokens
    simpa using tokens

/-- A reference without escapes reads back. -/
theorem parse_of_bare (bare : reference.IsBare) (filled : reference ≠ empty) {text : String}
    (written : text.toList = reference.bareSource) (trimmed : Text.trim text = text) :
    parse? text = some reference := by
  have nonempty := nodes_ne_nil filled
  have reads : SelectorReader.start.Reads reference.pieces.flatten
      (SelectorReader.start.takeSpace.withNodes reference.nodes) :=
    SelectorReader.reads_firstNodes rfl rfl nonempty reference.readsNode_pieces
  rw [← bare.tokens, ← written] at reads
  have ends : (SelectorReader.start.takeSpace.withNodes reference.nodes).AtEnd []
      (.ofCompound ⟨reference.nodes, none⟩) := by
    refine ⟨rfl, ?_, rfl, rfl⟩
    have filled : reference.nodes.isEmpty = false := by simpa using nonempty
    exact Bool.and_eq_false_iff.mpr (.inl filled)
  have parsed : parseSelectors text = .ok [.ofCompound ⟨reference.nodes, none⟩] :=
    SelectorReader.parseSelectors_of_reads reads ends
  rw [parse?, trimmed, parsed]
  exact reference.ofNodes_nodes filled

end ObjectReference

/-! Objects -/

namespace Block

/-- The reference that the source of an object spells. -/
def sourceReference (block : Block) (key : ObjectKey) : ObjectReference where
  block := none
  className := if key = .root then some rootClass else (block.classAt? key).map BlockClass.name
  state := (block.stateAt? key).map State.name

variable {block : Block} {key : ObjectKey}

/-- An object is what its names stand for. -/
theorem findOwn_sourceReference (unique : block.HasUniqueNames)
    (has : block.contains key = true) :
    block.findOwn? (block.sourceReference key) = some key := by
  have owned : key ≠ .root → block.owner? ((block.classAt? key).map BlockClass.name) =
      some key.class? := by
    intro notRoot
    have owner := hasOwner_of_contains has
    rw [classAt?]
    cases isOwner : key.class? with
    | none => rfl
    | some index =>
      have placed := List.getElem?_eq_getElem (owner index isOwner)
      rw [Option.bind_some, placed, Option.map_some, unique.owner_of_getElem placed]
  rw [findOwn_eq_bind, sourceReference]
  dsimp only
  cases key with
  | root => rfl
  | ofClass index =>
    have notRoot : ObjectKey.ofClass index ≠ .root := by simp
    rw [if_neg notRoot, owned notRoot]
    rfl
  | ofState owner index =>
    have notRoot : ObjectKey.ofState owner index ≠ .root := by simp
    obtain ⟨names, name, known, placed, named⟩ := exists_stateAt has
    rw [if_neg notRoot, owned notRoot, Option.bind_some, named, keyIn_eq]
    show (block.stateNames? owner).bind _ = _
    rw [known, Option.bind_some, findIdx?_eq_of_nodup (unique.states owner names known) placed,
      Option.map_some]
    rfl

theorem toList_classSource {index : Nat} (below : index < block.classes.length) :
    (block.classSource index).toList =
      ((block.classes[index]?).map BlockClass.name).elim [] fun name => '.' :: name.toList := by
  rw [classSource, List.getElem?_eq_getElem below, String.toList_append]
  rfl

/-- The source of an object is its reference without escapes. -/
theorem toList_objectSource (has : block.contains key = true) :
    (block.objectSource key).toList = (block.sourceReference key).bareSource := by
  have stateSource : ∀ owner index, block.contains (.ofState owner index) = true →
      (((block.stateAt? (.ofState owner index)).map State.source).getD "").toList =
        ((block.stateAt? (.ofState owner index)).map State.name).elim [] StateName.bareSource := by
    intro owner index has
    obtain ⟨state, found⟩ := Option.isSome_iff_exists.mp has
    rw [stateAt?, found]
    exact StateName.toList_source state
  cases key with
  | root => simp [objectSource, sourceReference, ObjectReference.bareSource, stateAt?, rootClass]
  | ofClass index =>
    have below : index < block.classes.length := by simpa [contains] using has
    have source := toList_classSource below
    simpa [objectSource, sourceReference, ObjectReference.bareSource, stateAt?, classAt?,
      ObjectKey.class?] using source
  | ofState owner index =>
    have state := stateSource owner index has
    cases owner with
    | none =>
      simpa [objectSource, sourceReference, ObjectReference.bareSource, classAt?,
        ObjectKey.class?] using state
    | some owner =>
      have source := toList_classSource (BlockObject.class_lt_of_contains has)
      rw [objectSource, String.toList_append, source, state]
      simp [sourceReference, ObjectReference.bareSource, classAt?, ObjectKey.class?]

theorem sourceReference_ne_empty (has : block.contains key = true) :
    block.sourceReference key ≠ .empty := by
  cases key with
  | root => nofun
  | ofClass index =>
    have below : index < block.classes.length := by simpa [contains] using has
    simp [sourceReference, ObjectReference.empty, classAt?, ObjectKey.class?, below]
  | ofState owner index =>
    obtain ⟨_, name, _, _, named⟩ := exists_stateAt has
    simp [sourceReference, ObjectReference.empty, named]

end Block

namespace BlockObject

/-- Whether no name of an object needs an escape. -/
structure HasBareNames (object : BlockObject) : Prop where
  className : ∀ entry ∈ object.class?, IsBare entry.name
  state : ∀ state ∈ object.state?, state.name.IsBare

theorem HasBareNames.reference {object : BlockObject} (bare : object.HasBareNames) :
    (object.block.sourceReference object.key).IsBare where
  block := nofun
  className name member := by
    rw [Block.sourceReference] at member
    dsimp only at member
    split at member
    · cases member
      exact ⟨⟨by decide, by decide⟩, by decide⟩
    · obtain ⟨entry, found, rfl⟩ := Option.map_eq_some_iff.mp member
      exact bare.className entry found
  state name member := by
    obtain ⟨state, found, rfl⟩ := Option.map_eq_some_iff.mp member
    exact bare.state state found

end BlockObject

namespace Graph

variable {graph : Graph}

/-- A reference to an object, written without escapes, leads to it, with or without a block. -/
theorem lookup_of_bare {reference : ObjectReference} {id : BlockId} {object : BlockObject}
    (bare : reference.IsBare) (filled : reference ≠ .empty) {text : String}
    (written : text.toList = reference.bareSource) (trimmed : Text.trim text = text)
    (refers : graph.Refers id reference object) : graph.lookup? id text = some object := by
  rw [lookup?, ObjectReference.parse_of_bare bare filled written trimmed]
  exact resolve_eq_some_iff.mpr refers

/-- The sources of the objects of a loaded block lead back to them, from the block itself and behind
every name that another block has for it, as long as no name needs an escape and no blank stands at
an end. -/
theorem lookup_source {id : BlockId} {block : Block} (loaded : block.IsLoaded)
    (present : graph.block? id = some block) {object : BlockObject}
    (listed : object ∈ (⟨⟨id, .root⟩, block⟩ : BlockObject).own) (bare : object.HasBareNames) :
    (Text.trim object.source = object.source → graph.lookup? id object.source = some object) ∧
      ∀ other referring name, graph.block? other = some referring →
        referring.reference? name = some id → IsBare name →
          Text.trim (name ++ object.source) = name ++ object.source →
            graph.lookup? other (name ++ object.source) = some object := by
  obtain ⟨loading⟩ := (Block.isLoaded_iff_loading block).mp loaded
  obtain ⟨key, same, has⟩ := (BlockObject.mem_own_iff rfl).mp listed
  obtain rfl : object = ⟨⟨id, key⟩, block⟩ := same
  have found := Block.findOwn_sourceReference loading.hasUniqueNames has
  have leads : graph.Inherits (block.sourceReference key) id ⟨⟨id, key⟩, block⟩ :=
    .own present found
  have source := Block.toList_objectSource has
  refine ⟨fun trimmed => ?_, fun other referring name known referred isName trimmed => ?_⟩
  · exact lookup_of_bare bare.reference (Block.sourceReference_ne_empty has) source trimmed leads
  · let reference : ObjectReference := { block.sourceReference key with block := some name }
    have written : (name ++ block.objectSource key).toList = reference.bareSource := by
      rw [String.toList_append, source]
      simp [ObjectReference.bareSource, reference, Block.sourceReference]
    have isBare : reference.IsBare :=
      ⟨by simpa [reference] using isName, bare.reference.className, bare.reference.state⟩
    have nonempty : reference ≠ .empty := by simp [reference, ObjectReference.empty]
    exact lookup_of_bare isBare nonempty written trimmed ⟨referring, id, known, referred, leads⟩

end Graph

/-- A block that calls the menu `menu`. -/
def pageBlock : Block :=
  { Block.bare "page" "page.css" "page.css" with references := [("menu", ⟨0⟩)] }

/-- The state of the menu is found from its own block and from another one. -/
theorem menuBlock_finds_sources :
    let graph : Graph := ⟨#[some menuBlock, some pageBlock]⟩
    let opened : BlockObject := ⟨⟨⟨0⟩, .ofState (some 0) 0⟩, menuBlock⟩
    graph.lookup? ⟨0⟩ ".item[state|open]" = some opened ∧
      graph.lookup? ⟨1⟩ "menu.item[state|open]" = some opened := by
  intro graph opened
  have loaded : menuBlock.IsLoaded := (menuBlock.isLoaded_iff_loading).mpr ⟨menuLoading⟩
  have listed : opened ∈ (⟨⟨⟨0⟩, .root⟩, menuBlock⟩ : BlockObject).own :=
    (BlockObject.mem_own_iff rfl).mpr ⟨.ofState (some 0) 0, rfl, rfl⟩
  have bare : opened.HasBareNames := by
    constructor
    · rintro _ ⟨⟩
      exact ⟨⟨by decide, by decide⟩, by decide⟩
    · rintro _ ⟨⟩
      exact ⟨⟨⟨by decide, by decide⟩, by decide⟩, nofun⟩
  obtain ⟨own, referred⟩ := @Graph.lookup_source graph ⟨0⟩ menuBlock loaded rfl opened listed bare
  exact ⟨own (by decide), referred ⟨1⟩ pageBlock "menu" rfl rfl
    ⟨⟨by decide, by decide⟩, by decide⟩ (by decide)⟩

/-- A block with a class whose name needs an escape. -/
def colonBlock : Block :=
  { Block.bare "a" "a.css" "a.css" with
    named := true
    classes := [⟨"a:b", [], ⟨[⟨none, "color"⟩]⟩⟩]
    sheet := ⟨"a.css", [.rule ⟨0, ".a\\:b", ⟨1, 1, 0⟩⟩
      [.declaration ⟨"color", "red", false, ⟨1, 9, 8⟩⟩]], 1⟩
    selectors := [(0, [.ofCompound ⟨[.className "a:b"], none⟩])] }

def colonLoading : colonBlock.Loading where
  text := ".a\\:b \x7b color: red; \x7d"
  debugIdentifier := "a.css"
  defaultName := "a"
  identifier := "a.css"
  sheet := colonBlock.sheet
  draft := ⟨{ colonBlock with named := false, classes := [] }, []⟩
  graph := ⟨#[none]⟩
  defaults := id
  links := []
  body := { colonBlock with named := false }
  dependencies := []
  name := "a"
  read := by with_unfolding_all rfl
  drafted := by with_unfolding_all rfl
  completed := by with_unfolding_all rfl
  named := by with_unfolding_all rfl

/-- The source of the class leaves the escape out, so it leads nowhere. -/
theorem colonBlock_loses_source :
    colonBlock.IsLoaded ∧
      ∃ object ∈ (⟨⟨⟨0⟩, .root⟩, colonBlock⟩ : BlockObject).own,
        object.source = ".a:b" ∧ Graph.lookup? ⟨#[some colonBlock]⟩ ⟨0⟩ object.source = none := by
  refine ⟨(colonBlock.isLoaded_iff_loading).mpr ⟨colonLoading⟩, ⟨⟨⟨0⟩, .ofClass 0⟩, colonBlock⟩,
    (BlockObject.mem_own_iff rfl).mpr ⟨.ofClass 0, rfl, rfl⟩, ?_, ?_⟩
  · with_unfolding_all rfl
  · with_unfolding_all rfl

end StyleBlock
