import StyleBlock.Selector.Parser

/-!
References to block objects, as selectors write them: an optional block name, an optional class,
and an optional state.
-/

namespace StyleBlock

/-- A reference to an object of the block itself or of a block it refers to. -/
structure ObjectReference where
  block : Option String
  className : Option String
  state : Option StateName
deriving DecidableEq, Repr

namespace ObjectReference

def empty : ObjectReference := ⟨none, none, none⟩

/-- The state that the words of an argument name. -/
def stateOfWords? : List String → Option StateName
  | [name] => some ⟨none, name⟩
  | [group, name] => some ⟨some group, name⟩
  | _ => none

/-- The reference with one more part; each part comes at most once, the class before the state. -/
def addNode? (reference : ObjectReference) : SimpleSelector → Option ObjectReference
  | .className name =>
    if reference.className.isNone && reference.state.isNone then
      some { reference with className := some name }
    else none
  | .attr attr =>
    if reference.state.isNone then
      (SimpleSelector.attr attr).state?.map fun state => { reference with state := some state }
    else none
  | .pseudoClass name (some argument) =>
    if name = stateScope && reference.state.isNone then
      (stateOfWords? (Text.words argument)).map fun state => { reference with state := some state }
    else none
  | _ => none

/-- The reference that nodes spell out, with nothing besides. -/
def ofNodes? (nodes : List SimpleSelector) : Option ObjectReference := do
  let reference ← match nodes with
    | .type name :: rest => rest.foldlM addNode? { empty with block := some name }
    | nodes => nodes.foldlM addNode? empty
  if reference = empty then none else some reference

/-- The reference that a compound spells out. -/
def ofCompound? (compound : Compound) : Option ObjectReference :=
  ofNodes? compound.nodes

/-- Whether a node can be part of a reference. -/
def isPart : SimpleSelector → Bool
  | .attr attr => attr.isState
  | .pseudoClass name _ => name = stateScope
  | _ => true

/-- The object that a compound names, whatever pseudo-classes and plain attributes stand around
it. -/
def inCompound? (compound : Compound) : Option ObjectReference :=
  ofNodes? (compound.nodes.filter isPart)

/-- Reads a reference from a text of its own. -/
def parse? (text : String) : Option ObjectReference :=
  match parseSelectors (Text.trim text) with
  | .ok [selector] =>
    if selector.tail.isEmpty && selector.head.pseudoElement.isNone then ofCompound? selector.head
    else none
  | _ => none

/-- Whether the reference names no class besides the root. -/
def namesRoot (reference : ObjectReference) : Bool :=
  reference.className = none || reference.className = some rootClass

/-- The reference inside the block it names. -/
def withoutBlock (reference : ObjectReference) : ObjectReference :=
  { reference with block := none }

end ObjectReference

end StyleBlock
