/-!
Selectors: chains of compounds joined by combinators. A compound lists what one element must
satisfy; the last compound of a chain, its key, is about the element that the rule styles.
-/

namespace StyleBlock

/-- The class that stands for the root of a block. -/
def rootClass : String := "root"

/-- The attribute namespace that marks a state. -/
def stateScope : String := "state"

inductive Combinator where
  | descendant
  | child
  | nextSibling
  | subsequentSibling
deriving DecidableEq, Repr

namespace Combinator

/-- Descendant and child go down the tree. -/
def isHierarchical : Combinator → Bool
  | descendant | child => true
  | nextSibling | subsequentSibling => false

/-- Both sibling combinators stay on one level. -/
def isSibling (combinator : Combinator) : Bool :=
  !combinator.isHierarchical

/-- Child and next sibling relate neighbours; the others may skip elements. -/
def isContiguous : Combinator → Bool
  | child | nextSibling => true
  | descendant | subsequentSibling => false

end Combinator

inductive AttributeOperator where
  | equals
  | includes
  | dashMatch
  | startsWith
  | endsWith
  | contains
deriving DecidableEq, Repr

/-- What an attribute's value must satisfy; the flag is what follows the value. -/
structure AttributeTest where
  operator : AttributeOperator
  value : String
  flag : Option String
deriving DecidableEq, Repr

/-- An attribute selector. The scope is the namespace in front of the bar. -/
structure AttributeSelector where
  scope : Option String
  name : String
  test : Option AttributeTest
deriving DecidableEq, Repr

/-- Whether the attribute is in the namespace of states. -/
def AttributeSelector.isState (attr : AttributeSelector) : Bool :=
  attr.scope = some stateScope

/-- The name of a state, and its exclusive group if it has one. -/
structure StateName where
  group : Option String
  name : String
deriving DecidableEq, Repr

inductive SimpleSelector where
  | type (name : String)
  | universal
  | className (name : String)
  | id (name : String)
  | attr (attr : AttributeSelector)
  /-- The argument of a functional pseudo-class is kept as written. -/
  | pseudoClass (name : String) (argument : Option String)
deriving DecidableEq, Repr

namespace SimpleSelector

/-- The selector of a state: `[state|name]`, or `[state|group=name]`. -/
def ofState (state : StateName) : SimpleSelector :=
  match state.group with
  | none => attr ⟨some stateScope, state.name, none⟩
  | some group => attr ⟨some stateScope, group, some ⟨.equals, state.name, none⟩⟩

/-- Whether the selector is `.root`. -/
def isRoot (node : SimpleSelector) : Bool :=
  node = className rootClass

/-- The state that an attribute in the namespace of states names. -/
def state? : SimpleSelector → Option StateName
  | attr selector =>
    if selector.isState then
      match selector.test with
      | some test => some ⟨some selector.name, test.value⟩
      | none => some ⟨none, selector.name⟩
    else none
  | _ => none

end SimpleSelector

/-- A pseudo-element; a legacy one is written with a single colon. -/
structure PseudoElement where
  name : String
  legacy : Bool
deriving DecidableEq, Repr

/-- The pseudo-elements that may be written with a single colon. -/
def legacyPseudoElements : List String := ["before", "after", "first-line", "first-letter"]

/-- What one element must satisfy, and the part of it that is selected. -/
structure Compound where
  nodes : List SimpleSelector
  pseudoElement : Option PseudoElement
deriving DecidableEq, Repr

namespace Compound

def empty : Compound := ⟨[], none⟩

def isEmpty (compound : Compound) : Bool :=
  compound.nodes.isEmpty && compound.pseudoElement.isNone

/-- The list with the elements of another one that it does not hold yet. -/
def addMissing (nodes : List SimpleSelector) : List SimpleSelector → List SimpleSelector
  | [] => nodes
  | node :: others =>
    if nodes.contains node then addMissing nodes others else addMissing (nodes ++ [node]) others

/-- Both compounds on one element: the nodes of the first, then what the second adds. -/
def merged (left right : Compound) : Compound :=
  ⟨addMissing left.nodes right.nodes, left.pseudoElement <|> right.pseudoElement⟩

end Compound

/-- A chain of compounds, each after the first with the combinator in front of it. -/
structure Selector where
  head : Compound
  tail : List (Combinator × Compound)
deriving DecidableEq, Repr

namespace Selector

/-- A single compound. -/
def ofCompound (compound : Compound) : Selector := ⟨compound, []⟩

/-- The chain with one more compound on its right. -/
def push (selector : Selector) (combinator : Combinator) (compound : Compound) : Selector :=
  ⟨selector.head, selector.tail ++ [(combinator, compound)]⟩

/-- The last compound. -/
def key (selector : Selector) : Compound :=
  match selector.tail.getLast? with
  | some (_, compound) => compound
  | none => selector.head

def pseudoElement? (selector : Selector) : Option PseudoElement :=
  selector.key.pseudoElement

/-- The name of the key's pseudo-element. -/
def pseudoName? (selector : Selector) : Option String :=
  selector.pseudoElement?.map PseudoElement.name

/-- The combinator in front of the key. -/
def combinator? (selector : Selector) : Option Combinator :=
  selector.tail.getLast?.map Prod.fst

/-- Everything before the last combinator, and that combinator. -/
def context? (selector : Selector) : Option (Selector × Combinator) :=
  selector.combinator?.map fun combinator => (⟨selector.head, selector.tail.dropLast⟩, combinator)

def combinatorCount (selector : Selector) : Nat :=
  selector.tail.length

/-- The compounds from left to right, each with the combinator in front of it. -/
def compounds (selector : Selector) : List (Option Combinator × Compound) :=
  (none, selector.head) ::
    selector.tail.map fun (combinator, compound) => (some combinator, compound)

/-- The chain with every compound changed by `change`. -/
def mapCompounds (selector : Selector) (change : Compound → Compound) : Selector :=
  ⟨change selector.head,
    selector.tail.map fun (combinator, compound) => (combinator, change compound)⟩

/-- Whether the selector is exactly `.root`. -/
def isRoot (selector : Selector) : Bool :=
  selector.tail.isEmpty && selector.head.pseudoElement.isNone &&
    match selector.head.nodes with
    | [node] => node.isRoot
    | _ => false

end Selector

/-- Whether a selector list holds a bare `.root`. -/
def isRootRule (selectors : List Selector) : Bool :=
  selectors.any Selector.isRoot

end StyleBlock
