import StyleBlock.Graph.Object

/-!
Replacing the objects in selectors by their generated class names. An object is written as an
optional block name, an optional class and an optional state; other nodes may stand between the
parts and stay as they are.
-/

namespace StyleBlock

namespace Classes

/-- The reference that a node starts. -/
def start? : SimpleSelector → Option ObjectReference
  | .type name => some { ObjectReference.empty with block := some name }
  | .className name => some { ObjectReference.empty with className := some name }
  | node => node.state?.map fun state => { ObjectReference.empty with state := some state }

/-- The reference with the parts that follow it, and the nodes that are no parts. A second class
or block name ends the object, and so does its state. -/
def gather (reference : ObjectReference) :
    List SimpleSelector → ObjectReference × List SimpleSelector
  | [] => (reference, [])
  | .type name :: rest => (reference, .type name :: rest)
  | .className name :: rest =>
    if reference.className.isNone then gather { reference with className := some name } rest
    else (reference, .className name :: rest)
  | node :: rest =>
    match node.state? with
    | some state => ({ reference with state := some state }, rest)
    | none =>
      let (reference, others) := gather reference rest
      (reference, node :: others)

theorem length_gather (reference : ObjectReference) (nodes : List SimpleSelector) :
    (gather reference nodes).2.length ≤ nodes.length := by
  fun_induction gather reference nodes with
  | case1 | case2 | case4 => exact Nat.le_refl _
  | case3 reference name rest fresh shorter => exact Nat.le_succ_of_le shorter
  | case5 => exact Nat.le_succ _
  | case6 reference node rest plain noClass none other others gathered shorter =>
    rw [gathered] at shorter
    exact Nat.succ_le_succ shorter

/-- The whole reference that starts with a part, and the nodes that are no parts; nothing follows
a state. -/
def complete (reference : ObjectReference) (rest : List SimpleSelector) :
    ObjectReference × List SimpleSelector :=
  if reference.state.isSome then (reference, rest) else gather reference rest

theorem length_complete (reference : ObjectReference) (rest : List SimpleSelector) :
    (complete reference rest).2.length ≤ rest.length := by
  unfold complete
  split
  · exact Nat.le_refl _
  · exact length_gather reference rest

/-- The object that starts at a node, and the nodes after it that are no parts of it. -/
def objectAt? (graph : Graph) (id : BlockId) (node : SimpleSelector)
    (rest : List SimpleSelector) : Option (BlockObject × List SimpleSelector) := do
  let reference ← start? node
  let object ← graph.resolve? id (complete reference rest).1
  return (object, (complete reference rest).2)

theorem length_objectAt {graph : Graph} {id : BlockId} {node : SimpleSelector}
    {rest : List SimpleSelector} {found : BlockObject × List SimpleSelector}
    (same : objectAt? graph id node rest = some found) : found.2.length ≤ rest.length := by
  obtain ⟨reference, _, same⟩ := Option.bind_eq_some_iff.1 same
  obtain ⟨object, _, same⟩ := Option.bind_eq_some_iff.1 same
  cases same
  exact length_complete reference rest

/-- The nodes of a compound with every object replaced by its class. -/
def ofNodes (graph : Graph) (id : BlockId) (mode : OutputMode) :
    List SimpleSelector → List SimpleSelector
  | [] => []
  | node :: rest =>
    match found : objectAt? graph id node rest with
    | some (object, others) =>
      have : others.length ≤ rest.length := length_objectAt found
      .className (object.cssClass mode) :: ofNodes graph id mode others
    | none => node :: ofNodes graph id mode rest
termination_by nodes => nodes.length

def ofCompound (graph : Graph) (id : BlockId) (mode : OutputMode) (compound : Compound) :
    Compound :=
  { compound with nodes := ofNodes graph id mode compound.nodes }

end Classes

/-- A selector of a block with every object replaced by its class. -/
def classSelector (graph : Graph) (id : BlockId) (mode : OutputMode) (selector : Selector) :
    Selector :=
  selector.mapCompounds (Classes.ofCompound graph id mode)

/-- The selectors of a rule of a block with classes in place of objects. -/
def classSelectors (graph : Graph) (id : BlockId) (mode : OutputMode) (block : Block)
    (rule : RuleId) : List Selector :=
  (block.selectorsOf rule).map (classSelector graph id mode)

/-- The head of a rule with its new selectors; a rule without parsed selectors stays as it is. -/
def RuleHead.withSelectors (head : RuleHead) (selectors : List Selector) : RuleHead :=
  if selectors.isEmpty then head else { head with selector := selectorList selectors }

mutual

/-- A node with the selectors of all rules in it replaced. -/
def Node.withSelectors (selectors : RuleId → List Selector) : Node → Node
  | .rule head nodes =>
    .rule (head.withSelectors (selectors head.id)) (nodesWithSelectors selectors nodes)
  | .group head nodes => .group head (nodesWithSelectors selectors nodes)
  | node => node

/-- Nodes with the selectors of all rules in them replaced. -/
def nodesWithSelectors (selectors : RuleId → List Selector) : List Node → List Node
  | [] => []
  | node :: rest => node.withSelectors selectors :: nodesWithSelectors selectors rest

end

end StyleBlock
