import StyleBlock.Template.Fault

/-!
Which styles may share an element. A block's root and its classes belong on different elements, so
do two classes of one block; of an exclusive group of states at most one applies, and a state needs
what it is a state of.
-/

namespace StyleBlock.Template

/-- How the sheet of its block writes a style. -/
def sourceOf (graph : Graph) (style : ObjectId) : String :=
  ((graph.object? style).map BlockObject.source).getD ""

/-- The exclusive group of a state. -/
def groupOf (graph : Graph) (style : ObjectId) : Option String :=
  ((graph.object? style).bind BlockObject.state?).bind fun state => state.name.group

def isState : ObjectKey → Bool
  | .ofState _ _ => true
  | _ => false

/-- A pair with one style on the level of the root and one on the level of classes. -/
def rootWithClass? (graph : Graph) (left right : ObjectId) : Option TemplateFault :=
  if left.key.isRootLevel = right.key.isRootLevel then none
  else
    let (root, owner) := if left.key.isRootLevel then (left, right) else (right, left)
    some (.rootWithClass (sourceOf graph root) (sourceOf graph owner))

/-- A pair that belongs to two classes. -/
def twoClasses? (graph : Graph) (left right : ObjectId) : Option TemplateFault :=
  match left.key.class?, right.key.class? with
  | some first, some second =>
    if first = second then none
    else
      some (.twoClasses (sourceOf graph left) (sourceOf graph right)
        (((graph.block? left.block).map Block.name).getD ""))
  | _, _ => none

/-- A pair of states of one exclusive group of one owner. -/
def twoStates? (graph : Graph) (left right : ObjectId) : Option TemplateFault :=
  if isState left.key && isState right.key && left.key.class? = right.key.class? then
    match groupOf graph left, groupOf graph right with
    | some first, some second =>
      if first = second then some (.twoStates (sourceOf graph left) (sourceOf graph right))
      else none
    | _, _ => none
  else none

/-- A state without the root or the class it is a state of. -/
def stateAlone? (graph : Graph) (element : Element) (style : ObjectId) : Option TemplateFault :=
  if isState style.key then
    ((graph.object? style).bind BlockObject.parent?).bind fun parent =>
      if element.allStyles.contains parent.id && element.mayCoexist parent.id style then none
      else some (.stateAlone (sourceOf graph style) parent.source)
  else none

/-- The first fault among the styles of an element: the pairs are looked at for one rule after the
other, then the states. -/
def Element.fault? (graph : Graph) (element : Element) : Option TemplateFault :=
  let ofPairs (rule : ObjectId → ObjectId → Option TemplateFault) : Option TemplateFault :=
    element.coexistingPairs.findSome? fun (left, right) => rule left right
  ofPairs (rootWithClass? graph)
    |>.or (ofPairs (twoClasses? graph))
    |>.or (ofPairs (twoStates? graph))
    |>.or (element.allStyles.findSome? (stateAlone? graph element))

end StyleBlock.Template
