import StyleBlock.Graph.Object

/-!
The elements of a template and the styles each can have: some always, and others in groups of
which at most one applies at a time.
-/

namespace StyleBlock

/-- A template by its kind and its identifier. -/
structure Template where
  kind : String
  identifier : String
deriving DecidableEq, Repr

namespace Template

structure Point where
  line : Nat
  column : Nat
deriving DecidableEq, Repr

/-- Where an element stands; its end may be unknown. -/
structure Span where
  start : Point
  stop : Option Point
deriving DecidableEq, Repr

/-- Styles of which at most one applies at a time. Unless the group is optional, one does. -/
structure Correlation where
  styles : List ObjectId
  optional : Bool
deriving DecidableEq, Repr

structure Element where
  /-- The number of elements recorded before this one. -/
  id : Nat
  span : Span
  /-- The styles that always apply, in order. -/
  statics : List ObjectId
  correlations : List Correlation
deriving DecidableEq, Repr

/-- Adds styles to an ordered set. -/
def addStyles (styles : List ObjectId) (more : List ObjectId) : List ObjectId :=
  more.foldl (fun styles style => Text.insertOrdered ObjectId.less style styles) styles

namespace Element

/-- Every style that can apply, in order. -/
def allStyles (element : Element) : List ObjectId :=
  element.correlations.foldl (fun styles correlation => addStyles styles correlation.styles)
    element.statics

/-- Whether two styles can apply at the same time; those of one group exclude each other. -/
def mayCoexist (element : Element) (left right : ObjectId) : Bool :=
  left ≠ right && !element.correlations.any fun correlation =>
    correlation.styles.contains left && correlation.styles.contains right

def addStatic (element : Element) (style : ObjectId) : Element :=
  { element with statics := addStyles element.statics [style] }

def addCorrelation (element : Element) (correlation : Correlation) : Element :=
  { element with correlations := element.correlations ++ [correlation] }

/-- The pairs of a list, each element with those after it. -/
def pairs : List α → List (α × α)
  | [] => []
  | first :: rest => rest.map (fun second => (first, second)) ++ pairs rest

/-- The pairs of styles of one block that can apply at the same time. -/
def coexistingPairs (element : Element) : List (ObjectId × ObjectId) :=
  (pairs element.allStyles).filter fun (left, right) =>
    left.block = right.block && element.mayCoexist left right

end Element

end Template

end StyleBlock
