import StyleBlock.Compile.Classes
import StyleBlock.Reference.Resolution
import StyleBlock.Selector.Merge

/-!
Settling conflicts. A declaration that asks for a resolution is compared with the rules of the
object it names, then of the objects that one overrides; the first object with a conflicting rule
counts. For every rule that conflicts a rule is generated whose selectors hold where both rules
apply, with the values that are to win there.
-/

namespace StyleBlock

open Text (Location Position)

namespace Conflict

/-- What all resolutions of one block share. -/
structure Context where
  graph : Graph
  id : BlockId
  mode : OutputMode
  /-- The selectors of a rule with classes in place of objects. -/
  selectors : RuleId → List Selector

/-- One resolution in a rule: the local values of its property, the rule's selectors, and whether
the other value is to win. -/
structure Question where
  property : String
  locals : List Declaration
  selectors : List Selector
  otherWins : Bool
  place : Position
  location : Location

/-- What comparing with one object found. -/
inductive Outcome where
  | noConflict
  | sameValues
  | rules (rules : List Rule)

/-- Whether two lists of declarations say the same, wherever they stand. -/
def sameDeclarations : List Declaration → List Declaration → Bool
  | [], [] => true
  | mine :: restMine, theirs :: restTheirs =>
    mine.property = theirs.property && mine.value = theirs.value &&
      mine.important = theirs.important && sameDeclarations restMine restTheirs
  | _, _ => false

/-- The concrete declarations of a rule that conflict with a property. -/
def conflictingValues (property : String) (rule : Rule) : List Declaration :=
  rule.declarations.filter fun declaration =>
    propertiesConflict declaration.property property && !declaration.isResolution

/-- The pairs of a class selector of another rule and one of this rule that select the same
pseudo-element. -/
def comparablePairs (context : Context) (question : Question) (object : BlockObject)
    (rule : Rule) : List (Selector × Selector) :=
  let others := (object.block.selectorsOf rule.head.id).filter fun selector =>
    object.isNamedBy selector.key
  others.flatMap fun other =>
    let other := classSelector context.graph object.id.block context.mode other
    (question.selectors.filter fun current =>
      current.pseudoName? = other.pseudoName?).map fun current => (other, current)

/-- Adds the selectors for one pair to those merged before, without repetition. -/
def mergePair (location : Location) (merged : List Selector) (pair : Selector × Selector) :
    Except Error (List Selector) :=
  match pair.1.mergeKeys? pair.2 with
  | none => .error (.invalidAt (.compile (.cannotMerge pair.1 pair.2)) location)
  | some selectors =>
    .ok (selectors.foldl (fun merged selector =>
      if merged.contains selector then merged else merged ++ [selector]) merged)

/-- The generated rules so far, whether equal values were met, and the next free rule number. -/
structure Comparison where
  rules : List Rule
  sameValues : Bool
  nextRule : RuleId

/-- Compares with one rule of an object's block. -/
def compareRule (context : Context) (question : Question) (object : BlockObject)
    (comparison : Comparison) (rule : Rule) : Except Error Comparison := do
  let values := conflictingValues question.property rule
  let pairs := comparablePairs context question object rule
  if values.isEmpty || pairs.isEmpty then
    return comparison
  if sameDeclarations question.locals values then
    return { comparison with sameValues := true }
  let merged ← pairs.foldlM (mergePair question.location) []
  let declarations :=
    if question.otherWins then values.map fun value => { value with place := question.place }
    else question.locals
  let head : RuleHead := ⟨comparison.nextRule, selectorList merged, question.place⟩
  return { comparison with
    rules := comparison.rules ++ [⟨head, declarations.map Node.declaration⟩]
    nextRule := comparison.nextRule + 1 }

/-- Compares with the rules of one object. -/
def compareObject (context : Context) (question : Question) (object : BlockObject)
    (nextRule : RuleId) : Except Error (Outcome × RuleId) := do
  let comparison ← object.block.sheet.styleRules.foldlM (compareRule context question object)
    ⟨[], false, nextRule⟩
  let outcome :=
    if !comparison.rules.isEmpty then .rules comparison.rules
    else if comparison.sameValues then .sameValues
    else .noConflict
  return (outcome, comparison.nextRule)

/-- Compares with an object and then, unless it is asked for alone, with its bases in turn, until
one has a conflicting rule; `none` when none has. No more than `steps` objects are looked at. -/
def compareFrom (context : Context) (question : Question) (alone : Bool) :
    Nat → RuleId → Option BlockObject → Except Error (Option (List Rule) × RuleId)
  | _, nextRule, none => .ok (none, nextRule)
  | 0, nextRule, some _ => .ok (none, nextRule)
  | steps + 1, nextRule, some object => do
    let (outcome, nextRule) ← compareObject context question object nextRule
    match outcome with
    | .noConflict =>
      compareFrom context question alone steps nextRule
        (if alone then none else context.graph.baseOf? object)
    | .sameValues => return (some [], nextRule)
    | .rules rules => return (some rules, nextRule)

/-- The declarations of a property with their places in the body. -/
def declarationsOf (property : String) (nodes : List Node) : List (Declaration × Nat) :=
  nodes.zipIdx.filterMap fun (node, index) =>
    match node with
    | .declaration declaration =>
      if declaration.property = property then some (declaration, index) else none
    | _ => none

/-- The concrete declarations of a property and the place of the last one. Resolutions of the
property must stand before or after all of them. -/
def localValues (nodes : List Node) (property : String) :
    Except CompileFault (List Declaration × Nat) :=
  let all := declarationsOf property nodes
  let concrete := all.filter fun (declaration, _) => !declaration.isResolution
  match concrete.head?, concrete.getLast? with
  | some (_, first), some (_, last) =>
    if all.any fun (declaration, index) =>
        declaration.isResolution && first < index && index < last then
      .error (.mixedValues property)
    else .ok (concrete.map Prod.fst, last)
  | _, _ => .error (.noConcreteValue property)

/-- A resolution with its property and its place in the body. -/
structure Placed where
  index : Nat
  property : String
  resolution : Resolution

/-- The resolutions that stand directly in a body. -/
def resolutionsIn (nodes : List Node) : List Placed :=
  nodes.zipIdx.filterMap fun (node, index) =>
    match node with
    | .declaration declaration =>
      (Resolution.parse? declaration.value).map fun resolution =>
        ⟨index, declaration.property, resolution⟩
    | _ => none

/-- The rules that settle one resolution. A chain of bases has no more objects than there are
slots. -/
def settle (context : Context) (location : Location) (rule : Rule)
    (state : List Rule × RuleId) (placed : Placed) : Except Error (List Rule × RuleId) := do
  let fail (fault : CompileFault) : Error := .invalidAt (.compile fault) location
  let (locals, last) ← (localValues rule.nodes placed.property).mapError fail
  let some object := context.graph.lookup? context.id placed.resolution.reference
    | throw (fail (.unknownReference placed.resolution.reference placed.property))
  let question : Question :=
    { property := placed.property
      locals
      selectors := context.selectors rule.head.id
      otherWins := last < placed.index
      place := rule.head.place
      location }
  let (found, nextRule) ← compareFrom context question placed.resolution.inherited
    (context.graph.slots.size + 1) state.2 (some object)
  match found with
  | some rules => return (state.1 ++ rules, nextRule)
  | none => throw (fail (.noConflict placed.property placed.resolution.reference))

/-- The body without its resolutions. -/
def withoutResolutions (nodes : List Node) : List Node :=
  nodes.filter fun node =>
    match node with
    | .declaration declaration => !declaration.isResolution
    | _ => true

/-- A rule whose resolutions are settled, followed by the rules that settle them. -/
def settleRule (context : Context) (file : String) (rule : Rule) (nextRule : RuleId) :
    Except Error (List Node × RuleId) := do
  let (rules, nextRule) ← (resolutionsIn rule.nodes).foldlM
    (settle context (rule.head.place.inFile file) rule) ([], nextRule)
  return (.rule rule.head (withoutResolutions rule.nodes) :: rules.map Rule.toNode, nextRule)

mutual

/-- A node with all resolutions in it settled, followed by the rules generated for it. -/
def settleNode (context : Context) (file : String) (nextRule : RuleId) :
    Node → Except Error (List Node × RuleId)
  | .rule head nodes => do
    let (nodes, nextRule) ← settleNodes context file nextRule nodes
    settleRule context file ⟨head, nodes⟩ nextRule
  | .group head nodes => do
    let (nodes, nextRule) ← settleNodes context file nextRule nodes
    return ([.group head nodes], nextRule)
  | node => .ok ([node], nextRule)

/-- Nodes with all resolutions in them settled, each with the rules generated for it behind. -/
def settleNodes (context : Context) (file : String) (nextRule : RuleId) :
    List Node → Except Error (List Node × RuleId)
  | [] => .ok ([], nextRule)
  | node :: rest => do
    let (first, nextRule) ← settleNode context file nextRule node
    let (others, nextRule) ← settleNodes context file nextRule rest
    return (first ++ others, nextRule)

end

end Conflict

end StyleBlock
