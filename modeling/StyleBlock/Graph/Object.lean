import StyleBlock.Graph.Basic
import StyleBlock.Options

/-!
Objects of blocks: how they are written, what they are called in the output, and how they relate
along the chain of extended blocks. A chain visits a slot once at most, so as many steps as there
are slots reach its end.
-/

namespace StyleBlock

/-- An object together with its block. -/
structure BlockObject where
  id : ObjectId
  block : Block

namespace BlockObject

def key (object : BlockObject) : ObjectKey := object.id.key

def class? (object : BlockObject) : Option BlockClass := object.block.classAt? object.key

def state? (object : BlockObject) : Option State := object.block.stateAt? object.key

def isRoot (object : BlockObject) : Bool := object.key = .root

/-- How the sheet of its block writes the object. -/
def source (object : BlockObject) : String := object.block.objectSource object.key

/-- The end of a generated name that a state adds. -/
def stateEnd (object : BlockObject) : String :=
  match object.state? with
  | some state => "--" ++ state.nameEnd
  | none => ""

/-- The name of the object among those its block exports. -/
def localName (object : BlockObject) : String :=
  ((object.class?.map BlockClass.name).getD rootClass) ++ object.stateEnd

/-- The generated class name. -/
def cssClass (object : BlockObject) (mode : OutputMode) : String :=
  match mode with
  | .bem =>
    object.block.name ++
      (match object.class? with
        | some owner => "__" ++ owner.name
        | none => "") ++
      object.stateEnd

def properties (object : BlockObject) : PropertyUses :=
  (object.block.propertiesAt? object.key).getD .empty

/-- Another object of the same block. -/
def sibling (object : BlockObject) (key : ObjectKey) : BlockObject :=
  ⟨⟨object.id.block, key⟩, object.block⟩

/-- The class or the root that the object is scoped to. -/
def parent? (object : BlockObject) : Option BlockObject :=
  match object.key with
  | .root => none
  | .ofClass _ => some (object.sibling .root)
  | .ofState none _ => some (object.sibling .root)
  | .ofState (some owner) _ => some (object.sibling (.ofClass owner))

/-- The reference that names the object inside its block. -/
def reference (object : BlockObject) : ObjectReference :=
  ⟨none, object.class?.map BlockClass.name, object.state?.map State.name⟩

/-- The states of the root or of a class. -/
def statesOf (object : BlockObject) (owner : Option Nat) : List BlockObject :=
  (List.range ((object.block.statesOf? owner).getD []).length).map fun index =>
    object.sibling (.ofState owner index)

/-- A class and its states. -/
def classWithStates (object : BlockObject) (index : Nat) : List BlockObject :=
  object.sibling (.ofClass index) :: object.statesOf (some index)

/-- The object and the objects it owns: the root owns its states and all classes, a class its
states. -/
def own (object : BlockObject) : List BlockObject :=
  match object.key with
  | .root =>
    object :: (object.statesOf none ++
      (List.range object.block.classes.length).flatMap object.classWithStates)
  | .ofClass index => object :: object.statesOf (some index)
  | .ofState _ _ => [object]

/-- Whether a compound selects the object in the sheet of its block, whatever pseudo-classes and
plain attributes it holds besides. -/
def isNamedBy (object : BlockObject) (compound : Compound) : Bool :=
  match ObjectReference.inCompound? compound with
  | some reference =>
    reference.block.isNone && object.block.findOwn? reference = some object.key
  | none => false

end BlockObject

namespace Graph

/-- The object with an id, if its block is complete. -/
def object? (graph : Graph) (id : ObjectId) : Option BlockObject :=
  (graph.block? id.block).map fun block => ⟨id, block⟩

/-- The root of a block. -/
def root? (graph : Graph) (id : BlockId) : Option BlockObject :=
  graph.object? ⟨id, .root⟩

/-- The first block that defines an object, along at most `steps` blocks of a base chain. -/
def findAlong? (graph : Graph) (reference : ObjectReference) : Nat → BlockId → Option BlockObject
  | 0, _ => none
  | steps + 1, id =>
    match graph.block? id with
    | none => none
    | some block =>
      match block.findOwn? reference with
      | some key => some ⟨⟨id, key⟩, block⟩
      | none =>
        match block.base? with
        | some base => graph.findAlong? reference steps base
        | none => none

/-- The object that a reference without a block names, in a block or the blocks it extends. -/
def resolveLocal? (graph : Graph) (id : BlockId) (reference : ObjectReference) :
    Option BlockObject :=
  graph.findAlong? reference graph.slots.size id

/-- The object that a reference names, as seen from a block. -/
def resolve? (graph : Graph) (id : BlockId) (reference : ObjectReference) : Option BlockObject :=
  match reference.block with
  | none => graph.resolveLocal? id reference
  | some name => do
    let target ← (← graph.block? id).reference? name
    graph.resolveLocal? target reference.withoutBlock

/-- The object that a text names, as seen from a block. -/
def lookup? (graph : Graph) (id : BlockId) (text : String) : Option BlockObject :=
  (ObjectReference.parse? text).bind (graph.resolve? id)

/-- The object of the same name in the nearest extended block that has one. -/
def baseOf? (graph : Graph) (object : BlockObject) : Option BlockObject :=
  object.block.base?.bind fun base => graph.resolveLocal? base object.reference

/-- Adds the bases of an object to those found before it, until one repeats. -/
def addBases (graph : Graph) (found : List BlockObject) (object : BlockObject) :
    Nat → List BlockObject
  | 0 => found
  | steps + 1 =>
    match graph.baseOf? object with
    | none => found
    | some base =>
      if found.any fun other => other.id = base.id then found
      else graph.addBases (found ++ [base]) base steps

/-- The object and everything it overrides, nearest first. -/
def stylesOf (graph : Graph) (object : BlockObject) : List BlockObject :=
  graph.addBases [object] object graph.slots.size

/-- The objects an object owns or inherits, along at most `steps` bases. Inherited objects with
the source of an own one are left out. -/
def ownAndInherited (graph : Graph) : Nat → BlockObject → List BlockObject
  | 0, object => object.own
  | steps + 1, object =>
    match object.key with
    | .ofState _ _ => object.own
    | _ =>
      match graph.baseOf? object with
      | none => object.own
      | some base =>
        let sources := object.own.map BlockObject.source
        object.own ++ (graph.ownAndInherited steps base).filter fun inherited =>
          !sources.contains inherited.source

/-- The objects an object owns or inherits. -/
def allOf (graph : Graph) (object : BlockObject) : List BlockObject :=
  graph.ownAndInherited graph.slots.size object

end Graph

end StyleBlock
