import StyleBlock.Graph.Object

/-!
Which selectors a block may use, and the objects they name. Reading a selector registers the
objects of its compounds with the block; a compound that names another block must name one object
that block has.
-/

namespace StyleBlock

/-- An object that a compound names: one of the block itself, or one of another block. -/
inductive CompoundObject where
  | own (key : ObjectKey)
  | foreign
deriving DecidableEq, Repr

/-- A fault is a misuse when a block lacks what another one asks it for. -/
def LegalityFault.error (fault : LegalityFault) (location : Text.Location) : Error :=
  match fault with
  | unknownClass .. | unknownState .. | unknownObject .. => .misuseAt (.legality fault) location
  | _ => .invalidAt (.legality fault) location

namespace Legality

/-- Nodes that no block may use. -/
def checkNode (block : Block) (selector : Selector) (node : SimpleSelector) :
    Except LegalityFault Unit :=
  match node with
  | .id id => .error (.idNode id selector)
  | .universal => .error (.universalNode selector)
  | .type name =>
    if (block.reference? name).isNone then .error (.typeNode name selector) else .ok ()
  | _ => .ok ()

def isType : SimpleSelector → Bool
  | .type _ => true
  | _ => false

/-- Why a block lacks the object of a reference. -/
def missingObject (graph : Graph) (target : BlockId) (reference : ObjectReference) (name : String)
    (compound : Compound) : LegalityFault :=
  let classOnly := { reference with state := none }
  match reference.className, reference.state with
  | some className, state =>
    if (graph.resolve? target classOnly).isNone then .unknownClass className name
    else
      match state with
      | some state => .unknownState state name
      | none => .unknownObject compound name
  | none, some state => .unknownState state name
  | none, none => .unknownObject compound name

/-- A compound that names a block must name one object of it. A block that is still being read
cannot be asked yet. -/
def checkForeign (block : Block) (graph : Graph) (selector : Selector) (compound : Compound) :
    Except LegalityFault Unit :=
  match ObjectReference.inCompound? compound with
  | none => .error (.notOneObject compound selector)
  | some reference =>
    match reference.block.bind fun name => (block.reference? name).map fun id => (name, id) with
    | none => .ok ()
    | some (name, target) =>
      let reference := reference.withoutBlock
      if !graph.isComplete target || (graph.resolve? target reference).isSome then .ok ()
      else .error (missingObject graph target reference name compound)

/-- The parts of an own object that were read so far. -/
structure ObjectParts where
  root : Bool
  owner : Option Nat
  state : Option ObjectKey
deriving DecidableEq, Repr

/-- The state that a node writes in one of the two plain forms. -/
def plainState? (node : SimpleSelector) (attr : AttributeSelector) : Option StateName :=
  match attr.test with
  | none => node.state?
  | some test => if test.flag.isNone && test.operator = .equals then node.state? else none

/-- Reads a class of an own compound. -/
def readClass (selector : Selector) (block : Block) (parts : ObjectParts) (name : String) :
    Except LegalityFault (Block × ObjectParts) :=
  if name = rootClass then
    if parts.owner.isSome then .error (.classOnRoot selector)
    else .ok (block, { parts with root := true })
  else if parts.root || (parts.state.isSome && parts.owner.isNone) then
    .error (.classOnRoot selector)
  else
    let existing := parts.owner.bind fun index => block.classes[index]?.map BlockClass.name
    match existing with
    | some first =>
      if first = name then
        let (block, index) := block.ensureClass name
        .ok (block, { parts with owner := some index })
      else .error (.twoClasses first name selector)
    | none =>
      let (block, index) := block.ensureClass name
      .ok (block, { parts with owner := some index })

/-- Reads a state of an own compound. -/
def readState (selector : Selector) (block : Block) (parts : ObjectParts) (name : StateName) :
    Except LegalityFault (Block × ObjectParts) :=
  let (block, key) := block.ensureState parts.owner name
  match parts.state with
  | some existing =>
    if existing = key then .ok (block, { parts with state := some key })
    else
      .error (.twoStates (block.objectSource existing) (block.objectSource key) selector)
  | none => .ok (block, { parts with state := some key })

/-- Reads a node of an own compound. -/
def readNode (selector : Selector) (reading : Block × ObjectParts) (node : SimpleSelector) :
    Except LegalityFault (Block × ObjectParts) :=
  let (block, parts) := reading
  match node with
  | .className name => readClass selector block parts name
  | .attr attr =>
    if attr.isState then
      match plainState? node attr with
      | some name => readState selector block parts name
      | none => .error (.malformedState selector)
    else .ok reading
  | _ => .ok reading

/-- The own object that the parts make up. -/
def ObjectParts.key? (parts : ObjectParts) : Option ObjectKey :=
  match parts.state, parts.owner with
  | some key, _ => some key
  | none, some index => some (.ofClass index)
  | none, none => if parts.root then some .root else none

/-- The object that a compound names. -/
def classifyCompound (graph : Graph) (selector : Selector) (block : Block) (compound : Compound) :
    Except LegalityFault (Block × CompoundObject) := do
  compound.nodes.forM (checkNode block selector)
  if compound.nodes.any isType then
    checkForeign block graph selector compound
    return (block, .foreign)
  let (block, parts) ← compound.nodes.foldlM (readNode selector) (block, ⟨false, none, none⟩)
  match parts.key? with
  | some key => return (block, .own key)
  | none => throw (.noObject compound selector)

/-- The objects of compounds from left to right, each with the combinator in front of it. Only
the key may have a pseudo-element. -/
def classifyAll (graph : Graph) (selector : Selector) (block : Block) :
    List (Option Combinator × Compound) →
      Except LegalityFault (Block × List (Option Combinator × CompoundObject))
  | [] => .ok (block, [])
  | (combinator, compound) :: rest => do
    if compound.pseudoElement.isSome && !rest.isEmpty then
      throw (.pseudoElementInContext selector)
    let (block, object) ← classifyCompound graph selector block compound
    let (block, objects) ← classifyAll graph selector block rest
    return (block, (combinator, object) :: objects)

/-- Neighbours: a class-level object is no ancestor of a root-level one, and siblings are of one
level. -/
def checkNeighbours (block : Block) (selector : Selector) :
    List (Option Combinator × CompoundObject) → Except LegalityFault Unit
  | (_, .own left) :: (some combinator, .own right) :: rest =>
    if combinator.isHierarchical && left.isClassLevel && right.isRootLevel then
      .error (.classAboveRoot (block.objectSource left) (block.objectSource right) selector)
    else if combinator.isSibling && left.isClassLevel != right.isClassLevel then
      .error (.mixedSiblings (block.objectSource left) (block.objectSource right) selector)
    else checkNeighbours block selector ((some combinator, .own right) :: rest)
  | _ :: rest => checkNeighbours block selector rest
  | [] => .ok ()

/-- The whole chain: no root-level object after a class-level one, and all root-level objects the
same. -/
def checkLevels (block : Block) (selector : Selector) (classLevel rootLevel : Option ObjectKey) :
    List (Option Combinator × CompoundObject) → Except LegalityFault Unit
  | [] => .ok ()
  | (_, .foreign) :: rest => checkLevels block selector classLevel rootLevel rest
  | (_, .own key) :: rest =>
    if key.isClassLevel then checkLevels block selector (some key) rootLevel rest
    else
      match classLevel with
      | some other =>
        .error (.rootAfterClass (block.objectSource key) (block.objectSource other) selector)
      | none =>
        match rootLevel with
        | some previous =>
          if previous = key then checkLevels block selector none (some key) rest
          else
            .error (.twoRootObjects (block.objectSource previous) (block.objectSource key)
              selector)
        | none => checkLevels block selector none (some key) rest

/-- Registers the objects that a selector names, and gives the object of its key when that is one
of the block. -/
def classify (graph : Graph) (block : Block) (selector : Selector) :
    Except LegalityFault (Block × Option ObjectKey) := do
  let (block, objects) ← classifyAll graph selector block selector.compounds
  checkNeighbours block selector objects
  checkLevels block selector none none objects
  match objects.getLast? with
  | some (_, .own key) => return (block, some key)
  | _ => return (block, none)

end Legality

end StyleBlock
