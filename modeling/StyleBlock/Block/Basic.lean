import StyleBlock.Error
import StyleBlock.Property.Uses
import StyleBlock.Reference.Object
import StyleBlock.Sheet.Basic

/-!
Blocks: one sheet read as a root, its classes, and the states of either. Objects are addressed by
their place in the block, which stays what it is while the block grows.
-/

namespace StyleBlock

/-- The place of a block in the graph. -/
structure BlockId where
  slot : Nat
deriving DecidableEq, Repr

/-- The identity of a file, as an importer gives it. -/
abbrev FileId : Type := String

/-- Which object of a block: its root, a class, or a state of the root or of a class. -/
inductive ObjectKey where
  | root
  | ofClass (index : Nat)
  | ofState (owner : Option Nat) (index : Nat)
deriving DecidableEq, Repr

namespace ObjectKey

/-- The root and its states. -/
def isRootLevel : ObjectKey → Bool
  | root => true
  | ofClass _ => false
  | ofState owner _ => owner.isNone

/-- The classes and their states. -/
def isClassLevel (key : ObjectKey) : Bool := !key.isRootLevel

/-- The class that an object is or belongs to. -/
def class? : ObjectKey → Option Nat
  | root => none
  | ofClass index => some index
  | ofState owner _ => owner

/-- The root comes first, then classes, then states: those of the root, then class by class. -/
def rank : ObjectKey → Nat × Nat × Nat
  | root => (0, 0, 0)
  | ofClass index => (1, index, 0)
  | ofState none index => (2, 0, index)
  | ofState (some owner) index => (2, owner + 1, index)

def less (left right : ObjectKey) : Bool :=
  let (a, b, c) := left.rank
  let (x, y, z) := right.rank
  a < x || (a = x && (b < y || (b = y && c < z)))

end ObjectKey

/-- An object anywhere in the graph. -/
structure ObjectId where
  block : BlockId
  key : ObjectKey
deriving DecidableEq, Repr

/-- Objects are ordered by block, and inside a block by their key. -/
def ObjectId.less (left right : ObjectId) : Bool :=
  left.block.slot < right.block.slot || (left.block = right.block && left.key.less right.key)

/-- A state with the properties its rules declare. -/
structure State where
  name : StateName
  properties : PropertyUses
deriving DecidableEq, Repr

namespace State

/-- `[state|name]` or `[state|group=name]`. -/
def source (state : State) : String :=
  match state.name.group with
  | some group => "[state|" ++ group ++ "=" ++ state.name.name ++ "]"
  | none => "[state|" ++ state.name.name ++ "]"

/-- The end of a generated name: `name` or `group-name`. -/
def nameEnd (state : State) : String :=
  match state.name.group with
  | some group => group ++ "-" ++ state.name.name
  | none => state.name.name

end State

/-- The place of a state in a list. -/
def findState? (states : List State) (name : StateName) : Option Nat :=
  states.findIdx? fun state => state.name = name

/-- The list with a state of that name, and the place where it stands. -/
def ensureStateIn (states : List State) (name : StateName) : List State × Nat :=
  match findState? states name with
  | some index => (states, index)
  | none => (states ++ [⟨name, .empty⟩], states.length)

/-- The names of the exclusive groups, in the order of their first states. -/
def groupsOf (states : List State) : List String :=
  (states.filterMap fun state => state.name.group).eraseDups

structure BlockClass where
  name : String
  states : List State
  properties : PropertyUses
deriving DecidableEq, Repr

/-- The block that another one extends, and the local name it is extended under. -/
structure Extension where
  block : BlockId
  localName : String
deriving DecidableEq, Repr

structure Block where
  name : String
  /-- Whether the name was assigned for good. -/
  named : Bool
  identifier : FileId
  debugIdentifier : String
  extension : Option Extension
  implemented : List BlockId
  /-- The local names of other blocks, in order. -/
  references : List (String × BlockId)
  properties : PropertyUses
  states : List State
  classes : List BlockClass
  dependencies : List String
  sheet : Sheet
  /-- The parsed selectors of every style rule of the sheet. -/
  selectors : List (RuleId × List Selector)

namespace Block

/-- A block without rules. -/
def bare (name : String) (identifier : FileId) (debugIdentifier : String) : Block where
  name
  named := false
  identifier
  debugIdentifier
  extension := none
  implemented := []
  references := []
  properties := .empty
  states := []
  classes := []
  dependencies := []
  sheet := .empty debugIdentifier
  selectors := []

/-- Assigns the final name, which happens once. -/
def setName (block : Block) (name : String) : Except Error Block :=
  if block.named then .error (.misuse (.header (.renamed block.name)) none)
  else .ok { block with name, named := true }

def base? (block : Block) : Option BlockId := block.extension.map Extension.block

/-- The block that a local name refers to. -/
def reference? (block : Block) (name : String) : Option BlockId :=
  (block.references.find? fun (localName, _) => localName == name).map Prod.snd

def findClass? (block : Block) (name : String) : Option Nat :=
  block.classes.findIdx? fun entry => entry.name = name

/-- The parsed selectors of a rule; rules that select no elements have none. -/
def selectorsOf (block : Block) (rule : RuleId) : List Selector :=
  ((block.selectors.find? fun (id, _) => id == rule).map Prod.snd).getD []

/-- The states of the root or of a class. -/
def statesOf? (block : Block) : Option Nat → Option (List State)
  | none => some block.states
  | some index => block.classes[index]?.map BlockClass.states

/-- The state that a key stands for. -/
def stateAt? (block : Block) : ObjectKey → Option State
  | .ofState owner index => (block.statesOf? owner).bind fun states => states[index]?
  | _ => none

/-- The class that an object is or belongs to. -/
def classAt? (block : Block) (key : ObjectKey) : Option BlockClass :=
  key.class?.bind fun index => block.classes[index]?

/-- Whether the block has an object with the key. -/
def contains (block : Block) : ObjectKey → Bool
  | .root => true
  | .ofClass index => index < block.classes.length
  | .ofState owner index => ((block.statesOf? owner).bind fun states => states[index]?).isSome

/-- The properties that the rules of an object declare. -/
def propertiesAt? (block : Block) : ObjectKey → Option PropertyUses
  | .root => some block.properties
  | .ofClass index => block.classes[index]?.map BlockClass.properties
  | .ofState owner index =>
    ((block.statesOf? owner).bind fun states => states[index]?).map State.properties

/-- The source of a class, in front of the source of a state. -/
def classSource (block : Block) (index : Nat) : String :=
  "." ++ ((block.classes[index]?.map BlockClass.name).getD "")

/-- How the sheet writes an object: `.root`, `.class`, `[state|name]`, `.class[state|name]`. -/
def objectSource (block : Block) (key : ObjectKey) : String :=
  match key with
  | .root => ".root"
  | .ofClass index => block.classSource index
  | .ofState none _ => ((block.stateAt? key).map State.source).getD ""
  | .ofState (some index) _ =>
    block.classSource index ++ ((block.stateAt? key).map State.source).getD ""

/-- The own object that a reference without a block names. -/
def findOwn? (block : Block) (reference : ObjectReference) : Option ObjectKey := do
  let owner ←
    match reference.className with
    | none => some none
    | some name => if name = rootClass then some none else (block.findClass? name).map some
  match reference.state with
  | none =>
    match owner with
    | none => some .root
    | some index => some (.ofClass index)
  | some state =>
    let states ← block.statesOf? owner
    let index ← findState? states state
    some (.ofState owner index)

/-- The block with a class of that name, and its place. -/
def ensureClass (block : Block) (name : String) : Block × Nat :=
  match block.findClass? name with
  | some index => (block, index)
  | none => ({ block with classes := block.classes ++ [⟨name, [], .empty⟩] }, block.classes.length)

/-- The block with a state of the root or of an existing class, and the state's key. -/
def ensureState (block : Block) (owner : Option Nat) (name : StateName) : Block × ObjectKey :=
  match owner.bind fun index => block.classes[index]?.map fun entry => (index, entry) with
  | some (index, entry) =>
    let (states, place) := ensureStateIn entry.states name
    ({ block with classes := block.classes.set index { entry with states } },
      .ofState owner place)
  | none =>
    let (states, place) := ensureStateIn block.states name
    ({ block with states }, .ofState owner place)

/-- The list with the state at a place changed. -/
def modifyState (states : List State) (index : Nat) (change : PropertyUses → PropertyUses) :
    List State :=
  states.modify index fun state => { state with properties := change state.properties }

/-- The block with the properties of one object changed. -/
def modifyProperties (block : Block) (key : ObjectKey) (change : PropertyUses → PropertyUses) :
    Block :=
  match key with
  | .root => { block with properties := change block.properties }
  | .ofClass index =>
    { block with
      classes := block.classes.modify index fun entry =>
        { entry with properties := change entry.properties } }
  | .ofState none index => { block with states := modifyState block.states index change }
  | .ofState (some owner) index =>
    { block with
      classes := block.classes.modify owner fun entry =>
        { entry with states := modifyState entry.states index change } }

/-- The block with one more local name for another block. -/
def addReference (block : Block) (name : String) (target : BlockId) : Block :=
  { block with references := Text.setOrdered name target block.references }

/-- The block with one more interface to implement. -/
def addImplemented (block : Block) (target : BlockId) : Block :=
  if block.implemented.contains target then block
  else { block with implemented := block.implemented ++ [target] }

/-- The block with more files it depends on. -/
def addDependencies (block : Block) (paths : List String) : Block :=
  { block with
    dependencies :=
      paths.foldl (fun known path => Text.insertOrdered Text.lessText path known)
        block.dependencies }

end Block

end StyleBlock
