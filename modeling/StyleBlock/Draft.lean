import StyleBlock.Legality
import StyleBlock.Reference.Block
import StyleBlock.Sheet.Parser

/-!
Turning a sheet into a block. The part that needs no other block comes first and makes a draft;
once the blocks that the sheet refers to are known, the draft is completed.
-/

namespace StyleBlock

open Text (Location)

/-- The declarations that configure a block, which only rules with a bare `.root` may hold. -/
def isBookkeeping (property : String) : Bool :=
  ["extends", "implements", "block-name"].contains property

/-- A block whose references are not known yet. -/
structure Draft where
  block : Block
  /-- The top-level rules whose selectors include a bare `.root`. -/
  rootRules : List RuleId

/-- A statement that refers to a block, and where it stands. -/
structure ReferenceStatement where
  params : String
  location : Location
deriving DecidableEq

/-- A reference that was read, and the file it leads to. -/
structure Link where
  reference : BlockReference
  target : FileId
  location : Location
deriving DecidableEq

namespace Sheet

/-- The place of a fault in a selector list, counted from the place of its rule. -/
def selectorLocation (sheet : Sheet) (rule : Rule) (place : Text.Position) : Location :=
  let start := sheet.location rule.head.place
  if place.line ≤ 1 then
    { start with
      column := start.column + (place.column - 1)
      offset := start.offset + (place.column - 1) }
  else { start with line := start.line + (place.line - 1), column := place.column }

/-- The parsed selectors of every style rule. -/
def parseRules (sheet : Sheet) : Except Error (List (RuleId × List Selector)) :=
  sheet.styleRules.mapM fun rule =>
    match parseSelectors rule.head.selector with
    | .ok selectors => .ok (rule.head.id, selectors)
    | .error error =>
      .error (.invalidAt (.selector error.fault rule.head.selector)
        (sheet.selectorLocation rule error.place))

/-- The statements that refer to other blocks. -/
def references (sheet : Sheet) : List ReferenceStatement :=
  sheet.nodes.filterMap fun node =>
    match node with
    | .statement head | .group head _ =>
      if head.name = "block-reference" then some ⟨head.params, sheet.location head.place⟩ else none
    | _ => none

end Sheet

/-- Reads a statement that refers to a block. -/
def ReferenceStatement.parse (statement : ReferenceStatement) : Except Error BlockReference :=
  match BlockReference.parse? statement.params with
  | some reference => .ok reference
  | none =>
    .error (.invalidAt (.header (.malformedReference statement.params)) statement.location)

/-- Whether a name is an identifier in ASCII: letters, digits, hyphens and underscores, with a
letter or an underscore first or after one hyphen. -/
def isValidName (name : String) : Bool :=
  match name.toList with
  | '-' :: c :: rest => starts c && rest.all continues
  | c :: rest => starts c && rest.all continues
  | [] => false
where
  starts (c : Char) : Bool := c.isAlpha || c = '_'
  continues (c : Char) : Bool := c.isAlphanum || c = '-' || c = '_'

namespace Draft

/-- The declarations of a property in the root rules. -/
def rootDeclarationsIn (sheet : Sheet) (rootRules : List RuleId) (property : String) :
    List Declaration :=
  (sheet.topRules.filter fun rule => rootRules.contains rule.head.id).flatMap fun rule =>
    rule.declarations.filter fun declaration => declaration.property = property

/-- The name that the last declaration of it gives, or the default one. -/
def blockName (sheet : Sheet) (rootRules : List RuleId) (defaultName : String) :
    Except Error String :=
  match (rootDeclarationsIn sheet rootRules "block-name").getLast? with
  | none => .ok defaultName
  | some declaration =>
    let name := Text.trim declaration.value
    if isValidName name then .ok name
    else
      .error (.invalidAt (.header (.illegalName name)) (sheet.location declaration.place))

/-- Reads what a sheet says without regard to other blocks. -/
def ofSheet (sheet : Sheet) (identifier : FileId) (debugIdentifier defaultName : String) :
    Except Error Draft := do
  let selectors ← sheet.parseRules
  let block : Block := { Block.bare "" identifier debugIdentifier with sheet, selectors }
  let rootRules := (sheet.topRules.filter fun rule =>
    isRootRule (block.selectorsOf rule.head.id)).map fun rule => rule.head.id
  let name ← blockName sheet rootRules defaultName
  return ⟨{ block with name }, rootRules⟩

/-- Gives a reference its local name: its own, that of the block, or the default name of a block
that is still being read. -/
def addLink (graph : Graph) (defaultName : FileId → String) (draft : Draft)
    (link : Link × BlockId) : Except Error Draft :=
  let (link, id) := link
  let name := link.reference.localName.getD
    (((graph.block? id).map Block.name).getD (defaultName link.target))
  if (draft.block.reference? name).isSome then
    .error (.invalidAt (.header (.twoReferences name)) link.location)
  else .ok { draft with block := draft.block.addReference name id }

def rootDeclarations (draft : Draft) (property : String) : List Declaration :=
  rootDeclarationsIn draft.block.sheet draft.rootRules property

/-- The block of a local name, which must be complete. -/
def completeReference (graph : Graph) (block : Block) (reliance : Reliance) (name : String)
    (location : Location) : Except Error BlockId :=
  match block.reference? name with
  | none => .error (.misuseAt (.header (.noReference name)) location)
  | some id =>
    if graph.isComplete id then .ok id
    else .error (.misuseAt (.header (.unfinished reliance name)) location)

/-- Reads one declaration of the extended block; there is one at most. -/
def addExtension (graph : Graph) (block : Block) (declaration : Declaration) :
    Except Error Block := do
  let location := block.sheet.location declaration.place
  if block.extension.isSome then
    throw (.invalidAt (.header .extendedTwice) location)
  let name := Text.trim declaration.value
  let base ← completeReference graph block .extends name location
  return { block with extension := some ⟨base, name⟩ }

/-- Reads one declaration of implemented blocks, with commas between their names. -/
def addInterfaces (graph : Graph) (block : Block) (declaration : Declaration) :
    Except Error Block :=
  let names := ((Text.split ',' declaration.value).map Text.trim).filter fun name => !name.isEmpty
  names.foldlM (fun block name => do
    let id ← completeReference graph block .implements name
      (block.sheet.location declaration.place)
    return block.addImplemented id) block

/-- Declarations that configure the block stand in root rules only. -/
def checkBookkeeping (draft : Draft) (rule : Rule) : Except Error Unit :=
  if draft.rootRules.contains rule.head.id then .ok ()
  else
    match rule.declarations.find? fun declaration => isBookkeeping declaration.property with
    | none => .ok ()
    | some declaration =>
      .error (.invalidAt (.header (.outsideRoot declaration.property rule.head.selector))
        (draft.block.sheet.location declaration.place))

/-- Records the declarations of a rule for the object of one of its selectors. -/
def addSelector (graph : Graph) (rule : Rule) (block : Block) (selector : Selector) :
    Except Error Block :=
  match Legality.classify graph block selector with
  | .error fault => .error (fault.error (block.sheet.location rule.head.place))
  | .ok (block, none) => .ok block
  | .ok (block, some key) =>
    let properties := (rule.declarations.filter fun declaration =>
      !isBookkeeping declaration.property).map Declaration.property
    .ok (block.modifyProperties key fun uses =>
      properties.foldl (fun uses property => uses.add property selector.pseudoName?) uses)

/-- Records a style rule. -/
def addRule (graph : Graph) (draft : Draft) (rule : Rule) : Except Error Draft := do
  draft.checkBookkeeping rule
  let block ← (draft.block.selectorsOf rule.head.id).foldlM (addSelector graph rule) draft.block
  return { draft with block }

/-- Completes a draft when the slots of the blocks it refers to are known. -/
def complete (draft : Draft) (graph : Graph) (defaultName : FileId → String)
    (links : List (Link × BlockId)) : Except Error Block := do
  let draft ← links.foldlM (addLink graph defaultName) draft
  let block ← (draft.rootDeclarations "extends").foldlM (addExtension graph) draft.block
  let block ← (draft.rootDeclarations "implements").foldlM (addInterfaces graph) block
  let draft ← block.sheet.styleRules.foldlM (addRule graph) { draft with block }
  return draft.block

end Draft

end StyleBlock
