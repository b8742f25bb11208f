import StyleBlock.Compile.Conflict
import StyleBlock.Compile.Debug
import StyleBlock.Compile.Inheritance
import StyleBlock.Draft

/-!
Compiling a block: answering debug statements, dropping what only configures the block, marking
inherited conflicts, putting classes in place of objects, settling conflicts, and exporting the
generated names.
-/

namespace StyleBlock

/-- The sheet of a compiled block, or what kept it from being compiled, and what was written to
the output channels on the way. -/
structure Compilation where
  output : DebugOutput
  result : Except Error Sheet

namespace Compile

/-- Whether a node refers to another block. -/
def isReference : Node → Bool
  | .statement head | .group head _ => head.name = "block-reference"
  | _ => false

def isBookkeepingNode : Node → Bool
  | .declaration declaration => isBookkeeping declaration.property
  | _ => false

/-- A top-level node without the declarations that configure the block; a root rule that is empty
then is left out. -/
def stripRoot (block : Block) (node : Node) : Option Node :=
  match node with
  | .rule head nodes =>
    if isRootRule (block.selectorsOf head.id) then
      let kept := nodes.filter fun child => !isBookkeepingNode child
      if kept.isEmpty then none else some (.rule head kept)
    else some node
  | _ => some node

/-- The names of an object in the output: its own class and those of the objects it overrides. -/
def exportOf (graph : Graph) (mode : OutputMode) (place : Text.Position) (object : BlockObject) :
    Declaration :=
  let classes := (graph.stylesOf object).map fun style => style.cssClass mode
  ⟨object.localName, " ".intercalate classes, false, place⟩

/-- The sheet with a rule at its end that exports the generated names. -/
def addExport (graph : Graph) (mode : OutputMode) (id : BlockId) (sheet : Sheet) : Sheet :=
  let place := (sheet.nodes.getLast?.map Node.place).getD ⟨0, 0, 0⟩
  let objects := ((graph.root? id).map graph.allOf).getD []
  let nodes := objects.map fun object => Node.declaration (exportOf graph mode place object)
  { sheet with
    nodes := sheet.nodes ++ [.rule ⟨sheet.nextRule, ":export", place⟩ nodes]
    nextRule := sheet.nextRule + 1 }

/-- Compiles the nodes that debug statements left. -/
def finish (graph : Graph) (options : Options) (id : BlockId) (block : Block)
    (nodes : List Node) : Except Error Sheet := do
  let kept := (nodes.filter fun node => !isReference node).filterMap (stripRoot block)
  let annotated := annotateInheritance graph id block kept
  let selectors := classSelectors graph id options.outputMode block
  let named := nodesWithSelectors selectors annotated
  let context : Conflict.Context := ⟨graph, id, options.outputMode, selectors⟩
  let (settled, nextRule) ←
    Conflict.settleNodes context block.sheet.file block.sheet.nextRule named
  let sheet : Sheet := ⟨block.sheet.file, settled, nextRule⟩
  return if options.exportNames then addExport graph options.outputMode id sheet else sheet

end Compile

/-- Compiles a block of a graph. -/
def compile (graph : Graph) (options : Options) (id : BlockId) : Compilation :=
  match graph.block? id with
  | none => ⟨.empty, .error (.misuse (.compile (.unloaded id.slot)) none)⟩
  | some block =>
    let (output, nodes) := runDebug graph options.outputMode id block .empty block.sheet.nodes
    ⟨output, nodes.bind (Compile.finish graph options id block)⟩

end StyleBlock
