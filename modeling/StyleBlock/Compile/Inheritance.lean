import StyleBlock.Graph.Object
import StyleBlock.Reference.Resolution

/-!
Marking inherited conflicts. A rule that sets a property which the base of its object sets too
gets a declaration in front that resolves the conflict in favour of the rule.
-/

namespace StyleBlock

/-- The own object of a block that a compound names. -/
def Graph.ownObject? (graph : Graph) (id : BlockId) (compound : Compound) : Option BlockObject :=
  (graph.root? id).bind fun root => root.own.find? fun object => object.isNamedBy compound

namespace Inheritance

/-- The annotations of a rule so far, and what they are for. -/
structure Annotations where
  seen : List PropertyUse
  added : List Declaration

/-- Adds an annotation for a declaration of a rule, unless there is one. -/
def annotate (pseudo : Option String) (value : String) (rule : Rule) (annotations : Annotations)
    (declaration : Declaration) : Annotations :=
  let use : PropertyUse := ⟨pseudo, declaration.property⟩
  if annotations.seen.contains use then annotations
  else
    let annotations := { annotations with seen := use :: annotations.seen }
    if annotations.added.any fun other =>
        other.property = declaration.property && other.value = value then annotations
    else
      { annotations with
        added := annotations.added ++ [⟨declaration.property, value, false, rule.head.place⟩] }

/-- Adds the annotations for the object of one selector. -/
def annotateSelector (graph : Graph) (id : BlockId) (baseName : String) (rule : Rule)
    (annotations : Annotations) (selector : Selector) : Annotations :=
  match graph.ownObject? id selector.key with
  | none => annotations
  | some object =>
    match graph.baseOf? object with
    | none => annotations
    | some base =>
      let pseudo := selector.pseudoName?
      let conflicts := object.properties.conflicts base.properties pseudo
      let value := "resolve-inherited(\"" ++ baseName ++ base.source ++ "\")"
      let explicit := (rule.declarations.filter Declaration.isResolution).map Declaration.property
      let relevant := rule.declarations.filter fun declaration =>
        conflicts.contains declaration.property && !explicit.contains declaration.property
      relevant.foldl (annotate pseudo value rule) annotations

/-- The declarations that go in front of a rule. -/
def annotationsOf (graph : Graph) (id : BlockId) (block : Block) (rule : Rule) :
    List Declaration :=
  match block.extension with
  | none => []
  | some extension =>
    ((block.selectorsOf rule.head.id).foldl
      (annotateSelector graph id extension.localName rule) ⟨[], []⟩).added

end Inheritance

mutual

/-- A node with declarations added in front of every rule in it. -/
def Node.prepend (added : Rule → List Declaration) : Node → Node
  | .rule head nodes =>
    .rule head ((added ⟨head, nodes⟩).map Node.declaration ++ prependIn added nodes)
  | .group head nodes => .group head (prependIn added nodes)
  | node => node

/-- Nodes with declarations added in front of every rule in them. -/
def prependIn (added : Rule → List Declaration) : List Node → List Node
  | [] => []
  | node :: rest => node.prepend added :: prependIn added rest

end

/-- Nodes of a block's sheet with every inherited conflict marked. -/
def annotateInheritance (graph : Graph) (id : BlockId) (block : Block) (nodes : List Node) :
    List Node :=
  prependIn (Inheritance.annotationsOf graph id block) nodes

end StyleBlock
