import StyleBlock.Text.Position

/-!
Style sheets as trees. Rules carry a number that identifies them within their sheet, so what is
known about a rule survives changes to its text and to its neighbours.
-/

namespace StyleBlock

open Text (Position)

/-- The number of a rule, unique within its sheet. -/
abbrev RuleId : Type := Nat

/-- A rule without its body. -/
structure RuleHead where
  id : RuleId
  selector : String
  place : Position
deriving DecidableEq

/-- An at-rule without its body. -/
structure AtHead where
  name : String
  params : String
  place : Position
deriving DecidableEq

structure Declaration where
  property : String
  value : String
  important : Bool
  place : Position
deriving DecidableEq

/-- A node of a sheet. An at-rule is a statement or has a body; a comment is held without its
delimiters. -/
inductive Node where
  | rule (head : RuleHead) (nodes : List Node)
  | statement (head : AtHead)
  | group (head : AtHead) (nodes : List Node)
  | declaration (declaration : Declaration)
  | comment (text : String)

/-- A rule with its body. -/
structure Rule where
  head : RuleHead
  nodes : List Node

/-- A style sheet; `nextRule` is above the number of every rule in it. -/
structure Sheet where
  file : String
  nodes : List Node
  nextRule : RuleId

/-- The declarations that stand directly in a body. -/
def declarationsIn (nodes : List Node) : List Declaration :=
  nodes.filterMap fun node =>
    match node with
    | .declaration declaration => some declaration
    | _ => none

namespace Node

/-- The place of a node; comments have none. -/
def place : Node → Position
  | rule head _ => head.place
  | statement head => head.place
  | group head _ => head.place
  | declaration content => content.place
  | comment _ => ⟨0, 0, 0⟩

/-- The rule that a node is. -/
def rule? : Node → Option Rule
  | rule head nodes => some ⟨head, nodes⟩
  | _ => none

end Node

namespace Rule

def declarations (rule : Rule) : List Declaration :=
  declarationsIn rule.nodes

def toNode (rule : Rule) : Node :=
  .rule rule.head rule.nodes

end Rule

mutual

/-- A rule with the rules inside it, or the rules inside an at-rule. -/
def Node.rules : Node → List Rule
  | .rule head nodes => ⟨head, nodes⟩ :: rulesIn nodes
  | .group _ nodes => rulesIn nodes
  | _ => []

/-- All rules at any depth, each before the rules inside it. -/
def rulesIn : List Node → List Rule
  | [] => []
  | node :: rest => node.rules ++ rulesIn rest

end

/-- Whether an at-rule holds steps of an animation, whose rules select no elements. -/
def AtHead.holdsKeyframes (head : AtHead) : Bool :=
  "keyframes".toList.isSuffixOf head.name.toList

mutual

/-- The rules of a node that select elements. -/
def Node.styleRules : Node → List Rule
  | .rule head nodes => ⟨head, nodes⟩ :: styleRulesIn nodes
  | .group head nodes => if head.holdsKeyframes then [] else styleRulesIn nodes
  | _ => []

/-- The rules that select elements: all but the steps of animations. -/
def styleRulesIn : List Node → List Rule
  | [] => []
  | node :: rest => node.styleRules ++ styleRulesIn rest

end

namespace Sheet

def empty (file : String) : Sheet := ⟨file, [], 0⟩

def rules (sheet : Sheet) : List Rule := rulesIn sheet.nodes

def styleRules (sheet : Sheet) : List Rule := styleRulesIn sheet.nodes

/-- The rules that stand at the top level. -/
def topRules (sheet : Sheet) : List Rule := sheet.nodes.filterMap Node.rule?

/-- A place in the sheet's file. -/
def location (sheet : Sheet) (place : Position) : Text.Location := place.inFile sheet.file

end Sheet

end StyleBlock
