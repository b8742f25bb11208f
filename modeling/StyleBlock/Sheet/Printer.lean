import StyleBlock.Sheet.Basic

/-!
Sheets as text: two spaces for each level, one node a line, and an empty line between the nodes
of the top level.
-/

namespace StyleBlock

/-- The blanks in front of a line. -/
def indentation (depth : Nat) : List Char :=
  List.replicate (2 * depth) ' '

/-- An at-rule up to its body. -/
def AtHead.write (head : AtHead) : List Char :=
  '@' :: head.name.toList ++
    if head.params.isEmpty then [] else ' ' :: head.params.toList

def Declaration.write (declaration : Declaration) : List Char :=
  declaration.property.toList ++ [':', ' '] ++ declaration.value.toList ++
    if declaration.important then " !important".toList else []

mutual

/-- The lines of a node. -/
def Node.write (depth : Nat) : Node → List Char
  | .rule head nodes =>
    indentation depth ++ head.selector.toList ++ [' ', '\x7b', '\n'] ++
      writeNodes (depth + 1) nodes ++ indentation depth ++ ['\x7d', '\n']
  | .statement head => indentation depth ++ head.write ++ [';', '\n']
  | .group head nodes =>
    indentation depth ++ head.write ++ [' ', '\x7b', '\n'] ++
      writeNodes (depth + 1) nodes ++ indentation depth ++ ['\x7d', '\n']
  | .declaration declaration => indentation depth ++ declaration.write ++ [';', '\n']
  | .comment text => indentation depth ++ ['/', '*'] ++ text.toList ++ ['*', '/', '\n']

/-- The lines of nodes, one after the other. -/
def writeNodes (depth : Nat) : List Node → List Char
  | [] => []
  | node :: rest => node.write depth ++ writeNodes depth rest

end

/-- Nodes of the top level, with an empty line between them. -/
def writeTopNodes : List Node → List Char
  | [] => []
  | [node] => node.write 0
  | node :: rest => node.write 0 ++ ['\n'] ++ writeTopNodes rest

/-- The text of a sheet. -/
def Sheet.text (sheet : Sheet) : String :=
  String.ofList (writeTopNodes sheet.nodes)

end StyleBlock
