import StyleBlock.Css.Cursor
import StyleBlock.Sheet.Basic
import StyleBlock.Text.Blank

/-!
Reading a sheet, lexeme by lexeme. A reader holds the open bodies and the item it is in: an item
that a brace ends becomes a rule or an at-rule with a body, one that a semicolon or the end of its
body ends becomes a declaration or a statement. The text of an item is kept as written.
-/

namespace StyleBlock

open Css (Bracket Lexeme Token)
open Text (Position)

/-- What can be wrong with a sheet. -/
inductive SheetFault where
  | outsideRule (text : String)
  | malformedDeclaration (text : String)
deriving DecidableEq, Repr

def SheetFault.message : SheetFault → String
  | outsideRule text => "Unexpected `" ++ text ++ "` outside of a rule"
  | malformedDeclaration text => "Malformed declaration `" ++ text ++ "`"

/-- The value without a final `!important`, and whether there was one. -/
def splitImportant (value : List Char) : List Char × Bool :=
  let after := value.reverse.takeWhile (· != '!')
  if after.length < value.length &&
      Text.sameIgnoringCase (String.ofList (Text.trimChars after.reverse)) "important" then
    (Text.dropBlankEnd (value.take (value.length - after.length - 1)), true)
  else (value, false)

/-- Reads a property and its value, which the first colon separates. -/
def Declaration.parse? (text : List Char) (place : Position) : Option Declaration :=
  let property := Text.trimChars (text.takeWhile (· != ':'))
  match text.dropWhile (· != ':') with
  | [] => none
  | _ :: rest =>
    if property.isEmpty then none
    else
      let (value, important) := splitImportant (Text.trimChars rest)
      some ⟨String.ofList property, String.ofList value, important, place⟩

/-- The start of an item: the name after the sign of an at-rule, and the text so far, its pieces
last first. -/
structure OpenItem where
  atName : Option String
  pieces : List (List Char)
  brackets : List Bracket
  place : Position

/-- The text of an item without the blanks around it. -/
def OpenItem.text (item : OpenItem) : List Char :=
  Text.trimChars item.pieces.reverse.flatten

/-- The item with one more lexeme. -/
def OpenItem.add (item : OpenItem) (lexeme : Lexeme) : OpenItem :=
  { item with
    pieces := lexeme.text :: item.pieces
    brackets := Css.bracketsAfter item.brackets lexeme.token }

/-- What an open body belongs to, and the nodes before it, last first. -/
structure OpenBody where
  item : OpenItem
  before : List Node

/-- A sheet that is being read: the open bodies, innermost first, the nodes of the innermost
body, last first, the item that was begun, and the next free rule number. -/
structure SheetReader where
  bodies : List OpenBody
  nodes : List Node
  item : Option OpenItem
  nextRule : RuleId

/-- A fault with the place of the item that has it. -/
structure SheetError where
  fault : SheetFault
  place : Position
deriving DecidableEq

namespace SheetReader

def start : SheetReader := ⟨[], [], none, 0⟩

/-- Adds a node to the innermost body. -/
def add (reader : SheetReader) (node : Node) : SheetReader :=
  { reader with nodes := node :: reader.nodes, item := none }

/-- Opens the body of an item. -/
def openBody (reader : SheetReader) (item : OpenItem) : SheetReader :=
  { reader with bodies := ⟨item, reader.nodes⟩ :: reader.bodies, nodes := [], item := none }

/-- Closes the innermost body; a rule gets its number now. -/
def closeBody (reader : SheetReader) : SheetReader :=
  match reader.bodies with
  | [] => reader
  | body :: outer =>
    let nodes := reader.nodes.reverse
    let params := String.ofList body.item.text
    match body.item.atName with
    | some name =>
      { reader with
        bodies := outer
        nodes := .group ⟨name, params, body.item.place⟩ nodes :: body.before }
    | none =>
      { reader with
        bodies := outer
        nodes := .rule ⟨reader.nextRule, params, body.item.place⟩ nodes :: body.before
        nextRule := reader.nextRule + 1 }

/-- Ends an item that has no body. -/
def endItem (reader : SheetReader) (item : OpenItem) : Except SheetError SheetReader :=
  match item.atName with
  | some name => .ok (reader.add (.statement ⟨name, String.ofList item.text, item.place⟩))
  | none =>
    if reader.bodies.isEmpty then
      .error ⟨.outsideRule (String.ofList item.text), item.place⟩
    else
      match Declaration.parse? item.text item.place with
      | some declaration => .ok (reader.add (.declaration declaration))
      | none => .error ⟨.malformedDeclaration (String.ofList item.text), item.place⟩

/-- Whether a token closes the innermost body. -/
def closes (reader : SheetReader) (token : Token) : Bool :=
  !reader.bodies.isEmpty && token = .closing .curly

/-- Reads a lexeme between items. -/
def beginItem (reader : SheetReader) (lexeme : Lexeme) : SheetReader :=
  let item : OpenItem := ⟨none, [], [], lexeme.start⟩
  match lexeme.token with
  | .blank | .semicolon | .markupOpen | .markupClose => reader
  | .comment text => reader.add (.comment text)
  | .atKeyword name => { reader with item := some { item with atName := some name } }
  | .opening .curly => reader.openBody item
  | token =>
    if reader.closes token then reader.closeBody
    else { reader with item := some (item.add lexeme) }

/-- Reads one lexeme. -/
def step (reader : SheetReader) (lexeme : Lexeme) : Except SheetError SheetReader :=
  match reader.item with
  | none => .ok (reader.beginItem lexeme)
  | some item =>
    if !item.brackets.isEmpty then .ok { reader with item := some (item.add lexeme) }
    else if lexeme.token = .semicolon then reader.endItem item
    else if lexeme.token = .opening .curly then .ok (reader.openBody item)
    else if reader.closes lexeme.token then (reader.endItem item).map closeBody
    else .ok { reader with item := some (item.add lexeme) }

/-- Ends the item and the bodies that the end of the text leaves open. -/
def finish (reader : SheetReader) : Except SheetError SheetReader := do
  let reader ← match reader.item with
    | some item => reader.endItem item
    | none => .ok reader
  return reader.bodies.foldl (fun reader _ => reader.closeBody) reader

end SheetReader

/-- Reads the text of a file into a sheet. -/
def parseSheet (text file : String) : Except SheetError Sheet := do
  let reader ← (Css.Cursor.ofText text).rest.foldlM SheetReader.step .start
  let reader ← reader.finish
  return ⟨file, reader.nodes.reverse, reader.nextRule⟩

end StyleBlock
