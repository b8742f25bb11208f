import StyleBlock.Css.Cursor
import StyleBlock.Selector.Fault
import StyleBlock.Text.Blank

/-!
Reading a selector list, lexeme by lexeme. A reader holds the selectors that are complete, the
one it is in, and what it expects of the next lexeme; blocks in square brackets and arguments of
pseudo-classes are gathered first and read when they close.
-/

namespace StyleBlock

open Css (Bracket Cursor Lexeme Token)
open Text (Position)

namespace AttributeSelector

/-- Reads one token that is no comment, which must be an identifier. -/
def readIdent (cursor : Cursor) : Except SelectorError (String × Cursor) :=
  match cursor.nextVisible with
  | (some (.ident name), rest) => .ok (name, rest)
  | (_, rest) => .error ⟨.expectedIdentifier, rest.place⟩

/-- Reads a name with an optional namespace in front of it. -/
def readName (cursor : Cursor) : Except SelectorError ((Option String × String) × Cursor) :=
  match cursor.skipSpacing.nextVisible with
  | (some (.ident first), rest) =>
    match rest.nextVisible with
    | (some (.delim '|'), rest) => do
      let (name, rest) ← readIdent rest
      return ((some first, name), rest)
    | _ => .ok ((none, first), rest)
  | (some (.delim '*'), rest) =>
    match rest.nextVisible with
    | (some (.delim '|'), rest) => do
      let (name, rest) ← readIdent rest
      return ((some "*", name), rest)
    | (_, rest) => .error ⟨.expectedBar, rest.place⟩
  | (some (.delim '|'), rest) => do
    let (name, rest) ← readIdent rest
    return ((some "", name), rest)
  | (some _, rest) => .error ⟨.expectedAttributeName, rest.place⟩
  | (none, rest) => .error ⟨.unexpectedEnd, rest.place⟩

/-- The operator that a token stands for. -/
def operator? : Token → Option AttributeOperator
  | .delim '=' => some .equals
  | .includeMatch => some .includes
  | .dashMatch => some .dashMatch
  | .prefixMatch => some .startsWith
  | .suffixMatch => some .endsWith
  | .substringMatch => some .contains
  | _ => none

/-- Reads the next token that is neither blank nor comment. -/
def readSolid (cursor : Cursor) : Except SelectorError (Token × Cursor) :=
  match cursor.nextSolid with
  | (some token, rest) => .ok (token, rest)
  | (none, rest) => .error ⟨.unexpectedEnd, rest.place⟩

/-- Reads an operator, a value and a flag up to the end of the brackets. -/
def readTest (cursor : Cursor) : Except SelectorError (Option AttributeTest × Cursor) := do
  if cursor.isExhausted then
    return (none, cursor)
  let (token, cursor) ← readSolid cursor
  let some operator := operator? token | throw ⟨.expectedOperator, cursor.place⟩
  let (token, cursor) ← readSolid cursor
  let value ← match token with
    | .ident value => pure value
    | .quoted value => pure value
    | _ => throw ⟨.expectedValue, cursor.place⟩
  if cursor.isExhausted then
    return (some ⟨operator, value, none⟩, cursor)
  let (token, cursor) ← readSolid cursor
  match token with
  | .ident flag => return (some ⟨operator, value, some flag⟩, cursor)
  | _ => throw ⟨.afterAttributeValue, cursor.place⟩

/-- Reads what stands between square brackets. -/
def read (inside : Cursor) : Except SelectorError AttributeSelector := do
  let ((scope, name), cursor) ← readName inside
  let (test, cursor) ← readTest cursor
  match cursor.nextSolid with
  | (some token, _) => throw ⟨.unexpected token, cursor.place⟩
  | (none, _) => return ⟨scope, name, test⟩

end AttributeSelector

/-- What the next lexeme belongs to. The lexemes of a block are gathered last first, with the
brackets open inside it. -/
inductive SelectorPart where
  | node
  | className
  | pseudo
  | pseudoElement
  | brackets (inside : List Lexeme) (opened : List Bracket)
  | argument (name : String) (inside : List Lexeme) (opened : List Bracket)

/-- A selector list that is being read. -/
structure SelectorReader where
  /-- The complete selectors, last first. -/
  complete : List Selector
  /-- What stands before the current compound, with the combinator between them. -/
  context : Option (Selector × Combinator)
  compound : Compound
  /-- Whether a blank was read since the last node or combinator. -/
  spaced : Bool
  part : SelectorPart

namespace SelectorReader

def start : SelectorReader :=
  ⟨[], none, .empty, false, .node⟩

/-- The chain up to and with the current compound. -/
def chain (reader : SelectorReader) : Selector :=
  match reader.context with
  | some (context, combinator) => context.push combinator reader.compound
  | none => .ofCompound reader.compound

/-- Ends the current compound with a combinator. -/
def joined (reader : SelectorReader) (combinator : Combinator) : SelectorReader :=
  { reader with
    context := some (reader.chain, combinator)
    compound := .empty
    spaced := false }

/-- A blank between two compounds is the descendant combinator. -/
def takeSpace (reader : SelectorReader) : SelectorReader :=
  if reader.spaced && !reader.compound.isEmpty then reader.joined .descendant
  else { reader with spaced := false }

/-- Adds a node to the current compound. -/
def addNode (reader : SelectorReader) (place : Position) (node : SimpleSelector) :
    Except SelectorError SelectorReader :=
  let reader := reader.takeSpace
  if reader.compound.pseudoElement.isSome then .error ⟨.afterPseudoElement, place⟩
  else
    .ok { reader with
      compound := { reader.compound with nodes := reader.compound.nodes ++ [node] }
      part := .node }

/-- Ends the current compound with a pseudo-element. -/
def addPseudoElement (reader : SelectorReader) (place : Position) (pseudo : PseudoElement) :
    Except SelectorError SelectorReader :=
  let reader := reader.takeSpace
  if reader.compound.pseudoElement.isSome then .error ⟨.secondPseudoElement, place⟩
  else
    .ok { reader with
      compound := { reader.compound with pseudoElement := some pseudo }
      part := .node }

def addCombinator (reader : SelectorReader) (place : Position) (combinator : Combinator) :
    Except SelectorError SelectorReader :=
  if reader.compound.isEmpty then .error ⟨.strayCombinator combinator, place⟩
  else .ok (reader.joined combinator)

/-- Ends the current selector. -/
def endSelector (reader : SelectorReader) (place : Position) :
    Except SelectorError SelectorReader :=
  if reader.compound.isEmpty then .error ⟨.expectedSelector, place⟩
  else .ok { start with complete := reader.chain :: reader.complete }

/-- Adds the attribute between square brackets that end at `close`. -/
def addAttribute (reader : SelectorReader) (inside : List Lexeme) (close place : Position) :
    Except SelectorError SelectorReader := do
  reader.addNode place (.attr (← AttributeSelector.read ⟨inside.reverse, close⟩))

/-- Adds a pseudo-class with its argument. -/
def addFunction (reader : SelectorReader) (name : String) (inside : List Lexeme)
    (place : Position) : Except SelectorError SelectorReader :=
  let argument := String.ofList (Text.trimChars (Css.textOf inside.reverse))
  reader.addNode place (.pseudoClass name (some argument))

/-- A token where a node, a combinator or a comma may stand. -/
def readNode (reader : SelectorReader) (token : Token) (place : Position) :
    Except SelectorError SelectorReader :=
  match token with
  | .comment _ => .ok reader
  | .blank => .ok { reader with spaced := true }
  | .comma => reader.endSelector place
  | .delim '>' => reader.addCombinator place .child
  | .delim '+' => reader.addCombinator place .nextSibling
  | .delim '~' => reader.addCombinator place .subsequentSibling
  | .delim '.' => .ok { reader with part := .className }
  | .delim '*' => reader.addNode place .universal
  | .ident name => reader.addNode place (.type name)
  | .idHash name => reader.addNode place (.id name)
  | .hash name => reader.addNode place (.id name)
  | .opening .square => .ok { reader with part := .brackets [] [] }
  | .colon => .ok { reader with part := .pseudo }
  | token => .error ⟨.unexpected token, place⟩

/-- A token after a single colon. -/
def readPseudo (reader : SelectorReader) (token : Token) (place : Position) :
    Except SelectorError SelectorReader :=
  match token with
  | .comment _ => .ok reader
  | .colon => .ok { reader with part := .pseudoElement }
  | .ident name =>
    let name := Text.lower name
    if legacyPseudoElements.contains name then reader.addPseudoElement place ⟨name, true⟩
    else reader.addNode place (.pseudoClass name none)
  | .function name => .ok { reader with part := .argument (Text.lower name) [] [] }
  | _ => .error ⟨.expectedPseudo, place⟩

/-- Reads one lexeme. -/
def step (reader : SelectorReader) (lexeme : Lexeme) : Except SelectorError SelectorReader :=
  let place := lexeme.ending
  match reader.part with
  | .node => reader.readNode lexeme.token place
  | .pseudo => reader.readPseudo lexeme.token place
  | .className =>
    match lexeme.token with
    | .comment _ => .ok reader
    | .ident name => reader.addNode place (.className name)
    | _ => .error ⟨.expectedIdentifier, place⟩
  | .pseudoElement =>
    match lexeme.token with
    | .comment _ => .ok reader
    | .ident name => reader.addPseudoElement place ⟨Text.lower name, false⟩
    | _ => .error ⟨.expectedIdentifier, place⟩
  | .brackets inside opened =>
    if opened.isEmpty && lexeme.token = .closing .square then
      reader.addAttribute inside lexeme.start place
    else
      .ok { reader with
        part := .brackets (lexeme :: inside) (Css.bracketsAfter opened lexeme.token) }
  | .argument name inside opened =>
    if opened.isEmpty && lexeme.token = .closing .round then
      reader.addFunction name inside place
    else
      .ok { reader with
        part := .argument name (lexeme :: inside) (Css.bracketsAfter opened lexeme.token) }

/-- Closes what the end of the text leaves open. -/
def closePart (reader : SelectorReader) (place : Position) :
    Except SelectorError SelectorReader :=
  match reader.part with
  | .node => .ok reader
  | .className => .error ⟨.expectedIdentifier, place⟩
  | .pseudo => .error ⟨.expectedPseudo, place⟩
  | .pseudoElement => .error ⟨.expectedIdentifier, place⟩
  | .brackets inside _ => reader.addAttribute inside place place
  | .argument name inside _ => reader.addFunction name inside place

/-- The selectors read, when the text ends at `place`. -/
def finish (reader : SelectorReader) (place : Position) : Except SelectorError (List Selector) := do
  let reader ← reader.closePart place
  let reader ← reader.endSelector place
  return reader.complete.reverse

end SelectorReader

/-- Reads a selector list, with commas between the selectors. -/
def parseSelectors (text : String) : Except SelectorError (List Selector) := do
  let cursor := Css.Cursor.ofText text
  let reader ← cursor.rest.foldlM SelectorReader.step .start
  reader.finish cursor.ending

end StyleBlock
