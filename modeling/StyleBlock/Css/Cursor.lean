import StyleBlock.Css.Lexer

/-!
Walking over the lexemes of a text. A block is skipped or taken as a whole: it reaches from its
opening token to the closing token of the same kind, and blocks inside it hide what they hold.
-/

namespace StyleBlock.Css

open Text (Position)

/-- The place right after a lexeme. -/
def Lexeme.ending (lexeme : Lexeme) : Position :=
  lexeme.start.after lexeme.text

/-- The text that a run of lexemes was read from. -/
def textOf (lexemes : List Lexeme) : List Char :=
  lexemes.flatMap Lexeme.text

/-- The brackets open after a token, innermost first. A closing token that does not fit the
innermost bracket closes nothing. -/
def bracketsAfter (brackets : List Bracket) (token : Token) : List Bracket :=
  match token.opens? with
  | some bracket => bracket :: brackets
  | none =>
    match token.closes? with
    | some bracket => if brackets.head? = some bracket then brackets.tail else brackets
    | none => brackets

/-- The lexemes that are left of a text, and the place where it ends. -/
structure Cursor where
  rest : List Lexeme
  ending : Position
deriving DecidableEq

namespace Cursor

/-- All lexemes of a text. -/
def ofText (text : String) : Cursor :=
  let (lexemes, ending) := lexemesFrom .start text.toList
  ⟨lexemes, ending⟩

/-- The place where the next lexeme starts. -/
def place (cursor : Cursor) : Position :=
  (cursor.rest.head?.map Lexeme.start).getD cursor.ending

def isSpacing : Token → Bool
  | .blank => true
  | .comment _ => true
  | _ => false

def isComment : Token → Bool
  | .comment _ => true
  | _ => false

/-- Past blanks and comments. -/
def skipSpacing (cursor : Cursor) : Cursor :=
  { cursor with rest := cursor.rest.dropWhile fun lexeme => isSpacing lexeme.token }

/-- Past comments. -/
def skipComments (cursor : Cursor) : Cursor :=
  { cursor with rest := cursor.rest.dropWhile fun lexeme => isComment lexeme.token }

/-- The next token of any kind. -/
def next (cursor : Cursor) : Option Token × Cursor :=
  match cursor.rest with
  | [] => (none, cursor)
  | lexeme :: rest => (some lexeme.token, { cursor with rest })

/-- The next token that is neither blank nor comment. -/
def nextSolid (cursor : Cursor) : Option Token × Cursor :=
  cursor.skipSpacing.next

/-- The next token that is no comment. -/
def nextVisible (cursor : Cursor) : Option Token × Cursor :=
  cursor.skipComments.next

/-- Whether only blanks and comments are left. -/
def isExhausted (cursor : Cursor) : Bool :=
  cursor.skipSpacing.rest.isEmpty

/-- The lexemes of a block whose opening token was just passed, and those after its closing
token. `brackets` are the blocks open inside it. -/
def splitBlock (bracket : Bracket) (brackets : List Bracket) :
    List Lexeme → List Lexeme × List Lexeme
  | [] => ([], [])
  | lexeme :: rest =>
    if brackets.isEmpty && lexeme.token = .closing bracket then ([], lexeme :: rest)
    else
      let (inside, after) := splitBlock bracket (bracketsAfter brackets lexeme.token) rest
      (lexeme :: inside, after)

/-- The inside of a block whose opening token was just passed, and what follows the block. -/
def block (cursor : Cursor) (bracket : Bracket) : Cursor × Cursor :=
  let (inside, after) := splitBlock bracket [] cursor.rest
  let rest : Cursor := { cursor with rest := after }
  (⟨inside, rest.place⟩, { cursor with rest := after.tail })

end Cursor

end StyleBlock.Css
