/-!
Places in a text. Lines end at a line feed, a carriage return, both together or a form feed;
columns count UTF-16 units, and offsets count UTF-8 bytes.
-/

namespace StyleBlock.Text

/-- A place in a text: line and column start at 1, the offset at 0. -/
structure Position where
  line : Nat
  column : Nat
  offset : Nat
deriving DecidableEq, Inhabited

/-- A place in a named file. -/
structure Location where
  file : String
  line : Nat
  column : Nat
  offset : Nat
deriving DecidableEq, Inhabited

/-- The characters that end a line. -/
def isLineEnd (c : Char) : Bool :=
  c = '\n' || c = '\r' || c = '\x0c'

/-- How many UTF-16 units a character takes. -/
def units (c : Char) : Nat :=
  if c.toNat < 0x10000 then 1 else 2

namespace Position

/-- The start of a text. -/
def start : Position := ⟨1, 1, 0⟩

/-- The place after one character that stands alone. -/
def step (place : Position) (c : Char) : Position :=
  if isLineEnd c then ⟨place.line + 1, 1, place.offset + c.utf8Size⟩
  else ⟨place.line, place.column + units c, place.offset + c.utf8Size⟩

/-- The place after a run of characters; a carriage return and a line feed end one line. -/
def after (place : Position) : List Char → Position
  | '\r' :: '\n' :: rest => after ⟨place.line + 1, 1, place.offset + 2⟩ rest
  | c :: rest => after (place.step c) rest
  | [] => place

/-- The place in a named file. -/
def inFile (place : Position) (file : String) : Location :=
  ⟨file, place.line, place.column, place.offset⟩

end Position

/-- A location is shown as file, line and column. -/
def Location.shown (location : Location) : String :=
  s!"{location.file}:{location.line}:{location.column}"

end StyleBlock.Text
