import StyleBlock.Css.Lexer

/-!
Writing identifiers and strings so that they read back as they were. Control characters become
hexadecimal escapes that a space ends, other special characters get a backslash.
-/

namespace StyleBlock.Css

/-- The hexadecimal escape of an ASCII character, ended by a space. -/
def hexEscape (c : Char) : List Char :=
  '\\' :: (Text.hexDigits c.toNat ++ [' '])

/-- Control characters, which only a hexadecimal escape can write. -/
def isControl (c : Char) : Bool :=
  c.toNat < 0x20 || c.toNat = 0x7f

/-- A character inside a name. -/
def writeNameChar (c : Char) : List Char :=
  if c = '\x00' then [replacement]
  else if isNamePart c then [c]
  else if isControl c then hexEscape c
  else ['\\', c]

/-- The part of a name that no special rule covers. -/
def writeName (name : List Char) : List Char :=
  name.flatMap writeNameChar

/-- The start of an identifier after its optional hyphen: a digit needs an escape here. -/
def writeNameStart : List Char → List Char
  | [] => []
  | c :: rest => if isDigit c then hexEscape c ++ writeName rest else writeName (c :: rest)

/-- An identifier: a lone hyphen is escaped, and so is a digit in front or after one hyphen. -/
def writeIdent : List Char → List Char
  | '-' :: '-' :: rest => '-' :: '-' :: writeName rest
  | ['-'] => ['\\', '-']
  | '-' :: rest => '-' :: writeNameStart rest
  | name => writeNameStart name

/-- A character inside a quoted string. -/
def writeStringChar (c : Char) : List Char :=
  if c = '\x22' || c = '\\' then ['\\', c]
  else if c = '\x00' then [replacement]
  else if isControl c then hexEscape c
  else [c]

/-- A string between double quotes. -/
def writeString (text : List Char) : List Char :=
  '\x22' :: (text.flatMap writeStringChar ++ ['\x22'])

end StyleBlock.Css
