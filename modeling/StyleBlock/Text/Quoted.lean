import StyleBlock.Text.Visible

/-!
Texts and characters between quotes, as messages show them. What cannot be seen is written as a
code point in braces.
-/

namespace StyleBlock.Text

/-- A code point in lower-case hexadecimal digits. -/
def hexDigits (code : Nat) : List Char :=
  Nat.toDigits 16 code

/-- How a character is shown between two `quote` characters. -/
def quotedChar (quote c : Char) : List Char :=
  if c = '\x00' then ['\\', '0']
  else if c = '\t' then ['\\', 't']
  else if c = '\r' then ['\\', 'r']
  else if c = '\n' then ['\\', 'n']
  else if c = '\\' || c = quote then ['\\', c]
  else if isVisible c then [c]
  else ['\\', 'u', '\x7b'] ++ hexDigits c.toNat ++ ['\x7d']

/-- A text between double quotes. -/
def quoted (text : String) : String :=
  String.ofList (['\x22'] ++ text.toList.flatMap (quotedChar '\x22') ++ ['\x22'])

/-- A character between single quotes. -/
def quotedSingle (c : Char) : String :=
  String.ofList (['\x27'] ++ quotedChar '\x27' c ++ ['\x27'])

end StyleBlock.Text
