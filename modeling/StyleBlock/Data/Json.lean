import StyleBlock.Text.Quoted

/-!
JSON values. An integer literal is kept apart from other numbers, which no field here accepts, and
a string with half of a surrogate pair, or an object with such a key, is kept apart from values that
denote something.
-/

namespace StyleBlock.Data

inductive Json where
  | null
  | bool (value : Bool)
  | integer (value : Int)
  /-- A number with a fraction or an exponent, or minus zero, as written. -/
  | real (text : String)
  | string (text : String)
  /-- A value that is well-formed but has a string that denotes no text. -/
  | unpaired
  | array (items : List Json)
  | object (fields : List (String × Json))

namespace Json

/-- The value of a field, the last one of that name. -/
def field? (json : Json) (name : String) : Option Json :=
  match json with
  | object fields => (fields.reverse.find? fun (key, _) => key == name).map Prod.snd
  | _ => none

/-- How a character of a string is written. -/
def writeChar (c : Char) : List Char :=
  if c = '\x22' || c = '\\' then ['\\', c]
  else if c = '\n' then ['\\', 'n']
  else if c = '\r' then ['\\', 'r']
  else if c = '\t' then ['\\', 't']
  else if c = '\x08' then ['\\', 'b']
  else if c = '\x0c' then ['\\', 'f']
  else if c.toNat < 0x20 then
    let digits := Text.hexDigits c.toNat
    ['\\', 'u'] ++ List.replicate (4 - digits.length) '0' ++ digits
  else [c]

/-- A string between quotes. -/
def writeText (text : String) : List Char :=
  '\x22' :: (text.toList.flatMap writeChar ++ ['\x22'])

/-- Where a value may break into lines: nowhere, or with each level indented. -/
inductive Layout where
  | compact
  | indented (depth : Nat)

/-- The layout inside a value. -/
def Layout.deeper : Layout → Layout
  | compact => compact
  | indented depth => indented (depth + 1)

/-- The start of a line. -/
def Layout.newLine : Layout → List Char
  | compact => []
  | indented depth => '\n' :: List.replicate (2 * depth) ' '

/-- What stands between a key and its value. -/
def Layout.colon : Layout → List Char
  | compact => [':']
  | indented _ => [':', ' ']

mutual

/-- The text of a value. -/
def write (layout : Layout) : Json → List Char
  | .null => "null".toList
  | .bool value => (if value then "true" else "false").toList
  | .integer value => (toString value).toList
  | .real text => text.toList
  | .string text => writeText text
  | .unpaired => writeText ""
  | .array [] => ['[', ']']
  | .array (item :: items) =>
    ['['] ++ layout.deeper.newLine ++ write layout.deeper item ++
      writeItems layout.deeper items ++ layout.newLine ++ [']']
  | .object [] => ['\x7b', '\x7d']
  | .object ((key, value) :: fields) =>
    ['\x7b'] ++ layout.deeper.newLine ++ writeText key ++ layout.colon ++
      write layout.deeper value ++ writeFields layout.deeper fields ++ layout.newLine ++ ['\x7d']

/-- The items after the first one. -/
def writeItems (layout : Layout) : List Json → List Char
  | [] => []
  | item :: items => [','] ++ layout.newLine ++ write layout item ++ writeItems layout items

/-- The fields after the first one. -/
def writeFields (layout : Layout) : List (String × Json) → List Char
  | [] => []
  | (key, value) :: fields =>
    [','] ++ layout.newLine ++ writeText key ++ layout.colon ++ write layout value ++
      writeFields layout fields

end

/-- The text of a value on one line, without blanks. -/
def compactText (json : Json) : String :=
  String.ofList (json.write .compact)

/-- The text of a value over many lines, with two spaces for each level. -/
def prettyText (json : Json) : String :=
  String.ofList (json.write (.indented 0))

end Json

end StyleBlock.Data
