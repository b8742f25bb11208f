import StyleBlock.Css.Lexer
import StyleBlock.Data.Json

/-!
Reading JSON: a text is cut into tokens first, and the tokens are read with the values that are
still open on a stack.
-/

namespace StyleBlock.Data

namespace Json

/-- The number that four hexadecimal digits stand for. -/
def hexUnit? (digits : List Char) : Option Nat := do
  let values ← digits.mapM Css.hexValue?
  return values.foldl (fun code digit => code * 16 + digit) 0

/-- A string with its rest; the text is `none` after half of a surrogate pair. -/
abbrev StringScan : Type := Option (List Char) × List Char

/-- The string with one more character in front. -/
def consChar (c : Char) (scan : StringScan) : StringScan :=
  (scan.1.map (c :: ·), scan.2)

/-- The string without a text. -/
def dropText (scan : StringScan) : StringScan :=
  (none, scan.2)

def isHighSurrogate (unit : Nat) : Bool := 0xd800 ≤ unit && unit < 0xdc00

def isLowSurrogate (unit : Nat) : Bool := 0xdc00 ≤ unit && unit < 0xe000

/-- The character that a letter after a backslash stands for. -/
def escaped? (c : Char) : Option Char :=
  match c with
  | '\x22' => some '\x22'
  | '\\' => some '\\'
  | '/' => some '/'
  | 'b' => some '\x08'
  | 'f' => some '\x0c'
  | 'n' => some '\n'
  | 'r' => some '\r'
  | 't' => some '\t'
  | _ => none

/-- The inside of a string up to its quote, with the code units read before it that wait for
the second half of their pair. -/
def scanText (high : Option Nat) : List Char → Option StringScan
  | [] => none
  | '\x22' :: rest => if high.isSome then some (none, rest) else some (some [], rest)
  | '\\' :: 'u' :: a :: b :: c :: d :: rest => do
    let unit ← hexUnit? [a, b, c, d]
    match high with
    | some first =>
      if isLowSurrogate unit then
        let code := 0x10000 + (first - 0xd800) * 0x400 + (unit - 0xdc00)
        (scanText none rest).map (consChar (Char.ofNat code))
      else if isHighSurrogate unit then (scanText (some unit) rest).map dropText
      else (scanText none rest).map dropText
    | none =>
      if isHighSurrogate unit then scanText (some unit) rest
      else if isLowSurrogate unit then (scanText none rest).map dropText
      else (scanText none rest).map (consChar (Char.ofNat unit))
  | '\\' :: c :: rest => do
    let char ← escaped? c
    let scan ← scanText none rest
    return if high.isSome then dropText scan else consChar char scan
  | c :: rest =>
    if c.toNat < 0x20 then none
    else do
      let scan ← scanText none rest
      return if high.isSome then dropText scan else consChar c scan

inductive JsonToken where
  | openArray
  | closeArray
  | openObject
  | closeObject
  | comma
  | colon
  | scalar (value : Json)

/-- The characters that a number can be made of. -/
def isNumberPart (c : Char) : Bool :=
  Css.isDigit c || c = '+' || c = '-' || c = '.' || c = 'e' || c = 'E'

/-- Whether the characters are digits, at least one. -/
def areDigits (chars : List Char) : Bool :=
  !chars.isEmpty && chars.all Css.isDigit

/-- An exponent is digits after an optional sign. -/
def isExponent : List Char → Bool
  | '+' :: digits => areDigits digits
  | '-' :: digits => areDigits digits
  | digits => areDigits digits

/-- What may end a number: nothing, or a letter with an exponent. -/
def isPowerPart : List Char → Bool
  | [] => true
  | c :: digits => (c = 'e' || c = 'E') && isExponent digits

/-- What follows the whole part of a number: a fraction, an exponent, both or neither. -/
def isNumberEnd : List Char → Bool
  | '.' :: rest =>
    areDigits (rest.takeWhile Css.isDigit) && isPowerPart (rest.dropWhile Css.isDigit)
  | rest => isPowerPart rest

/-- The number that decimal digits stand for. -/
def readDigits (digits : List Char) : Nat :=
  digits.foldl (fun value c => value * 10 + (c.toNat - 0x30)) 0

/-- A number: no zero stands in front of other digits, and minus zero is no integer. -/
def number? (text : List Char) : Option Json :=
  let (negative, unsigned) :=
    match text with
    | '-' :: rest => (true, rest)
    | _ => (false, text)
  let whole := unsigned.takeWhile Css.isDigit
  let rest := unsigned.dropWhile Css.isDigit
  if whole.isEmpty || (1 < whole.length && whole.head? = some '0') || !isNumberEnd rest then none
  else
    let size := readDigits whole
    if !rest.isEmpty || (negative && size = 0) then some (.real (String.ofList text))
    else some (.integer (if negative then -(size : Int) else (size : Int)))

/-- The value that a word stands for. -/
def word? (text : List Char) : Option Json :=
  match String.ofList text with
  | "null" => some .null
  | "true" => some (.bool true)
  | "false" => some (.bool false)
  | _ => none

def isJsonSpace (c : Char) : Bool :=
  c = ' ' || c = '\t' || c = '\n' || c = '\r'

/-- The token that starts with `c`, and the characters after it. -/
def scanJson (c : Char) (rest : List Char) : Option (JsonToken × List Char) :=
  match c with
  | '[' => some (.openArray, rest)
  | ']' => some (.closeArray, rest)
  | '\x7b' => some (.openObject, rest)
  | '\x7d' => some (.closeObject, rest)
  | ',' => some (.comma, rest)
  | ':' => some (.colon, rest)
  | '\x22' => do
    let (text, after) ← scanText none rest
    match text with
    | some text => return (.scalar (.string (String.ofList text)), after)
    | none => return (.scalar .unpaired, after)
  | _ =>
    if c.isAlpha then do
      return (.scalar (← word? (c :: rest.takeWhile Char.isAlpha)), rest.dropWhile Char.isAlpha)
    else do
      let value ← number? (c :: rest.takeWhile isNumberPart)
      return (.scalar value, rest.dropWhile isNumberPart)

/-- The tokens of a text, with at most `limit` characters and blanks between them. -/
def tokensOf : Nat → List Char → Option (List JsonToken)
  | _, [] => some []
  | 0, _ :: _ => none
  | limit + 1, c :: rest =>
    if isJsonSpace c then tokensOf limit rest
    else do
      let (token, after) ← scanJson c rest
      return token :: (← tokensOf limit after)

/-- A value that is still open, its parts last first. A key without a text is `none`. -/
inductive OpenValue where
  | array (items : List Json)
  | object (fields : List (Option String × Json)) (key : Option String)

/-- An object, if all of its keys denote texts. -/
def ofFields (fields : List (Option String × Json)) : Json :=
  match fields.mapM fun (key, value) => key.map fun key => (key, value) with
  | some fields => .object fields
  | none => .unpaired

/-- What may come next. -/
inductive JsonPart where
  | value
  /-- The first item of an array, or its end. -/
  | firstItem
  /-- The first key of an object, or its end. -/
  | firstKey
  | key
  | colon
  /-- A comma, or the end of the innermost open value. -/
  | more
  | complete (value : Json)

structure JsonReader where
  opened : List OpenValue
  part : JsonPart

namespace JsonReader

/-- A value is complete. -/
def put (opened : List OpenValue) (value : Json) : JsonReader :=
  match opened with
  | [] => ⟨[], .complete value⟩
  | .array items :: outer => ⟨.array (value :: items) :: outer, .more⟩
  | .object fields key :: outer => ⟨.object ((key, value) :: fields) key :: outer, .more⟩

/-- A token where a value is expected. -/
def readValue (opened : List OpenValue) : JsonToken → Option JsonReader
  | .scalar value => some (put opened value)
  | .openArray => some ⟨.array [] :: opened, .firstItem⟩
  | .openObject => some ⟨.object [] none :: opened, .firstKey⟩
  | _ => none

/-- A token where a key is expected. -/
def readKey (opened : List OpenValue) (token : JsonToken) : Option JsonReader :=
  match token, opened with
  | .scalar (.string key), .object fields _ :: outer =>
    some ⟨.object fields (some key) :: outer, .colon⟩
  | .scalar .unpaired, .object fields _ :: outer => some ⟨.object fields none :: outer, .colon⟩
  | _, _ => none

/-- The end of the innermost open value. -/
def close (opened : List OpenValue) : JsonToken → Option JsonReader
  | .closeArray =>
    match opened with
    | .array items :: outer => some (put outer (.array items.reverse))
    | _ => none
  | .closeObject =>
    match opened with
    | .object fields _ :: outer => some (put outer (ofFields fields.reverse))
    | _ => none
  | _ => none

def step (reader : JsonReader) (token : JsonToken) : Option JsonReader :=
  match reader.part with
  | .value => readValue reader.opened token
  | .firstItem =>
    match token with
    | .closeArray => close reader.opened token
    | _ => readValue reader.opened token
  | .firstKey =>
    match token with
    | .closeObject => close reader.opened token
    | _ => readKey reader.opened token
  | .key => readKey reader.opened token
  | .colon =>
    match token with
    | .colon => some ⟨reader.opened, .value⟩
    | _ => none
  | .more =>
    match token, reader.opened with
    | .comma, .array _ :: _ => some ⟨reader.opened, .value⟩
    | .comma, _ => some ⟨reader.opened, .key⟩
    | _, _ => close reader.opened token
  | .complete _ => none

end JsonReader

/-- The value that a text denotes. -/
def parse? (text : String) : Option Json := do
  let chars := text.toList
  let tokens ← tokensOf chars.length chars
  let reader ← tokens.foldlM JsonReader.step ⟨[], .value⟩
  match reader.part with
  | .complete value => return value
  | _ => none

end Json

end StyleBlock.Data
