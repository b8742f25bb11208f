import StyleBlock.Number.Shortest
import StyleBlock.Text.Quoted

/-!
Tokens of a style sheet, and how messages name them. Names and strings are held unescaped;
numbers are held as written, and their value is computed when it is shown.
-/

namespace StyleBlock.Css

/-- The kinds of brackets that enclose a block of tokens. -/
inductive Bracket where
  | round
  | square
  | curly
deriving DecidableEq, Repr

inductive Sign where
  | plus
  | minus
deriving DecidableEq, Repr

/-- The power of ten after a number. -/
structure Exponent where
  sign : Option Sign
  digits : List Nat
deriving DecidableEq, Repr

/-- A number as written: its sign, its digits before and after the point, and its exponent. -/
structure Numeral where
  sign : Option Sign
  whole : List Nat
  fraction : List Nat
  exponent : Option Exponent
deriving DecidableEq, Repr

inductive Token where
  | ident (name : String)
  | atKeyword (name : String)
  /-- A hash whose name is no identifier. -/
  | hash (name : String)
  | idHash (name : String)
  | quoted (text : String)
  | url (text : String)
  | delim (char : Char)
  | number (value : Numeral)
  | percentage (value : Numeral)
  | dimension (value : Numeral) (unit : String)
  | blank
  | comment (text : String)
  | colon
  | semicolon
  | comma
  | includeMatch
  | dashMatch
  | prefixMatch
  | suffixMatch
  | substringMatch
  /-- The characters that open a markup comment. -/
  | markupOpen
  /-- The characters that close a markup comment. -/
  | markupClose
  | function (name : String)
  | opening (bracket : Bracket)
  | closing (bracket : Bracket)
  /-- An unquoted address that breaks its rules. -/
  | badUrl (text : String)
  /-- A string cut off by the end of its line. -/
  | badString (text : String)
deriving DecidableEq, Repr

namespace Token

/-- The bracket whose block the token opens. -/
def opens? : Token → Option Bracket
  | function _ => some .round
  | opening bracket => some bracket
  | _ => none

/-- The bracket whose block the token closes. -/
def closes? : Token → Option Bracket
  | closing bracket => some bracket
  | _ => none

end Token

namespace Numeral

/-- Digits read from left to right. -/
def readNat (digits : List Nat) : Nat :=
  digits.foldl (fun value digit => value * 10 + digit) 0

/-- Digits read from left to right in double precision. -/
def readWhole (digits : List Nat) : Float :=
  digits.foldl (fun value digit => value * 10 + digit.toFloat) 0

/-- Digits after the point, each weighed by a tenth of the weight before it. -/
def readFraction (digits : List Nat) : Float :=
  (digits.foldl (fun (value, weight) digit => (value + digit.toFloat * weight, weight * 0.1))
    ((0 : Float), (0.1 : Float))).1

/-- The factor of a sign. -/
def factor (sign : Option Sign) : Float :=
  if sign = some .minus then -1 else 1

/-- The value in double precision. -/
def value (numeral : Numeral) : Float :=
  let plain := factor numeral.sign * (readWhole numeral.whole + readFraction numeral.fraction)
  match numeral.exponent with
  | none => plain
  | some exponent => plain * Float.pow 10 (factor exponent.sign * readWhole exponent.digits)

/-- The value of a number without fraction and exponent, kept within 32 bits. -/
def integer? (numeral : Numeral) : Option Int :=
  if !numeral.fraction.isEmpty || numeral.exponent.isSome then none
  else
    let size : Nat := readNat numeral.whole
    let value : Int := if numeral.sign = some .minus then -size else size
    some (max (-2147483648) (min 2147483647 value))

/-- A double-precision number, shown after narrowing to single precision. -/
def showSingle (value : Float) : String :=
  (Number.Single.ofBits value.toFloat32.toBits).shown

def showFlag (flag : Bool) : String :=
  if flag then "true" else "false"

def showInteger (numeral : Numeral) : String :=
  match numeral.integer? with
  | some value => s!"Some({value})"
  | none => "None"

/-- The fields that messages show of a number, its value under the given name. -/
def fields (numeral : Numeral) (name : String) (value : Float) : String :=
  s!"has_sign: {showFlag numeral.sign.isSome}, " ++ name ++
    s!": {showSingle value}, int_value: {showInteger numeral}"

end Numeral

/-- The word for a block's opening token. -/
def Bracket.openingName : Bracket → String
  | .round => "ParenthesisBlock"
  | .square => "SquareBracketBlock"
  | .curly => "CurlyBracketBlock"

/-- The word for a block's closing token. -/
def Bracket.closingName : Bracket → String
  | .round => "CloseParenthesis"
  | .square => "CloseSquareBracket"
  | .curly => "CloseCurlyBracket"

/-- A kind of token with its text in quotes. -/
def Token.withText (kind text : String) : String :=
  kind ++ "(" ++ Text.quoted text ++ ")"

/-- A kind of token with named fields in braces. -/
def Token.withFields (kind fields : String) : String :=
  kind ++ " \x7b " ++ fields ++ " \x7d"

/-- How messages name a token. -/
def Token.shown : Token → String
  | ident name => withText "Ident" name
  | atKeyword name => withText "AtKeyword" name
  | hash name => withText "Hash" name
  | idHash name => withText "IDHash" name
  | quoted text => withText "QuotedString" text
  | url text => withText "UnquotedUrl" text
  | delim char => "Delim(" ++ Text.quotedSingle char ++ ")"
  | number value => withFields "Number" (value.fields "value" value.value)
  | percentage value => withFields "Percentage" (value.fields "unit_value" (value.value / 100))
  | dimension value unit =>
    withFields "Dimension" (value.fields "value" value.value ++ ", unit: " ++ Text.quoted unit)
  | blank => "WhiteSpace"
  | comment text => withText "Comment" text
  | colon => "Colon"
  | semicolon => "Semicolon"
  | comma => "Comma"
  | includeMatch => "IncludeMatch"
  | dashMatch => "DashMatch"
  | prefixMatch => "PrefixMatch"
  | suffixMatch => "SuffixMatch"
  | substringMatch => "SubstringMatch"
  | markupOpen => "CDO"
  | markupClose => "CDC"
  | function name => withText "Function" name
  | opening bracket => bracket.openingName
  | closing bracket => bracket.closingName
  | badUrl text => withText "BadUrl" text
  | badString text => withText "BadString" text

end StyleBlock.Css
