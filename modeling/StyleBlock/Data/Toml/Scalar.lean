import StyleBlock.Data.JsonReader
import StyleBlock.Text.Blank

/-!
Scalars of TOML besides strings: booleans, integers of 64 bits, other numbers, dates and times.
The last two are kept as written.
-/

namespace StyleBlock.Data.Toml

/-- Digits of a base, with single underscores between them. -/
def areSeparated (isDigit : Char → Bool) (chars : List Char) : Bool :=
  let runs := Text.splitChars '_' chars
  runs.all fun run => !run.isEmpty && run.all isDigit

/-- The number that digits of a base stand for. -/
def digitsValue (base : Nat) (chars : List Char) : Nat :=
  (chars.filterMap Css.hexValue?).foldl (fun value digit => value * base + digit) 0

def isBaseDigit (base : Nat) (c : Char) : Bool :=
  (Css.hexValue? c).any fun value => value < base

/-- A sign and the characters after it. -/
def cutSign : List Char → Option Char × List Char
  | '+' :: rest => (some '+', rest)
  | '-' :: rest => (some '-', rest)
  | chars => (none, chars)

/-- A whole number: no zero stands in front of other digits. -/
def isWhole (chars : List Char) : Bool :=
  areSeparated Css.isDigit chars && (chars.length ≤ 1 || chars.head? ≠ some '0')

def inWord (value : Int) : Option Json :=
  if -Int.pow 2 63 ≤ value && value < Int.pow 2 63 then some (.integer value) else none

/-- A number with a base in front. -/
def based? (base : Nat) (chars : List Char) : Option Json :=
  if areSeparated (isBaseDigit base) chars then inWord (digitsValue base chars) else none

def integer? (chars : List Char) : Option Json :=
  match chars with
  | '0' :: 'x' :: digits => based? 16 digits
  | '0' :: 'o' :: digits => based? 8 digits
  | '0' :: 'b' :: digits => based? 2 digits
  | _ =>
    let (sign, digits) := cutSign chars
    if isWhole digits then
      let size : Int := digitsValue 10 digits
      inWord (if sign = some '-' then -size else size)
    else none

/-- An exponent with its letter, or nothing. -/
def isPower : List Char → Bool
  | [] => true
  | c :: rest => (c = 'e' || c = 'E') && areSeparated Css.isDigit (cutSign rest).2

def isExponentMark (c : Char) : Bool := c = 'e' || c = 'E'

/-- A number with a fraction, an exponent or both, or an infinite or undefined one. -/
def isFloat (chars : List Char) : Bool :=
  let unsigned := (cutSign chars).2
  if unsigned = "inf".toList || unsigned = "nan".toList then true
  else
    let whole := unsigned.takeWhile fun c => c ≠ '.' && !isExponentMark c
    match unsigned.dropWhile fun c => c ≠ '.' && !isExponentMark c with
    | '.' :: rest =>
      isWhole whole && areSeparated Css.isDigit (rest.takeWhile fun c => !isExponentMark c) &&
        isPower (rest.dropWhile fun c => !isExponentMark c)
    | [] => false
    | rest => isWhole whole && isPower rest

/-- The digits of a number with a fraction or an exponent, and the power of ten that they count. -/
def decimal (unsigned : List Char) : Nat × Int :=
  let digits := unsigned.takeWhile fun c => !isExponentMark c
  let fraction := (digits.dropWhile fun c => c ≠ '.').filter Css.isDigit
  let (sign, exponent) := cutSign ((unsigned.dropWhile fun c => !isExponentMark c).drop 1)
  let power : Int := digitsValue 10 exponent
  (digitsValue 10 digits, (if sign = some '-' then -power else power) - fraction.length)

/-- The least number that rounds to infinity in 64 bits. -/
def infinityBound : Nat := Nat.pow 2 1024 - Nat.pow 2 970

/-- Whether a number is too large for 64 bits. The bound has 309 digits, so that only numbers with
as many are compared with it. -/
def isInfinite (size : Nat) (power : Int) : Bool :=
  let magnitude := ((Nat.toDigits 10 size).length : Int) + power
  if size = 0 || magnitude < 309 then false
  else if 309 < magnitude then true
  else infinityBound * Nat.pow 10 (-power).toNat ≤ size * Nat.pow 10 power.toNat

/-- A number that is no integer. A negative one may be too large. -/
def isReal (chars : List Char) : Bool :=
  let (sign, unsigned) := cutSign chars
  let (size, power) := decimal unsigned
  isFloat chars && (sign = some '-' || !isInfinite size power)

/-- A number of exactly so many digits, between bounds. -/
def field? (width low high : Nat) (chars : List Char) : Option Nat :=
  if chars.length = width && chars.all Css.isDigit then
    let value := digitsValue 10 chars
    if low ≤ value && value ≤ high then some value else none
  else none

def daysOf (year month : Nat) : Nat :=
  if month = 2 then
    if year % 4 = 0 && (year % 100 ≠ 0 || year % 400 = 0) then 29 else 28
  else if [4, 6, 9, 11].contains month then 30
  else 31

def isDate (chars : List Char) : Bool :=
  match Text.splitChars '-' chars with
  | [year, month, day] =>
    match field? 4 0 9999 year, field? 2 1 12 month with
    | some year, some month => (field? 2 1 (daysOf year month) day).isSome
    | _, _ => false
  | _ => false

def isSeconds (chars : List Char) : Bool :=
  match Text.splitChars '.' chars with
  | [whole] => (field? 2 0 60 whole).isSome
  | [whole, fraction] =>
    (field? 2 0 60 whole).isSome && !fraction.isEmpty && fraction.all Css.isDigit
  | _ => false

def isTime (chars : List Char) : Bool :=
  match Text.splitChars ':' chars with
  | [hour, minute, second] =>
    (field? 2 0 23 hour).isSome && (field? 2 0 59 minute).isSome && isSeconds second
  | _ => false

/-- The distance from universal time. -/
def isZone (chars : List Char) : Bool :=
  match chars with
  | [] => true
  | ['Z'] => true
  | ['z'] => true
  | sign :: rest =>
    (sign = '+' || sign = '-') &&
      match Text.splitChars ':' rest with
      | [hour, minute] => (field? 2 0 23 hour).isSome && (field? 2 0 59 minute).isSome
      | _ => false

def isTimePart (c : Char) : Bool := Css.isDigit c || c = ':' || c = '.'

/-- A date, a time, or both with or without a zone. -/
def isMoment (chars : List Char) : Bool :=
  let date := chars.take 10
  match chars.drop 10 with
  | [] => isDate date || isTime chars
  | mark :: rest =>
    ((mark = 'T' || mark = 't' || mark = ' ') && isDate date &&
      isTime (rest.takeWhile isTimePart) && isZone (rest.dropWhile isTimePart)) || isTime chars

/-- The scalar that characters stand for. -/
def plain? (chars : List Char) : Option Json :=
  if chars = "true".toList then some (.bool true)
  else if chars = "false".toList then some (.bool false)
  else
    match integer? chars with
    | some value => some value
    | none =>
      if isReal chars || isMoment chars then some (.real (String.ofList chars)) else none

def isPlainPart (c : Char) : Bool :=
  c.isAlphanum || ['+', '-', '_', '.', ':'].contains c

/-- A scalar and the characters after it. A blank may stand between a date and a time. -/
def scanPlain (chars : List Char) : Option (Json × List Char) :=
  let word := chars.takeWhile isPlainPart
  let rest := chars.dropWhile isPlainPart
  match rest with
  | ' ' :: next :: more =>
    if isDate word && Css.isDigit next then
      let time := (next :: more).takeWhile isPlainPart
      (plain? (word ++ ' ' :: time)).map fun value => (value, (next :: more).dropWhile isPlainPart)
    else (plain? word).map fun value => (value, rest)
  | _ => (plain? word).map fun value => (value, rest)

end StyleBlock.Data.Toml
