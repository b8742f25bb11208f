import StyleBlock.Css.Token
import StyleBlock.Text.Blank
import StyleBlock.Text.Position

/-!
Cutting a text into lexemes. Every scanner takes the characters that are left and gives back what
it found with the characters after it; it never gives back more than it took, which is why the
whole text is cut in finitely many steps.
-/

namespace StyleBlock.Css

open Text (Position)

/-- A character that stands for an unusable one. -/
def replacement : Char := '\ufffd'

/-- The null character reads as the replacement character. -/
def clean (c : Char) : Char :=
  if c = '\x00' then replacement else c

/-- Blanks between tokens. -/
def isSpace (c : Char) : Bool :=
  c = ' ' || c = '\t' || Text.isLineEnd c

def isDigit (c : Char) : Bool :=
  '0' ≤ c && c ≤ '9'

/-- A character a name can start with: a letter, an underscore, or anything outside ASCII. -/
def isNameStart (c : Char) : Bool :=
  c.isAlpha || c = '_' || c = '\x00' || 128 ≤ c.toNat

/-- A character a name can go on with. -/
def isNamePart (c : Char) : Bool :=
  isNameStart c || isDigit c || c = '-'

/-- Whether the next character ends a line. -/
def atLineEnd : List Char → Bool
  | [] => false
  | c :: _ => Text.isLineEnd c

/-- The characters after one line end. -/
def dropLineEnd : List Char → List Char
  | '\r' :: '\n' :: rest => rest
  | _ :: rest => rest
  | [] => []

/-- The value of a hexadecimal digit. -/
def hexValue? (c : Char) : Option Nat :=
  if isDigit c then some (c.toNat - 0x30)
  else if 'a' ≤ c && c ≤ 'f' then some (c.toNat - 0x57)
  else if 'A' ≤ c && c ≤ 'F' then some (c.toNat - 0x37)
  else none

/-- At most `count` hexadecimal digits, read onto `code`. -/
def scanHex (code : Nat) : Nat → List Char → Nat × List Char
  | 0, chars => (code, chars)
  | _ + 1, [] => (code, [])
  | count + 1, c :: rest =>
    match hexValue? c with
    | some digit => scanHex (code * 16 + digit) count rest
    | none => (code, c :: rest)

/-- The character with a code point; the replacement character where there is none. -/
def charOfCode (code : Nat) : Char :=
  if code = 0 || (0xd800 ≤ code && code ≤ 0xdfff) || 0x10ffff < code then replacement
  else Char.ofNat code

/-- The blank that ends a hexadecimal escape. -/
def dropOneSpace : List Char → List Char
  | [] => []
  | c :: rest => if isSpace c then dropLineEnd (c :: rest) else c :: rest

/-- What follows a backslash: up to six hexadecimal digits with one blank, or a character. -/
def scanEscape : List Char → Char × List Char
  | [] => (replacement, [])
  | c :: rest =>
    if (hexValue? c).isSome then
      let (code, after) := scanHex 0 6 (c :: rest)
      (charOfCode code, dropOneSpace after)
    else (clean c, rest)

theorem length_dropLineEnd (chars : List Char) : (dropLineEnd chars).length ≤ chars.length := by
  unfold dropLineEnd
  split
  · simp only [List.length_cons]
    omega
  · simp
  · simp

theorem length_dropOneSpace (chars : List Char) :
    (dropOneSpace chars).length ≤ chars.length := by
  unfold dropOneSpace
  split
  · simp
  · split
    · exact length_dropLineEnd _
    · simp

theorem length_scanHex (count code : Nat) (chars : List Char) :
    (scanHex code count chars).2.length ≤ chars.length := by
  induction count generalizing code chars with
  | zero => simp [scanHex]
  | succ count ih =>
    cases chars with
    | nil => simp [scanHex]
    | cons c rest =>
      unfold scanHex
      split
      · have := ih (code * 16 + ‹Nat›) rest
        simp only [List.length_cons]
        omega
      · simp

theorem length_scanEscape (chars : List Char) : (scanEscape chars).2.length ≤ chars.length := by
  unfold scanEscape
  split
  · simp
  · split
    · exact Nat.le_trans (length_dropOneSpace _) (length_scanHex _ _ _)
    · simp

/-- A name: name characters and escapes, up to anything else. -/
def scanName : List Char → List Char × List Char
  | [] => ([], [])
  | c :: rest =>
    if c = '\\' then
      if atLineEnd rest then ([], c :: rest)
      else
        have : (scanEscape rest).2.length ≤ rest.length := length_scanEscape rest
        let (name, after) := scanName (scanEscape rest).2
        ((scanEscape rest).1 :: name, after)
    else if isNamePart c then
      let (name, after) := scanName rest
      (clean c :: name, after)
    else ([], c :: rest)
termination_by chars => chars.length

theorem length_scanName (chars : List Char) : (scanName chars).2.length ≤ chars.length := by
  fun_induction scanName chars <;> simp_all <;> omega

/-- Whether an identifier starts here. After a hyphen any backslash will do, since the name then
holds the hyphen at least. -/
def startsIdent : List Char → Bool
  | '-' :: c :: _ => isNameStart c || c = '-' || c = '\\'
  | '\\' :: rest => !atLineEnd rest
  | c :: _ => isNameStart c
  | [] => false

/-- How a string ended: at its quote or the end of the text, or before the end of a line. -/
structure StringScan where
  closed : Bool
  text : List Char
  rest : List Char

/-- The string with one more character in front. -/
def StringScan.cons (c : Char) (scan : StringScan) : StringScan :=
  { scan with text := c :: scan.text }

/-- The inside of a string up to its quote. -/
def scanString (quote : Char) : List Char → StringScan
  | [] => ⟨true, [], []⟩
  | c :: rest =>
    if c = quote then ⟨true, [], rest⟩
    else if Text.isLineEnd c then ⟨false, [], c :: rest⟩
    else if c = '\\' then
      if rest.isEmpty then ⟨true, [], []⟩
      else if atLineEnd rest then
        have : (dropLineEnd rest).length ≤ rest.length := length_dropLineEnd rest
        scanString quote (dropLineEnd rest)
      else
        have : (scanEscape rest).2.length ≤ rest.length := length_scanEscape rest
        (scanString quote (scanEscape rest).2).cons (scanEscape rest).1
    else (scanString quote rest).cons (clean c)
termination_by chars => chars.length

theorem length_scanString (quote : Char) (chars : List Char) :
    (scanString quote chars).rest.length ≤ chars.length := by
  fun_induction scanString quote chars <;> simp_all [StringScan.cons] <;> omega

/-- The inside of a comment. -/
def scanComment : List Char → List Char × List Char
  | [] => ([], [])
  | '*' :: '/' :: rest => ([], rest)
  | c :: rest =>
    let (text, after) := scanComment rest
    (c :: text, after)

theorem length_scanComment (chars : List Char) :
    (scanComment chars).2.length ≤ chars.length := by
  fun_induction scanComment chars <;> simp_all <;> omega

/-- A run of decimal digits. -/
def scanDigits : List Char → List Nat × List Char
  | [] => ([], [])
  | c :: rest =>
    if isDigit c then
      let (digits, after) := scanDigits rest
      ((c.toNat - 0x30) :: digits, after)
    else ([], c :: rest)

theorem length_scanDigits (chars : List Char) :
    (scanDigits chars).2.length ≤ chars.length := by
  fun_induction scanDigits chars with
  | case1 => simp
  | case2 c rest digit digits after scanned shorter =>
    rw [scanned] at shorter
    exact Nat.le_succ_of_le shorter
  | case3 => simp

/-- A sign, if there is one. -/
def scanSign : List Char → Option Sign × List Char
  | '+' :: rest => (some .plus, rest)
  | '-' :: rest => (some .minus, rest)
  | chars => (none, chars)

theorem length_scanSign (chars : List Char) : (scanSign chars).2.length ≤ chars.length := by
  unfold scanSign
  split <;> simp

/-- Whether a decimal digit comes next. -/
def atDigit : List Char → Bool
  | c :: _ => isDigit c
  | [] => false

/-- A point with digits after it, if there are any. -/
def scanFraction : List Char → List Nat × List Char
  | '.' :: rest => if atDigit rest then scanDigits rest else ([], '.' :: rest)
  | chars => ([], chars)

theorem length_scanFraction (chars : List Char) :
    (scanFraction chars).2.length ≤ chars.length := by
  unfold scanFraction
  split
  · split
    · exact Nat.le_trans (length_scanDigits _) (by simp)
    · simp
  · simp

/-- The exponent of a number, if it has one. -/
def scanExponent : List Char → Option Exponent × List Char
  | [] => (none, [])
  | c :: rest =>
    let (sign, unsigned) := scanSign rest
    if (c = 'e' || c = 'E') && atDigit unsigned then
      let (digits, after) := scanDigits unsigned
      (some ⟨sign, digits⟩, after)
    else (none, c :: rest)

theorem length_scanExponent (chars : List Char) :
    (scanExponent chars).2.length ≤ chars.length := by
  cases chars with
  | nil => simp [scanExponent]
  | cons c rest =>
    have sign := length_scanSign rest
    have digits := length_scanDigits (scanSign rest).2
    simp only [scanExponent]
    split
    · simp only [List.length_cons]
      omega
    · simp

/-- A number: sign, digits, fraction and exponent. -/
def scanNumeral (chars : List Char) : Numeral × List Char :=
  let (sign, afterSign) := scanSign chars
  let (whole, afterWhole) := scanDigits afterSign
  let (fraction, afterFraction) := scanFraction afterWhole
  let (exponent, rest) := scanExponent afterFraction
  (⟨sign, whole, fraction, exponent⟩, rest)

/-- Whether a number starts here: digits, perhaps after a sign and a point. -/
def startsNumeral (chars : List Char) : Bool :=
  match (scanSign chars).2 with
  | '.' :: rest => atDigit rest
  | rest => atDigit rest

/-- A number with a percent sign, a unit or nothing after it. -/
def scanNumber (chars : List Char) : Token × List Char :=
  let (numeral, rest) := scanNumeral chars
  match rest with
  | '%' :: after => (.percentage numeral, after)
  | _ =>
    if startsIdent rest then
      let (unit, after) := scanName rest
      (.dimension numeral (String.ofList unit), after)
    else (.number numeral, rest)

/-- Skips a broken address: what is left from the closing parenthesis on that no backslash
precedes. -/
def skipBadUrl : List Char → List Char
  | [] => []
  | '\\' :: ')' :: rest => skipBadUrl rest
  | '\\' :: '\\' :: rest => skipBadUrl rest
  | c :: rest => if c = ')' then c :: rest else skipBadUrl rest

theorem length_skipBadUrl (chars : List Char) : (skipBadUrl chars).length ≤ chars.length := by
  fun_induction skipBadUrl chars <;> simp_all <;> omega

/-- Characters that an unquoted address cannot hold. -/
def breaksUrl (c : Char) : Bool :=
  (1 ≤ c.toNat && c.toNat ≤ 8) || c.toNat = 0xb || (0xe ≤ c.toNat && c.toNat ≤ 0x1f) ||
    c.toNat = 0x7f || c = '\x22' || c = '\x27' || c = '('

/-- An unquoted address with what follows it, or what is left after the character that breaks
it. -/
inductive UrlScan where
  | whole (text rest : List Char)
  | broken (rest : List Char)

/-- The characters that are left. -/
def UrlScan.rest : UrlScan → List Char
  | whole _ rest => rest
  | broken rest => rest

/-- The address with one more character in front. -/
def UrlScan.cons (c : Char) : UrlScan → UrlScan
  | whole text rest => whole (c :: text) rest
  | broken rest => broken rest

@[simp] theorem UrlScan.rest_cons (c : Char) (scan : UrlScan) : (scan.cons c).rest = scan.rest := by
  cases scan <;> rfl

/-- The end of an address after blanks. -/
def scanUrlEnd : List Char → UrlScan
  | [] => .whole [] []
  | c :: rest => if c = ')' then .whole [] rest else .broken rest

theorem length_scanUrlEnd (chars : List Char) :
    (scanUrlEnd chars).rest.length ≤ chars.length := by
  cases chars with
  | nil => simp [scanUrlEnd, UrlScan.rest]
  | cons c rest =>
    by_cases closing : c = ')' <;> simp [scanUrlEnd, UrlScan.rest, closing]

/-- The characters of an unquoted address up to its end. -/
def scanUrl : List Char → UrlScan
  | [] => .whole [] []
  | c :: rest =>
    if c = ')' then .whole [] rest
    else if isSpace c then scanUrlEnd (rest.dropWhile isSpace)
    else if breaksUrl c then .broken rest
    else if c = '\\' then
      if atLineEnd rest then .broken rest
      else
        have : (scanEscape rest).2.length ≤ rest.length := length_scanEscape rest
        (scanUrl (scanEscape rest).2).cons (scanEscape rest).1
    else (scanUrl rest).cons (clean c)
termination_by chars => chars.length

theorem length_dropWhile_le (test : Char → Bool) (chars : List Char) :
    (chars.dropWhile test).length ≤ chars.length :=
  (List.dropWhile_sublist test).length_le

theorem length_scanUrl (chars : List Char) : (scanUrl chars).rest.length ≤ chars.length := by
  fun_induction scanUrl chars with
  | case1 => simp [UrlScan.rest]
  | case2 => simp [UrlScan.rest]
  | case3 c rest =>
    have blanks := length_dropWhile_le isSpace rest
    have ending := length_scanUrlEnd (rest.dropWhile isSpace)
    simp only [List.length_cons]
    omega
  | case4 => simp [UrlScan.rest]
  | case5 => simp [UrlScan.rest]
  | case6 c rest =>
    simp only [UrlScan.rest_cons, List.length_cons]
    omega
  | case7 c rest =>
    simp only [UrlScan.rest_cons, List.length_cons]
    omega

/-- The address after `url(`; a quoted one is left to the tokens that follow, so `url` then
opens a block like any function. -/
def scanAddress (name : String) (chars : List Char) : Token × List Char :=
  match chars.dropWhile isSpace with
  | [] => (.url "", [])
  | c :: rest =>
    if c = '\x22' || c = '\x27' then (.function name, chars)
    else
      match scanUrl (c :: rest) with
      | .whole text after => (.url (String.ofList text), after)
      | .broken broken =>
        let ending := skipBadUrl broken
        (.badUrl (String.ofList ((c :: rest).take (rest.length + 1 - ending.length))),
          ending.drop 1)

theorem length_scanAddress (name : String) (chars : List Char) :
    (scanAddress name chars).2.length ≤ chars.length := by
  have blanks := length_dropWhile_le isSpace chars
  unfold scanAddress
  split
  · simp
  · rename_i c rest same
    rw [same] at blanks
    have address := length_scanUrl (c :: rest)
    split
    · simp
    · split
      · rename_i text after found
        rw [found] at address
        exact Nat.le_trans address blanks
      · rename_i broken found
        rw [found] at address
        have skipped := length_skipBadUrl broken
        simp only [UrlScan.rest] at address
        simp only [List.length_drop]
        omega

/-- An identifier, a function or an address. -/
def scanIdentLike (chars : List Char) : Token × List Char :=
  let (name, rest) := scanName chars
  match rest with
  | '(' :: inner =>
    if Text.sameIgnoringCase (String.ofList name) "url" then
      scanAddress (String.ofList name) inner
    else (.function (String.ofList name), inner)
  | _ => (.ident (String.ofList name), rest)

/-- A hash with its name, or a lone `#`. -/
def scanHash (rest : List Char) : Token × List Char :=
  if startsIdent rest then
    let (name, after) := scanName rest
    (.idHash (String.ofList name), after)
  else if rest.head?.any (fun c => isDigit c || c = '-') then
    let (name, after) := scanName rest
    (.hash (String.ofList name), after)
  else (.delim '#', rest)

/-- A quoted string, or a string cut off by the end of its line. -/
def scanQuoted (quote : Char) (rest : List Char) : Token × List Char :=
  let scan := scanString quote rest
  if scan.closed then (.quoted (String.ofList scan.text), scan.rest)
  else (.badString (String.ofList scan.text), scan.rest)

/-- The token made of `c` and an equals sign, or `c` alone. -/
def scanMatch (c : Char) (matching : Token) : List Char → Token × List Char
  | '=' :: rest => (matching, rest)
  | rest => (.delim c, rest)

/-- The token that starts with `c`, and the characters after it. -/
def scanToken (c : Char) (rest : List Char) : Token × List Char :=
  if isSpace c then (.blank, rest.dropWhile isSpace)
  else if c = '\x22' || c = '\x27' then scanQuoted c rest
  else if startsNumeral (c :: rest) then scanNumber (c :: rest)
  else if (['-', '-', '>'] : List Char).isPrefixOf (c :: rest) then (.markupClose, rest.drop 2)
  else if startsIdent (c :: rest) then scanIdentLike (c :: rest)
  else if c = '/' && rest.head? = some '*' then
    let (text, after) := scanComment (rest.drop 1)
    (.comment (String.ofList text), after)
  else if (['<', '!', '-', '-'] : List Char).isPrefixOf (c :: rest) then
    (.markupOpen, rest.drop 3)
  else
    match c with
    | '#' => scanHash rest
    | '$' => scanMatch c .suffixMatch rest
    | '*' => scanMatch c .substringMatch rest
    | '^' => scanMatch c .prefixMatch rest
    | '|' => scanMatch c .dashMatch rest
    | '~' => scanMatch c .includeMatch rest
    | '(' => (.opening .round, rest)
    | ')' => (.closing .round, rest)
    | '[' => (.opening .square, rest)
    | ']' => (.closing .square, rest)
    | '\x7b' => (.opening .curly, rest)
    | '\x7d' => (.closing .curly, rest)
    | ',' => (.comma, rest)
    | ':' => (.colon, rest)
    | ';' => (.semicolon, rest)
    | '@' =>
      if startsIdent rest then
        let (name, after) := scanName rest
        (.atKeyword (String.ofList name), after)
      else (.delim '@', rest)
    | _ => (.delim c, rest)

theorem length_scanHash (rest : List Char) : (scanHash rest).2.length ≤ rest.length := by
  have name := length_scanName rest
  unfold scanHash
  split
  · exact name
  · split
    · exact name
    · exact Nat.le_refl _

theorem length_scanQuoted (quote : Char) (rest : List Char) :
    (scanQuoted quote rest).2.length ≤ rest.length := by
  have string := length_scanString quote rest
  unfold scanQuoted
  simp only
  split <;> exact string

theorem length_scanMatch (c : Char) (matching : Token) (rest : List Char) :
    (scanMatch c matching rest).2.length ≤ rest.length := by
  unfold scanMatch
  split <;> simp

/-- An identifier takes its first character. -/
theorem length_scanName_of_startsIdent {c : Char} {rest : List Char}
    (starts : startsIdent (c :: rest)) : (scanName (c :: rest)).2.length ≤ rest.length := by
  have name := length_scanName rest
  have escape := length_scanName (scanEscape rest).2
  have shorter := length_scanEscape rest
  unfold scanName
  by_cases backslash : c = '\\'
  · subst backslash
    have : atLineEnd rest = false := by simpa [startsIdent] using starts
    simp only [this]
    simp
    omega
  · have part : isNamePart c := by
      unfold startsIdent at starts
      split at starts <;> simp_all [isNamePart]
    simp only [backslash, part, if_true, if_false]
    exact name

theorem length_scanDigits_of_atDigit {chars : List Char} (digit : atDigit chars) :
    (scanDigits chars).2.length < chars.length := by
  cases chars with
  | nil => simp [atDigit] at digit
  | cons c rest =>
    have := length_scanDigits rest
    simp only [atDigit] at digit
    simp [scanDigits, digit]
    omega

/-- A number takes at least one character. -/
theorem length_scanNumeral_lt {chars : List Char} (starts : startsNumeral chars) :
    (scanNumeral chars).2.length < chars.length := by
  have sign := length_scanSign chars
  have exponent := length_scanExponent (scanFraction (scanDigits (scanSign chars).2).2).2
  have fraction := length_scanFraction (scanDigits (scanSign chars).2).2
  have digits := length_scanDigits (scanSign chars).2
  show (scanExponent (scanFraction (scanDigits (scanSign chars).2).2).2).2.length < chars.length
  unfold startsNumeral at starts
  split at starts
  · rename_i rest point
    have digit := length_scanDigits_of_atDigit starts
    rw [point] at exponent fraction sign digits ⊢
    have none : scanDigits ('.' :: rest) = ([], '.' :: rest) := by
      simp [scanDigits, isDigit, show ¬('0' : Char) ≤ '.' by decide]
    rw [none] at exponent fraction ⊢
    simp only [scanFraction, starts, if_true] at exponent ⊢
    simp only [List.length_cons] at sign
    omega
  · have digit := length_scanDigits_of_atDigit starts
    omega

theorem length_scanNumber_lt {chars : List Char} (starts : startsNumeral chars) :
    (scanNumber chars).2.length < chars.length := by
  have numeral := length_scanNumeral_lt starts
  unfold scanNumber
  simp only
  split
  · rename_i after same
    simp only [same, List.length_cons] at numeral
    simp only
    omega
  · split
    · exact Nat.lt_of_le_of_lt (length_scanName _) numeral
    · exact numeral

theorem length_scanIdentLike_of_startsIdent {c : Char} {rest : List Char}
    (starts : startsIdent (c :: rest)) :
    (scanIdentLike (c :: rest)).2.length ≤ rest.length := by
  have name := length_scanName_of_startsIdent starts
  unfold scanIdentLike
  simp only
  split
  · rename_i inner same
    simp only [same, List.length_cons] at name
    split
    · have := length_scanAddress (String.ofList (scanName (c :: rest)).1) inner
      omega
    · simp only
      omega
  · exact name

/-- Every token takes its first character, and never gives characters back. -/
theorem length_scanToken (c : Char) (rest : List Char) :
    (scanToken c rest).2.length ≤ rest.length := by
  unfold scanToken
  split
  · exact length_dropWhile_le isSpace rest
  split
  · exact length_scanQuoted c rest
  split
  · rename_i starts
    exact Nat.le_of_lt_succ (length_scanNumber_lt starts)
  split
  · simp
  split
  · rename_i starts
    exact length_scanIdentLike_of_startsIdent starts
  split
  · exact Nat.le_trans (length_scanComment _) (by simp)
  split
  · simp
  split
  case h_1 => exact length_scanHash rest
  case h_16 =>
    split
    · exact length_scanName rest
    · simp
  all_goals first | exact length_scanMatch _ _ rest | simp

/-- A token with the characters it was read from and the place where they start. -/
structure Lexeme where
  token : Token
  text : List Char
  start : Text.Position
deriving DecidableEq

/-- The lexemes of a text that starts at `place`, and the place where it ends. -/
def lexemesFrom (place : Position) : List Char → List Lexeme × Position
  | [] => ([], place)
  | c :: rest =>
    let scan := scanToken c rest
    let text := c :: rest.take (rest.length - scan.2.length)
    let (lexemes, ending) := lexemesFrom (place.after text) scan.2
    (⟨scan.1, text, place⟩ :: lexemes, ending)
termination_by chars => chars.length
decreasing_by exact Nat.lt_succ_of_le (length_scanToken c rest)

end StyleBlock.Css
