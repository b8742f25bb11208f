/-!
Blanks, and the ways a text is cut at them. A blank is any character with the White_Space
property, so a no-break space or an ideographic space is one too.
-/

namespace StyleBlock.Text

/-- A character with the White_Space property. -/
def isBlank (c : Char) : Bool :=
  (0x9 ≤ c.toNat && c.toNat ≤ 0xd) || (0x2000 ≤ c.toNat && c.toNat ≤ 0x200a) ||
    [0x20, 0x85, 0xa0, 0x1680, 0x2028, 0x2029, 0x202f, 0x205f, 0x3000].contains c.toNat

/-- The characters without the blanks at their end. -/
def dropBlankEnd (chars : List Char) : List Char :=
  (chars.reverse.dropWhile isBlank).reverse

/-- The characters without the blanks at both ends. -/
def trimChars (chars : List Char) : List Char :=
  dropBlankEnd (chars.dropWhile isBlank)

/-- The text without the blanks at both ends. -/
def trim (text : String) : String :=
  String.ofList (trimChars text.toList)

/-- The maximal runs without a blank, where `word` holds the current run backwards. -/
def wordsFrom (word : List Char) : List Char → List (List Char)
  | [] => if word.isEmpty then [] else [word.reverse]
  | c :: rest =>
    if isBlank c then
      if word.isEmpty then wordsFrom [] rest else word.reverse :: wordsFrom [] rest
    else wordsFrom (c :: word) rest

/-- The words of a text: its maximal runs without a blank. -/
def words (text : String) : List String :=
  (wordsFrom [] text.toList).map String.ofList

/-- The pieces between the separators, one more than there are separators. -/
def splitChars (separator : Char) : List Char → List (List Char)
  | [] => [[]]
  | c :: rest =>
    if c = separator then [] :: splitChars separator rest
    else
      match splitChars separator rest with
      | [] => [[c]]
      | piece :: pieces => (c :: piece) :: pieces

/-- The pieces of a text between the separators. -/
def split (separator : Char) (text : String) : List String :=
  (splitChars separator text.toList).map String.ofList

/-- A line without the carriage return in front of its line feed. -/
def dropReturn (chars : List Char) : List Char :=
  if chars.getLast? = some '\r' then chars.dropLast else chars

/-- The lines of a text. A carriage return in front of a line feed belongs to the end of the line,
and after the last line feed there is only a line if it has a character. -/
def lines (text : String) : List String :=
  let pieces := splitChars '\n' text.toList
  let ended := pieces.dropLast.map dropReturn
  let last := (pieces.drop ended.length).filter fun piece => piece ≠ []
  (ended ++ last).map String.ofList

/-- The text in lower case, as far as it is ASCII. -/
def lower (text : String) : String :=
  String.ofList (text.toList.map Char.toLower)

/-- Whether two texts differ at most in the case of ASCII letters. -/
def sameIgnoringCase (left right : String) : Bool :=
  lower left == lower right

/-- What follows `lead` in a list that begins with it. -/
def afterLead? [DecidableEq α] : List α → List α → Option (List α)
  | [], chars => some chars
  | _ :: _, [] => none
  | a :: lead, c :: chars => if a = c then afterLead? lead chars else none

/-- The text before and after the first occurrence of a non-empty pattern. -/
def cutAt? (pattern : List Char) : List Char → Option (List Char × List Char)
  | [] => (afterLead? pattern []).map fun rest => ([], rest)
  | c :: chars =>
    match afterLead? pattern (c :: chars) with
    | some rest => some ([], rest)
    | none => (cutAt? pattern chars).map fun (before, after) => (c :: before, after)

/-- Whether `pattern` occurs in the text. -/
def occursIn (pattern text : String) : Bool :=
  (cutAt? pattern.toList text.toList).isSome

end StyleBlock.Text
