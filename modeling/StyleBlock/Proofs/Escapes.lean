import Mathlib
import StyleBlock.Css.Cursor
import StyleBlock.Css.Escape

/-!
Names and strings that are written with escapes read back as they were, whatever characters they
hold, as long as the text that follows does not go on with the name.
-/

namespace StyleBlock.Css

/-- What holds of all ASCII characters, and of all others. -/
@[elab_as_elim]
theorem ascii_or_beyond {Holds : Char → Prop} (ascii : ∀ code < 128, Holds (Char.ofNat code))
    (beyond : ∀ c : Char, 128 ≤ c.toNat → Holds c) (c : Char) : Holds c := by
  by_cases small : c.toNat < 128
  · rw [← Char.ofNat_toNat c]
    exact ascii c.toNat small
  · exact beyond c (Nat.le_of_not_lt small)

/-! Escapes -/

theorem hexDigits_eq {code : Nat} (small : code < 256) :
    Text.hexDigits code =
      if code < 16 then [code.digitChar] else [(code / 16).digitChar, (code % 16).digitChar] := by
  revert code
  decide +kernel

theorem hexValue?_digitChar {digit : Nat} (small : digit < 16) :
    hexValue? digit.digitChar = some digit := by
  revert digit
  decide

theorem scanHex_digitChar {digit : Nat} (small : digit < 16) (code count : Nat)
    (rest : List Char) :
    scanHex code (count + 1) (digit.digitChar :: rest) =
      scanHex (code * 16 + digit) count rest := by
  rw [scanHex, hexValue?_digitChar small]

theorem scanHex_space (code count : Nat) (rest : List Char) :
    scanHex code (count + 1) (' ' :: rest) = (code, ' ' :: rest) := by
  rw [scanHex]
  rfl

theorem scanHex_hexDigits {code : Nat} (small : code < 256) (rest : List Char) :
    scanHex 0 6 (Text.hexDigits code ++ ' ' :: rest) = (code, ' ' :: rest) := by
  rw [hexDigits_eq small]
  split
  · rename_i single
    rw [List.cons_append, scanHex_digitChar single, List.nil_append, scanHex_space]
    simp
  · rw [List.cons_append, scanHex_digitChar (by omega), List.cons_append,
      scanHex_digitChar (by omega), List.nil_append, scanHex_space]
    congr 1
    omega

theorem exists_hexDigits {code : Nat} (small : code < 256) :
    ∃ first others, Text.hexDigits code = first :: others ∧ (hexValue? first).isSome = true ∧
      Text.isLineEnd first = false := by
  have digit : ∀ digit < 16, (hexValue? digit.digitChar).isSome = true ∧
      Text.isLineEnd digit.digitChar = false := by decide
  rw [hexDigits_eq small]
  split
  · rename_i single
    exact ⟨_, _, rfl, digit code single⟩
  · exact ⟨_, _, rfl, digit (code / 16) (by omega)⟩

theorem charOfCode_toNat {c : Char} (visible : c.toNat ≠ 0) (small : c.toNat < 256) :
    charOfCode c.toNat = c := by
  unfold charOfCode
  have inside : ¬ ((0xd800 ≤ c.toNat ∧ c.toNat ≤ 0xdfff)) := by omega
  have below : ¬ 0x10ffff < c.toNat := by omega
  simp [visible, inside, below, Char.ofNat_toNat]

/-- A hexadecimal escape is the character that it was written for. -/
theorem scanEscape_hexEscape {c : Char} (visible : c.toNat ≠ 0) (small : c.toNat < 256)
    (rest : List Char) :
    scanEscape (Text.hexDigits c.toNat ++ ' ' :: rest) = (c, rest) := by
  have code := scanHex_hexDigits small rest
  have char := charOfCode_toNat visible small
  obtain ⟨first, others, digits, isHex, _⟩ := exists_hexDigits small
  rw [digits, List.cons_append] at code ⊢
  rw [scanEscape, if_pos isHex]
  simp only [code, char]
  rfl

theorem hexValue?_eq_none {c : Char} (special : isNamePart c = false) : hexValue? c = none := by
  revert special
  induction c using ascii_or_beyond with
  | ascii code small =>
    revert code
    decide +kernel
  | beyond c beyond => simp [isNamePart, isNameStart, beyond]

/-- A character that has no meaning of its own after a backslash. -/
theorem scanEscape_special {c : Char} (visible : c ≠ '\x00') (special : isNamePart c = false)
    (rest : List Char) : scanEscape (c :: rest) = (c, rest) := by
  rw [scanEscape, hexValue?_eq_none special]
  simp [clean, visible]

/-! Names -/

/-- Whether a name ends where a text begins: neither a part of a name comes next, nor an escape, nor
what would turn the name into a function or a markup comment. -/
def EndsName (rest : List Char) : Prop :=
  ∀ c ∈ rest.head?, isNamePart c = false ∧ c ≠ '\\' ∧ c ≠ '(' ∧ c ≠ '>'

theorem endsName_of_listed {listed rest : List Char}
    (ends : listed.all fun c => !isNamePart c && c != '\\' && c != '(' && c != '>')
    (head : ∀ c ∈ rest.head?, c ∈ listed) : EndsName rest := by
  intro c member
  simpa [and_assoc] using List.all_eq_true.mp ends c (head c member)

theorem scanName_part {c : Char} (visible : c ≠ '\x00') (part : isNamePart c = true)
    (rest : List Char) : scanName (c :: rest) = (c :: (scanName rest).1, (scanName rest).2) := by
  have plain : c ≠ '\\' := by
    rintro rfl
    exact absurd part (by decide)
  rw [scanName]
  simp [plain, part, clean, visible]

theorem scanName_escape {c first : Char} {escape rest : List Char}
    (reads : scanEscape (first :: escape) = (c, rest)) (inLine : Text.isLineEnd first = false) :
    scanName ('\\' :: first :: escape) = (c :: (scanName rest).1, (scanName rest).2) := by
  rw [scanName]
  simp [reads, atLineEnd, inLine]

theorem isLineEnd_of_not_control {c : Char} (printed : isControl c = false) :
    Text.isLineEnd c = false := by
  revert printed
  induction c using ascii_or_beyond with
  | ascii code small =>
    revert code
    decide +kernel
  | beyond c beyond =>
    intro _
    simp only [Text.isLineEnd, Bool.or_eq_false_iff, decide_eq_false_iff_not]
    refine ⟨⟨?_, ?_⟩, ?_⟩ <;> rintro rfl <;> exact absurd beyond (by decide)

theorem toNat_lt_of_isControl {c : Char} (control : isControl c = true) : c.toNat < 256 := by
  simp only [isControl, Bool.or_eq_true, decide_eq_true_eq] at control
  omega

theorem toNat_lt_of_isDigit {c : Char} (digit : isDigit c = true) : c.toNat < 256 := by
  simp only [isDigit, Bool.and_eq_true, decide_eq_true_eq] at digit
  exact Nat.lt_of_le_of_lt digit.2 (by decide)

theorem scanName_hexEscape {c : Char} (visible : c ≠ '\x00') (small : c.toNat < 256)
    (rest : List Char) :
    scanName (hexEscape c ++ rest) = (c :: (scanName rest).1, (scanName rest).2) := by
  have code : c.toNat ≠ 0 := fun zero => visible (Char.toNat_inj.mp zero)
  have reads := scanEscape_hexEscape code small rest
  obtain ⟨first, others, digits, _, inLine⟩ := exists_hexDigits small
  rw [digits] at reads
  rw [hexEscape, digits]
  simpa using scanName_escape (by simpa using reads) inLine

theorem scanName_writeNameChar {c : Char} (visible : c ≠ '\x00') (rest : List Char) :
    scanName (writeNameChar c ++ rest) = (c :: (scanName rest).1, (scanName rest).2) := by
  unfold writeNameChar
  rw [if_neg visible]
  split
  · exact scanName_part visible ‹_› rest
  rename_i special
  split
  · exact scanName_hexEscape visible (toNat_lt_of_isControl ‹_›) rest
  · rename_i printed
    refine scanName_escape (scanEscape_special visible (by simpa using special) rest) ?_
    exact isLineEnd_of_not_control (by simpa using printed)

theorem scanName_ends {rest : List Char} (ends : EndsName rest) : scanName rest = ([], rest) := by
  cases rest with
  | nil => rw [scanName]
  | cons c rest =>
    obtain ⟨stop, plain, _⟩ := ends c rfl
    rw [scanName]
    simp [stop, plain]

theorem scanName_writeName {name rest : List Char} (visible : '\x00' ∉ name)
    (ends : EndsName rest) : scanName (writeName name ++ rest) = (name, rest) := by
  induction name with
  | nil => exact scanName_ends ends
  | cons c name ih =>
    rw [List.mem_cons, not_or] at visible
    rw [writeName, List.flatMap_cons, List.append_assoc,
      scanName_writeNameChar (Ne.symm visible.1), ← writeName, ih visible.2]

theorem scanName_writeNameStart {name rest : List Char} (visible : '\x00' ∉ name)
    (ends : EndsName rest) : scanName (writeNameStart name ++ rest) = (name, rest) := by
  cases name with
  | nil => exact scanName_ends ends
  | cons c name =>
    rw [writeNameStart]
    split
    · rename_i digit
      rw [List.mem_cons, not_or] at visible
      rw [List.append_assoc, scanName_hexEscape (Ne.symm visible.1) (toNat_lt_of_isDigit digit),
        scanName_writeName visible.2 ends]
    · exact scanName_writeName visible ends

/-- A name reads back as it was, whatever is escaped in it. -/
theorem scanName_writeIdent {name rest : List Char} (visible : '\x00' ∉ name)
    (ends : EndsName rest) : scanName (writeIdent name ++ rest) = (name, rest) := by
  have hyphen :
      ∀ chars, scanName ('-' :: chars) = ('-' :: (scanName chars).1, (scanName chars).2) :=
    scanName_part (by decide) (by decide)
  unfold writeIdent
  split
  · rename_i later
    have hidden : '\x00' ∉ later := fun member => visible (by simp [member])
    rw [List.cons_append, hyphen, List.cons_append, hyphen, scanName_writeName hidden ends]
  · rw [List.cons_append, List.cons_append, List.nil_append,
      scanName_escape (show scanEscape ('-' :: rest) = ('-', rest) from rfl) (by decide),
      scanName_ends ends]
  · rename_i later _ _
    have hidden : '\x00' ∉ later := fun member => visible (by simp [member])
    rw [List.cons_append, hyphen, scanName_writeNameStart hidden ends]
  · exact scanName_writeNameStart visible ends

/-! Where identifiers start -/

theorem starts_writeNameChar {c : Char} (start : isDigit c = false) (apart : c ≠ '-')
    (rest : List Char) :
    ∃ first others, writeNameChar c ++ rest = first :: others ∧
      (isNameStart first = true ∨ first = '\\' ∧ atLineEnd others = false) := by
  unfold writeNameChar
  split
  · exact ⟨_, _, rfl, .inl (by decide)⟩
  split
  · rename_i part
    refine ⟨c, rest, rfl, .inl ?_⟩
    simpa [isNamePart, start, apart] using part
  split
  · rename_i control
    obtain ⟨first, others, digits, _, inLine⟩ := exists_hexDigits (toNat_lt_of_isControl control)
    exact ⟨_, _, rfl, .inr ⟨rfl, by rw [digits]; exact inLine⟩⟩
  · rename_i printed
    exact ⟨_, _, rfl, .inr ⟨rfl, isLineEnd_of_not_control (by simpa using printed)⟩⟩

theorem starts_writeNameStart {c : Char} (apart : c ≠ '-') (name rest : List Char) :
    ∃ first others, writeNameStart (c :: name) ++ rest = first :: others ∧
      (isNameStart first = true ∨ first = '\\' ∧ atLineEnd others = false) := by
  rw [writeNameStart]
  split
  · rename_i digit
    obtain ⟨first, others, digits, _, inLine⟩ := exists_hexDigits (toNat_lt_of_isDigit digit)
    exact ⟨_, _, rfl, .inr ⟨rfl, by rw [digits]; exact inLine⟩⟩
  · rename_i start
    rw [writeName, List.flatMap_cons, List.append_assoc]
    exact starts_writeNameChar (by simpa using start) apart _

theorem startsIdent_of_start {first : Char} {others : List Char}
    (start : isNameStart first = true ∨ first = '\\' ∧ atLineEnd others = false) :
    startsIdent (first :: others) = true := by
  rcases start with start | ⟨rfl, inLine⟩
  · unfold startsIdent
    split
    · rename_i same
      cases same
      exact absurd start (by decide)
    · rename_i same
      cases same
      exact absurd start (by decide)
    · rename_i same
      cases same
      exact start
    · rename_i same
      cases same
  · simp [startsIdent, inLine]

/-- A name that is written starts like an identifier. -/
theorem startsIdent_writeIdent {name : List Char} (filled : name ≠ []) (rest : List Char) :
    startsIdent (writeIdent name ++ rest) = true := by
  unfold writeIdent
  split
  · rfl
  · rfl
  · rename_i later twice lone
    cases later with
    | nil => exact absurd rfl lone
    | cons c later =>
      have apart : c ≠ '-' := fun same => twice later (by rw [same])
      obtain ⟨first, others, same, start⟩ := starts_writeNameStart apart later rest
      rw [List.cons_append, same, startsIdent]
      rcases start with start | ⟨rfl, _⟩
      · simp [start]
      · decide
  · rename_i hyphen twice once
    cases name with
    | nil => exact absurd rfl filled
    | cons c later =>
      have apart : c ≠ '-' := fun same => once later (by rw [same])
      obtain ⟨first, others, same, start⟩ := starts_writeNameStart apart later rest
      rw [same]
      exact startsIdent_of_start start

theorem head_of_startsIdent {c : Char} {rest : List Char}
    (starts : startsIdent (c :: rest) = true) :
    isNameStart c = true ∨ c = '-' ∨ c = '\\' := by
  unfold startsIdent at starts
  split at starts
  · rename_i same
    cases same
    exact .inr (.inl rfl)
  · rename_i same
    cases same
    exact .inr (.inr rfl)
  · rename_i same
    cases same
    exact .inl starts
  · cases starts

/-- What the first character of an identifier is not, nor the one after a hyphen in front. -/
theorem not_of_head {c : Char} (head : isNameStart c = true ∨ c = '-' ∨ c = '\\') :
    isSpace c = false ∧ isDigit c = false ∧ c ∉ ['\x22', '\x27', '.', '+', '=', '|', ')'] := by
  revert head
  induction c using ascii_or_beyond with
  | ascii code small =>
    revert code
    decide +kernel
  | beyond c beyond =>
    intro _
    have apart : ∀ d : Char, d.toNat < 128 → c ≠ d := by
      rintro d small rfl
      exact absurd beyond (Nat.not_le_of_lt small)
    have digit : ¬ c ≤ '9' := fun low => absurd beyond (Nat.not_le_of_lt (Nat.lt_of_le_of_lt low
      (by decide)))
    refine ⟨?_, by simp [isDigit, digit], ?_⟩
    · simp [isSpace, Text.isLineEnd, apart]
    · simp [apart]

theorem atDigit_of_startsIdent {chars : List Char} (starts : startsIdent chars = true) :
    atDigit chars = false := by
  cases chars with
  | nil => rfl
  | cons c rest => exact (not_of_head (head_of_startsIdent starts)).2.1

theorem exists_scanSign {chars : List Char} (starts : startsIdent chars = true) :
    ∃ c others, (scanSign chars).2 = c :: others ∧ (isNameStart c = true ∨ c = '-' ∨ c = '\\') := by
  cases chars with
  | nil => cases starts
  | cons c rest =>
    have head := head_of_startsIdent starts
    by_cases hyphen : c = '-'
    · subst hyphen
      cases rest with
      | nil => exact absurd starts (by decide)
      | cons next rest =>
        refine ⟨next, rest, rfl, ?_⟩
        simpa [startsIdent, or_assoc] using starts
    · have apart : c ≠ '+' := by
        rintro rfl
        exact absurd head (by decide)
      refine ⟨c, rest, ?_, head⟩
      unfold scanSign
      split
      · rename_i same
        exact absurd (List.cons.inj same).1 apart
      · rename_i same
        exact absurd (List.cons.inj same).1 hyphen
      · rfl

theorem startsNumeral_of_startsIdent {chars : List Char} (starts : startsIdent chars = true) :
    startsNumeral chars = false := by
  obtain ⟨c, others, same, head⟩ := exists_scanSign starts
  obtain ⟨_, digit, point⟩ := not_of_head head
  unfold startsNumeral
  rw [same]
  split
  · rename_i isPoint
    rw [(List.cons.inj isPoint).1] at point
    simp at point
  · exact digit

/-! Names without escapes -/

theorem writeName_eq_self {name : List Char}
    (parts : ∀ c ∈ name, isNamePart c = true ∧ c ≠ '\x00') :
    writeName name = name := by
  induction name with
  | nil => rfl
  | cons c name ih =>
    obtain ⟨part, visible⟩ := parts c (List.mem_cons_self ..)
    rw [writeName, List.flatMap_cons, ← writeName,
      ih fun d member => parts d (List.mem_cons_of_mem c member)]
    simp [writeNameChar, part, visible]

theorem writeNameStart_eq_self {name : List Char} (start : atDigit name = false)
    (parts : ∀ c ∈ name, isNamePart c = true ∧ c ≠ '\x00') : writeNameStart name = name := by
  cases name with
  | nil => rfl
  | cons c name =>
    rw [writeNameStart, if_neg (by simpa [atDigit] using start), writeName_eq_self parts]

/-- A name that reads as it is needs no escapes. -/
theorem writeIdent_eq_self {name : List Char} (starts : startsIdent name = true)
    (parts : ∀ c ∈ name, isNamePart c = true ∧ c ≠ '\x00') : writeIdent name = name := by
  unfold writeIdent
  split
  · rw [writeName_eq_self fun c member => parts c (by simp [member])]
  · cases starts
  · rename_i later _ _
    obtain ⟨c, others, same, head⟩ := exists_scanSign starts
    have same : later = c :: others := same
    have start : atDigit later = false := by
      rw [same]
      exact (not_of_head head).2.1
    rw [writeNameStart_eq_self start fun c member => parts c (by simp [member])]
  · exact writeNameStart_eq_self (atDigit_of_startsIdent starts) parts

/-! Tokens -/

/-- A lexeme as it is wherever it stands. -/
def Lexeme.unplaced (lexeme : Lexeme) : Lexeme := { lexeme with start := .start }

/-- The lexemes of a text, without their places. -/
def pieces (chars : List Char) : List Lexeme :=
  (lexemesFrom .start chars).1.map Lexeme.unplaced

/-- The tokens of a text. -/
def tokens (chars : List Char) : List Token :=
  (lexemesFrom .start chars).1.map Lexeme.token

/-- Where a text stands does not change its lexemes. -/
theorem unplaced_lexemesFrom (place : Text.Position) (chars : List Char) :
    (lexemesFrom place chars).1.map Lexeme.unplaced = pieces chars := by
  have anywhere : ∀ (size : Nat) (chars : List Char), chars.length = size → ∀ first second,
      (lexemesFrom first chars).1.map Lexeme.unplaced =
        (lexemesFrom second chars).1.map Lexeme.unplaced := by
    intro size
    induction size using Nat.strongRecOn with
    | ind size ih =>
      intro chars same first second
      cases chars with
      | nil => rw [lexemesFrom, lexemesFrom]
      | cons c rest =>
        have shorter := length_scanToken c rest
        have later := ih (scanToken c rest).2.length (by rw [← same, List.length_cons]; omega) _ rfl
        rw [lexemesFrom, lexemesFrom]
        simp only [List.map_cons]
        rw [later]
        rfl
  exact anywhere chars.length chars rfl place .start

theorem map_token_unplaced (lexemes : List Lexeme) :
    (lexemes.map Lexeme.unplaced).map Lexeme.token = lexemes.map Lexeme.token :=
  List.map_map

theorem map_token_pieces (chars : List Char) : (pieces chars).map Lexeme.token = tokens chars :=
  map_token_unplaced _

theorem token_lexemesFrom (place : Text.Position) (chars : List Char) :
    (lexemesFrom place chars).1.map Lexeme.token = tokens chars := by
  rw [← map_token_unplaced, unplaced_lexemesFrom, map_token_pieces]

@[simp] theorem tokens_nil : tokens [] = [] := by
  rw [tokens, lexemesFrom]
  rfl

theorem tokens_cons (c : Char) (rest : List Char) :
    tokens (c :: rest) = (scanToken c rest).1 :: tokens (scanToken c rest).2 := by
  rw [tokens, lexemesFrom]
  simp only [List.map_cons, token_lexemesFrom]

theorem tokens_of_scanToken {c : Char} {rest after : List Char} {token : Token}
    (scan : scanToken c rest = (token, after)) : tokens (c :: rest) = token :: tokens after := by
  rw [tokens_cons, scan]

theorem tokens_colon (rest : List Char) : tokens (':' :: rest) = .colon :: tokens rest :=
  tokens_of_scanToken rfl

theorem tokens_comma (rest : List Char) : tokens (',' :: rest) = .comma :: tokens rest :=
  tokens_of_scanToken rfl

theorem tokens_star {rest : List Char} (apart : rest.head? ≠ some '=') :
    tokens ('*' :: rest) = .delim '*' :: tokens rest := by
  refine tokens_of_scanToken ?_
  have scan : scanToken '*' rest = scanMatch '*' .substringMatch rest := rfl
  rw [scan]
  unfold scanMatch
  split
  · exact absurd rfl apart
  · rfl

theorem tokens_openingSquare (rest : List Char) :
    tokens ('[' :: rest) = .opening .square :: tokens rest :=
  tokens_of_scanToken rfl

/-- A blank in front of anything but a blank is a token of its own. -/
theorem tokens_blank {chars : List Char} (solid : ∀ c ∈ chars.head?, isSpace c = false) :
    tokens (' ' :: chars) = .blank :: tokens chars := by
  refine tokens_of_scanToken ?_
  have scan : scanToken ' ' chars = (.blank, chars.dropWhile isSpace) := rfl
  cases chars with
  | nil => exact scan
  | cons c rest => rw [scan, List.dropWhile_cons_of_neg (by simp [solid c rfl])]

theorem scanToken_of_startsIdent {c : Char} {rest : List Char}
    (starts : startsIdent (c :: rest) = true)
    (noMarkup : (['-', '-', '>'] : List Char).isPrefixOf (c :: rest) = false) :
    scanToken c rest = scanIdentLike (c :: rest) := by
  obtain ⟨space, _, others⟩ := not_of_head (head_of_startsIdent starts)
  have quote : ¬ (c = '\x22' ∨ c = '\x27') := by
    rintro (rfl | rfl) <;> simp at others
  unfold scanToken
  rw [if_neg (by simp [space]), if_neg (by simpa using quote),
    if_neg (by simp [startsNumeral_of_startsIdent starts]), if_neg (by simp [noMarkup]),
      if_pos starts]

/-- A name that is written is one token. -/
theorem tokens_writeIdent {name rest : List Char} (filled : name ≠ []) (visible : '\x00' ∉ name)
    (ends : EndsName rest) :
    tokens (writeIdent name ++ rest) = .ident (String.ofList name) :: tokens rest := by
  have starts := startsIdent_writeIdent filled rest
  have scan := scanName_writeIdent visible ends
  generalize writeIdent name ++ rest = chars at starts scan
  cases chars with
  | nil => cases starts
  | cons c later =>
    have noMarkup : (['-', '-', '>'] : List Char).isPrefixOf (c :: later) = false := by
      rw [Bool.eq_false_iff]
      intro isMarkup
      obtain ⟨after, same⟩ := List.isPrefixOf_iff_prefix.mp isMarkup
      have stops : scanName ('>' :: after) = ([], '>' :: after) := by
        rw [scanName]
        rfl
      have hyphens : scanName ('-' :: '-' :: '>' :: after) = (['-', '-'], '>' :: after) := by
        rw [scanName_part (by decide) (by decide), scanName_part (by decide) (by decide), stops]
      rw [← same] at scan
      have isRest : '>' :: after = rest := congrArg Prod.snd (hyphens.symm.trans scan)
      exact absurd rfl (ends '>' (by rw [← isRest]; rfl)).2.2.2
    refine tokens_of_scanToken ?_
    rw [scanToken_of_startsIdent starts noMarkup, scanIdentLike, scan]
    dsimp only
    split
    · exact absurd rfl (ends '(' rfl).2.2.1
    · rfl

/-- A hash whose name is written is one token. -/
theorem tokens_hash {name rest : List Char} (filled : name ≠ []) (visible : '\x00' ∉ name)
    (ends : EndsName rest) :
    tokens ('#' :: (writeIdent name ++ rest)) = .idHash (String.ofList name) :: tokens rest := by
  have starts := startsIdent_writeIdent filled rest
  refine tokens_of_scanToken ?_
  have scan : scanToken '#' (writeIdent name ++ rest) = scanHash (writeIdent name ++ rest) := rfl
  rw [scan, scanHash, if_pos starts, scanName_writeIdent visible ends]

/-- A point in front of a name is a token of its own. -/
theorem tokens_point {chars : List Char} (starts : startsIdent chars = true) :
    tokens ('.' :: chars) = .delim '.' :: tokens chars := by
  refine tokens_of_scanToken ?_
  have noNumeral : startsNumeral ('.' :: chars) = false := atDigit_of_startsIdent starts
  unfold scanToken
  rw [noNumeral]
  rfl

/-! Strings -/

theorem scanString_escape {c first : Char} {escape rest : List Char}
    (reads : scanEscape (first :: escape) = (c, rest)) (inLine : Text.isLineEnd first = false) :
    scanString '\x22' ('\\' :: first :: escape) = (scanString '\x22' rest).cons c := by
  have backslash : Text.isLineEnd '\\' = false := by decide
  rw [scanString]
  simp [reads, atLineEnd, inLine, backslash]

theorem scanString_writeStringChar {c : Char} (visible : c ≠ '\x00') (rest : List Char) :
    scanString '\x22' (writeStringChar c ++ rest) = (scanString '\x22' rest).cons c := by
  unfold writeStringChar
  split
  · rename_i special
    have isSpecial : c = '\x22' ∨ c = '\\' := by simpa using special
    refine scanString_escape ?_ ?_
    · rcases isSpecial with rfl | rfl <;> rfl
    · rcases isSpecial with rfl | rfl <;> rfl
  rename_i plain
  split
  · rename_i control
    have small := toNat_lt_of_isControl control
    have code : c.toNat ≠ 0 := fun zero => visible (Char.toNat_inj.mp zero)
    have reads := scanEscape_hexEscape code small rest
    obtain ⟨first, others, digits, _, inLine⟩ := exists_hexDigits small
    rw [digits] at reads
    rw [hexEscape, digits]
    simpa using scanString_escape (by simpa using reads) inLine
  · rename_i printed
    have inLine := isLineEnd_of_not_control ((Bool.not_eq_true _).mp printed)
    have apart : c ≠ '\x22' ∧ c ≠ '\\' := by simpa using plain
    rw [List.cons_append, List.nil_append, scanString]
    simp [apart, inLine, clean, visible]

/-- A string reads back as it was. -/
theorem scanString_writeString {text : List Char} (visible : '\x00' ∉ text) (rest : List Char) :
    scanString '\x22' (text.flatMap writeStringChar ++ '\x22' :: rest) = ⟨true, text, rest⟩ := by
  induction text with
  | nil =>
    rw [List.flatMap_nil, List.nil_append, scanString]
    rfl
  | cons c text ih =>
    rw [List.mem_cons, not_or] at visible
    rw [List.flatMap_cons, List.append_assoc, scanString_writeStringChar (Ne.symm visible.1),
      ih visible.2]
    rfl

/-- A string that is written is one token. -/
theorem tokens_writeString {text : List Char} (visible : '\x00' ∉ text) (rest : List Char) :
    tokens (writeString text ++ rest) = .quoted (String.ofList text) :: tokens rest := by
  rw [writeString, List.cons_append, List.append_assoc]
  refine tokens_of_scanToken ?_
  have scan := scanString_writeString visible rest
  unfold scanToken
  rw [if_neg (by decide), if_pos (by decide), scanQuoted]
  simp only [List.cons_append, List.nil_append, scan]
  rfl

end StyleBlock.Css
