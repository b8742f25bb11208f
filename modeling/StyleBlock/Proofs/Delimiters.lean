import StyleBlock.Proofs.Remainders

/-!
Delimiters. A semicolon or an opening brace that is a token of its own ends the token before it, so
whatever stands behind it does not change the lexemes in front of it.
-/

namespace StyleBlock.Css

theorem tail_append (more : List Char) {c : Char} {chars : List Char}
    (filled : chars.head? = some c) :
    (chars ++ more).tail = chars.tail ++ more := by
  cases chars with
  | nil => cases filled
  | cons first rest => rfl

theorem scanNumber_eq (chars : List Char) :
    scanNumber chars =
      if (scanNumeral chars).2.head? = some '%' then
        (.percentage (scanNumeral chars).1, (scanNumeral chars).2.tail)
      else if startsIdent (scanNumeral chars).2 then
        (.dimension (scanNumeral chars).1 (String.ofList (scanName (scanNumeral chars).2).1),
          (scanName (scanNumeral chars).2).2)
      else (.number (scanNumeral chars).1, (scanNumeral chars).2) := by
  unfold scanNumber
  dsimp only
  rcases (scanNumeral chars).2 with _ | ⟨c, rest⟩
  · rfl
  · by_cases isPercent : c = '%'
    · subst isPercent
      rfl
    · simp [isPercent]

/-- The characters that end items. -/
def IsDelimiter (c : Char) : Prop := c = ';' ∨ c = '\x7b'

section Delimiter

variable {x : Char} (delimiter : IsDelimiter x) (more : List Char)
include delimiter

theorem isNamePart_delimiter : isNamePart x = false := by
  rcases delimiter with rfl | rfl <;> decide

theorem isNameStart_delimiter : isNameStart x = false := by
  rcases delimiter with rfl | rfl <;> decide

theorem isSpace_delimiter : isSpace x = false := by
  rcases delimiter with rfl | rfl <;> decide

theorem isDigit_delimiter : isDigit x = false := by
  rcases delimiter with rfl | rfl <;> decide

theorem hexValue?_delimiter : hexValue? x = none := by
  rcases delimiter with rfl | rfl <;> decide

theorem isLineEnd_delimiter : Text.isLineEnd x = false := by
  rcases delimiter with rfl | rfl <;> decide

theorem breaksUrl_delimiter : breaksUrl x = false := by
  rcases delimiter with rfl | rfl <;> decide

theorem delimiter_ne {c : Char} (other : c ∉ [';', '\x7b']) : x ≠ c := by
  rintro rfl
  exact other (by simpa [IsDelimiter] using delimiter)

theorem dropWhile_isSpace_append (chars : List Char) :
    (chars ++ x :: more).dropWhile isSpace = chars.dropWhile isSpace ++ x :: more := by
  induction chars with
  | nil => exact List.dropWhile_cons_of_neg (by simp [isSpace_delimiter delimiter])
  | cons c chars ih =>
    rw [List.cons_append, List.dropWhile_cons, List.dropWhile_cons]
    split
    · exact ih
    · rfl

theorem atLineEnd_append (chars : List Char) :
    atLineEnd (chars ++ x :: more) = atLineEnd chars := by
  cases chars with
  | nil => exact isLineEnd_delimiter delimiter
  | cons c chars => rfl

theorem atDigit_append (chars : List Char) : atDigit (chars ++ x :: more) = atDigit chars := by
  cases chars with
  | nil => exact isDigit_delimiter delimiter
  | cons c chars => rfl

theorem dropLineEnd_append {chars : List Char} (filled : chars ≠ []) :
    dropLineEnd (chars ++ x :: more) = dropLineEnd chars ++ x :: more := by
  rcases chars with _ | ⟨first, _ | ⟨second, chars⟩⟩
  · exact absurd rfl filled
  · have apart : x ≠ '\n' := delimiter_ne delimiter (by decide)
    unfold dropLineEnd
    split <;> simp_all
  · by_cases both : first = '\r' ∧ second = '\n'
    · obtain ⟨rfl, rfl⟩ := both
      rfl
    · unfold dropLineEnd
      split <;> simp_all

theorem dropOneSpace_append (chars : List Char) :
    dropOneSpace (chars ++ x :: more) = dropOneSpace chars ++ x :: more := by
  cases chars with
  | nil => simp [dropOneSpace, isSpace_delimiter delimiter]
  | cons c chars =>
    have dropped := dropLineEnd_append delimiter more (List.cons_ne_nil c chars)
    simp only [List.cons_append, dropOneSpace] at dropped ⊢
    split
    · exact dropped
    · rfl

theorem scanHex_append (code count : Nat) (chars : List Char) :
    scanHex code count (chars ++ x :: more) =
      ((scanHex code count chars).1, (scanHex code count chars).2 ++ x :: more) := by
  induction count generalizing code chars with
  | zero => rfl
  | succ count ih =>
    cases chars with
    | nil => simp [scanHex, hexValue?_delimiter delimiter]
    | cons c chars =>
      rw [List.cons_append, scanHex, scanHex]
      split
      · exact ih ..
      · rfl

theorem scanEscape_append {chars : List Char} (filled : chars ≠ []) :
    scanEscape (chars ++ x :: more) =
      ((scanEscape chars).1, (scanEscape chars).2 ++ x :: more) := by
  cases chars with
  | nil => exact absurd rfl filled
  | cons c chars =>
    have hex := scanHex_append delimiter more 0 6 (c :: chars)
    rw [List.cons_append] at hex ⊢
    rw [scanEscape, scanEscape]
    split
    · rw [hex]
      simp only [dropOneSpace_append delimiter]
    · rfl

theorem scanName_append {chars : List Char} (left : (scanName (chars ++ [x])).2 ≠ []) :
    scanName (chars ++ x :: more) = ((scanName chars).1, (scanName chars).2 ++ x :: more) := by
  have stops : ∀ more, scanName (x :: more) = ([], x :: more) := by
    intro more
    have apart : x ≠ '\\' := delimiter_ne delimiter (by decide)
    rw [scanName]
    simp [apart, isNamePart_delimiter delimiter]
  fun_induction scanName chars with
  | case1 => exact stops more
  | case2 rest atEnd =>
    rw [List.cons_append, scanName]
    simp [atLineEnd_append delimiter more rest, atEnd]
  | case3 rest inLine shorter name after same ih =>
    have inLine : atLineEnd rest = false := by simpa using inLine
    have escaped : ∀ more, scanName ('\\' :: (rest ++ x :: more)) =
        ((scanEscape (rest ++ x :: more)).1 :: (scanName (scanEscape (rest ++ x :: more)).2).1,
          (scanName (scanEscape (rest ++ x :: more)).2).2) := by
      intro more
      rw [scanName]
      simp [atLineEnd_append delimiter more rest, inLine]
    have filled : rest ≠ [] := by
      rintro rfl
      refine left ?_
      rw [List.cons_append, escaped]
      simp [scanEscape, hexValue?_delimiter delimiter, scanName]
    rw [List.cons_append, escaped, scanEscape_append delimiter [] filled] at left
    rw [List.cons_append, escaped, scanEscape_append delimiter more filled]
    simp only [ih left]
    rw [same]
  | case4 c rest plain part name after same ih =>
    have taken : ∀ more, scanName (c :: (rest ++ x :: more)) =
        (clean c :: (scanName (rest ++ x :: more)).1, (scanName (rest ++ x :: more)).2) := by
      intro more
      rw [scanName]
      simp [plain, part]
    rw [List.cons_append, taken] at left
    rw [List.cons_append, taken, ih left, same]
  | case5 c rest plain part =>
    rw [List.cons_append, scanName]
    simp [plain, part]

theorem scanString_append {quote : Char} (isQuote : quote = '\x22' ∨ quote = '\x27')
    {chars : List Char} (left : (scanString quote (chars ++ [x])).rest ≠ []) :
    scanString quote (chars ++ x :: more) =
      { scanString quote chars with rest := (scanString quote chars).rest ++ x :: more } := by
  have apart : x ≠ quote := by
    rcases isQuote with rfl | rfl <;> exact delimiter_ne delimiter (by decide)
  have inLine := isLineEnd_delimiter delimiter
  have plain : x ≠ '\\' := delimiter_ne delimiter (by decide)
  have taken : (scanString quote [x]).rest = [] := by
    rw [scanString]
    simp [apart, inLine, plain, scanString, StringScan.cons]
  fun_induction scanString quote chars with
  | case1 => exact absurd taken left
  | case2 rest =>
    rw [List.cons_append, scanString]
    simp
  | case3 c rest other ends =>
    rw [List.cons_append, scanString]
    simp [other, ends]
  | case4 rest empty noQuote noEnd =>
    obtain rfl : rest = [] := by simpa using empty
    refine absurd ?_ left
    rw [List.cons_append, scanString]
    simp [noQuote, noEnd, atLineEnd, inLine, scanEscape, hexValue?_delimiter delimiter, scanString,
      StringScan.cons]
  | case5 rest filled ends shorter noQuote noEnd ih =>
    have skipped : ∀ more, scanString quote ('\\' :: (rest ++ x :: more)) =
        scanString quote (dropLineEnd (rest ++ x :: more)) := by
      intro more
      rw [scanString]
      simp [noQuote, noEnd, atLineEnd_append delimiter more rest, ends]
    have filled : rest ≠ [] := by simpa using filled
    rw [List.cons_append, skipped, dropLineEnd_append delimiter [] filled] at left
    rw [List.cons_append, skipped, dropLineEnd_append delimiter more filled, ih left]
  | case6 rest filled inside shorter noQuote noEnd ih =>
    have inside : atLineEnd rest = false := by simpa using inside
    have escaped : ∀ more, scanString quote ('\\' :: (rest ++ x :: more)) =
        (scanString quote (scanEscape (rest ++ x :: more)).2).cons
          (scanEscape (rest ++ x :: more)).1 := by
      intro more
      rw [scanString]
      simp [noQuote, noEnd, atLineEnd_append delimiter more rest, inside]
    have filled : rest ≠ [] := by simpa using filled
    rw [List.cons_append, escaped, scanEscape_append delimiter [] filled] at left
    rw [List.cons_append, escaped, scanEscape_append delimiter more filled]
    dsimp only
    rw [ih left]
    rfl
  | case7 c rest noQuote noEnd plain ih =>
    have taken : ∀ more, scanString quote (c :: (rest ++ x :: more)) =
        (scanString quote (rest ++ x :: more)).cons (clean c) := by
      intro more
      rw [scanString]
      simp [noQuote, noEnd, plain]
    rw [List.cons_append, taken] at left
    rw [List.cons_append, taken, ih left]
    rfl

theorem scanComment_append {chars : List Char} (left : (scanComment (chars ++ [x])).2 ≠ []) :
    scanComment (chars ++ x :: more) =
      ((scanComment chars).1, (scanComment chars).2 ++ x :: more) := by
  fun_induction scanComment chars with
  | case1 => exact absurd (by simp [scanComment]) left
  | case2 rest => rfl
  | case3 c rest other text after same ih =>
    have taken : ∀ more, scanComment (c :: (rest ++ x :: more)) =
        (c :: (scanComment (rest ++ x :: more)).1, (scanComment (rest ++ x :: more)).2) := by
      intro more
      have slash : x ≠ '/' := delimiter_ne delimiter (by decide)
      rw [scanComment]
      intro others isStar same
      cases rest with
      | nil => exact slash (List.cons.inj same).1
      | cons d rest => exact other rest isStar (congrArg (· :: rest) (List.cons.inj same).1)
    rw [List.cons_append, taken] at left
    rw [List.cons_append, taken, ih left, same]

theorem scanDigits_append (chars : List Char) :
    scanDigits (chars ++ x :: more) =
      ((scanDigits chars).1, (scanDigits chars).2 ++ x :: more) := by
  fun_induction scanDigits chars with
  | case1 => simp [scanDigits, isDigit_delimiter delimiter]
  | case2 c rest digit digits after same ih =>
    rw [List.cons_append, scanDigits, ih, same]
    simp [digit]
  | case3 c rest digit => simp [scanDigits, digit]

theorem scanSign_append (chars : List Char) :
    scanSign (chars ++ x :: more) = ((scanSign chars).1, (scanSign chars).2 ++ x :: more) := by
  have plus : x ≠ '+' := delimiter_ne delimiter (by decide)
  have minus : x ≠ '-' := delimiter_ne delimiter (by decide)
  cases chars with
  | nil =>
    unfold scanSign
    split <;> simp_all
  | cons c rest =>
    unfold scanSign
    split <;> simp_all

theorem scanFraction_append (chars : List Char) :
    scanFraction (chars ++ x :: more) =
      ((scanFraction chars).1, (scanFraction chars).2 ++ x :: more) := by
  have point : x ≠ '.' := delimiter_ne delimiter (by decide)
  rcases chars with _ | ⟨c, rest⟩
  · unfold scanFraction
    split <;> simp_all
  · by_cases same : c = '.'
    · subst same
      simp only [List.cons_append, scanFraction, atDigit_append delimiter]
      split
      · exact scanDigits_append delimiter more rest
      · rfl
    · unfold scanFraction
      split <;> simp_all

theorem scanExponent_append (chars : List Char) :
    scanExponent (chars ++ x :: more) =
      ((scanExponent chars).1, (scanExponent chars).2 ++ x :: more) := by
  have apart : x ≠ 'e' := delimiter_ne delimiter (by decide)
  have apart' : x ≠ 'E' := delimiter_ne delimiter (by decide)
  cases chars with
  | nil => simp [scanExponent, apart, apart']
  | cons c rest =>
    simp only [List.cons_append, scanExponent, scanSign_append delimiter,
      atDigit_append delimiter, scanDigits_append delimiter]
    split <;> rfl

theorem scanNumeral_append (chars : List Char) :
    scanNumeral (chars ++ x :: more) =
      ((scanNumeral chars).1, (scanNumeral chars).2 ++ x :: more) := by
  simp only [scanNumeral, scanSign_append delimiter, scanDigits_append delimiter,
    scanFraction_append delimiter, scanExponent_append delimiter]

theorem startsIdent_append (chars : List Char) :
    startsIdent (chars ++ x :: more) = startsIdent chars := by
  have apart : x ≠ '-' := delimiter_ne delimiter (by decide)
  have plain : x ≠ '\\' := delimiter_ne delimiter (by decide)
  have start := isNameStart_delimiter delimiter
  have inLine := isLineEnd_delimiter delimiter
  have other : ∀ first rest, first ≠ '-' → first ≠ '\\' →
      startsIdent (first :: rest) = isNameStart first := by
    intro first rest noHyphen noBackslash
    unfold startsIdent
    split <;> simp_all
  rcases chars with _ | ⟨first, rest⟩
  · exact (other x more apart plain).trans start
  by_cases hyphen : first = '-'
  · subst hyphen
    cases rest with
    | nil =>
      have single : startsIdent ['-'] = false := rfl
      rw [single]
      simp [startsIdent, start, apart, plain]
    | cons second rest => rfl
  by_cases backslash : first = '\\'
  · subst backslash
    exact congrArg not (atLineEnd_append delimiter more rest)
  · rw [List.cons_append, other _ _ hyphen backslash, other _ _ hyphen backslash]

theorem startsNumeral_append (chars : List Char) :
    startsNumeral (chars ++ x :: more) = startsNumeral chars := by
  have point : x ≠ '.' := delimiter_ne delimiter (by decide)
  have digit := isDigit_delimiter delimiter
  unfold startsNumeral
  rw [scanSign_append delimiter]
  dsimp only
  rcases (scanSign chars).2 with _ | ⟨c, rest⟩
  · rw [List.nil_append]
    split
    · rename_i same
      exact absurd (List.cons.inj same).1 point
    · exact digit
  · by_cases same : c = '.'
    · subst same
      exact atDigit_append delimiter more rest
    · rw [List.cons_append]
      simp [same, atDigit]

theorem head?_append_iff {c : Char} (other : c ∉ [';', '\x7b']) (chars : List Char) :
    (chars ++ x :: more).head? = some c ↔ chars.head? = some c := by
  have apart := delimiter_ne delimiter other
  cases chars with
  | nil => simp [apart]
  | cons first rest => rfl

theorem scanNumber_append {chars : List Char} (left : (scanNumber (chars ++ [x])).2 ≠ []) :
    scanNumber (chars ++ x :: more) =
      ((scanNumber chars).1, (scanNumber chars).2 ++ x :: more) := by
  simp only [scanNumber_eq, scanNumeral_append delimiter, startsIdent_append delimiter,
    head?_append_iff delimiter _ (show '%' ∉ _ by decide)] at left ⊢
  split
  · rename_i percent
    rw [tail_append (x :: more) percent]
  · rename_i noPercent
    rw [if_neg noPercent] at left
    split
    · rename_i unit
      rw [if_pos unit] at left
      rw [scanName_append delimiter more left]
    · rfl

theorem skipBadUrl_append {chars : List Char} (left : skipBadUrl (chars ++ [x]) ≠ []) :
    skipBadUrl (chars ++ x :: more) = skipBadUrl chars ++ x :: more := by
  have closing : x ≠ ')' := delimiter_ne delimiter (by decide)
  have backslash : x ≠ '\\' := delimiter_ne delimiter (by decide)
  fun_induction skipBadUrl chars with
  | case1 => exact absurd (by simp [skipBadUrl, closing]) left
  | case2 rest ih => exact ih left
  | case3 rest ih => exact ih left
  | case4 rest other other' => simp [skipBadUrl]
  | case5 c rest other other' apart ih =>
    have skipped :
        ∀ more, skipBadUrl (c :: (rest ++ x :: more)) = skipBadUrl (rest ++ x :: more) := by
      intro more
      rw [skipBadUrl]
      · rw [if_neg apart]
      · intro others isBackslash same
        cases rest with
        | nil => exact closing (List.cons.inj same).1
        | cons d rest => exact other rest isBackslash (congrArg (· :: rest) (List.cons.inj same).1)
      · intro others isBackslash same
        cases rest with
        | nil => exact backslash (List.cons.inj same).1
        | cons d rest => exact other' rest isBackslash (congrArg (· :: rest) (List.cons.inj same).1)
    rw [List.cons_append, skipped] at left
    rw [List.cons_append, skipped, ih left]

end Delimiter

/-- A scanned address with more characters behind it. -/
def UrlScan.append (more : List Char) : UrlScan → UrlScan
  | whole text rest => whole text (rest ++ more)
  | broken rest => broken (rest ++ more)

theorem UrlScan.append_cons (more : List Char) (c : Char) (scan : UrlScan) :
    (scan.cons c).append more = (scan.append more).cons c := by
  cases scan <;> rfl

section Delimiter

variable {x : Char} (delimiter : IsDelimiter x) (more : List Char)
include delimiter

theorem scanUrlEnd_append {chars : List Char} (left : (scanUrlEnd (chars ++ [x])).rest ≠ []) :
    scanUrlEnd (chars ++ x :: more) = (scanUrlEnd chars).append (x :: more) := by
  have closing : x ≠ ')' := delimiter_ne delimiter (by decide)
  cases chars with
  | nil => exact absurd (by simp [scanUrlEnd, closing, UrlScan.rest]) left
  | cons c chars =>
    simp only [List.cons_append, scanUrlEnd]
    split <;> rfl

theorem scanUrl_delimiter : (scanUrl [x]).rest = [] := by
  have closing : x ≠ ')' := delimiter_ne delimiter (by decide)
  have backslash : x ≠ '\\' := delimiter_ne delimiter (by decide)
  rw [scanUrl]
  simp [closing, isSpace_delimiter delimiter, breaksUrl_delimiter delimiter, backslash, scanUrl]
  rfl

theorem scanUrl_append {chars : List Char} (left : (scanUrl (chars ++ [x])).rest ≠ []) :
    scanUrl (chars ++ x :: more) = (scanUrl chars).append (x :: more) := by
  fun_induction scanUrl chars with
  | case1 => exact absurd (scanUrl_delimiter delimiter) left
  | case2 rest =>
    rw [List.cons_append, scanUrl]
    simp [UrlScan.append]
  | case3 c rest apart space =>
    have ended : ∀ more, scanUrl (c :: (rest ++ x :: more)) =
        scanUrlEnd (rest.dropWhile isSpace ++ x :: more) := by
      intro more
      rw [scanUrl]
      simp [apart, space, dropWhile_isSpace_append delimiter]
    rw [List.cons_append, ended] at left
    rw [List.cons_append, ended, scanUrlEnd_append delimiter more left]
  | case4 c rest apart solid breaks =>
    rw [List.cons_append, scanUrl]
    simp [apart, solid, breaks, UrlScan.append]
  | case5 rest ends apart solid plain =>
    rw [List.cons_append, scanUrl]
    simp [solid, plain, atLineEnd_append delimiter more rest, ends, UrlScan.append]
  | case6 rest inside shorter apart solid plain ih =>
    have inside : atLineEnd rest = false := by simpa using inside
    have escaped : ∀ more, scanUrl ('\\' :: (rest ++ x :: more)) =
        (scanUrl (scanEscape (rest ++ x :: more)).2).cons (scanEscape (rest ++ x :: more)).1 := by
      intro more
      rw [scanUrl]
      simp [solid, plain, atLineEnd_append delimiter more rest, inside]
    have filled : rest ≠ [] := by
      rintro rfl
      refine left ?_
      rw [List.cons_append, escaped]
      simp [scanEscape, hexValue?_delimiter delimiter, scanUrl]
      rfl
    rw [List.cons_append, escaped, scanEscape_append delimiter [] filled, UrlScan.rest_cons] at left
    rw [List.cons_append, escaped, scanEscape_append delimiter more filled]
    dsimp only
    rw [ih left, UrlScan.append_cons]
  | case7 c rest apart solid plain noBackslash ih =>
    have taken : ∀ more, scanUrl (c :: (rest ++ x :: more)) =
        (scanUrl (rest ++ x :: more)).cons (clean c) := by
      intro more
      rw [scanUrl]
      simp [apart, solid, plain, noBackslash]
    rw [List.cons_append, taken, UrlScan.rest_cons] at left
    rw [List.cons_append, taken, ih left, UrlScan.append_cons]

end Delimiter

/-- The token of a scanned address whose characters start at `chars`, and what is left. -/
def addressToken (chars : List Char) : UrlScan → Token × List Char
  | .whole text after => (.url (String.ofList text), after)
  | .broken rest =>
    (.badUrl (String.ofList (chars.take (chars.length - (skipBadUrl rest).length))),
      (skipBadUrl rest).drop 1)

theorem addressToken_nil {chars : List Char} {scan : UrlScan} (empty : scan.rest = []) :
    (addressToken chars scan).2 = [] := by
  cases scan with
  | whole text after => exact empty
  | broken rest =>
    obtain rfl : rest = [] := empty
    rfl

theorem scanAddress_eq {name : String} {chars : List Char} (filled : chars.dropWhile isSpace ≠ []) :
    scanAddress name chars =
      if (chars.dropWhile isSpace).head? = some '\x22' ∨
          (chars.dropWhile isSpace).head? = some '\x27' then (.function name, chars)
      else addressToken (chars.dropWhile isSpace) (scanUrl (chars.dropWhile isSpace)) := by
  unfold scanAddress
  generalize chars.dropWhile isSpace = solid at filled
  rcases solid with _ | ⟨c, rest⟩
  · exact absurd rfl filled
  · simp only [List.head?_cons, Option.some.injEq, Bool.or_eq_true, decide_eq_true_eq]
    split
    · rfl
    · cases scanUrl (c :: rest) <;> rfl

theorem scanIdentLike_eq (chars : List Char) :
    scanIdentLike chars =
      if (scanName chars).2.head? = some '(' then
        if Text.sameIgnoringCase (String.ofList (scanName chars).1) "url" then
          scanAddress (String.ofList (scanName chars).1) (scanName chars).2.tail
        else (.function (String.ofList (scanName chars).1), (scanName chars).2.tail)
      else (.ident (String.ofList (scanName chars).1), (scanName chars).2) := by
  unfold scanIdentLike
  dsimp only
  rcases (scanName chars).2 with _ | ⟨c, rest⟩
  · rfl
  · by_cases same : c = '('
    · subst same
      rfl
    · simp [same]

section Delimiter

variable {x : Char} (delimiter : IsDelimiter x) (more : List Char)
include delimiter

theorem addressToken_append {chars : List Char} {scan : UrlScan}
    (left : (addressToken (chars ++ [x]) (scan.append [x])).2 ≠ [])
    (shorter : scan.rest.length ≤ chars.length) :
    addressToken (chars ++ x :: more) (scan.append (x :: more)) =
      ((addressToken chars scan).1, (addressToken chars scan).2 ++ x :: more) := by
  cases scan with
  | whole text after => rfl
  | broken rest =>
    simp only [UrlScan.append, addressToken] at left ⊢
    have remains : skipBadUrl (rest ++ [x]) ≠ [] := by
      intro empty
      rw [empty] at left
      exact left rfl
    rw [skipBadUrl_append delimiter [] remains] at left
    rw [skipBadUrl_append delimiter more remains]
    have skipped := length_skipBadUrl rest
    cases ending : skipBadUrl rest with
    | nil =>
      rw [ending] at left
      exact absurd rfl left
    | cons c others =>
      rw [ending] at skipped
      have size : (chars ++ x :: more).length - (c :: others ++ x :: more).length =
          chars.length - (c :: others).length := by
        simp only [List.length_append, List.length_cons]
        omega
      rw [size, List.take_append_of_le_length (Nat.sub_le ..)]
      rfl

theorem scanAddress_append {name : String} {chars : List Char}
    (left : (scanAddress name (chars ++ [x])).2 ≠ []) :
    scanAddress name (chars ++ x :: more) =
      ((scanAddress name chars).1, (scanAddress name chars).2 ++ x :: more) := by
  have filled : ∀ more, (chars ++ x :: more).dropWhile isSpace ≠ [] := by
    intro more
    rw [dropWhile_isSpace_append delimiter]
    simp
  rw [scanAddress_eq (filled [])] at left
  rw [scanAddress_eq (filled more)]
  simp only [dropWhile_isSpace_append delimiter,
    head?_append_iff delimiter _ (show '\x22' ∉ _ by decide),
    head?_append_iff delimiter _ (show '\x27' ∉ _ by decide)] at left ⊢
  have solid : chars.dropWhile isSpace ≠ [] := by
    intro empty
    rw [empty] at left
    exact left (addressToken_nil (scanUrl_delimiter delimiter))
  rw [scanAddress_eq solid]
  split
  · rfl
  · rename_i unquoted
    rw [if_neg unquoted] at left
    have remains : (scanUrl (chars.dropWhile isSpace ++ [x])).rest ≠ [] := by
      intro empty
      exact left (addressToken_nil empty)
    rw [scanUrl_append delimiter [] remains] at left
    rw [scanUrl_append delimiter more remains]
    exact addressToken_append delimiter more left (length_scanUrl _)

theorem scanIdentLike_append {chars : List Char} (left : (scanIdentLike (chars ++ [x])).2 ≠ []) :
    scanIdentLike (chars ++ x :: more) =
      ((scanIdentLike chars).1, (scanIdentLike chars).2 ++ x :: more) := by
  have remains : (scanName (chars ++ [x])).2 ≠ [] := by
    intro empty
    rw [scanIdentLike_eq, empty] at left
    exact left rfl
  rw [scanIdentLike_eq, scanName_append delimiter [] remains] at left
  rw [scanIdentLike_eq, scanName_append delimiter more remains, scanIdentLike_eq]
  simp only [head?_append_iff delimiter _ (show '(' ∉ _ by decide)] at left ⊢
  split
  · rename_i isFunction
    rw [if_pos isFunction, tail_append [x] isFunction] at left
    rw [tail_append (x :: more) isFunction]
    split
    · rename_i isUrl
      rw [if_pos isUrl] at left
      rw [scanAddress_append delimiter more left]
    · rfl
  · rfl

theorem scanHash_append {rest : List Char} (left : (scanHash (rest ++ [x])).2 ≠ []) :
    scanHash (rest ++ x :: more) = ((scanHash rest).1, (scanHash rest).2 ++ x :: more) := by
  have hyphen : x ≠ '-' := delimiter_ne delimiter (by decide)
  have head : ∀ more, ((rest ++ x :: more).head?.any fun c => isDigit c || c = '-') =
      rest.head?.any fun c => isDigit c || c = '-' := by
    intro more
    cases rest with
    | nil => simp [isDigit_delimiter delimiter, hyphen]
    | cons c rest => rfl
  unfold scanHash at left ⊢
  rw [startsIdent_append delimiter, head] at left ⊢
  split
  · rename_i starts
    rw [if_pos starts] at left
    rw [scanName_append delimiter more left]
  · rename_i noIdent
    rw [if_neg noIdent] at left
    split
    · rename_i digit
      rw [if_pos digit] at left
      rw [scanName_append delimiter more left]
    · rfl

theorem scanQuoted_append {quote : Char} (isQuote : quote = '\x22' ∨ quote = '\x27')
    {rest : List Char} (left : (scanQuoted quote (rest ++ [x])).2 ≠ []) :
    scanQuoted quote (rest ++ x :: more) =
      ((scanQuoted quote rest).1, (scanQuoted quote rest).2 ++ x :: more) := by
  have remains : (scanString quote (rest ++ [x])).rest ≠ [] := by
    unfold scanQuoted at left
    dsimp only at left
    split at left <;> exact left
  unfold scanQuoted
  rw [scanString_append delimiter more isQuote remains]
  dsimp only
  split <;> rfl

theorem scanMatch_append (c : Char) (matching : Token) (rest : List Char) :
    scanMatch c matching (rest ++ x :: more) =
      ((scanMatch c matching rest).1, (scanMatch c matching rest).2 ++ x :: more) := by
  have equals : x ≠ '=' := delimiter_ne delimiter (by decide)
  cases rest with
  | nil => simp [scanMatch, equals]
  | cons d rest =>
    by_cases same : d = '='
    · subst same
      rfl
    · simp [scanMatch, same]

theorem isPrefixOf_append {pattern : List Char}
    (other : (pattern.all fun c => c ∉ [';', '\x7b']) = true) (chars : List Char) :
    pattern.isPrefixOf (chars ++ x :: more) = pattern.isPrefixOf chars := by
  induction pattern generalizing chars with
  | nil => rfl
  | cons first pattern ih =>
    rw [List.all_cons, Bool.and_eq_true, decide_eq_true_eq] at other
    cases chars with
    | nil => simp [List.isPrefixOf, (delimiter_ne delimiter other.1).symm]
    | cons c chars => simp [List.isPrefixOf, ih other.2]

/-- What stands behind a delimiter does not change the token before it. -/
theorem scanToken_append {c : Char} {rest : List Char} (left : (scanToken c (rest ++ [x])).2 ≠ []) :
    scanToken c (rest ++ x :: more) =
      ((scanToken c rest).1, (scanToken c rest).2 ++ x :: more) := by
  have numeral : ∀ more, startsNumeral (c :: (rest ++ x :: more)) = startsNumeral (c :: rest) :=
    fun more => startsNumeral_append delimiter more (c :: rest)
  have ident : ∀ more, startsIdent (c :: (rest ++ x :: more)) = startsIdent (c :: rest) :=
    fun more => startsIdent_append delimiter more (c :: rest)
  have closes : ∀ more, List.isPrefixOf ['-', '-', '>'] (c :: (rest ++ x :: more)) =
      List.isPrefixOf ['-', '-', '>'] (c :: rest) := fun more =>
    isPrefixOf_append delimiter more (by decide) (c :: rest)
  have opens : ∀ more, List.isPrefixOf ['<', '!', '-', '-'] (c :: (rest ++ x :: more)) =
      List.isPrefixOf ['<', '!', '-', '-'] (c :: rest) := fun more =>
    isPrefixOf_append delimiter more (by decide) (c :: rest)
  have star : ∀ more, decide ((rest ++ x :: more).head? = some '*') =
      decide (rest.head? = some '*') := fun more =>
    decide_eq_decide.mpr (head?_append_iff delimiter more (by decide) rest)
  unfold scanToken at left ⊢
  simp only [numeral, ident, closes, opens, star, startsIdent_append delimiter] at left ⊢
  split
  · rw [dropWhile_isSpace_append delimiter]
  rename_i solid
  rw [if_neg solid] at left
  split
  · rename_i quoted
    rw [if_pos quoted] at left
    exact scanQuoted_append delimiter more (by simpa using quoted) left
  rename_i unquoted
  rw [if_neg unquoted] at left
  split
  · rename_i isNumeral
    rw [if_pos isNumeral] at left
    exact @scanNumber_append x delimiter more (c :: rest) left
  rename_i noNumeral
  rw [if_neg noNumeral] at left
  split
  · rename_i isClose
    have long := (List.isPrefixOf_iff_prefix.mp isClose).length_le
    rw [List.drop_append_of_le_length (by simpa using long)]
  rename_i noClose
  rw [if_neg noClose] at left
  split
  · rename_i isIdent
    rw [if_pos isIdent] at left
    exact @scanIdentLike_append x delimiter more (c :: rest) left
  rename_i noIdent
  rw [if_neg noIdent] at left
  split
  · rename_i isComment
    rw [if_pos isComment] at left
    have starred : rest.head? = some '*' := by simpa using (Bool.and_eq_true_iff.mp isComment).2
    rw [List.drop_one, tail_append [x] starred, ← List.drop_one] at left
    rw [List.drop_one, tail_append (x :: more) starred, ← List.drop_one,
      scanComment_append delimiter more left]
  rename_i noComment
  rw [if_neg noComment] at left
  split
  · rename_i isOpen
    have long := (List.isPrefixOf_iff_prefix.mp isOpen).length_le
    rw [List.drop_append_of_le_length (by simpa using long)]
  rename_i noOpen
  rw [if_neg noOpen] at left
  split
  case h_1 => exact scanHash_append delimiter more left
  case h_16 =>
    split
    · rename_i starts
      rw [if_pos starts] at left
      rw [scanName_append delimiter more left]
    · rfl
  all_goals first | exact scanMatch_append delimiter more _ _ rest | rfl

theorem scanToken_delimiter : scanToken x more = ((scanToken x []).1, more) := by
  rcases delimiter with rfl | rfl <;> rfl

/-- Where the delimiter behind a text is a token of its own, the lexemes of the text stay what they
are, and so do those behind the delimiter. -/
theorem pieces_append_delimiter {chars : List Char}
    (apart : tokens (chars ++ [x]) = tokens chars ++ [(scanToken x []).1]) :
    pieces (chars ++ x :: more) =
      pieces chars ++ ⟨(scanToken x []).1, [x], .start⟩ :: pieces more := by
  generalize size : chars.length = length
  induction length using Nat.strongRecOn generalizing chars with
  | ind length ih =>
    cases chars with
    | nil =>
      have scan : scanToken x ([] ++ more) = ((scanToken x []).1, more) :=
        scanToken_delimiter delimiter more
      rw [pieces_nil]
      exact pieces_of_scanToken scan
    | cons c rest =>
      rw [List.cons_append, tokens_cons, tokens_cons] at apart
      have left : (scanToken c (rest ++ [x])).2 ≠ [] := by
        intro empty
        rw [empty, tokens_nil] at apart
        simpa using congrArg List.length apart
      have scan := scanToken_append delimiter more left
      rw [scanToken_append delimiter [] left] at apart
      obtain ⟨taken, whole⟩ := scanToken_suffix c rest
      have shorter := length_scanToken c rest
      generalize same : scanToken c rest = scanned at scan apart whole shorter
      obtain ⟨token, after⟩ := scanned
      dsimp only at scan apart whole shorter
      subst whole
      have later := @ih after.length (by rw [← size, List.length_cons]; omega) after
        (List.cons.inj apart).2 rfl
      rw [List.append_assoc] at scan
      rw [List.cons_append, List.append_assoc, pieces_of_scanToken scan, pieces_of_scanToken same,
        later]
      rfl

end Delimiter

end StyleBlock.Css
