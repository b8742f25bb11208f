import StyleBlock.Proofs.Escapes

/-!
What a scanner leaves is the end of what it was given, cut off where no line end is cut in two. So
every lexeme holds the characters that it was read from, and the lexemes of a text together are the
text.
-/

namespace StyleBlock.Css

variable {c : Char} {rest after : List Char}

/-- Whether a cut between two parts of a text leaves line ends whole. -/
def KeepsLineEnds (before after : List Char) : Prop :=
  before.getLast? = some '\r' → after.head? ≠ some '\n'

namespace KeepsLineEnds

theorem nil (after : List Char) : KeepsLineEnds [] after := nofun

theorem tail {before : List Char} (keeps : KeepsLineEnds (c :: before) after) :
    KeepsLineEnds before after := by
  cases before with
  | nil => exact nil after
  | cons d before => simpa [KeepsLineEnds] using keeps

theorem left {before taken : List Char} (keeps : KeepsLineEnds before (taken ++ after)) :
    KeepsLineEnds before taken := by
  cases taken with
  | nil => exact fun _ => nofun
  | cons d taken => exact keeps

theorem append {taken : List Char} (keeps : KeepsLineEnds taken after) {before : List Char}
    (first : KeepsLineEnds before (taken ++ after)) : KeepsLineEnds (before ++ taken) after := by
  cases taken with
  | nil => simpa using first
  | cons d taken => simpa [KeepsLineEnds, List.getLast?_append] using keeps

end KeepsLineEnds

/-- Whether a text can be cut before `after`: that is the end of the text, and the cut leaves line
ends whole. -/
def IsCut (chars after : List Char) : Prop :=
  ∃ taken, chars = taken ++ after ∧ KeepsLineEnds taken after

namespace IsCut

variable {chars between taken : List Char}

@[refl] theorem refl (chars : List Char) : IsCut chars chars :=
  ⟨[], rfl, .nil chars⟩

theorem trans (first : IsCut chars between) (second : IsCut between after) : IsCut chars after := by
  obtain ⟨one, rfl, whole⟩ := first
  obtain ⟨other, rfl, later⟩ := second
  exact ⟨one ++ other, (List.append_assoc ..).symm, later.append whole⟩

theorem suffix (cut : IsCut chars after) : after <:+ chars :=
  let ⟨taken, whole, _⟩ := cut
  ⟨taken, whole.symm⟩

/-- A cut right behind a character that is no carriage return. -/
theorem of_last (plain : c ≠ '\r') (whole : chars = taken ++ c :: after) : IsCut chars after :=
  ⟨taken ++ [c], by simp [whole], by simp [KeepsLineEnds, plain]⟩

/-- A cut right before something that is no line feed. -/
theorem of_head (plain : after.head? ≠ some '\n') (suffix : after <:+ chars) : IsCut chars after :=
  let ⟨taken, whole⟩ := suffix
  ⟨taken, whole.symm, fun _ => plain⟩

theorem nil (chars : List Char) : IsCut chars [] :=
  of_head nofun List.nil_suffix

theorem tail (plain : c ≠ '\r') (rest : List Char) : IsCut (c :: rest) rest :=
  @of_last _ _ _ [] plain rfl

theorem cons (plain : c ≠ '\r') (cut : IsCut rest after) : IsCut (c :: rest) after :=
  (tail plain rest).trans cut

theorem dropSpaces (chars : List Char) : IsCut chars (chars.dropWhile isSpace) := by
  refine of_head ?_ (List.dropWhile_suffix isSpace)
  intro isFeed
  have solid := List.head?_dropWhile_not isSpace chars
  rw [isFeed] at solid
  simp [isSpace, Text.isLineEnd] at solid

end IsCut

theorem ne_return_of_isNamePart (part : isNamePart c = true) : c ≠ '\r' := by
  rintro rfl
  exact absurd part (by decide)

theorem ne_return_of_isDigit (digit : isDigit c = true) : c ≠ '\r' := by
  rintro rfl
  exact absurd digit (by decide)

theorem ne_return_of_not_isLineEnd (inLine : ¬Text.isLineEnd c = true) : c ≠ '\r' := by
  rintro rfl
  exact inLine (by decide)

theorem scanHex_cut (code count : Nat) (chars : List Char) :
    IsCut chars (scanHex code count chars).2 := by
  induction count generalizing code chars with
  | zero => exact .refl chars
  | succ count ih =>
    cases chars with
    | nil => exact .refl []
    | cons c rest =>
      unfold scanHex
      split
      · rename_i digit isDigit
        have plain : c ≠ '\r' := by
          rintro rfl
          exact absurd isDigit (by decide +revert)
        exact .cons plain (ih ..)
      · exact .refl _

theorem dropLineEnd_cut (chars : List Char) : IsCut chars (dropLineEnd chars) := by
  fun_cases dropLineEnd chars with
  | case1 rest => exact @IsCut.of_last '\n' _ _ ['\r'] (by decide) rfl
  | case2 c rest single =>
    refine ⟨[c], rfl, ?_⟩
    intro isReturn isFeed
    obtain ⟨later, rfl⟩ := List.head?_eq_some_iff.mp isFeed
    exact single later (by simpa using isReturn) rfl
  | case3 => exact .refl []

theorem dropOneSpace_cut (chars : List Char) : IsCut chars (dropOneSpace chars) := by
  unfold dropOneSpace
  split
  · exact .refl _
  · split
    · exact dropLineEnd_cut _
    · exact .refl _

theorem scanEscape_cut {chars : List Char} (inLine : ¬atLineEnd chars = true) :
    IsCut chars (scanEscape chars).2 := by
  unfold scanEscape
  split
  · exact .refl _
  · split
    · exact (scanHex_cut ..).trans (dropOneSpace_cut _)
    · exact .tail (ne_return_of_not_isLineEnd inLine) _

theorem scanName_cut (chars : List Char) : IsCut chars (scanName chars).2 := by
  fun_induction scanName chars with
  | case1 | case2 | case5 => exact .refl _
  | case3 rest inLine shorter name after same ih =>
    rw [same] at ih
    exact .cons (by decide) ((scanEscape_cut inLine).trans ih)
  | case4 c rest plain part name after same ih =>
    rw [same] at ih
    exact .cons (ne_return_of_isNamePart part) ih

theorem scanString_cut {quote : Char} (plain : quote ≠ '\r') (chars : List Char) :
    IsCut chars (scanString quote chars).rest := by
  fun_induction scanString quote chars with
  | case1 | case3 => exact .refl _
  | case2 => exact .tail plain _
  | case4 => exact .nil _
  | case5 rest _ _ _ _ _ ih => exact .cons (by decide) ((dropLineEnd_cut rest).trans ih)
  | case6 rest _ inLine _ _ _ ih => exact .cons (by decide) ((scanEscape_cut inLine).trans ih)
  | case7 c rest _ inLine _ ih => exact .cons (ne_return_of_not_isLineEnd inLine) ih

/-- A comment reaches to the end of the text, or to the slash that closes it. -/
theorem scanComment_ends (chars : List Char) : (scanComment chars).2 = [] ∨
    ∃ taken, chars = taken ++ '/' :: (scanComment chars).2 := by
  fun_induction scanComment chars with
  | case1 => exact .inl rfl
  | case2 rest => exact .inr ⟨['*'], rfl⟩
  | case3 c rest _ text after same ih =>
    rw [same] at ih
    refine ih.imp id ?_
    rintro ⟨taken, whole⟩
    exact ⟨c :: taken, by rw [List.cons_append, ← whole]⟩

theorem scanComment_cut (chars : List Char) : IsCut chars (scanComment chars).2 := by
  rcases scanComment_ends chars with none | ⟨taken, whole⟩
  · rw [none]
    exact .nil chars
  · exact .of_last (by decide) whole

theorem scanDigits_cut (chars : List Char) : IsCut chars (scanDigits chars).2 := by
  fun_induction scanDigits chars with
  | case1 | case3 => exact .refl _
  | case2 c rest digit digits after same ih =>
    rw [same] at ih
    exact .cons (ne_return_of_isDigit digit) ih

theorem scanSign_cut (chars : List Char) : IsCut chars (scanSign chars).2 := by
  unfold scanSign
  split
  · exact .tail (by decide) _
  · exact .tail (by decide) _
  · exact .refl _

theorem scanFraction_cut (chars : List Char) : IsCut chars (scanFraction chars).2 := by
  unfold scanFraction
  split
  · split
    · exact .cons (by decide) (scanDigits_cut _)
    · exact .refl _
  · exact .refl _

theorem scanExponent_cut (chars : List Char) : IsCut chars (scanExponent chars).2 := by
  unfold scanExponent
  split
  · exact .refl _
  · rename_i c rest
    dsimp only
    split
    · rename_i exponent
      have plain : c ≠ '\r' := by
        rintro rfl
        simp at exponent
      exact .cons plain ((scanSign_cut rest).trans (scanDigits_cut _))
    · exact .refl _

theorem scanNumeral_cut (chars : List Char) : IsCut chars (scanNumeral chars).2 :=
  (scanSign_cut chars).trans ((scanDigits_cut _).trans
    ((scanFraction_cut _).trans (scanExponent_cut _)))

theorem scanNumber_cut (chars : List Char) : IsCut chars (scanNumber chars).2 := by
  have numeral := scanNumeral_cut chars
  unfold scanNumber
  dsimp only
  split
  · rename_i rest same
    rw [same] at numeral
    exact numeral.trans (.tail (by decide) rest)
  · split
    · exact numeral.trans (scanName_cut _)
    · exact numeral

theorem suffix_cons_of (left : after <:+ rest) (c : Char) : after <:+ c :: rest :=
  left.trans (List.suffix_cons c rest)

theorem skipBadUrl_suffix (chars : List Char) : skipBadUrl chars <:+ chars := by
  fun_induction skipBadUrl chars with
  | case1 | case4 => exact List.suffix_rfl
  | case2 rest ih => exact suffix_cons_of (suffix_cons_of ih ')') '\\'
  | case3 rest ih => exact suffix_cons_of (suffix_cons_of ih '\\') '\\'
  | case5 c rest _ _ _ ih => exact suffix_cons_of ih c

theorem skipBadUrl_ends (chars : List Char) :
    skipBadUrl chars = [] ∨ ∃ after, skipBadUrl chars = ')' :: after := by
  fun_induction skipBadUrl chars with
  | case1 => exact .inl rfl
  | case2 _ ih | case3 _ ih | case5 _ _ _ _ _ ih => exact ih
  | case4 rest => exact .inr ⟨rest, rfl⟩

/-- A whole address ends at a cut; what is left of a broken one is yet to be skipped. -/
def UrlScan.Leaves (chars : List Char) : UrlScan → Prop
  | whole _ rest => IsCut chars rest
  | broken rest => rest <:+ chars

theorem UrlScan.Leaves.cons {chars : List Char} {scan : UrlScan} (leaves : scan.Leaves rest)
    (cut : IsCut chars rest) (d : Char) : (scan.cons d).Leaves chars := by
  cases scan with
  | whole text after => exact cut.trans leaves
  | broken after => exact leaves.trans cut.suffix

theorem scanUrlEnd_leaves (chars : List Char) : (scanUrlEnd chars).Leaves chars := by
  unfold scanUrlEnd
  split
  · exact .refl _
  · split
    · rename_i closing
      exact .tail (by rw [closing]; decide) _
    · exact List.suffix_cons ..

theorem scanUrl_leaves (chars : List Char) : (scanUrl chars).Leaves chars := by
  fun_induction scanUrl chars with
  | case1 => exact IsCut.refl _
  | case2 => exact IsCut.tail (by decide) _
  | case4 | case5 => exact List.suffix_cons ..
  | case3 c rest _ space =>
    have blanks : IsCut (c :: rest) (rest.dropWhile isSpace) := by
      simpa [List.dropWhile_cons_of_pos space] using IsCut.dropSpaces (c :: rest)
    have ending := scanUrlEnd_leaves (rest.dropWhile isSpace)
    generalize scanUrlEnd (rest.dropWhile isSpace) = scan at ending
    cases scan with
    | whole text after => exact blanks.trans ending
    | broken after => exact ending.trans blanks.suffix
  | case6 rest inLine _ _ _ _ ih =>
    exact ih.cons (.cons (by decide) (scanEscape_cut inLine)) _
  | case7 c rest _ solid _ _ ih =>
    have plain : c ≠ '\r' := by
      rintro rfl
      exact solid (by decide)
    exact ih.cons (.tail plain rest) _

theorem scanAddress_cut (name : String) (chars : List Char) :
    IsCut chars (scanAddress name chars).2 := by
  have blanks := IsCut.dropSpaces chars
  unfold scanAddress
  split
  · exact .nil _
  · rename_i c rest same
    rw [same] at blanks
    have address := scanUrl_leaves (c :: rest)
    split
    · exact .refl _
    split
    · rename_i found
      rw [found] at address
      exact blanks.trans address
    · rename_i broken found
      rw [found] at address
      have skipped := (skipBadUrl_suffix broken).trans (address.trans blanks.suffix)
      rcases skipBadUrl_ends broken with none | ⟨after, closing⟩
      · simp only [none, List.drop_nil]
        exact .nil _
      · rw [closing] at skipped
        obtain ⟨taken, whole⟩ := skipped
        simp only [closing, List.drop_succ_cons, List.drop_zero]
        exact .of_last (by decide) whole.symm

theorem scanIdentLike_cut (chars : List Char) : IsCut chars (scanIdentLike chars).2 := by
  have name := scanName_cut chars
  unfold scanIdentLike
  dsimp only
  split
  · rename_i inner same
    rw [same] at name
    have inside : IsCut chars inner := name.trans (.tail (by decide) inner)
    split
    · exact inside.trans (scanAddress_cut _ inner)
    · exact inside
  · exact name

theorem scanHash_cut (rest : List Char) : IsCut rest (scanHash rest).2 := by
  unfold scanHash
  split
  · exact scanName_cut rest
  split
  · exact scanName_cut rest
  · exact .refl _

theorem scanQuoted_cut {quote : Char} (plain : quote ≠ '\r') (rest : List Char) :
    IsCut rest (scanQuoted quote rest).2 := by
  unfold scanQuoted
  dsimp only
  split <;> exact scanString_cut plain rest

theorem scanMatch_cut (c : Char) (matching : Token) (rest : List Char) :
    IsCut rest (scanMatch c matching rest).2 := by
  unfold scanMatch
  split
  · exact .tail (by decide) _
  · exact .refl _

/-- A token ends at a cut. -/
theorem scanToken_cut (c : Char) (rest : List Char) : IsCut (c :: rest) (scanToken c rest).2 := by
  unfold scanToken
  split
  · rename_i space
    simpa [List.dropWhile_cons_of_pos space] using IsCut.dropSpaces (c :: rest)
  rename_i solid
  have plain : c ≠ '\r' := by
    rintro rfl
    exact solid (by decide)
  split
  · exact .cons plain (scanQuoted_cut plain rest)
  split
  · exact scanNumber_cut _
  split
  · rename_i markup
    obtain ⟨after, whole⟩ := List.isPrefixOf_iff_prefix.mp markup
    rw [← List.drop_succ_cons, ← whole]
    exact @IsCut.of_last '>' _ _ ['-', '-'] (by decide) rfl
  split
  · exact scanIdentLike_cut _
  split
  · rename_i comment
    obtain ⟨rfl, star⟩ : c = '/' ∧ rest.head? = some '*' := by simpa using comment
    obtain ⟨inside, rfl⟩ := List.head?_eq_some_iff.mp star
    exact .cons (by decide) (.cons (by decide) (scanComment_cut inside))
  split
  · rename_i markup
    obtain ⟨after, whole⟩ := List.isPrefixOf_iff_prefix.mp markup
    rw [← List.drop_succ_cons, ← whole]
    exact @IsCut.of_last '-' _ _ ['<', '!', '-'] (by decide) rfl
  refine .cons plain ?_
  split
  case h_1 => exact scanHash_cut rest
  case h_16 =>
    split
    · exact scanName_cut rest
    · exact .refl _
  all_goals first | exact scanMatch_cut _ _ rest | exact .refl _

theorem suffix_of_suffix_cons (suffix : after <:+ c :: rest)
    (shorter : after.length ≤ rest.length) : after <:+ rest := by
  rcases List.suffix_cons_iff.mp suffix with rfl | suffix
  · simp at shorter
  · exact suffix

/-- What is left after a token is the end of what was there. -/
theorem scanToken_suffix (c : Char) (rest : List Char) : (scanToken c rest).2 <:+ rest :=
  suffix_of_suffix_cons (scanToken_cut c rest).suffix (length_scanToken c rest)

/-! The texts of lexemes -/

@[simp] theorem pieces_nil : pieces [] = [] := by
  rw [pieces, lexemesFrom]
  rfl

theorem pieces_cons (c : Char) (rest : List Char) :
    pieces (c :: rest) =
      ⟨(scanToken c rest).1, c :: rest.take (rest.length - (scanToken c rest).2.length), .start⟩ ::
        pieces (scanToken c rest).2 := by
  rw [pieces, lexemesFrom]
  simp only [List.map_cons, unplaced_lexemesFrom]
  rfl

/-- The first lexeme of a text takes what the scanner does not leave. -/
theorem pieces_of_scanToken {c : Char} {taken after : List Char} {token : Token}
    (scan : scanToken c (taken ++ after) = (token, after)) :
    pieces (c :: (taken ++ after)) = ⟨token, c :: taken, .start⟩ :: pieces after := by
  rw [pieces_cons, scan]
  simp

/-- The lexemes of a text make up the text. -/
theorem textOf_pieces (chars : List Char) : textOf (pieces chars) = chars := by
  generalize size : chars.length = length
  induction length using Nat.strongRecOn generalizing chars with
  | ind length ih =>
    cases chars with
    | nil => rw [pieces_nil, textOf, List.flatMap_nil]
    | cons c rest =>
      obtain ⟨taken, whole⟩ := scanToken_suffix c rest
      have shorter := length_scanToken c rest
      have later := ih (scanToken c rest).2.length
        (by rw [← size, List.length_cons]; omega) _ rfl
      generalize scan : scanToken c rest = scanned at whole later
      obtain ⟨token, after⟩ := scanned
      subst whole
      rw [pieces_of_scanToken scan, textOf, List.flatMap_cons, ← textOf, later]
      rfl

end StyleBlock.Css
