import StyleBlock.Reference.Resolution

/-!
Texts that read back as resolutions. A value is a resolution exactly if it is one of the two
functions with one string. A reference without quotes, backslashes and line ends can stand in a
string as it is, so `resolve-inherited("reference")` is one.
-/

namespace StyleBlock

namespace Css

/-- A character that stands for itself in a string with double quotes. -/
def isPlainInString (c : Char) : Bool :=
  c != '\x22' && c != '\\' && !Text.isLineEnd c

/-- A character that stands for itself in a name. -/
def isPlainInName (c : Char) : Bool :=
  isNamePart c && c != '\\'

theorem scanName_plain {name : List Char} (plain : ∀ c ∈ name, isPlainInName c) (stop : Char)
    (stops : isNamePart stop = false ∧ stop ≠ '\\') (rest : List Char) :
    scanName (name ++ stop :: rest) = (name.map clean, stop :: rest) := by
  induction name with
  | nil =>
    rw [List.nil_append, scanName]
    simp [stops]
  | cons c others ih =>
    have first := plain c (List.mem_cons_self ..)
    have later := ih fun d member => plain d (List.mem_cons_of_mem c member)
    simp only [isPlainInName, Bool.and_eq_true, bne_iff_ne] at first
    rw [List.cons_append, scanName]
    simp [first, later]

theorem scanString_plain {text rest : List Char} (plain : ∀ c ∈ text, isPlainInString c) :
    scanString '\x22' (text ++ '\x22' :: rest) = ⟨true, text.map clean, rest⟩ := by
  induction text with
  | nil =>
    rw [List.nil_append, scanString]
    simp
  | cons c others ih =>
    have first := plain c (List.mem_cons_self ..)
    have later := ih fun d member => plain d (List.mem_cons_of_mem c member)
    simp only [isPlainInString, Bool.and_eq_true, bne_iff_ne, Bool.not_eq_true'] at first
    rw [List.cons_append, scanString]
    simp [first, later, StringScan.cons]

/-- The name of the function that asks for an inherited resolution. -/
theorem scanToken_resolveInherited (rest : List Char) :
    scanToken 'r' ("esolve-inherited".toList ++ '(' :: rest) =
      (.function "resolve-inherited", rest) := by
  have plain : ∀ c ∈ "resolve-inherited".toList, isPlainInName c :=
    List.all_eq_true.mp (by decide)
  have name : scanName ('r' :: ("esolve-inherited".toList ++ '(' :: rest)) =
      ("resolve-inherited".toList, '(' :: rest) :=
    scanName_plain plain '(' (by decide) rest
  unfold scanToken
  rw [if_neg (by decide), if_neg (by decide),
    if_neg (by simp [startsNumeral, scanSign, atDigit]; decide), if_neg (by simp),
    if_pos (by simp [startsIdent]; decide)]
  unfold scanIdentLike
  rw [name]
  rfl

theorem scanToken_quoted {text rest : List Char} (plain : ∀ c ∈ text, isPlainInString c) :
    scanToken '\x22' (text ++ '\x22' :: rest) =
      (.quoted (String.ofList (text.map clean)), rest) := by
  unfold scanToken
  rw [if_neg (by decide), if_pos (by decide)]
  simp [scanQuoted, scanString_plain plain]

end Css

namespace Css.Cursor

/-- The tokens of lexemes that are neither blanks nor comments. -/
def solid (lexemes : List Lexeme) : List Token :=
  (lexemes.map Lexeme.token).filter fun token => !isSpacing token

theorem solid_append (first second : List Lexeme) :
    solid (first ++ second) = solid first ++ solid second := by
  rw [solid, List.map_append, List.filter_append]
  rfl

/-- Skipping blanks and comments leads to the first solid token, or to the end. -/
theorem skipSpacing_cases (cursor : Cursor) :
    (cursor.skipSpacing.rest = [] ∧ solid cursor.rest = []) ∨
      ∃ lexeme rest, cursor.skipSpacing.rest = lexeme :: rest ∧
        solid cursor.rest = lexeme.token :: solid rest := by
  obtain ⟨lexemes, ending⟩ := cursor
  dsimp only [skipSpacing]
  induction lexemes with
  | nil => exact .inl ⟨rfl, rfl⟩
  | cons lexeme rest ih =>
    cases spacing : isSpacing lexeme.token with
    | true => simpa [solid, spacing] using ih
    | false => exact .inr ⟨lexeme, rest, by simp [spacing], by simp [solid, spacing]⟩

theorem nextSolid_fst (cursor : Cursor) : cursor.nextSolid.1 = (solid cursor.rest).head? := by
  rcases cursor.skipSpacing_cases with ⟨none, same⟩ | ⟨lexeme, rest, found, same⟩
  · rw [same, nextSolid, next, none]
    rfl
  · rw [same, nextSolid, next, found]
    rfl

theorem solid_nextSolid (cursor : Cursor) :
    solid cursor.nextSolid.2.rest = (solid cursor.rest).tail := by
  rcases cursor.skipSpacing_cases with ⟨none, same⟩ | ⟨lexeme, rest, found, same⟩
  · rw [same, nextSolid, next, none]
    exact congrArg solid none
  · rw [same, nextSolid, next, found]
    rfl

theorem isExhausted_iff (cursor : Cursor) : cursor.isExhausted = true ↔ solid cursor.rest = [] := by
  rcases cursor.skipSpacing_cases with ⟨none, same⟩ | ⟨lexeme, rest, found, same⟩
  · simp [isExhausted, none, same]
  · simp [isExhausted, found, same]

/-- Where no token opens a block, a block ends at the first closing token of its kind. -/
theorem splitBlock_flat {bracket : Bracket} {lexemes : List Lexeme}
    (flat : ∀ lexeme ∈ lexemes, lexeme.token.opens? = none) :
    splitBlock bracket [] lexemes =
      (lexemes.takeWhile fun lexeme => lexeme.token ≠ .closing bracket,
        lexemes.dropWhile fun lexeme => lexeme.token ≠ .closing bracket) := by
  induction lexemes with
  | nil => rfl
  | cons lexeme rest ih =>
    obtain ⟨first, later⟩ := List.forall_mem_cons.mp flat
    by_cases closes : lexeme.token = .closing bracket
    · simp [splitBlock, closes]
    · have outside : bracketsAfter [] lexeme.token = [] := by
        rw [bracketsAfter, first]
        cases lexeme.token.closes? <;> rfl
      simp [splitBlock, closes, outside, ih later]

/-- Cutting lexemes at a closing token cuts their solid tokens there. -/
theorem solid_cut (bracket : Bracket) (lexemes : List Lexeme) :
    solid (lexemes.takeWhile fun lexeme => lexeme.token ≠ .closing bracket) =
        (solid lexemes).takeWhile (· ≠ .closing bracket) ∧
      solid (lexemes.dropWhile fun lexeme => lexeme.token ≠ .closing bracket).tail =
        ((solid lexemes).dropWhile (· ≠ .closing bracket)).tail := by
  induction lexemes with
  | nil => exact ⟨rfl, rfl⟩
  | cons lexeme rest ih =>
    by_cases closes : lexeme.token = .closing bracket
    · simp [solid, closes, isSpacing]
    · cases spacing : isSpacing lexeme.token <;> simpa [solid, closes, spacing] using ih

/-- A block and what follows it are all there is, and what follows begins with the closing token. -/
theorem splitBlock_parts (bracket : Bracket) (brackets : List Bracket) (lexemes : List Lexeme) :
    (splitBlock bracket brackets lexemes).1 ++ (splitBlock bracket brackets lexemes).2 = lexemes ∧
      ∀ lexeme ∈ (splitBlock bracket brackets lexemes).2.head?,
        lexeme.token = .closing bracket := by
  induction lexemes generalizing brackets with
  | nil => exact ⟨rfl, nofun⟩
  | cons lexeme rest ih =>
    rw [splitBlock]
    split
    · next closes => simp_all
    · exact ⟨congrArg (lexeme :: ·) (ih _).1, (ih _).2⟩

/-- The block whose opening token was passed holds one string and nothing follows it, exactly if the
string is followed by its closing token or by nothing. -/
theorem splitBlock_quoted_iff {bracket : Bracket} {lexemes : List Lexeme} {text : String} :
    (solid (splitBlock bracket [] lexemes).1 = [.quoted text] ∧
        solid (splitBlock bracket [] lexemes).2.tail = []) ↔
      solid lexemes = [.quoted text, .closing bracket] ∨ solid lexemes = [.quoted text] := by
  constructor
  · rintro ⟨inside, after⟩
    obtain ⟨whole, closes⟩ := splitBlock_parts bracket [] lexemes
    rw [← whole, solid_append, inside]
    cases behind : (splitBlock bracket [] lexemes).2 with
    | nil => exact .inr rfl
    | cons lexeme rest =>
      rw [behind] at closes after
      have closing : lexeme.token = .closing bracket := closes lexeme rfl
      refine .inl ?_
      change _ ++ solid ([lexeme] ++ rest) = _
      rw [solid_append, show solid rest = [] from after]
      simp [solid, closing, isSpacing]
  · intro written
    have flat : ∀ lexeme ∈ lexemes, lexeme.token.opens? = none := by
      intro lexeme member
      cases spacing : isSpacing lexeme.token with
      | true => cases token : lexeme.token <;> simp_all [isSpacing, Token.opens?]
      | false =>
        have isSolid : lexeme.token ∈ solid lexemes :=
          List.mem_filter.mpr ⟨List.mem_map_of_mem member, by simp [spacing]⟩
        rcases written with same | same <;> rw [same] at isSolid <;>
          cases token : lexeme.token <;> simp_all [Token.opens?]
    obtain ⟨inside, after⟩ := solid_cut bracket lexemes
    rw [splitBlock_flat flat, inside, after]
    rcases written with same | same <;> simp [same]

/-- One solid token is left exactly if the next one has nothing behind it. -/
theorem solid_eq_singleton_iff {cursor : Cursor} {token : Token} :
    solid cursor.rest = [token] ↔
      cursor.nextSolid.1 = some token ∧ cursor.nextSolid.2.isExhausted = true := by
  rw [nextSolid_fst, isExhausted_iff, solid_nextSolid]
  cases solid cursor.rest <;> simp

end Css.Cursor

namespace Resolution

/-- The tokens of a value that are neither blanks nor comments. -/
def tokens (value : String) : List Css.Token :=
  Css.Cursor.solid (Css.Cursor.ofText value).rest

/-- Whether a value is `resolve` or `resolve-inherited`, in upper or lower case, with one string.
The closing parenthesis may be missing. -/
def isAsked (value : String) : Bool :=
  match tokens value with
  | [.function name, .quoted _] | [.function name, .quoted _, .closing .round] =>
    Text.sameIgnoringCase name "resolve" || Text.sameIgnoringCase name "resolve-inherited"
  | _ => false

theorem isSome_kind? (name : String) :
    (kind? name).isSome =
      (Text.sameIgnoringCase name "resolve" || Text.sameIgnoringCase name "resolve-inherited") := by
  unfold kind?
  grind

/-- A value reads as a resolution exactly if it is one of the two functions with one string, whose
closing parenthesis may be missing. -/
theorem parse?_eq_some_iff {value reference : String} {inherited : Bool} :
    parse? value = some ⟨reference, inherited⟩ ↔ ∃ name, kind? name = some inherited ∧
      (tokens value = [.function name, .quoted reference, .closing .round] ∨
        tokens value = [.function name, .quoted reference]) := by
  unfold parse? tokens
  generalize Css.Cursor.ofText value = cursor
  have first := cursor.nextSolid_fst
  have later := cursor.solid_nextSolid
  generalize cursor.nextSolid = read at first later ⊢
  obtain ⟨token, afterName⟩ := read
  dsimp only at first later
  subst first
  cases written : Css.Cursor.solid cursor.rest with
  | nil => simp
  | cons head rest =>
    cases head with
    | function name =>
      obtain rfl : Css.Cursor.solid afterName.rest = rest := by rw [later, written, List.tail_cons]
      have ends := @Css.Cursor.splitBlock_quoted_iff .round afterName.rest reference
      change Css.Cursor.solid (afterName.block .round).1.rest = _ ∧
        Css.Cursor.solid (afterName.block .round).2.rest = _ ↔ _ at ends
      cases kind : kind? name with
      | none => grind
      | some asked =>
        simp only [List.head?_cons, kind, Option.bind_eq_bind, Option.bind_some]
        generalize afterName.block .round = parts at ends ⊢
        obtain ⟨inside, after⟩ := parts
        rw [Css.Cursor.solid_eq_singleton_iff, ← Css.Cursor.isExhausted_iff] at ends
        dsimp only at ends ⊢
        generalize inside.nextSolid = read at ends ⊢
        obtain ⟨token, afterReference⟩ := read
        cases token with
        | none => grind
        | some token => cases token <;> grind
    | _ => simp

end Resolution

theorem Resolution.isSome_parse?_iff {value : String} :
    (parse? value).isSome = true ↔ ∃ name reference, (kind? name).isSome = true ∧
      (tokens value = [.function name, .quoted reference] ∨
        tokens value = [.function name, .quoted reference, .closing .round]) := by
  simp only [Option.isSome_iff_exists]
  constructor
  · rintro ⟨⟨reference, inherited⟩, reads⟩
    obtain ⟨name, kind, written⟩ := parse?_eq_some_iff.mp reads
    exact ⟨name, reference, ⟨inherited, kind⟩, written.symm⟩
  · rintro ⟨name, reference, ⟨inherited, kind⟩, written⟩
    exact ⟨⟨reference, inherited⟩, parse?_eq_some_iff.mpr ⟨name, kind, written.symm⟩⟩

/-- The declarations that read as resolutions are those whose values are written as one. -/
theorem Declaration.isResolution_eq (declaration : Declaration) :
    declaration.isResolution = Resolution.isAsked declaration.value := by
  rw [Bool.eq_iff_iff, isResolution, Resolution.isSome_parse?_iff]
  unfold Resolution.isAsked
  constructor
  · rintro ⟨name, reference, kind, written | written⟩ <;>
      simpa only [written, ← Resolution.isSome_kind?] using kind
  · intro asked
    split at asked
    · next name reference written =>
      exact ⟨name, reference, by rwa [Resolution.isSome_kind?], .inl written⟩
    · next name reference written =>
      exact ⟨name, reference, by rwa [Resolution.isSome_kind?], .inr written⟩
    · cases asked

/-- The value that asks for the inherited resolution of an object. -/
def Resolution.inheritedValue (reference : String) : String :=
  "resolve-inherited(\"" ++ reference ++ "\")"

theorem Resolution.toList_inheritedValue (reference : String) :
    (inheritedValue reference).toList =
      'r' :: ("esolve-inherited".toList ++ '(' :: '\x22' ::
        (reference.toList ++ '\x22' :: [')'])) := by
  unfold inheritedValue
  simp

theorem Resolution.inheritedValue_append (first second : String) :
    "resolve-inherited(\"" ++ first ++ second ++ "\")" = inheritedValue (first ++ second) := by
  unfold inheritedValue
  simp only [String.append_assoc]

/-- The value has three lexemes: the function, its string and its closing parenthesis. -/
theorem Resolution.tokens_inheritedValue {reference : String}
    (plain : ∀ c ∈ reference.toList, Css.isPlainInString c) :
    ((Css.Cursor.ofText (inheritedValue reference)).rest.map Css.Lexeme.token) =
      [.function "resolve-inherited", .quoted (String.ofList (reference.toList.map Css.clean)),
        .closing .round] := by
  have closing : Css.scanToken ')' [] = (.closing .round, []) := rfl
  unfold Css.Cursor.ofText
  rw [toList_inheritedValue, Css.lexemesFrom, Css.scanToken_resolveInherited]
  simp only [Css.lexemesFrom, Css.scanToken_quoted plain, closing, List.map_cons, List.map_nil]

theorem Resolution.parse_inheritedValue {reference : String}
    (plain : ∀ c ∈ reference.toList, Css.isPlainInString c) :
    parse? (inheritedValue reference) =
      some ⟨String.ofList (reference.toList.map Css.clean), true⟩ := by
  refine parse?_eq_some_iff.mpr ⟨"resolve-inherited", by decide, .inl ?_⟩
  rw [tokens, Css.Cursor.solid, tokens_inheritedValue plain]
  rfl

end StyleBlock
