import StyleBlock.Proofs.Outcome
import StyleBlock.Proofs.Remainders

/-!
Places in a text. A place is told by three counts, and the offset alone says which characters come
before it; so the three agree exactly when line and column are those behind these characters. Places
add up along cuts that leave line ends whole, and every lexeme starts and ends at such a cut.
-/

namespace StyleBlock.Text

open Css (KeepsLineEnds)

variable {text before after rest taken : List Char} {place : Position} {c : Char}

/-- How many UTF-8 bytes a run of characters takes. -/
def byteCount (chars : List Char) : Nat :=
  (chars.map Char.utf8Size).sum

/-- How many UTF-16 units a run of characters takes. -/
def unitCount (chars : List Char) : Nat :=
  (chars.map units).sum

@[simp] theorem byteCount_nil : byteCount [] = 0 := rfl

@[simp] theorem byteCount_cons (c : Char) (rest : List Char) :
    byteCount (c :: rest) = c.utf8Size + byteCount rest := by
  simp [byteCount]

@[simp] theorem byteCount_append (first second : List Char) :
    byteCount (first ++ second) = byteCount first + byteCount second := by
  simp [byteCount]

@[simp] theorem unitCount_nil : unitCount [] = 0 := rfl

@[simp] theorem unitCount_cons (c : Char) (rest : List Char) :
    unitCount (c :: rest) = units c + unitCount rest := by
  simp [unitCount]

/-- A character takes one byte if it is in ASCII, and more bytes than units otherwise. -/
theorem units_utf8Size (c : Char) :
    c.toNat < 128 ∧ units c = 1 ∧ c.utf8Size = 1 ∨ 128 ≤ c.toNat ∧ units c < c.utf8Size := by
  unfold units Char.utf8Size
  simp only [UInt32.le_iff_toNat_le, Char.toNat]
  split_ifs <;> simp_all <;> omega

theorem unitCount_le (chars : List Char) : unitCount chars ≤ byteCount chars := by
  induction chars with
  | nil => exact Nat.le_refl 0
  | cons c rest ih =>
    have := units_utf8Size c
    simp only [unitCount_cons, byteCount_cons]
    omega

/-- Bytes and units are counted alike in ASCII only, one for each character. -/
theorem unitCount_eq_iff (chars : List Char) :
    unitCount chars = byteCount chars ↔ ∀ c ∈ chars, c.toNat < 128 := by
  induction chars with
  | nil => simp
  | cons c rest ih =>
    have := units_utf8Size c
    have := unitCount_le rest
    simp only [unitCount_cons, byteCount_cons, List.forall_mem_cons, ← ih]
    omega

theorem unitCount_of_ascii {chars : List Char} (ascii : ∀ c ∈ chars, c.toNat < 128) :
    unitCount chars = chars.length := by
  induction chars with
  | nil => rfl
  | cons c rest ih =>
    have := units_utf8Size c
    have := ascii c (List.mem_cons_self ..)
    have := ih fun d member => ascii d (List.mem_cons_of_mem c member)
    simp only [unitCount_cons, List.length_cons]
    omega

/-- The bytes before a place say which characters come before it. -/
theorem prefix_of_byteCount_le {other later : List Char}
    (same : before ++ rest = other ++ later) (fewer : byteCount before ≤ byteCount other) :
    ∃ between, other = before ++ between ∧ rest = between ++ later := by
  rcases List.append_eq_append_iff.mp same with ⟨between, rfl, rfl⟩ | ⟨between, rfl, rfl⟩
  · exact ⟨between, rfl, rfl⟩
  · cases between with
    | nil => exact ⟨[], by simp⟩
    | cons c between =>
      have := c.utf8Size_pos
      simp only [byteCount_append, byteCount_cons] at fewer
      omega

theorem eq_of_byteCount_eq {other later : List Char} (same : before ++ rest = other ++ later)
    (bytes : byteCount before = byteCount other) : before = other ∧ rest = later := by
  obtain ⟨between, rfl, rfl⟩ := prefix_of_byteCount_le same (Nat.le_of_eq bytes)
  cases between with
  | nil => exact ⟨(List.append_nil before).symm, rfl⟩
  | cons c between =>
    have := c.utf8Size_pos
    simp only [byteCount_append, byteCount_cons] at bytes
    omega

namespace Position

/-! Counting on -/

theorem offset_after (place : Position) (chars : List Char) :
    (place.after chars).offset = place.offset + byteCount chars := by
  fun_induction after place chars with
  | case1 place rest ih =>
    rw [ih]
    simp only [byteCount_cons, show ('\r' : Char).utf8Size = 1 from rfl,
      show ('\n' : Char).utf8Size = 1 from rfl]
    omega
  | case2 place c rest _ ih =>
    have : (place.step c).offset = place.offset + c.utf8Size := by
      unfold step
      split <;> rfl
    rw [ih, this, byteCount_cons, Nat.add_assoc]
  | case3 => rfl

theorem offset_start_after (chars : List Char) : (start.after chars).offset = byteCount chars := by
  rw [offset_after]
  exact Nat.zero_add _

/-- Places add up along a cut that leaves line ends whole. -/
theorem after_append (place : Position) {first second : List Char}
    (whole : KeepsLineEnds first second) :
    place.after (first ++ second) = (place.after first).after second := by
  fun_induction after place first with
  | case1 place rest ih =>
    rw [List.cons_append, List.cons_append, after]
    exact ih whole.tail.tail
  | case2 place c rest single ih =>
    rw [List.cons_append, after]
    · exact ih whole.tail
    · intro later isReturn isFeed
      cases rest with
      | nil => exact whole (by rw [isReturn]; rfl) (by rw [← List.nil_append second, isFeed]; rfl)
      | cons d rest =>
        rw [List.cons_append] at isFeed
        obtain ⟨rfl, rfl⟩ := List.cons.inj isFeed
        exact single rest isReturn rfl
  | case3 => rfl

theorem line_le_after (place : Position) (chars : List Char) :
    place.line ≤ (place.after chars).line := by
  fun_induction after place chars with
  | case1 place rest ih =>
    dsimp only at ih
    omega
  | case2 place c rest _ ih =>
    refine Nat.le_trans ?_ ih
    unfold step
    split
    · exact Nat.le_succ place.line
    · exact Nat.le_refl place.line
  | case3 => exact Nat.le_refl _

/-- Within one line only the column and the offset go on. -/
theorem after_inLine (place : Position) {chars : List Char}
    (inLine : ∀ c ∈ chars, ¬isLineEnd c = true) :
    place.after chars =
      ⟨place.line, place.column + unitCount chars, place.offset + byteCount chars⟩ := by
  fun_induction after place chars with
  | case1 => exact absurd (by decide) (inLine '\r' (List.mem_cons_self ..))
  | case2 place c rest _ ih =>
    have here := inLine c (List.mem_cons_self ..)
    rw [ih fun d member => inLine d (List.mem_cons_of_mem c member), step, if_neg here]
    simp [Nat.add_assoc]
  | case3 => rfl

/-- A line end among the characters leads to a later line. -/
theorem line_lt_after (place : Position) {chars : List Char} (member : c ∈ chars)
    (ends : isLineEnd c = true) : place.line < (place.after chars).line := by
  fun_induction after place chars with
  | case1 place rest ih =>
    have := line_le_after ⟨place.line + 1, 1, place.offset + 2⟩ rest
    dsimp only at this
    omega
  | case2 place d rest _ ih =>
    rcases List.mem_cons.mp member with rfl | member
    · refine Nat.lt_of_lt_of_le ?_ (line_le_after ..)
      rw [step, if_pos ends]
      exact Nat.lt_succ_self _
    · refine Nat.lt_of_le_of_lt ?_ (ih member)
      unfold step
      split
      · exact Nat.le_succ place.line
      · exact Nat.le_refl place.line
  | case3 => cases member

/-! Places of a text -/

/-- Whether a place lies in a text, before one of its characters, and line and column are those of
its offset. -/
def PointsInto (place : Position) (text : List Char) : Prop :=
  ∃ before after, text = before ++ after ∧ after ≠ [] ∧ place = start.after before

/-- Whether a place is that of a cut of a text that leaves line ends whole and has `rest` behind
it. -/
def Leaves (place : Position) (text rest : List Char) : Prop :=
  ∃ before, text = before ++ rest ∧ KeepsLineEnds before rest ∧ place = start.after before

theorem start_leaves (text : List Char) : start.Leaves text text :=
  ⟨[], rfl, .nil text, rfl⟩

theorem Leaves.pointsInto (leaves : place.Leaves text rest) (more : rest ≠ []) :
    place.PointsInto text :=
  let ⟨before, whole, _, same⟩ := leaves
  ⟨before, rest, whole, more, same⟩

theorem Leaves.append (leaves : place.Leaves text (taken ++ rest))
    (whole : KeepsLineEnds taken rest) : (place.after taken).Leaves text rest := by
  obtain ⟨before, rfl, cut, rfl⟩ := leaves
  exact ⟨before ++ taken, (List.append_assoc ..).symm, whole.append cut,
    (after_append start cut.left).symm⟩

/-- What comes behind a place of a text. -/
theorem Leaves.rest_eq {other : List Char} (leaves : place.Leaves text rest)
    (whole : text = before ++ other) (same : place = start.after before) : other = rest := by
  obtain ⟨first, rfl, _, isPlace⟩ := leaves
  have bytes := congrArg Position.offset (isPlace.symm.trans same)
  simp only [offset_start_after] at bytes
  exact (eq_of_byteCount_eq whole bytes).2.symm

/-- A place on another line than the one its offset is on. -/
theorem Leaves.not_pointsInto (leaves : place.Leaves text rest) {line column : Nat}
    (other : line ≠ place.line) : ¬(Position.mk line column place.offset).PointsInto text := by
  obtain ⟨before, rfl, _, rfl⟩ := leaves
  rintro ⟨first, later, same, _, isPlace⟩
  have bytes := congrArg Position.offset isPlace
  simp only [offset_start_after] at bytes
  obtain ⟨rfl, rfl⟩ := eq_of_byteCount_eq same bytes
  exact other (congrArg Position.line isPlace)

/-- Going on by as many columns as bytes leads to a place as long as each character on the way takes
one byte and ends no line. -/
theorem Leaves.shift_pointsInto_iff (leaves : place.Leaves text rest) {count : Nat}
    (below : (∀ c ∈ rest.take count, c.toNat < 128) → count < rest.length) :
    (Position.mk place.line (place.column + count) (place.offset + count)).PointsInto text ↔
      ∀ c ∈ rest.take count, c.toNat < 128 ∧ ¬isLineEnd c = true := by
  obtain ⟨before, rfl, cut, rfl⟩ := leaves
  constructor
  · rintro ⟨other, later, same, more, isPlace⟩
    have offset := congrArg Position.offset isPlace
    simp only [offset_start_after] at offset
    obtain ⟨between, rfl, rfl⟩ := prefix_of_byteCount_le same (by omega)
    rw [after_append start cut.left] at isPlace
    have inLine : ∀ c ∈ between, ¬isLineEnd c = true := by
      intro c member ends
      have further := line_lt_after (start.after before) member ends
      rw [← isPlace] at further
      exact Nat.lt_irrefl _ further
    rw [after_inLine _ inLine] at isPlace
    obtain ⟨-, columns, offsets⟩ := (Position.mk.injEq ..).mp isPlace
    have ascii := (unitCount_eq_iff between).mp (by omega)
    have length := unitCount_of_ascii ascii
    rw [List.take_left' (by omega)]
    exact fun c member => ⟨ascii c member, inLine c member⟩
  · intro plain
    have ascii : ∀ c ∈ rest.take count, c.toNat < 128 := fun c member => (plain c member).1
    have fits := below ascii
    have length : (rest.take count).length = count := List.length_take_of_le (Nat.le_of_lt fits)
    have apart : KeepsLineEnds before (rest.take count) :=
      KeepsLineEnds.left (by rwa [List.take_append_drop])
    refine ⟨before ++ rest.take count, rest.drop count, by simp, by simpa using fits, ?_⟩
    rw [after_append start apart, after_inLine _ fun c member => (plain c member).2,
      ← (unitCount_eq_iff _).mpr ascii, unitCount_of_ascii ascii, length]

/-- Whether a text can be cut at a place so that line ends stay whole. -/
def IsCutOf (place : Position) (text : List Char) : Prop :=
  ∃ rest, place.Leaves text rest

end Position

end StyleBlock.Text

namespace StyleBlock.Css

open Text (Position)

/-! The places of lexemes -/

/-- Whether a lexeme is what the scanner takes when `rest` is left behind it. -/
def Lexeme.IsCutOff (lexeme : Lexeme) (rest : List Char) : Prop :=
  ∃ c taken, lexeme.text = c :: taken ∧ scanToken c (taken ++ rest) = (lexeme.token, rest)

namespace Lexeme.IsCutOff

variable {lexeme : Lexeme} {text rest : List Char} (cutOff : lexeme.IsCutOff rest)
include cutOff

theorem text_ne_nil : lexeme.text ≠ [] := by
  obtain ⟨c, taken, written, _⟩ := cutOff
  rw [written]
  exact List.cons_ne_nil c taken

theorem keepsLineEnds : KeepsLineEnds lexeme.text rest := by
  obtain ⟨c, taken, written, scan⟩ := cutOff
  obtain ⟨cut, whole, keeps⟩ := scanToken_cut c (taken ++ rest)
  rw [scan] at whole keeps
  rw [← List.cons_append] at whole
  rw [written, List.append_cancel_right whole]
  exact keeps

theorem ending_leaves (starts : lexeme.start.Leaves text (lexeme.text ++ rest)) :
    lexeme.ending.Leaves text rest :=
  starts.append cutOff.keepsLineEnds

end Lexeme.IsCutOff

/-- The first lexeme of a text, and those behind it. -/
theorem lexemesFrom_cons (place : Position) (c : Char) (rest : List Char) :
    ∃ lexeme after, lexeme.IsCutOff after ∧ lexeme.start = place ∧
      c :: rest = lexeme.text ++ after ∧ after.length ≤ rest.length ∧
      lexemesFrom place (c :: rest) =
        (lexeme :: (lexemesFrom lexeme.ending after).1, (lexemesFrom lexeme.ending after).2) := by
  obtain ⟨taken, whole⟩ := scanToken_suffix c rest
  have shorter := length_scanToken c rest
  generalize scan : scanToken c rest = scanned at whole shorter
  obtain ⟨token, after⟩ := scanned
  dsimp only at whole shorter
  subst whole
  refine ⟨⟨token, c :: taken, place⟩, after, ⟨c, taken, rfl, scan⟩, rfl, rfl, shorter, ?_⟩
  rw [lexemesFrom, scan]
  simp [Lexeme.ending]

/-- Induction over the lexemes of a text. -/
theorem lexemesFrom_induction {motive : Position → List Char → Prop}
    (nil : ∀ place, motive place [])
    (cons : ∀ (lexeme : Lexeme) (rest : List Char), lexeme.IsCutOff rest →
      lexemesFrom lexeme.start (lexeme.text ++ rest) =
        (lexeme :: (lexemesFrom lexeme.ending rest).1, (lexemesFrom lexeme.ending rest).2) →
      motive lexeme.ending rest → motive lexeme.start (lexeme.text ++ rest))
    (place : Position) (chars : List Char) : motive place chars := by
  generalize size : chars.length = length
  induction length using Nat.strongRecOn generalizing place chars with
  | ind length ih =>
    cases chars with
    | nil => exact nil place
    | cons c rest =>
      obtain ⟨lexeme, after, cutOff, rfl, whole, shorter, split⟩ := lexemesFrom_cons place c rest
      rw [whole] at split ⊢
      exact cons lexeme after cutOff split
        (ih _ (by rw [← size, List.length_cons]; omega) _ _ rfl)

/-- The place where the lexemes of a text end is the end of the text. -/
theorem ending_lexemesFrom {text chars : List Char} {place : Position}
    (leaves : place.Leaves text chars) : (lexemesFrom place chars).2.Leaves text [] := by
  induction place, chars using lexemesFrom_induction with
  | nil place =>
    rw [lexemesFrom]
    exact leaves
  | cons lexeme rest cutOff split ih =>
    rw [split]
    exact ih (cutOff.ending_leaves leaves)

/-- A fold over the lexemes of a text, told by what is left of the text. -/
theorem ends_foldlM_lexemes {ε β : Type} {bad : ε → Prop} {step : β → Lexeme → Except ε β}
    {text chars : List Char} {place : Position} (known : List Char → β → Prop)
    (next : ∀ {lexeme : Lexeme} {rest state}, lexeme.IsCutOff rest →
      lexeme.start.Leaves text (lexeme.text ++ rest) → known (lexeme.text ++ rest) state →
        Ends (known rest) bad (step state lexeme))
    (leaves : place.Leaves text chars) {state : β} (here : known chars state) :
    Ends (known []) bad ((lexemesFrom place chars).1.foldlM step state) := by
  induction place, chars using lexemesFrom_induction generalizing state with
  | nil place =>
    rw [lexemesFrom]
    exact here
  | cons lexeme rest cutOff split ih =>
    rw [split, List.foldlM_cons]
    exact (next cutOff leaves here).bind fun _ later => ih (cutOff.ending_leaves leaves) later

end StyleBlock.Css
