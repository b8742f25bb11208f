import Mathlib
import StyleBlock.Sheet.Parser
import StyleBlock.Sheet.Printer

/-!
Texts without the blanks around them. Taking the blanks off takes nothing off the second time, so a
declaration that was read from a text is read again from the text it is written as.
-/

namespace StyleBlock.Text

theorem dropBlankEnd_eq (chars : List Char) : dropBlankEnd chars = chars.rdropWhile isBlank := rfl

theorem dropBlankEnd_append_blank (chars : List Char) {c : Char} (blank : isBlank c = true) :
    dropBlankEnd (chars ++ [c]) = dropBlankEnd chars :=
  List.rdropWhile_concat_pos isBlank chars c blank

theorem dropBlankEnd_append_solid (chars : List Char) {c : Char} (solid : isBlank c = false) :
    dropBlankEnd (chars ++ [c]) = chars ++ [c] :=
  List.rdropWhile_concat_neg isBlank chars c (by simp [solid])

/-- Only what stands behind a character that is no blank can be dropped. -/
theorem dropBlankEnd_append (chars : List Char) {c : Char} (solid : isBlank c = false)
    (rest : List Char) : dropBlankEnd (chars ++ c :: rest) = chars ++ c :: dropBlankEnd rest := by
  induction rest using List.reverseRecOn with
  | nil => exact dropBlankEnd_append_solid chars solid
  | append_singleton rest last ih =>
    rw [← List.cons_append, ← List.append_assoc]
    cases blank : isBlank last with
    | true => rw [dropBlankEnd_append_blank _ blank, ih, dropBlankEnd_append_blank _ blank]
    | false =>
      rw [dropBlankEnd_append_solid _ blank, dropBlankEnd_append_solid _ blank]
      simp

theorem dropBlankEnd_dropBlankEnd (chars : List Char) :
    dropBlankEnd (dropBlankEnd chars) = dropBlankEnd chars :=
  List.rdropWhile_idempotent isBlank chars

theorem trimChars_cons_blank {c : Char} (blank : isBlank c = true) (chars : List Char) :
    trimChars (c :: chars) = trimChars chars := by
  rw [trimChars, List.dropWhile_cons_of_pos blank, trimChars]

theorem trimChars_cons_solid {c : Char} (solid : isBlank c = false) (chars : List Char) :
    trimChars (c :: chars) = c :: dropBlankEnd chars := by
  rw [trimChars, List.dropWhile_cons_of_neg (by simp [solid])]
  exact dropBlankEnd_append [] solid chars

theorem trimChars_append_blank (chars : List Char) {c : Char} (blank : isBlank c = true) :
    trimChars (chars ++ [c]) = trimChars chars := by
  induction chars with
  | nil => rw [List.nil_append, trimChars_cons_blank blank]
  | cons first chars ih =>
    rw [List.cons_append]
    cases solid : isBlank first with
    | true => rw [trimChars_cons_blank solid, trimChars_cons_blank solid, ih]
    | false =>
      rw [trimChars_cons_solid solid, trimChars_cons_solid solid, dropBlankEnd_append_blank _ blank]

/-- Nothing is left to drop in front of what was dropped. -/
theorem trimChars_dropBlankEnd (chars : List Char) :
    trimChars (dropBlankEnd chars) = trimChars chars := by
  induction chars using List.reverseRecOn with
  | nil => rfl
  | append_singleton chars last ih =>
    cases solid : isBlank last with
    | true => rw [dropBlankEnd_append_blank _ solid, ih, trimChars_append_blank _ solid]
    | false => rw [dropBlankEnd_append_solid _ solid]

theorem trimChars_sublist (chars : List Char) : (trimChars chars).Sublist chars :=
  (List.rdropWhile_prefix ..).sublist.trans (List.dropWhile_sublist _)

theorem trimChars_trimChars (chars : List Char) :
    trimChars (trimChars chars) = trimChars chars := by
  induction chars with
  | nil => rfl
  | cons c chars ih =>
    cases solid : isBlank c with
    | true => rw [trimChars_cons_blank solid, ih]
    | false =>
      rw [trimChars_cons_solid solid, trimChars_cons_solid solid, dropBlankEnd_dropBlankEnd]

end StyleBlock.Text

namespace StyleBlock

/-- Whether a text has no blank at its ends. -/
def IsTrimmed (text : String) : Prop := Text.trimChars text.toList = text.toList

theorem isTrimmed_trimChars (chars : List Char) :
    IsTrimmed (String.ofList (Text.trimChars chars)) := by
  rw [IsTrimmed, String.toList_ofList, Text.trimChars_trimChars]

theorem splitImportant_append (chars : List Char) :
    splitImportant (chars ++ "!important".toList) = (Text.dropBlankEnd chars, true) := by
  have after :
      (chars ++ "!important".toList).reverse.takeWhile (· != '!') = "tnatropmi".toList := by
    rw [List.reverse_append]
    rfl
  have size : (chars ++ "!important".toList).length = chars.length + 10 := by
    rw [List.length_append]
    rfl
  have word : Text.sameIgnoringCase (String.ofList (Text.trimChars "tnatropmi".toList.reverse))
      "important" = true := by decide
  have nine : "tnatropmi".toList.length = 9 := rfl
  have longer : (9 < chars.length + 10) = True := by simp
  have kept : chars.length + 10 - 9 - 1 = chars.length := by omega
  unfold splitImportant
  rw [after]
  dsimp only
  rw [size, nine, word, kept, List.take_left]
  simp [longer]

/-- The value that is left of a trimmed one when `!important` is taken off starts like it. -/
theorem splitImportant_cases {chars value : List Char} {important : Bool}
    (split : splitImportant chars = (value, important)) :
    (important = false ∧ value = chars) ∨
      (important = true ∧ ∃ kept, kept <+: chars ∧ value = Text.dropBlankEnd kept) := by
  unfold splitImportant at split
  dsimp only at split
  split at split
  · cases split
    exact .inr ⟨rfl, _, List.take_prefix .., rfl⟩
  · cases split
    exact .inl ⟨rfl, rfl⟩

theorem head_trimChars (chars : List Char) :
    ∀ c ∈ (Text.trimChars chars).head?, Text.isBlank c = false := by
  induction chars with
  | nil => nofun
  | cons first chars ih =>
    cases solid : Text.isBlank first with
    | true => rwa [Text.trimChars_cons_blank solid]
    | false =>
      rw [Text.trimChars_cons_solid solid]
      rintro _ ⟨⟩
      exact solid

/-- A value that was split is split the same way when it is written behind a colon. -/
theorem splitImportant_written {chars value : List Char} {important : Bool}
    (split : splitImportant (Text.trimChars chars) = (value, important)) :
    splitImportant (Text.trimChars
      (' ' :: (value ++ if important then " !important".toList else []))) = (value, important) := by
  have blank : Text.isBlank ' ' = true := rfl
  rw [Text.trimChars_cons_blank blank]
  rcases splitImportant_cases split with ⟨rfl, rfl⟩ | ⟨rfl, kept, isKept, rfl⟩
  · rw [if_neg (by decide), List.append_nil, Text.trimChars_trimChars, split]
  · have bang : " !important".toList = ' ' :: "!important".toList := rfl
    have solid : Text.isBlank '!' = false := rfl
    have ending : Text.dropBlankEnd "important".toList = "important".toList := by decide
    have whole : ∀ front : List Char, Text.dropBlankEnd (front ++ ' ' :: "!important".toList) =
        front ++ ' ' :: "!important".toList := by
      intro front
      have kept := Text.dropBlankEnd_append (front ++ [' ']) solid "important".toList
      rw [ending] at kept
      simpa using kept
    rw [if_pos rfl, bang]
    have first : ∀ c ∈ (Text.dropBlankEnd kept).head?, Text.isBlank c = false := by
      intro c isFirst
      obtain ⟨more, same⟩ := (List.rdropWhile_prefix Text.isBlank kept).trans isKept
      refine head_trimChars chars c ?_
      rw [← same, List.head?_append]
      exact Option.mem_def.mpr (by rw [← Text.dropBlankEnd_eq, isFirst]; rfl)
    cases isValue : Text.dropBlankEnd kept with
    | nil =>
      rw [List.nil_append, Text.trimChars_cons_blank blank]
      exact splitImportant_append []
    | cons c value =>
      rw [isValue] at first
      rw [List.cons_append, Text.trimChars_cons_solid (first c rfl), whole]
      have split := splitImportant_append (c :: value ++ [' '])
      rw [Text.dropBlankEnd_append_blank _ blank, ← isValue, Text.dropBlankEnd_dropBlankEnd,
        isValue] at split
      simpa using split

theorem Declaration.write_eq (declaration : Declaration) :
    declaration.write = declaration.property.toList ++ ':' :: ' ' ::
      (declaration.value.toList ++ if declaration.important then " !important".toList else []) := by
  unfold write
  simp only [List.append_assoc, List.cons_append, List.nil_append]

/-- A declaration that was read reads back when it is written. -/
theorem Declaration.parse?_write {text : List Char} {place : Text.Position}
    {declaration : Declaration} (read : parse? text place = some declaration)
    (other : Text.Position) :
    parse? (Text.trimChars declaration.write) other = some { declaration with place := other } := by
  have colon : Text.isBlank ':' = false := rfl
  unfold parse? at read
  dsimp only at read
  split at read
  · cases read
  rename_i sign rest parted
  split at read
  · cases read
  rename_i filled
  generalize split : splitImportant (Text.trimChars rest) = parts at read
  obtain ⟨value, important⟩ := parts
  cases read
  -- the property is trimmed, is not empty and holds no colon
  generalize isProperty : Text.trimChars (text.takeWhile (· != ':')) = property at filled
  have noColon : ∀ c ∈ property, (c != ':') = true := by
    intro c member
    rw [← isProperty] at member
    exact List.mem_takeWhile_imp (p := (· != ':')) ((Text.trimChars_sublist _).subset member)
  obtain ⟨first, others, rfl⟩ := List.exists_cons_of_ne_nil (by simpa using filled)
  have solid : Text.isBlank first = false :=
    head_trimChars (text.takeWhile (· != ':')) first (by rw [isProperty]; rfl)
  have trimmed : Text.trimChars (first :: others) = first :: others := by
    rw [← isProperty, Text.trimChars_trimChars]
  generalize isTail : (' ' :: (value ++ if important then " !important".toList else [])) = tail
  have readsTail := splitImportant_written split
  rw [isTail] at readsTail
  have written : Text.trimChars
      (write ⟨String.ofList (first :: others), String.ofList value, important, place⟩) =
        (first :: others) ++ ':' :: Text.dropBlankEnd tail := by
    rw [List.cons_append, ← Text.dropBlankEnd_append others colon,
      ← Text.trimChars_cons_solid solid,
      ← isTail, write_eq, String.toList_ofList, String.toList_ofList]
    rfl
  have front : ((first :: others) ++ ':' :: Text.dropBlankEnd tail).takeWhile (· != ':') =
      first :: others := by
    rw [List.takeWhile_append_of_pos noColon, List.takeWhile_cons_of_neg (by simp),
      List.append_nil]
  have back : ((first :: others) ++ ':' :: Text.dropBlankEnd tail).dropWhile (· != ':') =
      ':' :: Text.dropBlankEnd tail := by
    rw [List.dropWhile_append_of_pos noColon, List.dropWhile_cons_of_neg (by simp)]
  unfold parse?
  rw [written, front, back, trimmed]
  dsimp only
  rw [Text.trimChars_dropBlankEnd, readsTail]
  rfl

end StyleBlock
