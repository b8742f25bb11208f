import StyleBlock.Proofs.Outcome
import StyleBlock.Sheet.Parser

/-!
What a reader of sheets keeps. A reader moves in five ways: it takes up or drops an item, adds a
comment, opens a body, closes one, or ends an item. What each of them keeps holds of every sheet
that is read.
-/

namespace StyleBlock

open Css (scanComment)

/-! Comments -/

/-- Whether a text is the inside of a comment that ends right behind it. -/
def IsCommentText (text : List Char) : Prop :=
  ∀ rest, scanComment (text ++ '*' :: '/' :: rest) = (text, rest)

/-- The inside of a comment does not start with what cannot come next. -/
theorem head_scanComment {chars : List Char} {c : Char}
    (first : (scanComment chars).1.head? = some c) :
    chars.head? = some c := by
  fun_cases scanComment chars with
  | case1 | case2 => simp [scanComment] at first
  | case3 d rest other text after same =>
    rw [scanComment, same] at first
    · exact first
    · exact other

theorem scanComment_cons {c : Char} {chars : List Char}
    (other : c = '*' → chars.head? ≠ some '/') :
    scanComment (c :: chars) = (c :: (scanComment chars).1, (scanComment chars).2) := by
  rw [scanComment]
  intro rest isStar isSlash
  exact other isStar (by rw [isSlash]; rfl)

theorem isCommentText_scanComment (chars : List Char) : IsCommentText (scanComment chars).1 := by
  fun_induction scanComment chars with
  | case1 | case2 => exact fun rest => rfl
  | case3 c rest other text after same ih =>
    rw [same] at ih
    intro later
    have apart : c = '*' → (text ++ '*' :: '/' :: later).head? ≠ some '/' := by
      intro isStar isSlash
      have first : text.head? = some '/' := by
        cases text with
        | nil => simp at isSlash
        | cons d text => exact isSlash
      have slash := head_scanComment (c := '/') (by rw [same]; exact first)
      obtain ⟨more, rfl⟩ := List.head?_eq_some_iff.mp slash
      exact other more isStar rfl
    rw [List.cons_append, scanComment_cons apart, ih later]

theorem scanIdentLike_ne_comment (chars : List Char) (text : String) :
    (Css.scanIdentLike chars).1 ≠ .comment text := by
  unfold Css.scanIdentLike
  dsimp only
  split
  · split
    · unfold Css.scanAddress
      split
      · simp
      · split
        · simp
        · split <;> simp
    · simp
  · simp

/-- The token of a comment holds what the scanner found inside it. -/
theorem isCommentText_scanToken {c : Char} {rest : List Char} {text : String}
    (isComment : (Css.scanToken c rest).1 = .comment text) : IsCommentText text.toList := by
  unfold Css.scanToken at isComment
  split at isComment
  · cases isComment
  split at isComment
  · unfold Css.scanQuoted at isComment
    dsimp only at isComment
    split at isComment <;> cases isComment
  split at isComment
  · unfold Css.scanNumber at isComment
    dsimp only at isComment
    split at isComment
    · cases isComment
    · split at isComment <;> cases isComment
  split at isComment
  · cases isComment
  split at isComment
  · exact absurd isComment (scanIdentLike_ne_comment _ text)
  split at isComment
  · cases isComment
    rw [String.toList_ofList]
    exact isCommentText_scanComment _
  split at isComment
  · cases isComment
  split at isComment
  case h_1 =>
    unfold Css.scanHash at isComment
    split at isComment
    · cases isComment
    · split at isComment <;> cases isComment
  case h_16 => split at isComment <;> cases isComment
  case h_2 | h_3 | h_4 | h_5 | h_6 =>
    unfold Css.scanMatch at isComment
    split at isComment <;> cases isComment
  all_goals cases isComment

theorem isCommentText_of_mem {place : Text.Position} {chars : List Char} {lexeme : Css.Lexeme}
    (member : lexeme ∈ (Css.lexemesFrom place chars).1) {text : String}
    (isComment : lexeme.token = .comment text) : IsCommentText text.toList := by
  generalize size : chars.length = length
  induction length using Nat.strongRecOn generalizing chars place with
  | ind length ih =>
    cases chars with
    | nil =>
      rw [Css.lexemesFrom] at member
      cases member
    | cons c rest =>
      rw [Css.lexemesFrom] at member
      rcases List.mem_cons.mp member with rfl | member
      · exact isCommentText_scanToken isComment
      · have shorter := Css.length_scanToken c rest
        exact ih _ (by rw [← size, List.length_cons]; omega) member rfl

/-! Moves -/

namespace SheetReader

/-- What each move of a reader keeps. -/
structure IsKept (Keeps : SheetReader → Prop) : Prop where
  withItem : ∀ {reader : SheetReader} (item : Option OpenItem), Keeps reader →
    Keeps { reader with item }
  comment : ∀ {reader : SheetReader} {text : String}, IsCommentText text.toList → Keeps reader →
    Keeps (reader.add (.comment text))
  openBody : ∀ {reader : SheetReader} (item : OpenItem), Keeps reader → Keeps (reader.openBody item)
  closeBody : ∀ {reader : SheetReader}, Keeps reader → Keeps reader.closeBody
  endItem : ∀ {reader : SheetReader} {item : OpenItem} {after : SheetReader},
    reader.endItem item = .ok after → Keeps reader → Keeps after

namespace IsKept

variable {Keeps : SheetReader → Prop} (kept : IsKept Keeps) {reader : SheetReader}
include kept

theorem beginItem {lexeme : Css.Lexeme}
    (comment : ∀ text, lexeme.token = .comment text → IsCommentText text.toList)
    (keeps : Keeps reader) : Keeps (reader.beginItem lexeme) := by
  unfold SheetReader.beginItem
  dsimp only
  split
  case h_1 | h_2 | h_3 | h_4 => exact keeps
  case h_5 text isComment => exact kept.comment (comment text isComment) keeps
  case h_6 => exact kept.withItem _ keeps
  case h_7 => exact kept.openBody _ keeps
  case h_8 =>
    split
    · exact kept.closeBody keeps
    · exact kept.withItem _ keeps

/-- One lexeme keeps what the moves keep. -/
theorem step {lexeme : Css.Lexeme}
    (comment : ∀ text, lexeme.token = .comment text → IsCommentText text.toList)
    {after : SheetReader} (keeps : Keeps reader) (stepped : reader.step lexeme = .ok after) :
    Keeps after := by
  unfold SheetReader.step at stepped
  split at stepped
  · cases stepped
    exact kept.beginItem comment keeps
  · rename_i item begun
    split at stepped
    · cases stepped
      exact kept.withItem _ keeps
    split at stepped
    · exact kept.endItem stepped keeps
    split at stepped
    · cases stepped
      exact kept.openBody item keeps
    split at stepped
    · obtain ⟨closed, ended, rfl⟩ := map_eq_ok_iff.mp stepped
      exact kept.closeBody (kept.endItem ended keeps)
    · cases stepped
      exact kept.withItem _ keeps

theorem closeBodies (bodies : List OpenBody) (keeps : Keeps reader) :
    Keeps (bodies.foldl (fun reader _ => reader.closeBody) reader) := by
  induction bodies generalizing reader with
  | nil => exact keeps
  | cons body rest ih => exact ih (kept.closeBody keeps)

end IsKept

variable {reader : SheetReader}

theorem bodies_closeBody (reader : SheetReader) : reader.closeBody.bodies = reader.bodies.tail := by
  obtain ⟨bodies, nodes, item, nextRule⟩ := reader
  cases bodies with
  | nil => rfl
  | cons body outer =>
    unfold SheetReader.closeBody
    dsimp only
    split <;> rfl

theorem bodies_closeBodies {bodies : List OpenBody} (same : reader.bodies = bodies) :
    (bodies.foldl (fun reader _ => reader.closeBody) reader).bodies = [] := by
  induction bodies generalizing reader with
  | nil => exact same
  | cons body rest ih =>
    exact @ih reader.closeBody (by rw [bodies_closeBody, same, List.tail_cons])

/-- At the end the item ends first, if there is one, and then the bodies. -/
theorem exists_of_finish {after : SheetReader} (finished : reader.finish = .ok after) :
    ∃ ended : SheetReader, (ended = reader ∨ ∃ item, reader.endItem item = .ok ended) ∧
      after = ended.bodies.foldl (fun reader _ => reader.closeBody) ended := by
  cases begun : reader.item with
  | none =>
    simp only [SheetReader.finish, begun] at finished
    cases finished
    exact ⟨reader, .inl rfl, rfl⟩
  | some item =>
    simp only [SheetReader.finish, begun] at finished
    obtain ⟨ended, last, finished⟩ := bind_eq_ok_iff.mp finished
    cases finished
    exact ⟨ended, .inr ⟨item, last⟩, rfl⟩

end SheetReader

/-- A sheet that was read is what a reader has at the end, with all bodies closed, and the reader
keeps what its moves keep. -/
theorem exists_reader_of_parseSheet {Keeps : SheetReader → Prop} (kept : SheetReader.IsKept Keeps)
    (start : Keeps .start) {text file : String} {sheet : Sheet}
    (read : parseSheet text file = .ok sheet) :
    ∃ reader : SheetReader, Keeps reader ∧ reader.bodies = [] ∧
      sheet = ⟨file, reader.nodes.reverse, reader.nextRule⟩ := by
  obtain ⟨reader, stepped, read⟩ := bind_eq_ok_iff.mp read
  obtain ⟨done, finished, read⟩ := bind_eq_ok_iff.mp read
  cases read
  have keeps := foldlM_keeps Keeps
    (fun member keeps stepped => kept.step (fun _ => isCommentText_of_mem member) keeps stepped)
    start stepped
  obtain ⟨ended, cause, rfl⟩ := SheetReader.exists_of_finish finished
  refine ⟨_, kept.closeBodies _ ?_, SheetReader.bodies_closeBodies rfl, rfl⟩
  rcases cause with rfl | ⟨item, last⟩
  · exact keeps
  · exact kept.endItem last keeps

end StyleBlock
