import StyleBlock.Proofs.Delimiters
import StyleBlock.Proofs.ReadNodes
import StyleBlock.Proofs.SourceNames
import StyleBlock.Proofs.UnplacedReading

/-!
Lines that keep to themselves. Where the delimiter behind a text is a token of its own and nothing
in the text ends an item, a reader that comes to the line between two items takes the whole text,
and no more, as one item.
-/

namespace StyleBlock

open Css (Bracket IsDelimiter Lexeme Token isSpace pieces scanToken textOf tokens)

/-- Whether tokens go through an item to its end: outside brackets none of them ends the item, and
in the end no bracket is open. -/
def IsItem (inBody : Bool) : List Bracket → List Token → Prop
  | brackets, [] => brackets = []
  | brackets, token :: rest =>
    (brackets = [] → token ≠ .semicolon ∧ token ≠ .opening .curly ∧
      (inBody = true → token ≠ .closing .curly)) ∧
    IsItem inBody (Css.bracketsAfter brackets token) rest

instance decidableIsItem (inBody : Bool) :
    ∀ brackets tokens, Decidable (IsItem inBody brackets tokens)
  | brackets, [] => inferInstanceAs (Decidable (brackets = []))
  | brackets, token :: rest =>
    haveI := decidableIsItem inBody (Css.bracketsAfter brackets token) rest
    inferInstanceAs (Decidable (_ ∧ _))

/-- Whether an item that is no at-rule can start with a token. -/
def startsItem : Token → Bool
  | .blank | .semicolon | .markupOpen | .markupClose | .comment _ | .atKeyword _ => false
  | _ => true

/-- Whether a text stays one item, and its delimiter a token of its own, when it is written in
front of its delimiter. -/
structure IsClearText (inBody : Bool) (delimiter : Char) (chars : List Char) : Prop where
  apart : tokens (chars ++ [delimiter]) = tokens chars ++ [(scanToken delimiter []).1]
  item : IsItem inBody [] (tokens chars)

instance (inBody : Bool) (delimiter : Char) (chars : List Char) :
    Decidable (IsClearText inBody delimiter chars) :=
  decidable_of_iff
    (tokens (chars ++ [delimiter]) = tokens chars ++ [(scanToken delimiter []).1] ∧
      IsItem inBody [] (tokens chars))
    ⟨fun ⟨apart, item⟩ => ⟨apart, item⟩, fun clear => ⟨clear.apart, clear.item⟩⟩

/-- Whether a line that starts with a text is read as an item with this text. -/
structure IsClearLine (inBody : Bool) (delimiter : Char) (chars : List Char) : Prop
    extends IsClearText inBody delimiter chars where
  starts : ∀ token ∈ (tokens chars).head?, startsItem token = true

instance (inBody : Bool) (delimiter : Char) (chars : List Char) :
    Decidable (IsClearLine inBody delimiter chars) :=
  decidable_of_iff
    (IsClearText inBody delimiter chars ∧ ∀ token ∈ (tokens chars).head?, startsItem token = true)
    ⟨fun ⟨text, starts⟩ => ⟨text, starts⟩, fun clear => ⟨clear.toIsClearText, clear.starts⟩⟩

/-- What is written behind the name of an at-rule. -/
def AtHead.writeParams (head : AtHead) : List Char :=
  if head.params.isEmpty then [] else ' ' :: head.params.toList

/-- Whether the line of an at-rule is read with its name and its text: the name needs no escape,
and the text behind it ends at its delimiter. -/
structure AtHead.IsClear (head : AtHead) (inBody : Bool) (delimiter : Char) (space : List Char) :
    Prop where
  name : IsBare head.name
  text : IsClearText inBody delimiter (head.writeParams ++ space)

instance (head : AtHead) (inBody : Bool) (delimiter : Char) (space : List Char) :
    Decidable (head.IsClear inBody delimiter space) :=
  decidable_of_iff
    (((head.name ≠ "" ∧ '\x00' ∉ head.name.toList) ∧
        Css.writeIdent head.name.toList = head.name.toList) ∧
      IsClearText inBody delimiter (head.writeParams ++ space))
    ⟨fun ⟨name, text⟩ => ⟨name, text⟩, fun clear => ⟨clear.name, clear.text⟩⟩

/-! Items -/

namespace OpenItem

/-- The item with more lexemes. -/
def addAll (item : OpenItem) (lexemes : List Lexeme) : OpenItem :=
  lexemes.foldl add item

variable (item : OpenItem)

theorem atName_addAll (lexemes : List Lexeme) : (item.addAll lexemes).atName = item.atName := by
  induction lexemes generalizing item with
  | nil => rfl
  | cons lexeme rest ih => exact ih (item.add lexeme)

theorem place_addAll (lexemes : List Lexeme) : (item.addAll lexemes).place = item.place := by
  induction lexemes generalizing item with
  | nil => rfl
  | cons lexeme rest ih => exact ih (item.add lexeme)

theorem pieces_addAll (lexemes : List Lexeme) :
    (item.addAll lexemes).pieces.reverse.flatten =
      item.pieces.reverse.flatten ++ textOf lexemes := by
  induction lexemes generalizing item with
  | nil => rw [textOf, List.flatMap_nil, List.append_nil, addAll, List.foldl_nil]
  | cons lexeme rest ih =>
    rw [addAll, List.foldl_cons, ← addAll, ih]
    simp [add, textOf]

theorem brackets_addAll {inBody : Bool} {lexemes : List Lexeme}
    (isItem : IsItem inBody item.brackets (lexemes.map Lexeme.token)) :
    (item.addAll lexemes).brackets = [] := by
  induction lexemes generalizing item with
  | nil => exact isItem
  | cons lexeme rest ih => exact ih (item.add lexeme) isItem.2

/-- The item that a text becomes. -/
def ofText (atName : Option String) (chars : List Char) : OpenItem :=
  (⟨atName, [], [], .start⟩ : OpenItem).addAll (Css.pieces chars)

@[simp] theorem atName_ofText (atName : Option String) (chars : List Char) :
    (ofText atName chars).atName = atName :=
  atName_addAll ..

@[simp] theorem place_ofText (atName : Option String) (chars : List Char) :
    (ofText atName chars).place = .start :=
  place_addAll ..

@[simp] theorem text_ofText (atName : Option String) (chars : List Char) :
    (ofText atName chars).text = Text.trimChars chars := by
  rw [text, ofText, pieces_addAll, Css.textOf_pieces]
  rfl

theorem brackets_ofText (atName : Option String) {inBody : Bool} {chars : List Char}
    (isItem : IsItem inBody [] (tokens chars)) : (ofText atName chars).brackets = [] := by
  rw [← Css.map_token_pieces] at isItem
  exact brackets_addAll _ isItem

end OpenItem

/-! Lines -/

namespace SheetReader

variable {reader : SheetReader}

theorem run?_piece {c : Char} {taken after : List Char} {token : Token}
    (scan : scanToken c (taken ++ after) = (token, after)) :
    reader.run? (pieces (c :: (taken ++ after))) =
      (reader.step ⟨token, c :: taken, .start⟩).toOption.bind fun next =>
        next.run? (pieces after) := by
  rw [Css.pieces_of_scanToken scan, run?_cons]

/-- Whether a reader is in a body. -/
def IsWithin (reader : SheetReader) (inBody : Bool) : Prop :=
  reader.bodies.isEmpty = !inBody

theorem IsWithin.closes {inBody : Bool} (within : reader.IsWithin inBody) {token : Token}
    (other : inBody = true → token ≠ .closing .curly) : reader.closes token = false := by
  unfold SheetReader.closes
  rw [within]
  cases inBody with
  | false => rfl
  | true => simpa using other rfl

/-- The lexemes of an item go into it. -/
theorem run?_item {inBody : Bool} (within : reader.IsWithin inBody) {item : OpenItem}
    (begun : reader.item = some item) {lexemes : List Lexeme}
    (isItem : IsItem inBody item.brackets (lexemes.map Lexeme.token)) :
    reader.run? lexemes = some { reader with item := some (item.addAll lexemes) } := by
  induction lexemes generalizing reader item with
  | nil =>
    rw [run?_nil, OpenItem.addAll, List.foldl_nil, ← begun]
  | cons lexeme rest ih =>
    have stepped : reader.step lexeme = .ok { reader with item := some (item.add lexeme) } := by
      unfold step
      rw [begun]
      dsimp only
      cases isOpen : item.brackets with
      | cons bracket brackets => rfl
      | nil =>
        obtain ⟨semicolon, opening, closing⟩ := isItem.1 isOpen
        rw [if_neg (by simp), if_neg semicolon, if_neg opening, within.closes closing]
        rfl
    rw [run?_cons, stepped]
    exact @ih { reader with item := some (item.add lexeme) } within (item.add lexeme) rfl isItem.2

theorem beginItem_of_starts {inBody : Bool} (within : reader.IsWithin inBody) {lexeme : Lexeme}
    (starts : startsItem lexeme.token = true)
    (opening : lexeme.token ≠ .opening .curly)
    (closing : inBody = true → lexeme.token ≠ .closing .curly) :
    reader.beginItem lexeme =
      { reader with item := some ((⟨none, [], [], lexeme.start⟩ : OpenItem).add lexeme) } := by
  have closes := within.closes closing
  unfold beginItem
  dsimp only
  split
  case h_1 same | h_2 same | h_3 same | h_4 same | h_5 same | h_6 same =>
    rw [same] at starts
    cases starts
  case h_7 same => exact absurd same opening
  case h_8 => rw [closes]; rfl

section Between

variable (between : reader.item = none)
include between

theorem step_between (lexeme : Lexeme) : reader.step lexeme = .ok (reader.beginItem lexeme) := by
  unfold step
  rw [between]

theorem run?_dropBlanks (chars : List Char) :
    reader.run? (pieces (chars.dropWhile isSpace)) = reader.run? (pieces chars) := by
  cases chars with
  | nil => rfl
  | cons c rest =>
    cases space : isSpace c with
    | false => rw [List.dropWhile_cons_of_neg (by simp [space])]
    | true =>
      have scan : scanToken c rest = (.blank, rest.dropWhile isSpace) := by
        unfold scanToken
        rw [if_pos space]
      rw [List.dropWhile_cons_of_pos space, Css.pieces_cons, scan, run?_cons,
        step_between between]
      rfl

/-- Blanks between items are skipped. -/
theorem run?_blanks {blanks : List Char} (spaces : ∀ c ∈ blanks, isSpace c = true)
    (rest : List Char) : reader.run? (pieces (blanks ++ rest)) = reader.run? (pieces rest) := by
  rw [← run?_dropBlanks between, List.dropWhile_append_of_pos spaces, run?_dropBlanks between]

theorem run?_lineEnd (rest : List Char) :
    reader.run? (pieces ('\n' :: rest)) = reader.run? (pieces rest) := by
  have space : ∀ c ∈ ['\n'], isSpace c = true := by
    simp only [List.mem_singleton, forall_eq]
    rfl
  exact run?_blanks between space rest

theorem run?_indentation (depth : Nat) (rest : List Char) :
    reader.run? (pieces (indentation depth ++ rest)) = reader.run? (pieces rest) := by
  refine run?_blanks between ?_ rest
  intro c member
  obtain rfl := List.eq_of_mem_replicate member
  rfl

/-- A closing brace closes the body that the reader is in. -/
theorem run?_closing (inside : reader.IsWithin true) (rest : List Char) :
    reader.run? (pieces ('\x7d' :: rest)) = reader.closeBody.run? (pieces rest) := by
  have scan : scanToken '\x7d' ([] ++ rest) = (.closing .curly, rest) := rfl
  have closes : reader.closes (.closing .curly) = true := by
    unfold SheetReader.closes
    rw [inside]
    rfl
  have begun : reader.beginItem ⟨.closing .curly, ['\x7d'], .start⟩ = reader.closeBody := by
    unfold beginItem
    dsimp only
    rw [if_pos closes]
  rw [← List.nil_append rest, run?_piece scan, step_between between, begun]
  rfl

/-- A comment is read as it is written. -/
theorem run?_comment {text : List Char} (isText : IsCommentText text) (rest : List Char) :
    reader.run? (pieces ('/' :: '*' :: (text ++ '*' :: '/' :: rest))) =
      (reader.add (.comment (String.ofList text))).run? (pieces rest) := by
  have scan : scanToken '/' (('*' :: (text ++ ['*', '/'])) ++ rest) =
      (.comment (String.ofList text), rest) := by
    have inside := isText rest
    have starts : ∀ chars, scanToken '/' ('*' :: chars) =
        (.comment (String.ofList (Css.scanComment chars).1), (Css.scanComment chars).2) :=
      fun _ => rfl
    rw [List.cons_append, starts, List.append_assoc]
    simp [inside]
  have parts : text ++ '*' :: '/' :: rest = (text ++ ['*', '/']) ++ rest := by simp
  rw [parts, ← List.cons_append, run?_piece scan, step_between between]
  rfl

/-- The name behind the sign of an at-rule is read with it. -/
theorem run?_atKeyword {name : String} (bare : IsBare name) {after : List Char}
    (endsName : Css.EndsName after) :
    reader.run? (pieces ('@' :: (name.toList ++ after))) =
      SheetReader.run? { reader with item := some ⟨some name, [], [], .start⟩ } (pieces after) := by
  have scan : scanToken '@' (name.toList ++ after) = (.atKeyword name, after) := by
    have starts := bare.startsIdent after
    have scanned := Css.scanName_writeIdent bare.1.2 endsName
    rw [bare.2] at scanned
    have sign : ∀ chars, scanToken '@' chars = if Css.startsIdent chars then
        (.atKeyword (String.ofList (Css.scanName chars).1), (Css.scanName chars).2)
        else (.delim '@', chars) := by
      intro chars
      rfl
    rw [sign, if_pos starts, scanned, String.ofList_toList]
  rw [run?_piece scan, step_between between]
  rfl

variable {inBody : Bool} (within : reader.IsWithin inBody) {delimiter : Char}
  (ends : IsDelimiter delimiter)
include within ends

/-- A clear line up to its delimiter is one item. -/
theorem run?_line {chars : List Char} (filled : chars ≠ [])
    (clear : IsClearLine inBody delimiter chars) (rest : List Char) :
    reader.run? (pieces (chars ++ delimiter :: rest)) =
      SheetReader.run? { reader with item := some (.ofText none chars) }
        (⟨(scanToken delimiter []).1, [delimiter], .start⟩ :: pieces rest) := by
  obtain ⟨c, others, rfl⟩ := List.exists_cons_of_ne_nil filled
  rw [Css.pieces_append_delimiter ends rest clear.apart, run?_append]
  have isItem := clear.item
  have starts := clear.starts
  rw [← Css.map_token_pieces, Css.pieces_cons] at isItem starts
  unfold OpenItem.ofText
  rw [Css.pieces_cons]
  generalize isFirst : (⟨(scanToken c others).1, _, .start⟩ : Lexeme) = first at isItem starts ⊢
  have place : first.start = .start := by rw [← isFirst]
  obtain ⟨apart, isItem⟩ := isItem
  obtain ⟨_, opening, closing⟩ := apart rfl
  have read := @run?_item
    { reader with item := some ((⟨none, [], [], first.start⟩ : OpenItem).add first) }
    inBody within _ rfl _ isItem
  rw [run?_cons, step_between between,
    beginItem_of_starts within (starts first.token rfl) opening closing, Except.toOption,
    Option.bind_some, read, place]
  rfl

/-- The line of an at-rule up to its delimiter is one item. -/
theorem run?_atLine {head : AtHead} {space : List Char}
    (clear : head.IsClear inBody delimiter space) (isSpaced : space = [] ∨ space = [' '])
    (rest : List Char) :
    reader.run? (pieces
        ('@' :: (head.name.toList ++ (head.writeParams ++ space ++ delimiter :: rest)))) =
      SheetReader.run?
        { reader with item := some (.ofText (some head.name) (head.writeParams ++ space)) }
        (⟨(scanToken delimiter []).1, [delimiter], .start⟩ :: pieces rest) := by
  have endsName : Css.EndsName (head.writeParams ++ space ++ delimiter :: rest) := by
    refine @Css.endsName_of_listed [' ', ';', '\x7b'] _ (by decide) ?_
    have listed : delimiter ∈ [' ', ';', '\x7b'] :=
      List.mem_cons_of_mem _ (by simpa [IsDelimiter] using ends)
    unfold AtHead.writeParams
    split
    · rcases isSpaced with rfl | rfl
      · simpa using listed
      · simp
    · simp
  have isItem := clear.text.item
  rw [← Css.map_token_pieces] at isItem
  have read := @run?_item { reader with item := some ⟨some head.name, [], [], .start⟩ }
    inBody within _ rfl _ isItem
  rw [run?_atKeyword between clear.name endsName,
    Css.pieces_append_delimiter ends rest clear.text.apart, run?_append, read]
  rfl

end Between

end SheetReader

end StyleBlock
