import StyleBlock.Proofs.Places
import StyleBlock.Proofs.Trimming
import StyleBlock.Selector.Parser

/-!
The places that readers note. A selector list is blamed at one of its own places. A node of a sheet
is placed where its text starts in the source, and a rule's selector list stands there, with blanks
around it and more of the source behind it.
-/

namespace StyleBlock

open Css (Bracket Cursor Lexeme Token)
open Text (Position)

/-! Selector lists -/

/-- Whether a cursor walks over lexemes of a text. -/
structure Css.Cursor.IsWithin (cursor : Cursor) (text : List Char) : Prop where
  starts : ∀ lexeme ∈ cursor.rest, lexeme.start.IsCutOf text
  ending : cursor.ending.IsCutOf text

namespace Css.Cursor.IsWithin

variable {cursor : Cursor} {text : List Char} (within : cursor.IsWithin text)
include within

theorem place : cursor.place.IsCutOf text := by
  obtain ⟨rest, ending⟩ := cursor
  cases rest with
  | nil => exact within.ending
  | cons lexeme rest => exact within.starts lexeme (List.mem_cons_self ..)

theorem sublist {rest : List Lexeme} (fewer : rest.Sublist cursor.rest) :
    IsWithin { cursor with rest } text :=
  ⟨fun lexeme member => within.starts lexeme (fewer.subset member), within.ending⟩

theorem skipSpacing : cursor.skipSpacing.IsWithin text :=
  within.sublist (List.dropWhile_sublist _)

theorem skipComments : cursor.skipComments.IsWithin text :=
  within.sublist (List.dropWhile_sublist _)

theorem next : cursor.next.2.IsWithin text := by
  unfold Cursor.next
  split
  · exact within
  · rename_i lexeme rest same
    exact within.sublist (by rw [same]; exact List.sublist_cons_self ..)

theorem nextSolid : cursor.nextSolid.2.IsWithin text :=
  within.skipSpacing.next

theorem nextVisible : cursor.nextVisible.2.IsWithin text :=
  within.skipComments.next

end Css.Cursor.IsWithin

/-- Whether an error is placed in a text. -/
def SelectorError.IsWithin (text : List Char) (error : SelectorError) : Prop :=
  error.place.IsCutOf text

namespace AttributeSelector

variable {cursor : Cursor} {text : List Char} (within : cursor.IsWithin text)
include within

theorem readIdent_within :
    Ends (fun read => read.2.IsWithin text) (SelectorError.IsWithin text) (readIdent cursor) := by
  have rest := within.nextVisible
  unfold readIdent
  split <;> rename_i same <;> rw [same] at rest
  · exact rest
  · exact rest.place

theorem readScoped_within (scope : String) :
    Ends (fun read : (Option String × String) × Cursor => read.2.IsWithin text)
      (SelectorError.IsWithin text)
      (readIdent cursor >>= fun (name, rest) => pure ((some scope, name), rest)) :=
  (readIdent_within within).bind fun _ rest => rest

theorem readName_within :
    Ends (fun read => read.2.IsWithin text) (SelectorError.IsWithin text) (readName cursor) := by
  have rest := within.skipSpacing.nextVisible
  unfold readName
  split <;> rename_i same <;> rw [same] at rest
  · have more := rest.nextVisible
    split
    · rename_i same
      rw [same] at more
      exact readScoped_within more _
    · exact rest
  · have more := rest.nextVisible
    split <;> rename_i same <;> rw [same] at more
    · exact readScoped_within more _
    · exact more.place
  · exact readScoped_within rest _
  · exact rest.place
  · exact rest.place

theorem readSolid_within :
    Ends (fun read => read.2.IsWithin text) (SelectorError.IsWithin text) (readSolid cursor) := by
  have rest := within.nextSolid
  unfold readSolid
  split <;> rename_i same <;> rw [same] at rest
  · exact rest
  · exact rest.place

theorem readFlag_within (operator : AttributeOperator) (value : String) :
    Ends (fun read : Option AttributeTest × Cursor => read.2.IsWithin text)
      (SelectorError.IsWithin text) (do
        if cursor.isExhausted then
          return (some ⟨operator, value, none⟩, cursor)
        let (token, cursor) ← readSolid cursor
        match token with
        | .ident flag => return (some ⟨operator, value, some flag⟩, cursor)
        | _ => throw ⟨.afterAttributeValue, cursor.place⟩) := by
  split
  · exact within
  refine (readSolid_within within).bind ?_
  rintro ⟨token, rest⟩ behindFlag
  dsimp only
  split
  · exact behindFlag
  · exact behindFlag.place

theorem readTest_within :
    Ends (fun read => read.2.IsWithin text) (SelectorError.IsWithin text) (readTest cursor) := by
  unfold readTest
  split
  · exact within
  refine (readSolid_within within).bind ?_
  rintro ⟨operator, rest⟩ behindOperator
  dsimp only
  split
  · refine (readSolid_within behindOperator).bind ?_
    rintro ⟨value, rest⟩ behindValue
    dsimp only
    split
    · exact readFlag_within behindValue _ _
    · exact readFlag_within behindValue _ _
    · exact behindValue.place
  · exact behindOperator.place

theorem read_within :
    Ends (fun _ => True) (SelectorError.IsWithin text) (read cursor) := by
  unfold read
  refine (readName_within within).bind fun _ behindName => ?_
  refine (readTest_within behindName).bind fun _ behindTest => ?_
  dsimp only
  split
  · exact behindTest.place
  · trivial

end AttributeSelector

/-- Whether what a reader has gathered between square brackets is of a text. -/
def SelectorPart.IsWithin (text : List Char) : SelectorPart → Prop
  | .brackets inside _ => ∀ lexeme ∈ inside, lexeme.start.IsCutOf text
  | _ => True

/-- Whether reading goes on within a text, or is blamed at a place in it. -/
def SelectorReader.StaysWithin (text : List Char) : Except SelectorError SelectorReader → Prop :=
  Ends (fun after => after.part.IsWithin text) (SelectorError.IsWithin text)

namespace SelectorReader

variable {reader : SelectorReader} {text : List Char} {place : Position}

section Additions

variable (isPlace : place.IsCutOf text)
include isPlace

theorem addNode_within (node : SimpleSelector) : StaysWithin text (reader.addNode place node) := by
  unfold addNode
  dsimp only
  split
  · exact isPlace
  · trivial

theorem addPseudoElement_within (pseudo : PseudoElement) :
    StaysWithin text (reader.addPseudoElement place pseudo) := by
  unfold addPseudoElement
  dsimp only
  split
  · exact isPlace
  · trivial

theorem endSelector_within : StaysWithin text (reader.endSelector place) := by
  unfold endSelector
  split
  · exact isPlace
  · trivial

theorem addCombinator_within (part : reader.part.IsWithin text) (combinator : Combinator) :
    StaysWithin text (reader.addCombinator place combinator) := by
  unfold addCombinator
  split
  · exact isPlace
  · exact part

theorem addAttribute_within {inside : List Lexeme} {close : Position}
    (starts : ∀ lexeme ∈ inside, lexeme.start.IsCutOf text) (closes : close.IsCutOf text) :
    StaysWithin text (reader.addAttribute inside close place) := by
  have within : (Cursor.mk inside.reverse close).IsWithin text :=
    ⟨fun lexeme member => starts lexeme (List.mem_reverse.mp member), closes⟩
  exact (AttributeSelector.read_within within).bind fun _ _ => addNode_within isPlace _

theorem readNode_within (part : reader.part.IsWithin text) (token : Token) :
    StaysWithin text (reader.readNode token place) := by
  unfold readNode
  split
  case h_1 | h_2 => exact part
  case h_3 => exact endSelector_within isPlace
  case h_4 | h_5 | h_6 => exact addCombinator_within isPlace part _
  case h_7 | h_13 => trivial
  case h_8 | h_9 | h_10 | h_11 => exact addNode_within isPlace _
  case h_12 => exact fun _ => nofun
  case h_14 => exact isPlace

theorem readPseudo_within (part : reader.part.IsWithin text) (token : Token) :
    StaysWithin text (reader.readPseudo token place) := by
  unfold readPseudo
  split
  · exact part
  · trivial
  · dsimp only
    split
    · exact addPseudoElement_within isPlace _
    · exact addNode_within isPlace _
  · trivial
  · exact isPlace

theorem closePart_within (part : reader.part.IsWithin text) :
    StaysWithin text (reader.closePart place) := by
  unfold closePart
  split
  · exact part
  · exact isPlace
  · exact isPlace
  · exact isPlace
  · rename_i same
    rw [same] at part
    exact addAttribute_within isPlace part isPlace
  · exact addNode_within isPlace _

end Additions

/-- A lexeme is blamed at its end. -/
theorem step_within (part : reader.part.IsWithin text) {lexeme : Lexeme}
    (starts : lexeme.start.IsCutOf text) (ends : lexeme.ending.IsCutOf text) :
    StaysWithin text (reader.step lexeme) := by
  unfold step
  dsimp only
  split
  · exact readNode_within ends part _
  · exact readPseudo_within ends part _
  · split
    · exact part
    · exact addNode_within ends _
    · exact ends
  · split
    · exact part
    · exact addPseudoElement_within ends _
    · exact ends
  · rename_i same
    rw [same] at part
    split
    · exact addAttribute_within ends part starts
    · exact List.forall_mem_cons.mpr ⟨starts, part⟩
  · split
    · exact addNode_within ends _
    · trivial

end SelectorReader

/-- What is wrong with a selector list is placed in its text. -/
theorem parseSelectors_within (text : String) :
    Ends (fun _ => True) (SelectorError.IsWithin text.toList) (parseSelectors text) := by
  have whole := Position.start_leaves text.toList
  have ending : (Cursor.ofText text).ending.IsCutOf text.toList :=
    ⟨[], Css.ending_lexemesFrom whole⟩
  refine (Css.ends_foldlM_lexemes (fun _ reader => reader.part.IsWithin text.toList) ?_ whole
    trivial).bind fun reader part => ?_
  · exact fun cutOff starts part =>
      SelectorReader.step_within part ⟨_, starts⟩ ⟨_, cutOff.ending_leaves starts⟩
  · exact (SelectorReader.closePart_within ending part).bind fun reader _ =>
      (SelectorReader.endSelector_within ending).bind fun _ _ => trivial

/-! Sheets -/

/-- Whether a rule's selector list stands in a source at the place of the rule, with blanks around
it and more of the source behind it. -/
def RuleHead.StandsIn (head : RuleHead) (text : List Char) : Prop :=
  ∃ raw more, more ≠ [] ∧ head.place.Leaves text (raw ++ more) ∧
    head.selector.toList = Text.trimChars raw

mutual

/-- Whether the places of a node and of all nodes in it are those of a source. -/
def Node.StandsIn (text : List Char) : Node → Prop
  | .rule head nodes => head.StandsIn text ∧ StandIn text nodes
  | .statement head => head.place.PointsInto text
  | .group head nodes => head.place.PointsInto text ∧ StandIn text nodes
  | .declaration declaration => declaration.place.PointsInto text
  | .comment _ => True

def StandIn (text : List Char) : List Node → Prop
  | [] => True
  | node :: rest => node.StandsIn text ∧ StandIn text rest

end

theorem standIn_iff {text : List Char} {nodes : List Node} :
    StandIn text nodes ↔ ∀ node ∈ nodes, node.StandsIn text := by
  induction nodes with
  | nil => exact ⟨fun _ => nofun, fun _ => trivial⟩
  | cons node rest ih => rw [StandIn, ih, List.forall_mem_cons]

theorem StandIn.reverse {text : List Char} {nodes : List Node} (stand : StandIn text nodes) :
    StandIn text nodes.reverse :=
  standIn_iff.mpr fun node member => standIn_iff.mp stand node (List.mem_reverse.mp member)

/-- Whether an item starts at its place in a source that has `rest` left. An item without the name
of an at-rule has all characters in between. -/
structure OpenItem.StandsIn (item : OpenItem) (text rest : List Char) : Prop where
  points : item.place.PointsInto text
  written : item.atName = none → item.place.Leaves text (item.pieces.reverse.flatten ++ rest)

theorem OpenItem.StandsIn.add {item : OpenItem} {lexeme : Lexeme} {text rest : List Char}
    (stands : item.StandsIn text (lexeme.text ++ rest)) : (item.add lexeme).StandsIn text rest :=
  ⟨stands.points, fun plain => by simpa [OpenItem.add] using stands.written plain⟩

theorem Declaration.place_of_parse {text : List Char} {place : Position} {declaration : Declaration}
    (parsed : Declaration.parse? text place = some declaration) : declaration.place = place := by
  unfold Declaration.parse? at parsed
  dsimp only at parsed
  split at parsed
  · cases parsed
  · split at parsed
    · cases parsed
    · cases parsed
      rfl

namespace SheetReader

/-- Whether what a reader has read stands in a source, save for the item it is in. -/
structure StandsIn (reader : SheetReader) (text : List Char) : Prop where
  items : ∀ body ∈ reader.bodies, ∃ more, more ≠ [] ∧ body.item.StandsIn text more
  before : ∀ body ∈ reader.bodies, StandIn text body.before
  nodes : StandIn text reader.nodes

variable {reader : SheetReader} {text rest : List Char} {item : OpenItem} {lexeme : Lexeme}

namespace StandsIn

variable (stands : reader.StandsIn text)
include stands

theorem withItem (item : Option OpenItem) : StandsIn { reader with item } text :=
  ⟨stands.items, stands.before, stands.nodes⟩

theorem add {node : Node} (isPlaced : node.StandsIn text) : (reader.add node).StandsIn text :=
  ⟨stands.items, stands.before, isPlaced, stands.nodes⟩

theorem openBody (more : rest ≠ []) (isPlaced : item.StandsIn text rest) :
    (reader.openBody item).StandsIn text :=
  ⟨List.forall_mem_cons.mpr ⟨⟨rest, more, isPlaced⟩, stands.items⟩,
    List.forall_mem_cons.mpr ⟨stands.nodes, stands.before⟩, trivial⟩

theorem closeBody : reader.closeBody.StandsIn text := by
  obtain ⟨bodies, nodes, open?, nextRule⟩ := reader
  cases bodies with
  | nil => exact stands
  | cons body outer =>
    obtain ⟨⟨more, isMore, isPlaced⟩, items⟩ := List.forall_mem_cons.mp stands.items
    obtain ⟨first, before⟩ := List.forall_mem_cons.mp stands.before
    have inside := stands.nodes.reverse
    unfold SheetReader.closeBody
    dsimp only
    split
    · exact ⟨items, before, ⟨isPlaced.points, inside⟩, first⟩
    · rename_i plain
      have head :
          RuleHead.StandsIn ⟨nextRule, String.ofList body.item.text, body.item.place⟩ text :=
        ⟨_, more, isMore, isPlaced.written plain, String.toList_ofList⟩
      exact ⟨items, before, ⟨head, inside⟩, first⟩

theorem closeBodies (bodies : List OpenBody) :
    (bodies.foldl (fun reader _ => reader.closeBody) reader).StandsIn text := by
  induction bodies generalizing reader with
  | nil => exact stands
  | cons body outer ih => exact ih stands.closeBody

/-- An item that ends becomes a node at its place, or is blamed there. -/
theorem endItem (points : item.place.PointsInto text) :
    Ends (fun after => after.StandsIn text ∧ after.item = none)
      (fun error => error.place.PointsInto text) (reader.endItem item) := by
  unfold SheetReader.endItem
  split
  · exact ⟨stands.add points, rfl⟩
  split
  · exact points
  split
  · rename_i declaration parsed
    rw [← Declaration.place_of_parse parsed] at points
    exact ⟨stands.add points, rfl⟩
  · exact points

end StandsIn

/-- What is known of a reader when `rest` is left of the source. -/
def IsAt (text rest : List Char) (reader : SheetReader) : Prop :=
  reader.StandsIn text ∧ ∀ item, reader.item = some item → item.StandsIn text rest

theorem IsAt.of_none (stands : reader.StandsIn text) (between : reader.item = none) :
    reader.IsAt text rest :=
  ⟨stands, fun item begun => by rw [between] at begun; cases begun⟩

theorem IsAt.withItem (stands : reader.StandsIn text) (isPlaced : item.StandsIn text rest) :
    IsAt text rest { reader with item := some item } :=
  ⟨stands.withItem _, fun _ same => Option.some.inj same ▸ isPlaced⟩

theorem item_closeBody (reader : SheetReader) : reader.closeBody.item = reader.item := by
  unfold SheetReader.closeBody
  split
  · rfl
  · dsimp only
    split <;> rfl

variable (cutOff : lexeme.IsCutOff rest)
  (starts : lexeme.start.Leaves text (lexeme.text ++ rest))
include cutOff starts

theorem beginItem_isAt (stands : reader.StandsIn text) (between : reader.item = none) :
    (reader.beginItem lexeme).IsAt text rest := by
  have filled := List.append_ne_nil_of_left_ne_nil cutOff.text_ne_nil rest
  have points := starts.pointsInto filled
  have fresh : OpenItem.StandsIn ⟨none, [], [], lexeme.start⟩ text (lexeme.text ++ rest) :=
    ⟨points, fun _ => starts⟩
  unfold SheetReader.beginItem
  dsimp only
  split
  case h_1 | h_2 | h_3 | h_4 => exact .of_none stands between
  case h_5 => exact .of_none (stands.add trivial) rfl
  case h_6 => exact .withItem stands ⟨points, nofun⟩
  case h_7 => exact .of_none (stands.openBody filled fresh) rfl
  case h_8 =>
    split
    · exact .of_none stands.closeBody ((item_closeBody reader).trans between)
    · exact .withItem stands fresh.add

theorem step_isAt (here : reader.IsAt text (lexeme.text ++ rest)) :
    Ends (IsAt text rest) (fun error => error.place.PointsInto text) (reader.step lexeme) := by
  obtain ⟨stands, isPlaced⟩ := here
  unfold SheetReader.step
  split
  · rename_i between
    exact beginItem_isAt cutOff starts stands between
  · rename_i item begun
    have current := isPlaced item begun
    have ended := stands.endItem current.points
    split
    · exact .withItem stands current.add
    split
    · exact ended.imp (fun _ known => .of_none known.1 known.2) fun _ points => points
    split
    · have filled := List.append_ne_nil_of_left_ne_nil cutOff.text_ne_nil rest
      exact .of_none (stands.openBody filled current) rfl
    split
    · refine Ends.map (ended.imp (fun after known => ?_) fun _ points => points)
      exact .of_none known.1.closeBody ((item_closeBody after).trans known.2)
    · exact .withItem stands current.add

end SheetReader

/-- Whether the places of a sheet are those of a source. -/
structure Sheet.StandsIn (sheet : Sheet) (text : List Char) (file : String) : Prop where
  file : sheet.file = file
  nodes : StandIn text sheet.nodes

/-- All places of a sheet that is read are those of its source, and what cannot be read is blamed at
one of them. -/
theorem parseSheet_standsIn (text file : String) :
    Ends (fun sheet => sheet.StandsIn text.toList file)
      (fun error => error.place.PointsInto text.toList) (parseSheet text file) := by
  have start : SheetReader.start.IsAt text.toList text.toList :=
    .of_none ⟨nofun, nofun, trivial⟩ rfl
  refine (Css.ends_foldlM_lexemes (SheetReader.IsAt text.toList)
    (fun cutOff starts here => SheetReader.step_isAt cutOff starts here)
    (Position.start_leaves text.toList) start).bind fun reader ⟨stands, isPlaced⟩ => ?_
  have ended : Ends (fun after => after.StandsIn text.toList)
      (fun error => error.place.PointsInto text.toList) reader.finish := by
    unfold SheetReader.finish
    cases begun : reader.item with
    | none => exact stands.closeBodies _
    | some item =>
      refine (stands.endItem (isPlaced item begun).points).bind fun after known => ?_
      exact known.1.closeBodies _
  exact ended.bind fun reader stands => ⟨rfl, stands.nodes.reverse⟩

/-! The rules and declarations of a sheet -/

section Parts

variable {text : List Char}

theorem RuleHead.StandsIn.points {head : RuleHead} (stands : head.StandsIn text) :
    head.place.PointsInto text := by
  obtain ⟨raw, more, isMore, leaves, _⟩ := stands
  exact leaves.pointsInto (List.append_ne_nil_of_right_ne_nil raw isMore)

/-- Whether a rule and what is in it stand in a source. -/
structure Rule.StandsIn (rule : Rule) (text : List Char) : Prop where
  head : rule.head.StandsIn text
  nodes : StandIn text rule.nodes

theorem Rule.StandsIn.declarations {rule : Rule} (stands : rule.StandsIn text) :
    ∀ declaration ∈ rule.declarations, declaration.place.PointsInto text := by
  intro declaration member
  obtain ⟨node, inside, same⟩ := List.mem_filterMap.mp member
  have isPlaced := standIn_iff.mp stands.nodes node inside
  split at same
  · cases same
    exact isPlaced
  · cases same

mutual

theorem Node.StandsIn.styleRules {node : Node} (stands : node.StandsIn text) :
    ∀ rule ∈ node.styleRules, rule.StandsIn text := by
  cases node with
  | rule head nodes => exact List.forall_mem_cons.mpr ⟨⟨stands.1, stands.2⟩, stands.2.styleRules⟩
  | group head nodes =>
    unfold Node.styleRules
    split
    · exact nofun
    · exact stands.2.styleRules
  | statement | declaration | comment => exact nofun

theorem StandIn.styleRules {nodes : List Node} (stand : StandIn text nodes) :
    ∀ rule ∈ styleRulesIn nodes, rule.StandsIn text := by
  cases nodes with
  | nil => exact nofun
  | cons node rest =>
    exact List.forall_mem_append.mpr ⟨stand.1.styleRules, stand.2.styleRules⟩

end

namespace Sheet.StandsIn

variable {sheet : Sheet} {file : String} (stands : sheet.StandsIn text file)
include stands

theorem topRules : ∀ rule ∈ sheet.topRules, rule.StandsIn text := by
  intro rule member
  obtain ⟨node, inside, same⟩ := List.mem_filterMap.mp member
  have isPlaced := standIn_iff.mp stands.nodes node inside
  cases node <;> cases same
  exact ⟨isPlaced.1, isPlaced.2⟩

end Sheet.StandsIn

end Parts

end StyleBlock
