import StyleBlock.Proofs.Escapes
import StyleBlock.Proofs.Outcome
import StyleBlock.Sheet.Parser

/-!
Reading a sheet without its places. Where a lexeme stands is noted in the nodes and decides nothing,
so a sheet can be read from lexemes alone, wherever they stand.
-/

namespace StyleBlock

open Css (Lexeme)

mutual

/-- A node without its places. -/
def Node.unplaced : Node → Node
  | .rule head nodes => .rule { head with place := .start } (unplacedIn nodes)
  | .statement head => .statement { head with place := .start }
  | .group head nodes => .group { head with place := .start } (unplacedIn nodes)
  | .declaration declaration => .declaration { declaration with place := .start }
  | .comment text => .comment text

/-- Nodes without their places. -/
def unplacedIn : List Node → List Node
  | [] => []
  | node :: rest => node.unplaced :: unplacedIn rest

end

theorem unplacedIn_eq_map (nodes : List Node) : unplacedIn nodes = nodes.map Node.unplaced := by
  induction nodes with
  | nil => rfl
  | cons node rest ih => rw [unplacedIn, ih, List.map_cons]

theorem unplacedIn_reverse (nodes : List Node) :
    unplacedIn nodes.reverse = (unplacedIn nodes).reverse := by
  rw [unplacedIn_eq_map, unplacedIn_eq_map, List.map_reverse]

/-- A sheet without the places of its nodes. -/
def Sheet.unplaced (sheet : Sheet) : Sheet :=
  { sheet with nodes := unplacedIn sheet.nodes }

def OpenItem.unplaced (item : OpenItem) : OpenItem :=
  { item with place := .start }

def OpenBody.unplaced (body : OpenBody) : OpenBody :=
  ⟨body.item.unplaced, unplacedIn body.before⟩

theorem Declaration.parse?_place (text : List Char) (place other : Text.Position) :
    Declaration.parse? text other =
      (Declaration.parse? text place).map fun found => { found with place := other } := by
  unfold Declaration.parse?
  dsimp only
  split
  · rfl
  · split <;> rfl

namespace SheetReader

/-- A reader without the places of what it has read. -/
def unplaced (reader : SheetReader) : SheetReader where
  bodies := reader.bodies.map OpenBody.unplaced
  nodes := unplacedIn reader.nodes
  item := reader.item.map OpenItem.unplaced
  nextRule := reader.nextRule

variable (reader : SheetReader)

theorem unplaced_closeBody : reader.closeBody.unplaced = reader.unplaced.closeBody := by
  obtain ⟨bodies, nodes, item, nextRule⟩ := reader
  cases bodies with
  | nil => rfl
  | cons body outer =>
    obtain ⟨⟨atName, pieces, brackets, place⟩, before⟩ := body
    cases atName <;>
      simp [closeBody, unplaced, OpenBody.unplaced, OpenItem.unplaced, OpenItem.text, unplacedIn,
        Node.unplaced, unplacedIn_reverse]

theorem unplaced_endItem (item : OpenItem) :
    (reader.endItem item).toOption.map unplaced =
      (reader.unplaced.endItem item.unplaced).toOption := by
  have sameText : item.unplaced.text = item.text := rfl
  have sameBodies : reader.unplaced.bodies.isEmpty = reader.bodies.isEmpty := by
    simp [unplaced]
  have parsed := Declaration.parse?_place item.text item.place item.unplaced.place
  unfold endItem
  rw [show item.unplaced.atName = item.atName from rfl, sameText, sameBodies, parsed]
  cases item.atName with
  | some name => rfl
  | none =>
    dsimp only
    split
    · rfl
    · cases Declaration.parse? item.text item.place <;> rfl

theorem unplaced_beginItem (lexeme : Lexeme) :
    (reader.beginItem lexeme).unplaced = reader.unplaced.beginItem lexeme.unplaced := by
  have sameToken : lexeme.unplaced.token = lexeme.token := rfl
  have closes : reader.unplaced.closes lexeme.token = reader.closes lexeme.token := by
    simp [SheetReader.closes, unplaced]
  unfold beginItem
  rw [sameToken]
  dsimp only
  split
  all_goals try rfl
  rw [closes]
  split
  · exact reader.unplaced_closeBody
  · rfl

/-- Reading a lexeme anywhere comes to the same, but for places. -/
theorem unplaced_step (lexeme : Lexeme) :
    (reader.step lexeme).toOption.map unplaced =
      (reader.unplaced.step lexeme.unplaced).toOption := by
  have sameToken : lexeme.unplaced.token = lexeme.token := rfl
  have closes : reader.unplaced.closes lexeme.token = reader.closes lexeme.token := by
    simp [SheetReader.closes, unplaced]
  unfold step
  cases begun : reader.item with
  | none =>
    have between : reader.unplaced.item = none := by simp [unplaced, begun]
    rw [between]
    exact congrArg some (reader.unplaced_beginItem lexeme)
  | some item =>
    have inside : reader.unplaced.item = some item.unplaced := by simp [unplaced, begun]
    rw [inside, sameToken, closes]
    dsimp only
    rw [show item.unplaced.brackets = item.brackets from rfl]
    split
    · rfl
    split
    · exact reader.unplaced_endItem item
    split
    · rfl
    split
    · have ended := reader.unplaced_endItem item
      cases first : reader.endItem item <;>
        cases second : reader.unplaced.endItem item.unplaced <;>
          simp only [first, second, Except.toOption, Option.map_some, Option.map_none,
            Option.some.injEq, reduceCtorEq] at ended
      · rfl
      · rename_i after other
        rw [← ended]
        exact congrArg some after.unplaced_closeBody
    · rfl

/-- The reader after lexemes, if they can be read. -/
def run? (reader : SheetReader) (lexemes : List Lexeme) : Option SheetReader :=
  (lexemes.foldlM step reader).toOption

theorem run?_nil : reader.run? [] = some reader := rfl

theorem run?_cons (lexeme : Lexeme) (rest : List Lexeme) :
    reader.run? (lexeme :: rest) = (reader.step lexeme).toOption.bind fun after =>
      after.run? rest := by
  unfold run?
  rw [List.foldlM_cons]
  cases reader.step lexeme <;> rfl

theorem run?_append (first second : List Lexeme) :
    reader.run? (first ++ second) = (reader.run? first).bind fun after => after.run? second := by
  unfold run?
  rw [List.foldlM_append]
  cases first.foldlM step reader <;> rfl

theorem unplaced_run? (lexemes : List Lexeme) :
    (reader.run? lexemes).map unplaced = reader.unplaced.run? (lexemes.map Lexeme.unplaced) := by
  induction lexemes generalizing reader with
  | nil => rfl
  | cons lexeme rest ih =>
    rw [List.map_cons, run?_cons, run?_cons, ← unplaced_step]
    cases reader.step lexeme with
    | error error => rfl
    | ok after => exact ih after

end SheetReader

/-- A text whose lexemes are read to the end of an item, outside all bodies, is read as a sheet. -/
theorem exists_parseSheet_of_run {text file : String} {after : SheetReader}
    (read : SheetReader.start.run? (Css.pieces text.toList) = some after)
    (isBetween : after.item = none) (outside : after.bodies = []) :
    ∃ sheet, parseSheet text file = .ok sheet ∧
      sheet.unplaced = ⟨file, after.nodes.reverse, after.nextRule⟩ := by
  have unplaced := SheetReader.start.unplaced_run? (Css.Cursor.ofText text).rest
  rw [show (Css.Cursor.ofText text).rest.map Lexeme.unplaced = Css.pieces text.toList from rfl,
    show SheetReader.start.unplaced = .start from rfl, read] at unplaced
  obtain ⟨reader, folded, rfl⟩ := Option.map_eq_some_iff.mp unplaced
  have noItem : reader.item = none := by simpa [SheetReader.unplaced] using isBetween
  have noBodies : reader.bodies = [] := by simpa [SheetReader.unplaced] using outside
  have ok : (Css.Cursor.ofText text).rest.foldlM SheetReader.step .start = .ok reader := by
    unfold SheetReader.run? at folded
    cases result : (Css.Cursor.ofText text).rest.foldlM SheetReader.step .start with
    | error error =>
      rw [result] at folded
      cases folded
    | ok other =>
      rw [result] at folded
      cases folded
      rfl
  refine ⟨⟨file, reader.nodes.reverse, reader.nextRule⟩, ?_, ?_⟩
  · unfold parseSheet
    rw [ok]
    simp only [bind, Except.bind, SheetReader.finish, noItem, noBodies]
    rfl
  · rw [Sheet.unplaced]
    simp [SheetReader.unplaced, unplacedIn_reverse]

end StyleBlock
