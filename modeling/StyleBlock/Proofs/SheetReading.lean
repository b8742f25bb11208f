import StyleBlock.Proofs.ClearLines

/-!
Sheets read back. A sheet that was read is written as a text that is read as the same sheet, with
other places only, where each line of it keeps to itself.
-/

namespace StyleBlock

open Css (Lexeme pieces)

/-- Whether the line of a rule is read with its selector. A rule without one starts with its
brace. -/
def IsClearSelector (inBody : Bool) (selector : String) : Prop :=
  selector = "" ∨ IsClearLine inBody '\x7b' (selector.toList ++ [' '])

mutual

/-- Whether the lines that a node is written as keep to themselves. Declarations stand in bodies,
and comments always end where they should. -/
def Node.HasClearLines (inBody : Bool) : Node → Prop
  | .rule head nodes => IsClearSelector inBody head.selector ∧ HaveClearLines true nodes
  | .statement head => head.IsClear inBody ';' []
  | .group head nodes => head.IsClear inBody '\x7b' [' '] ∧ HaveClearLines true nodes
  | .declaration declaration => inBody = true ∧ IsClearLine true ';' declaration.write
  | .comment _ => True

/-- Whether the lines that nodes are written as keep to themselves. -/
def HaveClearLines (inBody : Bool) : List Node → Prop
  | [] => True
  | node :: rest => node.HasClearLines inBody ∧ HaveClearLines inBody rest

end

/-- Whether every line that a sheet is written as keeps to itself. -/
def Sheet.HasClearLines (sheet : Sheet) : Prop :=
  HaveClearLines false sheet.nodes

instance (inBody : Bool) (selector : String) : Decidable (IsClearSelector inBody selector) :=
  inferInstanceAs (Decidable (_ ∨ _))

mutual

instance decidableHasClearLines (inBody : Bool) :
    ∀ node : Node, Decidable (node.HasClearLines inBody)
  | .rule head nodes =>
    haveI := decidableHaveClearLines true nodes
    inferInstanceAs (Decidable (IsClearSelector inBody head.selector ∧ HaveClearLines true nodes))
  | .statement head => inferInstanceAs (Decidable (head.IsClear inBody ';' []))
  | .group head nodes =>
    haveI := decidableHaveClearLines true nodes
    inferInstanceAs (Decidable (head.IsClear inBody '\x7b' [' '] ∧ HaveClearLines true nodes))
  | .declaration declaration =>
    inferInstanceAs (Decidable (inBody = true ∧ IsClearLine true ';' declaration.write))
  | .comment _ => .isTrue trivial

instance decidableHaveClearLines (inBody : Bool) : ∀ nodes, Decidable (HaveClearLines inBody nodes)
  | [] => .isTrue trivial
  | node :: rest =>
    haveI := decidableHasClearLines inBody node
    haveI := decidableHaveClearLines inBody rest
    inferInstanceAs (Decidable (node.HasClearLines inBody ∧ HaveClearLines inBody rest))

end

instance (sheet : Sheet) : Decidable sheet.HasClearLines :=
  inferInstanceAs (Decidable (HaveClearLines false sheet.nodes))

namespace SheetReader

/-- The reader with nodes that follow those of the innermost body. -/
def addAll (reader : SheetReader) (nodes : List Node) : SheetReader where
  bodies := reader.bodies
  nodes := (unplacedIn nodes).reverse ++ reader.nodes
  item := none
  nextRule := reader.nextRule + (closingNumbersIn nodes).length

/-- Whether nodes can be read back here: each of their lines keeps to itself, and their numbers go
on where those of the reader end. -/
structure CanRead (reader : SheetReader) (inBody : Bool) (nodes : List Node) : Prop where
  clear : HaveClearLines inBody nodes
  read : AreRead nodes
  numbers : closingNumbersIn nodes = List.range' reader.nextRule (closingNumbersIn nodes).length

variable {reader : SheetReader} {inBody : Bool}

theorem addAll_nil (between : reader.item = none) : reader.addAll [] = reader := by
  obtain ⟨bodies, nodes, item, nextRule⟩ := reader
  cases between
  rfl

theorem isWithin_openBody (item : OpenItem) : (reader.openBody item).IsWithin true := rfl

theorem IsWithin.addAll (within : reader.IsWithin inBody) (nodes : List Node) :
    (reader.addAll nodes).IsWithin inBody :=
  within

theorem addAll_cons (node : Node) (rest : List Node) :
    reader.addAll (node :: rest) = (reader.addAll [node]).addAll rest := by
  simp [addAll, unplacedIn, closingNumbersIn, Nat.add_assoc]

/-- Numbers in a row fall into a first row and the one after it. -/
theorem range'_of_append {first second : List RuleId} {start : RuleId}
    (row : first ++ second = List.range' start (first ++ second).length) :
    first = List.range' start first.length ∧
      second = List.range' (start + first.length) second.length := by
  rw [List.length_append, ← List.range'_append_1] at row
  exact List.append_inj row (by simp)

theorem CanRead.cons {node : Node} {rest : List Node} (can : reader.CanRead inBody (node :: rest)) :
    reader.CanRead inBody [node] ∧ (reader.addAll [node]).CanRead inBody rest := by
  obtain ⟨⟨clear, later⟩, ⟨read, others⟩, numbers⟩ := can
  obtain ⟨first, second⟩ := range'_of_append numbers
  refine ⟨⟨⟨clear, trivial⟩, ⟨read, trivial⟩, ?_⟩, ⟨later, others, ?_⟩⟩
  · simpa [closingNumbersIn] using first
  · simpa [closingNumbersIn, addAll] using second

theorem run?_opens {item : OpenItem} (closed : item.brackets = []) (text : List Char)
    (lexemes : List Lexeme) :
    SheetReader.run? { reader with item := some item }
      (⟨.opening .curly, text, .start⟩ :: lexemes) =
      (reader.openBody item).run? lexemes := by
  have stepped : SheetReader.step { reader with item := some item }
      ⟨.opening .curly, text, .start⟩ = .ok (reader.openBody item) := by
    unfold step
    dsimp only
    rw [closed]
    rfl
  rw [run?_cons, stepped]
  rfl

theorem run?_ends {item : OpenItem} (closed : item.brackets = []) {node : Node}
    (ended : reader.endItem item = .ok (reader.add node)) (text : List Char)
    (lexemes : List Lexeme) :
    SheetReader.run? { reader with item := some item } (⟨.semicolon, text, .start⟩ :: lexemes) =
      (reader.add node).run? lexemes := by
  have stepped : SheetReader.step { reader with item := some item } ⟨.semicolon, text, .start⟩ =
      reader.endItem item := by
    unfold step
    dsimp only
    rw [closed]
    rfl
  rw [run?_cons, stepped, ended]
  rfl

/-- The text of an at-rule is left of what is written behind its name. -/
theorem trimChars_writeParams {head : AtHead} (trimmed : IsTrimmed head.params) {space : List Char}
    (isSpaced : space = [] ∨ space = [' ']) :
    Text.trimChars (head.writeParams ++ space) = head.params.toList := by
  have blank : Text.isBlank ' ' = true := rfl
  have whole : Text.trimChars head.writeParams = head.params.toList := by
    unfold AtHead.writeParams
    split
    · rename_i empty
      rw [String.isEmpty_iff.mp empty]
      rfl
    · rw [Text.trimChars_cons_blank blank, trimmed]
  rcases isSpaced with rfl | rfl
  · rw [List.append_nil, whole]
  · rw [Text.trimChars_append_blank _ blank, whole]

section Between

variable (between : reader.item = none) (within : reader.IsWithin inBody)
include between within

/-- The line of a rule opens its body. -/
theorem run?_selector {selector : String} (trimmed : IsTrimmed selector)
    (clear : IsClearSelector inBody selector) (rest : List Char) :
    ∃ item : OpenItem, item.atName = none ∧ item.text = selector.toList ∧ item.place = .start ∧
      reader.run? (pieces (selector.toList ++ [' '] ++ '\x7b' :: rest)) =
        (reader.openBody item).run? (pieces rest) := by
  rcases clear with rfl | clear
  · refine ⟨⟨none, [], [], .start⟩, rfl, rfl, rfl, ?_⟩
    have scan : Css.scanToken '\x7b' ([] ++ rest) = (.opening .curly, rest) := rfl
    have space : ∀ c ∈ [' '], Css.isSpace c = true := by
      simp only [List.mem_singleton, forall_eq]
      rfl
    rw [String.toList_empty, List.nil_append, run?_blanks between space, ← List.nil_append rest,
      run?_piece scan, step_between between]
    rfl
  · have text : Text.trimChars (selector.toList ++ [' ']) = selector.toList := by
      rw [Text.trimChars_append_blank _ rfl, trimmed]
    refine ⟨.ofText none (selector.toList ++ [' ']), by simp, by simp [text], by simp, ?_⟩
    rw [run?_line between within (.inr rfl) (by simp) clear]
    exact run?_opens (OpenItem.brackets_ofText none clear.item) _ _

/-- The line of an at-rule with a body opens its body. -/
theorem run?_groupHead {head : AtHead} (trimmed : IsTrimmed head.params)
    (clear : head.IsClear inBody '\x7b' [' ']) (rest : List Char) :
    ∃ item : OpenItem, item.atName = some head.name ∧ item.text = head.params.toList ∧
      item.place = .start ∧
      reader.run? (pieces (head.write ++ [' '] ++ '\x7b' :: rest)) =
        (reader.openBody item).run? (pieces rest) := by
  have text := trimChars_writeParams trimmed (.inr rfl)
  refine ⟨.ofText (some head.name) (head.writeParams ++ [' ']), by simp, by simp [text],
    by simp, ?_⟩
  have parts : head.write ++ [' '] ++ '\x7b' :: rest =
      '@' :: (head.name.toList ++ (head.writeParams ++ [' '] ++ '\x7b' :: rest)) := by
    simp [AtHead.write, AtHead.writeParams]
  rw [parts, run?_atLine between within (.inr rfl) clear (.inr rfl)]
  exact run?_opens (OpenItem.brackets_ofText _ clear.text.item) _ _

theorem run?_statement {head : AtHead} (trimmed : IsTrimmed head.params)
    (clear : head.IsClear inBody ';' []) (rest : List Char) :
    reader.run? (pieces (head.write ++ ';' :: rest)) =
      (reader.add (.statement { head with place := .start })).run? (pieces rest) := by
  have text := trimChars_writeParams trimmed (.inl rfl)
  have parts : head.write ++ ';' :: rest =
      '@' :: (head.name.toList ++ (head.writeParams ++ [] ++ ';' :: rest)) := by
    simp [AtHead.write, AtHead.writeParams]
  have ended : reader.endItem (.ofText (some head.name) (head.writeParams ++ [])) =
      .ok (reader.add (.statement { head with place := .start })) := by
    simp only [endItem, OpenItem.atName_ofText, OpenItem.text_ofText, OpenItem.place_ofText, text,
      String.ofList_toList]
  rw [parts, run?_atLine between within (.inl rfl) clear (.inl rfl)]
  exact run?_ends (OpenItem.brackets_ofText _ clear.text.item) ended _ _

omit within in
theorem run?_declaration (inside : reader.IsWithin true) {declaration : Declaration}
    (read : Node.IsRead (.declaration declaration))
    (clear : IsClearLine true ';' declaration.write) (rest : List Char) :
    reader.run? (pieces (declaration.write ++ ';' :: rest)) =
      (reader.add (.declaration { declaration with place := .start })).run? (pieces rest) := by
  have filled : declaration.write ≠ [] := by
    rw [Declaration.write_eq]
    exact List.append_ne_nil_of_right_ne_nil _ (List.cons_ne_nil _ _)
  have ended : reader.endItem (.ofText none declaration.write) =
      .ok (reader.add (.declaration { declaration with place := .start })) := by
    unfold endItem
    simp only [OpenItem.atName_ofText, OpenItem.text_ofText, OpenItem.place_ofText]
    rw [inside, read .start]
    rfl
  rw [run?_line between inside (.inl rfl) filled clear]
  exact run?_ends (OpenItem.brackets_ofText _ clear.item) ended _ _

end Between

/-! Nodes -/

theorem CanRead.rule {head : RuleHead} {nodes : List Node}
    (can : reader.CanRead inBody [.rule head nodes]) (item : OpenItem) :
    (reader.openBody item).CanRead true nodes ∧
      head.id = reader.nextRule + (closingNumbersIn nodes).length := by
  obtain ⟨⟨⟨_, clear⟩, _⟩, ⟨⟨_, read⟩, _⟩, numbers⟩ := can
  simp only [closingNumbersIn, Node.closingNumbers, List.append_nil] at numbers
  obtain ⟨inner, last⟩ := range'_of_append numbers
  exact ⟨⟨clear, read, inner⟩, by simpa using last⟩

theorem CanRead.group {head : AtHead} {nodes : List Node}
    (can : reader.CanRead inBody [.group head nodes]) (item : OpenItem) :
    (reader.openBody item).CanRead true nodes := by
  obtain ⟨⟨⟨_, clear⟩, _⟩, ⟨⟨_, read⟩, _⟩, numbers⟩ := can
  simp only [closingNumbersIn, Node.closingNumbers, List.append_nil] at numbers
  exact ⟨clear, read, numbers⟩

theorem closeBody_rule {item : OpenItem} {head : RuleHead} (nodes : List Node)
    (atName : item.atName = none) (text : item.text = head.selector.toList)
    (place : item.place = .start)
    (number : head.id = reader.nextRule + (closingNumbersIn nodes).length) :
    ((reader.openBody item).addAll nodes).closeBody = reader.addAll [.rule head nodes] := by
  unfold closeBody addAll SheetReader.openBody
  simp [atName, text, place, ← number, unplacedIn, Node.unplaced, closingNumbersIn,
    Node.closingNumbers, ← Nat.add_assoc]

theorem closeBody_group {item : OpenItem} {head : AtHead} (nodes : List Node)
    (atName : item.atName = some head.name) (text : item.text = head.params.toList)
    (place : item.place = .start) :
    ((reader.openBody item).addAll nodes).closeBody = reader.addAll [.group head nodes] := by
  unfold closeBody addAll SheetReader.openBody
  simp [atName, text, place, unplacedIn, Node.unplaced, closingNumbersIn, Node.closingNumbers]

theorem addAll_plain {node : Node} (plain : node.closingNumbers = []) :
    reader.addAll [node] = reader.add node.unplaced := by
  simp [addAll, SheetReader.add, unplacedIn, closingNumbersIn, plain]

/-- A body behind its opening brace, with what follows it. -/
def writeBody (depth : Nat) (nodes : List Node) (rest : List Char) : List Char :=
  '\n' :: (writeNodes (depth + 1) nodes ++ (indentation depth ++ '\x7d' :: '\n' :: rest))

/-- A body whose nodes are read is read and closed. -/
theorem run?_writeBody {item : OpenItem} {depth : Nat} {nodes : List Node}
    (reads : ∀ rest, (reader.openBody item).run? (pieces (writeNodes (depth + 1) nodes ++ rest)) =
      ((reader.openBody item).addAll nodes).run? (pieces rest)) (rest : List Char) :
    (reader.openBody item).run? (pieces (writeBody depth nodes rest)) =
      ((reader.openBody item).addAll nodes).closeBody.run? (pieces rest) := by
  have inside : ((reader.openBody item).addAll nodes).IsWithin true := rfl
  have closed : ((reader.openBody item).addAll nodes).closeBody.item = none := by
    unfold closeBody
    dsimp only [addAll, SheetReader.openBody]
    split <;> rfl
  rw [writeBody, run?_lineEnd rfl, reads, run?_indentation rfl, run?_closing rfl inside,
    run?_lineEnd closed]

mutual

/-- What a node is written as is read as the node, wherever it stands. -/
theorem run?_writeNode {reader : SheetReader} {inBody : Bool} (node : Node)
    (between : reader.item = none) (within : reader.IsWithin inBody)
    (can : reader.CanRead inBody [node]) (depth : Nat) (rest : List Char) :
    reader.run? (pieces (node.write depth ++ rest)) =
      (reader.addAll [node]).run? (pieces rest) := by
  cases node with
  | rule head nodes =>
    have parts : Node.write depth (.rule head nodes) ++ rest = indentation depth ++
        (head.selector.toList ++ [' '] ++ '\x7b' :: writeBody depth nodes rest) := by
      simp [Node.write, writeBody]
    obtain ⟨item, atName, text, place, opened⟩ :=
      run?_selector between within can.read.1.1 can.clear.1.1 (writeBody depth nodes rest)
    obtain ⟨inner, number⟩ := can.rule item
    have reads := run?_writeNodes nodes rfl (isWithin_openBody item) inner (depth + 1)
    rw [parts, run?_indentation between, opened, run?_writeBody reads,
      closeBody_rule nodes atName text place number]
  | group head nodes =>
    have parts : Node.write depth (.group head nodes) ++ rest = indentation depth ++
        (head.write ++ [' '] ++ '\x7b' :: writeBody depth nodes rest) := by
      simp [Node.write, writeBody]
    obtain ⟨item, atName, text, place, opened⟩ :=
      run?_groupHead between within can.read.1.1 can.clear.1.1 (writeBody depth nodes rest)
    have reads := run?_writeNodes nodes rfl (isWithin_openBody item) (can.group item) (depth + 1)
    rw [parts, run?_indentation between, opened, run?_writeBody reads,
      closeBody_group nodes atName text place]
  | statement head =>
    have parts : Node.write depth (.statement head) ++ rest =
        indentation depth ++ (head.write ++ ';' :: '\n' :: rest) := by
      simp [Node.write]
    rw [parts, run?_indentation between, run?_statement between within can.read.1 can.clear.1,
      run?_lineEnd rfl, addAll_plain rfl]
    rfl
  | declaration declaration =>
    have parts : Node.write depth (.declaration declaration) ++ rest =
        indentation depth ++ (declaration.write ++ ';' :: '\n' :: rest) := by
      simp [Node.write]
    obtain ⟨⟨rfl, clear⟩, _⟩ := can.clear
    rw [parts, run?_indentation between, run?_declaration between within can.read.1 clear,
      run?_lineEnd rfl, addAll_plain rfl]
    rfl
  | comment text =>
    have parts : Node.write depth (.comment text) ++ rest =
        indentation depth ++ ('/' :: '*' :: (text.toList ++ '*' :: '/' :: '\n' :: rest)) := by
      simp [Node.write]
    rw [parts, run?_indentation between, run?_comment between can.read.1, run?_lineEnd rfl,
      addAll_plain rfl, String.ofList_toList]
    rfl

/-- What nodes are written as is read as the nodes. -/
theorem run?_writeNodes {reader : SheetReader} {inBody : Bool} (nodes : List Node)
    (between : reader.item = none) (within : reader.IsWithin inBody)
    (can : reader.CanRead inBody nodes) (depth : Nat)
    (rest : List Char) :
    reader.run? (pieces (writeNodes depth nodes ++ rest)) =
      (reader.addAll nodes).run? (pieces rest) := by
  cases nodes with
  | nil => rw [writeNodes, List.nil_append, addAll_nil between]
  | cons node later =>
    obtain ⟨first, others⟩ := can.cons
    rw [writeNodes, List.append_assoc, run?_writeNode node between within first,
      run?_writeNodes later rfl (within.addAll [node]) others, ← addAll_cons]

end

/-- What the nodes of the top level are written as is read as the nodes. -/
theorem run?_writeTopNodes (nodes : List Node) (between : reader.item = none)
    (within : reader.IsWithin inBody) (can : reader.CanRead inBody nodes) :
    reader.run? (pieces (writeTopNodes nodes)) = some (reader.addAll nodes) := by
  induction nodes generalizing reader with
  | nil => rw [writeTopNodes, Css.pieces_nil, run?_nil, addAll_nil between]
  | cons node rest ih =>
    obtain ⟨first, others⟩ := can.cons
    cases rest with
    | nil =>
      rw [writeTopNodes, ← List.append_nil (node.write 0), run?_writeNode node between within first,
        Css.pieces_nil, run?_nil]
    | cons next later =>
      have parts : writeTopNodes (node :: next :: later) =
          node.write 0 ++ '\n' :: writeTopNodes (next :: later) := by
        simp [writeTopNodes]
      rw [parts, run?_writeNode node between within first, run?_lineEnd rfl,
        ih rfl (within.addAll [node]) others, ← addAll_cons]

end SheetReader

/-- A sheet that was read is read from its own text, as the same but for places, where the lines
of the text keep to themselves. -/
theorem parseSheet_text {text file : String} {sheet : Sheet}
    (read : parseSheet text file = .ok sheet) (clear : sheet.HasClearLines) :
    ∃ again, parseSheet sheet.text file = .ok again ∧ again.unplaced = sheet.unplaced := by
  obtain ⟨isFile, areRead, numbers⟩ := areRead_of_parseSheet read
  have can : SheetReader.start.CanRead false sheet.nodes := by
    refine ⟨clear, areRead, ?_⟩
    rw [numbers, List.length_range, List.range_eq_range']
    rfl
  have outside : SheetReader.start.IsWithin false := rfl
  have run := SheetReader.run?_writeTopNodes sheet.nodes rfl outside can
  have chars : sheet.text.toList = writeTopNodes sheet.nodes := String.toList_ofList ..
  rw [← chars] at run
  obtain ⟨again, readAgain, same⟩ := @exists_parseSheet_of_run _ file _ run rfl rfl
  refine ⟨again, readAgain, ?_⟩
  have count : (closingNumbersIn sheet.nodes).length = sheet.nextRule := by
    rw [numbers, List.length_range]
  rw [same, Sheet.unplaced, isFile]
  simp [SheetReader.addAll, SheetReader.start, count]

/-- A text with a line of each kind, whose last bodies are left open. -/
def printText : String :=
  "@import 'base.css' ;@media print\x7b .page > * \x7b color:red ! IMPORTANT; /* ink */ "

def printSheet : Sheet where
  file := "page.css"
  nodes := [
    .statement ⟨"import", "'base.css'", ⟨1, 1, 0⟩⟩,
    .group ⟨"media", "print", ⟨1, 21, 20⟩⟩ [
      .rule ⟨0, ".page > *", ⟨1, 35, 34⟩⟩ [
        .declaration ⟨"color", "red", true, ⟨1, 47, 46⟩⟩,
        .comment " ink "]]]
  nextRule := 1

/-- The sheet is read back from its own text. -/
theorem printSheet_reads_back :
    parseSheet printText "page.css" = .ok printSheet ∧ printSheet.HasClearLines ∧
      ∃ again, parseSheet printSheet.text "page.css" = .ok again ∧
        again.unplaced = printSheet.unplaced := by
  have read : parseSheet printText "page.css" = .ok printSheet := by
    with_unfolding_all rfl
  have clear : printSheet.HasClearLines := by
    decide +kernel
  exact ⟨read, clear, parseSheet_text read clear⟩

/-- The name of this at-rule needs an escape. -/
def escapedSheet : Sheet where
  file := "page.css"
  nodes := [.statement ⟨"1x", "", ⟨1, 1, 0⟩⟩]
  nextRule := 0

/-- Names of at-rules are written without escapes, so the text of this sheet is no sheet. -/
theorem escapedSheet_not_read_back :
    parseSheet "@\\31 x;" "page.css" = .ok escapedSheet ∧
      ¬∃ again, parseSheet escapedSheet.text "page.css" = .ok again ∧
        again.unplaced = escapedSheet.unplaced := by
  have fails : parseSheet escapedSheet.text "page.css" =
      .error ⟨.outsideRule "@1x", ⟨1, 1, 0⟩⟩ := by
    with_unfolding_all rfl
  refine ⟨by with_unfolding_all rfl, ?_⟩
  rintro ⟨again, read, _⟩
  rw [fails] at read
  cases read

end StyleBlock
