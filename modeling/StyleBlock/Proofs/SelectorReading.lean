import StyleBlock.Proofs.SelectorTokens

/-!
Selectors that are written out read back as they were: names, namespaces, operators and values stay
apart token by token, and chains and lists of any length keep their order.
-/

namespace StyleBlock

open Css (Cursor Lexeme Token)
open Text (Position)

/-! Attributes -/

namespace AttributeSelector

variable {lexeme : Lexeme} {rest : List Lexeme} {ending : Position}

theorem nextVisible_cons (visible : Cursor.isComment lexeme.token = false) :
    Cursor.nextVisible ⟨lexeme :: rest, ending⟩ = (some lexeme.token, ⟨rest, ending⟩) := by
  simp [Cursor.nextVisible, Cursor.skipComments, Cursor.next, visible]

theorem skipSpacing_cons (solid : Cursor.isSpacing lexeme.token = false) :
    Cursor.skipSpacing ⟨lexeme :: rest, ending⟩ = ⟨lexeme :: rest, ending⟩ := by
  simp [Cursor.skipSpacing, solid]

theorem readSolid_cons (solid : Cursor.isSpacing lexeme.token = false) (rest : List Lexeme)
    (ending : Position) :
    readSolid ⟨lexeme :: rest, ending⟩ = .ok (lexeme.token, ⟨rest, ending⟩) := by
  simp [readSolid, Cursor.nextSolid, Cursor.next, skipSpacing_cons solid]

theorem isExhausted_cons (solid : Cursor.isSpacing lexeme.token = false) (rest : List Lexeme)
    (ending : Position) :
    Cursor.isExhausted ⟨lexeme :: rest, ending⟩ = false := by
  simp [Cursor.isExhausted, skipSpacing_cons solid]

theorem readIdent_cons {name : String} (isName : lexeme.token = .ident name) :
    readIdent ⟨lexeme :: rest, ending⟩ = .ok (name, ⟨rest, ending⟩) := by
  rw [readIdent, nextVisible_cons (by rw [isName]; rfl), isName]

/-- What follows a name that no bar follows. -/
theorem readName_of_no_bar {name : String} (isName : lexeme.token = .ident name)
    (apart : ∀ next ∈ rest.head?, next.token ≠ .delim '|' ∧ Cursor.isComment next.token = false) :
    readName ⟨lexeme :: rest, ending⟩ = .ok ((none, name), ⟨rest, ending⟩) := by
  have solid : Cursor.isSpacing lexeme.token = false := by rw [isName]; rfl
  have visible : Cursor.isComment lexeme.token = false := by rw [isName]; rfl
  rw [readName, skipSpacing_cons solid, nextVisible_cons visible, isName]
  dsimp only
  cases rest with
  | nil => rfl
  | cons next others =>
    obtain ⟨noBar, noComment⟩ := apart next rfl
    rw [nextVisible_cons noComment]
    split
    · rename_i same
      exact absurd (Option.some.inj (congrArg Prod.fst same)) noBar
    · rfl

/-- A namespace and a name are read up to what is no bar. -/
theorem readName_inside {scope : Option String} {name : String} {lexemes more : List Lexeme}
    (before : lexemes.map Lexeme.token = scopeTokens scope ++ [.ident name])
    (apart : ∀ next ∈ more.head?, next.token ≠ .delim '|' ∧ Cursor.isComment next.token = false) :
    readName ⟨lexemes ++ more, ending⟩ = .ok ((scope, name), ⟨more, ending⟩) := by
  cases scope with
  | none =>
    obtain ⟨first, rest, rfl, isName, isRest⟩ := List.map_eq_cons_iff.mp before
    rw [List.map_eq_nil_iff.mp isRest]
    exact readName_of_no_bar isName apart
  | some text =>
    rw [scopeTokens, List.append_assoc] at before
    split at before
    · rename_i all
      obtain ⟨star, rest, rfl, isStar, before⟩ := List.map_eq_cons_iff.mp before
      obtain ⟨bar, rest, rfl, isBar, before⟩ := List.map_eq_cons_iff.mp before
      obtain ⟨last, rest, rfl, isName, isRest⟩ := List.map_eq_cons_iff.mp before
      have visible : Cursor.isComment bar.token = false := by rw [isBar]; rfl
      rw [List.map_eq_nil_iff.mp isRest, all, readName]
      simp only [List.cons_append, List.nil_append]
      rw [skipSpacing_cons (by rw [isStar]; rfl), nextVisible_cons (by rw [isStar]; rfl), isStar]
      simp only [nextVisible_cons visible, isBar, readIdent_cons isName]
      rfl
    split at before
    · rename_i empty
      obtain ⟨bar, rest, rfl, isBar, before⟩ := List.map_eq_cons_iff.mp before
      obtain ⟨last, rest, rfl, isName, isRest⟩ := List.map_eq_cons_iff.mp before
      rw [List.map_eq_nil_iff.mp isRest, empty, readName]
      simp only [List.cons_append, List.nil_append]
      rw [skipSpacing_cons (by rw [isBar]; rfl), nextVisible_cons (by rw [isBar]; rfl), isBar]
      simp only [readIdent_cons isName]
      rfl
    · obtain ⟨first, rest, rfl, isFirst, before⟩ := List.map_eq_cons_iff.mp before
      obtain ⟨bar, rest, rfl, isBar, before⟩ := List.map_eq_cons_iff.mp before
      obtain ⟨last, rest, rfl, isName, isRest⟩ := List.map_eq_cons_iff.mp before
      rw [List.map_eq_nil_iff.mp isRest, readName]
      simp only [List.cons_append, List.nil_append]
      rw [skipSpacing_cons (by rw [isFirst]; rfl), nextVisible_cons (by rw [isFirst]; rfl), isFirst]
      dsimp only
      rw [nextVisible_cons (by rw [isBar]; rfl), isBar]
      simp only [readIdent_cons isName]
      rfl

theorem operator_operatorToken (operator : AttributeOperator) :
    operator? (operatorToken operator) = some operator ∧ operatorToken operator ≠ .delim '|' ∧
      Cursor.isSpacing (operatorToken operator) = false := by
  cases operator <;> simp [operator?, operatorToken, Cursor.isSpacing]

/-- Whether a token stands for a value: it is an identifier or a string. -/
def IsValue (token : Token) (value : String) : Prop :=
  token = .ident value ∨ token = .quoted value

theorem isValue_valueToken (value : String) : IsValue (valueToken value) value := by
  unfold valueToken
  split
  · exact .inl rfl
  · exact .inr rfl

/-- A test is read to its end. -/
theorem readTest_inside {operator : AttributeOperator} {value : String} {flag : Option String}
    {token : Token} (isValue : IsValue token value) {lexemes : List Lexeme}
    (tokens : lexemes.map Lexeme.token = operatorToken operator :: token :: flagTokens flag) :
    readTest ⟨lexemes, ending⟩ = .ok (some ⟨operator, value, flag⟩, ⟨[], ending⟩) := by
  obtain ⟨first, rest, rfl, isOperator, tokens⟩ := List.map_eq_cons_iff.mp tokens
  obtain ⟨second, rest, rfl, isToken, tokens⟩ := List.map_eq_cons_iff.mp tokens
  obtain ⟨known, _, solid⟩ := operator_operatorToken operator
  rw [← isOperator] at known solid
  have exhausted := isExhausted_cons solid (second :: rest) ending
  have readOperator := readSolid_cons solid (second :: rest) ending
  have solidValue : Cursor.isSpacing second.token = false := by
    rw [isToken]
    rcases isValue with same | same <;> rw [same] <;> rfl
  have readValue := readSolid_cons solidValue rest ending
  cases flag with
  | none =>
    obtain rfl := List.map_eq_nil_iff.mp tokens
    have empty : Cursor.isExhausted ⟨[], ending⟩ = true := rfl
    rcases isValue with same | same <;> rw [same] at isToken <;>
      simp [readTest, exhausted, readOperator, known, readValue, isToken, empty, pure,
        Except.pure, bind, Except.bind]
  | some flag =>
    obtain ⟨blank, rest, rfl, isBlank, tokens⟩ := List.map_eq_cons_iff.mp tokens
    obtain ⟨last, rest, rfl, isFlag, tokens⟩ := List.map_eq_cons_iff.mp tokens
    obtain rfl := List.map_eq_nil_iff.mp tokens
    have skipped : Cursor.skipSpacing ⟨[blank, last], ending⟩ = ⟨[last], ending⟩ := by
      simp [Cursor.skipSpacing, isBlank, isFlag, Cursor.isSpacing]
    have left : Cursor.isExhausted ⟨[blank, last], ending⟩ = false := by
      simp [Cursor.isExhausted, skipped]
    have readFlag : readSolid ⟨[blank, last], ending⟩ = .ok (.ident flag, ⟨[], ending⟩) := by
      simp [readSolid, Cursor.nextSolid, skipped, Cursor.next, isFlag]
    rcases isValue with same | same <;> rw [same] at isToken <;>
      simp [readTest, exhausted, readOperator, known, readValue, isToken, left, readFlag, pure,
        Except.pure, bind, Except.bind]

/-- The tokens of an attribute selector between its brackets, whichever way its value is written. -/
inductive IsInside : AttributeSelector → List Token → Prop
  | bare (scope : Option String) (name : String) :
      IsInside ⟨scope, name, none⟩ (scopeTokens scope ++ [.ident name])
  | test (scope : Option String) (name : String) (operator : AttributeOperator) {value : String}
      (flag : Option String) {token : Token} (isValue : IsValue token value) :
      IsInside ⟨scope, name, some ⟨operator, value, flag⟩⟩
        (scopeTokens scope ++ [.ident name] ++ operatorToken operator :: token :: flagTokens flag)

theorem isInside_inside (attr : AttributeSelector) : attr.IsInside attr.inside := by
  obtain ⟨scope, name, test⟩ := attr
  cases test with
  | none => exact .bare scope name
  | some test =>
    rw [inside, List.append_cons]
    exact .test scope name test.operator test.flag (isValue_valueToken test.value)

namespace IsInside

variable {attr : AttributeSelector} {tokens : List Token}

/-- What is written between brackets is read back. -/
theorem read (isInside : attr.IsInside tokens) {ending : Position} {lexemes : List Lexeme}
    (same : lexemes.map Lexeme.token = tokens) :
      AttributeSelector.read ⟨lexemes, ending⟩ = .ok attr := by
  cases isInside with
  | bare scope name =>
    have named : readName ⟨lexemes ++ [], ending⟩ = .ok ((scope, name), ⟨[], ending⟩) :=
      readName_inside same nofun
    rw [List.append_nil] at named
    rw [AttributeSelector.read, named]
    rfl
  | test scope name operator flag isValue =>
    obtain ⟨before, after, rfl, isBefore, isAfter⟩ := List.map_eq_append_iff.mp same
    have apart : ∀ next ∈ after.head?,
        next.token ≠ .delim '|' ∧ Cursor.isComment next.token = false := by
      intro next isNext
      obtain ⟨first, rest, rfl, isOperator, _⟩ := List.map_eq_cons_iff.mp isAfter
      cases isNext
      obtain ⟨_, noBar, _⟩ := operator_operatorToken operator
      refine ⟨isOperator ▸ noBar, ?_⟩
      rw [isOperator]
      cases operator <;> rfl
    rw [AttributeSelector.read, readName_inside isBefore apart]
    simp only [bind, Except.bind, readTest_inside isValue isAfter]
    rfl

/-- No bracket stands between the brackets of an attribute selector. -/
theorem plain (isInside : attr.IsInside tokens) :
    ∀ token ∈ tokens, token.opens? = none ∧ token.closes? = none := by
  have ofScope : ∀ scope, ∀ token ∈ scopeTokens scope,
      token.opens? = none ∧ token.closes? = none := by
    intro scope token member
    cases scope with
    | none => cases member
    | some text =>
      rw [scopeTokens] at member
      split at member
      · rcases (by simpa using member : token = .delim '*' ∨ token = .delim '|') with rfl | rfl <;>
          exact ⟨rfl, rfl⟩
      split at member
      · obtain rfl : token = .delim '|' := by simpa using member
        exact ⟨rfl, rfl⟩
      · rcases (by simpa using member : token = .ident text ∨ token = .delim '|') with rfl | rfl <;>
          exact ⟨rfl, rfl⟩
  have ofName : ∀ scope name, ∀ token ∈ scopeTokens scope ++ [.ident name],
      token.opens? = none ∧ token.closes? = none := by
    intro scope name token member
    rcases List.mem_append.mp member with member | member
    · exact ofScope scope token member
    · rw [List.mem_singleton.mp member]
      exact ⟨rfl, rfl⟩
  cases isInside with
  | bare scope name => exact ofName scope name
  | test scope name operator flag isValue =>
    intro token member
    rcases List.mem_append.mp member with member | member
    · exact ofName scope name token member
    rcases List.mem_cons.mp member with rfl | member
    · cases operator <;> exact ⟨rfl, rfl⟩
    rcases List.mem_cons.mp member with rfl | member
    · rcases isValue with same | same <;> rw [same] <;> exact ⟨rfl, rfl⟩
    cases flag with
    | none => cases member
    | some text =>
      rcases (by simpa [flagTokens] using member : token = .blank ∨ token = .ident text) with
        rfl | rfl <;> exact ⟨rfl, rfl⟩

end IsInside

end AttributeSelector

namespace SelectorReader

/-- Whether a reader reads tokens, wherever they stand, and goes on as another one. -/
def Reads (reader : SelectorReader) (tokens : List Token) (after : SelectorReader) : Prop :=
  ∀ lexemes : List Lexeme, lexemes.map Lexeme.token = tokens →
    lexemes.foldlM step reader = .ok after

namespace Reads

variable {reader between after : SelectorReader} {token : Token} {tokens more : List Token}

theorem nil (reader : SelectorReader) : reader.Reads [] reader := by
  intro lexemes same
  rw [List.map_eq_nil_iff.mp same]
  rfl

theorem cons (first : ∀ lexeme : Lexeme, lexeme.token = token → reader.step lexeme = .ok between)
    (later : between.Reads tokens after) : reader.Reads (token :: tokens) after := by
  intro lexemes same
  obtain ⟨lexeme, rest, rfl, isToken, isRest⟩ := List.map_eq_cons_iff.mp same
  rw [List.foldlM_cons, first lexeme isToken]
  exact later rest isRest

theorem append (one : reader.Reads tokens between) (other : between.Reads more after) :
    reader.Reads (tokens ++ more) after := by
  intro lexemes same
  obtain ⟨front, back, rfl, isFront, isBack⟩ := List.map_eq_append_iff.mp same
  rw [List.foldlM_append, one front isFront]
  exact other back isBack

end Reads

/-! Nodes -/

variable {reader : SelectorReader}

theorem takeSpace_setPart (reader : SelectorReader) (part : SelectorPart) :
    ({ reader with part } : SelectorReader).takeSpace = { reader.takeSpace with part } := by
  unfold takeSpace
  dsimp only
  split <;> rfl

/-- A reader between the nodes of a compound, after some of them. -/
def withNodes (reader : SelectorReader) (nodes : List SimpleSelector) : SelectorReader :=
  { reader with compound := ⟨reader.compound.nodes ++ nodes, none⟩, spaced := false, part := .node }

theorem spaced_takeSpace (reader : SelectorReader) : reader.takeSpace.spaced = false := by
  unfold takeSpace
  split <;> rfl

theorem addNode_eq (isOpen : reader.takeSpace.compound.pseudoElement = none) (part : SelectorPart)
    (place : Position) (node : SimpleSelector) :
    ({ reader with part } : SelectorReader).addNode place node =
      .ok (reader.takeSpace.withNodes [node]) := by
  have spaced := spaced_takeSpace reader
  unfold addNode
  dsimp only
  rw [takeSpace_setPart]
  simp [isOpen, withNodes, spaced]

theorem step_colon (isNode : reader.part = .node) (lexeme : Lexeme)
    (isToken : lexeme.token = .colon) :
    reader.step lexeme = .ok { reader with part := .pseudo } := by
  rw [step, isNode, isToken]
  rfl

theorem bracketsAfter_plain {token : Token} (opens : token.opens? = none)
    (closes : token.closes? = none) : Css.bracketsAfter [] token = [] := by
  simp [Css.bracketsAfter, opens, closes]

/-- What stands between brackets is gathered as it is. -/
theorem foldlM_brackets (lexemes : List Lexeme)
    (plain : ∀ lexeme ∈ lexemes, lexeme.token.opens? = none ∧ lexeme.token.closes? = none)
    (inside : List Lexeme) :
    lexemes.foldlM step { reader with part := .brackets inside [] } =
      .ok { reader with part := .brackets (lexemes.reverse ++ inside) [] } := by
  induction lexemes generalizing inside with
  | nil => rfl
  | cons lexeme rest ih =>
    obtain ⟨opens, closes⟩ := plain lexeme (List.mem_cons_self ..)
    have apart : lexeme.token ≠ .closing .square := by
      intro same
      rw [same] at closes
      cases closes
    have stepped : step { reader with part := .brackets inside [] } lexeme =
        .ok { reader with part := .brackets (lexeme :: inside) [] } := by
      simp [step, apart, bracketsAfter_plain opens closes]
    rw [List.foldlM_cons, stepped, List.reverse_cons, List.append_assoc]
    exact ih (fun other member => plain other (List.mem_cons_of_mem lexeme member)) _

/-- Whether tokens are read as a node wherever a node may stand. -/
def ReadsNode (tokens : List Token) (node : SimpleSelector) : Prop :=
  ∀ reader : SelectorReader, reader.part = .node →
    reader.takeSpace.compound.pseudoElement = none →
      reader.Reads tokens (reader.takeSpace.withNodes [node])

theorem readsNode_attr {attr : AttributeSelector} {inside : List Token}
    (isInside : attr.IsInside inside) :
    ReadsNode (.opening .square :: (inside ++ [.closing .square])) (.attr attr) := by
  intro reader isNode isOpen
  have opened : ∀ lexeme : Lexeme, lexeme.token = .opening .square →
      reader.step lexeme = .ok { reader with part := .brackets [] [] } := by
    intro lexeme isToken
    rw [step, isNode, isToken]
    rfl
  refine .cons opened fun lexemes same => ?_
  obtain ⟨between, last, rfl, isBetween, isLast⟩ := List.map_eq_append_iff.mp same
  obtain ⟨close, rest, rfl, isClose, isRest⟩ := List.map_eq_cons_iff.mp isLast
  obtain rfl := List.map_eq_nil_iff.mp isRest
  have plain : ∀ lexeme ∈ between, lexeme.token.opens? = none ∧ lexeme.token.closes? = none :=
    fun lexeme member => isInside.plain lexeme.token (isBetween ▸ List.mem_map_of_mem member)
  have closed : step { reader with part := .brackets between.reverse [] } close =
      .ok (reader.takeSpace.withNodes [.attr attr]) := by
    simp only [step, List.isEmpty_nil, isClose, decide_true, Bool.and_self, if_true, addAttribute]
    rw [List.reverse_reverse, isInside.read isBetween]
    exact addNode_eq isOpen _ _ _
  rw [List.foldlM_append, foldlM_brackets between plain, List.append_nil]
  simp only [bind, Except.bind, List.foldlM_cons, closed]
  rfl

/-- A node of one token. -/
theorem readsNode_token {token : Token} {node : SimpleSelector}
    (reads : ∀ (reader : SelectorReader) place,
      reader.readNode token place = reader.addNode place node) : ReadsNode [token] node := by
  intro reader isNode isOpen
  have same : ({ reader with part := .node } : SelectorReader) = reader := by rw [← isNode]
  refine .cons (fun lexeme isToken => ?_) (.nil _)
  have added := addNode_eq isOpen .node lexeme.ending node
  rw [same] at added
  rw [step, isNode, isToken]
  exact (reads reader _).trans added

theorem readsNode_className (name : String) :
    ReadsNode [.delim '.', .ident name] (.className name) := by
  intro reader isNode isOpen
  have point : ∀ lexeme : Lexeme, lexeme.token = .delim '.' →
      reader.step lexeme = .ok { reader with part := .className } := by
    intro lexeme isToken
    rw [step, isNode, isToken]
    rfl
  refine .cons point (.cons (fun lexeme isToken => ?_) (.nil _))
  rw [step, isToken]
  exact addNode_eq isOpen .className _ _

theorem readsNode_tokens {node : SimpleSelector} (regular : node.IsRegular) :
    ReadsNode node.tokens node := by
  cases node with
  | type name => exact readsNode_token fun _ _ => rfl
  | universal => exact readsNode_token fun _ _ => rfl
  | id name => exact readsNode_token fun _ _ => rfl
  | attr selector => exact readsNode_attr selector.isInside_inside
  | className name => exact readsNode_className name
  | pseudoClass name argument =>
    obtain ⟨rfl, _, lower, unlisted⟩ := regular
    intro reader isNode isOpen
    refine .cons (step_colon isNode) (.cons (fun lexeme isToken => ?_) (.nil _))
    rw [step, isToken]
    simp only [readPseudo, lower]
    rw [if_neg (by simpa using unlisted)]
    exact addNode_eq isOpen .pseudo _ _

/-! Compounds -/

theorem takeSpace_withNodes (reader : SelectorReader) (nodes : List SimpleSelector) :
    (reader.withNodes nodes).takeSpace = reader.withNodes nodes := by
  simp [takeSpace, withNodes]

theorem withNodes_withNodes (reader : SelectorReader) (nodes more : List SimpleSelector) :
    (reader.withNodes nodes).withNodes more = reader.withNodes (nodes ++ more) := by
  simp [withNodes]

theorem reads_nodes (reader : SelectorReader) {written : List (List Token)}
    {nodes : List SimpleSelector} (reads : List.Forall₂ ReadsNode written nodes)
    (before : List SimpleSelector) :
    (reader.withNodes before).Reads written.flatten (reader.withNodes (before ++ nodes)) := by
  induction reads generalizing before with
  | nil =>
    rw [List.append_nil]
    exact .nil _
  | @cons tokens node written others read reads ih =>
    have first := read (reader.withNodes before) rfl (by rw [takeSpace_withNodes]; rfl)
    rw [takeSpace_withNodes, withNodes_withNodes] at first
    have later := ih (before ++ [node])
    rw [List.append_assoc] at later
    exact first.append later

/-- The nodes of a compound are read, whatever stands before it. -/
theorem reads_firstNodes (isNode : reader.part = .node)
    (isOpen : reader.takeSpace.compound.pseudoElement = none) {written : List (List Token)}
    {nodes : List SimpleSelector} (filled : nodes ≠ [])
    (reads : List.Forall₂ ReadsNode written nodes) :
    reader.Reads written.flatten (reader.takeSpace.withNodes nodes) := by
  cases reads with
  | nil => exact absurd rfl filled
  | @cons tokens node written others read reads =>
    exact (read reader isNode isOpen).append (reads_nodes reader.takeSpace reads [node])

/-- A reader after a compound. -/
def withCompound (reader : SelectorReader) (compound : Compound) : SelectorReader :=
  { reader with compound, spaced := false, part := .node }

theorem reads_pseudoElement (isNode : reader.part = .node)
    (isOpen : reader.takeSpace.compound.pseudoElement = none) {pseudo : PseudoElement}
    (regular : pseudo.IsRegular) :
    reader.Reads pseudo.tokens
      (reader.takeSpace.withCompound ⟨reader.takeSpace.compound.nodes, some pseudo⟩) := by
  have spaced := spaced_takeSpace reader
  have added : ∀ (part : SelectorPart) (place : Position),
      ({ reader with part } : SelectorReader).addPseudoElement place pseudo =
        .ok (reader.takeSpace.withCompound ⟨reader.takeSpace.compound.nodes, some pseudo⟩) := by
    intro part place
    unfold addPseudoElement
    dsimp only
    rw [takeSpace_setPart]
    simp [isOpen, withCompound, spaced]
  obtain ⟨name, legacy⟩ := pseudo
  cases legacy with
  | true =>
    refine .cons (step_colon isNode) (.cons (fun lexeme isToken => ?_) (.nil _))
    rw [step, isToken]
    simp only [readPseudo, regular.lower]
    rw [if_pos (by simpa using regular.legacy rfl)]
    exact added .pseudo _
  | false =>
    have colon : ∀ lexeme : Lexeme, lexeme.token = .colon →
        step { reader with part := .pseudo } lexeme =
          .ok { reader with part := .pseudoElement } := by
      intro lexeme isToken
      rw [step, isToken]
      rfl
    refine .cons (step_colon isNode) (.cons colon (.cons (fun lexeme isToken => ?_) (.nil _)))
    rw [step, isToken]
    simp only [regular.lower]
    exact added .pseudoElement _

theorem reads_compound (isNode : reader.part = .node) (fresh : reader.takeSpace.compound = .empty)
    {compound : Compound} (regular : compound.IsRegular) :
    reader.Reads compound.tokens (reader.takeSpace.withCompound compound) := by
  have isOpen : reader.takeSpace.compound.pseudoElement = none := by rw [fresh]; rfl
  have noNodes : reader.takeSpace.compound.nodes = [] := by rw [fresh]; rfl
  have filled := regular.filled
  obtain ⟨nodes, pseudo⟩ := compound
  cases nodes with
  | nil =>
    cases pseudo with
    | none => cases filled
    | some element =>
      have read := reads_pseudoElement isNode isOpen (regular.pseudoElement element rfl)
      rwa [noNodes] at read
  | cons node others =>
    have each : List.Forall₂ ReadsNode ((node :: others).map SimpleSelector.tokens)
        (node :: others) :=
      List.forall₂_map_left_iff.mpr (List.forall₂_same.mpr fun other member =>
        readsNode_tokens (regular.nodes other member))
    have read := reads_firstNodes isNode isOpen (List.cons_ne_nil node others) each
    rw [← List.flatMap_def] at read
    have gathered : reader.takeSpace.withNodes (node :: others) =
        reader.takeSpace.withCompound ⟨node :: others, none⟩ := by
      simp [withNodes, withCompound, noNodes]
    cases pseudo with
    | none =>
      rw [Compound.tokens, ← gathered, List.append_nil]
      exact read
    | some element =>
      have stillOpen :
          (reader.takeSpace.withNodes (node :: others)).takeSpace.compound.pseudoElement =
            none := by
        rw [takeSpace_withNodes]
        rfl
      have last := reads_pseudoElement rfl stillOpen (regular.pseudoElement element rfl)
      rw [takeSpace_withNodes] at last
      have ended := read.append last
      rw [gathered] at ended
      exact ended

/-! Chains -/

/-- A reader at the end of a selector, after the complete ones. -/
structure AtEnd (reader : SelectorReader) (complete : List Selector) (selector : Selector) :
    Prop where
  part : reader.part = .node
  filled : reader.compound.isEmpty = false
  complete : reader.complete = complete
  chain : reader.chain = selector

/-- A combinator ends a compound, whatever blanks are around it. -/
theorem reads_combinator (isNode : reader.part = .node)
    (filled : reader.compound.isEmpty = false) (combinator : Combinator) :
    ∃ after, reader.Reads combinator.tokens after ∧ after.part = .node ∧
      after.takeSpace = reader.joined combinator := by
  have blank : ∀ (reader : SelectorReader) (lexeme : Lexeme), reader.part = .node →
      lexeme.token = .blank → reader.step lexeme = .ok { reader with spaced := true } := by
    intro reader lexeme isNode isToken
    simp [step, isNode, isToken, readNode]
  have symbol : ∀ (token : Token),
      (∀ reader place, readNode reader token place = reader.addCombinator place combinator) →
      combinator.tokens = [.blank, token, .blank] →
      ∃ after, reader.Reads combinator.tokens after ∧ after.part = .node ∧
        after.takeSpace = reader.joined combinator := by
    intro token reads tokens
    refine ⟨{ reader.joined combinator with spaced := true }, ?_, isNode, ?_⟩
    · rw [tokens]
      refine .cons (fun lexeme => blank reader lexeme isNode) (.cons (fun lexeme isToken => ?_)
        (.cons (fun lexeme => blank (reader.joined combinator) lexeme isNode) (.nil _)))
      simp [step, isNode, isToken, reads, addCombinator, filled, joined, chain]
    · simp [takeSpace, joined, Compound.isEmpty, Compound.empty]
  cases combinator with
  | descendant =>
    refine ⟨{ reader with spaced := true }, .cons (fun lexeme => blank reader lexeme isNode)
      (.nil _), isNode, ?_⟩
    simp [takeSpace, filled, joined, chain]
  | child => exact symbol (.delim '>') (fun _ _ => rfl) rfl
  | nextSibling => exact symbol (.delim '+') (fun _ _ => rfl) rfl
  | subsequentSibling => exact symbol (.delim '~') (fun _ _ => rfl) rfl

theorem reads_tail {complete : List Selector} {selector : Selector}
    (atEnd : reader.AtEnd complete selector) {tail : List (Combinator × Compound)}
    (regular : ∀ link ∈ tail, link.2.IsRegular) :
    ∃ after, reader.Reads
        (tail.flatMap fun (combinator, compound) => combinator.tokens ++ compound.tokens) after ∧
      after.AtEnd complete ⟨selector.head, selector.tail ++ tail⟩ := by
  induction tail generalizing reader selector with
  | nil =>
    rw [List.append_nil]
    exact ⟨reader, .nil _, atEnd⟩
  | cons link others ih =>
    obtain ⟨combinator, compound⟩ := link
    have isRegular := regular (combinator, compound) (List.mem_cons_self ..)
    obtain ⟨between, joins, isNode, joined⟩ :=
      reads_combinator atEnd.part atEnd.filled combinator
    have read := reads_compound isNode (by rw [joined]; rfl) isRegular
    rw [joined] at read
    have next : AtEnd ((reader.joined combinator).withCompound compound) complete
        (selector.push combinator compound) :=
      ⟨rfl, isRegular.filled, atEnd.complete, by rw [← atEnd.chain]; rfl⟩
    obtain ⟨after, later, ends⟩ := ih next fun other member =>
      regular other (List.mem_cons_of_mem _ member)
    rw [Selector.push, List.append_assoc] at ends
    exact ⟨after, (joins.append read).append later, ends⟩

/-- A selector is read to its end. -/
theorem reads_selector {complete : List Selector} (isNode : reader.part = .node)
    (begins : reader.takeSpace = { start with complete }) {selector : Selector}
    (regular : selector.IsRegular) :
    ∃ after, reader.Reads selector.tokens after ∧ after.AtEnd complete selector := by
  have first := reads_compound isNode (by rw [begins]; rfl) regular.head
  rw [begins] at first
  have atEnd :
      AtEnd (({ start with complete } : SelectorReader).withCompound selector.head) complete
      ⟨selector.head, []⟩ := ⟨rfl, regular.head.filled, rfl, rfl⟩
  obtain ⟨after, later, ends⟩ := reads_tail atEnd regular.tail
  exact ⟨after, first.append later, ends⟩

/-- A list is read to the end of its last selector. -/
theorem reads_selectors {complete : List Selector} (isNode : reader.part = .node)
    (begins : reader.takeSpace = { start with complete }) {selectors : List Selector}
    (filled : selectors ≠ []) (regular : ∀ selector ∈ selectors, selector.IsRegular) :
    ∃ after before last, reader.Reads (selectorTokens selectors) after ∧ after.AtEnd before last ∧
      (last :: before).reverse = complete.reverse ++ selectors := by
  induction selectors generalizing reader complete with
  | nil => exact absurd rfl filled
  | cons selector others ih =>
    obtain ⟨ended, first, ends⟩ :=
      reads_selector isNode begins (regular selector (List.mem_cons_self ..))
    cases others with
    | nil => exact ⟨ended, complete, selector, first, ends, by simp⟩
    | cons next others =>
      have comma : ended.Reads [.comma, .blank]
          { start with complete := selector :: complete, spaced := true } := by
        have ended : ∀ lexeme : Lexeme, lexeme.token = .comma →
            ended.step lexeme = .ok { start with complete := selector :: complete } := by
          intro lexeme isToken
          rw [step, ends.part, isToken]
          simp only [readNode, endSelector]
          rw [if_neg (by simp [ends.filled]), ends.chain, ends.complete]
        refine .cons ended (.cons (fun lexeme isToken => ?_) (.nil _))
        rw [step, isToken]
        rfl
      have begun : takeSpace { start with complete := selector :: complete, spaced := true } =
          { start with complete := selector :: complete } := rfl
      obtain ⟨after, before, last, later, endsLater, order⟩ := ih rfl begun
        (List.cons_ne_nil next others)
        fun other member => regular other (List.mem_cons_of_mem selector member)
      refine ⟨after, before, last, ?_, endsLater, by simpa using order⟩
      rw [selectorTokens_cons]
      exact first.append (comma.append later)

/-- A text is the selectors that a reader has at its end. -/
theorem parseSelectors_of_reads {text : String} {after : SelectorReader}
    {complete : List Selector} {selector : Selector}
    (reads : start.Reads (Css.tokens text.toList) after) (ends : after.AtEnd complete selector) :
    parseSelectors text = .ok (selector :: complete).reverse := by
  have read := reads (Cursor.ofText text).rest rfl
  unfold parseSelectors
  simp only [bind, Except.bind, read, finish, closePart, ends.part, endSelector, ends.filled]
  rw [if_neg (by decide), ends.chain, ends.complete]
  rfl

end SelectorReader

/-- A list of selectors that is written out reads back as it was. -/
theorem parseSelectors_selectorList {selectors : List Selector} (filled : selectors ≠ [])
    (regular : ∀ selector ∈ selectors, selector.IsRegular) :
    parseSelectors (selectorList selectors) = .ok selectors := by
  have begun : SelectorReader.start.takeSpace = { SelectorReader.start with complete := [] } := rfl
  obtain ⟨after, before, last, reads, ends, order⟩ :=
    SelectorReader.reads_selectors rfl begun filled regular
  rw [← tokens_writeSelectors regular, ← @String.toList_ofList (writeSelectors selectors)] at reads
  exact (SelectorReader.parseSelectors_of_reads reads ends).trans (congrArg Except.ok order)

/-- Two selectors whose names start with a digit, hold blanks and quotes, or are a hyphen alone. -/
def oddSelectors : List Selector :=
  [⟨⟨[.type "1a", .attr ⟨some "*", "b c", some ⟨.includes, "x\"y", some "i"⟩⟩], none⟩,
      [(.child, ⟨[.className "-"], some ⟨"before", true⟩⟩)]⟩,
    ⟨⟨[.pseudoClass "hover" none, .id "\n"], none⟩, []⟩]

example : selectorList oddSelectors =
    "\\31 a[*|b\\ c~=\"x\\\"y\" i] > .\\-:before, :hover#\\a " := by decide +kernel

theorem oddSelectors_read_back :
    oddSelectors ≠ [] ∧ (∀ selector ∈ oddSelectors, selector.IsRegular) ∧
      parseSelectors (selectorList oddSelectors) = .ok oddSelectors := by
  have filled : oddSelectors ≠ [] := by decide
  have attr :
      AttributeSelector.IsRegular ⟨some "*", "b c", some ⟨.includes, "x\"y", some "i"⟩⟩ := by
    refine ⟨?_, ⟨by decide, by decide⟩, ?_⟩
    · rintro _ ⟨⟩
      decide
    · rintro _ ⟨⟩
      refine ⟨by decide, ?_⟩
      rintro _ ⟨⟩
      exact ⟨by decide, List.all_eq_true.mp (by decide)⟩
  have target : Compound.IsRegular ⟨[.className "-"], some ⟨"before", true⟩⟩ := by
    refine ⟨by decide, List.forall_mem_singleton.mpr ⟨by decide, by decide⟩, nofun, ?_⟩
    rintro _ ⟨⟩
    exact ⟨⟨by decide, by decide⟩, by decide, fun _ => by decide⟩
  have hover : SimpleSelector.IsRegular (.pseudoClass "hover" none) :=
    ⟨rfl, ⟨by decide, by decide⟩, by decide, by decide⟩
  have regular : ∀ selector ∈ oddSelectors, selector.IsRegular := by
    refine List.forall_mem_cons.mpr ⟨⟨⟨by decide, ?_, ?_, nofun⟩, ?_⟩,
      List.forall_mem_singleton.mpr ⟨⟨by decide, ?_, ?_, nofun⟩, nofun⟩⟩
    · exact List.forall_mem_cons.mpr ⟨⟨by decide, by decide⟩, List.forall_mem_singleton.mpr attr⟩
    · exact List.forall_mem_singleton.mpr nofun
    · exact List.forall_mem_singleton.mpr target
    · exact List.forall_mem_cons.mpr ⟨hover, List.forall_mem_singleton.mpr ⟨by decide, by decide⟩⟩
    · exact List.forall_mem_singleton.mpr nofun
  exact ⟨filled, regular, parseSelectors_selectorList filled regular⟩

end StyleBlock
