import StyleBlock.Proofs.Escapes
import StyleBlock.Selector.Parser
import StyleBlock.Selector.Printer

/-!
The tokens of a selector list that is written out. Names may need escapes of every kind; still each
of them is one token, and nothing that is written next to it becomes a part of it.
-/

namespace StyleBlock

open Css (Token tokens EndsName)

/-! What selectors are made of -/

/-- Whether a text can be a name: it is not empty and has no null character, which nothing can
write. -/
def IsName (name : String) : Prop :=
  name ≠ "" ∧ '\x00' ∉ name.toList

namespace AttributeTest

/-- Whether the value and the flag of a test can be written. -/
structure IsRegular (test : AttributeTest) : Prop where
  value : '\x00' ∉ test.value.toList
  flag : ∀ flag, test.flag = some flag → flag ≠ "" ∧ ∀ c ∈ flag.toList, c.isAlpha = true

end AttributeTest

/-- Whether the names of an attribute selector are names. An empty namespace, and the one that
stands for all, need not be. -/
structure AttributeSelector.IsRegular (attr : AttributeSelector) : Prop where
  scope : ∀ scope, attr.scope = some scope → '\x00' ∉ scope.toList
  name : IsName attr.name
  test : ∀ test, attr.test = some test → test.IsRegular

/-- Whether the names of a node are names. A pseudo-class has no argument, and is no pseudo-element
with a single colon. -/
def SimpleSelector.IsRegular : SimpleSelector → Prop
  | type name => IsName name
  | universal => True
  | className name => IsName name
  | id name => IsName name
  | attr selector => selector.IsRegular
  | pseudoClass name argument =>
    argument = none ∧ IsName name ∧ Text.lower name = name ∧ name ∉ legacyPseudoElements

structure PseudoElement.IsRegular (pseudo : PseudoElement) : Prop where
  name : IsName pseudo.name
  lower : Text.lower pseudo.name = pseudo.name
  legacy : pseudo.legacy = true → pseudo.name ∈ legacyPseudoElements

/-- Whether a compound is not empty, has regular parts, and a type at its start at most. -/
structure Compound.IsRegular (compound : Compound) : Prop where
  filled : compound.isEmpty = false
  nodes : ∀ node ∈ compound.nodes, node.IsRegular
  types : ∀ node ∈ compound.nodes.tail, ∀ name, node ≠ .type name
  pseudoElement : ∀ pseudo, compound.pseudoElement = some pseudo → pseudo.IsRegular

structure Selector.IsRegular (selector : Selector) : Prop where
  head : selector.head.IsRegular
  tail : ∀ link ∈ selector.tail, link.2.IsRegular

/-! Their tokens -/

namespace AttributeSelector

def scopeTokens : Option String → List Token
  | none => []
  | some scope =>
    (if scope = "*" then [.delim '*'] else if scope = "" then [] else [.ident scope]) ++
      [.delim '|']

def operatorToken : AttributeOperator → Token
  | .equals => .delim '='
  | .includes => .includeMatch
  | .dashMatch => .dashMatch
  | .startsWith => .prefixMatch
  | .endsWith => .suffixMatch
  | .contains => .substringMatch

def valueToken (value : String) : Token :=
  if isPlainValue value.toList then .ident value else .quoted value

def flagTokens : Option String → List Token
  | none => []
  | some flag => [.blank, .ident flag]

def testTokens : Option AttributeTest → List Token
  | none => []
  | some test => operatorToken test.operator :: valueToken test.value :: flagTokens test.flag

/-- The tokens between the brackets. -/
def inside (attr : AttributeSelector) : List Token :=
  scopeTokens attr.scope ++ .ident attr.name :: testTokens attr.test

end AttributeSelector

def SimpleSelector.tokens : SimpleSelector → List Token
  | type name => [.ident name]
  | universal => [.delim '*']
  | className name => [.delim '.', .ident name]
  | id name => [.idHash name]
  | attr selector => .opening .square :: (selector.inside ++ [.closing .square])
  | pseudoClass name _ => [.colon, .ident name]

def PseudoElement.tokens (pseudo : PseudoElement) : List Token :=
  (if pseudo.legacy then [.colon] else [.colon, .colon]) ++ [.ident pseudo.name]

def Compound.tokens (compound : Compound) : List Token :=
  compound.nodes.flatMap SimpleSelector.tokens ++
    match compound.pseudoElement with
    | none => []
    | some pseudo => pseudo.tokens

def Combinator.tokens : Combinator → List Token
  | descendant => [.blank]
  | child => [.blank, .delim '>', .blank]
  | nextSibling => [.blank, .delim '+', .blank]
  | subsequentSibling => [.blank, .delim '~', .blank]

def Selector.tokens (selector : Selector) : List Token :=
  selector.head.tokens ++
    selector.tail.flatMap fun (combinator, compound) => combinator.tokens ++ compound.tokens

/-- The tokens of a selector list. -/
def selectorTokens : List Selector → List Token
  | [] => []
  | [selector] => selector.tokens
  | selector :: rest => selector.tokens ++ [.comma, .blank] ++ selectorTokens rest

/-! Names -/

namespace IsName

variable {name : String} (isName : IsName name)
include isName

theorem filled : name.toList ≠ [] := by
  intro empty
  exact isName.1 (String.toList_inj.mp (by simpa using empty))

theorem tokens_writeIdent {rest : List Char} (ends : EndsName rest) :
    tokens (Css.writeIdent name.toList ++ rest) = .ident name :: tokens rest := by
  rw [Css.tokens_writeIdent isName.filled isName.2 ends, String.ofList_toList]

theorem startsIdent (rest : List Char) :
    Css.startsIdent (Css.writeIdent name.toList ++ rest) = true :=
  Css.startsIdent_writeIdent isName.filled rest

theorem tokens_colon {rest : List Char} (ends : EndsName rest) :
    tokens (':' :: (Css.writeIdent name.toList ++ rest)) =
      .colon :: .ident name :: tokens rest := by
  rw [Css.tokens_colon, isName.tokens_writeIdent ends]

end IsName

/-! Attributes -/

namespace AttributeSelector

/-- What may follow a part of an attribute selector. -/
def EndsPart (rest : List Char) : Prop :=
  ∀ c ∈ rest.head?, c ∈ ['|', '=', '~', '^', '$', '*', ']', ' ']

theorem EndsPart.endsName {rest : List Char} (ends : EndsPart rest) : EndsName rest :=
  Css.endsName_of_listed (by decide) ends

theorem endsPart_cons {c : Char} (listed : c ∈ ['|', '=', '~', '^', '$', '*', ']', ' '])
    (rest : List Char) : EndsPart (c :: rest) := by
  rintro _ ⟨⟩
  exact listed

theorem tokens_bar {chars : List Char} (starts : Css.startsIdent chars = true) :
    tokens ('|' :: chars) = .delim '|' :: tokens chars := by
  refine Css.tokens_of_scanToken ?_
  cases chars with
  | nil => cases starts
  | cons c rest =>
    have apart : c ≠ '=' := by
      rintro rfl
      exact absurd (Css.not_of_head (Css.head_of_startsIdent starts)).2.2 (by decide)
    have scan : Css.scanToken '|' (c :: rest) = Css.scanMatch '|' .dashMatch (c :: rest) := rfl
    rw [scan, Css.scanMatch]
    simpa using apart

theorem tokens_writeScope {scope : Option String}
    (visible : ∀ text, scope = some text → '\x00' ∉ text.toList) {chars : List Char}
    (starts : Css.startsIdent chars = true) :
    tokens (writeScope scope ++ chars) = scopeTokens scope ++ tokens chars := by
  cases scope with
  | none => rfl
  | some text =>
    rw [writeScope, scopeTokens, List.append_assoc, List.append_assoc, List.singleton_append]
    split
    · rw [List.singleton_append, List.singleton_append, List.singleton_append,
        Css.tokens_star (by simp), tokens_bar starts]
    split
    · rename_i empty
      rw [empty]
      exact tokens_bar starts
    · rename_i filled
      have isName : IsName text := ⟨filled, visible text rfl⟩
      rw [isName.tokens_writeIdent (endsPart_cons (by decide) _).endsName, tokens_bar starts]
      rfl

theorem tokens_writeOperator (operator : AttributeOperator) {c : Char} {rest : List Char} :
    tokens (operator.write ++ c :: rest) = operatorToken operator :: tokens (c :: rest) := by
  cases operator <;> exact Css.tokens_of_scanToken rfl

theorem tokens_writeValue {value : String} (visible : '\x00' ∉ value.toList) {rest : List Char}
    (ends : EndsPart rest) :
    tokens (writeValue value.toList ++ rest) = valueToken value :: tokens rest := by
  unfold writeValue valueToken
  split
  · rename_i plain
    have filled : value ≠ "" := by
      rintro rfl
      exact absurd plain (by decide)
    exact IsName.tokens_writeIdent ⟨filled, visible⟩ ends.endsName
  · rw [Css.tokens_writeString visible, String.ofList_toList]

theorem head_writeValue (value rest : List Char) :
    ∃ c others, writeValue value ++ rest = c :: others := by
  unfold writeValue
  split
  · rename_i plain
    have filled : value ≠ [] := by
      rintro rfl
      exact absurd plain (by decide)
    have starts := Css.startsIdent_writeIdent filled rest
    generalize Css.writeIdent value ++ rest = chars at starts
    cases chars with
    | nil => cases starts
    | cons c others => exact ⟨c, others, rfl⟩
  · exact ⟨'\x22', _, rfl⟩

/-- A flag with the blank in front of it. -/
def writeFlag : Option String → List Char
  | none => []
  | some flag => ' ' :: flag.toList

theorem writeTest_some (test : AttributeTest) :
    writeTest (some test) =
      test.operator.write ++ writeValue test.value.toList ++ writeFlag test.flag := by
  obtain ⟨operator, value, flag⟩ := test
  cases flag <;> rfl

/-- A flag is made of letters, so it is written as it is. -/
theorem tokens_writeFlag {flag : Option String}
    (letters : ∀ text, flag = some text → text ≠ "" ∧ ∀ c ∈ text.toList, c.isAlpha = true)
    (rest : List Char) :
    tokens (writeFlag flag ++ ']' :: rest) =
      flagTokens flag ++ .closing .square :: tokens rest := by
  have closing : tokens (']' :: rest) = .closing .square :: tokens rest :=
    Css.tokens_of_scanToken rfl
  cases flag with
  | none => exact closing
  | some text =>
    obtain ⟨filled, alpha⟩ := letters text rfl
    have parts : ∀ c ∈ text.toList, Css.isNamePart c = true ∧ c ≠ '\x00' := by
      intro c member
      refine ⟨by simp [Css.isNamePart, Css.isNameStart, alpha c member], ?_⟩
      rintro rfl
      exact absurd (alpha _ member) (by decide)
    have isName : IsName text := ⟨filled, fun member => (parts _ member).2 rfl⟩
    have starts : Css.startsIdent text.toList = true := by
      cases same : text.toList with
      | nil => exact absurd same isName.filled
      | cons c others =>
        exact Css.startsIdent_of_start (.inl (by
          simp [Css.isNameStart, alpha c (by rw [same]; exact List.mem_cons_self ..)]))
    have name := isName.tokens_writeIdent (endsPart_cons (c := ']') (by decide) rest).endsName
    rw [Css.writeIdent_eq_self starts parts] at name
    have solid : ∀ c ∈ (text.toList ++ ']' :: rest).head?, Css.isSpace c = false := by
      generalize text.toList = chars at starts
      cases chars with
      | nil => cases starts
      | cons c others =>
        rintro _ ⟨⟩
        exact (Css.not_of_head (Css.head_of_startsIdent starts)).1
    rw [writeFlag, List.cons_append, Css.tokens_blank solid, name, closing]
    rfl

theorem tokens_writeTest {test : Option AttributeTest}
    (regular : ∀ given, test = some given → given.IsRegular) (rest : List Char) :
    tokens (writeTest test ++ ']' :: rest) =
      testTokens test ++ .closing .square :: tokens rest := by
  cases test with
  | none => exact Css.tokens_of_scanToken rfl
  | some given =>
    have isRegular := regular given rfl
    rw [writeTest_some, List.append_assoc, List.append_assoc]
    have flag := tokens_writeFlag isRegular.flag rest
    have ends : EndsPart (writeFlag given.flag ++ ']' :: rest) := by
      cases given.flag with
      | none => exact endsPart_cons (by decide) _
      | some flag => exact endsPart_cons (by decide) _
    have value := tokens_writeValue isRegular.value ends
    obtain ⟨c, others, same⟩ :=
      head_writeValue given.value.toList (writeFlag given.flag ++ ']' :: rest)
    rw [same] at value ⊢
    rw [tokens_writeOperator, value, flag]
    rfl

/-- Nothing is lost between the brackets. -/
theorem tokens_write {attr : AttributeSelector} (regular : attr.IsRegular) (rest : List Char) :
    tokens (attr.write ++ rest) =
      .opening .square :: (attr.inside ++ .closing .square :: tokens rest) := by
  have test := tokens_writeTest regular.test rest
  have ends : EndsPart (writeTest attr.test ++ ']' :: rest) := by
    cases attr.test with
    | none => exact endsPart_cons (by decide) _
    | some given =>
      rw [writeTest_some, List.append_assoc, List.append_assoc]
      cases given.operator <;> exact endsPart_cons (by decide) _
  rw [write, inside]
  simp only [List.append_assoc, List.cons_append, List.nil_append]
  rw [Css.tokens_openingSquare,
    tokens_writeScope regular.scope (regular.name.startsIdent _),
    regular.name.tokens_writeIdent ends.endsName, test]

end AttributeSelector

/-! Nodes and compounds -/

/-- What may follow a node. -/
def EndsNode (rest : List Char) : Prop :=
  ∀ c ∈ rest.head?, c ∈ ['.', '#', '[', ':', '*', ' ', ',']

theorem EndsNode.endsName {rest : List Char} (ends : EndsNode rest) : EndsName rest :=
  Css.endsName_of_listed (by decide) ends

theorem endsNode_nil : EndsNode [] := nofun

theorem endsNode_cons {c : Char} (listed : c ∈ ['.', '#', '[', ':', '*', ' ', ','])
    (rest : List Char) : EndsNode (c :: rest) := by
  rintro _ ⟨⟩
  exact listed

namespace SimpleSelector

variable {node : SimpleSelector}

theorem tokens_write (regular : node.IsRegular) {rest : List Char} (ends : EndsNode rest) :
    Css.tokens (node.write ++ rest) = node.tokens ++ Css.tokens rest := by
  cases node with
  | type name => exact IsName.tokens_writeIdent regular ends.endsName
  | universal => exact Css.tokens_star fun equals => absurd (ends '=' equals) (by decide)
  | className name =>
    rw [write, List.cons_append, Css.tokens_point (regular.startsIdent _),
      IsName.tokens_writeIdent regular ends.endsName]
    rfl
  | id name =>
    rw [write, List.cons_append, Css.tokens_hash regular.filled regular.2 ends.endsName,
      String.ofList_toList]
    rfl
  | attr selector =>
    rw [write, AttributeSelector.tokens_write regular, tokens]
    simp
  | pseudoClass name argument =>
    obtain ⟨rfl, isName, _⟩ := regular
    rw [write, List.append_nil, List.cons_append, isName.tokens_colon ends.endsName]
    rfl

/-- Only a type may run on from the name in front of it. -/
theorem endsNode_write (untyped : ∀ name, node ≠ .type name) (rest : List Char) :
    EndsNode (node.write ++ rest) := by
  cases node with
  | type name => exact absurd rfl (untyped name)
  | universal => exact endsNode_cons (by decide) _
  | className name => exact endsNode_cons (by decide) _
  | id name => exact endsNode_cons (by decide) _
  | attr selector => exact endsNode_cons (by decide) _
  | pseudoClass name argument => exact endsNode_cons (by decide) _

theorem head_write (regular : node.IsRegular) (rest : List Char) :
    ∀ c ∈ (node.write ++ rest).head?, Css.isSpace c = false := by
  cases node with
  | type name =>
    have starts := IsName.startsIdent regular rest
    rw [write]
    generalize Css.writeIdent name.toList ++ rest = chars at starts
    cases chars with
    | nil => cases starts
    | cons c others =>
      rintro _ ⟨⟩
      exact (Css.not_of_head (Css.head_of_startsIdent starts)).1
  | universal | className | id | attr | pseudoClass => rintro _ ⟨⟩; rfl

end SimpleSelector

theorem PseudoElement.tokens_write {pseudo : PseudoElement} (regular : pseudo.IsRegular)
    {rest : List Char} (ends : EndsNode rest) :
    Css.tokens (pseudo.write ++ rest) = pseudo.tokens ++ Css.tokens rest := by
  have colon := regular.name.tokens_colon ends.endsName
  rw [write, PseudoElement.tokens]
  split
  · simpa using colon
  · simp only [List.cons_append, List.nil_append]
    rw [Css.tokens_colon, colon]

namespace Compound

theorem endsNode_nodes {nodes : List SimpleSelector}
    (untyped : ∀ node ∈ nodes, ∀ name, node ≠ .type name) {rest : List Char}
    (ends : EndsNode rest) : EndsNode (nodes.flatMap SimpleSelector.write ++ rest) := by
  cases nodes with
  | nil => exact ends
  | cons node others =>
    rw [List.flatMap_cons, List.append_assoc]
    exact SimpleSelector.endsNode_write (untyped node (List.mem_cons_self ..)) _

theorem tokens_nodes {nodes : List SimpleSelector} (regular : ∀ node ∈ nodes, node.IsRegular)
    (untyped : ∀ node ∈ nodes.tail, ∀ name, node ≠ .type name) {rest : List Char}
    (ends : EndsNode rest) :
    Css.tokens (nodes.flatMap SimpleSelector.write ++ rest) =
      nodes.flatMap SimpleSelector.tokens ++ Css.tokens rest := by
  induction nodes with
  | nil => rfl
  | cons node others ih =>
    have later := ih (fun other member => regular other (List.mem_cons_of_mem node member))
      fun other member => untyped other (List.mem_of_mem_tail member)
    rw [List.flatMap_cons, List.flatMap_cons, List.append_assoc, List.append_assoc, ← later]
    exact SimpleSelector.tokens_write (regular node (List.mem_cons_self ..))
      (endsNode_nodes untyped ends)

variable {compound : Compound} (regular : compound.IsRegular)
include regular

theorem tokens_write {rest : List Char} (ends : EndsNode rest) :
    Css.tokens (compound.write ++ rest) = compound.tokens ++ Css.tokens rest := by
  rw [write, Compound.tokens]
  cases pseudo : compound.pseudoElement with
  | none => simpa using tokens_nodes regular.nodes regular.types ends
  | some element =>
    have ended := PseudoElement.tokens_write (regular.pseudoElement element pseudo) ends
    have next : EndsNode (element.write ++ rest) := by
      rw [PseudoElement.write]
      split <;> exact endsNode_cons (by decide) _
    simp only [List.append_assoc]
    rw [tokens_nodes regular.nodes regular.types next, ended]

theorem head_write (rest : List Char) :
    ∀ c ∈ (compound.write ++ rest).head?, Css.isSpace c = false := by
  have filled := regular.filled
  obtain ⟨nodes, pseudo⟩ := compound
  cases nodes with
  | cons node others =>
    rw [write, List.flatMap_cons, List.append_assoc, List.append_assoc]
    exact SimpleSelector.head_write (regular.nodes node (List.mem_cons_self ..)) _
  | nil =>
    cases pseudo with
    | none => cases filled
    | some element =>
      obtain ⟨name, legacy⟩ := element
      cases legacy <;> (rintro _ ⟨⟩; rfl)

end Compound

/-! Chains and lists -/

theorem Combinator.tokens_write (combinator : Combinator) {chars : List Char}
    (solid : ∀ c ∈ chars.head?, Css.isSpace c = false) :
    Css.tokens (combinator.write ++ chars) = combinator.tokens ++ Css.tokens chars := by
  have spaced : ∀ (c : Char) (token : Token), Css.isSpace c = false →
      Css.scanToken c (' ' :: chars) = (token, ' ' :: chars) →
      Css.tokens (' ' :: c :: ' ' :: chars) = [.blank, token, .blank] ++ Css.tokens chars := by
    intro c token apart scan
    rw [Css.tokens_blank (by rintro _ ⟨⟩; exact apart), Css.tokens_of_scanToken scan,
      Css.tokens_blank solid]
    rfl
  cases combinator with
  | descendant => exact Css.tokens_blank solid
  | child => exact spaced '>' _ rfl rfl
  | nextSibling => exact spaced '+' _ rfl rfl
  | subsequentSibling => exact spaced '~' _ rfl rfl

theorem Combinator.endsNode_write (combinator : Combinator) (chars : List Char) :
    EndsNode (combinator.write ++ chars) := by
  cases combinator <;> exact endsNode_cons (by decide) _

namespace Selector

theorem endsNode_tail (tail : List (Combinator × Compound)) {rest : List Char}
    (ends : EndsNode rest) :
    EndsNode ((tail.flatMap fun (combinator, compound) => combinator.write ++ compound.write) ++
      rest) := by
  cases tail with
  | nil => exact ends
  | cons link others =>
    rw [List.flatMap_cons, List.append_assoc, List.append_assoc]
    exact link.1.endsNode_write _

theorem tokens_tail {tail : List (Combinator × Compound)}
    (regular : ∀ link ∈ tail, link.2.IsRegular) {rest : List Char} (ends : EndsNode rest) :
    Css.tokens ((tail.flatMap fun (combinator, compound) => combinator.write ++ compound.write) ++
        rest) =
      (tail.flatMap fun (combinator, compound) => combinator.tokens ++ compound.tokens) ++
        Css.tokens rest := by
  induction tail with
  | nil => rfl
  | cons link others ih =>
    have first := regular link (List.mem_cons_self ..)
    have later := ih fun other member => regular other (List.mem_cons_of_mem link member)
    simp only [List.flatMap_cons, List.append_assoc]
    rw [link.1.tokens_write (Compound.head_write first _),
      Compound.tokens_write first (endsNode_tail others ends), later]

namespace IsRegular

variable {selector : Selector} (regular : selector.IsRegular)
include regular

theorem tokens_write {rest : List Char} (ends : EndsNode rest) :
    Css.tokens (selector.write ++ rest) = selector.tokens ++ Css.tokens rest := by
  rw [write, Selector.tokens, List.append_assoc, List.append_assoc,
    Compound.tokens_write regular.head (endsNode_tail _ ends), tokens_tail regular.tail ends]

theorem head_write (rest : List Char) :
    ∀ c ∈ (selector.write ++ rest).head?, Css.isSpace c = false := by
  rw [write, List.append_assoc]
  exact Compound.head_write regular.head _

end IsRegular

end Selector

theorem writeSelectors_cons (selector next : Selector) (others : List Selector) :
    writeSelectors (selector :: next :: others) =
      selector.write ++ ',' :: ' ' :: writeSelectors (next :: others) := by
  rw [writeSelectors]
  · simp
  · nofun

theorem selectorTokens_cons (selector next : Selector) (others : List Selector) :
    selectorTokens (selector :: next :: others) =
      selector.tokens ++ .comma :: .blank :: selectorTokens (next :: others) := by
  rw [selectorTokens]
  · simp
  · nofun

theorem head_writeSelectors {selector : Selector} (regular : selector.IsRegular)
    (others : List Selector) :
    ∀ c ∈ (writeSelectors (selector :: others)).head?, Css.isSpace c = false := by
  cases others with
  | nil =>
    have head := regular.head_write []
    rwa [List.append_nil] at head
  | cons next others =>
    rw [writeSelectors_cons]
    exact regular.head_write _

/-- The tokens of selectors that are written as a list. -/
theorem tokens_writeSelectors {selectors : List Selector}
    (regular : ∀ selector ∈ selectors, selector.IsRegular) :
    tokens (writeSelectors selectors) = selectorTokens selectors := by
  induction selectors with
  | nil => exact Css.tokens_nil
  | cons selector others ih =>
    have first := regular selector (List.mem_cons_self ..)
    have later := ih fun other member => regular other (List.mem_cons_of_mem selector member)
    cases others with
    | nil =>
      have alone := first.tokens_write endsNode_nil
      rwa [List.append_nil, Css.tokens_nil, List.append_nil] at alone
    | cons next others =>
      have second := regular next (List.mem_cons_of_mem selector (List.mem_cons_self ..))
      rw [writeSelectors_cons, selectorTokens_cons, ← later,
        first.tokens_write (endsNode_cons (by decide) _),
        Css.tokens_comma,
        Css.tokens_blank (head_writeSelectors second others)]

end StyleBlock
