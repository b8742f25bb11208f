import Mathlib
import StyleBlock.Proofs.ReaderInvariants

/-!
The numbers of rules. Reading a text numbers every rule once, below the sheet's next free number,
so whatever carries a number from there on was added later.
-/

namespace StyleBlock

/-- The numbers of all rules in nodes. -/
def numbersIn (nodes : List Node) : List RuleId :=
  (rulesIn nodes).map fun rule => rule.head.id

@[simp] theorem rulesIn_append (first second : List Node) :
    rulesIn (first ++ second) = rulesIn first ++ rulesIn second := by
  induction first with
  | nil => rfl
  | cons node rest ih => simp [rulesIn, ih]

theorem rulesIn_declarations (declarations : List Declaration) :
    rulesIn (declarations.map Node.declaration) = [] := by
  induction declarations with
  | nil => rfl
  | cons declaration rest ih => exact ih

/-- The heads of all rules in nodes, each before those inside its rule. -/
def ruleHeads (nodes : List Node) : List RuleHead :=
  (rulesIn nodes).map Rule.head

@[simp] theorem ruleHeads_nil : ruleHeads [] = [] := rfl

@[simp] theorem ruleHeads_append (first second : List Node) :
    ruleHeads (first ++ second) = ruleHeads first ++ ruleHeads second := by
  simp [ruleHeads]

theorem ruleHeads_cons (node : Node) (rest : List Node) :
    ruleHeads (node :: rest) = ruleHeads [node] ++ ruleHeads rest :=
  ruleHeads_append [node] rest

@[simp] theorem ruleHeads_rule (head : RuleHead) (nodes rest : List Node) :
    ruleHeads (.rule head nodes :: rest) = head :: (ruleHeads nodes ++ ruleHeads rest) := by
  simp [ruleHeads, rulesIn, Node.rules]

@[simp] theorem ruleHeads_group (head : AtHead) (nodes rest : List Node) :
    ruleHeads (.group head nodes :: rest) = ruleHeads nodes ++ ruleHeads rest := by
  simp [ruleHeads, rulesIn, Node.rules]

@[simp] theorem ruleHeads_declarations (declarations : List Declaration) :
    ruleHeads (declarations.map .declaration) = [] := by
  simp [ruleHeads, rulesIn_declarations]

theorem numbersIn_eq (nodes : List Node) : numbersIn nodes = (ruleHeads nodes).map RuleHead.id := by
  simp [numbersIn, ruleHeads]

@[simp] theorem numbersIn_nil : numbersIn [] = [] := rfl

@[simp] theorem numbersIn_append (first second : List Node) :
    numbersIn (first ++ second) = numbersIn first ++ numbersIn second := by
  simp [numbersIn]

theorem numbersIn_cons (node : Node) (rest : List Node) :
    numbersIn (node :: rest) = numbersIn [node] ++ numbersIn rest :=
  numbersIn_append [node] rest

@[simp] theorem numbersIn_rule (head : RuleHead) (nodes rest : List Node) :
    numbersIn (.rule head nodes :: rest) = head.id :: (numbersIn nodes ++ numbersIn rest) := by
  simp [numbersIn, rulesIn, Node.rules]

@[simp] theorem numbersIn_group (head : AtHead) (nodes rest : List Node) :
    numbersIn (.group head nodes :: rest) = numbersIn nodes ++ numbersIn rest := by
  simp [numbersIn, rulesIn, Node.rules]

theorem numbersIn_reverse (nodes : List Node) :
    (numbersIn nodes.reverse).Perm (numbersIn nodes) := by
  induction nodes with
  | nil => exact .nil
  | cons node rest ih =>
    rw [List.reverse_cons, numbersIn_append, numbersIn_cons node rest]
    exact List.perm_append_comm.trans (ih.append_left _)

/-- Numbers that were given out one by one: no two are the same, and all are below the next. -/
structure GivenOut (numbers : List RuleId) (next : RuleId) : Prop where
  distinct : numbers.Nodup
  below : ∀ number ∈ numbers, number < next

namespace GivenOut

theorem start : GivenOut [] 0 :=
  ⟨List.nodup_nil, nofun⟩

theorem perm {numbers others : List RuleId} {next : RuleId} (given : GivenOut numbers next)
    (same : others.Perm numbers) : GivenOut others next :=
  ⟨same.nodup_iff.mpr given.distinct, fun number member =>
    given.below number (same.mem_iff.mp member)⟩

theorem give {numbers : List RuleId} {next : RuleId} (given : GivenOut numbers next) :
    GivenOut (next :: numbers) (next + 1) := by
  refine ⟨List.nodup_cons.mpr ⟨?_, given.distinct⟩, ?_⟩
  · intro member
    exact Nat.lt_irrefl next (given.below next member)
  · intro number member
    rcases List.mem_cons.mp member with rfl | old
    · exact Nat.lt_succ_self number
    · exact Nat.lt_succ_of_lt (given.below number old)

theorem left {first second : List RuleId} {next : RuleId}
    (given : GivenOut (first ++ second) next) :
    GivenOut first next :=
  ⟨(List.nodup_append.mp given.distinct).1, fun number member =>
    given.below number (List.mem_append_left second member)⟩

end GivenOut

/-- A sheet whose rules have numbers of their own below the next free one. -/
def Sheet.IsNumbered (sheet : Sheet) : Prop :=
  GivenOut (numbersIn sheet.nodes) sheet.nextRule

namespace SheetReader

/-- The numbers of the rules that are read, those in open bodies included. -/
def numbers (reader : SheetReader) : List RuleId :=
  numbersIn reader.nodes ++ reader.bodies.flatMap fun body => numbersIn body.before

def IsNumbered (reader : SheetReader) : Prop :=
  GivenOut reader.numbers reader.nextRule

variable {reader : SheetReader}

theorem IsNumbered.add (numbered : reader.IsNumbered) {node : Node}
    (plain : numbersIn [node] = []) :
    (reader.add node).IsNumbered := by
  have same : (reader.add node).numbers = reader.numbers := by
    simp [numbers, SheetReader.add, numbersIn_cons node reader.nodes, plain]
  exact GivenOut.perm numbered (.of_eq same)

theorem IsNumbered.withItem (numbered : reader.IsNumbered) (item : Option OpenItem) :
    ({ reader with item } : SheetReader).IsNumbered :=
  numbered

theorem IsNumbered.openBody (numbered : reader.IsNumbered) (item : OpenItem) :
    (reader.openBody item).IsNumbered :=
  numbered

/-- Closing the body of a rule gives out one number. -/
theorem IsNumbered.closeBody (numbered : reader.IsNumbered) : reader.closeBody.IsNumbered := by
  obtain ⟨bodies, nodes, item, nextRule⟩ := reader
  cases bodies with
  | nil => exact numbered
  | cons body outer =>
    have turned := (numbersIn_reverse nodes).append_right
      (numbersIn body.before ++ outer.flatMap fun body => numbersIn body.before)
    have shift : GivenOut _ nextRule := GivenOut.perm numbered turned
    cases named : body.item.atName with
    | some name =>
      simp only [IsNumbered, numbers, SheetReader.closeBody, named, numbersIn_group,
        List.append_assoc]
      exact shift
    | none =>
      simp only [IsNumbered, numbers, SheetReader.closeBody, named, numbersIn_rule,
        List.append_assoc, List.cons_append]
      exact shift.give

theorem IsNumbered.endItem (numbered : reader.IsNumbered) {item : OpenItem} {after : SheetReader}
    (ended : reader.endItem item = .ok after) : after.IsNumbered := by
  unfold SheetReader.endItem at ended
  cases named : item.atName with
  | some name =>
    simp only [named, Except.ok.injEq] at ended
    subst ended
    exact numbered.add rfl
  | none =>
    simp only [named] at ended
    split at ended
    · cases ended
    · split at ended
      · cases ended
        exact numbered.add rfl
      · cases ended

theorem isKept_isNumbered : IsKept IsNumbered where
  withItem item numbered := numbered.withItem item
  comment _ numbered := numbered.add rfl
  openBody item numbered := numbered.openBody item
  closeBody numbered := numbered.closeBody
  endItem ended numbered := numbered.endItem ended

end SheetReader

/-- Every rule of a sheet that was read has a number of its own. -/
theorem parseSheet_isNumbered {text file : String} {sheet : Sheet}
    (read : parseSheet text file = .ok sheet) : sheet.IsNumbered := by
  obtain ⟨reader, numbered, _, rfl⟩ := exists_reader_of_parseSheet
    SheetReader.isKept_isNumbered GivenOut.start read
  exact (GivenOut.left numbered).perm (numbersIn_reverse reader.nodes)

end StyleBlock
