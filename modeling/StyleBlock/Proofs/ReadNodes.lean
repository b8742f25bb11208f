import StyleBlock.Proofs.ReaderInvariants
import StyleBlock.Proofs.Trimming

/-!
What a reader leaves in the nodes of a sheet. Their texts have no blanks around them, declarations
read back from what they are written as, comments end where their delimiter stands, and the numbers
of rules follow the order in which the rules end.
-/

namespace StyleBlock

mutual

/-- Whether the texts of a node are as a reader leaves them. -/
def Node.IsRead : Node → Prop
  | .rule head nodes => IsTrimmed head.selector ∧ AreRead nodes
  | .statement head => IsTrimmed head.params
  | .group head nodes => IsTrimmed head.params ∧ AreRead nodes
  | .declaration declaration => ∀ place,
      Declaration.parse? (Text.trimChars declaration.write) place = some { declaration with place }
  | .comment text => IsCommentText text.toList

/-- Whether the texts of nodes are as a reader leaves them. -/
def AreRead : List Node → Prop
  | [] => True
  | node :: rest => node.IsRead ∧ AreRead rest

end

theorem areRead_iff {nodes : List Node} : AreRead nodes ↔ ∀ node ∈ nodes, node.IsRead := by
  induction nodes with
  | nil => simp [AreRead]
  | cons node rest ih => rw [AreRead, ih, List.forall_mem_cons]

theorem AreRead.reverse {nodes : List Node} (read : AreRead nodes) : AreRead nodes.reverse :=
  areRead_iff.mpr fun node member => areRead_iff.mp read node (List.mem_reverse.mp member)

mutual

/-- The numbers of the rules of a node, in the order in which the rules end. -/
def Node.closingNumbers : Node → List RuleId
  | .rule head nodes => closingNumbersIn nodes ++ [head.id]
  | .group _ nodes => closingNumbersIn nodes
  | _ => []

/-- The numbers of the rules in nodes, in the order in which the rules end. -/
def closingNumbersIn : List Node → List RuleId
  | [] => []
  | node :: rest => node.closingNumbers ++ closingNumbersIn rest

end

theorem closingNumbersIn_append (first second : List Node) :
    closingNumbersIn (first ++ second) = closingNumbersIn first ++ closingNumbersIn second := by
  induction first with
  | nil => rfl
  | cons node rest ih =>
    rw [List.cons_append, closingNumbersIn, closingNumbersIn, ih, List.append_assoc]

theorem closingNumbersIn_reverse_cons (node : Node) (nodes : List Node) :
    closingNumbersIn (node :: nodes).reverse =
      closingNumbersIn nodes.reverse ++ node.closingNumbers := by
  rw [List.reverse_cons, closingNumbersIn_append, closingNumbersIn, closingNumbersIn,
    List.append_nil]

namespace SheetReader

/-- The numbers given out so far, in the order in which the rules ended. -/
def closingNumbers (reader : SheetReader) : List RuleId :=
  (reader.bodies.reverse.flatMap fun body => closingNumbersIn body.before.reverse) ++
    closingNumbersIn reader.nodes.reverse

/-- What a reader has read is as readers leave it. -/
structure IsFaithful (reader : SheetReader) : Prop where
  nodes : AreRead reader.nodes
  before : ∀ body ∈ reader.bodies, AreRead body.before
  numbers : reader.closingNumbers = List.range reader.nextRule

variable {reader : SheetReader}

theorem isFaithful_start : start.IsFaithful where
  nodes := trivial
  before := by simp [start]
  numbers := rfl

theorem IsFaithful.withItem (faithful : reader.IsFaithful) (item : Option OpenItem) :
    ({ reader with item } : SheetReader).IsFaithful :=
  ⟨faithful.nodes, faithful.before, faithful.numbers⟩

theorem IsFaithful.add (faithful : reader.IsFaithful) {node : Node} (read : node.IsRead)
    (plain : node.closingNumbers = []) : (reader.add node).IsFaithful where
  nodes := ⟨read, faithful.nodes⟩
  before := faithful.before
  numbers := by
    rw [closingNumbers, SheetReader.add, closingNumbersIn_reverse_cons, plain, List.append_nil]
    exact faithful.numbers

theorem IsFaithful.openBody (faithful : reader.IsFaithful) (item : OpenItem) :
    (reader.openBody item).IsFaithful where
  nodes := trivial
  before := by
    intro body member
    rcases List.mem_cons.mp member with rfl | member
    · exact faithful.nodes
    · exact faithful.before body member
  numbers := by
    have numbers := faithful.numbers
    rw [closingNumbers] at numbers ⊢
    simp [SheetReader.openBody, closingNumbersIn, numbers]

/-- Closing a body keeps the nodes in order, and the number of a rule is the last. -/
theorem IsFaithful.closeBody (faithful : reader.IsFaithful) : reader.closeBody.IsFaithful := by
  obtain ⟨bodies, nodes, item, nextRule⟩ := reader
  cases bodies with
  | nil => exact faithful
  | cons body outer =>
    have read := faithful.nodes.reverse
    have before := faithful.before body (List.mem_cons_self ..)
    have outside : ∀ body ∈ outer, AreRead body.before := fun body member =>
      faithful.before body (List.mem_cons_of_mem _ member)
    have numbers := faithful.numbers
    have trimmed := isTrimmed_trimChars body.item.pieces.reverse.flatten
    simp only [closingNumbers, List.reverse_cons, List.flatMap_append, List.flatMap_cons,
      List.flatMap_nil, List.append_nil, List.append_assoc] at numbers
    unfold SheetReader.closeBody
    dsimp only
    split
    · refine ⟨⟨⟨trimmed, read⟩, before⟩, outside, ?_⟩
      rw [closingNumbers, closingNumbersIn_reverse_cons, Node.closingNumbers]
      exact numbers
    · refine ⟨⟨⟨trimmed, read⟩, before⟩, outside, ?_⟩
      rw [closingNumbers, closingNumbersIn_reverse_cons, Node.closingNumbers, List.range_succ,
        ← numbers]
      simp only [List.append_assoc]

theorem IsFaithful.endItem (faithful : reader.IsFaithful) {item : OpenItem} {after : SheetReader}
    (ended : reader.endItem item = .ok after) : after.IsFaithful := by
  unfold SheetReader.endItem at ended
  split at ended
  · cases ended
    exact faithful.add (isTrimmed_trimChars _) rfl
  split at ended
  · cases ended
  split at ended
  · rename_i declaration read
    cases ended
    exact faithful.add (Declaration.parse?_write read) rfl
  · cases ended

theorem isKept_isFaithful : IsKept IsFaithful where
  withItem item faithful := faithful.withItem item
  comment isText faithful := faithful.add isText rfl
  openBody item faithful := faithful.openBody item
  closeBody faithful := faithful.closeBody
  endItem ended faithful := faithful.endItem ended

end SheetReader

/-- The nodes of a sheet that was read are as readers leave them. -/
theorem areRead_of_parseSheet {text file : String} {sheet : Sheet}
    (read : parseSheet text file = .ok sheet) :
    sheet.file = file ∧ AreRead sheet.nodes ∧
      closingNumbersIn sheet.nodes = List.range sheet.nextRule := by
  obtain ⟨reader, faithful, outside, rfl⟩ := exists_reader_of_parseSheet
    SheetReader.isKept_isFaithful SheetReader.isFaithful_start read
  have numbers := faithful.numbers
  rw [SheetReader.closingNumbers, outside] at numbers
  exact ⟨rfl, faithful.nodes.reverse, numbers⟩

end StyleBlock
