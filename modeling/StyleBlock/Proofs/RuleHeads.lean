import StyleBlock.Proofs.LoadedBlock

/-!
The selectors of the rules of a block. They are kept by the number of the rule; in a loaded block
every style rule finds there what its own text reads as, and the steps of animations find nothing.
-/

namespace StyleBlock

/-- The selectors that the text of a rule reads as, none if it cannot be read. -/
def RuleHead.parsed (head : RuleHead) : List Selector :=
  (parseSelectors head.selector).toOption.getD []

namespace SelectorReader

theorem ne_nil_of_finish {reader : SelectorReader} {place : Text.Position}
    {selectors : List Selector} (finished : reader.finish place = .ok selectors) :
    selectors ≠ [] := by
  obtain ⟨closed, -, finished⟩ := bind_eq_ok_iff.mp finished
  obtain ⟨ended, same, finished⟩ := bind_eq_ok_iff.mp finished
  cases finished
  unfold SelectorReader.endSelector at same
  split at same
  · cases same
  · cases same
    simp

end SelectorReader

/-- A selector list that can be read has a selector. -/
theorem ne_nil_of_parseSelectors {text : String} {selectors : List Selector}
    (read : parseSelectors text = .ok selectors) : selectors ≠ [] := by
  obtain ⟨reader, -, finished⟩ := bind_eq_ok_iff.mp read
  exact SelectorReader.ne_nil_of_finish finished

mutual

/-- The heads of the rules of a node, each with whether the rule selects elements. -/
def Node.heads (styles : Bool) : Node → List (Bool × RuleHead)
  | .rule head nodes => (styles, head) :: headsIn styles nodes
  | .group head nodes => headsIn (styles && !head.holdsKeyframes) nodes
  | _ => []

/-- The heads of all rules, each with whether the rule selects elements; inside the steps of an
animation none does. -/
def headsIn (styles : Bool) : List Node → List (Bool × RuleHead)
  | [] => []
  | node :: rest => node.heads styles ++ headsIn styles rest

end

mutual

theorem Node.map_snd_heads (styles : Bool) (node : Node) :
    (node.heads styles).map Prod.snd = ruleHeads [node] := by
  cases node with
  | rule head nodes => simp [Node.heads, map_snd_headsIn styles nodes]
  | group head nodes => simp [Node.heads, map_snd_headsIn _ nodes]
  | statement | declaration | comment => rfl

theorem map_snd_headsIn (styles : Bool) (nodes : List Node) :
    (headsIn styles nodes).map Prod.snd = ruleHeads nodes := by
  match nodes with
  | [] => rfl
  | node :: rest =>
    rw [headsIn, List.map_append, node.map_snd_heads styles, map_snd_headsIn styles rest,
      ← ruleHeads_append, List.singleton_append]

end

theorem map_headsIn (styles : Bool) (nodes : List Node) :
    (headsIn styles nodes).map (fun entry => entry.2.id) = numbersIn nodes := by
  rw [numbersIn_eq, ← map_snd_headsIn styles, List.map_map]
  rfl

mutual

theorem Node.mem_heads_false (node : Node) : ∀ entry ∈ node.heads false, entry.1 = false := by
  cases node with
  | rule head nodes => simpa [Node.heads] using mem_headsIn_false nodes
  | group head nodes => simpa [Node.heads] using mem_headsIn_false nodes
  | statement | declaration | comment => simp [Node.heads]

theorem mem_headsIn_false (nodes : List Node) : ∀ entry ∈ headsIn false nodes, entry.1 = false := by
  match nodes with
  | [] => simp [headsIn]
  | node :: rest =>
    intro entry member
    rcases List.mem_append.mp member with first | later
    · exact node.mem_heads_false entry first
    · exact mem_headsIn_false rest entry later

end

mutual

theorem Node.mem_heads_true_iff (node : Node) (head : RuleHead) :
    (true, head) ∈ node.heads true ↔ ∃ rule ∈ node.styleRules, rule.head = head := by
  cases node with
  | rule own nodes =>
    simp [Node.heads, Node.styleRules, mem_headsIn_true_iff nodes head, eq_comm]
  | group own nodes =>
    cases steps : own.holdsKeyframes with
    | true =>
      have none := mem_headsIn_false nodes (true, head)
      simpa [Node.heads, Node.styleRules, steps] using none
    | false => simp [Node.heads, Node.styleRules, steps, mem_headsIn_true_iff nodes head]
  | statement | declaration | comment => simp [Node.heads, Node.styleRules]

theorem mem_headsIn_true_iff (nodes : List Node) (head : RuleHead) :
    (true, head) ∈ headsIn true nodes ↔ ∃ rule ∈ styleRulesIn nodes, rule.head = head := by
  match nodes with
  | [] => simp [headsIn, styleRulesIn]
  | node :: rest =>
    simp only [headsIn, styleRulesIn, List.mem_append, node.mem_heads_true_iff head,
      mem_headsIn_true_iff rest head, or_and_right, exists_or]

end

namespace Sheet

/-- The selectors of the style rules as their texts read. -/
theorem parseRules_eq {sheet : Sheet} {selectors : List (RuleId × List Selector)}
    (parsed : sheet.parseRules = .ok selectors) :
    selectors = sheet.styleRules.map (fun rule => (rule.head.id, rule.head.parsed)) ∧
      ∀ rule ∈ sheet.styleRules, rule.head.parsed ≠ [] := by
  obtain ⟨same, each⟩ := mapM_eq_ok (fun rule => (rule.head.id, rule.head.parsed)) (by
    intro rule result read
    split at read
    · rename_i known
      cases read
      simp [RuleHead.parsed, known, Except.toOption]
    · cases read) parsed
  refine ⟨same, ?_⟩
  intro rule member
  have read := each rule member
  split at read
  · rename_i known
    cases read
    exact ne_nil_of_parseSelectors known
  · cases read

end Sheet

/-- A style rule finds the selectors of its text under its number, and the step of an animation
finds none. -/
theorem Block.Keeps.selectorsOf_eq {block : Block} {sheet : Sheet} (kept : block.Keeps sheet)
    (numbered : sheet.IsNumbered) {styles : Bool} {head : RuleHead}
    (member : (styles, head) ∈ headsIn true sheet.nodes) :
    block.selectorsOf head.id = if styles then head.parsed else [] := by
  have single : ((headsIn true sheet.nodes).map fun entry => entry.2.id).Nodup := by
    rw [map_headsIn]
    exact numbered.distinct
  have entries := (Sheet.parseRules_eq kept.parsed).1
  unfold Block.selectorsOf
  cases found : block.selectors.find? fun entry => entry.1 == head.id with
  | none =>
    cases styles with
    | false => rfl
    | true =>
      obtain ⟨rule, style, rfl⟩ := (mem_headsIn_true_iff _ _).mp member
      have absent := List.find?_eq_none.mp found (rule.head.id, rule.head.parsed)
        (entries ▸ List.mem_map_of_mem style)
      simp at absent
  | some entry =>
    have same := List.find?_some found
    have listed := List.mem_of_find?_eq_some found
    rw [entries] at listed
    obtain ⟨rule, style, rfl⟩ := List.mem_map.mp listed
    have other := (mem_headsIn_true_iff _ _).mpr ⟨rule, style, rfl⟩
    obtain ⟨rfl, rfl⟩ : styles = true ∧ head = rule.head := by
      have equal := List.inj_on_of_nodup_map single member other (beq_iff_eq.mp same).symm
      simpa using equal
    rfl

end StyleBlock
