import StyleBlock.Proofs.Merging
import StyleBlock.Proofs.SourceKept

/-!
Where generated rules apply. A generated rule stands behind the rule it settles, inside the same
at-rules, and applies only to elements that both rules select. The at-rules around the rule whose
values it copies stay behind in the other sheet, so that rule itself applies to the element exactly
when they are in force.
-/

namespace StyleBlock

mutual

/-- The rules of a node, each with the at-rules around it, innermost first. -/
def Node.placedRules (enclosing : List AtHead) : Node → List (List AtHead × Rule)
  | .rule head nodes => (enclosing, ⟨head, nodes⟩) :: placedRulesIn enclosing nodes
  | .group head nodes => placedRulesIn (head :: enclosing) nodes
  | _ => []

/-- All rules at any depth, each with the at-rules around it. -/
def placedRulesIn (enclosing : List AtHead) : List Node → List (List AtHead × Rule)
  | [] => []
  | node :: rest => node.placedRules enclosing ++ placedRulesIn enclosing rest

end

mutual

theorem Node.map_placedRules (enclosing : List AtHead) (node : Node) :
    (node.placedRules enclosing).map Prod.snd = node.rules := by
  cases node with
  | rule head nodes => simp [Node.placedRules, Node.rules, map_placedRulesIn enclosing nodes]
  | group head nodes => simp [Node.placedRules, Node.rules, map_placedRulesIn _ nodes]
  | statement | declaration | comment => rfl

theorem map_placedRulesIn (enclosing : List AtHead) (nodes : List Node) :
    (placedRulesIn enclosing nodes).map Prod.snd = rulesIn nodes := by
  cases nodes with
  | nil => rfl
  | cons node rest =>
    rw [placedRulesIn, List.map_append, node.map_placedRules enclosing,
      map_placedRulesIn enclosing rest]
    rfl

end

theorem mem_numbersIn_of_placed {enclosing : List AtHead} {nodes : List Node}
    {entry : List AtHead × Rule} (member : entry ∈ placedRulesIn enclosing nodes) :
    entry.2.head.id ∈ numbersIn nodes := by
  unfold numbersIn
  rw [← map_placedRulesIn enclosing nodes]
  exact List.mem_map_of_mem (List.mem_map_of_mem member)

@[simp] theorem placedRulesIn_append (enclosing : List AtHead) (first second : List Node) :
    placedRulesIn enclosing (first ++ second) =
      placedRulesIn enclosing first ++ placedRulesIn enclosing second := by
  induction first with
  | nil => rfl
  | cons node rest ih => simp [placedRulesIn, ih]

theorem placedRulesIn_declarations {α : Type} (enclosing : List AtHead)
    (content : α → Declaration) (items : List α) :
    placedRulesIn enclosing (items.map fun item => .declaration (content item)) = [] := by
  induction items with
  | nil => rfl
  | cons item rest ih => exact ih

theorem placedRulesIn_withoutResolutions (enclosing : List AtHead) (nodes : List Node) :
    placedRulesIn enclosing (Conflict.withoutResolutions nodes) =
      placedRulesIn enclosing nodes := by
  induction nodes with
  | nil => rfl
  | cons node rest ih =>
    unfold Conflict.withoutResolutions at ih ⊢
    rw [List.filter_cons]
    cases node with
    | declaration content =>
      cases asks : content.isResolution <;> simp [placedRulesIn, Node.placedRules, asks, ih]
    | rule | statement | group | comment => simp [placedRulesIn, ih]

/-- Rules that hold no rules stand where their list stands. -/
theorem placedRulesIn_rules {enclosing : List AtHead} {rules : List Rule}
    (flat : ∀ rule ∈ rules, placedRulesIn enclosing rule.nodes = []) :
    placedRulesIn enclosing (rules.map Rule.toNode) = rules.map fun rule => (enclosing, rule) := by
  induction rules with
  | nil => rfl
  | cons rule rest ih =>
    have first := flat rule (List.mem_cons_self ..)
    have later := ih fun other member => flat other (List.mem_cons_of_mem rule member)
    simp [placedRulesIn, Rule.toNode, Node.placedRules, first, ← later]

/-- Which at-rules are in force, by what stands in front of their bodies. -/
abbrev Conditions : Type := String → String → Prop

/-- Whether a rule with these selectors inside these at-rules applies to an element, or to the
pseudo-element of a name. -/
def AppliesTo (force : Conditions) (enclosing : List AtHead) (selectors : List Selector)
    (document : Document Traits) (element : Address) (pseudo : Option String) : Prop :=
  (∀ head ∈ enclosing, force head.name head.params) ∧
    ∃ selector ∈ selectors, selector.pseudoName? = pseudo ∧ selector.SelectsIn document element

namespace Conflict

theorem mem_comparablePairs {context : Context} {question : Question} {object : BlockObject}
    {rule : Rule} {pair : Selector × Selector}
    (member : pair ∈ comparablePairs context question object rule) :
    pair.1 ∈ classSelectors context.graph object.id.block context.mode object.block rule.head.id ∧
      pair.2 ∈ question.selectors ∧ pair.2.pseudoName? = pair.1.pseudoName? := by
  obtain ⟨other, listed, member⟩ := List.mem_flatMap.mp member
  obtain ⟨current, found, rfl⟩ := List.mem_map.mp member
  obtain ⟨inside, same⟩ := List.mem_filter.mp found
  exact ⟨List.mem_map_of_mem (List.mem_filter.mp listed).1, inside, by simpa using same⟩

namespace Origin

variable {context : Context} {generated : Rule}

/-- Whether the rule was generated for a resolution behind the local values, which gives the other
rule's values the last word. -/
def otherWins (origin : Origin context generated) : Prop :=
  origin.last < origin.placed.index

/-- The selectors of the rule that the values are compared with, with classes in place of
objects. -/
def otherSelectors (origin : Origin context generated) : List Selector :=
  classSelectors context.graph origin.object.id.block context.mode origin.object.block
    origin.rule.head.id

/-- A generated rule selects what both rules select. -/
theorem selects (origin : Origin context generated) {selector : Selector}
    (member : selector ∈ origin.selectors) :
    ∃ other ∈ origin.otherSelectors, ∃ current ∈ context.selectors origin.host.head.id,
      selector.pseudoName? = other.pseudoName? ∧ selector.pseudoName? = current.pseudoName? ∧
      ∀ (document : Document Traits) (element : Address), selector.SelectsIn document element →
        other.SelectsIn document element ∧ current.SelectsIn document element := by
  obtain ⟨⟨other, current⟩, listed, selectors, merged, member⟩ :=
    ((mergePairs_exact origin.derived.merged).2 selector).mp member
  obtain ⟨isOther, isCurrent, same⟩ := mem_comparablePairs listed
  have pseudo := Selector.pseudoName_of_mem_mergeKeys merged member same
  exact ⟨other, isOther, current, isCurrent, pseudo, pseudo.trans same.symm,
    fun document element selected =>
      Selector.selects_of_mem_mergeKeys document.holdsParts_fits merged member selected⟩

end Origin

/-- An added rule stands inside the same at-rules as the rule that it was generated for. -/
structure Placing (context : Context) (limit : RuleId) (source : List (List AtHead × Rule))
    (entry : List AtHead × Rule) : Prop where
  fresh : limit ≤ entry.2.head.id
  origin : ∃ origin : Origin context entry.2, ∃ host, (entry.1, host) ∈ source ∧
    host.head = origin.host.head

/-- Every rule of a settled sheet has the number of a rule that was there, or was added. -/
def AllPlaced (context : Context) (limit : RuleId) (source settled : List (List AtHead × Rule)) :
    Prop :=
  ∀ entry ∈ settled, (∃ old ∈ source, old.2.head.id = entry.2.head.id) ∨
    Placing context limit source entry

theorem AllPlaced.append {context : Context} {limit : RuleId}
    {first second settledFirst settledSecond : List (List AtHead × Rule)}
    (one : AllPlaced context limit first settledFirst)
    (other : AllPlaced context limit second settledSecond) :
    AllPlaced context limit (first ++ second) (settledFirst ++ settledSecond) := by
  intro entry member
  rcases List.mem_append.mp member with left | right
  · rcases one entry left with ⟨old, known, same⟩ | ⟨fresh, origin, host, known, same⟩
    · exact .inl ⟨old, List.mem_append_left _ known, same⟩
    · exact .inr ⟨fresh, origin, host, List.mem_append_left _ known, same⟩
  · rcases other entry right with ⟨old, known, same⟩ | ⟨fresh, origin, host, known, same⟩
    · exact .inl ⟨old, List.mem_append_right _ known, same⟩
    · exact .inr ⟨fresh, origin, host, List.mem_append_right _ known, same⟩

theorem AllPlaced.placing {context : Context} {limit : RuleId}
    {source settled : List (List AtHead × Rule)} (placed : AllPlaced context limit source settled)
    (early : ∀ old ∈ source, old.2.head.id < limit) {entry : List AtHead × Rule}
    (member : entry ∈ settled) (fresh : limit ≤ entry.2.head.id) :
    Placing context limit source entry := by
  rcases placed entry member with ⟨old, known, same⟩ | placing
  · exact absurd (same ▸ early old known) (Nat.not_lt.mpr fresh)
  · exact placing

theorem AllPlaced.widen {context : Context} {limit : RuleId}
    {source larger settled : List (List AtHead × Rule)}
    (placed : AllPlaced context limit source settled)
    (inside : source ⊆ larger) : AllPlaced context limit larger settled := by
  intro entry member
  rcases placed entry member with ⟨old, known, same⟩ | ⟨fresh, origin, host, known, same⟩
  · exact .inl ⟨old, inside known, same⟩
  · exact .inr ⟨fresh, origin, host, inside known, same⟩

/-- Generated rules hold declarations only, so all of them stand beside their host. -/
theorem allPlaced_rules {context : Context} {limit start : RuleId} {rule : Rule}
    {state : List Rule × RuleId} (answered : Answered context rule start state)
    (free : limit ≤ start) {enclosing : List AtHead} {source : List (List AtHead × Rule)}
    (host : Rule) (listed : (enclosing, host) ∈ source) (same : host.head = rule.head) :
    AllPlaced context limit source (placedRulesIn enclosing (state.1.map Rule.toNode)) := by
  rw [placedRulesIn_rules]
  · intro entry member
    obtain ⟨generated, known, rfl⟩ := List.mem_map.mp member
    obtain ⟨origin, rfl⟩ := answered.origin generated known
    exact .inr ⟨Nat.le_trans free (answered.numbered.fresh generated known), origin, host, listed,
      same⟩
  · intro generated known
    obtain ⟨origin, -⟩ := answered.origin generated known
    rw [origin.derived.nodes]
    exact placedRulesIn_declarations enclosing id _

/-- Settling leaves the rules where they are and puts every rule it adds beside its host. -/
theorem Settling.allPlaced {context : Context} {limit start next : RuleId}
    {nodes others : List Node} (settling : Settling context start nodes others next)
    (enclosing : List AtHead) (free : limit ≤ start) :
    AllPlaced context limit (placedRulesIn enclosing nodes) (placedRulesIn enclosing others) := by
  induction settling generalizing enclosing with
  | nil => exact nofun
  | @rule _ _ _ _ head body inner _ _ rules inside answered _ ih ihRest =>
    have onward := free.trans inside.onward
    have own : AllPlaced context limit (Node.placedRules enclosing (.rule head body))
        (Node.placedRules enclosing (.rule head (withoutResolutions inner))) := by
      intro entry member
      rw [Node.placedRules, placedRulesIn_withoutResolutions] at member
      rcases List.mem_cons.mp member with rfl | deeper
      · exact .inl ⟨_, List.mem_cons_self .., rfl⟩
      · exact (ih enclosing free).widen (List.subset_cons_self _ _) entry deeper
    have behind : AllPlaced context limit (Node.placedRules enclosing (.rule head body))
        (placedRulesIn enclosing (rules.map Rule.toNode)) :=
      allPlaced_rules answered onward ⟨head, body⟩ (List.mem_cons_self ..) rfl
    have later := ihRest enclosing (onward.trans answered.numbered.onward)
    rw [List.cons_append, placedRulesIn, placedRulesIn, placedRulesIn_append, ← List.append_assoc]
    exact AllPlaced.append (List.forall_mem_append.mpr ⟨own, behind⟩) later
  | group inside _ ih ihRest =>
    rw [placedRulesIn, placedRulesIn]
    exact (ih _ free).append (ihRest enclosing (free.trans inside.onward))
  | statement _ ih | declaration _ ih | comment _ ih => exact ih enclosing free

end Conflict

open Conflict (Origin)

/-- A rule generated behind the local values holds copies of the other rule's values, and the other
rule applies wherever the generated one does, if the at-rules around it are in force. -/
theorem Conflict.Origin.applies_iff {context : Conflict.Context} {generated : Rule}
    (origin : Origin context generated) {enclosing around : List AtHead} {force : Conditions}
    {document : Document Traits} {element : Address} {pseudo : Option String}
    (applies : AppliesTo force enclosing origin.selectors document element pseudo) :
    AppliesTo force around origin.otherSelectors document element pseudo ↔
      ∀ head ∈ around, force head.name head.params := by
  obtain ⟨-, selector, member, same, selected⟩ := applies
  obtain ⟨other, listed, _, _, pseudoOther, _, both⟩ := origin.selects member
  constructor
  · exact And.left
  · intro inForce
    exact ⟨inForce, other, listed, pseudoOther.symm.trans same, (both document element selected).1⟩

theorem Conflict.Origin.nodes_of_otherWins {context : Conflict.Context} {generated : Rule}
    (origin : Origin context generated) (wins : origin.otherWins) :
    generated.nodes = (Conflict.conflictingValues origin.placed.property origin.rule).map
      fun value => .declaration { value with place := origin.host.head.place } := by
  rw [origin.derived.nodes]
  have other : (origin.placed.question context origin.location origin.host origin.locals
      origin.last).otherWins = true := decide_eq_true wins
  simp only [Conflict.Question.winners, other, if_true, List.map_map]
  rfl

/-- Every rule that compiling adds is the exporting rule, or stands beside the rule with the
resolution that it was generated for. -/
theorem placing_of_added {graph : Graph} {options : Options} {id : BlockId} {block : Block}
    {sheet : Sheet} (present : graph.block? id = some block) (loaded : block.IsLoaded)
    (compiled : (compile graph options id).result = .ok sheet) {entry : List AtHead × Rule}
    (listed : entry ∈ placedRulesIn [] sheet.nodes)
    (fresh : block.sheet.nextRule ≤ entry.2.head.id) :
    (options.exportNames = true ∧ entry.2.head.selector = ":export") ∨
      Conflict.Placing (block.context graph options.outputMode id) block.sheet.nextRule
        (placedRulesIn [] (block.namedNodes graph options.outputMode id)) entry := by
  obtain ⟨settled, next, inner, rfl⟩ := compile_eq_ok present loaded compiled
  have placed := (Conflict.settling_of_settleNodes inner).allPlaced [] (Nat.le_refl _)
  have early : ∀ old ∈ placedRulesIn [] (block.namedNodes graph options.outputMode id),
      old.2.head.id < block.sheet.nextRule := fun old known =>
    Block.lt_of_mem_numbersIn_namedNodes loaded.keeps.2 (mem_numbersIn_of_placed known)
  split at listed
  · rename_i exported
    rw [Compile.addExport, placedRulesIn_append] at listed
    rcases List.mem_append.mp listed with inside | last
    · exact .inr (placed.placing early inside fresh)
    · rw [placedRulesIn, Node.placedRules, placedRulesIn_declarations] at last
      obtain rfl := List.mem_singleton.mp last
      exact .inl ⟨exported, rfl⟩
  · exact .inr (placed.placing early listed fresh)

/-- Every rule that compiling adds is the exporting rule or comes from a resolution. One that comes
from a resolution behind the local values copies the values of a rule of the referenced object's
block, and where it applies, inside its at-rules, that rule applies exactly when the at-rules around
it are in force. -/
theorem generated_applies_iff {graph : Graph} {options : Options} {id : BlockId} {block : Block}
    {sheet : Sheet} (present : graph.block? id = some block) (loaded : block.IsLoaded)
    (compiled : (compile graph options id).result = .ok sheet) {enclosing : List AtHead}
    {added : Rule} (listed : (enclosing, added) ∈ placedRulesIn [] sheet.nodes)
    (fresh : block.sheet.nextRule ≤ added.head.id) :
    (options.exportNames = true ∧ added.head.selector = ":export") ∨
      Conflict.Placing (block.context graph options.outputMode id) block.sheet.nextRule
        (placedRulesIn [] (block.namedNodes graph options.outputMode id)) (enclosing, added) ∧
      ∀ origin : Origin (block.context graph options.outputMode id) added, origin.otherWins →
        added.nodes = (Conflict.conflictingValues origin.placed.property origin.rule).map
          (fun value => .declaration { value with place := origin.host.head.place }) ∧
        ∀ around, (around, origin.rule) ∈ placedRulesIn [] origin.object.block.sheet.nodes →
          ∀ (force : Conditions) (document : Document Traits) (element : Address)
            (pseudo : Option String),
            AppliesTo force enclosing origin.selectors document element pseudo →
              (AppliesTo force around origin.otherSelectors document element pseudo ↔
                ∀ head ∈ around, force head.name head.params) := by
  rcases placing_of_added present loaded compiled listed fresh with exported | placing
  · exact .inl exported
  · refine .inr ⟨placing, ?_⟩
    intro origin wins
    exact ⟨origin.nodes_of_otherWins wins, fun around _ force document element pseudo applies =>
      origin.applies_iff applies⟩

/-- A block whose class is styled on paper only. -/
def paperBlock : Block :=
  { Block.bare "paper" "paper.css" "paper.css" with
    named := true
    classes := [⟨"ink", [], ⟨[⟨none, "color"⟩]⟩⟩]
    sheet := ⟨"paper.css", [.group ⟨"media", "print", ⟨1, 1, 0⟩⟩
      [.rule ⟨0, ".ink", ⟨1, 16, 15⟩⟩ [.declaration ⟨"color", "black", false, ⟨1, 23, 22⟩⟩]]], 1⟩
    selectors := [(0, [.ofCompound ⟨[.className "ink"], none⟩])] }

/-- A block with a class that takes the value of the other class where the two meet. -/
def labelBlock : Block :=
  { Block.bare "label" "label.css" "label.css" with
    named := true
    references := [("paper", ⟨0⟩)]
    classes := [⟨"text", [], ⟨[⟨none, "color"⟩]⟩⟩]
    sheet := ⟨"label.css", [.statement ⟨"block-reference", "paper from \"paper.css\"", ⟨1, 1, 0⟩⟩,
      .rule ⟨0, ".text", ⟨1, 42, 41⟩⟩ [.declaration ⟨"color", "gray", false, ⟨1, 50, 49⟩⟩,
        .declaration ⟨"color", "resolve(\"paper.ink\")", false, ⟨1, 63, 62⟩⟩]], 1⟩
    selectors := [(0, [.ofCompound ⟨[.className "text"], none⟩])] }

def labelGraph : Graph := ⟨#[some paperBlock, some labelBlock]⟩

theorem labelBlock_isLoaded : labelBlock.IsLoaded := by
  let draft : Draft := ⟨{ Block.bare "label" "label.css" "label.css" with
    sheet := labelBlock.sheet, selectors := labelBlock.selectors }, []⟩
  have read : parseSheet ("@block-reference paper from \"paper.css\"; " ++
      ".text \x7b color: gray; color: resolve(\"paper.ink\"); \x7d") "label.css" =
      .ok labelBlock.sheet := by with_unfolding_all rfl
  have drafted : Draft.ofSheet labelBlock.sheet "label.css" "label.css" "label" = .ok draft := by
    with_unfolding_all rfl
  have completed : draft.complete ⟨#[some paperBlock, none]⟩ id
      [(⟨⟨some "paper", "paper.css"⟩, "paper.css", ⟨"label.css", 1, 1, 0⟩⟩, ⟨0⟩)] =
      .ok { labelBlock with named := false } := by with_unfolding_all rfl
  have named : ({ labelBlock with named := false }.addDependencies []).setName "label" =
      .ok labelBlock := rfl
  exact .intro read drafted completed named

def inkRule : Rule :=
  ⟨⟨0, ".ink", ⟨1, 16, 15⟩⟩, [.declaration ⟨"color", "black", false, ⟨1, 23, 22⟩⟩]⟩

/-- The rule that is generated for the resolution, outside of any at-rule. -/
def labelRule : Rule :=
  ⟨⟨1, ".paper__ink.label__text", ⟨1, 42, 41⟩⟩,
    [.declaration ⟨"color", "black", false, ⟨1, 42, 41⟩⟩]⟩

def labelSheet : Sheet :=
  ⟨"label.css", [.rule ⟨0, ".label__text", ⟨1, 42, 41⟩⟩
    [.declaration ⟨"color", "gray", false, ⟨1, 50, 49⟩⟩], labelRule.toNode], 2⟩

theorem labelSheet_compiled : (compile labelGraph .default ⟨1⟩).result = .ok labelSheet := by
  with_unfolding_all rfl

/-- The rule with the resolution, once classes are in place of objects. -/
def labelHost : Rule :=
  ⟨⟨0, ".label__text", ⟨1, 42, 41⟩⟩, [.declaration ⟨"color", "gray", false, ⟨1, 50, 49⟩⟩,
    .declaration ⟨"color", "resolve(\"paper.ink\")", false, ⟨1, 63, 62⟩⟩]⟩

theorem resolutionsIn_labelHost :
    Conflict.resolutionsIn labelHost.nodes = [⟨1, "color", ⟨"paper.ink", false⟩⟩] := by
  with_unfolding_all rfl

def labelOrigin : Origin (labelBlock.context labelGraph .bem ⟨1⟩) labelRule where
  host := labelHost
  location := ⟨"label.css", 1, 42, 41⟩
  placed := ⟨1, "color", ⟨"paper.ink", false⟩⟩
  locals := [⟨"color", "gray", false, ⟨1, 50, 49⟩⟩]
  last := 0
  named := ⟨⟨⟨0⟩, .ofClass 0⟩, paperBlock⟩
  object := ⟨⟨⟨0⟩, .ofClass 0⟩, paperBlock⟩
  rule := inkRule
  selectors := [.ofCompound ⟨[.className "paper__ink", .className "label__text"], none⟩]
  isPlaced := resolutionsIn_labelHost ▸ List.mem_singleton_self _
  hasLocals := by with_unfolding_all rfl
  isNamed := by with_unfolding_all rfl
  isCandidate := List.mem_singleton.mpr (by with_unfolding_all rfl)
  derived :=
    { listed := List.mem_singleton.mpr rfl
      conflicting := by with_unfolding_all exact List.cons_ne_nil _ _
      merged := by with_unfolding_all rfl
      written := by with_unfolding_all rfl
      nodes := by with_unfolding_all rfl }

/-- A document of one element that has both classes. -/
def labelDocument : Document Traits :=
  .element ⟨{"paper__ink", "label__text"}, fun _ => False⟩ []

theorem labelRule_applies (force : Conditions) :
    AppliesTo force [] labelOrigin.selectors labelDocument [] none := by
  refine ⟨nofun, _, List.mem_singleton_self _, rfl, ?_⟩
  refine Selector.selects_ofCompound.mpr ⟨_, rfl, ?_⟩
  intro node member
  simp only [List.mem_cons, List.not_mem_nil, or_false] at member
  rcases member with rfl | rfl
  · exact .inl rfl
  · exact .inr rfl

/-- On screen the generated rule applies to the element, and the rule that it copies does not. -/
theorem labelRule_applies_on_screen :
    (compile labelGraph .default ⟨1⟩).result = .ok labelSheet ∧
      ¬ ∀ entry ∈ placedRulesIn [] labelSheet.nodes, labelBlock.sheet.nextRule ≤ entry.2.head.id →
        ∀ origin : Origin (labelBlock.context labelGraph .bem ⟨1⟩) entry.2, origin.otherWins →
          ∀ around, (around, origin.rule) ∈ placedRulesIn [] origin.object.block.sheet.nodes →
            ∀ (force : Conditions) (document : Document Traits) (element : Address)
              (pseudo : Option String),
              AppliesTo force entry.1 origin.selectors document element pseudo →
                AppliesTo force around origin.otherSelectors document element pseudo := by
  refine ⟨labelSheet_compiled, ?_⟩
  intro everywhere
  have listed : ([], labelRule) ∈ placedRulesIn [] labelSheet.nodes :=
    List.mem_cons_of_mem _ (List.mem_singleton_self _)
  have around : ([⟨"media", "print", ⟨1, 1, 0⟩⟩], inkRule) ∈
      placedRulesIn [] paperBlock.sheet.nodes := List.mem_singleton_self _
  have applies := everywhere _ listed (Nat.le_refl 1) labelOrigin Nat.zero_lt_one _ around
    (fun _ _ => False) labelDocument [] none (labelRule_applies _)
  exact applies.1 _ (List.mem_singleton_self _)

/-- In print both rules apply to the element. -/
theorem labelRule_applies_in_print :
    (compile labelGraph .default ⟨1⟩).result = .ok labelSheet ∧
      AppliesTo (fun _ params => params = "print") [⟨"media", "print", ⟨1, 1, 0⟩⟩]
        labelOrigin.otherSelectors labelDocument [] none := by
  have listed : ([], labelRule) ∈ placedRulesIn [] labelSheet.nodes :=
    List.mem_cons_of_mem _ (List.mem_singleton_self _)
  have around : ([⟨"media", "print", ⟨1, 1, 0⟩⟩], inkRule) ∈
      placedRulesIn [] paperBlock.sheet.nodes := List.mem_singleton_self _
  refine ⟨labelSheet_compiled, ?_⟩
  rcases generated_applies_iff rfl labelBlock_isLoaded labelSheet_compiled listed
    (Nat.le_refl 1) with exported | ⟨-, meaning⟩
  · exact absurd exported.1 (by decide)
  · refine ((meaning labelOrigin Nat.zero_lt_one).2 _ around _ _ _ _ (labelRule_applies _)).mpr ?_
    simp

end StyleBlock
