import StyleBlock.Proofs.Candidates

/-!
Where generated rules come from. Every rule that settling adds was generated for one resolution of
the rule in front of it, against one rule of an object that the resolution is compared with, and it
has a number that was free before.
-/

namespace StyleBlock

/-- What a declaration says, wherever it stands. -/
def Declaration.content (declaration : Declaration) : String × String × Bool :=
  (declaration.property, declaration.value, declaration.important)

namespace Conflict

/-! What is compared and merged -/

/-- Declarations are the same if they agree one by one in property, value and importance. -/
theorem sameDeclarations_iff {mine theirs : List Declaration} :
    sameDeclarations mine theirs = true ↔
      mine.map Declaration.content = theirs.map Declaration.content := by
  induction mine generalizing theirs with
  | nil => cases theirs <;> simp [sameDeclarations]
  | cons first rest ih =>
    cases theirs with
    | nil => simp [sameDeclarations]
    | cons other others => simp [sameDeclarations, Declaration.content, ih, and_assoc]

/-- Merging fails exactly at a pair that cannot be merged. -/
theorem mergePair_eq_error_iff {location : Text.Location} {merged : List Selector}
    {pair : Selector × Selector} {error : Error} :
    mergePair location merged pair = .error error ↔ pair.1.mergeKeys? pair.2 = none ∧
      error = .invalidAt (.compile (.cannotMerge pair.1 pair.2)) location := by
  unfold mergePair
  cases pair.1.mergeKeys? pair.2 with
  | none => simp [eq_comm]
  | some selectors => simp

/-- Selectors are added at most once. -/
theorem foldl_add_exact {items known merged : List Selector} (single : known.Nodup)
    (added : items.foldl (fun merged selector =>
      if merged.contains selector then merged else merged ++ [selector]) known = merged) :
    merged.Nodup ∧ ∀ selector, selector ∈ merged ↔ selector ∈ known ∨ selector ∈ items := by
  induction items generalizing known with
  | nil =>
    subst added
    exact ⟨single, by simp⟩
  | cons item rest ih =>
    rw [List.foldl_cons] at added
    by_cases old : item ∈ known
    · rw [if_pos (List.contains_iff_mem.mpr old)] at added
      obtain ⟨once, members⟩ := ih single added
      refine ⟨once, fun selector => ?_⟩
      rw [members, List.mem_cons]
      grind
    · rw [if_neg (mt List.contains_iff_mem.mp old)] at added
      have singleMore : (known ++ [item]).Nodup :=
        List.nodup_append.mpr ⟨single, List.nodup_singleton item, by grind⟩
      obtain ⟨once, members⟩ := ih singleMore added
      refine ⟨once, fun selector => ?_⟩
      rw [members, List.mem_append, List.mem_singleton, List.mem_cons, or_assoc]

/-- The merged selectors are those of all pairs, each once. -/
theorem mergePairs_exact {location : Text.Location} {pairs : List (Selector × Selector)}
    {merged : List Selector} (folded : pairs.foldlM (mergePair location) [] = .ok merged) :
    merged.Nodup ∧ ∀ selector, selector ∈ merged ↔
      ∃ pair ∈ pairs, ∃ selectors, pair.1.mergeKeys? pair.2 = some selectors ∧
        selector ∈ selectors := by
  have adds : ∀ {before after pair}, before.Nodup → mergePair location before pair = .ok after →
      after.Nodup ∧ ∀ selector, selector ∈ after ↔ selector ∈ before ∨
        ∃ selectors, pair.1.mergeKeys? pair.2 = some selectors ∧ selector ∈ selectors := by
    intro before after pair single added
    unfold mergePair at added
    split at added
    · cases added
    · rename_i selectors found
      cases added
      obtain ⟨once, members⟩ := foldl_add_exact single rfl
      refine ⟨once, fun selector => ?_⟩
      rw [members, found]
      simp
  refine ⟨foldlM_keeps List.Nodup (fun _ single added => (adds single added).1)
    List.nodup_nil folded, fun selector => ?_⟩
  have members := foldlM_adds List.Nodup (selector ∈ ·)
    (fun pair => ∃ selectors, pair.1.mergeKeys? pair.2 = some selectors ∧ selector ∈ selectors)
    (fun single added => ⟨(adds single added).1, (adds single added).2 selector⟩)
    List.nodup_nil folded
  simpa using members

/-! Derived rules -/

/-- The declarations that a generated rule gets from the two rules it settles between. -/
def Question.winners (question : Question) (rule : Rule) : List Declaration :=
  if question.otherWins then
    (conflictingValues question.property rule).map fun value =>
      { value with place := question.place }
  else question.locals

/-- A rule that is generated for a question against a rule of an object's block. -/
structure Derived (context : Context) (question : Question) (object : BlockObject) (rule : Rule)
    (selectors : List Selector) (generated : Rule) : Prop where
  listed : rule ∈ object.block.sheet.styleRules
  conflicting : conflictingValues question.property rule ≠ []
  merged : (comparablePairs context question object rule).foldlM (mergePair question.location) [] =
    .ok selectors
  written : generated.head.selector = selectorList selectors
  nodes : generated.nodes = (question.winners rule).map .declaration

/-- Rules that are each derived from a rule of one of the objects. -/
def AreDerived (context : Context) (question : Question) (objects : List BlockObject)
    (rules : List Rule) : Prop :=
  ∀ generated ∈ rules, ∃ object ∈ objects, ∃ rule selectors,
    Derived context question object rule selectors generated

theorem AreDerived.none {context : Context} {question : Question} {objects : List BlockObject} :
    AreDerived context question objects [] :=
  List.forall_mem_nil _

theorem compareRule_derived {context : Context} {question : Question} {object : BlockObject}
    {comparison after : Comparison} {rule : Rule}
    (listed : rule ∈ object.block.sheet.styleRules)
    (before : AreDerived context question [object] comparison.rules)
    (compared : compareRule context question object comparison rule = .ok after) :
    AreDerived context question [object] after.rules := by
  unfold compareRule at compared
  dsimp only at compared
  split at compared
  · cases compared
    exact before
  rename_i nonempty
  split at compared
  · cases compared
    exact before
  obtain ⟨merged, folded, compared⟩ := bind_eq_ok_iff.mp compared
  cases compared
  simp only [Bool.or_eq_true, List.isEmpty_iff, not_or] at nonempty
  refine List.forall_mem_append.mpr ⟨before, List.forall_mem_singleton.mpr ?_⟩
  exact ⟨object, List.mem_singleton_self object, rule, merged, listed, nonempty.1, folded, rfl, rfl⟩

theorem compareObject_derived {context : Context} {question : Question} {object : BlockObject}
    {start next : RuleId} {outcome : Outcome}
    (compared : compareObject context question object start = .ok (outcome, next)) :
    AreDerived context question [object] outcome.generated := by
  obtain ⟨comparison, folded, compared⟩ := bind_eq_ok_iff.mp compared
  have derived := foldlM_keeps
    (fun comparison => AreDerived context question [object] comparison.rules)
    (fun listed before compared => compareRule_derived listed before compared) .none folded
  cases compared
  split
  · exact derived
  · split <;> exact .none

/-- The rules that comparing with several objects generates come from one of them. -/
theorem compareObjects_derived {context : Context} {question : Question} {start next : RuleId}
    {objects : List BlockObject} {found : Option (List Rule)}
    (compared : compareObjects context question start objects = .ok (found, next)) :
    AreDerived context question objects (found.getD []) := by
  induction objects generalizing start with
  | nil =>
    cases compared
    exact .none
  | cons object rest ih =>
    obtain ⟨⟨outcome, middle⟩, first, compared⟩ := bind_eq_ok_iff.mp compared
    have derived := compareObject_derived first
    cases outcome with
    | noConflict =>
      intro generated member
      obtain ⟨other, listed, origin⟩ := ih compared generated member
      exact ⟨other, List.mem_cons_of_mem object listed, origin⟩
    | sameValues =>
      cases compared
      exact .none
    | rules rules =>
      cases compared
      intro generated member
      obtain ⟨other, listed, origin⟩ := derived generated member
      exact ⟨other, List.mem_cons.mpr (.inl (List.mem_singleton.mp listed)), origin⟩

/-- The question that a resolution of a rule asks. -/
def Placed.question (context : Context) (location : Text.Location) (rule : Rule)
    (locals : List Declaration) (last : Nat) (placed : Placed) : Question where
  property := placed.property
  locals
  selectors := context.selectors rule.head.id
  otherWins := last < placed.index
  place := rule.head.place
  location

/-- What a generated rule comes from: a rule with a resolution, and a rule of an object that the
resolution is compared with. -/
structure Origin (context : Context) (generated : Rule) where
  host : Rule
  location : Text.Location
  placed : Placed
  locals : List Declaration
  last : Nat
  named : BlockObject
  object : BlockObject
  rule : Rule
  selectors : List Selector
  isPlaced : placed ∈ resolutionsIn host.nodes
  hasLocals : localValues host.nodes placed.property = .ok (locals, last)
  isNamed : context.graph.lookup? context.id placed.resolution.reference = some named
  isCandidate : object ∈ candidates context placed.resolution named
  derived : Derived context (placed.question context location host locals last) object rule
    selectors generated

/-- Generated rules with the numbers from `start` on, each for a resolution of the rule, and the
next free number. -/
structure Answered (context : Context) (rule : Rule) (start : RuleId)
    (state : List Rule × RuleId) : Prop where
  numbered : AreNumbered start state.2 state.1
  origin : ∀ generated ∈ state.1, ∃ origin : Origin context generated, origin.host = rule

theorem settle_answered {context : Context} {location : Text.Location} {rule : Rule}
    {start : RuleId} {state after : List Rule × RuleId} {placed : Placed}
    (listed : placed ∈ resolutionsIn rule.nodes)
    (before : Answered context rule start state)
    (settled : settle context location rule state placed = .ok after) :
    Answered context rule start after := by
  unfold settle at settled
  dsimp only at settled
  obtain ⟨⟨locals, last⟩, values, settled⟩ := bind_eq_ok_iff.mp settled
  split at settled
  · rename_i named known
    rw [compareFrom_eq_compareObjects (Graph.block_of_lookup known)] at settled
    obtain ⟨⟨found, next⟩, compared, settled⟩ := bind_eq_ok_iff.mp settled
    have numbered := compareObjects_numbered compared
    have derived := compareObjects_derived compared
    dsimp only at settled
    split at settled
    · cases settled
      refine ⟨before.numbered.append numbered, List.forall_mem_append.mpr ⟨before.origin, ?_⟩⟩
      intro generated new
      obtain ⟨object, candidate, other, selectors, origin⟩ := derived generated new
      exact ⟨⟨rule, location, placed, locals, last, named, object, other, selectors, listed,
        mapError_eq_ok_iff.mp values, known, candidate, origin⟩, rfl⟩
    · cases settled
  · cases settled

/-- A settled rule is the rule without its resolutions, with the generated rules behind it. -/
theorem settleRule_eq_ok {context : Context} {file : String} {rule : Rule} {start next : RuleId}
    {nodes : List Node} (settled : settleRule context file rule start = .ok (nodes, next)) :
    ∃ rules, nodes = .rule rule.head (withoutResolutions rule.nodes) :: rules.map Rule.toNode ∧
      Answered context rule start (rules, next) := by
  obtain ⟨⟨rules, free⟩, folded, settled⟩ := bind_eq_ok_iff.mp settled
  cases settled
  refine ⟨rules, rfl, ?_⟩
  exact foldlM_keeps (Answered context rule start)
    (fun listed before settled => settle_answered listed before settled)
    ⟨.none, List.forall_mem_nil _⟩ folded

/-! Settled nodes -/

/-- What settling makes of nodes, with the next free number before and after. All nodes stay in
their order; the bodies of rules and at-rules are settled first, and a rule goes on without its
resolutions and with the rules generated for them behind it. -/
inductive Settling (context : Context) : RuleId → List Node → List Node → RuleId → Prop
  | nil {start : RuleId} : Settling context start [] [] start
  | rule {start middle free next : RuleId} {head : RuleHead} {body inner rest others : List Node}
      {rules : List Rule} (inside : Settling context start body inner middle)
      (answered : Answered context ⟨head, inner⟩ middle (rules, free))
      (later : Settling context free rest others next) :
      Settling context start (.rule head body :: rest)
        (.rule head (withoutResolutions inner) :: rules.map Rule.toNode ++ others) next
  | group {start middle next : RuleId} {head : AtHead} {body inner rest others : List Node}
      (inside : Settling context start body inner middle)
      (later : Settling context middle rest others next) :
      Settling context start (.group head body :: rest) (.group head inner :: others) next
  | statement {start next : RuleId} {head : AtHead} {rest others : List Node}
      (later : Settling context start rest others next) :
      Settling context start (.statement head :: rest) (.statement head :: others) next
  | declaration {start next : RuleId} {content : Declaration} {rest others : List Node}
      (later : Settling context start rest others next) :
      Settling context start (.declaration content :: rest) (.declaration content :: others) next
  | comment {start next : RuleId} {text : String} {rest others : List Node}
      (later : Settling context start rest others next) :
      Settling context start (.comment text :: rest) (.comment text :: others) next

mutual

theorem settling_cons {context : Context} {file : String} {start middle next : RuleId} {node : Node}
    {first rest others : List Node}
    (settled : settleNode context file start node = .ok (first, middle))
    (later : Settling context middle rest others next) :
    Settling context start (node :: rest) (first ++ others) next := by
  cases node with
  | rule head body =>
    unfold settleNode at settled
    obtain ⟨⟨inner, free⟩, inside, settled⟩ := bind_eq_ok_iff.mp settled
    obtain ⟨rules, rfl, answered⟩ := settleRule_eq_ok settled
    exact .rule (settling_of_settleNodes inside) answered later
  | group head body =>
    unfold settleNode at settled
    obtain ⟨⟨inner, free⟩, inside, settled⟩ := bind_eq_ok_iff.mp settled
    cases settled
    exact .group (settling_of_settleNodes inside) later
  | statement head =>
    cases settled
    exact .statement later
  | declaration content =>
    cases settled
    exact .declaration later
  | comment text =>
    cases settled
    exact .comment later

/-- Settling that ends does this. -/
theorem settling_of_settleNodes {context : Context} {file : String} {start next : RuleId}
    {nodes others : List Node}
    (settled : settleNodes context file start nodes = .ok (others, next)) :
    Settling context start nodes others next := by
  cases nodes with
  | nil =>
    cases settled
    exact .nil
  | cons node rest =>
    unfold settleNodes at settled
    obtain ⟨⟨first, middle⟩, one, settled⟩ := bind_eq_ok_iff.mp settled
    obtain ⟨⟨later, last⟩, remaining, settled⟩ := bind_eq_ok_iff.mp settled
    cases settled
    exact settling_cons one (settling_of_settleNodes remaining)

end

theorem Settling.onward {context : Context} {start next : RuleId} {nodes others : List Node}
    (settling : Settling context start nodes others next) : start ≤ next := by
  induction settling with
  | nil => exact Nat.le_refl _
  | rule _ answered _ inside later =>
    exact (inside.trans answered.numbered.onward).trans later
  | group _ _ inside later => exact inside.trans later
  | statement _ later | declaration _ later | comment _ later => exact later

end Conflict

end StyleBlock
