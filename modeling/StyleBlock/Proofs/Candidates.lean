import StyleBlock.Compile.Conflict
import StyleBlock.Proofs.Lookup
import StyleBlock.Proofs.Outcome

/-!
The objects that a resolution is compared with. An inherited one is compared with the object it
names alone. Any other is compared with the object and with what that overrides, nearest first: as
long as no object has a conflicting rule the walk goes on from base to base, and a base that comes
round again would be compared once more with the same result.
-/

namespace StyleBlock

namespace Graph

variable {graph : Graph} {object : BlockObject}

theorem block_of_lookup {id : BlockId} {text : String}
    (known : graph.lookup? id text = some object) :
    graph.block? object.id.block = some object.block := by
  obtain ⟨reference, -, resolved⟩ := Option.bind_eq_some_iff.mp known
  exact (resolve_eq_some_iff.mp resolved).has.1

theorem block_of_baseOf {base : BlockObject} (above : graph.baseOf? object = some base) :
    graph.block? base.id.block = some base.block := by
  obtain ⟨id, -, resolved⟩ := Option.bind_eq_some_iff.mp above
  exact (resolveLocal_eq_some_iff.mp resolved).has.1

/-- What was found before the bases stays in front of them. -/
theorem prefix_addBases (found : List BlockObject) (object : BlockObject) (steps : Nat) :
    found <+: graph.addBases found object steps := by
  induction steps generalizing found object with
  | zero => exact List.prefix_rfl
  | succ steps ih =>
    rw [addBases]
    split
    · exact List.prefix_rfl
    · rename_i base above
      split
      · exact List.prefix_rfl
      · exact (List.prefix_append found [base]).trans (ih (found ++ [base]) base)

end Graph

namespace Conflict

variable {context : Context} {question : Question} {start middle next : RuleId}

/-- Rules that carry the numbers from `start` on, up to the next free one. -/
def AreNumbered (start next : RuleId) (rules : List Rule) : Prop :=
  rules.map (fun rule => rule.head.id) = List.range' start rules.length ∧
    next = start + rules.length

namespace AreNumbered

theorem none : AreNumbered start start [] :=
  ⟨rfl, rfl⟩

theorem single {rule : Rule} (number : rule.head.id = start) :
    AreNumbered start (start + 1) [rule] :=
  ⟨congrArg (fun number => [number]) number, rfl⟩

theorem append {first second : List Rule} (one : AreNumbered start middle first)
    (other : AreNumbered middle next second) : AreNumbered start next (first ++ second) := by
  obtain ⟨numbers, rfl⟩ := one
  obtain ⟨numbers', rfl⟩ := other
  refine ⟨?_, by rw [List.length_append, Nat.add_assoc]⟩
  rw [List.map_append, numbers, numbers', List.length_append, List.range'_append_1]

theorem onward {rules : List Rule} (numbered : AreNumbered start next rules) : start ≤ next :=
  numbered.2 ▸ Nat.le_add_right start rules.length

theorem fresh {rules : List Rule} (numbered : AreNumbered start next rules) :
    ∀ rule ∈ rules, start ≤ rule.head.id := by
  intro rule member
  have listed := List.mem_map_of_mem (f := fun rule : Rule => rule.head.id) member
  rw [numbered.1] at listed
  exact (List.mem_range'_1.mp listed).1

end AreNumbered

/-! Numbers of generated rules -/

theorem compareRule_numbered {object : BlockObject} {comparison after : Comparison} {rule : Rule}
    (before : AreNumbered start comparison.nextRule comparison.rules)
    (compared : compareRule context question object comparison rule = .ok after) :
    AreNumbered start after.nextRule after.rules := by
  unfold compareRule at compared
  dsimp only at compared
  split at compared
  · cases compared
    exact before
  split at compared
  · cases compared
    exact before
  obtain ⟨merged, -, compared⟩ := bind_eq_ok_iff.mp compared
  cases compared
  exact before.append (.single rfl)

/-- The rules that an outcome brings. -/
def Outcome.generated : Outcome → List Rule
  | .rules generated => generated
  | .sameValues | .noConflict => []

theorem compareObject_numbered {object : BlockObject} {outcome : Outcome}
    (compared : compareObject context question object start = .ok (outcome, next)) :
    AreNumbered start next outcome.generated := by
  obtain ⟨comparison, folded, compared⟩ := bind_eq_ok_iff.mp compared
  have numbered := foldlM_keeps
    (fun comparison => AreNumbered start comparison.nextRule comparison.rules)
    (fun _ before compared => compareRule_numbered before compared) AreNumbered.none folded
  cases compared
  by_cases bare : comparison.rules = []
  · rw [bare] at numbered
    cases same : comparison.sameValues <;> simpa [bare, same, Outcome.generated] using numbered
  · simpa [bare, Outcome.generated] using numbered

/-- An object without a conflicting rule takes no number. -/
theorem compareObject_noConflict {object : BlockObject}
    (compared : compareObject context question object start = .ok (.noConflict, next)) :
    next = start :=
  (compareObject_numbered compared).2

/-! The walk -/

/-- The objects that a resolution is compared with. -/
def candidates (context : Context) (resolution : Resolution) (object : BlockObject) :
    List BlockObject :=
  if resolution.inherited then [object] else context.graph.stylesOf object

/-- Compares with objects in order until one has a conflicting rule; `none` when none has. -/
def compareObjects (context : Context) (question : Question) (nextRule : RuleId) :
    List BlockObject → Except Error (Option (List Rule) × RuleId)
  | [] => .ok (none, nextRule)
  | object :: rest => do
    let (outcome, nextRule) ← compareObject context question object nextRule
    match outcome with
    | .noConflict => compareObjects context question nextRule rest
    | .sameValues => return (some [], nextRule)
    | .rules rules => return (some rules, nextRule)

theorem compareObjects_numbered {objects : List BlockObject} {found : Option (List Rule)}
    (compared : compareObjects context question start objects = .ok (found, next)) :
    AreNumbered start next (found.getD []) := by
  induction objects generalizing start with
  | nil =>
    cases compared
    exact .none
  | cons object rest ih =>
    obtain ⟨⟨outcome, middle⟩, first, compared⟩ := bind_eq_ok_iff.mp compared
    have numbered := compareObject_numbered first
    cases outcome with
    | noConflict => exact numbered.append (ih compared)
    | sameValues =>
      cases compared
      exact numbered
    | rules rules =>
      cases compared
      exact numbered

theorem compareFrom_none (alone : Bool) (steps : Nat) :
    compareFrom context question alone steps start none = .ok (none, start) := by
  cases steps <;> rfl

/-- A walk compares with its first object, and goes on only if that has no conflicting rule. -/
theorem compareFrom_eq_cons {alone : Bool} {steps : Nat} {object : BlockObject}
    {rest : List BlockObject}
    (further : compareObject context question object start = .ok (.noConflict, start) →
      compareFrom context question alone steps start
        (if alone then none else context.graph.baseOf? object) =
          compareObjects context question start rest) :
    compareFrom context question alone (steps + 1) start (some object) =
      compareObjects context question start (object :: rest) := by
  rw [compareFrom, compareObjects]
  cases compared : compareObject context question object start with
  | error error => rfl
  | ok result =>
    obtain ⟨outcome, next⟩ := result
    cases outcome with
    | sameValues | rules => rfl
    | noConflict =>
      obtain rfl := compareObject_noConflict compared
      exact further compared

/-- Objects that a walk has passed without a conflicting rule, the last of which is `object`. -/
structure Passed (context : Context) (question : Question) (start : RuleId)
    (found : List BlockObject) (object : BlockObject) : Prop where
  stored : ∀ other ∈ found, context.graph.block? other.id.block = some other.block
  unopposed : ∀ other ∈ found,
    compareObject context question other start = .ok (.noConflict, start)
  linked : ∀ other ∈ found, other = object ∨
    ∃ base ∈ found, context.graph.baseOf? other = some base

namespace Passed

variable {found rest : List BlockObject} {object base : BlockObject}

theorem single (stored : context.graph.block? object.id.block = some object.block)
    (compared : compareObject context question object start = .ok (.noConflict, start)) :
    Passed context question start [object] object :=
  ⟨List.forall_mem_singleton.mpr stored, List.forall_mem_singleton.mpr compared,
    List.forall_mem_singleton.mpr (.inl rfl)⟩

theorem extend (known : Passed context question start found object)
    (above : context.graph.baseOf? object = some base)
    (compared : compareObject context question base start = .ok (.noConflict, start)) :
    Passed context question start (found ++ [base]) base := by
  refine ⟨?_, ?_, ?_⟩
  · exact List.forall_mem_append.mpr
      ⟨known.stored, List.forall_mem_singleton.mpr (Graph.block_of_baseOf above)⟩
  · exact List.forall_mem_append.mpr ⟨known.unopposed, List.forall_mem_singleton.mpr compared⟩
  · refine List.forall_mem_append.mpr ⟨fun other member => ?_,
      List.forall_mem_singleton.mpr (.inl rfl)⟩
    rcases known.linked other member with rfl | ⟨further, listed, linked⟩
    · exact .inr ⟨base, List.mem_append_right found (List.mem_singleton_self base), above⟩
    · exact .inr ⟨further, List.mem_append_left [base] listed, linked⟩

/-- Going round objects that were passed finds nothing. -/
theorem compareFrom_round (known : Passed context question start found object)
    (above : context.graph.baseOf? object = some base) (round : base ∈ found) (steps : Nat)
    {other : BlockObject} (member : other ∈ found) :
    compareFrom context question false steps start (some other) = .ok (none, start) := by
  induction steps generalizing other with
  | zero => rfl
  | succ steps ih =>
    obtain ⟨further, listed, linked⟩ :
        ∃ further ∈ found, context.graph.baseOf? other = some further := by
      rcases known.linked other member with rfl | linked
      · exact ⟨base, round, above⟩
      · exact linked
    rw [compareFrom, known.unopposed other member]
    change compareFrom context question false steps start (context.graph.baseOf? other) = _
    rw [linked]
    exact ih listed

/-- A base with the place of an object that was passed is that object. -/
theorem mem_of_any (known : Passed context question start found object)
    (above : context.graph.baseOf? object = some base)
    (again : found.any (fun other => decide (other.id = base.id)) = true) : base ∈ found := by
  obtain ⟨⟨id, block⟩, member, same⟩ := List.any_eq_true.mp again
  obtain rfl : id = base.id := of_decide_eq_true same
  have stored : context.graph.block? base.id.block = some block := known.stored _ member
  obtain rfl : block = base.block :=
    Option.some.inj (stored.symm.trans (Graph.block_of_baseOf above))
  exact member

/-- From an object that was passed, the walk goes on with the objects that it overrides. -/
theorem compareFrom_eq {steps : Nat} (known : Passed context question start found object)
    (styles : context.graph.addBases found object steps = found ++ rest) :
    compareFrom context question false steps start (context.graph.baseOf? object) =
      compareObjects context question start rest := by
  induction steps generalizing found object rest with
  | zero =>
    obtain rfl : rest = [] := List.self_eq_append_right.mp styles
    cases context.graph.baseOf? object <;> rfl
  | succ steps ih =>
    rw [Graph.addBases] at styles
    cases above : context.graph.baseOf? object with
    | none =>
      rw [above] at styles
      obtain rfl : rest = [] := List.self_eq_append_right.mp styles
      rfl
    | some base =>
      rw [above] at styles
      dsimp only at styles
      split at styles
      · next again =>
        obtain rfl : rest = [] := List.self_eq_append_right.mp styles
        have round := known.mem_of_any above again
        exact known.compareFrom_round above round (steps + 1) round
      · obtain ⟨later, more⟩ := context.graph.prefix_addBases (found ++ [base]) base steps
        obtain rfl : rest = base :: later := by
          rw [← more, List.append_assoc] at styles
          exact (List.append_cancel_left styles).symm
        exact compareFrom_eq_cons fun compared => ih (known.extend above compared) more.symm

end Passed

/-- The walk of a resolution is a comparison with its candidates in order, whether its bases end or
come round. -/
theorem compareFrom_eq_compareObjects {resolution : Resolution} {named : BlockObject}
    (stored : context.graph.block? named.id.block = some named.block) :
    compareFrom context question resolution.inherited (context.graph.slots.size + 1) start
        (some named) =
      compareObjects context question start (candidates context resolution named) := by
  unfold candidates
  cases resolution.inherited with
  | true => exact compareFrom_eq_cons fun _ => compareFrom_none true _
  | false =>
    obtain ⟨rest, styles⟩ := context.graph.prefix_addBases [named] named context.graph.slots.size
    rw [if_neg Bool.false_ne_true, Graph.stylesOf, ← styles]
    exact compareFrom_eq_cons fun compared =>
      (Passed.single stored compared).compareFrom_eq styles.symm

end Conflict

end StyleBlock
