import StyleBlock.Proofs.Document
import StyleBlock.Selector.Merge

/-!
Merged selectors are sound: in every document, an element that a selector merged from two others
selects is selected by both of them.
-/

namespace StyleBlock

namespace Combinator

/-- Whether an element before the first of two joined elements is before the second in the same
way: a combinator that skips elements goes on over a step in its own direction, and any step down
goes on to a sibling. -/
def GoesOnOver (outer inner : Combinator) : Prop :=
  (outer.isHierarchical = true ∧ inner.isSibling = true) ∨
    (outer.isContiguous = false ∧ outer.isHierarchical = inner.isHierarchical)

theorem relates_trans {outer inner : Combinator} {first second third : Address}
    (passing : outer.GoesOnOver inner) (before : outer.Relates first second)
    (after : inner.Relates second third) : outer.Relates first third := by
  cases outer with
  | descendant =>
    obtain ⟨way, some, rfl⟩ := before
    cases inner with
    | descendant =>
      obtain ⟨more, -, rfl⟩ := after
      exact ⟨more ++ way, by simp [some], by simp⟩
    | child =>
      obtain ⟨index, rfl⟩ := after
      exact ⟨index :: way, by simp, rfl⟩
    | nextSibling =>
      obtain ⟨index, parent, same, rfl⟩ := after
      obtain ⟨index', rest, rfl⟩ := List.exists_cons_of_ne_nil some
      obtain ⟨rfl, rfl⟩ := List.cons.inj same
      exact ⟨(index' + 1) :: rest, by simp, rfl⟩
    | subsequentSibling =>
      obtain ⟨index, later, parent, -, same, rfl⟩ := after
      obtain ⟨index', rest, rfl⟩ := List.exists_cons_of_ne_nil some
      obtain ⟨rfl, rfl⟩ := List.cons.inj same
      exact ⟨later :: rest, by simp, rfl⟩
  | child =>
    obtain ⟨index, rfl⟩ := before
    cases inner with
    | descendant | child => simp [GoesOnOver, isSibling, isHierarchical, isContiguous] at passing
    | nextSibling =>
      obtain ⟨_, _, same, rfl⟩ := after
      obtain ⟨rfl, rfl⟩ := List.cons.inj same
      exact ⟨_, rfl⟩
    | subsequentSibling =>
      obtain ⟨_, later, _, -, same, rfl⟩ := after
      obtain ⟨rfl, rfl⟩ := List.cons.inj same
      exact ⟨later, rfl⟩
  | nextSibling => simp [GoesOnOver, isHierarchical, isContiguous] at passing
  | subsequentSibling =>
    obtain ⟨index, later, parent, less, rfl, rfl⟩ := before
    cases inner with
    | descendant | child => simp [GoesOnOver, isHierarchical, isContiguous] at passing
    | nextSibling =>
      obtain ⟨_, _, same, rfl⟩ := after
      obtain ⟨rfl, rfl⟩ := List.cons.inj same
      exact ⟨index, later + 1, parent, Nat.lt_succ_of_lt less, rfl, rfl⟩
    | subsequentSibling =>
      obtain ⟨_, last, _, further, same, rfl⟩ := after
      obtain ⟨rfl, rfl⟩ := List.cons.inj same
      exact ⟨index, last, parent, less.trans further, rfl, rfl⟩

/-- A combinator between neighbours also joins them in the way that may skip elements. -/
theorem relates_of_contiguous {loose tight : Combinator} {first second : Address}
    (skips : loose.isContiguous = false) (direction : loose.isHierarchical = tight.isHierarchical)
    (related : tight.Relates first second) : loose.Relates first second := by
  cases loose with
  | child | nextSibling => simp [isContiguous] at skips
  | descendant =>
    cases tight with
    | nextSibling | subsequentSibling => simp [isHierarchical] at direction
    | descendant => exact related
    | child =>
      obtain ⟨index, rfl⟩ := related
      exact ⟨[index], by simp, rfl⟩
  | subsequentSibling =>
    cases tight with
    | descendant | child => simp [isHierarchical] at direction
    | subsequentSibling => exact related
    | nextSibling =>
      obtain ⟨index, parent, rfl, rfl⟩ := related
      exact ⟨index, index + 1, parent, Nat.lt_succ_self index, rfl, rfl⟩

end Combinator

/-- A reading of compounds under which a merged compound asks for both of its parts. -/
def HoldsParts (holds : Compound → Address → Prop) : Prop :=
  ∀ left right address, holds (left.merged right) address →
    holds left address ∧ holds right address

namespace Compound

theorem mem_addMissing_iff {nodes others : List SimpleSelector} {node : SimpleSelector} :
    node ∈ addMissing nodes others ↔ node ∈ nodes ∨ node ∈ others := by
  induction others generalizing nodes with
  | nil => simp [addMissing]
  | cons other rest ih =>
    unfold addMissing
    split
    · rename_i known
      rw [ih, List.mem_cons]
      constructor
      · rintro (old | new)
        · exact .inl old
        · exact .inr (.inr new)
      · rintro (old | rfl | new)
        · exact .inl old
        · exact .inl (List.contains_iff_mem.mp known)
        · exact .inr new
    · rw [ih, List.mem_append, List.mem_singleton, List.mem_cons, or_assoc]

end Compound

theorem Document.holdsParts_fits (document : Document Traits) : HoldsParts document.Fits := by
  rintro left right address ⟨traits, labelled, fits⟩
  constructor
  · exact ⟨traits, labelled, fun node member =>
      fits node (Compound.mem_addMissing_iff.mpr (.inl member))⟩
  · exact ⟨traits, labelled, fun node member =>
      fits node (Compound.mem_addMissing_iff.mpr (.inr member))⟩

namespace Selector

variable {holds : Compound → Address → Prop} {element : Address}

theorem selects_chain {link : Link} {key : Compound} :
    (chain link key).Selects holds element ↔
      ∃ before, holds link.1 before ∧ link.2.Relates before element ∧ holds key element := by
  simp only [Selects, chain, joins_single]

theorem selects_chainOfTwo {outer inner : Link} {key : Compound} :
    (chainOfTwo outer inner key).Selects holds element ↔
      ∃ first, holds outer.1 first ∧ ∃ second, outer.2.Relates first second ∧
        holds inner.1 second ∧ inner.2.Relates second element ∧ holds key element := by
  simp only [Selects, chainOfTwo, Joins]
  constructor
  · rintro ⟨first, held, second, related, heldSecond, _, relatedLast, heldLast, rfl⟩
    exact ⟨first, held, second, related, heldSecond, relatedLast, heldLast⟩
  · rintro ⟨first, held, second, related, heldSecond, relatedLast, heldLast⟩
    exact ⟨first, held, second, related, heldSecond, element, relatedLast, heldLast, rfl⟩

/-- Whether an element has another one in front of it as a link says. -/
def Follows (holds : Compound → Address → Prop) (link : Link) (element : Address) : Prop :=
  ∃ before, holds link.1 before ∧ link.2.Relates before element

theorem follows_of_chainOfTwo {outer inner : Link} {key : Compound}
    (passing : outer.2.GoesOnOver inner.2)
    (selected : (chainOfTwo outer inner key).Selects holds element) :
    Follows holds outer element ∧ Follows holds inner element ∧ holds key element := by
  obtain ⟨first, held, second, related, heldSecond, last, heldLast⟩ :=
    selects_chainOfTwo.mp selected
  exact ⟨⟨first, held, Combinator.relates_trans passing related last⟩, ⟨second, heldSecond, last⟩,
    heldLast⟩

theorem follows_of_chain (parts : HoldsParts holds) {left right : Compound}
    {combinator leftCombinator rightCombinator : Combinator} {key : Compound}
    (leftRelates : ∀ {first second}, combinator.Relates first second →
      leftCombinator.Relates first second)
    (rightRelates : ∀ {first second}, combinator.Relates first second →
      rightCombinator.Relates first second)
    (selected : (chain (left.merged right, combinator) key).Selects holds element) :
    Follows holds (left, leftCombinator) element ∧ Follows holds (right, rightCombinator) element ∧
      holds key element := by
  obtain ⟨before, held, related, heldKey⟩ := selects_chain.mp selected
  obtain ⟨heldLeft, heldRight⟩ := parts left right before held
  exact ⟨⟨before, heldLeft, leftRelates related⟩, ⟨before, heldRight, rightRelates related⟩,
    heldKey⟩

/-- How two links are interleaved. What they have in front of the key may be one element, unless one
of them goes up and the other one aside, or two. Then the outer one is the link that skips elements
or goes up, or either one. -/
inductive Interleaved (key : Compound) : Link → Link → List Selector → Prop
  | close {left right : Compound} {combinator : Combinator}
      (next : combinator.isContiguous = true) :
      Interleaved key (left, combinator) (right, combinator)
        [chain (left.merged right, combinator) key]
  | apart {left right : Compound} {combinator : Combinator}
      (skips : combinator.isContiguous = false) :
      Interleaved key (left, combinator) (right, combinator)
        [chainOfTwo (left, combinator) (right, combinator) key,
          chainOfTwo (right, combinator) (left, combinator) key,
          chain (left.merged right, combinator) key]
  | leftOutside {left right : Compound} {loose tight : Combinator}
      (skips : loose.isContiguous = false) (next : tight.isContiguous = true)
      (direction : loose.isHierarchical = tight.isHierarchical) :
      Interleaved key (left, loose) (right, tight)
        [chainOfTwo (left, loose) (right, tight) key, chain (left.merged right, tight) key]
  | rightOutside {left right : Compound} {loose tight : Combinator}
      (skips : loose.isContiguous = false) (next : tight.isContiguous = true)
      (direction : loose.isHierarchical = tight.isHierarchical) :
      Interleaved key (left, tight) (right, loose)
        [chainOfTwo (right, loose) (left, tight) key, chain (left.merged right, tight) key]
  | leftAbove {left right : Compound} {down beside : Combinator}
      (hierarchical : down.isHierarchical = true) (sibling : beside.isSibling = true) :
      Interleaved key (left, down) (right, beside) [chainOfTwo (left, down) (right, beside) key]
  | rightAbove {left right : Compound} {down beside : Combinator}
      (hierarchical : down.isHierarchical = true) (sibling : beside.isSibling = true) :
      Interleaved key (left, beside) (right, down) [chainOfTwo (right, down) (left, beside) key]

theorem interleaved (left right : Link) (key : Compound) :
    Interleaved key left right (interleave left right key) := by
  obtain ⟨left, leftCombinator⟩ := left
  obtain ⟨right, rightCombinator⟩ := right
  unfold interleave
  dsimp only
  by_cases same : leftCombinator = rightCombinator
  · subst same
    rw [if_pos rfl]
    split
    · next contiguous => exact .close contiguous
    · next loose => exact .apart (by simpa using loose)
  rw [if_neg same]
  by_cases direction : leftCombinator.isHierarchical = rightCombinator.isHierarchical
  · -- one of the two skips elements: two different combinators of one direction are not alike
    rw [if_neg (by simpa using direction)]
    have other : rightCombinator.isContiguous = !leftCombinator.isContiguous := by
      cases leftCombinator <;> cases rightCombinator <;>
        simp_all [Combinator.isHierarchical, Combinator.isContiguous]
    split
    · next tight => exact .rightOutside (by rw [other, tight]; rfl) tight direction.symm
    · next loose =>
      have loose : leftCombinator.isContiguous = false := by simpa using loose
      exact .leftOutside loose (by rw [other, loose]; rfl) direction
  · rw [if_pos (by simpa using direction)]
    cases down : leftCombinator.isHierarchical with
    | true => exact .leftAbove down (by simpa [Combinator.isSibling, down] using Ne.symm direction)
    | false =>
      exact .rightAbove (by simpa [down] using direction) (by simp [Combinator.isSibling, down])

/-- An element that an interleaving of two links selects follows both links. -/
theorem follows_of_mem_interleave (parts : HoldsParts holds) {left right : Link} {key : Compound}
    {selector : Selector} (member : selector ∈ interleave left right key)
    (selected : selector.Selects holds element) :
    Follows holds left element ∧ Follows holds right element ∧ holds key element := by
  have how := interleaved left right key
  generalize interleave left right key = selectors at member how
  have swap : ∀ {outer inner : Link}, outer.2.GoesOnOver inner.2 →
      (chainOfTwo outer inner key).Selects holds element →
        Follows holds inner element ∧ Follows holds outer element ∧ holds key element := by
    intro outer inner passing selected
    obtain ⟨first, second, held⟩ := follows_of_chainOfTwo passing selected
    exact ⟨second, first, held⟩
  cases how with
  | close next =>
    obtain rfl := List.mem_singleton.mp member
    exact follows_of_chain parts id id selected
  | apart skips =>
    simp only [List.mem_cons, List.not_mem_nil, or_false] at member
    rcases member with rfl | rfl | rfl
    · exact follows_of_chainOfTwo (.inr ⟨skips, rfl⟩) selected
    · exact swap (.inr ⟨skips, rfl⟩) selected
    · exact follows_of_chain parts id id selected
  | leftOutside skips next direction =>
    simp only [List.mem_cons, List.not_mem_nil, or_false] at member
    rcases member with rfl | rfl
    · exact follows_of_chainOfTwo (.inr ⟨skips, direction⟩) selected
    · exact follows_of_chain parts (Combinator.relates_of_contiguous skips direction) id selected
  | rightOutside skips next direction =>
    simp only [List.mem_cons, List.not_mem_nil, or_false] at member
    rcases member with rfl | rfl
    · exact swap (.inr ⟨skips, direction⟩) selected
    · exact follows_of_chain parts id (Combinator.relates_of_contiguous skips direction) selected
  | leftAbove hierarchical sibling =>
    obtain rfl := List.mem_singleton.mp member
    exact follows_of_chainOfTwo (.inl ⟨hierarchical, sibling⟩) selected
  | rightAbove hierarchical sibling =>
    obtain rfl := List.mem_singleton.mp member
    exact swap (.inl ⟨hierarchical, sibling⟩) selected

theorem eq_ofCompound_of_context {selector : Selector} (alone : selector.context? = none) :
    selector = ofCompound selector.key := by
  obtain ⟨head, tail⟩ := selector
  have empty : tail = [] := by
    simpa [context?, combinator?] using alone
  subst empty
  rfl

theorem eq_push_of_context {selector context : Selector} {combinator : Combinator}
    (before : selector.context? = some (context, combinator)) :
    selector = context.push combinator selector.key := by
  obtain ⟨head, tail⟩ := selector
  obtain ⟨found, last, same⟩ := Option.map_eq_some_iff.mp before
  cases same
  obtain ⟨⟨_, compound⟩, link, rfl⟩ := Option.map_eq_some_iff.mp last
  obtain ⟨init, rfl⟩ := List.getLast?_eq_some_iff.mp link
  simp [push, key]

theorem eq_ofCompound_of_single {selector : Selector} (single : selector.combinatorCount = 0) :
    selector = ofCompound selector.key := by
  obtain ⟨head, tail⟩ := selector
  obtain rfl := List.length_eq_zero_iff.mp single
  rfl

/-- How two selectors are merged. A context that only one of them has stands in front of both keys,
and two contexts of one compound each are interleaved. -/
inductive MergesTo : Selector → Selector → List Selector → Prop
  | keys {left right : Compound} :
      MergesTo (ofCompound left) (ofCompound right) [ofCompound (left.merged right)]
  | leftContext {context : Selector} {combinator : Combinator} {left right : Compound} :
      MergesTo (context.push combinator left) (ofCompound right)
        [context.push combinator (left.merged right)]
  | rightContext {context : Selector} {combinator : Combinator} {left right : Compound} :
      MergesTo (ofCompound left) (context.push combinator right)
        [context.push combinator (left.merged right)]
  | contexts {before behind left right : Compound} {combinator combinator' : Combinator} :
      MergesTo ((ofCompound before).push combinator left)
        ((ofCompound behind).push combinator' right)
        (interleave (before, combinator) (behind, combinator') (left.merged right))

theorem mergesTo {other current : Selector} {selectors : List Selector}
    (merged : other.mergeKeys? current = some selectors) : MergesTo other current selectors := by
  unfold mergeKeys? at merged
  dsimp only at merged
  cases left : other.context? with
  | none =>
    have isKey := eq_ofCompound_of_context left
    cases right : current.context? with
    | none =>
      rw [left, right] at merged
      cases merged
      have how := @MergesTo.keys other.key current.key
      rwa [← isKey, ← eq_ofCompound_of_context right] at how
    | some link =>
      obtain ⟨context, combinator⟩ := link
      rw [left, right] at merged
      cases merged
      have how := @MergesTo.rightContext context combinator other.key current.key
      rwa [← isKey, ← eq_push_of_context right] at how
  | some link =>
    obtain ⟨context, combinator⟩ := link
    have pushed := eq_push_of_context left
    cases right : current.context? with
    | none =>
      rw [left, right] at merged
      cases merged
      have how := @MergesTo.leftContext context combinator other.key current.key
      rwa [← pushed, ← eq_ofCompound_of_context right] at how
    | some link =>
      obtain ⟨context', combinator'⟩ := link
      rw [left, right] at merged
      dsimp only at merged
      split at merged
      · cases merged
      · rename_i short
        cases merged
        simp only [Bool.or_eq_true, decide_eq_true_eq, not_or, Nat.not_lt, Nat.le_zero] at short
        have how := @MergesTo.contexts context.key context'.key other.key current.key combinator
          combinator'
        rwa [← eq_ofCompound_of_single short.1, ← eq_ofCompound_of_single short.2, ← pushed,
          ← eq_push_of_context right] at how

/-- A compound in front of a key is a link. -/
theorem selects_push_ofCompound {before key : Compound} {combinator : Combinator} :
    ((ofCompound before).push combinator key).Selects holds element ↔
      Follows holds (before, combinator) element ∧ holds key element := by
  simp only [selects_push, selects_ofCompound, Follows]
  constructor
  · rintro ⟨first, chosen, related, held⟩
    exact ⟨⟨first, chosen, related⟩, held⟩
  · rintro ⟨⟨first, chosen, related⟩, held⟩
    exact ⟨first, chosen, related, held⟩

/-- What a merged selector selects, both selectors that it was merged from select. -/
theorem selects_of_mem_mergeKeys (parts : HoldsParts holds) {other current selector : Selector}
    {selectors : List Selector} (merged : other.mergeKeys? current = some selectors)
    (member : selector ∈ selectors) (selected : selector.Selects holds element) :
    other.Selects holds element ∧ current.Selects holds element := by
  cases mergesTo merged with
  | keys =>
    obtain rfl := List.mem_singleton.mp member
    have held := parts _ _ _ (selects_ofCompound.mp selected)
    exact ⟨selects_ofCompound.mpr held.1, selects_ofCompound.mpr held.2⟩
  | leftContext =>
    obtain rfl := List.mem_singleton.mp member
    obtain ⟨before, chosen, related, held⟩ := selects_push.mp selected
    have held := parts _ _ _ held
    exact ⟨selects_push.mpr ⟨before, chosen, related, held.1⟩, selects_ofCompound.mpr held.2⟩
  | rightContext =>
    obtain rfl := List.mem_singleton.mp member
    obtain ⟨before, chosen, related, held⟩ := selects_push.mp selected
    have held := parts _ _ _ held
    exact ⟨selects_ofCompound.mpr held.1, selects_push.mpr ⟨before, chosen, related, held.2⟩⟩
  | contexts =>
    obtain ⟨leftFollows, rightFollows, held⟩ := follows_of_mem_interleave parts member selected
    have held := parts _ _ _ held
    exact ⟨selects_push_ofCompound.mpr ⟨leftFollows, held.1⟩,
      selects_push_ofCompound.mpr ⟨rightFollows, held.2⟩⟩

@[simp] theorem key_push (selector : Selector) (combinator : Combinator) (compound : Compound) :
    (selector.push combinator compound).key = compound := by
  simp [push, key]

theorem key_of_mem_interleave {left right : Link} {key : Compound} {selector : Selector}
    (member : selector ∈ interleave left right key) : selector.key = key := by
  have how := interleaved left right key
  generalize interleave left right key = selectors at member how
  cases how with
  | close | leftAbove | rightAbove =>
    obtain rfl := List.mem_singleton.mp member
    rfl
  | apart | leftOutside | rightOutside =>
    simp only [List.mem_cons, List.not_mem_nil, or_false] at member
    rcases member with rfl | rfl | rfl <;> rfl

/-- Merging puts both keys on one element. -/
theorem key_of_mem_mergeKeys {other current selector : Selector} {selectors : List Selector}
    (merged : other.mergeKeys? current = some selectors) (member : selector ∈ selectors) :
    selector.key = other.key.merged current.key := by
  cases mergesTo merged with
  | keys =>
    rw [List.mem_singleton.mp member]
    rfl
  | leftContext | rightContext =>
    rw [List.mem_singleton.mp member, key_push, key_push]
    rfl
  | contexts =>
    rw [key_push, key_push]
    exact key_of_mem_interleave member

/-- Two selectors of the same pseudo-element merge into selectors of that pseudo-element. -/
theorem pseudoName_of_mem_mergeKeys {other current selector : Selector} {selectors : List Selector}
    (merged : other.mergeKeys? current = some selectors) (member : selector ∈ selectors)
    (same : current.pseudoName? = other.pseudoName?) :
    selector.pseudoName? = other.pseudoName? := by
  unfold pseudoName? pseudoElement? at same ⊢
  rw [key_of_mem_mergeKeys merged member]
  unfold Compound.merged
  cases present : other.key.pseudoElement with
  | none =>
    rw [present] at same
    simpa using same
  | some pseudo => rfl

end Selector

end StyleBlock
