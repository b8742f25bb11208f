import StyleBlock.Proofs.Merging

/-!
Merged selectors are complete: an element that two selectors select is selected by one of those that
they were merged from. So merging selects the intersection, in every document, and it gives up only
if both selectors have a context and one of them a longer one.
-/

namespace StyleBlock

namespace Combinator

variable {first second element : Address}

/-- Of two elements that come before a third one in the same way, with others between them or not,
one comes before the other in that way, if they are not the same. -/
theorem relates_or_relates {loose : Combinator} (skips : loose.isContiguous = false)
    (one : loose.Relates first element) (other : loose.Relates second element) :
    loose.Relates first second ∨ loose.Relates second first ∨ first = second := by
  cases loose with
  | child | nextSibling => simp [isContiguous] at skips
  | descendant =>
    obtain ⟨way, -, rfl⟩ := one
    obtain ⟨way', -, same⟩ := other
    have comparable : first <:+ second ∨ second <:+ first :=
      List.suffix_or_suffix_of_suffix (List.suffix_append way first)
        (same ▸ List.suffix_append way' second)
    have above : ∀ {upper lower : Address}, upper <:+ lower → upper ≠ lower →
        Combinator.descendant.Relates upper lower := by
      rintro upper _ ⟨between, rfl⟩ different
      exact ⟨between, fun empty => different (by simp [empty]), rfl⟩
    by_cases equal : first = second
    · exact .inr (.inr equal)
    · rcases comparable with suffix | suffix
      · exact .inl (above suffix equal)
      · exact .inr (.inl (above suffix (Ne.symm equal)))
  | subsequentSibling =>
    obtain ⟨index, last, parent, -, rfl, rfl⟩ := one
    obtain ⟨index', last', parent', -, rfl, same⟩ := other
    obtain ⟨rfl, rfl⟩ := List.cons.inj same
    rcases Nat.lt_trichotomy index index' with less | rfl | less
    · exact .inl ⟨index, index', parent, less, rfl, rfl⟩
    · exact .inr (.inr rfl)
    · exact .inr (.inl ⟨index', index, parent, less, rfl, rfl⟩)

/-- An element has one neighbour in each direction. -/
theorem eq_of_contiguous {tight : Combinator} (next : tight.isContiguous = true)
    (one : tight.Relates first element) (other : tight.Relates second element) :
    first = second := by
  cases tight with
  | descendant | subsequentSibling => simp [isContiguous] at next
  | child =>
    obtain ⟨index, rfl⟩ := one
    obtain ⟨_, same⟩ := other
    exact (List.cons.inj same).2
  | nextSibling =>
    obtain ⟨index, parent, rfl, rfl⟩ := one
    obtain ⟨index', parent', rfl, same⟩ := other
    obtain ⟨numbers, parents⟩ := List.cons.inj same
    rw [Nat.succ.inj numbers, parents]

/-- What comes before an element in a direction is its neighbour there or comes before the
neighbour. -/
theorem eq_or_relates_of_contiguous {loose tight : Combinator} (skips : loose.isContiguous = false)
    (next : tight.isContiguous = true) (direction : loose.isHierarchical = tight.isHierarchical)
    (far : loose.Relates first element) (near : tight.Relates second element) :
    first = second ∨ loose.Relates first second := by
  have nearToo : loose.Relates second element := relates_of_contiguous skips direction near
  rcases relates_or_relates skips far nearToo with before | after | same
  · exact .inr before
  · -- nothing stands between an element and its neighbour
    exfalso
    cases loose with
    | child | nextSibling => simp [isContiguous] at skips
    | descendant =>
      cases tight with
      | descendant | nextSibling | subsequentSibling =>
        simp [isContiguous, isHierarchical] at next direction
      | child =>
        obtain ⟨index, rfl⟩ := near
        obtain ⟨between, some, rfl⟩ := after
        obtain ⟨way, some', same⟩ := far
        have lengths := congrArg List.length same
        have positive := List.length_pos_iff.mpr some
        have positive' := List.length_pos_iff.mpr some'
        simp only [List.length_cons, List.length_append] at lengths
        omega
    | subsequentSibling =>
      cases tight with
      | descendant | child | subsequentSibling =>
        simp [isContiguous, isHierarchical] at next direction
      | nextSibling =>
        obtain ⟨index, parent, rfl, rfl⟩ := near
        obtain ⟨earlier, later, _, less, same, rfl⟩ := after
        obtain ⟨rfl, rfl⟩ := List.cons.inj same
        obtain ⟨_, last, _, less', same', same''⟩ := far
        obtain ⟨rfl, _⟩ := List.cons.inj same'
        obtain ⟨rfl, _⟩ := List.cons.inj same''
        omega
  · exact .inl same

/-- Siblings have the same elements above them. -/
theorem relates_of_sibling {down beside : Combinator} (hierarchical : down.isHierarchical = true)
    (sibling : beside.isSibling = true) (above : down.Relates first element)
    (joined : beside.Relates second element) : down.Relates first second := by
  have sameParent :
      ∃ index index' parent, second = index :: parent ∧ element = index' :: parent := by
    cases beside with
    | descendant | child => simp [isSibling, isHierarchical] at sibling
    | nextSibling =>
      obtain ⟨index, parent, before, after⟩ := joined
      exact ⟨index, index + 1, parent, before, after⟩
    | subsequentSibling =>
      obtain ⟨index, index', parent, _, before, after⟩ := joined
      exact ⟨index, index', parent, before, after⟩
  obtain ⟨index, index', parent, rfl, rfl⟩ := sameParent
  cases down with
  | nextSibling | subsequentSibling => simp [isHierarchical] at hierarchical
  | child =>
    obtain ⟨_, same⟩ := above
    exact ⟨index, by rw [(List.cons.inj same).2]⟩
  | descendant =>
    obtain ⟨way, some, same⟩ := above
    obtain ⟨last, rest, rfl⟩ := List.exists_cons_of_ne_nil some
    exact ⟨index :: rest, by simp, congrArg (index :: ·) (List.cons.inj same).2⟩

end Combinator

/-- A reading of compounds under which a merged compound asks for its parts and nothing else. -/
def HoldsBoth (holds : Compound → Address → Prop) : Prop :=
  ∀ left right address, holds (left.merged right) address ↔ holds left address ∧ holds right address

theorem HoldsBoth.parts {holds : Compound → Address → Prop} (both : HoldsBoth holds) :
    HoldsParts holds := fun left right address => (both left right address).mp

theorem Document.holdsBoth_fits (document : Document Traits) : HoldsBoth document.Fits := by
  refine fun left right address => ⟨document.holdsParts_fits left right address, ?_⟩
  rintro ⟨⟨traits, labelled, fits⟩, traits', labelled', fits'⟩
  cases labelled.symm.trans labelled'
  refine ⟨traits, labelled, fun node member => ?_⟩
  rcases Compound.mem_addMissing_iff.mp member with isLeft | isRight
  · exact fits node isLeft
  · exact fits' node isRight

namespace Selector

variable {holds : Compound → Address → Prop} {element : Address}

/-- An element that follows two links is selected by one of their interleavings. -/
theorem exists_mem_interleave (both : HoldsBoth holds) {left right : Link} {key : Compound}
    (followsLeft : Follows holds left element) (followsRight : Follows holds right element)
    (held : holds key element) :
    ∃ selector ∈ interleave left right key, selector.Selects holds element := by
  obtain ⟨first, heldFirst, relatedFirst⟩ := followsLeft
  obtain ⟨second, heldSecond, relatedSecond⟩ := followsRight
  have together : ∀ combinator : Combinator, combinator.Relates first element → first = second →
      (chain (left.1.merged right.1, combinator) key).Selects holds element := by
    rintro combinator related rfl
    exact selects_chain.mpr ⟨first, (both _ _ first).mpr ⟨heldFirst, heldSecond⟩, related, held⟩
  have outside : left.2.Relates first second → (chainOfTwo left right key).Selects holds element :=
    fun related => selects_chainOfTwo.mpr
      ⟨first, heldFirst, second, related, heldSecond, relatedSecond, held⟩
  have inside : right.2.Relates second first → (chainOfTwo right left key).Selects holds element :=
    fun related => selects_chainOfTwo.mpr
      ⟨second, heldSecond, first, related, heldFirst, relatedFirst, held⟩
  have how := interleaved left right key
  generalize interleave left right key = selectors at how ⊢
  cases how with
  | close next =>
    exact ⟨_, List.mem_singleton_self _,
      together _ relatedFirst (Combinator.eq_of_contiguous next relatedFirst relatedSecond)⟩
  | apart skips =>
    rcases Combinator.relates_or_relates skips relatedFirst relatedSecond with
      before | after | equal
    · exact ⟨_, by simp, outside before⟩
    · exact ⟨_, by simp, inside after⟩
    · exact ⟨_, by simp, together _ relatedFirst equal⟩
  | leftOutside skips next direction =>
    rcases Combinator.eq_or_relates_of_contiguous skips next direction relatedFirst relatedSecond
      with equal | before
    · exact ⟨_, by simp, together _ (equal ▸ relatedSecond) equal⟩
    · exact ⟨_, by simp, outside before⟩
  | rightOutside skips next direction =>
    rcases Combinator.eq_or_relates_of_contiguous skips next direction relatedSecond relatedFirst
      with equal | before
    · exact ⟨_, by simp, together _ relatedFirst equal.symm⟩
    · exact ⟨_, by simp, inside before⟩
  | leftAbove hierarchical sibling =>
    exact ⟨_, List.mem_singleton_self _,
      outside (Combinator.relates_of_sibling hierarchical sibling relatedFirst relatedSecond)⟩
  | rightAbove hierarchical sibling =>
    exact ⟨_, List.mem_singleton_self _,
      inside (Combinator.relates_of_sibling hierarchical sibling relatedSecond relatedFirst)⟩

/-- What both selectors select, one of those that they are merged to selects. -/
theorem exists_mem_mergeKeys (both : HoldsBoth holds) {other current : Selector}
    {selectors : List Selector} (merged : other.mergeKeys? current = some selectors)
    (selected : other.Selects holds element) (selected' : current.Selects holds element) :
    ∃ selector ∈ selectors, selector.Selects holds element := by
  have keys : ∀ {left right : Compound}, holds left element → holds right element →
      holds (left.merged right) element :=
    fun {left right} one other => (both left right element).mpr ⟨one, other⟩
  cases mergesTo merged with
  | keys =>
    rw [selects_ofCompound] at selected selected'
    exact ⟨_, List.mem_singleton_self _, selects_ofCompound.mpr (keys selected selected')⟩
  | leftContext =>
    rw [selects_ofCompound] at selected'
    obtain ⟨before, chosen, related, held⟩ := selects_push.mp selected
    exact ⟨_, List.mem_singleton_self _,
      selects_push.mpr ⟨before, chosen, related, keys held selected'⟩⟩
  | rightContext =>
    rw [selects_ofCompound] at selected
    obtain ⟨before, chosen, related, held⟩ := selects_push.mp selected'
    exact ⟨_, List.mem_singleton_self _,
      selects_push.mpr ⟨before, chosen, related, keys selected held⟩⟩
  | contexts =>
    obtain ⟨follows, held⟩ := selects_push_ofCompound.mp selected
    obtain ⟨follows', held'⟩ := selects_push_ofCompound.mp selected'
    exact exists_mem_interleave both follows follows' (keys held held')

/-- Merging gives up when both selectors have a context and one of them a longer one. -/
theorem mergeKeys_eq_none_iff {other current : Selector} :
    other.mergeKeys? current = none ↔ (other.context?.isSome ∧ current.context?.isSome) ∧
      (1 < other.combinatorCount ∨ 1 < current.combinatorCount) := by
  have counts : ∀ {selector context : Selector} {combinator : Combinator},
      selector.context? = some (context, combinator) →
        selector.combinatorCount = context.combinatorCount + 1 := by
    intro selector context combinator before
    rw [eq_push_of_context before]
    simp [push, combinatorCount]
  unfold mergeKeys?
  dsimp only
  cases left : other.context? with
  | none => cases right : current.context? <;> simp
  | some link =>
    obtain ⟨context, combinator⟩ := link
    cases right : current.context? with
    | none => simp
    | some link' =>
      obtain ⟨context', combinator'⟩ := link'
      simp only [counts left, counts right, Option.isSome_some, and_self, true_and,
        ite_eq_left_iff, reduceCtorEq, imp_false, Bool.or_eq_true, decide_eq_true_eq, not_not]
      omega

/-! Pseudo-elements -/

/-- Whether no compound in front of the key has a pseudo-element. -/
def HasPlainContext (selector : Selector) : Prop :=
  ∀ context combinator, selector.context? = some (context, combinator) →
    ∀ pair ∈ context.compounds, pair.2.pseudoElement = none

theorem context_push (selector : Selector) (combinator : Combinator) (compound : Compound) :
    (selector.push combinator compound).context? = some (selector, combinator) := by
  simp [push, context?, combinator?]

theorem HasPlainContext.key {selector context : Selector} {combinator : Combinator}
    (plain : selector.HasPlainContext) (before : selector.context? = some (context, combinator)) :
    context.key.pseudoElement = none := by
  have isCompound : ∃ pair ∈ context.compounds, pair.2 = context.key := by
    unfold Selector.key
    split
    · rename_i combinator compound last
      refine ⟨(some combinator, compound), List.mem_cons_of_mem _ ?_, rfl⟩
      exact List.mem_map.mpr ⟨_, List.mem_of_getLast? last, rfl⟩
    · exact ⟨(none, context.head), List.mem_cons_self, rfl⟩
  obtain ⟨pair, member, same⟩ := isCompound
  exact same ▸ plain context combinator before pair member

theorem hasPlainContext_of_mem_interleave {left right : Link} {key : Compound} {selector : Selector}
    (plainLeft : left.1.pseudoElement = none) (plainRight : right.1.pseudoElement = none)
    (member : selector ∈ interleave left right key) : selector.HasPlainContext := by
  have one : ∀ combinator, (chain (left.1.merged right.1, combinator) key).HasPlainContext := by
    rintro combinator _ _ ⟨⟩ pair inside
    rw [List.mem_singleton.mp inside]
    change (left.1.pseudoElement <|> right.1.pseudoElement) = none
    rw [plainLeft, plainRight]
    rfl
  have two : ∀ {outer inner : Link}, outer.1.pseudoElement = none → inner.1.pseudoElement = none →
      (chainOfTwo outer inner key).HasPlainContext := by
    rintro outer inner plainOuter plainInner _ _ ⟨⟩ pair inside
    rcases List.mem_cons.mp inside with rfl | inside
    · exact plainOuter
    · rw [List.mem_singleton.mp inside]
      exact plainInner
  have how := interleaved left right key
  generalize interleave left right key = selectors at member how
  cases how with
  | close =>
    obtain rfl := List.mem_singleton.mp member
    exact one _
  | apart =>
    simp only [List.mem_cons, List.not_mem_nil, or_false] at member
    rcases member with rfl | rfl | rfl
    · exact two plainLeft plainRight
    · exact two plainRight plainLeft
    · exact one _
  | leftOutside =>
    simp only [List.mem_cons, List.not_mem_nil, or_false] at member
    rcases member with rfl | rfl
    · exact two plainLeft plainRight
    · exact one _
  | rightOutside =>
    simp only [List.mem_cons, List.not_mem_nil, or_false] at member
    rcases member with rfl | rfl
    · exact two plainRight plainLeft
    · exact one _
  | leftAbove =>
    obtain rfl := List.mem_singleton.mp member
    exact two plainLeft plainRight
  | rightAbove =>
    obtain rfl := List.mem_singleton.mp member
    exact two plainRight plainLeft

/-- Merging puts pseudo-elements on keys only. -/
theorem hasPlainContext_of_mem_mergeKeys {other current selector : Selector}
    {selectors : List Selector} (plainOther : other.HasPlainContext)
    (plainCurrent : current.HasPlainContext)
    (merged : other.mergeKeys? current = some selectors) (member : selector ∈ selectors) :
    selector.HasPlainContext := by
  have kept : ∀ {context : Selector} {combinator : Combinator} {before : Compound} (key : Compound),
      (context.push combinator before).HasPlainContext →
        (context.push combinator key).HasPlainContext := by
    intro context combinator before key plain again next same
    rw [context_push] at same
    cases same
    exact plain context combinator (context_push ..)
  cases mergesTo merged with
  | keys =>
    obtain rfl := List.mem_singleton.mp member
    rintro _ _ ⟨⟩
  | leftContext =>
    obtain rfl := List.mem_singleton.mp member
    exact kept _ plainOther
  | rightContext =>
    obtain rfl := List.mem_singleton.mp member
    exact kept _ plainCurrent
  | contexts =>
    exact hasPlainContext_of_mem_interleave (plainOther.key (context_push ..))
      (plainCurrent.key (context_push ..)) member

/-- Whether a selector selects a part of an element: the pseudo-element of a name, or the element
itself. A pseudo-element in front of the key selects nothing. -/
def SelectsPart (selector : Selector) (document : Document Traits) (element : Address)
    (part : Option String) : Prop :=
  selector.HasPlainContext ∧ selector.pseudoName? = part ∧ selector.SelectsIn document element

/-- Merging selects the intersection. It gives up if and only if both selectors have a context and
one of them has more than one combinator. Otherwise an element, or the pseudo-element that both keys
name, is selected by one of the merged selectors if and only if both selectors select it. -/
theorem selects_iff_of_mergeKeys {other current : Selector} (plainOther : other.HasPlainContext)
    (plainCurrent : current.HasPlainContext) (same : current.pseudoName? = other.pseudoName?) :
    (other.mergeKeys? current = none ↔ (other.context?.isSome ∧ current.context?.isSome) ∧
      (1 < other.combinatorCount ∨ 1 < current.combinatorCount)) ∧
    ∀ selectors, other.mergeKeys? current = some selectors →
      ∀ (document : Document Traits) (element : Address),
        ((∃ selector ∈ selectors, selector.SelectsIn document element) ↔
          other.SelectsIn document element ∧ current.SelectsIn document element) ∧
        ∀ part, (∃ selector ∈ selectors, selector.SelectsPart document element part) ↔
          other.SelectsPart document element part ∧ current.SelectsPart document element part := by
  refine ⟨mergeKeys_eq_none_iff, fun selectors merged document element => ?_⟩
  have both := document.holdsBoth_fits
  have meets : (∃ selector ∈ selectors, selector.SelectsIn document element) ↔
      other.SelectsIn document element ∧ current.SelectsIn document element := by
    constructor
    · rintro ⟨selector, member, selected⟩
      exact selects_of_mem_mergeKeys both.parts merged member selected
    · rintro ⟨selected, selected'⟩
      exact exists_mem_mergeKeys both merged selected selected'
  refine ⟨meets, fun part => ?_⟩
  have names : ∀ selector ∈ selectors, selector.pseudoName? = other.pseudoName? :=
    fun selector member => pseudoName_of_mem_mergeKeys merged member same
  constructor
  · rintro ⟨selector, member, -, isPart, selected⟩
    obtain ⟨one, another⟩ := meets.mp ⟨selector, member, selected⟩
    have isPart := (names selector member).symm.trans isPart
    exact ⟨⟨plainOther, isPart, one⟩, ⟨plainCurrent, same.trans isPart, another⟩⟩
  · rintro ⟨⟨-, isPart, one⟩, -, -, another⟩
    obtain ⟨selector, member, selected⟩ := meets.mpr ⟨one, another⟩
    exact ⟨selector, member, hasPlainContext_of_mem_mergeKeys plainOther plainCurrent merged member,
      (names selector member).trans isPart, selected⟩

/-- The selector `.x ~ .a::before`. -/
def afterX : Selector :=
  ⟨⟨[.className "x"], none⟩, [(.subsequentSibling, ⟨[.className "a"], some ⟨"before", false⟩⟩)]⟩

/-- The selector `.y + .b:before`. -/
def besideY : Selector :=
  ⟨⟨[.className "y"], none⟩, [(.nextSibling, ⟨[.className "b"], some ⟨"before", true⟩⟩)]⟩

/-- Three siblings with the classes `x`, `y`, and both `a` and `b`. -/
def siblings : Document Traits :=
  let withClasses (classes : Set String) : Document Traits := .element ⟨classes, fun _ => False⟩ []
  .element ⟨∅, fun _ => False⟩ [withClasses {"x"}, withClasses {"y"}, withClasses {"a", "b"}]

/-- The last of the siblings has the pseudo-element that both selectors select, and one of the
merged selectors selects it. -/
theorem siblings_selected :
    (afterX.HasPlainContext ∧ besideY.HasPlainContext ∧
      besideY.pseudoName? = afterX.pseudoName?) ∧
    ∃ selectors, afterX.mergeKeys? besideY = some selectors ∧
      ∃ selector ∈ selectors, selector.SelectsPart siblings [2] (some "before") := by
  have plain : afterX.HasPlainContext ∧ besideY.HasPlainContext := by
    constructor <;> rintro _ _ ⟨⟩ pair inside <;> rw [List.mem_singleton.mp inside] <;> rfl
  have fits : ∀ (address : Address) (classes : Set String) (compound : Compound),
      siblings.label? address = some ⟨classes, fun _ => False⟩ →
        (∀ node ∈ compound.nodes, (⟨classes, fun _ => False⟩ : Traits).Meets node) →
          siblings.Fits compound address := fun _ _ _ labelled meets => ⟨_, labelled, meets⟩
  have one : afterX.SelectsIn siblings [2] :=
    ⟨[0], fits _ {"x"} _ rfl (by simp [afterX, Traits.Meets]), [2],
      ⟨0, 2, [], by decide, rfl, rfl⟩, fits _ {"a", "b"} _ rfl (by simp [Traits.Meets]), rfl⟩
  have another : besideY.SelectsIn siblings [2] :=
    ⟨[1], fits _ {"y"} _ rfl (by simp [besideY, Traits.Meets]), [2],
      ⟨1, [], rfl, rfl⟩, fits _ {"a", "b"} _ rfl (by simp [Traits.Meets]), rfl⟩
  have merging := selects_iff_of_mergeKeys plain.1 plain.2
    (show besideY.pseudoName? = afterX.pseudoName? from rfl)
  refine ⟨⟨plain.1, plain.2, rfl⟩, _, rfl, ?_⟩
  exact ((merging.2 _ rfl siblings [2]).2 (some "before")).mpr
    ⟨⟨plain.1, rfl, one⟩, ⟨plain.2, rfl, another⟩⟩

end Selector

end StyleBlock
