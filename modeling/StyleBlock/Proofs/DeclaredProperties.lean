import StyleBlock.Proofs.KeyObjects

/-!
The properties that a load records. An object has exactly those that the rules with a selector for
it declare, under the pseudo-element of the selector; registering objects on the way adds none.
-/

namespace StyleBlock

namespace Block

/-- The properties recorded for an object, none for one that the block does not have. -/
def usesAt (block : Block) (key : ObjectKey) : List PropertyUse :=
  ((block.propertiesAt? key).getD .empty).uses

/-- Two stages of a block that record the same properties. -/
def SameUses (before after : Block) : Prop :=
  ∀ key, after.usesAt key = before.usesAt key

theorem SameUses.refl (block : Block) : block.SameUses block :=
  fun _ => rfl

theorem SameUses.trans {first second third : Block} (before : first.SameUses second)
    (after : second.SameUses third) : first.SameUses third :=
  fun key => (after key).trans (before key)

variable {block : Block}

/-- The properties recorded for a state among some. -/
def stateUses (states : List State) (index : Nat) : List PropertyUse :=
  ((states[index]?.map State.properties).getD .empty).uses

theorem usesAt_ofState (block : Block) (owner : Option Nat) (index : Nat) :
    block.usesAt (.ofState owner index) = stateUses ((block.statesOf? owner).getD []) index := by
  rw [usesAt, propertiesAt?, stateUses]
  cases block.statesOf? owner <;> rfl

theorem stateUses_ensureStateIn (states : List State) (name : StateName) (index : Nat) :
    stateUses (ensureStateIn states name).1 index = stateUses states index := by
  unfold ensureStateIn
  split
  · rfl
  · rw [stateUses, stateUses, List.getElem?_append]
    split
    · rfl
    · next outside =>
      rw [List.getElem?_eq_none (Nat.le_of_not_lt outside)]
      cases index - states.length <;> rfl

/-- A new class has no properties. -/
theorem sameUses_ensureClass (block : Block) (name : String) :
    block.SameUses (block.ensureClass name).1 := by
  intro key
  cases key with
  | root =>
    unfold ensureClass
    split <;> rfl
  | ofClass index =>
    unfold ensureClass
    split
    · rfl
    · rw [usesAt, usesAt, propertiesAt?, propertiesAt?, List.getElem?_append]
      split
      · rfl
      · next outside =>
        rw [List.getElem?_eq_none (Nat.le_of_not_lt outside)]
        cases index - block.classes.length <;> rfl
  | ofState owner index =>
    rw [usesAt_ofState, usesAt_ofState]
    rcases block.statesOf_ensureClass name owner with same | ⟨missing, new⟩
    · rw [same]
    · rw [missing, new]
      rfl

/-- A new state has no properties. -/
theorem sameUses_ensureState {owner : Option Nat} (has : block.HasOwner owner) (name : StateName) :
    block.SameUses (block.ensureState owner name).1 := by
  obtain ⟨states, known⟩ := statesOf_isSome has
  obtain ⟨_, _, here, others⟩ := statesOf_ensureState known name
  intro key
  cases key with
  | root =>
    unfold ensureState
    split <;> rfl
  | ofClass index =>
    cases owner with
    | none => rfl
    | some place =>
      obtain ⟨entry, placed, rfl⟩ := Option.map_eq_some_iff.mp known
      obtain ⟨below, isEntry⟩ := List.getElem?_eq_some_iff.mp placed
      simp only [usesAt, propertiesAt?, ensureState, Option.bind_some, placed, Option.map_some,
        List.getElem?_set]
      split
      · next same => simp [← same, below, isEntry]
      · rfl
  | ofState other index =>
    rw [usesAt_ofState, usesAt_ofState]
    by_cases same : other = owner
    · rw [same, here, known, Option.getD_some, Option.getD_some, stateUses_ensureStateIn]
    · rw [others other same]

theorem stateUses_modifyState {states : List State} {index : Nat} (below : index < states.length)
    (change : PropertyUses → PropertyUses) (other : Nat) :
    stateUses (modifyState states index change) other =
      if other = index then (change ⟨stateUses states index⟩).uses else stateUses states other := by
  rw [stateUses, modifyState, List.getElem?_modify]
  by_cases same : index = other
  · subst same
    simp [stateUses, below]
  · simp [stateUses, same, Ne.symm same]

theorem usesAt_modifyClass {index : Nat} (below : index < block.classes.length)
    (change : PropertyUses → PropertyUses) (other : ObjectKey) :
    (block.modifyProperties (.ofClass index) change).usesAt other =
      if other = .ofClass index then (change ⟨block.usesAt (.ofClass index)⟩).uses
      else block.usesAt other := by
  cases other with
  | root => rfl
  | ofClass place =>
    by_cases same : index = place
    · subst same
      simp [usesAt, propertiesAt?, modifyProperties, below]
    · simp [usesAt, propertiesAt?, modifyProperties, same, Ne.symm same]
  | ofState owner place =>
    cases owner with
    | none => rfl
    | some owner =>
      by_cases same : index = owner
      · subst same
        simp [usesAt, propertiesAt?, modifyProperties, statesOf?, below]
      · simp [usesAt, propertiesAt?, modifyProperties, statesOf?, same]

/-- The states of other objects stay as they are. -/
theorem statesOf_modifyState {owner : Option Nat} {states : List State}
    (known : block.statesOf? owner = some states) (index : Nat)
    (change : PropertyUses → PropertyUses) (other : Option Nat) :
    (block.modifyProperties (.ofState owner index) change).statesOf? other =
      if other = owner then some (modifyState states index change) else block.statesOf? other := by
  cases owner with
  | none =>
    cases known
    cases other <;> rfl
  | some owner =>
    obtain ⟨entry, placed, rfl⟩ := Option.map_eq_some_iff.mp known
    cases other with
    | none => rfl
    | some place =>
      by_cases same : owner = place
      · subst same
        simp [modifyProperties, statesOf?, placed]
      · simp [modifyProperties, statesOf?, same, Ne.symm same]

theorem usesAt_modifyState {owner : Option Nat} {states : List State} {index : Nat}
    (known : block.statesOf? owner = some states) (below : index < states.length)
    (change : PropertyUses → PropertyUses) (other : ObjectKey) :
    (block.modifyProperties (.ofState owner index) change).usesAt other =
      if other = .ofState owner index then (change ⟨block.usesAt (.ofState owner index)⟩).uses
      else block.usesAt other := by
  cases other with
  | root => cases owner <;> rfl
  | ofClass place =>
    cases owner with
    | none => rfl
    | some owner =>
      by_cases same : owner = place
      · subst same
        simp [usesAt, propertiesAt?, modifyProperties, Option.map_map, Function.comp_def]
      · simp [usesAt, propertiesAt?, modifyProperties, same]
  | ofState other place =>
    rw [usesAt_ofState, usesAt_ofState, usesAt_ofState, statesOf_modifyState known]
    by_cases same : other = owner
    · subst same
      rw [if_pos rfl, known, Option.getD_some, Option.getD_some, stateUses_modifyState below]
      simp only [ObjectKey.ofState.injEq, true_and]
    · rw [if_neg same, if_neg]
      intro keys
      exact same (ObjectKey.ofState.inj keys).1

/-- A change of the properties of one object. -/
theorem usesAt_modifyProperties {key : ObjectKey} (has : block.contains key = true)
    (change : PropertyUses → PropertyUses) (other : ObjectKey) :
    (block.modifyProperties key change).usesAt other =
      if other = key then (change ⟨block.usesAt key⟩).uses else block.usesAt other := by
  cases key with
  | root => cases other <;> rfl
  | ofClass index => exact usesAt_modifyClass (by simpa [contains] using has) change other
  | ofState owner index =>
    obtain ⟨state, found⟩ := Option.isSome_iff_exists.mp has
    obtain ⟨states, known, placed⟩ := Option.bind_eq_some_iff.mp found
    exact usesAt_modifyState known (List.getElem?_eq_some_iff.mp placed).1 change other

end Block

namespace Legality

open Block (SameUses)

variable {selector : Selector} {graph : Graph}

/-- Registering objects records no properties. -/
theorem sameUses_readNode {reading after : Block × ObjectParts} {node : SimpleSelector}
    (has : reading.1.HasOwner reading.2.owner)
    (read : readNode selector reading node = .ok after) : reading.1.SameUses after.1 := by
  obtain ⟨block, parts⟩ := reading
  obtain ⟨next, others⟩ := after
  unfold readNode at read
  dsimp only at read
  split at read
  · next name =>
    rw [block_of_readClass read]
    dsimp only
    split
    · exact .refl block
    · exact block.sameUses_ensureClass name
  · split at read
    · split at read
      · next name _ =>
        rw [block_of_readState read]
        exact Block.sameUses_ensureState has name
      · cases read
    · cases read
      exact .refl block
  · cases read
    exact .refl block

theorem sameUses_classifyCompound {block after : Block} {compound : Compound}
    {object : CompoundObject}
    (classified : classifyCompound graph selector block compound = .ok (after, object)) :
    block.SameUses after := by
  obtain ⟨_, -, classified⟩ := bind_eq_ok_iff.mp classified
  dsimp only at classified
  split at classified
  · obtain ⟨_, -, classified⟩ := bind_eq_ok_iff.mp classified
    cases classified
    exact .refl block
  · obtain ⟨⟨next, parts⟩, folded, classified⟩ := bind_eq_ok_iff.mp classified
    have kept : block.SameUses next ∧ ∃ seen className state,
        HasRead block seen className state next parts :=
      foldlM_keeps (fun reading => block.SameUses reading.1 ∧ ∃ seen className state,
          HasRead block seen className state reading.1 reading.2)
        (fun _ known read => by
          obtain ⟨same, _, _, _, known⟩ := known
          obtain ⟨className, state, next⟩ := known.readNode read
          exact ⟨same.trans (sameUses_readNode known.hasOwner read), _, className, state, next⟩)
        ⟨.refl block, [], none, none, .nil block⟩ folded
    dsimp only at classified
    split at classified <;> cases classified
    exact kept.1

theorem sameUses_classifyAll {block after : Block}
    {compounds : List (Option Combinator × Compound)}
    {objects : List (Option Combinator × CompoundObject)}
    (classified : classifyAll graph selector block compounds = .ok (after, objects)) :
    block.SameUses after := by
  induction compounds generalizing block objects with
  | nil =>
    cases classified
    exact .refl _
  | cons entry rest ih =>
    obtain ⟨combinator, compound⟩ := entry
    unfold classifyAll at classified
    dsimp only at classified
    split at classified
    · cases classified
    · obtain ⟨⟨next, object⟩, first, classified⟩ := bind_eq_ok_iff.mp classified
      obtain ⟨⟨last, others⟩, later, classified⟩ := bind_eq_ok_iff.mp classified
      cases classified
      exact (sameUses_classifyCompound first).trans (ih later)

theorem sameUses_classify {block after : Block} {key : Option ObjectKey}
    (classified : classify graph block selector = .ok (after, key)) : block.SameUses after := by
  obtain ⟨objects, all, _⟩ := classify_eq_ok classified
  exact sameUses_classifyAll all

/-- The object of a key is one of the block. -/
theorem contains_of_classify {block after : Block} {key : ObjectKey}
    (classified : classify graph block selector = .ok (after, some key)) :
    after.contains key = true := by
  obtain ⟨objects, all, last⟩ := classify_eq_ok classified
  obtain ⟨combinator, isKey⟩ := selector.getLast_compounds
  obtain ⟨⟨_, object⟩, isLast, _, _, _, found⟩ :=
    forall₂_getLast (areRead_classifyAll all).each isKey
  obtain ⟨_, isOwn⟩ := (last key).mp rfl
  cases isLast.symm.trans isOwn
  cases found with
  | own _ _ _ found => exact Block.contains_of_findOwn found

end Legality

/-- Whether a rule declares a property for a selector: it stands in the rule, configures no block,
and is used under the pseudo-element of the selector. -/
def Rule.DeclaresFor (rule : Rule) (selector : Selector) (use : PropertyUse) : Prop :=
  use.pseudo = selector.pseudoName? ∧
    ∃ declaration ∈ rule.declarations, isBookkeeping declaration.property = false ∧
      declaration.property = use.property

theorem PropertyUses.mem_foldl_add {container : PropertyUses} {properties : List String}
    {pseudo : Option String} {use : PropertyUse} :
    use ∈ (properties.foldl (fun uses property => uses.add property pseudo) container).uses ↔
      use ∈ container.uses ∨ use.pseudo = pseudo ∧ use.property ∈ properties := by
  induction properties generalizing container with
  | nil => simp
  | cons property rest ih =>
    have here : use = ⟨pseudo, property⟩ ↔ use.pseudo = pseudo ∧ use.property = property := by
      cases use
      simp
    rw [List.foldl_cons, ih, add, Text.mem_insertOrdered, here, List.mem_cons]
    tauto

namespace Draft

variable {graph : Graph} {rule : Rule}

/-- Recording a selector adds what its rule declares for it to the object of its key. -/
theorem mem_usesAt_addSelector {block after : Block} {selector : Selector}
    (added : addSelector graph rule block selector = .ok after) (key : ObjectKey)
    (use : PropertyUse) :
    use ∈ after.usesAt key ↔ use ∈ block.usesAt key ∨
      (∃ read, Legality.classify graph block selector = .ok (read, some key)) ∧
        rule.DeclaresFor selector use := by
  unfold addSelector at added
  split at added
  · cases added
  · next read classified =>
    cases added
    rw [Legality.sameUses_classify classified key]
    simp [classified]
  · next read own classified =>
    cases added
    have same := Legality.sameUses_classify classified
    rw [Block.usesAt_modifyProperties (Legality.contains_of_classify classified)]
    by_cases isOwn : key = own
    · subst isOwn
      rw [if_pos rfl, PropertyUses.mem_foldl_add, same key]
      have declares : use.pseudo = selector.pseudoName? ∧ use.property ∈
          (rule.declarations.filter fun declaration => !isBookkeeping declaration.property).map
            Declaration.property ↔ rule.DeclaresFor selector use := by
        simp only [Rule.DeclaresFor, List.mem_map, List.mem_filter, Bool.not_eq_true', and_assoc]
      rw [declares]
      exact or_congr_right ⟨fun declares => ⟨⟨read, classified⟩, declares⟩, And.right⟩
    · rw [if_neg isOwn, same key]
      refine ⟨.inl, fun either => either.elim id fun ⟨⟨_, again⟩, _⟩ => ?_⟩
      cases classified.symm.trans again
      exact absurd rfl isOwn

/-- Recording the selectors of a rule adds what the rule declares for each of them. -/
theorem mem_usesAt_addSelectors {block after : Block} {selectors : List Selector}
    (added : selectors.foldlM (addSelector graph rule) block = .ok after) (key : ObjectKey)
    (use : PropertyUse) :
    use ∈ after.usesAt key ↔ use ∈ block.usesAt key ∨ ∃ earlier selector later stage,
      selectors = earlier ++ selector :: later ∧
        earlier.foldlM (addSelector graph rule) block = .ok stage ∧
        (∃ read, Legality.classify graph stage selector = .ok (read, some key)) ∧
        rule.DeclaresFor selector use := by
  induction selectors generalizing block with
  | nil =>
    cases added
    refine ⟨.inl, fun either => either.elim id ?_⟩
    rintro ⟨earlier, _, _, _, split, _⟩
    cases earlier <;> cases split
  | cons first rest ih =>
    rw [List.foldlM_cons] at added
    obtain ⟨next, one, added⟩ := bind_eq_ok_iff.mp added
    rw [ih added, mem_usesAt_addSelector one, or_assoc]
    refine or_congr_right ⟨?_, ?_⟩
    · rintro (⟨classified, declares⟩ | ⟨earlier, selector, later, stage, rfl, reached, found⟩)
      · exact ⟨[], first, rest, block, rfl, rfl, classified, declares⟩
      · refine ⟨first :: earlier, selector, later, stage, rfl, ?_, found⟩
        rw [List.foldlM_cons]
        exact bind_eq_ok_iff.mpr ⟨next, one, reached⟩
    · rintro ⟨earlier, selector, later, stage, split, reached, found⟩
      cases earlier with
      | nil =>
        cases split
        cases reached
        exact .inl found
      | cons _ earlier =>
        obtain ⟨rfl, rfl⟩ := List.cons.inj split
        rw [List.foldlM_cons] at reached
        obtain ⟨next', one', reached⟩ := bind_eq_ok_iff.mp reached
        cases one.symm.trans one'
        exact .inr ⟨earlier, selector, later, stage, rfl, reached, found⟩

/-- Recording the rules of a sheet adds what they declare for the selectors it comes to. -/
theorem mem_usesAt_addRules {draft last : Draft} {rules : List Rule}
    (added : rules.foldlM (addRule graph) draft = .ok last) (key : ObjectKey) (use : PropertyUse) :
    use ∈ last.block.usesAt key ↔ use ∈ draft.block.usesAt key ∨ ∃ rule selector stage,
      ComesTo graph rule selector stage draft rules ∧
        (∃ read, Legality.classify graph stage selector = .ok (read, some key)) ∧
        rule.DeclaresFor selector use := by
  induction rules generalizing draft with
  | nil =>
    cases added
    refine ⟨.inl, fun either => either.elim id ?_⟩
    rintro ⟨_, _, _, comes, _⟩
    cases comes
  | cons first rest ih =>
    rw [List.foldlM_cons] at added
    obtain ⟨next, one, added⟩ := bind_eq_ok_iff.mp added
    rw [ih added, mem_usesAt_addSelectors (addRule_eq_ok one), or_assoc]
    refine or_congr_right ⟨?_, ?_⟩
    · rintro (⟨earlier, selector, later, stage, split, reached, found⟩ |
        ⟨rule, selector, stage, comes, found⟩)
      · exact ⟨first, selector, stage, .here split reached, found⟩
      · exact ⟨rule, selector, stage, .later one comes, found⟩
    · rintro ⟨rule, selector, stage, comes, found⟩
      cases comes with
      | here split reached => exact .inl ⟨_, selector, _, stage, split, reached, found⟩
      | later one' comes =>
        cases one.symm.trans one'
        exact .inr ⟨rule, selector, stage, comes, found⟩

theorem ComesTo.mem {draft : Draft} {rules : List Rule} {selector : Selector} {stage : Block}
    (comes : ComesTo graph rule selector stage draft rules) :
    rule ∈ rules ∧ selector ∈ draft.block.selectorsOf rule.head.id := by
  induction comes with
  | here split reached =>
    refine ⟨List.mem_cons_self, ?_⟩
    rw [split]
    exact List.mem_append_right _ List.mem_cons_self
  | @later draft next first rest one comes ih =>
    obtain ⟨member, written⟩ := ih
    have kept : next.block.selectorsOf = draft.block.selectorsOf := by
      unfold Block.selectorsOf
      rw [(sameSource_addRule one).selectors]
    exact ⟨List.mem_cons_of_mem first member, kept ▸ written⟩

/-- What comes before the rules of a sheet records no properties. -/
theorem sameUses_prepare {draft prepared : Draft} {defaultName : FileId → String}
    {links : List (Link × BlockId)}
    (done : draft.prepare graph defaultName links = .ok prepared) :
    draft.block.SameUses prepared.block := by
  obtain ⟨linked, folded, done⟩ := bind_eq_ok_iff.mp done
  have same := foldlM_keeps (fun next => draft.block.SameUses next.block)
    (fun {_ link _} _ known added => by
      unfold addLink at added
      dsimp only at added
      split at added
      · cases added
      · cases added
        exact known.trans fun key => by cases key <;> rfl) (.refl draft.block) folded
  obtain ⟨extended, folded, done⟩ := bind_eq_ok_iff.mp done
  have same := foldlM_keeps draft.block.SameUses (fun _ known added => by
    unfold addExtension at added
    dsimp only at added
    split at added
    · cases added
    · obtain ⟨base, -, added⟩ := bind_eq_ok_iff.mp added
      cases added
      exact known.trans fun key => by cases key <;> rfl) same folded
  obtain ⟨implementing, folded, done⟩ := bind_eq_ok_iff.mp done
  have same := foldlM_keeps draft.block.SameUses (fun _ known added =>
    foldlM_keeps draft.block.SameUses (fun {block _ _} _ known added => by
      obtain ⟨id, -, added⟩ := bind_eq_ok_iff.mp added
      cases added
      unfold Block.addImplemented
      split
      · exact known
      · exact known.trans fun key => by cases key <;> rfl) known added) same folded
  cases done
  exact same

theorem usesAt_ofSheet {sheet : Sheet} {identifier : FileId} {debugIdentifier defaultName : String}
    {draft : Draft} (drafted : ofSheet sheet identifier debugIdentifier defaultName = .ok draft)
    (key : ObjectKey) : draft.block.usesAt key = [] := by
  obtain ⟨selectors, -, drafted⟩ := bind_eq_ok_iff.mp drafted
  obtain ⟨name, -, drafted⟩ := bind_eq_ok_iff.mp drafted
  cases drafted
  cases key with
  | root => rfl
  | ofClass index => rfl
  | ofState owner index => cases owner <;> rfl

end Draft

theorem Block.sameUses_named {body block : Block} {dependencies : List String} {name : String}
    (named : (body.addDependencies dependencies).setName name = .ok block) :
    body.SameUses block := by
  unfold setName at named
  split at named
  · cases named
  · cases named
    exact fun key => by cases key <;> rfl

namespace Block.Loading

variable {block : Block}

theorem ComesTo.mem {loading : block.Loading} {rule : Rule} {selector : Selector} {stage : Block}
    (comes : loading.ComesTo rule selector stage) :
    rule ∈ block.sheet.styleRules ∧ selector ∈ block.selectorsOf rule.head.id := by
  obtain ⟨prepared, last, done, _, _, source, _⟩ := loading.rules
  obtain ⟨prepared', done', comes⟩ := comes
  cases done.symm.trans done'
  obtain ⟨member, written⟩ := comes.mem
  have kept : block.selectorsOf = prepared.block.selectorsOf := by
    unfold selectorsOf
    rw [source.selectors]
  exact ⟨source.sheet ▸ member, kept ▸ written⟩

/-- An object of a loaded block has the properties that the rules with a selector for it declare,
and no others. -/
theorem mem_usesAt_iff (loading : block.Loading) (key : ObjectKey) (use : PropertyUse) :
    use ∈ block.usesAt key ↔ ∃ rule ∈ block.sheet.styleRules,
      ∃ selector ∈ block.selectorsOf rule.head.id,
        loading.KeyOf rule selector (some key) ∧ rule.DeclaresFor selector use := by
  obtain ⟨prepared, last, done, added, same⟩ := Draft.complete_eq_ok_iff.mp loading.completed
  have finished : last.block.SameUses block := same ▸ sameUses_named loading.named
  have empty : prepared.block.usesAt key = [] :=
    (Draft.sameUses_prepare done key).trans (Draft.usesAt_ofSheet loading.drafted key)
  rw [finished key, Draft.mem_usesAt_addRules added, empty]
  constructor
  · rintro (nowhere | ⟨rule, selector, stage, comes, ⟨read, classified⟩, declares⟩)
    · cases nowhere
    · have here : loading.ComesTo rule selector stage := ⟨prepared, done, comes⟩
      obtain ⟨member, written⟩ := here.mem
      exact ⟨rule, member, selector, written, ⟨stage, read, here, classified⟩, declares⟩
  · rintro ⟨rule, _, selector, _, ⟨stage, read, comes, classified⟩, declares⟩
    obtain ⟨prepared', done', comes⟩ := comes
    cases done.symm.trans done'
    exact .inr ⟨rule, selector, stage, comes, ⟨read, classified⟩, declares⟩

end Block.Loading

end StyleBlock
