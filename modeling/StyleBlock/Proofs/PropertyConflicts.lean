import Mathlib
import StyleBlock.Property.Uses
import StyleBlock.Proofs.OrderedLists

/-!
Which properties conflict. The worklist finds exactly what a property sets along the table of
shorthands, two properties conflict exactly when they set one in common, and a container conflicts
with another one in exactly those of its properties that set one in common with a property that the
other has for the same pseudo-element.
-/

namespace StyleBlock

/-- Whether the table lists a property under a shorthand. -/
def Lists (shorthand property : String) : Prop :=
  ∃ longhands, (shorthand, longhands) ∈ shorthands ∧ property ∈ longhands

/-- Whether setting a property sets another one: itself, what its shorthand lists, and so on. -/
def Sets : String → String → Prop :=
  Relation.ReflTransGen Lists

/-- Whether there is a property that both properties set. -/
def SetInCommon (left right : String) : Prop :=
  ∃ property, Sets left property ∧ Sets right property

theorem SetInCommon.symm {left right : String} (common : SetInCommon left right) :
    SetInCommon right left :=
  common.imp fun _ sets => sets.symm

/-! The worklist -/

/-- No shorthand has two entries in the table. -/
theorem nodup_shorthands : (shorthands.map Prod.fst).Nodup := by
  decide +kernel

theorem longhands_eq_some_iff {shorthand : String} {longhands : List String} :
    longhands? shorthand = some longhands ↔ (shorthand, longhands) ∈ shorthands :=
  Text.find?_key_eq_some_iff nodup_shorthands

theorem lists_iff {shorthand property : String} :
    Lists shorthand property ↔
      ∃ longhands, longhands? shorthand = some longhands ∧ property ∈ longhands := by
  simp only [Lists, longhands_eq_some_iff]

/-- What expanding some pending properties adds to those that are expanded already. -/
structure Expands (pending expanded result : List String) : Prop where
  kept : ∀ property ∈ expanded, property ∈ result
  reached : ∀ property ∈ pending, property ∈ result
  closed : ∀ property ∈ result, property ∉ expanded → ∀ longhand, Lists property longhand →
    longhand ∈ result
  sound : ∀ property ∈ result, property ∈ expanded ∨ ∃ start ∈ pending, Sets start property

/-- Expanding one more property: with its longhands pending, the others expand as before. -/
theorem Expands.of_next {property : String} {longhands rest expanded result : List String}
    (listed : ∀ longhand, Lists property longhand ↔ longhand ∈ longhands)
    (expands : Expands (longhands ++ rest)
      (Text.insertOrdered Text.lessText property expanded) result) :
    Expands (property :: rest) expanded result := by
  have own : property ∈ result := expands.kept property (by simp)
  refine ⟨?_, ?_, ?_, ?_⟩
  · intro other member
    exact expands.kept other (Text.mem_insertOrdered.mpr (.inr member))
  · intro other member
    rcases List.mem_cons.mp member with rfl | later
    · exact own
    · exact expands.reached other (List.mem_append_right _ later)
  · intro other member outside longhand lists
    by_cases same : other = property
    · subst same
      exact expands.reached longhand (List.mem_append_left _ ((listed longhand).mp lists))
    · exact expands.closed other member (by simp [same, outside]) longhand lists
  · intro other member
    rcases expands.sound other member with old | ⟨start, pending, sets⟩
    · rcases Text.mem_insertOrdered.mp old with rfl | old
      · exact .inr ⟨other, List.mem_cons_self .., .refl⟩
      · exact .inl old
    · rcases List.mem_append.mp pending with longhand | later
      · exact .inr ⟨property, List.mem_cons_self .., .head ((listed start).mpr longhand) sets⟩
      · exact .inr ⟨start, List.mem_cons_of_mem _ later, sets⟩

theorem expands_expandPending (pending expanded : List String) :
    Expands pending expanded (expandPending pending expanded) := by
  fun_induction expandPending pending expanded with
  | case1 expanded =>
    exact ⟨fun _ member => member, nofun, fun _ member outside => absurd member outside,
      fun _ member => .inl member⟩
  | case2 expanded property rest known ih =>
    refine ⟨ih.kept, ?_, ih.closed, ?_⟩
    · intro other member
      rcases List.mem_cons.mp member with rfl | later
      · exact ih.kept other known
      · exact ih.reached other later
    · intro other member
      refine (ih.sound other member).imp_right ?_
      rintro ⟨start, later, sets⟩
      exact ⟨start, List.mem_cons_of_mem _ later, sets⟩
  | case3 expanded property rest outside plain ih =>
    have listed : ∀ longhand, Lists property longhand ↔ longhand ∈ [] := by
      simp [lists_iff, plain]
    exact Expands.of_next listed ih
  | case4 expanded property rest outside longhands found ih =>
    refine ih.of_next fun longhand => ?_
    simp [lists_iff, found]

/-- The worklist ends with what the property sets. -/
theorem mem_expandProperty_iff {property other : String} :
    other ∈ expandProperty property ↔ Sets property other := by
  have expands := expands_expandPending [property] []
  constructor
  · intro member
    rcases expands.sound other member with old | ⟨start, pending, sets⟩
    · cases old
    · rwa [List.mem_singleton.mp pending] at sets
  · intro sets
    induction sets with
    | refl => exact expands.reached property (List.mem_singleton_self _)
    | tail _ lists ih => exact expands.closed _ ih List.not_mem_nil _ lists

theorem isOrdered_expandPending {pending expanded : List String}
    (ordered : Text.IsOrdered Text.lessText expanded) :
    Text.IsOrdered Text.lessText (expandPending pending expanded) := by
  fun_induction expandPending pending expanded with
  | case1 => exact ordered
  | case2 _ _ _ _ ih => exact ih ordered
  | case3 _ _ _ _ _ ih => exact ih (ordered.insert Text.isStrict_lessText _)
  | case4 _ _ _ _ _ _ ih => exact ih (ordered.insert Text.isStrict_lessText _)

theorem propertiesConflict_iff {left right : String} :
    propertiesConflict left right = true ↔ SetInCommon left right := by
  simp only [propertiesConflict, SetInCommon, Bool.or_eq_true, decide_eq_true_eq, List.any_eq_true,
    List.contains_iff_mem, mem_expandProperty_iff]
  constructor
  · rintro (rfl | common)
    · exact ⟨left, .refl, .refl⟩
    · exact common
  · exact .inr

/-! Containers -/

theorem PropertyUse.isStrict_less : Text.IsStrict PropertyUse.less where
  irrefl use := by simp [less, Text.isStrict_lessText.irrefl, Text.isStrict_lessText?.irrefl]
  trans {first second third} before after := by
    simp only [less, Bool.or_eq_true, Bool.and_eq_true, decide_eq_true_eq] at before after ⊢
    rcases before with before | ⟨same, before⟩
    · rcases after with after | ⟨same', -⟩
      · exact .inl (Text.isStrict_lessText?.trans before after)
      · exact .inl (same' ▸ before)
    · rcases after with after | ⟨same', after⟩
      · exact .inl (same ▸ after)
      · exact .inr ⟨same.trans same', Text.isStrict_lessText.trans before after⟩
  connected {first second} different notBefore := by
    simp only [less, Bool.or_eq_false_iff, Bool.and_eq_false_iff,
      decide_eq_false_iff_not] at notBefore
    obtain ⟨notPseudo, notProperty⟩ := notBefore
    by_cases same : first.pseudo = second.pseudo
    · have apart : first.property ≠ second.property := fun equal =>
        different (by cases first; cases second; simp_all)
      have after := Text.isStrict_lessText.connected apart
        (notProperty.resolve_left (by simp [same]))
      simp [less, same, after]
    · simp [less, Text.isStrict_lessText?.connected same notPseudo]

namespace PropertyUses

variable {mine theirs : PropertyUses} {pseudo : Option String} {property : String}

theorem mem_under_iff : property ∈ mine.under pseudo ↔ ⟨pseudo, property⟩ ∈ mine.uses := by
  simp only [under, List.mem_map, List.mem_filter, decide_eq_true_eq]
  constructor
  · rintro ⟨use, ⟨member, rfl⟩, rfl⟩
    exact member
  · intro member
    exact ⟨⟨pseudo, property⟩, ⟨member, rfl⟩, rfl⟩

/-- Adding a property under a pseudo-element adds this use and no other. -/
theorem mem_add_iff {added : String} {addedPseudo : Option String} {use : PropertyUse} :
    use ∈ (mine.add added addedPseudo).uses ↔ use = ⟨addedPseudo, added⟩ ∨ use ∈ mine.uses :=
  Text.mem_insertOrdered

theorem isOrdered_add {other : String} {otherPseudo : Option String}
    (ordered : Text.IsOrdered PropertyUse.less mine.uses) :
    Text.IsOrdered PropertyUse.less (mine.add other otherPseudo).uses :=
  ordered.insert PropertyUse.isStrict_less _

theorem isOrdered_under (ordered : Text.IsOrdered PropertyUse.less mine.uses) :
    Text.IsOrdered Text.lessText (mine.under pseudo) := by
  refine List.pairwise_map.mpr ((ordered.filter _).imp_of_mem ?_)
  intro first second isFirst isSecond before
  obtain rfl : first.pseudo = pseudo := by simpa using (List.mem_filter.mp isFirst).2
  have same : second.pseudo = first.pseudo := by simpa using (List.mem_filter.mp isSecond).2
  simpa [PropertyUse.less, same, Text.isStrict_lessText?.irrefl] using before

theorem mem_conflicts_iff :
    property ∈ mine.conflicts theirs pseudo ↔ ⟨pseudo, property⟩ ∈ mine.uses ∧
      ∃ other, ⟨pseudo, other⟩ ∈ theirs.uses ∧ SetInCommon property other := by
  simp only [conflicts, List.mem_filter, List.any_eq_true, propertiesConflict_iff, mem_under_iff]

/-- Conflicts are mutual. -/
theorem conflicts_eq_nil_of_eq_nil (none : mine.conflicts theirs pseudo = []) :
    theirs.conflicts mine pseudo = [] := by
  rw [List.eq_nil_iff_forall_not_mem] at none ⊢
  intro property member
  obtain ⟨declared, other, declared', common⟩ := mem_conflicts_iff.mp member
  exact none other (mem_conflicts_iff.mpr ⟨declared', property, declared, common.symm⟩)

/-- More properties on either side bring no fewer conflicts. -/
theorem conflicts_subset {more others : PropertyUses} (mineKept : mine.uses ⊆ more.uses)
    (theirsKept : theirs.uses ⊆ others.uses) :
    mine.conflicts theirs pseudo ⊆ more.conflicts others pseudo := by
  intro property member
  obtain ⟨declared, other, declared', common⟩ := mem_conflicts_iff.mp member
  exact mem_conflicts_iff.mpr ⟨mineKept declared, other, theirsKept declared', common⟩

/-- A property expands to all that it sets along the table of shorthands, and two properties
conflict if and only if they set one in common. The properties that a container has under a
pseudo-element are those of its uses there, and its conflicts with another container are those of
them that conflict with one the other has there, in order. Conflicts are mutual. Adding a property
adds its use, keeps a container in order, and takes no conflict away. -/
theorem conflicts_exact :
    (∀ property other, other ∈ expandProperty property ↔ Sets property other) ∧
      (∀ property, Text.IsOrdered Text.lessText (expandProperty property)) ∧
      (∀ left right, propertiesConflict left right = true ↔ SetInCommon left right) ∧
      ∀ (mine theirs : PropertyUses) (pseudo : Option String),
        (∀ property, property ∈ mine.under pseudo ↔ ⟨pseudo, property⟩ ∈ mine.uses) ∧
        (∀ property, property ∈ mine.conflicts theirs pseudo ↔ ⟨pseudo, property⟩ ∈ mine.uses ∧
          ∃ other, ⟨pseudo, other⟩ ∈ theirs.uses ∧ SetInCommon property other) ∧
        (Text.IsOrdered PropertyUse.less mine.uses →
          Text.IsOrdered Text.lessText (mine.conflicts theirs pseudo)) ∧
        (mine.conflicts theirs pseudo = [] ↔ theirs.conflicts mine pseudo = []) ∧
        ∀ added addedPseudo,
          (∀ use, use ∈ (mine.add added addedPseudo).uses ↔
            use = ⟨addedPseudo, added⟩ ∨ use ∈ mine.uses) ∧
          (Text.IsOrdered PropertyUse.less mine.uses →
            Text.IsOrdered PropertyUse.less (mine.add added addedPseudo).uses) ∧
          mine.conflicts theirs pseudo ⊆ (mine.add added addedPseudo).conflicts theirs pseudo ∧
          mine.conflicts theirs pseudo ⊆ mine.conflicts (theirs.add added addedPseudo) pseudo := by
  refine ⟨fun _ _ => mem_expandProperty_iff, fun _ => isOrdered_expandPending List.Pairwise.nil,
    fun _ _ => propertiesConflict_iff, fun mine theirs pseudo => ?_⟩
  have adds : ∀ (container : PropertyUses) added addedPseudo,
      container.uses ⊆ (container.add added addedPseudo).uses :=
    fun container added addedPseudo use member => mem_add_iff.mpr (.inr member)
  refine ⟨fun _ => mem_under_iff, fun _ => mem_conflicts_iff, ?_,
    ⟨conflicts_eq_nil_of_eq_nil, conflicts_eq_nil_of_eq_nil⟩, fun added addedPseudo =>
      ⟨fun _ => mem_add_iff, isOrdered_add, ?_, ?_⟩⟩
  · intro ordered
    exact (isOrdered_under ordered).filter _
  · exact conflicts_subset (adds mine added addedPseudo) (List.Subset.refl _)
  · exact conflicts_subset (List.Subset.refl _) (adds theirs added addedPseudo)

/-- Two shorthands of the border conflict, for each of them sets the width of its upper side. -/
theorem borders_conflict :
    let mine : PropertyUses := ⟨[⟨none, "border-top"⟩, ⟨none, "color"⟩]⟩
    let theirs : PropertyUses := ⟨[⟨none, "border-width"⟩]⟩
    Text.IsOrdered PropertyUse.less mine.uses ∧
      propertiesConflict "border-top" "border-width" = true ∧
      "border-top" ∈ mine.conflicts theirs none ∧
      Text.IsOrdered Text.lessText (mine.conflicts theirs none) ∧
      theirs.conflicts mine none ≠ [] := by
  intro mine theirs
  have ordered : Text.IsOrdered PropertyUse.less mine.uses := by
    unfold Text.IsOrdered
    decide
  have common : SetInCommon "border-top" "border-width" :=
    ⟨"border-top-width", .single (lists_iff.mpr ⟨_, rfl, by decide⟩),
      .single (lists_iff.mpr ⟨_, rfl, by decide⟩)⟩
  obtain ⟨-, -, conflict, containers⟩ := conflicts_exact
  obtain ⟨-, members, inOrder, both, -⟩ := containers mine theirs none
  have found : "border-top" ∈ mine.conflicts theirs none :=
    (members _).mpr ⟨List.mem_cons_self, "border-width", List.mem_singleton_self _, common⟩
  exact ⟨ordered, (conflict _ _).mpr common, found, inOrder ordered,
    fun empty => List.ne_nil_of_mem found (both.mpr empty)⟩

end PropertyUses

end StyleBlock
