import StyleBlock.Proofs.DeclaredProperties
import StyleBlock.Proofs.MarkedReferences
import StyleBlock.Proofs.MarkedRules

/-!
Settling what inheritance marks. In a block that resolves nothing itself every mark meets a rule of
the object that it was made for, so settling cannot fail there but in merging selectors, and the
values of the rule win wherever both rules apply.
-/

namespace StyleBlock

open Conflict

mutual

theorem Node.styleRules_subset (node : Node) : node.styleRules ⊆ node.rules := by
  cases node with
  | rule head nodes => exact List.cons_subset_cons _ (styleRulesIn_subset nodes)
  | group head nodes =>
    rw [Node.styleRules]
    split
    · exact List.nil_subset _
    · exact styleRulesIn_subset nodes
  | statement | declaration | comment => exact List.nil_subset _

theorem styleRulesIn_subset (nodes : List Node) : styleRulesIn nodes ⊆ rulesIn nodes := by
  cases nodes with
  | nil => exact List.nil_subset _
  | cons node rest =>
    exact List.append_subset.mpr
      ⟨List.subset_append_of_subset_left _ node.styleRules_subset,
        List.subset_append_of_subset_right _ (styleRulesIn_subset rest)⟩

end

theorem propertiesConflict_comm (left right : String) :
    propertiesConflict left right = propertiesConflict right left := by
  rw [Bool.eq_iff_iff]
  simp only [propertiesConflict, Bool.or_eq_true, decide_eq_true_eq, List.any_eq_true,
    List.contains_iff_mem]
  refine or_congr eq_comm (exists_congr fun property => and_comm)

/-- A loaded block that resolves nothing itself, and each of whose keys spells its object once. -/
structure Block.IsOrdinary (block : Block) : Prop where
  loaded : block.IsLoaded
  concrete : ∀ rule ∈ block.sheet.rules, ∀ declaration ∈ rule.declarations,
    declaration.isResolution = false
  keys : ∀ rule ∈ block.sheet.styleRules, ∀ selector ∈ block.selectorsOf rule.head.id,
    (∀ name, .type name ∉ selector.key.nodes) → ∃ reference, selector.key.Spells reference

/-- The object that a load found for a key is named by it. -/
theorem Block.Loading.isNamedBy_of_keyOf {block : Block} {loading : block.Loading} {rule : Rule}
    {selector : Selector} {object : BlockObject} (isBlock : object.block = block)
    (keyOf : loading.KeyOf rule selector (some object.key))
    (spelled : (∀ name, .type name ∉ selector.key.nodes) → ∃ reference,
      selector.key.Spells reference) : object.isNamedBy selector.key = true := by
  obtain ⟨noId, notUniversal, found, isFound, isKey⟩ := keyOf.found
  obtain rfl := (isKey object.key).mp rfl
  cases isFound with
  | own noType writes _ found =>
    obtain ⟨reference, spells⟩ := spelled noType
    obtain ⟨unnamed, same⟩ := spells.findOwn_eq noType writes block
    have named := (ObjectReference.inCompound_eq_some_iff noId notUniversal
      spells.noStateFunction).mpr spells
    refine object.isNamedBy_iff.mpr ⟨reference, named, unnamed, ?_⟩
    rw [isBlock, same, found]

/-- What conflicts with an object in the records is declared by one of its rules. -/
theorem Block.IsOrdinary.opposed {graph : Graph} {id : BlockId} {mode : OutputMode} {block : Block}
    {rule : Rule} {selector : Selector} {property : String} {base : BlockObject}
    (ordinary : base.block.IsOrdinary) (listed : selector ∈ block.selectorsOf rule.head.id)
    (conflicts : Inheritance.Conflicts graph id rule selector property base) :
    relevantRules (classSelectors graph id mode block rule.head.id) property base ≠ [] := by
  obtain ⟨object, -, -, conflict, -, -⟩ := conflicts
  obtain ⟨loading⟩ := (Block.isLoaded_iff_loading _).mp ordinary.loaded
  obtain ⟨other, hidden, conflict⟩ : ∃ other, ⟨selector.pseudoName?, other⟩ ∈ base.properties.uses ∧
      propertiesConflict property other = true := by
    obtain ⟨-, met⟩ := List.mem_filter.mp conflict
    obtain ⟨other, under, conflict⟩ := List.any_eq_true.mp met
    obtain ⟨use, used, rfl⟩ := List.mem_map.mp under
    obtain ⟨used, pseudo⟩ := List.mem_filter.mp used
    have pseudo : use.pseudo = selector.pseudoName? := by simpa using pseudo
    exact ⟨use.property, pseudo ▸ used, conflict⟩
  obtain ⟨theirs, style, key, written, keyOf, pseudo, declaration, declared, -, same⟩ :=
    (loading.mem_usesAt_iff base.key ⟨selector.pseudoName?, other⟩).mp hidden
  have named := Loading.isNamedBy_of_keyOf rfl keyOf (ordinary.keys theirs style key written)
  have concrete := ordinary.concrete theirs (styleRulesIn_subset _ style) declaration declared
  refine List.ne_nil_of_mem (List.mem_filter.mpr ⟨style, ?_⟩)
  refine Bool.and_eq_true_iff.mpr ⟨List.any_eq_true.mpr ⟨declaration, declared, ?_⟩,
    List.any_eq_true.mpr ⟨key, written, ?_⟩⟩
  · rw [propertiesConflict_comm, same, conflict, concrete]
    rfl
  · rw [named, Bool.true_and, List.any_eq_true]
    refine ⟨classSelector graph id mode selector, List.mem_map_of_mem listed, ?_⟩
    rw [pseudoName_classSelector]
    simpa using pseudo

/-- Every annotation of a rule marks it for a first conflict, and leads to the object that it was
made for. -/
theorem Block.marks_of_mem_annotationsOf {graph : Graph} {id : BlockId} {block : Block}
    (mode : OutputMode) (stored : graph.block? id = some block) (plain : block.IsPlainlyNamed)
    (ordinary : ∀ other ancestor, Relation.ReflTransGen graph.Extends id other →
      graph.block? other = some ancestor → ancestor.IsOrdinary)
    {rule : Rule} {added : Declaration}
    (member : added ∈ Inheritance.annotationsOf graph id block rule) :
    ∃ extension property base, block.extension = some extension ∧
      Inheritance.ConflictsFirst graph id rule (block.selectorsOf rule.head.id) property base ∧
      added = Inheritance.mark extension.localName rule property base ∧
      Marks (block.context graph mode id) rule added base := by
  unfold Inheritance.annotationsOf at member
  split at member
  · cases member
  · next extension extended =>
    have accounts := Inheritance.accounts_of_selectors graph id extension.localName rule
      (block.selectorsOf rule.head.id)
    obtain ⟨property, base, first, rfl⟩ := (accounts.added added).mp member
    refine ⟨extension, property, base, extended, first, rfl, ?_⟩
    obtain ⟨before, selector, after, split, conflicts, -⟩ := first
    have listed : selector ∈ block.selectorsOf rule.head.id := by
      rw [split]
      exact List.mem_append_right before List.mem_cons_self
    have ⟨object, own, overridden, _, declared, _⟩ := conflicts
    obtain rfl : object.block = block := Graph.block_of_ownObject stored own
    obtain ⟨kept, -⟩ := (ordinary id object.block .refl stored).loaded.keeps
    obtain ⟨above, isBase, found⟩ := Option.bind_eq_some_iff.mp overridden
    have inherits := Graph.resolveLocal_eq_some_iff.mp found
    have step : graph.Extends id above := by
      rw [Graph.Extends, stored, Option.bind_some, isBase]
    have simple : base.block.IsOrdinary :=
      ordinary base.id.block base.block (.head step inherits.reaches) inherits.has.1
    obtain ⟨reads, leads⟩ := Graph.lookup_mark stored kept plain extended overridden
    exact ⟨declared, ⟨_, reads, leads⟩, simple.opposed listed conflicts⟩

/-- What inheritance makes of the sheet of a block: its conflicts are marked, classes take the place
of objects, and the marks are settled. -/
def Block.settleInheritance (graph : Graph) (mode : OutputMode) (id : BlockId) (block : Block) :
    Except Error (List Node × RuleId) :=
  settleNodes (block.context graph mode id) block.sheet.file block.sheet.nextRule
    (nodesWithSelectors (classSelectors graph id mode block)
      (annotateInheritance graph id block block.sheet.nodes))

/-- In a block that resolves nothing itself, and extends only such blocks, inheritance fails in
nothing but merging selectors. Every mark leads to the object that it was made for, and it is
answered: each rule of that object that conflicts has the same values or is met by a generated rule
with those of the marked rule, and there is such a rule. -/
theorem Block.settleInheritance_answers {graph : Graph} {id : BlockId} {block : Block}
    (mode : OutputMode) (stored : graph.block? id = some block) (plain : block.IsPlainlyNamed)
    (ordinary : ∀ other ancestor, Relation.ReflTransGen graph.Extends id other →
      graph.block? other = some ancestor → ancestor.IsOrdinary) :
    (∀ error, block.settleInheritance graph mode id = .error error → IsMergeFault error) ∧
    ∀ rule ∈ block.sheet.rules, ∀ added ∈ Inheritance.annotationsOf graph id block rule,
      ∃ extension property base, block.extension = some extension ∧
        Inheritance.ConflictsFirst graph id rule (block.selectorsOf rule.head.id) property base ∧
        added = Inheritance.mark extension.localName rule property base ∧
        (∃ text, Resolution.parse? added.value = some ⟨text, true⟩ ∧
          graph.lookup? id text = some base) ∧
        ∀ nodes next, block.settleInheritance graph mode id = .ok (nodes, next) →
          AnswersMark (block.context graph mode id) block.sheet.file block.sheet.nextRule nodes
            rule property base := by
  have marked : ∀ rule ∈ block.sheet.rules, IsMarkedBy (block.context graph mode id) rule
      (Inheritance.annotationsOf graph id block rule) := by
    intro rule listed
    refine ⟨fun added member => ?_, (ordinary id block .refl stored).concrete rule listed⟩
    obtain ⟨_, _, base, -, -, -, marks⟩ :=
      marks_of_mem_annotationsOf mode stored plain ordinary member
    exact ⟨base, marks⟩
  have settles : Ends
      (AreAnswered (block.context graph mode id) block.sheet.file block.sheet.nextRule
        (Inheritance.annotationsOf graph id block) block.sheet.rules
        (declarationsIn block.sheet.nodes) block.sheet.nextRule)
      IsMergeFault (block.settleInheritance graph mode id) :=
    settleNodes_marked (Nat.le_refl _) marked
  refine ⟨fun error failed => settles.of_error failed, fun rule listed added member => ?_⟩
  obtain ⟨extension, property, base, extended, first, rfl, marks⟩ :=
    marks_of_mem_annotationsOf mode stored plain ordinary member
  refine ⟨extension, property, base, extended, first, rfl, marks.leads, fun nodes next done => ?_⟩
  exact (settles.of_ok done).answers rule listed _ member base marks

theorem dayBlock_isLoaded : dayBlock.IsLoaded := by
  let draft : Draft := ⟨{ Block.bare "day" "day.css" "day.css" with
    sheet := dayBlock.sheet, selectors := dayBlock.selectors }, [0]⟩
  have read : parseSheet ".root \x7b color: white; \x7d" "day.css" = .ok dayBlock.sheet := by
    with_unfolding_all rfl
  have drafted : Draft.ofSheet dayBlock.sheet "day.css" "day.css" "day" = .ok draft := by
    with_unfolding_all rfl
  have completed : draft.complete ⟨#[none]⟩ id [] = .ok { dayBlock with named := false } := by
    with_unfolding_all rfl
  have named : ({ dayBlock with named := false }.addDependencies []).setName "day" =
      .ok dayBlock := by with_unfolding_all rfl
  exact .intro read drafted completed named

/-- The rule of the night that conflicts with the one of the day. -/
def nightRule : Rule :=
  ⟨⟨0, ".root", ⟨1, 38, 37⟩⟩, [.declaration ⟨"extends", "day", false, ⟨1, 46, 45⟩⟩,
    .declaration ⟨"color", "navy", false, ⟨1, 60, 59⟩⟩]⟩

theorem root_spells_rule : Compound.Spells ⟨[.className "root"], none⟩ ⟨none, some "root", none⟩ :=
  ⟨⟨[], by decide, by decide⟩, by simp, by decide⟩

theorem dayBlock_isOrdinary : dayBlock.IsOrdinary := by
  refine ⟨dayBlock_isLoaded, by decide +kernel, fun rule listed selector written _ => ?_⟩
  obtain rfl := List.mem_singleton.mp listed
  obtain rfl := List.mem_singleton.mp written
  exact ⟨_, root_spells_rule⟩

theorem nightBlock_isOrdinary : nightBlock.IsOrdinary := by
  refine ⟨nightBlock_isLoaded, by decide +kernel, fun rule listed selector written _ => ?_⟩
  obtain rfl := List.mem_singleton.mp listed
  obtain rfl := List.mem_singleton.mp written
  exact ⟨_, root_spells_rule⟩

theorem nightGraph_isOrdinary {other : BlockId} {block : Block}
    (known : nightGraph.block? other = some block) : block.IsOrdinary := by
  obtain ⟨_ | _ | slot⟩ := other
  · cases known
    exact dayBlock_isOrdinary
  · cases known
    exact nightBlock_isOrdinary
  · cases known

theorem nightBlock_isPlainlyNamed : nightBlock.IsPlainlyNamed := by
  refine ⟨?_, ?_⟩
  · rintro _ ⟨⟩
    exact ⟨⟨'d', rfl, by decide⟩, List.all_eq_true.mp (by decide)⟩
  · rintro name member
    cases member

/-- The night is darker than the day: its rule for the color of the root is marked, and a generated
rule keeps the color where the rule of the day applies as well. -/
theorem nightBlock_answers_mark :
    nightGraph.block? ⟨1⟩ = some nightBlock ∧ nightBlock.IsPlainlyNamed ∧
      (∀ other ancestor, Relation.ReflTransGen nightGraph.Extends ⟨1⟩ other →
        nightGraph.block? other = some ancestor → ancestor.IsOrdinary) ∧
      ∃ nodes next, nightBlock.settleInheritance nightGraph .bem ⟨1⟩ = .ok (nodes, next) ∧
        ∃ generated ∈ rulesIn nodes, 1 ≤ generated.head.id ∧
          generated.nodes = [.declaration ⟨"color", "navy", false, ⟨1, 60, 59⟩⟩] := by
  have stored : nightGraph.block? ⟨1⟩ = some nightBlock := rfl
  have ordinary : ∀ other ancestor, Relation.ReflTransGen nightGraph.Extends ⟨1⟩ other →
      nightGraph.block? other = some ancestor → ancestor.IsOrdinary :=
    fun _ _ _ known => nightGraph_isOrdinary known
  refine ⟨stored, nightBlock_isPlainlyNamed, ordinary, ?_⟩
  have works : (nightBlock.settleInheritance nightGraph .bem ⟨1⟩).isOk = true := by decide +kernel
  obtain ⟨-, answers⟩ :=
    Block.settleInheritance_answers .bem stored nightBlock_isPlainlyNamed ordinary
  cases settled : nightBlock.settleInheritance nightGraph .bem ⟨1⟩ with
  | error error =>
    rw [settled] at works
    cases works
  | ok result =>
    obtain ⟨nodes, next⟩ := result
    have listed : nightRule ∈ nightBlock.sheet.rules := List.mem_singleton_self _
    have member : ⟨"color", "resolve-inherited(\"day.root\")", false, ⟨1, 38, 37⟩⟩ ∈
        Inheritance.annotationsOf nightGraph ⟨1⟩ nightBlock nightRule := by decide +kernel
    obtain ⟨extension, property, base, -, -, isMark, ⟨text, reads, leads⟩, answered⟩ :=
      answers nightRule listed _ member
    obtain rfl : property = "color" := (congrArg Declaration.property isMark).symm
    have written : Resolution.parse? "resolve-inherited(\"day.root\")" =
        some ⟨"day.root", true⟩ := by with_unfolding_all rfl
    cases written.symm.trans reads
    have root : nightGraph.lookup? ⟨1⟩ "day.root" = some ⟨⟨⟨0⟩, .root⟩, dayBlock⟩ := by
      with_unfolding_all rfl
    cases root.symm.trans leads
    obtain ⟨opposed, met⟩ := answered nodes next settled
    obtain ⟨other, relevant⟩ := List.exists_mem_of_ne_nil _ opposed
    obtain rfl := List.mem_singleton.mp (List.mem_of_mem_filter relevant)
    obtain ⟨generated, inside, free, same, -⟩ :=
      (met _ relevant).resolve_left (by decide +kernel)
    exact ⟨nodes, next, rfl, generated, inside, free, same.trans (by with_unfolding_all rfl)⟩

end StyleBlock
