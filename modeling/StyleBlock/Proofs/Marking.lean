import StyleBlock.Proofs.Annotations
import StyleBlock.Proofs.Numbering

/-!
Which inherited conflicts are marked. In every rule of a block, a property is marked once for each
pseudo-element: for the first selector whose own object conflicts with the one it overrides. The
objects of later selectors are passed over.
-/

namespace StyleBlock

namespace Inheritance

/-- Whether the key of a selector is an own object that overrides another one, and a property that
the rule declares but does not resolve conflicts between the two. -/
def Conflicts (graph : Graph) (id : BlockId) (rule : Rule) (selector : Selector)
    (property : String) (base : BlockObject) : Prop :=
  ∃ object, graph.ownObject? id selector.key = some object ∧ graph.baseOf? object = some base ∧
    property ∈ object.properties.conflicts base.properties selector.pseudoName? ∧
    property ∈ rule.declarations.map Declaration.property ∧
    property ∉ (rule.declarations.filter Declaration.isResolution).map Declaration.property

/-- Whether the first of the selectors with some pseudo-element that conflicts in a property does so
with the object. -/
def ConflictsFirst (graph : Graph) (id : BlockId) (rule : Rule) (selectors : List Selector)
    (property : String) (base : BlockObject) : Prop :=
  ∃ before selector after, selectors = before ++ selector :: after ∧
    Conflicts graph id rule selector property base ∧
      ∀ other ∈ before, other.pseudoName? = selector.pseudoName? →
        ∀ hidden, ¬ Conflicts graph id rule other property hidden

/-- The declaration that resolves a property of a rule against an object. -/
def mark (baseName : String) (rule : Rule) (property : String) (base : BlockObject) : Declaration :=
  ⟨property, Resolution.inheritedValue (baseName ++ base.source), false, rule.head.place⟩

variable {graph : Graph} {id : BlockId} {rule : Rule} {property : String} {base : BlockObject}

theorem conflictsFirst_append_singleton {selectors : List Selector} {selector : Selector} :
    ConflictsFirst graph id rule (selectors ++ [selector]) property base ↔
      ConflictsFirst graph id rule selectors property base ∨
        Conflicts graph id rule selector property base ∧
          ∀ other ∈ selectors, other.pseudoName? = selector.pseudoName? →
            ∀ hidden, ¬ Conflicts graph id rule other property hidden := by
  constructor
  · rintro ⟨before, first, after, split, conflict, clear⟩
    rcases after.eq_nil_or_concat with rfl | ⟨after, last, rfl⟩
    · obtain ⟨rfl, same⟩ := List.append_inj' split rfl
      cases same
      exact .inr ⟨conflict, clear⟩
    · rw [List.concat_eq_append, ← List.cons_append, ← List.append_assoc] at split
      obtain ⟨rfl, -⟩ := List.append_inj' split rfl
      exact .inl ⟨before, first, after, rfl, conflict, clear⟩
  · rintro (⟨before, first, after, rfl, conflict, clear⟩ | ⟨conflict, clear⟩)
    · exact ⟨before, first, after ++ [selector], by simp, conflict, clear⟩
    · exact ⟨selectors, selector, [], rfl, conflict, clear⟩

/-! One selector -/

variable {pseudo : Option String} {value : String} {annotations : Annotations}

theorem mem_seen_annotate {declaration : Declaration} {use : PropertyUse} :
    use ∈ (annotate pseudo value rule annotations declaration).seen ↔
      use ∈ annotations.seen ∨ use = ⟨pseudo, declaration.property⟩ := by
  unfold annotate
  dsimp only
  split
  · next known =>
    rw [List.contains_iff_mem] at known
    exact ⟨.inl, fun either => either.elim id fun same => same ▸ known⟩
  · split <;> simp [or_comm]

/-- Whether annotations are written as `annotate` writes them. -/
def Annotations.AreMarks (rule : Rule) (annotations : Annotations) : Prop :=
  ∀ declaration ∈ annotations.added,
    declaration.important = false ∧ declaration.place = rule.head.place

theorem mem_added_annotate (marks : annotations.AreMarks rule) {declaration added : Declaration} :
    added ∈ (annotate pseudo value rule annotations declaration).added ↔
      added ∈ annotations.added ∨ ⟨pseudo, declaration.property⟩ ∉ annotations.seen ∧
        added = ⟨declaration.property, value, false, rule.head.place⟩ := by
  unfold annotate
  dsimp only
  split
  · next known =>
    rw [List.contains_iff_mem] at known
    exact ⟨.inl, fun either => either.elim id fun new => absurd known new.1⟩
  · next new =>
    rw [List.contains_iff_mem] at new
    split
    · next same =>
      obtain ⟨⟨_, _, _, _⟩, present, same⟩ := List.any_eq_true.mp same
      simp only [Bool.and_eq_true, decide_eq_true_eq] at same
      obtain ⟨rfl, rfl⟩ := same
      obtain ⟨rfl, rfl⟩ := marks _ present
      exact ⟨.inl, fun either => either.elim id fun ⟨_, same⟩ => same ▸ present⟩
    · simp [new]

theorem nodup_annotate (once : annotations.added.Nodup) (declaration : Declaration) :
    (annotate pseudo value rule annotations declaration).added.Nodup := by
  unfold annotate
  dsimp only
  split
  · exact once
  · split
    · exact once
    · next absent =>
      rw [← List.concat_eq_append]
      exact once.concat fun present => absent (List.any_eq_true.mpr ⟨_, present, by simp⟩)

theorem Annotations.AreMarks.annotate (marks : annotations.AreMarks rule)
    (declaration : Declaration) :
    (annotate pseudo value rule annotations declaration).AreMarks rule := by
  intro added member
  rcases (mem_added_annotate marks).mp member with known | ⟨_, rfl⟩
  · exact marks added known
  · exact ⟨rfl, rfl⟩

/-- The declarations that conflict for one selector are marked as far as they are new. -/
theorem foldl_annotate (pseudo : Option String) (value : String)
    (marks : annotations.AreMarks rule) (once : annotations.added.Nodup)
    (declarations : List Declaration) :
    let after := declarations.foldl (annotate pseudo value rule) annotations
    (∀ use, use ∈ after.seen ↔
      use ∈ annotations.seen ∨
        use.pseudo = pseudo ∧ use.property ∈ declarations.map Declaration.property) ∧
    (∀ added, added ∈ after.added ↔ added ∈ annotations.added ∨
      ∃ property ∈ declarations.map Declaration.property, ⟨pseudo, property⟩ ∉ annotations.seen ∧
        added = ⟨property, value, false, rule.head.place⟩) ∧ after.added.Nodup := by
  induction declarations generalizing annotations with
  | nil => simp [once]
  | cons declaration rest ih =>
    obtain ⟨seen, added, single⟩ :=
      ih (marks.annotate declaration) (nodup_annotate once declaration)
    refine ⟨fun use => ?_, fun other => ?_, single⟩
    · have here : use = ⟨pseudo, declaration.property⟩ ↔
          use.pseudo = pseudo ∧ use.property = declaration.property := by
        cases use
        simp
      rw [List.foldl_cons, seen, mem_seen_annotate, here, List.map_cons, List.mem_cons]
      tauto
    · rw [List.foldl_cons, added, mem_added_annotate marks]
      simp only [mem_seen_annotate, not_or, PropertyUse.mk.injEq, true_and, List.map_cons,
        List.mem_cons, exists_eq_or_imp, or_assoc]
      constructor
      · rintro (known | first | ⟨property, later, ⟨new, _⟩, same⟩)
        · exact .inl known
        · exact .inr (.inl first)
        · exact .inr (.inr ⟨property, later, new, same⟩)
      · rintro (known | first | ⟨property, later, new, same⟩)
        · exact .inl known
        · exact .inr (.inl first)
        · by_cases again : property = declaration.property
          · exact .inr (.inl (again ▸ ⟨new, same⟩))
          · exact .inr (.inr ⟨property, later, ⟨new, again⟩, same⟩)

/-! All selectors of a rule -/

/-- What is known about the annotations of a rule when some of its selectors are done. -/
structure Accounts (graph : Graph) (id : BlockId) (baseName : String) (rule : Rule)
    (selectors : List Selector) (annotations : Annotations) : Prop where
  seen : ∀ use, use ∈ annotations.seen ↔ ∃ selector ∈ selectors,
    selector.pseudoName? = use.pseudo ∧ ∃ base, Conflicts graph id rule selector use.property base
  added : ∀ declaration, declaration ∈ annotations.added ↔
    ∃ property base, ConflictsFirst graph id rule selectors property base ∧
      declaration = mark baseName rule property base
  once : annotations.added.Nodup

theorem Accounts.start {baseName : String} : Accounts graph id baseName rule [] ⟨[], []⟩ where
  seen := by simp
  added declaration := by
    refine ⟨nofun, ?_⟩
    rintro ⟨_, _, ⟨before, _, _, split, _⟩, _⟩
    cases before <;> cases split
  once := List.nodup_nil

/-- A selector whose object overrides nothing changes nothing. -/
theorem Accounts.skip {baseName : String} {selectors : List Selector} {selector : Selector}
    (accounts : Accounts graph id baseName rule selectors annotations)
    (none : ∀ property base, ¬ Conflicts graph id rule selector property base) :
    Accounts graph id baseName rule (selectors ++ [selector]) annotations where
  seen use := by
    rw [accounts.seen]
    constructor
    · rintro ⟨other, present, conflicts⟩
      exact ⟨other, List.mem_append_left _ present, conflicts⟩
    · rintro ⟨other, present, same, base, conflict⟩
      rcases List.mem_append.mp present with present | last
      · exact ⟨other, present, same, base, conflict⟩
      · rw [List.mem_singleton.mp last] at conflict
        exact absurd conflict (none use.property base)
  added declaration := by
    rw [accounts.added]
    simp only [conflictsFirst_append_singleton, none, false_and, or_false]
  once := accounts.once

/-- A selector whose object overrides another one adds what conflicts first. -/
theorem Accounts.next {baseName : String} {selectors : List Selector} {selector : Selector}
    (accounts : Accounts graph id baseName rule selectors annotations)
    {declarations : List Declaration}
    (conflicts : ∀ property hidden, Conflicts graph id rule selector property hidden ↔
      property ∈ declarations.map Declaration.property ∧ hidden = base) :
    Accounts graph id baseName rule (selectors ++ [selector])
      (declarations.foldl (annotate selector.pseudoName?
        (Resolution.inheritedValue (baseName ++ base.source)) rule) annotations) := by
  have marks : annotations.AreMarks rule := by
    intro declaration present
    obtain ⟨_, _, _, rfl⟩ := (accounts.added declaration).mp present
    exact ⟨rfl, rfl⟩
  have new : ∀ property, ⟨selector.pseudoName?, property⟩ ∉ annotations.seen ↔
      ∀ other ∈ selectors, other.pseudoName? = selector.pseudoName? →
        ∀ hidden, ¬ Conflicts graph id rule other property hidden := by
    intro property
    rw [accounts.seen]
    simp only [not_exists, not_and]
  obtain ⟨seen, added, once⟩ := foldl_annotate selector.pseudoName?
    (Resolution.inheritedValue (baseName ++ base.source)) marks accounts.once declarations
  refine ⟨fun use => ?_, fun declaration => ?_, once⟩
  · rw [seen, accounts.seen]
    constructor
    · rintro (⟨other, present, conflicts⟩ | ⟨same, declared⟩)
      · exact ⟨other, List.mem_append_left _ present, conflicts⟩
      · exact ⟨selector, List.mem_append_right _ (List.mem_singleton_self _), same.symm, base,
          (conflicts _ _).mpr ⟨declared, rfl⟩⟩
    · rintro ⟨other, present, same, hidden, conflict⟩
      rcases List.mem_append.mp present with present | last
      · exact .inl ⟨other, present, same, hidden, conflict⟩
      · obtain rfl := List.mem_singleton.mp last
        exact .inr ⟨same.symm, ((conflicts _ _).mp conflict).1⟩
  · rw [added, accounts.added]
    constructor
    · rintro (⟨property, hidden, first, written⟩ | ⟨property, declared, unseen, rfl⟩)
      · exact ⟨property, hidden, conflictsFirst_append_singleton.mpr (.inl first), written⟩
      · exact ⟨property, base, conflictsFirst_append_singleton.mpr
          (.inr ⟨(conflicts _ _).mpr ⟨declared, rfl⟩, (new property).mp unseen⟩), rfl⟩
    · rintro ⟨property, hidden, first, written⟩
      rcases conflictsFirst_append_singleton.mp first with first | ⟨conflict, clear⟩
      · exact .inl ⟨property, hidden, first, written⟩
      · obtain ⟨declared, rfl⟩ := (conflicts _ _).mp conflict
        exact .inr ⟨property, declared, (new property).mpr clear, written⟩

theorem Accounts.annotateSelector {baseName : String} {selectors : List Selector}
    (accounts : Accounts graph id baseName rule selectors annotations) (selector : Selector) :
    Accounts graph id baseName rule (selectors ++ [selector])
      (annotateSelector graph id baseName rule annotations selector) := by
  unfold Inheritance.annotateSelector
  split
  · next absent =>
    apply accounts.skip
    rintro property base ⟨object, own, _⟩
    rw [absent] at own
    cases own
  · next object own =>
    split
    · next absent =>
      apply accounts.skip
      rintro property base ⟨other, own', overridden, _⟩
      cases own.symm.trans own'
      rw [absent] at overridden
      cases overridden
    · next base overridden =>
      dsimp only
      rw [Resolution.inheritedValue_append]
      apply accounts.next
      intro property hidden
      constructor
      · rintro ⟨other, own', overridden', conflict, declared, implicit⟩
        cases own.symm.trans own'
        cases overridden.symm.trans overridden'
        obtain ⟨declaration, present, rfl⟩ := List.mem_map.mp declared
        refine ⟨List.mem_map_of_mem (List.mem_filter.mpr ⟨present, ?_⟩), rfl⟩
        simpa [conflict] using implicit
      · rintro ⟨declared, rfl⟩
        obtain ⟨declaration, present, rfl⟩ := List.mem_map.mp declared
        obtain ⟨present, relevant⟩ := List.mem_filter.mp present
        simp only [Bool.and_eq_true, List.contains_iff_mem, Bool.not_eq_true', ← Bool.not_eq_true]
          at relevant
        exact ⟨object, own, overridden, relevant.1, List.mem_map_of_mem present, relevant.2⟩

/-- The annotations of a rule are one for each first conflict. -/
theorem accounts_of_selectors (graph : Graph) (id : BlockId) (baseName : String) (rule : Rule)
    (selectors : List Selector) :
    Accounts graph id baseName rule selectors
      (selectors.foldl (Inheritance.annotateSelector graph id baseName rule) ⟨[], []⟩) := by
  -- the account is one of a prefix, so the list grows at its end
  induction selectors using List.reverseRecOn with
  | nil => exact .start
  | append_singleton selectors selector ih =>
    rw [List.foldl_append]
    exact ih.annotateSelector selector

end Inheritance

/-! The rules of a sheet -/

mutual

theorem Node.rules_prepend (added : Rule → List Declaration) (node : Node) :
    (node.prepend added).rules = node.rules.map fun rule =>
      ⟨rule.head, (added rule).map Node.declaration ++ prependIn added rule.nodes⟩ := by
  cases node with
  | rule head nodes =>
    simp [Node.prepend, Node.rules, rulesIn_declarations, rulesIn_prependIn added nodes]
  | group head nodes => exact rulesIn_prependIn added nodes
  | statement | declaration | comment => rfl

theorem rulesIn_prependIn (added : Rule → List Declaration) (nodes : List Node) :
    rulesIn (prependIn added nodes) = (rulesIn nodes).map fun rule =>
      ⟨rule.head, (added rule).map Node.declaration ++ prependIn added rule.nodes⟩ := by
  cases nodes with
  | nil => rfl
  | cons node rest =>
    rw [prependIn, rulesIn, rulesIn, List.map_append, node.rules_prepend added,
      rulesIn_prependIn added rest]

end

namespace Inheritance

/-- In a block that extends another one, every rule starts with marks for what conflicts first, each
of them once, and with no other. -/
theorem annotateInheritance_marks {graph : Graph} {id : BlockId} {block : Block}
    {extension : Extension} (extended : block.extension = some extension) (nodes : List Node) :
    ∃ marks : Rule → List Declaration,
      rulesIn (annotateInheritance graph id block nodes) = (rulesIn nodes).map (fun rule =>
        ⟨rule.head,
          (marks rule).map Node.declaration ++ annotateInheritance graph id block rule.nodes⟩) ∧
      ∀ rule, (marks rule).Nodup ∧ ∀ declaration, declaration ∈ marks rule ↔
        ∃ property base,
          ConflictsFirst graph id rule (block.selectorsOf rule.head.id) property base ∧
            declaration = mark extension.localName rule property base := by
  refine ⟨annotationsOf graph id block, rulesIn_prependIn _ nodes, fun rule => ?_⟩
  have accounts := accounts_of_selectors graph id extension.localName rule
    (block.selectorsOf rule.head.id)
  rw [annotationsOf, extended]
  exact ⟨accounts.once, accounts.added⟩

end Inheritance

/-- A block with two classes of one color each. -/
def trayBlock : Block :=
  { Block.bare "tray" "tray.css" "tray.css" with
    named := true
    classes := [⟨"a", [], ⟨[⟨none, "color"⟩]⟩⟩, ⟨"b", [], ⟨[⟨none, "color"⟩]⟩⟩]
    sheet := ⟨"tray.css", [
      .rule ⟨0, ".a", ⟨1, 1, 0⟩⟩ [.declaration ⟨"color", "white", false, ⟨1, 6, 5⟩⟩],
      .rule ⟨1, ".b", ⟨1, 22, 21⟩⟩ [.declaration ⟨"color", "gray", false, ⟨1, 27, 26⟩⟩]], 2⟩
    selectors := [(0, [.ofCompound ⟨[.className "a"], none⟩]),
      (1, [.ofCompound ⟨[.className "b"], none⟩])] }

/-- The rule of a block that sets the color of both classes. -/
def shelfRule : Rule :=
  ⟨⟨1, ".a, .b", ⟨1, 65, 64⟩⟩, [.declaration ⟨"color", "navy", false, ⟨1, 74, 73⟩⟩]⟩

/-- A block that extends the other one and sets the color of both classes in one rule. -/
def shelfBlock : Block :=
  { Block.bare "shelf" "shelf.css" "shelf.css" with
    named := true
    extension := some ⟨⟨0⟩, "tray"⟩
    references := [("tray", ⟨0⟩)]
    classes := [⟨"a", [], ⟨[⟨none, "color"⟩]⟩⟩, ⟨"b", [], ⟨[⟨none, "color"⟩]⟩⟩]
    sheet := ⟨"shelf.css", [.statement ⟨"block-reference", "tray from \"tray.css\"", ⟨1, 1, 0⟩⟩,
      .rule ⟨0, ".root", ⟨1, 40, 39⟩⟩ [.declaration ⟨"extends", "tray", false, ⟨1, 48, 47⟩⟩],
      shelfRule.toNode], 2⟩
    selectors := [(0, [.ofCompound ⟨[.className "root"], none⟩]),
      (1, [.ofCompound ⟨[.className "a"], none⟩, .ofCompound ⟨[.className "b"], none⟩])] }

def shelfGraph : Graph := ⟨#[some trayBlock, some shelfBlock]⟩

theorem shelfBlock_isLoaded : shelfBlock.IsLoaded := by
  let draft : Draft := ⟨{ Block.bare "shelf" "shelf.css" "shelf.css" with
    sheet := shelfBlock.sheet, selectors := shelfBlock.selectors }, [0]⟩
  have read : parseSheet ("@block-reference tray from \"tray.css\"; " ++
      ".root \x7b extends: tray; \x7d .a, .b \x7b color: navy; \x7d") "shelf.css" =
        .ok shelfBlock.sheet := by with_unfolding_all rfl
  have drafted : Draft.ofSheet shelfBlock.sheet "shelf.css" "shelf.css" "shelf" = .ok draft := by
    with_unfolding_all rfl
  have completed : draft.complete ⟨#[some trayBlock, none]⟩ id
      [(⟨⟨some "tray", "tray.css"⟩, "tray.css", ⟨"shelf.css", 1, 1, 0⟩⟩, ⟨0⟩)] =
      .ok { shelfBlock with named := false } := by with_unfolding_all rfl
  have named : ({ shelfBlock with named := false }.addDependencies []).setName "shelf" =
      .ok shelfBlock := by with_unfolding_all rfl
  exact .intro read drafted completed named

/-- Both classes of the rule conflict with those they override, and the second one is not marked. -/
theorem shelfBlock_misses_mark :
    shelfBlock.IsLoaded ∧ shelfRule ∈ rulesIn shelfBlock.sheet.nodes ∧
      ∃ selector ∈ shelfBlock.selectorsOf shelfRule.head.id,
        let base : BlockObject := ⟨⟨⟨0⟩, .ofClass 1⟩, trayBlock⟩
        Inheritance.Conflicts shelfGraph ⟨1⟩ shelfRule selector "color" base ∧
          ∀ rule ∈ rulesIn (annotateInheritance shelfGraph ⟨1⟩ shelfBlock shelfBlock.sheet.nodes),
            Inheritance.mark "tray" shelfRule "color" base ∉ rule.declarations := by
  have inside : shelfRule ∈ rulesIn shelfBlock.sheet.nodes :=
    List.mem_cons_of_mem _ List.mem_cons_self
  refine ⟨shelfBlock_isLoaded, inside, .ofCompound ⟨[.className "b"], none⟩,
    List.mem_cons_of_mem _ List.mem_cons_self, ?_, by decide +kernel⟩
  exact ⟨⟨⟨⟨1⟩, .ofClass 1⟩, shelfBlock⟩, by with_unfolding_all rfl, by with_unfolding_all rfl,
    by decide +kernel, by decide +kernel, by decide +kernel⟩

/-- The first class of the rule is marked, once. -/
theorem shelfBlock_marks_first :
    shelfBlock.extension = some ⟨⟨0⟩, "tray"⟩ ∧
      ∃ marks : Rule → List Declaration,
        rulesIn (annotateInheritance shelfGraph ⟨1⟩ shelfBlock shelfBlock.sheet.nodes) =
          (rulesIn shelfBlock.sheet.nodes).map (fun rule => ⟨rule.head,
            (marks rule).map Node.declaration ++
              annotateInheritance shelfGraph ⟨1⟩ shelfBlock rule.nodes⟩) ∧
        (marks shelfRule).count
          ⟨"color", "resolve-inherited(\"tray.a\")", false, ⟨1, 65, 64⟩⟩ = 1 := by
  have extended : shelfBlock.extension = some ⟨⟨0⟩, "tray"⟩ := rfl
  obtain ⟨marks, rules, known⟩ := @Inheritance.annotateInheritance_marks shelfGraph
    ⟨1⟩ shelfBlock ⟨⟨0⟩, "tray"⟩ extended shelfBlock.sheet.nodes
  obtain ⟨once, marked⟩ := known shelfRule
  let base : BlockObject := ⟨⟨⟨0⟩, .ofClass 0⟩, trayBlock⟩
  have conflict : Inheritance.Conflicts shelfGraph ⟨1⟩ shelfRule
      (.ofCompound ⟨[.className "a"], none⟩) "color" base :=
    ⟨⟨⟨⟨1⟩, .ofClass 0⟩, shelfBlock⟩, by with_unfolding_all rfl, by with_unfolding_all rfl,
      by decide +kernel, by decide +kernel, by decide +kernel⟩
  have first : Inheritance.ConflictsFirst shelfGraph ⟨1⟩ shelfRule
      (shelfBlock.selectorsOf shelfRule.head.id) "color" base :=
    ⟨[], _, [.ofCompound ⟨[.className "b"], none⟩], rfl, conflict, nofun⟩
  exact ⟨extended, marks, rules, List.count_eq_one_of_mem once
    ((marked _).mpr ⟨"color", base, first, by decide +kernel⟩)⟩

end StyleBlock
