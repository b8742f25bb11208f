import StyleBlock.Proofs.KeyObjects

/-!
The generated names of the objects of one block. They are put together from the names of the block,
its classes, groups and states with hyphens and underscores between them; where no such name goes on
like another one with its separator, different objects have different names.
-/

namespace StyleBlock

/-- Two ways to take a text apart: one cut comes before the other. -/
theorem exists_of_append_eq {first second one other : String}
    (same : first ++ one = second ++ other) :
    (∃ rest, second = first ++ rest ∧ one = rest ++ other) ∨
      ∃ rest, first = second ++ rest ∧ other = rest ++ one := by
  have lists := congrArg String.toList same
  rw [String.toList_append, String.toList_append, List.append_eq_append_iff] at lists
  rcases lists with ⟨rest, before, after⟩ | ⟨rest, before, after⟩
  · exact .inl ⟨String.ofList rest, String.toList_inj.mp (by simpa using before),
      String.toList_inj.mp (by simpa using after)⟩
  · exact .inr ⟨String.ofList rest, String.toList_inj.mp (by simpa using before),
      String.toList_inj.mp (by simpa using after)⟩

/-- The end of a generated name that an optional state adds. -/
def nameEnding : Option String → String
  | some state => "--" ++ state
  | none => ""

theorem BlockObject.stateEnd_eq (object : BlockObject) :
    object.stateEnd = nameEnding (object.state?.map State.nameEnd) := by
  unfold stateEnd nameEnding
  cases object.state? <;> rfl

theorem nameEnding_injective : Function.Injective nameEnding := by
  intro one other same
  cases one <;> cases other <;> simp_all [nameEnding]

/-- A name that goes on like another one does in front of a state. -/
def GoesOn (first second : String) : Prop :=
  second = first ++ "-" ∨ ∃ rest, second = first ++ "--" ++ rest

theorem not_goesOn_of_no_hyphen (first : String) {second : String}
    (free : '-' ∉ second.toList) : ¬GoesOn first second := by
  rintro (rfl | ⟨rest, rfl⟩) <;> simp at free

/-- A text that cuts a prefix off a state with its separator cuts off nothing, a hyphen or the
whole separator. -/
theorem cases_of_nameEnding_eq {ending other : Option String} {rest : String}
    (same : nameEnding ending = rest ++ nameEnding other) :
    rest = "" ∨ rest = "-" ∨ ∃ more, rest = "--" ++ more := by
  cases ending with
  | none => exact .inl (String.append_eq_empty_iff.mp same.symm).1
  | some state =>
    have lists := congrArg String.toList same
    have hyphens : "--".toList = ['-', '-'] := rfl
    rw [nameEnding, String.toList_append, String.toList_append, hyphens] at lists
    have text : rest = String.ofList rest.toList := String.ofList_toList.symm
    generalize rest.toList = chars at lists text
    rcases chars with _ | ⟨one, _ | ⟨two, more⟩⟩
    · exact .inl text
    · obtain rfl : one = '-' := (List.cons.inj lists).1.symm
      exact .inr (.inl text)
    · obtain ⟨rfl, after⟩ := List.cons.inj lists
      obtain ⟨rfl, _⟩ := List.cons.inj after
      refine .inr (.inr ⟨String.ofList more, text.trans (String.toList_inj.mp ?_)⟩)
      simp

/-- Neither of two names goes on like the other one, so they tell where a state begins. -/
theorem eq_of_append_nameEnding {first second : String} {one other : Option String}
    (apart : ¬GoesOn first second) (apart' : ¬GoesOn second first)
    (same : first ++ nameEnding one = second ++ nameEnding other) :
    first = second ∧ one = other := by
  have finish : ∀ {first second : String} {one other : Option String} {rest : String},
      ¬GoesOn first second → second = first ++ rest → nameEnding one = rest ++ nameEnding other →
        first = second ∧ one = other := by
    rintro first second one other rest apart rfl same
    rcases cases_of_nameEnding_eq same with rfl | rfl | ⟨more, rfl⟩
    · exact ⟨by simp, nameEnding_injective (by simpa using same)⟩
    · exact absurd (.inl rfl) apart
    · exact absurd (.inr ⟨more, String.append_assoc.symm⟩) apart
  rcases exists_of_append_eq same with ⟨rest, before, after⟩ | ⟨rest, before, after⟩
  · exact finish apart before after
  · obtain ⟨names, ends⟩ := finish apart' before after
    exact ⟨names.symm, ends.symm⟩

/-- The part of the name of a state that comes first: its group, or the state itself. -/
def StateName.start (state : StateName) : String := state.group.getD state.name

/-- A group that is told from another name by its hyphen is that name or begins it. -/
theorem eq_or_exists_of_append_hyphen {group other first second : String}
    (same : group ++ "-" ++ first = other ++ "-" ++ second) :
    group = other ∨ (∃ rest, other = group ++ "-" ++ rest) ∨
      ∃ rest, group = other ++ "-" ++ rest := by
  have finish : ∀ {group other first second rest : String}, other = group ++ rest →
      "-" ++ first = rest ++ ("-" ++ second) →
        group = other ∨ ∃ rest, other = group ++ "-" ++ rest := by
    rintro group _ first second rest rfl same
    have lists := congrArg String.toList same
    have hyphen : "-".toList = ['-'] := rfl
    rw [String.toList_append, String.toList_append, hyphen] at lists
    have text : rest = String.ofList rest.toList := String.ofList_toList.symm
    generalize rest.toList = chars at lists text
    subst text
    cases chars with
    | nil => exact .inl (by simp)
    | cons one more =>
      obtain ⟨rfl, _⟩ := List.cons.inj lists
      refine .inr ⟨String.ofList more, String.toList_inj.mp ?_⟩
      simp
  rw [String.append_assoc, String.append_assoc] at same
  rcases exists_of_append_eq same with ⟨rest, before, after⟩ | ⟨rest, before, after⟩
  · exact (finish before after).imp id .inl
  · exact (finish before after).imp Eq.symm .inr

/-- States whose ends of generated names agree are the same, unless one of them starts like the
group of the other one with its hyphen. -/
theorem State.name_eq_of_nameEnd {first second : State}
    (apart : ∀ group ∈ first.name.group, ∀ rest, second.name.start ≠ group ++ "-" ++ rest)
    (apart' : ∀ group ∈ second.name.group, ∀ rest, first.name.start ≠ group ++ "-" ++ rest)
    (same : first.nameEnd = second.nameEnd) : first.name = second.name := by
  obtain ⟨⟨group, name⟩, _⟩ := first
  obtain ⟨⟨group', name'⟩, _⟩ := second
  cases group with
  | none =>
    cases group' with
    | none => exact congrArg (StateName.mk none) same
    | some group' => exact absurd same (apart' group' rfl name')
  | some group =>
    cases group' with
    | none => exact absurd same.symm (apart group rfl name)
    | some group' =>
      have names : group ++ "-" ++ name = group' ++ "-" ++ name' := same
      rcases eq_or_exists_of_append_hyphen names with rfl | ⟨rest, begun⟩ | ⟨rest, begun⟩
      · rw [String.append_right_inj] at names
        rw [names]
      · exact absurd begun (apart group rfl rest)
      · exact absurd begun (apart' group' rfl rest)

namespace Block

/-- No class goes on like the root or another class with a hyphen or with the separator of states,
and beside a state of a group no state starts like the group with its hyphen. -/
structure HasUnambiguousNames (block : Block) : Prop where
  classes : ∀ first ∈ rootClass :: block.classNames, ∀ second ∈ block.classNames,
    ¬GoesOn first second
  states : ∀ owner names, block.stateNames? owner = some names → ∀ first ∈ names,
    ∀ second ∈ names, ∀ group ∈ first.group, ∀ rest, second.start ≠ group ++ "-" ++ rest

/-- An object of a block belongs to the root or to a class that the block has. -/
theorem hasOwner_of_contains {block : Block} {key : ObjectKey} (has : block.contains key = true) :
    block.HasOwner key.class? := by
  cases key with
  | root => exact nofun
  | ofClass index =>
    rintro _ ⟨⟩
    simpa [contains] using has
  | ofState owner index =>
    rintro place isOwner
    obtain rfl : owner = some place := isOwner
    exact BlockObject.class_lt_of_contains has

theorem exists_stateAt {block : Block} {owner : Option Nat} {index : Nat}
    (has : block.contains (.ofState owner index) = true) :
    ∃ names name, block.stateNames? owner = some names ∧ names[index]? = some name ∧
      (block.stateAt? (.ofState owner index)).map State.name = some name := by
  obtain ⟨state, found⟩ := Option.isSome_iff_exists.mp has
  obtain ⟨states, known, placed⟩ := Option.bind_eq_some_iff.mp found
  exact ⟨states.map State.name, state.name, by rw [stateNames?, known, Option.map_some],
    by simp [placed], by rw [stateAt?, found, Option.map_some]⟩

namespace HasUniqueNames

variable {block : Block}

theorem owner_eq (unique : block.HasUniqueNames) {first second : Option Nat}
    (one : block.HasOwner first) (other : block.HasOwner second)
    (same : (first.bind fun index => block.classes[index]?).map BlockClass.name =
      (second.bind fun index => block.classes[index]?).map BlockClass.name) : first = second := by
  cases first with
  | none =>
    cases second with
    | none => rfl
    | some place => simp [other place rfl] at same
  | some index =>
    cases second with
    | none => simp [one index rfl] at same
    | some place =>
      have below : index < block.classNames.length := by simpa [classNames] using one index rfl
      have names : block.classNames[index]? = block.classNames[place]? := by
        rw [classNames, List.getElem?_map, List.getElem?_map]
        exact same
      rw [(List.getElem?_inj below unique.classes).mp names]

/-- Objects with the same class and the same state are the same. -/
theorem eq_of_names (unique : block.HasUniqueNames) {first second : ObjectKey}
    (one : block.contains first = true) (other : block.contains second = true)
    (classes : (block.classAt? first).map BlockClass.name =
      (block.classAt? second).map BlockClass.name)
    (states : (block.stateAt? first).map State.name = (block.stateAt? second).map State.name) :
    first = second := by
  have owners := unique.owner_eq (hasOwner_of_contains one) (hasOwner_of_contains other) classes
  cases first with
  | ofState owner index =>
    obtain ⟨names, name, known, placed, state⟩ := exists_stateAt one
    cases second with
    | ofState owner' index' =>
      obtain rfl : owner = owner' := owners
      obtain ⟨names', name', known', placed', state'⟩ := exists_stateAt other
      cases known.symm.trans known'
      have same : names[index]? = names[index']? := by
        rw [placed, placed', ← state, ← state', states]
      rw [(List.getElem?_inj (List.getElem?_eq_some_iff.mp placed).1
        (unique.states owner names known)).mp same]
    | root | ofClass _ => exact nomatch (states.symm.trans state : none = some name)
  | root | ofClass _ =>
    cases second with
    | ofState owner' index' =>
      obtain ⟨_, name, _, _, state⟩ := exists_stateAt other
      exact nomatch (states.trans state : none = some name)
    | root | ofClass _ => simp_all [ObjectKey.class?]

end HasUniqueNames

end Block

namespace BlockObject

/-- The name that the states of an object stand behind: that of its class, or of the root. -/
def label (object : BlockObject) : String :=
  (object.class?.map BlockClass.name).getD rootClass

variable {root first second : BlockObject}

/-- An object stands behind the name of the root, or behind that of its class. -/
theorem label_eq (isRoot : root.key = .root) (member : first ∈ root.own) :
    first.class? = none ∧ first.label = rootClass ∨
      ∃ entry, first.class? = some entry ∧ first.label = entry.name ∧
        entry.name ∈ root.block.classNames := by
  obtain ⟨key, rfl, _⟩ := (mem_own_iff isRoot).mp member
  unfold label
  cases found : (root.sibling key).class? with
  | none => exact .inl ⟨rfl, rfl⟩
  | some entry =>
    refine .inr ⟨entry, rfl, rfl, ?_⟩
    obtain ⟨index, _, placed⟩ := Option.bind_eq_some_iff.mp found
    exact List.mem_map_of_mem (List.mem_of_getElem? placed)

theorem state_mem (isRoot : root.key = .root) (member : first ∈ root.own) {state : State}
    (found : first.state? = some state) :
    ∃ names, root.block.stateNames? first.key.class? = some names ∧ state.name ∈ names := by
  obtain ⟨key, rfl, has⟩ := (mem_own_iff isRoot).mp member
  cases key with
  | root | ofClass _ => cases found
  | ofState owner index =>
    obtain ⟨names, name, known, placed, named⟩ := Block.exists_stateAt has
    have same : state.name = name := Option.some.inj
      ((congrArg (Option.map State.name) found).symm.trans named)
    exact ⟨names, known, same ▸ List.mem_of_getElem? placed⟩

/-- No class goes on like the class of another object. -/
theorem not_goesOn (plain : root.block.HasUnambiguousNames) (isRoot : root.key = .root)
    (one : first ∈ root.own) (other : second ∈ root.own) : ¬GoesOn first.label second.label := by
  have listed : first.label ∈ rootClass :: root.block.classNames := by
    rcases label_eq isRoot one with ⟨_, same⟩ | ⟨_, _, same, member⟩ <;> rw [same]
    · exact List.mem_cons_self ..
    · exact List.mem_cons_of_mem _ member
  rcases label_eq isRoot other with ⟨_, same⟩ | ⟨_, _, same, member⟩ <;> rw [same]
  · exact not_goesOn_of_no_hyphen _ (by decide)
  · exact plain.classes _ listed _ member

/-- Objects of a block that stand behind the same class and end like the same state are the same. -/
theorem eq_of_label_eq (unique : root.block.HasUniqueNames)
    (plain : root.block.HasUnambiguousNames) (isRoot : root.key = .root) (one : first ∈ root.own)
    (other : second ∈ root.own)
    (classes : first.class?.map BlockClass.name = second.class?.map BlockClass.name)
    (states : first.state?.map State.nameEnd = second.state?.map State.nameEnd) :
    first = second := by
  have mentioned := fun state => @state_mem _ _ isRoot one state
  have mentioned' := fun state => @state_mem _ _ isRoot other state
  obtain ⟨key, rfl, has⟩ := (mem_own_iff isRoot).mp one
  obtain ⟨key', rfl, has'⟩ := (mem_own_iff isRoot).mp other
  have owners : key.class? = key'.class? := unique.owner_eq (Block.hasOwner_of_contains has)
    (Block.hasOwner_of_contains has') classes
  have names : (root.sibling key).state?.map State.name =
      (root.sibling key').state?.map State.name := by
    cases found : (root.sibling key).state? with
    | none =>
      cases found' : (root.sibling key').state? with
      | none => rfl
      | some state' => simp [found, found'] at states
    | some state =>
      cases found' : (root.sibling key').state? with
      | none => simp [found, found'] at states
      | some state' =>
        rw [found, found'] at states
        obtain ⟨listed, known, member⟩ := mentioned state found
        obtain ⟨listed', known', member'⟩ := mentioned' state' found'
        have same : root.block.stateNames? key'.class? = some listed := owners ▸ known
        cases same.symm.trans known'
        exact congrArg some (State.name_eq_of_nameEnd
          (plain.states _ _ same _ member _ member') (plain.states _ _ same _ member' _ member)
          (Option.some.inj states))
  rw [unique.eq_of_names has has' classes names]

theorem class_eq_of_label_eq (unique : root.block.HasUniqueNames) (isRoot : root.key = .root)
    (one : first ∈ root.own) (other : second ∈ root.own) (labels : first.label = second.label) :
    first.class?.map BlockClass.name = second.class?.map BlockClass.name := by
  rcases label_eq isRoot one with ⟨none, isRoot₁⟩ | ⟨entry, found, same, member⟩ <;>
    rcases label_eq isRoot other with ⟨none', isRoot₂⟩ | ⟨entry', found', same', member'⟩
  · rw [none, none']
  · rw [isRoot₁, same'] at labels
    exact absurd (labels ▸ member') unique.noRoot
  · rw [isRoot₂, same] at labels
    exact absurd (labels ▸ member) unique.noRoot
  · rw [found, found', Option.map_some, Option.map_some, ← same, ← same', labels]

theorem localName_eq (object : BlockObject) :
    object.localName = object.label ++ nameEnding (object.state?.map State.nameEnd) := by
  rw [← object.stateEnd_eq]
  rfl

/-- A generated name without the name of the block in front: that of a class starts with
underscores, that of a state with hyphens. -/
theorem cssClass_eq (object : BlockObject) (mode : OutputMode) :
    object.cssClass mode = object.block.name ++
      (match object.class? with
        | some _ => "__" ++ (object.label ++ nameEnding (object.state?.map State.nameEnd))
        | none => nameEnding (object.state?.map State.nameEnd)) := by
  rw [← object.stateEnd_eq]
  unfold cssClass label
  cases mode
  cases object.class? <;> simp [String.append_assoc]

theorem underscores_ne_nameEnding (rest : String) (ending : Option String) :
    "__" ++ rest ≠ nameEnding ending := by
  intro same
  have lists := congrArg String.toList same
  have underscores : "__".toList = ['_', '_'] := rfl
  have hyphens : "--".toList = ['-', '-'] := rfl
  rw [String.toList_append, underscores] at lists
  cases ending with
  | none => cases lists
  | some state =>
    rw [nameEnding, String.toList_append, hyphens] at lists
    exact absurd (List.cons.inj lists).1 (by decide)

/-- Different objects of a loaded block have different generated names and are exported under
different names, as long as no class and no group goes on like another name with its separator. -/
theorem names_ne {block : Block} (loaded : block.IsLoaded) (plain : block.HasUnambiguousNames)
    (id : BlockId) {first second : BlockObject}
    (one : first ∈ (⟨⟨id, .root⟩, block⟩ : BlockObject).own)
    (other : second ∈ (⟨⟨id, .root⟩, block⟩ : BlockObject).own) (different : first ≠ second)
    (mode : OutputMode) :
    first.cssClass mode ≠ second.cssClass mode ∧ first.localName ≠ second.localName := by
  obtain ⟨loading⟩ := (Block.isLoaded_iff_loading block).mp loaded
  have unique := loading.hasUniqueNames
  have finish := @eq_of_label_eq ⟨⟨id, .root⟩, block⟩ first second unique plain rfl one other
  -- What a label and an ending make up tells both of them.
  have parts : first.label ++ nameEnding (first.state?.map State.nameEnd) ≠
      second.label ++ nameEnding (second.state?.map State.nameEnd) := by
    intro same
    obtain ⟨labels, states⟩ := eq_of_append_nameEnding
      (@not_goesOn ⟨⟨id, .root⟩, block⟩ first second plain rfl one other)
      (@not_goesOn ⟨⟨id, .root⟩, block⟩ second first plain rfl other one) same
    exact different (finish (@class_eq_of_label_eq ⟨⟨id, .root⟩, block⟩ first second unique rfl
      one other labels) states)
  refine ⟨fun same => ?_, by rwa [localName_eq, localName_eq]⟩
  have blocks : first.block = second.block := by
    obtain ⟨_, rfl, _⟩ := (mem_own_iff rfl).mp one
    obtain ⟨_, rfl, _⟩ := (mem_own_iff rfl).mp other
    rfl
  rw [cssClass_eq, cssClass_eq, blocks, String.append_right_inj] at same
  cases found : first.class? with
  | none =>
    cases found' : second.class? with
    | none =>
      rw [found, found'] at same
      exact different (finish (by rw [found, found']) (nameEnding_injective same))
    | some entry' =>
      rw [found, found'] at same
      exact underscores_ne_nameEnding _ _ same.symm
  | some entry =>
    cases found' : second.class? with
    | none =>
      rw [found, found'] at same
      exact underscores_ne_nameEnding _ _ same
    | some entry' =>
      rw [found, found'] at same
      exact parts ((String.append_right_inj _).mp same)

end BlockObject

theorem menuBlock_hasUnambiguousNames : menuBlock.HasUnambiguousNames where
  classes first _ second member := by
    obtain rfl : second = "item" := List.mem_singleton.mp member
    exact not_goesOn_of_no_hyphen first (by decide)
  states owner names known first member second _ group isGroup := by
    have ungrouped : first.group = none := by
      rcases owner with _ | _ | _ <;> cases known
      · nomatch member
      · rw [List.mem_singleton.mp member]
    cases ungrouped.symm.trans (Option.mem_def.mp isGroup)

/-- The class of the menu and its state have different names. -/
theorem menuBlock_names_ne :
    let item : BlockObject := ⟨⟨⟨0⟩, .ofClass 0⟩, menuBlock⟩
    let opened : BlockObject := ⟨⟨⟨0⟩, .ofState (some 0) 0⟩, menuBlock⟩
    item.cssClass .bem ≠ opened.cssClass .bem ∧ item.localName ≠ opened.localName := by
  intro item opened
  have loaded : menuBlock.IsLoaded := (menuBlock.isLoaded_iff_loading).mpr ⟨menuLoading⟩
  have listed : ∀ key, menuBlock.contains key = true → (⟨⟨⟨0⟩, key⟩, menuBlock⟩ : BlockObject) ∈
      (⟨⟨⟨0⟩, .root⟩, menuBlock⟩ : BlockObject).own := fun key has =>
    (BlockObject.mem_own_iff rfl).mpr ⟨key, rfl, has⟩
  exact BlockObject.names_ne loaded menuBlock_hasUnambiguousNames ⟨0⟩
    (listed (.ofClass 0) rfl) (listed (.ofState (some 0) 0) rfl) (fun same => nomatch same) .bem

/-- A block with a state whose name is that of another state behind its group. -/
def hyphenBlock : Block :=
  { Block.bare "menu" "menu.css" "menu.css" with
    named := true
    states := [⟨⟨none, "x-y"⟩, ⟨[⟨none, "color"⟩]⟩⟩, ⟨⟨some "x", "y"⟩, ⟨[⟨none, "color"⟩]⟩⟩]
    sheet := ⟨"menu.css", [.rule ⟨0, "[state|x-y]", ⟨1, 1, 0⟩⟩
        [.declaration ⟨"color", "red", false, ⟨1, 15, 14⟩⟩],
      .rule ⟨1, "[state|x=y]", ⟨1, 29, 28⟩⟩
        [.declaration ⟨"color", "blue", false, ⟨1, 43, 42⟩⟩]], 2⟩
    selectors := [(0, [.ofCompound ⟨[.ofState ⟨none, "x-y"⟩], none⟩]),
      (1, [.ofCompound ⟨[.ofState ⟨some "x", "y"⟩], none⟩])] }

def hyphenLoading : hyphenBlock.Loading where
  text := "[state|x-y] \x7b color: red; \x7d [state|x=y] \x7b color: blue; \x7d"
  debugIdentifier := "menu.css"
  defaultName := "menu"
  identifier := "menu.css"
  sheet := hyphenBlock.sheet
  draft := ⟨{ hyphenBlock with named := false, states := [] }, []⟩
  graph := ⟨#[none]⟩
  defaults := id
  links := []
  body := { hyphenBlock with named := false }
  dependencies := []
  name := "menu"
  read := by with_unfolding_all rfl
  drafted := by with_unfolding_all rfl
  completed := by with_unfolding_all rfl
  named := by with_unfolding_all rfl

/-- The two states are different objects and yet have the same names. -/
theorem hyphenBlock_names_eq :
    hyphenBlock.IsLoaded ∧
      ∃ first ∈ (⟨⟨⟨0⟩, .root⟩, hyphenBlock⟩ : BlockObject).own,
        ∃ second ∈ (⟨⟨⟨0⟩, .root⟩, hyphenBlock⟩ : BlockObject).own,
          first.key ≠ second.key ∧ first.cssClass .bem = second.cssClass .bem ∧
            first.localName = second.localName := by
  have listed : ∀ key, hyphenBlock.contains key = true →
      (⟨⟨⟨0⟩, key⟩, hyphenBlock⟩ : BlockObject) ∈
        (⟨⟨⟨0⟩, .root⟩, hyphenBlock⟩ : BlockObject).own := fun key has =>
    (BlockObject.mem_own_iff rfl).mpr ⟨key, rfl, has⟩
  exact ⟨(hyphenBlock.isLoaded_iff_loading).mpr ⟨hyphenLoading⟩, _,
    listed (.ofState none 0) rfl, _, listed (.ofState none 1) rfl, by decide, rfl, rfl⟩

end StyleBlock
