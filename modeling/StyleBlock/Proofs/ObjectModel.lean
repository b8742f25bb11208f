import StyleBlock.Proofs.DeclaredProperties
import StyleBlock.Proofs.LegalSelectors
import StyleBlock.Proofs.RuleHeads

/-!
The objects of a block and the sheet it was read from. A block has the classes and states that the
compounds of its style rules write, each of them once; and an object has the properties that the
rules declare whose key it is.
-/

namespace StyleBlock

namespace Block

/-- Whether a block has an object of some names. -/
def Defines (block : Block) (name : ObjectReference) : Prop :=
  (block.findOwn? name).isSome = true

theorem Grows.defines {before after : Block} (grows : before.Grows after) {name : ObjectReference}
    (defined : before.Defines name) : after.Defines name := by
  obtain ⟨key, found⟩ := Option.isSome_iff_exists.mp defined
  exact Option.isSome_of_eq_some (grows.findOwn found)

theorem defines_congr {before after : Block} (classes : after.classNames = before.classNames)
    (states : ∀ owner, after.stateNames? owner = before.stateNames? owner)
    (name : ObjectReference) : after.Defines name ↔ before.Defines name :=
  ⟨(Grows.of_names classes.symm fun owner => (states owner).symm).defines,
    (Grows.of_names classes states).defines⟩

variable {block : Block}

theorem defines_iff {name : ObjectReference} : block.Defines name ↔
    ∃ owner, block.owner? name.className = some owner ∧
      ∀ state ∈ name.state, ∃ names, block.stateNames? owner = some names ∧ state ∈ names := by
  rw [Defines, findOwn_eq_bind, Option.isSome_iff_exists]
  have inside : ∀ owner, (∃ key, block.keyIn? owner name.state = some key) ↔
      ∀ state ∈ name.state, ∃ names, block.stateNames? owner = some names ∧ state ∈ names := by
    intro owner
    cases name.state with
    | none => exact iff_of_true ⟨_, rfl⟩ nofun
    | some state =>
      rw [keyIn_eq]
      cases block.stateNames? owner with
      | none => simp
      | some names => simp [Option.map_eq_some_iff, ← Option.isSome_iff_exists]
  constructor
  · rintro ⟨key, found⟩
    obtain ⟨owner, owned, found⟩ := Option.bind_eq_some_iff.mp found
    exact ⟨owner, owned, (inside owner).mp ⟨key, found⟩⟩
  · rintro ⟨owner, owned, known⟩
    obtain ⟨key, found⟩ := (inside owner).mpr known
    exact ⟨key, Option.bind_eq_some_iff.mpr ⟨owner, owned, found⟩⟩

theorem owner_of_ne {name : String} (apart : name ≠ rootClass) :
    block.owner? (some name) = (block.findClass? name).map some := by
  rw [owner?, if_neg apart]

theorem defines_class_iff {name : String} (apart : name ≠ rootClass) :
    block.Defines ⟨none, some name, none⟩ ↔ name ∈ block.classNames := by
  rw [defines_iff]
  dsimp only
  rw [owner_of_ne apart, findClass_eq]
  simp [← Option.isSome_iff_exists]

theorem defines_state_iff {className : Option String} {owner : Option Nat}
    {names : List StateName} (owned : block.owner? className = some owner)
    (known : block.stateNames? owner = some names) {state : StateName} :
    block.Defines ⟨none, className, some state⟩ ↔ state ∈ names := by
  rw [defines_iff]
  simp [owned, known]

/-- A class has a place of its own. -/
theorem owner_injective {first second : Option String} {owner : Option Nat}
    (plain : first ≠ some rootClass) (plain' : second ≠ some rootClass)
    (one : block.owner? first = some owner) (other : block.owner? second = some owner) :
    first = second := by
  have named : ∀ {className : Option String}, className ≠ some rootClass →
      block.owner? className = some owner →
        className = owner.bind fun index => block.classNames[index]? := by
    intro className plain owned
    cases className with
    | none =>
      cases owned
      rfl
    | some name =>
      rw [owner_of_ne fun same => plain (congrArg some same)] at owned
      obtain ⟨index, found, rfl⟩ := Option.map_eq_some_iff.mp owned
      rw [findClass_eq] at found
      obtain ⟨below, same, _⟩ := List.findIdx?_eq_some_iff_getElem.mp found
      rw [Option.bind_some, List.getElem?_eq_getElem below, of_decide_eq_true same]
  rw [named plain one, named plain' other]

/-- Asking for a class leaves the others where they are. -/
theorem owner_ensureClass (block : Block) {className : String} {other : Option String}
    (apart : other ≠ some className) :
    (block.ensureClass className).1.owner? other = block.owner? other := by
  cases other with
  | none => rfl
  | some other =>
    have differ : className ≠ other := fun same => apart (congrArg some same.symm)
    have places : (block.ensureClass className).1.findClass? other = block.findClass? other := by
      rw [findClass_eq, findClass_eq, classNames_ensureClass]
      split
      · rfl
      · simp [List.findIdx?_append, differ]
    rw [owner?, owner?, places]

/-- Asking for a class adds the class, without states. -/
theorem defines_ensureClass {className : String} (apart : className ≠ rootClass)
    {name : ObjectReference} :
    (block.ensureClass className).1.Defines name ↔
      block.Defines name ∨ name.className = some className ∧ name.state = none := by
  have placed := block.findClass_ensureClass className
  constructor
  · intro defined
    obtain ⟨owner, owned, inside⟩ := defines_iff.mp defined
    by_cases isClass : name.className = some className
    · rw [isClass, owner_of_ne apart, placed] at owned
      cases owned
      cases found : block.findClass? className with
      | some index =>
        have same : block.ensureClass className = (block, index) := by simp [ensureClass, found]
        rw [same] at defined
        exact .inl defined
      | none =>
        have new : block.statesOf? (some (block.ensureClass className).2) = none := by
          simp [ensureClass, found, statesOf?]
        refine .inr ⟨isClass, Option.eq_none_iff_forall_not_mem.mpr fun state isState => ?_⟩
        obtain ⟨names, known, listed⟩ := inside state isState
        rw [stateNames?] at known
        rcases block.statesOf_ensureClass className _ with same | ⟨_, empty⟩
        · rw [same, new] at known
          cases known
        · rw [empty] at known
          cases known
          cases listed
    · rw [block.owner_ensureClass isClass] at owned
      refine .inl (defines_iff.mpr ⟨owner, owned, fun state isState => ?_⟩)
      obtain ⟨names, known, listed⟩ := inside state isState
      obtain ⟨states, before⟩ := statesOf_isSome (hasOwner_of_owner owned)
      rcases block.statesOf_ensureClass className owner with same | ⟨missing, _⟩
      · exact ⟨names, by rw [stateNames?, ← same, ← stateNames?, known], listed⟩
      · cases before.symm.trans missing
  · rintro (known | ⟨isClass, stateless⟩)
    · exact (block.grows_ensureClass className).defines known
    · refine defines_iff.mpr ⟨some (block.ensureClass className).2, ?_, by simp [stateless]⟩
      rw [isClass, owner_of_ne apart, placed, Option.map_some]

/-- Asking for a state of the root or of a class adds the state. -/
theorem defines_ensureState {className : Option String} {owner : Option Nat}
    (plain : className ≠ some rootClass) (owned : block.owner? className = some owner)
    (state : StateName) {name : ObjectReference} (plain' : name.className ≠ some rootClass) :
    (block.ensureState owner state).1.Defines name ↔
      block.Defines name ∨ name.className = className ∧ name.state = some state := by
  have has := hasOwner_of_owner owned
  have grows := block.grows_ensureState has state
  obtain ⟨states, known⟩ := statesOf_isSome has
  have sameOwner : ∀ other,
      (block.ensureState owner state).1.owner? other = block.owner? other := by
    intro other
    cases other with
    | none => rfl
    | some other => simp only [owner?, findClass_eq, (statesOf_ensureState known state).2.1]
  obtain ⟨⟨names, before, after⟩, others⟩ := stateNames_ensureState has state
  rw [defines_iff, defines_iff]
  constructor
  · rintro ⟨other, owned', inside⟩
    rw [sameOwner] at owned'
    by_cases same : other = owner
    · subst same
      cases written : name.state with
      | none => exact .inl ⟨other, owned', by simp⟩
      | some last =>
        obtain ⟨found, known, listed⟩ := inside last written
        cases after.symm.trans known
        split at listed
        · refine .inl ⟨other, owned', ?_⟩
          rintro _ ⟨⟩
          exact ⟨names, before, listed⟩
        · rcases List.mem_append.mp listed with listed | isNew
          · refine .inl ⟨other, owned', ?_⟩
            rintro _ ⟨⟩
            exact ⟨names, before, listed⟩
          · cases List.mem_singleton.mp isNew
            exact .inr ⟨owner_injective plain' plain owned' owned, rfl⟩
    · exact .inl ⟨other, owned', fun last isLast => others other same ▸ inside last isLast⟩
  · rintro (⟨other, owned', inside⟩ | ⟨sameClass, isState⟩)
    · exact defines_iff.mp (grows.defines (defines_iff.mpr ⟨other, owned', inside⟩))
    · refine ⟨owner, by rw [sameOwner, sameClass, owned], fun last isLast => ?_⟩
      cases isState.symm.trans isLast
      refine ⟨_, after, ?_⟩
      split
      · assumption
      · simp

/-- A later stage of a block defines what an earlier one does, and besides the object of a class and
a state, and the class of it. -/
def Adds (before : Block) (className : Option String) (state : Option StateName)
    (after : Block) : Prop :=
  ∀ name : ObjectReference, name.className ≠ some rootClass →
    (after.Defines name ↔
      before.Defines name ∨ name.className = className ∧ (name.state = none ∨ name.state = state))

/-- Every block has a root. -/
theorem adds_root (block : Block) : block.Adds none none block := by
  refine fun name _ => ⟨.inl, fun either => either.elim id fun ⟨noClass, noState⟩ => ?_⟩
  refine defines_iff.mpr ⟨none, by rw [noClass]; rfl, ?_⟩
  simp [noState.elim id id]

end Block

/-- Whether a compound writes an object of its block, or the class of one, by some names. -/
def Compound.Names (compound : Compound) (name : ObjectReference) : Prop :=
  compound.isForeign = false ∧ name.className = compound.ownName.className ∧
    (name.state = none ∨ name.state = compound.ownName.state)

namespace Selector.HasKey

variable {selector : Selector} {block after : Block} {key found : Option ObjectKey}

theorem grow (hasKey : selector.HasKey block key) (grows : block.Grows after) :
    selector.HasKey after key := by
  cases key with
  | none => exact hasKey
  | some key => exact ⟨hasKey.1, grows.findOwn hasKey.2⟩

theorem unique (hasKey : selector.HasKey block key) (other : selector.HasKey block found) :
    found = key := by
  cases key with
  | none =>
    cases found with
    | none => rfl
    | some found => cases hasKey.symm.trans other.1
  | some key =>
    cases found with
    | none => cases other.symm.trans hasKey.1
    | some found => exact other.2.symm.trans hasKey.2

end Selector.HasKey

namespace Legality

namespace HasRead

variable {start block after : Block} {seen : List SimpleSelector} {className : Option String}
  {state : Option StateName} {parts others : ObjectParts} {selector : Selector}

/-- Reading a class adds it, unless it is the root. -/
theorem adds_readClass (read : HasRead start seen className state block parts)
    (adds : start.Adds className state block) {name : String}
    (done : Legality.readClass selector block parts name = .ok (after, others)) :
    ∃ className, HasRead start (seen ++ [.className name]) className state after others ∧
      start.Adds className state after := by
  obtain ⟨className', next⟩ := read.readClass done
  refine ⟨className', next, ?_⟩
  have nextClass := next.writes.findSome_eq.1
  rw [List.findSome?_append, read.writes.findSome_eq.1] at nextClass
  have grown := block_of_readClass done
  by_cases isRoot : name = rootClass
  · obtain rfl : className = className' := by
      simpa [SimpleSelector.className?, isRoot] using nextClass
    rw [if_pos isRoot] at grown
    exact grown ▸ adds
  rw [if_neg isRoot] at grown
  subst grown
  intro reference plain
  rw [Block.defines_ensureClass isRoot, adds reference plain]
  cases className with
  | some first =>
    obtain rfl : some first = className' := by simpa using nextClass
    have same : name = first := next.writes.classes name (by simp)
    rw [same]
    tauto
  | none =>
    obtain rfl : some name = className' := by
      simpa [SimpleSelector.className?, isRoot] using nextClass
    -- Without a class, a state that was read would be one of the root.
    have stateless : state = none := by
      have free : parts.owner = none := (Option.some.inj read.owner).symm
      have allowed : parts.state = none := by
        by_contra stated
        have refused : (parts.root || (parts.state.isSome && parts.owner.isNone)) = true := by
          simp [free, Option.isSome_iff_ne_none, stated]
        rw [Legality.readClass, if_neg isRoot, if_pos refused] at done
        cases done
      simpa [allowed] using read.state
    have hasRoot := start.adds_root reference plain
    rw [stateless]
    tauto

/-- Reading a state adds it to the class that was read. -/
theorem adds_readState (read : HasRead start seen className state block parts)
    (adds : start.Adds className state block) {attr : AttributeSelector} {name : StateName}
    (plain : plainState? (.attr attr) attr = some name) (isState : attr.isState = true)
    (done : Legality.readState selector block parts name = .ok (after, others)) :
    HasRead start (seen ++ [.attr attr]) className (some name) after others ∧
      start.Adds className (some name) after := by
  have next := read.readState plain isState done
  refine ⟨next, ?_⟩
  have nextState := next.writes.findSome_eq.2
  rw [List.findSome?_append, read.writes.findSome_eq.2] at nextState
  obtain rfl := block_of_readState done
  intro reference plain'
  rw [Block.defines_ensureState read.writes.notRoot read.owner name plain', adds reference plain']
  cases state with
  | some first =>
    obtain rfl : first = name := by simpa using nextState
    tauto
  | none => tauto

/-- Reading a node adds what it writes. -/
theorem adds_readNode (read : HasRead start seen className state block parts)
    (adds : start.Adds className state block) {node : SimpleSelector}
    (done : Legality.readNode selector (block, parts) node = .ok (after, others)) :
    ∃ className state, HasRead start (seen ++ [node]) className state after others ∧
      start.Adds className state after := by
  unfold Legality.readNode at done
  dsimp only at done
  split at done
  · obtain ⟨className, read⟩ := read.adds_readClass adds done
    exact ⟨className, state, read⟩
  · split at done
    · split at done
      · exact ⟨className, _, read.adds_readState adds ‹_› ‹_› done⟩
      · cases done
    · next attr notState =>
      cases done
      refine ⟨className, state, read.other nofun ?_, adds⟩
      rintro _ ⟨⟩
      simpa using notState
  · next noClass noState =>
    cases done
    exact ⟨className, state, read.other noClass fun attr same => absurd same (noState attr), adds⟩

/-- Reading all nodes of a compound adds what they write. -/
theorem adds_nodes (read : HasRead start seen className state block parts)
    (adds : start.Adds className state block) {nodes : List SimpleSelector}
    (done : nodes.foldlM (Legality.readNode selector) (block, parts) = .ok (after, others)) :
    ∃ className state, HasRead start (seen ++ nodes) className state after others ∧
      start.Adds className state after := by
  induction nodes generalizing seen className state block parts with
  | nil =>
    cases done
    exact ⟨className, state, by simpa using read, adds⟩
  | cons node rest ih =>
    rw [List.foldlM_cons] at done
    obtain ⟨⟨next, nextParts⟩, first, done⟩ := bind_eq_ok_iff.mp done
    obtain ⟨className, state, read, adds⟩ := read.adds_readNode adds first
    obtain ⟨className, state, read, adds⟩ := ih read adds done
    exact ⟨className, state, by simpa using read, adds⟩

end HasRead

variable {graph : Graph} {selector : Selector} {block after : Block}

/-- Reading a compound adds the object that it writes, if that is one of the block itself. -/
theorem defines_classifyCompound {compound : Compound} {object : CompoundObject}
    (classified : classifyCompound graph selector block compound = .ok (after, object))
    {name : ObjectReference} (plain : name.className ≠ some rootClass) :
    after.Defines name ↔ block.Defines name ∨ compound.Names name := by
  obtain ⟨_, -, classified⟩ := bind_eq_ok_iff.mp classified
  cases kind : compound.isForeign with
  | true =>
    rw [Compound.isForeign] at kind
    rw [if_pos kind] at classified
    obtain ⟨_, -, classified⟩ := bind_eq_ok_iff.mp classified
    cases classified
    simp [Compound.Names, Compound.isForeign, kind]
  | false =>
    rw [Compound.isForeign] at kind
    rw [if_neg (by simp [kind])] at classified
    obtain ⟨⟨next, parts⟩, folded, classified⟩ := bind_eq_ok_iff.mp classified
    obtain ⟨className, state, read, adds⟩ := (HasRead.nil block).adds_nodes block.adds_root folded
    obtain ⟨sameClass, sameState⟩ := read.writes.findSome_eq
    rw [List.nil_append] at sameClass sameState
    obtain rfl : next = after := by
      dsimp only at classified
      split at classified <;> cases classified
      rfl
    rw [adds name plain, Compound.Names, Compound.ownName, sameClass, sameState, Compound.isForeign,
      and_iff_right kind]

theorem defines_classifyAll {compounds : List (Option Combinator × Compound)}
    {objects : List (Option Combinator × CompoundObject)}
    (all : classifyAll graph selector block compounds = .ok (after, objects))
    {name : ObjectReference} (plain : name.className ≠ some rootClass) :
    after.Defines name ↔ block.Defines name ∨ ∃ entry ∈ compounds, entry.2.Names name := by
  induction compounds generalizing block objects with
  | nil =>
    cases all
    simp
  | cons entry rest ih =>
    obtain ⟨combinator, compound⟩ := entry
    unfold classifyAll at all
    dsimp only at all
    split at all
    · cases all
    · obtain ⟨⟨next, object⟩, first, all⟩ := bind_eq_ok_iff.mp all
      obtain ⟨⟨last, others⟩, later, all⟩ := bind_eq_ok_iff.mp all
      cases all
      rw [ih later, defines_classifyCompound first plain, List.exists_mem_cons_iff, or_assoc]

end Legality

/-- The compounds of a rule's selectors. -/
def RuleHead.compounds (head : RuleHead) : List Compound :=
  head.parsed.flatMap fun selector => selector.compounds.map Prod.snd

/-- The compounds of the style rules of a sheet that name an object of the block itself. -/
def Sheet.ownCompounds (sheet : Sheet) : List Compound :=
  (sheet.styleRules.flatMap fun rule => rule.head.compounds).filter fun compound =>
    !compound.isForeign

namespace Draft

variable {graph : Graph} {rule : Rule}

theorem defines_addSelector {block after : Block} {selector : Selector}
    (added : addSelector graph rule block selector = .ok after) {name : ObjectReference}
    (plain : name.className ≠ some rootClass) :
    after.Defines name ↔
      block.Defines name ∨ ∃ entry ∈ selector.compounds, entry.2.Names name := by
  unfold addSelector at added
  split at added
  · cases added
  · next classified =>
    cases added
    obtain ⟨objects, all, _⟩ := Legality.classify_eq_ok classified
    exact Legality.defines_classifyAll all plain
  · next read key classified =>
    cases added
    obtain ⟨objects, all, _⟩ := Legality.classify_eq_ok classified
    obtain ⟨classes, states⟩ := read.names_modifyProperties key _
    rw [Block.defines_congr classes states, Legality.defines_classifyAll all plain]

/-- Recording rules adds the objects that the compounds of their selectors write. -/
theorem defines_addRules {draft last : Draft} {rules : List Rule}
    (added : rules.foldlM (addRule graph) draft = .ok last) {name : ObjectReference}
    (plain : name.className ≠ some rootClass) :
    last.block.Defines name ↔ draft.block.Defines name ∨ ∃ rule ∈ rules,
      ∃ selector ∈ draft.block.selectorsOf rule.head.id,
        ∃ entry ∈ selector.compounds, entry.2.Names name := by
  refine foldlM_adds (fun next => draft.block.SameSource next.block)
    (fun next => next.block.Defines name) _ (fun {state rule after} source one => ?_) (.refl _)
    added
  refine ⟨source.trans (sameSource_addRule one), ?_⟩
  have kept : state.block.selectorsOf = draft.block.selectorsOf := by
    unfold Block.selectorsOf
    rw [source.selectors]
  rw [← kept]
  exact foldlM_adds (fun _ => True) (fun block => block.Defines name) _
    (fun _ added => ⟨trivial, defines_addSelector added plain⟩) trivial (addRule_eq_ok one)

theorem HasNoObjects.defines_iff {block : Block} (bare : HasNoObjects block)
    {name : ObjectReference} (plain : name.className ≠ some rootClass) :
    block.Defines name ↔ name.className = none ∧ name.state = none := by
  rw [Block.defines_iff]
  constructor
  · rintro ⟨owner, owned, inside⟩
    have noClass : name.className = none := by
      cases written : name.className with
      | none => rfl
      | some className =>
        have apart : className ≠ rootClass := fun same => plain (same ▸ written)
        rw [written, Block.owner_of_ne apart] at owned
        simp [Block.findClass?, bare.1] at owned
    rw [noClass] at owned
    cases owned
    refine ⟨noClass, Option.eq_none_iff_forall_not_mem.mpr fun state isState => ?_⟩
    obtain ⟨names, known, listed⟩ := inside state isState
    cases known
    simp [bare.2] at listed
  · rintro ⟨noClass, stateless⟩
    exact ⟨none, by rw [noClass]; rfl, by simp [stateless]⟩

end Draft

/-! Names of compounds -/

namespace SimpleSelector

theorem state_ofState (state : StateName) : (ofState state).state? = some state := by
  obtain ⟨group, name⟩ := state
  cases group <;> simp [ofState, state?, AttributeSelector.isState]

theorem exists_attr_of_state {node : SimpleSelector} {state : StateName}
    (read : node.state? = some state) : ∃ attr, attr.isState = true ∧ node = .attr attr := by
  cases node with
  | attr attr =>
    refine ⟨attr, ?_, rfl⟩
    by_contra plain
    simp [state?, plain] at read
  | type _ | universal | id _ | className _ | pseudoClass _ _ => cases read

theorem exists_ofState_eq (state : StateName) :
    ∃ attr, attr.isState = true ∧ ofState state = .attr attr :=
  exists_attr_of_state (state_ofState state)

end SimpleSelector

namespace Compound

variable {compound : Compound}

theorem className_ownName_eq_none_iff : compound.ownName.className = none ↔
    ∀ name, .className name ∈ compound.nodes → name = rootClass := by
  rw [ownName, List.findSome?_eq_none_iff]
  constructor
  · intro unread name member
    have isRoot := unread _ member
    by_contra apart
    simp [SimpleSelector.className?, apart] at isRoot
  · intro rooted node member
    cases node with
    | className name => simp [SimpleSelector.className?, rooted name member]
    | type _ | universal | id _ | attr _ | pseudoClass _ _ => rfl

namespace WritesOne

variable (one : compound.WritesOne)
include one

theorem className_eq_some_iff {name : String} : compound.ownName.className = some name ↔
    name ≠ rootClass ∧ .className name ∈ compound.nodes := by
  constructor
  · intro found
    obtain ⟨node, member, read⟩ := List.exists_of_findSome?_eq_some found
    cases node with
    | className other =>
      obtain ⟨apart, rfl⟩ : other ≠ rootClass ∧ other = name := by
        simpa [SimpleSelector.className?] using read
      exact ⟨apart, member⟩
    | type _ | universal | id _ | attr _ | pseudoClass _ _ => cases read
  · rintro ⟨apart, member⟩
    cases found : compound.ownName.className with
    | none => exact absurd (className_ownName_eq_none_iff.mp found name member) apart
    | some other =>
      obtain ⟨node, member', read⟩ := List.exists_of_findSome?_eq_some found
      cases node with
      | className written =>
        obtain ⟨_, rfl⟩ : written ≠ rootClass ∧ written = other := by
          simpa [SimpleSelector.className?] using read
        exact congrArg some (one.classes _ _ member' member)
      | type _ | universal | id _ | attr _ | pseudoClass _ _ => cases read

theorem state_eq_some_iff {state : StateName} : compound.ownName.state = some state ↔
    SimpleSelector.ofState state ∈ compound.nodes := by
  have first : ∀ {found : StateName}, compound.ownName.state = some found →
      SimpleSelector.ofState found ∈ compound.nodes := by
    intro found isFound
    obtain ⟨node, member, read⟩ := List.exists_of_findSome?_eq_some isFound
    obtain ⟨attr, isState, rfl⟩ := SimpleSelector.exists_attr_of_state read
    obtain ⟨written, plain⟩ := one.plain attr member isState
    rw [plain, SimpleSelector.state_ofState] at read
    cases read
    exact plain ▸ member
  constructor
  · exact first
  · intro member
    obtain ⟨attr, isState, same⟩ := SimpleSelector.exists_ofState_eq state
    cases isFound : compound.ownName.state with
    | none =>
      have unread := List.findSome?_eq_none_iff.mp isFound _ member
      rw [SimpleSelector.state_ofState] at unread
      cases unread
    | some found =>
      obtain ⟨attr', isState', same'⟩ := SimpleSelector.exists_ofState_eq found
      have equal := one.states attr attr' (same ▸ member) (same' ▸ first isFound) isState isState'
      have read := SimpleSelector.state_ofState found
      rw [same', ← equal, ← same, SimpleSelector.state_ofState] at read
      exact read.symm

end WritesOne

end Compound

/-- A block with the objects of a sheet and nothing else. It has the classes and states that the own
compounds of the style rules write, each of them once, and an object has the properties of the rules
with a selector for it. -/
structure Block.IsModelOf (block : Block) (sheet : Sheet) : Prop where
  classesOnce : block.classNames.Nodup
  classes : ∀ name, name ∈ block.classNames ↔
    name ≠ rootClass ∧ ∃ compound ∈ sheet.ownCompounds, .className name ∈ compound.nodes
  rootStatesOnce : (block.states.map State.name).Nodup
  rootStates : ∀ state, state ∈ block.states.map State.name ↔ ∃ compound ∈ sheet.ownCompounds,
    (∀ name, .className name ∈ compound.nodes → name = rootClass) ∧
      SimpleSelector.ofState state ∈ compound.nodes
  statesOnce : ∀ entry ∈ block.classes, (entry.states.map State.name).Nodup
  states : ∀ entry ∈ block.classes, ∀ state, state ∈ entry.states.map State.name ↔
    ∃ compound ∈ sheet.ownCompounds, .className entry.name ∈ compound.nodes ∧
      SimpleSelector.ofState state ∈ compound.nodes
  properties : ∀ key, block.contains key = true → ∀ property pseudo,
    ((block.propertiesAt? key).getD .empty).contains property pseudo = true ↔
      isBookkeeping property = false ∧ ∃ rule ∈ sheet.styleRules,
        (∃ declaration ∈ rule.declarations, declaration.property = property) ∧
          ∃ selector ∈ rule.head.parsed,
            selector.HasKey block (some key) ∧ selector.pseudoName? = pseudo

namespace Draft

section Complete

variable {text file debugIdentifier defaultName : String} {identifier : FileId} {sheet : Sheet}
  {draft : Draft} {graph : Graph} {defaults : FileId → String} {links : List (Link × BlockId)}
  {block : Block}

/-- What is known of the draft in which the style rules of a sheet are recorded. -/
structure IsPrepared (sheet : Sheet) (graph : Graph) (prepared last : Draft) : Prop where
  added : sheet.styleRules.foldlM (addRule graph) prepared = .ok last
  bare : HasNoObjects prepared.block
  noUses : ∀ key, prepared.block.usesAt key = []
  selectors : ∀ rule ∈ sheet.styleRules,
    prepared.block.selectorsOf rule.head.id = rule.head.parsed

theorem exists_isPrepared (read : parseSheet text file = .ok sheet)
    (drafted : ofSheet sheet identifier debugIdentifier defaultName = .ok draft)
    (completed : draft.complete graph defaults links = .ok block) :
    ∃ prepared last, IsPrepared sheet graph prepared last ∧ last.block = block := by
  obtain ⟨prepared, last, done, added, rfl⟩ := complete_eq_ok_iff.mp completed
  have kept := (keepsPlain_ofSheet drafted).complete completed
  have numbered := parseSheet_isNumbered read
  have source := foldlM_keeps (fun draft => prepared.block.SameSource draft.block)
    (fun _ kept added => kept.trans (sameSource_addRule added)) (.refl _) added
  have same : prepared.block.sheet = sheet := source.sheet.symm.trans kept.same
  refine ⟨prepared, last, ⟨same ▸ added, hasNoObjects_prepare (hasNoObjects_ofSheet drafted) done,
    fun key => (sameUses_prepare done key).trans (usesAt_ofSheet drafted key), ?_⟩, rfl⟩
  intro rule style
  have kept' : prepared.block.selectorsOf = last.block.selectorsOf := by
    unfold Block.selectorsOf
    rw [source.selectors]
  have listed := (mem_headsIn_true_iff _ _).mpr ⟨rule, style, rfl⟩
  rw [kept', kept.selectorsOf_eq numbered listed]
  rfl

namespace IsPrepared

variable {prepared last : Draft} (known : IsPrepared sheet graph prepared last)
include known

theorem unique : last.block.HasUniqueNames :=
  (continues_addRules known.added).unique known.bare.unique

theorem classified {rule : Rule} (style : rule ∈ sheet.styleRules) {selector : Selector}
    (written : selector ∈ rule.head.parsed) : ∃ stage,
      ComesTo graph rule selector stage prepared sheet.styleRules ∧ ∃ read key,
        Legality.classify graph stage selector = .ok (read, key) ∧ read.Grows last.block := by
  obtain ⟨stage, comes⟩ := exists_comesTo known.added style (known.selectors rule style ▸ written)
  obtain ⟨_, read, key, classified, onward⟩ := comes.classified known.added
  exact ⟨stage, comes, read, key, classified, onward.grows⟩

/-- The own compounds of a sheet that was accepted write one object each. -/
theorem writesOne {compound : Compound} (member : compound ∈ sheet.ownCompounds) :
    compound.WritesOne := by
  obtain ⟨listed, own⟩ := List.mem_filter.mp member
  obtain ⟨rule, style, listed⟩ := List.mem_flatMap.mp listed
  obtain ⟨selector, written, listed⟩ := List.mem_flatMap.mp listed
  obtain ⟨entry, inside, rfl⟩ := List.mem_map.mp listed
  obtain ⟨stage, _, read, key, classified, _⟩ := known.classified style written
  have legal := Legality.exists_classify_iff_isLegal.mp ⟨_, classified⟩
  exact (legal.compounds entry inside).own (by simpa using own)

/-- The block defines its root and what the own compounds of the sheet write. -/
theorem defines_iff {name : ObjectReference} (plain : name.className ≠ some rootClass) :
    last.block.Defines name ↔ name.className = none ∧ name.state = none ∨
      ∃ compound ∈ sheet.ownCompounds, name.className = compound.ownName.className ∧
        (name.state = none ∨ name.state = compound.ownName.state) := by
  rw [defines_addRules known.added plain, known.bare.defines_iff plain]
  refine or_congr_right ⟨?_, ?_⟩
  · rintro ⟨rule, style, selector, written, entry, inside, own, names⟩
    refine ⟨entry.2, List.mem_filter.mpr ⟨List.mem_flatMap.mpr ⟨rule, style, ?_⟩, ?_⟩, names⟩
    · exact List.mem_flatMap.mpr ⟨selector, known.selectors rule style ▸ written,
        List.mem_map_of_mem inside⟩
    · simpa using own
  · rintro ⟨compound, member, names⟩
    obtain ⟨listed, own⟩ := List.mem_filter.mp member
    obtain ⟨rule, style, listed⟩ := List.mem_flatMap.mp listed
    obtain ⟨selector, written, listed⟩ := List.mem_flatMap.mp listed
    obtain ⟨entry, inside, rfl⟩ := List.mem_map.mp listed
    exact ⟨rule, style, selector, known.selectors rule style ▸ written, entry, inside,
      by simpa using own, names⟩

theorem mem_classNames_iff {name : String} : name ∈ last.block.classNames ↔
    name ≠ rootClass ∧ ∃ compound ∈ sheet.ownCompounds, .className name ∈ compound.nodes := by
  by_cases apart : name = rootClass
  · subst apart
    exact iff_of_false known.unique.noRoot fun ⟨apart, _⟩ => apart rfl
  rw [← Block.defines_class_iff apart, known.defines_iff (by simpa using apart),
    and_iff_right apart]
  simp only [reduceCtorEq, false_or, true_or, and_true]
  refine exists_congr fun compound => and_congr_right fun member => ?_
  rw [eq_comm, (known.writesOne member).className_eq_some_iff, and_iff_right apart]

/-- The states of the root or of a class are those that are written with the class. -/
theorem mem_stateNames_iff {className : Option String} (plain : className ≠ some rootClass)
    {owner : Option Nat} (owned : last.block.owner? className = some owner)
    {names : List StateName} (listed : last.block.stateNames? owner = some names)
    {state : StateName} : state ∈ names ↔ ∃ compound ∈ sheet.ownCompounds,
      compound.ownName.className = className ∧ SimpleSelector.ofState state ∈ compound.nodes := by
  rw [← Block.defines_state_iff owned listed, known.defines_iff plain]
  simp only [reduceCtorEq, and_false, false_or]
  refine exists_congr fun compound => and_congr_right fun member => ?_
  rw [← (known.writesOne member).state_eq_some_iff, eq_comm (a := className),
    eq_comm (a := some state)]

/-- An object has the properties that are declared for its key. -/
theorem mem_usesAt_iff (key : ObjectKey) (use : PropertyUse) :
    use ∈ last.block.usesAt key ↔ ∃ rule ∈ sheet.styleRules, ∃ selector ∈ rule.head.parsed,
      selector.HasKey last.block (some key) ∧ rule.DeclaresFor selector use := by
  rw [mem_usesAt_addRules known.added, known.noUses key]
  simp only [List.not_mem_nil, false_or]
  constructor
  · rintro ⟨rule, selector, stage, comes, ⟨read, classified⟩, declares⟩
    obtain ⟨style, written⟩ := comes.mem
    obtain ⟨_, read', _, again, onward⟩ := comes.classified known.added
    cases classified.symm.trans again
    exact ⟨rule, style, selector, known.selectors rule style ▸ written,
      (Legality.hasKey_of_classify classified).grow onward.grows, declares⟩
  · rintro ⟨rule, style, selector, written, hasKey, declares⟩
    obtain ⟨stage, comes, read, found, classified, onward⟩ := known.classified style written
    have same := hasKey.unique ((Legality.hasKey_of_classify classified).grow onward)
    exact ⟨rule, selector, stage, comes, ⟨read, same ▸ classified⟩, declares⟩

end IsPrepared

/-- What completing a draft gives is a model of the sheet that was read. -/
theorem complete_isModelOf (read : parseSheet text file = .ok sheet)
    (drafted : ofSheet sheet identifier debugIdentifier defaultName = .ok draft)
    (completed : draft.complete graph defaults links = .ok block) : block.IsModelOf sheet := by
  obtain ⟨prepared, last, known, rfl⟩ := exists_isPrepared read drafted completed
  have unique := known.unique
  have owned : ∀ entry ∈ last.block.classes, ∃ owner,
      last.block.owner? (some entry.name) = some owner ∧
        last.block.stateNames? owner = some (entry.states.map State.name) := by
    intro entry member
    obtain ⟨index, placed⟩ := List.mem_iff_getElem?.mp member
    exact ⟨some index, unique.owner_of_getElem placed,
      by simp [Block.stateNames?, Block.statesOf?, placed]⟩
  refine ⟨unique.classes, fun name => known.mem_classNames_iff, unique.states none _ rfl,
    fun state => ?_, fun entry member => ?_, fun entry member state => ?_, ?_⟩
  · have plain : (none : Option String) ≠ some rootClass := by simp
    rw [known.mem_stateNames_iff plain rfl rfl]
    simp only [Compound.className_ownName_eq_none_iff]
  · obtain ⟨owner, _, listed⟩ := owned entry member
    exact unique.states owner _ listed
  · obtain ⟨owner, isOwner, listed⟩ := owned entry member
    have apart : entry.name ≠ rootClass := fun same =>
      unique.noRoot (same ▸ List.mem_map_of_mem member)
    rw [known.mem_stateNames_iff (by simpa using apart) isOwner listed]
    refine exists_congr fun compound => and_congr_right fun own => ?_
    rw [(known.writesOne own).className_eq_some_iff, and_iff_right apart]
  · intro key _ property pseudo
    have uses : ((last.block.propertiesAt? key).getD .empty).contains property pseudo = true ↔
        (⟨pseudo, property⟩ : PropertyUse) ∈ last.block.usesAt key := List.contains_iff_mem
    rw [uses, known.mem_usesAt_iff]
    constructor
    · rintro ⟨rule, style, selector, written, hasKey, rfl, declaration, stands, plain, rfl⟩
      exact ⟨plain, rule, style, ⟨declaration, stands, rfl⟩, selector, written, hasKey, rfl⟩
    · rintro ⟨plain, rule, style, ⟨declaration, stands, rfl⟩, selector, written, hasKey, rfl⟩
      exact ⟨rule, style, selector, written, hasKey, rfl, declaration, stands, plain, rfl⟩

end Complete

end Draft

/-- A block with two classes, one of them with a state, that declare one color. -/
def chipBlock : Block :=
  { Block.bare "chip" "chip.css" "chip.css" with
    classes := [⟨"a", [], ⟨[⟨some "before", "color"⟩]⟩⟩,
      ⟨"b", [⟨⟨none, "on"⟩, ⟨[⟨none, "color"⟩]⟩⟩], ⟨[]⟩⟩]
    sheet := ⟨"chip.css", [
      .rule ⟨0, ".root", ⟨1, 1, 0⟩⟩ [.declaration ⟨"block-name", "chip", false, ⟨1, 9, 8⟩⟩],
      .rule ⟨1, ".a::before, .b[state|on]", ⟨1, 29, 28⟩⟩
        [.declaration ⟨"color", "red", false, ⟨1, 56, 55⟩⟩]], 2⟩
    selectors := [(0, [.ofCompound ⟨[.className "root"], none⟩]),
      (1, [.ofCompound ⟨[.className "a"], some ⟨"before", false⟩⟩,
        .ofCompound ⟨[.className "b", .ofState ⟨none, "on"⟩], none⟩])] }

/-- The block is a model of its sheet, and its name is none of its properties. -/
theorem chipBlock_isModelOf : chipBlock.IsModelOf chipBlock.sheet ∧
    chipBlock.properties.contains "block-name" none = false := by
  let draft : Draft := ⟨{ Block.bare "chip" "chip.css" "chip.css" with
    sheet := chipBlock.sheet, selectors := chipBlock.selectors }, [0]⟩
  have read : parseSheet (".root \x7b block-name: chip; \x7d " ++
      ".a::before, .b[state|on] \x7b color: red; \x7d") "chip.css" = .ok chipBlock.sheet := by
    with_unfolding_all rfl
  have drafted : Draft.ofSheet chipBlock.sheet "chip.css" "chip.css" "main" = .ok draft := by
    with_unfolding_all rfl
  have completed : draft.complete ⟨#[none]⟩ id [] = .ok chipBlock := by with_unfolding_all rfl
  have model := Draft.complete_isModelOf read drafted completed
  refine ⟨model, Bool.eq_false_iff.mpr fun declared => ?_⟩
  obtain ⟨plain, _⟩ := (model.properties .root rfl "block-name" none).mp declared
  cases plain

end StyleBlock
