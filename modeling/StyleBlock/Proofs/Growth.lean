import StyleBlock.Proofs.LoadedBlock
import StyleBlock.Proofs.Lookup

/-!
How a block grows while its sheet is read. Classes and states are only added, each behind the others
of its kind, so whatever a name stood for it stands for ever after; and no name is given twice.
-/

namespace StyleBlock

theorem findIdx?_eq_of_nodup {Name : Type} [DecidableEq Name] {names : List Name}
    (nodup : names.Nodup) {index : Nat} {name : Name} (placed : names[index]? = some name) :
    names.findIdx? (· = name) = some index := by
  obtain ⟨below, rfl⟩ := List.getElem?_eq_some_iff.mp placed
  refine List.findIdx?_eq_some_iff_getElem.mpr ⟨below, by simp, fun other less => ?_⟩
  simpa [nodup.getElem_inj_iff] using less.ne

namespace Block

/-- The names of the classes of a block, in order. -/
def classNames (block : Block) : List String := block.classes.map BlockClass.name

/-- The names of the states of the root or of a class, in order. -/
def stateNames? (block : Block) (owner : Option Nat) : Option (List StateName) :=
  (block.statesOf? owner).map fun states => states.map State.name

theorem findClass_eq (block : Block) (name : String) :
    block.findClass? name = block.classNames.findIdx? (· = name) := by
  simp [findClass?, classNames, Function.comp_def]

theorem keyIn_eq (block : Block) (owner : Option Nat) (state : StateName) :
    block.keyIn? owner (some state) =
      (block.stateNames? owner).bind fun names =>
        (names.findIdx? (· = state)).map (ObjectKey.ofState owner) := by
  unfold keyIn? stateNames?
  cases block.statesOf? owner with
  | none => rfl
  | some states => simp [findState?, Function.comp_def]

/-- A stage of a block and a later one: every name is still at its place. -/
structure Grows (before after : Block) : Prop where
  classes : before.classNames <+: after.classNames
  states : ∀ owner names, before.stateNames? owner = some names →
    ∃ later, after.stateNames? owner = some later ∧ names <+: later

namespace Grows

theorem refl (block : Block) : Grows block block :=
  ⟨List.prefix_rfl, fun _ names known => ⟨names, known, List.prefix_rfl⟩⟩

theorem trans {first second third : Block} (one : first.Grows second) (other : second.Grows third) :
    first.Grows third where
  classes := one.classes.trans other.classes
  states owner names known := by
    obtain ⟨later, known, before⟩ := one.states owner names known
    obtain ⟨last, known, after⟩ := other.states owner later known
    exact ⟨last, known, before.trans after⟩

/-- A change that leaves all names as they are. -/
theorem of_names {before after : Block} (classes : after.classNames = before.classNames)
    (states : ∀ owner, after.stateNames? owner = before.stateNames? owner) : before.Grows after :=
  ⟨classes ▸ List.prefix_rfl, fun owner names known =>
    ⟨names, states owner ▸ known, List.prefix_rfl⟩⟩

variable {before after : Block} (grows : before.Grows after)
include grows

theorem findClass {name : String} {index : Nat} (found : before.findClass? name = some index) :
    after.findClass? name = some index := by
  rw [findClass_eq] at found ⊢
  exact grows.classes.findIdx?_eq_some found

theorem keyIn {owner : Option Nat} {state : Option StateName} {key : ObjectKey}
    (found : before.keyIn? owner state = some key) : after.keyIn? owner state = some key := by
  cases state with
  | none => exact found
  | some state =>
    rw [keyIn_eq] at found ⊢
    obtain ⟨names, known, found⟩ := Option.bind_eq_some_iff.mp found
    obtain ⟨index, placed, rfl⟩ := Option.map_eq_some_iff.mp found
    obtain ⟨later, known, isPrefix⟩ := grows.states owner names known
    rw [known, Option.bind_some, isPrefix.findIdx?_eq_some placed, Option.map_some]

theorem owner {name : Option String} {owner : Option Nat}
    (found : before.owner? name = some owner) : after.owner? name = some owner := by
  unfold owner? at found ⊢
  split at found
  · exact found
  · split at found
    · rw [if_pos ‹_›, found]
    · rw [if_neg ‹_›]
      obtain ⟨index, placed, rfl⟩ := Option.map_eq_some_iff.mp found
      rw [grows.findClass placed, Option.map_some]

/-- What a reference finds in a block it finds ever after. -/
theorem findOwn {reference : ObjectReference} {key : ObjectKey}
    (found : before.findOwn? reference = some key) : after.findOwn? reference = some key := by
  rw [findOwn_eq_bind] at found ⊢
  obtain ⟨owner, owned, found⟩ := Option.bind_eq_some_iff.mp found
  rw [grows.owner owned, Option.bind_some, grows.keyIn found]

end Grows

/-! Classes -/

theorem classNames_ensureClass (block : Block) (name : String) :
    (block.ensureClass name).1.classNames =
      if name ∈ block.classNames then block.classNames else block.classNames ++ [name] := by
  unfold ensureClass
  split
  · rename_i index found
    rw [findClass_eq] at found
    obtain ⟨below, same, _⟩ := List.findIdx?_eq_some_iff_getElem.mp found
    have present : name ∈ block.classNames := by
      have member := List.getElem_mem below
      rwa [of_decide_eq_true same] at member
    rw [if_pos present]
  · rename_i missing
    rw [findClass_eq, List.findIdx?_eq_none_iff] at missing
    have absent : name ∉ block.classNames := fun present => by simpa using missing name present
    rw [if_neg absent]
    simp [classNames]

theorem statesOf_ensureClass (block : Block) (name : String) (owner : Option Nat) :
    (block.ensureClass name).1.statesOf? owner = block.statesOf? owner ∨
      block.statesOf? owner = none ∧ (block.ensureClass name).1.statesOf? owner = some [] := by
  unfold ensureClass
  split
  · exact .inl rfl
  · cases owner with
    | none => exact .inl rfl
    | some index =>
      simp only [statesOf?]
      rcases Nat.lt_trichotomy index block.classes.length with below | same | above
      · rw [List.getElem?_append_left below]
        exact .inl rfl
      · subst same
        simp
      · rw [List.getElem?_eq_none (by simpa using above), List.getElem?_eq_none above.le]
        exact .inl rfl

theorem grows_ensureClass (block : Block) (name : String) :
    block.Grows (block.ensureClass name).1 where
  classes := by
    rw [classNames_ensureClass]
    split
    · exact List.prefix_rfl
    · exact List.prefix_append ..
  states owner names known := by
    unfold stateNames? at known ⊢
    rcases block.statesOf_ensureClass name owner with same | ⟨missing, _⟩
    · exact ⟨names, by rw [same, known], List.prefix_rfl⟩
    · rw [missing] at known
      cases known

/-- A class that was asked for is there. -/
theorem findClass_ensureClass (block : Block) (name : String) :
    (block.ensureClass name).1.findClass? name = some (block.ensureClass name).2 := by
  cases found : block.findClass? name with
  | some index => simp [ensureClass, found]
  | none =>
    rw [findClass_eq, classNames_ensureClass]
    rw [findClass_eq, List.findIdx?_eq_none_iff] at found
    have absent : name ∉ block.classNames := fun present => by simpa using found name present
    rw [if_neg absent, List.findIdx?_append, List.findIdx?_eq_none_iff.mpr found]
    have fresh : block.findClass? name = none := by
      rw [findClass_eq]
      exact List.findIdx?_eq_none_iff.mpr found
    simp [ensureClass, fresh, classNames]

/-! States -/

theorem names_ensureStateIn (states : List State) (name : StateName) :
    (ensureStateIn states name).1.map State.name =
        (if name ∈ states.map State.name then states.map State.name
          else states.map State.name ++ [name]) ∧
      ((ensureStateIn states name).1.map State.name).findIdx? (· = name) =
        some (ensureStateIn states name).2 := by
  unfold ensureStateIn findState?
  split
  · rename_i index found
    have placed : (states.map State.name).findIdx? (· = name) = some index := by
      simpa [Function.comp_def] using found
    obtain ⟨below, same, _⟩ := List.findIdx?_eq_some_iff_getElem.mp placed
    have present : name ∈ states.map State.name := by
      have member := List.getElem_mem below
      rwa [of_decide_eq_true same] at member
    exact ⟨by rw [if_pos present], placed⟩
  · rename_i missing
    have unplaced : (states.map State.name).findIdx? (· = name) = none := by
      simpa [Function.comp_def] using missing
    have absent : name ∉ states.map State.name := fun present => by
      simpa using List.findIdx?_eq_none_iff.mp unplaced name present
    refine ⟨by rw [if_neg absent, List.map_append, List.map_singleton], ?_⟩
    rw [List.map_append, List.findIdx?_append, unplaced]
    simp

/-- The root, or a class that the block has. -/
def HasOwner (block : Block) (owner : Option Nat) : Prop :=
  ∀ index ∈ owner, index < block.classes.length

theorem hasOwner_of_findClass {block : Block} {name : String} {index : Nat}
    (found : block.findClass? name = some index) : block.HasOwner (some index) := by
  rintro _ ⟨⟩
  exact (List.findIdx?_eq_some_iff_findIdx_eq.mp found).1

theorem hasOwner_of_owner {block : Block} {className : Option String}
    {owner : Option Nat} (owned : block.owner? className = some owner) : block.HasOwner owner := by
  unfold owner? at owned
  split at owned
  · cases owned
    exact nofun
  · split at owned
    · cases owned
      exact nofun
    · obtain ⟨index, found, rfl⟩ := Option.map_eq_some_iff.mp owned
      exact hasOwner_of_findClass found

theorem statesOf_isSome {block : Block} {owner : Option Nat} (has : block.HasOwner owner) :
    ∃ states, block.statesOf? owner = some states := by
  cases owner with
  | none => exact ⟨_, rfl⟩
  | some index => simp [statesOf?, has index rfl]

/-- Asking for a state changes the states of its owner only. -/
theorem statesOf_ensureState {block : Block} {owner : Option Nat} {states : List State}
    (known : block.statesOf? owner = some states) (name : StateName) :
    (block.ensureState owner name).2 = .ofState owner (ensureStateIn states name).2 ∧
      (block.ensureState owner name).1.classNames = block.classNames ∧
      (block.ensureState owner name).1.statesOf? owner = some (ensureStateIn states name).1 ∧
      ∀ other ≠ owner, (block.ensureState owner name).1.statesOf? other =
        block.statesOf? other := by
  cases owner with
  | none =>
    cases known
    refine ⟨rfl, rfl, rfl, fun other different => ?_⟩
    cases other with
    | none => exact absurd rfl different
    | some index => rfl
  | some index =>
    obtain ⟨entry, placed, rfl⟩ := Option.map_eq_some_iff.mp known
    obtain ⟨below, isEntry⟩ := List.getElem?_eq_some_iff.mp placed
    have ensured : block.ensureState (some index) name =
        ({ block with
            classes := block.classes.set index
              { entry with states := (ensureStateIn entry.states name).1 } },
          .ofState (some index) (ensureStateIn entry.states name).2) := by
      simp [ensureState, placed]
    rw [ensured]
    refine ⟨rfl, ?_, by simp [statesOf?, below], fun other different => ?_⟩
    · apply List.ext_getElem?
      intro place
      simp only [classNames, List.getElem?_map, List.getElem?_set]
      split
      · rename_i same
        subst same
        simp [below, isEntry]
      · rfl
    · cases other with
      | none => rfl
      | some place =>
        have apart : index ≠ place := fun same => different (congrArg some same.symm)
        simp [statesOf?, apart]

theorem stateNames_ensureState {block : Block} {owner : Option Nat} (has : block.HasOwner owner)
    (name : StateName) :
    (∃ names, block.stateNames? owner = some names ∧
      (block.ensureState owner name).1.stateNames? owner =
        some (if name ∈ names then names else names ++ [name])) ∧
      ∀ other ≠ owner,
        (block.ensureState owner name).1.stateNames? other = block.stateNames? other := by
  obtain ⟨states, known⟩ := statesOf_isSome has
  obtain ⟨_, _, here, others⟩ := statesOf_ensureState known name
  refine ⟨⟨states.map State.name, by simp [stateNames?, known], ?_⟩, fun other different => ?_⟩
  · rw [stateNames?, here, Option.map_some, (names_ensureStateIn states name).1]
  · rw [stateNames?, others other different, stateNames?]

theorem grows_ensureState {block : Block} {owner : Option Nat} (has : block.HasOwner owner)
    (name : StateName) : block.Grows (block.ensureState owner name).1 := by
  obtain ⟨states, known⟩ := statesOf_isSome has
  obtain ⟨⟨names, before, here⟩, others⟩ := stateNames_ensureState has name
  refine ⟨(statesOf_ensureState known name).2.1 ▸ List.prefix_rfl, fun other names' known' => ?_⟩
  by_cases same : other = owner
  · subst same
    rw [before] at known'
    cases known'
    refine ⟨_, here, ?_⟩
    split
    · exact List.prefix_rfl
    · exact List.prefix_append ..
  · exact ⟨names', (others other same).trans known', List.prefix_rfl⟩

/-- A state that was asked for is there. -/
theorem keyIn_ensureState {block : Block} {owner : Option Nat} (has : block.HasOwner owner)
    (name : StateName) :
    (block.ensureState owner name).1.keyIn? owner (some name) =
      some (block.ensureState owner name).2 := by
  obtain ⟨states, known⟩ := statesOf_isSome has
  obtain ⟨key, _, here, _⟩ := statesOf_ensureState known name
  have placed := (names_ensureStateIn states name).2
  rw [keyIn_eq, stateNames?, here, Option.map_some, Option.bind_some, placed, Option.map_some, key]

/-- A key of a state stands for one state. -/
theorem state_unique {block : Block} {owner : Option Nat} {first second : StateName}
    {key : ObjectKey} (one : block.keyIn? owner (some first) = some key)
    (other : block.keyIn? owner (some second) = some key) : first = second := by
  rw [keyIn_eq] at one other
  obtain ⟨names, known, found⟩ := Option.bind_eq_some_iff.mp one
  obtain ⟨index, placed, rfl⟩ := Option.map_eq_some_iff.mp found
  obtain ⟨again, known', found⟩ := Option.bind_eq_some_iff.mp other
  obtain ⟨place, placed', same⟩ := Option.map_eq_some_iff.mp found
  cases known.symm.trans known'
  cases same
  obtain ⟨_, isFirst, _⟩ := List.findIdx?_eq_some_iff_getElem.mp placed
  obtain ⟨_, isSecond, _⟩ := List.findIdx?_eq_some_iff_getElem.mp placed'
  exact (of_decide_eq_true isFirst).symm.trans (of_decide_eq_true isSecond)

/-- A key of the root, of a class or of a state stands for one state, or for none. -/
theorem keyIn_injective {block : Block} {owner : Option Nat} {first second : Option StateName}
    {key : ObjectKey} (one : block.keyIn? owner first = some key)
    (other : block.keyIn? owner second = some key) : first = second := by
  have isState : ∀ {name : StateName}, block.keyIn? owner (some name) = some key →
      block.keyIn? owner none ≠ some key := by
    intro name stated plain
    obtain ⟨states, _, found⟩ := Option.bind_eq_some_iff.mp stated
    obtain ⟨index, _, rfl⟩ := Option.map_eq_some_iff.mp found
    cases owner <;> cases plain
  cases first with
  | none =>
    cases second with
    | none => rfl
    | some name => exact absurd one (isState other)
  | some name =>
    cases second with
    | none => exact absurd other (isState one)
    | some name' => exact congrArg some (state_unique one other)

theorem isRootLevel_keyIn {block : Block} {owner : Option Nat} {state : Option StateName}
    {key : ObjectKey} (found : block.keyIn? owner state = some key) :
      key.isRootLevel = owner.isNone := by
  cases state with
  | none =>
    cases found
    cases owner <;> rfl
  | some name =>
    obtain ⟨states, _, found⟩ := Option.bind_eq_some_iff.mp found
    obtain ⟨index, _, rfl⟩ := Option.map_eq_some_iff.mp found
    rfl

/-! Properties -/

theorem map_name_modifyState (states : List State) (index : Nat)
    (change : PropertyUses → PropertyUses) :
    (modifyState states index change).map State.name = states.map State.name := by
  apply List.ext_getElem?
  intro place
  simp only [modifyState, List.getElem?_map, List.getElem?_modify, Option.map_map,
    Option.map_eq_map]
  split <;> rfl

/-- A change of one class that keeps its name and those of its states keeps all names. -/
theorem names_modifyClass (block : Block) (index : Nat) {change : BlockClass → BlockClass}
    (name : ∀ entry, (change entry).name = entry.name)
    (states : ∀ entry, (change entry).states.map State.name = entry.states.map State.name) :
    let after : Block := { block with classes := block.classes.modify index change }
    after.classNames = block.classNames ∧
      ∀ owner, after.stateNames? owner = block.stateNames? owner := by
  refine ⟨List.ext_getElem? fun place => ?_, fun owner => ?_⟩
  · simp only [classNames, List.getElem?_map, List.getElem?_modify, Option.map_eq_map,
      Option.map_map]
    split
    · simp [Function.comp_def, name]
    · rfl
  · cases owner with
    | none => rfl
    | some place =>
      simp only [stateNames?, statesOf?, List.getElem?_modify, Option.map_eq_map, Option.map_map]
      split
      · simp [Function.comp_def, states]
      · rfl

theorem names_modifyProperties (block : Block) (key : ObjectKey)
    (change : PropertyUses → PropertyUses) :
    (block.modifyProperties key change).classNames = block.classNames ∧
      ∀ owner, (block.modifyProperties key change).stateNames? owner = block.stateNames? owner := by
  cases key with
  | root => exact ⟨rfl, fun owner => by cases owner <;> rfl⟩
  | ofClass index => exact block.names_modifyClass index (fun _ => rfl) fun _ => rfl
  | ofState owner index =>
    cases owner with
    | none =>
      refine ⟨rfl, fun owner => ?_⟩
      cases owner with
      | none => simp [modifyProperties, stateNames?, statesOf?, map_name_modifyState]
      | some place => rfl
    | some owner =>
      exact block.names_modifyClass owner (fun _ => rfl)
        fun entry => map_name_modifyState entry.states index change

/-! No name is given twice -/

/-- A block whose classes have names of their own, none of them that of the root, and whose states
have names of their own beside those of the same owner. -/
structure HasUniqueNames (block : Block) : Prop where
  classes : block.classNames.Nodup
  noRoot : rootClass ∉ block.classNames
  states : ∀ owner names, block.stateNames? owner = some names → names.Nodup

namespace HasUniqueNames

theorem of_names {before after : Block} (unique : before.HasUniqueNames)
    (classes : after.classNames = before.classNames)
    (states : ∀ owner, after.stateNames? owner = before.stateNames? owner) :
    after.HasUniqueNames :=
  ⟨classes ▸ unique.classes, classes ▸ unique.noRoot,
    fun owner names known => unique.states owner names (states owner ▸ known)⟩

theorem nodup_append_new {α : Type} {names : List α} {name : α} (single : names.Nodup)
    (new : name ∉ names) : (names ++ [name]).Nodup :=
  List.nodup_append.mpr ⟨single, by simp, fun other present last isLast same =>
    new (List.mem_singleton.mp isLast ▸ same ▸ present)⟩

theorem ensureClass {block : Block} (unique : block.HasUniqueNames) {name : String}
    (notRoot : name ≠ rootClass) : (block.ensureClass name).1.HasUniqueNames where
  classes := by
    rw [classNames_ensureClass]
    split
    · exact unique.classes
    · exact nodup_append_new unique.classes ‹_›
  noRoot := by
    rw [classNames_ensureClass]
    split
    · exact unique.noRoot
    · simp [unique.noRoot, notRoot.symm]
  states owner names known := by
    rcases block.statesOf_ensureClass name owner with same | ⟨_, empty⟩
    · exact unique.states owner names (by rw [stateNames?, ← same, ← stateNames?, known])
    · rw [stateNames?, empty] at known
      cases known
      exact List.nodup_nil

theorem ensureState {block : Block} (unique : block.HasUniqueNames) {owner : Option Nat}
    (has : block.HasOwner owner) (name : StateName) :
    (block.ensureState owner name).1.HasUniqueNames := by
  obtain ⟨states, known⟩ := statesOf_isSome has
  have classes := (statesOf_ensureState known name).2.1
  obtain ⟨⟨names, before, here⟩, others⟩ := stateNames_ensureState has name
  refine ⟨classes ▸ unique.classes, classes ▸ unique.noRoot, fun other names' known' => ?_⟩
  by_cases same : other = owner
  · subst same
    rw [here] at known'
    cases known'
    have single := unique.states other names before
    split
    · exact single
    · exact nodup_append_new single ‹_›
  · exact unique.states other names' ((others other same).symm.trans known')

/-- A class is at the place that its name finds. -/
theorem owner_of_getElem {block : Block} (unique : block.HasUniqueNames) {index : Nat}
    {entry : BlockClass} (placed : block.classes[index]? = some entry) :
    block.owner? (some entry.name) = some (some index) := by
  have named : block.classNames[index]? = some entry.name := by
    rw [classNames, List.getElem?_map, placed, Option.map_some]
  have notRoot : entry.name ≠ rootClass := fun same =>
    unique.noRoot (same ▸ List.mem_of_getElem? named)
  rw [owner?, if_neg notRoot, findClass_eq, findIdx?_eq_of_nodup unique.classes named,
    Option.map_some]

end HasUniqueNames

end Block

end StyleBlock
