import StyleBlock.Legality
import StyleBlock.Proofs.Growth
import StyleBlock.Proofs.Outcome

/-!
What a compound without a block name writes. A legal one writes one object of its block: one class
or the root, and at most one state of it, each as often as it likes. The object that reading it
registers is the one that these names find.
-/

namespace StyleBlock

open Legality (plainState?)

/-- Nodes that write the root or one class, and at most one state. The class comes before the
first state; the root may come anywhere or be left out. -/
structure Writes (nodes : List SimpleSelector) (className : Option String)
    (state : Option StateName) : Prop where
  notRoot : className ≠ some rootClass
  classes : ∀ name, .className name ∈ nodes → name = className.getD rootClass
  states : ∀ attr, .attr attr ∈ nodes → attr.isState = true →
    ∃ name ∈ state, plainState? (.attr attr) attr = some name
  owned : ∀ name ∈ className, ∃ before after, nodes = before ++ .className name :: after ∧
    ∀ attr, .attr attr ∈ before → attr.isState = false
  stated : state.isSome = true → ∃ attr, .attr attr ∈ nodes ∧ attr.isState = true

namespace Writes

variable {nodes : List SimpleSelector} {className : Option String} {state : Option StateName}

theorem nil : Writes [] none none :=
  ⟨nofun, nofun, nofun, nofun, nofun⟩

/-- A class stays in front of the first state whatever is added behind. -/
theorem owned_append (writes : Writes nodes className state) (last : SimpleSelector) :
    ∀ name ∈ className, ∃ before after, nodes ++ [last] = before ++ .className name :: after ∧
      ∀ attr, .attr attr ∈ before → attr.isState = false := by
  intro name isName
  obtain ⟨before, after, rfl, free⟩ := writes.owned name isName
  exact ⟨before, after ++ [last], by simp, free⟩

theorem stated_append (writes : Writes nodes className state) (last : SimpleSelector)
    (some : state.isSome = true) : ∃ attr, .attr attr ∈ nodes ++ [last] ∧ attr.isState = true := by
  obtain ⟨attr, member, isState⟩ := writes.stated some
  exact ⟨attr, by simp [member], isState⟩

/-- A node that is neither a class nor a state adds nothing. -/
theorem append_other (writes : Writes nodes className state) {last : SimpleSelector}
    (noClass : ∀ name, last ≠ .className name)
    (noState : ∀ attr, last = .attr attr → attr.isState = false) :
    Writes (nodes ++ [last]) className state where
  notRoot := writes.notRoot
  classes name member := by
    rcases List.mem_append.mp member with member | member
    · exact writes.classes name member
    · exact absurd (List.mem_singleton.mp member).symm (noClass name)
  states attr member isState := by
    rcases List.mem_append.mp member with member | member
    · exact writes.states attr member isState
    · have plain := noState attr (List.mem_singleton.mp member).symm
      rw [plain] at isState
      cases isState
  owned := writes.owned_append last
  stated := writes.stated_append last

/-- The same class again, or the root. -/
theorem append_class (writes : Writes nodes className state) {name : String}
    (same : name = className.getD rootClass) :
    Writes (nodes ++ [.className name]) className state where
  notRoot := writes.notRoot
  classes other member := by
    rcases List.mem_append.mp member with member | member
    · exact writes.classes other member
    · cases List.mem_singleton.mp member
      exact same
  states attr member := by
    rcases List.mem_append.mp member with member | member
    · exact writes.states attr member
    · cases List.mem_singleton.mp member
  owned := writes.owned_append _
  stated := writes.stated_append _

/-- The first class, as long as no state and no root came before it. -/
theorem first_class (writes : Writes nodes none none) {name : String} (notRoot : name ≠ rootClass)
    (noRoot : .className rootClass ∉ nodes) :
    Writes (nodes ++ [.className name]) (some name) none where
  notRoot same := notRoot (Option.some.inj same)
  classes other member := by
    rcases List.mem_append.mp member with member | member
    · have isRoot := writes.classes other member
      subst isRoot
      exact absurd member noRoot
    · cases List.mem_singleton.mp member
      rfl
  states attr member isState := by
    rcases List.mem_append.mp member with member | member
    · exact writes.states attr member isState
    · cases List.mem_singleton.mp member
  owned := by
    rintro _ ⟨⟩
    refine ⟨nodes, [], rfl, fun attr member => ?_⟩
    cases isState : attr.isState with
    | false => rfl
    | true => exact nomatch (writes.states attr member isState).choose_spec.1
  stated := nofun

/-- The first state, or the same one again. -/
theorem append_state (writes : Writes nodes className state) {attr : AttributeSelector}
    {name : StateName} (plain : plainState? (.attr attr) attr = some name)
    (isState : attr.isState = true) (same : ∀ other ∈ state, other = name) :
    Writes (nodes ++ [.attr attr]) className (some name) where
  notRoot := writes.notRoot
  classes other member := by
    rcases List.mem_append.mp member with member | member
    · exact writes.classes other member
    · cases List.mem_singleton.mp member
  states other member isOther := by
    rcases List.mem_append.mp member with member | member
    · obtain ⟨found, isFound, reads⟩ := writes.states other member isOther
      exact ⟨name, rfl, same found isFound ▸ reads⟩
    · cases List.mem_singleton.mp member
      exact ⟨name, rfl, plain⟩
  owned := writes.owned_append _
  stated _ := ⟨attr, by simp, isState⟩

end Writes

namespace Legality

/-- Some nodes of an own compound were read from a block on, and the parts found so far stand for
what they write. -/
structure HasRead (start : Block) (seen : List SimpleSelector) (className : Option String)
    (state : Option StateName) (block : Block) (parts : ObjectParts) : Prop where
  grows : start.Grows block
  unique : start.HasUniqueNames → block.HasUniqueNames
  writes : Writes seen className state
  root : parts.root = true ↔ .className rootClass ∈ seen
  owner : block.owner? className = some parts.owner
  state : state.map (fun name => block.keyIn? parts.owner (some name)) = parts.state.map some

namespace HasRead

variable {start block after : Block} {seen : List SimpleSelector} {className : Option String}
  {state : Option StateName} {parts others : ObjectParts} {selector : Selector}

theorem nil (start : Block) : HasRead start [] none none start ⟨false, none, none⟩ :=
  ⟨.refl start, id, .nil, by simp, rfl, rfl⟩

theorem hasOwner (read : HasRead start seen className state block parts) :
    block.HasOwner parts.owner :=
  Block.hasOwner_of_owner read.owner

/-- A block in which all names still stand for the same. -/
theorem keys (read : HasRead start seen className state block parts) (grows : block.Grows after) :
    after.owner? className = some parts.owner ∧
      state.map (fun name => after.keyIn? parts.owner (some name)) = parts.state.map some := by
  refine ⟨grows.owner read.owner, ?_⟩
  have known := read.state
  cases state with
  | none => exact known
  | some name =>
    cases found : parts.state with
    | none => simp [found] at known
    | some key =>
      rw [found] at known
      have here : block.keyIn? parts.owner (some name) = some key := Option.some.inj known
      exact congrArg some (grows.keyIn here)

theorem other (read : HasRead start seen className state block parts) {node : SimpleSelector}
    (noClass : ∀ name, node ≠ .className name)
    (noState : ∀ attr, node = .attr attr → attr.isState = false) :
    HasRead start (seen ++ [node]) className state block parts where
  grows := read.grows
  unique := read.unique
  writes := read.writes.append_other noClass noState
  root := by simp [read.root, (noClass rootClass).symm]
  owner := read.owner
  state := read.state

/-- A class that was written and is not the root has an index. -/
theorem exists_index {name : String}
    (read : HasRead start seen (some name) state block parts) :
    name ≠ rootClass ∧ ∃ index, block.findClass? name = some index ∧ parts.owner = some index := by
  have apart : name ≠ rootClass := fun same => read.writes.notRoot (same ▸ rfl)
  have owned := read.owner
  rw [Block.owner?, if_neg apart] at owned
  obtain ⟨index, found, isOwner⟩ := Option.map_eq_some_iff.mp owned
  exact ⟨apart, index, found, isOwner.symm⟩

/-- The class of the parts is the one that was written. -/
theorem existing (read : HasRead start seen className state block parts) :
    (parts.owner.bind fun index => block.classes[index]?.map BlockClass.name) = className := by
  cases className with
  | none =>
    rw [← Option.some.inj read.owner]
    rfl
  | some name =>
    obtain ⟨_, index, found, isOwner⟩ := read.exists_index
    obtain ⟨below, same, _⟩ := List.findIdx?_eq_some_iff_getElem.mp found
    rw [isOwner, Option.bind_some, List.getElem?_eq_getElem below, Option.map_some,
      of_decide_eq_true same]

/-- The root, as long as no other class came before it. -/
theorem root_class (read : HasRead start seen className state block parts)
    (free : parts.owner = none) :
    HasRead start (seen ++ [.className rootClass]) none state block
      { parts with root := true } := by
  cases className with
  | none =>
    exact ⟨read.grows, read.unique, read.writes.append_class rfl, by simp, read.owner, read.state⟩
  | some name =>
    obtain ⟨_, index, _, isOwner⟩ := read.exists_index
    cases free.symm.trans isOwner

/-- The first class, as long as no state of the root and no root came before it. -/
theorem first_class (read : HasRead start seen none state block parts) {name : String}
    (notRoot : name ≠ rootClass) (noRoot : parts.root = false)
    (stateOwned : parts.state.isSome = true → parts.owner.isSome = true) :
    HasRead start (seen ++ [.className name]) (some name) state (block.ensureClass name).1
      { parts with owner := some (block.ensureClass name).2 } := by
  have free : parts.owner = none := (Option.some.inj read.owner).symm
  have stateless : parts.state = none := by
    cases found : parts.state with
    | none => rfl
    | some key => simp [found, free] at stateOwned
  have plain : state = none := by
    have known := read.state
    cases state with
    | none => rfl
    | some other => simp [stateless] at known
  subst plain
  have apart : .className rootClass ∉ seen := fun present => by
    simp [read.root.mpr present] at noRoot
  refine ⟨read.grows.trans (block.grows_ensureClass name),
    fun start => (read.unique start).ensureClass notRoot,
    read.writes.first_class notRoot apart, ?_, ?_, ?_⟩
  · simp [noRoot, apart, Ne.symm notRoot]
  · rw [Block.owner?, if_neg notRoot, block.findClass_ensureClass, Option.map_some]
  · simp [stateless]

/-- The same class again, which the block has. -/
theorem same_class {name : String} (read : HasRead start seen (some name) state block parts) :
    (block.ensureClass name).1 = block ∧
      HasRead start (seen ++ [.className name]) (some name) state block
        { parts with owner := some (block.ensureClass name).2 } := by
  obtain ⟨apart, index, found, isOwner⟩ := read.exists_index
  have ensured : block.ensureClass name = (block, index) := by simp [Block.ensureClass, found]
  rw [ensured, ← isOwner]
  exact ⟨rfl, read.grows, read.unique, read.writes.append_class rfl,
    by simp [read.root, apart.symm], read.owner, read.state⟩

theorem readClass (read : HasRead start seen className state block parts) {name : String}
    (done : readClass selector block parts name = .ok (after, others)) :
    ∃ className, HasRead start (seen ++ [.className name]) className state after others := by
  unfold Legality.readClass at done
  split at done
  · rename_i isRoot
    split at done
    · cases done
    · rename_i free
      cases done
      subst isRoot
      exact ⟨none, read.root_class (by simpa using free)⟩
  · rename_i notRoot
    split at done
    · cases done
    · rename_i allowed
      obtain ⟨noRoot, stateOwned⟩ :
          parts.root = false ∧ (parts.state.isSome = true → parts.owner.isSome = true) := by
        simpa [Option.isNone_iff_eq_none, Option.isSome_iff_ne_none] using allowed
      simp only [read.existing] at done
      cases className with
      | none =>
        cases done
        exact ⟨some name, read.first_class notRoot noRoot stateOwned⟩
      | some first =>
        dsimp only at done
        split at done
        · rename_i same
          subst same
          cases done
          obtain ⟨ensured, again⟩ := read.same_class
          rw [ensured]
          exact ⟨some first, again⟩
        · cases done

theorem readState (read : HasRead start seen className state block parts) {name : StateName}
    {attr : AttributeSelector} (plain : plainState? (.attr attr) attr = some name)
    (isState : attr.isState = true)
    (done : readState selector block parts name = .ok (after, others)) :
    HasRead start (seen ++ [.attr attr]) className (some name) after others := by
  have grows := block.grows_ensureState read.hasOwner name
  have registered := Block.keyIn_ensureState read.hasOwner name
  obtain ⟨owned, known⟩ := read.keys grows
  -- Both outcomes register the state; a second one must be the first again.
  have finish : (∀ other ∈ state, other = name) →
      HasRead start (seen ++ [.attr attr]) className (some name)
        (block.ensureState parts.owner name).1
        { parts with state := some (block.ensureState parts.owner name).2 } := fun same =>
    { grows := read.grows.trans grows
      unique := fun start => (read.unique start).ensureState read.hasOwner name
      writes := read.writes.append_state plain isState same
      root := by simp [read.root]
      owner := owned
      state := congrArg some registered }
  unfold Legality.readState at done
  dsimp only at done
  split at done
  · rename_i existing found
    split at done
    · rename_i again
      cases done
      refine finish fun other isOther => ?_
      obtain rfl := Option.mem_def.mp isOther
      rw [found] at known
      exact Block.state_unique (Option.some.inj known) (again ▸ registered)
    · cases done
  · rename_i found
    cases done
    refine finish fun other isOther => ?_
    obtain rfl := Option.mem_def.mp isOther
    simp [found] at known

/-- One more node. -/
theorem readNode (read : HasRead start seen className state block parts) {node : SimpleSelector}
    (done : readNode selector (block, parts) node = .ok (after, others)) :
    ∃ className state, HasRead start (seen ++ [node]) className state after others := by
  unfold Legality.readNode at done
  dsimp only at done
  split at done
  · obtain ⟨className, read⟩ := read.readClass done
    exact ⟨className, state, read⟩
  · split at done
    · rename_i isState
      split at done
      · exact ⟨className, _, read.readState ‹_› isState done⟩
      · cases done
    · rename_i attr notState
      cases done
      refine ⟨className, state, read.other nofun ?_⟩
      rintro _ ⟨⟩
      simpa using notState
  · rename_i noClass noState
    cases done
    exact ⟨className, state, read.other noClass fun attr same => absurd same (noState attr)⟩

/-- All nodes of a compound. -/
theorem nodes (read : HasRead start seen className state block parts)
    {nodes : List SimpleSelector}
    (done : nodes.foldlM (Legality.readNode selector) (block, parts) = .ok (after, others)) :
    ∃ className state, HasRead start (seen ++ nodes) className state after others := by
  induction nodes generalizing seen className state block parts with
  | nil =>
    cases done
    exact ⟨className, state, by simpa using read⟩
  | cons node rest ih =>
    rw [List.foldlM_cons] at done
    obtain ⟨⟨next, nextParts⟩, first, done⟩ := bind_eq_ok_iff.mp done
    obtain ⟨className, state, read⟩ := read.readNode first
    obtain ⟨className, state, read⟩ := ih read done
    exact ⟨className, state, by simpa using read⟩

/-- The object of the parts is the one that the written names find. -/
theorem findOwn (read : HasRead start seen className state block parts) {key : ObjectKey}
    (made : parts.key? = some key) : block.findOwn? ⟨none, className, state⟩ = some key := by
  rw [Block.findOwn_eq_bind]
  change (block.owner? className).bind (fun owner => block.keyIn? owner state) = some key
  rw [read.owner, Option.bind_some]
  have known := read.state
  unfold ObjectParts.key? at made
  cases state with
  | some name =>
    cases found : parts.state with
    | none => simp [found] at known
    | some other =>
      rw [found] at known made
      cases made
      exact Option.some.inj known
  | none =>
    have stateless : parts.state = none := by simpa using known.symm
    rw [stateless] at made
    cases owner : parts.owner with
    | some index =>
      rw [owner] at made
      cases made
      rfl
    | none =>
      rw [owner] at made
      dsimp only at made
      split at made
      · cases made
        rfl
      · cases made

end HasRead

/-- What reading a compound found: one of the block's own objects, which the compound writes, or
an object of the block that it names. -/
inductive Found (block : Block) (compound : Compound) : CompoundObject → Prop
  | own {className : Option String} {state : Option StateName} {key : ObjectKey}
      (noType : ∀ name, .type name ∉ compound.nodes)
      (writes : Writes compound.nodes className state)
      (nonempty : className = none → state = none → .className rootClass ∈ compound.nodes)
      (found : block.findOwn? ⟨none, className, state⟩ = some key) : Found block compound (.own key)
  | foreign {name : String} (typed : .type name ∈ compound.nodes) : Found block compound .foreign

theorem Found.grow {block after : Block} {compound : Compound} {object : CompoundObject}
    (found : Found block compound object) (grows : block.Grows after) :
    Found after compound object := by
  cases found with
  | own noType writes nonempty found => exact .own noType writes nonempty (grows.findOwn found)
  | foreign typed => exact .foreign typed

/-- A compound that a block may use, and the object that was found for it. -/
structure IsRead (before : Block) (compound : Compound) (after : Block) (object : CompoundObject) :
    Prop where
  grows : before.Grows after
  unique : before.HasUniqueNames → after.HasUniqueNames
  noId : ∀ id, .id id ∉ compound.nodes
  notUniversal : .universal ∉ compound.nodes
  found : Found after compound object

variable {graph : Graph} {selector : Selector} {block after : Block}

theorem isRead_classifyCompound {compound : Compound} {object : CompoundObject}
    (classified : classifyCompound graph selector block compound = .ok (after, object)) :
    IsRead block compound after object := by
  obtain ⟨_, checked, classified⟩ := bind_eq_ok_iff.mp classified
  have legal := forM_eq_ok_iff.mp checked
  have noId : ∀ id, .id id ∉ compound.nodes := fun id member => nomatch legal _ member
  have notUniversal : .universal ∉ compound.nodes := fun member => nomatch legal _ member
  dsimp only at classified
  split at classified
  · rename_i typed
    obtain ⟨_, -, classified⟩ := bind_eq_ok_iff.mp classified
    cases classified
    obtain ⟨node, member, isType⟩ := List.any_eq_true.mp typed
    cases node with
    | type name => exact ⟨.refl _, id, noId, notUniversal, .foreign member⟩
    | universal | className _ | id _ | attr _ | pseudoClass _ _ => cases isType
  · rename_i untyped
    obtain ⟨⟨next, parts⟩, folded, classified⟩ := bind_eq_ok_iff.mp classified
    obtain ⟨className, state, read⟩ := (HasRead.nil block).nodes folded
    have noType : ∀ name, .type name ∉ compound.nodes := fun name member =>
      untyped (List.any_eq_true.mpr ⟨_, member, rfl⟩)
    dsimp only at classified
    split at classified
    · rename_i key made
      cases classified
      have writes : Writes compound.nodes className state := by simpa using read.writes
      refine ⟨read.grows, read.unique, noId, notUniversal,
        .own noType writes ?_ (read.findOwn made)⟩
      rintro rfl rfl
      have free : parts.owner = none := (Option.some.inj read.owner).symm
      have stateless : parts.state = none := by simpa using read.state.symm
      have rooted : parts.root = true := by
        simpa [ObjectParts.key?, free, stateless] using Option.isSome_of_eq_some made
      simpa using read.root.mp rooted
    · cases classified

/-- The objects found for the compounds of a chain, one for each, in the block as it is after
reading all of them. -/
structure AreRead (before : Block) (compounds : List (Option Combinator × Compound))
    (after : Block) (objects : List (Option Combinator × CompoundObject)) : Prop where
  grows : before.Grows after
  unique : before.HasUniqueNames → after.HasUniqueNames
  each : List.Forall₂ (fun compound object => compound.1 = object.1 ∧
    (∀ id, .id id ∉ compound.2.nodes) ∧ .universal ∉ compound.2.nodes ∧
      Found after compound.2 object.2) compounds objects

theorem areRead_classifyAll {compounds : List (Option Combinator × Compound)}
    {objects : List (Option Combinator × CompoundObject)}
    (classified : classifyAll graph selector block compounds = .ok (after, objects)) :
    AreRead block compounds after objects := by
  induction compounds generalizing block objects with
  | nil =>
    cases classified
    exact ⟨.refl _, id, .nil⟩
  | cons entry rest ih =>
    obtain ⟨combinator, compound⟩ := entry
    unfold classifyAll at classified
    dsimp only at classified
    split at classified
    · cases classified
    · obtain ⟨⟨next, object⟩, first, classified⟩ := bind_eq_ok_iff.mp classified
      obtain ⟨⟨last, others⟩, later, classified⟩ := bind_eq_ok_iff.mp classified
      cases classified
      obtain ⟨grows, unique, noId, notUniversal, found⟩ := isRead_classifyCompound first
      have later := ih later
      exact ⟨grows.trans later.grows, fun start => later.unique (unique start),
        .cons ⟨rfl, noId, notUniversal, found.grow later.grows⟩ later.each⟩

/-- Reading a selector reads its compounds, and its key is the last one. -/
theorem classify_eq_ok {key : Option ObjectKey}
    (classified : classify graph block selector = .ok (after, key)) :
    ∃ objects, classifyAll graph selector block selector.compounds = .ok (after, objects) ∧
      ∀ found, key = some found ↔
        ∃ combinator, objects.getLast? = some (combinator, .own found) := by
  obtain ⟨⟨next, objects⟩, all, classified⟩ := bind_eq_ok_iff.mp classified
  dsimp only at classified
  obtain ⟨_, -, classified⟩ := bind_eq_ok_iff.mp classified
  obtain ⟨_, -, classified⟩ := bind_eq_ok_iff.mp classified
  split at classified
  · rename_i last
    cases classified
    exact ⟨objects, all, fun found => by simp [last]⟩
  · rename_i notOwn
    cases classified
    refine ⟨objects, all, fun found => ⟨nofun, ?_⟩⟩
    rintro ⟨combinator, last⟩
    exact absurd last (notOwn combinator found)

end Legality

end StyleBlock
