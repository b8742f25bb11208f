import StyleBlock.Proofs.KeyObjects

/-!
Which selectors a block may use. The rules are about each compound on its own, about neighbours, and
about the chain as a whole. Reading a selector succeeds under exactly these rules, whatever the
block knows already, and gives the object that the names of the last compound find.
-/

namespace StyleBlock

/-- The class that a node writes, none for the root. -/
def SimpleSelector.className? : SimpleSelector → Option String
  | .className name => if name = rootClass then none else some name
  | _ => none

namespace Compound

/-- Whether a compound names an object of another block. -/
def isForeign (compound : Compound) : Bool :=
  compound.nodes.any Legality.isType

/-- The names of the own object that a compound writes: its class besides the root, and its
state. -/
def ownName (compound : Compound) : ObjectReference :=
  ⟨none, compound.nodes.findSome? SimpleSelector.className?,
    compound.nodes.findSome? SimpleSelector.state?⟩

/-- Whether a compound writes the root of its block or a state of the root. -/
def IsRootLevel (compound : Compound) : Prop :=
  compound.isForeign = false ∧ compound.ownName.className = none

/-- Whether a compound writes a class of its block or a state of a class. -/
def IsClassLevel (compound : Compound) : Prop :=
  compound.isForeign = false ∧ compound.ownName.className ≠ none

/-- Whether two compounds do not write own objects of different levels. -/
def SharesLevel (left right : Compound) : Prop :=
  ¬(left.IsClassLevel ∧ right.IsRootLevel) ∧ ¬(left.IsRootLevel ∧ right.IsClassLevel)

/-- What a compound of the block's own objects looks like. It has a class or a state. All its
classes are the same and all its states are the same, in one of the two plain forms. A class that is
not the root comes before the first state. -/
structure WritesOne (compound : Compound) : Prop where
  named : (∃ name, .className name ∈ compound.nodes) ∨
    ∃ attr, .attr attr ∈ compound.nodes ∧ attr.isState = true
  classes : ∀ name other, .className name ∈ compound.nodes → .className other ∈ compound.nodes →
    name = other
  plain : ∀ attr, .attr attr ∈ compound.nodes → attr.isState = true →
    ∃ state, .attr attr = SimpleSelector.ofState state
  states : ∀ attr other, .attr attr ∈ compound.nodes → .attr other ∈ compound.nodes →
    attr.isState = true → other.isState = true → attr = other
  ordered : ∀ before attr after, compound.nodes = before ++ .attr attr :: after →
    attr.isState = true → (∃ name ≠ rootClass, .className name ∈ compound.nodes) →
      ∃ name, .className name ∈ before

/-- What a compound of a selector must satisfy. -/
structure IsLegal (graph : Graph) (block : Block) (selector : Selector) (compound : Compound) :
    Prop where
  noId : ∀ id, .id id ∉ compound.nodes
  notUniversal : .universal ∉ compound.nodes
  known : ∀ name, .type name ∈ compound.nodes → (block.reference? name).isSome = true
  foreign : compound.isForeign = true →
    Legality.checkForeign block graph selector compound = .ok ()
  own : compound.isForeign = false → compound.WritesOne

end Compound

namespace Selector

/-- The rules for the selectors of a block. The compounds are legal, and none but the last has a
pseudo-element. All that write the root or a state of it write the same object, none of them behind
one that writes a class or a state of a class. Siblings next to each other are of one level. -/
structure IsLegal (graph : Graph) (block : Block) (selector : Selector) : Prop where
  compounds : ∀ entry ∈ selector.compounds, entry.2.IsLegal graph block selector
  context : ∀ entry ∈ selector.compounds.dropLast, entry.2.pseudoElement = none
  root : ∀ entry ∈ selector.compounds, ∀ other ∈ selector.compounds,
    entry.2.IsRootLevel → other.2.IsRootLevel → entry.2.ownName = other.2.ownName
  order : selector.compounds.Pairwise fun left right =>
    left.2.IsClassLevel → ¬right.2.IsRootLevel
  siblings : selector.compounds.IsChain fun left right =>
    ∀ combinator ∈ right.1, combinator.isSibling = true → left.2.SharesLevel right.2

/-- Whether a key is that of the last compound's object: the one that its names find, or none when
it names an object of another block. -/
def HasKey (selector : Selector) (block : Block) : Option ObjectKey → Prop
  | none => selector.key.isForeign = true
  | some key =>
    selector.key.isForeign = false ∧ block.findOwn? selector.key.ownName = some key

end Selector

namespace Legality

theorem isForeign_iff {compound : Compound} :
    compound.isForeign = true ↔ ∃ name, .type name ∈ compound.nodes := by
  rw [Compound.isForeign, List.any_eq_true]
  constructor
  · rintro ⟨node, member, typed⟩
    cases node with
    | type name => exact ⟨name, member⟩
    | universal | className _ | id _ | attr _ | pseudoClass _ _ => cases typed
  · rintro ⟨name, member⟩
    exact ⟨_, member, rfl⟩

/-! Own compounds -/

/-- A state is read when its node is one of the two plain forms. -/
theorem plainState_eq_some_iff {attr : AttributeSelector} (isState : attr.isState = true)
    {state : StateName} :
    plainState? (.attr attr) attr = some state ↔ .attr attr = SimpleSelector.ofState state := by
  obtain ⟨scope, name, test⟩ := attr
  obtain rfl : scope = some stateScope := of_decide_eq_true isState
  obtain ⟨group, other⟩ := state
  cases test with
  | none => cases group <;> simp [plainState?, SimpleSelector.state?, SimpleSelector.ofState,
      AttributeSelector.isState]
  | some test =>
    obtain ⟨operator, value, flag⟩ := test
    cases group <;> cases flag <;> simp [plainState?, SimpleSelector.state?,
      SimpleSelector.ofState, AttributeSelector.isState]
    tauto

end Legality

namespace Writes

variable {nodes : List SimpleSelector} {className : Option String} {state : Option StateName}

/-- The class and the state that nodes write are the first ones in them. -/
theorem findSome_eq (writes : Writes nodes className state) :
    nodes.findSome? SimpleSelector.className? = className ∧
      nodes.findSome? SimpleSelector.state? = state := by
  have readClass : ∀ node ∈ nodes, ∀ name, node.className? = some name → className = some name := by
    intro node member name read
    cases node with
    | className written =>
      obtain ⟨notRoot, rfl⟩ : written ≠ rootClass ∧ written = name := by
        simpa [SimpleSelector.className?] using read
      have same := writes.classes written member
      cases className with
      | none => exact absurd same notRoot
      | some other => exact congrArg some same.symm
    | type _ | universal | id _ | attr _ | pseudoClass _ _ => cases read
  have readState : ∀ node ∈ nodes, ∀ name, node.state? = some name → state = some name := by
    intro node member name read
    cases node with
    | attr attr =>
      have isState : attr.isState = true := by
        by_contra plain
        simp [SimpleSelector.state?, plain] at read
      obtain ⟨other, isOther, plain⟩ := writes.states attr member isState
      rw [Legality.state_of_plainState plain] at read
      rw [Option.mem_def.mp isOther, read]
    | type _ | universal | id _ | className _ | pseudoClass _ _ => cases read
  constructor
  · cases found : nodes.findSome? SimpleSelector.className? with
    | some name =>
      obtain ⟨node, member, read⟩ := List.exists_of_findSome?_eq_some found
      exact (readClass node member name read).symm
    | none =>
      refine (Option.eq_none_iff_forall_not_mem.mpr fun name written => ?_).symm
      obtain ⟨before, after, rfl, _⟩ := writes.owned name written
      have apart : name ≠ rootClass := fun same => writes.notRoot (same ▸ written)
      have unread := List.findSome?_eq_none_iff.mp found (.className name) (by simp)
      simp [SimpleSelector.className?, apart] at unread
  · cases found : nodes.findSome? SimpleSelector.state? with
    | some name =>
      obtain ⟨node, member, read⟩ := List.exists_of_findSome?_eq_some found
      exact (readState node member name read).symm
    | none =>
      refine (Option.eq_none_iff_forall_not_mem.mpr fun name written => ?_).symm
      obtain ⟨attr, member, isState⟩ := writes.stated (Option.isSome_of_mem written)
      obtain ⟨other, _, plain⟩ := writes.states attr member isState
      have unread := List.findSome?_eq_none_iff.mp found (.attr attr) member
      rw [Legality.state_of_plainState plain] at unread
      cases unread

/-- Nodes that write an object are those of a compound of that object. -/
theorem writesOne {compound : Compound} (writes : Writes compound.nodes className state)
    (nonempty : className = none → state = none → .className rootClass ∈ compound.nodes) :
    compound.WritesOne where
  named := by
    cases className with
    | some name =>
      obtain ⟨before, after, split, _⟩ := writes.owned name rfl
      exact .inl ⟨name, by simp [split]⟩
    | none =>
      cases state with
      | some name => exact .inr (writes.stated rfl)
      | none => exact .inl ⟨rootClass, nonempty rfl rfl⟩
  classes name other member member' :=
    (writes.classes name member).trans (writes.classes other member').symm
  plain attr member isState := by
    obtain ⟨name, _, plain⟩ := writes.states attr member isState
    exact ⟨name, (Legality.plainState_eq_some_iff isState).mp plain⟩
  states attr other member member' isState isState' := by
    obtain ⟨name, isName, plain⟩ := writes.states attr member isState
    obtain ⟨name', isName', plain'⟩ := writes.states other member' isState'
    cases (Option.mem_def.mp isName).symm.trans (Option.mem_def.mp isName')
    have same := ((Legality.plainState_eq_some_iff isState).mp plain).trans
      ((Legality.plainState_eq_some_iff isState').mp plain').symm
    exact SimpleSelector.attr.inj same
  ordered before attr after split isState := by
    rintro ⟨name, notRoot, member⟩
    have same := writes.classes name member
    cases className with
    | none => exact absurd same notRoot
    | some other =>
      obtain ⟨front, back, split', free⟩ := writes.owned other rfl
      rw [split] at split'
      rcases List.append_eq_append_iff.mp split' with
        ⟨rest, isFront, isRest⟩ | ⟨rest, isBefore, isRest⟩
      · cases rest with
        | nil => cases isRest
        | cons first rest =>
          cases isRest
          have plain := free attr (by simp [isFront])
          rw [plain] at isState
          cases isState
      · cases rest with
        | nil => cases isRest
        | cons first rest =>
          cases isRest
          exact ⟨other, by simp [isBefore]⟩

end Writes

namespace Legality

namespace HasRead

variable {start block : Block} {seen rest : List SimpleSelector} {className : Option String}
  {state : Option StateName} {parts : ObjectParts} {selector : Selector} {compound : Compound}

/-- A state that was read before a class has a class in front of it, which was read as well. -/
theorem owner_of_stated (read : HasRead start seen className state block parts)
    (one : compound.WritesOne) {name : String}
    (split : compound.nodes = seen ++ .className name :: rest) (plain : name ≠ rootClass)
    (stated : parts.state.isSome = true) : parts.owner.isSome = true := by
  cases className with
  | some first =>
    have existing := read.existing
    cases free : parts.owner with
    | none => simp [free] at existing
    | some index => rfl
  | none =>
    have isSome : state.isSome = true := by
      have known := congrArg Option.isSome read.state
      simpa [stated] using known
    have member : .className name ∈ compound.nodes := by simp [split]
    obtain ⟨attr, inside, isState⟩ := read.writes.stated isSome
    obtain ⟨before, after, rfl⟩ := List.append_of_mem inside
    obtain ⟨first, front⟩ := one.ordered before attr (after ++ .className name :: rest)
      (by simp [split]) isState ⟨name, plain, member⟩
    have rooted := read.writes.classes first (by simp [front])
    have same := one.classes name first member (by simp [split, front])
    exact absurd (same.trans rooted) plain

/-- A class of a compound that writes one object can be read. -/
theorem exists_readClass (read : HasRead start seen className state block parts)
    (one : compound.WritesOne) {name : String}
    (split : compound.nodes = seen ++ .className name :: rest) :
    ∃ next, Legality.readClass selector block parts name = .ok next := by
  have member : .className name ∈ compound.nodes := by simp [split]
  have seenBefore : ∀ node ∈ seen, node ∈ compound.nodes := fun node inside => by
    simp [split, inside]
  have written : ∀ first ∈ className, .className first ∈ seen := by
    intro first isFirst
    obtain ⟨before, after, rfl, _⟩ := read.writes.owned first isFirst
    simp
  unfold Legality.readClass
  by_cases isRoot : name = rootClass
  · -- A class that was read before would be another one than the root.
    have free : parts.owner = none := by
      cases className with
      | none => exact (Option.some.inj read.owner).symm
      | some first =>
        have same := one.classes first name (seenBefore _ (written first rfl)) member
        exact absurd (congrArg some (same.trans isRoot)) read.writes.notRoot
    rw [if_pos isRoot, if_neg (by simp [free])]
    exact ⟨_, rfl⟩
  · have noRoot : parts.root = false := by
      by_contra rooted
      have present := read.root.mp (by simpa using rooted)
      exact isRoot (one.classes name rootClass member (seenBefore _ present))
    have allowed : (parts.root || (parts.state.isSome && parts.owner.isNone)) = false := by
      cases stated : parts.state.isSome with
      | false => simp [noRoot]
      | true =>
        have owned := read.owner_of_stated one split isRoot stated
        simp [noRoot, Option.isNone_eq_false_iff.mpr owned]
    rw [if_neg isRoot, if_neg (by simp [allowed]), read.existing]
    cases className with
    | none => exact ⟨_, rfl⟩
    | some first =>
      have same := one.classes first name (seenBefore _ (written first rfl)) member
      exact ⟨_, if_pos same⟩

/-- A state of a compound that writes one object can be read. -/
theorem exists_readState (read : HasRead start seen className state block parts)
    (one : compound.WritesOne) {attr : AttributeSelector}
    (split : compound.nodes = seen ++ .attr attr :: rest) (isState : attr.isState = true)
    {name : StateName} (plain : plainState? (.attr attr) attr = some name) :
    ∃ next, Legality.readState selector block parts name = .ok next := by
  have registered := Block.keyIn_ensureState read.hasOwner name
  obtain ⟨_, known⟩ := read.keys (block.grows_ensureState read.hasOwner name)
  unfold Legality.readState
  dsimp only
  cases found : parts.state with
  | none => exact ⟨_, rfl⟩
  | some existing =>
    rw [found] at known
    obtain ⟨other, isOther, sameKey⟩ := Option.map_eq_some_iff.mp known
    obtain ⟨first, inside, isState'⟩ := read.writes.stated (Option.isSome_of_eq_some isOther)
    obtain ⟨name', isName', plain'⟩ := read.writes.states first inside isState'
    obtain rfl := one.states attr first (by simp [split]) (by simp [split, inside]) isState isState'
    obtain rfl : name' = name := Option.some.inj (plain'.symm.trans plain)
    obtain rfl : other = name' := Option.some.inj (isOther.symm.trans isName')
    exact ⟨_, if_pos (Option.some.inj (sameKey.symm.trans registered))⟩

/-- The rest of a compound that writes one object can be read. -/
theorem exists_nodes (read : HasRead start seen className state block parts)
    (one : compound.WritesOne) (split : compound.nodes = seen ++ rest) :
    ∃ next, rest.foldlM (Legality.readNode selector) (block, parts) = .ok next := by
  induction rest generalizing seen className state block parts with
  | nil => exact ⟨_, rfl⟩
  | cons node rest ih =>
    have first : ∃ next, Legality.readNode selector (block, parts) node = .ok next := by
      cases node with
      | className name => exact read.exists_readClass one split
      | attr attr =>
        unfold Legality.readNode
        dsimp only
        by_cases isState : attr.isState = true
        · obtain ⟨name, isPlain⟩ := one.plain attr (by simp [split]) isState
          have plain := (plainState_eq_some_iff isState).mpr isPlain
          rw [if_pos isState, plain]
          exact read.exists_readState one split isState plain
        · exact ⟨_, if_neg isState⟩
      | type _ | universal | id _ | pseudoClass _ _ => exact ⟨_, rfl⟩
    obtain ⟨⟨next, others⟩, first⟩ := first
    obtain ⟨className, state, read⟩ := read.readNode first
    obtain ⟨last, later⟩ := ih read (by simp [split])
    rw [List.foldlM_cons]
    exact ⟨last, bind_eq_ok_iff.mpr ⟨_, first, later⟩⟩

/-- A compound that writes one object has an object when all its nodes were read. -/
theorem exists_key (read : HasRead start compound.nodes className state block parts)
    (one : compound.WritesOne) : ∃ key, parts.key? = some key := by
  unfold ObjectParts.key?
  cases stated : parts.state with
  | some key => exact ⟨key, rfl⟩
  | none =>
    cases owned : parts.owner with
    | some index => exact ⟨_, rfl⟩
    | none =>
      have existing := read.existing
      obtain rfl : none = className := by rwa [owned] at existing
      have stateless : state = none := by simpa [stated] using read.state
      have rooted : .className rootClass ∈ compound.nodes := by
        rcases one.named with ⟨name, member⟩ | ⟨attr, member, isState⟩
        · have isRoot : name = rootClass := read.writes.classes name member
          exact isRoot ▸ member
        · obtain ⟨name, isName, _⟩ := read.writes.states attr member isState
          rw [stateless] at isName
          cases isName
      exact ⟨.root, if_pos (read.root.mpr rooted)⟩

end HasRead

/-! Compounds -/

/-- What a compound names in a block, by its names. -/
inductive Denotes (block : Block) (compound : Compound) : CompoundObject → Prop
  | own {key : ObjectKey} (own : compound.isForeign = false)
      (found : block.findOwn? compound.ownName = some key) : Denotes block compound (.own key)
  | foreign (foreign : compound.isForeign = true) : Denotes block compound .foreign

theorem Found.denotes {block : Block} {compound : Compound} {object : CompoundObject}
    (found : Found block compound object) : Denotes block compound object := by
  cases found with
  | @own className state key noType writes _ found =>
    obtain ⟨sameClass, sameState⟩ := writes.findSome_eq
    refine .own (Bool.eq_false_iff.mpr fun foreign => ?_) ?_
    · obtain ⟨name, member⟩ := isForeign_iff.mp foreign
      exact noType name member
    · rw [Compound.ownName, sameClass, sameState]
      exact found
  | foreign typed => exact .foreign (isForeign_iff.mpr ⟨_, typed⟩)

variable {graph : Graph} {selector : Selector} {block after : Block} {compound : Compound}

theorem checkNodes_eq_ok_iff : compound.nodes.forM (checkNode block selector) = .ok () ↔
    (∀ id, .id id ∉ compound.nodes) ∧ .universal ∉ compound.nodes ∧
      ∀ name, .type name ∈ compound.nodes → (block.reference? name).isSome = true := by
  rw [forM_eq_ok_iff]
  constructor
  · intro checked
    have noId : ∀ id, .id id ∉ compound.nodes := fun id member => nomatch checked _ member
    have notUniversal : .universal ∉ compound.nodes := fun member => nomatch checked _ member
    refine ⟨noId, notUniversal, fun name member => ?_⟩
    have passed := checked _ member
    cases found : block.reference? name with
    | none => simp [checkNode, found] at passed
    | some _ => rfl
  · rintro ⟨noId, notUniversal, known⟩ node member
    cases node with
    | type name =>
      have found := known name member
      cases missing : block.reference? name with
      | none => simp [missing] at found
      | some _ => simp [checkNode, missing]
    | universal => exact absurd member notUniversal
    | id name => exact absurd member (noId name)
    | className _ | attr _ | pseudoClass _ _ => rfl

/-- A legal compound is read, whatever the block knows already. -/
theorem exists_classifyCompound (legal : compound.IsLegal graph block selector) :
    ∃ result, classifyCompound graph selector block compound = .ok result := by
  have checked : compound.nodes.forM (checkNode block selector) = .ok () :=
    checkNodes_eq_ok_iff.mpr ⟨legal.noId, legal.notUniversal, legal.known⟩
  cases kind : compound.isForeign with
  | true =>
    refine ⟨(block, .foreign), bind_eq_ok_iff.mpr ⟨(), checked, ?_⟩⟩
    rw [Compound.isForeign] at kind
    rw [if_pos kind]
    exact bind_eq_ok_iff.mpr ⟨(), legal.foreign (by rwa [Compound.isForeign]), rfl⟩
  | false =>
    have one := legal.own kind
    have nodes : ∃ next,
        compound.nodes.foldlM (readNode selector) (block, ⟨false, none, none⟩) = .ok next :=
      (HasRead.nil block).exists_nodes one (List.nil_append compound.nodes).symm
    obtain ⟨⟨last, parts⟩, folded⟩ := nodes
    obtain ⟨className, state, read⟩ := (HasRead.nil block).nodes folded
    obtain ⟨key, made⟩ := read.exists_key one
    refine ⟨(last, .own key), bind_eq_ok_iff.mpr ⟨(), checked, ?_⟩⟩
    rw [Compound.isForeign] at kind
    rw [if_neg (by simp [kind])]
    refine bind_eq_ok_iff.mpr ⟨(last, parts), folded, ?_⟩
    dsimp only
    rw [made]
    rfl

/-- Only a legal compound is read, and its names find the object that reading it gives. -/
theorem isLegal_of_classifyCompound {object : CompoundObject}
    (classified : classifyCompound graph selector block compound = .ok (after, object)) :
    compound.IsLegal graph block selector ∧ Denotes after compound object := by
  obtain ⟨_, _, _, _, found⟩ := isRead_classifyCompound classified
  refine ⟨?_, found.denotes⟩
  obtain ⟨_, checked, classified⟩ := bind_eq_ok_iff.mp classified
  obtain ⟨noId, notUniversal, known⟩ := checkNodes_eq_ok_iff.mp checked
  refine ⟨noId, notUniversal, known, fun foreign => ?_, fun own => ?_⟩
  · rw [Compound.isForeign] at foreign
    rw [if_pos foreign] at classified
    obtain ⟨_, passed, _⟩ := bind_eq_ok_iff.mp classified
    exact passed
  · cases found with
    | own _ writes nonempty _ => exact writes.writesOne nonempty
    | foreign typed => simp [isForeign_iff.mpr ⟨_, typed⟩] at own

/-- Growing a block changes no compound's legality. -/
theorem isLegal_congr (same : Block.SameSource block after) :
    compound.IsLegal graph after selector ↔ compound.IsLegal graph block selector := by
  have reference : after.reference? = block.reference? := by
    funext name
    rw [Block.reference?, Block.reference?, same.references]
  have foreign : checkForeign after graph selector compound =
      checkForeign block graph selector compound := by
    rw [checkForeign, checkForeign, reference]
  constructor
  · rintro ⟨noId, notUniversal, known, checked, own⟩
    exact ⟨noId, notUniversal, reference ▸ known, foreign ▸ checked, own⟩
  · rintro ⟨noId, notUniversal, known, checked, own⟩
    exact ⟨noId, notUniversal, reference.symm ▸ known, foreign.symm ▸ checked, own⟩

/-- The compounds of a chain from some place on: all of them legal, and no pseudo-element but at the
end. -/
structure AreLegal (graph : Graph) (block : Block) (selector : Selector)
    (compounds : List (Option Combinator × Compound)) : Prop where
  each : ∀ entry ∈ compounds, entry.2.IsLegal graph block selector
  context : ∀ entry ∈ compounds.dropLast, entry.2.pseudoElement = none

variable {compounds : List (Option Combinator × Compound)}

theorem areLegal_nil : AreLegal graph block selector [] :=
  ⟨nofun, nofun⟩

theorem areLegal_cons_iff {entry : Option Combinator × Compound} :
    AreLegal graph block selector (entry :: compounds) ↔
      entry.2.IsLegal graph block selector ∧
        (entry.2.pseudoElement.isSome && !compounds.isEmpty) = false ∧
          AreLegal graph block selector compounds := by
  cases compounds with
  | nil =>
    constructor
    · intro legal
      exact ⟨legal.each entry List.mem_cons_self, by simp, areLegal_nil⟩
    · rintro ⟨first, -, -⟩
      exact ⟨by simpa using first, nofun⟩
  | cons second rest =>
    constructor
    · rintro ⟨each, context⟩
      obtain ⟨first, later⟩ := List.forall_mem_cons.mp each
      obtain ⟨plain, contextLater⟩ := List.forall_mem_cons.mp context
      exact ⟨first, by simp [plain], later, contextLater⟩
    · rintro ⟨first, plain, later, contextLater⟩
      exact ⟨List.forall_mem_cons.mpr ⟨first, later⟩,
        List.forall_mem_cons.mpr ⟨by simpa using plain, contextLater⟩⟩

theorem areLegal_congr (same : Block.SameSource block after) :
    AreLegal graph after selector compounds ↔ AreLegal graph block selector compounds := by
  have each : (∀ entry ∈ compounds, entry.2.IsLegal graph after selector) ↔
      ∀ entry ∈ compounds, entry.2.IsLegal graph block selector :=
    forall₂_congr fun _ _ => isLegal_congr same
  exact ⟨fun legal => ⟨each.mp legal.each, legal.context⟩,
    fun legal => ⟨each.mpr legal.each, legal.context⟩⟩

/-- Compounds are read exactly when they are legal. -/
theorem exists_classifyAll_iff :
    (∃ result, classifyAll graph selector block compounds = .ok result) ↔
      AreLegal graph block selector compounds := by
  induction compounds generalizing block with
  | nil => exact ⟨fun _ => areLegal_nil, fun _ => ⟨_, rfl⟩⟩
  | cons entry rest ih =>
    obtain ⟨combinator, compound⟩ := entry
    rw [areLegal_cons_iff]
    constructor
    · rintro ⟨result, all⟩
      unfold classifyAll at all
      dsimp only at all
      split at all
      · cases all
      · rename_i allowed
        obtain ⟨⟨next, object⟩, first, all⟩ := bind_eq_ok_iff.mp all
        obtain ⟨later, others, _⟩ := bind_eq_ok_iff.mp all
        have same := sameSource_classifyCompound first
        exact ⟨(isLegal_of_classifyCompound first).1, Bool.eq_false_iff.mpr allowed,
          (areLegal_congr same).mp (ih.mp ⟨later, others⟩)⟩
    · rintro ⟨first, allowed, later⟩
      obtain ⟨⟨next, object⟩, read⟩ := exists_classifyCompound first
      have same := sameSource_classifyCompound read
      obtain ⟨result, others⟩ := ih.mpr ((areLegal_congr same).mpr later)
      refine ⟨(result.1, (combinator, object) :: result.2), ?_⟩
      unfold classifyAll
      dsimp only
      rw [if_neg (by simp [allowed])]
      exact bind_eq_ok_iff.mpr ⟨_, read, bind_eq_ok_iff.mpr ⟨_, others, rfl⟩⟩

theorem denotes_classifyAll {objects : List (Option Combinator × CompoundObject)}
    (all : classifyAll graph selector block compounds = .ok (after, objects)) :
    List.Forall₂ (fun entry object => entry.1 = object.1 ∧ Denotes after entry.2 object.2)
      compounds objects :=
  (areRead_classifyAll all).each.imp fun _ _ ⟨same, _, _, found⟩ => ⟨same, found.denotes⟩

/-! The chain -/

/-- Two neighbours, the right one with the combinator in front of it: a class-level object is no
ancestor of a root-level one, and siblings are of one level. -/
def AreNeighbours (left right : Option Combinator × CompoundObject) : Prop :=
  ∀ key other combinator, left.2 = .own key → right = (some combinator, .own other) →
    (combinator.isHierarchical = true → key.isClassLevel = true → other.isRootLevel = false) ∧
      (combinator.isSibling = true → key.isClassLevel = other.isClassLevel)

theorem checkNeighbours_eq_ok_iff {objects : List (Option Combinator × CompoundObject)} :
    checkNeighbours block selector objects = .ok () ↔ objects.IsChain AreNeighbours := by
  induction objects with
  | nil => exact ⟨fun _ => .nil, fun _ => rfl⟩
  | cons left rest ih =>
    obtain ⟨before, object⟩ := left
    cases rest with
    | nil => exact ⟨fun _ => .singleton _, fun _ => by simp [checkNeighbours]⟩
    | cons right rest =>
      rw [List.isChain_cons_cons, ← ih]
      obtain ⟨combinator, other⟩ := right
      cases object with
      | foreign => simp [checkNeighbours, AreNeighbours]
      | own key =>
        cases combinator with
        | none => simp [checkNeighbours, AreNeighbours]
        | some combinator =>
          cases other with
          | foreign => simp [checkNeighbours, AreNeighbours]
          | own other =>
            rw [checkNeighbours]
            cases combinator <;> cases left : key.isRootLevel <;>
              cases right : other.isRootLevel <;>
              simp [AreNeighbours, Combinator.isHierarchical, Combinator.isSibling,
                ObjectKey.isClassLevel, left, right]

/-- Two objects of a chain: nothing but the same root-level object comes before a root-level
one. -/
def AreInOrder (left right : CompoundObject) : Prop :=
  ∀ key other, left = .own key → right = .own other → other.isRootLevel = true → key = other

/-- One own object passes when it is class-level, or when nothing class-level and no other
root-level object came before it. -/
theorem checkLevels_own_iff {combinator : Option Combinator} {key : ObjectKey}
    {rest : List (Option Combinator × CompoundObject)} {classLevel rootLevel : Option ObjectKey} :
    checkLevels block selector classLevel rootLevel ((combinator, .own key) :: rest) = .ok () ↔
      (key.isRootLevel = true → classLevel = none ∧ ∀ previous ∈ rootLevel, previous = key) ∧
        checkLevels block selector (if key.isRootLevel then none else some key)
          (if key.isRootLevel then some key else rootLevel) rest = .ok () := by
  cases level : key.isRootLevel with
  | false => simp [checkLevels, ObjectKey.isClassLevel, level]
  | true =>
    cases classLevel with
    | some other => simp [checkLevels, ObjectKey.isClassLevel, level]
    | none =>
      cases rootLevel with
      | none => simp [checkLevels, ObjectKey.isClassLevel, level]
      | some previous =>
        by_cases same : previous = key <;>
          simp [checkLevels, ObjectKey.isClassLevel, level, same]

theorem checkLevels_eq_ok_iff {objects : List (Option Combinator × CompoundObject)}
    {classLevel rootLevel : Option ObjectKey} :
    checkLevels block selector classLevel rootLevel objects = .ok () ↔
      objects.Pairwise (fun left right => AreInOrder left.2 right.2) ∧
        ∀ object ∈ objects, ∀ key, object.2 = .own key → key.isRootLevel = true →
          classLevel = none ∧ ∀ previous ∈ rootLevel, previous = key := by
  induction objects generalizing classLevel rootLevel with
  | nil => simp [checkLevels]
  | cons first rest ih =>
    obtain ⟨combinator, object⟩ := first
    rw [List.pairwise_cons, List.forall_mem_cons]
    cases object with
    | foreign =>
      rw [checkLevels, ih]
      simp [AreInOrder]
    | own key =>
      rw [checkLevels_own_iff, ih]
      constructor
      · rintro ⟨here, pairwise, later⟩
        cases level : key.isRootLevel with
        | false =>
          -- Something class-level came, so nothing root-level comes any more.
          simp only [level, Bool.false_eq_true, if_false, reduceCtorEq, false_and] at later
          refine ⟨⟨fun object member _ other _ isOther root => ?_, pairwise⟩, ?_, ?_⟩
          · exact (later object member other isOther root).elim
          · rintro _ ⟨⟩ root
            rw [level] at root
            cases root
          · exact fun object member other isOther root =>
              (later object member other isOther root).elim
        | true =>
          simp only [level, if_true, true_and, Option.mem_some_iff, forall_eq'] at later here
          obtain ⟨noClass, known⟩ := here trivial
          refine ⟨⟨fun object member _ other isKey isOther root => ?_, pairwise⟩, ?_, ?_⟩
          · cases isKey
            exact later object member other isOther root
          · rintro _ ⟨⟩ -
            exact ⟨noClass, known⟩
          · intro object member other isOther root
            exact later object member other isOther root ▸ ⟨noClass, known⟩
      · rintro ⟨⟨ordered, pairwise⟩, here, later⟩
        refine ⟨here key rfl, pairwise, fun object member other isOther root => ?_⟩
        have same := ordered object member key other rfl isOther root
        subst same
        simp [root]

/-! The rules -/

theorem className_ownName_ne (compound : Compound) :
    compound.ownName.className ≠ some rootClass := by
  intro same
  obtain ⟨node, _, read⟩ := List.exists_of_findSome?_eq_some same
  unfold SimpleSelector.className? at read
  split at read
  · split at read
    · cases read
    · cases read
      contradiction
  · cases read

/-- The object of a compound is root-level when the compound writes no class. -/
theorem isRootLevel_iff {key : ObjectKey} (found : block.findOwn? compound.ownName = some key) :
    key.isRootLevel = true ↔ compound.ownName.className = none := by
  rw [Block.findOwn_eq_bind] at found
  obtain ⟨owner, owned, found⟩ := Option.bind_eq_some_iff.mp found
  rw [Block.isRootLevel_keyIn found]
  cases written : compound.ownName.className with
  | none =>
    rw [written] at owned
    cases owned
    exact iff_of_true rfl rfl
  | some name =>
    have notRoot : name ≠ rootClass := fun same =>
      className_ownName_ne compound (written.trans (congrArg some same))
    rw [written, Block.owner?, if_neg notRoot] at owned
    obtain ⟨index, _, rfl⟩ := Option.map_eq_some_iff.mp owned
    simp

/-- Root-level objects are the same when their names are. -/
theorem eq_iff_ownName_eq {left right : Compound} {key other : ObjectKey}
    (found : block.findOwn? left.ownName = some key)
    (found' : block.findOwn? right.ownName = some other) (root : other.isRootLevel = true) :
    key = other ↔ left.ownName = right.ownName := by
  constructor
  · rintro rfl
    have noClass := (isRootLevel_iff found).mp root
    have noClass' := (isRootLevel_iff found').mp root
    rw [Block.findOwn_eq_bind, noClass] at found
    rw [Block.findOwn_eq_bind, noClass'] at found'
    have states : left.ownName.state = right.ownName.state := Block.keyIn_injective found found'
    rw [ObjectReference.mk.injEq]
    exact ⟨rfl, noClass.trans noClass'.symm, states⟩
  · intro same
    rw [same, found'] at found
    exact (Option.some.inj found).symm

theorem areInOrder_iff {left right : Compound} {object other : CompoundObject}
    (denotes : Denotes block left object) (denotes' : Denotes block right other) :
    AreInOrder object other ↔
      (left.isForeign = false → right.IsRootLevel → left.ownName = right.ownName) := by
  cases denotes with
  | foreign foreign => simp [AreInOrder, foreign]
  | @own key own found =>
    cases denotes' with
    | foreign foreign => simp [AreInOrder, Compound.IsRootLevel, foreign]
    | @own other own' found' =>
      have level : other.isRootLevel = true ↔ right.IsRootLevel := by
        rw [isRootLevel_iff found', Compound.IsRootLevel, and_iff_right own']
      constructor
      · intro ordered _ root
        have isRoot := level.mpr root
        exact (eq_iff_ownName_eq found found' isRoot).mp (ordered _ _ rfl rfl isRoot)
      · rintro same _ _ ⟨⟩ ⟨⟩ isRoot
        exact (eq_iff_ownName_eq found found' isRoot).mpr (same own (level.mp isRoot))

theorem isLevel_iff {key : ObjectKey} (own : compound.isForeign = false)
    (found : block.findOwn? compound.ownName = some key) :
    (compound.IsRootLevel ↔ key.isRootLevel = true) ∧
      (compound.IsClassLevel ↔ key.isClassLevel = true) := by
  have level := isRootLevel_iff found
  rw [Compound.IsRootLevel, Compound.IsClassLevel, and_iff_right own, and_iff_right own, ← level,
    ObjectKey.isClassLevel, Bool.not_eq_true', ne_eq, ← level, Bool.not_eq_true]
  exact ⟨.rfl, .rfl⟩

theorem areNeighbours_iff {left right : Option Combinator × Compound}
    {object other : Option Combinator × CompoundObject} (denotes : Denotes block left.2 object.2)
    (same : right.1 = other.1) (denotes' : Denotes block right.2 other.2) :
    AreNeighbours object other ↔ ∀ combinator ∈ right.1,
      (combinator.isHierarchical = true → ¬(left.2.IsClassLevel ∧ right.2.IsRootLevel)) ∧
        (combinator.isSibling = true → left.2.SharesLevel right.2) := by
  obtain ⟨_, left⟩ := left
  obtain ⟨combinator, right⟩ := right
  obtain ⟨_, object⟩ := object
  obtain ⟨combinator', other⟩ := other
  obtain rfl : combinator = combinator' := same
  cases denotes with
  | foreign foreign =>
    simp [AreNeighbours, Compound.SharesLevel, Compound.IsRootLevel, Compound.IsClassLevel, foreign]
  | @own key own found =>
    cases denotes' with
    | foreign foreign =>
      simp [AreNeighbours, Compound.SharesLevel, Compound.IsRootLevel, Compound.IsClassLevel,
        foreign]
    | @own other own' found' =>
      obtain ⟨root, classLevel⟩ := isLevel_iff own found
      obtain ⟨root', classLevel'⟩ := isLevel_iff own' found'
      dsimp only at root classLevel root' classLevel' ⊢
      rw [Compound.SharesLevel, root, classLevel, root', classLevel']
      cases combinator with
      | none => simp [AreNeighbours]
      | some combinator =>
        cases level : key.isRootLevel <;> cases level' : other.isRootLevel <;>
          simp [AreNeighbours, ObjectKey.isClassLevel, level, level']

/-- The order of objects is about names: the root-level ones are the same, and come first. -/
theorem pairwise_iff {entries : List (Option Combinator × Compound)} :
    entries.Pairwise (fun left right =>
        left.2.isForeign = false → right.2.IsRootLevel → left.2.ownName = right.2.ownName) ↔
      (∀ entry ∈ entries, ∀ other ∈ entries,
        entry.2.IsRootLevel → other.2.IsRootLevel → entry.2.ownName = other.2.ownName) ∧
      entries.Pairwise fun left right => left.2.IsClassLevel → ¬right.2.IsRootLevel := by
  constructor
  · intro ordered
    constructor
    · let same := fun left right : Option Combinator × Compound =>
        left.2.IsRootLevel → right.2.IsRootLevel → left.2.ownName = right.2.ownName
      have symm : Std.Symm same := ⟨fun _ _ same root root' => (same root' root).symm⟩
      have pairwise : entries.Pairwise same := ordered.imp fun same root => same root.1
      exact pairwise.forall_of_forall fun _ _ _ _ => rfl
    · refine ordered.imp fun same classLevel root => ?_
      have names := congrArg ObjectReference.className (same classLevel.1 root)
      exact classLevel.2 (names.trans root.2)
  · rintro ⟨same, ordered⟩
    refine ordered.imp_of_mem fun {left right} member member' first own root => ?_
    have isRoot : left.2.IsRootLevel :=
      ⟨own, by_contra fun classLevel => first ⟨own, classLevel⟩ root⟩
    exact same left member right member' isRoot root

/-- Lists that are related element by element are the two sides of one list. -/
theorem exists_pairs {α β : Type} {related : α → β → Prop} {left : List α} {right : List β}
    (each : List.Forall₂ related left right) : ∃ pairs : List (α × β),
      left = pairs.map Prod.fst ∧ right = pairs.map Prod.snd ∧
        ∀ pair ∈ pairs, related pair.1 pair.2 := by
  obtain ⟨lengths, known⟩ := List.forall₂_iff_zip.mp each
  exact ⟨left.zip right, (List.map_fst_zip lengths.le).symm, (List.map_snd_zip lengths.ge).symm,
    fun _ member => known member⟩

/-- The objects of compounds pass both checks of the chain when the compounds obey its rules. -/
theorem checks_eq_ok_iff {entries : List (Option Combinator × Compound)}
    {objects : List (Option Combinator × CompoundObject)}
    (each : List.Forall₂ (fun entry object => entry.1 = object.1 ∧
      Denotes block entry.2 object.2) entries objects) :
    (checkNeighbours block selector objects = .ok () ∧
        checkLevels block selector none none objects = .ok ()) ↔
      (∀ entry ∈ entries, ∀ other ∈ entries,
        entry.2.IsRootLevel → other.2.IsRootLevel → entry.2.ownName = other.2.ownName) ∧
      entries.Pairwise (fun left right => left.2.IsClassLevel → ¬right.2.IsRootLevel) ∧
      entries.IsChain fun left right =>
        ∀ combinator ∈ right.1, combinator.isSibling = true → left.2.SharesLevel right.2 := by
  obtain ⟨pairs, rfl, rfl, known⟩ := exists_pairs each
  have neighbours := List.IsChain.iff_of_mem_imp fun left right (member : left ∈ pairs) member' =>
    areNeighbours_iff (known left member).2 (known right member').1 (known right member').2
  have levels : pairs.Pairwise (fun left right => AreInOrder left.2.2 right.2.2) ↔
      pairs.Pairwise fun left right => left.1.2.isForeign = false → right.1.2.IsRootLevel →
        left.1.2.ownName = right.1.2.ownName :=
    List.Pairwise.iff_of_mem fun member member' =>
      areInOrder_iff (known _ member).2 (known _ member').2
  have ordered := @pairwise_iff (pairs.map Prod.fst)
  rw [List.pairwise_map] at ordered
  rw [checkNeighbours_eq_ok_iff, checkLevels_eq_ok_iff, List.isChain_map, List.pairwise_map,
    neighbours, levels, ordered, List.isChain_map]
  constructor
  · rintro ⟨chain, ⟨same, order⟩, -⟩
    exact ⟨same, order, chain.imp fun _ _ both combinator isNext => (both combinator isNext).2⟩
  · rintro ⟨same, order, siblings⟩
    refine ⟨?_, ⟨same, order⟩, by simp⟩
    rw [List.pairwise_map] at order
    rw [List.isChain_iff_forall_rel_of_append_cons_cons] at siblings ⊢
    intro left right before after split combinator isNext
    have apart : left.1.2.IsClassLevel → ¬right.1.2.IsRootLevel := by
      rw [split] at order
      exact List.rel_of_pairwise_cons (List.pairwise_append.mp order).2.1 List.mem_cons_self
    exact ⟨fun _ levels => apart levels.1 levels.2, siblings split combinator isNext⟩

/-- A selector is read when its compounds are and their objects pass both checks. -/
theorem exists_classify_iff : (∃ result, classify graph block selector = .ok result) ↔
    ∃ last objects, classifyAll graph selector block selector.compounds = .ok (last, objects) ∧
      checkNeighbours last selector objects = .ok () ∧
        checkLevels last selector none none objects = .ok () := by
  constructor
  · rintro ⟨result, classified⟩
    obtain ⟨⟨last, objects⟩, all, classified⟩ := bind_eq_ok_iff.mp classified
    obtain ⟨_, neighbours, classified⟩ := bind_eq_ok_iff.mp classified
    obtain ⟨_, levels, _⟩ := bind_eq_ok_iff.mp classified
    exact ⟨last, objects, all, neighbours, levels⟩
  · rintro ⟨last, objects, all, neighbours, levels⟩
    unfold classify
    rw [all]
    dsimp only [bind, Except.bind]
    rw [neighbours, levels]
    dsimp only
    split <;> exact ⟨_, rfl⟩

/-- The rules are what reading a selector checks. -/
theorem exists_classify_iff_isLegal :
    (∃ result, classify graph block selector = .ok result) ↔ selector.IsLegal graph block := by
  rw [exists_classify_iff]
  constructor
  · rintro ⟨last, objects, all, checks⟩
    obtain ⟨compounds, context⟩ := exists_classifyAll_iff.mp ⟨_, all⟩
    obtain ⟨root, order, siblings⟩ := (checks_eq_ok_iff (denotes_classifyAll all)).mp checks
    exact ⟨compounds, context, root, order, siblings⟩
  · rintro ⟨compounds, context, root, order, siblings⟩
    have read : ∃ result, classifyAll graph selector block selector.compounds = .ok result :=
      exists_classifyAll_iff.mpr ⟨compounds, context⟩
    obtain ⟨⟨last, objects⟩, all⟩ := read
    exact ⟨last, objects, all, (checks_eq_ok_iff (denotes_classifyAll all)).mpr
      ⟨root, order, siblings⟩⟩

/-- The key of a selector that was read is that of its last compound. -/
theorem hasKey_of_classify {key : Option ObjectKey}
    (classified : classify graph block selector = .ok (after, key)) :
    selector.HasKey after key := by
  obtain ⟨objects, all, last⟩ := classify_eq_ok classified
  obtain ⟨combinator, isKey⟩ := selector.getLast_compounds
  obtain ⟨⟨_, object⟩, isLast, _, denotes⟩ := forall₂_getLast (denotes_classifyAll all) isKey
  dsimp only at denotes
  cases denotes with
  | own own found =>
    rw [(last _).mpr ⟨_, isLast⟩]
    exact ⟨own, found⟩
  | foreign foreign =>
    cases key with
    | none => exact foreign
    | some other =>
      obtain ⟨_, isOwn⟩ := (last other).mp rfl
      cases isLast.symm.trans isOwn

/-- A selector may be used in a block exactly when it obeys the rules, and the key that reading it
gives is that of its last compound. -/
theorem classify_exact (graph : Graph) (block : Block) (selector : Selector) :
    Ends (fun result => selector.IsLegal graph block ∧ selector.HasKey result.1 result.2)
      (fun _ => ¬selector.IsLegal graph block) (classify graph block selector) := by
  cases classified : classify graph block selector with
  | error fault =>
    intro legal
    obtain ⟨_, read⟩ := exists_classify_iff_isLegal.mpr legal
    cases classified.symm.trans read
  | ok result =>
    exact ⟨exists_classify_iff_isLegal.mp ⟨result, classified⟩, hasKey_of_classify classified⟩

end Legality

end StyleBlock
