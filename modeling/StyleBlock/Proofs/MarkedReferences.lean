import StyleBlock.Proofs.InheritedObjects
import StyleBlock.Proofs.Marking

/-!
What a mark refers to. Where the names of a block are plain identifiers, the reference in a mark
reads as it is written, and it leads from the block to the very object that the mark was made for.
-/

namespace StyleBlock

/-- A character of a plain name: a letter, a digit, a hyphen or an underscore. Beyond ASCII every
character but a blank counts as a letter. -/
def isPlainNamePart (c : Char) : Bool :=
  Css.isNamePart c && c != '\x00' && !Text.isBlank c

/-- Whether a name is a plain identifier: it starts with a letter or an underscore and goes on with
letters, digits, hyphens and underscores. -/
structure IsPlainName (name : String) : Prop where
  starts : ∃ first ∈ name.toList.head?, Css.isNameStart first = true
  parts : ∀ c ∈ name.toList, isPlainNamePart c = true

/-- A character that neither ends a quoted reference nor is changed or left out when it is read. -/
def isPlainInReference (c : Char) : Bool :=
  Css.isPlainInString c && c != '\x00' && !Text.isBlank c

theorem isPlainInReference_of_part {c : Char} (part : isPlainNamePart c = true) :
    isPlainInReference c = true := by
  simp only [isPlainNamePart, Bool.and_eq_true] at part
  obtain ⟨⟨isPart, visible⟩, solid⟩ := part
  have special : ∀ other ∈ ['\x22', '\\', '\n', '\r', '\x0c'], (!Css.isNamePart other) = true :=
    List.all_eq_true.mp (by decide)
  have apart : ∀ other ∈ ['\x22', '\\', '\n', '\r', '\x0c'], c ≠ other := by
    rintro other listed rfl
    have noPart := special c listed
    rw [isPart] at noPart
    cases noPart
  have plain : Css.isPlainInString c = true := by
    simp only [List.mem_cons, List.not_mem_nil, or_false, forall_eq_or_imp, forall_eq] at apart
    simp [Css.isPlainInString, Text.isLineEnd, apart]
  simp [isPlainInReference, plain, visible, solid]

theorem IsPlainName.isBare {name : String} (plain : IsPlainName name) : IsBare name := by
  obtain ⟨⟨first, isFirst, starts⟩, parts⟩ := plain
  obtain ⟨rest, same⟩ : ∃ rest, name.toList = first :: rest := by
    cases chars : name.toList with
    | nil => simp [chars] at isFirst
    | cons c rest =>
      rw [chars] at isFirst
      cases isFirst
      exact ⟨rest, rfl⟩
  have visible : ∀ c ∈ name.toList, Css.isNamePart c = true ∧ c ≠ '\x00' := by
    intro c member
    have part := parts c member
    simp only [isPlainNamePart, Bool.and_eq_true, bne_iff_ne] at part
    exact part.1
  refine ⟨⟨?_, fun null => (visible _ null).2 rfl⟩, ?_⟩
  · rintro rfl
    cases same
  · refine Css.writeIdent_eq_self ?_ visible
    rw [same]
    exact Css.startsIdent_of_start (.inl starts)

theorem trim_of_solid {text : String} (solid : ∀ c ∈ text.toList, Text.isBlank c = false) :
    Text.trim text = text := by
  have last : ∀ chars : List Char, (∀ c ∈ chars, Text.isBlank c = false) →
      Text.dropBlankEnd chars = chars := by
    intro chars solid
    rw [Text.dropBlankEnd, List.dropWhile_eq_self_iff.mpr, List.reverse_reverse]
    intro filled
    simpa using solid _ (List.mem_reverse.mp (List.getElem_mem filled))
  have first : text.toList.dropWhile Text.isBlank = text.toList := by
    refine List.dropWhile_eq_self_iff.mpr fun filled => ?_
    simpa using solid _ (List.getElem_mem filled)
  rw [Text.trim, Text.trimChars, first, last _ solid, String.ofList_toList]

/-! Names of references -/

/-- The names in a state: that of its group, if any, and its own. -/
def StateName.names (state : StateName) : List String :=
  state.group.toList ++ [state.name]

/-- The names in a reference. -/
def ObjectReference.names (reference : ObjectReference) : List String :=
  reference.block.toList ++ reference.className.toList ++
    reference.state.elim [] StateName.names

/-- The names of the classes of a block, and those of all states and groups in it. -/
def Block.objectNames (block : Block) : List String :=
  block.classNames ++ block.stateLists.flatten.flatMap StateName.names

theorem StateName.mem_bareSource {state : StateName} {c : Char} (member : c ∈ state.bareSource) :
    isPlainInReference c = true ∨ ∃ name ∈ state.names, c ∈ name.toList := by
  have opening : ∀ c ∈ "[state|".toList, isPlainInReference c = true :=
    List.all_eq_true.mp (by decide)
  have equals : ∀ c ∈ "=".toList, isPlainInReference c = true := List.all_eq_true.mp (by decide)
  have closing : ∀ c ∈ "]".toList, isPlainInReference c = true := List.all_eq_true.mp (by decide)
  obtain ⟨group, name⟩ := state
  cases group with
  | none =>
    simp only [bareSource, List.mem_append] at member
    rcases member with (first | own) | last
    · exact .inl (opening c first)
    · exact .inr ⟨name, by simp [names], own⟩
    · exact .inl (closing c last)
  | some group =>
    simp only [bareSource, List.mem_append] at member
    rcases member with (((first | inGroup) | between) | own) | last
    · exact .inl (opening c first)
    · exact .inr ⟨group, by simp [names], inGroup⟩
    · exact .inl (equals c between)
    · exact .inr ⟨name, by simp [names], own⟩
    · exact .inl (closing c last)

namespace ObjectReference

variable {reference : ObjectReference}

/-- A reference is written with the characters of its names and some punctuation. -/
theorem mem_bareSource {c : Char} (member : c ∈ reference.bareSource) :
    isPlainInReference c = true ∨ ∃ name ∈ reference.names, c ∈ name.toList := by
  obtain ⟨block, className, state⟩ := reference
  simp only [bareSource, List.mem_append] at member
  rcases member with (inBlock | inClass) | inState
  · cases block with
    | none => cases inBlock
    | some name => exact .inr ⟨name, by simp [names], inBlock⟩
  · cases className with
    | none => cases inClass
    | some name =>
      rcases List.mem_cons.mp inClass with rfl | own
      · exact .inl (by decide)
      · exact .inr ⟨name, by simp [names], own⟩
  · cases state with
    | none => cases inState
    | some state =>
      rcases StateName.mem_bareSource inState with plain | ⟨name, own, inName⟩
      · exact .inl plain
      · exact .inr ⟨name, List.mem_append_right _ own, inName⟩

theorem isPlainInReference_of_names (plain : ∀ name ∈ reference.names, IsPlainName name) :
    ∀ c ∈ reference.bareSource, isPlainInReference c = true := by
  intro c member
  rcases mem_bareSource member with isPlain | ⟨name, own, inName⟩
  · exact isPlain
  · exact isPlainInReference_of_part ((plain name own).parts c inName)

theorem isBare_of_names (plain : ∀ name ∈ reference.names, IsPlainName name) :
    reference.IsBare := by
  obtain ⟨block, className, state⟩ := reference
  refine ⟨?_, ?_, ?_⟩
  · rintro name ⟨⟩
    exact (plain name (by simp [names])).isBare
  · rintro name ⟨⟩
    exact (plain name (by simp [names])).isBare
  · rintro state ⟨⟩
    refine ⟨(plain _ (by simp [names, StateName.names])).isBare, fun group isGroup => ?_⟩
    have isGroup := Option.mem_def.mp isGroup
    exact (plain group (by simp [names, StateName.names, isGroup])).isBare

theorem inner_inner (reference : ObjectReference) : reference.inner.inner = reference.inner := by
  unfold inner
  dsimp only
  split
  · rfl
  · rfl

theorem mem_names_inner {name : String} (member : name ∈ reference.inner.names) :
    name ∈ reference.names := by
  obtain ⟨block, className, state⟩ := reference
  rcases List.mem_append.mp member with front | inState
  · have isClass : some name = if className = some rootClass then none else className := by
      simpa [inner, eq_comm] using front
    split at isClass
    · cases isClass
    · simp [names, ← isClass]
  · exact List.mem_append_right _ inState

end ObjectReference

/-- A plain reference in quotes is read as it is written. -/
theorem Resolution.parse_plain {text : String}
    (plain : ∀ c ∈ text.toList, isPlainInReference c = true) :
    parse? (inheritedValue text) = some ⟨text, true⟩ := by
  have visible : ∀ c ∈ text.toList, Css.isPlainInString c = true ∧ c ≠ '\x00' := by
    intro c member
    have isPlain := plain c member
    simp only [isPlainInReference, Bool.and_eq_true, bne_iff_ne] at isPlain
    exact isPlain.1
  have unchanged : text.toList.map Css.clean = text.toList := by
    refine (List.map_congr_left fun c member => ?_).trans (List.map_id' _)
    exact if_neg (visible c member).2
  rw [parse_inheritedValue fun c member => (visible c member).1, unchanged, String.ofList_toList]

/-! Names of objects -/

theorem BlockObject.mem_objectNames {object : BlockObject} :
    ∀ name ∈ object.reference.names, name ∈ object.block.objectNames := by
  obtain ⟨⟨id, key⟩, block⟩ := object
  intro name member
  simp only [ObjectReference.names, reference, List.mem_append, Option.mem_toList] at member
  rcases member with (⟨⟨⟩⟩ | isClass) | inState
  · obtain ⟨entry, found, rfl⟩ := Option.map_eq_some_iff.mp isClass
    obtain ⟨index, -, placed⟩ := Option.bind_eq_some_iff.mp found
    exact List.mem_append_left _ (List.mem_map_of_mem (List.mem_of_getElem? placed))
  · cases found : (⟨⟨id, key⟩, block⟩ : BlockObject).state? with
    | none =>
      rw [found] at inState
      cases inState
    | some state =>
      rw [found] at inState
      refine List.mem_append_right _ (List.mem_flatMap.mpr ⟨state.name, ?_, inState⟩)
      cases key with
      | root => cases found
      | ofClass index => cases found
      | ofState owner index =>
        obtain ⟨states, existing, placed⟩ := Option.bind_eq_some_iff.mp found
        have known : block.stateNames? owner = some (states.map State.name) := by
          rw [Block.stateNames?, existing, Option.map_some]
        exact List.mem_flatten.mpr ⟨_, Block.stateNames_mem_stateLists known,
          List.mem_map_of_mem (List.mem_of_getElem? placed)⟩

/-- What is written for an object names its reference, or the root. -/
theorem BlockObject.mem_names_sourceReference {object : BlockObject}
    (has : object.block.contains object.key = true) :
    ∀ name ∈ (object.block.sourceReference object.key).names,
      name = rootClass ∨ name ∈ object.reference.names := by
  intro name member
  rw [sourceReference_eq has] at member
  split at member
  · exact .inl (List.mem_singleton.mp member)
  · exact .inr member

namespace Graph

variable {graph : Graph} {id : BlockId}

theorem findAlong_inner (graph : Graph) (reference : ObjectReference) (steps : Nat) (id : BlockId) :
    graph.findAlong? reference.inner steps id = graph.findAlong? reference steps id := by
  induction steps generalizing id with
  | zero => rfl
  | succ steps ih => simp only [findAlong?, Block.findOwn_inner, ih]

theorem resolveLocal_inner (graph : Graph) (id : BlockId) (reference : ObjectReference) :
    graph.resolveLocal? id reference.inner = graph.resolveLocal? id reference :=
  graph.findAlong_inner reference graph.slots.size id

/-- Where a reference leads, it is defined. -/
theorem Inherits.ownOf {reference : ObjectReference} {object : BlockObject}
    (inherits : graph.Inherits reference id object) :
    graph.ownOf? reference object.id.block = some object := by
  induction inherits with
  | own stored found => exact ownOf?_eq_some_iff.mpr ⟨rfl, stored, found⟩
  | base _ _ _ _ ih => exact ih

/-- An object that overrides another one has its name. -/
theorem reference_base {object base : BlockObject} (overridden : graph.baseOf? object = some base) :
    base.reference = object.reference.inner := by
  obtain ⟨above, -, found⟩ := Option.bind_eq_some_iff.mp overridden
  obtain ⟨-, -, known⟩ := ownOf?_eq_some_iff.mp (resolveLocal_eq_some_iff.mp found).ownOf
  exact Block.reference_of_findOwn known

/-- What is written for an object that another one overrides leads to it, from the block that is
extended. -/
theorem resolveLocal_base {object base : BlockObject} {above : BlockId}
    (extended : object.block.base? = some above) (overridden : graph.baseOf? object = some base) :
    graph.resolveLocal? above (base.block.sourceReference base.key) = some base := by
  have found : graph.resolveLocal? above object.reference = some base := by
    rwa [baseOf?, extended, Option.bind_some] at overridden
  have has := (resolveLocal_eq_some_iff.mp found).has.2
  have written : (base.block.sourceReference base.key).inner = object.reference.inner := by
    rw [BlockObject.sourceReference_eq has]
    split
    · next isRoot => rw [← reference_base overridden, isRoot]; rfl
    · rw [reference_base overridden, ObjectReference.inner_inner]
  rw [← resolveLocal_inner, written, resolveLocal_inner, found]

end Graph

/-- Whether the names in the marks of a block are plain: the name of the block it extends, and those
of its classes, groups and states. -/
structure Block.IsPlainlyNamed (block : Block) : Prop where
  extension : ∀ extension ∈ block.extension, IsPlainName extension.localName
  objects : ∀ name ∈ block.objectNames, IsPlainName name

/-- The reference in a mark for an object is read as it is written, and leads to that object. -/
theorem Graph.lookup_mark {graph : Graph} {id : BlockId} {object base : BlockObject}
    {extension : Extension} (stored : graph.block? id = some object.block)
    (kept : object.block.Keeps object.block.sheet) (plain : object.block.IsPlainlyNamed)
    (extended : object.block.extension = some extension)
    (overridden : graph.baseOf? object = some base) :
    Resolution.parse? (Resolution.inheritedValue (extension.localName ++ base.source)) =
        some ⟨extension.localName ++ base.source, true⟩ ∧
      graph.lookup? id (extension.localName ++ base.source) = some base := by
  let reference : ObjectReference :=
    { base.block.sourceReference base.key with block := some extension.localName }
  have above : object.block.base? = some extension.block := by rw [Block.base?, extended]; rfl
  have found := resolveLocal_base above overridden
  have has := (resolveLocal_eq_some_iff.mp found).has.2
  have names : ∀ name ∈ reference.names, IsPlainName name := by
    intro name member
    have either : name = extension.localName ∨
        name ∈ (base.block.sourceReference base.key).names := by
      simpa [reference, ObjectReference.names, Block.sourceReference] using member
    rcases either with rfl | member
    · exact plain.extension extension extended
    · rcases BlockObject.mem_names_sourceReference has name member with rfl | member
      · exact ⟨⟨'r', rfl, by decide⟩, List.all_eq_true.mp (by decide)⟩
      · apply plain.objects
        apply BlockObject.mem_objectNames
        rw [reference_base overridden] at member
        exact ObjectReference.mem_names_inner member
  have written : (extension.localName ++ base.source).toList = reference.bareSource := by
    rw [String.toList_append, BlockObject.source, Block.toList_objectSource has]
    simp [ObjectReference.bareSource, reference, Block.sourceReference]
  have characters := ObjectReference.isPlainInReference_of_names names
  rw [← written] at characters
  refine ⟨Resolution.parse_plain characters, ?_⟩
  have trimmed : Text.trim (extension.localName ++ base.source) =
      extension.localName ++ base.source := by
    refine trim_of_solid fun c member => ?_
    have isPlain := characters c member
    simp only [isPlainInReference, Bool.and_eq_true, Bool.not_eq_true'] at isPlain
    exact isPlain.2
  have filled : reference ≠ .empty := by simp [reference, ObjectReference.empty]
  exact lookup_of_bare (ObjectReference.isBare_of_names names) filled written trimmed
    ⟨object.block, extension.block, stored, kept.referred extension extended,
      resolveLocal_eq_some_iff.mp found⟩

end StyleBlock
