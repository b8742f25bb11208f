import StyleBlock.Compile.Inheritance
import StyleBlock.Proofs.LoadedBlock
import StyleBlock.Proofs.Objects
import StyleBlock.Proofs.ResolutionText

/-!
What the marking of inherited conflicts adds. If the names of a block are plain, every declaration
that is put in front of a rule reads as a resolution, so settling takes it out again.
-/

namespace StyleBlock

/-- A text that can stand between double quotes as it is: it holds no double quote, no backslash
and no line end. -/
def IsPlainText (text : String) : Prop :=
  ∀ c ∈ text.toList, Css.isPlainInString c

theorem IsPlainText.append {left right : String} (first : IsPlainText left)
    (second : IsPlainText right) : IsPlainText (left ++ right) := by
  intro c member
  rw [String.toList_append] at member
  rcases List.mem_append.mp member with left | right
  · exact first c left
  · exact second c right

structure StateName.IsPlain (state : StateName) : Prop where
  name : IsPlainText state.name
  group : ∀ group ∈ state.group, IsPlainText group

/-- A block whose names of references, classes, groups and states are plain. -/
structure Block.HasPlainNames (block : Block) : Prop where
  references : ∀ entry ∈ block.references, IsPlainText entry.1
  classes : ∀ entry ∈ block.classes, IsPlainText entry.name
  states : ∀ owner, ∀ states ∈ block.statesOf? owner, ∀ state ∈ states, state.name.IsPlain

structure ObjectReference.IsPlain (reference : ObjectReference) : Prop where
  className : ∀ name ∈ reference.className, IsPlainText name
  state : ∀ state ∈ reference.state, state.IsPlain

theorem State.isPlainText_source {state : State} (plain : state.name.IsPlain) :
    IsPlainText state.source := by
  have opening : IsPlainText "[state|" := List.all_eq_true.mp (by decide)
  have closing : IsPlainText "]" := List.all_eq_true.mp (by decide)
  have equals : IsPlainText "=" := List.all_eq_true.mp (by decide)
  unfold State.source
  split
  · rename_i group same
    exact (((opening.append (plain.group group same)).append equals).append plain.name).append
      closing
  · exact (opening.append plain.name).append closing

namespace Block

theorem class_of_findClass {block : Block} {name : String} {index : Nat}
    (found : block.findClass? name = some index) :
    ∃ entry, block.classes[index]? = some entry ∧ entry.name = name := by
  obtain ⟨below, same, -⟩ := List.findIdx?_eq_some_iff_getElem.mp found
  exact ⟨_, List.getElem?_eq_getElem below, by simpa using same⟩

theorem state_of_findState {states : List State} {name : StateName} {index : Nat}
    (found : findState? states name = some index) :
    ∃ state, states[index]? = some state ∧ state.name = name := by
  obtain ⟨below, same, -⟩ := List.findIdx?_eq_some_iff_getElem.mp found
  exact ⟨_, List.getElem?_eq_getElem below, by simpa using same⟩

theorem isPlainText_classSource {block : Block} {className : Option String} {index : Nat}
    (plain : ∀ name ∈ className, IsPlainText name)
    (found : block.owner? className = some (some index)) :
    IsPlainText (block.classSource index) := by
  have point : IsPlainText "." := List.all_eq_true.mp (by decide)
  cases className with
  | none => cases found
  | some name =>
    unfold owner? at found
    dsimp only at found
    split at found
    · cases found
    · obtain ⟨place, known, same⟩ := Option.map_eq_some_iff.mp found
      cases same
      obtain ⟨entry, placed, rfl⟩ := class_of_findClass known
      unfold classSource
      rw [placed]
      exact point.append (plain _ rfl)

/-- An object that a plain reference names has a plain source. -/
theorem isPlainText_objectSource {block : Block} {reference : ObjectReference} {key : ObjectKey}
    (plain : reference.IsPlain) (found : block.findOwn? reference = some key) :
    IsPlainText (block.objectSource key) := by
  rw [findOwn_eq_bind] at found
  obtain ⟨owner, owned, found⟩ := Option.bind_eq_some_iff.mp found
  cases named : reference.state with
  | none =>
    rw [named] at found
    cases found
    cases owner with
    | none =>
      show IsPlainText ".root"
      exact List.all_eq_true.mp (by decide)
    | some index => exact isPlainText_classSource plain.className owned
  | some name =>
    rw [named] at found
    obtain ⟨states, existing, found⟩ := Option.bind_eq_some_iff.mp found
    obtain ⟨index, placed, rfl⟩ := Option.map_eq_some_iff.mp found
    obtain ⟨state, present, rfl⟩ := state_of_findState placed
    have source := State.isPlainText_source (plain.state _ named)
    cases owner with
    | none => simpa [objectSource, stateAt?, existing, present] using source
    | some owner =>
      simpa [objectSource, stateAt?, existing, present] using
        (isPlainText_classSource plain.className owned).append source

end Block

theorem Graph.Inherits.isPlainText_source {graph : Graph} {reference : ObjectReference}
    {id : BlockId} {object : BlockObject} (inherited : graph.Inherits reference id object)
    (plain : reference.IsPlain) : IsPlainText object.source := by
  induction inherited with
  | own _ found => exact Block.isPlainText_objectSource plain found
  | base _ _ _ _ ih => exact ih

/-- An object of a block with plain names has a plain reference. -/
theorem BlockObject.isPlain_reference {object : BlockObject} (plain : object.block.HasPlainNames) :
    object.reference.IsPlain := by
  constructor
  · intro name member
    obtain ⟨entry, found, rfl⟩ := Option.map_eq_some_iff.mp member
    obtain ⟨index, _, placed⟩ := Option.bind_eq_some_iff.mp found
    exact plain.classes entry (List.mem_of_getElem? placed)
  · intro name member
    obtain ⟨state, found, rfl⟩ := Option.map_eq_some_iff.mp member
    unfold BlockObject.state? Block.stateAt? at found
    split at found
    · rename_i owner index same
      obtain ⟨states, existing, placed⟩ := Option.bind_eq_some_iff.mp found
      exact plain.states owner states existing state (List.mem_of_getElem? placed)
    · cases found

theorem Graph.block_of_ownObject {graph : Graph} {id : BlockId} {block : Block}
    {compound : Compound} {object : BlockObject} (loaded : graph.block? id = some block)
    (found : graph.ownObject? id compound = some object) : object.block = block := by
  obtain ⟨root, known, found⟩ := Option.bind_eq_some_iff.mp found
  obtain ⟨rootBlock, same, rfl⟩ := Option.map_eq_some_iff.mp known
  obtain ⟨key, rfl, -⟩ := (BlockObject.mem_own_iff rfl).mp (List.mem_of_find?_eq_some found)
  exact Option.some.inj (same.symm.trans loaded)

/-- The source of the base of an own object is plain. -/
theorem Graph.isPlainText_base {graph : Graph} {object base : BlockObject}
    (plain : object.block.HasPlainNames) (found : graph.baseOf? object = some base) :
    IsPlainText base.source := by
  obtain ⟨id, -, found⟩ := Option.bind_eq_some_iff.mp found
  exact (Graph.resolveLocal_eq_some_iff.mp found).isPlainText_source
    (BlockObject.isPlain_reference plain)

namespace Inheritance

/-- Annotations that settling takes out again. -/
def Annotations.AreResolutions (annotations : Annotations) : Prop :=
  ∀ declaration ∈ annotations.added, declaration.isResolution = true

theorem areResolutions_annotate {pseudo : Option String} {value : String} {rule : Rule}
    {annotations : Annotations} (resolution : (Resolution.parse? value).isSome)
    (known : annotations.AreResolutions) (declaration : Declaration) :
    (annotate pseudo value rule annotations declaration).AreResolutions := by
  unfold annotate
  dsimp only
  split
  · exact known
  split
  · exact known
  · intro added member
    rcases List.mem_append.mp member with old | new
    · exact known added old
    · rw [List.mem_singleton.mp new]
      exact resolution

theorem areResolutions_annotateSelector {graph : Graph} {id : BlockId} {block : Block}
    (loaded : graph.block? id = some block) (plain : block.HasPlainNames) {baseName : String}
    (plainBase : IsPlainText baseName) {rule : Rule} {annotations : Annotations}
    (known : annotations.AreResolutions) (selector : Selector) :
    (annotateSelector graph id baseName rule annotations selector).AreResolutions := by
  unfold annotateSelector
  split
  · exact known
  · rename_i object own
    split
    · exact known
    · rename_i base found
      have same := Graph.block_of_ownObject loaded own
      have plainSource := Graph.isPlainText_base (same ▸ plain) found
      have read := Resolution.parse_inheritedValue (plainBase.append plainSource)
      rw [Resolution.inheritedValue_append]
      exact List.foldlRecOn _ _ known fun annotations known declaration _ =>
        areResolutions_annotate (Option.isSome_of_eq_some read) known declaration

/-- Every annotation of a loaded block with plain names is a resolution. -/
theorem isResolution_of_mem_annotationsOf {graph : Graph} {id : BlockId} {block : Block}
    (loaded : graph.block? id = some block) {sheet : Sheet} (kept : block.Keeps sheet)
    (plain : block.HasPlainNames) {rule : Rule} {declaration : Declaration}
    (member : declaration ∈ annotationsOf graph id block rule) :
    declaration.isResolution = true := by
  unfold annotationsOf at member
  split at member
  · cases member
  · rename_i extension same
    have known := kept.referred extension same
    obtain ⟨entry, found, -⟩ := Option.map_eq_some_iff.mp known
    have named : entry.1 = extension.localName := by simpa using List.find?_some found
    have plainBase := plain.references entry (List.mem_of_find?_eq_some found)
    rw [named] at plainBase
    have all : ((block.selectorsOf rule.head.id).foldl
        (annotateSelector graph id extension.localName rule) ⟨[], []⟩).AreResolutions :=
      List.foldlRecOn _ _ (nofun : Annotations.AreResolutions ⟨[], []⟩)
        fun annotations known selector _ =>
          areResolutions_annotateSelector loaded plain plainBase known selector
    exact all declaration member

end Inheritance

end StyleBlock
