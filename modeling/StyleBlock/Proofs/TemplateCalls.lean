import Mathlib
import StyleBlock.Proofs.OrderedLists
import StyleBlock.Proofs.Outcome
import StyleBlock.Proofs.Renderings

/-!
What the calls of a template analysis do. A call that fails changes nothing, except that an element
that may not be closed is dropped. The recorded elements are numbered from zero, and every style of
theirs is of a block that was added.
-/

namespace StyleBlock

open Template (Element)

namespace Template.Element

variable {element : Element} {style : ObjectId}

theorem mem_allStyles_addStatic {added : ObjectId} :
    style ∈ (element.addStatic added).allStyles ↔ style ∈ element.allStyles ∨ style = added := by
  simp only [mem_allStyles, addStatic, mem_addStyles, List.mem_singleton, or_right_comm]

theorem mem_allStyles_addCorrelation {correlation : Correlation} :
    style ∈ (element.addCorrelation correlation).allStyles ↔
      style ∈ element.allStyles ∨ style ∈ correlation.styles := by
  simp only [mem_allStyles, addCorrelation, List.mem_append, List.mem_singleton, or_and_right,
    exists_or, exists_eq_left, or_assoc]

end Template.Element

namespace TemplateAnalysis

/-- Whether a block was added under some name. -/
def Knows (analysis : TemplateAnalysis) (id : BlockId) : Prop :=
  ∃ name, (name, id) ∈ analysis.blocks

/-- What a failing call leaves. -/
def afterFailure (analysis : TemplateAnalysis) : TemplateCall → TemplateAnalysis
  | .endElement => { analysis with current := none }
  | _ => analysis

/-- What a call that succeeds asks for and does. -/
inductive Performs (analysis : TemplateAnalysis) : TemplateCall → TemplateAnalysis → Prop
  | addBlock {name : String} {id : BlockId} (complete : analysis.graph.isComplete id = true)
      (free : ∀ other, analysis.block? name = some other → other = id) :
      Performs analysis (.addBlock name id)
        { analysis with blocks := Text.setOrdered name id analysis.blocks }
  | startElement {span : Template.Span} (closed : analysis.current = none) :
      Performs analysis (.startElement span)
        { analysis with current := some ⟨analysis.elements.length, span, [], []⟩ }
  | addStatic {style : BlockObject} {element : Element} (known : analysis.Knows style.id.block)
      (isOpen : analysis.current = some element) :
      Performs analysis (.addStatic style)
        { analysis with current := some (element.addStatic style.id) }
  | addExclusive {alwaysOne : Bool} {styles : List BlockObject} {element : Element}
      (known : ∀ style ∈ styles, analysis.Knows style.id.block)
      (isOpen : analysis.current = some element) :
      Performs analysis (.addExclusive alwaysOne styles)
        { analysis with
          current := some (element.addCorrelation ⟨styles.map BlockObject.id, !alwaysOne⟩) }
  | addDynamic {style : BlockObject} {element : Element} (known : analysis.Knows style.id.block)
      (isOpen : analysis.current = some element) :
      Performs analysis (.addDynamic style)
        { analysis with current := some (element.addCorrelation ⟨[style.id], true⟩) }
  | endElement {element : Element} (isOpen : analysis.current = some element)
      (passes : element.fault? analysis.graph = none) :
      Performs analysis .endElement
        { analysis with current := none, elements := analysis.elements ++ [element] }

variable {analysis other : TemplateAnalysis} {call : TemplateCall} {id : BlockId} {name : String}
  {style : BlockObject}

theorem blockName?_eq_some (named : analysis.blockName? id = some name) :
    (name, id) ∈ analysis.blocks := by
  obtain ⟨⟨other, block⟩, found, rfl⟩ := Option.map_eq_some_iff.mp named
  obtain rfl : block = id := by simpa using List.find?_some found
  exact List.mem_of_find?_eq_some found

theorem isSome_blockName?_iff : (analysis.blockName? id).isSome ↔ analysis.Knows id := by
  simp [blockName?, Knows]

theorem checkStyle_eq_ok_iff {id : ObjectId} :
    analysis.checkStyle style = .ok id ↔ analysis.Knows style.id.block ∧ style.id = id := by
  unfold checkStyle
  rw [← isSome_blockName?_iff]
  split <;> simp_all

/-! Successes and failures -/

/-- Whether a result is that of a call that fails, or that of one that does what it is for. -/
def Settles (analysis : TemplateAnalysis) (call : TemplateCall)
    (result : TemplateAnalysis × Except TemplateError Unit) : Prop :=
  (∃ error, result = (analysis.afterFailure call, .error error)) ∨
    ∃ other, analysis.Performs call other ∧ result = (other, .ok ())

theorem addBlock_settles : analysis.Settles (.addBlock name id) (analysis.addBlock name id) := by
  unfold addBlock
  by_cases complete : analysis.graph.isComplete id = true
  · by_cases taken : ((analysis.block? name).any fun block => block ≠ id) = true
    · simp only [complete, taken, Bool.not_true, Bool.false_eq_true, if_false, if_true]
      exact .inl ⟨_, rfl⟩
    · have free : ∀ other, analysis.block? name = some other → other = id := by
        intro other found
        simpa [found] using taken
      simp only [complete, taken, Bool.not_true, Bool.false_eq_true, if_false]
      exact .inr ⟨_, .addBlock complete free, rfl⟩
  · simp only [complete, Bool.not_false, if_true]
    exact .inl ⟨_, rfl⟩

theorem startElement_settles {span : Template.Span} :
    analysis.Settles (.startElement span) (analysis.perform (.startElement span)) := by
  unfold perform startElement
  cases closed : analysis.current with
  | some element => exact .inl ⟨_, rfl⟩
  | none => exact .inr ⟨_, .startElement closed, rfl⟩

/-- A change to the open element fails if there is none. -/
theorem changeElement_settles {change : Element → Element}
    (same : analysis.afterFailure call = analysis)
    (performs : ∀ element, analysis.current = some element →
      analysis.Performs call { analysis with current := some (change element) }) :
    analysis.Settles call (analysis.changeElement change) := by
  unfold changeElement
  cases isOpen : analysis.current with
  | none => exact .inl ⟨_, by rw [same]⟩
  | some element => exact .inr ⟨_, performs element isOpen, rfl⟩

theorem addStatic_settles : analysis.Settles (.addStatic style) (analysis.addStatic style) := by
  unfold addStatic
  cases checked : analysis.checkStyle style with
  | error error => exact .inl ⟨error, rfl⟩
  | ok id =>
    obtain ⟨known, rfl⟩ := checkStyle_eq_ok_iff.mp checked
    exact changeElement_settles rfl fun element isOpen => .addStatic known isOpen

theorem addExclusive_settles {alwaysOne : Bool} {styles : List BlockObject}
    (same : analysis.afterFailure call = analysis)
    (performs : ∀ element, (∀ style ∈ styles, analysis.Knows style.id.block) →
      analysis.current = some element → analysis.Performs call
        { analysis with
          current := some (element.addCorrelation ⟨styles.map BlockObject.id, !alwaysOne⟩) }) :
    analysis.Settles call (analysis.addExclusive alwaysOne styles) := by
  unfold addExclusive
  cases checked : styles.mapM analysis.checkStyle with
  | error error => exact .inl ⟨error, by rw [same]⟩
  | ok ids =>
    obtain ⟨rfl, passed⟩ := mapM_eq_ok BlockObject.id
      (fun checked => (checkStyle_eq_ok_iff.mp checked).2.symm) checked
    have known := fun style member => (checkStyle_eq_ok_iff.mp (passed style member)).1
    exact changeElement_settles same fun element isOpen => performs element known isOpen

theorem endElement_settles : analysis.Settles .endElement analysis.endElement := by
  unfold endElement
  cases isOpen : analysis.current with
  | none =>
    have same : analysis.afterFailure .endElement = analysis := by
      rw [afterFailure, ← isOpen]
    exact .inl ⟨_, by rw [same]⟩
  | some element =>
    cases passes : element.fault? analysis.graph with
    | some fault => exact .inl ⟨_, by simp only [passes]; rfl⟩
    | none => exact .inr ⟨_, .endElement isOpen passes, by simp only [passes]⟩

/-- A call fails or does what it is for. -/
theorem perform_settles (analysis : TemplateAnalysis) (call : TemplateCall) :
    analysis.Settles call (analysis.perform call) := by
  cases call with
  | addBlock name id => exact addBlock_settles
  | startElement span => exact startElement_settles
  | addStatic style => exact addStatic_settles
  | addExclusive alwaysOne styles =>
    exact addExclusive_settles rfl fun _ known isOpen => .addExclusive known isOpen
  | addDynamic style =>
    exact addExclusive_settles rfl fun _ known isOpen =>
      .addDynamic (known style (List.mem_singleton_self _)) isOpen
  | endElement => exact endElement_settles

/-- A call that fails leaves the analysis as it was, but for an element that could not be closed. -/
theorem perform_of_error {error : TemplateError}
    (failed : (analysis.perform call).2 = .error error) :
    (analysis.perform call).1 = analysis.afterFailure call := by
  rcases analysis.perform_settles call with ⟨other, same⟩ | ⟨other, -, same⟩
  · rw [same]
  · rw [same] at failed
    cases failed

theorem graph_performAll (analysis : TemplateAnalysis) (calls : List TemplateCall) :
    (analysis.performAll calls).graph = analysis.graph := by
  induction calls generalizing analysis with
  | nil => rfl
  | cons call rest ih => exact (ih _).trans (analysis.perform_records call).1

/-- Blocks get their names from calls only. -/
theorem mem_blocks_perform {entry : String × BlockId}
    (member : entry ∈ (analysis.perform call).1.blocks) :
    entry ∈ analysis.blocks ∨ call = .addBlock entry.1 entry.2 := by
  rcases analysis.perform_settles call with ⟨error, same⟩ | ⟨other, performs, same⟩
  · rw [same] at member
    cases call <;> exact .inl member
  · rw [same] at member
    cases performs with
    | addBlock complete free =>
      rcases Text.mem_of_mem_setOrdered member with rfl | earlier
      · exact .inr rfl
      · exact .inl earlier
    | _ => exact .inl member

theorem addBlock_mem_of_mem_blocks {calls : List TemplateCall} {entry : String × BlockId}
    (member : entry ∈ (analysis.performAll calls).blocks) :
    entry ∈ analysis.blocks ∨ .addBlock entry.1 entry.2 ∈ calls := by
  induction calls generalizing analysis with
  | nil => exact .inl member
  | cons call rest ih =>
    rcases ih member with earlier | later
    · rcases mem_blocks_perform earlier with before | rfl
      · exact .inl before
      · exact .inr (List.mem_cons_self ..)
    · exact .inr (List.mem_cons_of_mem _ later)

/-! What all calls keep -/

/-- Elements that are numbered in order and have styles of added blocks only, and added blocks that
are complete. -/
structure IsSound (analysis : TemplateAnalysis) : Prop where
  ordered : Text.IsOrdered Text.lessText (analysis.blocks.map Prod.fst)
  complete : ∀ id, analysis.Knows id → analysis.graph.isComplete id = true
  numbered : analysis.elements.map Element.id = List.range analysis.elements.length
  known : ∀ element ∈ analysis.elements, ∀ style ∈ element.allStyles, analysis.Knows style.block
  openNumbered : ∀ element, analysis.current = some element → element.id = analysis.elements.length
  openKnown : ∀ element, analysis.current = some element →
    ∀ style ∈ element.allStyles, analysis.Knows style.block

theorem isSound_start (graph : Graph) (template : Template) : (start graph template).IsSound where
  ordered := .nil
  complete := nofun
  numbered := rfl
  known := nofun
  openNumbered := nofun
  openKnown := nofun

namespace IsSound

theorem block?_eq_some_iff (sound : analysis.IsSound) :
    analysis.block? name = some id ↔ (name, id) ∈ analysis.blocks :=
  Text.find?_key_eq_some_iff (sound.ordered.nodup Text.isStrict_lessText)

/-- A name that is free, or already that of the block, takes no name from another block. -/
theorem knows_setOrdered_iff (sound : analysis.IsSound)
    (free : ∀ other, analysis.block? name = some other → other = id) {block : BlockId} :
    { analysis with blocks := Text.setOrdered name id analysis.blocks }.Knows block ↔
      analysis.Knows block ∨ block = id := by
  constructor
  · rintro ⟨localName, member⟩
    rcases Text.mem_of_mem_setOrdered member with same | earlier
    · exact .inr (Prod.ext_iff.mp same).2
    · exact .inl ⟨localName, earlier⟩
  · rintro (⟨localName, member⟩ | rfl)
    · by_cases same : localName = name
      · subst same
        obtain rfl := free block (sound.block?_eq_some_iff.mpr member)
        exact ⟨localName, Text.mem_setOrdered_self⟩
      · exact ⟨localName, Text.mem_setOrdered_of_ne member same⟩
    · exact ⟨name, Text.mem_setOrdered_self⟩

/-- Opening an element or giving it a style keeps all this, if the style is of an added block. -/
theorem setCurrent (sound : analysis.IsSound) {element : Element}
    (numbered : element.id = analysis.elements.length)
    (known : ∀ style ∈ element.allStyles, analysis.Knows style.block) :
    { analysis with current := some element }.IsSound where
  ordered := sound.ordered
  complete := sound.complete
  numbered := sound.numbered
  known := sound.known
  openNumbered _ isOpen := Option.some.inj isOpen ▸ numbered
  openKnown _ isOpen := Option.some.inj isOpen ▸ known

theorem setBlock (sound : analysis.IsSound) (complete : analysis.graph.isComplete id = true)
    (free : ∀ other, analysis.block? name = some other → other = id) :
    { analysis with blocks := Text.setOrdered name id analysis.blocks }.IsSound where
  ordered := by
    rw [Text.map_fst_setOrdered]
    exact sound.ordered.insert Text.isStrict_lessText name
  complete block known := by
    rcases (sound.knows_setOrdered_iff free).mp known with earlier | rfl
    · exact sound.complete block earlier
    · exact complete
  numbered := sound.numbered
  known element recorded style member :=
    (sound.knows_setOrdered_iff free).mpr (.inl (sound.known element recorded style member))
  openNumbered := sound.openNumbered
  openKnown element isOpen style member :=
    (sound.knows_setOrdered_iff free).mpr (.inl (sound.openKnown element isOpen style member))

theorem closed (sound : analysis.IsSound) : { analysis with current := none }.IsSound where
  ordered := sound.ordered
  complete := sound.complete
  numbered := sound.numbered
  known := sound.known
  openNumbered := nofun
  openKnown := nofun

/-- The open element has the number that follows those of the recorded ones. -/
theorem recorded (sound : analysis.IsSound) {element : Element}
    (isOpen : analysis.current = some element) :
    { analysis with current := none, elements := analysis.elements ++ [element] }.IsSound where
  ordered := sound.ordered
  complete := sound.complete
  numbered := by
    simp [sound.numbered, sound.openNumbered element isOpen, List.range_succ]
  known other member := by
    rcases List.mem_append.mp member with earlier | last
    · exact sound.known other earlier
    · exact List.mem_singleton.mp last ▸ sound.openKnown element isOpen
  openNumbered := nofun
  openKnown := nofun

theorem addCorrelation (sound : analysis.IsSound) {element : Element} {styles : List BlockObject}
    {optional : Bool} (known : ∀ style ∈ styles, analysis.Knows style.id.block)
    (isOpen : analysis.current = some element) :
    { analysis with
      current := some (element.addCorrelation ⟨styles.map BlockObject.id, optional⟩) }.IsSound := by
  refine sound.setCurrent (sound.openNumbered element isOpen) fun style member => ?_
  rcases Element.mem_allStyles_addCorrelation.mp member with earlier | added
  · exact sound.openKnown element isOpen style earlier
  · obtain ⟨object, listed, rfl⟩ := List.mem_map.mp added
    exact known object listed

theorem performs (sound : analysis.IsSound) (performs : analysis.Performs call other) :
    other.IsSound := by
  cases performs with
  | addBlock complete free => exact sound.setBlock complete free
  | startElement closed => exact sound.setCurrent rfl nofun
  | @addStatic style element known isOpen =>
    refine sound.setCurrent (sound.openNumbered element isOpen) fun other member => ?_
    rcases Element.mem_allStyles_addStatic.mp member with earlier | rfl
    · exact sound.openKnown element isOpen other earlier
    · exact known
  | addExclusive known isOpen => exact sound.addCorrelation known isOpen
  | @addDynamic style _ known isOpen =>
    exact sound.addCorrelation (List.forall_mem_singleton.mpr known) isOpen
  | endElement isOpen passes => exact sound.recorded isOpen

theorem perform (sound : analysis.IsSound) (call : TemplateCall) :
    (analysis.perform call).1.IsSound := by
  rcases analysis.perform_settles call with ⟨error, same⟩ | ⟨other, performs, same⟩
  · rw [same]
    cases call with
    | endElement => exact sound.closed
    | _ => exact sound
  · rw [same]
    exact sound.performs performs

theorem performAll (sound : analysis.IsSound) (calls : List TemplateCall) :
    (analysis.performAll calls).IsSound :=
  List.foldlRecOn calls _ sound fun _ sound call _ => sound.perform call

end IsSound

/-- The name of a style of an added block: a name of that block, and the source of the style. -/
theorem IsSound.exists_styleName_eq (sound : analysis.IsSound) {style : ObjectId}
    (known : analysis.Knows style.block) :
    ∃ name block, (name, style.block) ∈ analysis.blocks ∧
      analysis.graph.block? style.block = some block ∧
        analysis.styleName style = name ++ block.objectSource style.key := by
  obtain ⟨name, named⟩ := Option.isSome_iff_exists.mp (isSome_blockName?_iff.mpr known)
  obtain ⟨block, found⟩ := Option.isSome_iff_exists.mp (sound.complete style.block known)
  refine ⟨name, block, blockName?_eq_some named, found, ?_⟩
  simp [styleName, Template.sourceOf, Graph.object?, named, found, BlockObject.source,
    BlockObject.key]

end TemplateAnalysis

end StyleBlock
