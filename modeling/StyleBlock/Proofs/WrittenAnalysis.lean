import Mathlib
import StyleBlock.Proofs.OrderedLists
import StyleBlock.Proofs.TemplateCalls
import StyleBlock.Template.Record

/-!
Reading a written analysis back. The styles found are listed in order and each once, so a place in
that list is as good as a name: every element has its entry, and from it come the names of its
static styles and, correlation by correlation, those of its alternatives.
-/

namespace StyleBlock

open Template (Correlation Element)

namespace AnalysisRecord

/-- The name of the style at a place. -/
def nameAt? (record : AnalysisRecord) (place : Int) : Option String :=
  if 0 ≤ place then record.stylesFound[place.toNat]? else none

/-- Whether places stand for names, each as often as it is there, and the place −1 is added once if
none of them may apply. -/
structure ReadsBack (record : AnalysisRecord) (names : List String) (optional : Bool)
    (places : List Int) : Prop where
  names : ((places.filter (· ≠ -1)).map record.nameAt?).Perm (names.map some)
  absent : places.count (-1) = if optional then 1 else 0

theorem ReadsBack.perm {record : AnalysisRecord} {names : List String} {optional : Bool}
    {places others : List Int} (reads : record.ReadsBack names optional places)
    (same : others.Perm places) : record.ReadsBack names optional others where
  names := ((same.filter _).map _).trans reads.names
  absent := (same.count_eq _).trans reads.absent

end AnalysisRecord

namespace TemplateAnalysis

/-- Whether an entry of the written form tells where an element stands and which styles it has. -/
structure Describes (analysis : TemplateAnalysis) (element : Element) (entry : ElementRecord) :
    Prop where
  span : entry.span = element.span
  statics : analysis.record.ReadsBack (element.statics.map analysis.styleName) false entry.statics
  correlations : List.Forall₂ (fun correlation places =>
    analysis.record.ReadsBack
      (correlation.styles.map analysis.styleName) correlation.optional places)
    element.correlations entry.correlations

variable {analysis : TemplateAnalysis} {element : Element} {style : ObjectId}

theorem styleName_mem_stylesFound (recorded : element ∈ analysis.elements)
    (member : style ∈ element.allStyles) : analysis.styleName style ∈ analysis.stylesFound :=
  Text.mem_orderedTexts.mpr
    (List.mem_map_of_mem (List.mem_flatMap.mpr ⟨element, recorded, member⟩))

/-- The place of a style that was found leads back to its name. -/
theorem nameAt?_placeOf (found : analysis.styleName style ∈ analysis.stylesFound) :
    analysis.placeOf style ≠ -1 ∧
      analysis.record.nameAt? (analysis.placeOf style) = some (analysis.styleName style) := by
  unfold placeOf
  cases search : analysis.stylesFound.findIdx? fun name => name = analysis.styleName style with
  | none => simpa using List.findIdx?_eq_none_iff.mp search _ found
  | some index =>
    obtain ⟨bound, same, -⟩ := List.findIdx?_eq_some_iff_getElem.mp search
    refine ⟨nofun, ?_⟩
    have there : analysis.stylesFound[index]? = some (analysis.styleName style) := by
      rw [List.getElem?_eq_getElem bound, of_decide_eq_true same]
    simpa [AnalysisRecord.nameAt?, record] using there

theorem readsBack_ascending {styles : List ObjectId} (optional : Bool)
    (found : ∀ style ∈ styles, analysis.styleName style ∈ analysis.stylesFound) :
    analysis.record.ReadsBack (styles.map analysis.styleName) optional
      (ascending (styles.map analysis.placeOf ++ if optional then [-1] else [])) := by
  refine .perm ?_ (List.mergeSort_perm ..)
  have kept : (styles.map analysis.placeOf).filter (· ≠ -1) = styles.map analysis.placeOf := by
    rw [List.filter_eq_self]
    rintro _ member
    obtain ⟨style, listed, rfl⟩ := List.mem_map.mp member
    exact decide_eq_true (nameAt?_placeOf (found style listed)).1
  have none : (styles.map analysis.placeOf).count (-1) = 0 := by
    rw [List.count_eq_zero]
    intro member
    obtain ⟨style, listed, same⟩ := List.mem_map.mp member
    exact (nameAt?_placeOf (found style listed)).1 same
  constructor
  · have extra : (if optional then [(-1 : Int)] else []).filter (· ≠ -1) = [] := by
      cases optional <;> rfl
    rw [List.filter_append, kept, extra, List.append_nil, List.map_map, List.map_map]
    exact .of_eq (List.map_congr_left fun style listed => (nameAt?_placeOf (found style listed)).2)
  · rw [List.count_append, none]
    cases optional <;> rfl

theorem describes_recordOf (recorded : element ∈ analysis.elements) :
    analysis.Describes element (analysis.recordOf element) where
  span := rfl
  statics := by
    have found : ∀ style ∈ element.statics, analysis.styleName style ∈ analysis.stylesFound :=
      fun style static =>
        styleName_mem_stylesFound recorded (Element.mem_allStyles.mpr (.inl static))
    simpa [recordOf] using readsBack_ascending false found
  correlations := by
    refine List.forall₂_map_right_iff.mpr (List.forall₂_same.mpr fun correlation member => ?_)
    exact readsBack_ascending correlation.optional fun style alternative =>
      styleName_mem_stylesFound recorded
        (Element.mem_allStyles.mpr (.inr ⟨correlation, member, alternative⟩))

/-- The numbers of elements are all different, and so are their texts. -/
theorem nodup_keys (sound : analysis.IsSound) :
    (analysis.elements.map fun element => toString element.id).Nodup := by
  have numbered : (analysis.elements.map Element.id).Nodup := sound.numbered ▸ List.nodup_range
  have differ : Function.Injective fun number : Nat => toString number :=
    fun _ _ same => Nat.repr_injective same
  rwa [← List.nodup_map_iff differ, List.map_map] at numbered

/-- The written form has one entry for each recorded element. -/
theorem record_elements_perm (sound : analysis.IsSound) :
    analysis.record.elements.Perm
      (analysis.elements.map fun element => (toString element.id, analysis.recordOf element)) := by
  have distinct : ((analysis.elements.map (fun element : Element =>
      (toString element.id, analysis.recordOf element)) ++ []).map Prod.fst).Nodup := by
    rw [List.append_nil, List.map_map]
    exact nodup_keys sound
  have built := Text.foldl_setOrdered_perm distinct
  rwa [List.foldl_map, List.append_nil] at built

theorem stylesFound_pairwise (analysis : TemplateAnalysis) :
    analysis.record.stylesFound.Pairwise (· < ·) :=
  (Text.isOrdered_orderedTexts _).imp Text.lessText_eq_true_iff.mp

/-- After any calls, a call that fails changes nothing, except that an element that may not be
closed is dropped; the recorded elements are numbered in order and have styles of added blocks; and
the written form lists the styles found in order and each once, has one entry for each element, and
its places lead back to the names of the styles. -/
theorem record_loses_nothing (graph : Graph) (template : Template) (calls : List TemplateCall) :
    let analysis := (start graph template).performAll calls
    (∀ call error, (analysis.perform call).2 = .error error →
      (analysis.perform call).1 = analysis.afterFailure call) ∧
    analysis.elements.map Element.id = List.range analysis.elements.length ∧
    (∀ element ∈ analysis.elements, ∀ style ∈ element.allStyles, ∃ name block,
      .addBlock name style.block ∈ calls ∧ (name, style.block) ∈ analysis.blocks ∧
        graph.block? style.block = some block ∧
          analysis.styleName style = name ++ block.objectSource style.key) ∧
    analysis.record.stylesFound.Pairwise (· < ·) ∧
    (analysis.record.elements.map Prod.fst).Nodup ∧
    (analysis.record.elements.map Prod.fst).Perm
      (analysis.elements.map fun element => toString element.id) ∧
    ∀ element ∈ analysis.elements, ∃ entry,
      (toString element.id, entry) ∈ analysis.record.elements ∧
        analysis.Describes element entry := by
  intro analysis
  have sound : analysis.IsSound := (isSound_start graph template).performAll calls
  have sameGraph : analysis.graph = graph := graph_performAll _ calls
  have written := record_elements_perm sound
  have keys := written.map Prod.fst
  rw [List.map_map] at keys
  refine ⟨fun call error => perform_of_error, sound.numbered, ?_, stylesFound_pairwise analysis,
    keys.nodup_iff.mpr (nodup_keys sound), keys, ?_⟩
  · intro element recorded style member
    obtain ⟨name, block, named, found, same⟩ :=
      sound.exists_styleName_eq (sound.known element recorded style member)
    have called := (addBlock_mem_of_mem_blocks named).resolve_left nofun
    exact ⟨name, block, called, named, sameGraph ▸ found, same⟩
  · intro element recorded
    exact ⟨analysis.recordOf element, written.mem_iff.mpr (List.mem_map_of_mem recorded),
      describes_recordOf recorded⟩

/-- An item with at most one of its two sizes: its entry tells of all three styles, and another call
to close it fails. -/
theorem barSizes_written :
    let analysis := (start barGraph ⟨"page", "index"⟩).performAll (barCalls [barSize 0, barSize 1])
    let element := barElement [barSize 0, barSize 1]
    (∃ error, (analysis.perform .endElement).2 = .error error) ∧
      (analysis.perform .endElement).1 = analysis.afterFailure .endElement ∧
      element ∈ analysis.elements ∧ (barSize 1).id ∈ element.allStyles ∧
      (∃ name block, .addBlock name ⟨0⟩ ∈ barCalls [barSize 0, barSize 1] ∧
        (name, ⟨0⟩) ∈ analysis.blocks ∧ barGraph.block? ⟨0⟩ = some block ∧
          analysis.styleName (barSize 1).id = name ++ block.objectSource (barSize 1).id.key) ∧
      ∃ entry,
        (toString element.id, entry) ∈ analysis.record.elements ∧
          analysis.Describes element entry := by
  intro analysis element
  have recorded : element ∈ analysis.elements := by decide
  have alternative : (barSize 1).id ∈ element.allStyles := by decide
  have failed : (analysis.perform .endElement).2 =
      .error (analysis.error .noneStarted none) := rfl
  obtain ⟨failing, -, styles, -, -, -, entries⟩ :=
    record_loses_nothing barGraph ⟨"page", "index"⟩ (barCalls [barSize 0, barSize 1])
  exact ⟨⟨_, failed⟩, failing _ _ failed, recorded, alternative,
    styles element recorded (barSize 1).id alternative, entries element recorded⟩

end TemplateAnalysis

end StyleBlock
