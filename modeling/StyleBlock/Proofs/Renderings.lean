import Mathlib
import StyleBlock.Proofs.Reading
import StyleBlock.Template.Analysis

/-!
The ways to render an element. Its static styles always apply, and of each correlation at most one
style does. The check of an element looks at pairs of styles that no correlation holds both of, so
what a correlation keeps apart is taken to be apart. This is so unless one of the two styles can
also apply without that correlation; apart from such styles, no recorded element has a rendering in
which styles conflict.
-/

namespace StyleBlock

namespace Template

/-! Conflicts -/

/-- Whether two styles of one block may not be on one element: one of the root and one of a class,
styles of two classes, or two states of one exclusive group of the root or of a class. -/
def Conflicts (graph : Graph) (left right : ObjectId) : Prop :=
  left ≠ right ∧ left.block = right.block ∧
    (left.key.isRootLevel ≠ right.key.isRootLevel ∨
      (∃ first second, left.key.class? = some first ∧ right.key.class? = some second ∧
        first ≠ second) ∨
      ((isState left.key = true ∧ isState right.key = true) ∧ left.key.class? = right.key.class? ∧
        ∃ group, groupOf graph left = some group ∧ groupOf graph right = some group))

variable {graph : Graph} {left right style : ObjectId}

theorem Conflicts.symm (conflict : Conflicts graph left right) : Conflicts graph right left := by
  obtain ⟨different, block, levels | ⟨first, second, isFirst, isSecond, apart⟩ |
    ⟨states, owner, group, isGroup, isGroup'⟩⟩ := conflict
  · exact ⟨different.symm, block.symm, .inl levels.symm⟩
  · exact ⟨different.symm, block.symm, .inr (.inl ⟨second, first, isSecond, isFirst, apart.symm⟩)⟩
  · exact ⟨different.symm, block.symm,
      .inr (.inr ⟨states.symm, owner.symm, group, isGroup', isGroup⟩)⟩

/-- The rules for pairs find every conflict. -/
theorem not_conflicts_of_rules (levels : rootWithClass? graph left right = none)
    (classes : twoClasses? graph left right = none)
    (states : twoStates? graph left right = none) : ¬ Conflicts graph left right := by
  rintro ⟨-, -, apart | ⟨first, second, isFirst, isSecond, apart⟩ |
    ⟨⟨isLeft, isRight⟩, owner, group, isGroup, isGroup'⟩⟩
  · simp [rootWithClass?, apart] at levels
  · simp [twoClasses?, isFirst, isSecond, apart] at classes
  · simp [twoStates?, isLeft, isRight, owner, isGroup, isGroup'] at states

/-! Styles that can apply -/

theorem mem_addStyles {styles more : List ObjectId} :
    style ∈ addStyles styles more ↔ style ∈ styles ∨ style ∈ more := by
  unfold addStyles
  induction more generalizing styles with
  | nil => simp
  | cons first rest ih =>
    rw [List.foldl_cons, ih, Text.mem_insertOrdered, List.mem_cons]
    tauto

namespace Element

variable {element : Element}

theorem mem_allStyles :
    style ∈ element.allStyles ↔
      style ∈ element.statics ∨
        ∃ correlation ∈ element.correlations, style ∈ correlation.styles := by
  unfold allStyles
  generalize element.statics = styles
  induction element.correlations generalizing styles with
  | nil => simp
  | cons first rest ih =>
    rw [List.foldl_cons, ih, mem_addStyles, List.exists_mem_cons_iff, or_assoc]

/-- Two different items of a list are a pair of it in one order or the other. -/
theorem mem_pairs_or_mem_pairs {α : Type} {items : List α} {first second : α}
    (isFirst : first ∈ items) (isSecond : second ∈ items) (different : first ≠ second) :
    (first, second) ∈ pairs items ∨ (second, first) ∈ pairs items := by
  induction items with
  | nil => cases isFirst
  | cons head rest ih =>
    have paired : ∀ {other : α}, other ∈ rest → (head, other) ∈ pairs (head :: rest) :=
      fun member => List.mem_append_left _ (List.mem_map_of_mem member)
    rcases List.mem_cons.mp isFirst with rfl | firstLater
    · rcases List.mem_cons.mp isSecond with rfl | secondLater
      · exact absurd rfl different
      · exact .inl (paired secondLater)
    · rcases List.mem_cons.mp isSecond with rfl | secondLater
      · exact .inr (paired firstLater)
      · exact (ih firstLater secondLater).imp (List.mem_append_right _) (List.mem_append_right _)

theorem mayCoexist_comm : element.mayCoexist left right = element.mayCoexist right left := by
  simp only [mayCoexist, ne_comm, Bool.and_comm]

/-- Styles that conflict and can both apply are in one correlation, if the element passes its
check. -/
theorem exists_correlation_of_conflicts (passes : element.fault? graph = none)
    (isLeft : left ∈ element.allStyles) (isRight : right ∈ element.allStyles)
    (conflict : Conflicts graph left right) :
    ∃ correlation ∈ element.correlations,
      left ∈ correlation.styles ∧ right ∈ correlation.styles := by
  unfold fault? at passes
  simp only [Option.or_eq_none_iff, List.findSome?_eq_none_iff] at passes
  obtain ⟨⟨⟨levels, classes⟩, states⟩, -⟩ := passes
  have apart : ∀ {first second : ObjectId}, (first, second) ∈ pairs element.allStyles →
      Conflicts graph first second → element.mayCoexist first second = false := by
    intro first second isPair conflict
    by_contra together
    have listed : (first, second) ∈ element.coexistingPairs := by
      refine List.mem_filter.mpr ⟨isPair, ?_⟩
      simpa [conflict.2.1] using together
    exact not_conflicts_of_rules (levels _ listed) (classes _ listed) (states _ listed) conflict
  have exclusive : element.mayCoexist left right = false := by
    rcases mem_pairs_or_mem_pairs isLeft isRight conflict.1 with isPair | isPair
    · exact apart isPair conflict
    · rw [mayCoexist_comm]
      exact apart isPair conflict.symm
  simpa [mayCoexist, conflict.1] using exclusive

end Element

/-! Renderings -/

/-- Whether something may be chosen of a correlation: one of its styles, or none of them if it is
optional. -/
def Correlation.Allows (correlation : Correlation) : Option ObjectId → Prop
  | some style => style ∈ correlation.styles
  | none => correlation.optional = true

namespace Element

/-- Whether these choices, one for each correlation, are a way to render the element. -/
def Renders (element : Element) (choices : List (Option ObjectId)) : Prop :=
  List.Forall₂ Correlation.Allows element.correlations choices

/-- Whether a style applies in a rendering. -/
def Applies (element : Element) (choices : List (Option ObjectId)) (style : ObjectId) : Prop :=
  style ∈ element.statics ∨ some style ∈ choices

/-- Whether no two styles conflict in a rendering. -/
def IsValid (graph : Graph) (element : Element) (choices : List (Option ObjectId)) : Prop :=
  ∀ left right, element.Applies choices left → element.Applies choices right →
    ¬ Conflicts graph left right

/-- Whether a style can apply without the correlation of a number: always, or by another one. -/
def AppliesBeside (element : Element) (index : Nat) (style : ObjectId) : Prop :=
  style ∈ element.statics ∨ ∃ (other : Nat) (correlation : Correlation), other ≠ index ∧
    element.correlations[other]? = some correlation ∧ style ∈ correlation.styles

/-- Whether one of two styles that conflict, and that a correlation keeps apart, can also apply
without that correlation. -/
def RepeatsAlternative (graph : Graph) (element : Element) : Prop :=
  ∃ (index : Nat) (correlation : Correlation) (left right : ObjectId),
    element.correlations[index]? = some correlation ∧ left ∈ correlation.styles ∧
      right ∈ correlation.styles ∧ Conflicts graph left right ∧ element.AppliesBeside index left

variable {element : Element} {choices : List (Option ObjectId)}

theorem Renders.allows (renders : element.Renders choices) {index : Nat} {choice : Option ObjectId}
    (chosen : choices[index]? = some choice) :
    ∃ correlation, element.correlations[index]? = some correlation ∧ correlation.Allows choice := by
  unfold Renders at renders
  generalize element.correlations = correlations at renders
  induction renders generalizing index with
  | nil => simp at chosen
  | @cons correlation _ _ _ allows _ ih =>
    cases index with
    | zero =>
      obtain rfl := Option.some.inj chosen
      exact ⟨correlation, rfl, allows⟩
    | succ index => exact ih (by simpa using chosen)

/-- A choice may be changed to whatever its correlation allows. -/
theorem Renders.set (renders : element.Renders choices) {index : Nat} {correlation : Correlation}
    (found : element.correlations[index]? = some correlation) {choice : Option ObjectId}
    (allows : correlation.Allows choice) :
    element.Renders (choices.set index choice) ∧
      (choices.set index choice)[index]? = some choice := by
  unfold Renders at renders ⊢
  generalize element.correlations = correlations at renders found
  induction renders generalizing index with
  | nil => simp at found
  | @cons first chosen rest others allowed later ih =>
    cases index with
    | zero =>
      obtain rfl : first = correlation := by simpa using found
      exact ⟨.cons allows later, rfl⟩
    | succ index =>
      obtain ⟨kept, isChoice⟩ := ih (by simpa using found)
      exact ⟨.cons allowed kept, by simpa using isChoice⟩

theorem Renders.mem_allStyles (renders : element.Renders choices)
    (applies : element.Applies choices style) : style ∈ element.allStyles := by
  refine Element.mem_allStyles.mpr (applies.imp (fun static => static) fun chosen => ?_)
  obtain ⟨index, isChoice⟩ := List.mem_iff_getElem?.mp chosen
  obtain ⟨correlation, found, allows⟩ := renders.allows isChoice
  exact ⟨correlation, List.mem_of_getElem? found, allows⟩

/-- A style that applies, but is not what a correlation was chosen for, can apply without it. -/
theorem Renders.appliesBeside (renders : element.Renders choices)
    (applies : element.Applies choices style) {index : Nat}
    (other : choices[index]? ≠ some (some style)) : element.AppliesBeside index style := by
  refine applies.imp (fun static => static) fun chosen => ?_
  obtain ⟨place, isChoice⟩ := List.mem_iff_getElem?.mp chosen
  obtain ⟨correlation, found, allows⟩ := renders.allows isChoice
  exact ⟨place, correlation, fun same => other (same ▸ isChoice), found, allows⟩

/-- All renderings of an element that passes its check are valid, unless one of two alternatives
that conflict can also apply otherwise. -/
theorem isValid_of_not_repeatsAlternative (passes : element.fault? graph = none)
    (single : ¬ element.RepeatsAlternative graph) (renders : element.Renders choices) :
    element.IsValid graph choices := by
  intro left right isLeft isRight conflict
  obtain ⟨correlation, member, inside, inside'⟩ := exists_correlation_of_conflicts passes
    (renders.mem_allStyles isLeft) (renders.mem_allStyles isRight) conflict
  obtain ⟨index, found⟩ := List.mem_iff_getElem?.mp member
  apply single
  by_cases chosen : choices[index]? = some (some left)
  · -- the correlation was chosen for the left style, so the right one comes from elsewhere
    have other : choices[index]? ≠ some (some right) := by
      rw [chosen]
      intro same
      exact conflict.1 (Option.some.inj (Option.some.inj same))
    exact ⟨index, correlation, right, left, found, inside', inside, conflict.symm,
      renders.appliesBeside isRight other⟩
  · exact ⟨index, correlation, left, right, found, inside, inside', conflict,
      renders.appliesBeside isLeft chosen⟩

/-- If one of two alternatives that conflict can also apply otherwise, some rendering has both. -/
theorem exists_renders_of_repeatsAlternative (renders : element.Renders choices)
    (repeats : element.RepeatsAlternative graph) :
    ∃ choices, element.Renders choices ∧ ¬ element.IsValid graph choices := by
  obtain ⟨index, correlation, left, right, found, inside, inside', conflict, isBeside⟩ := repeats
  have chooses : correlation.Allows (some right) := inside'
  obtain ⟨renders, chosen⟩ := renders.set found chooses
  rcases isBeside with static | ⟨other, correlation', different, found', member⟩
  · exact ⟨_, renders, fun valid =>
      valid left right (.inl static) (.inr (List.mem_of_getElem? chosen)) conflict⟩
  · have chooses' : correlation'.Allows (some left) := member
    obtain ⟨renders, chosen'⟩ := renders.set found' chooses'
    rw [← List.getElem?_set_ne different] at chosen
    exact ⟨_, renders, fun valid => valid left right (.inr (List.mem_of_getElem? chosen'))
      (.inr (List.mem_of_getElem? chosen)) conflict⟩

end Element

end Template

/-! Calls -/

open Template

/-- What can be asked of an analysis besides looking at it. -/
inductive TemplateCall where
  | addBlock (name : String) (id : BlockId)
  | startElement (span : Span)
  | addStatic (style : BlockObject)
  | addExclusive (alwaysOne : Bool) (styles : List BlockObject)
  | addDynamic (style : BlockObject)
  | endElement

namespace TemplateAnalysis

def perform (analysis : TemplateAnalysis) : TemplateCall →
    TemplateAnalysis × Except TemplateError Unit
  | .addBlock name id => analysis.addBlock name id
  | .startElement span =>
    let (analysis, id) := analysis.startElement span
    (analysis, id.map fun _ => ())
  | .addStatic style => analysis.addStatic style
  | .addExclusive alwaysOne styles => analysis.addExclusive alwaysOne styles
  | .addDynamic style => analysis.addDynamic style
  | .endElement => analysis.endElement

/-- The analysis after calls one after the other, whether they fail or not. -/
def performAll (analysis : TemplateAnalysis) (calls : List TemplateCall) : TemplateAnalysis :=
  calls.foldl (fun analysis call => (analysis.perform call).1) analysis

/-- Whether two analyses are about one graph and have the same elements recorded. -/
structure SameRecord (analysis other : TemplateAnalysis) : Prop where
  graph : other.graph = analysis.graph
  elements : other.elements = analysis.elements

theorem sameRecord_changeElement (analysis : TemplateAnalysis) (change : Element → Element) :
    analysis.SameRecord (analysis.changeElement change).1 := by
  unfold changeElement
  split <;> exact ⟨rfl, rfl⟩

theorem sameRecord_addExclusive (analysis : TemplateAnalysis) (alwaysOne : Bool)
    (styles : List BlockObject) :
      analysis.SameRecord (analysis.addExclusive alwaysOne styles).1 := by
  unfold addExclusive
  split
  · exact ⟨rfl, rfl⟩
  · exact sameRecord_changeElement ..

/-- Closing an element records it if and only if it passes its check. -/
theorem endElement_eq_ok_iff {analysis other : TemplateAnalysis} :
    analysis.endElement = (other, .ok ()) ↔ ∃ element, analysis.current = some element ∧
      element.fault? analysis.graph = none ∧
        { analysis with current := none, elements := analysis.elements ++ [element] } = other := by
  unfold endElement
  cases analysis.current with
  | none => simp
  | some element => cases passes : element.fault? analysis.graph <;> simp [passes]

/-- A call leaves the recorded elements as they are, or records one that passes its check. -/
theorem perform_records (analysis : TemplateAnalysis) (call : TemplateCall) :
    (analysis.perform call).1.graph = analysis.graph ∧
      ((analysis.perform call).1.elements = analysis.elements ∨
        ∃ element, element.fault? analysis.graph = none ∧
          (analysis.perform call).1.elements = analysis.elements ++ [element]) := by
  suffices result : analysis.SameRecord (analysis.perform call).1 ∨
      analysis.endElement = ((analysis.perform call).1, .ok ()) by
    rcases result with same | ended
    · exact ⟨same.graph, .inl same.elements⟩
    · obtain ⟨element, -, passes, same⟩ := endElement_eq_ok_iff.mp ended
      rw [← same]
      exact ⟨rfl, .inr ⟨element, passes, rfl⟩⟩
  cases call with
  | addBlock name id =>
    refine .inl ?_
    change analysis.SameRecord (analysis.addBlock name id).1
    unfold addBlock
    split
    · exact ⟨rfl, rfl⟩
    · split <;> exact ⟨rfl, rfl⟩
  | startElement span =>
    refine .inl ?_
    change analysis.SameRecord (analysis.startElement span).1
    unfold startElement
    split <;> exact ⟨rfl, rfl⟩
  | addStatic style =>
    refine .inl ?_
    change analysis.SameRecord (analysis.addStatic style).1
    unfold addStatic
    split
    · exact ⟨rfl, rfl⟩
    · exact sameRecord_changeElement ..
  | addExclusive alwaysOne styles => exact .inl (sameRecord_addExclusive analysis alwaysOne styles)
  | addDynamic style => exact .inl (sameRecord_addExclusive analysis false [style])
  | endElement =>
    cases outcome : analysis.endElement.2 with
    | ok _ => exact .inr (Prod.ext rfl outcome)
    | error fault =>
      refine .inl ?_
      change analysis.SameRecord analysis.endElement.1
      unfold endElement at outcome ⊢
      cases current : analysis.current with
      | none => exact ⟨rfl, rfl⟩
      | some element =>
        cases passes : element.fault? analysis.graph with
        | some _ =>
          simp only [passes]
          exact ⟨rfl, rfl⟩
        | none => simp [current, passes] at outcome

/-- All recorded elements have passed their check. -/
theorem passes_of_mem_elements {graph : Graph} {template : Template} {calls : List TemplateCall}
    {element : Element} (recorded : element ∈ ((start graph template).performAll calls).elements) :
    element.fault? graph = none := by
  suffices kept : ∀ analysis : TemplateAnalysis,
      (∀ element ∈ analysis.elements, element.fault? analysis.graph = none) →
        (analysis.performAll calls).graph = analysis.graph ∧
          ∀ element ∈ (analysis.performAll calls).elements,
            element.fault? analysis.graph = none from
    (kept (start graph template) (by simp [start])).2 element recorded
  clear recorded
  induction calls with
  | nil => exact fun _ passes => ⟨rfl, passes⟩
  | cons call rest ih =>
    intro analysis passes
    obtain ⟨graph, records⟩ := analysis.perform_records call
    have passesNow : ∀ element ∈ (analysis.perform call).1.elements,
        element.fault? (analysis.perform call).1.graph = none := by
      rw [graph]
      rcases records with same | ⟨next, passesNext, same⟩
      · rwa [same]
      · intro element member
        rw [same] at member
        rcases List.mem_append.mp member with old | new
        · exact passes element old
        · rwa [List.mem_singleton.mp new]
    have later := ih _ passesNow
    rw [graph] at later
    exact later

/-- After any calls, the renderings of a recorded element, if it has any, are all valid if and only
if none of two alternatives that conflict can also apply otherwise. -/
theorem isValid_iff_not_repeatsAlternative {graph : Graph} {template : Template}
    {calls : List TemplateCall} {element : Element}
    (recorded : element ∈ ((start graph template).performAll calls).elements)
    (rendered : ∃ choices, element.Renders choices) :
    (∀ choices, element.Renders choices → element.IsValid graph choices) ↔
      ¬ element.RepeatsAlternative graph := by
  constructor
  · intro valid repeats
    obtain ⟨choices, renders⟩ := rendered
    obtain ⟨choices, renders, invalid⟩ :=
      Element.exists_renders_of_repeatsAlternative renders repeats
    exact invalid (valid choices renders)
  · intro single choices renders
    exact Element.isValid_of_not_repeatsAlternative (passes_of_mem_elements recorded) single renders

end TemplateAnalysis

/-- A block with two classes, one of them with an exclusive group of two states. -/
def barBlock : Block :=
  { Block.bare "bar" "bar.css" "bar.css" with
    named := true
    classes := [⟨"item", [⟨⟨some "size", "small"⟩, ⟨[⟨none, "width"⟩]⟩⟩,
      ⟨⟨some "size", "large"⟩, ⟨[⟨none, "width"⟩]⟩⟩], .empty⟩, ⟨"link", [], ⟨[⟨none, "color"⟩]⟩⟩]
    sheet := ⟨"bar.css", [.rule ⟨0, ".item[state|size=small]", ⟨1, 1, 0⟩⟩
        [.declaration ⟨"width", "1px", false, ⟨1, 27, 26⟩⟩],
      .rule ⟨1, ".item[state|size=large]", ⟨1, 41, 40⟩⟩
        [.declaration ⟨"width", "2px", false, ⟨1, 67, 66⟩⟩],
      .rule ⟨2, ".link", ⟨1, 81, 80⟩⟩ [.declaration ⟨"color", "blue", false, ⟨1, 89, 88⟩⟩]], 3⟩
    selectors := [(0, [.ofCompound ⟨[.className "item", .ofState ⟨some "size", "small"⟩], none⟩]),
      (1, [.ofCompound ⟨[.className "item", .ofState ⟨some "size", "large"⟩], none⟩]),
      (2, [.ofCompound ⟨[.className "link"], none⟩])] }

def barLoading : barBlock.Loading where
  text := ".item[state|size=small] \x7b width: 1px; \x7d " ++
    ".item[state|size=large] \x7b width: 2px; \x7d .link \x7b color: blue; \x7d"
  debugIdentifier := "bar.css"
  defaultName := "bar"
  identifier := "bar.css"
  sheet := barBlock.sheet
  draft := ⟨{ barBlock with named := false, classes := [] }, []⟩
  graph := ⟨#[none]⟩
  defaults := id
  links := []
  body := { barBlock with named := false }
  dependencies := []
  name := "bar"
  read := by with_unfolding_all rfl
  drafted := by with_unfolding_all rfl
  completed := by with_unfolding_all rfl
  named := by with_unfolding_all rfl

def barGraph : Graph := ⟨#[some barBlock]⟩

def barItem : BlockObject := ⟨⟨⟨0⟩, .ofClass 0⟩, barBlock⟩

def barLink : BlockObject := ⟨⟨⟨0⟩, .ofClass 1⟩, barBlock⟩

/-- The state of the item with a number. -/
def barSize (index : Nat) : BlockObject := ⟨⟨⟨0⟩, .ofState (some 0) index⟩, barBlock⟩

/-- The calls for an element that is an item and has at most one of some styles. -/
def barCalls (styles : List BlockObject) : List TemplateCall :=
  [.addBlock "bar" ⟨0⟩, .startElement ⟨⟨1, 1⟩, none⟩, .addStatic barItem,
    .addExclusive false styles, .endElement]

/-- The element that these calls are for. -/
def barElement (styles : List BlockObject) : Element :=
  ⟨0, ⟨⟨1, 1⟩, none⟩, [barItem.id], [⟨styles.map BlockObject.id, true⟩]⟩

namespace TemplateAnalysis

/-- An item with at most one of its sizes is valid however it is rendered. -/
theorem barSizes_isValid :
    let element := barElement [barSize 0, barSize 1]
    element ∈ ((start barGraph ⟨"page", "index"⟩).performAll
        (barCalls [barSize 0, barSize 1])).elements ∧
      ∀ choices, element.Renders choices → element.IsValid barGraph choices := by
  intro element
  have recorded : element ∈ ((start barGraph ⟨"page", "index"⟩).performAll
      (barCalls [barSize 0, barSize 1])).elements := by decide
  have allowed : Correlation.Allows ⟨[(barSize 0).id, (barSize 1).id], true⟩ none := rfl
  refine ⟨recorded, (isValid_iff_not_repeatsAlternative recorded
    ⟨[none], .cons allowed .nil⟩).mpr ?_⟩
  rintro ⟨index, correlation, left, right, found, inside, -, -, isBeside⟩
  obtain ⟨rfl, rfl⟩ : index = 0 ∧ correlation = ⟨[(barSize 0).id, (barSize 1).id], true⟩ := by
    cases index with
    | zero => exact ⟨rfl, (Option.some.inj found).symm⟩
    | succ index => cases found
  rcases isBeside with static | ⟨other, correlation, different, found, -⟩
  · obtain rfl : left = barItem.id := List.mem_singleton.mp static
    exact absurd inside (by decide)
  · cases other with
    | zero => exact different rfl
    | succ other => cases found

/-- An item that is at most one of an item and a link is recorded, and yet it can be both. -/
theorem barLink_not_isValid :
    let element := barElement [barItem, barLink]
    barBlock.IsLoaded ∧ barGraph.block? ⟨0⟩ = some barBlock ∧
      element ∈ ((start barGraph ⟨"page", "index"⟩).performAll
        (barCalls [barItem, barLink])).elements ∧
      element.Renders [some barLink.id] ∧ ¬ element.IsValid barGraph [some barLink.id] := by
  have chosen : Correlation.Allows ⟨[barItem.id, barLink.id], true⟩ (some barLink.id) :=
    List.mem_cons_of_mem _ (List.mem_singleton_self _)
  refine ⟨(barBlock.isLoaded_iff_loading).mpr ⟨barLoading⟩, rfl, by decide, .cons chosen .nil,
    fun valid => ?_⟩
  refine valid barItem.id barLink.id (.inl (List.mem_singleton_self _))
    (.inr (List.mem_singleton_self _)) ⟨by decide, rfl, .inr (.inl ⟨0, 1, rfl, rfl, by decide⟩)⟩

end TemplateAnalysis

end StyleBlock
