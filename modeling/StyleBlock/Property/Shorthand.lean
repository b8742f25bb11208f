import StyleBlock.Text.Ordered

/-!
Shorthand properties. A property sets itself, what its shorthand lists, and what those set in
turn; two properties conflict when they set a property in common.
-/

namespace StyleBlock

/-- Shorthand properties with the properties they list. -/
def shorthands : List (String × List String) := [
  ("margin", ["margin-top", "margin-right", "margin-bottom", "margin-left"]),
  ("padding", ["padding-top", "padding-right", "padding-bottom", "padding-left"]),
  ("border", ["border-width", "border-style", "border-color", "border-top", "border-right",
    "border-bottom", "border-left"]),
  ("border-width", ["border-top-width", "border-right-width", "border-bottom-width",
    "border-left-width"]),
  ("border-style", ["border-top-style", "border-right-style", "border-bottom-style",
    "border-left-style"]),
  ("border-color", ["border-top-color", "border-right-color", "border-bottom-color",
    "border-left-color"]),
  ("border-top", ["border-top-width", "border-top-style", "border-top-color"]),
  ("border-right", ["border-right-width", "border-right-style", "border-right-color"]),
  ("border-bottom", ["border-bottom-width", "border-bottom-style", "border-bottom-color"]),
  ("border-left", ["border-left-width", "border-left-style", "border-left-color"]),
  ("border-radius", ["border-top-left-radius", "border-top-right-radius",
    "border-bottom-right-radius", "border-bottom-left-radius"]),
  ("background", ["background-color", "background-image", "background-repeat",
    "background-attachment", "background-position", "background-size", "background-origin",
    "background-clip"]),
  ("font", ["font-style", "font-variant", "font-weight", "font-stretch", "font-size",
    "line-height", "font-family"]),
  ("flex", ["flex-grow", "flex-shrink", "flex-basis"]),
  ("flex-flow", ["flex-direction", "flex-wrap"]),
  ("list-style", ["list-style-type", "list-style-position", "list-style-image"]),
  ("outline", ["outline-width", "outline-style", "outline-color"]),
  ("overflow", ["overflow-x", "overflow-y"]),
  ("text-decoration", ["text-decoration-line", "text-decoration-style", "text-decoration-color"]),
  ("transition", ["transition-property", "transition-duration", "transition-timing-function",
    "transition-delay"]),
  ("animation", ["animation-name", "animation-duration", "animation-timing-function",
    "animation-delay", "animation-iteration-count", "animation-direction", "animation-fill-mode",
    "animation-play-state"]),
  ("columns", ["column-width", "column-count"]),
  ("gap", ["row-gap", "column-gap"]),
  ("place-items", ["align-items", "justify-items"]),
  ("place-content", ["align-content", "justify-content"]),
  ("inset", ["top", "right", "bottom", "left"])]

/-- The properties that a shorthand lists. -/
def longhands? (property : String) : Option (List String) :=
  (shorthands.find? fun (name, _) => name == property).map Prod.snd

/-- The shorthands that are not among the properties. -/
def shorthandsOutside (expanded : List String) : List (String × List String) :=
  shorthands.filter fun (name, _) => !expanded.contains name

theorem shorthandsOutside_le {expanded : List String} {property : String} :
    (shorthandsOutside (Text.insertOrdered Text.lessText property expanded)).length ≤
      (shorthandsOutside expanded).length := by
  unfold shorthandsOutside
  rw [← List.countP_eq_length_filter, ← List.countP_eq_length_filter]
  apply List.countP_mono_left
  intro entry _ outside
  simp only [Bool.not_eq_true', List.contains_eq_mem, decide_eq_false_iff_not,
    Text.mem_insertOrdered, not_or] at outside ⊢
  exact outside.2

/-- A shorthand that is expanded is no longer outside. -/
theorem shorthandsOutside_lt {expanded : List String} {property : String}
    (shorthand : (longhands? property).isSome) (outside : property ∉ expanded) :
    (shorthandsOutside (Text.insertOrdered Text.lessText property expanded)).length <
      (shorthandsOutside expanded).length := by
  have found : ∃ entry ∈ shorthands, entry.1 = property := by
    unfold longhands? at shorthand
    rw [Option.isSome_map, List.find?_isSome] at shorthand
    obtain ⟨entry, inside, same⟩ := shorthand
    exact ⟨entry, inside, by simpa using same⟩
  obtain ⟨entry, inside, same⟩ := found
  obtain ⟨before, after, split⟩ := List.append_of_mem inside
  have count (keep : String × List String → Bool) :
      (shorthands.filter keep).length =
        (before.filter keep).length + (if keep entry then 1 else 0) +
          (after.filter keep).length := by
    rw [split]
    by_cases kept : keep entry
    · simp [kept]
      omega
    · simp [kept]
  have fewer (entries : List (String × List String)) :
      (entries.filter fun (name, _) =>
        !(Text.insertOrdered Text.lessText property expanded).contains name).length ≤
      (entries.filter fun (name, _) => !expanded.contains name).length := by
    rw [← List.countP_eq_length_filter, ← List.countP_eq_length_filter]
    apply List.countP_mono_left
    intro other _ kept
    simp only [Bool.not_eq_true', List.contains_eq_mem, decide_eq_false_iff_not,
      Text.mem_insertOrdered, not_or] at kept ⊢
    exact kept.2
  unfold shorthandsOutside
  rw [count, count]
  have first := fewer before
  have last := fewer after
  simp only [same, List.contains_eq_mem, Text.mem_insertOrdered, true_or, decide_true,
    Bool.not_true, outside, decide_false, Bool.not_false, if_true] at *
  simp only [Bool.false_eq_true, if_false]
  omega

/-- Adds the pending properties and all that they set to the expanded ones. -/
def expandPending (pending expanded : List String) : List String :=
  match pending with
  | [] => expanded
  | property :: rest =>
    if property ∈ expanded then expandPending rest expanded
    else
      match _ : longhands? property with
      | none => expandPending rest (Text.insertOrdered Text.lessText property expanded)
      | some longhands =>
        expandPending (longhands ++ rest) (Text.insertOrdered Text.lessText property expanded)
termination_by ((shorthandsOutside expanded).length, pending.length)
decreasing_by
  · exact Prod.Lex.right _ (Nat.lt_succ_self _)
  · rcases Nat.lt_or_eq_of_le (@shorthandsOutside_le expanded property)
      with fewer | same
    · exact Prod.Lex.left _ _ fewer
    · rw [same]
      exact Prod.Lex.right _ (Nat.lt_succ_self _)
  · exact Prod.Lex.left _ _ (shorthandsOutside_lt (by simp [‹longhands? property = some _›]) ‹_›)

/-- A property with everything it sets, in order. -/
def expandProperty (property : String) : List String :=
  expandPending [property] []

/-- Whether setting one property can change the value of the other. -/
def propertiesConflict (left right : String) : Bool :=
  left = right || (expandProperty left).any fun property => (expandProperty right).contains property

end StyleBlock
