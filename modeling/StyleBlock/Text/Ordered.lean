/-!
Ordered lists without repetitions, for sets and tables whose order is shown.
-/

namespace StyleBlock.Text

/-- Puts an element before the first greater one, unless it is in the list already. -/
def insertOrdered (less : α → α → Bool) [DecidableEq α] (element : α) : List α → List α
  | [] => [element]
  | first :: rest =>
    if element = first then first :: rest
    else if less element first then element :: first :: rest
    else first :: insertOrdered less element rest

/-- Texts are ordered by their code points. -/
def lessText (left right : String) : Bool := left < right

/-- No text comes before every text. -/
def lessText? : Option String → Option String → Bool
  | none, none => false
  | none, some _ => true
  | some _, none => false
  | some left, some right => lessText left right

/-- A list in order and without repetitions. -/
def orderedTexts (texts : List String) : List String :=
  texts.foldl (fun ordered text => insertOrdered lessText text ordered) []

/-- Sets the value of a key in a table that is ordered by its keys. -/
def setOrdered (key : String) (value : α) : List (String × α) → List (String × α)
  | [] => [(key, value)]
  | first :: rest =>
    if key = first.1 then (key, value) :: rest
    else if lessText key first.1 then (key, value) :: first :: rest
    else first :: setOrdered key value rest

@[simp] theorem mem_insertOrdered [DecidableEq α] {less : α → α → Bool} {element other : α}
    {elements : List α} :
    other ∈ insertOrdered less element elements ↔ other = element ∨ other ∈ elements := by
  induction elements with
  | nil => simp [insertOrdered]
  | cons first rest ih =>
    unfold insertOrdered
    by_cases same : element = first
    · simp [same]
    · by_cases before : less element first
      · simp [same, before]
      · simp [same, before, ih]
        grind

end StyleBlock.Text
