import StyleBlock.Css.Cursor
import StyleBlock.Sheet.Basic
import StyleBlock.Text.Blank

/-!
Values that ask for a conflict to be settled: `resolve("reference")`, which looks along the whole
base chain of the object, and `resolve-inherited("reference")`, which looks at the object alone.
-/

namespace StyleBlock

structure Resolution where
  reference : String
  inherited : Bool
deriving DecidableEq, Repr

/-- Whether a function asks for a resolution, and whether for an inherited one. -/
def Resolution.kind? (function : String) : Option Bool :=
  if Text.sameIgnoringCase function "resolve" then some false
  else if Text.sameIgnoringCase function "resolve-inherited" then some true
  else none

/-- Reads a value that is one such function with one string. -/
def Resolution.parse? (value : String) : Option Resolution := do
  let (some (.function name), afterName) := (Css.Cursor.ofText value).nextSolid | none
  let inherited ← kind? name
  let (inside, after) := afterName.block .round
  let (some (.quoted reference), afterReference) := inside.nextSolid | none
  if afterReference.isExhausted && after.isExhausted then some ⟨reference, inherited⟩ else none

/-- Whether a declaration asks for a resolution. -/
def Declaration.isResolution (declaration : Declaration) : Bool :=
  (Resolution.parse? declaration.value).isSome

end StyleBlock
