import StyleBlock.Css.Cursor
import StyleBlock.Text.Blank

/-!
The statement that refers to another block: a path, with or without a local name in front of it.
-/

namespace StyleBlock

/-- A reference to a block. Without a local name the name of the block itself is used. -/
structure BlockReference where
  localName : Option String
  path : String
deriving DecidableEq, Repr

/-- Reads `name from "path"` or `"path"`. -/
def BlockReference.parse? (params : String) : Option BlockReference :=
  let (first, afterFirst) := (Css.Cursor.ofText params).nextSolid
  match first with
  | some (.quoted path) => if afterFirst.isExhausted then some ⟨none, path⟩ else none
  | some (.ident name) =>
    let (second, afterSecond) := afterFirst.nextSolid
    let (third, afterThird) := afterSecond.nextSolid
    match second, third with
    | some (.ident word), some (.quoted path) =>
      if Text.sameIgnoringCase word "from" && afterThird.isExhausted then some ⟨some name, path⟩
      else none
    | _, _ => none
  | _ => none

end StyleBlock
