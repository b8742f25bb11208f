import StyleBlock.Text.Ordered

/-!
Numbers for blocks that declare one name: the first keeps it, later ones have their number added.
-/

namespace StyleBlock

/-- How many blocks have claimed each declared name. -/
structure NameCounts where
  counts : List (String × Nat)
deriving DecidableEq, Repr

namespace NameCounts

def empty : NameCounts := ⟨[]⟩

def count (names : NameCounts) (declared : String) : Nat :=
  ((names.counts.find? fun (name, _) => name == declared).map Prod.snd).getD 0

/-- The name of the block that is the given one to claim a declared name. -/
def numbered (declared : String) (number : Nat) : String :=
  if number = 1 then declared else declared ++ "-" ++ toString number

/-- Claims a declared name and gives out the numbered one. -/
def claim (names : NameCounts) (declared : String) : NameCounts × String :=
  let number := names.count declared + 1
  (⟨Text.setOrdered declared number names.counts⟩, numbered declared number)

/-- Takes the last claim of a name back. -/
def release (names : NameCounts) (declared : String) : NameCounts :=
  match names.count declared with
  | 0 => names
  | 1 => ⟨names.counts.filter fun (name, _) => name ≠ declared⟩
  | number + 2 => ⟨Text.setOrdered declared (number + 1) names.counts⟩

end NameCounts

end StyleBlock
