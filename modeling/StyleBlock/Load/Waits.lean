import StyleBlock.Block.Basic

/-!
Which loads wait for which. An entry is made when a load starts to wait and taken out when its
wait is over, so one pair may be there more than once. Before a load waits, the entries are
searched: a wait that would lead back to its own beginning is never made.
-/

namespace StyleBlock

/-- Pairs of a file and one that its load waits for. -/
structure Waits where
  entries : List (FileId × FileId)
deriving DecidableEq, Repr

namespace Waits

def empty : Waits := ⟨[]⟩

/-- The files that the load of a file waits for. -/
def targets (waits : Waits) (id : FileId) : List FileId :=
  (waits.entries.filter fun (source, _) => source = id).map Prod.snd

def add (waits : Waits) (source target : FileId) : Waits :=
  ⟨waits.entries ++ [(source, target)]⟩

/-- Takes one entry out. -/
def remove (waits : Waits) (source target : FileId) : Waits :=
  ⟨waits.entries.erase (source, target)⟩

/-- The entries whose source has not been looked at. -/
def entriesOutside (waits : Waits) (seen : List FileId) : List (FileId × FileId) :=
  waits.entries.filter fun (source, _) => !seen.contains source

theorem length_entriesOutside_cons {waits : Waits} {seen : List FileId} {id : FileId}
    (fresh : id ∉ seen) :
    (waits.entriesOutside (id :: seen)).length + (waits.targets id).length =
      (waits.entriesOutside seen).length := by
  unfold entriesOutside targets
  rw [List.length_map]
  induction waits.entries with
  | nil => rfl
  | cons entry rest ih =>
    obtain ⟨source, target⟩ := entry
    by_cases same : source = id
    · subst same
      simp [fresh] at ih ⊢
      omega
    · by_cases seenBefore : source ∈ seen <;> simp [same, seenBefore] at ih ⊢ <;> omega

/-- Whether the target is on the stack or can be reached from it without the files seen before. -/
def search (waits : Waits) (target : FileId) (stack seen : List FileId) : Bool :=
  match stack with
  | [] => false
  | current :: rest =>
    if current = target then true
    else if current ∈ seen then waits.search target rest seen
    else waits.search target (waits.targets current ++ rest) (current :: seen)
termination_by (waits.entriesOutside seen).length + stack.length
decreasing_by
  · simp only [List.length_cons]
    omega
  · have shrink := @length_entriesOutside_cons waits seen current ‹current ∉ seen›
    simp only [List.length_append, List.length_cons]
    omega

/-- Whether the load of a file waits for another one, itself or through others. -/
def reaches (waits : Waits) (source target : FileId) : Bool :=
  waits.search target [source] []

end Waits

end StyleBlock
