import Mathlib
import StyleBlock.Load.Waits

/-!
The entries of the waits as the edges of a graph. The search for a way back misses none, so adding
an entry only after a search that found nothing keeps the graph without cycles.
-/

namespace StyleBlock.Waits

theorem mem_targets {waits : Waits} {source target : FileId} :
    target ∈ waits.targets source ↔ (source, target) ∈ waits.entries := by
  simp [targets]

/-- Whether one entry says that the load of a file waits for another. -/
def Entered (waits : Waits) (source target : FileId) : Prop := target ∈ waits.targets source

/-- Whether the load of a file waits for another, itself or through others. -/
def Leads (waits : Waits) : FileId → FileId → Prop := Relation.ReflTransGen waits.Entered

/-- No load waits for itself. -/
def IsAcyclic (waits : Waits) : Prop := ∀ file, ¬ Relation.TransGen waits.Entered file file

/-! The search -/

/-- A way to the target that enters none of the files seen before. -/
def LeadsOutside (waits : Waits) (seen : List FileId) (source target : FileId) : Prop :=
  source ∉ seen ∧
    Relation.ReflTransGen
      (fun first second => waits.Entered first second ∧ second ∉ seen) source target

/-- The last time a way passes a file, it goes on to one of the file's targets. -/
theorem LeadsOutside.pass {waits : Waits} {seen : List FileId} {source target current : FileId}
    (way : waits.LeadsOutside seen source target) (other : current ≠ target) :
    waits.LeadsOutside (current :: seen) source target ∨
      ∃ next ∈ waits.targets current, waits.LeadsOutside (current :: seen) next target := by
  obtain ⟨outside, way⟩ := way
  induction way using Relation.ReflTransGen.head_induction_on with
  | refl => exact .inl ⟨by simp [outside, other.symm], .refl⟩
  | @head first second step _ ih =>
    rcases ih step.2 with later | later
    · by_cases same : first = current
      · subst same
        exact .inr ⟨second, step.1, later⟩
      · refine .inl ⟨by simp [same, outside], .head ⟨step.1, later.1⟩ later.2⟩
    · exact .inr later

theorem search_of_leadsOutside {waits : Waits} {target : FileId} (stack seen : List FileId)
    (way : ∃ source ∈ stack, waits.LeadsOutside seen source target) :
    waits.search target stack seen = true := by
  induction stack, seen using search.induct waits target with
  | case1 => simp at way
  | case2 seen rest => simp [search]
  | case3 seen current rest other present ih =>
    rw [search, if_neg other, if_pos present]
    apply ih
    obtain ⟨source, member, way⟩ := way
    rcases List.mem_cons.mp member with same | member
    · exact absurd present (same ▸ way.1)
    · exact ⟨source, member, way⟩
  | case4 seen current rest other fresh ih =>
    rw [search, if_neg other, if_neg fresh]
    apply ih
    obtain ⟨source, member, way⟩ := way
    rcases way.pass other with later | ⟨next, isTarget, later⟩
    · rcases List.mem_cons.mp member with same | member
      · exact absurd List.mem_cons_self (same ▸ later.1)
      · exact ⟨source, List.mem_append_right _ member, later⟩
    · exact ⟨next, List.mem_append_left _ isTarget, later⟩

/-- The search finds every way. -/
theorem reaches_of_leads {waits : Waits} {source target : FileId}
    (way : waits.Leads source target) : waits.reaches source target = true := by
  apply search_of_leadsOutside
  refine ⟨source, List.mem_singleton_self source, by simp, ?_⟩
  exact Relation.ReflTransGen.mono (fun _ _ entered => ⟨entered, by simp⟩) _ _ way

/-! Adding and removing entries -/

theorem targets_add (waits : Waits) (source target file : FileId) :
    (waits.add source target).targets file =
      waits.targets file ++ if source = file then [target] else [] := by
  by_cases same : source = file <;> simp [targets, add, same]

theorem targets_remove_of_ne {waits : Waits} {source target file : FileId} (other : file ≠ source) :
    (waits.remove source target).targets file = waits.targets file := by
  unfold targets remove
  congr 1
  induction waits.entries with
  | nil => rfl
  | cons entry rest ih =>
    rw [List.erase_cons]
    split
    · rename_i same
      obtain rfl : entry = (source, target) := by simpa using same
      simp [other.symm]
    · simp only [List.filter_cons, ih]

theorem count_targets (waits : Waits) (source target : FileId) :
    (waits.targets source).count target = waits.entries.count (source, target) := by
  unfold targets
  induction waits.entries with
  | nil => rfl
  | cons entry rest ih =>
    obtain ⟨first, second⟩ := entry
    by_cases same : first = source
    · by_cases sameTarget : second = target <;> simp [same, sameTarget, ih]
    · simp [same, ih]

theorem count_targets_remove (waits : Waits) (source target file : FileId) :
    ((waits.remove source target).targets source).count file =
      (waits.targets source).count file - if target = file then 1 else 0 := by
  rw [count_targets, count_targets, remove, List.count_erase]
  by_cases same : target = file <;> simp [same]

theorem Entered.of_remove {waits : Waits} {source target first second : FileId}
    (entered : (waits.remove source target).Entered first second) : waits.Entered first second := by
  rw [Entered, mem_targets] at entered ⊢
  exact List.mem_of_mem_erase entered

theorem IsAcyclic.remove {waits : Waits} (acyclic : waits.IsAcyclic) (source target : FileId) :
    (waits.remove source target).IsAcyclic := by
  intro file way
  exact acyclic file (Relation.TransGen.mono (fun _ _ entered => entered.of_remove) _ _ way)

theorem Entered.of_add {waits : Waits} {source target first second : FileId}
    (entered : (waits.add source target).Entered first second) :
    waits.Entered first second ∨ (first = source ∧ second = target) := by
  rw [Entered, targets_add, List.mem_append] at entered
  rcases entered with old | new
  · exact .inl old
  · split at new
    · rename_i same
      exact .inr ⟨same.symm, List.mem_singleton.mp new⟩
    · simp at new

/-- A way over a new entry comes to its source and goes on from its target. -/
theorem leads_of_add {waits : Waits} {source target first second : FileId}
    (way : Relation.TransGen (waits.add source target).Entered first second) :
    Relation.TransGen waits.Entered first second ∨
      (waits.Leads first source ∧ waits.Leads target second) := by
  induction way with
  | single entered =>
    rcases entered.of_add with old | ⟨rfl, rfl⟩
    · exact .inl (.single old)
    · exact .inr ⟨.refl, .refl⟩
  | tail _ entered ih =>
    rcases entered.of_add with old | ⟨rfl, rfl⟩
    · rcases ih with way | ⟨before, after⟩
      · exact .inl (way.tail old)
      · exact .inr ⟨before, after.tail old⟩
    · rcases ih with way | ⟨before, _⟩
      · exact .inr ⟨way.to_reflTransGen, .refl⟩
      · exact .inr ⟨before, .refl⟩

/-- A new entry makes no cycle if no way led back before. -/
theorem IsAcyclic.add {waits : Waits} {source target : FileId} (acyclic : waits.IsAcyclic)
    (noWay : ¬ waits.Leads target source) : (waits.add source target).IsAcyclic := by
  intro file way
  rcases leads_of_add way with old | ⟨before, after⟩
  · exact acyclic file old
  · exact noWay (after.trans before)

theorem isAcyclic_empty : empty.IsAcyclic := by
  intro file way
  obtain ⟨next, entered, _⟩ := Relation.TransGen.head'_iff.mp way
  simp [Entered, targets, empty] at entered

end StyleBlock.Waits
