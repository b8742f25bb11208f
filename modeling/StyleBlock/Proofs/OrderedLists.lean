import Mathlib
import StyleBlock.Text.Ordered

/-!
Ordered lists. Adding an element puts it at its place, so a list that is built this way stays in
order and holds nothing twice; and so do the keys of an ordered table.
-/

namespace StyleBlock.Text

section Order

variable {α : Type}

/-- A strict order in which any two different elements compare. -/
structure IsStrict (less : α → α → Bool) : Prop where
  irrefl : ∀ element, less element element = false
  trans : ∀ {first second third}, less first second = true → less second third = true →
    less first third = true
  connected : ∀ {first second}, first ≠ second → less first second = false →
    less second first = true

/-- Whether each element of a list comes before all later ones. -/
def IsOrdered (less : α → α → Bool) (elements : List α) : Prop :=
  elements.Pairwise fun first second => less first second = true

variable {less : α → α → Bool} {elements : List α}

theorem IsOrdered.nodup (ordered : IsOrdered less elements) (strict : IsStrict less) :
    elements.Nodup :=
  List.Pairwise.imp (fun before same => by simp [same, strict.irrefl] at before) ordered

theorem IsOrdered.insert [DecidableEq α] (ordered : IsOrdered less elements)
    (strict : IsStrict less) (element : α) :
      IsOrdered less (insertOrdered less element elements) := by
  induction elements with
  | nil => exact List.pairwise_singleton _ _
  | cons first rest ih =>
    obtain ⟨firstBefore, restOrdered⟩ := List.pairwise_cons.mp ordered
    unfold insertOrdered
    by_cases same : element = first
    · simpa [same] using ordered
    by_cases before : less element first = true
    · simp only [same, before, if_true, if_false]
      refine List.pairwise_cons.mpr ⟨?_, ordered⟩
      intro other member
      rcases List.mem_cons.mp member with rfl | later
      · exact before
      · exact strict.trans before (firstBefore other later)
    · simp only [same, before, if_false]
      refine List.pairwise_cons.mpr ⟨?_, ih restOrdered⟩
      intro other member
      rcases mem_insertOrdered.mp member with rfl | later
      · exact strict.connected same (by simpa using before)
      · exact firstBefore other later

end Order

/-! Texts -/

theorem lessText_eq_true_iff {left right : String} : lessText left right = true ↔ left < right := by
  simp [lessText]

theorem isStrict_lessText : IsStrict lessText where
  irrefl text := by simp [lessText]
  trans before after := by
    rw [lessText_eq_true_iff] at before after ⊢
    exact before.trans after
  connected different notBefore := by
    rw [lessText_eq_true_iff]
    simp only [lessText, decide_eq_false_iff_not, not_lt] at notBefore
    exact lt_of_le_of_ne notBefore different.symm

theorem isStrict_lessText? : IsStrict lessText? where
  irrefl text := by cases text <;> simp [lessText?, lessText]
  trans {first second third} before after := by
    cases third with
    | none => cases second <;> cases after
    | some third =>
      cases first with
      | none => rfl
      | some first =>
        cases second with
        | none => cases before
        | some second => exact isStrict_lessText.trans before after
  connected {first second} different notBefore := by
    cases first <;> cases second
    · exact absurd rfl different
    · cases notBefore
    · rfl
    · exact isStrict_lessText.connected (fun same => different (congrArg some same)) notBefore

theorem mem_orderedTexts {texts : List String} {text : String} :
    text ∈ orderedTexts texts ↔ text ∈ texts := by
  suffices general : ∀ ordered : List String,
      text ∈ texts.foldl (fun ordered text => insertOrdered lessText text ordered) ordered ↔
        text ∈ ordered ∨ text ∈ texts by
    exact (general []).trans (by simp)
  induction texts with
  | nil => simp
  | cons first rest ih =>
    intro ordered
    rw [List.foldl_cons, ih, mem_insertOrdered, List.mem_cons]
    tauto

theorem isOrdered_orderedTexts (texts : List String) : IsOrdered lessText (orderedTexts texts) :=
  List.foldlRecOn texts _ List.Pairwise.nil fun _ ordered text _ =>
    ordered.insert isStrict_lessText text

/-! Tables -/

/-- Looking a key up in a table of different keys finds the entry of that key. -/
theorem find?_key_eq_some_iff {κ α : Type} [BEq κ] [LawfulBEq κ] {table : List (κ × α)} {key : κ}
    {value : α} (distinct : (table.map Prod.fst).Nodup) :
    (table.find? fun entry => entry.1 == key).map Prod.snd = some value ↔ (key, value) ∈ table := by
  constructor
  · intro found
    obtain ⟨entry, first, rfl⟩ := Option.map_eq_some_iff.mp found
    obtain rfl : entry.1 = key := by simpa using List.find?_some first
    exact List.mem_of_find?_eq_some first
  · intro member
    cases first : table.find? fun entry => entry.1 == key with
    | none => simpa using List.find?_eq_none.mp first _ member
    | some entry =>
      have same : entry.1 = key := by simpa using List.find?_some first
      obtain rfl := List.inj_on_of_nodup_map distinct (List.mem_of_find?_eq_some first) member same
      rfl

section Table

variable {α : Type} {key : String} {value : α} {table : List (String × α)}

theorem map_fst_setOrdered :
    (setOrdered key value table).map Prod.fst =
      insertOrdered lessText key (table.map Prod.fst) := by
  induction table with
  | nil => rfl
  | cons first rest ih =>
    simp only [setOrdered, List.map_cons, insertOrdered]
    split
    · rename_i same
      simp [same]
    · split
      · rfl
      · rw [List.map_cons, ih]

/-- A new key adds its entry to those of the table. -/
theorem setOrdered_perm (absent : key ∉ table.map Prod.fst) :
    (setOrdered key value table).Perm ((key, value) :: table) := by
  induction table with
  | nil => exact .refl _
  | cons first rest ih =>
    obtain ⟨different, later⟩ := not_or.mp (mt List.mem_cons.mpr absent)
    simp only [setOrdered, if_neg different]
    split
    · exact .refl _
    · exact ((ih later).cons first).trans (.swap ..)

theorem mem_of_mem_setOrdered {entry : String × α} (member : entry ∈ setOrdered key value table) :
    entry = (key, value) ∨ entry ∈ table := by
  induction table with
  | nil => exact .inl (List.mem_singleton.mp member)
  | cons first rest ih =>
    unfold setOrdered at member
    split at member
    · exact (List.mem_cons.mp member).imp_right (List.mem_cons_of_mem _)
    · split at member
      · exact List.mem_cons.mp member
      · rcases List.mem_cons.mp member with rfl | later
        · exact .inr (List.mem_cons_self ..)
        · exact (ih later).imp_right (List.mem_cons_of_mem _)

/-- The entries of other keys stay. -/
theorem mem_setOrdered_of_ne {entry : String × α} (member : entry ∈ table) (other : entry.1 ≠ key) :
    entry ∈ setOrdered key value table := by
  induction table with
  | nil => cases member
  | cons first rest ih =>
    unfold setOrdered
    rcases List.mem_cons.mp member with rfl | later
    · rw [if_neg other.symm]
      split
      · exact List.mem_cons_of_mem _ (List.mem_cons_self ..)
      · exact List.mem_cons_self ..
    · split
      · exact List.mem_cons_of_mem _ later
      · split
        · exact List.mem_cons_of_mem _ (List.mem_cons_of_mem _ later)
        · exact List.mem_cons_of_mem _ (ih later)

theorem mem_setOrdered_self : (key, value) ∈ setOrdered key value table := by
  induction table with
  | nil => exact List.mem_singleton_self _
  | cons first rest ih =>
    unfold setOrdered
    split
    · exact List.mem_cons_self ..
    · split
      · exact List.mem_cons_self ..
      · exact List.mem_cons_of_mem _ ih

/-- Setting keys that are all different and new adds one entry for each. -/
theorem foldl_setOrdered_perm {entries : List (String × α)}
    (distinct : ((entries ++ table).map Prod.fst).Nodup) :
    (entries.foldl (fun table entry => setOrdered entry.1 entry.2 table) table).Perm
      (entries ++ table) := by
  induction entries generalizing table with
  | nil => exact .refl _
  | cons first rest ih =>
    have absent : first.1 ∉ (rest ++ table).map Prod.fst := (List.nodup_cons.mp distinct).1
    rw [List.map_append, List.mem_append, not_or] at absent
    have added : (setOrdered first.1 first.2 table).Perm (first :: table) :=
      setOrdered_perm absent.2
    have moved : (rest ++ setOrdered first.1 first.2 table).Perm (first :: (rest ++ table)) :=
      (added.append_left rest).trans List.perm_middle
    exact (ih ((moved.map Prod.fst).nodup_iff.mpr distinct)).trans moved

end Table

end StyleBlock.Text
