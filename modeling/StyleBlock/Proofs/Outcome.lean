import Mathlib

/-!
Computations that can fail. A computation that gives a result gave one in each of its steps, so
what every step keeps holds of the result.
-/

namespace StyleBlock

variable {ε α β : Type}

theorem bind_eq_ok_iff {first : Except ε α} {next : α → Except ε β} {result : β} :
    first >>= next = .ok result ↔ ∃ value, first = .ok value ∧ next value = .ok result := by
  cases first with
  | error error => exact ⟨nofun, fun ⟨_, same, _⟩ => nomatch same⟩
  | ok value =>
    constructor
    · intro same
      exact ⟨value, rfl, same⟩
    · rintro ⟨_, ⟨⟩, same⟩
      exact same

theorem map_eq_ok_iff {first : Except ε α} {change : α → β} {result : β} :
    first.map change = .ok result ↔ ∃ value, first = .ok value ∧ change value = result := by
  cases first with
  | error error => exact ⟨nofun, fun ⟨_, same, _⟩ => nomatch same⟩
  | ok value => simp [Except.map]

theorem mapError_eq_ok_iff {φ : Type} {first : Except ε α} {change : ε → φ} {value : α} :
    first.mapError change = .ok value ↔ first = .ok value := by
  cases first <;> simp [Except.mapError]

/-- What every step keeps holds at the end of a fold. -/
theorem foldlM_keeps {step : β → α → Except ε β} (Keeps : β → Prop) {items : List α}
    (keep : ∀ {state item after}, item ∈ items → Keeps state → step state item = .ok after →
      Keeps after)
    {state after : β} (start : Keeps state) (folded : items.foldlM step state = .ok after) :
    Keeps after := by
  induction items generalizing state with
  | nil =>
    cases folded
    exact start
  | cons item rest ih =>
    rw [List.foldlM_cons] at folded
    obtain ⟨next, stepped, folded⟩ := bind_eq_ok_iff.mp folded
    exact ih (fun member => keep (List.mem_cons_of_mem item member))
      (keep (List.mem_cons_self ..) start stepped) folded

/-- What a fold adds up: when each step keeps what the next one needs and adds what its item brings,
the end has what the start had and what the items bring. -/
theorem foldlM_adds {step : β → α → Except ε β} (Keeps Has : β → Prop) (Brings : α → Prop)
    (adds : ∀ {state item after}, Keeps state → step state item = .ok after →
      Keeps after ∧ (Has after ↔ Has state ∨ Brings item))
    {items : List α} {state after : β} (start : Keeps state)
    (folded : items.foldlM step state = .ok after) :
    Has after ↔ Has state ∨ ∃ item ∈ items, Brings item := by
  induction items generalizing state with
  | nil =>
    cases folded
    simp
  | cons item rest ih =>
    rw [List.foldlM_cons] at folded
    obtain ⟨next, stepped, folded⟩ := bind_eq_ok_iff.mp folded
    obtain ⟨kept, here⟩ := adds start stepped
    rw [ih kept folded, here, List.exists_mem_cons_iff, or_assoc]

/-- A check of all items passes when it passes at each. -/
theorem forM_eq_ok_iff {check : α → Except ε Unit} {items : List α} :
    items.forM check = .ok () ↔ ∀ item ∈ items, check item = .ok () := by
  induction items with
  | nil => exact ⟨fun _ => nofun, fun _ => rfl⟩
  | cons first rest ih =>
    change (check first >>= fun _ => rest.forM check) = .ok () ↔ _
    rw [bind_eq_ok_iff, List.forall_mem_cons, ← ih]
    exact ⟨fun ⟨_, one, later⟩ => ⟨one, later⟩, fun ⟨one, later⟩ => ⟨(), one, later⟩⟩

/-- A check of all items that fails fails at one of them, after passing at those before it. -/
theorem exists_of_forM_error {check : α → Except ε Unit} {items : List α} {error : ε}
    (failed : items.forM check = .error error) : ∃ before item after,
      items = before ++ item :: after ∧ (∀ earlier ∈ before, check earlier = .ok ()) ∧
        check item = .error error := by
  induction items with
  | nil => cases failed
  | cons first rest ih =>
    change (check first >>= fun _ => rest.forM check) = .error error at failed
    cases checked : check first with
    | error other =>
      rw [checked] at failed
      cases failed
      exact ⟨[], first, rest, rfl, nofun, checked⟩
    | ok _ =>
      rw [checked] at failed
      obtain ⟨before, item, after, rfl, passed, found⟩ := ih failed
      exact ⟨first :: before, item, after, rfl, List.forall_mem_cons.mpr ⟨checked, passed⟩, found⟩

/-- The results of a function that gives what another one gives whenever it gives anything. -/
theorem mapM_eq_ok {compute : α → Except ε β} (value : α → β) {items : List α} {results : List β}
    (computed : ∀ {item result}, compute item = .ok result → result = value item)
    (mapped : items.mapM compute = .ok results) :
    results = items.map value ∧ ∀ item ∈ items, compute item = .ok (value item) := by
  induction items generalizing results with
  | nil =>
    cases mapped
    exact ⟨rfl, nofun⟩
  | cons item rest ih =>
    rw [List.mapM_cons] at mapped
    obtain ⟨first, one, mapped⟩ := bind_eq_ok_iff.mp mapped
    obtain ⟨others, later, mapped⟩ := bind_eq_ok_iff.mp mapped
    cases mapped
    obtain ⟨rfl, all⟩ := ih later
    obtain rfl := computed one
    refine ⟨rfl, ?_⟩
    intro other member
    rcases List.mem_cons.mp member with rfl | member
    · exact one
    · exact all other member

/-- Whether a computation gives a result of one kind or fails with an error of another one. -/
def Ends (good : α → Prop) (bad : ε → Prop) : Except ε α → Prop
  | .ok result => good result
  | .error error => bad error

namespace Ends

variable {good other : α → Prop} {bad worse : ε → Prop} {computation : Except ε α}

theorem bind {after : β → Prop} {next : α → Except ε β} (first : Ends good bad computation)
    (later : ∀ result, good result → Ends after bad (next result)) :
    Ends after bad (computation >>= next) := by
  cases computation with
  | error error => exact first
  | ok result => exact later result first

theorem imp (ends : Ends good bad computation) (better : ∀ result, good result → other result)
    (fails : ∀ error, bad error → worse error) : Ends other worse computation := by
  cases computation with
  | error error => exact fails error ends
  | ok result => exact better result ends

theorem map {good : β → Prop} {change : α → β}
    (ends : Ends (fun result => good (change result)) bad computation) :
    Ends good bad (computation.map change) := by
  cases computation <;> exact ends

/-- What is known of a result whichever way it came about. -/
theorem keeping (ends : Ends (fun _ => True) bad computation)
    (keeps : ∀ {result}, computation = .ok result → good result) : Ends good bad computation := by
  cases computation with
  | error error => exact ends
  | ok result => exact keeps rfl

theorem of_ok {result : α} (ends : Ends good bad computation) (same : computation = .ok result) :
    good result := by
  rw [same] at ends
  exact ends

theorem of_error {error : ε} (ends : Ends good bad computation)
    (same : computation = .error error) : bad error := by
  rw [same] at ends
  exact ends

/-- A fold accounts for all items when each step accounts for one more. -/
theorem foldlM {step : β → α → Except ε β} (known : List α → β → Prop) {state : β}
    (start : known [] state) {items : List α}
    (next : ∀ done item later, items = done ++ item :: later → ∀ state, known done state →
      Ends (known (done ++ [item])) bad (step state item)) :
    Ends (known items) bad (items.foldlM step state) := by
  suffices ∀ later done, items = done ++ later → ∀ state, known done state →
      Ends (known items) bad (later.foldlM step state) from this items [] rfl state start
  intro later
  induction later with
  | nil =>
    rintro done rfl state here
    rw [List.append_nil]
    exact here
  | cons item later ih =>
    intro done split state here
    rw [List.foldlM_cons]
    refine (next done item later split state here).bind fun state here => ?_
    exact ih (done ++ [item]) (by rw [split, List.append_assoc]; rfl) state here

/-- A fold in which every step keeps what is known of the state. -/
theorem foldlM_mem {step : β → α → Except ε β} {Keeps : β → Prop} {items : List α} {state : β}
    (start : Keeps state)
    (next : ∀ item ∈ items, ∀ state, Keeps state → Ends Keeps bad (step state item)) :
    Ends Keeps bad (items.foldlM step state) := by
  refine foldlM (fun _ => Keeps) start fun done item later split state here => ?_
  have member : item ∈ items := by
    rw [split]
    exact List.mem_append_right done (List.mem_cons_self ..)
  exact next item member state here

theorem mapM {compute : α → Except ε β} {items : List α}
    (each : ∀ item ∈ items, Ends (fun _ => True) bad (compute item)) :
    Ends (fun _ => True) bad (items.mapM compute) := by
  induction items with
  | nil => trivial
  | cons item rest ih =>
    obtain ⟨first, later⟩ := List.forall_mem_cons.mp each
    rw [List.mapM_cons]
    exact first.bind fun _ _ => (ih later).bind fun _ _ => trivial

end Ends

end StyleBlock
