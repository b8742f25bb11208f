import StyleBlock.Proofs.Loads

/-!
What the parts of a join do together. A join polls its parts in some order, perhaps several times,
and tells those who wait for it; whatever the polls of the parts keep or move, the polls of the join
do. The same goes for reading a text, which looks up one path after the other.
-/

namespace StyleBlock.Loader

/-! Who is told does not matter -/

theorem quiet_takeTurn (loader : Loader) (join : JoinId) :
    (loader.takeTurn join).1.quiet = loader.quiet := by
  unfold takeTurn
  split
  · rfl
  · exact quiet_setTurns ..

theorem quiet_withdraw (loader : Loader) (join : JoinId) (index : Nat) :
    (loader.withdraw join index).quiet = loader.quiet := by
  unfold withdraw
  split
  · rfl
  · exact quiet_setTurns ..

theorem quiet_attendJoin (loader : Loader) (join : JoinId) (listener : Listener) :
    (loader.attendJoin join listener).quiet = loader.quiet := by
  unfold attendJoin
  split
  · rfl
  · exact quiet_setTurns ..

theorem quiet_openJoin (loader : Loader) (count : Nat) :
    (loader.openJoin count).1.quiet = loader.quiet := by
  unfold openJoin
  split <;> rfl

/-! Joins -/

/-- Whether a relation between states of a loader, each with so much in hand, goes on from step to
step and does not notice who is told of what. -/
structure IsWeighing {α : Type} (Related : Loader → Multiset α → Loader → Multiset α → Prop) :
    Prop where
  quiet : ∀ {loader other : Loader} {weight : Multiset α}, other.quiet = loader.quiet →
    Related loader weight other weight
  trans : ∀ {first second third : Loader} {before between after : Multiset α},
    Related first before second between → Related second between third after →
      Related first before third after

theorem exists_sum_set {α Part : Type} (weight : Part → Multiset α) {states : List Part}
    {index : Nat} {part : Part} (found : states[index]? = some part) :
    ∃ others, (states.map weight).sum = weight part + others ∧
      ∀ next, ((states.set index next).map weight).sum = weight next + others := by
  induction states generalizing index with
  | nil => simp at found
  | cons first states ih =>
    cases index with
    | zero =>
      obtain rfl : first = part := by simpa using found
      exact ⟨(states.map weight).sum, by simp, fun next => by simp⟩
    | succ index =>
      obtain ⟨others, same, changed⟩ := ih (by simpa using found)
      refine ⟨weight first + others, ?_, fun next => ?_⟩
      · rw [List.map_cons, List.sum_cons, same, add_left_comm]
      · rw [List.set_cons_succ, List.map_cons, List.sum_cons, changed, add_left_comm]

namespace IsWeighing

variable {α Part : Type} {Related : Loader → Multiset α → Loader → Multiset α → Prop}
  (weighing : IsWeighing Related) {parts : Parts Part} {weight : Part → Multiset α}
  (polls : ∀ (loader : Loader) (listener : Listener) (part : Part) (rest : Multiset α),
    Related loader (weight part + rest) (parts.poll loader listener part).1
      (weight (parts.poll loader listener part).2 + rest))
  (loader : Loader) (rest : Multiset α)
include weighing polls

theorem pollTogether (listener : Listener) (states : List Part) :
    Related loader ((states.map weight).sum + rest) (parts.pollTogether listener states loader).1
      (((parts.pollTogether listener states loader).2.map weight).sum + rest) := by
  have front : ∀ (part : Part) (states : List Part) (rest : Multiset α),
      ((part :: states).map weight).sum + rest = weight part + ((states.map weight).sum + rest) :=
    fun part states rest => by rw [List.map_cons, List.sum_cons, add_assoc]
  have back : ∀ (part : Part) (states : List Part) (rest : Multiset α),
      ((part :: states).map weight).sum + rest = (states.map weight).sum + (weight part + rest) :=
    fun part states rest => by rw [front, add_left_comm]
  induction states generalizing loader rest with
  | nil => exact weighing.quiet rfl
  | cons part states ih =>
    unfold Parts.pollTogether
    dsimp only
    split
    · rw [back, back]
      exact ih ..
    · have polled := polls loader listener part ((states.map weight).sum + rest)
      split
      · rw [front, front]
        exact polled
      · rw [front, back]
        refine weighing.trans polled ?_
        rw [add_left_comm]
        exact ih ..

theorem pollTurns (join : JoinId) (listener : Listener) (turns patience : Nat)
    (states : List Part) :
    Related loader ((states.map weight).sum + rest)
      (parts.pollTurns join listener turns patience states loader).1
      (((parts.pollTurns join listener turns patience states loader).2.1.map weight).sum +
        rest) := by
  induction turns generalizing patience states loader with
  | zero => exact weighing.quiet (quiet_tell loader listener)
  | succ turns ih =>
    cases patience with
    | zero => exact weighing.quiet (quiet_tell loader listener)
    | succ patience =>
      unfold Parts.pollTurns
      have taken : ∀ weight, Related loader weight (loader.takeTurn join).1 weight :=
        fun _ => weighing.quiet (quiet_takeTurn loader join)
      split
      · rename_i after same
        rw [same] at taken
        exact taken _
      · rename_i after index same
        rw [same] at taken
        split
        · exact taken _
        · rename_i part found
          dsimp only
          obtain ⟨others, sum, changed⟩ := exists_sum_set weight found
          have polled :=
            weighing.trans (taken _) (polls after (.part join index) part (others + rest))
          rw [← add_assoc, ← sum, ← add_assoc, ← changed] at polled
          split
          · exact weighing.trans polled (weighing.quiet (quiet_withdraw ..))
          · exact weighing.trans polled (ih ..)

theorem pollByTurns (join : JoinId) (listener : Listener) (left : Nat) (states : List Part) :
    Related loader ((states.map weight).sum + rest)
      (parts.pollByTurns join listener left states loader).1
      (((parts.pollByTurns join listener left states loader).2.map weight).sum + rest) := by
  induction left generalizing states loader with
  | zero => exact weighing.quiet rfl
  | succ left ih =>
    unfold Parts.pollByTurns
    dsimp only
    split
    · exact weighing.quiet rfl
    · have attended : ∀ weight, Related loader weight (loader.attendJoin join listener) weight :=
        fun _ => weighing.quiet (quiet_attendJoin ..)
      have polled := weighing.trans (attended _) (pollTurns weighing polls
        (loader.attendJoin join listener) rest join listener
        (states.countP fun part => !parts.isOver part) 2 states)
      split
      · rename_i same
        rw [same] at polled
        exact polled
      · rename_i same
        rw [same] at polled
        exact weighing.trans polled (ih ..)

/-- A join moves what its parts hold by the polls of its parts. -/
theorem pollJoin (pace : Pace) (listener : Listener) (states : List Part) :
    Related loader ((states.map weight).sum + rest)
      (parts.pollJoin pace listener states loader).1
      (((parts.pollJoin pace listener states loader).2.map weight).sum + rest) := by
  unfold Parts.pollJoin
  split
  · exact weighing.pollTogether polls ..
  · exact weighing.pollByTurns polls ..

end IsWeighing

/-- Whether a relation between states of a loader goes on from step to step, and does not notice who
is told of what. -/
structure IsStepwise (Related : Loader → Loader → Prop) : Prop where
  quiet : ∀ {loader other : Loader}, other.quiet = loader.quiet → Related loader other
  trans : ∀ {first second third : Loader}, Related first second → Related second third →
    Related first third

namespace IsStepwise

variable {Related : Loader → Loader → Prop} (stepwise : IsStepwise Related)
include stepwise

/-- A join goes on by the polls of its parts. -/
theorem pollJoin {Part : Type} {parts : Parts Part}
    (polls : ∀ (loader : Loader) (listener : Listener) (part : Part),
      Related loader (parts.poll loader listener part).1)
    (loader : Loader) (pace : Pace) (listener : Listener) (states : List Part) :
    Related loader (parts.pollJoin pace listener states loader).1 := by
  -- parts that hold nothing have nothing to move
  have weighing : IsWeighing fun (loader : Loader) (_ : Multiset Empty) (other : Loader) _ =>
      Related loader other := ⟨stepwise.quiet, stepwise.trans⟩
  exact @IsWeighing.pollJoin Empty Part _ weighing parts (fun _ => 0)
    (fun loader listener part _ => polls loader listener part) loader 0 pace listener states

variable (identify : ∀ (loader : Loader) (base : Option FileId) (path : String),
  Related loader (loader.identifier base path).1) (loader : Loader)
include identify

/-- The references of a sheet are read by looking up one path after the other. -/
theorem readLinks (file : FileId) (statements : List ReferenceStatement) :
    Related loader (Loader.readLinks file statements loader).1 := by
  induction statements generalizing loader with
  | nil => exact stepwise.quiet rfl
  | cons statement rest ih =>
    unfold Loader.readLinks
    split
    · exact stepwise.quiet rfl
    · rename_i reference _
      dsimp only
      have read := stepwise.trans (identify loader (some file) reference.path) (ih _)
      split <;> rename_i same <;> rwa [same] at read

/-- All that reading a text does to a loader is to look up paths. -/
theorem assemble (file : FileId) (contents defaultName : String) (dependencies : List String) :
    Related loader (loader.assemble file contents defaultName dependencies).1 := by
  unfold Loader.assemble
  dsimp only
  split
  · exact stepwise.quiet rfl
  · rename_i sheet _
    split
    · exact stepwise.quiet rfl
    · have read := stepwise.readLinks identify loader file sheet.references
      split
      · rename_i same
        rwa [same] at read
      · rename_i same
        rw [same] at read
        exact stepwise.trans read (stepwise.quiet (quiet_openJoin ..))

end IsStepwise

end StyleBlock.Loader
