import StyleBlock.Proofs.Loads

/-!
Sums over the loads of a loader: a number for each task, by its file and its stage, and one for each
file whose load has not begun. A new load moves the number of its file from the second sum to the
first.
-/

namespace StyleBlock

theorem sum_map_modify {α : Type} (value : α → Nat) (change : α → α) {list : List α} {index : Nat}
    {item : α} (found : list[index]? = some item) :
    ((list.modify index change).map value).sum + value item =
      (list.map value).sum + value (change item) := by
  induction list generalizing index with
  | nil => simp at found
  | cons first rest ih =>
    cases index with
    | zero =>
      obtain rfl : first = item := by simpa using found
      simp only [List.modify_zero_cons, List.map_cons, List.sum_cons]
      omega
    | succ index =>
      have later := ih (by simpa using found)
      simp only [List.modify_succ_cons, List.map_cons, List.sum_cons]
      omega

/-- What is taken from a list together with one of its members is at least the member. -/
theorem sum_filter_ne {files : List FileId} (value : FileId → Nat) (keep : FileId → Bool)
    {file : FileId} (kept : keep file = true) :
    ((files.filter fun other => keep other && (other != file)).map value).sum +
      (if file ∈ files then value file else 0) ≤ ((files.filter keep).map value).sum := by
  induction files with
  | nil => simp
  | cons first rest ih =>
    by_cases same : first = file
    · subst same
      simp only [List.filter_cons, kept, bne_self_eq_false, Bool.and_false, Bool.false_eq_true,
        if_false, if_true, List.mem_cons_self, List.map_cons, List.sum_cons]
      split at ih <;> omega
    · have member : file ∈ first :: rest ↔ file ∈ rest := by simp [Ne.symm same]
      simp only [List.filter_cons, bne_iff_ne.mpr same, Bool.and_true, member]
      split
      · simp only [List.map_cons, List.sum_cons]
        omega
      · exact ih

namespace Loader

theorem getElem?_setStage (loader : Loader) (id : TaskId) (stage : Stage) (index : TaskId) :
    (loader.setStage id stage).tasks[index]? =
      if index = id then (loader.tasks[id]?).map fun task => { task with stage }
      else loader.tasks[index]? := by
  simp only [setStage, Array.getElem?_modify]
  by_cases same : id = index
  · subst same
    simp
  · rw [if_neg same, if_neg (Ne.symm same)]

theorem loadOf?_setLoad (loader : Loader) (file : FileId) (id : TaskId) (other : FileId) :
    (loader.setLoad file id).loadOf? other =
      if other = file then some id else loader.loadOf? other := by
  unfold loadOf? setLoad
  dsimp only
  induction loader.loads with
  | nil =>
    by_cases same : other = file
    · simp [same]
    · simp [same, Ne.symm same]
  | cons entry rest ih =>
    obtain ⟨known, task⟩ := entry
    by_cases known_eq : known = file
    · subst known_eq
      by_cases same : other = known
      · simpa [same] using ih
      · simpa [same, Ne.symm same] using ih
    · by_cases here : known = other
      · subst here
        simp [known_eq]
      · simpa [known_eq, here] using ih

theorem getElem?_push_of_some {tasks : Array Task} {id : TaskId} {task : Task}
    (found : tasks[id]? = some task) (new : Task) : (tasks.push new)[id]? = some task := by
  have inside : id ≠ tasks.size := by
    rintro rfl
    simp at found
  rw [Array.getElem?_push, if_neg inside, found]

/-! Files that are asked for -/

section Load

variable {loader : Loader} {file : FileId}

theorem tasks_load_of_none (new : loader.loadOf? file = none) :
    (loader.load file).1.tasks = loader.tasks.push (.ofFile file .imported) := by
  rw [load_of_none new]
  rfl

theorem loadOf?_load_of_none (new : loader.loadOf? file = none) (target : FileId) :
    (loader.load file).1.loadOf? target =
      if target = file then some loader.tasks.size else loader.loadOf? target := by
  rw [load_of_none new, loadOf?_setLoad]
  rfl

/-- A task after a file without a load has been asked for is the new one, or was there before. -/
theorem eq_or_found_of_load (new : loader.loadOf? file = none) {id : TaskId} {task : Task}
    (found : (loader.load file).1.tasks[id]? = some task) :
    (id = loader.tasks.size ∧ task = .ofFile file .imported) ∨ loader.tasks[id]? = some task := by
  rw [tasks_load_of_none new, Array.getElem?_push] at found
  split at found
  · rename_i last
    exact .inl ⟨last, (Option.some.inj found).symm⟩
  · exact .inr found

/-- Tasks stay when a file is asked for. -/
theorem getElem?_load_of_some {id : TaskId} {task : Task} (found : loader.tasks[id]? = some task)
    (file : FileId) : (loader.load file).1.tasks[id]? = some task := by
  cases known : loader.loadOf? file with
  | some _ => rwa [load_of_some known]
  | none =>
    rw [tasks_load_of_none known]
    exact getElem?_push_of_some found _

/-- Loads stay when a file is asked for. -/
theorem loadOf?_load_of_some {target : FileId} {id : TaskId}
    (found : loader.loadOf? target = some id) (file : FileId) :
    (loader.load file).1.loadOf? target = some id := by
  cases known : loader.loadOf? file with
  | some _ => rwa [load_of_some known]
  | none =>
    have apart : target ≠ file := by
      rintro rfl
      cases found.symm.trans known
    rw [loadOf?_load_of_none known, if_neg apart, found]

end Load

theorem loadOf?_load (loader : Loader) (file : FileId) :
    (loader.load file).1.loadOf? file = some (loader.load file).2 := by
  cases known : loader.loadOf? file with
  | some id => rw [load_of_some known, known]
  | none => rw [load_of_none known, loadOf?_setLoad, if_pos rfl]

/-- A number for each task, and one for each file that can be read and is not loaded, taken
together. -/
def total (loader : Loader) (ofTask : FileId → Stage → Nat) (ofFile : FileId → Nat) : Nat :=
  (loader.tasks.toList.map fun task => ofTask task.file task.stage).sum +
    ((loader.importer.files.filter fun file => (loader.loadOf? file).isNone).map ofFile).sum

variable (ofTask : FileId → Stage → Nat) (ofFile : FileId → Nat)

theorem SameLoads.total {loader other : Loader} (same : loader.SameLoads other) :
    other.total ofTask ofFile = loader.total ofTask ofFile := by
  simp only [Loader.total, same.map_tasks, same.importer, same.loadOf?]

theorem total_setStage {loader : Loader} {id : TaskId} {task : Task}
    (found : loader.tasks[id]? = some task) (stage : Stage) :
    (loader.setStage id stage).total ofTask ofFile + ofTask task.file task.stage =
      loader.total ofTask ofFile + ofTask task.file stage := by
  have known : loader.tasks.toList[id]? = some task := by simpa using found
  have changed := sum_map_modify (fun task : Task => ofTask task.file task.stage)
    (fun task => { task with stage }) known
  have same : ∀ file, (loader.setStage id stage).loadOf? file = loader.loadOf? file := fun _ => rfl
  simp only [total, same]
  simp only [setStage, Array.toList_modify] at changed ⊢
  omega

/-- The loader after a task for a file has been made. -/
theorem total_load_of_none {loader : Loader} {file : FileId} (new : loader.loadOf? file = none) :
    (loader.load file).1.total ofTask ofFile +
      (if file ∈ loader.importer.files then ofFile file else 0) ≤
      loader.total ofTask ofFile + ofTask file .fresh := by
  have unloaded : ∀ other, ((loader.load file).1.loadOf? other).isNone =
      ((loader.loadOf? other).isNone && (other != file)) := by
    intro other
    rw [loadOf?_load_of_none new]
    by_cases same : other = file <;> simp [same]
  have isNew : (loader.loadOf? file).isNone = true := by simp [new]
  have files := @sum_filter_ne loader.importer.files ofFile
    (fun other => (loader.loadOf? other).isNone) file isNew
  have importer : (loader.load file).1.importer = loader.importer := by
    rw [load_of_none new]
    rfl
  simp only [total, unloaded, tasks_load_of_none new, importer, Array.toList_push, List.map_append,
    List.map_cons, List.map_nil, List.sum_append, List.sum_cons, List.sum_nil]
  simp only [Task.ofFile] at *
  omega

end Loader

end StyleBlock
