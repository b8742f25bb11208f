import StyleBlock.Proofs.LoadAccounts
import StyleBlock.Proofs.LoadRights

/-!
Every right is given once and used once. The rights of the tasks, those in hand and those that are
used up are all different, however the work on tasks goes; so no file is read twice and no block is
built twice as long as the loads are remembered.
-/

namespace StyleBlock

theorem Stage.HasSlotIn.mono {slots more : List (FileId × BlockId)} {file : FileId} {stage : Stage}
    (has : stage.HasSlotIn slots file) (subset : slots ⊆ more) : stage.HasSlotIn more file := by
  cases stage with
  | active slot work => exact subset has
  | finished outcome =>
    cases outcome with
    | ok slot => exact subset has
    | error error => exact trivial
  | fresh | advancing | dropped => exact trivial

namespace Loader

/-! Rights of the tasks -/

/-- What the tasks may still do. -/
def rights (loader : Loader) : List Right :=
  loader.tasks.toList.zipIdx.flatMap fun (task, id) => task.stage.rights id task.file

variable {start loader other : Loader} {atHand : List Right}

theorem exists_task_of_alone (same : other.tasks.map Task.alone = loader.tasks.map Task.alone)
    {id : TaskId} {task : Task} (found : loader.tasks[id]? = some task) :
    ∃ again, other.tasks[id]? = some again ∧ again.alone = task.alone := by
  have equal : (other.tasks[id]?).map Task.alone = (loader.tasks[id]?).map Task.alone := by
    rw [← Array.getElem?_map, ← Array.getElem?_map, same]
  rw [found] at equal
  exact Option.map_eq_some_iff.mp equal

theorem size_of_alone (same : other.tasks.map Task.alone = loader.tasks.map Task.alone) :
    other.tasks.size = loader.tasks.size := by
  simpa using congrArg Array.size same

theorem isOpen_of_alone {first second : Task} (same : first.alone = second.alone) :
    first.isOpen = second.isOpen := by
  rw [Task.isOpen, Task.isOpen, Task.stage_eq_of_alone same]

theorem rights_eq_of_alone (same : other.tasks.map Task.alone = loader.tasks.map Task.alone) :
    other.rights = loader.rights := by
  have equal := congrArg (fun tasks : Array Task => tasks.toList.zipIdx.flatMap
    fun (task, id) => task.stage.rights id task.file) same
  simpa [rights, Task.alone, List.zipIdx_map, List.flatMap_map] using equal

theorem rights_load_of_none {file : FileId} (new : loader.loadOf? file = none) :
    (loader.load file).1.rights =
      loader.rights ++ [.reading file, .building loader.tasks.size] := by
  rw [load_of_none new]
  simp [rights, addTask, setLoad, List.zipIdx_append, Task.ofFile, Stage.rights]

theorem rights_setStage {id : TaskId} {task : Task} (found : loader.tasks[id]? = some task)
    (stage : Stage) :
    (task.stage.rights id task.file ++ (loader.setStage id stage).rights).Perm
      (stage.rights id task.file ++ loader.rights) := by
  have known : loader.tasks.toList.zipIdx[id]? = some (task, id) := by
    simp [List.getElem?_zipIdx, found]
  have changed := flatMap_modify_perm
    (fun entry : Task × TaskId => entry.1.stage.rights entry.2 entry.1.file)
    (fun entry => ({ entry.1 with stage }, entry.2)) known
  have modified : (loader.setStage id stage).tasks.toList.zipIdx =
      loader.tasks.toList.zipIdx.modify id fun entry => ({ entry.1 with stage }, entry.2) := by
    apply List.ext_getElem?
    intro index
    rw [setStage, Array.toList_modify, List.getElem?_zipIdx, List.getElem?_modify,
      List.getElem?_modify, List.getElem?_zipIdx]
    split
    · cases loader.tasks.toList[index]? <;> rfl
    · cases loader.tasks.toList[index]? <;> rfl
  simpa only [rights, modified] using changed

/-! One flight for each file -/

/-- Whether a right is one that the loader gave out, to a task that is there since `first`. -/
def Knows (loader : Loader) (first : TaskId) : Right → Prop
  | .reading file => (loader.loadOf? file).isSome
  | .building id => first ≤ id ∧ id < loader.tasks.size

/-- All rights that there were: those in hand, those of the tasks, and those that are used up. -/
def ledger (loader : Loader) (atHand : List Right) (files : List FileId) (tasks : List TaskId) :
    List Right :=
  atHand ++ (loader.rights ++ (files.map .reading ++ tasks.map .building))

/-- Whether these files were read and these tasks built since the start. Nothing was done twice, and
nobody has leave to do what was done. -/
structure Spent (start loader : Loader) (atHand : List Right) (files : List FileId)
    (tasks : List TaskId) : Prop where
  reads : loader.cache.reads = start.cache.reads ++ files
  built : loader.built = start.built ++ tasks
  once : (loader.ledger atHand files tasks).Nodup
  known : ∀ right ∈ loader.ledger atHand files tasks, loader.Knows start.tasks.size right

/-- Whether every file that was asked for since the start has one task and one slot, and all that it
may do is done once. -/
structure IsSingle (start loader : Loader) (atHand : List Right) : Prop where
  size : start.tasks.size ≤ loader.tasks.size
  loaded : ∀ (id : TaskId) (task : Task), start.tasks.size ≤ id → loader.tasks[id]? = some task →
    loader.loadOf? task.file = some id ∧ task.origin = .imported
  tasks : ∀ file id, loader.loadOf? file = some id →
    start.tasks.size ≤ id ∧ ∃ task, loader.tasks[id]? = some task ∧ task.file = file
  old : ∀ (id : TaskId) (task : Task), id < start.tasks.size → loader.tasks[id]? = some task →
    task.isOpen = false
  files : (loader.slots.map Prod.fst).Nodup
  places : (loader.slots.map Prod.snd).Nodup
  below : ∀ entry ∈ loader.slots, entry.2.slot < loader.graph.slots.size
  stages : ∀ (id : TaskId) (task : Task), start.tasks.size ≤ id → loader.tasks[id]? = some task →
    task.stage.HasSlotIn loader.slots task.file
  spent : ∃ files tasks, start.Spent loader atHand files tasks

/-- Whether tasks stay what they are, and come to rest for good. -/
def IsLater (loader other : Loader) : Prop :=
  ∀ (id : TaskId) (task : Task), loader.tasks[id]? = some task →
    ∃ again, other.tasks[id]? = some again ∧ again.file = task.file ∧
      (task.isOpen = false → again.stage = task.stage)

namespace IsLater

theorem refl (loader : Loader) : loader.IsLater loader :=
  fun _ task found => ⟨task, found, rfl, fun _ => rfl⟩

theorem trans {first second third : Loader} (one : first.IsLater second)
    (other : second.IsLater third) : first.IsLater third := by
  intro id task found
  obtain ⟨again, foundAgain, file, rests⟩ := one id task found
  obtain ⟨last, foundLast, fileLast, restsLast⟩ := other id again foundAgain
  refine ⟨last, foundLast, fileLast.trans file, fun closed => ?_⟩
  have same := rests closed
  rw [restsLast (by rw [Task.isOpen, same, ← Task.isOpen, closed]), same]

theorem of_alone (same : other.tasks.map Task.alone = loader.tasks.map Task.alone) :
    loader.IsLater other := by
  intro id task found
  obtain ⟨again, foundAgain, alone⟩ := exists_task_of_alone same found
  exact ⟨again, foundAgain, Task.file_eq_of_alone alone, fun _ => Task.stage_eq_of_alone alone⟩

theorem setStage {id : TaskId} {task : Task} (found : loader.tasks[id]? = some task)
    (isOpen : task.isOpen = true) (stage : Stage) : loader.IsLater (loader.setStage id stage) := by
  intro index before known
  rw [getElem?_setStage]
  split
  · rename_i same
    subst same
    cases found.symm.trans known
    refine ⟨{ task with stage }, by rw [found]; rfl, rfl, fun closed => ?_⟩
    rw [isOpen] at closed
    cases closed
  · exact ⟨before, known, rfl, fun _ => rfl⟩

/-- A task that was taken up and put down again had not come to rest. -/
theorem visit {id : TaskId} {task : Task} {stage : Stage} (found : loader.tasks[id]? = some task)
    (isOpen : task.isOpen = true) (later : (loader.setStage id .advancing).IsLater other) :
    loader.IsLater (other.setStage id stage) := by
  intro index before known
  by_cases same : index = id
  · subst same
    obtain ⟨taken, isTaken, file, _⟩ := setStage found isOpen .advancing index before known
    obtain ⟨last, foundLast, fileLast, _⟩ := later index taken isTaken
    refine ⟨{ last with stage }, by rw [getElem?_setStage, if_pos rfl, foundLast]; rfl,
      fileLast.trans file, fun closed => ?_⟩
    rw [Option.some.inj (known.symm.trans found), isOpen] at closed
    cases closed
  · obtain ⟨last, foundLast, fileLast, rests⟩ :=
      later index before (by rw [getElem?_setStage, if_neg same, known])
    exact ⟨last, by rw [getElem?_setStage, if_neg same, foundLast], fileLast, rests⟩

theorem load (loader : Loader) (file : FileId) : loader.IsLater (loader.load file).1 :=
  fun _ task found => ⟨task, getElem?_load_of_some found file, rfl, fun _ => rfl⟩

end IsLater

namespace Spent

variable {files : List FileId} {tasks : List TaskId} (spent : start.Spent loader atHand files tasks)
include spent

/-- Rights may change hands. -/
theorem of_perm {less : List Right} (reads : other.cache.reads = loader.cache.reads)
    (built : other.built = loader.built)
    (perm : (other.ledger less files tasks).Perm (loader.ledger atHand files tasks))
    (knows : ∀ right, loader.Knows start.tasks.size right → other.Knows start.tasks.size right) :
    start.Spent other less files tasks where
  reads := reads.trans spent.reads
  built := built.trans spent.built
  once := perm.nodup_iff.mpr spent.once
  known right member := knows right (spent.known right (perm.subset member))

theorem of_sublist {less : List Right} (sublist : less.Sublist atHand) :
    start.Spent loader less files tasks where
  reads := spent.reads
  built := spent.built
  once := spent.once.sublist (sublist.append_right _)
  known right member := spent.known right ((sublist.append_right _).mem member)

/-- A new task may read its file and build its block. -/
theorem load {file : FileId} (begun : start.tasks.size ≤ loader.tasks.size)
    (new : loader.loadOf? file = none) : start.Spent (loader.load file).1 atHand files tasks := by
  have rights := rights_load_of_none new
  have perm : ((loader.load file).1.ledger atHand files tasks).Perm
      (.reading file :: .building loader.tasks.size :: loader.ledger atHand files tasks) := by
    refine List.perm_iff_count.mpr fun right => ?_
    simp only [ledger, rights, List.count_append, List.count_cons, List.count_nil]
    omega
  have size : (loader.load file).1.tasks.size = loader.tasks.size + 1 := by
    rw [tasks_load_of_none new, Array.size_push]
  refine ⟨?_, ?_,
    perm.nodup_iff.mpr (List.nodup_cons.mpr ⟨?_, List.nodup_cons.mpr ⟨?_, spent.once⟩⟩),
    fun right member => ?_⟩
  · rw [load_of_none new]
    exact spent.reads
  · rw [load_of_none new]
    exact spent.built
  · -- nobody has had leave to read the file, as it had no load
    intro member
    rcases List.mem_cons.mp member with same | member
    · cases same
    · simpa [Knows, new] using spent.known _ member
  · intro member
    exact Nat.lt_irrefl _ (spent.known _ member).2
  · rcases List.mem_cons.mp (perm.subset member) with rfl | member
    · rw [Knows, loadOf?_load_of_none new, if_pos rfl, Option.isSome_some]
    rcases List.mem_cons.mp member with rfl | member
    · exact ⟨begun, by rw [size]; exact Nat.lt_succ_self _⟩
    have knows := spent.known right member
    cases right with
    | reading target =>
      obtain ⟨id, found⟩ := Option.isSome_iff_exists.mp knows
      rw [Knows, loadOf?_load_of_some found, Option.isSome_some]
    | building id => exact ⟨knows.1, by rw [size]; exact Nat.lt_succ_of_lt knows.2⟩

end Spent

namespace IsSingle

variable (single : start.IsSingle loader atHand)
include single

theorem keep (same : loader.SameFlights other) : start.IsSingle other atHand := by
  have loadOf? : ∀ file, other.loadOf? file = loader.loadOf? file := fun file => by
    rw [Loader.loadOf?, Loader.loadOf?, same.loads]
  have before : ∀ {id : TaskId} {task : Task}, other.tasks[id]? = some task →
      ∃ again, loader.tasks[id]? = some again ∧ again.alone = task.alone :=
    fun found => exists_task_of_alone same.tasks.symm found
  refine ⟨size_of_alone same.tasks ▸ single.size, fun id task first found => ?_,
    fun file id found => ?_, fun id task first found => ?_, same.slots ▸ single.files,
    same.slots ▸ single.places, ?_, fun id task first found => ?_, ?_⟩
  · obtain ⟨again, known, alone⟩ := before found
    rw [loadOf?, ← Task.file_eq_of_alone alone, ← Task.origin_eq_of_alone alone]
    exact single.loaded id again first known
  · rw [loadOf?] at found
    obtain ⟨first, task, known, isFile⟩ := single.tasks file id found
    obtain ⟨again, foundAgain, alone⟩ := exists_task_of_alone same.tasks known
    exact ⟨first, again, foundAgain, (Task.file_eq_of_alone alone).trans isFile⟩
  · obtain ⟨again, known, alone⟩ := before found
    rw [← isOpen_of_alone alone]
    exact single.old id again first known
  · rw [same.slots, same.size]
    exact single.below
  · obtain ⟨again, known, alone⟩ := before found
    rw [same.slots, ← Task.file_eq_of_alone alone, ← Task.stage_eq_of_alone alone]
    exact single.stages id again first known
  · obtain ⟨files, tasks, spent⟩ := single.spent
    refine ⟨files, tasks, spent.of_perm same.reads same.built ?_ fun right knows => ?_⟩
    · rw [ledger, rights_eq_of_alone same.tasks, ← ledger]
    · cases right with
      | reading file => simpa only [Knows, loadOf?] using knows
      | building id => simpa only [Knows, size_of_alone same.tasks] using knows

/-- Tasks from before the start rest. -/
theorem first {id : TaskId} {task : Task} (found : loader.tasks[id]? = some task)
    (isOpen : task.isOpen = true) : start.tasks.size ≤ id := by
  by_contra old
  have closed := single.old id task (Nat.lt_of_not_le old) found
  rw [isOpen] at closed
  cases closed

/-- Rights that are given up change nothing else. -/
theorem of_sublist {less : List Right} (sublist : less.Sublist atHand) :
    start.IsSingle loader less := by
  obtain ⟨files, tasks, spent⟩ := single.spent
  exact { single with spent := ⟨files, tasks, spent.of_sublist sublist⟩ }

theorem reserve (file : FileId) : start.IsSingle (loader.reserve file).1 atHand := by
  unfold Loader.reserve
  split
  · exact single
  · rename_i missing
    have new : file ∉ loader.slots.map Prod.fst := by
      intro listed
      obtain ⟨entry, member, rfl⟩ := List.mem_map.mp listed
      simpa using List.find?_eq_none.mp missing entry member
    obtain ⟨files, tasks, spent⟩ := single.spent
    refine { single with
      files := ?_, places := ?_, below := ?_, stages := fun id task first found => ?_,
      spent := ⟨files, tasks, spent.reads, spent.built, spent.once, spent.known⟩ }
    · rw [List.map_append]
      refine List.nodup_append.mpr ⟨single.files, by simp, fun other member last isLast same => ?_⟩
      rw [same, List.mem_singleton.mp isLast] at member
      exact new member
    · rw [List.map_append]
      refine List.nodup_append.mpr ⟨single.places, by simp, fun slot member last isLast same => ?_⟩
      obtain ⟨entry, present, rfl⟩ := List.mem_map.mp member
      have bound := single.below entry present
      rw [same, List.mem_singleton.mp isLast] at bound
      exact Nat.lt_irrefl _ bound
    · intro entry member
      rw [Graph.reserve, Array.size_push]
      rcases List.mem_append.mp member with member | member
      · exact Nat.lt_succ_of_lt (single.below entry member)
      · rw [List.mem_singleton.mp member]
        exact Nat.lt_succ_self _
    · exact (single.stages id task first found).mono (List.subset_append_left ..)

theorem load (file : FileId) : start.IsSingle (loader.load file).1 atHand := by
  cases known : loader.loadOf? file with
  | some id =>
    rw [load_of_some known]
    exact single
  | none =>
    have loadOf? := loadOf?_load_of_none known
    have slots : (loader.load file).1.slots = loader.slots := by rw [load_of_none known]; rfl
    have graph : (loader.load file).1.graph = loader.graph := by rw [load_of_none known]; rfl
    have size : loader.tasks.size ≤ (loader.load file).1.tasks.size := by
      rw [tasks_load_of_none known, Array.size_push]
      exact Nat.le_succ _
    obtain ⟨files, tasks, spent⟩ := single.spent
    refine ⟨single.size.trans size, fun id task first found => ?_, fun target id found => ?_,
      fun id task first found => ?_, slots ▸ single.files, slots ▸ single.places,
      by rw [slots, graph]; exact single.below, fun id task first found => ?_,
      files, tasks, spent.load single.size known⟩
    · rcases eq_or_found_of_load known found with ⟨rfl, rfl⟩ | found
      · exact ⟨by rw [loadOf?, Task.ofFile, if_pos rfl], rfl⟩
      · obtain ⟨loaded, imported⟩ := single.loaded id task first found
        exact ⟨loadOf?_load_of_some loaded file, imported⟩
    · rw [loadOf?] at found
      split at found
      · rename_i same
        cases found
        exact ⟨single.size, .ofFile file .imported,
          by rw [tasks_load_of_none known, Array.getElem?_push, if_pos rfl], same.symm⟩
      · obtain ⟨first, task, there, isFile⟩ := single.tasks target id found
        exact ⟨first, task, getElem?_load_of_some there file, isFile⟩
    · rcases eq_or_found_of_load known found with ⟨rfl, rfl⟩ | found
      · exact absurd single.size (Nat.not_le_of_lt first)
      · exact single.old id task first found
    · rw [slots]
      rcases eq_or_found_of_load known found with ⟨rfl, rfl⟩ | found
      · exact trivial
      · exact single.stages id task first found

end IsSingle

namespace IsSingle

theorem read {file : FileId} (single : start.IsSingle loader (.reading file :: atHand)) :
    start.IsSingle { loader with cache := loader.cache.noteRead file } atHand := by
  obtain ⟨files, tasks, spent⟩ := single.spent
  have perm : (Loader.ledger { loader with cache := loader.cache.noteRead file } atHand
      (files ++ [file]) tasks).Perm (loader.ledger (.reading file :: atHand) files tasks) := by
    refine List.perm_iff_count.mpr fun right => ?_
    simp only [ledger, Loader.rights, List.map_append, List.map_cons, List.map_nil,
      List.count_append, List.count_cons, List.count_nil]
    omega
  refine { single with spent := ⟨files ++ [file], tasks, ?_, spent.built,
    perm.nodup_iff.mpr spent.once, fun right member => ?_⟩ }
  · rw [← List.append_assoc, ← spent.reads]
    simp [ImportCache.noteRead, ImportCache.reads]
  · have knows := spent.known right (perm.subset member)
    cases right <;> exact knows

theorem build {id : TaskId} (single : start.IsSingle loader (.building id :: atHand)) :
    start.IsSingle { loader with built := loader.built ++ [id] } atHand := by
  obtain ⟨files, tasks, spent⟩ := single.spent
  have perm : (Loader.ledger { loader with built := loader.built ++ [id] } atHand
      files (tasks ++ [id])).Perm (loader.ledger (.building id :: atHand) files tasks) := by
    refine List.perm_iff_count.mpr fun right => ?_
    simp only [ledger, Loader.rights, List.map_append, List.map_cons, List.map_nil,
      List.count_append, List.count_cons, List.count_nil]
    omega
  refine { single with spent := ⟨files, tasks ++ [id], spent.reads, ?_,
    perm.nodup_iff.mpr spent.once, fun right member => ?_⟩ }
  · rw [spent.built, List.append_assoc]
  · have knows := spent.known right (perm.subset member)
    cases right <;> exact knows

/-- The rights of a task come into hand when it is taken up, and go back to it when it is put
down. -/
theorem setStage (stage : Stage) {id : TaskId} {task : Task}
    (found : loader.tasks[id]? = some task) (first : start.tasks.size ≤ id)
    (slot : stage.HasSlotIn loader.slots task.file)
    (single : start.IsSingle loader (stage.rights id task.file ++ atHand)) :
    start.IsSingle (loader.setStage id stage) (task.stage.rights id task.file ++ atHand) := by
  obtain ⟨files, tasks, spent⟩ := single.spent
  have before : ∀ {index : TaskId} {later : Task},
      (loader.setStage id stage).tasks[index]? = some later →
        (index = id ∧ later = { task with stage }) ∨
          (index ≠ id ∧ loader.tasks[index]? = some later) := by
    intro index later known
    rw [getElem?_setStage] at known
    split at known
    · rename_i same
      rw [found] at known
      exact .inl ⟨same, (Option.some.inj known).symm⟩
    · rename_i apart
      exact .inr ⟨apart, known⟩
  have perm : ((loader.setStage id stage).ledger (task.stage.rights id task.file ++ atHand)
      files tasks).Perm (loader.ledger (stage.rights id task.file ++ atHand) files tasks) := by
    refine List.perm_iff_count.mpr fun right => ?_
    have counts := (rights_setStage found stage).count_eq right
    simp only [ledger, List.count_append] at counts ⊢
    omega
  refine { single with
    size := by simpa [Loader.setStage] using single.size
    loaded := fun index later begun known => ?_
    tasks := fun file index known => ?_
    old := fun index later gone known => ?_
    stages := fun index later begun known => ?_
    spent := ⟨files, tasks, spent.of_perm rfl rfl perm fun right knows => ?_⟩ }
  · obtain ⟨rfl, rfl⟩ | ⟨_, known⟩ := before known
    · exact single.loaded index task first found
    · exact single.loaded index later begun known
  · obtain ⟨begun, there, isThere, isFile⟩ := single.tasks file index known
    refine ⟨begun, ?_⟩
    rw [getElem?_setStage]
    split
    · rename_i same
      subst same
      cases found.symm.trans isThere
      exact ⟨{ task with stage }, by rw [found]; rfl, isFile⟩
    · exact ⟨there, isThere, isFile⟩
  · obtain ⟨rfl, rfl⟩ | ⟨_, known⟩ := before known
    · exact absurd first (Nat.not_le_of_lt gone)
    · exact single.old index later gone known
  · obtain ⟨rfl, rfl⟩ | ⟨_, known⟩ := before known
    · exact slot
    · exact single.stages index later begun known
  · cases right with
    | reading file => exact knows
    | building index => exact ⟨knows.1, by simpa [Loader.setStage] using knows.2⟩

end IsSingle

/-- Work on tasks uses every right once. -/
theorem Flies.isSingle {loader other : Loader} {before after : List Right}
    (flies : loader.Flies before other after) (single : start.IsSingle loader before) :
    start.IsSingle other after ∧ loader.IsLater other := by
  induction flies with
  | keep same => exact ⟨single.keep same, .of_alone same.tasks⟩
  | forgo loader right rights => exact ⟨single.of_sublist (List.sublist_cons_self ..), .refl _⟩
  | reserve loader file rights =>
    exact ⟨single.reserve file, .of_alone (by rw [(queue_reserve loader file).2.2])⟩
  | load loader file rights => exact ⟨single.load file, .load loader file⟩
  | read loader file rights => exact ⟨single.read, .of_alone rfl⟩
  | build loader id rights => exact ⟨single.build, .of_alone rfl⟩
  | @visit loader other id task stage rights found isOpen work slot ih =>
    have first := single.first found isOpen
    obtain ⟨worked, later⟩ := ih (IsSingle.setStage .advancing found first trivial single)
    -- the task that was taken up is still there, and nobody else has touched it
    obtain ⟨last, foundLast, file, rests⟩ := later id { task with stage := .advancing }
      (by rw [getElem?_setStage, if_pos rfl, found]; rfl)
    have advancing : last.stage = .advancing := rests rfl
    have put := IsSingle.setStage stage foundLast first
      (by rw [file]; exact slot (single.stages id task first found)) (by rw [file]; exact worked)
    rw [advancing] at put
    exact ⟨put, .visit found isOpen later⟩
  | @given loader other id task rights found isOpen origin =>
    exact absurd (single.loaded id task (single.first found isOpen) found).2 origin
  | trans _ _ one other =>
    obtain ⟨single, before⟩ := one single
    obtain ⟨single, after⟩ := other single
    exact ⟨single, before.trans after⟩

end Loader

end StyleBlock
