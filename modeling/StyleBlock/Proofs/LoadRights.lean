import StyleBlock.Proofs.Filling

/-!
What a load may do only once. A load that has not begun may read its file and build its block, and
one that is still on its way to a sheet may build its block; whoever does either uses the right up.
The work on tasks is gone through once more, with the rights of a task in hand while it is worked
on.
-/

namespace StyleBlock

/-- Leave to do something once: to read a file, or to build the block of a task. -/
inductive Right where
  | reading (file : FileId)
  | building (task : TaskId)
deriving DecidableEq

/-- What a task may still do when it goes on with its work. -/
def Work.rights (id : TaskId) : Work → List Right
  | .importing _ => [.building id]
  | .preparing _ _ => [.building id]
  | .chaining _ _ _ => [.building id]
  | .linking _ => []
  | .draining _ _ => []

/-- What a task that loads a file may still do. -/
def Stage.rights (id : TaskId) (file : FileId) : Stage → List Right
  | .fresh => [.reading file, .building id]
  | .active _ work => work.rights id
  | _ => []

def WorkStep.rights (id : TaskId) : WorkStep → List Right
  | .more work => work.rights id
  | .done _ => []

/-- Whether the slot that a stage names, if any, is the one of the file. -/
def Stage.HasSlotIn (slots : List (FileId × BlockId)) (file : FileId) : Stage → Prop
  | .active slot _ => (file, slot) ∈ slots
  | .finished (.ok slot) => (file, slot) ∈ slots
  | _ => True

namespace Loader

/-- Whether two states of a loader agree on the loads, the slots, and what was read and built. -/
structure SameFlights (loader other : Loader) : Prop where
  loads : other.loads = loader.loads
  slots : other.slots = loader.slots
  size : other.graph.slots.size = loader.graph.slots.size
  reads : other.cache.reads = loader.cache.reads
  built : other.built = loader.built
  tasks : other.tasks.map Task.alone = loader.tasks.map Task.alone

namespace SameFlights

theorem of_quiet {loader other : Loader} (same : other.quiet = loader.quiet) :
    loader.SameFlights other :=
  ⟨(congrArg Loader.loads same :), (congrArg Loader.slots same :),
    (congrArg (fun loader => loader.graph.slots.size) same :),
    (congrArg (fun loader => loader.cache.reads) same :), (congrArg Loader.built same :),
    (congrArg Loader.tasks same :)⟩

theorem refl (loader : Loader) : loader.SameFlights loader := .of_quiet rfl

theorem trans {first second third : Loader} (one : first.SameFlights second)
    (other : second.SameFlights third) : first.SameFlights third :=
  ⟨other.loads.trans one.loads, other.slots.trans one.slots, other.size.trans one.size,
    other.reads.trans one.reads, other.built.trans one.built, other.tasks.trans one.tasks⟩

theorem setQueue (loader : Loader) (queue : Queue) :
    loader.SameFlights (loader.setQueue queue) := by
  have changed : loader.SameFlights { loader with queue } := ⟨rfl, rfl, rfl, rfl, rfl, rfl⟩
  exact changed.trans (.of_quiet (quiet_setQueue loader queue))

theorem identifier (loader : Loader) (base : Option FileId) (path : String) :
    loader.SameFlights (loader.identifier base path).1 := by
  refine ⟨rfl, rfl, rfl, ?_, rfl, rfl⟩
  unfold Loader.identifier ImportCache.identifier
  dsimp only
  split
  · rfl
  · simp [ImportCache.reads]

theorem settle (loader : Loader) (file : FileId) (outcome : Except Error ImportedFile) :
    loader.SameFlights { loader with cache := loader.cache.settle file outcome } := by
  refine ⟨rfl, rfl, rfl, ?_, rfl, rfl⟩
  unfold ImportCache.settle
  cases outcome <;> rfl

theorem complete (loader : Loader) (slot : BlockId) (assembly : Assembly)
    (linked : List (Link × BlockId)) :
    loader.SameFlights (loader.complete slot assembly linked).1 := by
  unfold Loader.complete
  split
  · exact .refl _
  · unfold store
    dsimp only
    split
    · exact ⟨rfl, rfl, rfl, rfl, rfl, rfl⟩
    · split
      · exact ⟨rfl, rfl, by simp [Graph.insert], rfl, rfl, rfl⟩
      · exact ⟨rfl, rfl, by simp [Graph.insert, Graph.remove], rfl, rfl, rfl⟩

end SameFlights

/-- A loader becomes a later one by work that has some rights in hand before, and some afterwards.
What the work on a text that was given comes to is left open. -/
inductive Flies : Loader → List Right → Loader → List Right → Prop
  | keep {loader other : Loader} {rights : List Right} (same : loader.SameFlights other) :
      Flies loader rights other rights
  | forgo (loader : Loader) (right : Right) (rights : List Right) :
      Flies loader (right :: rights) loader rights
  | reserve (loader : Loader) (file : FileId) (rights : List Right) :
      Flies loader rights (loader.reserve file).1 rights
  | load (loader : Loader) (file : FileId) (rights : List Right) :
      Flies loader rights (loader.load file).1 rights
  | read (loader : Loader) (file : FileId) (rights : List Right) :
      Flies loader (.reading file :: rights) { loader with cache := loader.cache.noteRead file }
        rights
  | build (loader : Loader) (id : TaskId) (rights : List Right) :
      Flies loader (.building id :: rights) { loader with built := loader.built ++ [id] } rights
  /-- A task is taken up and put down again. -/
  | visit {loader other : Loader} {id : TaskId} {task : Task} {stage : Stage}
      {rights : List Right} (found : loader.tasks[id]? = some task) (isOpen : task.isOpen = true)
      (work : Flies (loader.setStage id .advancing) (task.stage.rights id task.file ++ rights)
        other (stage.rights id task.file ++ rights))
      (slot : task.stage.HasSlotIn loader.slots task.file → stage.HasSlotIn other.slots task.file) :
      Flies loader rights (other.setStage id stage) rights
  | given {loader other : Loader} {id : TaskId} {task : Task} {rights : List Right}
      (found : loader.tasks[id]? = some task) (isOpen : task.isOpen = true)
      (origin : task.origin ≠ .imported) : Flies loader rights other rights
  | trans {first second third : Loader} {before between after : List Right}
      (one : Flies first before second between) (other : Flies second between third after) :
      Flies first before third after

/-- What a poll makes of the work on a task: the rights that are left go on with the work, and a
block that is there is in the slot of the task. -/
structure FliesTo (loader : Loader) (before : List Right) (visit : Visit)
    (result : Loader × WorkStep) (rights : List Right) : Prop where
  flies : Flies loader before result.1 (result.2.rights visit.task ++ rights)
  slot : ∀ slot, result.2 = .done (.ok slot) → slot = visit.slot

end Loader

/-- Whether a way to poll tasks needs no rights besides those of the tasks. -/
def Poller.Flies (poll : Poller) : Prop :=
  ∀ (loader : Loader) (id : TaskId) (rights : List Right),
    Loader.Flies loader rights (poll loader id).1 rights

namespace Loader

variable {rights before : List Right} {visit : Visit}

namespace Flies

theorem refl (loader : Loader) : Flies loader rights loader rights := .keep (.refl loader)

theorem of_quiet {loader other : Loader} (same : other.quiet = loader.quiet) :
    Flies loader rights other rights := .keep (.of_quiet same)

theorem isStepwise : IsStepwise fun loader other => Flies loader rights other rights :=
  ⟨of_quiet, trans⟩

end Flies

theorem FliesTo.after {loader other : Loader} {between : List Right} {result : Loader × WorkStep}
    (flies : Flies loader before other between)
    (later : FliesTo other between visit result rights) :
    FliesTo loader before visit result rights :=
  ⟨flies.trans later.flies, later.slot⟩

/-! The queue -/

theorem fliesTo_pollDrain (loader : Loader) (error : Error) (drain : Drain) :
    FliesTo loader rights visit (loader.pollDrain error drain) rights := by
  unfold pollDrain
  split
  · exact ⟨.keep (.setQueue ..), nofun⟩
  · exact ⟨.keep (.setQueue ..), nofun⟩

theorem fliesTo_fail (loader : Loader) (error : Error) :
    FliesTo loader rights visit (loader.fail error) rights :=
  fliesTo_pollDrain loader error .fresh

/-- A failure gives the right to build up. -/
theorem fliesTo_fail_forgo (loader : Loader) (error : Error) (right : Right) :
    FliesTo loader (right :: rights) visit (loader.fail error) rights :=
  .after (.forgo loader right rights) (fliesTo_fail loader error)

theorem sameFlights_pollRun (loader : Loader) (file : FileId) (sourceMap : Option String)
    (run : Run Processed) : loader.SameFlights (pollRun visit loader file sourceMap run).1 := by
  have polled : ∀ (processed : List (String × Option String)) (queue : Queue),
      loader.SameFlights ({ loader with processed }.setQueue queue) := fun processed queue =>
    @SameFlights.trans _ { loader with processed } _ ⟨rfl, rfl, rfl, rfl, rfl, rfl⟩
      (.setQueue _ queue)
  unfold pollRun
  dsimp only
  split
  · exact (polled _ _).trans (.of_quiet (quiet_tell _ (.task visit.task)))
  · exact polled _ _

/-! References -/

section Links

variable {poll : Poller} (flies : poll.Flies) (loader : Loader)
include flies

theorem flies_pollAwaited (requester target : FileId) (listener : Listener) (watch : Watch) :
    Flies loader rights (pollAwaited poll requester target loader listener watch).1 rights := by
  unfold pollAwaited
  dsimp only
  have attended : Flies loader rights (loader.attend watch listener).1 rights :=
    .of_quiet (quiet_attend ..)
  have polled := attended.trans (flies _ (loader.attend watch listener).2.task rights)
  split
  · rename_i same
    rwa [same] at polled
  · rename_i same
    rw [same] at polled
    exact polled.trans (.keep ⟨rfl, rfl, rfl, rfl, rfl, rfl⟩)

theorem flies_pollLink (requester : FileId) (listener : Listener) (link : Link)
    (state : LinkState) :
    Flies loader rights (pollLink poll requester loader listener link state).1 rights := by
  unfold pollLink
  split
  · exact .refl _
  · exact .refl _
  · exact flies_pollAwaited flies ..
  · split
    · exact .reserve ..
    · dsimp only
      have added : Flies loader rights
          { loader with waits := loader.waits.add requester link.target } rights :=
        .keep ⟨rfl, rfl, rfl, rfl, rfl, rfl⟩
      exact (added.trans (.load ..)).trans (flies_pollAwaited flies ..)

theorem flies_pollLinks (requester : FileId) (pace : Pace) (listener : Listener)
    (links : List (Link × LinkState)) :
    Flies loader rights ((linkParts poll requester).pollJoin pace listener links loader).1
      rights :=
  Flies.isStepwise.pollJoin (fun _ _ _ => flies_pollLink flies ..) ..

end Links

theorem sameFlights_assemble (loader : Loader) (file : FileId) (contents defaultName : String)
    (dependencies : List String) :
    loader.SameFlights (loader.assemble file contents defaultName dependencies).1 :=
  have stepwise : IsStepwise SameFlights := ⟨.of_quiet, .trans⟩
  stepwise.assemble SameFlights.identifier ..

/-! From a file to a block -/

section Work

variable (flies : visit.poll.Flies) (loader : Loader)
include flies

theorem fliesTo_continueLinking (file : FileId) (assembly : Assembly) :
    FliesTo loader rights visit (continueLinking visit loader file assembly) rights := by
  unfold continueLinking
  dsimp only
  have polled := @flies_pollLinks rights _ flies loader file assembly.pace
    (.task visit.task) assembly.links
  split
  · exact .after (polled.trans (.of_quiet (quiet_leaveAll ..))) (fliesTo_fail ..)
  · split
    · exact ⟨polled, nofun⟩
    · rename_i linked _
      have completed := polled.trans (.keep (.complete _ visit.slot assembly linked))
      split
      · rename_i same
        rw [same] at completed
        exact .after completed (fliesTo_fail ..)
      · rename_i same
        rw [same] at completed
        refine ⟨completed, fun slot done => ?_⟩
        cases done
        rfl

theorem fliesTo_build (file : FileId) (contents defaultName : String)
    (dependencies : List String) :
    FliesTo loader (.building visit.task :: rights) visit
      (build visit loader file contents defaultName dependencies) rights := by
  unfold build
  dsimp only
  have read := (Flies.build loader visit.task rights).trans
    (.keep (sameFlights_assemble _ file contents defaultName dependencies))
  split
  · rename_i same
    rw [same] at read
    exact .after read (fliesTo_fail ..)
  · rename_i same
    rw [same] at read
    exact .after read (fliesTo_continueLinking flies ..)

theorem fliesTo_continueChaining (file : ImportedFile) (processed : Processed)
    (run : Run Processed) :
    FliesTo loader (.building visit.task :: rights) visit
      (continueChaining visit loader file processed run) rights := by
  unfold continueChaining
  have polled := @sameFlights_pollRun visit loader file.identifier processed.sourceMap run
  split <;> rename_i same <;> rw [same] at polled
  · exact ⟨.keep polled, nofun⟩
  · exact .after (.keep polled) (fliesTo_fail_forgo ..)
  · exact .after (.keep polled) (fliesTo_build flies ..)

theorem fliesTo_chain (file : ImportedFile) (processed : Processed) :
    FliesTo loader (.building visit.task :: rights) visit (chain visit loader file processed)
      rights := by
  unfold chain
  dsimp only
  split
  · exact fliesTo_build flies ..
  · exact fliesTo_continueChaining flies ..

theorem fliesTo_continuePreparing (file : ImportedFile) (run : Run Processed) :
    FliesTo loader (.building visit.task :: rights) visit
      (continuePreparing visit loader file run) rights := by
  unfold continuePreparing
  have polled := @sameFlights_pollRun visit loader file.identifier none run
  split <;> rename_i same <;> rw [same] at polled
  · exact ⟨.keep polled, nofun⟩
  · exact .after (.keep polled) (fliesTo_fail_forgo ..)
  · exact .after (.keep polled) (fliesTo_chain flies ..)

theorem fliesTo_prepare (file : ImportedFile) :
    FliesTo loader (.building visit.task :: rights) visit (prepare visit loader file) rights := by
  unfold prepare
  dsimp only
  split
  · exact fliesTo_chain flies ..
  · split
    · exact fliesTo_fail_forgo ..
    · exact fliesTo_continuePreparing flies ..

theorem fliesTo_continueImporting (file : FileId) (left : Nat) :
    FliesTo loader (.building visit.task :: rights) visit
      (continueImporting visit loader file left) rights := by
  cases left with
  | succ left => exact ⟨.of_quiet (quiet_tell loader (.task visit.task)), nofun⟩
  | zero =>
    unfold continueImporting
    dsimp only
    have settled := SameFlights.settle loader file (loader.importer.read file)
    split
    · exact .after (.keep settled) (fliesTo_fail_forgo ..)
    · exact .after (.keep settled) (fliesTo_prepare flies ..)

/-- A task that begins reads its file at most once, unless its text was given. -/
theorem fliesTo_beginTask (task : Task) (imported : task.origin = .imported) :
    FliesTo loader (.reading task.file :: .building visit.task :: rights) visit
      (beginTask visit loader task) rights := by
  unfold beginTask
  rw [imported]
  unfold beginImporting
  dsimp only
  split
  · exact .after (.forgo ..) (fliesTo_prepare flies ..)
  · exact .after (.read ..) (fliesTo_continueImporting flies ..)

theorem fliesTo_continueTask (task : Task) (work : Work) :
    FliesTo loader (work.rights visit.task ++ rights) visit (continueTask visit loader task work)
      rights := by
  cases work with
  | importing left => exact fliesTo_continueImporting flies ..
  | preparing file run => exact fliesTo_continuePreparing flies ..
  | chaining file before run => exact fliesTo_continueChaining flies ..
  | linking assembly => exact fliesTo_continueLinking flies ..
  | draining error drain => exact fliesTo_pollDrain ..

end Work

/-! The poll of a task -/

/-- A slot that was given out stays that of its file. -/
theorem Fills.slots_subset {loader other : Loader} (fills : loader.Fills other) :
    loader.slots ⊆ other.slots :=
  @Fills.induct (fun other => loader.slots ⊆ other.slots) _ _ fills
    (fun _ slots _ kept => slots ▸ kept)
    (fun other file kept => by
      unfold Loader.reserve
      split
      · exact kept
      · exact fun entry member => List.mem_append_left _ (kept member))
    (fun other slot assembly linked kept => by
      rw [(SameFlights.complete other slot assembly linked).slots]
      exact kept) (List.Subset.refl _)

theorem mem_slots_reserve (loader : Loader) (file : FileId) :
    (file, (loader.reserve file).2) ∈ (loader.reserve file).1.slots := by
  unfold reserve
  split
  · rename_i found
    have same := List.find?_some found
    obtain rfl : _ = file := by simpa using same
    exact List.mem_of_find?_eq_some found
  · exact List.mem_append_right _ (List.mem_singleton.mpr rfl)

theorem flies_record {loader : Loader} {id : TaskId} {task : Task}
    (found : loader.tasks[id]? = some task) (isOpen : task.isOpen = true)
    (imported : task.origin = .imported) (visit : Visit) (isTask : visit.task = id)
    {result : Loader × WorkStep}
    (later : FliesTo (loader.setStage id .advancing) (task.stage.rights id task.file ++ rights)
      visit result rights)
    (slot : task.stage.HasSlotIn loader.slots task.file →
      (task.file, visit.slot) ∈ result.1.slots) :
    Flies loader rights (result.1.record id task visit.slot result.2).1 rights := by
  subst isTask
  obtain ⟨after, step⟩ := result
  obtain ⟨work, done⟩ := later
  cases step with
  | more work' =>
    exact @Flies.visit _ _ _ _ (.active visit.slot work') _ found isOpen work slot
  | done outcome =>
    unfold record
    rw [imported]
    refine Flies.trans (@Flies.visit _ _ _ _ (.finished outcome) _ found isOpen work ?_)
      (.of_quiet (quiet_tell ..))
    intro has
    cases outcome with
    | error error => exact trivial
    | ok id => exact done id rfl ▸ slot has

/-- Polls need no rights but those of the tasks, however deep they nest. -/
theorem flies_pollWithin (depth : Nat) : Poller.Flies (pollWithin depth) := by
  induction depth with
  | zero => exact fun loader _ _ => .refl loader
  | succ depth ih =>
    intro loader id rights
    unfold pollWithin
    cases found : loader.tasks[id]? with
    | none => exact .refl _
    | some task =>
      dsimp only
      cases stage : task.stage with
      | finished => exact .refl _
      | advancing => exact .refl _
      | dropped => exact .refl _
      | fresh =>
        have isOpen : task.isOpen = true := by rw [Task.isOpen, stage]
        by_cases imported : task.origin = .imported
        · refine flies_record found isOpen imported ⟨pollWithin depth, id, _⟩ rfl ?_ ?_
          · rw [stage]
            exact .after (.reserve ..) (@fliesTo_beginTask _ ⟨pollWithin depth, id,
              ((loader.setStage id .advancing).reserve task.file).2⟩ ih _ task imported)
          · intro _
            have works := @works_beginTask 0 [] ⟨pollWithin depth, id,
                ((loader.setStage id .advancing).reserve task.file).2⟩
              (works_pollWithin 0 depth) ((loader.setStage id .advancing).reserve task.file).1 task
            exact works.fills.slots_subset (mem_slots_reserve ..)
        · exact .given found isOpen imported
      | active slot work =>
        have isOpen : task.isOpen = true := by rw [Task.isOpen, stage]
        by_cases imported : task.origin = .imported
        · refine flies_record found isOpen imported ⟨pollWithin depth, id, slot⟩ rfl ?_ ?_
          · rw [stage]
            exact @fliesTo_continueTask _ ⟨pollWithin depth, id, slot⟩ ih ..
          · intro has
            rw [stage] at has
            have works :=
              @works_continueTask 0 [] ⟨pollWithin depth, id, slot⟩ (works_pollWithin 0 depth)
              (loader.setStage id .advancing) task work
            exact works.fills.slots_subset has
        · exact .given found isOpen imported

theorem flies_pollTask (loader : Loader) (id : TaskId) :
    Flies loader rights (loader.pollTask id).1 rights :=
  flies_pollWithin _ loader id rights

end Loader

end StyleBlock
