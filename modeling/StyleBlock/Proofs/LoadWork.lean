import StyleBlock.Proofs.LoadLinks

/-!
How the work of one task gets on when it is polled: it lowers what the loads cost, or it stands
still and waits for permits only.
-/

namespace StyleBlock.Loader

/-- The work on a file gets on by more than nothing. -/
structure Progresses (loader : Loader) (visited : TaskId) (file : FileId) (cost : Nat)
    (result : Loader × WorkStep) : Prop where
  moved : loader.Moved visited result.1
  work : ∀ work, result.2 = .more work → result.1.IsSoundWork file work
  less : result.1.cost + loader.setting.stepCost file result.2 < loader.cost + cost

/-- The work on a file stays as it is and waits for permits only. -/
structure StandsStill (loader : Loader) (work : Work) (result : Loader × WorkStep) : Prop where
  same : loader.SameLoads result.1
  queue : result.1.queue = loader.queue
  step : result.2 = .more work
  queued : ∀ (task : Task) (slot : BlockId), task.stage = .active slot work →
    (∃ ticket, task.ticket? = some ticket ∧ loader.queue.permits.takeUp? ticket = none) ∨
      (task.watches ≠ [] ∧ ∀ watch ∈ task.watches, loader.IsQueued watch.task)

variable {loader other : Loader} {visited : TaskId} {file : FileId} {depth cost : Nat}

theorem Progresses.weaken {result : Loader × WorkStep} {more : Nat}
    (progresses : loader.Progresses visited file cost result) (le : cost ≤ more) :
    loader.Progresses visited file more result :=
  ⟨progresses.moved, progresses.work, progresses.less.trans_le (Nat.add_le_add_left le _)⟩

/-- Work that goes on from a later state. -/
theorem Progresses.after {result : Loader × WorkStep} {more : Nat} (sound : loader.Sound)
    (moved : loader.Moved visited other) (progresses : other.Progresses visited file cost result)
    (le : other.cost + cost ≤ loader.cost + more) :
    loader.Progresses visited file more result := by
  refine ⟨moved.trans sound progresses.moved, progresses.work, ?_⟩
  rw [← moved.setting]
  exact progresses.less.trans_le le

/-- Work without a ticket that waits for no load gets on. -/
theorem not_standsStill {work : Work} {result : Loader × WorkStep}
    (ticket : (Task.mk "" .imported (.active ⟨0⟩ work) .empty).ticket? = none)
    (watches : (Task.mk "" .imported (.active ⟨0⟩ work) .empty).watches = []) :
    ¬ loader.StandsStill work result := by
  intro still
  rcases still.queued (Task.mk "" .imported (.active ⟨0⟩ work) .empty) ⟨0⟩ rfl with
    ⟨number, waits, _⟩ | ⟨waits, _⟩
  · rw [ticket] at waits
    cases waits
  · exact waits watches

/-! Failures -/

theorem sameLoads_setQueue (loader : Loader) (queue : Queue) :
    loader.SameLoads (loader.setQueue queue) := by
  have changed : loader.SameLoads { loader with queue } := ⟨rfl, rfl, rfl, rfl, rfl, rfl, rfl, rfl⟩
  exact changed.trans (.of_quiet (quiet_setQueue loader queue))

theorem queue_setQueue (loader : Loader) (queue : Queue) : (loader.setQueue queue).queue = queue :=
  queue_eq_of_quiet (quiet_setQueue loader queue)

/-- A drain is over, or goes on waiting, having got a ticket at its first poll. -/
theorem pollDrain_cases (loader : Loader) (error : Error) (drain : Drain) :
    loader.SameLoads (loader.pollDrain error drain).1 ∧
      ((loader.pollDrain error drain).2 = .done (.error error) ∨
        ∃ ticket, (loader.pollDrain error drain).2 = .more (.draining error (.waiting ticket)) ∧
          ∀ before, drain = .waiting before → ticket = before ∧
            (loader.pollDrain error drain).1.queue = loader.queue ∧
            loader.queue.permits.takeUp? ticket = none) := by
  unfold pollDrain
  cases drain with
  | fresh =>
    rw [Drain.poll]
    dsimp only
    split
    · rename_i found
      split at found
      · cases found
        exact ⟨sameLoads_setQueue .., .inl rfl⟩
      · cases found
    · rename_i found
      split at found
      · cases found
      · cases found
        exact ⟨sameLoads_setQueue .., .inr ⟨_, rfl, nofun⟩⟩
  | waiting ticket =>
    rw [Drain.poll]
    cases found : loader.queue.permits.takeUp? ticket with
    | some permits => exact ⟨sameLoads_setQueue .., .inl rfl⟩
    | none =>
      refine ⟨sameLoads_setQueue .., .inr ⟨ticket, rfl, ?_⟩⟩
      rintro before ⟨⟩
      exact ⟨rfl, queue_setQueue .., found⟩

/-- A failure costs less than any load that has not failed. -/
theorem fail_progresses (sound : loader.Sound) (error : Error) (enough : 2 ≤ cost) :
    loader.Progresses visited file cost (loader.fail error) := by
  obtain ⟨same, step⟩ := loader.pollDrain_cases error .fresh
  have costSame := same.cost
  refine ⟨.of_sameLoads sound same, fun work isWork => ?_, ?_⟩
  · rcases step with ended | ⟨ticket, more, _⟩
    · rw [fail, ended] at isWork
      cases isWork
    · rw [fail, more] at isWork
      cases isWork
      exact trivial
  · rcases step with ended | ⟨ticket, more, _⟩
    · rw [fail, ended]
      simp only [Setting.stepCost]
      omega
    · rw [fail, more]
      simp only [Setting.stepCost, Setting.workCost, Setting.drainCost]
      omega

/-- A failure after other work that has cost nothing. -/
theorem fail_progresses_after (sound : loader.Sound) (moved : loader.Moved visited other)
    (error : Error) (enough : other.cost + 2 ≤ loader.cost + cost) :
    loader.Progresses visited file cost (other.fail error) :=
  .after sound moved (fail_progresses moved.sound error le_rfl) enough

theorem pollDrain_progresses (sound : loader.Sound) (error : Error) (drain : Drain) :
    loader.Progresses visited file (loader.setting.workCost file (.draining error drain))
        (loader.pollDrain error drain) ∨
      loader.StandsStill (.draining error drain) (loader.pollDrain error drain) := by
  obtain ⟨same, step⟩ := loader.pollDrain_cases error drain
  have costSame := same.cost
  rcases step with ended | ⟨ticket, more, again⟩
  · refine .inl ⟨.of_sameLoads sound same, fun work isWork => ?_, ?_⟩
    · rw [ended] at isWork
      cases isWork
    · rw [ended]
      cases drain <;> simp only [Setting.stepCost, Setting.workCost, Setting.drainCost] <;> omega
  · cases drain with
    | fresh =>
      refine .inl ⟨.of_sameLoads sound same, fun work isWork => ?_, ?_⟩
      · rw [more] at isWork
        cases isWork
        exact trivial
      · rw [more]
        simp only [Setting.stepCost, Setting.workCost, Setting.drainCost]
        omega
    | waiting before =>
      obtain ⟨rfl, queue, missing⟩ := again before rfl
      refine .inr ⟨same, queue, more, fun task slot stage => .inl ⟨ticket, ?_, missing⟩⟩
      rw [Task.ticket?, stage]
      rfl

/-! Preprocessing -/

theorem pollRun_eq (visit : Visit) (loader : Loader) (file : FileId) (sourceMap : Option String)
    (run : Run Processed) :
    loader.SameLoads (pollRun visit loader file sourceMap run).1 ∧
      (pollRun visit loader file sourceMap run).1.queue = (run.poll loader.queue).1 ∧
      (pollRun visit loader file sourceMap run).2 = (run.poll loader.queue).2.2 := by
  unfold pollRun
  generalize run.poll loader.queue = polled
  obtain ⟨queue, events, step⟩ := polled
  dsimp only
  generalize (if events.contains .started then [(loader.importer.fullPath file, sourceMap)]
    else []) = begun
  have noted : loader.SameLoads { loader with processed := loader.processed ++ begun } :=
    ⟨rfl, rfl, rfl, rfl, rfl, rfl, rfl, rfl⟩
  have later := noted.trans (sameLoads_setQueue _ queue)
  have queueLater := queue_setQueue { loader with processed := loader.processed ++ begun } queue
  generalize { loader with processed := loader.processed ++ begun }.setQueue queue = after at *
  have told := SameLoads.of_quiet (quiet_tell after (.task visit.task))
  have queueTold : (after.tell (.task visit.task)).queue = after.queue :=
    queue_eq_of_quiet (quiet_tell after (.task visit.task))
  split
  · exact ⟨later.trans told, queueTold.trans queueLater, rfl⟩
  · exact ⟨later, queueLater, rfl⟩

/-- A run on its next poll: it is over, or less of it is left, or it waits for its permit. -/
theorem pollRun_cases (visit : Visit) (loader : Loader) (file : FileId)
    (sourceMap : Option String) (run : Run Processed) :
    let result := pollRun visit loader file sourceMap run
    loader.SameLoads result.1 ∧
      ((∃ later, result.2 = .more later ∧ later.job.outcome = run.job.outcome ∧
          later.left < run.left) ∨
        (result.2 = .more run ∧ result.1.queue = loader.queue ∧ run.IsQueued loader.queue) ∨
        (∃ error, result.2 = .done (.error error)) ∨
        ∃ processed, result.2 = .done (.ok processed) ∧ run.job.outcome = .ok processed) := by
  obtain ⟨same, queue, step⟩ := pollRun_eq visit loader file sourceMap run
  refine ⟨same, ?_⟩
  rw [queue, step]
  rcases run.poll_cases loader.queue with less | waits | ⟨error, ended⟩ | ended
  · exact .inl less
  · exact .inr (.inl waits)
  · exact .inr (.inr (.inl ⟨error, ended⟩))
  · cases outcome : run.job.outcome with
    | error error => exact .inr (.inr (.inl ⟨error, outcome ▸ ended⟩))
    | ok processed => exact .inr (.inr (.inr ⟨processed, outcome ▸ ended, rfl⟩))

/-! References -/

theorem sameLoads_complete (loader : Loader) (slot : BlockId) (assembly : Assembly)
    (linked : List (Link × BlockId)) :
    loader.SameLoads (loader.complete slot assembly linked).1 := by
  unfold complete
  split
  · exact .refl loader
  · unfold store
    dsimp only
    split
    · exact ⟨rfl, rfl, rfl, rfl, rfl, rfl, rfl, rfl⟩
    · split
      · exact ⟨rfl, rfl, rfl, rfl, rfl, rfl, rfl, rfl⟩
      · exact ⟨rfl, rfl, rfl, rfl, rfl, rfl, rfl, rfl⟩

theorem error?_eq_none {links : List (Link × LinkState)}
    (none : Assembly.error? .together links = none) :
    ¬ ∃ part ∈ links, part.2.error?.isSome := by
  rintro ⟨part, member, isError⟩
  have isNone : part.2.error? = .none := List.findSome?_eq_none_iff.mp none part member
  rw [isNone] at isError
  cases isError

/-- References that rest are all linked, or some of them wait. -/
theorem exists_waiting_of_linked?_eq_none {links : List (Link × LinkState)}
    (resting : ∀ part ∈ links, part.2.IsResting) (unlinked : Assembly.linked? links = none) :
    Assembly.watches links ≠ [] := by
  induction links with
  | nil => cases unlinked
  | cons part rest ih =>
    obtain ⟨link, state⟩ := part
    have here := resting _ List.mem_cons_self
    cases state with
    | fresh => cases here
    | failed error => cases here
    | waiting watch => simp [Assembly.watches, LinkState.watch?]
    | linked id =>
      have later : Assembly.linked? rest = none := by
        cases found : Assembly.linked? rest with
        | none => rfl
        | some linked =>
          rw [Assembly.linked?] at found unlinked
          rw [List.mapM_cons, found] at unlinked
          simp [LinkState.id?] at unlinked
      have more := ih (fun part member => resting part (List.mem_cons_of_mem _ member)) later
      simpa [Assembly.watches, LinkState.watch?] using more

/-- References of which some wait are not all linked. -/
theorem linked?_eq_none_of_watches {links : List (Link × LinkState)}
    (waits : Assembly.watches links ≠ []) : Assembly.linked? links = none := by
  induction links with
  | nil => exact absurd rfl waits
  | cons part rest ih =>
    obtain ⟨link, state⟩ := part
    cases state with
    | linked id =>
      have later : Assembly.linked? rest = none :=
        ih (by simpa [Assembly.watches, LinkState.watch?] using waits)
      rw [Assembly.linked?] at later ⊢
      rw [List.mapM_cons, later]
      rfl
    | fresh | waiting | failed => simp [Assembly.linked?, LinkState.id?]

/-- A block is completed when all its references are there. -/
theorem complete_progresses (sound : loader.Sound) (moved : loader.Moved visited other)
    (slot : BlockId) (assembly : Assembly) (linked : List (Link × BlockId))
    (enough : other.cost + 2 ≤ loader.cost + cost) :
    loader.Progresses visited file cost
      (match other.complete slot assembly linked with
      | (loader, .error error) => loader.fail error
      | (loader, .ok ()) => (loader, .done (.ok slot))) := by
  have completed := sameLoads_complete other slot assembly linked
  have spent := completed.cost
  have movedLast := moved.trans sound (.of_sameLoads moved.sound completed)
  generalize other.complete slot assembly linked = result at *
  obtain ⟨last, outcome⟩ := result
  dsimp only at *
  cases outcome with
  | error error => exact fail_progresses_after sound movedLast error (by omega)
  | ok _ =>
    refine ⟨movedLast, fun work isWork => ?_, ?_⟩
    · cases isWork
    · simp only [Setting.stepCost]
      omega

/-- References of which none has got on wait for permits. -/
theorem linking_standsStill {assembly : Assembly} (same : loader.SameLoads other)
    (queue : other.queue = loader.queue) (resting : ∀ part ∈ assembly.links, part.2.IsResting)
    (unlinked : Assembly.linked? assembly.links = none)
    (queued : ∀ part ∈ assembly.links, ∀ watch, part.2 = .waiting watch →
      loader.IsQueued watch.task) :
    loader.StandsStill (.linking assembly) (other, .more (.linking assembly)) := by
  refine ⟨same, queue, rfl, fun task slot stage => .inr ?_⟩
  have watches : task.watches = Assembly.watches assembly.links := by
    rw [Task.watches, stage]
  rw [watches]
  refine ⟨exists_waiting_of_linked?_eq_none resting unlinked, fun watch member => ?_⟩
  obtain ⟨⟨link, state⟩, present, isWatch⟩ := List.mem_filterMap.mp member
  apply queued (link, state) present
  cases state <;> simp_all [LinkState.watch?]

theorem continueLinking_progresses {visit : Visit}
    (visiting : loader.IsVisiting visited file depth) (listed : file ∈ loader.importer.files)
    (serves : visit.poll.Serves depth) (assembly : Assembly) (pace : assembly.pace = .together)
    (links : loader.IsSoundLinks file (fun _ => 0) assembly.links)
    (begins : ∀ part ∈ assembly.links, part.2 = .fresh ∨ part.2.IsResting) :
    loader.Progresses visited file (loader.setting.linksCost assembly.links + 2)
        (continueLinking visit loader file assembly) ∨
      loader.StandsStill (.linking assembly) (continueLinking visit loader file assembly) := by
  have polled := pollTogether_sound visiting listed serves links begins (.task visit.task)
  have spent := polled.spent
  obtain ⟨draft, dependencies, _, before⟩ := assembly
  obtain rfl : _ = Pace.together := pace
  rw [continueLinking]
  simp only [Parts.pollJoin]
  generalize (linkParts visit.poll file).pollTogether (.task visit.task) before loader = result at *
  obtain ⟨after, parts⟩ := result
  obtain ⟨moved, linksAfter, settled, progress⟩ := polled
  dsimp only at *
  cases failed : Assembly.error? .together parts with
  | some error =>
    have left := SameLoads.of_quiet (quiet_leaveAll (Assembly.watches parts) after)
    have costLeft := left.cost
    have movedLeft : loader.Moved visited ((Assembly.watches parts).foldl leave after) :=
      moved.trans visiting.sound (.of_sameLoads moved.sound left)
    exact .inl (fail_progresses_after visiting.sound movedLeft error (by omega))
  | none =>
    have resting : ∀ part ∈ parts, part.2.IsResting :=
      settled.resolve_right (error?_eq_none failed)
    dsimp only
    cases found : Assembly.linked? parts with
    | some linked =>
      exact .inl (complete_progresses visiting.sound moved visit.slot
        ⟨draft, dependencies, .together, before⟩ linked (by omega))
    | none =>
      rcases progress with less | ⟨same, queue, rfl, queued⟩
      · refine .inl ⟨moved, ?_, ?_⟩
        · rintro work ⟨⟩
          refine ⟨?_, rfl, resting, linksAfter⟩
          rw [importer_eq_of_setting moved.setting]
          exact listed
        · simp only [Setting.stepCost, Setting.workCost]
          omega
      · exact .inr (linking_standsStill same queue resting found queued)

/-! Reading a sheet -/

theorem identifier_eq (sound : loader.Sound) (base : Option FileId) (path : String) :
    (loader.identifier base path).2 = loader.importer.identifier base path ∧
      loader.Moved visited (loader.identifier base path).1 ∧
      (loader.identifier base path).1.cost = loader.cost := by
  unfold identifier ImportCache.identifier
  cases known : loader.cache.identifier? base path with
  | some id =>
    obtain ⟨entry, found, isId⟩ := Option.map_eq_some_iff.mp known
    have answered := sound.identifiers entry (List.mem_of_find?_eq_some found)
    have key : entry.1 = (base, path) := by simpa using List.find?_some found
    rw [key] at answered
    exact ⟨isId.symm.trans answered.symm, .setCache sound sound.imports sound.identifiers, rfl⟩
  | none =>
    refine ⟨rfl, .setCache sound sound.imports fun entry member => ?_, rfl⟩
    rcases List.mem_append.mp member with old | new
    · exact sound.identifiers entry old
    · rw [List.mem_singleton.mp new]

theorem readLinks_eq (sound : loader.Sound) (statements : List ReferenceStatement) :
    let result := readLinks file statements loader
    loader.Moved visited result.1 ∧ result.1.cost = loader.cost ∧
      ∀ links, result.2 = .ok links → (∀ part ∈ links, part.2 = .fresh) ∧
        loader.setting.linksCost links =
          (statements.map (loader.setting.referenceCost file)).sum := by
  induction statements generalizing loader with
  | nil =>
    refine ⟨.refl sound, rfl, ?_⟩
    rintro links ⟨⟩
    exact ⟨by simp, rfl⟩
  | cons statement rest ih =>
    rw [readLinks]
    cases parsed : statement.parse with
    | error error => exact ⟨.refl sound, rfl, nofun⟩
    | ok reference =>
      dsimp only
      obtain ⟨target, moved, cost⟩ := @identifier_eq loader visited sound (some file) reference.path
      have later := ih moved.sound
      generalize loader.identifier (some file) reference.path = start at *
      obtain ⟨now, id⟩ := start
      dsimp only at *
      generalize readLinks file rest now = result at *
      obtain ⟨last, outcome⟩ := result
      obtain ⟨movedLater, costLater, linksLater⟩ := later
      have total := moved.trans sound movedLater
      cases outcome with
      | error error => exact ⟨total, costLater.trans cost, nofun⟩
      | ok links =>
        refine ⟨total, costLater.trans cost, ?_⟩
        rintro _ ⟨⟩
        obtain ⟨fresh, costLinks⟩ := linksLater links rfl
        refine ⟨?_, ?_⟩
        · intro part member
          rcases List.mem_cons.mp member with rfl | member
          · rfl
          · exact fresh part member
        · have importer : loader.setting.importer = loader.importer := rfl
          rw [moved.setting] at costLinks
          rw [linksCost_cons, List.map_cons, List.sum_cons, costLinks, Setting.referenceCost,
            parsed, target]
          rfl

theorem waitingFor_of_fresh {links : List (Link × LinkState)}
    (fresh : ∀ part ∈ links, part.2 = .fresh) (target : FileId) :
    Assembly.waitingFor target links = 0 := by
  refine List.countP_eq_zero.mpr fun part member => ?_
  simp [fresh part member, LinkState.watch?]

/-- References that have not begun get on at their first poll. -/
theorem continueLinking_progresses_of_fresh {visit : Visit}
    (visiting : loader.IsVisiting visited file depth) (listed : file ∈ loader.importer.files)
    (serves : visit.poll.Serves depth) (assembly : Assembly) (pace : assembly.pace = .together)
    (fresh : ∀ part ∈ assembly.links, part.2 = .fresh) :
    loader.Progresses visited file (loader.setting.linksCost assembly.links + 2)
      (continueLinking visit loader file assembly) := by
  have soundLinks : loader.IsSoundLinks file (fun _ => 0) assembly.links := by
    refine ⟨fun part member watch waiting => ?_, fun target => ?_⟩
    · rw [fresh part member] at waiting
      cases waiting
    · rw [waitingFor_of_fresh fresh]
      exact Nat.zero_le _
  refine (continueLinking_progresses visiting listed serves assembly pace soundLinks
    fun part member => .inl (fresh part member)).resolve_right (not_standsStill rfl ?_)
  refine List.filterMap_eq_nil_iff.mpr fun part member => ?_
  simp [fresh part member, LinkState.watch?]

/-- The references of a sheet are read, and begin. -/
theorem link_progresses {visit : Visit} (visiting : loader.IsVisiting visited file depth)
    (listed : file ∈ loader.importer.files) (serves : visit.poll.Serves depth)
    (statements : List ReferenceStatement) (draft : Draft) (dependencies : List String) :
    loader.Progresses visited file
      ((statements.map (loader.setting.referenceCost file)).sum + Setting.failing)
      (match readLinks file statements loader with
      | (loader, .error error) => loader.fail error
      | (loader, .ok links) =>
        continueLinking visit (loader.openJoin links.length).1 file
          ⟨draft, dependencies, (loader.openJoin links.length).2, links⟩) := by
  obtain ⟨moved, cost, read⟩ := @readLinks_eq loader visited file visiting.sound statements
  generalize readLinks file statements loader = result at *
  obtain ⟨now, outcome⟩ := result
  dsimp only at *
  cases outcome with
  | error error =>
    refine fail_progresses_after visiting.sound moved error ?_
    simp only [Setting.failing]
    omega
  | ok links =>
    obtain ⟨fresh, costLinks⟩ := read links rfl
    have join : now.openJoin links.length = (now, .together) := by
      rw [openJoin, if_pos (moved.sound.together _)]
    have listedNow : file ∈ now.importer.files := by
      rw [importer_eq_of_setting moved.setting]
      exact listed
    have linking := continueLinking_progresses_of_fresh (visiting.moved moved) listedNow serves
      ⟨draft, dependencies, .together, links⟩ rfl fresh
    rw [moved.setting] at linking
    dsimp only
    rw [join]
    refine linking.after visiting.sound moved ?_
    simp only [Setting.failing]
    omega

theorem build_progresses {visit : Visit} (visiting : loader.IsVisiting visited file depth)
    (listed : file ∈ loader.importer.files) (serves : visit.poll.Serves depth)
    (contents defaultName : String) (dependencies : List String) :
    loader.Progresses visited file (loader.setting.buildCost file contents)
      (build visit loader file contents defaultName dependencies) := by
  have noted : loader.SameLoads { loader with built := loader.built ++ [visit.task] } :=
    ⟨rfl, rfl, rfl, rfl, rfl, rfl, rfl, rfl⟩
  have begun : loader.Moved visited { loader with built := loader.built ++ [visit.task] } :=
    .of_sameLoads visiting.sound noted
  refine .after visiting.sound begun ?_ (Nat.add_le_add_right noted.cost.le _)
  rw [build, ← begun.setting]
  replace visiting := visiting.moved begun
  change file ∈ ({ loader with built := loader.built ++ [visit.task] } : Loader).importer.files
    at listed
  generalize { loader with built := loader.built ++ [visit.task] } = loader at *
  rw [assemble, Setting.buildCost]
  dsimp only
  have importer : loader.setting.importer = loader.importer := rfl
  rw [importer]
  cases parsed : parseSheet contents (loader.importer.debugIdentifier file) with
  | error error => exact fail_progresses visiting.sound _ (by simp [Setting.failing])
  | ok sheet =>
    dsimp only
    cases drafted : Draft.ofSheet sheet file (loader.importer.debugIdentifier file) defaultName with
    | error error => exact fail_progresses visiting.sound _ (by simp [Setting.failing])
    | ok draft =>
      have links := link_progresses visiting listed serves sheet.references draft dependencies
      dsimp only
      generalize readLinks file sheet.references loader = result at *
      obtain ⟨now, outcome⟩ := result
      cases outcome with
      | error error => exact links
      | ok read => exact links

/-! From a file to a plain sheet -/

/-- Work that waits for a run and goes on with what the run makes. -/
theorem progresses_of_run (sound : loader.Sound) {step : RunStep Processed} {run : Run Processed}
    (same : loader.SameLoads other)
    (cases : (∃ later, step = .more later ∧ later.job.outcome = run.job.outcome ∧
        later.left < run.left) ∨
      (step = .more run ∧ other.queue = loader.queue ∧ run.IsQueued loader.queue) ∨
      (∃ error, step = .done (.error error)) ∨
      ∃ processed, step = .done (.ok processed) ∧ run.job.outcome = .ok processed)
    {work : Run Processed → Work} {next : Processed → Nat} {result : Loader × WorkStep}
    (more : ∀ later, step = .more later → result = (other, .more (work later)))
    (failed : ∀ error, step = .done (.error error) → result = other.fail error)
    (ended : ∀ processed, step = .done (.ok processed) →
      other.Progresses visited file (next processed) result)
    (workCost : ∀ run, loader.setting.workCost file (work run) = Setting.runCost run next)
    (soundWork : ∀ run, other.IsSoundWork file (work run))
    (ticket : ∀ run (task : Task) slot, task.stage = .active slot (work run) →
      task.ticket? = run.ticket?) :
    loader.Progresses visited file (Setting.runCost run next) result ∨
      loader.StandsStill (work run) result := by
  have cost := same.cost
  have enough := run.two_le_left
  rcases cases with ⟨later, step, outcome, less⟩ | ⟨step, queue, isQueued⟩ | ⟨error, step⟩ |
    ⟨processed, step, outcome⟩
  · rw [more later step]
    refine .inl ⟨.of_sameLoads sound same, ?_, ?_⟩
    · rintro work' ⟨⟩
      exact soundWork later
    · simp only [Setting.stepCost, workCost, Setting.runCost, outcome, cost]
      omega
  · rw [more run step]
    obtain ⟨number, waits, missing⟩ := isQueued
    refine .inr ⟨same, queue, rfl, fun task slot stage => .inl ⟨number, ?_, missing⟩⟩
    rw [ticket run task slot stage, waits]
  · rw [failed error step]
    refine .inl (fail_progresses_after sound (.of_sameLoads sound same) error ?_)
    rw [Setting.runCost]
    omega
  · refine .inl ((ended processed step).after sound (.of_sameLoads sound same) ?_)
    simp only [Setting.runCost, outcome]
    omega

theorem continueChaining_progresses {visit : Visit}
    (visiting : loader.IsVisiting visited file depth) (listed : file ∈ loader.importer.files)
    (serves : visit.poll.Serves depth) {found : ImportedFile} (isFile : found.identifier = file)
    (before : Processed) (run : Run Processed) :
    loader.Progresses visited file (loader.setting.chainingCost found before run)
        (continueChaining visit loader found before run) ∨
      loader.StandsStill (.chaining found before run)
        (continueChaining visit loader found before run) := by
  obtain ⟨same, cases⟩ := pollRun_cases visit loader found.identifier before.sourceMap run
  unfold continueChaining
  generalize pollRun visit loader found.identifier before.sourceMap run = polled at *
  obtain ⟨after, step⟩ := polled
  dsimp only at *
  have visitingAfter := visiting.moved (.of_sameLoads visiting.sound same)
  have listedAfter : file ∈ after.importer.files := by rw [same.importer]; exact listed
  refine progresses_of_run visiting.sound same cases ?_ ?_ ?_ (fun _ => rfl)
    (fun _ => ⟨isFile, listedAfter⟩) ?_
  · rintro later rfl
    rfl
  · rintro error rfl
    rfl
  · rintro processed rfl
    subst isFile
    rw [← same.setting]
    exact build_progresses visitingAfter listedAfter serves ..
  · intro run task slot stage
    rw [Task.ticket?, stage]

theorem chain_progresses {visit : Visit} (visiting : loader.IsVisiting visited file depth)
    (listed : file ∈ loader.importer.files) (serves : visit.poll.Serves depth)
    {found : ImportedFile} (isFile : found.identifier = file) (before : Processed) :
    loader.Progresses visited file (loader.setting.chainCost found before)
      (chain visit loader found before) := by
  have chained : (if found.dialect = .css || !loader.options.disablePreprocessChaining then
      loader.preprocessor? .css else none) = loader.setting.chained? found := rfl
  rw [chain, Setting.chainCost]
  dsimp only
  rw [chained]
  cases loader.setting.chained? found with
  | none =>
    subst isFile
    exact build_progresses visiting listed serves ..
  | some preprocessor =>
    dsimp only
    rcases continueChaining_progresses visiting listed serves isFile before _ with progress | still
    · exact progress.weaken (Nat.le_succ _)
    · exact absurd still (not_standsStill rfl rfl)

theorem continuePreparing_progresses {visit : Visit}
    (visiting : loader.IsVisiting visited file depth) (listed : file ∈ loader.importer.files)
    (serves : visit.poll.Serves depth) {found : ImportedFile} (isFile : found.identifier = file)
    (run : Run Processed) :
    loader.Progresses visited file (loader.setting.preparingCost found run)
        (continuePreparing visit loader found run) ∨
      loader.StandsStill (.preparing found run) (continuePreparing visit loader found run) := by
  obtain ⟨same, cases⟩ := pollRun_cases visit loader found.identifier none run
  unfold continuePreparing
  generalize pollRun visit loader found.identifier none run = polled at *
  obtain ⟨after, step⟩ := polled
  dsimp only at *
  have visitingAfter := visiting.moved (.of_sameLoads visiting.sound same)
  have listedAfter : file ∈ after.importer.files := by rw [same.importer]; exact listed
  refine progresses_of_run visiting.sound same cases ?_ ?_ ?_ (fun _ => rfl)
    (fun _ => ⟨isFile, listedAfter⟩) ?_
  · rintro later rfl
    rfl
  · rintro error rfl
    rfl
  · rintro processed rfl
    rw [← same.setting]
    exact chain_progresses visitingAfter listedAfter serves isFile processed
  · intro run task slot stage
    rw [Task.ticket?, stage]

end StyleBlock.Loader
