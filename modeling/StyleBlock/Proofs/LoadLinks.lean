import StyleBlock.Proofs.LoadMoves

/-!
How the references of a block get on when they are polled: some load gets on, or every reference
that waits does so for a load that waits for permits only.
-/

namespace StyleBlock

open Assembly

/-- A poll of a task lowers what the loads cost, or finds the task waiting for permits only and
leaves everything as it was. -/
structure Loader.IsSoundPoll (loader : Loader) (id : TaskId)
    (result : Loader × Poll (Except Error BlockId)) : Prop where
  moved : loader.Moved id result.1
  ready : ∀ outcome, result.2 = .ready outcome → result.1.cost ≤ loader.cost
  pending : result.2 = .pending →
    (∀ task, loader.tasks[id]? = some task → task.isOver = false) ∧
      (result.1.cost < loader.cost ∨
        loader.SameLoads result.1 ∧ result.1.queue = loader.queue ∧ loader.IsQueued id)

/-- Whether polls do what they should as long as they nest less than so deep. -/
def Poller.Serves (poll : Poller) (depth : Nat) : Prop :=
  ∀ (loader : Loader) (id : TaskId) (task : Task), loader.Sound → loader.tasks[id]? = some task →
    task.stage ≠ .advancing → loader.IsLedTo task.file → loader.nesting < depth →
      loader.IsSoundPoll id (poll loader id)

namespace Loader

/-- A task is being polled, and as long as its file can be read, further polls can nest so deep. -/
structure IsVisiting (loader : Loader) (visited : TaskId) (file : FileId) (depth : Nat) : Prop where
  sound : loader.Sound
  task : ∃ task, loader.tasks[visited]? = some task ∧ task.file = file ∧ task.stage = .advancing
  led : loader.IsLedTo file
  deep : file ∈ loader.importer.files → loader.nesting < depth

theorem IsVisiting.moved {loader other : Loader} {visited : TaskId} {file : FileId} {depth : Nat}
    (visiting : loader.IsVisiting visited file depth) (moved : loader.Moved visited other) :
    other.IsVisiting visited file depth := by
  obtain ⟨sound, ⟨task, found, rfl, advancing⟩, led, deep⟩ := visiting
  refine ⟨moved.sound, moved.exists_advancing sound found advancing,
    led.moved sound found moved, ?_⟩
  rw [importer_eq_of_setting moved.setting]
  exact fun listed => moved.nesting.trans_lt (deep listed)

theorem cost_load (loader : Loader) (sound : loader.Sound) (file : FileId) :
    (loader.load file).1.cost ≤ loader.cost + loader.setting.missingCost file := by
  cases found : loader.loadOf? file with
  | some id =>
    rw [load_of_some found]
    exact Nat.le_add_right ..
  | none =>
    have bound := total_load_of_none loader.setting.stageCost loader.setting.freshCost found
    have setting : (loader.load file).1.setting = loader.setting := by
      rw [load_of_none found]
      rfl
    rw [cost, cost, setting]
    by_cases listed : file ∈ loader.importer.files
    · rw [if_pos listed] at bound
      simp only [Setting.stageCost] at bound
      omega
    · rw [if_neg listed] at bound
      have missing : loader.setting.freshCost file = loader.setting.missingCost file := by
        cases read : loader.importer.read file with
        | error error => exact Setting.freshCost_of_error read
        | ok found => exact absurd (sound.lawful.files file found read) listed
      simp only [Setting.stageCost, missing] at bound
      omega

theorem seat_attend {loader : Loader} {watch : Watch} {task : Task}
    (found : loader.tasks[watch.task]? = some task) (open_ : task.isOver = false)
    (listener : Listener) : (loader.attend watch listener).2.seat.isSome := by
  unfold attend
  rw [found]
  simp only [open_, Bool.false_eq_true, if_false]
  split
  · rfl
  · simp [*]

theorem attend_of_seat {loader : Loader} {watch : Watch} (seated : watch.seat.isSome)
    (listener : Listener) : (loader.attend watch listener).2 = watch := by
  unfold attend
  split
  · rfl
  · split
    · rfl
    · split
      · simp_all
      · rfl

end Loader

namespace Assembly

theorem waitingFor_cons (target : FileId) (part : Link × LinkState)
    (rest : List (Link × LinkState)) :
    waitingFor target (part :: rest) = waitingFor target [part] + waitingFor target rest := by
  rw [← List.singleton_append, waitingFor, List.countP_append]
  rfl

theorem waitingFor_waiting (target : FileId) (link : Link) (watch : Watch) :
    waitingFor target [(link, .waiting watch)] = if link.target = target then 1 else 0 := by
  by_cases same : link.target = target <;> simp [waitingFor, LinkState.watch?, same]

theorem waitingFor_of_no_watch {link : Link} {state : LinkState} (target : FileId)
    (none : state.watch? = none) : waitingFor target [(link, state)] = 0 := by
  simp [waitingFor, none]

end Assembly

/-- A reference that is over does not wait. -/
theorem LinkState.isResting_of_isOver {state : LinkState}
    (begins : state = .fresh ∨ state.IsResting)
    (isOver : state.isOver = true) : state.IsResting ∧ state.watch? = none := by
  cases state <;> simp_all [IsResting, LinkState.isOver, watch?]

namespace Loader

/-- How one reference gets on: its load does, or it stays as it is and waits for permits only. -/
structure IsSoundAdvance (loader : Loader) (visited : TaskId) (file : FileId)
    (others : FileId → Nat) (link : Link) (before : LinkState) (result : Loader × LinkState) :
    Prop where
  moved : loader.Moved visited result.1
  links : result.1.IsSoundLinks file others [(link, result.2)]
  settled : result.2.IsResting ∨ result.2.error?.isSome
  less : result.1.cost + loader.setting.linkCost link.target result.2 <
      loader.cost + loader.setting.linkCost link.target before ∨
    loader.SameLoads result.1 ∧ result.1.queue = loader.queue ∧ result.2 = before ∧
      ∀ watch, before = .waiting watch → loader.IsQueued watch.task

/-- How references get on: some load does, or all stay as they are and wait for permits only. -/
structure IsSoundLinking (loader : Loader) (visited : TaskId) (file : FileId)
    (others : FileId → Nat) (before : List (Link × LinkState))
    (result : Loader × List (Link × LinkState)) : Prop where
  moved : loader.Moved visited result.1
  links : result.1.IsSoundLinks file others result.2
  settled : (∀ part ∈ result.2, part.2.IsResting) ∨ ∃ part ∈ result.2, part.2.error?.isSome
  less : result.1.cost + loader.setting.linksCost result.2 <
      loader.cost + loader.setting.linksCost before ∨
    loader.SameLoads result.1 ∧ result.1.queue = loader.queue ∧ result.2 = before ∧
      ∀ part ∈ before, ∀ watch, part.2 = .waiting watch → loader.IsQueued watch.task

variable {loader other : Loader} {visited : TaskId} {file : FileId} {depth : Nat}
  {others : FileId → Nat} {poll : Poller} {link : Link}

namespace IsSoundAdvance

variable {before : LinkState} {result : Loader × LinkState}

theorem spent (advance : loader.IsSoundAdvance visited file others link before result) :
    result.1.cost + loader.setting.linkCost link.target result.2 ≤
      loader.cost + loader.setting.linkCost link.target before := by
  rcases advance.less with less | ⟨same, _, step, _⟩
  · exact less.le
  · rw [same.cost, step]

/-- Nothing is lost when only the rosters have changed before. -/
theorem of_sameLoads (advance : other.IsSoundAdvance visited file others link before result)
    (sound : loader.Sound) (same : loader.SameLoads other) (queue : other.queue = loader.queue) :
    loader.IsSoundAdvance visited file others link before result where
  moved := (Moved.of_sameLoads sound same).trans sound advance.moved
  links := advance.links
  settled := advance.settled
  less := by
    rw [← same.setting, ← same.cost]
    refine advance.less.imp_right ?_
    rintro ⟨sameLater, queueLater, step, queued⟩
    exact ⟨same.trans sameLater, queueLater.trans queue, step, fun watch waiting =>
      (queued watch waiting).of_sameLoads same.symm queue.symm⟩

end IsSoundAdvance

theorem IsSoundLinking.spent {before : List (Link × LinkState)}
    {result : Loader × List (Link × LinkState)}
    (linking : loader.IsSoundLinking visited file others before result) :
    result.1.cost + loader.setting.linksCost result.2 ≤
      loader.cost + loader.setting.linksCost before := by
  rcases linking.less with less | ⟨same, _, step, _⟩
  · exact less.le
  · rw [same.cost, step]

/-- The task that a reference waits for is polled like any other. -/
theorem isSoundPoll_of_waiting (visiting : loader.IsVisiting visited file depth)
    (listed : file ∈ loader.importer.files) (serves : poll.Serves depth) {watch : Watch}
    (links : loader.IsSoundLinks file others [(link, .waiting watch)]) :
    ¬ loader.IsAdvancing watch.task ∧ loader.IsSoundPoll watch.task (poll loader watch.task) := by
  obtain ⟨task, found, rfl, advancing⟩ := visiting.task
  obtain ⟨inner, foundInner, isTarget⟩ := visiting.sound.tasks _ _
    (links.loads _ List.mem_cons_self watch rfl)
  have entered : loader.waits.Entered task.file inner.file := by
    have enough := links.entries link.target
    rw [waitingFor_waiting, if_pos rfl] at enough
    have positive : 0 < (loader.waits.targets task.file).count link.target := by omega
    rw [isTarget]
    exact List.count_pos_iff.mp positive
  obtain ⟨resting, led⟩ := visiting.led.next visiting.sound found advancing foundInner entered
  refine ⟨resting, serves loader watch.task inner visiting.sound foundInner ?_ led
    (visiting.deep listed)⟩
  exact fun same => resting ⟨inner, foundInner, same⟩

/-- The wait of a reference is over, and its entry is taken out. -/
theorem isSoundLinks_remove (visiting : loader.IsVisiting visited file depth) {watch : Watch}
    (links : loader.IsSoundLinks file others [(link, .waiting watch)]) {state : LinkState}
    (isOver : state.watch? = none) :
    loader.Moved visited { loader with waits := loader.waits.remove file link.target } ∧
      { loader with waits := loader.waits.remove file link.target }.IsSoundLinks file others
        [(link, state)] := by
  obtain ⟨task, found, rfl, advancing⟩ := visiting.task
  refine ⟨Moved.setWaits visiting.sound found advancing (visiting.sound.acyclic.remove _ _)
    fun other notFile => Waits.targets_remove_of_ne notFile, ?_, fun target => ?_⟩
  · rintro part member watch waits
    obtain rfl := List.mem_singleton.mp member
    simp [LinkState.watch?, show state = _ from waits] at isOver
  · have enough := links.entries target
    rw [waitingFor_waiting] at enough
    rw [waitingFor_of_no_watch target isOver, Waits.count_targets_remove]
    omega

/-- Whoever asks a task to be told waits for the same task as before. -/
theorem isSoundLinks_attend {watch : Watch}
    (links : loader.IsSoundLinks file others [(link, .waiting watch)]) (listener : Listener) :
    (loader.attend watch listener).1.IsSoundLinks file others
      [(link, .waiting (loader.attend watch listener).2)] := by
  have attended := SameLoads.of_quiet (quiet_attend loader watch listener)
  refine ⟨fun part member watch' waits => ?_, fun target => ?_⟩
  · obtain rfl := List.mem_singleton.mp member
    cases waits
    rw [task_attend, attended.loadOf?]
    exact links.loads _ List.mem_cons_self watch rfl
  · have enough := links.entries target
    rwa [waitingFor_waiting, ← waitingFor_waiting target link (loader.attend watch listener).2,
      ← attended.waits] at enough

/-- The poll of a task that is at rest keeps the entries of one that is being polled. -/
theorem IsSoundLinks.nested {parts : List (Link × LinkState)} {id : TaskId}
    (links : loader.IsSoundLinks file others parts)
    (visiting : loader.IsVisiting visited file depth)
    (resting : ¬ loader.IsAdvancing id) (moved : loader.Moved id other) :
    other.IsSoundLinks file others parts := by
  obtain ⟨task, found, rfl, advancing⟩ := visiting.task
  refine links.later moved.loads fun target => ?_
  rw [moved.targets visited task ?_ found advancing]
  rintro rfl
  exact resting ⟨task, found, advancing⟩

/-- A reference goes on waiting for a task that has a seat for it. -/
theorem isSoundAdvance_of_pending (visiting : loader.IsVisiting visited file depth) {watch : Watch}
    (links : loader.IsSoundLinks file others [(link, .waiting watch)])
    (resting : ¬ loader.IsAdvancing watch.task)
    (polled : loader.IsSoundPoll watch.task (other, .pending)) (seated : watch.seat.isSome) :
    loader.IsSoundAdvance visited file others link (.waiting watch) (other, .waiting watch) where
  moved := polled.moved.nested resting
  links := links.nested visiting resting polled.moved
  settled := .inl seated
  less := by
    refine (polled.pending rfl).2.imp (fun less => Nat.add_lt_add_right less _) ?_
    rintro ⟨same, queue, queued⟩
    refine ⟨same, queue, rfl, ?_⟩
    rintro _ ⟨⟩
    exact queued

/-- A reference is over with the task that it waits for. -/
theorem isSoundAdvance_of_ready (visiting : loader.IsVisiting visited file depth) {watch : Watch}
    (links : loader.IsSoundLinks file others [(link, .waiting watch)])
    (resting : ¬ loader.IsAdvancing watch.task) {outcome : Except Error BlockId}
    (polled : loader.IsSoundPoll watch.task (other, .ready outcome)) {state : LinkState}
    (settled : state.IsResting ∨ state.error?.isSome) (isOver : state.watch? = none)
    (free : loader.setting.linkCost link.target state = 0) :
    loader.IsSoundAdvance visited file others link (.waiting watch)
      ({ other with waits := other.waits.remove file link.target }, state) := by
  have moved : loader.Moved visited other := polled.moved.nested resting
  obtain ⟨movedLast, linksLast⟩ := isSoundLinks_remove (visiting.moved moved)
    (links.nested visiting resting polled.moved) isOver
  refine ⟨moved.trans visiting.sound movedLast, linksLast, settled, .inl ?_⟩
  have spent : other.cost ≤ loader.cost := polled.ready outcome rfl
  calc other.cost + loader.setting.linkCost link.target state
    _ = other.cost := by rw [free, Nat.add_zero]
    _ < loader.cost + 1 := Nat.lt_succ_of_le spent

/-- A reference that waits, on its next poll. -/
theorem pollAwaited_sound (visiting : loader.IsVisiting visited file depth)
    (listed : file ∈ loader.importer.files) (serves : poll.Serves depth) {watch : Watch}
    (links : loader.IsSoundLinks file others [(link, .waiting watch)]) (listener : Listener) :
    loader.IsSoundAdvance visited file others link (.waiting (loader.attend watch listener).2)
      (pollAwaited poll file link.target loader listener watch) := by
  have attended := SameLoads.of_quiet (quiet_attend loader watch listener)
  have visitingNow := visiting.moved (.of_sameLoads visiting.sound attended)
  have linksNow := isSoundLinks_attend links listener
  obtain ⟨resting, polled⟩ :=
    isSoundPoll_of_waiting visitingNow (attended.importer ▸ listed) serves linksNow
  refine IsSoundAdvance.of_sameLoads ?_ visiting.sound attended
    (queue_eq_of_quiet (quiet_attend loader watch listener))
  unfold pollAwaited
  dsimp only
  generalize poll (loader.attend watch listener).1 (loader.attend watch listener).2.task = answer
    at polled ⊢
  obtain ⟨after, answered⟩ := answer
  cases answered with
  | ready outcome =>
    cases outcome with
    | ok id =>
      exact isSoundAdvance_of_ready visitingNow linksNow resting polled (.inl trivial) rfl rfl
    | error error =>
      exact isSoundAdvance_of_ready visitingNow linksNow resting polled (.inr rfl) rfl rfl
  | pending =>
    -- a task that is not over has given a seat to whoever asked
    obtain ⟨inner, found, _⟩ := visiting.sound.tasks _ _
      (links.loads _ List.mem_cons_self watch rfl)
    obtain ⟨again, foundAgain, alone⟩ := attended.exists_task found
    have isOpen := (polled.pending rfl).1 again (by rwa [task_attend])
    rw [Task.isOver, Task.stage_eq_of_alone alone] at isOpen
    exact isSoundAdvance_of_pending visitingNow linksNow resting polled
      (seat_attend found isOpen listener)

theorem sameLoads_reserve (loader : Loader) (id : FileId) :
    loader.SameLoads (loader.reserve id).1 := by
  unfold reserve
  split
  · exact .refl loader
  · exact ⟨rfl, rfl, rfl, rfl, rfl, rfl, rfl, rfl⟩

/-- An entry is made for a reference before its load is begun. -/
theorem isSoundLinks_begin (visiting : loader.IsVisiting visited file depth)
    (links : loader.IsSoundLinks file others [(link, .fresh)])
    (noWay : loader.waits.reaches link.target file = false) :
    let begun := ({ loader with waits := loader.waits.add file link.target }.load link.target)
    loader.Moved visited begun.1 ∧
      begun.1.cost ≤ loader.cost + loader.setting.missingCost link.target ∧
      begun.1.IsSoundLinks file others [(link, .waiting ⟨begun.2, none⟩)] := by
  obtain ⟨task, found, rfl, advancing⟩ := visiting.task
  have noCycle : ¬ loader.waits.Leads link.target task.file := by
    intro way
    rw [Waits.reaches_of_leads way] at noWay
    cases noWay
  have entered :
      loader.Moved visited { loader with waits := loader.waits.add task.file link.target } := by
    refine Moved.setWaits visiting.sound found advancing (visiting.sound.acyclic.add noCycle) ?_
    intro other notFile
    rw [Waits.targets_add, if_neg (Ne.symm notFile), List.append_nil]
  obtain ⟨begun, load⟩ := @Moved.load visited _ entered.sound link.target
  have waits : ({ loader with waits := loader.waits.add task.file link.target }.load
      link.target).1.waits = loader.waits.add task.file link.target := by
    unfold Loader.load
    split <;> rfl
  have cost := cost_load _ entered.sound link.target
  refine ⟨entered.trans visiting.sound begun, cost, ?_, fun target => ?_⟩
  · intro part member watch waiting
    obtain rfl := List.mem_singleton.mp member
    cases waiting
    exact load
  · have enough := links.entries target
    rw [waitingFor_of_no_watch target rfl] at enough
    rw [waits, waitingFor_waiting, Waits.targets_add, if_pos rfl, List.count_append,
      List.count_singleton]
    by_cases same : link.target = target <;> simp [same] <;> omega

/-- A reference that is not over, on its next poll. -/
theorem pollLink_sound (visiting : loader.IsVisiting visited file depth)
    (listed : file ∈ loader.importer.files) (serves : poll.Serves depth) {state : LinkState}
    (links : loader.IsSoundLinks file others [(link, state)])
    (begins : state = .fresh ∨ state.IsResting) (unfinished : state.isOver = false)
    (listener : Listener) :
    loader.IsSoundAdvance visited file others link state
      (pollLink poll file loader listener link state) := by
  cases state with
  | linked id => cases unfinished
  | failed error => cases unfinished
  | waiting watch =>
    have seated : watch.seat.isSome := by simpa [LinkState.IsResting] using begins
    have advance := pollAwaited_sound visiting listed serves links listener
    rwa [attend_of_seat seated] at advance
  | fresh =>
    cases noWay : loader.waits.reaches link.target file with
    | true =>
      have same := sameLoads_reserve loader link.target
      have found : pollLink poll file loader listener link .fresh =
          ((loader.reserve link.target).1, .linked (loader.reserve link.target).2) := by
        simp only [pollLink, noWay, if_true]
      rw [found]
      refine ⟨.of_sameLoads visiting.sound same, ⟨?_, fun target => ?_⟩, .inl trivial, .inl ?_⟩
      · intro part member watch waiting
        obtain rfl := List.mem_singleton.mp member
        cases waiting
      · have enough := links.entries target
        rw [waitingFor_of_no_watch target rfl] at enough ⊢
        rwa [same.waits]
      · have cost := same.cost
        simp only [Setting.linkCost, cost]
        omega
    | false =>
      obtain ⟨moved, cost, linksBegun⟩ := isSoundLinks_begin visiting links noWay
      have begun : pollLink poll file loader listener link .fresh =
          pollAwaited poll file link.target
            ({ loader with waits := loader.waits.add file link.target }.load link.target).1 listener
            ⟨({ loader with waits := loader.waits.add file link.target }.load link.target).2,
              none⟩ := by
        simp [pollLink, noWay]
      rw [begun]
      generalize { loader with waits := loader.waits.add file link.target }.load link.target = start
        at *
      have listedNow : file ∈ start.1.importer.files := by
        rw [importer_eq_of_setting moved.setting]
        exact listed
      have advance := pollAwaited_sound (visiting.moved moved) listedNow serves linksBegun listener
      have spent := advance.spent
      refine ⟨moved.trans visiting.sound advance.moved, advance.links, advance.settled, .inl ?_⟩
      rw [moved.setting] at spent
      simp only [Setting.linkCost] at spent ⊢
      omega

/-! All references of a block -/

theorem isSoundLinks_cons {part : Link × LinkState} {rest : List (Link × LinkState)} :
    loader.IsSoundLinks file others (part :: rest) ↔
      loader.IsSoundLinks file (fun target => others target + waitingFor target rest) [part] ∧
        loader.IsSoundLinks file (fun target => others target + waitingFor target [part]) rest := by
  constructor
  · intro sound
    refine ⟨⟨fun other member => sound.loads other ?_, fun target => ?_⟩,
      ⟨fun other member => sound.loads other (List.mem_cons_of_mem _ member), fun target => ?_⟩⟩
    · exact List.mem_cons.mpr (.inl (List.mem_singleton.mp member))
    · have enough := sound.entries target
      rw [waitingFor_cons] at enough
      omega
    · have enough := sound.entries target
      rw [waitingFor_cons] at enough
      omega
  · rintro ⟨first, later⟩
    refine ⟨fun other member => ?_, fun target => ?_⟩
    · rcases List.mem_cons.mp member with rfl | member
      · exact first.loads _ List.mem_cons_self
      · exact later.loads other member
    · have enough := first.entries target
      rw [waitingFor_cons]
      omega

theorem linksCost_cons (setting : Setting) (link : Link) (state : LinkState)
    (rest : List (Link × LinkState)) :
    setting.linksCost ((link, state) :: rest) =
      setting.linkCost link.target state + setting.linksCost rest := by
  simp [Setting.linksCost]

theorem IsSoundLinks.moved {links : List (Link × LinkState)}
    (sound : loader.IsSoundLinks file others links) {others' : FileId → Nat}
    (moved : loader.Moved visited other)
    (entries : ∀ target, others' target + waitingFor target links ≤
      (other.waits.targets file).count target) : other.IsSoundLinks file others' links :=
  ⟨fun part member watch waits => moved.loads _ _ (sound.loads part member watch waits), entries⟩

/-- A reference that is over stays in front of those that are polled. -/
theorem IsSoundLinking.cons_of_isOver {state : LinkState} {rest : List (Link × LinkState)}
    {result : Loader × List (Link × LinkState)}
    (linking : loader.IsSoundLinking visited file
      (fun target => others target + waitingFor target [(link, state)]) rest result)
    (resting : state.IsResting) (isOver : state.watch? = none) :
    loader.IsSoundLinking visited file others ((link, state) :: rest)
      (result.1, (link, state) :: result.2) where
  moved := linking.moved
  links := by
    refine isSoundLinks_cons.mpr ⟨⟨?_, fun target => ?_⟩, linking.links⟩
    · intro part member watch waiting
      obtain rfl := List.mem_singleton.mp member
      simp [LinkState.watch?, show state = _ from waiting] at isOver
    · have enough := linking.links.entries target
      rw [waitingFor_of_no_watch target isOver] at enough ⊢
      exact enough
  settled := linking.settled.imp (fun all => List.forall_mem_cons.mpr ⟨resting, all⟩)
    fun ⟨part, member, failed⟩ => ⟨part, List.mem_cons_of_mem _ member, failed⟩
  less := by
    rcases linking.less with less | ⟨same, queue, step, queued⟩
    · refine .inl ?_
      simp only [linksCost_cons]
      omega
    · refine .inr ⟨same, queue, congrArg _ step, List.forall_mem_cons.mpr ⟨?_, queued⟩⟩
      intro watch waiting
      simp [LinkState.watch?, show state = _ from waiting] at isOver

namespace IsSoundAdvance

variable {state : LinkState} {rest : List (Link × LinkState)} {result : Loader × LinkState}

/-- The references behind one that has been polled, as long as they have not. -/
theorem isSoundLinks_rest
    (advance : loader.IsSoundAdvance visited file
      (fun target => others target + waitingFor target rest) link state result)
    (links : loader.IsSoundLinks file
      (fun target => others target + waitingFor target [(link, state)]) rest) :
    result.1.IsSoundLinks file
      (fun target => others target + waitingFor target [(link, result.2)]) rest := by
  refine links.moved advance.moved fun target => ?_
  have enough := advance.links.entries target
  omega

/-- A failure ends the poll of all references. -/
theorem isSoundLinking_of_failed
    (advance : loader.IsSoundAdvance visited file
      (fun target => others target + waitingFor target rest) link state result)
    (links : result.1.IsSoundLinks file
      (fun target => others target + waitingFor target [(link, result.2)]) rest)
    (unfinished : state.isOver = false) (failed : result.2.error?.isSome) :
    loader.IsSoundLinking visited file others ((link, state) :: rest)
      (result.1, (link, result.2) :: rest) where
  moved := advance.moved
  links := isSoundLinks_cons.mpr ⟨advance.links, links⟩
  settled := .inr ⟨_, List.mem_cons_self, failed⟩
  less := by
    rcases advance.less with less | ⟨_, _, step, _⟩
    · refine .inl ?_
      simp only [linksCost_cons]
      omega
    · rw [step] at failed
      cases state <;> simp_all [LinkState.isOver, LinkState.error?]

/-- After a reference that has not failed the others are polled. -/
theorem isSoundLinking_cons {last : Loader × List (Link × LinkState)}
    (advance : loader.IsSoundAdvance visited file
      (fun target => others target + waitingFor target rest) link state result)
    (sound : loader.Sound) (resting : result.2.IsResting)
    (linking : result.1.IsSoundLinking visited file
      (fun target => others target + waitingFor target [(link, result.2)]) rest last) :
    loader.IsSoundLinking visited file others ((link, state) :: rest)
      (last.1, (link, result.2) :: last.2) where
  moved := advance.moved.trans sound linking.moved
  links := by
    refine isSoundLinks_cons.mpr ⟨advance.links.moved linking.moved fun target => ?_, linking.links⟩
    dsimp only
    have enough := linking.links.entries target
    omega
  settled := linking.settled.imp (fun all => List.forall_mem_cons.mpr ⟨resting, all⟩)
    fun ⟨part, member, failed⟩ => ⟨part, List.mem_cons_of_mem _ member, failed⟩
  less := by
    have spent := linking.spent
    have less := linking.less
    rw [advance.moved.setting] at spent less
    simp only [linksCost_cons]
    rcases advance.less with lessFirst | ⟨same, queue, step, queued⟩
    · exact .inl (by omega)
    have cost := same.cost
    rw [step]
    rcases less with less | ⟨sameLast, queueLast, stepLast, queuedLast⟩
    · exact .inl (by omega)
    · refine .inr ⟨same.trans sameLast, queueLast.trans queue, congrArg _ stepLast,
        List.forall_mem_cons.mpr ⟨queued, fun part member watch waiting => ?_⟩⟩
      exact (queuedLast part member watch waiting).of_sameLoads same.symm queue.symm

end IsSoundAdvance

theorem pollTogether_sound (visiting : loader.IsVisiting visited file depth)
    (listed : file ∈ loader.importer.files) (serves : poll.Serves depth)
    {parts : List (Link × LinkState)} (links : loader.IsSoundLinks file others parts)
    (begins : ∀ part ∈ parts, part.2 = .fresh ∨ part.2.IsResting) (listener : Listener) :
    loader.IsSoundLinking visited file others parts
      ((linkParts poll file).pollTogether listener parts loader) := by
  induction parts generalizing loader others with
  | nil =>
    exact ⟨.refl visiting.sound, links, .inl (by simp [Parts.pollTogether]),
      .inr ⟨.refl loader, rfl, rfl, by simp⟩⟩
  | cons part rest ih =>
    obtain ⟨link, state⟩ := part
    obtain ⟨linksFirst, linksRest⟩ := isSoundLinks_cons.mp links
    obtain ⟨beginsFirst, beginsRest⟩ := List.forall_mem_cons.mp begins
    rw [Parts.pollTogether]
    cases unfinished : state.isOver with
    | true =>
      obtain ⟨resting, noWatch⟩ := LinkState.isResting_of_isOver beginsFirst unfinished
      have isOver : (linkParts poll file).isOver (link, state) = true := unfinished
      rw [if_pos isOver]
      exact (ih visiting listed linksRest beginsRest).cons_of_isOver resting noWatch
    | false =>
      have notOver : ¬ (linkParts poll file).isOver (link, state) = true := by
        simpa [linkParts] using unfinished
      have advance :=
        pollLink_sound visiting listed serves linksFirst beginsFirst unfinished listener
      have linksAfter := advance.isSoundLinks_rest linksRest
      have step : (linkParts poll file).poll loader listener (link, state) =
          ((pollLink poll file loader listener link state).1,
            (link, (pollLink poll file loader listener link state).2)) := rfl
      rw [if_neg notOver, step]
      generalize pollLink poll file loader listener link state = result at *
      cases failed : result.2.error?.isSome with
      | true =>
        have fatal : (linkParts poll file).isFatal (link, result.2) = true := failed
        simp only [if_pos fatal]
        exact advance.isSoundLinking_of_failed linksAfter unfinished failed
      | false =>
        have notFatal : ¬ (linkParts poll file).isFatal (link, result.2) = true := by
          simpa [linkParts] using failed
        simp only [if_neg notFatal]
        have resting : result.2.IsResting := by simpa [failed] using advance.settled
        have listedAfter : file ∈ result.1.importer.files := by
          rw [importer_eq_of_setting advance.moved.setting]
          exact listed
        exact advance.isSoundLinking_cons visiting.sound resting
          (ih (visiting.moved advance.moved) listedAfter linksAfter beginsRest)

end Loader

end StyleBlock
