import StyleBlock.Proofs.FailedCalls
import StyleBlock.Proofs.WaitingLoads

/-!
The numbers in the names of blocks. A name is claimed when its block is put into its slot, and given
back when the block does not stay there; no other load does anything in between. So as long as no
file is loaded twice, the count of a name is the number of stored blocks that declared it, and these
are numbered from one on in the order in which they were completed.
-/

namespace StyleBlock

namespace Graph

/-- The name of a stored block. -/
def name? (graph : Graph) (id : BlockId) : Option String := (graph.block? id).map Block.name

theorem block?_insert_self {graph : Graph} {slot : BlockId} (below : slot.slot < graph.slots.size)
    (block : Block) : (graph.insert slot block).block? slot = some block := by
  simp [block?, insert, below]

end Graph

/-! Stored blocks and their numbers -/

/-- The slots of the blocks that declared a name, in the order in which they were completed. -/
def slotsOf (completed : List (BlockId × String)) (declared : String) : List BlockId :=
  (completed.filter fun entry => entry.2 = declared).map Prod.fst

theorem slotsOf_concat (completed : List (BlockId × String)) (slot : BlockId)
    (name declared : String) : slotsOf (completed ++ [(slot, name)]) declared =
      slotsOf completed declared ++ if name = declared then [slot] else [] := by
  by_cases same : name = declared <;> simp [slotsOf, same]

theorem mem_of_mem_slotsOf {completed : List (BlockId × String)} {declared : String} {id : BlockId}
    (member : id ∈ slotsOf completed declared) : id ∈ completed.map Prod.fst := by
  obtain ⟨entry, found, same⟩ := List.mem_map.mp member
  exact List.mem_map.mpr ⟨entry, List.mem_of_mem_filter found, same⟩

/-- Whether the completed blocks are the stored ones, each of them once, and those that declared a
name have the numbers from one up to the count of the name, in order. -/
structure AreNumbered (completed : List (BlockId × String)) (graph : Graph) (names : NameCounts) :
    Prop where
  single : (completed.map Prod.fst).Nodup
  stored : ∀ id, graph.isComplete id = true ↔ id ∈ completed.map Prod.fst
  named : ∀ declared, (slotsOf completed declared).map graph.name? =
    (List.range (names.count declared)).map fun index =>
      some (NameCounts.numbered declared (index + 1))

namespace AreNumbered

variable {completed : List (BlockId × String)} {graph other : Graph} {names more : NameCounts}

theorem empty : AreNumbered [] .empty .empty where
  single := List.nodup_nil
  stored id := by simp [Graph.isComplete, Graph.block?, Graph.empty]
  named declared := rfl

theorem count (numbered : AreNumbered completed graph names) (declared : String) :
    names.count declared = (slotsOf completed declared).length := by
  have lengths := congrArg List.length (numbered.named declared)
  rw [List.length_map, List.length_map, List.length_range] at lengths
  exact lengths.symm

theorem of_same (numbered : AreNumbered completed graph names)
    (same : ∀ id, other.block? id = graph.block? id)
    (counts : more.count = names.count) : AreNumbered completed other more where
  single := numbered.single
  stored id := by
    rw [Graph.isComplete, same]
    exact numbered.stored id
  named declared := by
    have names : other.name? = graph.name? :=
      funext fun id => congrArg (Option.map Block.name) (same id)
    rw [counts, names]
    exact numbered.named declared

/-- The next block gets the next number. -/
theorem store (numbered : AreNumbered completed graph names) {slot : BlockId} {block : Block}
    {declared : String} (below : slot.slot < graph.slots.size) (vacant : graph.block? slot = none)
    (named : block.name = (names.claim declared).2) :
    AreNumbered (completed ++ [(slot, declared)]) (graph.insert slot block)
      (names.claim declared).1 := by
  have outside : slot ∉ completed.map Prod.fst := by
    intro inside
    obtain ⟨found, stored⟩ := Graph.isComplete_iff.mp ((numbered.stored slot).mpr inside)
    rw [vacant] at stored
    cases stored
  -- the blocks that were completed before are in other slots
  have kept : ∀ id ∈ completed.map Prod.fst,
      (graph.insert slot block).block? id = graph.block? id := by
    intro id inside
    apply Graph.block?_insert_of_ne
    rintro rfl
    exact outside inside
  have own : (graph.insert slot block).name? slot = some (names.claim declared).2 := by
    rw [Graph.name?, Graph.block?_insert_self below, Option.map_some, named]
  have others : ∀ other, (slotsOf completed other).map (graph.insert slot block).name? =
      (slotsOf completed other).map graph.name? := fun other =>
    List.map_congr_left fun id inside =>
      congrArg (Option.map Block.name) (kept id (mem_of_mem_slotsOf inside))
  refine ⟨?_, fun id => ?_, fun other => ?_⟩
  · rw [List.map_append, List.nodup_append]
    refine ⟨numbered.single, List.nodup_singleton _, fun id old last new same => ?_⟩
    rw [same, List.mem_singleton.mp new] at old
    exact outside old
  · rw [List.map_append, List.mem_append, ← numbered.stored, Graph.isComplete, Graph.isComplete]
    by_cases same : id = slot
    · simp [same, Graph.block?_insert_self below]
    · simp [same, Graph.block?_insert_of_ne same]
  · rw [slotsOf_concat, List.map_append, others, numbered.named, NameCounts.count_claim]
    by_cases same : declared = other
    · subst same
      rw [if_pos rfl, if_pos rfl, List.range_succ, List.map_append, List.map_singleton, own]
      rfl
    · rw [if_neg same, if_neg (Ne.symm same)]
      simp

end AreNumbered

namespace Loader

variable {Named : FileId → FileId → Prop} {start loader other : Loader}
  {flights more held rest : List Flight}

/-! What does not touch names -/

/-- Whether two states of a loader have the same blocks, counts of names and completed blocks. -/
structure SameNames (loader other : Loader) : Prop where
  block? : ∀ id, other.graph.block? id = loader.graph.block? id
  count : other.names.count = loader.names.count
  completed : other.completed = loader.completed

theorem sameNames_reserve (loader : Loader) (file : FileId) :
    loader.SameNames (loader.reserve file).1 := by
  refine ⟨block?_reserve loader file, ?_, ?_⟩
  · unfold reserve
    split <;> rfl
  · unfold reserve
    split <;> rfl

theorem sameNames_load (loader : Loader) (file : FileId) :
    loader.SameNames (loader.load file).1 := by
  unfold load
  split <;> exact ⟨fun _ => rfl, rfl, rfl⟩

theorem sameNames_publish (loader : Loader) (origin : Origin) (file : FileId) (id : TaskId) :
    loader.SameNames (loader.publish origin file id) := by
  cases origin <;> exact ⟨fun _ => rfl, rfl, rfl⟩

/-! One load for each file -/

/-- The slot that a load is on its way to is empty if no other load is one of its file. -/
theorem IsOrderly.vacant {file : FileId} {origin : Origin} {slot : BlockId} {base : Option BlockId}
    {targets : Multiset FileId}
    (orderly : loader.IsOrderly (⟨file, origin, .filling slot base targets⟩ :: rest))
    (distinct : file ∉ rest.map Flight.file) : loader.graph.block? slot = none := by
  by_contra full
  obtain ⟨block, stored⟩ := Option.ne_none_iff_exists'.mp full
  obtain ⟨flight, member, filled⟩ := orderly.filled slot (Graph.isComplete_iff.mpr ⟨block, stored⟩)
  rcases List.mem_cons.mp member with isFirst | isOther
  · rw [isFirst] at filled
    cases filled
  · -- a slot belongs to one file, and so do all loads that fill it
    have own := orderly.placed _ List.mem_cons_self slot rfl
    have others := orderly.placed flight member slot (Flight.slot_of_filled filled)
    have same := List.inj_on_of_nodup_map orderly.single own others rfl
    exact distinct (List.mem_map.mpr ⟨flight, isOther, (congrArg Prod.fst same).symm⟩)

/-- Whether, as long as each file has one load, the blocks that were completed after the first ones
are those that are stored, and have their numbers in order. -/
structure KeepsCount (first : List (BlockId × String)) (loader : Loader) (flights : List Flight) :
    Prop where
  orderly : loader.IsOrderly flights
  numbered : (flights.map Flight.file).Nodup → ∃ completed,
    loader.completed = first ++ completed ∧ AreNumbered completed loader.graph loader.names

namespace KeepsCount

variable {first : List (BlockId × String)}

theorem of_same (keeps : KeepsCount first loader flights) (orderly : other.IsOrderly more)
    (same : loader.SameNames other)
    (distinct : (more.map Flight.file).Nodup → (flights.map Flight.file).Nodup) :
    KeepsCount first other more := by
  refine ⟨orderly, fun single => ?_⟩
  obtain ⟨completed, split, numbered⟩ := keeps.numbered (distinct single)
  exact ⟨completed, same.completed.trans split, numbered.of_same same.block? same.count⟩

/-- A load is on its way to a slot of which no other load is. -/
theorem vacant {file : FileId} {origin : Origin} {slot : BlockId} {base : Option BlockId}
    {targets : Multiset FileId}
    (keeps : KeepsCount first loader (⟨file, origin, .filling slot base targets⟩ :: rest))
    (distinct : (file :: rest.map Flight.file).Nodup) :
    slot.slot < loader.graph.slots.size ∧ loader.graph.block? slot = none :=
  ⟨keeps.orderly.below _ (keeps.orderly.placed _ List.mem_cons_self slot rfl),
    keeps.orderly.vacant (List.nodup_cons.mp distinct).1⟩

end KeepsCount

theorem isKeptOn_keepsCount (Named : FileId → FileId → Prop) (first : List (BlockId × String)) :
    IsKeptOn Named (KeepsCount first) := by
  have kept := isKeptOn_isOrderly Named
  have same : ∀ loader : Loader, loader.SameNames loader :=
    fun _ => ⟨fun _ => rfl, rfl, rfl⟩
  exact {
    keep := fun same perm keeps =>
      keeps.of_same (kept.keep same perm keeps.orderly)
        ⟨fun _ => by rw [same.graph], same.names, same.completed⟩
        fun distinct => ((perm.map _).nodup_iff).mpr distinct
    reserve := fun file keeps =>
      keeps.of_same (kept.reserve file keeps.orderly) (sameNames_reserve ..) id
    load := fun new keeps =>
      keeps.of_same (kept.load new keeps.orderly) (sameNames_load ..) List.Nodup.of_cons
    begin := fun keeps => keeps.of_same (kept.begin keeps.orderly) (sameNames_reserve ..) id
    wait := fun named free keeps =>
      keeps.of_same (kept.wait named free keeps.orderly) ⟨fun _ => rfl, rfl, rfl⟩ id
    arrive := fun named keeps =>
      keeps.of_same (kept.arrive named keeps.orderly) ⟨fun _ => rfl, rfl, rfl⟩ id
    fail := fun error keeps => keeps.of_same (kept.fail error keeps.orderly) (same _) id
    store := fun {loader _ _ _ _ _ _ _} based numbered keeps => by
      refine ⟨kept.store based numbered keeps.orderly, fun distinct => ?_⟩
      obtain ⟨completed, split, names⟩ := keeps.numbered distinct
      obtain ⟨below, vacant⟩ := keeps.vacant distinct
      refine ⟨_, ?_, names.store below vacant numbered⟩
      rw [split, List.append_assoc]
    withdraw := fun incomplete keeps => by
      refine ⟨kept.withdraw incomplete keeps.orderly, fun distinct => ?_⟩
      obtain ⟨completed, split, names⟩ := keeps.numbered distinct
      have vacant := (keeps.vacant distinct).2
      exact ⟨completed, split, names.of_same (Graph.block?_remove_of_vacant vacant) rfl⟩
    finish := fun id keeps =>
      keeps.of_same (kept.finish id keeps.orderly) (sameNames_publish ..) fun distinct => distinct
    drop := fun isOpen keeps => keeps.of_same (kept.drop isOpen keeps.orderly) (same _) id
    give := fun file contents defaultName keeps =>
      keeps.of_same (kept.give file contents defaultName keeps.orderly)
        ⟨fun _ => rfl, rfl, rfl⟩ List.Nodup.of_cons }

/-! Since nothing was stored -/

/-- Whether nothing is stored, no slot and no name is given away, and no load is in progress. -/
structure IsUnused (loader : Loader) : Prop extends loader.IsVacant where
  names : loader.names = .empty

theorem isUnused_ofImporter (options : Options) (importer : Importer) :
    (ofImporter options importer).IsUnused :=
  ⟨isVacant_ofImporter options importer, rfl⟩

/-- A reset while no load is in progress gives all names back. -/
theorem isUnused_reset (still : loader.IsStill) : loader.reset.IsUnused := by
  refine ⟨isVacant_reset still, ?_⟩
  unfold reset
  rw [sweep_of_still]
  exact still

theorem IsStill.files (still : loader.IsStill) :
    loader.flights.map Flight.file = loader.taskFiles := by
  have each : ∀ task ∈ loader.tasks.toList, task.flights.map Flight.file = [task.file] := by
    intro task inside
    obtain ⟨id, found⟩ := List.mem_iff_getElem?.mp inside
    have isOver := still id task (by simpa using found)
    unfold Task.isOver at isOver
    unfold Task.flights
    cases stage : task.stage with
    | finished | dropped => rfl
    | fresh | active | advancing =>
      rw [stage] at isOver
      cases isOver
  rw [flights, List.map_flatMap, List.flatMap_congr each, ← List.map_eq_flatMap, taskFiles]

/-- The files whose loads have begun since an earlier state, each as often as that. -/
def filesSince (start loader : Loader) : List FileId := loader.taskFiles.drop start.tasks.size

/-- Tasks keep their files and their places. -/
theorem Since.taskFiles_eq (since : Since Named start loader held) (named : start.IsNamed Named) :
    loader.taskFiles = start.taskFiles ++ start.filesSince loader := by
  let Related (first second : Loader) : Prop := ∀ (id : TaskId) (task : Task),
    first.tasks[id]? = some task → ∃ again, second.tasks[id]? = some again ∧ again.file = task.file
  have trans : ∀ {first second third : Loader}, Related first second → Related second third →
      Related first third := by
    intro first second third one other id task found
    obtain ⟨again, foundAgain, same⟩ := one id task found
    obtain ⟨last, foundLast, sameLast⟩ := other id again foundAgain
    exact ⟨last, foundLast, sameLast.trans same⟩
  have steps : ∀ {first second : Loader} {before after : List Flight},
      Proceeds Named first before second after → Related first second := by
    intro first second before after proceeds id task found
    obtain ⟨again, foundAgain, same, _⟩ := proceeds.exists_task found
    exact ⟨again, foundAgain, same⟩
  obtain ⟨rest, continues, proceeds⟩ := since
  have given : ∀ (loader : Loader) (file : FileId) (contents defaultName : String),
      Related loader (loader.addTask (.ofFile file (.given contents defaultName))).1 :=
    fun _ _ _ _ id task found => ⟨task, getElem?_push_of_some found _, rfl⟩
  have early := (@Continues.relates Named start rest Related continues trans steps given named).2
  have related : Related start loader := trans early (steps proceeds)
  have front : start.taskFiles <+: loader.taskFiles := by
    refine List.prefix_iff_getElem?.mpr fun index inside => ?_
    have below : index < start.tasks.size := by simpa [taskFiles] using inside
    obtain ⟨again, found, same⟩ := related index _ (Array.getElem?_eq_getElem below)
    simp [taskFiles, found, same]
  have length : start.taskFiles.length = start.tasks.size := by simp [taskFiles]
  rw [filesSince, ← length]
  exact (List.prefix_iff_eq_append.mp front).symm

/-- As long as no file has been loaded twice since nothing was stored, the blocks completed since
then are those that are stored, and for each name that blocks declare its count is the number of
stored blocks that declared it; the first of these that was completed has the plain name, and the
others have their numbers added. This holds in every state, also in the middle of a poll, whatever
loads have failed or been given up. The window starts with no load in flight: the loader is new, or
was reset while no load went on. -/
theorem numbered_since (unused : start.IsUnused) (since : Since (fun _ _ => True) start loader held)
    (distinct : (start.filesSince loader).Nodup) :
    ∃ completed, loader.completed = start.completed ++ completed ∧
      (completed.map Prod.fst).Nodup ∧
      (∀ id, loader.graph.isComplete id = true ↔ id ∈ completed.map Prod.fst) ∧
      ∀ declared, loader.names.count declared = (slotsOf completed declared).length ∧
        (slotsOf completed declared).map loader.graph.name? =
          (List.range (loader.names.count declared)).map fun index =>
            some (NameCounts.numbered declared (index + 1)) := by
  have past := unused.still.isOver
  have begun : KeepsCount start.completed start [] :=
    ⟨unused.isOrderly, fun _ => ⟨[], (List.append_nil _).symm, by
      rw [unused.graph, unused.names]
      exact .empty⟩⟩
  obtain ⟨new, perm, keeps⟩ := since.keeps
    ((isKeptOn_keepsCount _ start.completed).beside past) (isNamed_any start)
    ⟨[], by rw [List.append_nil], begun⟩
  -- the loads since then are those of the new tasks
  have files := since.keeps (isKeptOn_files _) (isNamed_any start) (.of_eq unused.still.files)
  have newFiles : (new.map Flight.file).Perm (start.filesSince loader) := by
    apply (List.perm_append_left_iff start.taskFiles).mp
    rw [← since.taskFiles_eq (isNamed_any start), ← unused.still.files, ← List.map_append]
    exact (perm.symm.map Flight.file).trans files
  obtain ⟨completed, split, numbered⟩ := keeps.numbered (newFiles.nodup_iff.mpr distinct)
  exact ⟨completed, split, numbered.single, numbered.stored,
    fun declared => ⟨numbered.count declared, numbered.named declared⟩⟩

/-- Three files that declare one name. One of them lacks an object of its interface, which takes a
while to load. -/
def widgets : MemoryFiles where
  contents := [("api.css", ".label \x7b color: red; \x7d"),
    ("bad.css", "@block-reference api from \"api.css\"; " ++
      ".root \x7b implements: api; block-name: widget; \x7d"),
    ("one.css", ".root \x7b block-name: widget; \x7d"),
    ("two.css", ".root \x7b block-name: widget; \x7d")]
  delays := [("api.css", 1)]

/-- The loader that has loaded one of the files. -/
def widgetLoaded : Loader := (ofImporter .default widgets.importer).serveAll [.block "one.css"] 1

/-- The file is forgotten, and requests are made for all three. -/
def widgetsAsked : Loader :=
  (((widgetLoaded.reset.ask (.block "bad.css")).1.ask (.block "one.css")).1.ask
    (.block "two.css")).1

/-- The load of the file that lacks an object begins first, and fails when the first of the other
blocks has been completed. So the second one gets the next number. -/
def widgetsPolled : Loader := (pollInTurn [1, 2, 1, 3] widgetsAsked).1

theorem widgets_numbered :
    widgetsPolled.tasks[1]?.bind Task.failure? =
        some (.misuse (.header (.missingObjects [".label"] "api.css")) none) ∧ ∃ completed,
      widgetsPolled.completed = widgetLoaded.reset.completed ++ completed ∧
        (slotsOf completed "widget").length = 2 ∧
          (slotsOf completed "widget").map widgetsPolled.graph.name? =
            [some "widget", some "widget-2"] := by
  have isOver : widgetLoaded.tasks.all Task.isOver = true := by decide +kernel
  have still : widgetLoaded.IsStill := fun id task found =>
    Array.all_eq_true'.mp isOver task (Array.mem_of_getElem? found)
  have continues : Continues (fun _ _ => True) widgetLoaded.reset widgetsPolled :=
    (((Continues.ask _ (.block "bad.css")).trans (.ask _ (.block "one.css"))).trans
      (.ask _ (.block "two.css"))).trans (continues_pollInTurn [1, 2, 1, 3] widgetsAsked)
  obtain ⟨completed, split, _, _, numbered⟩ :=
    numbered_since (isUnused_reset still) continues.since (by decide +kernel)
  obtain ⟨count, names⟩ := numbered "widget"
  have two : widgetsPolled.names.count "widget" = 2 := by decide +kernel
  refine ⟨by decide +kernel, completed, split, count.symm.trans two, ?_⟩
  rw [names, two]
  decide +kernel

end Loader

end StyleBlock
