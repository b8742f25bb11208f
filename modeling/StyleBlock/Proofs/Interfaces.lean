import StyleBlock.Graph.Listing
import StyleBlock.Proofs.InheritedObjects

/-!
Blocks that implement others. A block must have an object for every name that a block it implements
has, wherever on the chains of the two blocks the names are defined. The check compares how objects
are written, which for names without escapes is the same.
-/

namespace StyleBlock

/-- Whether no name of a block needs an escape. -/
structure Block.HasBareNames (block : Block) : Prop where
  classes : ∀ name ∈ block.classNames, IsBare name
  states : ∀ names ∈ block.stateLists, ∀ name ∈ names, name.IsBare

instance (block : Block) : Decidable block.HasBareNames :=
  decidable_of_iff ((∀ name ∈ block.classNames, IsBare name) ∧
      ∀ names ∈ block.stateLists, ∀ name ∈ names, name.IsBare)
    ⟨fun ⟨classes, states⟩ => ⟨classes, states⟩, fun ⟨classes, states⟩ => ⟨classes, states⟩⟩

/-- A load gives no name twice, so plain names tell the objects of a loaded block apart. -/
theorem Block.IsLoaded.isWellNamed {block : Block} (loaded : block.IsLoaded)
    (plain : block.HasBareNames) : block.IsWellNamed := by
  obtain ⟨loading⟩ := (Block.isLoaded_iff_loading block).mp loaded
  have unique := loading.hasUniqueNames
  refine ⟨unique.classes, unique.noRoot, fun names listed => ?_, plain.classes, plain.states⟩
  rcases List.mem_cons.mp listed with rfl | listed
  · exact unique.states none _ rfl
  · obtain ⟨entry, member, rfl⟩ := List.mem_map.mp listed
    obtain ⟨index, placed⟩ := List.mem_iff_getElem?.mp member
    exact unique.states (some index) _ (by simp [Block.stateNames?, Block.statesOf?, placed])

/-- How an object with the names of a reference is written. -/
def ObjectReference.written (name : ObjectReference) : String :=
  if name = .empty then ".root" else String.ofList name.bareSource

namespace BlockObject

theorem source_eq_written {object : BlockObject}
    (has : object.block.contains object.key = true) : object.source = object.reference.written := by
  have source : object.source.toList = (object.block.sourceReference object.key).bareSource :=
    Block.toList_objectSource has
  rw [sourceReference_eq has] at source
  rw [ObjectReference.written, ← String.toList_inj, source]
  split <;> simp [ObjectReference.bareSource, rootClass]

end BlockObject

namespace Graph

variable {graph : Graph} {id : BlockId} {block : Block} {blocks others : List BlockId}

/-- Whether one of some blocks defines an object with the names of a reference. -/
def Defines (graph : Graph) (blocks : List BlockId) (name : ObjectReference) : Prop :=
  ∃ object : BlockObject, object.id.block ∈ blocks ∧ graph.Has object ∧ object.reference = name

/-- Whether some blocks define every name that others define. -/
def Covers (graph : Graph) (blocks others : List BlockId) : Prop :=
  ∀ name, graph.Defines others name → graph.Defines blocks name

/-- Whether every stored block among some was loaded and has plain names. -/
def AreLoadedPlain (graph : Graph) (blocks : List BlockId) : Prop :=
  ∀ id ∈ blocks, ∀ block, graph.block? id = some block → block.IsLoaded ∧ block.HasBareNames

theorem AreLoadedPlain.areWellNamed (plain : graph.AreLoadedPlain blocks) :
    graph.AreWellNamed blocks := by
  intro id member block stored
  obtain ⟨loaded, names⟩ := plain id member block stored
  exact loaded.isWellNamed names

/-! The names of a chain -/

/-- Every object that a chain of well-named blocks has is found by a reference. -/
theorem exists_inner_eq {object : BlockObject} (has : graph.Has object)
    (wellNamed : object.block.IsWellNamed) : ∃ reference : ObjectReference,
      reference.inner = object.reference ∧
        graph.ownOf? reference object.id.block = some object := by
  refine ⟨object.block.sourceReference object.key,
    Block.inner_sourceReference wellNamed.unique, ?_⟩
  exact ownOf?_eq_some_iff.mpr
    ⟨rfl, has.1, Block.findOwn_sourceReference wellNamed.unique has.2⟩

/-- The names of all objects are those that the chain defines, each of them once. -/
theorem Chain.names_allOf (chain : graph.Chain id blocks) (wellNamed : graph.AreWellNamed blocks)
    (stored : graph.block? id = some block) :
    ((graph.allOf ⟨⟨id, .root⟩, block⟩).map BlockObject.reference).Nodup ∧
      ∀ name, name ∈ (graph.allOf ⟨⟨id, .root⟩, block⟩).map BlockObject.reference ↔
        graph.Defines blocks name := by
  have enough := chain.length_le_slots chain.nodup
  have listed : ∀ reference : ObjectReference,
      (graph.allOf ⟨⟨id, .root⟩, block⟩).filter (·.reference = reference.inner) =
        (blocks.findSome? (graph.ownOf? reference)).toList := fun reference =>
    chain.filter_ownAndInherited wellNamed stored (Nat.le_succ_of_le enough) reference
  have defined : ∀ name, name ∈ (graph.allOf ⟨⟨id, .root⟩, block⟩).map BlockObject.reference ↔
      graph.Defines blocks name := by
    intro name
    rw [List.mem_map]
    constructor
    · rintro ⟨object, member, rfl⟩
      obtain ⟨inside, has⟩ := chain.mem_ownAndInherited stored member
      exact ⟨object, inside, has, rfl⟩
    · rintro ⟨object, inside, has, rfl⟩
      obtain ⟨reference, named, own⟩ := exists_inner_eq has (wellNamed _ inside _ has.1)
      obtain ⟨first, isFirst⟩ :
          ∃ first, blocks.findSome? (graph.ownOf? reference) = some first := by
        refine Option.isSome_iff_exists.mp (List.findSome?_isSome_iff.mpr ⟨_, inside, ?_⟩)
        rw [own]
        rfl
      have found := listed reference
      rw [named, isFirst, Option.toList_some] at found
      have member := List.mem_filter.mp (found ▸ List.mem_singleton_self first)
      exact ⟨first, member.1, of_decide_eq_true member.2⟩
  refine ⟨List.nodup_iff_count_le_one.mpr fun name => ?_, defined⟩
  by_cases present : graph.Defines blocks name
  · obtain ⟨object, inside, has, rfl⟩ := present
    obtain ⟨reference, named, -⟩ := exists_inner_eq has (wellNamed _ inside _ has.1)
    have found := listed reference
    rw [named] at found
    rw [List.count, List.countP_map, List.countP_eq_length_filter]
    have same : ((· == object.reference) ∘ BlockObject.reference) =
        fun other : BlockObject => decide (other.reference = object.reference) := rfl
    rw [same, found]
    exact Option.length_toList_le
  · rw [List.count_eq_zero_of_not_mem ((defined name).not.mpr present)]
    exact Nat.zero_le 1

theorem sourcesOf_eq (stored : graph.block? id = some block) :
    graph.sourcesOf id = (graph.allOf ⟨⟨id, .root⟩, block⟩).map BlockObject.source := by
  rw [sourcesOf, root_eq_some stored]

/-- A block has the source of an object when its chain defines the names of the object. -/
theorem Chain.mem_sourcesOf_iff (chain : graph.Chain id blocks)
    (wellNamed : graph.AreWellNamed blocks) {object : BlockObject} (has : graph.Has object)
    (named : object.block.IsWellNamed) :
    object.source ∈ graph.sourcesOf id ↔ graph.Defines blocks object.reference := by
  obtain ⟨block, stored⟩ := chain.stored
  rw [sourcesOf_eq stored, ← (chain.names_allOf wellNamed stored).2, List.mem_map, List.mem_map]
  refine exists_congr fun other => and_congr_right fun listed => ?_
  obtain ⟨inside, known, has'⟩ := chain.mem_ownAndInherited stored listed
  exact BlockObject.source_eq_iff (wellNamed _ inside _ known) named has' has.2

/-- The sources that a block lacks of those of another one are those of the names that its chain
lacks, each of them once. -/
theorem Chain.exists_missing {interface : BlockId} (chain : graph.Chain id blocks)
    (wellNamed : graph.AreWellNamed blocks) (chain' : graph.Chain interface others)
    (wellNamed' : graph.AreWellNamed others) : ∃ missing : List ObjectReference,
      (graph.sourcesOf interface).filter (fun source => !(graph.sourcesOf id).contains source) =
        missing.map ObjectReference.written ∧
      missing.Nodup ∧
      ∀ name, name ∈ missing ↔ graph.Defines others name ∧ ¬graph.Defines blocks name := by
  obtain ⟨block, stored⟩ := chain'.stored
  obtain ⟨once, defined⟩ := chain'.names_allOf wellNamed' stored
  let objects := graph.allOf ⟨⟨interface, .root⟩, block⟩
  let lacks := fun object : BlockObject => !(graph.sourcesOf id).contains object.source
  have listed : ∀ object ∈ objects, graph.Has object ∧ object.block.IsWellNamed := by
    intro object member
    obtain ⟨inside, has⟩ := chain'.mem_ownAndInherited stored member
    exact ⟨has, wellNamed' _ inside _ has.1⟩
  have lacking : ∀ object ∈ objects,
      (lacks object = true ↔ ¬graph.Defines blocks object.reference) := by
    intro object member
    obtain ⟨has, named⟩ := listed object member
    rw [← chain.mem_sourcesOf_iff wellNamed has named]
    simp [lacks]
  refine ⟨(objects.filter lacks).map BlockObject.reference, ?_,
    once.sublist (List.filter_sublist.map _), fun name => ?_⟩
  · rw [sourcesOf_eq stored, List.filter_map, List.map_map]
    refine List.map_congr_left fun object member => ?_
    exact BlockObject.source_eq_written (listed object (List.mem_of_mem_filter member)).1.2
  · rw [← defined, List.mem_map, List.mem_map]
    constructor
    · rintro ⟨object, member, rfl⟩
      obtain ⟨inside, lacks⟩ := List.mem_filter.mp member
      exact ⟨⟨object, inside, rfl⟩, (lacking object inside).mp lacks⟩
    · rintro ⟨⟨object, inside, rfl⟩, absent⟩
      exact ⟨object, List.mem_filter.mpr ⟨inside, (lacking object inside).mpr absent⟩, rfl⟩

/-! The check -/

/-- The check of one implemented block against the sources that are there. -/
def checkInterface (graph : Graph) (provided : List String) (interface : BlockId) :
    Except Error Unit :=
  match graph.block? interface with
  | none => .ok ()
  | some implemented =>
    let missing := (graph.sourcesOf interface).filter fun source => !provided.contains source
    if missing.isEmpty then .ok ()
    else .error (.misuse (.header (.missingObjects missing implemented.debugIdentifier)) none)

theorem checkImplementations_eq (stored : graph.block? id = some block) :
    graph.checkImplementations id =
      block.implemented.forM (graph.checkInterface (graph.sourcesOf id)) := by
  rw [checkImplementations, stored]
  rfl

/-- Whether an error lists the names that some blocks define and others lack, with the file of the
block that they belong to. -/
def Lacks (graph : Graph) (blocks : List BlockId) (interface : BlockId) (others : List BlockId)
    (error : Error) : Prop :=
  ∃ (implemented : Block) (missing : List ObjectReference),
    graph.block? interface = some implemented ∧ missing.Nodup ∧
    (∀ name, name ∈ missing ↔ graph.Defines others name ∧ ¬graph.Defines blocks name) ∧
    error = .misuse (.header (.missingObjects (missing.map ObjectReference.written)
      implemented.debugIdentifier)) none

/-- The check of one implemented block passes when nothing is missing, and lists what is. -/
theorem Chain.checkInterface_ends {interface : BlockId} (chain : graph.Chain id blocks)
    (wellNamed : graph.AreWellNamed blocks) (chain' : graph.Chain interface others)
    (wellNamed' : graph.AreWellNamed others) :
    Ends (fun _ => graph.Covers blocks others)
      (fun error => ¬graph.Covers blocks others ∧ graph.Lacks blocks interface others error)
      (graph.checkInterface (graph.sourcesOf id) interface) := by
  obtain ⟨missing, sources, once, lacking⟩ := chain.exists_missing wellNamed chain' wellNamed'
  obtain ⟨implemented, stored⟩ := chain'.stored
  rw [checkInterface, stored]
  dsimp only
  rw [sources]
  cases missing with
  | nil =>
    intro name defined
    by_contra absent
    exact nomatch (lacking name).mpr ⟨defined, absent⟩
  | cons name rest =>
    obtain ⟨defined, absent⟩ := (lacking name).mp List.mem_cons_self
    exact ⟨fun covers => absent (covers name defined), implemented, name :: rest, stored, once,
      lacking, rfl⟩

/-- A block passes the check of its interfaces when its chain defines every name that the chain of
an implemented block defines. Otherwise the error names the first implemented block for which this
is not so, and lists the names that are missing, each of them once. -/
theorem Chain.checkImplementations_exact {chains : BlockId → List BlockId}
    (stored : graph.block? id = some block) (chain : graph.Chain id blocks)
    (plain : graph.AreLoadedPlain blocks)
    (implemented : ∀ interface ∈ block.implemented,
      graph.Chain interface (chains interface) ∧ graph.AreLoadedPlain (chains interface)) :
    (graph.checkImplementations id = .ok () ↔
      ∀ interface ∈ block.implemented, graph.Covers blocks (chains interface)) ∧
    ∀ error, graph.checkImplementations id = .error error → ∃ before interface after,
      block.implemented = before ++ interface :: after ∧
        (∀ earlier ∈ before, graph.Covers blocks (chains earlier)) ∧
        ¬graph.Covers blocks (chains interface) ∧
        graph.Lacks blocks interface (chains interface) error := by
  have each : ∀ interface ∈ block.implemented,
      Ends (fun _ => graph.Covers blocks (chains interface))
        (fun error => ¬graph.Covers blocks (chains interface) ∧
          graph.Lacks blocks interface (chains interface) error)
        (graph.checkInterface (graph.sourcesOf id) interface) := by
    intro interface listed
    obtain ⟨chain', plain'⟩ := implemented interface listed
    exact chain.checkInterface_ends plain.areWellNamed chain' plain'.areWellNamed
  have passes : ∀ interface ∈ block.implemented,
      (graph.checkInterface (graph.sourcesOf id) interface = .ok () ↔
        graph.Covers blocks (chains interface)) := by
    intro interface listed
    refine ⟨fun passed => (each interface listed).of_ok passed, fun covers => ?_⟩
    cases checked : graph.checkInterface (graph.sourcesOf id) interface with
    | ok _ => rfl
    | error error => exact absurd covers ((each interface listed).of_error checked).1
  rw [checkImplementations_eq stored]
  refine ⟨?_, fun error failed => ?_⟩
  · rw [forM_eq_ok_iff]
    exact forall₂_congr passes
  · obtain ⟨before, interface, after, split, passed, failed⟩ := exists_of_forM_error failed
    have listed : interface ∈ block.implemented := by simp [split]
    obtain ⟨uncovered, lacks⟩ := (each interface listed).of_error failed
    refine ⟨before, interface, after, split, fun earlier isEarlier => ?_, uncovered, lacks⟩
    exact (passes earlier (by simp [split, isEarlier])).mp (passed earlier isEarlier)

end Graph

/-- A block with a class and a state of it. -/
def panelBlock : Block :=
  { Block.bare "panel" "panel.css" "panel.css" with
    named := true
    classes := [⟨"tab", [⟨⟨none, "open"⟩, ⟨[⟨none, "color"⟩]⟩⟩], ⟨[]⟩⟩]
    sheet := ⟨"panel.css", [.rule ⟨0, ".tab[state|open]", ⟨1, 1, 0⟩⟩
      [.declaration ⟨"color", "red", false, ⟨1, 20, 19⟩⟩]], 1⟩
    selectors := [(0, [.ofCompound ⟨[.className "tab", .ofState ⟨none, "open"⟩], none⟩])] }

/-- A block that has all its classes from the one with a state. -/
def paneBlock : Block :=
  { Block.bare "pane" "pane.css" "pane.css" with
    named := true
    extension := some ⟨⟨0⟩, "panel"⟩
    references := [("panel", ⟨0⟩)]
    sheet := ⟨"pane.css", [.statement ⟨"block-reference", "panel from \"panel.css\"", ⟨1, 1, 0⟩⟩,
      .rule ⟨0, ".root", ⟨1, 42, 41⟩⟩ [.declaration ⟨"extends", "panel", false, ⟨1, 50, 49⟩⟩]], 1⟩
    selectors := [(0, [.ofCompound ⟨[.className "root"], none⟩])] }

/-- A block with the class, but without its state. -/
def deskBlock : Block :=
  { Block.bare "desk" "desk.css" "desk.css" with
    named := true
    classes := [⟨"tab", [], ⟨[⟨none, "color"⟩]⟩⟩]
    sheet := ⟨"desk.css", [.rule ⟨0, ".tab", ⟨1, 1, 0⟩⟩
      [.declaration ⟨"color", "red", false, ⟨1, 8, 7⟩⟩]], 1⟩
    selectors := [(0, [.ofCompound ⟨[.className "tab"], none⟩])] }

/-- A block that extends the one without the state and implements the one that inherits it. -/
def roomBlock : Block :=
  { Block.bare "room" "room.css" "room.css" with
    named := true
    extension := some ⟨⟨2⟩, "desk"⟩
    implemented := [⟨1⟩]
    references := [("desk", ⟨2⟩), ("pane", ⟨1⟩)]
    sheet := ⟨"room.css", [.statement ⟨"block-reference", "\"desk.css\"", ⟨1, 1, 0⟩⟩,
      .statement ⟨"block-reference", "\"pane.css\"", ⟨1, 30, 29⟩⟩,
      .rule ⟨0, ".root", ⟨1, 59, 58⟩⟩ [.declaration ⟨"extends", "desk", false, ⟨1, 67, 66⟩⟩,
        .declaration ⟨"implements", "pane", false, ⟨1, 82, 81⟩⟩]], 1⟩
    selectors := [(0, [.ofCompound ⟨[.className "root"], none⟩])] }

def roomGraph : Graph := ⟨#[some panelBlock, some paneBlock, some deskBlock, some roomBlock]⟩

theorem panelBlock_isLoaded : panelBlock.IsLoaded := by
  let draft : Draft := ⟨{ Block.bare "panel" "panel.css" "panel.css" with
    sheet := panelBlock.sheet, selectors := panelBlock.selectors }, []⟩
  have read : parseSheet ".tab[state|open] \x7b color: red; \x7d" "panel.css" =
      .ok panelBlock.sheet := by with_unfolding_all rfl
  have drafted : Draft.ofSheet panelBlock.sheet "panel.css" "panel.css" "panel" = .ok draft := by
    with_unfolding_all rfl
  have completed : draft.complete ⟨#[none]⟩ id [] =
      .ok { panelBlock with named := false } := by with_unfolding_all rfl
  have named : ({ panelBlock with named := false }.addDependencies []).setName "panel" =
      .ok panelBlock := by with_unfolding_all rfl
  exact .intro read drafted completed named

theorem paneBlock_isLoaded : paneBlock.IsLoaded := by
  let draft : Draft := ⟨{ Block.bare "pane" "pane.css" "pane.css" with
    sheet := paneBlock.sheet, selectors := paneBlock.selectors }, [0]⟩
  have read : parseSheet ("@block-reference panel from \"panel.css\"; " ++
      ".root \x7b extends: panel; \x7d") "pane.css" = .ok paneBlock.sheet := by
    with_unfolding_all rfl
  have drafted : Draft.ofSheet paneBlock.sheet "pane.css" "pane.css" "pane" = .ok draft := by
    with_unfolding_all rfl
  have completed : draft.complete ⟨#[some panelBlock, none]⟩ id
      [(⟨⟨some "panel", "panel.css"⟩, "panel.css", ⟨"pane.css", 1, 1, 0⟩⟩, ⟨0⟩)] =
      .ok { paneBlock with named := false } := by with_unfolding_all rfl
  have named : ({ paneBlock with named := false }.addDependencies []).setName "pane" =
      .ok paneBlock := by with_unfolding_all rfl
  exact .intro read drafted completed named

theorem deskBlock_isLoaded : deskBlock.IsLoaded := by
  let draft : Draft := ⟨{ Block.bare "desk" "desk.css" "desk.css" with
    sheet := deskBlock.sheet, selectors := deskBlock.selectors }, []⟩
  have read : parseSheet ".tab \x7b color: red; \x7d" "desk.css" = .ok deskBlock.sheet := by
    with_unfolding_all rfl
  have drafted : Draft.ofSheet deskBlock.sheet "desk.css" "desk.css" "desk" = .ok draft := by
    with_unfolding_all rfl
  have completed : draft.complete ⟨#[none]⟩ id [] =
      .ok { deskBlock with named := false } := by with_unfolding_all rfl
  have named : ({ deskBlock with named := false }.addDependencies []).setName "desk" =
      .ok deskBlock := by with_unfolding_all rfl
  exact .intro read drafted completed named

theorem roomBlock_isLoaded : roomBlock.IsLoaded := by
  let draft : Draft := ⟨{ Block.bare "room" "room.css" "room.css" with
    sheet := roomBlock.sheet, selectors := roomBlock.selectors }, [0]⟩
  have read : parseSheet ("@block-reference \"desk.css\"; " ++
      "@block-reference \"pane.css\"; " ++
      ".root \x7b extends: desk; implements: pane; \x7d") "room.css" =
        .ok roomBlock.sheet := by with_unfolding_all rfl
  have drafted : Draft.ofSheet roomBlock.sheet "room.css" "room.css" "room" = .ok draft := by
    with_unfolding_all rfl
  have completed : draft.complete
      ⟨#[some panelBlock, some paneBlock, some deskBlock, none]⟩ id
      [(⟨⟨none, "desk.css"⟩, "desk.css", ⟨"room.css", 1, 1, 0⟩⟩, ⟨2⟩),
        (⟨⟨none, "pane.css"⟩, "pane.css", ⟨"room.css", 1, 30, 29⟩⟩, ⟨1⟩)] =
      .ok { roomBlock with named := false } := by with_unfolding_all rfl
  have named : ({ roomBlock with named := false }.addDependencies []).setName "room" =
      .ok roomBlock := by with_unfolding_all rfl
  exact .intro read drafted completed named

/-- The block does not have the state that the implemented block inherits, and nothing else is
missing. -/
theorem roomBlock_lacks_state : roomGraph.AreLoadedPlain [⟨3⟩, ⟨2⟩] ∧
    roomGraph.AreLoadedPlain [⟨1⟩, ⟨0⟩] ∧
    roomGraph.checkImplementations ⟨3⟩ =
      .error (.misuse (.header (.missingObjects [".tab[state|open]"] "pane.css")) none) ∧
    ¬roomGraph.Covers [⟨3⟩, ⟨2⟩] [⟨1⟩, ⟨0⟩] ∧
    roomGraph.Lacks [⟨3⟩, ⟨2⟩] ⟨1⟩ [⟨1⟩, ⟨0⟩]
      (.misuse (.header (.missingObjects [".tab[state|open]"] "pane.css")) none) := by
  have stored : roomGraph.block? ⟨3⟩ = some roomBlock := rfl
  have chain : roomGraph.Chain ⟨3⟩ [⟨3⟩, ⟨2⟩] :=
    .extending stored rfl (@Graph.Chain.plain _ _ deskBlock rfl rfl)
  have chain' : roomGraph.Chain ⟨1⟩ [⟨1⟩, ⟨0⟩] :=
    @Graph.Chain.extending _ _ _ paneBlock _ rfl rfl (@Graph.Chain.plain _ _ panelBlock rfl rfl)
  have plain : roomGraph.AreLoadedPlain [⟨3⟩, ⟨2⟩] := by
    intro id member block present
    rcases List.mem_pair.mp member with rfl | rfl <;> cases present
    · exact ⟨roomBlock_isLoaded, by decide +kernel⟩
    · exact ⟨deskBlock_isLoaded, by decide +kernel⟩
  have plain' : roomGraph.AreLoadedPlain [⟨1⟩, ⟨0⟩] := by
    intro id member block present
    rcases List.mem_pair.mp member with rfl | rfl <;> cases present
    · exact ⟨paneBlock_isLoaded, by decide +kernel⟩
    · exact ⟨panelBlock_isLoaded, by decide +kernel⟩
  have failed : roomGraph.checkImplementations ⟨3⟩ =
      .error (.misuse (.header (.missingObjects [".tab[state|open]"] "pane.css")) none) := by
    with_unfolding_all rfl
  let chains : BlockId → List BlockId := fun _ => [⟨1⟩, ⟨0⟩]
  have implemented : ∀ interface ∈ roomBlock.implemented,
      roomGraph.Chain interface (chains interface) ∧
        roomGraph.AreLoadedPlain (chains interface) := by
    intro interface listed
    cases List.mem_singleton.mp listed
    exact ⟨chain', plain'⟩
  obtain ⟨-, fails⟩ := Graph.Chain.checkImplementations_exact stored chain plain implemented
  obtain ⟨before, interface, after, split, -, uncovered, lacks⟩ := fails _ failed
  obtain rfl : interface = ⟨1⟩ := by
    have listed : interface ∈ roomBlock.implemented := by simp [split]
    exact List.mem_singleton.mp listed
  exact ⟨plain, plain', failed, uncovered, lacks⟩

end StyleBlock
