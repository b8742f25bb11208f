import StyleBlock.Import.Memory
import StyleBlock.Proofs.Filling
import StyleBlock.Proofs.GeneratedNames

/-!
The names that a loader gives its blocks. Each stored block has the name that its file declares,
with a number that no other stored block of that declared name has. So two blocks have one name only
if a declared name looks like another one with a number that was given out.
-/

namespace StyleBlock

namespace NameCounts

theorem find_setOrdered (key other : String) (value : Nat) (table : List (String × Nat)) :
    (Text.setOrdered key value table).find? (fun entry => entry.1 == other) =
      if other = key then some (key, value) else table.find? fun entry => entry.1 == other := by
  induction table with
  | nil =>
    by_cases same : other = key
    · simp [Text.setOrdered, same]
    · simp [Text.setOrdered, same, Ne.symm same]
  | cons first rest ih =>
    unfold Text.setOrdered
    by_cases same : other = key
    · subst same
      split
      · simp
      · split
        · simp
        · rename_i apart _
          simp [Ne.symm apart, ih]
    · split
      · rename_i replaced
        simp [Ne.symm same, ← replaced]
      · split
        · simp [Ne.symm same]
        · simp [List.find?_cons, ih, same]

theorem count_eq (names : NameCounts) (name : String) :
    names.count name =
      ((names.counts.find? fun entry => entry.1 == name).map Prod.snd).getD 0 := rfl

theorem count_set (names : NameCounts) (declared name : String) (number : Nat) :
    (⟨Text.setOrdered declared number names.counts⟩ : NameCounts).count name =
      if name = declared then number else names.count name := by
  rw [count_eq, find_setOrdered]
  split
  · rfl
  · rfl

theorem count_claim (names : NameCounts) (declared name : String) :
    (names.claim declared).1.count name =
      if name = declared then names.count declared + 1 else names.count name :=
  count_set ..

theorem count_filter (names : NameCounts) (declared name : String) :
    (⟨names.counts.filter fun entry => entry.1 ≠ declared⟩ : NameCounts).count name =
      if name = declared then 0 else names.count name := by
  rw [count_eq, List.find?_filter]
  by_cases same : name = declared
  · subst same
    rw [if_pos rfl, List.find?_eq_none.mpr]
    · rfl
    · simp
  · rw [if_neg same, count_eq]
    congr 3
    funext entry
    by_cases isName : entry.1 = name
    · simp [isName, same]
    · simp [isName]

theorem count_release (names : NameCounts) (declared name : String) :
    (names.release declared).count name =
      if name = declared then names.count declared - 1 else names.count name := by
  unfold release
  split
  · rename_i none
    split
    · rename_i same
      rw [same, none]
    · rfl
  · rename_i one
    rw [one]
    exact count_filter ..
  · rename_i number more
    rw [more]
    exact count_set ..

/-- What was claimed and taken back leaves all counts as they were. -/
theorem count_release_claim (names : NameCounts) (declared name : String) :
    ((names.claim declared).1.release declared).count name = names.count name := by
  rw [count_release, count_claim, count_claim]
  split
  · rename_i same
    rw [if_pos rfl, same, Nat.add_sub_cancel]
  · rfl

theorem hyphen_notMem_toString (number : Nat) : '-' ∉ (toString number).toList := by
  intro member
  rw [Nat.toString_eq_repr, Nat.toList_repr] at member
  exact absurd (Nat.isDigit_of_mem_toDigits (by decide) (by decide) member) (by decide)

/-- Behind the last hyphen of a numbered name stands the number. -/
theorem eq_of_hyphen_eq {first second : String} {one other : Nat}
    (same : first ++ "-" ++ toString one = second ++ "-" ++ toString other) :
    first = second ∧ one = other := by
  have finish : ∀ {first second rest : String} {one other : Nat}, second = first ++ rest →
      "-" ++ toString one = rest ++ ("-" ++ toString other) → first = second ∧ one = other := by
    rintro first _ rest one other rfl same
    have lists := congrArg String.toList same
    have hyphen : "-".toList = ['-'] := rfl
    simp only [String.toList_append, hyphen] at lists
    have text : rest = String.ofList rest.toList := String.ofList_toList.symm
    generalize rest.toList = chars at lists text
    subst text
    cases chars with
    | nil =>
      have digits : toString one = toString other :=
        String.toList_inj.mp (List.cons.inj lists).2
      exact ⟨by simp, Nat.repr_inj.mp digits⟩
    | cons first more =>
      have digits : (toString one).toList = more ++ '-' :: (toString other).toList :=
        (List.cons.inj lists).2
      refine absurd ?_ (hyphen_notMem_toString one)
      rw [digits]
      simp
  rw [String.append_assoc, String.append_assoc] at same
  rcases exists_of_append_eq same with ⟨rest, before, after⟩ | ⟨rest, before, after⟩
  · exact finish before after
  · obtain ⟨names, numbers⟩ := finish before after
    exact ⟨names.symm, numbers.symm⟩

/-- Whether no declared name looks like another one with a number that was given out. -/
def KeepsApart (names : NameCounts) : Prop :=
  ∀ declared number, 2 ≤ number → number ≤ names.count declared →
    names.count (numbered declared number) = 0

/-- Names that are kept apart tell what was declared and which number was given out. -/
theorem KeepsApart.eq_of_numbered {names : NameCounts} (apart : names.KeepsApart)
    {first second : String} {one other : Nat} (positive : 1 ≤ one) (positive' : 1 ≤ other)
    (counted : one ≤ names.count first) (counted' : other ≤ names.count second)
    (same : numbered first one = numbered second other) : first = second ∧ one = other := by
  by_cases single : one = 1
  · subst single
    by_cases single' : other = 1
    · subst single'
      exact ⟨same, rfl⟩
    · have free := apart second other (by omega) counted'
      rw [← same, show numbered first 1 = first from rfl] at free
      omega
  · by_cases single' : other = 1
    · subst single'
      have free := apart first one (by omega) counted
      rw [same, show numbered second 1 = second from rfl] at free
      omega
    · rw [numbered, numbered, if_neg single, if_neg single'] at same
      exact eq_of_hyphen_eq same

end NameCounts

namespace Graph

theorem block?_reserve (graph : Graph) (id : BlockId) :
    graph.reserve.1.block? id = graph.block? id := by
  unfold block? reserve
  dsimp only
  rw [Array.getElem?_push]
  split
  · rename_i last
    rw [Array.getElem?_eq_none last.ge]
    rfl
  · rfl

theorem block?_insert {graph : Graph} {id other : BlockId} {block found : Block}
    (inserted : (graph.insert id block).block? other = some found) :
    other = id ∧ found = block ∨ other ≠ id ∧ graph.block? other = some found := by
  unfold block? insert at inserted
  dsimp only at inserted
  rw [Array.getElem?_setIfInBounds] at inserted
  split at inserted
  · rename_i same
    split at inserted
    · cases inserted
      exact .inl ⟨by cases id; cases other; simp_all, rfl⟩
    · cases inserted
  · rename_i apart
    exact .inr ⟨fun same => apart (congrArg BlockId.slot same).symm, inserted⟩

theorem block?_remove {graph : Graph} {id other : BlockId} {found : Block}
    (kept : (graph.remove id).block? other = some found) :
    other ≠ id ∧ graph.block? other = some found := by
  unfold block? remove at kept
  dsimp only at kept
  rw [Array.getElem?_setIfInBounds] at kept
  split at kept
  · split at kept <;> cases kept
  · rename_i apart
    exact ⟨fun same => apart (congrArg BlockId.slot same).symm, kept⟩

end Graph

namespace Loader

/-- What the stored blocks declared, and the numbers they got: no two stored blocks share both. -/
structure IsNumbering (loader : Loader) (declared : BlockId → String) (number : BlockId → Nat) :
    Prop where
  named : ∀ id block, loader.graph.block? id = some block →
    block.name = NameCounts.numbered (declared id) (number id)
  counted : ∀ id block, loader.graph.block? id = some block →
    1 ≤ number id ∧ number id ≤ loader.names.count (declared id)
  unique : ∀ id other block found, loader.graph.block? id = some block →
    loader.graph.block? other = some found → declared id = declared other →
      number id = number other → id = other

/-- Whether the names of the stored blocks come from what they declared and a number. -/
def IsNumbered (loader : Loader) : Prop :=
  ∃ declared number, loader.IsNumbering declared number

namespace IsNumbered

variable {loader other : Loader}

/-- Fewer blocks with the same counts. -/
theorem of_subset (numbered : loader.IsNumbered)
    (blocks : ∀ id block, other.graph.block? id = some block → loader.graph.block? id = some block)
    (names : ∀ name, other.names.count name = loader.names.count name) : other.IsNumbered := by
  obtain ⟨declared, number, named, counted, unique⟩ := numbered
  exact ⟨declared, number, fun id block found => named id block (blocks id block found),
    fun id block found => by
      rw [names]
      exact counted id block (blocks id block found),
    fun id next block again found foundNext => unique id next block again (blocks id block found)
      (blocks next again foundNext)⟩

/-- One more block, which gets the next number of what it declares. -/
theorem insert (numbered : loader.IsNumbered) (slot : BlockId) (block : Block) (name : String)
    (isName : block.name = NameCounts.numbered name (loader.names.count name + 1))
    (graph : other.graph = loader.graph.insert slot block)
    (names : other.names = (loader.names.claim name).1) : other.IsNumbered := by
  obtain ⟨declared, number, named, counted, unique⟩ := numbered
  let declared' : BlockId → String := fun id => if id = slot then name else declared id
  let number' : BlockId → Nat := fun id =>
    if id = slot then loader.names.count name + 1 else number id
  have below : ∀ id found, loader.graph.block? id = some found → declared id = name →
      number id ≠ loader.names.count name + 1 := by
    intro id found known same
    have bound := (counted id found known).2
    rw [same] at bound
    omega
  refine ⟨declared', number', ?_, ?_, ?_⟩
  · intro id found known
    rw [graph] at known
    rcases Graph.block?_insert known with ⟨rfl, rfl⟩ | ⟨apart, known⟩
    · simp [declared', number', isName]
    · simpa [declared', number', apart] using named id found known
  · intro id found known
    rw [graph] at known
    rw [names, NameCounts.count_claim]
    rcases Graph.block?_insert known with ⟨rfl, rfl⟩ | ⟨apart, known⟩
    · simp [declared', number']
    · obtain ⟨positive, bound⟩ := counted id found known
      simp only [declared', number', if_neg apart]
      refine ⟨positive, ?_⟩
      split
      · rename_i same
        rw [same] at bound
        omega
      · exact bound
  · intro id next found again known knownNext sameName sameNumber
    rw [graph] at known knownNext
    rcases Graph.block?_insert known with ⟨isSlot, _⟩ | ⟨apart, before⟩
    · rcases Graph.block?_insert knownNext with ⟨isSlot', _⟩ | ⟨apart', before'⟩
      · rw [isSlot, isSlot']
      · simp only [declared', number', if_pos isSlot, if_neg apart'] at sameName sameNumber
        exact absurd sameNumber.symm (below next again before' sameName.symm)
    · rcases Graph.block?_insert knownNext with ⟨isSlot', _⟩ | ⟨apart', before'⟩
      · simp only [declared', number', if_neg apart, if_pos isSlot'] at sameName sameNumber
        exact absurd sameNumber (below id found before sameName)
      · simp only [declared', number', if_neg apart, if_neg apart'] at sameName sameNumber
        exact unique id next found again before before' sameName sameNumber

theorem reserve (numbered : loader.IsNumbered) (file : FileId) :
    (loader.reserve file).1.IsNumbered := by
  unfold Loader.reserve
  split
  · exact numbered
  · exact numbered.of_subset (fun id block found => by rwa [Graph.block?_reserve] at found)
      fun _ => rfl

theorem store (numbered : loader.IsNumbered) (slot : BlockId) (block : Block) :
    (loader.store slot block).1.IsNumbered := by
  unfold Loader.store
  dsimp only
  split
  · exact numbered.of_subset (fun _ _ found => found) (loader.names.count_release_claim block.name)
  · rename_i after named
    have isName : after.name = NameCounts.numbered block.name (loader.names.count block.name + 1) :=
      Block.name_of_setName named
    split
    · exact numbered.insert slot after block.name isName rfl rfl
    · refine numbered.of_subset (fun id found known => ?_)
        (loader.names.count_release_claim block.name)
      obtain ⟨apart, known⟩ := Graph.block?_remove known
      rcases Graph.block?_insert known with ⟨same, _⟩ | ⟨_, known⟩
      · exact absurd same apart
      · exact known

theorem complete (numbered : loader.IsNumbered) (slot : BlockId) (assembly : Assembly)
    (linked : List (Link × BlockId)) :
    (loader.complete slot assembly linked).1.IsNumbered := by
  unfold Loader.complete
  split
  · exact numbered
  · exact numbered.store ..

/-- Whatever fills a loader keeps its blocks numbered. -/
theorem fills (numbered : loader.IsNumbered) (fills : loader.Fills other) : other.IsNumbered :=
  @Fills.induct IsNumbered _ _ fills
    (fun graph _ names numbered => numbered.of_subset (fun _ _ found => graph ▸ found)
      fun _ => names ▸ rfl)
    (fun _ file numbered => numbered.reserve file)
    (fun _ slot assembly linked numbered => numbered.complete slot assembly linked) numbered

theorem of_reachable (reached : loader.Reachable) : loader.IsNumbered := by
  refine reached.induct (fun loader graph _ _ => ?_) fun _ _ fills numbered => numbered.fills fills
  have none : ∀ id, loader.graph.block? id = none :=
    fun id => by simp [graph, Graph.block?, Graph.empty]
  exact ⟨fun _ => "", fun _ => 0, fun id block found => (nomatch (none id).symm.trans found),
    fun id block found => (nomatch (none id).symm.trans found),
    fun id _ block _ found => (nomatch (none id).symm.trans found)⟩

end IsNumbered

/-- In every state that a loader can reach, different blocks have different names, as long as no
file declares a name that another declared name has become by its number. -/
theorem Reachable.name_ne {loader : Loader} (reached : loader.Reachable)
    (apart : loader.names.KeepsApart) {first second : BlockId} {one other : Block}
    (here : loader.graph.block? first = some one) (there : loader.graph.block? second = some other)
    (different : first ≠ second) : one.name ≠ other.name := by
  obtain ⟨declared, number, named, counted, unique⟩ := IsNumbered.of_reachable reached
  intro same
  rw [named first one here, named second other there] at same
  obtain ⟨names, numbers⟩ := apart.eq_of_numbered (counted first one here).1
    (counted second other there).1 (counted first one here).2 (counted second other there).2 same
  exact different (unique first second one other here there names numbers)

/-- The loader after one poll for each of some files. -/
def loadAll (loader : Loader) (files : List FileId) : Loader :=
  files.foldl (fun loader file =>
    let (loader, id) := loader.ask (.block file)
    (loader.poll id).1) loader

theorem Reachable.loadAll {loader : Loader} (reached : loader.Reachable) (files : List FileId) :
    (loader.loadAll files).Reachable := by
  induction files generalizing loader with
  | nil => exact reached
  | cons file rest ih => exact ih ((reached.ask (.block file)).poll .caller _)

/-- Two files that declare one name, and a third one that declares what the second of them is
named. -/
def namesakes : MemoryFiles where
  contents := [("one.css", ".root \x7b block-name: foo; \x7d"),
    ("two.css", ".root \x7b block-name: foo; \x7d"),
    ("three.css", ".root \x7b block-name: foo-2; \x7d")]
  delays := []

def namesakesLoader : Loader := ofImporter .default namesakes.importer

theorem exists_block_of_name {loader : Loader} {id : BlockId} {name : String}
    (named : (loader.graph.block? id).map Block.name = some name) :
    ∃ block, loader.graph.block? id = some block ∧ block.name = name :=
  Option.map_eq_some_iff.mp named

/-- The first two blocks are told apart by the number of the second one. -/
theorem namesakes_name_ne :
    ∃ one other,
      (namesakesLoader.loadAll ["one.css", "two.css"]).graph.block? ⟨0⟩ = some one ∧
      (namesakesLoader.loadAll ["one.css", "two.css"]).graph.block? ⟨1⟩ = some other ∧
        one.name ≠ other.name := by
  have names : (namesakesLoader.loadAll ["one.css", "two.css"]).names = ⟨[("foo", 2)]⟩ := by
    decide +kernel
  have apart : (namesakesLoader.loadAll ["one.css", "two.css"]).names.KeepsApart := by
    rw [names]
    intro declared number least most
    by_cases same : "foo" = declared
    · subst same
      obtain rfl : number = 2 := Nat.le_antisymm most least
      decide
    · have none : (⟨[("foo", 2)]⟩ : NameCounts).count declared = 0 := by
        simp [NameCounts.count, same]
      omega
  obtain ⟨one, here, _⟩ := @exists_block_of_name
    (namesakesLoader.loadAll ["one.css", "two.css"]) ⟨0⟩ "foo" (by decide +kernel)
  obtain ⟨other, there, _⟩ := @exists_block_of_name
    (namesakesLoader.loadAll ["one.css", "two.css"]) ⟨1⟩ "foo-2" (by decide +kernel)
  exact ⟨one, other, here, there, Reachable.name_ne
    (Reachable.loadAll (.start .default namesakes.importer) _) apart here there (by decide)⟩

/-- The third block declares what the second one is named, and gets that name too. -/
theorem namesakes_name_eq :
    (namesakesLoader.loadAll ["one.css", "two.css", "three.css"]).Reachable ∧
      ∃ one other,
        (namesakesLoader.loadAll ["one.css", "two.css", "three.css"]).graph.block? ⟨1⟩ = some one ∧
        (namesakesLoader.loadAll ["one.css", "two.css", "three.css"]).graph.block? ⟨2⟩ =
          some other ∧ one.name = other.name := by
  obtain ⟨one, here, named⟩ := @exists_block_of_name
    (namesakesLoader.loadAll ["one.css", "two.css", "three.css"]) ⟨1⟩ "foo-2" (by decide +kernel)
  obtain ⟨other, there, named'⟩ := @exists_block_of_name
    (namesakesLoader.loadAll ["one.css", "two.css", "three.css"]) ⟨2⟩ "foo-2" (by decide +kernel)
  exact ⟨Reachable.loadAll (.start .default namesakes.importer) _, one, other, here, there,
    named.trans named'.symm⟩

end Loader

end StyleBlock
