import StyleBlock.Draft
import StyleBlock.Proofs.Numbering

/-!
What a load makes of a text. A loaded block keeps the sheet that was read and the selectors of its
style rules as they were parsed, and it extends a block only under a name it refers to.
-/

namespace StyleBlock

/-- A block that a load put into the graph: its text was read, its references were resolved in
the graph as it was then, and it got its final name. -/
inductive Block.IsLoaded (block : Block) : Prop
  | intro {text debugIdentifier defaultName : String} {identifier : FileId} {sheet : Sheet}
      {draft : Draft} {graph : Graph} {defaults : FileId → String} {links : List (Link × BlockId)}
      {body : Block} {dependencies : List String} {name : String}
      (read : parseSheet text debugIdentifier = .ok sheet)
      (drafted : Draft.ofSheet sheet identifier debugIdentifier defaultName = .ok draft)
      (completed : draft.complete graph defaults links = .ok body)
      (named : (body.addDependencies dependencies).setName name = .ok block)

namespace Block

/-- Two stages of one block that agree on its sheet, its selectors and its references. -/
structure SameSource (before after : Block) : Prop where
  sheet : after.sheet = before.sheet
  selectors : after.selectors = before.selectors
  extension : after.extension = before.extension
  references : after.references = before.references

namespace SameSource

theorem refl (block : Block) : SameSource block block :=
  ⟨rfl, rfl, rfl, rfl⟩

theorem trans {first second third : Block} (before : SameSource first second)
    (after : SameSource second third) : SameSource first third where
  sheet := after.sheet.trans before.sheet
  selectors := after.selectors.trans before.selectors
  extension := after.extension.trans before.extension
  references := after.references.trans before.references

end SameSource

theorem sameSource_ensureClass (block : Block) (name : String) :
    SameSource block (block.ensureClass name).1 := by
  unfold ensureClass
  split
  · exact .refl block
  · exact ⟨rfl, rfl, rfl, rfl⟩

theorem sameSource_ensureState (block : Block) (owner : Option Nat) (name : StateName) :
    SameSource block (block.ensureState owner name).1 := by
  unfold ensureState
  split <;> exact ⟨rfl, rfl, rfl, rfl⟩

theorem sameSource_modifyProperties (block : Block) (key : ObjectKey)
    (change : PropertyUses → PropertyUses) :
      SameSource block (block.modifyProperties key change) := by
  unfold modifyProperties
  split <;> exact ⟨rfl, rfl, rfl, rfl⟩

theorem sameSource_addImplemented (block : Block) (target : BlockId) :
    SameSource block (block.addImplemented target) := by
  unfold addImplemented
  split
  · exact .refl block
  · exact ⟨rfl, rfl, rfl, rfl⟩

end Block

namespace Legality

open Block (SameSource)

/-- Reading a class asks the block for it, unless it is the root. -/
theorem block_of_readClass {selector : Selector} {block after : Block}
    {parts others : ObjectParts} {name : String}
    (read : readClass selector block parts name = .ok (after, others)) :
    after = if name = rootClass then block else (block.ensureClass name).1 := by
  unfold readClass at read
  split at read
  · rw [if_pos ‹_›]
    split at read
    · cases read
    · cases read
      rfl
  rw [if_neg ‹_›]
  split at read
  · cases read
  dsimp only at read
  split at read
  · split at read
    · cases read
      rfl
    · cases read
  · cases read
    rfl

/-- Reading a state asks the block for it. -/
theorem block_of_readState {selector : Selector} {block after : Block}
    {parts others : ObjectParts} {name : StateName}
    (read : readState selector block parts name = .ok (after, others)) :
    after = (block.ensureState parts.owner name).1 := by
  unfold readState at read
  dsimp only at read
  split at read
  · split at read
    · cases read
      rfl
    · cases read
  · cases read
    rfl

theorem sameSource_readClass {selector : Selector} {block after : Block}
    {parts others : ObjectParts} {name : String}
    (read : readClass selector block parts name = .ok (after, others)) :
    SameSource block after := by
  rw [block_of_readClass read]
  split
  · exact .refl _
  · exact block.sameSource_ensureClass name

theorem sameSource_readState {selector : Selector} {block after : Block}
    {parts others : ObjectParts} {name : StateName}
    (read : readState selector block parts name = .ok (after, others)) :
    SameSource block after := by
  rw [block_of_readState read]
  exact block.sameSource_ensureState parts.owner name

theorem sameSource_readNode {selector : Selector} {reading after : Block × ObjectParts}
    {node : SimpleSelector} (read : readNode selector reading node = .ok after) :
    SameSource reading.1 after.1 := by
  obtain ⟨block, parts⟩ := reading
  obtain ⟨next, others⟩ := after
  unfold readNode at read
  dsimp only at read
  split at read
  · exact sameSource_readClass read
  · split at read
    · split at read
      · exact sameSource_readState read
      · cases read
    · cases read
      exact .refl _
  · cases read
    exact .refl _

theorem sameSource_classifyCompound {graph : Graph} {selector : Selector} {block after : Block}
    {compound : Compound} {object : CompoundObject}
    (classified : classifyCompound graph selector block compound = .ok (after, object)) :
    SameSource block after := by
  obtain ⟨_, -, classified⟩ := bind_eq_ok_iff.mp classified
  dsimp only at classified
  split at classified
  · obtain ⟨_, -, classified⟩ := bind_eq_ok_iff.mp classified
    cases classified
    exact .refl _
  · obtain ⟨⟨next, parts⟩, folded, classified⟩ := bind_eq_ok_iff.mp classified
    have kept := foldlM_keeps (fun reading => SameSource block reading.1)
      (fun _ kept read => kept.trans (sameSource_readNode read)) (.refl block) folded
    dsimp only at classified
    split at classified
    · cases classified
      exact kept
    · cases classified

theorem sameSource_classifyAll {graph : Graph} {selector : Selector} {block after : Block}
    {compounds : List (Option Combinator × Compound)}
    {objects : List (Option Combinator × CompoundObject)}
    (classified : classifyAll graph selector block compounds = .ok (after, objects)) :
    SameSource block after := by
  induction compounds generalizing block objects with
  | nil =>
    cases classified
    exact .refl _
  | cons entry rest ih =>
    obtain ⟨combinator, compound⟩ := entry
    unfold classifyAll at classified
    dsimp only at classified
    split at classified
    · cases classified
    · obtain ⟨⟨next, object⟩, first, classified⟩ := bind_eq_ok_iff.mp classified
      obtain ⟨⟨last, others⟩, later, classified⟩ := bind_eq_ok_iff.mp classified
      cases classified
      exact (sameSource_classifyCompound first).trans (ih later)

/-- Registering the objects of a selector changes the objects of a block only. -/
theorem sameSource_classify {graph : Graph} {selector : Selector} {block after : Block}
    {key : Option ObjectKey} (classified : classify graph block selector = .ok (after, key)) :
    SameSource block after := by
  obtain ⟨⟨next, objects⟩, all, classified⟩ := bind_eq_ok_iff.mp classified
  dsimp only at classified
  obtain ⟨_, -, classified⟩ := bind_eq_ok_iff.mp classified
  obtain ⟨_, -, classified⟩ := bind_eq_ok_iff.mp classified
  split at classified <;> cases classified <;> exact sameSource_classifyAll all

end Legality

namespace Draft

open Block (SameSource)

theorem sameSource_addSelector {graph : Graph} {rule : Rule} {block after : Block}
    {selector : Selector} (added : addSelector graph rule block selector = .ok after) :
    SameSource block after := by
  unfold addSelector at added
  split at added
  · cases added
  · cases added
    exact Legality.sameSource_classify ‹_›
  · cases added
    exact (Legality.sameSource_classify ‹_›).trans (Block.sameSource_modifyProperties ..)

theorem sameSource_addRule {graph : Graph} {draft after : Draft} {rule : Rule}
    (added : addRule graph draft rule = .ok after) : SameSource draft.block after.block := by
  obtain ⟨_, -, added⟩ := bind_eq_ok_iff.mp added
  obtain ⟨block, folded, added⟩ := bind_eq_ok_iff.mp added
  cases added
  exact foldlM_keeps (SameSource draft.block)
    (fun _ kept added => kept.trans (sameSource_addSelector added)) (.refl _) folded

theorem sameSource_addInterfaces {graph : Graph} {block after : Block} {declaration : Declaration}
    (added : addInterfaces graph block declaration = .ok after) : SameSource block after := by
  refine foldlM_keeps (SameSource block) (fun _ kept added => ?_) (.refl _) added
  obtain ⟨_, -, added⟩ := bind_eq_ok_iff.mp added
  cases added
  exact kept.trans (Block.sameSource_addImplemented ..)

end Draft

/-- A block that keeps the sheet it was read from with the selectors as parsed, and extends a
block only under a name that refers to it. -/
structure Block.Keeps (block : Block) (sheet : Sheet) : Prop where
  same : block.sheet = sheet
  parsed : sheet.parseRules = .ok block.selectors
  referred : ∀ extension ∈ block.extension,
    block.reference? extension.localName = some extension.block

theorem Block.Keeps.of_sameSource {before after : Block} {sheet : Sheet}
    (kept : before.Keeps sheet) (same : before.SameSource after) : after.Keeps sheet := by
  obtain ⟨sameSheet, selectors, extension, references⟩ := same
  refine ⟨sameSheet.trans kept.same, ?_, ?_⟩
  · rw [selectors]
    exact kept.parsed
  · unfold Block.reference?
    rw [extension, references]
    exact kept.referred

namespace Draft

/-- A draft extends no block yet. -/
def KeepsPlain (draft : Draft) (sheet : Sheet) : Prop :=
  draft.block.extension = none ∧ draft.block.Keeps sheet

theorem keepsPlain_ofSheet {sheet : Sheet} {identifier : FileId}
    {debugIdentifier defaultName : String} {draft : Draft}
    (drafted : ofSheet sheet identifier debugIdentifier defaultName = .ok draft) :
    draft.KeepsPlain sheet := by
  obtain ⟨selectors, parsed, drafted⟩ := bind_eq_ok_iff.mp drafted
  obtain ⟨name, -, drafted⟩ := bind_eq_ok_iff.mp drafted
  cases drafted
  exact ⟨rfl, rfl, parsed, nofun⟩

theorem KeepsPlain.addLink {graph : Graph} {defaults : FileId → String} {draft after : Draft}
    {link : Link × BlockId} {sheet : Sheet} (kept : draft.KeepsPlain sheet)
    (added : addLink graph defaults draft link = .ok after) : after.KeepsPlain sheet := by
  obtain ⟨plain, same, parsed, -⟩ := kept
  unfold Draft.addLink at added
  dsimp only at added
  split at added
  · cases added
  · cases added
    exact ⟨plain, same, parsed, fun extension found => by simp [Block.addReference, plain] at found⟩

theorem keeps_addExtension {graph : Graph} {block after : Block} {declaration : Declaration}
    {sheet : Sheet} (kept : block.Keeps sheet)
    (added : addExtension graph block declaration = .ok after) : after.Keeps sheet := by
  unfold addExtension at added
  dsimp only at added
  split at added
  · cases added
  · obtain ⟨base, found, added⟩ := bind_eq_ok_iff.mp added
    cases added
    refine ⟨kept.same, kept.parsed, ?_⟩
    rintro _ ⟨⟩
    unfold completeReference at found
    split at found
    · cases found
    · rename_i known
      split at found
      · cases found
        exact known
      · cases found

/-- A completed draft keeps what was read. -/
theorem KeepsPlain.complete {draft : Draft} {graph : Graph} {defaults : FileId → String}
    {links : List (Link × BlockId)} {sheet : Sheet} {block : Block}
    (start : draft.KeepsPlain sheet) (completed : draft.complete graph defaults links = .ok block) :
    block.Keeps sheet := by
  obtain ⟨linked, folded, completed⟩ := bind_eq_ok_iff.mp completed
  have linked := foldlM_keeps (KeepsPlain · sheet)
    (fun _ kept added => kept.addLink added) start folded
  obtain ⟨extended, folded, completed⟩ := bind_eq_ok_iff.mp completed
  have extended := foldlM_keeps (Block.Keeps · sheet)
    (fun _ kept added => keeps_addExtension kept added) linked.2 folded
  obtain ⟨implementing, folded, completed⟩ := bind_eq_ok_iff.mp completed
  have implementing := foldlM_keeps (Block.SameSource _)
    (fun _ kept added => kept.trans (sameSource_addInterfaces added)) (.refl _) folded
  obtain ⟨last, folded, completed⟩ := bind_eq_ok_iff.mp completed
  cases completed
  have ruled := foldlM_keeps (fun draft => Block.SameSource _ draft.block)
    (fun _ kept added => kept.trans (sameSource_addRule added)) implementing folded
  exact extended.of_sameSource ruled

end Draft

namespace Block

theorem sameSource_addDependencies (block : Block) (paths : List String) :
    block.SameSource (block.addDependencies paths) :=
  ⟨rfl, rfl, rfl, rfl⟩

theorem sameSource_setName {block after : Block} {name : String}
    (named : block.setName name = .ok after) : block.SameSource after := by
  unfold setName at named
  split at named
  · cases named
  · cases named
    exact ⟨rfl, rfl, rfl, rfl⟩

theorem name_of_setName {block after : Block} {name : String}
    (named : block.setName name = .ok after) : after.name = name := by
  unfold setName at named
  split at named
  · cases named
  · cases named
    rfl

/-- A loaded block keeps its sheet, in which every rule has a number of its own. -/
theorem IsLoaded.keeps {block : Block} (loaded : block.IsLoaded) :
    block.Keeps block.sheet ∧ block.sheet.IsNumbered := by
  obtain ⟨read, drafted, completed, named⟩ := loaded
  have kept := (Draft.keepsPlain_ofSheet drafted).complete completed
  have finished := (sameSource_addDependencies _ _).trans (sameSource_setName named)
  have last := kept.of_sameSource finished
  rw [last.same]
  exact ⟨last, parseSheet_isNumbered read⟩

end Block

end StyleBlock
