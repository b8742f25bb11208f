import StyleBlock.Proofs.OwnCompounds

/-!
How a load reads the selectors of a sheet. It comes to every selector of every style rule, one after
another, each time with the block as it is by then; and the block only grows from there to the end.
-/

namespace StyleBlock

/-- The parts of a load: what was read and the graph that its references were resolved in. -/
structure Block.Loading (block : Block) where
  text : String
  debugIdentifier : String
  defaultName : String
  identifier : FileId
  sheet : Sheet
  draft : Draft
  graph : Graph
  defaults : FileId → String
  links : List (Link × BlockId)
  body : Block
  dependencies : List String
  name : String
  read : parseSheet text debugIdentifier = .ok sheet
  drafted : Draft.ofSheet sheet identifier debugIdentifier defaultName = .ok draft
  completed : draft.complete graph defaults links = .ok body
  named : (body.addDependencies dependencies).setName name = .ok block

theorem Block.isLoaded_iff_loading (block : Block) : block.IsLoaded ↔ Nonempty block.Loading := by
  constructor
  · rintro ⟨read, drafted, completed, named⟩
    exact ⟨⟨_, _, _, _, _, _, _, _, _, _, _, _, read, drafted, completed, named⟩⟩
  · rintro ⟨loading⟩
    exact .intro loading.read loading.drafted loading.completed loading.named

namespace Draft

/-- The part of completing a draft that comes before its style rules. -/
def prepare (draft : Draft) (graph : Graph) (defaultName : FileId → String)
    (links : List (Link × BlockId)) : Except Error Draft := do
  let draft ← links.foldlM (addLink graph defaultName) draft
  let block ← (draft.rootDeclarations "extends").foldlM (addExtension graph) draft.block
  let block ← (draft.rootDeclarations "implements").foldlM (addInterfaces graph) block
  return { draft with block }

theorem complete_eq_ok_iff {draft : Draft} {graph : Graph} {defaultName : FileId → String}
    {links : List (Link × BlockId)} {block : Block} :
    draft.complete graph defaultName links = .ok block ↔
      ∃ prepared last, draft.prepare graph defaultName links = .ok prepared ∧
        prepared.block.sheet.styleRules.foldlM (addRule graph) prepared = .ok last ∧
        last.block = block := by
  unfold complete prepare
  simp only [bind_eq_ok_iff]
  constructor
  · rintro ⟨linked, links, extended, extends_, implementing, implements_, last, rules, same⟩
    cases same
    exact ⟨_, last, ⟨linked, links, extended, extends_, implementing, implements_, rfl⟩, rules, rfl⟩
  · rintro ⟨_, last, ⟨linked, links, extended, extends_, implementing, implements_, ⟨⟩⟩, rules, rfl⟩
    exact ⟨linked, links, extended, extends_, implementing, implements_, last, rules, rfl⟩

/-- Recording rules in a draft comes to a selector of one of them when the block has reached a
stage. -/
inductive ComesTo (graph : Graph) (rule : Rule) (selector : Selector) (stage : Block) :
    Draft → List Rule → Prop
  | here {draft : Draft} {rest : List Rule} {earlier later : List Selector}
      (selectors : draft.block.selectorsOf rule.head.id = earlier ++ selector :: later)
      (reached : earlier.foldlM (addSelector graph rule) draft.block = .ok stage) :
      ComesTo graph rule selector stage draft (rule :: rest)
  | later {draft next : Draft} {first : Rule} {rest : List Rule}
      (added : addRule graph draft first = .ok next)
      (comes : ComesTo graph rule selector stage next rest) :
      ComesTo graph rule selector stage draft (first :: rest)

end Draft

/-- Two stages of a block while its selectors are read: the later one has all names of the earlier
one, and none of them twice if they were not. -/
structure Block.Continues (before after : Block) : Prop where
  grows : before.Grows after
  unique : before.HasUniqueNames → after.HasUniqueNames

namespace Block.Continues

theorem refl (block : Block) : block.Continues block :=
  ⟨.refl block, id⟩

theorem trans {first second third : Block} (before : first.Continues second)
    (after : second.Continues third) : first.Continues third :=
  ⟨before.grows.trans after.grows, fun start => after.unique (before.unique start)⟩

/-- A change that leaves all names as they are. -/
theorem of_names {before after : Block} (classes : after.classNames = before.classNames)
    (states : ∀ owner, after.stateNames? owner = before.stateNames? owner) :
    before.Continues after :=
  ⟨.of_names classes states, fun unique => unique.of_names classes states⟩

end Block.Continues

namespace Legality

theorem continues_classify {graph : Graph} {selector : Selector} {block after : Block}
    {key : Option ObjectKey} (classified : classify graph block selector = .ok (after, key)) :
    block.Continues after := by
  obtain ⟨objects, all, _⟩ := classify_eq_ok classified
  have read := areRead_classifyAll all
  exact ⟨read.grows, read.unique⟩

end Legality

namespace Draft

variable {graph : Graph} {rule : Rule}

/-- Recording a selector classifies it first, and adds no names after that. -/
theorem addSelector_eq_ok {block after : Block} {selector : Selector}
    (added : addSelector graph rule block selector = .ok after) :
    ∃ read key, Legality.classify graph block selector = .ok (read, key) ∧
      read.Continues after := by
  unfold addSelector at added
  split at added
  · cases added
  · cases added
    exact ⟨after, none, ‹_›, .refl after⟩
  · rename_i read key classified
    cases added
    obtain ⟨classes, states⟩ := read.names_modifyProperties key _
    exact ⟨read, some key, classified, .of_names classes states⟩

theorem continues_addSelector {block after : Block} {selector : Selector}
    (added : addSelector graph rule block selector = .ok after) : block.Continues after := by
  obtain ⟨read, key, classified, last⟩ := addSelector_eq_ok added
  exact (Legality.continues_classify classified).trans last

theorem continues_addSelectors {block after : Block} {selectors : List Selector}
    (added : selectors.foldlM (addSelector graph rule) block = .ok after) :
    block.Continues after :=
  foldlM_keeps block.Continues (fun _ before added => before.trans (continues_addSelector added))
    (.refl block) added

theorem addRule_eq_ok {draft after : Draft} (added : addRule graph draft rule = .ok after) :
    (draft.block.selectorsOf rule.head.id).foldlM (addSelector graph rule) draft.block =
      .ok after.block := by
  obtain ⟨_, -, added⟩ := bind_eq_ok_iff.mp added
  obtain ⟨block, folded, added⟩ := bind_eq_ok_iff.mp added
  cases added
  exact folded

theorem continues_addRule {draft after : Draft} (added : addRule graph draft rule = .ok after) :
    draft.block.Continues after.block :=
  continues_addSelectors (addRule_eq_ok added)

theorem continues_addRules {draft after : Draft} {rules : List Rule}
    (added : rules.foldlM (addRule graph) draft = .ok after) :
    draft.block.Continues after.block :=
  foldlM_keeps (fun next => draft.block.Continues next.block)
    (fun _ before added => before.trans (continues_addRule added)) (.refl draft.block) added

/-- Every selector of every rule is come to. -/
theorem exists_comesTo {draft last : Draft} {rules : List Rule} {selector : Selector}
    (added : rules.foldlM (addRule graph) draft = .ok last) (member : rule ∈ rules)
    (written : selector ∈ draft.block.selectorsOf rule.head.id) :
    ∃ stage, ComesTo graph rule selector stage draft rules := by
  induction rules generalizing draft with
  | nil => nomatch member
  | cons first rest ih =>
    rw [List.foldlM_cons] at added
    obtain ⟨next, one, added⟩ := bind_eq_ok_iff.mp added
    rcases List.mem_cons.mp member with rfl | member
    · obtain ⟨earlier, later, selectors⟩ := List.append_of_mem written
      have folded := addRule_eq_ok one
      rw [selectors, List.foldlM_append] at folded
      obtain ⟨stage, reached, _⟩ := bind_eq_ok_iff.mp folded
      exact ⟨stage, .here selectors reached⟩
    · have kept : next.block.selectorsOf = draft.block.selectorsOf := by
        unfold Block.selectorsOf
        rw [(sameSource_addRule one).selectors]
      obtain ⟨stage, comes⟩ := ih added member (kept ▸ written)
      exact ⟨stage, .later one comes⟩

/-- Where recording comes to a selector, the selector is classified, and the block only grows from
there. -/
theorem ComesTo.classified {draft last : Draft} {rules : List Rule} {selector : Selector}
    {stage : Block} (comes : ComesTo graph rule selector stage draft rules)
    (added : rules.foldlM (addRule graph) draft = .ok last) :
    draft.block.Continues stage ∧ ∃ read key,
      Legality.classify graph stage selector = .ok (read, key) ∧ read.Continues last.block := by
  induction comes with
  | here selectors reached =>
    rw [List.foldlM_cons] at added
    obtain ⟨next, one, added⟩ := bind_eq_ok_iff.mp added
    have folded := addRule_eq_ok one
    rw [selectors, List.foldlM_append] at folded
    obtain ⟨again, reached', folded⟩ := bind_eq_ok_iff.mp folded
    cases reached.symm.trans reached'
    rw [List.foldlM_cons] at folded
    obtain ⟨after, here, folded⟩ := bind_eq_ok_iff.mp folded
    obtain ⟨read, key, classified, onward⟩ := addSelector_eq_ok here
    exact ⟨continues_addSelectors reached, read, key, classified,
      (onward.trans (continues_addSelectors folded)).trans (continues_addRules added)⟩
  | later one comes ih =>
    rw [List.foldlM_cons] at added
    obtain ⟨next, one', added⟩ := bind_eq_ok_iff.mp added
    cases one.symm.trans one'
    obtain ⟨before, rest⟩ := ih added
    exact ⟨(continues_addRule one).trans before, rest⟩

/-- A block that has neither classes nor states. -/
def HasNoObjects (block : Block) : Prop :=
  block.classes = [] ∧ block.states = []

theorem HasNoObjects.unique {block : Block} (bare : HasNoObjects block) :
    block.HasUniqueNames where
  classes := by simp [Block.classNames, bare.1]
  noRoot := by simp [Block.classNames, bare.1]
  states owner names known := by
    cases owner with
    | none =>
      cases known
      simp [bare.2]
    | some index => simp [Block.stateNames?, Block.statesOf?, bare.1] at known

theorem hasNoObjects_ofSheet {sheet : Sheet} {identifier : FileId}
    {debugIdentifier defaultName : String} {draft : Draft}
    (drafted : ofSheet sheet identifier debugIdentifier defaultName = .ok draft) :
    HasNoObjects draft.block := by
  obtain ⟨selectors, -, drafted⟩ := bind_eq_ok_iff.mp drafted
  obtain ⟨name, -, drafted⟩ := bind_eq_ok_iff.mp drafted
  cases drafted
  exact ⟨rfl, rfl⟩

/-- Local names, the extended block and the implemented ones are no objects. -/
theorem hasNoObjects_prepare {draft prepared : Draft} {graph : Graph}
    {defaultName : FileId → String} {links : List (Link × BlockId)}
    (bare : HasNoObjects draft.block)
    (done : draft.prepare graph defaultName links = .ok prepared) :
    HasNoObjects prepared.block := by
  obtain ⟨linked, folded, done⟩ := bind_eq_ok_iff.mp done
  have bare := foldlM_keeps (fun draft => HasNoObjects draft.block) (fun {draft link after} _ bare
      added => by
    unfold addLink at added
    dsimp only at added
    split at added
    · cases added
    · cases added
      exact bare) bare folded
  obtain ⟨extended, folded, done⟩ := bind_eq_ok_iff.mp done
  have bare := foldlM_keeps HasNoObjects (fun {block declaration after} _ bare added => by
    unfold addExtension at added
    dsimp only at added
    split at added
    · cases added
    · obtain ⟨base, -, added⟩ := bind_eq_ok_iff.mp added
      cases added
      exact bare) bare folded
  obtain ⟨implementing, folded, done⟩ := bind_eq_ok_iff.mp done
  have bare := foldlM_keeps HasNoObjects (fun {block declaration after} _ bare added =>
    foldlM_keeps HasNoObjects (fun {block name after} _ bare added => by
      obtain ⟨id, -, added⟩ := bind_eq_ok_iff.mp added
      cases added
      unfold Block.addImplemented
      split <;> exact bare) bare added) bare folded
  cases done
  exact bare

end Draft

/-- Neither dependencies nor the final name of a block touch its objects. -/
theorem Block.continues_named {body block : Block} {dependencies : List String} {name : String}
    (named : (body.addDependencies dependencies).setName name = .ok block) :
    body.Continues block := by
  unfold setName at named
  split at named
  · cases named
  · cases named
    exact .of_names rfl fun owner => by cases owner <;> rfl

namespace Block.Loading

variable {block : Block}

/-- The load comes to a selector of a rule when the block has reached a stage. -/
def ComesTo (loading : block.Loading) (rule : Rule) (selector : Selector) (stage : Block) : Prop :=
  ∃ prepared, loading.draft.prepare loading.graph loading.defaults loading.links = .ok prepared ∧
    Draft.ComesTo loading.graph rule selector stage prepared prepared.block.sheet.styleRules

/-- What a load does with the style rules of its sheet. -/
theorem rules (loading : block.Loading) :
    ∃ prepared last, loading.draft.prepare loading.graph loading.defaults loading.links =
        .ok prepared ∧
      prepared.block.sheet.styleRules.foldlM (Draft.addRule loading.graph) prepared = .ok last ∧
      Draft.HasNoObjects prepared.block ∧ prepared.block.SameSource block ∧
      last.block.Continues block := by
  obtain ⟨prepared, last, done, added, same⟩ := Draft.complete_eq_ok_iff.mp loading.completed
  have bare := Draft.hasNoObjects_prepare (Draft.hasNoObjects_ofSheet loading.drafted) done
  have source := foldlM_keeps (fun draft => prepared.block.SameSource draft.block)
    (fun _ kept added => kept.trans (Draft.sameSource_addRule added)) (.refl _) added
  have finished := (sameSource_addDependencies _ _).trans (sameSource_setName loading.named)
  exact ⟨prepared, last, done, added, bare, source.trans (same ▸ finished),
    same ▸ continues_named loading.named⟩

/-- The load comes to every selector of every style rule. -/
theorem exists_comesTo (loading : block.Loading) {rule : Rule} {selector : Selector}
    (style : rule ∈ block.sheet.styleRules) (written : selector ∈ block.selectorsOf rule.head.id) :
    ∃ stage, loading.ComesTo rule selector stage := by
  obtain ⟨prepared, last, done, added, _, source, _⟩ := loading.rules
  rw [source.sheet] at style
  have kept : block.selectorsOf = prepared.block.selectorsOf := by
    unfold selectorsOf
    rw [source.selectors]
  obtain ⟨stage, comes⟩ := Draft.exists_comesTo added style (kept ▸ written)
  exact ⟨stage, prepared, done, comes⟩

/-- Every selector that a load comes to is classified, and all names it registers stay those of the
block. -/
theorem classified (loading : block.Loading) {rule : Rule} {selector : Selector} {stage : Block}
    (comes : loading.ComesTo rule selector stage) :
    stage.HasUniqueNames ∧ ∃ read key,
      Legality.classify loading.graph stage selector = .ok (read, key) ∧ read.Grows block := by
  obtain ⟨prepared, last, done, added, bare, _, onward⟩ := loading.rules
  obtain ⟨prepared', done', comes⟩ := comes
  cases done.symm.trans done'
  obtain ⟨before, read, key, classified, after⟩ := comes.classified added
  exact ⟨before.unique bare.unique, read, key, classified, (after.trans onward).grows⟩

/-- In a loaded block no name is given twice. -/
theorem hasUniqueNames (loading : block.Loading) : block.HasUniqueNames := by
  obtain ⟨prepared, last, _, added, bare, _, onward⟩ := loading.rules
  exact ((Draft.continues_addRules added).trans onward).unique bare.unique

end Block.Loading

end StyleBlock
