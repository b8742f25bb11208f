import StyleBlock.Compile.Basic
import StyleBlock.Proofs.Annotations
import StyleBlock.Proofs.Generated
import StyleBlock.Proofs.RuleHeads

/-!
What compiling leaves as it is. Apart from the rules that are added, a compiled sheet is the sheet
of the block with these edits only: debug statements and references leave the top level, root rules
lose the declarations that configure the block, style rules get their rewritten selectors, and rules
lose their resolutions.
-/

namespace StyleBlock

open Conflict (withoutResolutions)

mutual

/-- A node without the rules in it whose number is `limit` or above. -/
def Node.before (limit : RuleId) : Node → List Node
  | .rule head nodes => if head.id < limit then [.rule head (nodesBefore limit nodes)] else []
  | .group head nodes => [.group head (nodesBefore limit nodes)]
  | node => [node]

/-- Nodes without the rules, at any depth, whose number is `limit` or above. -/
def nodesBefore (limit : RuleId) : List Node → List Node
  | [] => []
  | node :: rest => node.before limit ++ nodesBefore limit rest

end

/-- The head of a style rule with its selectors rewritten one by one. -/
def RuleHead.rewritten (rewrite : Selector → Selector) (head : RuleHead) : RuleHead :=
  { head with selector := selectorList (head.parsed.map rewrite) }

/-- Whether a node is no declaration that asks for a conflict to be settled. -/
def Node.isConcrete : Node → Bool
  | .declaration content => !Resolution.isAsked content.value
  | _ => true

mutual

/-- A node with the selectors of its style rules rewritten and without the resolutions of its
rules. `styles` is false inside the steps of an animation. -/
def Node.edited (rewrite : Selector → Selector) (styles : Bool) : Node → Node
  | .rule head nodes =>
    .rule (if styles then head.rewritten rewrite else head)
      ((editedIn rewrite styles nodes).filter Node.isConcrete)
  | .group head nodes => .group head (editedIn rewrite (styles && !head.holdsKeyframes) nodes)
  | node => node

/-- Nodes with all style rules rewritten and no resolution in any rule. -/
def editedIn (rewrite : Selector → Selector) (styles : Bool) : List Node → List Node
  | [] => []
  | node :: rest => node.edited rewrite styles :: editedIn rewrite styles rest

end

/-- Whether a node is none of the declarations that configure the block. -/
def Node.isStyling : Node → Bool
  | .declaration content => content.property ∉ ["extends", "implements", "block-name"]
  | _ => true

/-- A top-level node without the declarations that configure the block, which only a rule with a
bare root has; such a rule goes when nothing is left in it. -/
def Node.withoutBookkeeping : Node → Option Node
  | .rule head nodes =>
    if .ofCompound ⟨[.className "root"], none⟩ ∈ head.parsed then
      let kept := nodes.filter Node.isStyling
      if kept.isEmpty then none else some (.rule head kept)
    else some (.rule head nodes)
  | node => some node

namespace Block

/-- The comment that answers a debug statement, if it asks for one. -/
def dump? (graph : Graph) (mode : OutputMode) (id : BlockId) (block : Block) (head : AtHead) :
    Option Node :=
  match DebugRequest.parse id block head.params (block.sheet.location head.place) with
  | .ok ⟨target, .comment⟩ =>
    some (.comment (" " ++ "\n".intercalate (graph.listing mode target) ++ "\n"))
  | _ => none

/-- What becomes of a top-level node. -/
def topNode? (graph : Graph) (mode : OutputMode) (id : BlockId) (block : Block) (node : Node) :
    Option Node :=
  match node with
  | .statement head | .group head _ =>
    if head.name = "block-debug" then block.dump? graph mode id head
    else if head.name = "block-reference" then none
    else some node
  | node => node.withoutBookkeeping

/-- The nodes that the top level keeps. -/
def topNodes (graph : Graph) (mode : OutputMode) (id : BlockId) (block : Block) : List Node :=
  block.sheet.nodes.filterMap (block.topNode? graph mode id)

/-- The sheet of a block as compiling is to leave it, added rules apart. -/
def editedNodes (graph : Graph) (mode : OutputMode) (id : BlockId) (block : Block) : List Node :=
  editedIn (classSelector graph id mode) true (block.topNodes graph mode id)

end Block

/-! What the passes of the compiler recognise -/

theorem withoutResolutions_eq (nodes : List Node) :
    withoutResolutions nodes = nodes.filter Node.isConcrete := by
  apply List.filter_congr
  intro node member
  cases node with
  | declaration content => simp only [content.isResolution_eq, Node.isConcrete]
  | rule | statement | group | comment => rfl

theorem Compile.not_isBookkeepingNode (node : Node) :
    (!isBookkeepingNode node) = node.isStyling := by
  cases node with
  | declaration content => simp [isBookkeepingNode, isBookkeeping, Node.isStyling]
  | rule | statement | group | comment => rfl

theorem SimpleSelector.isRoot_iff {node : SimpleSelector} :
    node.isRoot = true ↔ node = .className "root" :=
  decide_eq_true_iff

theorem Selector.isRoot_iff {selector : Selector} :
    selector.isRoot = true ↔ selector = .ofCompound ⟨[.className "root"], none⟩ := by
  obtain ⟨⟨nodes, pseudo⟩, tail⟩ := selector
  unfold isRoot ofCompound
  match nodes with
  | [] | _ :: _ :: _ => simp
  | [node] => simp [SimpleSelector.isRoot_iff, and_assoc, and_comm]

theorem isRootRule_iff {selectors : List Selector} :
    isRootRule selectors = true ↔
      .ofCompound ⟨[.className "root"], none⟩ ∈ selectors := by
  simp [isRootRule, Selector.isRoot_iff]

section Below

variable {limit : RuleId}

theorem nodesBefore_append (first second : List Node) :
    nodesBefore limit (first ++ second) = nodesBefore limit first ++ nodesBefore limit second := by
  induction first with
  | nil => rfl
  | cons node rest ih => simp [nodesBefore, ih]

/-- Rules that were added later all go. -/
theorem nodesBefore_rules {rules : List Rule} (added : ∀ rule ∈ rules, limit ≤ rule.head.id) :
    nodesBefore limit (rules.map Rule.toNode) = [] := by
  induction rules with
  | nil => rfl
  | cons rule rest ih =>
    have first := added rule (List.mem_cons_self ..)
    have later := ih fun other member => added other (List.mem_cons_of_mem rule member)
    simp [nodesBefore, Rule.toNode, Node.before, Nat.not_lt.mpr first, later]

/-- Taking out resolutions and taking out added rules do not meet. -/
theorem nodesBefore_withoutResolutions (nodes : List Node) :
    nodesBefore limit (withoutResolutions nodes) =
      withoutResolutions (nodesBefore limit nodes) := by
  induction nodes with
  | nil => rfl
  | cons node rest ih =>
    unfold withoutResolutions at ih ⊢
    rw [nodesBefore, List.filter_append, ← ih, List.filter_cons]
    cases node with
    | rule head nodes => by_cases kept : head.id < limit <;> simp [nodesBefore, Node.before, kept]
    | declaration content =>
      by_cases asks : content.isResolution = true <;> simp [nodesBefore, Node.before, asks]
    | statement | group | comment => simp [nodesBefore, Node.before]

end Below

mutual

/-- A node without the resolutions of its rules. -/
def Node.settled : Node → Node
  | .rule head nodes => .rule head (withoutResolutions (settledIn nodes))
  | .group head nodes => .group head (settledIn nodes)
  | node => node

/-- Nodes without the resolutions of all rules in them. -/
def settledIn : List Node → List Node
  | [] => []
  | node :: rest => node.settled :: settledIn rest

end

namespace Conflict

/-- Settling adds rules and takes resolutions out, and does nothing else. -/
theorem Settling.nodesBefore_eq {context : Context} {limit start next : RuleId}
    {nodes others : List Node} (settling : Settling context start nodes others next)
    (old : ∀ number ∈ numbersIn nodes, number < limit) (free : limit ≤ start) :
    nodesBefore limit others = settledIn nodes := by
  induction settling with
  | nil => rfl
  | @rule _ _ _ _ head _ _ _ _ _ inside answered _ ih ihRest =>
    have onward := free.trans inside.onward
    have below := ih (fun number member => old number (by simp [member])) free
    have belowRest := ihRest (fun number member => old number (by simp [member]))
      (onward.trans answered.numbered.onward)
    have number : head.id < limit := old head.id (by simp)
    have added := nodesBefore_rules fun rule member =>
      onward.trans (answered.numbered.fresh rule member)
    simp [nodesBefore_append, nodesBefore, Node.before, number, added,
      nodesBefore_withoutResolutions, below, belowRest, settledIn, Node.settled]
  | group inside _ ih ihRest =>
    have below := ih (fun number member => old number (by simp [member])) free
    have belowRest := ihRest (fun number member => old number (by simp [member]))
      (free.trans inside.onward)
    simp [nodesBefore, Node.before, below, belowRest, settledIn, Node.settled]
  | statement _ ih | declaration _ ih | comment _ ih =>
    simp [nodesBefore, Node.before, ih old free, settledIn, Node.settled]

end Conflict

section Named

variable {selectors : RuleId → List Selector} {added : Rule → List Declaration}

@[simp] theorem RuleHead.id_withSelectors (head : RuleHead) (selectors : List Selector) :
    (head.withSelectors selectors).id = head.id := by
  unfold RuleHead.withSelectors
  split <;> rfl

theorem nodesWithSelectors_append (first second : List Node) :
    nodesWithSelectors selectors (first ++ second) =
      nodesWithSelectors selectors first ++ nodesWithSelectors selectors second := by
  induction first with
  | nil => rfl
  | cons node rest ih => simp [nodesWithSelectors, ih]

theorem nodesWithSelectors_declarations (declarations : List Declaration) :
    nodesWithSelectors selectors (declarations.map .declaration) =
      declarations.map .declaration := by
  induction declarations with
  | nil => rfl
  | cons declaration rest ih => simp [nodesWithSelectors, Node.withSelectors, ih]

mutual

theorem Node.ruleHeads_named (node : Node) :
    ruleHeads [(node.prepend added).withSelectors selectors] =
      (ruleHeads [node]).map fun head => head.withSelectors (selectors head.id) := by
  cases node with
  | rule head nodes =>
    simp [Node.prepend, Node.withSelectors, nodesWithSelectors_append,
      nodesWithSelectors_declarations, StyleBlock.ruleHeads_named nodes]
  | group head nodes => simp [Node.prepend, Node.withSelectors, StyleBlock.ruleHeads_named nodes]
  | statement | declaration | comment => rfl

/-- Rules keep their heads, but for the selectors, when declarations are put in front and selectors
are replaced. -/
theorem ruleHeads_named (nodes : List Node) :
    ruleHeads (nodesWithSelectors selectors (prependIn added nodes)) =
      (ruleHeads nodes).map fun head => head.withSelectors (selectors head.id) := by
  cases nodes with
  | nil => rfl
  | cons node rest =>
    rw [prependIn, nodesWithSelectors, ruleHeads_cons, node.ruleHeads_named, ruleHeads_named rest,
      ruleHeads_cons node rest, List.map_append]

end

theorem numbersIn_named (nodes : List Node) :
    numbersIn (nodesWithSelectors selectors (prependIn added nodes)) = numbersIn nodes := by
  rw [numbersIn_eq, numbersIn_eq, ruleHeads_named, List.map_map]
  simp [Function.comp_def]

theorem settledIn_append (first second : List Node) :
    settledIn (first ++ second) = settledIn first ++ settledIn second := by
  induction first with
  | nil => rfl
  | cons node rest ih => simp [settledIn, ih]

theorem settledIn_declarations (declarations : List Declaration) :
    settledIn (declarations.map .declaration) = declarations.map .declaration := by
  induction declarations with
  | nil => rfl
  | cons declaration rest ih => simp [settledIn, Node.settled, ih]

theorem withoutResolutions_declarations {declarations : List Declaration}
    (resolutions : ∀ declaration ∈ declarations, declaration.isResolution = true) :
    withoutResolutions (declarations.map .declaration) = [] := by
  unfold withoutResolutions
  simpa using resolutions

theorem withoutResolutions_append (first second : List Node) :
    withoutResolutions (first ++ second) =
      withoutResolutions first ++ withoutResolutions second :=
  List.filter_append ..

variable {rewrite : Selector → Selector}

mutual

theorem Node.settled_named {styles : Bool} {node : Node}
    (resolutions : ∀ rule, ∀ declaration ∈ added rule, declaration.isResolution = true)
    (named : ∀ entry ∈ node.heads styles, entry.2.withSelectors (selectors entry.2.id) =
      if entry.1 then entry.2.rewritten rewrite else entry.2) :
    ((node.prepend added).withSelectors selectors).settled = node.edited rewrite styles := by
  cases node with
  | rule head nodes =>
    have own := named (styles, head) (List.mem_cons_self ..)
    have inner := settledIn_named resolutions fun entry member =>
      named entry (List.mem_cons_of_mem _ member)
    dsimp only at own
    simp only [Node.prepend, Node.withSelectors, Node.settled, Node.edited, own,
      nodesWithSelectors_append, nodesWithSelectors_declarations, settledIn_append,
      settledIn_declarations, withoutResolutions_append,
      withoutResolutions_declarations (resolutions _), List.nil_append, inner,
      ← withoutResolutions_eq]
  | group head nodes =>
    have inner := settledIn_named resolutions (named : ∀ entry ∈ headsIn _ nodes, _)
    simp only [Node.prepend, Node.withSelectors, Node.settled, Node.edited, inner]
  | statement | declaration | comment => rfl

/-- The declarations put in front of rules go again when the rules are settled. -/
theorem settledIn_named {styles : Bool} {nodes : List Node}
    (resolutions : ∀ rule, ∀ declaration ∈ added rule, declaration.isResolution = true)
    (named : ∀ entry ∈ headsIn styles nodes, entry.2.withSelectors (selectors entry.2.id) =
      if entry.1 then entry.2.rewritten rewrite else entry.2) :
    settledIn (nodesWithSelectors selectors (prependIn added nodes)) =
      editedIn rewrite styles nodes := by
  cases nodes with
  | nil => rfl
  | cons node rest =>
    have first := Node.settled_named resolutions fun entry member =>
      named entry (List.mem_append_left _ member)
    have later := settledIn_named resolutions fun entry member =>
      named entry (List.mem_append_right _ member)
    simp only [prependIn, nodesWithSelectors, settledIn, editedIn, first, later]

end

end Named

section TopLevel

variable {graph : Graph} {mode : OutputMode} {id : BlockId} {block : Block}

/-- A top-level node once debug statements are answered. -/
def Block.answered? (graph : Graph) (mode : OutputMode) (id : BlockId) (block : Block)
    (node : Node) : Option Node :=
  match node.debug? with
  | some head => block.dump? graph mode id head
  | none => some node

theorem runDebug_eq_ok {output : DebugOutput} {nodes left : List Node}
    (answered : (runDebug graph mode id block output nodes).2 = .ok left) :
    left = nodes.filterMap (block.answered? graph mode id) := by
  induction nodes generalizing output left with
  | nil =>
    cases answered
    rfl
  | cons node rest ih =>
    unfold runDebug at answered
    split at answered
    · rename_i plain
      obtain ⟨others, later, rfl⟩ := map_eq_ok_iff.mp answered
      simp [Block.answered?, plain, ih later]
    · rename_i head asks
      split at answered
      · cases answered
      · rename_i request read
        obtain ⟨target, channel⟩ := request
        cases channel with
        | comment =>
          obtain ⟨others, later, rfl⟩ := map_eq_ok_iff.mp answered
          simp [Block.answered?, Block.dump?, asks, read, ih later]
        | stderr | stdout => simp [Block.answered?, Block.dump?, asks, read, ih answered]

theorem stripRoot_eq {node : Node} (named : ∀ head nodes, node = .rule head nodes →
      block.selectorsOf head.id = head.parsed) :
    Compile.stripRoot block node = node.withoutBookkeeping := by
  cases node with
  | rule head nodes =>
    simp only [Compile.stripRoot, Node.withoutBookkeeping, named head nodes rfl, isRootRule_iff,
      Compile.not_isBookkeepingNode]
  | statement | group | declaration | comment => rfl

/-- Later passes leave the answer to a debug statement alone, which is a comment. -/
theorem dump_bind (head : AtHead) :
    ((block.dump? graph mode id head).bind fun left =>
        if Compile.isReference left then none else Compile.stripRoot block left) =
      block.dump? graph mode id head := by
  unfold Block.dump?
  split <;> rfl

theorem topNode_eq_bind {node : Node} (named : ∀ head nodes, node = .rule head nodes →
      block.selectorsOf head.id = head.parsed) :
    block.topNode? graph mode id node =
      (block.answered? graph mode id node).bind fun left =>
        if Compile.isReference left then none else Compile.stripRoot block left := by
  cases node with
  | rule head nodes => exact (stripRoot_eq named).symm
  | statement head | group head nodes =>
    by_cases asks : head.name = "block-debug"
    · simp only [Block.topNode?, Block.answered?, Node.debug?, asks, if_true, dump_bind]
    · by_cases refers : head.name = "block-reference" <;>
        simp [Block.topNode?, Block.answered?, Node.debug?, Compile.isReference, Compile.stripRoot,
          asks, refers]
  | declaration | comment => rfl

/-- The three passes over the top level do what the edits say. -/
theorem filterMap_topNode {nodes : List Node} (named : ∀ head body, .rule head body ∈ nodes →
      block.selectorsOf head.id = head.parsed) :
    ((nodes.filterMap (block.answered? graph mode id)).filter
        fun node => !Compile.isReference node).filterMap (Compile.stripRoot block) =
      nodes.filterMap (block.topNode? graph mode id) := by
  rw [List.filterMap_filter, List.filterMap_filterMap]
  apply List.filterMap_congr
  intro node member
  rw [topNode_eq_bind fun head body same => named head body (same ▸ member)]
  congr 1
  funext left
  cases Compile.isReference left <;> rfl

theorem headsIn_filter_sublist (styles : Bool) (nodes : List Node) (test : Node → Bool) :
    (headsIn styles (nodes.filter test)).Sublist (headsIn styles nodes) := by
  induction nodes with
  | nil => exact .refl _
  | cons node rest ih =>
    rw [List.filter_cons]
    split
    · exact ih.append_left _
    · exact ih.trans (List.sublist_append_right _ _)

theorem heads_sublist_of_withoutBookkeeping {node kept : Node}
    (same : node.withoutBookkeeping = some kept) :
    (kept.heads true).Sublist (node.heads true) := by
  unfold Node.withoutBookkeeping at same
  split at same
  · split at same
    · dsimp only at same
      split at same
      · cases same
      · cases same
        exact (headsIn_filter_sublist true _ _).cons_cons _
    · cases same
      exact .refl _
  · cases same
    exact .refl _

theorem heads_of_dump {head : AtHead} {kept : Node}
    (same : block.dump? graph mode id head = some kept) : kept.heads true = [] := by
  unfold Block.dump? at same
  split at same
  · cases same
    rfl
  · cases same

theorem heads_sublist_of_topNode {node kept : Node}
    (same : block.topNode? graph mode id node = some kept) :
    (kept.heads true).Sublist (node.heads true) := by
  cases node with
  | rule | declaration | comment => exact heads_sublist_of_withoutBookkeeping same
  | statement head | group head nodes =>
    dsimp only [Block.topNode?] at same
    split at same
    · rw [heads_of_dump same]
      exact List.nil_sublist _
    · split at same
      · cases same
      · cases same
        exact .refl _

theorem headsIn_filterMap_topNode_sublist (nodes : List Node) :
    (headsIn true (nodes.filterMap (block.topNode? graph mode id))).Sublist
      (headsIn true nodes) := by
  induction nodes with
  | nil => exact .refl _
  | cons node rest ih =>
    rw [List.filterMap_cons]
    split
    · exact ih.trans (List.sublist_append_right _ _)
    · rename_i kept same
      exact (heads_sublist_of_topNode same).append ih

theorem mem_headsIn_of_top {nodes : List Node} {head : RuleHead} {body : List Node}
    (member : .rule head body ∈ nodes) : (true, head) ∈ headsIn true nodes := by
  induction nodes with
  | nil => cases member
  | cons node rest ih =>
    rcases List.mem_cons.mp member with rfl | later
    · exact List.mem_append_left _ (List.mem_cons_self ..)
    · exact List.mem_append_right _ (ih later)

end TopLevel

namespace Block

/-- The nodes that conflicts are settled in: annotated, with classes in place of objects. -/
def namedNodes (graph : Graph) (mode : OutputMode) (id : BlockId) (block : Block) : List Node :=
  nodesWithSelectors (classSelectors graph id mode block)
    (annotateInheritance graph id block (block.topNodes graph mode id))

variable {graph : Graph} {mode : OutputMode} {id : BlockId} {block : Block}

/-- The top level keeps rules as they come. -/
theorem headsIn_topNodes_sublist :
    (headsIn true (block.topNodes graph mode id)).Sublist (headsIn true block.sheet.nodes) :=
  headsIn_filterMap_topNode_sublist block.sheet.nodes

theorem lt_of_mem_numbersIn_namedNodes (numbered : block.sheet.IsNumbered) {number : RuleId}
    (member : number ∈ numbersIn (block.namedNodes graph mode id)) :
    number < block.sheet.nextRule := by
  unfold namedNodes annotateInheritance at member
  rw [numbersIn_named, ← map_headsIn true] at member
  obtain ⟨entry, listed, rfl⟩ := List.mem_map.mp member
  apply numbered.below
  rw [← map_headsIn true]
  exact List.mem_map.mpr ⟨entry, headsIn_topNodes_sublist.subset listed, rfl⟩

namespace Keeps

/-- Replacing the selectors of a rule of a loaded block by the ones kept under its number rewrites
the selectors of a style rule and leaves the steps of animations alone. -/
theorem withSelectors_eq {sheet : Sheet} (kept : block.Keeps sheet) (numbered : sheet.IsNumbered)
    {styles : Bool} {head : RuleHead} (member : (styles, head) ∈ headsIn true sheet.nodes) :
    head.withSelectors (classSelectors graph id mode block head.id) =
      if styles then head.rewritten (classSelector graph id mode) else head := by
  unfold classSelectors
  rw [kept.selectorsOf_eq numbered member]
  cases styles with
  | false => rfl
  | true =>
    obtain ⟨rule, style, rfl⟩ := (mem_headsIn_true_iff _ _).mp member
    have some := (Sheet.parseRules_eq kept.parsed).2 rule style
    unfold RuleHead.withSelectors
    simp [some, RuleHead.rewritten]

/-- With all resolutions taken out, the nodes are the edited nodes. -/
theorem settledIn_namedNodes (kept : block.Keeps block.sheet) (numbered : block.sheet.IsNumbered)
    (present : graph.block? id = some block) (plain : block.HasPlainNames) :
    settledIn (block.namedNodes graph mode id) = block.editedNodes graph mode id := by
  apply settledIn_named
  · intro rule declaration member
    exact Inheritance.isResolution_of_mem_annotationsOf present kept plain member
  · intro entry member
    exact kept.withSelectors_eq numbered (headsIn_topNodes_sublist.subset member)

end Keeps

end Block

/-- The rule that exports the generated names was added. -/
theorem nodesBefore_addExport {graph : Graph} {mode : OutputMode} {id : BlockId} {sheet : Sheet}
    {limit : RuleId} (added : limit ≤ sheet.nextRule) :
    nodesBefore limit (Compile.addExport graph mode id sheet).nodes =
      nodesBefore limit sheet.nodes := by
  unfold Compile.addExport
  simp [nodesBefore_append, nodesBefore, Node.before, Nat.not_lt.mpr added]

/-- What all resolutions of a block share. -/
def Block.context (graph : Graph) (mode : OutputMode) (id : BlockId) (block : Block) :
    Conflict.Context :=
  ⟨graph, id, mode, classSelectors graph id mode block⟩

/-- A compiled sheet has the settled nodes of its block, with the exporting rule behind them if it
is asked for. -/
theorem compile_eq_ok {graph : Graph} {options : Options} {id : BlockId} {block : Block}
    {sheet : Sheet} (present : graph.block? id = some block) (loaded : block.IsLoaded)
    (compiled : (compile graph options id).result = .ok sheet) :
    ∃ settled next, Conflict.settleNodes (block.context graph options.outputMode id)
      block.sheet.file block.sheet.nextRule (block.namedNodes graph options.outputMode id) =
        .ok (settled, next) ∧
      sheet = if options.exportNames
        then Compile.addExport graph options.outputMode id ⟨block.sheet.file, settled, next⟩
        else ⟨block.sheet.file, settled, next⟩ := by
  obtain ⟨kept, numbered⟩ := loaded.keeps
  unfold compile at compiled
  simp only [present] at compiled
  obtain ⟨left, answered, finished⟩ := bind_eq_ok_iff.mp compiled
  obtain rfl := runDebug_eq_ok answered
  unfold Compile.finish at finished
  dsimp only at finished
  rw [filterMap_topNode fun head body member =>
    kept.selectorsOf_eq numbered (mem_headsIn_of_top member)] at finished
  obtain ⟨⟨settled, next⟩, inner, finished⟩ := bind_eq_ok_iff.mp finished
  cases finished
  exact ⟨settled, next, inner, rfl⟩

/-- Compiling changes nothing but what it has to: without the rules that were added, the sheet is
the edited sheet of the block. -/
theorem nodesBefore_compile {graph : Graph} {options : Options} {id : BlockId} {block : Block}
    {sheet : Sheet} (present : graph.block? id = some block) (loaded : block.IsLoaded)
    (plain : block.HasPlainNames) (compiled : (compile graph options id).result = .ok sheet) :
    nodesBefore block.sheet.nextRule sheet.nodes =
      block.editedNodes graph options.outputMode id := by
  obtain ⟨kept, numbered⟩ := loaded.keeps
  obtain ⟨settled, next, inner, rfl⟩ := compile_eq_ok present loaded compiled
  have settling := Conflict.settling_of_settleNodes inner
  have before := settling.nodesBefore_eq
    (fun number member => Block.lt_of_mem_numbersIn_namedNodes numbered member) (Nat.le_refl _)
  have edited := before.trans (kept.settledIn_namedNodes numbered present plain)
  split
  · rw [nodesBefore_addExport settling.onward]
    exact edited
  · exact edited

/-- A block that sets one property of its root. -/
def dayBlock : Block :=
  { Block.bare "day" "day.css" "day.css" with
    named := true
    properties := ⟨[⟨none, "color"⟩]⟩
    sheet := ⟨"day.css", [.rule ⟨0, ".root", ⟨1, 1, 0⟩⟩
      [.declaration ⟨"color", "white", false, ⟨1, 9, 8⟩⟩]], 1⟩
    selectors := [(0, [.ofCompound ⟨[.className "root"], none⟩])] }

/-- A block that extends the other one and sets the property too. -/
def nightBlock : Block :=
  { Block.bare "night" "night.css" "night.css" with
    named := true
    extension := some ⟨⟨0⟩, "day"⟩
    references := [("day", ⟨0⟩)]
    properties := ⟨[⟨none, "color"⟩]⟩
    sheet := ⟨"night.css", [.statement ⟨"block-reference", "day from \"day.css\"", ⟨1, 1, 0⟩⟩,
      .rule ⟨0, ".root", ⟨1, 38, 37⟩⟩ [.declaration ⟨"extends", "day", false, ⟨1, 46, 45⟩⟩,
        .declaration ⟨"color", "navy", false, ⟨1, 60, 59⟩⟩]], 1⟩
    selectors := [(0, [.ofCompound ⟨[.className "root"], none⟩])] }

def nightGraph : Graph := ⟨#[some dayBlock, some nightBlock]⟩

theorem nightBlock_isLoaded : nightBlock.IsLoaded := by
  let draft : Draft := ⟨{ Block.bare "night" "night.css" "night.css" with
    sheet := nightBlock.sheet, selectors := nightBlock.selectors }, [0]⟩
  have read : parseSheet
      "@block-reference day from \"day.css\"; .root \x7b extends: day; color: navy; \x7d"
      "night.css" = .ok nightBlock.sheet := by with_unfolding_all rfl
  have drafted : Draft.ofSheet nightBlock.sheet "night.css" "night.css" "night" = .ok draft := by
    with_unfolding_all rfl
  have completed : draft.complete ⟨#[some dayBlock, none]⟩ id
      [(⟨⟨some "day", "day.css"⟩, "day.css", ⟨"night.css", 1, 1, 0⟩⟩, ⟨0⟩)] =
      .ok { nightBlock with named := false } := by with_unfolding_all rfl
  have named : ({ nightBlock with named := false }.addDependencies []).setName "night" =
      .ok nightBlock := by with_unfolding_all rfl
  exact .intro read drafted completed named

theorem nightBlock_hasPlainNames : nightBlock.HasPlainNames := by
  refine ⟨?_, nofun, ?_⟩
  · have day : IsPlainText "day" := List.all_eq_true.mp (by decide)
    simpa [nightBlock] using day
  · intro owner states found state member
    cases owner <;> simp_all [Block.statesOf?, nightBlock, Block.bare]

/-- Compiling the block, whose conflict with the other one adds a rule, keeps its sheet. -/
theorem nightBlock_keeps_source :
    ∃ sheet, (compile nightGraph .default ⟨1⟩).result = .ok sheet ∧
      nodesBefore nightBlock.sheet.nextRule sheet.nodes =
        nightBlock.editedNodes nightGraph .bem ⟨1⟩ := by
  have works : (compile nightGraph .default ⟨1⟩).result.isOk = true := by decide +kernel
  cases compiled : (compile nightGraph .default ⟨1⟩).result with
  | error error => simp [compiled, Except.isOk, Except.toBool] at works
  | ok sheet =>
    exact ⟨sheet, rfl, nodesBefore_compile rfl nightBlock_isLoaded nightBlock_hasPlainNames
      compiled⟩

end StyleBlock
