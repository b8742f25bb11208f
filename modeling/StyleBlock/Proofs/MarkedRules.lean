import StyleBlock.Proofs.Resolving
import StyleBlock.Proofs.SourceKept

/-!
Rules with marks in front. If a rule resolves nothing itself and each mark is opposed by a rule of
the object it leads to, settling the rule fails in nothing but merging selectors, and the values of
the rule win against all rules that oppose it.
-/

namespace StyleBlock

namespace Conflict

/-! Bodies that start with marks -/

section Bodies

variable {property : String} {nodes rest : List Node} {marks : List Declaration}

theorem mem_declarationsOf_iff {declaration : Declaration} {index : Nat} :
    (declaration, index) ∈ declarationsOf property nodes ↔
      nodes[index]? = some (.declaration declaration) ∧ declaration.property = property := by
  simp only [declarationsOf, List.mem_filterMap, Prod.exists, List.mem_zipIdx_iff_getElem?]
  constructor
  · rintro ⟨node, place, placed, found⟩
    split at found
    · next content =>
      split at found
      · next same =>
        cases found
        exact ⟨placed, same⟩
      · cases found
    · cases found
  · rintro ⟨placed, same⟩
    exact ⟨_, _, placed, by simp [same]⟩

theorem declarationsOf_append (property : String) (first second : List Node) :
    declarationsOf property (first ++ second) = declarationsOf property first ++
      (declarationsOf property second).map fun (declaration, index) =>
        (declaration, first.length + index) := by
  unfold declarationsOf
  rw [List.zipIdx_append, List.filterMap_append, Nat.zero_add,
    @List.zipIdx_eq_map_add _ second first.length, List.filterMap_map, List.map_filterMap]
  refine congrArg (_ ++ ·) (List.filterMap_congr fun entry _ => ?_)
  obtain ⟨node, index⟩ := entry
  cases node with
  | declaration content =>
    by_cases same : content.property = property <;> simp [same]
  | rule | statement | group | comment => rfl

theorem map_declarationsOf (property : String) (nodes : List Node) :
    (declarationsOf property nodes).map Prod.fst =
      (declarationsIn nodes).filter (·.property = property) := by
  induction nodes with
  | nil => rfl
  | cons node rest ih =>
    have split := declarationsOf_append property [node] rest
    have later : (declarationsOf property rest).map
        (Prod.fst ∘ fun (declaration, index) => (declaration, [node].length + index)) =
          (declarationsIn rest).filter (·.property = property) := ih
    rw [List.singleton_append] at split
    rw [split, List.map_append, List.map_map, later]
    cases node with
    | declaration content =>
      by_cases same : content.property = property <;> simp [same, declarationsOf, declarationsIn]
    | rule | statement | group | comment => rfl

/-- Where all resolutions of a property stand before a place and all its values behind it, the
values are legal. -/
theorem localValues_of_split {front values : List (Declaration × Nat)} {place : Nat}
    (split : declarationsOf property nodes = front ++ values)
    (before : ∀ entry ∈ front, entry.1.isResolution = true ∧ entry.2 < place)
    (behind : ∀ entry ∈ values, entry.1.isResolution = false ∧ place ≤ entry.2)
    (filled : values ≠ []) :
    ∃ last, place ≤ last ∧ localValues nodes property = .ok (values.map Prod.fst, last) := by
  have concrete : (declarationsOf property nodes).filter
      (fun (declaration, _) => !declaration.isResolution) = values := by
    have none : front.filter (fun (declaration, _) => !declaration.isResolution) = [] :=
      List.filter_eq_nil_iff.mpr fun entry member => by simp [(before entry member).1]
    have all : values.filter (fun (declaration, _) => !declaration.isResolution) = values :=
      List.filter_eq_self.mpr fun entry member => by simp [(behind entry member).1]
    rw [split, List.filter_append, none, all, List.nil_append]
  obtain ⟨first, isFirst⟩ := Option.ne_none_iff_exists'.mp (mt List.head?_eq_none_iff.mp filled)
  obtain ⟨last, isLast⟩ := Option.ne_none_iff_exists'.mp (mt List.getLast?_eq_none_iff.mp filled)
  have inOrder : (declarationsOf property nodes).any (fun (declaration, index) =>
      declaration.isResolution && first.2 < index && index < last.2) = false := by
    rw [split, List.any_eq_false]
    intro entry member
    have start := (behind first (List.mem_of_head? isFirst)).2
    rcases List.mem_append.mp member with inFront | inValues
    · have below := (before entry inFront).2
      have early : ¬ first.2 < entry.2 := by omega
      simp [early]
    · simp [(behind entry inValues).1]
  refine ⟨last.2, (behind last (List.mem_of_getLast? isLast)).2, ?_⟩
  unfold localValues
  simp only [concrete, isFirst, isLast, inOrder]
  rfl

/-- The values of a property in a body behind marks are those of the rest of the body, and the last
one stands behind all marks. -/
theorem localValues_marked (marked : ∀ mark ∈ marks, mark.isResolution = true)
    (concrete : ∀ declaration ∈ declarationsIn rest, declaration.isResolution = false)
    (declared : property ∈ (declarationsIn rest).map Declaration.property) :
    ∃ last, marks.length ≤ last ∧
      localValues (marks.map .declaration ++ rest) property =
        .ok ((declarationsIn rest).filter (·.property = property), last) := by
  have own := map_declarationsOf property rest
  have split := declarationsOf_append property (marks.map .declaration) rest
  rw [List.length_map] at split
  have values : ((declarationsOf property rest).map fun (declaration, index) =>
      (declaration, marks.length + index)).map Prod.fst =
        (declarationsIn rest).filter (·.property = property) := by
    rw [List.map_map]
    exact own
  rw [← values]
  apply localValues_of_split split
  · rintro ⟨declaration, index⟩ member
    have placed := (mem_declarationsOf_iff.mp member).1
    rw [List.getElem?_map] at placed
    obtain ⟨mark, found, same⟩ := Option.map_eq_some_iff.mp placed
    cases same
    exact ⟨marked _ (List.mem_of_getElem? found), (List.getElem?_eq_some_iff.mp found).1⟩
  · intro entry member
    obtain ⟨⟨declaration, index⟩, placed, rfl⟩ := List.mem_map.mp member
    have inside : declaration ∈ (declarationsIn rest).filter (·.property = property) :=
      own ▸ List.mem_map_of_mem placed
    exact ⟨concrete declaration (List.mem_of_mem_filter inside), Nat.le_add_right _ _⟩
  · obtain ⟨declaration, member, same⟩ := List.mem_map.mp declared
    have inside : declaration ∈ (declarationsIn rest).filter (·.property = property) :=
      List.mem_filter.mpr ⟨member, by simpa using same⟩
    intro none
    rw [none] at values
    rw [← values] at inside
    cases inside

/-- The resolutions in a body that starts with marks are its marks. -/
theorem mem_resolutionsIn_marked
    (concrete : ∀ declaration ∈ declarationsIn rest, declaration.isResolution = false)
    {placed : Placed} :
    placed ∈ resolutionsIn (marks.map .declaration ++ rest) ↔
      ∃ mark, marks[placed.index]? = some mark ∧ mark.property = placed.property ∧
        Resolution.parse? mark.value = some placed.resolution := by
  obtain ⟨index, property, resolution⟩ := placed
  simp only [resolutionsIn, List.mem_filterMap, Prod.exists, List.mem_zipIdx_iff_getElem?]
  constructor
  · rintro ⟨node, place, here, found⟩
    cases node with
    | declaration declaration =>
      obtain ⟨_, reads, same⟩ := Option.map_eq_some_iff.mp found
      cases same
      have asks : declaration.isResolution = true := Option.isSome_of_eq_some reads
      rw [List.getElem?_append] at here
      split at here
      · rw [List.getElem?_map] at here
        obtain ⟨mark, placed, same⟩ := Option.map_eq_some_iff.mp here
        cases same
        exact ⟨_, placed, rfl, reads⟩
      · have inside : declaration ∈ declarationsIn rest :=
          List.mem_filterMap.mpr ⟨_, List.mem_of_getElem? here, rfl⟩
        rw [concrete declaration inside] at asks
        cases asks
    | rule | statement | group | comment => cases found
  · rintro ⟨mark, placed, rfl, reads⟩
    refine ⟨.declaration mark, index, ?_, by simp [reads]⟩
    have below := (List.getElem?_eq_some_iff.mp placed).1
    rw [List.getElem?_append_left (by simpa using below), List.getElem?_map, placed]
    rfl

end Bodies

/-! One rule -/

/-- The question that a mark of a rule asks: there the values of the rule itself are to win. -/
def markQuestion (context : Context) (file : String) (rule : Rule) (property : String) :
    Question where
  property
  locals := rule.declarations.filter (·.property = property)
  selectors := context.selectors rule.head.id
  otherWins := false
  place := rule.head.place
  location := rule.head.place.inFile file

/-- Whether nodes answer a mark of a rule against an object. The object has a rule that conflicts;
and each such rule either has the same values or is met by a rule from `limit` on that was generated
for it and has the values of the marked rule. -/
def AnswersMark (context : Context) (file : String) (limit : RuleId) (nodes : List Node)
    (rule : Rule) (property : String) (base : BlockObject) : Prop :=
  let question := markQuestion context file rule property
  relevantRules question.selectors property base ≠ [] ∧
    ∀ other ∈ relevantRules question.selectors property base,
      question.locals.map Declaration.content =
          (conflictingValues property other).map Declaration.content ∨
        ∃ generated ∈ rulesIn nodes, limit ≤ generated.head.id ∧
          generated.nodes = question.locals.map .declaration ∧
          ∃ selectors, Derived context question base other selectors generated

/-- Whether a declaration marks a rule against an object: it resolves a property that the rule
declares, it leads to the object, and the object has a rule that conflicts. -/
structure Marks (context : Context) (rule : Rule) (added : Declaration) (base : BlockObject) :
    Prop where
  declared : added.property ∈ rule.declarations.map Declaration.property
  leads : ∃ text, Resolution.parse? added.value = some ⟨text, true⟩ ∧
    context.graph.lookup? context.id text = some base
  opposed : relevantRules (context.selectors rule.head.id) added.property base ≠ []

variable {context : Context} {file : String} {limit start : RuleId}

theorem AnswersMark.mono {nodes more : List Node} {rule : Rule} {property : String}
    {base : BlockObject} (answers : AnswersMark context file limit nodes rule property base)
    (subset : rulesIn nodes ⊆ rulesIn more) :
    AnswersMark context file limit more rule property base := by
  refine ⟨answers.1, fun other listed => (answers.2 other listed).imp_right ?_⟩
  rintro ⟨generated, inside, rest⟩
  exact ⟨generated, subset inside, rest⟩

theorem rulesIn_withoutResolutions (nodes : List Node) :
    rulesIn (withoutResolutions nodes) = rulesIn nodes := by
  induction nodes with
  | nil => rfl
  | cons node rest ih =>
    unfold withoutResolutions at ih ⊢
    rw [rulesIn, ← ih, List.filter_cons]
    cases node with
    | declaration content =>
      by_cases asks : content.isResolution = true <;> simp [asks, rulesIn, Node.rules]
    | rule | statement | group | comment => simp [rulesIn]

theorem rulesIn_toNode {rules : List Rule} {rule : Rule} (member : rule ∈ rules) :
    rule ∈ rulesIn (rules.map Rule.toNode) := by
  induction rules with
  | nil => cases member
  | cons first rest ih =>
    rw [List.map_cons, rulesIn]
    rcases List.mem_cons.mp member with rfl | later
    · exact List.mem_append_left _ List.mem_cons_self
    · exact List.mem_append_right _ (ih later)

theorem declarationsIn_toNode (rules : List Rule) :
    declarationsIn (rules.map Rule.toNode) = [] := by
  induction rules with
  | nil => rfl
  | cons rule rest ih => exact ih

/-- Whether a resolution in the body of a rule can be settled: it stands in front of the values of
its property, and leads to an object that has a rule that conflicts. -/
structure IsOpposed (context : Context) (rule : Rule) (body : List Node) (placed : Placed) :
    Prop where
  inherited : placed.resolution.inherited = true
  values : ∃ last, placed.index ≤ last ∧ localValues body placed.property =
    .ok (rule.declarations.filter (·.property = placed.property), last)
  leads : ∃ base, context.graph.lookup? context.id placed.resolution.reference = some base ∧
    relevantRules (context.selectors rule.head.id) placed.property base ≠ []

/-- What a resolution of a rule comes to when it is settled. -/
theorem Settles.answersMark {rule host : Rule} {placed : Placed} {base : BlockObject}
    {rules : List Rule} {nodes : List Node}
    (settles : Settles context (host.head.place.inFile file) host placed rules)
    (opposed : IsOpposed context rule host.nodes placed)
    (leads : context.graph.lookup? context.id placed.resolution.reference = some base)
    (number : host.head.id = rule.head.id) (place : host.head.place = rule.head.place)
    (inside : rules ⊆ rulesIn nodes) (fresh : ∀ generated ∈ rules, limit ≤ generated.head.id) :
    AnswersMark context file limit nodes rule placed.property base := by
  obtain ⟨inherited, ⟨last, early, values⟩, -⟩ := opposed
  obtain ⟨locals, last', named, before, object, after, values', known, split, -, met, generates⟩ :=
    settles
  cases values.symm.trans values'
  cases leads.symm.trans known
  have single : object = base := by
    rw [candidates, if_pos inherited] at split
    cases before with
    | nil => exact (List.cons.inj split).1.symm
    | cons _ before => simp at split
  subst single
  have question : placed.question context (host.head.place.inFile file) host
      (rule.declarations.filter (·.property = placed.property)) last =
        markQuestion context file rule placed.property := by
    simp [Placed.question, markQuestion, number, place, early]
  rw [question] at generates
  rw [number] at met generates
  refine ⟨met, fun other listed => ?_⟩
  by_cases same : (markQuestion context file rule placed.property).locals.map Declaration.content =
      (conflictingValues placed.property other).map Declaration.content
  · exact .inl same
  · have unlike : other ∈ differing placed.property
        (rule.declarations.filter (·.property = placed.property))
        (relevantRules (context.selectors rule.head.id) placed.property object) :=
      List.mem_filter.mpr ⟨listed, by simpa [markQuestion] using same⟩
    obtain ⟨generated, member, selectors, derived⟩ := exists_of_forall₂ generates unlike
    exact .inr ⟨generated, inside member, fresh generated member, derived.nodes, selectors, derived⟩

/-- Whether a rule can be settled with some marks in front: each is one against some object, and the
rule resolves nothing itself. -/
structure IsMarkedBy (context : Context) (rule : Rule) (marks : List Declaration) : Prop where
  marks : ∀ added ∈ marks, ∃ base, Marks context rule added base
  concrete : ∀ declaration ∈ rule.declarations, declaration.isResolution = false

theorem IsMarkedBy.isOpposed {rule : Rule} {marks : List Declaration} {rest : List Node}
    (marked : IsMarkedBy context rule marks) (same : declarationsIn rest = rule.declarations)
    {placed : Placed} (listed : placed ∈ resolutionsIn (marks.map .declaration ++ rest)) :
    IsOpposed context rule (marks.map .declaration ++ rest) placed := by
  have concrete : ∀ declaration ∈ declarationsIn rest, declaration.isResolution = false :=
    same ▸ marked.concrete
  have resolutions : ∀ mark ∈ marks, mark.isResolution = true := by
    intro mark member
    obtain ⟨_, -, ⟨_, reads, -⟩, -⟩ := marked.marks mark member
    exact Option.isSome_of_eq_some reads
  obtain ⟨mark, found, property, reads⟩ := (mem_resolutionsIn_marked concrete).mp listed
  obtain ⟨below, -⟩ := List.getElem?_eq_some_iff.mp found
  obtain ⟨base, declared, ⟨text, reads', leads⟩, opposed⟩ :=
    marked.marks mark (List.mem_of_getElem? found)
  have resolution : placed.resolution = ⟨text, true⟩ := Option.some.inj (reads.symm.trans reads')
  rw [property, ← same] at declared
  obtain ⟨last, behind, values⟩ := localValues_marked resolutions concrete declared
  refine ⟨by rw [resolution], ⟨last, Nat.le_trans below.le behind, same ▸ values⟩, base, ?_, ?_⟩
  · rw [resolution]
    exact leads
  · exact property ▸ opposed

/-- A mark in front of a rule is a resolution in its body. -/
theorem Marks.exists_placed {rule : Rule} {mark : Declaration} {base : BlockObject}
    {marks : List Declaration} {rest : List Node} (isMark : Marks context rule mark base)
    (concrete : ∀ declaration ∈ declarationsIn rest, declaration.isResolution = false)
    (member : mark ∈ marks) :
    ∃ placed ∈ resolutionsIn (marks.map .declaration ++ rest), placed.property = mark.property ∧
      context.graph.lookup? context.id placed.resolution.reference = some base := by
  obtain ⟨-, ⟨text, reads, leads⟩, -⟩ := isMark
  obtain ⟨index, below, rfl⟩ := List.getElem_of_mem member
  let placed : Placed := ⟨index, marks[index].property, ⟨text, true⟩⟩
  have listed : placed ∈ resolutionsIn (marks.map .declaration ++ rest) :=
    (mem_resolutionsIn_marked concrete).mpr
      ⟨marks[index], List.getElem?_eq_getElem below, rfl, reads⟩
  exact ⟨placed, listed, rfl, leads⟩

/-- Settling a rule behind its marks answers all of them, as long as selectors can be merged. -/
theorem settleRule_marked {rule : Rule} {head : RuleHead} {marks : List Declaration}
    {rest : List Node} (marked : IsMarkedBy context rule marks)
    (number : head.id = rule.head.id) (place : head.place = rule.head.place)
    (same : declarationsIn rest = rule.declarations) (free : limit ≤ start) :
    Ends (fun result => start ≤ result.2 ∧ declarationsIn result.1 = [] ∧
        rulesIn rest ⊆ rulesIn result.1 ∧
        ∀ mark ∈ marks, ∀ base, Marks context rule mark base →
          AnswersMark context file limit result.1 rule mark.property base)
      IsMergeFault
      (settleRule context file ⟨head, marks.map .declaration ++ rest⟩ start) := by
  have opposed : ∀ placed ∈ resolutionsIn (marks.map .declaration ++ rest),
      IsOpposed context rule (marks.map .declaration ++ rest) placed :=
    fun placed listed => marked.isOpposed same listed
  refine (settleRule_ends file start ?_ ?_).imp ?_ ?_
  · intro placed listed
    obtain ⟨last, -, values⟩ := (opposed placed listed).values
    exact ⟨_, values⟩
  · intro placed listed
    obtain ⟨base, leads, -⟩ := (opposed placed listed).leads
    exact ⟨base, leads⟩
  · rintro ⟨nodes, next⟩ ⟨groups, settled, nodesEq, numbered⟩
    obtain rfl : nodes = _ := nodesEq
    have body : rulesIn rest ⊆ rulesIn (withoutResolutions (marks.map .declaration ++ rest)) := by
      rw [rulesIn_withoutResolutions, rulesIn_append]
      exact List.subset_append_right _ _
    have generated : ∀ node : Node, groups.flatten ⊆
        rulesIn (node :: groups.flatten.map Rule.toNode) := by
      intro node generated member
      rw [rulesIn]
      exact List.mem_append_right _ (rulesIn_toNode member)
    refine ⟨numbered.2 ▸ Nat.le_add_right _ _, declarationsIn_toNode _, ?_, ?_⟩
    · rw [rulesIn]
      exact List.subset_append_of_subset_left _ (List.subset_cons_of_subset _ body)
    · intro mark member base isMark
      obtain ⟨placed, listed, property, leads⟩ :=
        isMark.exists_placed (same ▸ marked.concrete) member
      obtain ⟨rules, group, settles⟩ := exists_of_forall₂ settled listed
      have inside : rules ⊆ groups.flatten :=
        fun rule member => List.mem_flatten.mpr ⟨rules, group, member⟩
      rw [← property]
      refine settles.answersMark (opposed placed listed) leads number place ?_ ?_
      · exact List.Subset.trans inside (generated _)
      · exact fun rule member => Nat.le_trans free (numbered.fresh rule (inside member))
  · rintro error (fault | ⟨placed, listed, unopposed, -⟩)
    · exact fault
    · -- a mark is compared with its own object only, and that has a relevant rule
      obtain ⟨inherited, -, base, leads, met⟩ := opposed placed listed
      rw [← number] at met
      exact absurd (unopposed base leads base (by simp [candidates, inherited])) met

/-! All nodes -/

/-- What settling makes of nodes that hold some rules and declarations. -/
structure AreAnswered (context : Context) (file : String) (limit : RuleId)
    (added : Rule → List Declaration) (rules : List Rule) (declarations : List Declaration)
    (start : RuleId) (result : List Node × RuleId) : Prop where
  onward : start ≤ result.2
  declarations : declarationsIn result.1 = declarations
  answers : ∀ rule ∈ rules, ∀ mark ∈ added rule, ∀ base, Marks context rule mark base →
    AnswersMark context file limit result.1 rule mark.property base

theorem settleNodes_declarations_append (declarations : List Declaration) (nodes : List Node) :
    settleNodes context file start (declarations.map .declaration ++ nodes) =
      (settleNodes context file start nodes).map fun result =>
        (declarations.map .declaration ++ result.1, result.2) := by
  induction declarations with
  | nil =>
    rw [List.map_nil, List.nil_append]
    cases settleNodes context file start nodes <;> rfl
  | cons declaration rest ih =>
    change (settleNodes context file start (rest.map .declaration ++ nodes) >>= _) = _
    rw [ih]
    cases settleNodes context file start nodes <;> rfl

theorem place_withSelectors (head : RuleHead) (selectors : List Selector) :
    (head.withSelectors selectors).place = head.place := by
  unfold RuleHead.withSelectors
  split <;> rfl

theorem declarationsIn_cons (node : Node) (rest : List Node) :
    declarationsIn (node :: rest) = declarationsIn [node] ++ declarationsIn rest :=
  @List.filterMap_append _ _ [node] rest _

variable {added : Rule → List Declaration}

theorem AreAnswered.append {rules others : List Rule} {mine theirs : List Declaration}
    {middle next : RuleId} {first second : List Node}
    (one : AreAnswered context file limit added rules mine start (first, middle))
    (other : AreAnswered context file limit added others theirs middle (second, next)) :
    AreAnswered context file limit added (rules ++ others) (mine ++ theirs) start
      (first ++ second, next) where
  onward := Nat.le_trans one.onward other.onward
  declarations := by
    rw [← one.declarations, ← other.declarations]
    exact List.filterMap_append
  answers rule listed mark isMark base marks := by
    rcases List.mem_append.mp listed with listed | listed
    · refine (one.answers rule listed mark isMark base marks).mono ?_
      rw [rulesIn_append]
      exact List.subset_append_left _ _
    · refine (other.answers rule listed mark isMark base marks).mono ?_
      rw [rulesIn_append]
      exact List.subset_append_right _ _

mutual

theorem settleNode_marked {start : RuleId} {node : Node} (free : limit ≤ start)
    (marked : ∀ rule ∈ node.rules, IsMarkedBy context rule (added rule)) :
    Ends (AreAnswered context file limit added node.rules (declarationsIn [node]) start)
      IsMergeFault
      (settleNode context file start ((node.prepend added).withSelectors context.selectors)) := by
  cases node with
  | rule head body =>
    have inside := settleNodes_marked free fun rule member =>
      marked rule (List.mem_cons_of_mem _ member)
    have marks : IsMarkedBy context ⟨head, body⟩ (added ⟨head, body⟩) :=
      marked _ List.mem_cons_self
    -- settling the body leaves the marks in front, where the rule meets them
    have first : Ends (fun inner => ∃ rest,
        inner.1 = (added ⟨head, body⟩).map .declaration ++ rest ∧
          AreAnswered context file limit added (rulesIn body) (declarationsIn body) start
            (rest, inner.2)) IsMergeFault
        (settleNodes context file start ((added ⟨head, body⟩).map .declaration ++
          nodesWithSelectors context.selectors (prependIn added body))) := by
      rw [settleNodes_declarations_append]
      exact Ends.map (inside.imp (fun inner answered => ⟨inner.1, rfl, answered⟩) fun _ => id)
    rw [Node.prepend, Node.withSelectors, nodesWithSelectors_append,
      nodesWithSelectors_declarations, settleNode]
    refine first.bind ?_
    rintro ⟨_, middle⟩ ⟨rest, rfl, onward, declarations, answers⟩
    refine (settleRule_marked marks (RuleHead.id_withSelectors _ _) (place_withSelectors _ _)
      declarations (Nat.le_trans free onward)).imp ?_ fun _ => id
    rintro ⟨nodes, next⟩ ⟨onward', none, kept, answered⟩
    refine ⟨Nat.le_trans onward onward', none, fun rule listed mark isMark base isMarked => ?_⟩
    rcases List.mem_cons.mp listed with rfl | listed
    · exact answered mark isMark base isMarked
    · exact (answers rule listed mark isMark base isMarked).mono kept
  | group head body =>
    have inside := settleNodes_marked free marked
    rw [Node.prepend, Node.withSelectors, settleNode]
    refine inside.bind ?_
    rintro ⟨nodes, next⟩ ⟨onward, -, answers⟩
    refine ⟨onward, rfl, fun rule listed mark isMark base isMarked => ?_⟩
    exact (answers rule listed mark isMark base isMarked).mono (List.subset_append_left _ _)
  | statement | declaration | comment => exact ⟨Nat.le_refl _, rfl, nofun⟩

/-- Settling nodes behind the marks of their rules answers all marks, as long as selectors can be
merged. -/
theorem settleNodes_marked {start : RuleId} {nodes : List Node} (free : limit ≤ start)
    (marked : ∀ rule ∈ rulesIn nodes, IsMarkedBy context rule (added rule)) :
    Ends (AreAnswered context file limit added (rulesIn nodes) (declarationsIn nodes) start)
      IsMergeFault
      (settleNodes context file start
        (nodesWithSelectors context.selectors (prependIn added nodes))) := by
  cases nodes with
  | nil => exact ⟨Nat.le_refl _, rfl, nofun⟩
  | cons node rest =>
    have first := settleNode_marked free fun rule member =>
      marked rule (List.mem_append_left _ member)
    rw [prependIn, nodesWithSelectors, settleNodes, declarationsIn_cons, rulesIn]
    refine first.bind ?_
    rintro ⟨one, middle⟩ answered
    have later := settleNodes_marked (Nat.le_trans free answered.onward) fun rule member =>
      marked rule (List.mem_append_right _ member)
    refine later.bind ?_
    rintro ⟨others, next⟩ answered'
    exact answered.append answered'

end

end Conflict

end StyleBlock
