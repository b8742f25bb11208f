import StyleBlock.Proofs.Generated

/-!
What settling a rule does. Each of its resolutions is settled against the first object that has a
rule with a concrete value for the same property and the same pseudo-element; one rule is generated
for each such rule whose values differ. If no object has such a rule, the resolution fails.
-/

namespace StyleBlock

theorem pseudoName_classSelector (graph : Graph) (id : BlockId) (mode : OutputMode)
    (selector : Selector) :
    (classSelector graph id mode selector).pseudoName? = selector.pseudoName? := by
  obtain ⟨head, tail⟩ := selector
  have key : (classSelector graph id mode ⟨head, tail⟩).key.pseudoElement =
      (Selector.key ⟨head, tail⟩).pseudoElement := by
    simp only [classSelector, Selector.mapCompounds, Selector.key, List.getLast?_map]
    cases tail.getLast? <;> rfl
  rw [Selector.pseudoName?, Selector.pseudoElement?, key]
  rfl

/-- Each entry of a list has a partner in every list that is related to it. -/
theorem exists_of_forall₂ {α β : Type} {related : α → β → Prop} {left : List α} {right : List β}
    (each : List.Forall₂ related left right) {one : α} (member : one ∈ left) :
    ∃ other ∈ right, related one other := by
  induction each with
  | nil => cases member
  | cons here _ ih =>
    rcases List.mem_cons.mp member with rfl | later
    · exact ⟨_, List.mem_cons_self, here⟩
    · obtain ⟨other, inside, same⟩ := ih later
      exact ⟨other, List.mem_cons_of_mem _ inside, same⟩

namespace Conflict

/-- Whether a rule of an object's block has a concrete value that conflicts with a property, and
selects the object with the pseudo-element of one of the selectors. -/
def concerns (selectors : List Selector) (property : String) (object : BlockObject)
    (rule : Rule) : Bool :=
  (rule.declarations.any fun declaration =>
      propertiesConflict declaration.property property && !declaration.isResolution) &&
    (object.block.selectorsOf rule.head.id).any fun other =>
      object.isNamedBy other.key &&
        selectors.any fun current => current.pseudoName? = other.pseudoName?

/-- The style rules of an object's block that a resolution of a property is about. -/
def relevantRules (selectors : List Selector) (property : String) (object : BlockObject) :
    List Rule :=
  object.block.sheet.styleRules.filter (concerns selectors property object)

/-- Those of the rules whose values differ from the local ones. -/
def differing (property : String) (locals : List Declaration) (rules : List Rule) : List Rule :=
  rules.filter fun rule => locals.map Declaration.content ≠
    (conflictingValues property rule).map Declaration.content

theorem differing_append (property : String) (locals : List Declaration)
    (first second : List Rule) :
    differing property locals (first ++ second) =
      differing property locals first ++ differing property locals second :=
  List.filter_append ..

/-- Rules that are generated for a resolution against rules of an object, one for each. -/
def Generates (context : Context) (question : Question) (object : BlockObject)
    (rules generated : List Rule) : Prop :=
  List.Forall₂ (fun rule generated =>
    ∃ selectors, Derived context question object rule selectors generated) rules generated

/-- Whether selectors could not be merged. -/
def IsMergeFault (error : Error) : Prop :=
  ∃ one other location, error = .invalidAt (.compile (.cannotMerge one other)) location

/-! One object -/

variable {context : Context} {question : Question} {object : BlockObject} {rule : Rule}

/-- The rules that comparing passes over are those that the question is not about. -/
theorem concerns_eq (context : Context) (question : Question) (object : BlockObject) (rule : Rule) :
    concerns question.selectors question.property object rule =
      !((conflictingValues question.property rule).isEmpty ||
        (comparablePairs context question object rule).isEmpty) := by
  have values : (conflictingValues question.property rule).isEmpty =
      !rule.declarations.any fun declaration =>
        propertiesConflict declaration.property question.property && !declaration.isResolution := by
    rw [Bool.eq_iff_iff]
    simp [conflictingValues, List.filter_eq_nil_iff]
  have pairs : (comparablePairs context question object rule).isEmpty =
      !(object.block.selectorsOf rule.head.id).any fun other => object.isNamedBy other.key &&
        question.selectors.any fun current => current.pseudoName? = other.pseudoName? := by
    rw [Bool.eq_iff_iff]
    simp [comparablePairs, List.flatMap_eq_nil_iff, List.filter_eq_nil_iff,
      pseudoName_classSelector]
  rw [values, pairs, Bool.not_or, Bool.not_not, Bool.not_not]
  rfl

theorem mergePairs_ends (location : Text.Location) (pairs : List (Selector × Selector)) :
    Ends (fun _ => True) IsMergeFault (pairs.foldlM (mergePair location) []) := by
  refine Ends.foldlM_mem trivial fun pair _ merged _ => ?_
  cases result : mergePair location merged pair with
  | ok after => trivial
  | error error => exact ⟨pair.1, pair.2, location, (mergePair_eq_error_iff.mp result).2⟩

/-- What is known when a question has been compared with some rules of an object. -/
structure Compared (context : Context) (question : Question) (object : BlockObject)
    (start : RuleId) (done : List Rule) (comparison : Comparison) : Prop where
  rules : Generates context question object
    (differing question.property question.locals
      (done.filter (concerns question.selectors question.property object))) comparison.rules
  numbered : AreNumbered start comparison.nextRule comparison.rules
  sameValues : comparison.sameValues = true ↔
    ∃ rule ∈ done, concerns question.selectors question.property object rule = true ∧
      question.locals.map Declaration.content =
        (conflictingValues question.property rule).map Declaration.content

theorem Compared.next {start : RuleId} {done : List Rule} {comparison : Comparison}
    (listed : rule ∈ object.block.sheet.styleRules)
    (compared : Compared context question object start done comparison) :
    Ends (Compared context question object start (done ++ [rule])) IsMergeFault
      (compareRule context question object comparison rule) := by
  obtain ⟨rules, numbered, sameValues⟩ := compared
  have split := List.filter_append (p := concerns question.selectors question.property object)
    done [rule]
  unfold compareRule
  dsimp only
  split
  · next passed =>
    have unconcerned : concerns question.selectors question.property object rule = false := by
      rw [concerns_eq context, passed]
      rfl
    rw [List.filter_cons_of_neg (by simp [unconcerned]), List.filter_nil, List.append_nil] at split
    refine ⟨split ▸ rules, numbered, ?_⟩
    simp [sameValues, unconcerned, or_and_right, exists_or]
  · next met =>
    have isConcerned : concerns question.selectors question.property object rule = true := by
      rw [concerns_eq context, Bool.not_eq_true']
      simpa using met
    rw [List.filter_cons_of_pos isConcerned, List.filter_nil] at split
    split
    · next same =>
      have same := sameDeclarations_iff.mp same
      have unlike : differing question.property question.locals [rule] = [] := by
        simp [differing, same]
      refine ⟨?_, numbered, ?_⟩
      · rw [split, differing_append, unlike, List.append_nil]
        exact rules
      · simp only [true_iff]
        exact ⟨rule, by simp, isConcerned, same⟩
    · next different =>
      have different := mt sameDeclarations_iff.mpr different
      have ends := mergePairs_ends question.location (comparablePairs context question object rule)
      cases merging : (comparablePairs context question object rule).foldlM
          (mergePair question.location) [] with
      | error error => exact ends.of_error merging
      | ok merged =>
        have unlike : differing question.property question.locals [rule] = [rule] := by
          simp [differing, different]
        have conflicting : conflictingValues question.property rule ≠ [] := by
          intro none
          simp [none] at met
        refine ⟨?_, ?_, ?_⟩
        · rw [split, differing_append, unlike]
          exact List.rel_append rules
            (.cons ⟨merged, listed, conflicting, merging, rfl, rfl⟩ .nil)
        · exact numbered.append (.single rfl)
        · simp [sameValues, or_and_right, exists_or, different]

/-- What comparing with an object finds. -/
def Outcome.found? : Outcome → Option (List Rule)
  | .noConflict => none
  | .sameValues => some []
  | .rules generated => some generated

/-- What comparing with an object is to find: nothing if it has no relevant rule, else a rule for
each relevant one whose values differ. -/
def Answers (context : Context) (question : Question) (object : BlockObject)
    (start next : RuleId) : Option (List Rule) → Prop
  | none => relevantRules question.selectors question.property object = [] ∧ next = start
  | some rules =>
    relevantRules question.selectors question.property object ≠ [] ∧ AreNumbered start next rules ∧
      Generates context question object (differing question.property question.locals
        (relevantRules question.selectors question.property object)) rules

theorem compareObject_ends (context : Context) (question : Question) (object : BlockObject)
    (start : RuleId) :
    Ends (fun result => Answers context question object start result.2 result.1.found?)
      IsMergeFault (compareObject context question object start) := by
  have compared : Ends
      (Compared context question object start object.block.sheet.styleRules) IsMergeFault
      (object.block.sheet.styleRules.foldlM (compareRule context question object)
        ⟨[], false, start⟩) := by
    refine Ends.foldlM (Compared context question object start) ?_ ?_
    · exact ⟨.nil, ⟨rfl, rfl⟩, by simp⟩
    · intro done rule later whole state known
      exact known.next (by rw [whole]; simp)
  unfold compareObject
  refine compared.bind fun comparison known => ?_
  obtain ⟨rules, numbered, sameValues⟩ := known
  change Generates context question object (differing question.property question.locals
    (relevantRules question.selectors question.property object)) comparison.rules at rules
  have relevant : ∀ rule, rule ∈ relevantRules question.selectors question.property object ↔
      rule ∈ object.block.sheet.styleRules ∧
        concerns question.selectors question.property object rule = true := fun rule =>
    List.mem_filter
  cases generated : comparison.rules with
  | cons first rest =>
    have met : relevantRules question.selectors question.property object ≠ [] := by
      intro none
      rw [none, generated] at rules
      cases rules
    rw [generated] at rules numbered
    show Answers context question object start comparison.nextRule (some (first :: rest))
    exact ⟨met, numbered, rules⟩
  | nil =>
    rw [generated] at rules numbered
    obtain ⟨-, unchanged⟩ := numbered
    cases same : comparison.sameValues with
    | true =>
      obtain ⟨rule, listed, isConcerned, -⟩ := sameValues.mp same
      show Answers context question object start comparison.nextRule (some [])
      have met := List.ne_nil_of_mem ((relevant rule).mpr ⟨listed, isConcerned⟩)
      exact ⟨met, ⟨rfl, unchanged⟩, rules⟩
    | false =>
      show Answers context question object start comparison.nextRule none
      refine ⟨List.eq_nil_iff_forall_not_mem.mpr fun rule member => ?_, unchanged⟩
      have unlike : differing question.property question.locals
          (relevantRules question.selectors question.property object) = [] :=
        List.forall₂_nil_right_iff.mp rules
      have alike := List.filter_eq_nil_iff.mp unlike rule member
      obtain ⟨listed, isConcerned⟩ := (relevant rule).mp member
      have found := sameValues.mpr ⟨rule, listed, isConcerned, by simpa using alike⟩
      rw [same] at found
      cases found

/-! One resolution -/

/-- What comparing with objects one after another is to find: what the first one with a relevant
rule answers. -/
def AnswersFirst (context : Context) (question : Question) (objects : List BlockObject)
    (start next : RuleId) : Option (List Rule) → Prop
  | none =>
    (∀ object ∈ objects, relevantRules question.selectors question.property object = []) ∧
      next = start
  | some rules =>
    ∃ before object after, objects = before ++ object :: after ∧
      (∀ other ∈ before, relevantRules question.selectors question.property other = []) ∧
        Answers context question object start next (some rules)

theorem compareObjects_ends (context : Context) (question : Question) (start : RuleId)
    (objects : List BlockObject) :
    Ends (fun result => AnswersFirst context question objects start result.2 result.1) IsMergeFault
      (compareObjects context question start objects) := by
  induction objects generalizing start with
  | nil => exact ⟨nofun, rfl⟩
  | cons object rest ih =>
    refine (compareObject_ends context question object start).bind fun ⟨outcome, next⟩ answers => ?_
    have found : ∀ rules, outcome.found? = some rules →
        AnswersFirst context question (object :: rest) start next (some rules) := by
      intro rules same
      rw [same] at answers
      exact ⟨[], object, rest, rfl, nofun, answers⟩
    cases outcome with
    | sameValues => exact found [] rfl
    | rules rules => exact found rules rfl
    | noConflict =>
      obtain ⟨empty, unchanged⟩ := answers
      rw [← unchanged]
      refine (ih next).imp (fun result first => ?_) fun _ fault => fault
      obtain ⟨found, free⟩ := result
      cases found with
      | none => exact ⟨List.forall_mem_cons.mpr ⟨empty, first.1⟩, first.2⟩
      | some rules =>
        obtain ⟨before, chosen, after, rfl, none, answers⟩ := first
        have passed : ∀ other ∈ object :: before,
            relevantRules question.selectors question.property other = [] :=
          List.forall_mem_cons.mpr ⟨empty, none⟩
        exact ⟨object :: before, chosen, after, rfl, passed, answers⟩

/-- Whether no object that a resolution is compared with has a relevant rule. -/
def IsUnopposed (context : Context) (host : Rule) (placed : Placed) : Prop :=
  ∀ named, context.graph.lookup? context.id placed.resolution.reference = some named →
    ∀ object ∈ candidates context placed.resolution named,
      relevantRules (context.selectors host.head.id) placed.property object = []

/-- The error of a resolution that nothing opposes. -/
def unopposedError (location : Text.Location) (placed : Placed) : Error :=
  .invalidAt (.compile (.noConflict placed.property placed.resolution.reference)) location

/-- Rules that settle a resolution of a rule: of the objects that it is compared with, the first one
with a relevant rule decides, and one rule is generated for each relevant rule whose values differ
from the local ones. -/
def Settles (context : Context) (location : Text.Location) (host : Rule) (placed : Placed)
    (rules : List Rule) : Prop :=
  ∃ locals last named before object after,
    localValues host.nodes placed.property = .ok (locals, last) ∧
    context.graph.lookup? context.id placed.resolution.reference = some named ∧
    candidates context placed.resolution named = before ++ object :: after ∧
    (∀ other ∈ before,
      relevantRules (context.selectors host.head.id) placed.property other = []) ∧
    relevantRules (context.selectors host.head.id) placed.property object ≠ [] ∧
    Generates context (placed.question context location host locals last) object
      (differing placed.property locals
        (relevantRules (context.selectors host.head.id) placed.property object)) rules

/-- A resolution that is settled was opposed. -/
theorem Settles.not_isUnopposed {context : Context} {location : Text.Location} {host : Rule}
    {placed : Placed} {rules : List Rule} (settles : Settles context location host placed rules) :
    ¬ IsUnopposed context host placed := by
  obtain ⟨_, _, named, before, object, after, _, known, split, _, met, _⟩ := settles
  intro unopposed
  apply met
  apply unopposed named known
  rw [split]
  exact List.mem_append_right before List.mem_cons_self

theorem settle_ends {location : Text.Location} {host : Rule} {state : List Rule × RuleId}
    {placed : Placed} {locals : List Declaration} {last : Nat} {named : BlockObject}
    (values : localValues host.nodes placed.property = .ok (locals, last))
    (known : context.graph.lookup? context.id placed.resolution.reference = some named) :
    Ends (fun after => ∃ rules, after.1 = state.1 ++ rules ∧ AreNumbered state.2 after.2 rules ∧
        Settles context location host placed rules)
      (fun error => IsMergeFault error ∨
        IsUnopposed context host placed ∧ error = unopposedError location placed)
      (settle context location host state placed) := by
  let question := placed.question context location host locals last
  unfold settle
  rw [values, known]
  change Ends _ _ (compareFrom context question placed.resolution.inherited
    (context.graph.slots.size + 1) state.2 (some named) >>= _)
  rw [compareFrom_eq_compareObjects (Graph.block_of_lookup known)]
  refine ((compareObjects_ends context question state.2
    (candidates context placed.resolution named)).imp (fun _ first => first)
      fun _ fault => .inl fault).bind fun ⟨found, next⟩ first => ?_
  cases found with
  | none =>
    refine .inr ⟨fun named' known' => ?_, rfl⟩
    cases known.symm.trans known'
    exact first.1
  | some rules =>
    obtain ⟨before, object, after, split, none, met, numbered, generated⟩ := first
    exact ⟨rules, rfl, numbered,
      ⟨locals, last, named, before, object, after, values, known, split, none, met, generated⟩⟩

/-! All resolutions of a rule -/

/-- What is known when some resolutions of a rule are settled. -/
def AreSettled (context : Context) (location : Text.Location) (host : Rule) (start : RuleId)
    (done : List Placed) (state : List Rule × RuleId) : Prop :=
  ∃ groups, List.Forall₂ (Settles context location host) done groups ∧
    state.1 = groups.flatten ∧ AreNumbered start state.2 state.1

theorem settleAll_ends {location : Text.Location} {host : Rule} (start : RuleId)
    {resolutions : List Placed}
    (legal : ∀ placed ∈ resolutions, ∃ values, localValues host.nodes placed.property = .ok values)
    (found : ∀ placed ∈ resolutions, ∃ named,
      context.graph.lookup? context.id placed.resolution.reference = some named) :
    Ends (AreSettled context location host start resolutions)
      (fun error => IsMergeFault error ∨ ∃ placed ∈ resolutions,
        IsUnopposed context host placed ∧ error = unopposedError location placed)
      (resolutions.foldlM (settle context location host) ([], start)) := by
  refine Ends.foldlM (AreSettled context location host start)
    ⟨[], .nil, rfl, rfl, rfl⟩ ?_
  rintro done placed later whole state ⟨groups, settled, same, numbered⟩
  have listed : placed ∈ resolutions := by
    rw [whole]
    exact List.mem_append_right done List.mem_cons_self
  obtain ⟨⟨locals, last⟩, values⟩ := legal placed listed
  obtain ⟨named, known⟩ := found placed listed
  refine (settle_ends values known).imp ?_ ?_
  · rintro ⟨all, next⟩ ⟨rules, rfl, numbered', settles⟩
    refine ⟨groups ++ [rules], List.rel_append settled (.cons settles .nil), ?_,
      numbered.append numbered'⟩
    rw [List.flatten_append, List.flatten_singleton, same]
  · rintro error (fault | unopposed)
    · exact .inl fault
    · exact .inr ⟨placed, listed, unopposed⟩

/-- Settling a rule with legal resolutions either ends with all of them settled, with the generated
rules behind the rule, or fails in one that nothing opposes, as long as selectors can be merged. -/
theorem settleRule_ends {host : Rule} (file : String) (start : RuleId)
    (legal : ∀ placed ∈ resolutionsIn host.nodes,
      ∃ values, localValues host.nodes placed.property = .ok values)
    (found : ∀ placed ∈ resolutionsIn host.nodes, ∃ named,
      context.graph.lookup? context.id placed.resolution.reference = some named) :
    Ends (fun result => ∃ groups,
        List.Forall₂ (Settles context (host.head.place.inFile file) host)
          (resolutionsIn host.nodes) groups ∧
        result.1 = .rule host.head (withoutResolutions host.nodes) ::
          groups.flatten.map Rule.toNode ∧
        AreNumbered start result.2 groups.flatten)
      (fun error => IsMergeFault error ∨ ∃ placed ∈ resolutionsIn host.nodes,
        IsUnopposed context host placed ∧
          error = unopposedError (host.head.place.inFile file) placed)
      (settleRule context file host start) := by
  unfold settleRule
  refine (settleAll_ends start legal found).bind fun ⟨rules, next⟩ settled => ?_
  obtain ⟨groups, settled, same, numbered⟩ := settled
  obtain rfl : rules = groups.flatten := same
  exact ⟨groups, settled, rfl, numbered⟩

/-- As long as selectors can be merged, settling a rule fails if and only if nothing opposes one of
its resolutions. Otherwise each resolution is settled against the first object with a relevant rule,
by one rule for each relevant rule whose values differ. -/
theorem settleRule_fails_iff {file : String} {host : Rule} {start : RuleId}
    (legal : ∀ placed ∈ resolutionsIn host.nodes,
      ∃ values, localValues host.nodes placed.property = .ok values)
    (found : ∀ placed ∈ resolutionsIn host.nodes, ∃ named,
      context.graph.lookup? context.id placed.resolution.reference = some named)
    (merges : ∀ error, settleRule context file host start = .error error → ¬ IsMergeFault error) :
    ((∃ error, settleRule context file host start = .error error) ↔
      ∃ placed ∈ resolutionsIn host.nodes, IsUnopposed context host placed) ∧
    (∀ error, settleRule context file host start = .error error →
      ∃ placed ∈ resolutionsIn host.nodes, IsUnopposed context host placed ∧
        error = unopposedError (host.head.place.inFile file) placed) ∧
    ∀ nodes next, settleRule context file host start = .ok (nodes, next) → ∃ groups,
      List.Forall₂ (Settles context (host.head.place.inFile file) host)
        (resolutionsIn host.nodes) groups ∧
      nodes = .rule host.head (withoutResolutions host.nodes) ::
        groups.flatten.map Rule.toNode ∧
      AreNumbered start next groups.flatten := by
  have ends := settleRule_ends file start legal found
  have fails : ∀ error, settleRule context file host start = .error error →
      ∃ placed ∈ resolutionsIn host.nodes, IsUnopposed context host placed ∧
        error = unopposedError (host.head.place.inFile file) placed := by
    intro error failed
    exact (ends.of_error failed).resolve_left (merges error failed)
  refine ⟨⟨?_, ?_⟩, fails, fun nodes next settled => ends.of_ok settled⟩
  · rintro ⟨error, failed⟩
    obtain ⟨placed, listed, unopposed, -⟩ := fails error failed
    exact ⟨placed, listed, unopposed⟩
  · rintro ⟨placed, listed, unopposed⟩
    -- if the rule were settled, this resolution would be settled with it
    cases result : settleRule context file host start with
    | error error => exact ⟨error, rfl⟩
    | ok settled =>
      obtain ⟨groups, settled, -⟩ := ends.of_ok result
      obtain ⟨rules, -, settles⟩ := exists_of_forall₂ settled listed
      exact absurd unopposed settles.not_isUnopposed

end Conflict

/-- A block whose class has two colors. -/
def pulpBlock : Block :=
  { Block.bare "pulp" "pulp.css" "pulp.css" with
    named := true
    classes := [⟨"ink", [], ⟨[⟨none, "color"⟩]⟩⟩]
    sheet := ⟨"pulp.css", [
      .rule ⟨0, ".ink", ⟨1, 1, 0⟩⟩ [.declaration ⟨"color", "black", false, ⟨1, 8, 7⟩⟩],
      .rule ⟨1, ".ink", ⟨1, 24, 23⟩⟩ [.declaration ⟨"color", "gray", false, ⟨1, 31, 30⟩⟩]], 2⟩
    selectors := [(0, [.ofCompound ⟨[.className "ink"], none⟩]),
      (1, [.ofCompound ⟨[.className "ink"], none⟩])] }

/-- The rule of a block that gives way to the color of that class. -/
def noteRule : Rule :=
  ⟨⟨0, ".note__text", ⟨1, 40, 39⟩⟩, [.declaration ⟨"color", "gray", false, ⟨1, 48, 47⟩⟩,
    .declaration ⟨"color", "resolve(\"pulp.ink\")", false, ⟨1, 61, 60⟩⟩]⟩

/-- A block with that rule. -/
def noteBlock : Block :=
  { Block.bare "note" "note.css" "note.css" with
    named := true
    references := [("pulp", ⟨0⟩)]
    classes := [⟨"text", [], ⟨[⟨none, "color"⟩]⟩⟩]
    sheet := ⟨"note.css", [.statement ⟨"block-reference", "pulp from \"pulp.css\"", ⟨1, 1, 0⟩⟩,
      .rule ⟨0, ".text", ⟨1, 40, 39⟩⟩ noteRule.nodes], 1⟩
    selectors := [(0, [.ofCompound ⟨[.className "text"], none⟩])] }

def noteContext : Conflict.Context :=
  let graph : Graph := ⟨#[some pulpBlock, some noteBlock]⟩
  ⟨graph, ⟨1⟩, .bem, classSelectors graph ⟨1⟩ .bem noteBlock⟩

open Conflict in
/-- The class that the rule gives way to has two colors. One of them is the local one already, so
one rule is generated. -/
theorem noteRule_settled :
    (∀ placed ∈ resolutionsIn noteRule.nodes,
      ∃ values, localValues noteRule.nodes placed.property = .ok values) ∧
    (∀ placed ∈ resolutionsIn noteRule.nodes, ∃ named,
      noteContext.graph.lookup? noteContext.id placed.resolution.reference = some named) ∧
    (∀ error, settleRule noteContext "note.css" noteRule 1 = .error error → ¬ IsMergeFault error) ∧
    ∃ rules, rules.length = 1 ∧ Settles noteContext ⟨"note.css", 1, 40, 39⟩ noteRule
      ⟨1, "color", ⟨"pulp.ink", false⟩⟩ rules := by
  have resolutions : resolutionsIn noteRule.nodes = [⟨1, "color", ⟨"pulp.ink", false⟩⟩] := by
    with_unfolding_all rfl
  have legal : ∀ placed ∈ resolutionsIn noteRule.nodes,
      ∃ values, localValues noteRule.nodes placed.property = .ok values := by
    rw [resolutions, List.forall_mem_singleton]
    exact ⟨_, by with_unfolding_all rfl⟩
  have found : ∀ placed ∈ resolutionsIn noteRule.nodes, ∃ named,
      noteContext.graph.lookup? noteContext.id placed.resolution.reference = some named := by
    rw [resolutions, List.forall_mem_singleton]
    exact ⟨⟨⟨⟨0⟩, .ofClass 0⟩, pulpBlock⟩, by with_unfolding_all rfl⟩
  have free : (settleRule noteContext "note.css" noteRule 1).toOption.map Prod.snd = some 2 := by
    decide +kernel
  have merges : ∀ error, settleRule noteContext "note.css" noteRule 1 = .error error →
      ¬ IsMergeFault error := by
    intro error failed
    rw [failed] at free
    cases free
  obtain ⟨-, -, works⟩ := settleRule_fails_iff legal found merges
  refine ⟨legal, found, merges, ?_⟩
  cases result : settleRule noteContext "note.css" noteRule 1 with
  | error error =>
    rw [result] at free
    cases free
  | ok settled =>
    obtain ⟨nodes, next⟩ := settled
    rw [result] at free
    cases free
    obtain ⟨groups, settled, -, -, next⟩ := works nodes 2 result
    rw [resolutions] at settled
    cases settled with
    | cons settles rest =>
      cases rest
      rw [List.flatten_singleton] at next
      exact ⟨_, (Nat.add_left_cancel next).symm, settles⟩

end StyleBlock
