import Mathlib
import StyleBlock.Proofs.SourceKept

/-!
The numbers of the rules of a compiled sheet. Settling conflicts hands numbers out one after
another, as reading did, so in a compiled sheet every rule has a number of its own too: the rules of
the source that are left keep theirs, and the added ones have the numbers from the first free one
on.
-/

namespace StyleBlock

/-- Rules whose bodies hold declarations only. -/
theorem ruleHeads_rules {rules : List Rule}
    (flat : ∀ rule ∈ rules, ∃ declarations : List Declaration,
      rule.nodes = declarations.map .declaration) :
    ruleHeads (rules.map Rule.toNode) = rules.map Rule.head := by
  induction rules with
  | nil => rfl
  | cons rule rest ih =>
    obtain ⟨declarations, body⟩ := flat rule (List.mem_cons_self ..)
    have later := ih fun other member => flat other (List.mem_cons_of_mem rule member)
    simp [Rule.toNode, body, ← later]

theorem ruleHeads_withoutResolutions (nodes : List Node) :
    ruleHeads (Conflict.withoutResolutions nodes) = ruleHeads nodes := by
  induction nodes with
  | nil => rfl
  | cons node rest ih =>
    rw [ruleHeads_cons node rest, ← ih]
    cases node with
    | declaration content =>
      by_cases asks : content.isResolution = true
      · simp [Conflict.withoutResolutions, asks, ruleHeads, rulesIn, Node.rules]
      · simp [Conflict.withoutResolutions, asks, ruleHeads, rulesIn]
    | rule | statement | group | comment =>
      simp [Conflict.withoutResolutions, ruleHeads, rulesIn]

namespace Conflict

variable {context : Context} {question : Question} {limit start middle next : RuleId}

/-! Generated rules -/

theorem mem_range_sub {start next number : Nat} (onward : start ≤ next) :
    number ∈ List.range' start (next - start) ↔ start ≤ number ∧ number < next := by
  rw [List.mem_range'_1]
  omega

theorem range_sub_append {start middle next : Nat} (early : start ≤ middle) (late : middle ≤ next) :
    List.range' start (middle - start) ++ List.range' middle (next - middle) =
      List.range' start (next - start) := by
  obtain ⟨count, rfl⟩ := Nat.exists_eq_add_of_le early
  obtain ⟨more, rfl⟩ := Nat.exists_eq_add_of_le late
  rw [Nat.add_sub_cancel_left, Nat.add_sub_cancel_left, List.range'_append_1, Nat.add_assoc,
    Nat.add_sub_cancel_left]

theorem Answered.flat {rule : Rule} {state : List Rule × RuleId}
    (answered : Answered context rule start state) :
    ∀ generated ∈ state.1, ∃ declarations : List Declaration,
      generated.nodes = declarations.map .declaration := by
  intro generated member
  obtain ⟨origin, -⟩ := answered.origin generated member
  exact ⟨_, origin.derived.nodes⟩

/-! Settled nodes -/

/-- What settling does to the rules of nodes whose numbers are below `limit`: they keep their heads,
and the rules among them that were added have the numbers from `start` on and below `next`. -/
structure Adds (limit start next : RuleId) (before after : List Node) : Prop where
  onward : start ≤ next
  kept : (ruleHeads after).filter (fun head => head.id < limit) = ruleHeads before
  added : (numbersIn after).filter (limit ≤ ·) = List.range' start (next - start)

namespace Adds

theorem append {first second firstAfter secondAfter : List Node}
    (early : Adds limit start middle first firstAfter)
    (late : Adds limit middle next second secondAfter) :
    Adds limit start next (first ++ second) (firstAfter ++ secondAfter) := by
  refine ⟨Nat.le_trans early.onward late.onward, ?_, ?_⟩
  · rw [ruleHeads_append, List.filter_append, early.kept, late.kept, ruleHeads_append]
  · rw [numbersIn_append, List.filter_append, early.added, late.added,
      range_sub_append early.onward late.onward]

/-- Nodes without rules stay as they are. -/
theorem bare {nodes : List Node} (none : ruleHeads nodes = []) :
    Adds limit start start nodes nodes :=
  ⟨Nat.le_refl start, by simp [none], by simp [numbersIn_eq, none]⟩

/-- A node without rules stays in front of the others. -/
theorem cons {node : Node} {rest others : List Node} (none : ruleHeads [node] = [])
    (later : Adds limit start next rest others) :
    Adds limit start next (node :: rest) (node :: others) :=
  (bare none).append later

/-- Generated rules are added. -/
theorem generated {rules : List Rule} (numbered : AreNumbered start next rules)
    (free : limit ≤ start)
    (flat : ∀ rule ∈ rules, ∃ declarations : List Declaration,
      rule.nodes = declarations.map .declaration) :
    Adds limit start next [] (rules.map Rule.toNode) := by
  have numbers : numbersIn (rules.map Rule.toNode) = List.range' start (next - start) := by
    rw [numbersIn_eq, ruleHeads_rules flat, List.map_map, numbered.2, Nat.add_sub_cancel_left]
    exact numbered.1
  have late : ∀ number ∈ numbersIn (rules.map Rule.toNode), limit ≤ number := by
    intro number member
    rw [numbers, List.mem_range'_1] at member
    exact Nat.le_trans free member.1
  refine ⟨numbered.onward, ?_, ?_⟩
  · refine List.filter_eq_nil_iff.mpr fun head member => ?_
    have above := late head.id (numbersIn_eq _ ▸ List.mem_map_of_mem member)
    simpa using above
  · rw [List.filter_eq_self.mpr fun number member => by simpa using late number member, numbers]

/-- A rule whose number is old stays, with whatever was settled inside it. -/
theorem rule {head : RuleHead} {body inner : List Node} (old : head.id < limit)
    (inside : Adds limit start next body inner) :
    Adds limit start next [.rule head body] [.rule head (withoutResolutions inner)] := by
  refine ⟨inside.onward, ?_, ?_⟩
  · simpa [old, ruleHeads_withoutResolutions] using inside.kept
  · have added := inside.added
    rw [numbersIn_eq] at added ⊢
    simpa [ruleHeads_withoutResolutions, Nat.not_le.mpr old] using added

theorem group {head : AtHead} {body inner : List Node} (inside : Adds limit start next body inner) :
    Adds limit start next [.group head body] [.group head inner] :=
  ⟨inside.onward, by simpa using inside.kept, by simpa using inside.added⟩

/-- Numbers that were given out one by one still are when rules were added. -/
theorem isGivenOut {before after : List Node} (adds : Adds limit start next before after)
    (given : GivenOut (numbersIn before) start) : GivenOut (numbersIn after) next := by
  have kept : (numbersIn after).filter (· < limit) = numbersIn before := by
    rw [numbersIn_eq, numbersIn_eq, ← adds.kept, List.filter_map]
    rfl
  have split : (numbersIn before ++ List.range' start (next - start)).Perm (numbersIn after) := by
    rw [← kept, ← adds.added]
    have above : (numbersIn after).filter (limit ≤ ·) =
        (numbersIn after).filter fun number => !decide (number < limit) :=
      List.filter_congr fun number _ => by
        rw [← decide_not]
        exact decide_eq_decide.mpr Nat.not_lt.symm
    rw [above]
    exact List.filter_append_perm ..
  refine GivenOut.perm ⟨?_, ?_⟩ split.symm
  · refine List.nodup_append.mpr ⟨given.distinct, List.nodup_range', ?_⟩
    intro number member other new same
    have below : number < start := given.below number member
    exact Nat.not_lt.mpr ((mem_range_sub adds.onward).mp new).1 (same ▸ below)
  · intro number member
    rcases List.mem_append.mp member with old | new
    · exact Nat.lt_of_lt_of_le (given.below number old) adds.onward
    · exact ((mem_range_sub adds.onward).mp new).2

end Adds

/-- Settling adds rules with new numbers, one after another, and leaves the other heads alone. -/
theorem Settling.adds {nodes others : List Node}
    (settling : Settling context start nodes others next)
    (old : ∀ number ∈ numbersIn nodes, number < limit) (free : limit ≤ start) :
    Adds limit start next nodes others := by
  induction settling with
  | nil => exact .bare rfl
  | @rule _ _ _ _ head _ _ _ _ _ inside answered _ ih ihRest =>
    have own := (ih (fun number member => old number (by simp [member])) free).rule
      (old head.id (by simp))
    have onward := free.trans inside.onward
    have behind := Adds.generated answered.numbered onward answered.flat
    have later := ihRest (fun number member => old number (by simp [member]))
      (onward.trans answered.numbered.onward)
    simpa using (own.append behind).append later
  | @group _ _ _ head _ _ _ _ inside _ ih ihRest =>
    have own : Adds limit _ _ [.group head _] [.group head _] :=
      (ih (fun number member => old number (by simp [member])) free).group
    exact own.append (ihRest (fun number member => old number (by simp [member]))
      (free.trans inside.onward))
  | statement _ ih | declaration _ ih | comment _ ih => exact .cons rfl (ih old free)

end Conflict

/-! Compiled sheets -/

section Compiled

variable {graph : Graph} {mode : OutputMode} {id : BlockId} {block : Block}

theorem Block.ruleHeads_topNodes_sublist :
    (ruleHeads (block.topNodes graph mode id)).Sublist (ruleHeads block.sheet.nodes) := by
  rw [← map_snd_headsIn true, ← map_snd_headsIn true]
  exact headsIn_topNodes_sublist.map Prod.snd

/-- The nodes that conflicts are settled in have the rules of the top level that are kept. -/
theorem Block.ruleHeads_namedNodes :
    ruleHeads (block.namedNodes graph mode id) =
      (ruleHeads (block.topNodes graph mode id)).map fun head =>
        head.withSelectors (classSelectors graph id mode block head.id) :=
  ruleHeads_named _

theorem Block.isGivenOut_namedNodes (numbered : block.sheet.IsNumbered) :
    GivenOut (numbersIn (block.namedNodes graph mode id)) block.sheet.nextRule := by
  have kept :
      (numbersIn (block.namedNodes graph mode id)).Sublist (numbersIn block.sheet.nodes) := by
    rw [numbersIn_eq, numbersIn_eq, ruleHeads_namedNodes, List.map_map]
    simpa [Function.comp_def] using ruleHeads_topNodes_sublist.map RuleHead.id
  exact ⟨kept.nodup numbered.distinct, fun number member =>
    numbered.below number (kept.subset member)⟩

/-- The sheet gets a rule of declarations with its next number. -/
theorem addExport_eq (graph : Graph) (mode : OutputMode) (id : BlockId) (sheet : Sheet) :
    ∃ rule : Rule, rule.head.id = sheet.nextRule ∧
      (∃ declarations : List Declaration, rule.nodes = declarations.map .declaration) ∧
      Compile.addExport graph mode id sheet =
        { sheet with nodes := sheet.nodes ++ [rule.toNode], nextRule := sheet.nextRule + 1 } :=
  ⟨⟨⟨sheet.nextRule, ":export", _⟩, _⟩, rfl, ⟨_, List.map_map.symm⟩, rfl⟩

theorem Conflict.Adds.addExport {limit start : RuleId} {before : List Node} (sheet : Sheet)
    (adds : Adds limit start sheet.nextRule before sheet.nodes) (free : limit ≤ start) :
    Adds limit start (Compile.addExport graph mode id sheet).nextRule before
      (Compile.addExport graph mode id sheet).nodes := by
  obtain ⟨rule, number, flat, same⟩ := addExport_eq graph mode id sheet
  have added := Adds.generated (.single number) (Nat.le_trans free adds.onward)
    fun other member => List.mem_singleton.mp member ▸ flat
  have whole := adds.append added
  rw [List.append_nil] at whole
  rw [same]
  exact whole

/-- What compiling does to the rules of a loaded block. -/
theorem compile_adds {options : Options} {sheet : Sheet} (present : graph.block? id = some block)
    (loaded : block.IsLoaded) (compiled : (compile graph options id).result = .ok sheet) :
    Conflict.Adds block.sheet.nextRule block.sheet.nextRule sheet.nextRule
      (block.namedNodes graph options.outputMode id) sheet.nodes := by
  obtain ⟨settled, next, inner, rfl⟩ := compile_eq_ok present loaded compiled
  have adds := (Conflict.settling_of_settleNodes inner).adds
    (fun number member => Block.lt_of_mem_numbersIn_namedNodes loaded.keeps.2 member)
    (Nat.le_refl _)
  split
  · exact Conflict.Adds.addExport ⟨_, settled, next⟩ adds (Nat.le_refl _)
  · exact adds

end Compiled

/-- The rules of a sheet that was read have numbers of their own, below the sheet's next one, and so
have those of a compiled sheet. Below the next number of the source stand the rules that were kept,
each with the number and the place it had, and the added rules have the numbers from there on. -/
theorem rules_are_numbered :
    (∀ text file sheet, parseSheet text file = .ok sheet → sheet.IsNumbered) ∧
      ∀ (graph : Graph) (options : Options) (id : BlockId) (block : Block) (sheet : Sheet),
        graph.block? id = some block → block.IsLoaded →
        (compile graph options id).result = .ok sheet →
          let kept := ruleHeads (block.topNodes graph options.outputMode id)
          let free := block.sheet.nextRule
          sheet.IsNumbered ∧ kept.Sublist (ruleHeads block.sheet.nodes) ∧
            (ruleHeads sheet.nodes).filter (fun head => head.id < free) = kept.map (fun head =>
              head.withSelectors (classSelectors graph id options.outputMode block head.id)) ∧
            (numbersIn sheet.nodes).filter (free ≤ ·) =
              List.range' free (sheet.nextRule - free) := by
  refine ⟨fun text file sheet read => parseSheet_isNumbered read, ?_⟩
  intro graph options id block sheet present loaded compiled kept free
  have adds := compile_adds present loaded compiled
  refine ⟨adds.isGivenOut (block.isGivenOut_namedNodes loaded.keeps.2),
    block.ruleHeads_topNodes_sublist, ?_, adds.added⟩
  rw [adds.kept, block.ruleHeads_namedNodes]

/-- The rule of the block keeps its number; the one for its conflict and the one that exports the
names get the next two. -/
theorem nightBlock_numbers :
    ∃ sheet, (compile nightGraph { Options.default with exportNames := true } ⟨1⟩).result =
        .ok sheet ∧ numbersIn sheet.nodes = [0, 1, 2] ∧ sheet.IsNumbered := by
  have works : ((compile nightGraph { Options.default with exportNames := true } ⟨1⟩).result.map
      fun sheet => numbersIn sheet.nodes) = .ok [0, 1, 2] := by decide +kernel
  obtain ⟨sheet, compiled, numbers⟩ := map_eq_ok_iff.mp works
  exact ⟨sheet, compiled, numbers,
    (rules_are_numbered.2 _ _ _ nightBlock _ rfl nightBlock_isLoaded compiled).1⟩

end StyleBlock
