import StyleBlock.Import.Memory
import StyleBlock.Load.Basic
import StyleBlock.Proofs.LoadedBlock
import StyleBlock.Proofs.PlacedReading

/-!
Where errors are blamed. The location of an error names one place of the text of a block three ways,
with its line, its column and its offset. They agree for every error but those of selector lists,
whose column is added to the offset of the rule, and whose line is added to its line alone: there
they agree as long as the fault is on the first line of the rule, with characters of one byte before
it.
-/

namespace StyleBlock

open Text (Location Position)

variable {text file : String}

/-- Whether a location is a place in the text of a file. -/
def Text.Location.PointsInto (location : Location) (text file : String) : Prop :=
  location.file = file ∧
    Position.PointsInto ⟨location.line, location.column, location.offset⟩ text.toList

/-- Whether an error is blamed at a place in the text of a file, if it is blamed at a location. -/
def Error.PointsInto (error : Error) (text file : String) : Prop :=
  ∀ location, error.location? = some location → location.PointsInto text file

/-- Whether the way to a place, counted from the start of `rest`, leads to a later line or past a
character that ends a line or takes more than one byte. -/
def Text.Position.LosesCount (place : Position) (rest : List Char) : Prop :=
  1 < place.line ∨
    ∃ c ∈ rest.take (place.column - 1), 128 ≤ c.toNat ∨ Text.isLineEnd c = true

/-- Whether an error is the first fault in the selector list of a rule, at a place where the count
from the start of the rule is lost. -/
def Error.IsMisplaced (error : Error) (text file : String) : Prop :=
  ∃ sheet rule stopped before rest, parseSheet text file = .ok sheet ∧ rule ∈ sheet.styleRules ∧
    parseSelectors rule.head.selector = .error stopped ∧
    error = .invalidAt (.selector stopped.fault rule.head.selector)
      (sheet.selectorLocation rule stopped.place) ∧
    text.toList = before ++ rest ∧ rule.head.place = Position.start.after before ∧
    stopped.place.LosesCount rest

/-! Selector lists -/

/-- A place on the first line of a text is told by the units before it. -/
theorem Text.Position.IsCutOf.of_first_line {place : Position} {chars : List Char}
    (isCut : place.IsCutOf chars) (first : place.line ≤ 1) : ∃ before rest, chars = before ++ rest ∧
      place.column - 1 = Text.unitCount before := by
  obtain ⟨rest, before, whole, _, rfl⟩ := isCut
  refine ⟨before, rest, whole, ?_⟩
  have inLine : ∀ c ∈ before, ¬Text.isLineEnd c = true := by
    intro c member ends
    have := Position.line_lt_after .start member ends
    simp only [Position.start] at this first
    omega
  rw [Position.after_inLine .start inLine]
  simp [Position.start]

/-- The location of a fault in a selector list is a place in the text exactly when the count from
the start of the rule is not lost. -/
theorem Sheet.selectorLocation_pointsInto_iff {sheet : Sheet} {rule : Rule} {place : Position}
    {before rest : List Char} (ofFile : sheet.file = file)
    (stands : rule.head.StandsIn text.toList) (inside : place.IsCutOf rule.head.selector.toList)
    (whole : text.toList = before ++ rest) (start : rule.head.place = Position.start.after before) :
    (sheet.selectorLocation rule place).PointsInto text file ↔ ¬place.LosesCount rest := by
  obtain ⟨raw, more, isMore, leaves, trimmed⟩ := stands
  obtain rfl := leaves.rest_eq whole start
  unfold Sheet.selectorLocation Location.PointsInto Position.LosesCount
  by_cases first : place.line ≤ 1
  · obtain ⟨way, behind, split, columns⟩ := inside.of_first_line first
    -- the way is within the selector list, and so shorter than the text from the rule on
    have below : (∀ c ∈ (raw ++ more).take (place.column - 1), c.toNat < 128) →
        place.column - 1 < (raw ++ more).length := by
      intro ascii
      by_contra beyond
      rw [List.take_of_length_le (Nat.le_of_not_lt beyond)] at ascii
      have fewer : way.Sublist raw :=
        (List.sublist_append_left way behind).trans
          (split ▸ trimmed ▸ Text.trimChars_sublist raw)
      have isAscii : ∀ c ∈ way, c.toNat < 128 :=
        fun c member => ascii c (List.mem_append_left more (fewer.subset member))
      have units := Text.unitCount_of_ascii isAscii
      have shorter := fewer.length_le
      have := List.length_pos_iff.mpr isMore
      rw [List.length_append] at beyond
      omega
    simp only [if_pos first, Sheet.location, Position.inFile]
    rw [leaves.shift_pointsInto_iff below]
    simp [ofFile, Nat.not_lt.mpr first]
  · have later := @Position.Leaves.not_pointsInto text.toList (raw ++ more) rule.head.place leaves
      (rule.head.place.line + (place.line - 1)) place.column (by omega)
    simp only [if_neg first, Sheet.location, Position.inFile]
    simp [later, Nat.lt_of_not_le first]

/-! Errors of a block -/

variable {sheet : Sheet} {place : Position}

theorem Sheet.StandsIn.location (stands : sheet.StandsIn text.toList file)
    (points : place.PointsInto text.toList) : (sheet.location place).PointsInto text file :=
  ⟨stands.file, points⟩

theorem Error.pointsInto_invalidAt {fault : Fault} {location : Location}
    (points : location.PointsInto text file) :
    (Error.invalidAt fault location).PointsInto text file :=
  fun _ same => Option.some.inj same ▸ points

theorem Error.pointsInto_misuseAt {fault : Fault} {location : Location}
    (points : location.PointsInto text file) :
    (Error.misuseAt fault location).PointsInto text file :=
  fun _ same => Option.some.inj same ▸ points

theorem LegalityFault.pointsInto_error (fault : LegalityFault) {location : Location}
    (points : location.PointsInto text file) : (fault.error location).PointsInto text file := by
  unfold LegalityFault.error
  split
  case h_4 => exact Error.pointsInto_invalidAt points
  all_goals exact Error.pointsInto_misuseAt points

namespace Draft

variable {graph : Graph} (stands : sheet.StandsIn text.toList file)
include stands

theorem rootDeclarationsIn_points {rootRules : List RuleId} {property : String} :
    ∀ declaration ∈ rootDeclarationsIn sheet rootRules property,
      declaration.place.PointsInto text.toList := by
  intro declaration member
  obtain ⟨rule, top, listed⟩ := List.mem_flatMap.mp member
  exact (stands.topRules rule (List.mem_filter.mp top).1).declarations declaration
    (List.mem_filter.mp listed).1

theorem blockName_points (rootRules : List RuleId) (defaultName : String) :
    Ends (fun _ => True) (fun error => error.PointsInto text file)
      (blockName sheet rootRules defaultName) := by
  unfold blockName
  split
  · trivial
  · rename_i declaration last
    dsimp only
    split
    · trivial
    · exact Error.pointsInto_invalidAt (stands.location
        (rootDeclarationsIn_points stands declaration (List.mem_of_getLast? last)))

/-- What is wrong with a sheet by itself is blamed at a place in its text, or is a fault of a
selector list that is misplaced. -/
theorem ofSheet_points (read : parseSheet text file = .ok sheet)
    (identifier : FileId) (debugIdentifier defaultName : String) :
    Ends (fun _ => True) (fun error => error.PointsInto text file ∨ error.IsMisplaced text file)
      (ofSheet sheet identifier debugIdentifier defaultName) := by
  have parsed : Ends (fun _ => True)
      (fun error => error.PointsInto text file ∨ error.IsMisplaced text file) sheet.parseRules := by
    refine Ends.mapM fun rule style => ?_
    split
    · trivial
    · rename_i stopped failed
      have head := (stands.nodes.styleRules rule style).head
      obtain ⟨before, after, whole, _, start⟩ := head.points
      have inside := (parseSelectors_within rule.head.selector).of_error failed
      have points := Sheet.selectorLocation_pointsInto_iff stands.file head inside whole start
      by_cases loses : stopped.place.LosesCount after
      · exact .inr ⟨sheet, rule, stopped, before, after, read, style, failed, rfl, whole, start,
          loses⟩
      · exact .inl (Error.pointsInto_invalidAt (points.mpr loses))
  refine parsed.bind fun selectors _ => ?_
  refine ((blockName_points stands _ _).imp (fun _ known => known) fun _ => .inl).bind fun _ _ => ?_
  trivial

theorem references_point :
    ∀ statement ∈ sheet.references, statement.location.PointsInto text file := by
  intro statement member
  obtain ⟨node, inside, same⟩ := List.mem_filterMap.mp member
  have isPlaced := standIn_iff.mp stands.nodes node inside
  split at same
  · split at same <;> cases same
    exact stands.location isPlaced
  · split at same <;> cases same
    exact stands.location isPlaced.1
  · cases same

theorem completeReference_points {block : Block} {reliance : Reliance} {name : String}
    (points : place.PointsInto text.toList) :
    Ends (fun _ => True) (fun error => error.PointsInto text file)
      (completeReference graph block reliance name (sheet.location place)) := by
  have blamed := stands.location points
  unfold completeReference
  split
  · exact Error.pointsInto_misuseAt blamed
  · split
    · trivial
    · exact Error.pointsInto_misuseAt blamed

theorem addExtension_points {block : Block} (same : block.sheet = sheet) {declaration : Declaration}
    (points : declaration.place.PointsInto text.toList) :
    Ends (fun _ => True) (fun error => error.PointsInto text file)
      (addExtension graph block declaration) := by
  unfold addExtension
  rw [same]
  dsimp only
  split
  · exact Error.pointsInto_invalidAt (stands.location points)
  · exact (completeReference_points stands points).bind fun _ _ => trivial

theorem addInterfaces_points {block : Block} (same : block.sheet = sheet)
    {declaration : Declaration} (points : declaration.place.PointsInto text.toList) :
    Ends (fun after => after.sheet = sheet) (fun error => error.PointsInto text file)
      (addInterfaces graph block declaration) := by
  refine Ends.foldlM_mem same fun name _ block same => ?_
  rw [same]
  exact (completeReference_points stands points).bind fun _ _ =>
    (Block.sameSource_addImplemented ..).sheet.trans same

theorem checkBookkeeping_points {draft : Draft} (same : draft.block.sheet = sheet) {rule : Rule}
    (inside : rule.StandsIn text.toList) :
    Ends (fun _ => True) (fun error => error.PointsInto text file)
      (draft.checkBookkeeping rule) := by
  unfold checkBookkeeping
  rw [same]
  split
  · trivial
  split
  · trivial
  · rename_i declaration found
    exact Error.pointsInto_invalidAt
      (stands.location (inside.declarations declaration (List.mem_of_find?_eq_some found)))

theorem addSelector_points {block : Block} (same : block.sheet = sheet) {rule : Rule}
    (inside : rule.StandsIn text.toList) (selector : Selector) :
    Ends (fun after => after.sheet = sheet) (fun error => error.PointsInto text file)
      (addSelector graph rule block selector) := by
  refine Ends.keeping ?_ fun added => (sameSource_addSelector added).sheet.trans same
  unfold addSelector
  split
  · rw [same]
    exact LegalityFault.pointsInto_error _ (stands.location inside.head.points)
  · trivial
  · trivial

theorem addRule_points {draft : Draft} (same : draft.block.sheet = sheet) {rule : Rule}
    (inside : rule.StandsIn text.toList) :
    Ends (fun after => after.block.sheet = sheet) (fun error => error.PointsInto text file)
      (addRule graph draft rule) := by
  refine (checkBookkeeping_points stands same inside).bind fun _ _ => ?_
  have folded : Ends (fun block : Block => block.sheet = sheet)
      (fun error => error.PointsInto text file)
      ((draft.block.selectorsOf rule.head.id).foldlM (addSelector graph rule) draft.block) :=
    Ends.foldlM_mem same fun selector _ _ same => addSelector_points stands same inside selector
  exact folded.bind fun _ same => same

/-- What is wrong with a sheet among other blocks is blamed at a place in its text. -/
theorem complete_points {draft : Draft} (kept : draft.KeepsPlain sheet)
    {links : List (Link × BlockId)}
    (located : ∀ link ∈ links, link.1.location.PointsInto text file) (defaults : FileId → String) :
    Ends (fun _ => True) (fun error => error.PointsInto text file)
      (draft.complete graph defaults links) := by
  have linked : Ends (KeepsPlain · sheet) (fun error => error.PointsInto text file)
      (links.foldlM (addLink graph defaults) draft) := by
    refine Ends.foldlM_mem kept fun link member draft kept => ?_
    refine Ends.keeping ?_ fun added => kept.addLink added
    unfold addLink
    dsimp only
    split
    · exact Error.pointsInto_invalidAt (located link member)
    · trivial
  refine linked.bind fun draft kept => ?_
  have extended : Ends (Block.Keeps · sheet) (fun error => error.PointsInto text file)
      ((draft.rootDeclarations "extends").foldlM (addExtension graph) draft.block) := by
    refine Ends.foldlM_mem kept.2 fun declaration member block kept' => ?_
    rw [rootDeclarations, kept.2.same] at member
    exact (addExtension_points stands kept'.same
      (rootDeclarationsIn_points stands declaration member)).keeping fun added =>
        keeps_addExtension kept' added
  refine extended.bind fun block kept' => ?_
  have implementing : Ends (fun block : Block => block.sheet = sheet)
      (fun error => error.PointsInto text file)
      ((draft.rootDeclarations "implements").foldlM (addInterfaces graph) block) := by
    refine Ends.foldlM_mem kept'.same fun declaration member block same => ?_
    rw [rootDeclarations, kept.2.same] at member
    exact addInterfaces_points stands same (rootDeclarationsIn_points stands declaration member)
  refine implementing.bind fun block same => ?_
  have ruled : Ends (fun draft : Draft => draft.block.sheet = sheet)
      (fun error => error.PointsInto text file)
      (block.sheet.styleRules.foldlM (addRule graph) { draft with block }) := by
    rw [same]
    exact Ends.foldlM_mem same fun rule style draft same =>
      addRule_points stands same (stands.nodes.styleRules rule style)
  exact ruled.bind fun _ _ => trivial

end Draft

/-- An error that is misplaced is blamed at no place in the text. -/
theorem Error.IsMisplaced.not_pointsInto {error : Error} (misplaced : error.IsMisplaced text file) :
    ¬error.PointsInto text file := by
  obtain ⟨sheet, rule, stopped, before, rest, read, style, failed, rfl, whole, start, loses⟩ :=
    misplaced
  have stands := (parseSheet_standsIn text file).of_ok read
  have inside := (parseSelectors_within rule.head.selector).of_error failed
  have iff := Sheet.selectorLocation_pointsInto_iff stands.file
    (stands.nodes.styleRules rule style).head inside whole start
  exact fun points => iff.mp (points _ rfl) loses

theorem Error.pointsInto_iff {error : Error}
    (known : error.PointsInto text file ∨ error.IsMisplaced text file) :
    error.PointsInto text file ↔ ¬error.IsMisplaced text file :=
  ⟨fun points misplaced => misplaced.not_pointsInto points, known.resolve_right⟩

namespace Loader

/-- The references that are read, with the places of their statements. -/
theorem readLinks_points {file : FileId} {statements : List ReferenceStatement}
    {text shown : String}
    (located : ∀ statement ∈ statements, statement.location.PointsInto text shown)
    (loader : Loader) :
    Ends (fun links : List (Link × LinkState) =>
        ∀ link ∈ links.map Prod.fst, link.location.PointsInto text shown)
      (fun error => error.PointsInto text shown) (readLinks file statements loader).2 := by
  induction statements generalizing loader with
  | nil => exact nofun
  | cons statement rest ih =>
    obtain ⟨here, later⟩ := List.forall_mem_cons.mp located
    have read : Ends (fun _ => True) (fun error => error.PointsInto text shown)
        statement.parse := by
      unfold ReferenceStatement.parse
      split
      · trivial
      · exact Error.pointsInto_invalidAt here
    unfold readLinks
    split
    · rename_i failed
      exact read.of_error failed
    · rename_i reference _
      have others := ih later (loader.identifier (some file) reference.path).1
      dsimp only
      split <;> rename_i same <;> rw [same] at others
      · exact others
      · exact List.forall_mem_cons.mpr ⟨here, others⟩

/-- Every error about the text of a file that is blamed at a location is blamed at a place in the
text, whose line and column are those of its offset; but one about a selector list is so exactly
when the count of its place from the start of the rule is not lost. -/
theorem assemble_points (loader : Loader) (file : FileId) (text defaultName : String)
    (dependencies : List String) :
    let shown := loader.importer.debugIdentifier file
    Ends
      (fun assembly => ∀ graph defaults linked,
        linked.map Prod.fst = assembly.links.map Prod.fst →
          Ends (fun _ => True) (fun error => error.PointsInto text shown)
            (assembly.draft.complete graph defaults linked))
      (fun error => error.PointsInto text shown ↔ ¬error.IsMisplaced text shown)
      (loader.assemble file text defaultName dependencies).2 := by
  intro shown
  have whole := parseSheet_standsIn text shown
  unfold assemble
  dsimp only
  split <;> rename_i sheet read
  · have points : sheet.place.PointsInto text.toList := whole.of_error read
    exact Error.pointsInto_iff (.inl (Error.pointsInto_invalidAt ⟨rfl, points⟩))
  have stands := whole.of_ok read
  have ofSheet := Draft.ofSheet_points stands read file shown defaultName
  split <;> rename_i draft drafted
  · exact Error.pointsInto_iff (ofSheet.of_error drafted)
  have links := @readLinks_points file _ text shown (Draft.references_point stands) loader
  split <;> rename_i after found same <;> rw [same] at links
  · exact Error.pointsInto_iff (.inl links)
  · intro graph defaults linked ofLinks
    refine Draft.complete_points stands (Draft.keepsPlain_ofSheet drafted) ?_ defaults
    intro link member
    exact links link.1 (ofLinks ▸ List.mem_map_of_mem member)

/-- The place that a failure is blamed at, if it is blamed at one. -/
def blame? {α : Type} : Except Error α → Option Location
  | .ok _ => none
  | .error error => error.location?

/-- A block that extends a name it does not refer to, on its second line. -/
def strangerText : String := "@block-reference b from \"b.css\";\n.root \x7b extends: c; \x7d"

/-- The base is looked up once the reference is linked, and the fault is blamed at the
declaration. -/
theorem stranger_pointsInto :
    ∃ (assembly : Assembly) (linked : List (Link × BlockId)) (error : Error),
      ((ofImporter .default (MemoryFiles.mk [] []).importer).assemble
        "a.css" strangerText "a" []).2 = .ok assembly ∧
      linked.map Prod.fst = assembly.links.map Prod.fst ∧ linked ≠ [] ∧
      assembly.draft.complete ⟨#[some (Block.bare "b" "b.css" "b.css"), none]⟩ id linked =
        .error error ∧
      error.location? = some ⟨"a.css", 2, 9, 41⟩ ∧ error.PointsInto strangerText "a.css" := by
  let others : Graph := ⟨#[some (Block.bare "b" "b.css" "b.css"), none]⟩
  let link (assembly : Assembly) : List (Link × BlockId) :=
    assembly.links.map fun entry => (entry.1, ⟨0⟩)
  let loader := ofImporter .default (MemoryFiles.mk [] []).importer
  have points := assemble_points loader "a.css" strangerText "a" []
  have works : ((loader.assemble "a.css" strangerText "a" []).2.toOption.map fun assembly =>
      ((link assembly).length, blame? (assembly.draft.complete others id (link assembly)))) =
      some (1, some ⟨"a.css", 2, 9, 41⟩) := by
    decide +kernel
  cases assembled : (loader.assemble "a.css" strangerText "a" []).2 with
  | error error =>
    rw [assembled] at works
    cases works
  | ok assembly =>
    rw [assembled] at points works
    obtain ⟨one, blamed⟩ := Prod.mk.inj (Option.some.inj works)
    have same : (link assembly).map Prod.fst = assembly.links.map Prod.fst := by simp [link]
    cases failed : assembly.draft.complete others id (link assembly) with
    | ok block =>
      rw [failed] at blamed
      cases blamed
    | error error =>
      rw [failed] at blamed
      refine ⟨assembly, link assembly, error, rfl, same, ?_, failed, blamed,
        (points others id (link assembly) same).of_error failed⟩
      exact List.ne_nil_of_length_pos (by omega)

/-- A rule with a selector on each of two lines, the second without the name of a class. -/
def namelessText : String := ".tab,\n.$ \x7b color: red; \x7d"

/-- The fault is at the end of the second line, and the location keeps the offset of the rule, which
is on the first. -/
theorem nameless_not_pointsInto :
    ∃ error, ((ofImporter .default (MemoryFiles.mk [] []).importer).assemble
        "a.css" namelessText "a" []).2 = .error error ∧
      error.location? = some ⟨"a.css", 2, 3, 0⟩ ∧ ¬error.PointsInto namelessText "a.css" := by
  have blamed : (match ((ofImporter .default (MemoryFiles.mk [] []).importer).assemble
      "a.css" namelessText "a" []).2 with
    | .error error => error.location?
    | .ok _ => none) = some ⟨"a.css", 2, 3, 0⟩ := by
    decide +kernel
  split at blamed
  · rename_i error failed
    refine ⟨error, failed, blamed, fun points => ?_⟩
    obtain ⟨-, before, after, -, -, same⟩ := points _ blamed
    cases before with
    | nil => cases same
    | cons c before =>
      have offset := congrArg Position.offset same
      have := c.utf8Size_pos
      simp only [Position.offset_start_after, Text.byteCount_cons] at offset
      omega
  · cases blamed

end Loader

end StyleBlock
