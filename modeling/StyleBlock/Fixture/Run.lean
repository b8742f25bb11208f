import StyleBlock.Fixture.Basic
import StyleBlock.Sheet.Printer
import StyleBlock.Standalone

/-!
Running fixtures and reporting on them.
-/

namespace StyleBlock.Fixture

open Files (Tree)

/-- A fixture that was run, with the reason if it failed. -/
structure Verdict where
  path : String
  description : Option String
  failure : Option String
deriving DecidableEq, Repr

/-- What is wrong with the outcome of compiling a fixture. -/
def mismatch? (expectation : Expectation) (outcome : Except Error Sheet) : Option String :=
  match expectation.error, expectation.output, outcome with
  | some expected, _, .error error =>
    if Text.occursIn expected error.text then none
    else
      some ("expected error containing " ++ doubleQuoted expected ++ ", got: " ++ error.text)
  | some expected, _, .ok _ =>
    some ("expected error containing " ++ doubleQuoted expected ++
      ", but compilation succeeded")
  | none, _, .error error => some ("unexpected error: " ++ error.text)
  | none, some expected, .ok sheet =>
    let actual := Text.trim sheet.text
    let expected := Text.trim expected
    if actual = expected then none
    else
      some ("output mismatch\n  expected:\n" ++ indent expected ++ "\n  actual:\n" ++
        indent actual)
  | none, none, .ok _ => none

/-- Compiles the text of a fixture. -/
def compile (tree : Tree) (options : Options) (path : String) (fixture : Fixture) :
    Except Error Sheet :=
  let options := { options with exportNames := fixture.expectation.exportNames }
  let id := (Files.Path.absolute? tree.workPath path).getD path
  (Standalone.compileLoaded
    (Standalone.loadText tree options fixture.source id (blockName path))).result

/-- Runs the fixture in a file. -/
def run (tree : Tree) (options : Options) (path : String) : Verdict :=
  match tree.read path with
  | .error fault => ⟨path, none, some ("cannot read file: " ++ fault.message)⟩
  | .ok content =>
    match parse content with
    | .error fault => ⟨path, none, some ("frontmatter error: " ++ fault.message)⟩
    | .ok fixture =>
      ⟨path, fixture.expectation.description,
        mismatch? fixture.expectation (compile tree options path fixture)⟩

/-- The fixture files below a directory by category, in order. -/
def discover (tree : Tree) (root : String) : List (String × List String) :=
  let found := (tree.filesBelow root).filter fun names =>
    names.getLast?.any fun name => name.endsWith suffix
  let categories := Text.orderedTexts (found.map fun names => "/".intercalate names.dropLast)
  categories.map fun category =>
    let files := found.filter fun names => "/".intercalate names.dropLast = category
    let names := Text.orderedTexts (files.map fun names => names.getLast?.getD "")
    let directory := if category = "" then root else Files.Path.join root category
    (category, names.map (Files.Path.join directory))

/-- How a fixture is called in a report. -/
def Verdict.label (verdict : Verdict) : String :=
  verdict.description.getD
    (((Files.Path.fileName? verdict.path).bind withoutSuffix?).getD "?")

def Verdict.line (verdict : Verdict) : String :=
  "  " ++ (if verdict.failure.isNone then "PASS" else "FAIL") ++ "  " ++ verdict.label ++ "\n"

/-- The reasons of the failures, each under the file it is about. -/
def failureLines (verdicts : List Verdict) : String :=
  let failures := verdicts.filterMap fun verdict =>
    verdict.failure.map fun reason => (verdict.path, reason)
  if failures.isEmpty then ""
  else
    "\nfailures:\n" ++ String.join (failures.map fun (path, reason) =>
      "\n  --- " ++ path ++ " ---\n" ++
        String.join ((Text.lines reason).map fun line => "  " ++ line ++ "\n"))

/-- The last line of a report. -/
def summary (verdicts : List Verdict) : String :=
  let failed := verdicts.countP fun verdict => verdict.failure.isSome
  s!"\n{verdicts.length} fixture(s): " ++
    (if failed = 0 then "all passed\n"
    else s!"{failed} failed, {verdicts.length - failed} passed\n")

/-- The report of a run over categories, whose names are shown if asked for, and whether every
fixture passed. -/
def report (tree : Tree) (options : Options) (showCategories : Bool)
    (selected : List (String × List String)) : String × Bool :=
  let runs := selected.map fun (category, files) => (category, files.map (run tree options))
  let verdicts := runs.flatMap Prod.snd
  let body := String.join (runs.map fun (category, verdicts) =>
    (if showCategories then "\n" ++ categoryName category ++ "\n" else "") ++
      String.join (verdicts.map Verdict.line))
  (body ++ failureLines verdicts ++ summary verdicts,
    verdicts.all fun verdict => verdict.failure.isNone)

end StyleBlock.Fixture
