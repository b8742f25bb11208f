import StyleBlock.Data.Toml.Reader
import StyleBlock.Files.Path

/-!
Fixtures: files that hold the text of a block under a head that says what compiling it should give.
The head is a TOML document between two lines of three hyphens. Files are grouped into categories
by the directories they are in.
-/

namespace StyleBlock

/-- What a fixture expects. -/
structure Expectation where
  description : Option String
  /-- The compiled sheet, apart from blanks at its ends. -/
  output : Option String
  /-- A part of the text of the error. -/
  error : Option String
  exportNames : Bool
deriving DecidableEq, Repr

structure Fixture where
  expectation : Expectation
  /-- The text of the block, with an empty line for every line of the head. -/
  source : String
deriving DecidableEq, Repr

inductive FixtureFault where
  | noOpening
  | noClosing
  | malformedHead
deriving DecidableEq, Repr

def FixtureFault.message : FixtureFault → String
  | noOpening => "missing opening --- frontmatter delimiter"
  | noClosing => "missing closing --- frontmatter delimiter"
  | malformedHead => "TOML parse error"

namespace Fixture

open Data (Json)

/-- A field of the head that holds a text, if it is there. -/
def textField? (head : Json) (name : String) : Option (Option String) :=
  match head.field? name with
  | none => some none
  | some (.string text) => some (some text)
  | some _ => none

/-- A field of the head that holds a truth value. -/
def flagField? (head : Json) (name : String) : Option Bool :=
  match head.field? name with
  | none => some false
  | some (.bool flag) => some flag
  | some _ => none

/-- Reads the head. -/
def expectation? (text : String) : Option Expectation := do
  let head ← Data.Toml.parse? text
  return ⟨← textField? head "description", ← textField? head "expect_output",
    ← textField? head "expect_error", ← flagField? head "export_icss"⟩

/-- The characters without a line end in front. -/
def dropLineEnd : List Char → List Char
  | '\n' :: rest => rest
  | '\r' :: '\n' :: rest => rest
  | chars => chars

/-- Reads a fixture. A byte order mark in front does not count. -/
def parse (content : String) : Except FixtureFault Fixture :=
  let chars := content.toList.dropWhile fun c => c = '\ufeff'
  match Text.afterLead? "---".toList chars with
  | none => .error .noOpening
  | some afterOpening =>
    match Text.cutAt? "\n---".toList (dropLineEnd afterOpening) with
    | none => .error .noClosing
    | some (head, afterClosing) =>
      let head := (head.reverse.dropWhile fun c => c = '\r').reverse
      let rest := dropLineEnd afterClosing
      match expectation? (String.ofList head) with
      | none => .error .malformedHead
      | some expectation =>
        let lineEnds := chars.count '\n' - rest.count '\n'
        .ok ⟨expectation, String.ofList (List.replicate lineEnds '\n' ++ rest)⟩

/-- The end of the names of fixture files. -/
def suffix : String := ".test.css"

/-- A file name without the end that fixtures have. -/
def withoutSuffix? (name : String) : Option String :=
  if name.endsWith suffix then some (name.dropEnd suffix.length).toString else none

/-- The name of the block in a fixture file. -/
def blockName (path : String) : String :=
  let name := (Files.Path.fileName? path).getD ""
  (withoutSuffix? name).getD name

def isFixture (path : String) : Bool :=
  (Files.Path.fileName? path).any fun name => name.endsWith suffix

/-- The category of a directory below a root. -/
def categoryOf (directory root : String) : String :=
  match Text.afterLead? (Files.Path.components root) (Files.Path.components directory) with
  | none => ""
  | some names => "/".intercalate names

/-- How a category is shown. -/
def categoryName (category : String) : String :=
  if category = "" then "(root)" else category

/-- A category as it is asked for, without slashes at its ends. -/
def trimSlashes (category : String) : String :=
  let chars := category.toList.dropWhile fun c => c = '/'
  String.ofList (chars.reverse.dropWhile fun c => c = '/').reverse

/-- Whether a category is the wanted one or below it. -/
def isWithin (wanted category : String) : Bool :=
  category = wanted || (category.startsWith (wanted ++ "/"))

/-- The categories that are asked for, all of them if none is, with those that were asked for
in vain: such a request adds nothing to the ones before it. -/
def select (all : List String) (requested : List String) : List String × List String :=
  if requested.isEmpty then (all, [])
  else
    let (chosen, missed) := requested.foldl (fun (chosen, missed) request =>
      let wanted := trimSlashes request
      let found := all.filter (isWithin wanted)
      let more := found.filter fun category => !chosen.contains category
      (chosen ++ more, if more.isEmpty then missed ++ [wanted] else missed)) ([], [])
    (all.filter fun category => chosen.contains category, missed)

/-- A text with every line indented. -/
def indent (text : String) : String :=
  "\n".intercalate ((Text.lines text).map fun line => "    " ++ line)

end Fixture

end StyleBlock
