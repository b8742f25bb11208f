import StyleBlock.Data.Json
import StyleBlock.Error
import StyleBlock.Text.Blank

/-!
The configuration of the compiler, and how it is read from a tree of values.
-/

namespace StyleBlock

/-- How block objects become class names: `block__class--group-state`. -/
inductive OutputMode where
  | bem
deriving DecidableEq, Repr

namespace OutputMode

def name : OutputMode → String
  | bem => "bem"

/-- The mode with a name in any case. -/
def parse (name : String) : Except Error OutputMode :=
  if Text.sameIgnoringCase name "bem" then .ok bem else .error (.misuse (.unknownMode name) none)

end OutputMode

structure Options where
  outputMode : OutputMode
  /-- The directory that top-level paths start from. -/
  rootDir : String
  /-- How many preprocessing jobs may run at once. -/
  maxConcurrentCompiles : Nat
  /-- Keeps other dialects out of the preprocessor for plain sheets. -/
  disablePreprocessChaining : Bool
  /-- Appends a rule that exports the generated names. -/
  exportNames : Bool
deriving DecidableEq, Repr

namespace Options

open Data (Json)

def default : Options := ⟨.bem, ".", 4, false, false⟩

/-- Which values stand for nothing, in the form of data that the options are read from. -/
abbrev Nothing : Type := Json → Bool

/-- Only `null` is nothing in JSON. -/
def jsonNothing : Nothing
  | .null => true
  | _ => false

/-- What is empty is nothing in TOML. -/
def tomlNothing : Nothing
  | .array [] => true
  | .object [] => true
  | _ => false

/-- A mode is given by its name, or as a table that holds nothing under its name. -/
def modeOf? (isNothing : Nothing) : Json → Option OutputMode
  | .string "bem" => some .bem
  | .object [("bem", value)] => if isNothing value then some .bem else none
  | _ => none

def textOf? : Json → Option String
  | .string text => some text
  | _ => none

def countOf? : Json → Option Nat
  | .integer value => if 0 ≤ value && value < Int.pow 2 64 then some value.toNat else none
  | _ => none

def flagOf? : Json → Option Bool
  | .bool value => some value
  | _ => none

/-- The names of the fields, in the order in which a list gives them. -/
def fieldNames : List String :=
  ["output-mode", "root-dir", "max-concurrent-compiles", "disable-preprocess-chaining",
    "export-icss"]

/-- The options with one field set; fields of other names change nothing. -/
def set? (isNothing : Nothing) (options : Options) (name : String) (value : Json) :
    Option Options :=
  match name with
  | "output-mode" => (modeOf? isNothing value).map fun mode => { options with outputMode := mode }
  | "root-dir" => (textOf? value).map fun dir => { options with rootDir := dir }
  | "max-concurrent-compiles" =>
    (countOf? value).map fun count => { options with maxConcurrentCompiles := count }
  | "disable-preprocess-chaining" =>
    (flagOf? value).map fun flag => { options with disablePreprocessChaining := flag }
  | "export-icss" => (flagOf? value).map fun flag => { options with exportNames := flag }
  | _ => some options

/-- Reads options from an object, whose last field of a name counts, or from a list, which may
stop early. Everything not given keeps its default. -/
def read? (isNothing : Nothing) : Json → Option Options
  | .object fields =>
    fieldNames.foldlM (fun options name =>
      match (Json.object fields).field? name with
      | some value => set? isNothing options name value
      | none => some options) default
  | .array items =>
    if fieldNames.length < items.length then none
    else
      (fieldNames.zip items).foldlM (fun options (name, value) =>
        set? isNothing options name value) default
  | _ => none

/-- The options that a JSON value denotes. -/
def ofJson? : Json → Option Options := read? jsonNothing

/-- The options that a TOML document denotes. -/
def ofToml? : Json → Option Options := read? tomlNothing

end Options

end StyleBlock
