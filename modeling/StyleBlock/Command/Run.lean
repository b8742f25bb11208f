import StyleBlock.Command.Arguments
import StyleBlock.Fixture.Run
import StyleBlock.Report.Snippet

/-!
What a command line does to a tree of files, and what it writes.
-/

namespace StyleBlock.Command

open Files (Tree)

/-- The end of a run: its exit code, what it wrote, and the files as it left them. -/
structure Outcome where
  code : Nat
  stdout : String
  stderr : String
  tree : Tree

/-- The configuration file that is read when none is named. -/
def configFile : String := "css-blocks.toml"

/-- What can be wrong with a configuration file. -/
inductive ConfigFault where
  | unreadable (path reason : String)
  | malformed (path : String)
  | noCompiles (path : String)
deriving DecidableEq, Repr

def ConfigFault.message : ConfigFault → String
  | unreadable path reason => "cannot read '" ++ path ++ "': " ++ reason
  | malformed path => "invalid config '" ++ path ++ "': TOML parse error"
  | noCompiles path =>
    "invalid config '" ++ path ++ "': max-concurrent-compiles must be at least 1"

/-- The options with a relative root directory read from the directory of their file. -/
def anchor (path : String) (options : Options) : Options :=
  if Files.Path.isAbsolute options.rootDir then options
  else
    match Files.Path.parent? path with
    | none => options
    | some directory => { options with rootDir := Files.Path.join directory options.rootDir }

/-- Reads the options from a configuration file. -/
def readOptions (tree : Tree) (path : String) : Except ConfigFault Options :=
  match tree.read path with
  | .error fault => .error (.unreadable path fault.message)
  | .ok text =>
    match (Data.Toml.parse? text).bind Options.ofToml? with
    | none => .error (.malformed path)
    | some options =>
      if options.maxConcurrentCompiles = 0 then .error (.noCompiles path)
      else .ok (anchor path options)

/-- The options of a run: a named file must be there, the usual one may be. -/
def loadOptions (tree : Tree) : Option String → Except ConfigFault Options
  | some path => readOptions tree path
  | none => if tree.isFile configFile then readOptions tree configFile else .ok .default

/-- An error as it is reported, with the line it is blamed on if its file can be read. -/
def errorReport (tree : Tree) (options : Options) (error : Error) : String :=
  let plain := "error: " ++ error.text ++ "\n"
  match error.location? with
  | none => plain
  | some location =>
    match tree.read (Files.Path.join options.rootDir location.file) with
    | .error _ => plain
    | .ok source => Report.snippet (error.diagnostic 0) location.file source

/-- Lines of output. -/
def lines (texts : List String) : String :=
  String.join (texts.map fun text => text ++ "\n")

/-- Writes the compiled sheet to a file, or to the output after `written`. -/
def emit (tree : Tree) (output : Option String) (written errors css : String) : Outcome :=
  match output with
  | none => ⟨0, written ++ css, errors, tree⟩
  | some path =>
    match tree.write path css with
    | .ok tree => ⟨0, written, errors, tree⟩
    | .error fault =>
      ⟨1, written,
        errors ++ "error: cannot write '" ++ path ++ "': " ++ fault.message ++ "\n", tree⟩

def compileFile (tree : Tree) (options : Options) (file : String) (output : Option String) :
    Outcome :=
  let compilation := Standalone.compileLoaded (Standalone.load tree options file)
  let written := lines compilation.output.stdout
  let errors := lines compilation.output.stderr
  match compilation.result with
  | .error error => ⟨1, written, errors ++ errorReport tree options error, tree⟩
  | .ok sheet => emit tree output written errors sheet.text

def checkFile (tree : Tree) (options : Options) (file : String) : Outcome :=
  match (Standalone.compileLoaded (Standalone.load tree options file)).result with
  | .error error => ⟨1, "", errorReport tree options error, tree⟩
  | .ok _ => ⟨0, "", "ok: " ++ file ++ " is a valid block\n", tree⟩

def debugFile (tree : Tree) (options : Options) (file : String) : Outcome :=
  match Standalone.load tree options file with
  | (_, .error error) => ⟨1, "", errorReport tree options error, tree⟩
  | (loader, .ok id) => ⟨0, lines (loader.graph.listing options.outputMode id), "", tree⟩

def noFixtures (path : String) : String :=
  "no " ++ Fixture.suffix ++ " files found in " ++ path ++ "\n"

/-- A text with blanks up to a width. -/
def padded (width : Nat) (text : String) : String :=
  text ++ Report.blanks (width - text.length)

def listCategories (tree : Tree) (path : String) : Outcome :=
  let shown :=
    if tree.isFile path then path ++ " is a single fixture without categories\n"
    else
      match Fixture.discover tree path with
      | [] => noFixtures path
      | categories => lines (categories.map fun (category, files) =>
          padded 24 (Fixture.categoryName category) ++ s!" {files.length} fixture(s)")
  ⟨0, "", shown, tree⟩

/-- The warning about a category that adds nothing. -/
def missedCategory (all : List String) (wanted : String) : String :=
  "warning: no category '" ++ wanted ++ "' (known: " ++
    ", ".intercalate (all.map Fixture.categoryName) ++ ")\n"

def runFixtures (tree : Tree) (options : Options) (path : String) (requested : List String) :
    Outcome :=
  if tree.isFile path then
    let (report, passed) := Fixture.report tree options false [("", [path])]
    ⟨if passed then 0 else 1, "", report, tree⟩
  else
    match Fixture.discover tree path with
    | [] => ⟨1, "", noFixtures path, tree⟩
    | categories =>
      let all := categories.map Prod.fst
      let (chosen, missed) := Fixture.select all requested
      let warnings := String.join (missed.map (missedCategory all))
      if chosen.isEmpty then ⟨1, "", warnings ++ "no matching categories found\n", tree⟩
      else
        let (report, passed) := Fixture.report tree options true
          (categories.filter fun (category, _) => chosen.contains category)
        ⟨if passed then 0 else 1, "", warnings ++ report, tree⟩

def usage : String :=
  "Usage: css-blocks [--no-color] [--config <FILE>] <COMMAND>\n\n" ++
  "Commands:\n" ++
  "  compile <FILE> [--export] [-o <OUTPUT>]  Compile a block file to CSS\n" ++
  "  check <FILE>                             Report the errors of a block file\n" ++
  "  debug <FILE>                             Print the objects of a block\n" ++
  "  test <PATH> [-c <CATEGORY>] [--list-categories]  Run fixture files\n"

/-- Does what was asked for. -/
def perform (tree : Tree) (options : Options) : Task → Outcome
  | .compile file exportNames output =>
    compileFile tree { options with exportNames := options.exportNames || exportNames } file output
  | .check file => checkFile tree options file
  | .debug file => debugFile tree options file
  | .test path categories => runFixtures tree options path categories
  | .listCategories path => listCategories tree path
  | .help => ⟨0, usage, "", tree⟩
  | .version => ⟨0, "css-blocks 0.1.0\n", "", tree⟩

/-- Runs a command line. -/
def run (tree : Tree) (arguments : List String) : Outcome :=
  match Invocation.parse arguments with
  | .error fault =>
    ⟨2, "", "error: " ++ fault.message ++ "\n\nFor more information, try '--help'.\n", tree⟩
  | .ok ⟨_, .help⟩ => perform tree .default .help
  | .ok ⟨_, .version⟩ => perform tree .default .version
  | .ok ⟨config, task⟩ =>
    match loadOptions tree config with
    | .error fault => ⟨2, "", "error: " ++ fault.message ++ "\n", tree⟩
    | .ok options => perform tree options task

end StyleBlock.Command
