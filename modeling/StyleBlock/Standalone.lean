import StyleBlock.Compile.Basic
import StyleBlock.Import.Disk
import StyleBlock.Load.Request

/-!
Loading and compiling one block among the files of a tree.
-/

namespace StyleBlock.Standalone

open Files (Tree)

/-- Rounds of polls that are enough without preprocessors: in every round some load advances, a
file takes three polls, and a load that fails takes part in the rounds of others. -/
def rounds (tree : Tree) : Nat := 4 * (tree.files.length + 2)

/-- Answers one request with a loader of its own. -/
def run (tree : Tree) (options : Options) (request : Request) :
    Loader × Except Error BlockId :=
  let loader := Loader.ofImporter options (tree.importer options.rootDir)
  match loader.run [request] (rounds tree) with
  | (loader, some [outcome]) => (loader, outcome)
  | (loader, _) => (loader, .error Run.refusal)

/-- Loads the block in a file. -/
def load (tree : Tree) (options : Options) (path : String) : Loader × Except Error BlockId :=
  run tree options (.path ((Files.Path.absolute? tree.workPath path).getD path))

/-- Loads the block that a text makes under a path and a name. -/
def loadText (tree : Tree) (options : Options) (text path name : String) :
    Loader × Except Error BlockId :=
  run tree options (.source text path name)

/-- Compiles what was loaded. -/
def compileLoaded (loaded : Loader × Except Error BlockId) : Compilation :=
  match loaded with
  | (_, .error error) => ⟨.empty, .error error⟩
  | (loader, .ok id) => compile loader.graph loader.options id

/-- Compiles a text as the contents of a file, which need not exist; the directory of the file is
the root directory. -/
def compileText (tree : Tree) (options : Options) (text : String) (path : Option String) :
    Compilation :=
  match path with
  | none => ⟨.empty, .error .missingPath⟩
  | some path =>
    let absolute := (Files.Path.absolute? tree.workPath path).getD path
    let rootDir := (Files.Path.parent? absolute).getD options.rootDir
    let id := tree.identifierFrom rootDir none absolute
    compileLoaded (loadText tree { options with rootDir } text id (Files.Path.blockName id))

end StyleBlock.Standalone
