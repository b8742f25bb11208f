import StyleBlock.Files.Tree
import StyleBlock.Import.Importer

/-!
Files in a tree of directories. A file is identified by its path from the root.
-/

namespace StyleBlock.Files.Tree

/-- The path of a file as seen from a directory, or the whole path if it is not below it. -/
def shownFrom (tree : Tree) (rootDir path : String) : String :=
  (Path.relativeTo? (tree.resolve rootDir) path).getD path

def readFile (tree : Tree) (id : FileId) : Except Error ImportedFile :=
  match tree.read id with
  | .ok contents => .ok ⟨id, contents, .ofPath id, Path.blockName id⟩
  | .error fault => .error (.unreadable (.load (.unreadable id fault.message)))

/-- The file that a path leads to from the directory of another file, or from the root directory
of the options. -/
def identifierFrom (tree : Tree) (rootDir : String) (base : Option FileId) (path : String) :
    FileId :=
  tree.resolve (Path.join ((base.bind Path.parent?).getD rootDir) path)

/-- The files of a tree as an importer. Reading a file takes two polls; that it cannot be read
shows after one. -/
def importer (tree : Tree) (rootDir : String) : Importer where
  identifier := tree.identifierFrom rootDir
  read := tree.readFile
  delay id := if (tree.readFile id).toBool then 2 else 1
  filesystemPath? id := some id
  debugIdentifier := tree.shownFrom rootDir
  defaultName := Path.blockName
  files := tree.files.map fun (place, _) => pathOf place

end StyleBlock.Files.Tree
