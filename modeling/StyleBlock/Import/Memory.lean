import StyleBlock.Import.Importer
import StyleBlock.Text.Ordered

/-!
Files that are kept in memory, under names with slashes.
-/

namespace StyleBlock

structure MemoryFiles where
  /-- The contents of each file, by its name. -/
  contents : List (FileId × String)
  /-- How many polls the import of a file takes; none, if it is not mentioned. -/
  delays : List (FileId × Nat)

namespace MemoryFiles

/-- One more part of a path: a parent leads back, nothing and a dot lead nowhere. -/
def addPart (parts : List String) (part : String) : List String :=
  if part = "" || part = "." then parts
  else if part = ".." then parts.dropLast
  else parts ++ [part]

/-- The parts of a name up to its last slash. -/
def directoryParts (id : FileId) : List String :=
  (Text.split '/' id).dropLast

/-- The name that a path leads to from the directory of a file. -/
def resolve (base : Option FileId) (path : String) : FileId :=
  let directory := if path.startsWith "/" then [] else (base.map directoryParts).getD []
  "/".intercalate ((directory ++ Text.split '/' path).foldl addPart [])

/-- The last part of a name without its extension, and without `.block` before that. -/
def defaultName (id : FileId) : String :=
  let stem := (Files.Path.cutExtension ((Text.split '/' id).getLast?.getD "")).1
  if stem.endsWith ".block" then (stem.dropEnd 6).toString else stem

def contents? (files : MemoryFiles) (id : FileId) : Option String :=
  (files.contents.find? fun (other, _) => other == id).map Prod.snd

def read (files : MemoryFiles) (id : FileId) : Except Error ImportedFile :=
  match files.contents? id with
  | none => .error (.unreadable (.load (.noSuchFile id)))
  | some contents => .ok ⟨id, contents, .ofPath id, defaultName id⟩

/-- The files with one of them written anew. -/
def write (files : MemoryFiles) (id : FileId) (contents : String) : MemoryFiles :=
  { files with contents := Text.setOrdered id contents files.contents }

def importer (files : MemoryFiles) : Importer where
  identifier := resolve
  read := files.read
  delay id := ((files.delays.find? fun (other, _) => other == id).map Prod.snd).getD 0
  filesystemPath? _ := none
  debugIdentifier id := id
  defaultName := defaultName
  files := files.contents.map Prod.fst

end MemoryFiles

end StyleBlock
