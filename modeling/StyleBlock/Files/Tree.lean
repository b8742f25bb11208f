import StyleBlock.Files.Path

/-!
A tree of files and directories, and what it answers to paths. A directory is there because a file
or the working directory is below it.
-/

namespace StyleBlock.Files

/-- Why a file cannot be read or written. -/
inductive FileFault where
  | absent
  | notDirectory
  | isDirectory
  | nameTooLong
  | notText
  | nulInPath
deriving DecidableEq, Repr

def FileFault.message : FileFault → String
  | absent => "No such file or directory (os error 2)"
  | notDirectory => "Not a directory (os error 20)"
  | isDirectory => "Is a directory (os error 21)"
  | nameTooLong => "File name too long (os error 36)"
  | notText => "stream did not contain valid UTF-8"
  | nulInPath => "file name contained an unexpected NUL byte"

inductive Entry where
  /-- A file, with its text if its bytes are one. -/
  | file (text : Option String)
  | directory
deriving DecidableEq, Repr

structure Tree where
  /-- The names on the way from the root to the working directory. -/
  workDir : List String
  /-- Every file by the names on the way to it. -/
  files : List (List String × Option String)
deriving Repr

namespace Tree

/-- The path to a place. -/
def pathOf (place : List String) : String :=
  Path.ofComponents (Path.root :: place)

/-- The path of the working directory. -/
def workPath (tree : Tree) : String := pathOf tree.workDir

def file? (tree : Tree) (place : List String) : Option (Option String) :=
  (tree.files.find? fun (other, _) => other == place).map Prod.snd

/-- What is at a place. -/
def entry? (tree : Tree) (place : List String) : Option Entry :=
  match tree.file? place with
  | some text => some (.file text)
  | none =>
    if place.isPrefixOf tree.workDir || tree.files.any fun (other, _) => place.isPrefixOf other
    then some .directory
    else none

/-- How many bytes the name of a file may have. -/
def nameLimit : Nat := 255

/-- How many bytes a path may have. -/
def pathLimit : Nat := 4095

/-- Follows names from a place. Every name needs a directory in front of it, also an empty one,
such as a slash at the end of a path leaves. -/
def follow (tree : Tree) (place : List String) : List String → Except FileFault (List String)
  | [] => .ok place
  | name :: rest =>
    match tree.entry? place with
    | none => .error .absent
    | some (.file _) => .error .notDirectory
    | some .directory =>
      if name = "" || name = "." then tree.follow place rest
      else if name = ".." then tree.follow place.dropLast rest
      else if nameLimit < name.utf8ByteSize then .error .nameTooLong
      else if (tree.entry? (place ++ [name])).isNone then .error .absent
      else tree.follow (place ++ [name]) rest

/-- Where the names of a path start. -/
def base (tree : Tree) (path : String) : List String :=
  if Path.isAbsolute path then [] else tree.workDir

/-- The place that a path of any length leads to. -/
def trace (tree : Tree) (path : String) : Except FileFault (List String) :=
  if path.contains '\x00' then .error .nulInPath
  else if path = "" then .error .absent
  else tree.follow (tree.base path) (Text.split '/' path)

/-- The place that a path leads to. -/
def locate (tree : Tree) (path : String) : Except FileFault (List String) :=
  if pathLimit < path.utf8ByteSize && !path.contains '\x00' then .error .nameTooLong
  else tree.trace path

/-- What a path leads to. -/
def at? (tree : Tree) (path : String) : Option Entry :=
  match tree.locate path with
  | .ok place => tree.entry? place
  | .error _ => none

def isFile (tree : Tree) (path : String) : Bool :=
  match tree.at? path with
  | some (.file _) => true
  | _ => false

def read (tree : Tree) (path : String) : Except FileFault String := do
  match tree.entry? (← tree.locate path) with
  | some (.file (some text)) => .ok text
  | some (.file none) => .error .notText
  | some .directory => .error .isDirectory
  | none => .error .absent

/-- The tree with a file written anew at a place. -/
def put (tree : Tree) (place : List String) (text : String) : Tree :=
  { tree with
    files := tree.files.filter (fun (other, _) => other ≠ place) ++ [(place, some text)] }

/-- Writes a file, whose directory must be there. -/
def write (tree : Tree) (path : String) (text : String) : Except FileFault Tree :=
  match tree.locate path with
  | .ok place =>
    if tree.entry? place = some .directory then .error .isDirectory else .ok (tree.put place text)
  | .error .absent =>
    let names := Text.split '/' path
    match names.getLast?, tree.follow (tree.base path) (names.dropLast ++ ["."]) with
    | some name, .ok directory =>
      if path = "" then .error .absent else .ok (tree.put (directory ++ [name]) text)
    | some "", .error .absent =>
      match tree.follow (tree.base path) (names.dropLast.dropLast ++ ["."]) with
      | .ok _ => .error .isDirectory
      | .error fault => .error fault
    | _, .error fault => .error fault
    | none, _ => .error .absent
  | .error fault => .error fault

/-- The path from the root to what a path leads to, without parents on the way. It is found name by
name, so that the path may be of any length. -/
def canonical? (tree : Tree) (path : String) : Option String :=
  match tree.trace path with
  | .ok place => some (pathOf place)
  | .error _ => none

/-- The path from the root, also if nothing is there. -/
def resolve (tree : Tree) (path : String) : String :=
  let absolute := (Path.absolute? tree.workPath path).getD path
  (tree.canonical? absolute).getD absolute

/-- The names on the way from a directory to each file below it. -/
def filesBelow (tree : Tree) (path : String) : List (List String) :=
  match tree.locate path with
  | .error _ => []
  | .ok place =>
    tree.files.filterMap fun (other, _) =>
      (Text.afterLead? place other).filter fun names => names ≠ []

end Tree

end StyleBlock.Files
