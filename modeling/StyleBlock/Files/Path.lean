import StyleBlock.Text.Blank

/-!
Paths with slashes. A path is a text; its components are the root, if it starts there, and the
names between slashes. Empty names count for nothing, and neither does a dot, except at the start
of a path that is not absolute.
-/

namespace StyleBlock.Files.Path

/-- The component in front of every absolute path. -/
def root : String := "/"

def isAbsolute (path : String) : Bool := path.startsWith "/"

/-- The components of a path. -/
def components (path : String) : List String :=
  let names := (Text.split '/' path).filter fun name => name ≠ ""
  let kept := names.filter fun name => name ≠ "."
  if isAbsolute path then root :: kept
  else if names.head? = some "." then "." :: kept
  else kept

/-- The path with the given components. -/
def ofComponents : List String → String
  | [] => ""
  | first :: rest =>
    if first = root then "/" ++ "/".intercalate rest else "/".intercalate (first :: rest)

/-- The last name, if the path ends in one. -/
def fileName? (path : String) : Option String :=
  (components path).getLast?.filter fun name => name ≠ root ∧ name ≠ "." ∧ name ≠ ".."

/-- A name cut at its last dot; a dot in front of the name does not count. -/
def cutExtension (name : String) : String × Option String :=
  match (Text.split '.' name).reverse with
  | extension :: rest@(_ :: _) =>
    let stem := ".".intercalate rest.reverse
    if stem = "" then (name, none) else (stem, some extension)
  | _ => (name, none)

/-- What follows the last dot of the last name. -/
def extension? (path : String) : Option String :=
  (fileName? path).bind fun name => (cutExtension name).2

/-- The last name up to its last dot. -/
def stem (path : String) : String :=
  ((fileName? path).map fun name => (cutExtension name).1).getD ""

/-- The path without its last component. -/
def parent? (path : String) : Option String :=
  match (components path).reverse with
  | [] => none
  | last :: rest => if last = root then none else some (ofComponents rest.reverse)

/-- A path read from a base: an absolute path stays what it is. -/
def join (base path : String) : String :=
  if isAbsolute path || base = "" then path
  else if base.endsWith "/" then base ++ path
  else base ++ "/" ++ path

/-- The path from the root to a path that is read from the working directory. Parents are not
followed, and a slash at the end stays. Two slashes at the start stay as well; no other number of
them means more than one. -/
def absolute? (workDir path : String) : Option String :=
  if path = "" then none
  else
    let names := (components path).filter fun name => name ≠ root ∧ name ≠ "."
    let base :=
      if isAbsolute path then
        if path.startsWith "//" && !path.startsWith "///" then "//" else "/"
      else workDir
    let found := if names = [] then base else join base ("/".intercalate names)
    some (if path.endsWith "/" && !found.endsWith "/" then found ++ "/" else found)

/-- What a path adds to a base that it starts with. -/
def relativeTo? (base path : String) : Option String :=
  (Text.afterLead? (components base) (components path)).map ofComponents

/-- The name that a file gives to its block: `nav` for `nav.block.css` and `nav.css`. -/
def blockName (path : String) : String :=
  let stem := stem path
  if stem.endsWith ".block" then (stem.dropEnd 6).toString else stem

end StyleBlock.Files.Path
