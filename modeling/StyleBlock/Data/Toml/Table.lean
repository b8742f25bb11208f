import StyleBlock.Data.Json

/-!
Tables of TOML while a document is read. A table may be opened once by a header, and keys with dots
may go on with tables that such keys made, but not with those that a header opened.
-/

namespace StyleBlock.Data.Toml

/-- How a table came to be. -/
inductive TableOrigin where
  /-- By a header of its own. -/
  | header
  /-- In front of the last name of a header. -/
  | implied
  /-- In front of the last name of a key. -/
  | dotted
deriving DecidableEq

inductive Node where
  | value (json : Json)
  | table (origin : TableOrigin) (entries : List (String × Node))
  /-- The tables of a list of them, the last one first. -/
  | tables (last : List (String × Node)) (before : List (List (String × Node)))

/-- The entries of a table, in order. -/
abbrev Entries : Type := List (String × Node)

def find? (entries : Entries) (name : String) : Option Node :=
  (entries.find? fun (other, _) => other == name).map Prod.snd

/-- Sets an entry, at its place if it has one. -/
def setEntry (entries : Entries) (name : String) (node : Node) : Entries :=
  if (find? entries name).isSome then
    entries.map fun (other, old) => (other, if other = name then node else old)
  else entries ++ [(name, node)]

/-- Changes the table at the end of a path of headers. -/
def within (change : Entries → Option Entries) : List String → Entries → Option Entries
  | [], entries => change entries
  | name :: rest, entries =>
    match find? entries name with
    | none => (within change rest []).map fun inner => setEntry entries name (.table .implied inner)
    | some (.table origin inner) =>
      (within change rest inner).map fun inner => setEntry entries name (.table origin inner)
    | some (.tables last before) =>
      (within change rest last).map fun last => setEntry entries name (.tables last before)
    | some (.value _) => none

/-- Opens a table by its header. -/
def openTable (path : List String) (entries : Entries) : Option Entries :=
  match path.getLast? with
  | none => none
  | some name =>
    within (fun entries =>
      match find? entries name with
      | none => some (setEntry entries name (.table .header []))
      | some (.table .implied inner) => some (setEntry entries name (.table .header inner))
      | _ => none) path.dropLast entries

/-- Adds a table to a list of tables by its header. -/
def addTable (path : List String) (entries : Entries) : Option Entries :=
  match path.getLast? with
  | none => none
  | some name =>
    within (fun entries =>
      match find? entries name with
      | none => some (setEntry entries name (.tables [] []))
      | some (.tables last before) => some (setEntry entries name (.tables [] (last :: before)))
      | _ => none) path.dropLast entries

/-- Sets the value of a key in a table. The names in front of the last one are tables that no header
opened, and the value goes into one that only keys with dots made. -/
def setKey (value : Json) : List String → Entries → Option Entries
  | [], _ => none
  | [name], entries =>
    if (find? entries name).isSome then none else some (setEntry entries name (.value value))
  | name :: rest, entries =>
    match find? entries name with
    | none => (setKey value rest []).map fun inner => setEntry entries name (.table .dotted inner)
    | some (.table .dotted inner) =>
      (setKey value rest inner).map fun inner => setEntry entries name (.table .dotted inner)
    | some (.table .implied inner) =>
      if rest.length = 1 then none
      else (setKey value rest inner).map fun inner => setEntry entries name (.table .implied inner)
    | some (.tables last before) =>
      if rest.length = 1 then none
      else (setKey value rest last).map fun last => setEntry entries name (.tables last before)
    | _ => none

mutual

def Node.json : Node → Json
  | .value json => json
  | .table _ entries => .object (jsonFields entries)
  | .tables last before =>
    .array ((jsonTables before).reverse ++ [.object (jsonFields last)])

def jsonFields : List (String × Node) → List (String × Json)
  | [] => []
  | (name, node) :: rest => (name, node.json) :: jsonFields rest

def jsonTables : List (List (String × Node)) → List Json
  | [] => []
  | entries :: rest => .object (jsonFields entries) :: jsonTables rest

end

end StyleBlock.Data.Toml
