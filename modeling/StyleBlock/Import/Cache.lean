import StyleBlock.Import.Importer

/-!
What an importer answered before. A remembered answer is given again until it is purged; imports
that fail are not remembered.
-/

namespace StyleBlock

/-- A question to an importer. -/
inductive Inquiry where
  | identifier (base : Option FileId) (path : String)
  | read (id : FileId)
deriving DecidableEq, Repr

structure ImportCache where
  identifiers : List ((Option FileId × String) × FileId)
  imports : List (FileId × ImportedFile)
  /-- Every question that went to an importer, in order. -/
  asked : List Inquiry
deriving Repr

namespace ImportCache

def empty : ImportCache := ⟨[], [], []⟩

/-- The remembered answer for a path. -/
def identifier? (cache : ImportCache) (base : Option FileId) (path : String) : Option FileId :=
  (cache.identifiers.find? fun (key, _) => key == (base, path)).map Prod.snd

/-- The file that a path leads to. -/
def identifier (cache : ImportCache) (importer : Importer) (base : Option FileId)
    (path : String) : ImportCache × FileId :=
  match cache.identifier? base path with
  | some id => (cache, id)
  | none =>
    let id := importer.identifier base path
    ({ cache with
        identifiers := cache.identifiers ++ [((base, path), id)]
        asked := cache.asked ++ [.identifier base path] },
      id)

/-- The remembered import of a file. -/
def imported? (cache : ImportCache) (id : FileId) : Option ImportedFile :=
  (cache.imports.find? fun (other, _) => other == id).map Prod.snd

/-- Notes that the import of a file has begun. -/
def noteRead (cache : ImportCache) (id : FileId) : ImportCache :=
  { cache with asked := cache.asked ++ [.read id] }

/-- Remembers the import of a file in place of an earlier one. -/
def remember (cache : ImportCache) (id : FileId) (file : ImportedFile) : ImportCache :=
  { cache with imports := cache.imports.filter (fun (other, _) => other ≠ id) ++ [(id, file)] }

/-- Remembers the outcome of an import, if it is a file. -/
def settle (cache : ImportCache) (id : FileId) (outcome : Except Error ImportedFile) :
    ImportCache :=
  match outcome with
  | .ok file => cache.remember id file
  | .error _ => cache

/-- Imports a file to the end. -/
def read (cache : ImportCache) (importer : Importer) (id : FileId) :
    ImportCache × Except Error ImportedFile :=
  match cache.imported? id with
  | some file => (cache, .ok file)
  | none =>
    let outcome := importer.read id
    ((cache.noteRead id).settle id outcome, outcome)

/-- Forgets a file and every path that leads to it. -/
def purge (cache : ImportCache) (id : FileId) : ImportCache :=
  { cache with
    identifiers := cache.identifiers.filter fun (_, resolved) => resolved ≠ id
    imports := cache.imports.filter fun (other, _) => other ≠ id }

def purgeAll (cache : ImportCache) : ImportCache :=
  { cache with identifiers := [], imports := [] }

/-- How often the importer was asked for an identifier. -/
def identifierCalls (cache : ImportCache) : Nat :=
  cache.asked.countP fun inquiry =>
    match inquiry with
    | .identifier _ _ => true
    | .read _ => false

/-- The files whose imports have begun, once for each time. -/
def reads (cache : ImportCache) : List FileId :=
  cache.asked.filterMap fun inquiry =>
    match inquiry with
    | .identifier _ _ => none
    | .read id => some id

end ImportCache

end StyleBlock
