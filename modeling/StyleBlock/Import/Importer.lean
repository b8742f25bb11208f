import StyleBlock.Block.Basic
import StyleBlock.Import.Dialect

/-!
Where the files of blocks come from.
-/

namespace StyleBlock

structure ImportedFile where
  identifier : FileId
  contents : String
  dialect : Dialect
  /-- The name of the block, unless the file declares one. -/
  defaultName : String
deriving DecidableEq, Repr

/-- The answers of one source of files at one moment. -/
structure Importer where
  /-- The file that a path leads to, as written in a file or at the top level. -/
  identifier : Option FileId → String → FileId
  read : FileId → Except Error ImportedFile
  /-- How many polls it takes before the file is there. -/
  delay : FileId → Nat
  filesystemPath? : FileId → Option String
  /-- A short identifier for messages. -/
  debugIdentifier : FileId → String
  defaultName : FileId → String
  /-- Every file that can be read is among these. -/
  files : List FileId

/-- The path that preprocessors and messages know a file by. -/
def Importer.fullPath (importer : Importer) (id : FileId) : String :=
  (importer.filesystemPath? id).getD (importer.debugIdentifier id)

end StyleBlock
