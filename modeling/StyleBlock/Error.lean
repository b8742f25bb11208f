import StyleBlock.Fault

/-!
Errors: a fault, the way it is classed, and the place it is blamed on. A failed load is handed to
everyone who asks for the block, so errors are plain values.
-/

namespace StyleBlock

open Text (Location)

inductive Error where
  /-- A block was to be compiled without the path of its file. -/
  | missingPath
  /-- The text of a block breaks the grammar or the rules of blocks. -/
  | invalid (fault : Fault) (location : Option Location)
  /-- Blocks are put together in a way they do not allow. -/
  | misuse (fault : Fault) (location : Option Location)
  /-- A file could not be read. -/
  | unreadable (fault : Fault)
deriving DecidableEq

namespace Error

def location? : Error → Option Location
  | missingPath => none
  | invalid _ location => location
  | misuse _ location => location
  | unreadable _ => none

/-- The wording without the location. -/
def message : Error → String
  | missingPath =>
    "the source file path is required to compile a block; pass the file the source was read from"
  | invalid fault _ => fault.message
  | misuse fault _ => fault.message
  | unreadable fault => fault.message

/-- A location in parentheses, after a space. -/
def showLocation : Option Location → String
  | none => ""
  | some location => " (" ++ location.shown ++ ")"

/-- The whole text of an error. -/
def text : Error → String
  | missingPath => missingPath.message
  | invalid fault location => "Invalid block syntax: " ++ fault.message ++ showLocation location
  | misuse fault location => fault.message ++ showLocation location
  | unreadable fault => "I/O error: " ++ fault.message

/-- An error about the text of a block, blamed on a place. -/
def invalidAt (fault : Fault) (location : Location) : Error := invalid fault (some location)

/-- A misuse blamed on a place. -/
def misuseAt (fault : Fault) (location : Location) : Error := misuse fault (some location)

end Error

/-- A marked stretch of a file, in byte offsets. -/
structure Label where
  file : Nat
  start : Nat
  stop : Nat
deriving DecidableEq, Repr

/-- What a report of an error shows: its message, and the byte it points at. -/
structure Diagnostic where
  message : String
  labels : List Label
deriving DecidableEq, Repr

/-- The diagnostic of an error in the file with the given number. -/
def Error.diagnostic (error : Error) (file : Nat) : Diagnostic :=
  ⟨error.message,
    match error.location? with
    | none => []
    | some location => [⟨file, location.offset, location.offset + 1⟩]⟩

end StyleBlock
