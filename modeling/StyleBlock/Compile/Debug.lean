import StyleBlock.Graph.Listing
import StyleBlock.Sheet.Basic

/-!
Statements that ask for the listing of a block: in a comment at their place, or on one of the
output channels.
-/

namespace StyleBlock

open Text (Location)

inductive DebugChannel where
  | comment
  | stderr
  | stdout
deriving DecidableEq, Repr

def DebugChannel.ofName? : String → Option DebugChannel
  | "comment" => some .comment
  | "stderr" => some .stderr
  | "stdout" => some .stdout
  | _ => none

/-- The lines written to the output channels. -/
structure DebugOutput where
  stdout : List String
  stderr : List String
deriving DecidableEq, Repr

namespace DebugOutput

def empty : DebugOutput := ⟨[], []⟩

end DebugOutput

/-- A request for the listing of a block. -/
structure DebugRequest where
  target : BlockId
  channel : DebugChannel
deriving DecidableEq, Repr

/-- Reads the words of a statement: the name of the block itself or of a reference, the word `to`
and a channel. -/
def DebugRequest.parse (id : BlockId) (block : Block) (params : String) (location : Location) :
    Except Error DebugRequest :=
  match Text.words params with
  | [name, "to", channel] =>
    match DebugChannel.ofName? channel with
    | none => .error (.invalidAt (.compile (.unknownChannel channel)) location)
    | some channel =>
      if name = block.name then .ok ⟨id, channel⟩
      else
        match block.reference? name with
        | some target => .ok ⟨target, channel⟩
        | none => .error (.invalidAt (.compile (.unknownDebugBlock name)) location)
  | _ => .error (.invalidAt (.compile (.malformedDebug params)) location)

/-- The parameters of a debug statement. -/
def Node.debug? : Node → Option AtHead
  | .statement head | .group head _ => if head.name = "block-debug" then some head else none
  | _ => none

/-- Answers the debug statements among top-level nodes. What was written before a fault stays
written. -/
def runDebug (graph : Graph) (mode : OutputMode) (id : BlockId) (block : Block)
    (output : DebugOutput) : List Node → DebugOutput × Except Error (List Node)
  | [] => (output, .ok [])
  | node :: rest =>
    match node.debug? with
    | none =>
      let (output, nodes) := runDebug graph mode id block output rest
      (output, nodes.map (node :: ·))
    | some head =>
      match DebugRequest.parse id block head.params (block.sheet.location head.place) with
      | .error error => (output, .error error)
      | .ok request =>
        let lines := graph.listing mode request.target
        match request.channel with
        | .comment =>
          let (output, nodes) := runDebug graph mode id block output rest
          (output, nodes.map (.comment (" " ++ "\n".intercalate lines ++ "\n") :: ·))
        | .stderr =>
          runDebug graph mode id block { output with stderr := output.stderr ++ lines } rest
        | .stdout =>
          runDebug graph mode id block { output with stdout := output.stdout ++ lines } rest

end StyleBlock
