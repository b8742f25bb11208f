import StyleBlock.Graph.Object

/-!
What a graph tells about a block as a whole: the list of its objects with their generated names,
and whether it has every object of the blocks it implements.
-/

namespace StyleBlock

/-- How far an object is indented in a listing. -/
def ObjectKey.depth : ObjectKey → Nat
  | .root => 0
  | .ofClass _ => 1
  | .ofState none _ => 1
  | .ofState (some _) _ => 2

namespace Graph

/-- The line of an object in a listing. -/
def listingLine (mode : OutputMode) (object : BlockObject) : String :=
  String.ofList (indentOf object.key.depth) ++ object.source ++ " => ." ++ object.cssClass mode
where
  indentOf (depth : Nat) : List Char := List.replicate (2 * depth) ' '

/-- The file of a block and the tree of its objects, each with its generated name. -/
def listing (graph : Graph) (mode : OutputMode) (id : BlockId) : List String :=
  match graph.root? id with
  | none => []
  | some root => ("Source: " ++ root.block.debugIdentifier) :: root.own.map (listingLine mode)

/-- The sources of all objects that a block defines or inherits. -/
def sourcesOf (graph : Graph) (id : BlockId) : List String :=
  match graph.root? id with
  | none => []
  | some root => (graph.allOf root).map BlockObject.source

/-- Fails with the first implemented block that has objects the block lacks. -/
def checkImplementations (graph : Graph) (id : BlockId) : Except Error Unit :=
  match graph.block? id with
  | none => .ok ()
  | some block =>
    let provided := graph.sourcesOf id
    block.implemented.forM fun interface =>
      match graph.block? interface with
      | none => .ok ()
      | some implemented =>
        let missing := (graph.sourcesOf interface).filter fun source => !provided.contains source
        if missing.isEmpty then .ok ()
        else .error (.misuse (.header (.missingObjects missing implemented.debugIdentifier)) none)

end Graph

end StyleBlock
