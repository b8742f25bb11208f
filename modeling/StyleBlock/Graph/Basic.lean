import StyleBlock.Block.Basic

/-!
The graph of blocks. A slot is reserved when the load of a file starts and filled when the block
is complete; blocks point at each other by slot, so they may refer to blocks that are still being
read.
-/

namespace StyleBlock

structure Graph where
  slots : Array (Option Block)

namespace Graph

def empty : Graph := ⟨#[]⟩

/-- The complete block in a slot. -/
def block? (graph : Graph) (id : BlockId) : Option Block :=
  (graph.slots[id.slot]?).join

def isComplete (graph : Graph) (id : BlockId) : Bool :=
  (graph.block? id).isSome

/-- The graph with one more slot, and that slot. -/
def reserve (graph : Graph) : Graph × BlockId :=
  (⟨graph.slots.push none⟩, ⟨graph.slots.size⟩)

/-- Fills a slot. -/
def insert (graph : Graph) (id : BlockId) (block : Block) : Graph :=
  ⟨graph.slots.setIfInBounds id.slot (some block)⟩

/-- Empties a slot again. -/
def remove (graph : Graph) (id : BlockId) : Graph :=
  ⟨graph.slots.setIfInBounds id.slot none⟩

/-- The complete blocks in the order of their slots. -/
def blocks (graph : Graph) : List (BlockId × Block) :=
  graph.slots.toList.zipIdx.filterMap fun (slot, index) =>
    slot.map fun block => (⟨index⟩, block)

/-- The complete block with an identifier. -/
def find? (graph : Graph) (identifier : FileId) : Option (BlockId × Block) :=
  graph.blocks.find? fun (_, block) => block.identifier == identifier

end Graph

end StyleBlock
