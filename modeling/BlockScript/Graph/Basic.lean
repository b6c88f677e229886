import BlockScript.Document

/-!
# Block graphs

Blocks are stored side by side and refer to each other, so that one block can
be plugged in at several places and links can form cycles. A document gives a
graph without sharing; links made afterwards can change that. A reference to no
stored block counts as nothing plugged in.
-/

namespace BlockScript

/-- A reference to a stored block. -/
abbrev Ref := Nat

/-- Blocks that refer to each other. -/
structure Graph where
  blocks : Array (Block Ref) := #[]

namespace Graph

/-- The number of stored blocks. -/
def size (graph : Graph) : Nat :=
  graph.blocks.size

/-- The block that a reference leads to. -/
def block? (graph : Graph) (ref : Ref) : Option (Block Ref) :=
  graph.blocks[ref]?

/-- Stores one more block. -/
def push (graph : Graph) (block : Block Ref) : Ref × Graph :=
  (graph.size, ⟨graph.blocks.push block⟩)

mutual

/-- Stores a nested block with everything plugged into it. -/
def addTree : Tree → Graph → Ref × Graph
  | .node ⟨type, id, fields, values, statements, next, comment, enabled, extraState⟩, graph =>
    let (values, graph) := addSockets values graph
    let (statements, graph) := addSockets statements graph
    let (next, graph) := addPlug next graph
    graph.push ⟨type, id, fields, values, statements, next, comment, enabled, extraState⟩

/-- Stores what is plugged into the sockets of a block. -/
def addSockets : List (String × Option Tree) → Graph → List (String × Option Ref) × Graph
  | [], graph => ([], graph)
  | (socket, plug) :: rest, graph =>
    let (ref, graph) := addPlug plug graph
    let (refs, graph) := addSockets rest graph
    ((socket, ref) :: refs, graph)

/-- Stores what is plugged in at one place. -/
def addPlug : Option Tree → Graph → Option Ref × Graph
  | none, graph => (none, graph)
  | some tree, graph =>
    let (ref, graph) := addTree tree graph
    (some ref, graph)

end

/-- Stores several nested blocks. -/
def addTrees : List Tree → Graph → List Ref × Graph
  | [], graph => ([], graph)
  | tree :: trees, graph =>
    let (ref, graph) := addTree tree graph
    let (refs, graph) := addTrees trees graph
    (ref :: refs, graph)

/-! ## Nesting -/

/-- How many blocks are nested in each of some blocks, itself counted, where every block
    comes after what is plugged into it. -/
def levelsOf (levels : List Nat) : List (Block Ref) → List Nat
  | [] => levels
  | block :: blocks =>
    let inside := block.links.map fun ref => levels.getD ref 0
    levelsOf (levels ++ [inside.foldr max 0 + 1]) blocks

/-- Whether no more than so many blocks are nested in the graph of a document. -/
def nestsWithin (graph : Graph) (limit : Nat) : Bool :=
  (levelsOf [] graph.blocks.toList).all fun level => level ≤ limit

/-! ## Links -/

/-- The kinds of places where a block can be plugged in. -/
inductive LinkKind where
  | value
  | statement
  | next
  deriving DecidableEq, Repr

/-- Plugs `target` into a place of a block, or unplugs what is there. A socket
    that the block does not have yet comes last. -/
def plug (kind : LinkKind) (socket : String) (target : Option Ref) (block : Block Ref) :
    Block Ref :=
  match kind with
  | .value => { block with values := Json.insert block.values socket target }
  | .statement => { block with statements := Json.insert block.statements socket target }
  | .next => { block with next := target }

/-- Plugs `target` into a place of a stored block. -/
def link (graph : Graph) (source : Ref) (kind : LinkKind) (socket : String)
    (target : Option Ref) : Graph :=
  ⟨graph.blocks.modify source (plug kind socket target)⟩

end Graph

end BlockScript
