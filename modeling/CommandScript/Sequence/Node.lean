/-!
# Nodes of a radix tree

A persistent sequence keeps its items in blocks of `width` items, and its blocks at the leaves of a
tree whose branches have up to `width` children. An index is read as a numeral in base `width`: its
last digit is a place in a block, and the digits before it say which child to follow at each height.
A node of height zero is a leaf.

Reading and replacing an item answer nothing if a digit of the index names no child or no item. In
the tree of a well-formed sequence this does not happen.
-/

namespace CommandScript.Sequence

/-- The number of items in a block, and the greatest number of children of a branch. -/
def width : Nat := 32

/-- The digit of an index that is followed at a height. -/
def slot (height index : Nat) : Nat :=
  index / Nat.pow width height % width

/-- A block of items, or a branch. -/
inductive Node (α : Type) where
  | leaf (items : List α)
  | branch (children : List (Node α))

namespace Node

variable {α : Type}

mutual

/-- The items below a node, from left to right. -/
def items : Node α → List α
  | .leaf items => items
  | .branch children => itemsOfAll children

/-- The items below each of a row of nodes, from left to right. -/
def itemsOfAll : List (Node α) → List α
  | [] => []
  | node :: rest => node.items ++ itemsOfAll rest

end

/-- The nodes directly below a node. -/
def children : Node α → List (Node α)
  | .leaf _ => []
  | .branch children => children

/-- The node below branches with one child each, as many as the height says. -/
def tower : Nat → Node α → Node α
  | 0, node => node
  | height + 1, node => .branch [tower height node]

/-- The row with the node at a place replaced, or with the node behind it if the place is at the
end. -/
def place (nodes : List (Node α)) (position : Nat) (node : Node α) : List (Node α) :=
  if position < nodes.length then nodes.set position node else nodes ++ [node]

/-- The tree of the given height with one more leaf behind its last one, where `last` is the index
of the last item of the leaf. -/
def insertLeaf (last : Nat) (leaf : Node α) : Nat → Node α → Node α
  | 0, _ => leaf
  | height + 1, parent =>
    let position := slot (height + 1) last
    let child :=
      match parent.children[position]? with
      | some child => insertLeaf last leaf height child
      | none => tower height leaf
    .branch (place parent.children position child)

/-- The block with the item of an index, in a tree of the given height. -/
def block? (index : Nat) : Nat → Node α → Option (List α)
  | _, .leaf items => some items
  | 0, .branch _ => none
  | height + 1, .branch children =>
    match children[slot (height + 1) index]? with
    | some child => block? index height child
    | none => none

/-- The tree of the given height with the item of an index replaced. -/
def set? (index : Nat) (value : α) : Nat → Node α → Option (Node α)
  | _, .leaf items =>
    if slot 0 index < items.length then some (.leaf (items.set (slot 0 index) value)) else none
  | 0, .branch _ => none
  | height + 1, .branch children =>
    match children[slot (height + 1) index]? with
    | some child =>
      match set? index value height child with
      | some replaced => some (.branch (children.set (slot (height + 1) index) replaced))
      | none => none
    | none => none

end Node

end CommandScript.Sequence
