import CommandScript.Sequence.Node

/-!
# Persistent sequences

The list values of programs. The last items, up to one block of them, stand apart from the tree in a
tail, so that most additions touch the tail only; a full tail becomes a leaf when the next item
comes. No operation changes a sequence that exists. What a sequence holds is its view `toList`.
-/

namespace CommandScript

/-- A persistent sequence: its size, the height of its tree, the tree and the tail. -/
structure Sequence (α : Type) where
  size : Nat
  height : Nat
  root : Sequence.Node α
  tail : List α

namespace Sequence

variable {α : Type}

/-- The items in order. -/
def toList (sequence : Sequence α) : List α :=
  sequence.root.items ++ sequence.tail

/-- The sequence without items. -/
def empty : Sequence α :=
  ⟨0, 1, .branch [], []⟩

/-- The sequence has no items. -/
def isEmpty (sequence : Sequence α) : Bool :=
  sequence.size == 0

/-- The index of the first item of the tail. -/
def tailStart (sequence : Sequence α) : Nat :=
  if sequence.size < width then 0 else (sequence.size - 1) / width * width

/-- The sequence with its full tail moved into the tree, under a new root if the old one is full. -/
def flush (sequence : Sequence α) : Sequence α :=
  let leaf := .leaf sequence.tail
  if sequence.size / width > Nat.pow width sequence.height then
    { sequence with
      height := sequence.height + 1
      root := .branch [sequence.root, .tower sequence.height leaf]
      tail := [] }
  else
    { sequence with
      root := .insertLeaf (sequence.size - 1) leaf sequence.height sequence.root
      tail := [] }

/-- The sequence with one more item at its end. -/
def push (sequence : Sequence α) (value : α) : Sequence α :=
  let roomy := if sequence.size - sequence.tailStart = width then sequence.flush else sequence
  { roomy with size := roomy.size + 1, tail := roomy.tail ++ [value] }

/-- The sequence with more items at its end. -/
def append (sequence : Sequence α) (values : List α) : Sequence α :=
  values.foldl push sequence

/-- The sequence of the items of a list. -/
def ofList (values : List α) : Sequence α :=
  empty.append values

/-- The block that holds the item of an index. -/
def block? (sequence : Sequence α) (index : Nat) : Option (List α) :=
  if sequence.tailStart ≤ index then some sequence.tail
  else sequence.root.block? index sequence.height

/-- The item of an index. -/
def get? (sequence : Sequence α) (index : Nat) : Option α :=
  if index < sequence.size then
    match sequence.block? index with
    | some block => block[slot 0 index]?
    | none => none
  else none

/-- The first item. -/
def head? (sequence : Sequence α) : Option α :=
  sequence.get? 0

/-- The last item. -/
def last? (sequence : Sequence α) : Option α :=
  sequence.get? (sequence.size - 1)

/-- The sequence with the item of an index replaced, if there is such an item. -/
def set? (sequence : Sequence α) (index : Nat) (value : α) : Option (Sequence α) :=
  if index < sequence.size then
    if sequence.tailStart ≤ index then
      if slot 0 index < sequence.tail.length then
        some { sequence with tail := sequence.tail.set (slot 0 index) value }
      else none
    else
      match sequence.root.set? index value sequence.height with
      | some root => some { sequence with root := root }
      | none => none
  else none

/-- The items from an index on, read block by block, if every block is where it should be. -/
def itemsFrom? (sequence : Sequence α) : Nat → Nat → Option (List α)
  | 0, index => if index < sequence.size then none else some []
  | blocks + 1, index =>
    if index < sequence.size then
      match sequence.block? index with
      | some block =>
        let taken := block.take (sequence.size - index)
        match sequence.itemsFrom? blocks (index + taken.length) with
        | some rest => some (taken ++ rest)
        | none => none
      | none => none
    else some []

/-- The items, read block by block. -/
def items? (sequence : Sequence α) : Option (List α) :=
  sequence.itemsFrom? (sequence.size / width + 1) 0

/-- The sequence in opposite order, built from the items read block by block. -/
def reverse (sequence : Sequence α) : Sequence α :=
  ofList (sequence.items?.getD []).reverse

end Sequence

end CommandScript
