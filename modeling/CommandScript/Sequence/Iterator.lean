import CommandScript.Sequence.Basic

/-!
# Walking over a sequence

An iterator stands before an item and keeps the block that this item is in; it looks up a block only
where one begins. It answers nothing at the end, and also if a block is not where it should be,
which the number of items left tells apart.
-/

namespace CommandScript.Sequence

variable {α : Type}

/-- A place in a sequence and the block it lies in. -/
structure Iterator (α : Type) where
  sequence : Sequence α
  index : Nat
  block : List α

/-- The iterator in front of the first item. -/
def iterator (sequence : Sequence α) : Iterator α :=
  ⟨sequence, 0, []⟩

namespace Iterator

/-- The number of items still to come. -/
def remaining (iterator : Iterator α) : Nat :=
  iterator.sequence.size - iterator.index

/-- The block of the next item. -/
def nextBlock? (iterator : Iterator α) : Option (List α) :=
  if slot 0 iterator.index = 0 || iterator.block.isEmpty then
    iterator.sequence.block? iterator.index
  else some iterator.block

/-- The next item and the iterator behind it. -/
def next? (iterator : Iterator α) : Option (α × Iterator α) :=
  if iterator.index < iterator.sequence.size then
    match iterator.nextBlock? with
    | some block =>
      match block[slot 0 iterator.index]? with
      | some item => some (item, ⟨iterator.sequence, iterator.index + 1, block⟩)
      | none => none
    | none => none
  else none

/-- Up to `count` further items. -/
def take : Nat → Iterator α → List α
  | 0, _ => []
  | count + 1, iterator =>
    match iterator.next? with
    | some (item, behind) => item :: take count behind
    | none => []

/-- Shows up to `count` further items to a visitor, until it stops with a value. -/
def visit {σ β : Type} (visitor : σ → α → σ × Option β) : Nat → σ → Iterator α → σ × Option β
  | 0, state, _ => (state, none)
  | count + 1, state, iterator =>
    match iterator.next? with
    | some (item, behind) =>
      match visitor state item with
      | (state, some found) => (state, some found)
      | (state, none) => visit visitor count state behind
    | none => (state, none)

end Iterator

/-- The items in the order in which an iterator meets them. -/
def walk (sequence : Sequence α) : List α :=
  sequence.iterator.take sequence.size

/-- Everything but the first item. -/
def rest (sequence : Sequence α) : Sequence α :=
  ofList (sequence.walk.drop 1)

/-- The visitor's state after the items up to the first at which it stops, and what it stops
with. -/
def range {σ β : Type} (sequence : Sequence α) (visitor : σ → α → σ × Option β) (state : σ) :
    σ × Option β :=
  sequence.iterator.visit visitor sequence.size state

/-- The items met before the first that satisfies a condition, and that item. -/
def visit {α : Type} (sequence : Sequence α) (stop : α → Bool) : List α × Option α :=
  let visitor (seen : List α) (item : α) :=
    if stop item then (seen, some item) else (item :: seen, none)
  let (seen, found) := sequence.range visitor []
  (seen.reverse, found)

/-- Two sequences have the same size, and an iterator meets the same items in both. -/
def same (same : α → α → Bool) (a b : Sequence α) : Bool :=
  a.size == b.size && (a.walk.zip b.walk).all fun pair => same pair.1 pair.2

end CommandScript.Sequence
