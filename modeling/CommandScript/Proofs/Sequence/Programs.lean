import CommandScript.Proofs.Sequence.Reading
import Mathlib.Data.List.Forall2

/-!
# Programs over numbered lists

A program makes lists one after another, each from lists made before, and can be run on sequences
and on ordinary lists. Both runs make the same number of lists, and a sequence reads in every way
as the ordinary list of its number.
-/

namespace CommandScript.Sequence

variable {α L : Type}

/-- The ways to make a list. -/
structure Makers (α L : Type) where
  empty : L
  ofList : List α → L
  push : L → α → L
  append : L → List α → L
  set? : L → Nat → α → Option L
  rest : L → L
  reverse : L → L

/-- How sequences are made. -/
def sequences : Makers α (Sequence α) where
  empty := .empty
  ofList := .ofList
  push := .push
  append := .append
  set? := Sequence.set?
  rest := .rest
  reverse := .reverse

/-- The list with the item of an index replaced, if there is such an item. -/
def setItem? (items : List α) (index : Nat) (item : α) : Option (List α) :=
  if index < items.length then some (items.set index item) else none

/-- How ordinary lists are made. -/
def lists : Makers α (List α) where
  empty := []
  ofList := id
  push items item := items ++ [item]
  append := List.append
  set? := setItem?
  rest := List.tail
  reverse := List.reverse

/-- A step of a program, which names the list it starts from by its number. -/
inductive Operation (α : Type) where
  | empty
  | ofList (items : List α)
  | push (number : Nat) (item : α)
  | append (number : Nat) (items : List α)
  | set (number index : Nat) (item : α)
  | rest (number : Nat)
  | reverse (number : Nat)

/-- The list that a step makes, if the list it starts from exists and has the index it names. -/
def Operation.result? (makers : Makers α L) (made : List L) : Operation α → Option L
  | .empty => some makers.empty
  | .ofList items => some (makers.ofList items)
  | .push number item => made[number]?.map (makers.push · item)
  | .append number items => made[number]?.map (makers.append · items)
  | .set number index item => made[number]?.bind (makers.set? · index item)
  | .rest number => made[number]?.map makers.rest
  | .reverse number => made[number]?.map makers.reverse

/-- The lists made so far and the one that a step makes. -/
def Operation.extend (makers : Makers α L) (made : List L) (operation : Operation α) : List L :=
  made ++ (operation.result? makers made).toList

/-- The lists that a program makes, in the order of their numbers. -/
def run (makers : Makers α L) (program : List (Operation α)) : List L :=
  program.foldl (Operation.extend makers) []

/-- Each list compared with each. -/
def comparisons (same : L → L → Bool) (made : List L) : List (List Bool) :=
  made.map (fun one => made.map (same one))

/-- The sequence reads as the list in every way: as a whole, by size, by index, with an iterator and
with a visitor. Every index that the list has leads to a block with an item at its place. -/
structure ReadsAs (sequence : Sequence α) (items : List α) : Prop where
  toList_eq : sequence.toList = items
  items?_eq : sequence.items? = some items
  size_eq : sequence.size = items.length
  isEmpty_eq : sequence.isEmpty = items.isEmpty
  head?_eq : sequence.head? = items.head?
  get?_eq (index : Nat) : sequence.get? index = items[index]?
  get?_eq_none_iff (index : Nat) : sequence.get? index = none ↔ items.length ≤ index
  set?_eq_none_iff (index : Nat) (item : α) :
    sequence.set? index item = none ↔ items.length ≤ index
  yields : sequence.iterator.Yields items
  visit_eq (stop : α → Bool) :
    sequence.visit stop = (items.takeWhile (fun item => !stop item), items.find? stop)
  range_eq {σ β : Type} (visitor : σ → α → σ × Option β) (state : σ) :
    sequence.range visitor state = visitItems visitor state items
  block_inside (index : Nat) : index < items.length →
    ∃ block, sequence.block? index = some block ∧ slot 0 index < block.length

namespace Packed

variable {sequence : Sequence α} {items : List α}

/-- An item is replaced just where there is one. -/
theorem set?_eq_none_iff (packed : sequence.Packed items) (index : Nat) (item : α) :
    sequence.set? index item = none ↔ items.length ≤ index := by
  constructor
  · intro absent
    by_contra inside
    obtain ⟨replaced, found, -⟩ := packed.set? (Nat.lt_of_not_le inside) item
    exact Option.some_ne_none replaced (found.symm.trans absent)
  · intro outside
    exact set?_eq_none packed outside item

/-- A packed sequence reads as the list of its items. -/
theorem readsAs (packed : sequence.Packed items) : sequence.ReadsAs items where
  toList_eq := packed.toList_eq
  items?_eq := packed.items?_eq
  size_eq := packed.size_eq
  isEmpty_eq := packed.isEmpty_eq
  head?_eq := by
    rw [head?, packed.get?_eq, List.head?_eq_getElem?]
  get?_eq := packed.get?_eq
  get?_eq_none_iff index := by
    rw [packed.get?_eq, List.getElem?_eq_none_iff]
  set?_eq_none_iff := packed.set?_eq_none_iff
  yields := packed.yields
  visit_eq := packed.visit_eq
  range_eq := packed.range_eq
  block_inside _ := packed.slot_lt_length_block

end Packed

section Related

variable {β γ δ ε : Type} {R : β → γ → Prop} {S : δ → ε → Prop}

theorem rel_getElem? {left : List β} {right : List γ} (related : List.Forall₂ R left right)
    (number : Nat) : Option.Rel R left[number]? right[number]? := by
  induction related generalizing number with
  | nil => exact .none
  | cons first rest ih =>
      cases number with
      | zero => exact .some first
      | succ number => exact ih number

theorem rel_bind {left : Option β} {right : Option γ} (related : Option.Rel R left right)
    {f : β → Option δ} {g : γ → Option ε} (keeps : ∀ b c, R b c → Option.Rel S (f b) (g c)) :
    Option.Rel S (left.bind f) (right.bind g) := by
  cases related with
  | none => exact .none
  | some related => exact keeps _ _ related

theorem rel_map {left : Option β} {right : Option γ} (related : Option.Rel R left right)
    {f : β → δ} {g : γ → ε} (keeps : ∀ b c, R b c → S (f b) (g c)) :
    Option.Rel S (left.map f) (right.map g) := by
  cases related with
  | none => exact .none
  | some related => exact .some (keeps _ _ related)

/-- Related lists are mapped to the same list if related items are mapped alike. -/
theorem map_eq_map {left : List β} {right : List γ} (related : List.Forall₂ R left right)
    {f : β → δ} {g : γ → δ} (agree : ∀ b c, R b c → f b = g c) : left.map f = right.map g := by
  induction related with
  | nil => rfl
  | cons first rest ih => rw [List.map_cons, List.map_cons, agree _ _ first, ih]

theorem rel_toList {left : Option β} {right : Option γ} (related : Option.Rel R left right) :
    List.Forall₂ R left.toList right.toList := by
  cases related with
  | none => exact .nil
  | some related => exact .cons related .nil

end Related

/-- An item is replaced in a packed sequence where it is replaced in the list. -/
theorem Packed.rel_set? {sequence : Sequence α} {items : List α} (packed : sequence.Packed items)
    (index : Nat) (item : α) :
    Option.Rel Packed (sequence.set? index item) (setItem? items index item) := by
  rw [setItem?]
  by_cases inside : index < items.length
  · obtain ⟨replaced, found, packed_replaced⟩ := packed.set? inside item
    rw [if_pos inside, found]
    exact .some packed_replaced
  · rw [if_neg inside, set?_eq_none packed (Nat.not_lt.mp inside)]
    exact .none

section Run

variable {made : List (Sequence α)} {plain : List (List α)}

/-- What a step makes of packed sequences is packed. -/
theorem Operation.result?_packed (packed : List.Forall₂ Packed made plain)
    (operation : Operation α) :
    Option.Rel Packed (operation.result? sequences made) (operation.result? lists plain) := by
  have start (number : Nat) := rel_getElem? packed number
  cases operation with
  | empty => exact .some packed_empty
  | ofList items => exact .some (packed_ofList items)
  | push number item => exact rel_map (start number) (fun _ _ packed => packed.push item)
  | append number items => exact rel_map (start number) (fun _ _ packed => packed.append items)
  | set number index item =>
      exact rel_bind (start number) (fun _ _ packed => packed.rel_set? index item)
  | rest number => exact rel_map (start number) (fun _ _ packed => packed.rest)
  | reverse number => exact rel_map (start number) (fun _ _ packed => packed.reverse)

/-- An operation makes packed sequences out of packed ones. -/
theorem Operation.extend_packed (packed : List.Forall₂ Packed made plain)
    (operation : Operation α) :
    List.Forall₂ Packed (operation.extend sequences made) (operation.extend lists plain) :=
  List.rel_append packed (rel_toList (operation.result?_packed packed))

/-- A program makes packed sequences of what it makes of lists. -/
theorem foldl_extend_packed (packed : List.Forall₂ Packed made plain)
    (program : List (Operation α)) :
    List.Forall₂ Packed (program.foldl (Operation.extend sequences) made)
      (program.foldl (Operation.extend lists) plain) := by
  induction program generalizing made plain with
  | nil => exact packed
  | cons operation rest ih => exact ih (operation.extend_packed packed)

/-- Packed sequences compare as their lists do. -/
theorem comparisons_packed (packed : List.Forall₂ Packed made plain) (same : α → α → Bool) :
    comparisons (Sequence.same same) made =
      comparisons (fun one other => one.isEqv other same) plain := by
  apply map_eq_map packed
  intro one items packed_one
  apply map_eq_map packed
  intro other others packed_other
  exact packed_one.same_eq packed_other same

end Run

/-- A program makes lists that read as those it makes of ordinary lists, number by number, and
compare with each other as those do. -/
theorem run_readsAs (program : List (Operation α)) :
    List.Forall₂ ReadsAs (run sequences program) (run lists program) ∧
      ∀ same : α → α → Bool,
        comparisons (Sequence.same same) (run sequences program) =
          comparisons (fun one other => one.isEqv other same) (run lists program) := by
  have packed := foldl_extend_packed (α := α) .nil program
  constructor
  · exact packed.imp (fun _ _ => Packed.readsAs)
  · exact comparisons_packed packed

-- A replacement past the end makes no list, so that the next list gets its number.
example : (run sequences [.ofList [1, 2, 3], .set 0 3 9, .rest 0, .set 1 1 9]).map toList =
    [[1, 2, 3], [2, 3], [2, 9]] := by
  decide

end CommandScript.Sequence
