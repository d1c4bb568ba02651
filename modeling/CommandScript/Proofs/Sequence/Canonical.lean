import CommandScript.Proofs.Sequence.Programs

/-!
# Sequences are determined by their items

However a program makes a list, the sequence is the one that is built from its items from left to
right. So there is one sequence for each row of items, and it is what an iterator's walk over it
builds again.
-/

namespace CommandScript.Sequence

variable {α β : Type}

/-! ## Heights -/

section Heights

variable {one : Sequence α} {other : Sequence β}

/-- The height of a sequence with one more item does not depend on the items. -/
theorem height_push_congr (size : one.size = other.size) (height : one.height = other.height)
    (item : α) (another : β) : (one.push item).height = (other.push another).height := by
  have start : one.tailStart = other.tailStart := by rw [tailStart_eq, tailStart_eq, size]
  simp only [push, flush, size, height, start]
  split
  · split <;> rfl
  · exact height

/-- As many items make trees of the same size as high as each other. -/
theorem height_append_congr {left : List α} {right : List β} (length : left.length = right.length)
    (size : one.size = other.size) (height : one.height = other.height) :
    (one.append left).height = (other.append right).height := by
  induction left generalizing one other right with
  | nil =>
      rw [List.length_eq_zero_iff.mp length.symm]
      exact height
  | cons item rest ih =>
      cases right with
      | nil => cases length
      | cons another others =>
          have sizes : (one.push item).size = (other.push another).size := by
            rw [size_push, size_push, size]
          have lengths : rest.length = others.length := Nat.succ.inj length
          have heights := height_push_congr size height item another
          exact @ih (one.push item) (other.push another) others lengths sizes heights

end Heights

variable {one other sequence : Sequence α} {items : List α}

/-- Packed sequences of one height with the same items are the same. -/
theorem Packed.unique (packed : one.Packed items) (again : other.Packed items)
    (height : one.height = other.height) : one = other := by
  obtain ⟨size, tall, root, tail⟩ := one
  obtain ⟨size', tall', root', tail'⟩ := other
  have sizes := packed.size_eq.trans again.size_eq.symm
  have tails := packed.tail_eq.trans again.tail_eq.symm
  have roots := packed.root_eq
  rw [height, ← again.root_eq] at roots
  simp_all

/-- To replace an item leaves the height as it is. -/
theorem height_of_set? {replaced : Sequence α} {index : Nat} {item : α}
    (found : sequence.set? index item = some replaced) : replaced.height = sequence.height := by
  rw [Sequence.set?] at found
  split at found
  · split at found
    · split at found <;> cases found
      rfl
    · split at found <;> cases found
      rfl
  · cases found

/-! ## The ways to make a list -/

/-- A sequence made of items has these items. -/
theorem walk_ofList (items : List α) : (ofList items).walk = items :=
  (packed_ofList items).walk_eq

/-- More items may be appended before or after the sequence is made. -/
theorem append_ofList (items more : List α) : (ofList items).append more = ofList (items ++ more) :=
  List.foldl_append.symm

/-- An item may be pushed before or after the sequence is made. -/
theorem push_ofList (items : List α) (item : α) :
    (ofList items).push item = ofList (items ++ [item]) :=
  append_ofList items [item]

/-- The rest of a sequence is made of the other items. -/
theorem rest_ofList (items : List α) : (ofList items).rest = ofList items.tail := by
  rw [rest, walk_ofList, List.drop_one]

/-- A reversed sequence is made of the reversed items. -/
theorem reverse_ofList (items : List α) : (ofList items).reverse = ofList items.reverse := by
  rw [reverse, (packed_ofList items).items?_eq]
  rfl

/-- An item may be replaced before or after the sequence is made. -/
theorem set?_ofList (items : List α) (index : Nat) (item : α) :
    (ofList items).set? index item = (setItem? items index item).map ofList := by
  rw [setItem?]
  by_cases inside : index < items.length
  · obtain ⟨replaced, found, packed⟩ := (packed_ofList items).set? inside item
    have height : (ofList items).height = (ofList (items.set index item)).height :=
      height_append_congr List.length_set.symm rfl rfl
    have same := packed.unique (packed_ofList _) ((height_of_set? found).trans height)
    rw [if_pos inside, found, same]
    rfl
  · rw [if_neg inside, set?_eq_none (packed_ofList items) (Nat.not_lt.mp inside)]
    rfl

/-! ## Programs -/

/-- A step makes of sequences built from items what is built from the items that it makes. -/
theorem Operation.result?_map_ofList (plain : List (List α)) (operation : Operation α) :
    operation.result? sequences (plain.map Sequence.ofList) =
      (operation.result? lists plain).map Sequence.ofList := by
  have mapped {make : Sequence α → Sequence α} {makeItems : List α → List α} (number : Nat)
      (agree : ∀ items, make (Sequence.ofList items) = Sequence.ofList (makeItems items)) :
      (plain.map Sequence.ofList)[number]?.map make =
        (plain[number]?.map makeItems).map Sequence.ofList := by
    rw [List.getElem?_map, Option.map_map, Option.map_map]
    exact congrFun (congrArg Option.map (funext agree)) _
  cases operation with
  | empty => rfl
  | ofList items => rfl
  | push number item => exact mapped number fun items => push_ofList items item
  | append number items => exact mapped number fun others => append_ofList others items
  | rest number => exact mapped number rest_ofList
  | reverse number => exact mapped number reverse_ofList
  | set number index item =>
      rw [Operation.result?, Operation.result?, List.getElem?_map]
      cases plain[number]? with
      | none => rfl
      | some items => exact set?_ofList items index item

/-- A program makes the sequences that are built from the ordinary lists that it makes. -/
theorem run_eq_map_ofList (program : List (Operation α)) :
    run sequences program = (run lists program).map ofList := by
  have extend (plain : List (List α)) (operation : Operation α) :
      operation.extend sequences (plain.map ofList) =
        (operation.extend lists plain).map ofList := by
    rw [Operation.extend, Operation.extend, Operation.result?_map_ofList, List.map_append]
    cases operation.result? lists plain <;> rfl
  have all (plain : List (List α)) :
      program.foldl (Operation.extend sequences) (plain.map ofList) =
        (program.foldl (Operation.extend lists) plain).map ofList := by
    induction program generalizing plain with
    | nil => rfl
    | cons operation rest ih =>
        rw [List.foldl_cons, List.foldl_cons, extend]
        exact ih _
  exact all []

/-- Some program makes the sequence. -/
def IsMade (sequence : Sequence α) : Prop :=
  ∃ program, sequence ∈ run sequences program

/-- Every sequence that a program makes can be made of a list at once. -/
theorem isMade_iff : sequence.IsMade ↔ ∃ items, sequence = ofList items := by
  constructor
  · rintro ⟨program, member⟩
    rw [run_eq_map_ofList] at member
    obtain ⟨items, -, rfl⟩ := List.mem_map.mp member
    exact ⟨items, rfl⟩
  · rintro ⟨items, rfl⟩
    exact ⟨[.ofList items], List.mem_singleton_self _⟩

/-- A list can be made by a program. -/
theorem isMade_ofList (items : List α) : (ofList items).IsMade :=
  isMade_iff.mpr ⟨items, rfl⟩

/-- What a walk over the sequence meets builds it again. -/
theorem IsMade.ofList_walk (made : sequence.IsMade) : ofList sequence.walk = sequence := by
  obtain ⟨items, rfl⟩ := isMade_iff.mp made
  rw [walk_ofList]

end CommandScript.Sequence
