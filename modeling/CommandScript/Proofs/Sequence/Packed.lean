import CommandScript.Proofs.Sequence.Tree
import CommandScript.Sequence.Basic

/-!
# Packed sequences

A sequence holds a list of items if its tree has the blocks that are full and its tail the items
behind them, of which there are some unless the list is empty. The tree then has the least height
that suffices. Every operation that makes a sequence makes one that holds the list it should, and
finds every block where it looks for it.
-/

namespace CommandScript.Sequence

variable {α : Type} {sequence : Sequence α} {items : List α}

/-- How many of the items of a sequence stand in its tree. -/
def stored (size : Nat) : Nat :=
  (size - 1) / width * width

/-- The tail begins where the stored items end. -/
theorem tailStart_eq (sequence : Sequence α) : sequence.tailStart = stored sequence.size := by
  unfold tailStart stored
  split
  · rw [Nat.div_eq_of_lt (by omega), Nat.zero_mul]
  · rfl

theorem size_push (sequence : Sequence α) (item : α) :
    (sequence.push item).size = sequence.size + 1 := by
  rw [push]
  split
  · rw [flush]
    split <;> rfl
  · rfl

theorem stored_le (size : Nat) : stored size ≤ size :=
  Nat.le_trans (Nat.div_mul_le_self _ _) (Nat.sub_le _ _)

/-- The stored items fill their blocks. -/
theorem stored_mod_width (size : Nat) : stored size % width = 0 :=
  Nat.mul_mod_left _ _

/-- The tail fits a block. -/
theorem sub_stored_le (size : Nat) : size - stored size ≤ width := by
  simp only [stored, width]
  omega

theorem stored_div_width (size : Nat) : stored size / width = (size - 1) / width :=
  Nat.mul_div_cancel _ width_pos

/-- With room in the tail nothing more is stored. -/
theorem stored_succ_of_room {size : Nat} (room : size - stored size ≠ width) :
    stored (size + 1) = stored size := by
  simp only [stored, width] at room ⊢
  omega

/-- When the tail is full all items are stored. -/
theorem stored_succ_of_full {size : Nat} (full : size - stored size = width) :
    stored (size + 1) = size := by
  simp only [stored, width] at full ⊢
  omega

theorem eq_of_full {size : Nat} (full : size - stored size = width) :
    size = (stored size / width + 1) * width := by
  have := stored_le size
  rw [Nat.add_one_mul, Nat.div_mul_cancel (Nat.dvd_of_mod_eq_zero (stored_mod_width size))]
  omega

/-- The sequence holds the items, the full blocks in a tree of the least height that suffices. -/
structure Packed (sequence : Sequence α) (items : List α) : Prop where
  size_eq : sequence.size = items.length
  root_eq : sequence.root =
    .ofBlocks sequence.height (pages width (items.take (stored items.length)))
  tail_eq : sequence.tail = items.drop (stored items.length)
  height_pos : 1 ≤ sequence.height
  fits : stored items.length ≤ capacity sequence.height * width
  least : sequence.height = 1 ∨ capacity sequence.height < items.length

theorem length_take_stored (items : List α) :
    (items.take (stored items.length)).length = stored items.length := by
  rw [List.length_take, Nat.min_eq_left (stored_le _)]

/-- The stored items fill whole blocks. -/
theorem take_stored_mod_width (items : List α) :
    (items.take (stored items.length)).length % width = 0 := by
  rw [length_take_stored, stored_mod_width]

/-- The stored items make as many blocks as are counted. -/
theorem length_blocks (items : List α) :
    (pages width (items.take (stored items.length))).length = stored items.length / width := by
  rw [length_pages_of_full width_pos (take_stored_mod_width items), length_take_stored]

/-- A full tail is the last of the blocks. -/
theorem pages_of_full (full : items.length - stored items.length = width) :
    pages width items =
      pages width (items.take (stored items.length)) ++ [items.drop (stored items.length)] := by
  have tail_length : (items.drop (stored items.length)).length = width := by
    rw [List.length_drop, full]
  have inhabited : items.drop (stored items.length) ≠ [] :=
    List.ne_nil_of_length_pos (by rw [tail_length]; exact width_pos)
  rw [← pages_append_sheet width_pos (take_stored_mod_width items) inhabited
    (Nat.le_of_eq tail_length), List.take_append_drop]

namespace Packed

theorem lt_size (packed : sequence.Packed items) {index : Nat} :
    index < sequence.size ↔ index < items.length := by
  rw [packed.size_eq]

/-- The tail begins behind the stored items of the list. -/
theorem tailStart_eq (packed : sequence.Packed items) :
    sequence.tailStart = stored items.length := by
  rw [Sequence.tailStart_eq, packed.size_eq]

/-- The tree is high enough for its blocks. -/
theorem blocks_fit (packed : sequence.Packed items) :
    (pages width (items.take (stored items.length))).length ≤ capacity sequence.height := by
  rw [length_blocks]
  exact Nat.div_le_of_le_mul (Nat.mul_comm _ _ ▸ packed.fits)

/-- The view of a packed sequence is the list that it holds. -/
theorem toList_eq (packed : sequence.Packed items) : sequence.toList = items := by
  rw [toList, packed.root_eq, Node.items_ofBlocks packed.blocks_fit, flatten_pages width_pos,
    packed.tail_eq, List.take_append_drop]

end Packed

/-- The empty sequence packs no items. -/
theorem packed_empty : (empty : Sequence α).Packed [] where
  size_eq := rfl
  root_eq := by
    rw [List.take_nil, pages_nil width_pos, empty, Node.ofBlocks, pages_nil (capacity_pos 0)]
    rfl
  tail_eq := List.drop_nil.symm
  height_pos := Nat.le_refl 1
  fits := by simp [stored]
  least := .inl rfl

namespace Packed

/-- A full tail becomes the last block of the tree, whose root grows if there is no room in it. -/
theorem flush (packed : sequence.Packed items) (full : items.length - stored items.length = width) :
    ∃ height, sequence.flush = ⟨sequence.size, height, .ofBlocks height (pages width items), []⟩ ∧
      1 ≤ height ∧ items.length ≤ capacity height * width ∧
      (height = 1 ∨ capacity height < items.length) := by
  have blocks_eq := pages_of_full full
  rw [← packed.tail_eq] at blocks_eq
  have count := length_blocks items
  have bound := packed.blocks_fit
  have length_eq := eq_of_full full
  have size_div : sequence.size / width = stored items.length / width + 1 := by
    rw [packed.size_eq, length_eq, Nat.mul_div_cancel _ width_pos, ← length_eq]
  rw [count] at bound
  -- The size counts the full tail, so it exceeds the bound as soon as the tree has no room left.
  by_cases outgrown : stored items.length / width = capacity sequence.height
  · refine ⟨sequence.height + 1, ?_, Nat.le_add_left _ _, ?_, .inr ?_⟩
    · rw [Sequence.flush, if_pos (by rw [size_div, outgrown]; exact Nat.lt_succ_self _), blocks_eq,
        ← Node.branch_tower _ (count.trans outgrown), ← packed.root_eq]
    · rw [length_eq, outgrown, capacity_succ]
      apply Nat.mul_le_mul_right
      have := capacity_pos sequence.height
      simp only [width]
      omega
    · rw [length_eq, outgrown, capacity_succ, Nat.add_one_mul]
      exact Nat.lt_add_of_pos_right width_pos
  · have room : stored items.length / width < capacity sequence.height :=
      Nat.lt_of_le_of_ne bound outgrown
    refine ⟨sequence.height, ?_, packed.height_pos, ?_, packed.least⟩
    · rw [Sequence.flush, if_neg (by rw [size_div]; exact Nat.not_lt.mpr room), blocks_eq,
        packed.root_eq, Node.insertLeaf_ofBlocks]
      rw [packed.size_eq, ← stored_div_width, Nat.mod_eq_of_lt room, count]
    · rw [length_eq]
      exact Nat.mul_le_mul_right _ room

/-- One more item. -/
theorem push (packed : sequence.Packed items) (value : α) :
    (sequence.push value).Packed (items ++ [value]) := by
  have more : (items ++ [value]).length = items.length + 1 := List.length_append
  by_cases full : items.length - stored items.length = width
  · obtain ⟨height, flushed, height_pos, fits, least⟩ := packed.flush full
    have pushed : sequence.push value =
        ⟨sequence.size + 1, height, .ofBlocks height (pages width items), [value]⟩ := by
      rw [Sequence.push, packed.tailStart_eq, packed.size_eq, if_pos full, flushed, packed.size_eq]
      rfl
    have start : stored (items ++ [value]).length = items.length := by
      rw [more, stored_succ_of_full full]
    rw [pushed]
    constructor
    · rw [packed.size_eq, more]
    · rw [start, List.take_left]
    · rw [start, List.drop_left]
    · exact height_pos
    · rw [start]
      exact fits
    · exact least.imp_right (fun small => by rw [more]; exact Nat.lt_succ_of_lt small)
  · have pushed : sequence.push value =
        ⟨sequence.size + 1, sequence.height, sequence.root, sequence.tail ++ [value]⟩ := by
      rw [Sequence.push, packed.tailStart_eq, packed.size_eq, if_neg full, packed.size_eq]
    have start : stored (items ++ [value]).length = stored items.length := by
      rw [more, stored_succ_of_room full]
    rw [pushed]
    constructor
    · rw [packed.size_eq, more]
    · rw [start, List.take_append_of_le_length (stored_le _)]
      exact packed.root_eq
    · rw [start, List.drop_append_of_le_length (stored_le _), packed.tail_eq]
    · exact packed.height_pos
    · rw [start]
      exact packed.fits
    · exact packed.least.imp_right (fun small => by rw [more]; exact Nat.lt_succ_of_lt small)

/-- More items. -/
theorem append (packed : sequence.Packed items) (values : List α) :
    (sequence.append values).Packed (items ++ values) := by
  induction values generalizing sequence items with
  | nil => exact (List.append_nil items).symm ▸ packed
  | cons value rest ih =>
      rw [← List.singleton_append, ← List.append_assoc]
      exact ih (packed.push value)

end Packed

/-- A sequence made of items packs these items. -/
theorem packed_ofList (values : List α) : (ofList values).Packed values :=
  packed_empty.append values

/-- The block of an item in the tail is the tail. -/
theorem stored_of_tail {size index : Nat} (behind : stored size ≤ index) (inside : index < size) :
    index / width * width = stored size := by
  have least := Nat.div_le_div_right (c := width) (Nat.le_sub_one_of_lt inside)
  have most := Nat.div_le_div_right (c := width) behind
  rw [stored, Nat.mul_div_cancel _ width_pos] at most
  rw [stored, Nat.le_antisymm least most]

/-- The block of a stored item is stored as a whole. -/
theorem page_in_tree {size index : Nat} (before : index < stored size) :
    index / width * width + width ≤ stored size :=
  end_le_start width ((Nat.div_lt_iff_lt_mul width_pos).mpr before)

namespace Packed

/-- The number of a stored block is not cut off. -/
theorem number_mod_capacity (packed : sequence.Packed items) {index : Nat}
    (before : index < stored items.length) :
    index / width % capacity sequence.height = index / width :=
  Nat.mod_eq_of_lt
    ((Nat.div_lt_iff_lt_mul width_pos).mpr (Nat.lt_of_lt_of_le before packed.fits))

/-- A stored item lies in a block of the tree. -/
theorem number_lt_blocks (packed : sequence.Packed items) {index : Nat}
    (before : index < stored items.length) :
    index / width % capacity sequence.height <
      (pages width (items.take (stored items.length))).length := by
  rw [packed.number_mod_capacity before, length_blocks]
  rw [Nat.lt_iff_add_one_le, Nat.le_div_iff_mul_le width_pos, Nat.add_one_mul]
  exact page_in_tree before

/-- The block that is found for an index is the one that holds its item. -/
theorem block?_eq (packed : sequence.Packed items) {index : Nat} (inside : index < items.length) :
    sequence.block? index = some (page width items (index / width)) := by
  rw [block?, packed.tailStart_eq]
  by_cases behind : stored items.length ≤ index
  · rw [if_pos behind, packed.tail_eq, page, stored_of_tail behind inside, List.take_of_length_le]
    rw [List.length_drop]
    exact sub_stored_le _
  · have before : index < stored items.length := Nat.lt_of_not_le behind
    have found := getElem?_pages_div width_pos ((length_take_stored items).symm ▸ before)
    rw [if_neg behind, packed.root_eq,
      Node.block?_ofBlocks (packed.number_lt_blocks before) packed.blocks_fit,
      packed.number_mod_capacity before, found, page_take (page_in_tree before)]

/-- Other items in the place of those of the tree and the tail. -/
theorem refill (packed : sequence.Packed items) {others : List α}
    (same_length : others.length = items.length) {root : Node α} {tail : List α}
    (root_eq : root = .ofBlocks sequence.height (pages width (others.take (stored items.length))))
    (tail_eq : tail = others.drop (stored items.length)) :
    Packed { sequence with root := root, tail := tail } others where
  size_eq := packed.size_eq.trans same_length.symm
  root_eq := by
    rw [same_length]
    exact root_eq
  tail_eq := by
    rw [same_length]
    exact tail_eq
  height_pos := packed.height_pos
  fits := by
    rw [same_length]
    exact packed.fits
  least := by
    rw [same_length]
    exact packed.least

/-- An item is replaced where it stands. -/
theorem set? (packed : sequence.Packed items) {index : Nat} (inside : index < items.length)
    (value : α) :
    ∃ replaced, sequence.set? index value = some replaced ∧
      replaced.Packed (items.set index value) := by
  have same_length : (items.set index value).length = items.length := List.length_set
  by_cases behind : stored items.length ≤ index
  · have start := stored_of_tail behind inside
    have cut := Nat.div_add_mod' index width
    have place : index - stored items.length = slot 0 index := by
      rw [slot_zero]
      omega
    have within : slot 0 index < sequence.tail.length := by
      rw [packed.tail_eq, List.length_drop, ← place]
      omega
    refine ⟨_, by rw [Sequence.set?, if_pos (packed.lt_size.mpr inside), packed.tailStart_eq,
      if_pos behind, if_pos within], packed.refill same_length ?_ ?_⟩
    · rw [List.take_set_of_le behind]
      exact packed.root_eq
    · rw [List.drop_set, if_neg (Nat.not_lt.mpr behind), place, packed.tail_eq]
  · have before : index < stored items.length := Nat.lt_of_not_le behind
    have blocks_eq : pages width ((items.set index value).take (stored items.length)) =
        (pages width (items.take (stored items.length))).modify (index / width)
          (·.set (slot 0 index) value) := by
      rw [List.take_set, ← modify_const, pages_modify width_pos, slot_zero]
      simp only [modify_const]
    have replaced := Node.set?_ofBlocks value (packed.number_lt_blocks before) packed.blocks_fit
      (fun block => length_of_mem_pages_of_full width_pos (take_stored_mod_width items))
    rw [packed.number_mod_capacity before, ← packed.root_eq, ← blocks_eq] at replaced
    refine ⟨_, by rw [Sequence.set?, if_pos (packed.lt_size.mpr inside), packed.tailStart_eq,
      if_neg behind, replaced], packed.refill same_length rfl ?_⟩
    rw [List.drop_set, if_pos before]
    exact packed.tail_eq

end Packed

/-- No item is replaced outside of the sequence. -/
theorem set?_eq_none (packed : sequence.Packed items) {index : Nat} (outside : items.length ≤ index)
    (value : α) : sequence.set? index value = none := by
  rw [set?, if_neg (mt packed.lt_size.mp (Nat.not_lt.mpr outside))]

end CommandScript.Sequence
