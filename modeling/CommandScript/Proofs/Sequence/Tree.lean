import CommandScript.Proofs.Sequence.Pages
import CommandScript.Sequence.Node

/-!
# Trees of blocks

A tree of a given height is determined by the blocks at its leaves: they stand as far left as they
go. Each operation on nodes takes such a tree to such a tree, and does to the list of blocks what
its name says. An index finds its block if the number of the block, which is the index without its
last digit, is that of a block of the tree.
-/

namespace CommandScript.Sequence

variable {α : Type}

theorem width_pos : 0 < width := by
  decide

/-- The number of blocks that a tree of a height has room for. -/
def capacity (height : Nat) : Nat :=
  Nat.pow width height

theorem capacity_pos (height : Nat) : 0 < capacity height :=
  Nat.pow_pos width_pos

/-- One block fits a tree of any height. -/
theorem singleton_fits (height : Nat) (block : List α) : [block].length ≤ capacity height :=
  capacity_pos height

theorem capacity_zero : capacity 0 = 1 :=
  rfl

/-- One more level multiplies the capacity by the width. -/
theorem capacity_succ (height : Nat) : capacity (height + 1) = capacity height * width :=
  rfl

theorem slot_zero (index : Nat) : slot 0 index = index % width := by
  simp [slot]

/-- The child to follow is the page on which the block stands. -/
theorem slot_succ (height index : Nat) :
    slot (height + 1) index = index / width % capacity (height + 1) / capacity height := by
  rw [capacity_succ, Nat.mod_mul_right_div_self, Nat.div_div_eq_div_mul, slot, Nat.pow_eq,
    Nat.pow_succ, Nat.mul_comm width]
  rfl

/-- Below the child, the block has the number that is left over on the page. -/
theorem number_below (height number : Nat) :
    number % capacity (height + 1) % capacity height = number % capacity height := by
  rw [capacity_succ, Nat.mod_mul_right_mod]

section Below

variable {β : Type} {height index : Nat} {entries : List β}

/-- A block that stands in a tree stands on the page of the child to follow. -/
theorem inside_page (inside : index / width % capacity (height + 1) < entries.length) :
    index / width % capacity height <
      (page (capacity height) entries (slot (height + 1) index)).length := by
  rw [slot_succ, ← number_below]
  exact mod_lt_length_page (capacity_pos height) inside

/-- An entry of the subtree in a slot, found among all entries. -/
theorem getElem?_slot_page (height index : Nat) (entries : List β) :
    (page (capacity height) entries (slot (height + 1) index))[index / width % capacity height]? =
      entries[index / width % capacity (height + 1)]? := by
  rw [slot_succ, ← number_below height]
  exact getElem?_page_div (capacity_pos height) entries _

/-- The slot of an entry holds the page with that entry. -/
theorem getElem?_pages_slot (inside : index / width % capacity (height + 1) < entries.length) :
    (pages (capacity height) entries)[slot (height + 1) index]? =
      some (page (capacity height) entries (slot (height + 1) index)) := by
  rw [slot_succ]
  exact getElem?_pages_div (capacity_pos height) inside

/-- A changed entry changes the page in its slot only. -/
theorem pages_modify_slot (height index : Nat) (change : β → β) (entries : List β) :
    pages (capacity height) (entries.modify (index / width % capacity (height + 1)) change) =
      (pages (capacity height) entries).modify (slot (height + 1) index)
        (fun sheet => sheet.modify (index / width % capacity height) change) := by
  rw [pages_modify (capacity_pos height), ← slot_succ, number_below]

end Below

namespace Node

/-- The tree of a height with the given blocks, as far left as they go. -/
def ofBlocks : Nat → List (List α) → Node α
  | 0, blocks => .leaf (blocks.headD [])
  | height + 1, blocks => .branch ((pages (capacity height) blocks).map (ofBlocks height))

/-- The items of all nodes in a row. -/
theorem itemsOfAll_eq (nodes : List (Node α)) : itemsOfAll nodes = nodes.flatMap items := by
  induction nodes with
  | nil => rfl
  | cons node rest ih => rw [itemsOfAll, ih, List.flatMap_cons]

/-- A tree of blocks has the items of the blocks. -/
theorem items_ofBlocks {height : Nat} {blocks : List (List α)}
    (fits : blocks.length ≤ capacity height) : (ofBlocks height blocks).items = blocks.flatten := by
  induction height generalizing blocks with
  | zero =>
      match blocks, fits with
      | [], _ => rfl
      | [block], _ => simp [ofBlocks, items]
  | succ height ih =>
      have below : (pages (capacity height) blocks).map (items ∘ ofBlocks height) =
          (pages (capacity height) blocks).map List.flatten := by
        apply List.map_congr_left
        intro sheet mem
        exact ih (length_of_mem_pages mem)
      rw [ofBlocks, items, itemsOfAll_eq, List.flatMap_def, List.map_map, below,
        ← List.flatten_flatten, flatten_pages (capacity_pos height)]

/-- The block of an index is found under its number. -/
theorem block?_ofBlocks {height index : Nat} {blocks : List (List α)}
    (inside : index / width % capacity height < blocks.length)
    (fits : blocks.length ≤ capacity height) :
    (ofBlocks height blocks).block? index height = blocks[index / width % capacity height]? := by
  induction height generalizing blocks with
  | zero =>
      match blocks, fits with
      | [block], _ => simp [ofBlocks, block?, capacity_zero, Nat.mod_one]
  | succ height ih =>
      rw [ofBlocks, block?, List.getElem?_map, getElem?_pages_slot inside, ← getElem?_slot_page]
      exact ih (inside_page inside) (length_page_le _ _)

/-- An item is replaced in the block of its index, and the other blocks stay. -/
theorem set?_ofBlocks {height index : Nat} (value : α) {blocks : List (List α)}
    (inside : index / width % capacity height < blocks.length)
    (fits : blocks.length ≤ capacity height)
    (full : ∀ block ∈ blocks, block.length = width) :
    (ofBlocks height blocks).set? index value height =
      some (ofBlocks height
        (blocks.modify (index / width % capacity height) (·.set (slot 0 index) value))) := by
  induction height generalizing blocks with
  | zero =>
      match blocks, fits with
      | [block], _ =>
          have within : slot 0 index < block.length := by
            rw [full block (List.mem_singleton_self _), slot_zero]
            exact Nat.mod_lt _ width_pos
          simp [ofBlocks, set?, capacity_zero, Nat.mod_one, within]
  | succ height ih =>
      have below := ih (inside_page inside) (length_page_le _ _)
        (fun block mem => full block (mem_of_mem_page mem))
      rw [ofBlocks, set?, List.getElem?_map, getElem?_pages_slot inside, Option.map_some]
      simp only [below]
      rw [ofBlocks, pages_modify_slot, map_modify (getElem?_pages_slot inside)]

/-- A tower on a leaf is the tree of a single block. -/
theorem tower_leaf (height : Nat) (block : List α) :
    tower height (.leaf block) = ofBlocks height [block] := by
  induction height with
  | zero => rfl
  | succ height ih =>
      rw [tower, ih, ofBlocks, pages_of_fits (capacity_pos height) (List.cons_ne_nil _ _)
        (singleton_fits height block)]
      rfl

/-- A leaf behind the last one is the tree of one more block. -/
theorem insertLeaf_ofBlocks {height last : Nat} {blocks : List (List α)} (block : List α)
    (next : last / width % capacity height = blocks.length) :
    insertLeaf last (.leaf block) height (ofBlocks height blocks) =
      ofBlocks height (blocks ++ [block]) := by
  induction height generalizing blocks with
  | zero =>
      rw [capacity_zero, Nat.mod_one] at next
      rw [List.eq_nil_of_length_eq_zero next.symm]
      rfl
  | succ height ih =>
      have positive := capacity_pos height
      have last_page : slot (height + 1) last = blocks.length / capacity height := by
        rw [slot_succ, next]
      rw [ofBlocks, insertLeaf, ofBlocks, last_page]
      simp only [children]
      -- If all pages are full there is no child to follow, and the leaf gets a tower of its own.
      by_cases whole : blocks.length % capacity height = 0
      · have count : ((pages (capacity height) blocks).map (ofBlocks height)).length =
            blocks.length / capacity height := by
          rw [List.length_map, length_pages_of_full positive whole]
        have absent : ((pages (capacity height) blocks).map (ofBlocks height))[blocks.length /
            capacity height]? = none :=
          List.getElem?_eq_none (Nat.le_of_eq count)
        rw [absent, place, count, if_neg (Nat.lt_irrefl _),
          pages_append_sheet positive whole (List.cons_ne_nil _ _) (singleton_fits height block),
          List.map_append, tower_leaf]
        rfl
      · have cut := Nat.div_add_mod' blocks.length (capacity height)
        have short := Nat.mod_lt blocks.length positive
        have found : (pages (capacity height) blocks)[blocks.length / capacity height]? =
            some (page (capacity height) blocks (blocks.length / capacity height)) := by
          rw [getElem?_pages positive, if_pos (by omega)]
        have below : last / width % capacity height =
            (page (capacity height) blocks (blocks.length / capacity height)).length := by
          rw [← number_below, next, length_page]
          omega
        have present : blocks.length / capacity height <
            ((pages (capacity height) blocks).map (ofBlocks height)).length := by
          rw [List.length_map]
          exact (List.getElem?_eq_some_iff.mp found).1
        rw [List.getElem?_map, found, place, if_pos present, pages_concat_of_room positive whole,
          map_modify found]
        simp only [Option.map_some, ih below]

/-- A full tree and a tower beside it are the tree of one more block. -/
theorem branch_tower {height : Nat} {blocks : List (List α)} (block : List α)
    (full : blocks.length = capacity height) :
    .branch [ofBlocks height blocks, tower height (.leaf block)] =
      ofBlocks (height + 1) (blocks ++ [block]) := by
  have positive := capacity_pos height
  have inhabited : blocks ≠ [] := List.ne_nil_of_length_pos (by rw [full]; exact positive)
  rw [tower_leaf, ofBlocks, pages_append_sheet positive (by rw [full, Nat.mod_self])
    (List.cons_ne_nil _ _) (singleton_fits height block),
    pages_of_fits positive inhabited (Nat.le_of_eq full)]
  rfl

end Node

end CommandScript.Sequence
