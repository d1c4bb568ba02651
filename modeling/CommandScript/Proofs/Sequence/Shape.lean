import CommandScript.Proofs.Sequence.Canonical
import Mathlib.Algebra.Group.Nat.Defs

/-!
# The shape of a sequence

Whatever a program does to its lists, the tree of every sequence that it makes is packed to the
left: all leaves are full and lie equally deep, and only the nodes at the right edge may have fewer
children than there is room for. The tree is no taller than it must be. So the shape of a sequence,
which is what remains of it when the items are forgotten, is known from its size.
-/

namespace CommandScript.Sequence

variable {α β : Type}

/-! ## Pages -/

section Pages

variable {γ δ : Type} {capacity : Nat}

theorem page_map (f : γ → δ) (entries : List γ) (number : Nat) :
    page capacity (entries.map f) number = (page capacity entries number).map f := by
  rw [page, page, List.map_take, List.map_drop]

/-- The pages of mapped entries are the mapped pages. -/
theorem pages_map (f : γ → δ) (entries : List γ) :
    pages capacity (entries.map f) = (pages capacity entries).map (List.map f) := by
  rw [pages, pages, List.map_map, List.length_map]
  exact List.map_congr_left fun number _ => page_map f entries number

/-- A page in front of another one is full. -/
theorem length_of_mem_dropLast_pages (positive : 0 < capacity) {entries sheet : List γ}
    (mem : sheet ∈ (pages capacity entries).dropLast) : sheet.length = capacity := by
  obtain ⟨number, found⟩ := List.mem_iff_getElem?.mp mem
  rw [List.getElem?_dropLast] at found
  split at found
  case isTrue before =>
    have next : number + 1 < (pages capacity entries).length := by omega
    have reached : (number + 1) * capacity < entries.length := by
      by_contra beyond
      have absent := getElem?_pages positive entries (number + 1)
      rw [if_neg beyond, List.getElem?_eq_none_iff] at absent
      omega
    rw [Nat.add_one_mul] at reached
    rw [getElem?_pages positive, if_pos (by omega)] at found
    obtain rfl := Option.some.inj found
    rw [length_page]
    omega
  case isFalse => exact absurd found (by simp)

/-- No page is empty. -/
theorem ne_nil_of_mem_pages (positive : 0 < capacity) {entries sheet : List γ}
    (mem : sheet ∈ pages capacity entries) : sheet ≠ [] := by
  obtain ⟨number, found⟩ := List.mem_iff_getElem?.mp mem
  rw [getElem?_pages positive] at found
  split at found
  case isTrue inside =>
    obtain rfl := Option.some.inj found
    apply List.ne_nil_of_length_pos
    rw [length_page]
    omega
  case isFalse => exact absurd found (by simp)

/-- Entries that fit a number of pages make no more pages. -/
theorem length_pages_le {entries : List γ} {count : Nat} (positive : 0 < capacity)
    (fits : entries.length ≤ capacity * count) : (pages capacity entries).length ≤ count := by
  rw [pages, List.length_map, List.length_range, ← Nat.lt_add_one_iff,
    Nat.div_lt_iff_lt_mul positive, Nat.add_one_mul, Nat.mul_comm count]
  omega

end Pages

/-! ## Packed trees -/

namespace Node

/-- Every branch has all the children that there is room for, and every leaf all its items. The
leaves lie below as many branches as the height says. -/
def Complete : Nat → Node α → Prop
  | 0, .leaf items => items.length = width
  | 0, .branch _ => False
  | _ + 1, .leaf _ => False
  | height + 1, .branch children =>
    children.length = width ∧ ∀ child ∈ children, child.Complete height

/-- Every leaf is full and lies below as many branches as the height says. A branch has children in
front of its last one only if they are complete, and no child without items. -/
def LeftPacked : Nat → Node α → Prop
  | 0, .leaf items => items.length = width
  | 0, .branch _ => False
  | _ + 1, .leaf _ => False
  | height + 1, .branch children =>
    children.length ≤ width ∧ (∀ child ∈ children.dropLast, child.Complete height) ∧
      ∀ child ∈ children.getLast?, child.items ≠ [] ∧ child.LeftPacked height

/-- As many full blocks as a tree has room for make a complete tree. -/
theorem complete_ofBlocks {height : Nat} {blocks : List (List α)}
    (count : blocks.length = capacity height) (full : ∀ block ∈ blocks, block.length = width) :
    (ofBlocks height blocks).Complete height := by
  induction height generalizing blocks with
  | zero =>
      match blocks, count with
      | [block], _ => exact full block (List.mem_singleton_self _)
  | succ height ih =>
      have positive := capacity_pos height
      have whole : blocks.length % capacity height = 0 := by
        rw [count, capacity_succ, Nat.mul_mod_right]
      refine ⟨?_, fun child mem => ?_⟩
      · rw [List.length_map, length_pages_of_full positive whole, count, capacity_succ,
          Nat.mul_div_cancel_left _ positive]
      · obtain ⟨sheet, memSheet, rfl⟩ := List.mem_map.mp mem
        refine ih (length_of_mem_pages_of_full positive whole memSheet) fun block memBlock => ?_
        rw [← flatten_pages positive blocks] at full
        exact full block (List.mem_flatten.mpr ⟨sheet, memSheet, memBlock⟩)

/-- Full blocks, as far left as they go, make a tree that is packed to the left. -/
theorem leftPacked_ofBlocks {height : Nat} {blocks : List (List α)}
    (fits : blocks.length ≤ capacity height) (full : ∀ block ∈ blocks, block.length = width)
    (inhabited : height = 0 → blocks ≠ []) : (ofBlocks height blocks).LeftPacked height := by
  induction height generalizing blocks with
  | zero =>
      match blocks, fits, inhabited rfl with
      | [block], _, _ => exact full block (List.mem_singleton_self _)
  | succ height ih =>
      have positive := capacity_pos height
      have below {sheet : List (List α)} (mem : sheet ∈ pages (capacity height) blocks) :
          ∀ block ∈ sheet, block.length = width := by
        intro block memBlock
        rw [← flatten_pages positive blocks] at full
        exact full block (List.mem_flatten.mpr ⟨sheet, mem, memBlock⟩)
      refine ⟨?_, fun child mem => ?_, fun child mem => ?_⟩
      · rw [List.length_map]
        exact length_pages_le positive fits
      · rw [← List.map_dropLast] at mem
        obtain ⟨sheet, memSheet, rfl⟩ := List.mem_map.mp mem
        exact complete_ofBlocks (length_of_mem_dropLast_pages positive memSheet)
          (below ((List.dropLast_sublist _).subset memSheet))
      · obtain ⟨sheet, memSheet, rfl⟩ :=
          List.mem_map.mp (List.mem_of_getLast? (Option.mem_def.mp mem))
        have some := ne_nil_of_mem_pages positive memSheet
        have short := length_of_mem_pages memSheet
        refine ⟨?_, ih short (below memSheet) fun _ => some⟩
        obtain ⟨block, memBlock⟩ := List.exists_mem_of_ne_nil sheet some
        rw [items_ofBlocks short]
        intro nothing
        have empty := List.flatten_eq_nil_iff.mp nothing block memBlock
        have := below memSheet block memBlock
        rw [empty, List.length_nil, width] at this
        cases this

/-! ## Other items in the same place -/

mutual

/-- The node with each item replaced by what a function makes of it. -/
def map (f : α → β) : Node α → Node β
  | .leaf items => .leaf (items.map f)
  | .branch children => .branch (mapAll f children)

/-- A row of nodes with each item replaced by what a function makes of it. -/
def mapAll (f : α → β) : List (Node α) → List (Node β)
  | [] => []
  | node :: rest => node.map f :: mapAll f rest

end

/-- All nodes are mapped, each on its own. -/
theorem mapAll_eq (f : α → β) (nodes : List (Node α)) : mapAll f nodes = nodes.map (map f) := by
  induction nodes with
  | nil => rfl
  | cons node rest ih => rw [mapAll, ih, List.map_cons]

/-- A tree of mapped blocks is a mapped tree. -/
theorem map_ofBlocks (f : α → β) (height : Nat) (blocks : List (List α)) :
    (ofBlocks height blocks).map f = ofBlocks height (blocks.map (List.map f)) := by
  induction height generalizing blocks with
  | zero => cases blocks <;> rfl
  | succ height ih =>
      rw [ofBlocks, ofBlocks, map, mapAll_eq, pages_map, List.map_map, List.map_map]
      exact congrArg Node.branch (List.map_congr_left fun sheet _ => ih sheet)

end Node

/-- The sequence with each item replaced by what a function makes of it. -/
def map (f : α → β) (sequence : Sequence α) : Sequence β :=
  ⟨sequence.size, sequence.height, sequence.root.map f, sequence.tail.map f⟩

variable {sequence : Sequence α} {items : List α}

/-- A packed sequence is mapped to a packed one. -/
theorem Packed.map (packed : sequence.Packed items) (f : α → β) :
    (sequence.map f).Packed (items.map f) where
  size_eq := packed.size_eq.trans (List.length_map f).symm
  root_eq := by
    rw [List.length_map, ← List.map_take, pages_map]
    exact (congrArg (Node.map f) packed.root_eq).trans (Node.map_ofBlocks f _ _)
  tail_eq := by
    rw [List.length_map, ← List.map_drop, ← packed.tail_eq]
    rfl
  height_pos := packed.height_pos
  fits := by
    rw [List.length_map]
    exact packed.fits
  least := by
    rw [List.length_map]
    exact packed.least

/-- Items may be mapped before or after the sequence is made. -/
theorem map_ofList (f : α → β) (items : List α) :
    (ofList items).map f = ofList (items.map f) := by
  have height : (ofList items).height = (ofList (items.map f)).height :=
    height_append_congr (List.length_map f).symm rfl rfl
  exact ((packed_ofList items).map f).unique (packed_ofList _) height

/-! ## Shapes -/

/-- What remains of a sequence when its items are forgotten. -/
def shape (sequence : Sequence α) : Sequence Unit :=
  sequence.map fun _ => ()

/-- The shape of the sequences of a size. -/
def shapeOf (size : Nat) : Sequence Unit :=
  ofList (List.replicate size ())

/-- The shape of a sequence depends on the number of its items only. -/
theorem shape_ofList (items : List α) : (ofList items).shape = shapeOf items.length := by
  rw [shape, shapeOf, map_ofList, List.map_const']

/-- How far an index is shifted to the right before its last five binary digits name a child of the
root. -/
def shift (sequence : Sequence α) : Nat :=
  5 * sequence.height

/-- Every level of the tree adds five to the shift. -/
theorem shift_div_five (sequence : Sequence α) : sequence.shift / 5 = sequence.height :=
  Nat.mul_div_cancel_left _ (by decide)

/-- The sequence holds the items in a tree that is packed to the left and no taller than it must be,
and in a tail that is empty only if there are no items. -/
structure Shaped (sequence : Sequence α) (items : List α) : Prop where
  size_eq : sequence.size = items.length
  shift_pos : 0 < sequence.shift
  five_dvd_shift : 5 ∣ sequence.shift
  leftPacked : sequence.root.LeftPacked (sequence.shift / 5)
  root_items : sequence.root.items = items.take sequence.tailStart
  tail_eq : sequence.tail = items.drop sequence.tailStart
  length_tail_le : sequence.tail.length ≤ 32
  tail_ne_nil : items ≠ [] → sequence.tail ≠ []
  fits_iff (height : Nat) :
    1 ≤ height → (sequence.tailStart ≤ 32 ^ height * 32 ↔ sequence.shift / 5 ≤ height)
  tall : sequence.shift / 5 = 1 ∨ 32 ^ (sequence.shift / 5) < items.length
  shape_eq : sequence.shape = shapeOf items.length

/-- A tree that has grown has more items than one less tall has room for. -/
def Outgrown (sequence : Sequence α) : Prop :=
  sequence.height = 1 ∨ capacity sequence.height < sequence.tailStart

/-- The tree grows only when the tail finds no room in it. -/
theorem Outgrown.push (outgrown : sequence.Outgrown) (packed : sequence.Packed items) (item : α) :
    (sequence.push item).Outgrown := by
  rw [Outgrown, Sequence.tailStart_eq] at outgrown ⊢
  rw [size_push]
  by_cases full : sequence.size - sequence.tailStart = width
  · have filled := full
    rw [packed.tailStart_eq, packed.size_eq] at filled
    obtain ⟨height, flushed, -, -, least⟩ := packed.flush filled
    rw [Sequence.push, if_pos full, flushed, packed.size_eq, stored_succ_of_full filled]
    exact least
  · rw [Sequence.push, if_neg full]
    rw [Sequence.tailStart_eq] at full
    rw [stored_succ_of_room full]
    exact outgrown

/-- A tree is never higher than its items need, however many are appended. -/
theorem Outgrown.append (outgrown : sequence.Outgrown) (packed : sequence.Packed items)
    (more : List α) : (sequence.append more).Outgrown := by
  induction more generalizing sequence items with
  | nil => exact outgrown
  | cons item rest ih => exact ih (outgrown.push packed item) (packed.push item)

/-- A tree made of items is not higher than they need. -/
theorem outgrown_ofList (items : List α) : (ofList items).Outgrown :=
  Outgrown.append (.inl rfl) packed_empty items

/-- Every level multiplies the capacity by 32. -/
theorem capacity_eq (height : Nat) : capacity height = 32 ^ height :=
  rfl

/-- A packed sequence that grew only when it had to is shaped as its size demands. -/
theorem shaped_ofList (items : List α) : (ofList items).Shaped items where
  size_eq := (packed_ofList items).size_eq
  shift_pos := Nat.mul_pos (by decide) (packed_ofList items).height_pos
  five_dvd_shift := Nat.dvd_mul_right _ _
  leftPacked := by
    have packed := packed_ofList items
    rw [shift_div_five, packed.root_eq]
    refine Node.leftPacked_ofBlocks packed.blocks_fit (fun block => ?_) fun flat => ?_
    · exact length_of_mem_pages_of_full width_pos (take_stored_mod_width items)
    · exact absurd packed.height_pos (by omega)
  root_items := by
    have packed := packed_ofList items
    rw [packed.root_eq, Node.items_ofBlocks packed.blocks_fit, flatten_pages width_pos,
      packed.tailStart_eq]
  tail_eq := by
    rw [(packed_ofList items).tail_eq, (packed_ofList items).tailStart_eq]
  length_tail_le := by
    rw [(packed_ofList items).tail_eq, List.length_drop]
    exact sub_stored_le _
  tail_ne_nil inhabited := by
    rw [(packed_ofList items).tail_eq]
    apply List.ne_nil_of_length_pos
    have := List.length_pos_of_ne_nil inhabited
    rw [List.length_drop, stored, width]
    omega
  fits_iff height positive := by
    rw [shift_div_five]
    constructor
    · intro fits
      by_contra low
      have taller : (ofList items).height ≠ 1 := by omega
      have more := (outgrown_ofList items).resolve_left taller
      have grows : 32 ^ (height + 1) ≤ 32 ^ (ofList items).height :=
        Nat.pow_le_pow_right (by decide) (by omega)
      rw [capacity_eq] at more
      omega
    · intro tall
      have grows : 32 ^ (ofList items).height ≤ 32 ^ height :=
        Nat.pow_le_pow_right (by decide) tall
      have fits := (packed_ofList items).fits
      rw [capacity_eq, width] at fits
      rw [(packed_ofList items).tailStart_eq]
      omega
  tall := by
    rw [shift_div_five]
    exact (packed_ofList items).least
  shape_eq := shape_ofList items

/-- Every sequence that a program makes is shaped as its size demands. Two sequences have one shape
if they have one size, and are the same if they hold the same items, however they were made. -/
theorem run_shaped (program : List (Operation α)) :
    List.Forall₂ Shaped (run sequences program) (run lists program) ∧
      ∀ another : List (Operation α), ∀ one ∈ run sequences program,
        ∀ other ∈ run sequences another,
          (one.size = other.size → one.shape = other.shape) ∧
            (one.toList = other.toList → one = other) := by
  constructor
  · rw [run_eq_map_ofList, List.forall₂_map_left_iff, List.forall₂_same]
    exact fun items _ => shaped_ofList items
  · intro another one memOne other memOther
    obtain ⟨items, rfl⟩ := isMade_iff.mp ⟨program, memOne⟩
    obtain ⟨others, rfl⟩ := isMade_iff.mp ⟨another, memOther⟩
    constructor
    · intro sizes
      rw [(packed_ofList items).size_eq, (packed_ofList others).size_eq] at sizes
      rw [shape_ofList, shape_ofList, sizes]
    · intro same
      rw [(packed_ofList items).toList_eq, (packed_ofList others).toList_eq] at same
      rw [same]

end CommandScript.Sequence
