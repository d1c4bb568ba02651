import CommandScript.Proofs.Sequence.Packed
import CommandScript.Sequence.Iterator

/-!
# Reading a packed sequence

A packed sequence is read as the list that it holds, whether by index, block by block or with an
iterator. The block that an iterator keeps is the one with its next item until a new block begins.
-/

namespace CommandScript.Sequence

variable {α σ β : Type} {sequence : Sequence α} {items : List α}

namespace Packed

/-- The block that is found for an index has an item at the place that the index names. -/
theorem slot_lt_length_block (packed : sequence.Packed items) {index : Nat}
    (inside : index < items.length) :
    ∃ block, sequence.block? index = some block ∧ slot 0 index < block.length := by
  refine ⟨_, packed.block?_eq inside, ?_⟩
  rw [slot_zero]
  exact mod_lt_length_page width_pos inside

/-- An item is found by its index. -/
theorem get?_eq (packed : sequence.Packed items) (index : Nat) :
    sequence.get? index = items[index]? := by
  rw [get?, packed.size_eq]
  by_cases inside : index < items.length
  · rw [if_pos inside, packed.block?_eq inside]
    simp only [slot_zero]
    exact getElem?_page_div width_pos items index
  · rw [if_neg inside, List.getElem?_eq_none (Nat.not_lt.mp inside)]

/-- A packed sequence is empty if its list is. -/
theorem isEmpty_eq (packed : sequence.Packed items) : sequence.isEmpty = items.isEmpty := by
  rw [isEmpty, packed.size_eq]
  cases items <;> rfl

/-- From the start of a page, the pages that are left are read one by one. -/
theorem itemsFrom?_eq (packed : sequence.Packed items) {count number : Nat}
    (enough : items.length ≤ (number + count) * width) :
    sequence.itemsFrom? count (min (number * width) items.length) =
      some (items.drop (number * width)) := by
  induction count generalizing number with
  | zero =>
      rw [Nat.add_zero] at enough
      rw [itemsFrom?, packed.size_eq, Nat.min_eq_right enough, if_neg (Nat.lt_irrefl _),
        List.drop_eq_nil_of_le enough]
  | succ count ih =>
      rw [itemsFrom?, packed.size_eq]
      by_cases inside : number * width < items.length
      · have onward : items.length ≤ (number + 1 + count) * width := by
          rw [Nat.add_right_comm]
          exact enough
        have behind := ih onward
        have taken : (page width items number).take (items.length - number * width) =
            page width items number := by
          apply List.take_of_length_le
          rw [length_page]
          exact Nat.min_le_right _ _
        -- A short last page leads to the end, and not to where another page would start.
        have step : number * width + (page width items number).length =
            min ((number + 1) * width) items.length := by
          rw [length_page, Nat.add_one_mul]
          omega
        have joined : page width items number ++ items.drop ((number + 1) * width) =
            items.drop (number * width) := by
          rw [page, Nat.add_one_mul, ← List.drop_drop, List.take_append_drop]
        rw [Nat.min_eq_left (Nat.le_of_lt inside), if_pos inside, packed.block?_eq inside,
          Nat.mul_div_cancel _ width_pos]
        simp only [taken, step, behind, joined]
      · have outside := Nat.not_lt.mp inside
        rw [Nat.min_eq_right outside, if_neg (Nat.lt_irrefl _), List.drop_eq_nil_of_le outside]

/-- All items are read in their order. -/
theorem items?_eq (packed : sequence.Packed items) : sequence.items? = some items := by
  have enough : items.length ≤ (0 + (sequence.size / width + 1)) * width := by
    rw [packed.size_eq, Nat.zero_add, Nat.add_one_mul]
    exact Nat.le_of_lt (Nat.lt_div_mul_add width_pos)
  have whole := packed.itemsFrom?_eq enough
  rwa [Nat.zero_mul, Nat.zero_min, List.drop_zero] at whole

/-- A packed sequence is reversed to a packed one. -/
theorem reverse (packed : sequence.Packed items) : sequence.reverse.Packed items.reverse := by
  rw [Sequence.reverse, packed.items?_eq]
  exact packed_ofList items.reverse

end Packed

namespace Iterator

variable {iterator : Iterator α}

/-- The iterator stands somewhere in a sequence of the items, inside a block with the block. -/
structure Sound (iterator : Iterator α) (items : List α) : Prop where
  packed : iterator.sequence.Packed items
  index_le : iterator.index ≤ items.length
  block_eq : iterator.index % width ≠ 0 →
    iterator.block = page width items (iterator.index / width)

/-- The next block of an iterator is the page of its index. -/
theorem Sound.nextBlock?_eq (sound : iterator.Sound items)
    (inside : iterator.index < items.length) :
    iterator.nextBlock? = some (page width items (iterator.index / width)) := by
  rw [nextBlock?, slot_zero]
  split
  · exact sound.packed.block?_eq inside
  · rename_i kept
    rw [sound.block_eq (fun start => kept (by simp [start]))]

/-- A sound iterator gives the item at its index and moves on by one. -/
theorem Sound.next? (sound : iterator.Sound items) (inside : iterator.index < items.length) :
    ∃ behind, iterator.next? = some (items[iterator.index], behind) ∧
      behind.index = iterator.index + 1 ∧ behind.Sound items := by
  refine ⟨⟨iterator.sequence, iterator.index + 1, page width items (iterator.index / width)⟩,
    ?_, rfl, sound.packed, inside, ?_⟩
  · have found : (page width items (iterator.index / width))[slot 0 iterator.index]? =
        some items[iterator.index] := by
      rw [slot_zero, getElem?_page_div width_pos, List.getElem?_eq_getElem inside]
    rw [Iterator.next?, if_pos (sound.packed.lt_size.mpr inside), sound.nextBlock?_eq inside]
    simp only [found]
  · intro within
    have same_block : (iterator.index + 1) / width = iterator.index / width := by
      simp only [width] at within ⊢
      omega
    rw [same_block]

/-- The iterator meets the items one after another and then no more, and at every point knows how
many are left. -/
inductive Yields : Iterator α → List α → Prop where
  | done {iterator : Iterator α} (ended : iterator.next? = none) (left : iterator.remaining = 0) :
      Yields iterator []
  | step {iterator behind : Iterator α} {item : α} {later : List α}
      (met : iterator.next? = some (item, behind)) (left : iterator.remaining = later.length + 1)
      (yields : Yields behind later) : Yields iterator (item :: later)

/-- A sound iterator yields the items that are left. -/
theorem Sound.yields (sound : iterator.Sound items) :
    iterator.Yields (items.drop iterator.index) := by
  generalize left : items.length - iterator.index = count
  have remaining : iterator.remaining = count := by
    rw [Iterator.remaining, sound.packed.size_eq, left]
  induction count generalizing iterator with
  | zero =>
      have ended : items.length ≤ iterator.index := Nat.le_of_sub_eq_zero left
      rw [List.drop_eq_nil_of_le ended]
      apply Yields.done _ remaining
      rw [Iterator.next?, if_neg (mt sound.packed.lt_size.mp (Nat.not_lt.mpr ended))]
  | succ count ih =>
      have inside : iterator.index < items.length := by omega
      obtain ⟨behind, met, advanced, sound_behind⟩ := sound.next? inside
      have less : items.length - behind.index = count := by omega
      have left_behind : behind.remaining = count := by
        rw [Iterator.remaining, sound_behind.packed.size_eq, less]
      have later := ih sound_behind less left_behind
      rw [List.drop_eq_getElem_cons inside]
      rw [advanced] at later
      refine .step met ?_ later
      rw [remaining, List.length_drop]
      omega

/-- What an iterator yields is taken from it. -/
theorem Yields.take_eq {later : List α} (yields : iterator.Yields later) :
    iterator.take later.length = later := by
  induction yields with
  | done ended left => rfl
  | step met left yields ih =>
      rw [List.length_cons, take, met]
      exact congrArg (_ :: ·) ih

end Iterator

/-- A list is shown to a visitor, item by item, until it stops with a value. -/
def visitItems (visitor : σ → α → σ × Option β) : σ → List α → σ × Option β
  | state, [] => (state, none)
  | state, item :: rest =>
    match visitor state item with
    | (state, some found) => (state, some found)
    | (state, none) => visitItems visitor state rest

/-- A visitor sees what the iterator yields, until it stops. -/
theorem Iterator.Yields.visit_eq {iterator : Iterator α} {later : List α}
    (yields : iterator.Yields later) (visitor : σ → α → σ × Option β) (state : σ) :
    iterator.visit visitor later.length state = visitItems visitor state later := by
  induction yields generalizing state with
  | done ended left => rfl
  | @step iterator behind item later met left yields ih =>
      rw [List.length_cons, visit, met, visitItems]
      rcases shown : visitor state item with ⟨after, found⟩
      cases found with
      | none => simp only [shown, ih after]
      | some found => simp only [shown]

namespace Packed

/-- The iterator of a packed sequence is sound. -/
theorem sound_iterator (packed : sequence.Packed items) : sequence.iterator.Sound items where
  packed := packed
  index_le := Nat.zero_le _
  block_eq within := absurd (Nat.zero_mod _) within

/-- The iterator of a packed sequence yields its items. -/
theorem yields (packed : sequence.Packed items) : sequence.iterator.Yields items :=
  packed.sound_iterator.yields

/-- The items of a packed sequence are those of its list. -/
theorem walk_eq (packed : sequence.Packed items) : sequence.walk = items := by
  rw [walk, packed.size_eq, packed.yields.take_eq]

/-- The rest of a packed sequence packs the rest of its list. -/
theorem rest (packed : sequence.Packed items) : sequence.rest.Packed items.tail := by
  rw [Sequence.rest, packed.walk_eq, List.drop_one]
  exact packed_ofList items.tail

/-- A visitor sees the items of the list, until it stops. -/
theorem range_eq (packed : sequence.Packed items) (visitor : σ → α → σ × Option β) (state : σ) :
    sequence.range visitor state = visitItems visitor state items := by
  rw [range, packed.size_eq, packed.yields.visit_eq]

/-- A visit meets exactly the items before the first at which it stops. -/
theorem visit_eq (packed : sequence.Packed items) (stop : α → Bool) :
    sequence.visit stop = (items.takeWhile (fun item => !stop item), items.find? stop) := by
  have log (seen : List α) : visitItems
      (fun seen item => if stop item then (seen, some item) else (item :: seen, none)) seen items =
        ((items.takeWhile (fun item => !stop item)).reverse ++ seen, items.find? stop) := by
    clear packed
    induction items generalizing seen with
    | nil => rfl
    | cons item rest ih =>
        rw [visitItems]
        by_cases stops : stop item = true
        · simp [stops]
        · simp [stops, ih]
  simp only [visit, packed.range_eq, log, List.append_nil, List.reverse_reverse]

/-- Packed sequences are the same if their lists are. -/
theorem same_eq {other : Sequence α} {others : List α} (packed : sequence.Packed items)
    (packed_other : other.Packed others) (same : α → α → Bool) :
    Sequence.same same sequence other = items.isEqv others same := by
  rw [Sequence.same, packed.size_eq, packed_other.size_eq, packed.walk_eq, packed_other.walk_eq]
  clear packed packed_other
  induction items generalizing others with
  | nil => cases others <;> rfl
  | cons item rest ih =>
      cases others with
      | nil => rfl
      | cons other others =>
          rw [List.isEqv_cons_cons, ← ih, List.zip_cons_cons, List.all_cons, List.length_cons,
            List.length_cons, Bool.and_left_comm]
          simp

end Packed

end CommandScript.Sequence
