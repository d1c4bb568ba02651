/-!
# Lists cut into pages

A branch divides what is below it among its children: each child but the last gets as much as it
holds. On lists this is a cut into pages of one size, and what happens to one entry of the list
happens to one page.
-/

namespace CommandScript.Sequence

variable {β γ : Type}

/-- The entries of a list that stand on the page of a number. -/
def page (capacity : Nat) (entries : List β) (number : Nat) : List β :=
  (entries.drop (number * capacity)).take capacity

/-- A list cut into pages, only the last of which may be short. -/
def pages (capacity : Nat) (entries : List β) : List (List β) :=
  (List.range ((entries.length + capacity - 1) / capacity)).map (page capacity entries)

variable {capacity : Nat}

/-- A page ends before any later one begins. -/
theorem end_le_start (capacity : Nat) {number later : Nat} (before : number < later) :
    number * capacity + capacity ≤ later * capacity := by
  rw [← Nat.add_one_mul]
  exact Nat.mul_le_mul_right capacity before

/-- How many entries there are on a page. -/
theorem length_page (entries : List β) (number : Nat) :
    (page capacity entries number).length = min capacity (entries.length - number * capacity) := by
  rw [page, List.length_take, List.length_drop]

theorem length_page_le (entries : List β) (number : Nat) :
    (page capacity entries number).length ≤ capacity := by
  rw [length_page]
  exact Nat.min_le_left _ _

theorem mem_of_mem_page {entries : List β} {number : Nat} {entry : β}
    (mem : entry ∈ page capacity entries number) : entry ∈ entries :=
  List.mem_of_mem_drop (List.mem_of_mem_take mem)

/-- An entry of a page, found among all entries. -/
theorem getElem?_page {entry : Nat} (small : entry < capacity) (entries : List β) (number : Nat) :
    (page capacity entries number)[entry]? = entries[number * capacity + entry]? := by
  rw [page, List.getElem?_take_of_lt small, List.getElem?_drop]

/-- An entry stands on the page that its index names, at the place that is left over. -/
theorem getElem?_page_div (positive : 0 < capacity) (entries : List β) (index : Nat) :
    (page capacity entries (index / capacity))[index % capacity]? = entries[index]? := by
  rw [getElem?_page (Nat.mod_lt _ positive), Nat.div_add_mod']

/-- What stands behind a page does not matter for it. -/
theorem page_take {number count : Nat} (whole : number * capacity + capacity ≤ count)
    (entries : List β) :
    page capacity (entries.take count) number = page capacity entries number := by
  rw [page, page, List.drop_take, List.take_take, Nat.min_eq_left (by omega)]

/-- An entry has its place on its page. -/
theorem mod_lt_length_page (positive : 0 < capacity) {entries : List β} {index : Nat}
    (inside : index < entries.length) :
    index % capacity < (page capacity entries (index / capacity)).length := by
  have cut := Nat.div_add_mod' index capacity
  have short := Nat.mod_lt index positive
  rw [length_page]
  omega

/-- A page is there if it has an entry. -/
theorem getElem?_pages (positive : 0 < capacity) (entries : List β) (number : Nat) :
    (pages capacity entries)[number]? =
      if number * capacity < entries.length then some (page capacity entries number) else none := by
  have counted : number < (entries.length + capacity - 1) / capacity ↔
      number * capacity < entries.length := by
    rw [← Nat.add_one_le_iff, Nat.le_div_iff_mul_le positive, Nat.add_one_mul]
    omega
  rw [pages, List.getElem?_map]
  by_cases inside : number * capacity < entries.length
  · rw [List.getElem?_range (counted.mpr inside), if_pos inside]
    rfl
  · have beyond := Nat.not_lt.mp (mt counted.mp inside)
    rw [List.getElem?_eq_none (by rw [List.length_range]; exact beyond), if_neg inside]
    rfl

/-- The page of an entry. -/
theorem getElem?_pages_div (positive : 0 < capacity) {entries : List β} {index : Nat}
    (inside : index < entries.length) :
    (pages capacity entries)[index / capacity]? =
      some (page capacity entries (index / capacity)) := by
  rw [getElem?_pages positive, if_pos (Nat.lt_of_le_of_lt (Nat.div_mul_le_self _ _) inside)]

/-- No page holds more than the capacity. -/
theorem length_of_mem_pages {entries sheet : List β} (mem : sheet ∈ pages capacity entries) :
    sheet.length ≤ capacity := by
  obtain ⟨number, -, rfl⟩ := List.mem_map.mp mem
  exact length_page_le entries number

/-- Pages that leave no entry over are full. -/
theorem length_of_mem_pages_of_full (positive : 0 < capacity) {entries sheet : List β}
    (full : entries.length % capacity = 0) (mem : sheet ∈ pages capacity entries) :
    sheet.length = capacity := by
  obtain ⟨number, found⟩ := List.mem_iff_getElem?.mp mem
  rw [getElem?_pages positive] at found
  split at found
  case isTrue inside =>
    obtain rfl := Option.some.inj found
    have cut := Nat.div_mul_cancel (Nat.dvd_of_mod_eq_zero full)
    rw [← cut] at inside
    have whole := end_le_start capacity (Nat.lt_of_mul_lt_mul_right inside)
    rw [length_page]
    omega
  case isFalse => exact absurd found (by simp)

/-- The pages in a row give the entries back. -/
theorem flatMap_page (entries : List β) (count : Nat) :
    (List.range count).flatMap (page capacity entries) = entries.take (count * capacity) := by
  induction count with
  | zero => simp
  | succ count ih =>
      rw [List.range_succ, List.flatMap_append, ih, Nat.add_one_mul, List.take_add]
      simp [page]

/-- Nothing is lost between the pages. -/
theorem flatten_pages (positive : 0 < capacity) (entries : List β) :
    (pages capacity entries).flatten = entries := by
  rw [pages, ← List.flatMap_def, flatMap_page]
  apply List.take_of_length_le
  have enough := Nat.lt_div_mul_add (a := entries.length + capacity - 1) positive
  omega

/-- A changed entry changes its own page only. -/
theorem page_modify (positive : 0 < capacity) (change : β → β) (entries : List β)
    (index number : Nat) :
    page capacity (entries.modify index change) number =
      if index / capacity = number then
        (page capacity entries number).modify (index % capacity) change
      else page capacity entries number := by
  apply List.ext_getElem?
  intro entry
  by_cases small : entry < capacity
  · have place := Nat.div_add_mod' index capacity
    by_cases here : index / capacity = number
    · subst here
      rw [if_pos rfl, getElem?_page small, List.getElem?_modify, List.getElem?_modify,
        getElem?_page small]
      have same : index = index / capacity * capacity + entry ↔ index % capacity = entry := by
        omega
      simp only [same]
    · rw [if_neg here, getElem?_page small, getElem?_page small, List.getElem?_modify_ne]
      rintro rfl
      exact here (by rw [Nat.add_comm, Nat.add_mul_div_right _ _ positive, Nat.div_eq_of_lt small,
        Nat.zero_add])
  · have beyond {sheet : List β} (short : sheet.length ≤ capacity) : sheet[entry]? = none :=
      List.getElem?_eq_none (Nat.le_trans short (Nat.not_lt.mp small))
    split
    · rw [beyond (length_page_le _ _), beyond]
      rw [List.length_modify]
      exact length_page_le _ _
    · rw [beyond (length_page_le _ _), beyond (length_page_le _ _)]

/-- A change of one entry is a change of one page. -/
theorem pages_modify (positive : 0 < capacity) (change : β → β) (entries : List β) (index : Nat) :
    pages capacity (entries.modify index change) =
      (pages capacity entries).modify (index / capacity)
        (fun sheet => sheet.modify (index % capacity) change) := by
  apply List.ext_getElem?
  intro number
  rw [List.getElem?_modify, getElem?_pages positive, getElem?_pages positive, List.length_modify,
    page_modify positive]
  split <;> split <;> rfl

/-- Where the changed page is put, its neighbours stay what they were. -/
theorem map_modify {entries : List β} {index : Nat} {entry : β}
    (found : entries[index]? = some entry) (change : β → β) (view : β → γ) :
    (entries.modify index change).map view =
      (entries.map view).set index (view (change entry)) := by
  obtain ⟨inside, rfl⟩ := List.getElem?_eq_some_iff.mp found
  apply List.ext_getElem?
  intro place
  rw [List.getElem?_map, List.getElem?_modify, List.getElem?_set, List.getElem?_map,
    List.length_map]
  by_cases here : index = place
  · subst here
    simp [inside]
  · simp [here]

theorem modify_const (entries : List β) (index : Nat) (entry : β) :
    entries.modify index (fun _ => entry) = entries.set index entry := by
  induction entries generalizing index with
  | nil => exact List.modify_nil _ _
  | cons first rest ih =>
      cases index with
      | zero => rfl
      | succ index => exact congrArg (first :: ·) (ih index)

/-- One more entry goes to the last page or to a new one. -/
theorem page_concat {entries : List β} {number : Nat}
    (reached : number * capacity ≤ entries.length) (entry : β) :
    page capacity (entries ++ [entry]) number =
      if entries.length < number * capacity + capacity then page capacity entries number ++ [entry]
      else page capacity entries number := by
  rw [page, page, List.drop_append_of_le_length reached]
  by_cases last : entries.length < number * capacity + capacity
  · have short : (entries.drop (number * capacity)).length < capacity := by
      rw [List.length_drop]
      omega
    rw [if_pos last, List.take_of_length_le (Nat.le_of_lt short), List.take_of_length_le]
    rw [List.length_append, List.length_singleton]
    exact short
  · rw [if_neg last, List.take_append_of_le_length]
    rw [List.length_drop]
    omega

/-- One more entry stands at the end of the last page if there is room. -/
theorem pages_concat_of_room (positive : 0 < capacity) {entries : List β}
    (room : entries.length % capacity ≠ 0) (entry : β) :
    pages capacity (entries ++ [entry]) =
      (pages capacity entries).modify (entries.length / capacity) (· ++ [entry]) := by
  have cut := Nat.div_add_mod' entries.length capacity
  have short := Nat.mod_lt entries.length positive
  apply List.ext_getElem?
  intro number
  rw [List.getElem?_modify, getElem?_pages positive, getElem?_pages positive, List.length_append,
    List.length_singleton]
  rcases Nat.lt_trichotomy number (entries.length / capacity) with before | rfl | behind
  · have whole := end_le_start capacity before
    rw [if_pos (by omega), if_pos (by omega), page_concat (by omega), if_neg (by omega),
      Option.map_eq_map, Option.map_some, if_neg (by omega)]
  · rw [if_pos (by omega), if_pos (by omega), page_concat (by omega),
      if_pos (by omega), Option.map_eq_map, Option.map_some, if_pos rfl]
  · have beyond := end_le_start capacity behind
    rw [if_neg (by omega), if_neg (by omega)]
    rfl

/-- How many pages there are if all of them are full. -/
theorem length_pages_of_full (positive : 0 < capacity) {entries : List β}
    (full : entries.length % capacity = 0) :
    (pages capacity entries).length = entries.length / capacity := by
  have cut := Nat.div_add_mod' entries.length capacity
  rw [pages, List.length_map, List.length_range]
  apply Nat.div_eq_of_lt_le
  · omega
  · rw [Nat.add_one_mul]
    omega

theorem pages_nil (positive : 0 < capacity) : pages capacity ([] : List β) = [] := by
  apply List.eq_nil_of_length_eq_zero
  rw [length_pages_of_full positive (Nat.zero_mod _)]
  exact Nat.zero_div _

/-- Behind full pages, the entries of one more page stand on a page of their own. -/
theorem pages_append_sheet (positive : 0 < capacity) {entries sheet : List β}
    (full : entries.length % capacity = 0) (inhabited : sheet ≠ [])
    (fits : sheet.length ≤ capacity) :
    pages capacity (entries ++ sheet) = pages capacity entries ++ [sheet] := by
  have cut := Nat.div_add_mod' entries.length capacity
  have count := length_pages_of_full positive full
  have grown := List.length_pos_iff.mpr inhabited
  apply List.ext_getElem?
  intro number
  rw [getElem?_pages positive, List.length_append]
  rcases Nat.lt_trichotomy number (entries.length / capacity) with before | rfl | behind
  · have whole := end_le_start capacity before
    rw [if_pos (by omega), List.getElem?_append_left (by omega), getElem?_pages positive,
      if_pos (by omega), page, page, List.drop_append_of_le_length (by omega),
      List.take_append_of_le_length (by rw [List.length_drop]; omega)]
  · rw [if_pos (by omega), List.getElem?_append_right (by omega), count, Nat.sub_self, page,
      List.drop_append_of_le_length (by omega), List.drop_eq_nil_of_le (by omega), List.nil_append,
      List.take_of_length_le fits]
    rfl
  · have beyond := end_le_start capacity behind
    rw [if_neg (by omega), List.getElem?_eq_none]
    rw [List.length_append, count, List.length_singleton]
    omega

/-- Entries that fit on one page are that page. -/
theorem pages_of_fits (positive : 0 < capacity) {sheet : List β} (inhabited : sheet ≠ [])
    (fits : sheet.length ≤ capacity) : pages capacity sheet = [sheet] := by
  rw [← List.nil_append sheet, pages_append_sheet positive (Nat.zero_mod _) inhabited fits,
    pages_nil positive]
  rfl

end CommandScript.Sequence
