import CommandScript.Text.Line
import Mathlib.Data.List.DropRight

/-!
# Pieces, lines and trimmed texts

A text is cut into pieces at every occurrence of a character, and is what its pieces give when the
character is put between them again. A trimmed text is the one part of a text that begins and ends
with no blank and has nothing but blanks around it.
-/

namespace CommandScript.Text

/-! ## Pieces -/

/-- The pieces are those that the library of lists gives. -/
theorem splitAt_eq_splitOn (separator : Char) (text : List Char) :
    splitAt separator text = text.splitOn separator := by
  induction text with
  | nil => rfl
  | cons c rest ih =>
      rw [List.splitOn_cons_eq_if_modifyHead, splitAt, ← ih]
      by_cases same : c = separator
      · rw [if_pos same, if_pos (beq_iff_eq.mpr same)]
      · rw [if_neg same, if_neg (by rwa [beq_iff_eq])]
        cases pieces : splitAt separator rest with
        | nil => exact absurd pieces (splitAt_ne_nil separator rest)
        | cons piece others => rfl

/-- The separator is in no piece. -/
theorem not_mem_of_mem_splitAt {separator : Char} {text piece : List Char}
    (member : piece ∈ splitAt separator text) : separator ∉ piece := by
  induction text generalizing piece with
  | nil =>
      rw [splitAt, List.mem_singleton] at member
      exact member ▸ List.not_mem_nil
  | cons c rest ih =>
      rw [splitAt] at member
      split at member
      · rcases List.mem_cons.mp member with rfl | later
        · exact List.not_mem_nil
        · exact ih later
      · rename_i different
        cases pieces : splitAt separator rest with
        | nil => exact absurd pieces (splitAt_ne_nil separator rest)
        | cons first others =>
            rw [pieces] at member ih
            rcases List.mem_cons.mp member with rfl | later
            · rw [List.mem_cons, not_or]
              exact ⟨Ne.symm different, ih List.mem_cons_self⟩
            · exact ih (List.mem_cons_of_mem _ later)

/-! ## Lines -/

/-- The text that has the given lines. -/
def unlines (rows : List (List Char)) : List Char :=
  ['\n'].intercalate rows

/-- The lines of a text give it back. -/
theorem unlines_lines (text : List Char) : unlines (lines text) = text := by
  rw [unlines, lines, splitAt_eq_splitOn]
  exact List.intercalate_splitOn '\n'

/-- Lines without line breaks are found again. -/
theorem lines_unlines {rows : List (List Char)} (apart : ∀ row ∈ rows, '\n' ∉ row)
    (some : rows ≠ []) : lines (unlines rows) = rows := by
  rw [unlines, lines, splitAt_eq_splitOn]
  exact List.splitOn_intercalate '\n' apart some

/-- No line has a line break in it. -/
theorem not_mem_of_mem_lines {text row : List Char} (member : row ∈ lines text) : '\n' ∉ row :=
  not_mem_of_mem_splitAt member

/-! ## Blanks at the ends -/

/-- All characters of the text are blanks. -/
def IsBlankText (text : List Char) : Prop :=
  ∀ c ∈ text, isBlank c = true

/-- The text begins and ends with no blank. -/
def IsTrimmed (text : List Char) : Prop :=
  (∀ c ∈ text.head?, isBlank c = false) ∧ ∀ c ∈ text.getLast?, isBlank c = false

/-- The text is the given one with blanks at its ends. -/
def Pads (own text : List Char) : Prop :=
  ∃ front back, text = front ++ (own ++ back) ∧ IsBlankText front ∧ IsBlankText back

theorem Pads.append_left {own text blanks : List Char} (pads : Pads own text)
    (blank : IsBlankText blanks) : Pads own (blanks ++ text) := by
  obtain ⟨front, back, rfl, blankFront, blankBack⟩ := pads
  refine ⟨blanks ++ front, back, (List.append_assoc ..).symm, fun c member => ?_, blankBack⟩
  exact (List.mem_append.mp member).elim (blank c) (blankFront c)

theorem Pads.append_right {own text blanks : List Char} (pads : Pads own text)
    (blank : IsBlankText blanks) : Pads own (text ++ blanks) := by
  obtain ⟨front, back, rfl, blankFront, blankBack⟩ := pads
  refine ⟨front, back ++ blanks, by simp only [List.append_assoc], blankFront, fun c member => ?_⟩
  exact (List.mem_append.mp member).elim (blankBack c) (blank c)

/-- The blanks around a trimmed text are trimmed. -/
theorem trim_of_pads {own text : List Char} (trimmed : IsTrimmed own) (pads : Pads own text) :
    trim text = own := by
  obtain ⟨front, back, rfl, blankFront, blankBack⟩ := pads
  have blank : ∀ c ∈ back.reverse, isBlank c = true := fun c member =>
    blankBack c (List.mem_reverse.mp member)
  rw [trim, List.dropWhile_append_of_pos blankFront]
  cases own with
  | nil =>
      rw [List.nil_append, List.dropWhile_eq_nil_iff.mpr blankBack]
      rfl
  | cons c rest =>
      have first : isBlank c = false := trimmed.1 c rfl
      have last : (c :: rest).reverse.dropWhile isBlank = (c :: rest).reverse := by
        have stays := trimmed.2
        rw [← List.head?_reverse] at stays
        cases shape : (c :: rest).reverse with
        | nil => rfl
        | cons d others => simp [stays d (shape ▸ rfl)]
      rw [List.cons_append, List.dropWhile_cons_of_neg (by simp [first]), ← List.cons_append,
        List.reverse_append, List.dropWhile_append_of_pos blank, last, List.reverse_reverse]

/-- What is trimmed needs no more of it. -/
theorem isTrimmed_trim (text : List Char) : IsTrimmed (trim text) := by
  constructor
  · intro c first
    have front : trim text <+: text.dropWhile isBlank := List.rdropWhile_prefix isBlank _
    have kept := List.head?_dropWhile_not isBlank text
    obtain ⟨rest, shape⟩ := List.head?_eq_some_iff.mp first
    obtain ⟨others, whole⟩ := front
    rw [← whole, shape] at kept
    simpa using kept
  · intro c last
    have kept := List.head?_dropWhile_not isBlank (text.dropWhile isBlank).reverse
    rw [trim, List.getLast?_reverse] at last
    rw [last] at kept
    simpa using kept

/-- Only blanks are trimmed. -/
theorem pads_trim (text : List Char) : Pads (trim text) text := by
  refine ⟨text.takeWhile isBlank, (text.dropWhile isBlank).rtakeWhile isBlank, ?_, ?_, ?_⟩
  · have middle : trim text ++ (text.dropWhile isBlank).rtakeWhile isBlank =
        text.dropWhile isBlank := List.rdropWhile_append_rtakeWhile
    rw [middle, List.takeWhile_append_dropWhile]
  · exact fun _ member => List.mem_takeWhile_imp member
  · exact fun _ member => List.mem_rtakeWhile_imp member

/-- The first character that is not a blank stays the first. -/
theorem head?_trim (text : List Char) : (trim text).head? = (text.dropWhile isBlank).head? := by
  obtain ⟨front, back, shape, blankFront, blankBack⟩ := pads_trim text
  have kept : text.dropWhile isBlank = (trim text ++ back).dropWhile isBlank := by
    rw [shape, List.dropWhile_append_of_pos blankFront, ← shape]
  have trimmed := (isTrimmed_trim text).1
  rw [kept]
  cases content : trim text with
  | nil =>
      rw [List.nil_append, List.dropWhile_eq_nil_iff.mpr blankBack]
  | cons c rest =>
      have first : isBlank c = false := trimmed c (content ▸ rfl)
      simp [first]

/-- What is left of a text without the blanks at its ends. -/
theorem trim_eq_iff {text own : List Char} : trim text = own ↔ IsTrimmed own ∧ Pads own text := by
  constructor
  · rintro rfl
    exact ⟨isTrimmed_trim text, pads_trim text⟩
  · exact fun shape => trim_of_pads shape.1 shape.2

end CommandScript.Text
