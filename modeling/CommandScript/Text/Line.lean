import CommandScript.Text.Blank

/-!
# Lines and their parts

A text is a sequence of lines parted by line feeds. A line is trimmed of blanks at both ends, and
may be cut once, at the first occurrence of a character.
-/

namespace CommandScript.Text

/-- The pieces between the occurrences of a separator; there is always one more piece than
occurrences. -/
def splitAt (separator : Char) : List Char → List (List Char)
  | [] => [[]]
  | c :: rest =>
    if c = separator then [] :: splitAt separator rest
    else
      match splitAt separator rest with
      | [] => [[c]]
      | piece :: pieces => (c :: piece) :: pieces

/-- The lines of a text. -/
def lines (text : List Char) : List (List Char) :=
  splitAt '\n' text

/-- The text without the blanks at its two ends. -/
def trim (text : List Char) : List Char :=
  ((text.dropWhile isBlank).reverse.dropWhile isBlank).reverse

/-- The parts before and after the first occurrence of a separator. -/
def splitOnce (separator : Char) : List Char → Option (List Char × List Char)
  | [] => none
  | c :: rest =>
    if c = separator then some ([], rest)
    else (splitOnce separator rest).map fun parts => (c :: parts.1, parts.2)

/-- A text has at least one piece. -/
theorem splitAt_ne_nil (separator : Char) (text : List Char) : splitAt separator text ≠ [] := by
  cases text with
  | nil => simp [splitAt]
  | cons c rest =>
    by_cases h : c = separator
    · simp [splitAt, h]
    · simp only [splitAt, h, ↓reduceIte]
      split <;> simp

/-- A text is split at the first separator. -/
theorem splitOnce_eq_some {separator : Char} {text front back : List Char} :
    splitOnce separator text = some (front, back) ↔
      text = front ++ separator :: back ∧ separator ∉ front := by
  induction text generalizing front with
  | nil => simp [splitOnce]
  | cons c rest ih =>
    by_cases h : c = separator
    · subst h
      cases front with
      | nil => simp [splitOnce, eq_comm]
      | cons d front => simp [splitOnce]; grind
    · cases front with
      | nil => simp [splitOnce, h]
      | cons d front =>
        simp only [splitOnce, h, ↓reduceIte, Option.map_eq_some_iff, Prod.mk.injEq, List.cons.injEq,
          Prod.exists, List.cons_append, List.mem_cons, not_or]
        constructor
        · rintro ⟨front', back', hsplit, ⟨rfl, rfl⟩, rfl⟩
          have := (@ih front').mp hsplit
          grind
        · rintro ⟨⟨rfl, hrest⟩, hne, hmem⟩
          exact ⟨front, back, ih.mpr ⟨hrest, hmem⟩, ⟨rfl, rfl⟩, rfl⟩

end CommandScript.Text
