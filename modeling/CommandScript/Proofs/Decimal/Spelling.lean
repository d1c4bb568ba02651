import CommandScript.Proofs.Decimal.Shape

/-!
# Which texts are numerals

The check for a numeral accepts exactly the digits that have at most one point, between digits, and
at most one sign, in front. Every such text has a value: to read it never fails.
-/

namespace CommandScript.Decimal

/-- Digits, or digits with a point between them, behind a sign or without one. -/
inductive IsSigned : List Char → Prop where
  | positive {text : List Char} (shape : IsUnsigned text) : IsSigned text
  | negative {text : List Char} (shape : IsUnsigned text) : IsSigned ('-' :: text)

/-- A signed decimal has digits, a point and a minus sign only. -/
theorem IsSigned.mem {text : List Char} (shape : IsSigned text) {c : Char} (member : c ∈ text) :
    c.isDigit = true ∨ c = '.' ∨ c = '-' := by
  cases shape with
  | positive shape => exact (shape.mem member).imp_right .inl
  | negative shape =>
      rcases List.mem_cons.mp member with sign | unsigned
      · exact .inr (.inr sign)
      · exact (shape.mem unsigned).imp_right .inl

theorem IsSigned.ne_nil {text : List Char} (shape : IsSigned text) : text ≠ [] := by
  cases shape with
  | positive shape => exact shape.ne_nil
  | negative shape => exact List.cons_ne_nil _ _

/-- A text without a sign whose parts around the first point are digits. -/
theorem isUnsigned_of_parts {text : List Char}
    (whole : isDigits (text.takeWhile (· != '.')) = true)
    (fraction : ∀ rest, text.dropWhile (· != '.') = '.' :: rest → isDigits rest = true) :
    IsUnsigned text := by
  have parts := @List.takeWhile_append_dropWhile _ (· != '.') text
  cases behind : text.dropWhile (· != '.') with
  | nil =>
      rw [behind, List.append_nil] at parts
      rw [parts] at whole
      exact .whole whole
  | cons c rest =>
      have point : c = '.' := by
        have stops := List.head?_dropWhile_not (· != '.') text
        rw [behind] at stops
        simpa using stops
      subst point
      rw [← parts, behind]
      exact .pointed whole (fraction rest behind)

/-- The check for a numeral tells its shape. -/
theorem isNumeral_iff {text : List Char} : isNumeral text = true ↔ IsSigned text := by
  constructor
  · intro numeral
    rw [isNumeral, Numeral.cut.eq_def] at numeral
    split at numeral
    rename_i negative unsigned parts
    have shape : IsUnsigned unsigned := by
      refine isUnsigned_of_parts ?_ ?_
      · split at numeral
        all_goals
          rw [Numeral.isProper, Bool.and_eq_true] at numeral
          exact numeral.1
      · intro rest behind
        rw [behind, Numeral.isProper, Bool.and_eq_true] at numeral
        exact numeral.2
    split at parts
    · cases parts
      exact .negative shape
    · cases parts
      exact .positive shape
  · intro shape
    cases shape with
    | positive shape => exact shape.isNumeral.1
    | negative shape => exact shape.isNumeral.2

/-- To read a numeral never fails: it has no exponent, so that its value is the one of its digits. -/
theorem scientific?_of_isNumeral {text : List Char} (numeral : isNumeral text = true) :
    scientific? text = some ((Numeral.cut text).value 0) := by
  have mantissa : ∀ c ∈ text, (!isExponentMark c) = true := by
    intro c member
    rcases (isNumeral_iff.mp numeral).mem member with digit | rfl | rfl
    · rw [not_isExponentMark_of_isDigit digit]
      rfl
    · rfl
    · rfl
  have taken := @List.takeWhile_append_of_pos _ _ _ [] mantissa
  have dropped := @List.dropWhile_append_of_pos _ _ _ [] mantissa
  rw [List.append_nil] at taken dropped
  rw [scientific?, taken, dropped, List.takeWhile_nil, List.append_nil, List.dropWhile_nil]
  simp only [show (Numeral.cut text).isProper = true from numeral, ↓reduceIte, exponent?]
  rfl

end CommandScript.Decimal
