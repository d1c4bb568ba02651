import CommandScript.Decimal.Layout
import CommandScript.Decimal.Numeral
import Mathlib.Data.List.TakeWhile

/-!
# The shape of a number that is written out

A finite number is written, as programs write it, with digits, at most one point between digits, and
a sign in front if it is negative. The reader takes such a text for a numeral.
-/

namespace CommandScript.Decimal

/-! ## Numerals -/

/-- A text of digits has at least one. -/
theorem isDigits_iff {text : List Char} :
    isDigits text = true ↔ text ≠ [] ∧ ∀ c ∈ text, c.isDigit = true := by
  simp [isDigits]

/-- Digits may be followed by more digits. -/
theorem isDigits_append {front back : List Char} (isFront : isDigits front = true)
    (digits : ∀ c ∈ back, c.isDigit = true) : isDigits (front ++ back) = true := by
  rw [isDigits_iff] at isFront ⊢
  refine ⟨List.append_ne_nil_of_left_ne_nil isFront.1 back, fun c member => ?_⟩
  rcases List.mem_append.mp member with inFront | inBack
  · exact isFront.2 c inFront
  · exact digits c inBack

/-- Digits, or digits with a point between them. -/
inductive IsUnsigned : List Char → Prop where
  | whole {digits : List Char} (proper : isDigits digits = true) : IsUnsigned digits
  | pointed {whole fraction : List Char} (properWhole : isDigits whole = true)
    (properFraction : isDigits fraction = true) : IsUnsigned (whole ++ '.' :: fraction)

/-- An unsigned decimal has digits and a point only. -/
theorem IsUnsigned.mem {text : List Char} (shape : IsUnsigned text) {c : Char} (member : c ∈ text) :
    c.isDigit = true ∨ c = '.' := by
  cases shape with
  | whole proper => exact .inl ((isDigits_iff.mp proper).2 c member)
  | pointed proper properFraction =>
      rcases List.mem_append.mp member with inWhole | inRest
      · exact .inl ((isDigits_iff.mp proper).2 c inWhole)
      rcases List.mem_cons.mp inRest with point | inFraction
      · exact .inr point
      · exact .inl ((isDigits_iff.mp properFraction).2 c inFraction)

theorem IsUnsigned.ne_nil {text : List Char} (shape : IsUnsigned text) : text ≠ [] := by
  cases shape with
  | whole proper => exact (isDigits_iff.mp proper).1
  | pointed proper properFraction =>
      exact List.append_ne_nil_of_right_ne_nil _ (List.cons_ne_nil _ _)

/-- The point is not a digit. -/
theorem ne_point_of_isDigit {c : Char} (digit : c.isDigit = true) : (c != '.') = true := by
  rw [bne_iff_ne]
  rintro rfl
  exact absurd digit (by decide)

/-- Digits are cut off where a point stands or the text ends. -/
theorem takeWhile_digits {digits : List Char} (proper : isDigits digits = true)
    {following : List Char} (stops : ∀ c ∈ following.head?, (c != '.') = false) :
    (digits ++ following).takeWhile (· != '.') = digits ∧
      (digits ++ following).dropWhile (· != '.') = following := by
  have passes : ∀ c ∈ digits, (c != '.') = true := fun c member =>
    ne_point_of_isDigit ((isDigits_iff.mp proper).2 c member)
  rw [List.takeWhile_append_of_pos passes, List.dropWhile_append_of_pos passes]
  cases following with
  | nil => simp
  | cons c rest => simp [stops c rfl]

/-- What begins with a digit does not begin with a minus sign. -/
theorem head_ne_minus {digits : List Char} (proper : isDigits digits = true)
    (following : List Char) :
    ∃ c rest, digits ++ following = c :: rest ∧ c ≠ '-' := by
  obtain ⟨filled, digit⟩ := isDigits_iff.mp proper
  cases digits with
  | nil => exact absurd rfl filled
  | cons c rest =>
      refine ⟨c, rest ++ following, rfl, ?_⟩
      rintro rfl
      exact absurd (digit '-' (List.mem_cons_self ..)) (by decide)

/-- A text of digits and a point is cut at the point, behind a sign as well. -/
theorem cut_unsigned {digits following : List Char} (proper : isDigits digits = true)
    (stops : ∀ c ∈ following.head?, (c != '.') = false) :
    Numeral.cut (digits ++ following) = ⟨false, digits, following.tail?⟩ := by
  obtain ⟨taken, dropped⟩ := takeWhile_digits proper stops
  obtain ⟨c, rest, shape, unsigned⟩ := head_ne_minus proper following
  rw [shape] at taken dropped ⊢
  cases following with
  | nil => simp [Numeral.cut, unsigned, taken, dropped]
  | cons point fraction => simp [Numeral.cut, unsigned, taken, dropped]

/-- The sign does not matter for where the text is cut. -/
theorem cut_minus {digits following : List Char} (proper : isDigits digits = true)
    (stops : ∀ c ∈ following.head?, (c != '.') = false) :
    Numeral.cut ('-' :: (digits ++ following)) = ⟨true, digits, following.tail?⟩ := by
  obtain ⟨taken, dropped⟩ := takeWhile_digits proper stops
  cases following with
  | nil =>
      rw [List.append_nil] at taken dropped ⊢
      simp [Numeral.cut, taken, dropped]
  | cons point fraction => simp [Numeral.cut, taken, dropped]

/-- A text of that shape is a numeral, with or without a sign. -/
theorem IsUnsigned.isNumeral {text : List Char} (shape : IsUnsigned text) :
    isNumeral text = true ∧ isNumeral ('-' :: text) = true := by
  cases shape with
  | whole proper =>
      have stops : ∀ c ∈ ([] : List Char).head?, (c != '.') = false := by simp
      have cut := cut_unsigned proper stops
      have signed := cut_minus proper stops
      rw [List.append_nil] at cut signed
      rw [Decimal.isNumeral, Decimal.isNumeral, cut, signed]
      simp [Numeral.isProper, proper]
  | @pointed whole fraction proper properFraction =>
      have stops : ∀ c ∈ ('.' :: fraction).head?, (c != '.') = false := by simp
      rw [Decimal.isNumeral, Decimal.isNumeral, cut_unsigned proper stops, cut_minus proper stops]
      simp [Numeral.isProper, proper, properFraction]

/-! ## Written magnitudes -/

/-- A natural number is written in digits. -/
theorem isDigits_toDigits (n : Nat) : isDigits (Nat.toDigits 10 n) = true :=
  isDigits_iff.mpr ⟨Nat.toDigits_ne_nil, fun _ member =>
    Nat.isDigit_of_mem_toDigits (by decide) (by decide) member⟩

/-- A positive number has a digit that is not zero. -/
theorem exists_ne_zero_of_toDigits {n : Nat} (pos : 0 < n) : ∃ c ∈ Nat.toDigits 10 n, c ≠ '0' := by
  by_contra zeros
  simp only [not_exists, not_and, not_not] at zeros
  have value := Nat.ofDigitChars_ten_toDigits (n := n)
  rw [List.eq_replicate_of_mem zeros, Nat.ofDigitChars_replicate_zero, Nat.mul_zero] at value
  exact absurd value (Nat.ne_of_lt pos)

/-- Without the zeros at its end a positive number still has digits. -/
theorem isDigits_stripZeros {n : Nat} (pos : 0 < n) :
    isDigits (stripZeros (Nat.toDigits 10 n)).1 = true := by
  rw [isDigits_iff]
  constructor
  · obtain ⟨c, member, nonzero⟩ := exists_ne_zero_of_toDigits pos
    simp only [stripZeros, ne_eq, List.reverse_eq_nil_iff, List.dropWhile_eq_nil_iff]
    intro zeros
    exact nonzero (by simpa using zeros c (List.mem_reverse.mpr member))
  · intro c member
    have inReversed := List.dropWhile_suffix (· == '0') |>.subset (List.mem_reverse.mp member)
    exact (isDigits_iff.mp (isDigits_toDigits n)).2 c (List.mem_reverse.mp inReversed)

/-- Written out by position, digits give an unsigned decimal. -/
theorem isUnsigned_positionalText {digits : List Char} (proper : isDigits digits = true)
    (exponent : Int) : IsUnsigned (positionalText digits exponent false) := by
  have zeros : ∀ count, ∀ c ∈ List.replicate count '0', c.isDigit = true := by
    intro count c member
    rw [List.eq_of_mem_replicate member]
    decide
  obtain ⟨filled, digit⟩ := isDigits_iff.mp proper
  rw [positionalText]
  by_cases whole : 0 ≤ exponent
  · rw [if_pos whole]
    simp only [Bool.false_eq_true, ↓reduceIte, List.append_nil]
    exact .whole (isDigits_append proper (zeros _))
  · rw [if_neg whole]
    have places : 0 < (-exponent).toNat := by omega
    by_cases inside : (-exponent).toNat < digits.length
    · simp only [inside, ↓reduceIte]
      apply IsUnsigned.pointed
      · rw [isDigits_iff]
        refine ⟨?_, fun c member => digit c (List.mem_of_mem_take member)⟩
        simp only [ne_eq, List.take_eq_nil_iff, not_or]
        exact ⟨by omega, filled⟩
      · rw [isDigits_iff]
        refine ⟨?_, fun c member => digit c (List.mem_of_mem_drop member)⟩
        simp only [ne_eq, List.drop_eq_nil_iff, not_le]
        omega
    · simp only [inside, ↓reduceIte]
      have zero : isDigits ['0'] = true := by decide
      apply IsUnsigned.pointed zero
      rw [isDigits_iff]
      refine ⟨List.append_ne_nil_of_right_ne_nil _ filled, fun c member => ?_⟩
      rcases List.mem_append.mp member with padding | own
      · exact zeros _ c padding
      · exact digit c own

/-! ## The shortest decimal is positive -/

/-- A grid point in an interval of positive numbers is positive. -/
theorem gridPoint?_pos {interval : Interval} {k : Int} {point : GridPoint}
    (found : interval.gridPoint? k = some point) (lower : 0 < interval.lower) :
    0 < point.digits := by
  have stretched : 0 < interval.lower * Nat.pow 10 (-k).toNat :=
    Nat.mul_pos lower (Nat.pow_pos (by decide))
  rw [Interval.gridPoint?] at found
  cases closed : interval.closed
  all_goals
    simp only [closed, Bool.false_eq_true, ↓reduceIte] at found
    split at found
  · cases found
    exact Nat.succ_pos _
  · split at found
    · rename_i fits
      cases found
      exact Nat.pos_of_mul_pos_right (Nat.zero_lt_of_lt (of_decide_eq_true fits))
    · cases found
  · cases found
    exact Nat.succ_pos _
  · split at found
    · rename_i fits
      cases found
      exact Nat.pos_of_mul_pos_right (stretched.trans_le (of_decide_eq_true fits))
    · cases found

/-- The decimal that the search ends with is not zero. -/
theorem search_pos {x : Dyadic} (pos : 0 < x.mantissa) (grids : Nat) (k : Int) :
    0 < (x.search grids k).digits := by
  induction grids generalizing k with
  | zero =>
      rw [Dyadic.search, Dyadic.exact]
      exact Nat.mul_pos (Nat.mul_pos pos (Nat.pow_pos (by decide))) (Nat.pow_pos (by decide))
  | succ grids ih =>
      have lower : 0 < x.interval.lower := by
        rw [Dyadic.interval]
        apply Nat.mul_pos _ (Nat.pow_pos (by decide))
        split <;> omega
      rw [Dyadic.search]
      split
      · rename_i point found
        exact gridPoint?_pos found lower
      · exact ih (k - 1)

/-- The shortest decimal of a positive number is not zero. -/
theorem shortest_pos {x : Dyadic} (pos : 0 < x.mantissa) : 0 < x.shortest.digits :=
  search_pos pos _ _

/-! ## Written numbers -/

/-- The magnitude of a finite number as programs write it. -/
theorem isUnsigned_plain_magnitude {x : Dyadic} (pos : 0 < x.mantissa) :
    IsUnsigned (Layout.plain.magnitude x) :=
  isUnsigned_positionalText (isDigits_stripZeros (shortest_pos pos)) _

/-- A finite number is written without a sign, or with one in front. -/
theorem exists_isUnsigned_plain_text {x : Float} (finite : isFinite x = true) :
    ∃ text, IsUnsigned text ∧ ((Layout.plain.text x).toList = text ∨
      (Layout.plain.text x).toList = '-' :: text) := by
  rw [isFinite] at finite
  rw [Layout.text]
  cases reads : reading x with
  | notANumber => simp [reads] at finite
  | infinite negative => simp [reads] at finite
  | finite negative magnitude =>
      refine ⟨if magnitude.mantissa = 0 then
          (if Layout.plain.keepsFraction then ['0', '.', '0'] else ['0'])
          else Layout.plain.magnitude magnitude, ?_, ?_⟩
      · by_cases zero : magnitude.mantissa = 0
        · rw [if_pos zero]
          exact .whole (by decide)
        · rw [if_neg zero]
          exact isUnsigned_plain_magnitude (Nat.pos_of_ne_zero zero)
      · dsimp only
        rw [String.toList_ofList]
        cases negative with
        | true => exact .inr rfl
        | false => exact .inl rfl

/-- The plain text of a finite number has digits, a point and a minus sign only. -/
theorem mem_plain_text {x : Float} (finite : isFinite x = true) {c : Char}
    (member : c ∈ (Layout.plain.text x).toList) : c.isDigit = true ∨ c = '.' ∨ c = '-' := by
  obtain ⟨text, shape, written | written⟩ := exists_isUnsigned_plain_text finite
  · rw [written] at member
    exact (shape.mem member).imp_right .inl
  · rw [written] at member
    rcases List.mem_cons.mp member with sign | unsigned
    · exact .inr (.inr sign)
    · exact (shape.mem unsigned).imp_right .inl

/-- The plain text of a finite number is not empty. -/
theorem plain_text_ne_nil {x : Float} (finite : isFinite x = true) :
    (Layout.plain.text x).toList ≠ [] := by
  obtain ⟨text, shape, written | written⟩ := exists_isUnsigned_plain_text finite
  · rw [written]
    exact shape.ne_nil
  · rw [written]
    exact List.cons_ne_nil _ _

/-- A finite number is written as a numeral. -/
theorem isNumeral_plain_text {x : Float} (finite : isFinite x = true) :
    isNumeral (Layout.plain.text x).toList = true := by
  obtain ⟨text, shape, written | written⟩ := exists_isUnsigned_plain_text finite
  · rw [written]
    exact shape.isNumeral.1
  · rw [written]
    exact shape.isNumeral.2

end CommandScript.Decimal
