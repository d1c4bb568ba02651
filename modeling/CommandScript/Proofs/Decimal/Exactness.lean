import CommandScript.Proofs.Decimal.Nearest
import CommandScript.Proofs.Decimal.Spelling

/-!
# Numbers are read back as they were written

The shortest decimal of a magnitude lies in the interval that rounds to it, on whichever grid it was
found. The text of a finite number spells that decimal, so reading it gives the number again.
-/

namespace CommandScript.Decimal

/-! ## The shortest decimal lies in the interval -/

/-- The value of a decimal. -/
def GridPoint.toRat (point : GridPoint) : ℚ :=
  point.digits * 10 ^ point.exponent

/-- A point of a grid lies in the interval if it does after the fractions have been cleared. -/
theorem Interval.Holds.of_grid {interval : Interval} {k : ℤ} {digits : Nat}
    (lower : interval.lower * Nat.pow 10 (-k).toNat ≤
      digits * (interval.denominator * Nat.pow 10 k.toNat))
    (upper : digits * (interval.denominator * Nat.pow 10 k.toNat) ≤
      interval.upper * Nat.pow 10 (-k).toNat)
    (closed : digits * (interval.denominator * Nat.pow 10 k.toNat) =
        interval.lower * Nat.pow 10 (-k).toNat ∨
      digits * (interval.denominator * Nat.pow 10 k.toNat) =
        interval.upper * Nat.pow 10 (-k).toNat → interval.closed = true) :
    interval.Holds (GridPoint.toRat ⟨digits, k⟩) := by
  have stretch : (0 : ℚ) < 10 ^ (-k).toNat := by positivity
  have cleared : (GridPoint.toRat ⟨digits, k⟩ * interval.denominator * 10 ^ (-k).toNat : ℚ) =
      (digits * (interval.denominator * Nat.pow 10 k.toNat) : Nat) := by
    rw [GridPoint.toRat]
    push_cast
    rw [Nat.pow_eq]
    push_cast
    rw [pow_toNat_eq (by norm_num) k]
    ring
  have scaled (bound : Nat) : ((bound * Nat.pow 10 (-k).toNat : Nat) : ℚ) =
      bound * 10 ^ (-k).toNat := by
    rw [Nat.cast_mul, Nat.pow_eq, Nat.cast_pow, Nat.cast_ofNat]
  refine ⟨?_, ?_, fun ends => closed (ends.imp (fun low => ?_) fun high => ?_)⟩
  · rw [← mul_le_mul_iff_left₀ stretch, cleared, ← scaled]
    exact_mod_cast lower
  · rw [← mul_le_mul_iff_left₀ stretch, cleared, ← scaled]
    exact_mod_cast upper
  · rw [← mul_left_inj' stretch.ne', cleared, ← scaled] at low
    exact_mod_cast low
  · rw [← mul_left_inj' stretch.ne', cleared, ← scaled] at high
    exact_mod_cast high

/-- What stands for the interval on a grid lies in it. -/
theorem Interval.holds_gridPoint {interval : Interval} {k : ℤ} {point : GridPoint}
    (found : interval.gridPoint? k = some point) (below : interval.lower < interval.middle)
    (above : interval.middle < interval.upper) (pos : 0 < interval.denominator) :
    interval.Holds point.toRat := by
  have stretch : 0 < Nat.pow 10 (-k).toNat := Nat.pow_pos (by decide)
  have unit : 0 < interval.denominator * Nat.pow 10 k.toNat :=
    Nat.mul_pos pos (Nat.pow_pos (by decide))
  have least := Nat.mul_lt_mul_of_pos_right below stretch
  have greatest := Nat.mul_lt_mul_of_pos_right above stretch
  have down := Nat.div_mul_le_self (interval.middle * Nat.pow 10 (-k).toNat)
    (interval.denominator * Nat.pow 10 k.toNat)
  have up := @Nat.lt_div_mul_add (interval.middle * Nat.pow 10 (-k).toNat) _ unit
  rw [← Nat.add_one_mul] at up
  rw [Interval.gridPoint?] at found
  generalize interval.middle * Nat.pow 10 (-k).toNat /
    (interval.denominator * Nat.pow 10 k.toNat) = near at *
  -- the multiple above is checked against the upper end only, the one below against the lower end
  have holdsUp (fits : (near + 1) * (interval.denominator * Nat.pow 10 k.toNat) ≤
        interval.upper * Nat.pow 10 (-k).toNat)
      (closed : (near + 1) * (interval.denominator * Nat.pow 10 k.toNat) =
        interval.upper * Nat.pow 10 (-k).toNat → interval.closed = true) :
      interval.Holds (GridPoint.toRat ⟨near + 1, k⟩) :=
    .of_grid (least.trans up).le fits fun ends => ends.elim
      (fun low => absurd low (least.trans up).ne') closed
  have holdsDown (fits : interval.lower * Nat.pow 10 (-k).toNat ≤
        near * (interval.denominator * Nat.pow 10 k.toNat))
      (closed : near * (interval.denominator * Nat.pow 10 k.toNat) =
        interval.lower * Nat.pow 10 (-k).toNat → interval.closed = true) :
      interval.Holds (GridPoint.toRat ⟨near, k⟩) :=
    .of_grid fits (down.trans_lt greatest).le fun ends => ends.elim closed
      fun high => absurd high (down.trans_lt greatest).ne
  cases closed : interval.closed
  all_goals
    simp only [closed, Bool.false_eq_true, ↓reduceIte] at found
    split at found
  · rename_i fits
    cases found
    have less := of_decide_eq_true (Bool.and_eq_true_iff.mp fits).1
    exact holdsUp less.le fun same => absurd same less.ne
  · split at found
    · rename_i fits
      cases found
      have less := of_decide_eq_true fits
      exact holdsDown less.le fun same => absurd same less.ne'
    · cases found
  · rename_i fits
    cases found
    exact holdsUp (of_decide_eq_true (Bool.and_eq_true_iff.mp fits).1) fun _ => closed
  · split at found
    · rename_i fits
      cases found
      exact holdsDown (of_decide_eq_true fits) fun _ => closed
    · cases found

variable {x : Dyadic}

/-- The number lies strictly inside the interval of what is rounded to it. -/
theorem Dyadic.interval_bounds (pos : 0 < x.mantissa) :
    x.interval.lower < x.interval.middle ∧ x.interval.middle < x.interval.upper ∧
      0 < x.interval.denominator := by
  have scale : 0 < Nat.pow 2 (x.exponent - 2).toNat := Nat.pow_pos (by decide)
  refine ⟨Nat.mul_lt_mul_of_pos_right ?_ scale, Nat.mul_lt_mul_of_pos_right (by omega) scale,
    Nat.pow_pos (by decide)⟩
  split <;> omega

/-- The middle of the interval is the magnitude itself. -/
theorem Dyadic.interval_middle : x.toRat * x.interval.denominator = x.interval.middle := by
  rw [toRat]
  change (x.mantissa * 2 ^ x.exponent * (Nat.pow 2 (2 - x.exponent).toNat : Nat) : ℚ) =
    (4 * x.mantissa * Nat.pow 2 (x.exponent - 2).toNat : Nat)
  have scale := pow_toNat_eq two_pos (2 - x.exponent)
  rw [neg_sub] at scale
  rw [Nat.pow_eq, Nat.pow_eq]
  push_cast
  rw [scale, zpow_sub₀ (by norm_num)]
  have positive := two_zpow_pos x.exponent
  field_simp
  norm_num

/-- The decimal that equals the magnitude. -/
theorem Dyadic.toRat_exact : x.exact.toRat = x.toRat := by
  rw [exact, GridPoint.toRat, toRat, Nat.pow_eq, Nat.pow_eq]
  push_cast
  rcases le_total 0 x.exponent with up | down
  · rw [min_eq_right up, show (-x.exponent).toNat = 0 by omega, pow_zero, mul_one, zpow_zero,
      mul_one, ← zpow_natCast, Int.toNat_of_nonneg up]
  · rw [min_eq_left down, show x.exponent.toNat = 0 by omega, pow_zero, mul_one, ← zpow_natCast,
      Int.toNat_of_nonneg (by omega), mul_assoc, show (10 : ℚ) = 5 * 2 by norm_num,
      mul_zpow, ← mul_assoc (5 ^ (-x.exponent)), ← zpow_add₀ (by norm_num), neg_add_cancel,
      zpow_zero, one_mul]

/-- The exact decimal of a number lies in its interval. -/
theorem Dyadic.holds_exact (pos : 0 < x.mantissa) : x.interval.Holds x.exact.toRat := by
  obtain ⟨below, above, -⟩ := interval_bounds pos
  rw [toRat_exact]
  refine ⟨?_, ?_, ?_⟩
  all_goals rw [interval_middle]
  · exact_mod_cast below.le
  · exact_mod_cast above.le
  · rintro (low | high)
    · exact absurd (by exact_mod_cast low) below.ne'
    · exact absurd (by exact_mod_cast high) above.ne

/-- The search ends with a decimal in the interval, however few grids it may try. -/
theorem Dyadic.holds_search (pos : 0 < x.mantissa) (grids : Nat) (k : ℤ) :
    x.interval.Holds (x.search grids k).toRat := by
  obtain ⟨below, above, scale⟩ := interval_bounds pos
  induction grids generalizing k with
  | zero => exact holds_exact pos
  | succ grids ih =>
      rw [search]
      split
      · rename_i point found
        exact Interval.holds_gridPoint found below above scale
      · exact ih (k - 1)

/-- The shortest decimal of a magnitude is rounded to it. -/
theorem Dyadic.holds_shortest (pos : 0 < x.mantissa) : x.interval.Holds x.shortest.toRat :=
  holds_search pos _ _

/-! ## The decimal that a text spells -/

/-- The value of digits is what the standard library reads in them. -/
theorem digitsValue_eq (digits : List Char) : digitsValue digits = Nat.ofDigitChars 10 digits 0 :=
  rfl

/-- Digits in front weigh as many powers of ten as there are digits behind them. -/
theorem digitsValue_append (front back : List Char) :
    digitsValue (front ++ back) = digitsValue front * 10 ^ back.length + digitsValue back := by
  rw [digitsValue_eq, digitsValue_eq, digitsValue_eq, Nat.ofDigitChars_append,
    Nat.ofDigitChars_eq_ofDigitChars_zero]
  ring

/-- Zeros are worth nothing. -/
theorem digitsValue_replicate_zero (count : Nat) : digitsValue (List.replicate count '0') = 0 := by
  rw [digitsValue_eq, Nat.ofDigitChars_replicate_zero, Nat.mul_zero]

/-- A row of digits spells a number with no more digits. -/
theorem digitsValue_lt {digits : List Char} (proper : ∀ c ∈ digits, c.isDigit = true) :
    digitsValue digits < 10 ^ digits.length := by
  induction digits with
  | nil => decide
  | cons c rest ih =>
      rw [List.forall_mem_cons] at proper
      have last := ih proper.2
      have first : digitsValue [c] ≤ 9 := by
        have bound : c.toNat ≤ 57 := by
          have digit := proper.1
          rw [Char.isDigit, Bool.and_eq_true, decide_eq_true_iff, decide_eq_true_iff] at digit
          exact digit.2
        change 10 * 0 + (c.toNat - 48) ≤ 9
        omega
      rw [← List.singleton_append, digitsValue_append, List.length_append, List.length_singleton,
        Nat.pow_add, Nat.pow_one]
      have scaled := Nat.mul_le_mul_right (10 ^ rest.length) first
      omega

/-- The value of the decimal that a numeral spells, its sign left aside. -/
def Numeral.toRat (numeral : Numeral) : ℚ :=
  digitsValue (numeral.whole ++ numeral.fraction.getD []) *
    10 ^ (-((numeral.fraction.getD []).length : ℤ))

/-- A proper numeral consists of digits before and after its point. -/
theorem Numeral.digits_of_isProper {numeral : Numeral} (proper : numeral.isProper = true) :
    ∀ c ∈ numeral.whole ++ numeral.fraction.getD [], c.isDigit = true := by
  rw [isProper, Bool.and_eq_true] at proper
  rw [List.forall_mem_append]
  refine ⟨(isDigits_iff.mp proper.1).2, ?_⟩
  cases fraction : numeral.fraction with
  | none => exact List.forall_mem_nil _
  | some digits =>
      rw [fraction] at proper
      exact (isDigits_iff.mp proper.2).2

/-- A numeral whose decimal lies in the interval of a magnitude is read as its number. -/
theorem Numeral.value_of_holds {numeral : Numeral} (proper : numeral.isProper = true)
    (canonical : x.Canonical) (finite : x.exponent ≤ greatestExponent)
    (holds : x.interval.Holds numeral.toRat) :
    numeral.value 0 = canonical.toFloat numeral.negative := by
  have near := holds.near canonical.pos
  rw [toRat, ← zero_sub] at near
  exact nearest_of_near canonical finite near (digitsValue_lt (digits_of_isProper proper))
    numeral.negative

/-! ## The text of a number -/

/-- The zeros at the end are cut off and counted. -/
theorem stripZeros_append (digits : List Char) :
    (stripZeros digits).1 ++ List.replicate (stripZeros digits).2 '0' = digits := by
  have parts : (digits.reverse.dropWhile (· == '0')).reverse ++
      (digits.reverse.takeWhile (· == '0')).reverse = digits := by
    rw [← List.reverse_append, List.takeWhile_append_dropWhile, List.reverse_reverse]
  have zeros : (digits.reverse.takeWhile (· == '0')).reverse =
      List.replicate (digits.reverse.takeWhile (· == '0')).reverse.length '0' := by
    refine List.eq_replicate_of_mem fun c member => ?_
    have zero := List.mem_takeWhile_imp (List.mem_reverse.mp member)
    exact beq_iff_eq.mp zero
  have count : (stripZeros digits).2 =
      (digits.reverse.takeWhile (· == '0')).reverse.length := by
    have lengths := congrArg List.length parts
    rw [List.length_append] at lengths
    dsimp only [stripZeros]
    omega
  rw [count, ← zeros]
  exact parts

/-- The zeros that are stripped become the exponent. -/
theorem digitsValue_stripZeros (digits : List Char) :
    digitsValue digits = digitsValue (stripZeros digits).1 * 10 ^ (stripZeros digits).2 := by
  conv_lhs => rw [← stripZeros_append digits]
  rw [digitsValue_append, digitsValue_replicate_zero, List.length_replicate, Nat.add_zero]

/-- A positional text spells its digits, moved by its exponent. -/
theorem toRat_positionalText {digits : List Char} (proper : isDigits digits = true) (exponent : ℤ) :
    (Numeral.cut (positionalText digits exponent false)).toRat =
      digitsValue digits * 10 ^ exponent := by
  have nothing : ∀ c ∈ ([] : List Char).head?, (c != '.') = false := by simp
  have point (fraction : List Char) : ∀ c ∈ ('.' :: fraction).head?, (c != '.') = false := by simp
  rw [positionalText]
  by_cases whole : 0 ≤ exponent
  · have zeros : ∀ c ∈ List.replicate exponent.toNat '0', c.isDigit = true := by
      intro c member
      rw [List.eq_of_mem_replicate member]
      decide
    have cut := cut_unsigned (isDigits_append proper zeros) nothing
    rw [if_pos whole, if_neg Bool.false_ne_true, cut, Numeral.toRat]
    dsimp only [List.tail?, Option.getD_none]
    rw [List.append_nil, digitsValue_append, digitsValue_replicate_zero, List.length_replicate,
      List.length_nil, Nat.add_zero, Nat.cast_zero, neg_zero, zpow_zero, mul_one]
    conv_rhs => rw [← Int.toNat_of_nonneg whole, zpow_natCast]
    push_cast
    rfl
  · rw [if_neg whole]
    have places : (-((-exponent).toNat : ℤ)) = exponent := by omega
    by_cases inside : (-exponent).toNat < digits.length
    · have front : isDigits (digits.take (digits.length - (-exponent).toNat)) = true := by
        rw [isDigits_iff]
        refine ⟨?_, fun c member => (isDigits_iff.mp proper).2 c (List.mem_of_mem_take member)⟩
        rw [ne_eq, List.take_eq_nil_iff, not_or]
        exact ⟨by omega, (isDigits_iff.mp proper).1⟩
      simp only [inside, ↓reduceIte]
      rw [cut_unsigned front (point _), Numeral.toRat]
      dsimp only [List.tail?, Option.getD_some]
      rw [List.take_append_drop, List.length_drop,
        show digits.length - (digits.length - (-exponent).toNat) = (-exponent).toNat by omega,
        places]
    · simp only [inside, ↓reduceIte]
      have zero : isDigits ['0'] = true := by decide
      have cut := cut_unsigned zero
        (point (List.replicate ((-exponent).toNat - digits.length) '0' ++ digits))
      refine (congrArg Numeral.toRat cut).trans ?_
      rw [Numeral.toRat]
      dsimp only [List.tail?, Option.getD_some]
      rw [List.length_append, List.length_replicate, Nat.sub_add_cancel (by omega), places,
        ← List.append_assoc, digitsValue_append, List.singleton_append, ← List.replicate_succ,
        digitsValue_replicate_zero, Nat.zero_mul, Nat.zero_add]

/-- The text of a positive magnitude spells its shortest decimal. -/
theorem toRat_plain_magnitude (pos : 0 < x.mantissa) :
    (Numeral.cut (Layout.plain.magnitude x)).toRat = x.shortest.toRat := by
  have digits := digitsValue_stripZeros (Nat.toDigits 10 x.shortest.digits)
  have value : digitsValue (Nat.toDigits 10 x.shortest.digits) = x.shortest.digits :=
    Nat.ofDigitChars_ten_toDigits
  rw [value] at digits
  have magnitude : Layout.plain.magnitude x =
      positionalText (stripZeros (Nat.toDigits 10 x.shortest.digits)).1
        (x.shortest.exponent + (stripZeros (Nat.toDigits 10 x.shortest.digits)).2) false := rfl
  rw [magnitude, toRat_positionalText (isDigits_stripZeros (shortest_pos pos)), GridPoint.toRat]
  conv_rhs => rw [digits]
  rw [zpow_add₀ (by norm_num), zpow_natCast]
  push_cast
  ring

/-- A sign does not change where a text is cut. -/
theorem IsUnsigned.cut_eq {text : List Char} (shape : IsUnsigned text) (negative : Bool) :
    Numeral.cut (if negative then '-' :: text else text) =
      ⟨negative, (Numeral.cut text).whole, (Numeral.cut text).fraction⟩ := by
  have cuts : ∃ whole fraction, Numeral.cut text = ⟨false, whole, fraction⟩ ∧
      Numeral.cut ('-' :: text) = ⟨true, whole, fraction⟩ := by
    cases shape with
    | whole proper =>
        have nothing : ∀ c ∈ ([] : List Char).head?, (c != '.') = false := by simp
        have cut := cut_unsigned proper nothing
        have signed := cut_minus proper nothing
        rw [List.append_nil] at cut signed
        exact ⟨_, _, cut, signed⟩
    | @pointed whole fraction proper properFraction =>
        have point : ∀ c ∈ ('.' :: fraction).head?, (c != '.') = false := by simp
        exact ⟨_, _, cut_unsigned proper point, cut_minus proper point⟩
  obtain ⟨whole, fraction, cut, signed⟩ := cuts
  rw [cut]
  cases negative with
  | true => exact signed
  | false => exact cut

/-- The text of a finite number other than zero is read as that number. -/
theorem value_plain_text {f : Float} {negative : Bool} (read : reading f = .finite negative x)
    (pos : 0 < x.mantissa) :
    (Numeral.cut (if negative then '-' :: Layout.plain.magnitude x
      else Layout.plain.magnitude x)).value 0 = f := by
  obtain ⟨canonical, finite⟩ := (bits_of_reading read).2 pos
  have shape := isUnsigned_plain_magnitude pos
  have proper : (Numeral.cut (Layout.plain.magnitude x)).isProper = true := shape.isNumeral.1
  have holds := Dyadic.holds_shortest pos
  rw [← toRat_plain_magnitude pos] at holds
  rw [shape.cut_eq negative, eq_toFloat_of_reading read canonical]
  exact @Numeral.value_of_holds _ ⟨negative, _, _⟩ proper canonical finite holds

/-- The two zeros are written with and without a sign. -/
theorem value_zero_text {f : Float} {negative : Bool} (read : reading f = .finite negative x)
    (zero : x.mantissa = 0) :
    (Numeral.cut (if negative then ['-', '0'] else ['0'])).value 0 = f := by
  have bits := (bits_of_reading read).1
  have none : x.fields = (0, 0) := by
    rw [Dyadic.fields, zero, if_neg (by decide)]
  rw [none] at bits
  apply eq_of_toBits
  rw [bits]
  cases negative with
  | true => decide +kernel
  | false => decide +kernel

/-- A finite number is read back as it was written. -/
theorem scientific?_plain_text {f : Float} (finite : isFinite f = true) :
    scientific? (Layout.plain.text f).toList = some f := by
  rw [scientific?_of_isNumeral (isNumeral_plain_text finite), Option.some.injEq]
  rw [isFinite] at finite
  rw [Layout.text]
  cases read : reading f with
  | notANumber =>
      rw [read] at finite
      cases finite
  | infinite negative =>
      rw [read] at finite
      cases finite
  | finite negative magnitude =>
      dsimp only
      rw [String.toList_ofList]
      by_cases zero : magnitude.mantissa = 0
      · rw [if_pos zero]
        exact value_zero_text read zero
      · rw [if_neg zero]
        exact value_plain_text read (Nat.pos_of_ne_zero zero)

end CommandScript.Decimal
