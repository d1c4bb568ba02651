import CommandScript.Decimal.Numeral
import CommandScript.Proofs.Decimal.Packing

/-!
# Reading a decimal

The number read from a decimal is the one whose interval the decimal lies in. Small decimals are
the product or the quotient of two numbers that are exact, all others are rounded from their exact
value; either way there is one rounding.
-/

namespace CommandScript.Decimal

open Float.Model Float.Model.UnpackedFloat

variable {x : Dyadic} {v : ℚ}

/-! ## Operations with one rounding -/

/-- The value is rounded once, or vanishes. -/
inductive Rounded (v : ℚ) : UnpackedFloat → Prop where
  | once {m : Nat} {e : ℤ} {accuracy : Accuracy}
      (measures : Measures (.ofMantissaAndAccuracy m accuracy) v e)
      (fine : e ≤ Format.binary64.targetExponent (totalExponent m e)) :
      Rounded v (roundWithAccuracy Format.binary64 .positive m e accuracy)
  | vanishing (tiny : v < 2 ^ (-1075 : ℤ)) : Rounded v (.zero .positive)

/-- What is near a magnitude of the format is not closer to zero than half the least number. -/
theorem Dyadic.Near.pow_le (near : x.Near v) (canonical : x.Canonical) :
    (2 : ℚ) ^ (-1075 : ℤ) ≤ v := by
  have one : (2 : ℚ) ^ (0 : ℤ) ≤ v * 2 ^ (1 - x.exponent) := by
    have pos : (1 : ℚ) ≤ x.mantissa := by exact_mod_cast canonical.pos
    have low := near.low
    rw [zpow_zero]
    linarith
  have least := canonical.least
  rw [leastExponent] at least
  exact (zpow_le_zpow_right₀ one_le_two (by omega)).trans (le_scaled_iff.mp one)

/-- What is near a magnitude of the format is rounded to it. -/
theorem Rounded.eq_of_near {u : UnpackedFloat} (rounded : Rounded v u) (canonical : x.Canonical)
    (near : x.Near v) : u = .finite .positive x.mantissa x.exponent canonical.pos := by
  cases rounded with
  | once measures fine => exact roundWithAccuracy_of_near canonical near measures fine .positive
  | vanishing tiny => exact absurd (near.pow_le canonical) tiny.not_ge

/-- A mantissa that is long enough is not shifted to the left. -/
theorem le_targetExponent_of_long {m : Nat} (long : 2 ^ 52 ≤ m) (e : ℤ) :
    e ≤ Format.binary64.targetExponent (totalExponent m e) := by
  have lead := (Nat.le_log2 (by omega)).mpr long
  rw [targetExponent_eq, totalExponent]
  omega

/-- The product of two numbers is rounded once. -/
theorem rounded_mul {m n : Nat} {e f : ℤ} (posM : 0 < m) (posN : 0 < n) (long : 2 ^ 52 ≤ m) :
    Rounded (m * 2 ^ e * (n * 2 ^ f)) (UnpackedFloat.mul Format.binary64
      (.finite .positive m e posM) (.finite .positive n f posN)) := by
  have value : (m * 2 ^ e * (n * 2 ^ f) : ℚ) = (m * n : Nat) * 2 ^ (e + f) := by
    rw [zpow_add₀ (by norm_num)]
    push_cast
    ring
  rw [value]
  exact .once (.exact (m * n) (e + f))
    (le_targetExponent_of_long (long.trans (Nat.le_mul_of_pos_right m posN)) _)

/-- The dividend is shifted so far that the quotient is long enough. -/
theorem long_quotient {m n shift : Nat} (posM : 0 < m) (posN : 0 < n)
    (far : n.log2 + 53 ≤ m.log2 + shift) : 2 ^ 52 ≤ m <<< shift / n := by
  rw [Nat.le_div_iff_mul_le posN, Nat.shiftLeft_eq]
  have leadM := Nat.log2_self_le posM.ne'
  have leadN := @Nat.lt_log2_self n
  calc 2 ^ 52 * n ≤ 2 ^ 52 * 2 ^ (n.log2 + 1) := Nat.mul_le_mul_left _ leadN.le
    _ = 2 ^ (n.log2 + 53) := by rw [← Nat.pow_add]; congr 1; omega
    _ ≤ 2 ^ (m.log2 + shift) := Nat.pow_le_pow_right (by decide) far
    _ = 2 ^ m.log2 * 2 ^ shift := Nat.pow_add ..
    _ ≤ m * 2 ^ shift := Nat.mul_le_mul_right _ leadM

/-- The quotient of two numbers is rounded once. -/
theorem rounded_div {m n : Nat} {e f : ℤ} (posM : 0 < m) (posN : 0 < n) :
    Rounded (m * 2 ^ e / (n * 2 ^ f)) (UnpackedFloat.div Format.binary64
      (.finite .positive m e posM) (.finite .positive n f posN)) := by
  obtain ⟨target, chosen⟩ : ∃ target, target = min (e - f) (Format.binary64.targetExponent
      (totalExponent m e - totalExponent n f)) := ⟨_, rfl⟩
  have value : (m * 2 ^ e / (n * 2 ^ f) : ℚ) =
      (m <<< (e - f - target).toNat : Nat) / n * 2 ^ target := by
    have shift : ((e - f - target).toNat : ℤ) = e - f - target := by omega
    rw [Nat.shiftLeft_eq, Nat.cast_mul, Nat.cast_pow, ← zpow_natCast, shift,
      zpow_sub₀ (by norm_num), zpow_sub₀ (by norm_num)]
    have posF := two_zpow_pos f
    have posT := two_zpow_pos target
    push_cast
    field_simp
  have fine : target ≤ Format.binary64.targetExponent
      (totalExponent (m <<< (e - f - target).toNat / n) target) := by
    rw [targetExponent_eq, totalExponent, totalExponent] at chosen
    by_cases small : target ≤ -1074
    · rw [targetExponent_eq]
      exact small.trans (le_max_right _ _)
    · exact le_targetExponent_of_long (long_quotient posM posN (by omega)) target
  have rounded := Rounded.once (.quotient _ posN target) fine
  rw [← value] at rounded
  rw [chosen] at rounded
  exact rounded

/-! ## Exact numbers -/

/-- A number is nearest to its own value. -/
theorem Dyadic.near_toRat (x : Dyadic) : x.Near x.toRat := by
  have value : x.toRat * 2 ^ (1 - x.exponent) = 2 * x.mantissa :=
    units_scaled x.mantissa x.exponent
  refine ⟨?_, ?_, ?_, fun _ _ => ?_⟩
  all_goals rw [value]
  · linarith
  · linarith
  · rintro (low | high)
    · linarith
    · linarith
  · linarith

/-- The magnitude of a whole number that a mantissa has room for. -/
def wholeDyadic (n : Nat) : Dyadic :=
  ⟨n <<< (52 - n.log2), (n.log2 : ℤ) - 52⟩

/-- A whole number is shifted until its mantissa has 53 bits. -/
theorem long_wholeDyadic {n : Nat} (pos : 0 < n) (short : n < 2 ^ 53) :
    2 ^ 52 ≤ (wholeDyadic n).mantissa ∧ (wholeDyadic n).mantissa < 2 ^ 53 := by
  have lead : n.log2 < 53 := (Nat.log2_lt pos.ne').mpr short
  have low := Nat.log2_self_le pos.ne'
  have high := @Nat.lt_log2_self n
  rw [wholeDyadic, Nat.shiftLeft_eq]
  constructor
  · calc 2 ^ 52 = 2 ^ n.log2 * 2 ^ (52 - n.log2) := by rw [← Nat.pow_add]; congr 1; omega
      _ ≤ n * 2 ^ (52 - n.log2) := Nat.mul_le_mul_right _ low
  · calc n * 2 ^ (52 - n.log2) < 2 ^ (n.log2 + 1) * 2 ^ (52 - n.log2) :=
          Nat.mul_lt_mul_of_pos_right high (by positivity)
      _ = 2 ^ 53 := by rw [← Nat.pow_add]; congr 1; omega

/-- The shifted number is in canonical form and not too great. -/
theorem canonical_wholeDyadic {n : Nat} (pos : 0 < n) (short : n < 2 ^ 53) :
    (wholeDyadic n).Canonical ∧ (wholeDyadic n).exponent ≤ greatestExponent := by
  obtain ⟨long, less⟩ := long_wholeDyadic pos short
  have lead : n.log2 < 53 := (Nat.log2_lt pos.ne').mpr short
  refine ⟨⟨by omega, less, ?_, .inr long⟩, ?_⟩
  · dsimp only [wholeDyadic, leastExponent]
    omega
  · dsimp only [wholeDyadic, greatestExponent]
    omega

/-- The shift keeps the number. -/
theorem toRat_wholeDyadic {n : Nat} (short : n < 2 ^ 53) (pos : 0 < n) :
    (wholeDyadic n).toRat = n := by
  have lead : n.log2 < 53 := (Nat.log2_lt pos.ne').mpr short
  have shift : ((52 - n.log2 : Nat) : ℤ) = -((n.log2 : ℤ) - 52) := by omega
  rw [Dyadic.toRat, wholeDyadic, Nat.shiftLeft_eq, Nat.cast_mul, Nat.cast_pow, ← zpow_natCast,
    shift]
  have posP := two_zpow_pos ((n.log2 : ℤ) - 52)
  rw [zpow_neg]
  push_cast
  field_simp

/-- A magnitude of the format is not changed by rounding. -/
theorem Dyadic.Canonical.roundWithAccuracy_self (canonical : x.Canonical) (sign : Sign) :
    roundWithAccuracy Format.binary64 sign x.mantissa x.exponent .exact =
      .finite sign x.mantissa x.exponent canonical.pos :=
  roundWithAccuracy_of_near canonical x.near_toRat (.exact x.mantissa x.exponent)
    canonical.targetExponent.ge sign

/-- The whole numbers below 2^53 are made by that shift. -/
theorem ofNat_eq {n : Nat} (pos : 0 < n) (short : n < 2 ^ 53) :
    UnpackedFloat.ofNat Format.binary64 n = .finite .positive (wholeDyadic n).mantissa
      (wholeDyadic n).exponent (canonical_wholeDyadic pos short).1.pos := by
  have lead : n.log2 < 53 := (Nat.log2_lt pos.ne').mpr short
  have target : Format.binary64.targetExponent (totalExponent n 0) = (n.log2 : ℤ) - 52 := by
    rw [targetExponent_eq, totalExponent]
    omega
  have decreased : decreaseExponent n 0 ((n.log2 : ℤ) - 52) =
      ((wholeDyadic n).mantissa, (wholeDyadic n).exponent) := by
    have shift : (0 - ((n.log2 : ℤ) - 52)).toNat = 52 - n.log2 := by omega
    rw [decreaseExponent, shift]
    refine Prod.ext rfl ?_
    dsimp only [wholeDyadic]
    omega
  rw [UnpackedFloat.ofNat, UnpackedFloat.ofInt, UnpackedFloat.normalize,
    Int.compare_eq_gt.mpr (by omega)]
  dsimp only
  rw [Int.toNat_natCast, UnpackedFloat.round, target, decreased]
  exact (canonical_wholeDyadic pos short).1.roundWithAccuracy_self .positive

/-- A whole number that a mantissa has room for is exact. -/
theorem unpack_toFloat {n : Nat} (pos : 0 < n) (short : n < 2 ^ 53) :
    n.toUInt64.toFloat.toModel.unpack = .finite .positive (wholeDyadic n).mantissa
      (wholeDyadic n).exponent (canonical_wholeDyadic pos short).1.pos := by
  have same : n.toUInt64.toNat = n := UInt64.toNat_ofNat_of_lt (short.trans (by decide))
  change (Float.Model.pack (UnpackedFloat.ofNat Format.binary64 n.toUInt64.toNat)).unpack = _
  rw [same, ofNat_eq pos short]
  exact (canonical_wholeDyadic pos short).1.unpack_pack (canonical_wholeDyadic pos short).2 _

/-- The number is a power of ten. -/
def isPowerOfTen (k : Nat) : UnpackedFloat → Bool
  | .finite .positive m e _ => m * 2 ^ e.toNat == 10 ^ k * 2 ^ (-e).toNat
  | _ => false

/-- The table of powers of ten holds what it should. -/
theorem isPowerOfTen_table : ∀ k : Fin 23,
    isPowerOfTen k Float.exactlyRepresentablePowersOfTen[k].toModel.unpack = true := by
  decide +kernel

/-- An entry that passes the check is a power of ten. -/
theorem toRat_of_isPowerOfTen {k : Nat} {u : UnpackedFloat} (power : isPowerOfTen k u = true) :
    ∃ m e pos, u = .finite .positive m e pos ∧ (m * 2 ^ e : ℚ) = 10 ^ k := by
  rw [isPowerOfTen.eq_def] at power
  split at power
  · rename_i m e pos
    refine ⟨m, e, pos, rfl, ?_⟩
    rw [beq_iff_eq] at power
    have powerQ : (m * 2 ^ e.toNat : ℚ) = 10 ^ k * 2 ^ (-e).toNat := by exact_mod_cast power
    have positive : (2 ^ (-e).toNat : ℚ) ≠ 0 := by positivity
    rw [pow_toNat_eq two_pos e, mul_left_comm, mul_comm] at powerQ
    exact mul_right_cancel₀ positive powerQ
  · cases power

/-! ## Decimals -/

/-- What is near a finite number is below the next power of two. -/
theorem Dyadic.Near.lt_pow (near : x.Near v) (canonical : x.Canonical)
    (finite : x.exponent ≤ greatestExponent) : v < (2 : ℚ) ^ (1024 : ℤ) := by
  rw [greatestExponent] at finite
  exact (near.lt_zpow canonical).trans_le (zpow_le_zpow_right₀ one_le_two (by omega))

/-- Ten is above the third power of two. -/
theorem le_ten_zpow {e : ℤ} (up : 0 ≤ e) : (2 : ℚ) ^ (3 * e) ≤ 10 ^ e := by
  rw [zpow_mul]
  exact zpow_le_zpow_left₀ up (by norm_num) (by norm_num)

/-- Below one, powers of ten are smaller than those of eight. -/
theorem ten_zpow_le {e : ℤ} (down : e ≤ 0) : (10 : ℚ) ^ e ≤ 2 ^ (3 * e) := by
  have inverse := le_ten_zpow (neg_nonneg.mpr down)
  rw [mul_neg, zpow_neg, zpow_neg] at inverse
  exact (inv_le_inv₀ (two_zpow_pos _) (zpow_pos (by norm_num) _)).mp inverse

/-- A small decimal is read as a product or a quotient of exact numbers. -/
theorem rounded_small {digits power : Nat} (down : Bool) (pos : 0 < digits)
    (small : digits < 2 ^ 53 ∧ power ≤ 22) :
    ∃ u, Rounded (if down then (digits : ℚ) / 10 ^ power else digits * 10 ^ power) u ∧
      Float.ofScientific digits down power = .ofModel (.pack u) := by
  obtain ⟨m, e, posM, unpacked, value⟩ :=
    toRat_of_isPowerOfTen (isPowerOfTen_table ⟨power, by omega⟩)
  have whole := toRat_wholeDyadic small.1 pos
  rw [Dyadic.toRat] at whole
  have exactly := unpack_toFloat pos small.1
  rw [Float.ofScientific, dif_pos small, ← whole, ← value]
  cases down with
  | true =>
      have rounded := @rounded_div _ _ (wholeDyadic digits).exponent e
        (canonical_wholeDyadic pos small.1).1.pos posM
      rw [← exactly, ← unpacked] at rounded
      exact ⟨_, rounded, rfl⟩
  | false =>
      have rounded := @rounded_mul _ _ (wholeDyadic digits).exponent e
        (canonical_wholeDyadic pos small.1).1.pos posM (long_wholeDyadic pos small.1).1
      rw [← exactly, ← unpacked] at rounded
      exact ⟨_, rounded, rfl⟩

/-- Any other decimal is rounded from its exact value. -/
theorem rounded_large {digits : Nat} {exponent : ℤ} (pos : 0 < digits) (bounded : exponent ≤ 400) :
    Rounded (digits * 10 ^ exponent)
      (UnpackedFloat.ofScientific Format.binary64 digits exponent) := by
  have noOverflow : ¬ exponent > 2 ^ 11 := by omega
  rw [UnpackedFloat.ofScientific, dif_neg pos.ne', if_neg noOverflow]
  by_cases far : exponent < -((2 ^ 11 : ℤ) + digits.log2)
  · have lead : (digits : ℚ) < 2 ^ ((digits.log2 : ℤ) + 1) := by
      exact_mod_cast @Nat.lt_log2_self digits
    have less : (digits * 10 ^ exponent : ℚ) < 2 ^ (((digits.log2 : ℤ) + 1) + 3 * exponent) := by
      rw [zpow_add₀ (by norm_num)]
      exact mul_lt_mul lead (ten_zpow_le (by omega)) (zpow_pos (by norm_num) _)
        (two_zpow_pos _).le
    rw [if_pos far]
    exact .vanishing (less.trans_le (zpow_le_zpow_right₀ one_le_two (by omega)))
  rw [if_neg far]
  by_cases up : 0 ≤ exponent
  · have value : ((digits <<< 53 : Nat) * 2 ^ (-((53 : Nat) : ℤ)) *
        ((10 ^ exponent.toNat : Nat) * 2 ^ (0 : ℤ)) : ℚ) = digits * 10 ^ exponent := by
      have places : (10 : ℚ) ^ exponent = 10 ^ exponent.toNat := by
        rw [← zpow_natCast, Int.toNat_of_nonneg up]
      rw [Nat.shiftLeft_eq, Nat.cast_mul, Nat.cast_pow, Nat.cast_pow, places, zpow_neg,
        zpow_natCast, zpow_zero, mul_one, Nat.cast_ofNat, Nat.cast_ofNat,
        mul_inv_cancel_right₀ (by positivity)]
    have long : 2 ^ 52 ≤ digits <<< 53 := by
      rw [Nat.shiftLeft_eq]
      omega
    rw [← value, if_pos up]
    exact rounded_mul _ _ long
  · have value : (digits * 2 ^ (0 : ℤ) / ((10 ^ (-exponent).toNat : Nat) * 2 ^ (0 : ℤ)) : ℚ) =
        digits * 10 ^ exponent := by
      have places : (10 : ℚ) ^ exponent = (10 ^ (-exponent).toNat)⁻¹ := by
        rw [← zpow_natCast, Int.toNat_of_nonneg (by omega), zpow_neg, inv_inv]
      rw [places, zpow_zero, mul_one, mul_one, div_eq_mul_inv]
      push_cast
      rfl
    rw [← value, if_neg up]
    exact rounded_div _ _

/-- A decimal that is not too great for a computation is rounded once. -/
theorem rounded_ofScientific {digits : Nat} {exponent : ℤ} (pos : 0 < digits)
    (bounded : exponent ≤ 400) :
    ∃ u, Rounded (digits * 10 ^ exponent) u ∧
      Float.ofScientific digits (exponent < 0) exponent.natAbs = .ofModel (.pack u) := by
  by_cases small : digits < 2 ^ 53 ∧ exponent.natAbs ≤ 22
  · have value : (if decide (exponent < 0) = true then (digits : ℚ) / 10 ^ exponent.natAbs
        else digits * 10 ^ exponent.natAbs) = digits * 10 ^ exponent := by
      rcases lt_or_ge exponent 0 with down | up
      · have power : exponent = -(exponent.natAbs : ℤ) := by omega
        rw [if_pos (decide_eq_true down), div_eq_mul_inv]
        conv_rhs => rw [power, zpow_neg, zpow_natCast]
      · have power : exponent = (exponent.natAbs : ℤ) := by omega
        rw [if_neg (by simpa using up)]
        conv_rhs => rw [power, zpow_natCast]
    rw [← value]
    exact rounded_small _ pos small
  · have same : (if decide (exponent < 0) = true then Int.negOfNat exponent.natAbs
        else Int.ofNat exponent.natAbs) = exponent := by
      rcases lt_or_ge exponent 0 with down | up
      · rw [if_pos (decide_eq_true down), Int.negOfNat_eq, Int.ofNat_eq_natCast]
        omega
      · rw [if_neg (by simpa using up), Int.ofNat_eq_natCast]
        omega
    rw [Float.ofScientific, dif_neg small, same]
    exact ⟨_, rounded_large pos bounded, rfl⟩

/-! ## Numbers that are read -/

/-- A row of digits that is moved out of the format to the right spells next to nothing. -/
theorem lt_of_underflow {digits count : Nat} {exponent : ℤ} (short : digits < 10 ^ count)
    (far : exponent + count < -400) : (digits * 10 ^ exponent : ℚ) < 2 ^ (-1075 : ℤ) := by
  have shortQ : (digits : ℚ) < 10 ^ (count : ℤ) := by exact_mod_cast short
  calc (digits * 10 ^ exponent : ℚ) < 10 ^ (count : ℤ) * 10 ^ exponent :=
        mul_lt_mul_of_pos_right shortQ (zpow_pos (by norm_num) _)
    _ = 10 ^ (count + exponent) := (zpow_add₀ (by norm_num) _ _).symm
    _ ≤ 2 ^ (3 * (count + exponent)) := ten_zpow_le (by omega)
    _ ≤ 2 ^ (-1075 : ℤ) := zpow_le_zpow_right₀ one_le_two (by omega)

/-- A row of digits that is moved out of the format to the left spells more than the format
holds. -/
theorem le_of_overflow {digits : Nat} {exponent : ℤ} (pos : 0 < digits) (far : 400 < exponent) :
    (2 : ℚ) ^ (1024 : ℤ) ≤ digits * 10 ^ exponent := by
  have some : (1 : ℚ) ≤ digits := by exact_mod_cast pos
  calc (2 : ℚ) ^ (1024 : ℤ) ≤ 2 ^ (3 * exponent) := zpow_le_zpow_right₀ one_le_two (by omega)
    _ ≤ 10 ^ exponent := le_ten_zpow (by omega)
    _ ≤ digits * 10 ^ exponent := le_mul_of_one_le_left (zpow_pos (by norm_num) _).le some

/-- A decimal in the interval of a magnitude is read as its number. -/
theorem nearest_of_near (canonical : x.Canonical) (finite : x.exponent ≤ greatestExponent)
    {digits count : Nat} {exponent : ℤ} (near : x.Near (digits * 10 ^ exponent))
    (short : digits < 10 ^ count) (negative : Bool) :
    nearest negative digits count exponent = canonical.toFloat negative := by
  have low := near.pow_le canonical
  have high := near.lt_pow canonical finite
  have pos : 0 < digits := by
    rcases Nat.eq_zero_or_pos digits with rfl | pos
    · rw [Nat.cast_zero, zero_mul] at low
      exact absurd low (two_zpow_pos _).not_ge
    · exact pos
  have noUnderflow : ¬ exponent + count < -400 := fun far =>
    low.not_gt (lt_of_underflow short far)
  have noOverflow : ¬ 400 < exponent := fun far => high.not_ge (le_of_overflow pos far)
  obtain ⟨u, rounded, magnitude⟩ := rounded_ofScientific pos (not_lt.mp noOverflow)
  rw [rounded.eq_of_near canonical near] at magnitude
  rw [nearest, if_neg (not_or.mpr ⟨pos.ne', noUnderflow⟩), if_neg noOverflow, magnitude]
  cases negative with
  | true => exact canonical.neg_toFloat finite
  | false => rfl

end CommandScript.Decimal
