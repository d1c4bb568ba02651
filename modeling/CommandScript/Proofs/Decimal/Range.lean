import CommandScript.Proofs.Decimal.Exactness
import Mathlib.Data.Int.Log

/-!
# The range of the format

Every value above half the least number is near a magnitude with a mantissa of the right length. A
decimal is therefore read as zero, as the number of such a magnitude or, if the exponent of that
magnitude is beyond the format, as an infinity. Which of them it is shows from the value of the
decimal alone: it is finite exactly if it is less than half a unit above the greatest number.
-/

namespace CommandScript.Decimal

open Float.Model Float.Model.UnpackedFloat

variable {x : Dyadic} {v : ℚ}

/-! ## Magnitudes that are near -/

/-- A value, given in halves, is no further than a half from a whole number, which is even if it is
that far. -/
theorem exists_rounding {h : ℚ} (positive : 0 ≤ h) :
    ∃ whole : Nat, (2 * whole - 1 : ℚ) ≤ h ∧ h ≤ 2 * whole + 1 ∧
      (h = 2 * whole - 1 ∨ h = 2 * whole + 1 → whole % 2 = 0) := by
  have low := Nat.floor_le positive
  have high := Nat.lt_floor_add_one h
  obtain ⟨k, even | odd⟩ := Nat.even_or_odd' ⌊h⌋₊
  · rw [even] at low high
    push_cast at low high
    refine ⟨k, by linarith, by linarith, ?_⟩
    rintro (down | up)
    · exfalso
      linarith
    · exfalso
      linarith
  · rw [odd] at low high
    push_cast at low high
    by_cases down : h = 2 * k + 1 ∧ k % 2 = 0
    · exact ⟨k, by linarith, down.1.le, fun _ => down.2⟩
    · refine ⟨k + 1, ?_, ?_, ?_⟩
      · push_cast
        linarith
      · push_cast
        linarith
      · push_cast
        rintro (tie | up)
        · have odd := not_and.mp down (by linarith)
          omega
        · exfalso
          linarith

/-- The exponent of the magnitudes around a value. -/
theorem exists_scale (large : 2 ^ (-1075 : ℤ) < v) :
    ∃ e, leastExponent ≤ e ∧ v * 2 ^ (1 - e) < 2 ^ (54 : ℤ) ∧ 1 < v * 2 ^ (1 - e) ∧
      (e = leastExponent ∨ 2 ^ (53 : ℤ) ≤ v * 2 ^ (1 - e)) := by
  have low := Int.zpow_log_le_self one_lt_two ((two_zpow_pos _).trans large)
  have high := Int.lt_zpow_succ_log_self one_lt_two v
  rw [Nat.cast_ofNat] at low high
  rcases le_total (-1022) (Int.log 2 v) with normal | subnormal
  · have long : (2 : ℚ) ^ (53 : ℤ) ≤ v * 2 ^ (1 - (Int.log 2 v - 52)) := by
      rw [le_scaled_iff]
      exact (zpow_le_zpow_right₀ one_le_two (by omega)).trans low
    refine ⟨Int.log 2 v - 52, by rw [leastExponent]; omega, ?_, ?_, .inr long⟩
    · rw [scaled_lt_iff]
      exact high.trans_le (zpow_le_zpow_right₀ one_le_two (by omega))
    · exact lt_of_lt_of_le (by norm_num) long
  · refine ⟨leastExponent, le_rfl, ?_, ?_, .inl rfl⟩
    · rw [scaled_lt_iff, leastExponent]
      exact high.trans_le (zpow_le_zpow_right₀ one_le_two (by omega))
    · rw [← mul_lt_mul_iff_left₀ (two_zpow_pos (1 - leastExponent)), leastExponent,
        ← zpow_add₀ (by norm_num)] at large
      exact large

/-- A value that does not vanish is near a magnitude whose mantissa has the right length. -/
theorem exists_near (large : 2 ^ (-1075 : ℤ) < v) : ∃ x : Dyadic, x.Canonical ∧ x.Near v := by
  obtain ⟨e, least, high, one, normal⟩ := exists_scale large
  obtain ⟨whole, down, up, ties⟩ := exists_rounding (zero_lt_one.trans one).le
  have short : whole ≤ 2 ^ 53 := by
    have less : (2 * whole : ℚ) < 2 ^ 54 + 1 := by
      norm_num at high ⊢
      linarith
    norm_cast at less
    omega
  have pos : 0 < whole := by
    have less : (0 : ℚ) < 2 * whole := by linarith
    norm_cast at less
    omega
  have long : e = leastExponent ∨ 2 ^ 52 ≤ whole := by
    refine normal.imp_right fun long => ?_
    have less : (2 ^ 53 : ℚ) ≤ 2 * whole + 1 := by
      norm_num at long ⊢
      linarith
    norm_cast at less
    omega
  rcases short.lt_or_eq with less | full
  · refine ⟨⟨whole, e⟩, ⟨pos, less, least, long⟩, down, up, ties, fun foot inner => ?_⟩
    have long := normal.resolve_left inner
    change whole = footMantissa at foot
    dsimp only
    rw [foot, footMantissa_eq]
    norm_num at long ⊢
    linarith
  · -- the mantissa has become one bit too long, so its half is taken
    have half := two_zpow_succ e v
    rw [full] at down up
    push_cast at down up
    refine ⟨⟨2 ^ 52, e + 1⟩, ⟨Nat.two_pow_pos 52, by norm_num, ?_, .inr le_rfl⟩, ?_, ?_, ?_, ?_⟩
    · dsimp only
      omega
    · rw [half]
      push_cast
      linarith
    · rw [half]
      push_cast
      linarith
    · intro _
      norm_num
    · intro _ _
      rw [half]
      push_cast
      linarith

/-! ## Both ends of the range -/

/-- The least value that is rounded to an infinity: half a unit above the greatest number. -/
def overflowBound : ℚ :=
  2 ^ 1024 - 2 ^ 970

/-- The bound, measured in units of the greatest exponent. -/
theorem lt_overflowBound_iff :
    v < overflowBound ↔ v * 2 ^ (1 - greatestExponent) < 2 ^ 54 - 1 := by
  have scaled : overflowBound * 2 ^ (1 - greatestExponent) = 2 ^ 54 - 1 := by
    rw [overflowBound, greatestExponent, sub_mul, ← zpow_natCast, ← zpow_natCast,
      ← zpow_add₀ (by norm_num), ← zpow_add₀ (by norm_num)]
    norm_num
  rw [← scaled, mul_lt_mul_iff_left₀ (two_zpow_pos _)]

/-- The exponent of a magnitude is beyond the format exactly for the values from the bound on. -/
theorem Dyadic.Near.exponent_le_iff (near : x.Near v) (canonical : x.Canonical) :
    x.exponent ≤ greatestExponent ↔ v < overflowBound := by
  rw [lt_overflowBound_iff]
  rcases lt_trichotomy x.exponent greatestExponent with less | same | greater
  · refine iff_of_true less.le ?_
    have small : v * 2 ^ (1 - greatestExponent) < 2 ^ (53 : ℤ) := by
      rw [scaled_lt_iff]
      exact (near.lt_zpow canonical).trans_le (zpow_le_zpow_right₀ one_le_two (by omega))
    norm_num at small ⊢
    linarith
  · refine iff_of_true same.le ?_
    have high := near.high
    have ties := near.ties
    rw [same] at high ties
    have short := canonical.short
    rcases Nat.lt_or_ge x.mantissa (2 ^ 53 - 1) with less | last
    · have less : (x.mantissa + 2 : ℚ) ≤ 2 ^ 53 := by
        exact_mod_cast (by omega : x.mantissa + 2 ≤ 2 ^ 53)
      linarith
    · -- the greatest number has an odd mantissa, so it does not get the tie
      have last : x.mantissa = 2 ^ 53 - 1 := by omega
      rw [last] at high ties
      norm_num at high ties ⊢
      exact lt_of_le_of_ne high ties.2
  · refine iff_of_false greater.not_ge (not_lt.mpr ?_)
    have apart : x.exponent ≠ leastExponent := by
      rw [greatestExponent] at greater
      rw [leastExponent]
      omega
    have normal := canonical.normal.resolve_left apart
    have above : (2 ^ 53 - 1 / 2 : ℚ) ≤ v * 2 ^ (1 - x.exponent) := by
      rcases normal.lt_or_eq with more | foot
      · have low := near.low
        have more : (2 ^ 52 + 1 : ℚ) ≤ x.mantissa := by exact_mod_cast more
        linarith
      · have low := near.foot foot.symm apart
        rw [← foot, footMantissa_eq] at low
        push_cast at low
        linarith
    have steps : (2 : ℚ) ^ (1 : ℤ) ≤ 2 ^ (x.exponent - greatestExponent) :=
      zpow_le_zpow_right₀ one_le_two (by omega)
    rw [zpow_one] at steps
    calc (2 ^ 54 - 1 : ℚ) = (2 ^ 53 - 1 / 2) * 2 := by norm_num
      _ ≤ v * 2 ^ (1 - x.exponent) * 2 ^ (x.exponent - greatestExponent) :=
          mul_le_mul above steps zero_le_two (le_trans (by norm_num) above)
      _ = v * 2 ^ (1 - greatestExponent) := by
          rw [mul_assoc, ← zpow_add₀ (by norm_num)]
          ring_nf

/-- A value no greater than half the least number is measured at the least exponent. -/
theorem targetExponent_of_small {m : Nat} {e : ℤ} {accuracy : Accuracy}
    (measures : Measures (.ofMantissaAndAccuracy m accuracy) v e)
    (fine : e ≤ Format.binary64.targetExponent (totalExponent m e))
    (small : v ≤ 2 ^ (-1075 : ℤ)) :
    Format.binary64.targetExponent (totalExponent m e) = leastExponent := by
  have reached := measures.pow_le
  rw [mantissa_ofMantissaAndAccuracy] at reached
  rw [targetExponent_eq] at fine ⊢
  rw [leastExponent]
  rcases eq_or_ne m 0 with rfl | filled
  · change max (0 + 1 + e - 53) (-1074) = -1074
    change e ≤ max (0 + 1 + e - 53) (-1074) at fine
    omega
  · have order := (zpow_le_zpow_iff_right₀ one_lt_two).mp ((reached filled).trans small)
    omega

/-- What is not above half the least number is rounded to zero. -/
theorem Rounded.eq_zero {u : UnpackedFloat} (rounded : Rounded v u) (nonneg : 0 ≤ v)
    (small : v ≤ 2 ^ (-1075 : ℤ)) : u = .zero .positive := by
  cases rounded with
  | vanishing => rfl
  | once measures fine =>
      have target := targetExponent_of_small measures fine small
      rw [target] at fine
      obtain ⟨first, shifted, rounds⟩ := measures.shiftToExponent fine
      have above : v * 2 ^ (1 - leastExponent) ≤ 1 := by
        rw [← mul_le_mul_iff_left₀ (two_zpow_pos (1 - leastExponent)), leastExponent,
          ← zpow_add₀ (by norm_num)] at small
        exact small
      have below : 0 ≤ v * 2 ^ (1 - leastExponent) := mul_nonneg nonneg (two_zpow_pos _).le
      have nothing : first.roundedMantissa = 0 := by
        apply rounds.roundedMantissa
        · rw [Nat.cast_zero]
          linarith
        · rw [Nat.cast_zero]
          linarith
        · exact fun _ => rfl
      rw [roundWithAccuracy, shiftToTargetExponent, target, shifted]
      dsimp only
      rw [nothing]
      rfl

/-! ## What a decimal is read as -/

/-- The bits of a number whose exponent is beyond the format are those of an infinity. -/
theorem Dyadic.Canonical.toFloat_of_overflow (canonical : x.Canonical)
    (beyond : greatestExponent < x.exponent) : canonical.toFloat false = 1.0 / 0.0 := by
  rw [greatestExponent] at beyond
  have full : 2 ^ 11 ≤ (x.exponent + 1023 + 52).toNat + 1 := by omega
  have packed : UnpackedFloat.pack Format.binary64
      (.finite .positive x.mantissa x.exponent canonical.pos) = packedInfinity _ .positive :=
    if_pos full
  apply eq_of_toBits
  change (UnpackedFloat.pack Format.binary64 _).toNat = _
  rw [signOf, if_neg Bool.false_ne_true, packed]
  decide +kernel

/-- The bits tell whether a number is finite. -/
theorem isFinite_iff (f : Float) :
    isFinite f = true ↔ f.toBits.toNat / 2 ^ 52 % 2 ^ 11 ≠ 2047 := by
  rw [isFinite, reading_eq]
  by_cases full : f.toBits.toNat / 2 ^ 52 % 2 ^ 11 = 2047
  · refine iff_of_false ?_ (not_not.mpr full)
    rw [if_pos full]
    by_cases nothing : f.toBits.toNat % 2 ^ 52 = 0
    · rw [if_pos nothing]
      exact Bool.false_ne_true
    · rw [if_neg nothing]
      exact Bool.false_ne_true
  · refine iff_of_true ?_ full
    rw [if_neg full]
    by_cases least : f.toBits.toNat / 2 ^ 52 % 2 ^ 11 = 0
    · rw [if_pos least]
    · rw [if_neg least]

/-- What is packed below the greatest exponent is finite. -/
theorem Dyadic.Canonical.isFinite_toFloat (canonical : x.Canonical)
    (finite : x.exponent ≤ greatestExponent) (negative : Bool) :
    isFinite (canonical.toFloat negative) = true := by
  obtain ⟨exponent, fraction⟩ := canonical.fields_lt finite
  have packed := canonical.toNat_pack finite (signOf negative)
  rw [footMantissa_eq] at fraction
  rw [isFinite_iff]
  change (UnpackedFloat.pack Format.binary64 _).toNat / 2 ^ 52 % 2 ^ 11 ≠ 2047
  rw [packed]
  omega

/-- A decimal no greater than half the least number is read as zero. -/
theorem nearest_of_small {digits count : Nat} {exponent : ℤ}
    (small : (digits * 10 ^ exponent : ℚ) ≤ 2 ^ (-1075 : ℤ)) (negative : Bool) :
    nearest negative digits count exponent = if negative then -0.0 else 0.0 := by
  rw [nearest]
  by_cases settled : digits = 0 ∨ exponent + count < -400
  · rw [if_pos settled]
  · have pos : 0 < digits := Nat.pos_of_ne_zero (not_or.mp settled).1
    have noOverflow : ¬ 400 < exponent := fun far =>
      (zpow_lt_zpow_right₀ one_lt_two (by decide)).not_ge ((le_of_overflow pos far).trans small)
    obtain ⟨u, rounded, magnitude⟩ := rounded_ofScientific pos (not_lt.mp noOverflow)
    rw [rounded.eq_zero (by positivity) small] at magnitude
    rw [if_neg settled, if_neg noOverflow, magnitude]
    rfl

/-- The smallest numbers do not overflow. -/
theorem lt_overflowBound : (2 : ℚ) ^ (-1075 : ℤ) < overflowBound := by
  rw [lt_overflowBound_iff, greatestExponent, ← zpow_add₀ (by norm_num)]
  exact lt_of_lt_of_le (zpow_lt_zpow_right₀ one_lt_two (by decide : (_ : ℤ) < 0)) (by norm_num)

/-- A decimal from the bound on is read as an infinity. -/
theorem nearest_of_overflow {digits count : Nat} {exponent : ℤ} (short : digits < 10 ^ count)
    (beyond : overflowBound ≤ digits * 10 ^ exponent) (negative : Bool) :
    nearest negative digits count exponent = if negative then -(1.0 / 0.0) else 1.0 / 0.0 := by
  have large := lt_overflowBound.trans_le beyond
  have pos : 0 < digits := by
    rcases Nat.eq_zero_or_pos digits with rfl | pos
    · rw [Nat.cast_zero, zero_mul] at large
      exact absurd large (two_zpow_pos _).not_gt
    · exact pos
  have noUnderflow : ¬ exponent + count < -400 := fun far =>
    large.not_gt (lt_of_underflow short far)
  rw [nearest, if_neg (not_or.mpr ⟨pos.ne', noUnderflow⟩)]
  by_cases far : 400 < exponent
  · rw [if_pos far]
  · obtain ⟨u, rounded, magnitude⟩ := rounded_ofScientific pos (not_lt.mp far)
    obtain ⟨x, canonical, near⟩ := exists_near large
    have tooGreat : greatestExponent < x.exponent := by
      rw [← not_le, near.exponent_le_iff canonical]
      exact beyond.not_gt
    have infinite := canonical.toFloat_of_overflow tooGreat
    rw [rounded.eq_of_near canonical near] at magnitude
    rw [if_neg far, magnitude, ← infinite]
    rfl

/-- A decimal is read as a finite number exactly if it is below the bound. -/
theorem isFinite_nearest_iff {digits count : Nat} {exponent : ℤ} (short : digits < 10 ^ count)
    (negative : Bool) :
    isFinite (nearest negative digits count exponent) = true ↔
      (digits * 10 ^ exponent : ℚ) < overflowBound := by
  rcases lt_or_ge (digits * 10 ^ exponent : ℚ) overflowBound with below | beyond
  · refine iff_of_true ?_ below
    rcases lt_or_ge ((2 : ℚ) ^ (-1075 : ℤ)) (digits * 10 ^ exponent) with large | small
    · obtain ⟨x, canonical, near⟩ := exists_near large
      have finite := (near.exponent_le_iff canonical).mpr below
      rw [nearest_of_near canonical finite near short]
      exact canonical.isFinite_toFloat finite negative
    · rw [nearest_of_small small]
      cases negative <;> decide +kernel
  · refine iff_of_false ?_ beyond.not_gt
    rw [nearest_of_overflow short beyond]
    cases negative <;> decide +kernel

/-- A numeral of any length has a finite value exactly if the decimal it spells is below the
bound. -/
theorem Numeral.isFinite_value_iff {numeral : Numeral} (proper : numeral.isProper = true) :
    isFinite (numeral.value 0) = true ↔ numeral.toRat < overflowBound := by
  rw [value, zero_sub, isFinite_nearest_iff (digitsValue_lt (digits_of_isProper proper))]
  rfl

end CommandScript.Decimal
