import CommandScript.Decimal.Shortest
import Mathlib.Algebra.Order.Field.Power
import Mathlib.Data.Rat.Floor
import Mathlib.Tactic.FieldSimp
import Mathlib.Tactic.Linarith
import Mathlib.Tactic.Positivity

/-!
# Rounding to the binary64 format

An operation on binary64 numbers gets its exact result as a mantissa with two further bits: whether
half a unit is left over, and whether there is anything beyond that. Rounding shifts the mantissa to
the unit of the format, passing what falls off on to the two bits, and rounds to the nearest number,
at a tie to the even one. What lies in the interval of a magnitude is rounded to that magnitude.
-/

namespace CommandScript.Decimal

open Float.Model Float.Model.UnpackedFloat

/-! ## Measuring a value -/

/-- How many halves of the unit the mantissa and the first bit stand for. -/
def halves (em : ExtendedMantissa) : Nat :=
  2 * em.mantissa + em.roundBit.toNat

/-- A shift by one place takes the first bit into the mantissa's place. -/
theorem halves_shiftRightOne (em : ExtendedMantissa) : halves em.shiftRightOne = em.mantissa := by
  have last : (em.mantissa % 2 != 0).toNat = em.mantissa % 2 := by
    rcases Nat.mod_two_eq_zero_or_one em.mantissa with even | odd
    · rw [even]
      rfl
    · rw [odd]
      rfl
  rw [halves, ExtendedMantissa.shiftRightOne]
  dsimp only
  rw [last, Nat.div_add_mod]

/-- A bit that falls off to the right sticks. -/
theorem stickyBit_shiftRightOne (em : ExtendedMantissa) :
    em.shiftRightOne.stickyBit = (em.roundBit || em.stickyBit) :=
  rfl

/-- The mantissa and its two bits tell how many halves of the unit `2 ^ e` a value holds, and
whether there is anything beyond them. -/
structure Measures (em : ExtendedMantissa) (v : ℚ) (e : ℤ) : Prop where
  lower : halves em ≤ v * 2 ^ (1 - e)
  upper : v * 2 ^ (1 - e) < halves em + 1
  sticky : em.stickyBit = false ↔ v * 2 ^ (1 - e) = halves em

/-- One exponent more halves what the value measures. -/
theorem two_zpow_succ (e : ℤ) (v : ℚ) : v * 2 ^ (1 - (e + 1)) = v * 2 ^ (1 - e) / 2 := by
  rw [show (1 : ℤ) - e = 1 - (e + 1) + 1 by ring, zpow_add_one₀ (by norm_num)]
  ring

theorem two_zpow_pos (e : ℤ) : (0 : ℚ) < 2 ^ e :=
  zpow_pos (by norm_num) e

/-- A number of units has twice as many halves. -/
theorem units_scaled (v : ℚ) (e : ℤ) : v * 2 ^ e * 2 ^ (1 - e) = 2 * v := by
  rw [mul_assoc, ← zpow_add₀ (by norm_num), add_sub_cancel, zpow_one, mul_comm]

/-- A power of two bounds a value, measured in halves of a unit. -/
theorem scaled_lt_iff {v : ℚ} {e k : ℤ} : v * 2 ^ (1 - e) < 2 ^ k ↔ v < 2 ^ (k + e - 1) := by
  rw [show k = k + e - 1 + (1 - e) by ring, zpow_add₀ (by norm_num),
    mul_lt_mul_iff_left₀ (two_zpow_pos (1 - e))]
  ring_nf

/-- A lower bound on what the value measures, as one on the value. -/
theorem le_scaled_iff {v : ℚ} {e k : ℤ} : 2 ^ k ≤ v * 2 ^ (1 - e) ↔ 2 ^ (k + e - 1) ≤ v := by
  rw [← not_lt, scaled_lt_iff, not_lt]

namespace Measures

variable {em : ExtendedMantissa} {v : ℚ} {e : ℤ}

/-- What is measured in one unit is measured in the next one by a shift. -/
theorem shiftRightOne (measures : Measures em v e) : Measures em.shiftRightOne v (e + 1) := by
  obtain ⟨lower, upper, sticky⟩ := measures
  have whole := halves_shiftRightOne em
  rw [halves] at lower upper sticky
  push_cast at lower upper sticky
  refine ⟨?_, ?_, ?_⟩
  all_goals rw [whole, two_zpow_succ]
  · have last : (0 : ℚ) ≤ em.roundBit.toNat := Nat.cast_nonneg _
    linarith
  · have last : (em.roundBit.toNat : ℚ) ≤ 1 := by exact_mod_cast Bool.toNat_le em.roundBit
    linarith
  · rw [stickyBit_shiftRightOne, Bool.or_eq_false_iff, sticky, div_eq_iff two_ne_zero]
    -- beyond the next bit there is nothing if the last one is not set and nothing is beyond it
    cases last : em.roundBit with
    | false =>
        rw [Bool.toNat_false, Nat.cast_zero, add_zero, mul_comm (em.mantissa : ℚ)]
        exact and_iff_right rfl
    | true =>
        rw [last, Bool.toNat_true, Nat.cast_one] at lower
        refine iff_of_false (fun both => Bool.noConfusion both.1) (ne_of_gt ?_)
        linarith

/-- A shift by several places. -/
theorem shiftRight (measures : Measures em v e) (places : Nat) :
    Measures (em >>> places) v (e + places) := by
  change Measures (places.repeat ExtendedMantissa.shiftRightOne em) v (e + places)
  induction places with
  | zero => simpa [Nat.repeat] using measures
  | succ places ih =>
      rw [Nat.repeat, Nat.cast_succ, ← add_assoc]
      exact ih.shiftRightOne

/-- A value within half a unit of a whole number of units is rounded to that number, at a tie if it
is even. -/
theorem roundedMantissa (measures : Measures em v e) {whole : Nat}
    (low : (2 * whole - 1 : ℚ) ≤ v * 2 ^ (1 - e)) (high : v * 2 ^ (1 - e) ≤ 2 * whole + 1)
    (ties : v * 2 ^ (1 - e) = 2 * whole - 1 ∨ v * 2 ^ (1 - e) = 2 * whole + 1 → whole % 2 = 0) :
    em.roundedMantissa = whole := by
  obtain ⟨lower, upper, sticky⟩ := measures
  obtain ⟨m, r, s⟩ := em
  generalize v * 2 ^ (1 - e) = h at *
  simp only [halves] at lower upper sticky
  cases r with
  | false =>
      simp only [Bool.toNat_false, add_zero] at lower upper sticky
      push_cast at lower upper sticky
      -- less than half a unit is left over
      have same : m = whole := by
        have below : (2 * m : ℚ) < 2 * whole + 2 := by linarith
        have above : (2 * whole : ℚ) < 2 * m + 2 := by linarith
        norm_cast at below above
        omega
      cases s <;> exact same
  | true =>
      simp only [Bool.toNat_true] at lower upper sticky
      push_cast at lower upper sticky
      cases s with
      | false =>
          have tie := sticky.mp rfl
          rw [tie] at low high ties
          have below : (2 * m : ℚ) ≤ 2 * whole := by linarith
          have above : (2 * whole : ℚ) ≤ 2 * m + 2 := by linarith
          norm_cast at below above
          change m + m % 2 = whole
          rcases Nat.lt_or_ge m whole with less | same
          · have one : whole = m + 1 := by omega
            have even := ties (.inl (by rw [one]; push_cast; ring))
            omega
          · have one : whole = m := by omega
            have even := ties (.inr (by rw [one]))
            omega
      | true =>
          have more : (2 * m + 1 : ℚ) < h := lt_of_le_of_ne lower fun same => by
            have := sticky.mpr same.symm
            cases this
          have below : (2 * m : ℚ) < 2 * whole := by linarith
          have above : (2 * whole : ℚ) < 2 * m + 3 := by linarith
          norm_cast at below above
          change m + 1 = whole
          omega

/-- A whole number of units. -/
theorem exact (m : Nat) (e : ℤ) :
    Measures (.ofMantissaAndAccuracy m .exact) (m * 2 ^ e) e := by
  have value := units_scaled m e
  have whole : (halves (.ofMantissaAndAccuracy m .exact) : ℚ) = 2 * m := by
    simp [halves, ExtendedMantissa.ofMantissaAndAccuracy]
  refine ⟨?_, ?_, ?_⟩
  · rw [value, whole]
  · rw [value, whole]
    exact lt_add_one _
  · rw [value, whole]
    exact ⟨fun _ => rfl, fun _ => rfl⟩

/-- Less than half a unit is left over. -/
theorem of_lt {m : Nat} (more : (2 * m : ℚ) < v * 2 ^ (1 - e))
    (less : v * 2 ^ (1 - e) < 2 * m + 1) :
    Measures (.ofMantissaAndAccuracy m (.inexact .lt)) v e := by
  refine ⟨?_, ?_, nofun, fun same => ?_⟩
  all_goals simp only [halves, ExtendedMantissa.ofMantissaAndAccuracy, Bool.toNat_false] at *
  all_goals push_cast at *
  all_goals linarith

/-- Exactly half a unit is left over. -/
theorem of_eq {m : Nat} (same : v * 2 ^ (1 - e) = 2 * m + 1) :
    Measures (.ofMantissaAndAccuracy m (.inexact .eq)) v e := by
  refine ⟨?_, ?_, fun _ => ?_, fun _ => rfl⟩
  all_goals simp only [halves, ExtendedMantissa.ofMantissaAndAccuracy, Bool.toNat_true] at *
  all_goals push_cast at *
  all_goals linarith

/-- More than half a unit is left over. -/
theorem of_gt {m : Nat} (more : (2 * m + 1 : ℚ) < v * 2 ^ (1 - e))
    (less : v * 2 ^ (1 - e) < 2 * m + 2) :
    Measures (.ofMantissaAndAccuracy m (.inexact .gt)) v e := by
  refine ⟨?_, ?_, nofun, fun same => ?_⟩
  all_goals simp only [halves, ExtendedMantissa.ofMantissaAndAccuracy, Bool.toNat_true] at *
  all_goals push_cast at *
  all_goals linarith

/-- A quotient, measured by its whole part and the comparison of its remainder with half the
divisor. -/
theorem quotient (n : Nat) {d : Nat} (pos : 0 < d) (e : ℤ) :
    Measures (.ofMantissaAndAccuracy (n / d) (accuracyOfFraction (n % d) d)) (n / d * 2 ^ e) e := by
  have posQ : (0 : ℚ) < d := by exact_mod_cast pos
  have parts : (n : ℚ) = d * (n / d : Nat) + (n % d : Nat) := by
    exact_mod_cast (Nat.div_add_mod n d).symm
  have value : (n / d * 2 ^ e * 2 ^ (1 - e) : ℚ) = 2 * (n / d : Nat) + 2 * (n % d : Nat) / d := by
    rw [units_scaled, parts]
    field_simp
  have less : n % d < d := Nat.mod_lt n pos
  generalize n % d = rest at *
  generalize n / d = whole at *
  rw [accuracyOfFraction]
  by_cases none : rest = 0
  · rw [if_pos none]
    rw [none] at value
    have exactly : (n / d * 2 ^ e : ℚ) = whole * 2 ^ e := by
      rw [parts, none]
      field_simp
      simp
    rw [exactly]
    exact .exact whole e
  · rw [if_neg none]
    have some : (0 : ℚ) < 2 * rest / d := by
      have : 0 < rest := Nat.pos_of_ne_zero none
      positivity
    rcases lt_trichotomy (2 * rest) d with small | half | great
    · have left : (2 * rest / d : ℚ) < 1 := by
        rw [div_lt_one posQ]
        exact_mod_cast small
      rw [Nat.compare_eq_lt.mpr small]
      exact .of_lt (by linarith) (by linarith)
    · have left : (2 * rest / d : ℚ) = 1 := by
        rw [div_eq_one_iff_eq posQ.ne']
        exact_mod_cast half
      rw [Nat.compare_eq_eq.mpr half]
      exact .of_eq (by linarith)
    · have left : (1 : ℚ) < 2 * rest / d := by
        rw [one_lt_div posQ]
        exact_mod_cast great
      have most : (2 * rest / d : ℚ) < 2 := by
        rw [div_lt_iff₀ posQ]
        have : (rest : ℚ) < d := by exact_mod_cast less
        linarith
      rw [Nat.compare_eq_gt.mpr great]
      exact .of_gt (by linarith) (by linarith)

/-! ## The place of the leading bit -/

/-- A value is less than the power of two behind the leading bit of the mantissa it is measured
by. -/
theorem lt_pow (measures : Measures em v e) : v < 2 ^ totalExponent em.mantissa e := by
  have within : halves em + 1 ≤ 2 ^ (em.mantissa.log2 + 1 + 1) := by
    have lead := @Nat.lt_log2_self em.mantissa
    have last := Bool.toNat_le em.roundBit
    rw [halves, Nat.pow_succ]
    omega
  have withinQ : (halves em + 1 : ℚ) ≤ 2 ^ (em.mantissa.log2 + 1 + 1) := by exact_mod_cast within
  rw [← zpow_natCast] at withinQ
  convert scaled_lt_iff.mp (measures.upper.trans_le withinQ) using 2
  rw [totalExponent]
  push_cast
  ring

/-- Unless the mantissa is zero the value is not less than the power of two of its leading bit. -/
theorem pow_le (measures : Measures em v e) (filled : em.mantissa ≠ 0) :
    2 ^ (totalExponent em.mantissa e - 1) ≤ v := by
  have within : 2 ^ (em.mantissa.log2 + 1) ≤ halves em := by
    have lead := Nat.log2_self_le filled
    rw [halves, Nat.pow_succ]
    omega
  have withinQ : (2 ^ (em.mantissa.log2 + 1) : ℚ) ≤ halves em := by exact_mod_cast within
  rw [← zpow_natCast] at withinQ
  convert le_scaled_iff.mp (withinQ.trans measures.lower) using 2
  rw [totalExponent]
  push_cast
  ring

end Measures

/-! ## The interval of a magnitude -/

/-- The value of a magnitude. -/
def Dyadic.toRat (x : Dyadic) : ℚ :=
  x.mantissa * 2 ^ x.exponent

/-- The magnitudes of the format: a mantissa is as long as the format allows, unless the exponent is
the least one. -/
structure Dyadic.Canonical (x : Dyadic) : Prop where
  pos : 0 < x.mantissa
  short : x.mantissa < 2 ^ 53
  least : leastExponent ≤ x.exponent
  normal : x.exponent = leastExponent ∨ footMantissa ≤ x.mantissa

/-- The value lies in the interval, at one of its ends only if it is closed. -/
structure Interval.Holds (interval : Interval) (v : ℚ) : Prop where
  lower : interval.lower ≤ v * interval.denominator
  upper : v * interval.denominator ≤ interval.upper
  closed : v * interval.denominator = interval.lower ∨ v * interval.denominator = interval.upper →
    interval.closed = true

/-- A power with an integer for its exponent is a quotient of two with natural numbers. -/
theorem pow_toNat_eq {b : ℚ} (pos : 0 < b) (z : ℤ) : b ^ z.toNat = b ^ (-z).toNat * b ^ z := by
  rcases le_total 0 z with up | down
  · rw [show (-z).toNat = 0 by omega, pow_zero, one_mul, ← zpow_natCast, Int.toNat_of_nonneg up]
  · rw [show z.toNat = 0 by omega, pow_zero, ← zpow_natCast, Int.toNat_of_nonneg (by omega),
      zpow_neg, inv_mul_cancel₀ (zpow_pos pos z).ne']

/-- The value is no further from a magnitude than half a unit, or a quarter of it below the foot of
a binade, and that far only if the mantissa is even. -/
structure Dyadic.Near (x : Dyadic) (v : ℚ) : Prop where
  low : (2 * x.mantissa - 1 : ℚ) ≤ v * 2 ^ (1 - x.exponent)
  high : v * 2 ^ (1 - x.exponent) ≤ 2 * x.mantissa + 1
  ties : v * 2 ^ (1 - x.exponent) = 2 * x.mantissa - 1 ∨
    v * 2 ^ (1 - x.exponent) = 2 * x.mantissa + 1 → x.mantissa % 2 = 0
  foot : x.mantissa = footMantissa → x.exponent ≠ leastExponent →
    (2 * x.mantissa - 1 / 2 : ℚ) ≤ v * 2 ^ (1 - x.exponent)

/-- What lies in the interval of a magnitude is near it. -/
theorem Interval.Holds.near {x : Dyadic} {v : ℚ} (holds : x.interval.Holds v)
    (pos : 0 < x.mantissa) : x.Near v := by
  obtain ⟨lower, upper, closed⟩ := holds
  have posQ : (0 : ℚ) < (Nat.pow 2 (x.exponent - 2).toNat : Nat) := by
    exact_mod_cast Nat.pow_pos (by decide)
  have twice : v * 2 ^ (2 - x.exponent) = 2 * (v * 2 ^ (1 - x.exponent)) := by
    rw [show 2 - x.exponent = 1 - x.exponent + 1 by ring, zpow_add_one₀ (by norm_num)]
    ring
  have scale : ((Nat.pow 2 (2 - x.exponent).toNat : Nat) : ℚ) =
      (Nat.pow 2 (x.exponent - 2).toNat : Nat) * 2 ^ (2 - x.exponent) := by
    have power := pow_toNat_eq two_pos (2 - x.exponent)
    rw [neg_sub] at power
    exact_mod_cast power
  have quarters (n : Nat) : ((n * Nat.pow 2 (x.exponent - 2).toNat : Nat) : ℚ) =
      (Nat.pow 2 (x.exponent - 2).toNat : Nat) * n := by
    rw [Nat.cast_mul, mul_comm]
  simp only [Dyadic.interval] at lower upper closed
  rw [scale, mul_left_comm, twice, quarters] at lower upper closed
  rw [quarters] at closed
  rw [mul_le_mul_iff_right₀ posQ] at lower upper
  rw [mul_right_inj' posQ.ne', mul_right_inj' posQ.ne', beq_iff_eq] at closed
  push_cast at upper closed
  by_cases foot : x.mantissa = footMantissa ∧ x.exponent ≠ leastExponent
  · rw [if_pos foot, Nat.cast_sub (by omega)] at lower closed
    push_cast at lower closed
    refine ⟨by linarith, by linarith, ?_, fun _ _ => by linarith⟩
    rintro (low | high)
    · exfalso
      linarith
    · exact closed (.inr (by linarith))
  · rw [if_neg foot, Nat.cast_sub (by omega)] at lower closed
    push_cast at lower closed
    refine ⟨by linarith, by linarith, ?_, fun same apart => absurd ⟨same, apart⟩ foot⟩
    rintro (low | high)
    · exact closed (.inl (by linarith))
    · exact closed (.inr (by linarith))

/-! ## Rounding -/

/-- The mantissa of a normal number has 53 bits. -/
theorem footMantissa_eq : footMantissa = 2 ^ 52 :=
  rfl

/-- The target leaves 53 bits, unless the least exponent is reached. -/
theorem targetExponent_eq (t : ℤ) : Format.binary64.targetExponent t = max (t - 53) (-1074) :=
  rfl

/-- A magnitude of the format already has the exponent that it is to have. -/
theorem Dyadic.Canonical.targetExponent {x : Dyadic} (canonical : x.Canonical) :
    Format.binary64.targetExponent (totalExponent x.mantissa x.exponent) = x.exponent := by
  have short : x.mantissa.log2 < 53 := (Nat.log2_lt canonical.pos.ne').mpr canonical.short
  rw [targetExponent_eq, totalExponent]
  rcases canonical.normal with least | normal
  · rw [least, leastExponent]
    omega
  · have long : 52 ≤ x.mantissa.log2 := (Nat.le_log2 canonical.pos.ne').mpr normal
    have least := canonical.least
    rw [leastExponent] at least
    omega

/-- The bits for rounding are kept beside the mantissa. -/
theorem mantissa_ofMantissaAndAccuracy (m : Nat) (accuracy : Accuracy) :
    (ExtendedMantissa.ofMantissaAndAccuracy m accuracy).mantissa = m := by
  rcases accuracy with _ | (_ | _ | _) <;> rfl

/-- A mantissa with its bits is shifted to an exponent that is not below its own. -/
theorem Measures.shiftToExponent {m : Nat} {e target : ℤ} {accuracy : Accuracy} {v : ℚ}
    (measures : Measures (.ofMantissaAndAccuracy m accuracy) v e) (le : e ≤ target) :
    ∃ em, shiftToExponent m e accuracy target = (em, target) ∧ Measures em v target := by
  have places : e + (target - e).toNat = target := by omega
  have shifted := measures.shiftRight (target - e).toNat
  rw [places] at shifted
  exact ⟨_, Prod.ext rfl places, shifted⟩

/-- What a whole number of units is measured by. -/
theorem Measures.mantissa_eq {em : ExtendedMantissa} {whole : Nat} {e : ℤ}
    (measures : Measures em (whole * 2 ^ e) e) : em.mantissa = whole := by
  obtain ⟨lower, upper, -⟩ := measures
  rw [units_scaled] at lower upper
  norm_cast at lower upper
  have last := Bool.toNat_le em.roundBit
  rw [halves] at lower upper
  omega

variable {x : Dyadic} {v : ℚ} {m : Nat} {e : ℤ} {accuracy : Accuracy}

/-- What is near a magnitude is below the power of two behind the longest mantissa. -/
theorem Dyadic.Near.lt_zpow (near : x.Near v) (canonical : x.Canonical) :
    v < 2 ^ (54 + x.exponent - 1) := by
  rw [← scaled_lt_iff]
  have short : (x.mantissa + 1 : ℚ) ≤ 2 ^ 53 := by exact_mod_cast canonical.short
  have high := near.high
  norm_num at short ⊢
  linarith

/-- The exponent that a value near a magnitude is rounded at: that of the magnitude, or the next
lower one for a value below the foot of its binade. -/
theorem targetExponent_of_near (canonical : x.Canonical) (near : x.Near v)
    (measures : Measures (.ofMantissaAndAccuracy m accuracy) v e)
    (fine : e ≤ Format.binary64.targetExponent (totalExponent m e)) :
    Format.binary64.targetExponent (totalExponent m e) = x.exponent ∨
      (Format.binary64.targetExponent (totalExponent m e) = x.exponent - 1 ∧
        x.mantissa = footMantissa ∧ x.exponent ≠ leastExponent ∧
        v * 2 ^ (1 - x.exponent) < 2 * x.mantissa) := by
  have above := measures.lt_pow
  have reached := measures.pow_le
  rw [mantissa_ofMantissaAndAccuracy] at above reached
  rw [targetExponent_eq] at fine ⊢
  have high := near.lt_zpow canonical
  have order {a b : ℤ} (le : (2 : ℚ) ^ a ≤ v) (lt : v < 2 ^ b) : a < b :=
    (zpow_lt_zpow_iff_right₀ one_lt_two).mp (le.trans_lt lt)
  -- with no leading bit the exponent is the least one already
  have tiny : m = 0 → e ≤ -1074 := by
    rintro rfl
    change e ≤ max (0 + 1 + e - 53) (-1074) at fine
    omega
  by_cases least : x.exponent = leastExponent
  · refine .inl ?_
    rw [least, leastExponent] at high ⊢
    by_cases zero : m = 0
    · have := tiny zero
      subst zero
      change max (0 + 1 + e - 53) (-1074) = -1074
      omega
    · have := order (reached zero) high
      omega
  · have normal := canonical.normal.resolve_left least
    have bound := canonical.least
    rw [leastExponent] at bound least
    have low : 2 ^ (52 + x.exponent - 1) ≤ v := by
      rw [← le_scaled_iff, show (2 : ℚ) ^ (52 : ℤ) = 4503599627370496 by norm_num]
      have long : (4503599627370496 : ℚ) ≤ x.mantissa := by exact_mod_cast normal
      have more := near.low
      linarith
    have lower := order low above
    have filled : m ≠ 0 := by
      intro zero
      have := tiny zero
      subst zero
      change 52 + x.exponent - 1 < 0 + 1 + e at lower
      omega
    have upper := order (reached filled) high
    rcases Int.lt_or_le (totalExponent m e) (53 + x.exponent) with less | same
    · have same : totalExponent m e = 53 + x.exponent - 1 := by omega
      rw [same] at above
      have below : v * 2 ^ (1 - x.exponent) < 2 ^ (53 : ℤ) := scaled_lt_iff.mpr above
      have foot : x.mantissa = footMantissa := by
        have more := near.low
        have few : (2 * x.mantissa : ℚ) < 2 ^ 53 + 1 := by
          norm_num at below ⊢
          linarith
        norm_cast at few
        rw [footMantissa_eq] at normal ⊢
        omega
      refine .inr ⟨by omega, foot, least, below.trans_eq ?_⟩
      rw [foot, footMantissa_eq]
      norm_num
    · exact .inl (by omega)

/-- A mantissa that a shift by one place at most brings to a magnitude of the format. -/
theorem Dyadic.Canonical.shifted (canonical : x.Canonical) {rounded : Nat} {target : ℤ}
    (sound : (rounded = x.mantissa ∧ target = x.exponent) ∨
      (rounded = 2 ^ 53 ∧ target = x.exponent - 1 ∧ x.mantissa = footMantissa)) :
    ∃ em, shiftToTargetExponent Format.binary64 rounded target .exact = (em, x.exponent) ∧
      em.mantissa = x.mantissa := by
  have fits : Format.binary64.targetExponent (totalExponent rounded target) = x.exponent := by
    rcases sound with ⟨rfl, rfl⟩ | ⟨rfl, rfl, -⟩
    · exact canonical.targetExponent
    · have least := canonical.least
      rw [leastExponent] at least
      rw [targetExponent_eq, totalExponent, Nat.log2_two_pow]
      omega
  have value : (rounded * 2 ^ target : ℚ) = x.mantissa * 2 ^ x.exponent := by
    rcases sound with ⟨rfl, rfl⟩ | ⟨rfl, rfl, foot⟩
    · rfl
    · rw [foot, footMantissa_eq, zpow_sub_one₀ (by norm_num)]
      push_cast
      ring
  have measures := Measures.exact rounded target
  rw [value] at measures
  obtain ⟨em, shifted, measured⟩ := @Measures.shiftToExponent _ _ x.exponent _ _ measures (by omega)
  rw [shiftToTargetExponent, fits]
  exact ⟨em, shifted, measured.mantissa_eq⟩

/-- What is near a magnitude of the format is rounded to it. -/
theorem roundWithAccuracy_of_near (canonical : x.Canonical) (near : x.Near v)
    (measures : Measures (.ofMantissaAndAccuracy m accuracy) v e)
    (fine : e ≤ Format.binary64.targetExponent (totalExponent m e)) (sign : Sign) :
    roundWithAccuracy Format.binary64 sign m e accuracy =
      .finite sign x.mantissa x.exponent canonical.pos := by
  obtain ⟨first, shifted, rounds⟩ := measures.shiftToExponent fine
  have reached := targetExponent_of_near canonical near measures fine
  rw [roundWithAccuracy, shiftToTargetExponent, shifted]
  generalize Format.binary64.targetExponent (totalExponent m e) = target at *
  -- after the first shift the mantissa may be one bit too long
  have sound : (first.roundedMantissa = x.mantissa ∧ target = x.exponent) ∨
      (first.roundedMantissa = 2 ^ 53 ∧ target = x.exponent - 1 ∧ x.mantissa = footMantissa) := by
    rcases reached with rfl | ⟨rfl, foot, least, below⟩
    · exact .inl ⟨rounds.roundedMantissa near.low near.high near.ties, rfl⟩
    · refine .inr ⟨?_, rfl, foot⟩
      have above := near.foot foot least
      have twice : v * 2 ^ (1 - (x.exponent - 1)) = 2 * (v * 2 ^ (1 - x.exponent)) := by
        have step := two_zpow_succ (x.exponent - 1) v
        rw [sub_add_cancel] at step
        linarith
      rw [foot, footMantissa_eq] at above below
      push_cast at above below
      apply rounds.roundedMantissa
      · rw [twice]
        push_cast
        linarith
      · rw [twice]
        push_cast
        linarith
      · exact fun _ => rfl
  obtain ⟨second, again, same⟩ := canonical.shifted sound
  dsimp only
  rw [again]
  dsimp only
  rw [dif_neg (same.trans_ne canonical.pos.ne'), UnpackedFloat.finite.injEq]
  exact ⟨rfl, same, rfl⟩

end CommandScript.Decimal
