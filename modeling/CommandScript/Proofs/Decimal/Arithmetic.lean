import CommandScript.Proofs.Decimal.Nearest

/-!
# Exact arithmetic

A finite number has an exact value. A sum, a difference or a product is computed without rounding if
its exact value is that of a number, and comparisons, absolute values and whole parts are always
exact. So arithmetic on whole numbers up to `2 ^ 53` is that of the integers, as long as it does not
leave this range.
-/

namespace CommandScript.Decimal

open Float.Model Float.Model.UnpackedFloat

variable {x y : Dyadic} {u w : UnpackedFloat} {f g : Float} {v z : ℚ}

/-! ## Exact values -/

/-- The value of a finite number. -/
def exactValue? (f : Float) : Option ℚ :=
  match reading f with
  | .finite negative x => some (if negative then -x.toRat else x.toRat)
  | _ => none

/-- The unpacked number is one of the format, and this is its value. -/
inductive Stands : UnpackedFloat → ℚ → Prop where
  | zero (sign : Sign) : Stands (.zero sign) 0
  | finite (sign : Sign) {x : Dyadic} (canonical : x.Canonical)
    (finite : x.exponent ≤ greatestExponent) :
    Stands (.finite sign x.mantissa x.exponent canonical.pos)
      ((sign.apply x.mantissa : ℤ) * 2 ^ x.exponent)

/-- A zero keeps its sign when it is packed. -/
theorem unpack_pack_zero (sign : Sign) : (Float.Model.pack (.zero sign)).unpack = .zero sign := by
  cases sign <;> rfl

/-- What a mantissa with a sign stands for. -/
theorem apply_signOf (negative : Bool) (x : Dyadic) :
    ((signOf negative).apply x.mantissa : ℤ) * 2 ^ x.exponent =
      if negative then -x.toRat else x.toRat := by
  cases negative
  · simp [signOf, Sign.apply, Dyadic.toRat]
  · simp [signOf, Sign.apply, Dyadic.toRat]

/-- The reading of a number is that of its three fields. -/
theorem reading_of_fields {negative : Bool} {exponent fraction : Nat} (small : exponent < 2047)
    (short : fraction < 2 ^ 52)
    (bits : f.toBits.toNat = negative.toNat * 2 ^ 63 + exponent * 2 ^ 52 + fraction) :
    reading f = .finite negative
      (if exponent = 0 then ⟨fraction, leastExponent⟩
        else ⟨fraction + 2 ^ 52, (exponent : ℤ) - 1075⟩) := by
  have sign : f.toBits.toNat / 2 ^ 63 = negative.toNat := by omega
  have biased : f.toBits.toNat / 2 ^ 52 % 2 ^ 11 = exponent := by
    cases negative <;> simp only [Bool.toNat_false, Bool.toNat_true] at bits <;> omega
  have low : f.toBits.toNat % 2 ^ 52 = fraction := by omega
  have negative_eq : (negative.toNat == 1) = negative := by cases negative <;> rfl
  rw [reading_eq, sign, biased, low, negative_eq, if_neg small.ne]
  split <;> rfl

/-- A magnitude of the format is determined by its fields. -/
theorem Dyadic.Canonical.of_fields (canonical : x.Canonical) :
    (if x.fields.1 = 0 then (⟨x.fields.2, leastExponent⟩ : Dyadic)
      else ⟨x.fields.2 + 2 ^ 52, (x.fields.1 : ℤ) - 1075⟩) = x := by
  have least := canonical.least
  rw [leastExponent] at least
  rw [Dyadic.fields]
  by_cases long : footMantissa ≤ x.mantissa
  · rw [if_pos long, if_neg (by dsimp only; omega)]
    rw [footMantissa_eq] at long ⊢
    exact Dyadic.mk.injEq .. ▸ ⟨Nat.sub_add_cancel long, by dsimp only; omega⟩
  · rw [if_neg long, if_pos rfl, ← canonical.normal.resolve_right long]

/-- A number in canonical form is read from its bits as it is. -/
theorem Dyadic.Canonical.reading_toFloat (canonical : x.Canonical)
    (finite : x.exponent ≤ greatestExponent) (negative : Bool) :
    reading (canonical.toFloat negative) = .finite negative x := by
  obtain ⟨exponent, fraction⟩ := canonical.fields_lt finite
  have packed := canonical.toNat_pack finite (signOf negative)
  rw [toNat_signOf] at packed
  rw [footMantissa_eq] at fraction
  have read := @reading_of_fields (canonical.toFloat negative) negative _ _ exponent fraction packed
  rw [read, canonical.of_fields]

/-- The zero of a sign. -/
def zeroOf (negative : Bool) : Float :=
  .ofModel (.pack (.zero (signOf negative)))

/-- The only bit of a zero that may be set is that of its sign. -/
theorem toNat_toBits_zeroOf (negative : Bool) :
    (zeroOf negative).toBits.toNat = negative.toNat * 2 ^ 63 := by
  cases negative <;> rfl

/-- The bits of a zero are read as a mantissa of zero at the least exponent. -/
theorem reading_zeroOf (negative : Bool) :
    reading (zeroOf negative) = .finite negative ⟨0, leastExponent⟩ := by
  refine reading_of_fields (by decide : 0 < 2047) (Nat.two_pow_pos 52) ?_
  rw [toNat_toBits_zeroOf, Nat.zero_mul, Nat.add_zero]

/-- Every sign is that of a number which is negative or not. -/
theorem exists_signOf (sign : Sign) : ∃ negative, sign = signOf negative := by
  cases sign
  · exact ⟨true, rfl⟩
  · exact ⟨false, rfl⟩

/-- The number that is packed has the value. -/
theorem Stands.exactValue?_eq (stands : Stands u v) :
    exactValue? (.ofModel (.pack u)) = some v := by
  cases stands with
  | zero sign =>
      obtain ⟨negative, rfl⟩ := exists_signOf sign
      change exactValue? (zeroOf negative) = _
      rw [exactValue?, reading_zeroOf]
      cases negative <;> simp [Dyadic.toRat]
  | finite sign canonical finite =>
      obtain ⟨negative, rfl⟩ := exists_signOf sign
      change exactValue? (canonical.toFloat negative) = _
      rw [exactValue?, canonical.reading_toFloat finite, apply_signOf]

/-- A number with a value is one of the format. -/
theorem stands_of_exactValue? (value : exactValue? f = some v) : Stands f.toModel.unpack v := by
  rw [exactValue?.eq_def] at value
  split at value
  · rename_i negative x read
    obtain ⟨bits, fits⟩ := bits_of_reading read
    cases value
    rcases Nat.eq_zero_or_pos x.mantissa with nothing | pos
    · have fields : x.fields = (0, 0) := by
        rw [Dyadic.fields, nothing, if_neg (by decide)]
      rw [fields, Nat.zero_mul, Nat.add_zero, Nat.add_zero] at bits
      have same := eq_of_toBits (bits.trans (toNat_toBits_zeroOf negative).symm)
      have none : x.toRat = 0 := by rw [Dyadic.toRat, nothing, Nat.cast_zero, zero_mul]
      rw [none, neg_zero, ite_self, same]
      change Stands (Float.Model.pack _).unpack _
      rw [unpack_pack_zero]
      exact .zero _
    · obtain ⟨canonical, finite⟩ := fits pos
      rw [← apply_signOf, eq_toFloat_of_reading read canonical]
      change Stands (Float.Model.pack _).unpack _
      rw [canonical.unpack_pack finite]
      exact .finite _ canonical finite
  · cases value

/-! ## Rounding what need not be rounded -/

/-- The value is that of a number. -/
def IsExact (v : ℚ) : Prop :=
  ∃ u, Stands u v

/-- An exponent is decreased by a shift of the mantissa. -/
theorem decreaseExponent_eq (m : Nat) {e target : ℤ} (low : target ≤ e) :
    decreaseExponent m e target = (m <<< (e - target).toNat, target) := by
  rw [decreaseExponent]
  exact Prod.ext rfl (by dsimp only; omega)

/-- The shift keeps the value. -/
theorem shiftLeft_value (m : Nat) {e target : ℤ} (low : target ≤ e) :
    ((m <<< (e - target).toNat : Nat) : ℚ) * 2 ^ target = m * 2 ^ e := by
  have places : ((e - target).toNat : ℤ) = e - target := by omega
  rw [Nat.shiftLeft_eq, Nat.cast_mul, Nat.cast_pow, ← zpow_natCast, places, mul_assoc,
    Nat.cast_ofNat, ← zpow_add₀ (by norm_num), sub_add_cancel]

/-- A power of two adds its exponent to a logarithm. -/
theorem log2_mul_two_pow {m : Nat} (pos : 0 < m) (k : Nat) : (m * 2 ^ k).log2 = m.log2 + k := by
  induction k with
  | zero => rw [Nat.pow_zero, Nat.mul_one, Nat.add_zero]
  | succ k ih =>
      have long : m * 2 ^ k ≠ 0 := (Nat.mul_pos pos (Nat.two_pow_pos k)).ne'
      rw [Nat.pow_succ', Nat.mul_left_comm, Nat.log2_two_mul long, ih, Nat.add_assoc]

/-- The shift keeps the place of the first bit. -/
theorem totalExponent_shiftLeft {m : Nat} (pos : 0 < m) {e target : ℤ} (low : target ≤ e) :
    totalExponent (m <<< (e - target).toNat) target = totalExponent m e := by
  rw [totalExponent, totalExponent, Nat.shiftLeft_eq, log2_mul_two_pow pos]
  omega

/-- A mantissa that is made longer, if need be, keeps its value. -/
theorem exists_decreaseExponent {m : Nat} (pos : 0 < m) (e target : ℤ) :
    ∃ n low, decreaseExponent m e target = (n, low) ∧ low ≤ target ∧
      (n : ℚ) * 2 ^ low = m * 2 ^ e ∧ totalExponent n low = totalExponent m e := by
  rcases le_total target e with low | high
  · exact ⟨_, _, decreaseExponent_eq m low, le_rfl, shiftLeft_value m low,
      totalExponent_shiftLeft pos low⟩
  · have still : decreaseExponent m e target = (m, e) := by
      rw [decreaseExponent, show (e - target).toNat = 0 by omega]
      exact Prod.ext rfl (sub_zero e)
    exact ⟨m, e, still, high, rfl, rfl⟩

/-- The value of a magnitude of the format is rounded to it. -/
theorem round_of_value {m : Nat} {e : ℤ} (pos : 0 < m) (canonical : x.Canonical)
    (value : (m : ℚ) * 2 ^ e = x.toRat) (sign : Sign) :
    UnpackedFloat.round Format.binary64 sign m e =
      .finite sign x.mantissa x.exponent canonical.pos := by
  obtain ⟨n, low, decreased, fine, same, total⟩ :=
    exists_decreaseExponent pos e (Format.binary64.targetExponent (totalExponent m e))
  have measures := Measures.exact n low
  rw [same, value] at measures
  rw [UnpackedFloat.round, decreased]
  exact roundWithAccuracy_of_near canonical x.near_toRat measures (total ▸ fine) sign

/-- A number in canonical form is positive. -/
theorem Dyadic.Canonical.toRat_pos (canonical : x.Canonical) : 0 < x.toRat :=
  mul_pos (by exact_mod_cast canonical.pos) (two_zpow_pos _)

/-- The sign may be taken out of a value. -/
theorem apply_value (sign : Sign) (m : Nat) (e : ℤ) :
    ((sign.apply m : ℤ) : ℚ) * 2 ^ e = (sign.apply 1 : ℤ) * (m * 2 ^ e) := by
  cases sign <;> simp [Sign.apply]

/-- The absolute value leaves the sign out. -/
theorem abs_apply (sign : Sign) (m : Nat) (e : ℤ) :
    |((sign.apply m : ℤ) : ℚ) * 2 ^ e| = m * 2 ^ e := by
  have scale := (two_zpow_pos e).le
  cases sign <;> simp [Sign.apply, abs_mul]

/-- A value other than zero is that of a sign and a magnitude. -/
theorem IsExact.exists_canonical (exact : IsExact v) (nonzero : v ≠ 0) :
    ∃ x : Dyadic, x.Canonical ∧ x.exponent ≤ greatestExponent ∧ |v| = x.toRat := by
  obtain ⟨u, stands⟩ := exact
  cases stands with
  | zero sign => exact absurd rfl nonzero
  | finite sign canonical finite => exact ⟨_, canonical, finite, abs_apply sign _ _⟩

/-- The value of a number is not changed by rounding. -/
theorem stands_round {m : Nat} {e : ℤ} (pos : 0 < m) {sign : Sign}
    (exact : IsExact ((sign.apply m : ℤ) * 2 ^ e)) :
    Stands (UnpackedFloat.round Format.binary64 sign m e) ((sign.apply m : ℤ) * 2 ^ e) := by
  have positive : (0 : ℚ) < m * 2 ^ e := mul_pos (by exact_mod_cast pos) (two_zpow_pos e)
  have magnitude := abs_apply sign m e
  obtain ⟨x, canonical, finite, value⟩ :=
    exact.exists_canonical (abs_pos.mp (magnitude ▸ positive))
  rw [magnitude] at value
  rw [round_of_value pos canonical value, apply_value, value, Dyadic.toRat, ← apply_value]
  exact .finite sign canonical finite

/-- Normalizing an exact value rounds nothing away. -/
theorem stands_normalize {m : ℤ} {e : ℤ} (exact : IsExact (m * 2 ^ e)) (zeroSign : Sign) :
    Stands (UnpackedFloat.normalize Format.binary64 m e zeroSign) (m * 2 ^ e) := by
  rw [UnpackedFloat.normalize]
  rcases lt_trichotomy m 0 with below | rfl | above
  · obtain ⟨n, rfl⟩ : ∃ n : Nat, m = -n := ⟨(-m).toNat, by omega⟩
    rw [Int.compare_eq_lt.mpr below]
    dsimp only
    rw [neg_neg, Int.toNat_natCast]
    exact @stands_round n e (by omega) .negative exact
  · rw [Int.cast_zero, zero_mul]
    exact .zero zeroSign
  · obtain ⟨n, rfl⟩ : ∃ n : Nat, m = n := ⟨m.toNat, by omega⟩
    rw [Int.compare_eq_gt.mpr above]
    dsimp only
    rw [Int.toNat_natCast]
    exact @stands_round n e (by omega) .positive exact

/-! ## Operations -/

/-- Two numbers are brought to one exponent. -/
theorem apply_decreaseExponent (sign : Sign) (m : Nat) {e target : ℤ} (low : target ≤ e) :
    ((sign.apply (decreaseExponent m e target).1 : ℤ) : ℚ) * 2 ^ target =
      (sign.apply m : ℤ) * 2 ^ e := by
  rw [decreaseExponent_eq m low, apply_value, shiftLeft_value m low, ← apply_value]

theorem apply_neg (sign : Sign) (n : ℤ) : (-sign).apply n = -sign.apply n := by
  cases sign
  · exact (neg_neg n).symm
  · rfl

/-- An exact sum is computed exactly. -/
theorem Stands.add (first : Stands u v) (second : Stands w z) (exact : IsExact (v + z)) :
    Stands (UnpackedFloat.add Format.binary64 u w) (v + z) := by
  cases first with
  | zero sign =>
      rw [zero_add]
      cases second with
      | zero other =>
          rw [UnpackedFloat.add]
          split <;> exact .zero _
      | finite other canonical finite => exact .finite other canonical finite
  | @finite sign x canonical finite =>
      cases second with
      | zero other =>
          rw [add_zero]
          exact .finite sign canonical finite
      | @finite other y canonical' finite' =>
          have left := apply_decreaseExponent sign x.mantissa (min_le_left x.exponent y.exponent)
          have right := apply_decreaseExponent other y.mantissa (min_le_right x.exponent y.exponent)
          rw [← left, ← right, ← add_mul, ← Int.cast_add] at exact ⊢
          exact stands_normalize exact .positive

/-- An exact difference is computed exactly. -/
theorem Stands.sub (first : Stands u v) (second : Stands w z) (exact : IsExact (v - z)) :
    Stands (UnpackedFloat.sub Format.binary64 u w) (v - z) := by
  cases first with
  | zero sign =>
      rw [zero_sub]
      cases second with
      | zero other =>
          rw [UnpackedFloat.sub, neg_zero]
          split <;> exact .zero _
      | @finite other y canonical finite =>
          have value := Stands.finite (-other) canonical finite
          rw [apply_neg, Int.cast_neg, neg_mul] at value
          exact value
  | @finite sign x canonical finite =>
      cases second with
      | zero other =>
          rw [sub_zero]
          exact .finite sign canonical finite
      | @finite other y canonical' finite' =>
          have left := apply_decreaseExponent sign x.mantissa (min_le_left x.exponent y.exponent)
          have right := apply_decreaseExponent other y.mantissa (min_le_right x.exponent y.exponent)
          rw [← left, ← right, ← sub_mul, ← Int.cast_sub] at exact ⊢
          exact stands_normalize exact .positive

/-- Absolute values are computed exactly. -/
theorem Stands.abs (stands : Stands u v) : Stands u.abs |v| := by
  cases stands with
  | zero sign =>
      rw [abs_zero]
      exact .zero .positive
  | finite sign canonical finite =>
      rw [abs_apply]
      have value := Stands.finite .positive canonical finite
      change Stands _ (((_ : Nat) : ℤ) * _) at value
      rw [Int.cast_natCast] at value
      exact value

/-- The sign of a product is that of its factors together. -/
theorem apply_mul (sign other : Sign) (n : ℤ) :
    (sign * other).apply n = sign.apply 1 * other.apply n := by
  cases sign <;> cases other
  · exact (neg_mul_neg 1 n).trans (one_mul n) |>.symm
  · exact (neg_one_mul n).symm
  · exact (one_mul (-n)).symm
  · exact (one_mul n).symm

/-- The step of a counter. -/
def unit (sign : Sign) : UnpackedFloat :=
  .finite sign (2 ^ 52) (-52) (Nat.two_pow_pos 52)

/-- Multiplication by a unit is exact. -/
theorem Stands.unit_mul (stands : Stands u v) (sign : Sign) :
    Stands (UnpackedFloat.mul Format.binary64 (unit sign) u) ((sign.apply 1 : ℤ) * v) := by
  cases stands with
  | zero other =>
      rw [mul_zero]
      exact .zero _
  | @finite other x canonical finite =>
      have value : ((2 ^ 52 * x.mantissa : Nat) : ℚ) * 2 ^ (-52 + x.exponent) = x.toRat := by
        rw [zpow_add₀ (by norm_num), Dyadic.toRat, Nat.cast_mul, Nat.cast_pow, ← zpow_natCast]
        norm_num
        ring
      have measures := Measures.exact (2 ^ 52 * x.mantissa) (-52 + x.exponent)
      rw [value] at measures
      have fine := le_targetExponent_of_long (Nat.le_mul_of_pos_right (2 ^ 52) canonical.pos)
        (-52 + x.exponent)
      have rounded := roundWithAccuracy_of_near canonical x.near_toRat measures fine (sign * other)
      rw [unit, UnpackedFloat.mul, rounded, ← mul_assoc, ← Int.cast_mul, ← apply_mul]
      exact .finite _ canonical finite

/-! ## Comparisons -/

/-- Of two magnitudes of the format the one with the greater exponent is the greater. -/
theorem Dyadic.Canonical.toRat_lt (canonical : x.Canonical) (other : y.Canonical)
    (less : x.exponent < y.exponent) : x.toRat < y.toRat := by
  have apart : y.exponent ≠ leastExponent := (canonical.least.trans_lt less).ne'
  have short : (x.mantissa : ℚ) < 2 ^ (53 : ℤ) := by exact_mod_cast canonical.short
  have long : (2 : ℚ) ^ (52 : ℤ) ≤ y.mantissa := by exact_mod_cast other.normal.resolve_left apart
  calc x.toRat < 2 ^ (53 : ℤ) * 2 ^ x.exponent :=
        mul_lt_mul_of_pos_right short (two_zpow_pos _)
    _ = 2 ^ (53 + x.exponent) := (zpow_add₀ (by norm_num) _ _).symm
    _ ≤ 2 ^ (52 + y.exponent) := zpow_le_zpow_right₀ one_le_two (by omega)
    _ = 2 ^ (52 : ℤ) * 2 ^ y.exponent := zpow_add₀ (by norm_num) _ _
    _ ≤ y.toRat := mul_le_mul_of_nonneg_right long (two_zpow_pos _).le

/-- Magnitudes are compared by their exponents and then by their mantissas. -/
theorem Dyadic.Canonical.compare_eq (canonical : x.Canonical) (other : y.Canonical) :
    (compare x.exponent y.exponent).then (compare x.mantissa y.mantissa) =
      compare x.toRat y.toRat := by
  rcases lt_trichotomy x.exponent y.exponent with less | same | more
  · rw [compare_lt_iff_lt.mpr less, compare_lt_iff_lt.mpr (canonical.toRat_lt other less)]
    rfl
  · rw [compare_eq_iff_eq.mpr same, Dyadic.toRat, Dyadic.toRat, same]
    have scale := two_zpow_pos y.exponent
    rcases lt_trichotomy x.mantissa y.mantissa with less | equal | more
    · have order := mul_lt_mul_of_pos_right (Nat.cast_lt.mpr less) scale
      rw [compare_lt_iff_lt.mpr less, compare_lt_iff_lt.mpr order]
      rfl
    · rw [equal, compare_eq_iff_eq.mpr rfl, compare_eq_iff_eq.mpr rfl]
      rfl
    · have order := mul_lt_mul_of_pos_right (Nat.cast_lt.mpr more) scale
      rw [compare_gt_iff_gt.mpr more, compare_gt_iff_gt.mpr order]
      rfl
  · rw [compare_gt_iff_gt.mpr more, compare_gt_iff_gt.mpr (other.toRat_lt canonical more)]
    rfl

/-- Negation turns the order around. -/
theorem compare_neg_neg (a b : ℚ) : compare (-a) (-b) = (compare a b).swap := by
  rcases lt_trichotomy a b with less | rfl | more
  · rw [compare_lt_iff_lt.mpr less, compare_gt_iff_gt.mpr (neg_lt_neg less)]
    rfl
  · rw [compare_eq_iff_eq.mpr rfl, compare_eq_iff_eq.mpr rfl]
    rfl
  · rw [compare_gt_iff_gt.mpr more, compare_lt_iff_lt.mpr (neg_lt_neg more)]
    rfl

theorem apply_positive (x : Dyadic) :
    ((Sign.positive.apply x.mantissa : ℤ) : ℚ) * 2 ^ x.exponent = x.toRat := by
  rw [Dyadic.toRat, Sign.apply, Int.cast_natCast]

theorem apply_negative (x : Dyadic) :
    ((Sign.negative.apply x.mantissa : ℤ) : ℚ) * 2 ^ x.exponent = -x.toRat := by
  rw [Dyadic.toRat, Sign.apply, Int.cast_neg, Int.cast_natCast, neg_mul]

/-- Numbers are compared by their values. -/
theorem Stands.compare_eq (first : Stands u v) (second : Stands w z) :
    UnpackedFloat.compare u w = some (compare v z) := by
  cases first with
  | zero sign =>
      cases second with
      | zero other =>
          cases sign <;> cases other <;> exact congrArg some (compare_eq_iff_eq.mpr rfl).symm
      | @finite other y canonical finite =>
          have pos := canonical.toRat_pos
          cases other with
          | negative =>
              rw [apply_negative, compare_gt_iff_gt.mpr (neg_neg_of_pos pos)]
              rfl
          | positive =>
              rw [apply_positive, compare_lt_iff_lt.mpr pos]
              rfl
  | @finite sign x canonical finite =>
      have pos := canonical.toRat_pos
      cases second with
      | zero other =>
          cases sign with
          | negative =>
              rw [apply_negative, compare_lt_iff_lt.mpr (neg_neg_of_pos pos)]
              rfl
          | positive =>
              rw [apply_positive, compare_gt_iff_gt.mpr pos]
              rfl
      | @finite other y canonical' finite' =>
          have pos' := canonical'.toRat_pos
          have magnitudes := canonical.compare_eq canonical'
          cases sign with
          | negative =>
              rw [apply_negative]
              cases other with
              | negative =>
                  rw [apply_negative, compare_neg_neg, ← magnitudes]
                  rfl
              | positive =>
                  rw [apply_positive, compare_lt_iff_lt.mpr (by linarith)]
                  rfl
          | positive =>
              rw [apply_positive]
              cases other with
              | negative =>
                  rw [apply_negative, compare_gt_iff_gt.mpr (by linarith)]
                  rfl
              | positive =>
                  rw [apply_positive, ← magnitudes]
                  rfl

/-- Finite numbers are ordered as their exact values are. -/
theorem le_iff_of_exactValue? (first : exactValue? f = some v) (second : exactValue? g = some z) :
    f ≤ g ↔ v ≤ z := by
  have order := (stands_of_exactValue? first).compare_eq (stands_of_exactValue? second)
  change decide (UnpackedFloat.le _ _ = true) = true ↔ _
  rw [decide_eq_true_iff, UnpackedFloat.le, order, ← compare_le_iff_le]
  exact Ordering.ne_gt_iff_isLE.symm

theorem lt_iff_of_exactValue? (first : exactValue? f = some v) (second : exactValue? g = some z) :
    f < g ↔ v < z := by
  have order := (stands_of_exactValue? first).compare_eq (stands_of_exactValue? second)
  change decide (UnpackedFloat.lt _ _ = true) = true ↔ _
  rw [decide_eq_true_iff, UnpackedFloat.lt, order, ← compare_lt_iff_lt]
  exact beq_iff_eq.trans (Option.some_inj)

/-! ## Whole numbers -/

/-- The whole numbers up to 2^53 are exact, and so are their negatives. -/
theorem isExact_natCast {n : Nat} (within : n ≤ 2 ^ 53) (sign : Sign) :
    IsExact ((sign.apply 1 : ℤ) * n) := by
  rcases Nat.eq_zero_or_pos n with rfl | pos
  · rw [Nat.cast_zero, mul_zero]
    exact ⟨_, .zero .positive⟩
  · have magnitude : ∃ x : Dyadic, x.Canonical ∧ x.exponent ≤ greatestExponent ∧ x.toRat = n := by
      rcases within.lt_or_eq with short | rfl
      · obtain ⟨canonical, finite⟩ := canonical_wholeDyadic pos short
        exact ⟨_, canonical, finite, toRat_wholeDyadic short pos⟩
      · refine ⟨⟨2 ^ 52, 1⟩, ?_, by decide, ?_⟩
        · exact ⟨Nat.two_pow_pos 52, by norm_num, by decide, .inr le_rfl⟩
        · norm_num [Dyadic.toRat]
    obtain ⟨x, canonical, finite, value⟩ := magnitude
    rw [← value, Dyadic.toRat, ← apply_value]
    exact ⟨_, .finite sign canonical finite⟩

/-- Up to `2 ^ 53` all whole numbers are exact. -/
theorem isExact_intCast {n : ℤ} (within : |n| ≤ 2 ^ 53) : IsExact n := by
  have small : n.natAbs ≤ 2 ^ 53 := by
    rw [Int.abs_eq_natAbs] at within
    omega
  rcases le_total 0 n with up | down
  · have positive := isExact_natCast small .positive
    rw [Nat.cast_natAbs, abs_of_nonneg up] at positive
    simpa [Sign.apply] using positive
  · have negative := isExact_natCast small .negative
    rw [Nat.cast_natAbs, abs_of_nonpos down] at negative
    simpa [Sign.apply] using negative

/-- The whole part of a whole number is the number. -/
theorem Stands.toInt_eq {n : Nat} (stands : Stands u n) (least most : ℤ) :
    u.toInt least most = n := by
  generalize value : (n : ℚ) = v at stands
  cases stands with
  | zero sign =>
      have zero : n = 0 := by exact_mod_cast value
      rw [zero]
      rfl
  | @finite sign x canonical finite =>
      have pos := canonical.toRat_pos
      cases sign with
      | negative =>
          rw [apply_negative] at value
          have nonneg : (0 : ℚ) ≤ n := n.cast_nonneg
          exfalso
          linarith
      | positive =>
          rw [apply_positive, Dyadic.toRat] at value
          obtain ⟨m, low, decreased, fine, same, -⟩ :=
            exists_decreaseExponent canonical.pos x.exponent 0
          have measures := Measures.exact m low
          rw [same, ← value, ← mul_one (n : ℚ), ← zpow_zero (2 : ℚ)] at measures
          obtain ⟨em, shifted, whole⟩ := measures.shiftToExponent fine
          rw [UnpackedFloat.toInt, roundToInt, decreased]
          dsimp only
          rw [shifted]
          dsimp only
          rw [whole.mantissa_eq]
          rfl

/-- A whole number below 2^64 is converted to itself. -/
theorem Stands.toNat_toUInt64 {n : Nat} (stands : Stands u n) (small : n < 2 ^ 64) :
    u.toUInt64.toNat = n := by
  rw [UnpackedFloat.toUInt64, stands.toInt_eq, Int.toNat_natCast]
  exact UInt64.toNat_ofNatClamp_of_lt small

/-- The whole numbers up to 2^53 are made without rounding. -/
theorem stands_ofNat {n : Nat} (within : n ≤ 2 ^ 53) :
    Stands (UnpackedFloat.ofNat Format.binary64 n) n := by
  have whole : ((n : ℤ) : ℚ) * 2 ^ (0 : ℤ) = n := by
    rw [zpow_zero, mul_one, Int.cast_natCast]
  have exact : IsExact (((n : ℤ) : ℚ) * 2 ^ (0 : ℤ)) := by
    rw [zpow_zero, mul_one]
    exact isExact_intCast (by rw [Nat.abs_cast]; exact_mod_cast within)
  have stands := stands_normalize exact .positive
  rw [whole] at stands
  exact stands

/-- The literal one stands for the unit. -/
theorem unpack_one : (1.0 : Float).toModel.unpack = unit .positive :=
  rfl

theorem unpack_neg_one : (-1.0 : Float).toModel.unpack = unit .negative :=
  rfl

/-! ## Numbers -/

/-- Where the sum of two exact values is exact, it is what addition gives. -/
theorem exactValue?_add (first : exactValue? f = some v) (second : exactValue? g = some z)
    (exact : IsExact (v + z)) : exactValue? (f + g) = some (v + z) :=
  ((stands_of_exactValue? first).add (stands_of_exactValue? second) exact).exactValue?_eq

theorem exactValue?_sub (first : exactValue? f = some v) (second : exactValue? g = some z)
    (exact : IsExact (v - z)) : exactValue? (f - g) = some (v - z) :=
  ((stands_of_exactValue? first).sub (stands_of_exactValue? second) exact).exactValue?_eq

/-- The exact value of an absolute value. -/
theorem exactValue?_abs (value : exactValue? f = some v) : exactValue? f.abs = some |v| :=
  (stands_of_exactValue? value).abs.exactValue?_eq

/-- A step of one keeps an exact value. -/
theorem exactValue?_one_mul (value : exactValue? f = some v) : exactValue? (1.0 * f) = some v := by
  have product := ((stands_of_exactValue? value).unit_mul .positive).exactValue?_eq
  rw [← unpack_one, Sign.apply, Int.cast_one, one_mul] at product
  exact product

theorem exactValue?_neg_one_mul (value : exactValue? f = some v) :
    exactValue? (-1.0 * f) = some (-v) := by
  have product := ((stands_of_exactValue? value).unit_mul .negative).exactValue?_eq
  rw [← unpack_neg_one, Sign.apply, Int.cast_neg, Int.cast_one, neg_one_mul] at product
  exact product

/-- A float that is a whole number below 2^64 counts as that number. -/
theorem toNat_toUInt64_of_exactValue? {n : Nat} (value : exactValue? f = some (n : ℚ))
    (small : n < 2 ^ 64) : f.toUInt64.toNat = n :=
  (stands_of_exactValue? value).toNat_toUInt64 small

/-- An index up to 2^53 becomes a float with that exact value. -/
theorem exactValue?_toFloat {n : Nat} (within : n ≤ 2 ^ 53) :
    exactValue? n.toUInt64.toFloat = some (n : ℚ) := by
  have same : n.toUInt64.toNat = n :=
    UInt64.toNat_ofNat_of_lt (within.trans_lt (by norm_num))
  have value := (stands_ofNat within).exactValue?_eq
  rw [← value]
  conv_rhs => rw [← same]
  rfl

/-- Only finite numbers have an exact value. -/
theorem isFinite_of_exactValue? (value : exactValue? f = some v) : isFinite f = true := by
  rw [exactValue?] at value
  rw [isFinite]
  cases read : reading f with
  | finite negative x => rfl
  | infinite negative => cases read ▸ value
  | notANumber => cases read ▸ value

end CommandScript.Decimal
