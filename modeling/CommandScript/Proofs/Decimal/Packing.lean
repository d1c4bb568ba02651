import CommandScript.Proofs.Decimal.Rounding
import Mathlib

/-!
# The bits of a number

A finite number other than zero has the bits of its sign, of its exponent with a bias, and of its
mantissa without the leading bit. The magnitudes that bits stand for are those of the format, and a
number is determined by its sign and its magnitude.
-/

namespace CommandScript.Decimal

open Float.Model Float.Model.UnpackedFloat

/-! ## Packing -/

/-- The sign of a number. -/
def signOf (negative : Bool) : Sign :=
  if negative then .negative else .positive

/-- The greatest exponent of a finite number. -/
def greatestExponent : Int := 971

/-- The bits of a number are those of its sign, its exponent and its fraction in a row. -/
theorem toNat_packComponents (sign : Sign) (exponent : BitVec 11) (fraction : BitVec 52) :
    (packComponents Format.binary64 sign exponent fraction).toNat =
      sign.toBitVec.toNat * 2 ^ 63 + exponent.toNat * 2 ^ 52 + fraction.toNat := by
  rw [packComponents, BitVec.toNat_append, BitVec.toNat_append,
    ← Nat.shiftLeft_add_eq_or_of_lt exponent.isLt, ← Nat.shiftLeft_add_eq_or_of_lt fraction.isLt,
    Nat.shiftLeft_eq, Nat.shiftLeft_eq]
  ring

/-- The exponent with its bias and the mantissa without its leading bit, or no exponent and the
whole of a short mantissa. -/
def Dyadic.fields (x : Dyadic) : Nat × Nat :=
  if footMantissa ≤ x.mantissa then ((x.exponent + 1075).toNat, x.mantissa - footMantissa)
  else (0, x.mantissa)

variable {x : Dyadic}

/-- The fields of a finite number fit their places in the bits. -/
theorem Dyadic.Canonical.fields_lt (canonical : x.Canonical)
    (finite : x.exponent ≤ greatestExponent) :
    x.fields.1 < 2047 ∧ x.fields.2 < footMantissa := by
  have short := canonical.short
  rw [greatestExponent] at finite
  rw [footMantissa_eq, fields, footMantissa_eq]
  split
  · dsimp only
    omega
  · dsimp only
    omega

/-- A magnitude of the format is packed as its fields. -/
theorem Dyadic.Canonical.pack_eq (canonical : x.Canonical) (finite : x.exponent ≤ greatestExponent)
    (sign : Sign) :
    UnpackedFloat.pack Format.binary64 (.finite sign x.mantissa x.exponent canonical.pos) =
      packComponents Format.binary64 sign (.ofNat 11 x.fields.1) (.ofNat 52 x.fields.2) := by
  have short := canonical.short
  have least := canonical.least
  have lead := canonical.normal
  rw [greatestExponent] at finite
  rw [leastExponent] at least lead
  rw [footMantissa_eq] at lead
  have fits : ¬ 2 ^ 11 ≤ (x.exponent + 1023 + 52).toNat + 1 := by omega
  change (if 2 ^ 11 ≤ (x.exponent + 1023 + 52).toNat + 1 then _
    else if x.mantissa.log2 + 1 = 53 then _ else _) = _
  rw [if_neg fits, fields, footMantissa_eq]
  by_cases normal : 2 ^ 52 ≤ x.mantissa
  · have long : x.mantissa.log2 + 1 = 53 := by
      have := (Nat.le_log2 canonical.pos.ne').mpr normal
      have := (Nat.log2_lt canonical.pos.ne').mpr short
      omega
    have fraction : BitVec.ofNat 52 x.mantissa = BitVec.ofNat 52 (x.mantissa - 2 ^ 52) := by
      apply BitVec.eq_of_toNat_eq
      rw [BitVec.toNat_ofNat, BitVec.toNat_ofNat, Nat.mod_eq_sub_mod normal]
    rw [if_pos long, if_pos normal]
    dsimp only
    rw [← fraction, add_assoc]
    rfl
  · have brief : ¬ x.mantissa.log2 + 1 = 53 := by
      have := (Nat.log2_lt canonical.pos.ne').mpr (Nat.lt_of_not_le normal)
      omega
    rw [if_neg brief, if_neg normal]

/-- The bits of a magnitude of the format, read as a natural number. -/
theorem Dyadic.Canonical.toNat_pack (canonical : x.Canonical)
    (finite : x.exponent ≤ greatestExponent) (sign : Sign) :
    (UnpackedFloat.pack Format.binary64
        (.finite sign x.mantissa x.exponent canonical.pos)).toNat =
      sign.toBitVec.toNat * 2 ^ 63 + x.fields.1 * 2 ^ 52 + x.fields.2 := by
  obtain ⟨exponent, fraction⟩ := canonical.fields_lt finite
  rw [footMantissa_eq] at fraction
  rw [canonical.pack_eq finite, toNat_packComponents, BitVec.toNat_ofNat, BitVec.toNat_ofNat,
    Nat.mod_eq_of_lt (by omega), Nat.mod_eq_of_lt fraction]

/-! ## Unpacking -/

/-- What has been packed is unpacked as it was. -/
theorem Dyadic.Canonical.unpack_pack (canonical : x.Canonical)
    (finite : x.exponent ≤ greatestExponent) (sign : Sign) :
    (Float.Model.pack (.finite sign x.mantissa x.exponent canonical.pos)).unpack =
      .finite sign x.mantissa x.exponent canonical.pos := by
  obtain ⟨exponent, fraction⟩ := canonical.fields_lt finite
  have short := canonical.short
  have least := canonical.least
  have lead := canonical.normal
  have pos := canonical.pos
  rw [leastExponent] at least lead
  rw [footMantissa_eq] at lead fraction
  change UnpackedFloat.unpack Format.binary64 (UnpackedFloat.pack Format.binary64 _) = _
  have exponentBits : (BitVec.ofNat 11 x.fields.1).toNat = x.fields.1 := by
    rw [BitVec.toNat_ofNat, Nat.mod_eq_of_lt (by omega)]
  have fractionBits : (BitVec.ofNat 52 x.fields.2).toNat = x.fields.2 := by
    rw [BitVec.toNat_ofNat, Nat.mod_eq_of_lt fraction]
  have notFull : BitVec.ofNat 11 x.fields.1 ≠ -1#11 := by
    intro full
    rw [full] at exponentBits
    change 2047 = x.fields.1 at exponentBits
    omega
  rw [canonical.pack_eq finite, UnpackedFloat.unpack]
  simp only [unpackMantissa_packComponents, unpackExponent_packComponents,
    unpackSign_packComponents, Sign.ofBitVec_toBitVec, if_neg notFull]
  by_cases normal : 2 ^ 52 ≤ x.mantissa
  · have biased : x.fields.1 = (x.exponent + 1075).toNat := by
      rw [Dyadic.fields, footMantissa_eq, if_pos normal]
    have rest : x.fields.2 = x.mantissa - 2 ^ 52 := by
      rw [Dyadic.fields, footMantissa_eq, if_pos normal]
    rw [biased] at exponentBits ⊢
    rw [rest] at fractionBits ⊢
    have filled : BitVec.ofNat 11 (x.exponent + 1075).toNat ≠ 0#11 := by
      intro zero
      rw [zero, BitVec.toNat_ofNat] at exponentBits
      omega
    rw [if_neg filled, UnpackedFloat.finite.injEq, exponentBits, BitVec.toNat_append,
      ← Nat.shiftLeft_add_eq_or_of_lt (BitVec.isLt _), fractionBits]
    refine ⟨rfl, ?_, ?_⟩
    · change 1 <<< 52 + (x.mantissa - 2 ^ 52) = x.mantissa
      omega
    · change ((x.exponent + 1075).toNat : ℤ) - (1023 + 52) = x.exponent
      omega
  · have none : x.fields.1 = 0 := by
      rw [Dyadic.fields, footMantissa_eq, if_neg normal]
    have whole : x.fields.2 = x.mantissa := by
      rw [Dyadic.fields, footMantissa_eq, if_neg normal]
    rw [whole] at fractionBits
    rw [none, whole]
    have filled : BitVec.ofNat 52 x.mantissa ≠ 0#52 := by
      intro zero
      rw [zero, BitVec.toNat_ofNat] at fractionBits
      omega
    rw [if_pos rfl, dif_neg filled, UnpackedFloat.finite.injEq, fractionBits]
    refine ⟨rfl, rfl, ?_⟩
    change (0 : ℤ) - (1023 + 52) + 1 = x.exponent
    omega

/-! ## Reading -/

/-- A subnormal number has a biased exponent of zero. -/
theorem Dyadic.fields_of_least {fraction : Nat} (less : fraction < 2 ^ 52) :
    (Dyadic.mk fraction leastExponent).fields = (0, fraction) := by
  rw [fields, footMantissa_eq, if_neg (Nat.not_le_of_lt less)]

/-- A normal number is stored without its first bit. -/
theorem Dyadic.fields_of_normal (biased fraction : Nat) :
    (Dyadic.mk (fraction + 2 ^ 52) ((biased : ℤ) - 1075)).fields = (biased, fraction) := by
  rw [fields, footMantissa_eq, if_pos (Nat.le_add_left _ _)]
  refine Prod.ext ?_ (Nat.add_sub_cancel _ _)
  dsimp only
  omega

/-- How bits are read, with their number of places in sight. -/
theorem reading_eq (f : Float) :
    reading f =
      if f.toBits.toNat / 2 ^ 52 % 2 ^ 11 = 2047 then
        if f.toBits.toNat % 2 ^ 52 = 0 then .infinite (f.toBits.toNat / 2 ^ 63 == 1)
        else .notANumber
      else if f.toBits.toNat / 2 ^ 52 % 2 ^ 11 = 0 then
        .finite (f.toBits.toNat / 2 ^ 63 == 1) ⟨f.toBits.toNat % 2 ^ 52, leastExponent⟩
      else
        .finite (f.toBits.toNat / 2 ^ 63 == 1) ⟨f.toBits.toNat % 2 ^ 52 + 2 ^ 52,
          ((f.toBits.toNat / 2 ^ 52 % 2 ^ 11 : Nat) : ℤ) - 1075⟩ :=
  rfl

/-- The bits that a finite number is read from are its fields, and its magnitude is one of the
format, unless it is zero. -/
theorem bits_of_reading {f : Float} {negative : Bool} (read : reading f = .finite negative x) :
    f.toBits.toNat = negative.toNat * 2 ^ 63 + x.fields.1 * 2 ^ 52 + x.fields.2 ∧
      (0 < x.mantissa → x.Canonical ∧ x.exponent ≤ greatestExponent) := by
  have bound : f.toBits.toNat < 2 ^ 64 := f.toBits.toBitVec.isLt
  rw [reading_eq] at read
  generalize f.toBits.toNat = bits at *
  have sign : (bits / 2 ^ 63 == 1).toNat = bits / 2 ^ 63 := by
    rcases Nat.lt_or_ge bits (2 ^ 63) with low | high
    · rw [Nat.div_eq_of_lt low]
      rfl
    · rw [show bits / 2 ^ 63 = 1 by omega]
      rfl
  rw [greatestExponent]
  split at read
  · split at read
    · cases read
    · cases read
  split at read
  · rename_i none
    have less : bits % 2 ^ 52 < 2 ^ 52 := Nat.mod_lt _ (by decide)
    cases read
    rw [Dyadic.fields_of_least less, sign]
    refine ⟨by omega, fun pos => ⟨⟨pos, less.trans (by decide), le_rfl, .inl rfl⟩, ?_⟩⟩
    exact (by decide : (-1074 : ℤ) ≤ 971)
  · rename_i some
    cases read
    rw [Dyadic.fields_of_normal, sign]
    refine ⟨by omega, fun pos => ⟨⟨pos, ?_, ?_, .inr (Nat.le_add_left _ _)⟩, ?_⟩⟩
    · dsimp only
      omega
    · dsimp only [leastExponent]
      omega
    · dsimp only
      omega

/-- The bit of a sign is set for negative numbers. -/
theorem toNat_signOf (negative : Bool) : (signOf negative).toBitVec.toNat = negative.toNat := by
  cases negative <;> rfl

/-- The number of a sign and a magnitude of the format. -/
def Dyadic.Canonical.toFloat (canonical : x.Canonical) (negative : Bool) : Float :=
  .ofModel (.pack (.finite (signOf negative) x.mantissa x.exponent canonical.pos))

/-- A number is determined by its bits, read as a natural number. -/
theorem eq_of_toBits {f g : Float} (same : f.toBits.toNat = g.toBits.toNat) : f = g :=
  Float.toBits_inj.mp (UInt64.toNat_inj.mp same)

/-- A finite number other than zero is that of its sign and its magnitude. -/
theorem eq_toFloat_of_reading {f : Float} {negative : Bool} (read : reading f = .finite negative x)
    (canonical : x.Canonical) : f = canonical.toFloat negative := by
  obtain ⟨bits, fits⟩ := bits_of_reading read
  have packed := canonical.toNat_pack (fits canonical.pos).2 (signOf negative)
  rw [toNat_signOf, ← bits] at packed
  exact eq_of_toBits packed.symm

/-- The negative of the number of a magnitude. -/
theorem Dyadic.Canonical.neg_toFloat (canonical : x.Canonical)
    (finite : x.exponent ≤ greatestExponent) :
    -canonical.toFloat false = canonical.toFloat true := by
  change Float.ofModel (.pack (UnpackedFloat.neg (Float.Model.pack _).unpack)) = _
  rw [canonical.unpack_pack finite]
  rfl

end CommandScript.Decimal
