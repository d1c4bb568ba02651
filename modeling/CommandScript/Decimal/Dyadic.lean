/-!
# The exact value of a floating-point number

A number in the binary64 format is not a number, an infinity, or a signed magnitude `m · 2 ^ q`. The
magnitude is read off the bits, so everything about its decimal forms is decided by arithmetic on
natural numbers.
-/

namespace CommandScript.Decimal

/-- The magnitude `mantissa · 2 ^ exponent`. -/
structure Dyadic where
  mantissa : Nat
  exponent : Int
deriving DecidableEq, Repr

/-- What a binary64 number stands for. -/
inductive Reading where
  | notANumber
  | infinite (negative : Bool)
  | finite (negative : Bool) (magnitude : Dyadic)
deriving DecidableEq, Repr

/-- The exponent of the numbers closest to zero. -/
def leastExponent : Int := -1074

/-- The mantissa of a number at the foot of its binade, whose lower neighbour is only half as far
away as its upper one. -/
def footMantissa : Nat := Nat.pow 2 52

/-- The bits split into sign, exponent and fraction and read as the format prescribes. -/
def reading (x : Float) : Reading :=
  let bits : Nat := x.toBits.toNat
  let negative := bits / Nat.pow 2 63 == 1
  let biased : Nat := bits / footMantissa % Nat.pow 2 11
  let fraction : Nat := bits % footMantissa
  if biased = 2047 then
    if fraction = 0 then .infinite negative else .notANumber
  else if biased = 0 then
    .finite negative ⟨fraction, leastExponent⟩
  else
    .finite negative ⟨fraction + footMantissa, (biased : Int) - 1075⟩

/-- The number is neither infinite nor undefined. -/
def isFinite (x : Float) : Bool :=
  match reading x with
  | .finite .. => true
  | _ => false

end CommandScript.Decimal
