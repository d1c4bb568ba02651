import CommandScript.Decimal.Dyadic

/-!
# The shortest decimal that reads back

The decimals that round to a given binary number fill an interval around it, half-way to its two
neighbours, with the ends included exactly if its mantissa is even. Among the decimals in that
interval `shortest` takes one with the fewest digits, of those the nearest to the number, and of two
equally near the greater. It tries the grids of multiples of ever smaller powers of ten; on the grid
that holds the number itself the search is over at the latest.
-/

namespace CommandScript.Decimal

/-- The decimal `digits · 10 ^ exponent`, a point of the grid of multiples of that power. -/
structure GridPoint where
  digits : Nat
  exponent : Int
deriving DecidableEq, Repr

/-- The number of decimal digits of a natural number; zero has one. -/
def digitCount (n : Nat) : Nat :=
  (Nat.toDigits 10 n).length

/-- A magnitude with the interval that rounds to it, as fractions over one denominator. -/
structure Interval where
  lower : Nat
  middle : Nat
  upper : Nat
  denominator : Nat
  closed : Bool

/-- The interval of the reals that round to the magnitude. -/
def Dyadic.interval (x : Dyadic) : Interval :=
  let below := if x.mantissa = footMantissa ∧ x.exponent ≠ leastExponent then 1 else 2
  let scale := Nat.pow 2 (x.exponent - 2).toNat
  { lower := (4 * x.mantissa - below) * scale
    middle := 4 * x.mantissa * scale
    upper := (4 * x.mantissa + 2) * scale
    denominator := Nat.pow 2 (2 - x.exponent).toNat
    closed := x.mantissa % 2 == 0 }

/-- The position of the leading digit of a positive fraction: `10 ^ k ≤ n / d < 10 ^ (k + 1)`. -/
def leadingPosition (n d : Nat) : Int :=
  if d ≤ n then digitCount (n / d) - 1 else -(digitCount ((d + n - 1) / n - 1))

/-- The point of the grid of multiples of `10 ^ k` that stands for the interval, if the interval
holds one: the multiple below or above its middle, the nearer one if both are inside, and of two
equally near the one above. -/
def Interval.gridPoint? (i : Interval) (k : Int) : Option GridPoint :=
  let stretch := Nat.pow 10 (-k).toNat
  let unit := i.denominator * Nat.pow 10 k.toNat
  let down := i.middle * stretch / unit
  let up := down + 1
  let inside (lesser greater : Nat) : Bool :=
    if i.closed then lesser ≤ greater else lesser < greater
  let downFits := inside (i.lower * stretch) (down * unit)
  let upFits := inside (up * unit) (i.upper * stretch)
  let upNearer : Bool := up * unit - i.middle * stretch ≤ i.middle * stretch - down * unit
  if upFits && (!downFits || upNearer) then some ⟨up, k⟩
  else if downFits then some ⟨down, k⟩
  else none

/-- The decimal that equals the magnitude. -/
def Dyadic.exact (x : Dyadic) : GridPoint :=
  ⟨x.mantissa * Nat.pow 2 x.exponent.toNat * Nat.pow 5 (-x.exponent).toNat, min x.exponent 0⟩

/-- The first grid at or below position `k` with a point in the interval, over the given number of
grids; after them the exact decimal. -/
def Dyadic.search (x : Dyadic) : Nat → Int → GridPoint
  | 0, _ => x.exact
  | grids + 1, k =>
    match x.interval.gridPoint? k with
    | some point => point
    | none => x.search grids (k - 1)

/-- The shortest decimal that rounds to a positive magnitude, the nearest among those. -/
def Dyadic.shortest (x : Dyadic) : GridPoint :=
  let k := leadingPosition x.interval.middle x.interval.denominator
  x.search (k - min x.exponent 0 + 1).toNat k

end CommandScript.Decimal
