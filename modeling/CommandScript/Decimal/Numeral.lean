/-!
# Decimal numerals

A numeral is an optional minus sign, digits, and optionally a point with further digits after it.
Its value is the binary64 number nearest to the decimal it spells; a decimal beyond the greatest
finite number gives an infinity. A scientific numeral may carry an exponent in addition.
-/

namespace CommandScript.Decimal

/-- A non-empty row of the ten ASCII digits. -/
def isDigits (text : List Char) : Bool :=
  !text.isEmpty && text.all Char.isDigit

/-- The sign, the digits before the point and, if there is a point, the text after it. -/
structure Numeral where
  negative : Bool
  whole : List Char
  fraction : Option (List Char)
deriving DecidableEq, Repr

/-- A text cut at a leading minus sign and at its first point. -/
def Numeral.cut (text : List Char) : Numeral :=
  let (negative, unsigned) :=
    match text with
    | '-' :: rest => (true, rest)
    | rest => (false, rest)
  let whole := unsigned.takeWhile (· != '.')
  match unsigned.dropWhile (· != '.') with
  | [] => ⟨negative, whole, none⟩
  | _ :: fraction => ⟨negative, whole, some fraction⟩

/-- Digits stand before the point, and after it if there is one. -/
def Numeral.isProper (numeral : Numeral) : Bool :=
  isDigits numeral.whole && numeral.fraction.all isDigits

/-- The text has the shape of a numeral. -/
def isNumeral (text : List Char) : Bool :=
  (Numeral.cut text).isProper

/-- The natural number that a row of digits spells. -/
def digitsValue (digits : List Char) : Nat :=
  digits.foldl (fun value c => 10 * value + (c.toNat - '0'.toNat)) 0

/-- The number nearest to `± digits · 10 ^ exponent`, where the digits are given with their count.
Beyond the exponents of the format the outcome is settled without a computation. -/
def nearest (negative : Bool) (digits count : Nat) (exponent : Int) : Float :=
  let magnitude :=
    if digits = 0 ∨ exponent + count < -400 then 0.0
    else if 400 < exponent then 1.0 / 0.0
    else Float.ofScientific digits (exponent < 0) exponent.natAbs
  if negative then -magnitude else magnitude

/-- The value of a numeral scaled by a power of ten. -/
def Numeral.value (numeral : Numeral) (exponent : Int) : Float :=
  let fraction := numeral.fraction.getD []
  let digits := numeral.whole ++ fraction
  nearest numeral.negative (digitsValue digits) digits.length (exponent - fraction.length)

/-- Reads what follows the mantissa: nothing, or the letter `e` with an optional sign and digits. -/
def exponent? : List Char → Option Int
  | [] => some 0
  | _ :: '-' :: digits => if isDigits digits then some (-(digitsValue digits : Int)) else none
  | _ :: '+' :: digits => if isDigits digits then some (digitsValue digits) else none
  | _ :: digits => if isDigits digits then some (digitsValue digits) else none

/-- The character parts a mantissa from its exponent. -/
def isExponentMark (c : Char) : Bool :=
  c == 'e' || c == 'E'

/-- Reads a numeral with an optional exponent. -/
def scientific? (text : List Char) : Option Float :=
  let numeral := Numeral.cut (text.takeWhile fun c => !isExponentMark c)
  if numeral.isProper then
    (exponent? (text.dropWhile fun c => !isExponentMark c)).map numeral.value
  else none

/-- Reads a number: a numeral with an optional exponent, or one of the names `NaN`, `inf` and
`-inf`. -/
def number? (text : String) : Option Float :=
  match text with
  | "NaN" => some (0.0 / 0.0)
  | "inf" => some (1.0 / 0.0)
  | "-inf" => some (-1.0 / 0.0)
  | text => scientific? text.toList

/-- An exponent begins where the digits end. -/
theorem not_isExponentMark_of_isDigit {c : Char} (hdigit : c.isDigit = true) :
    isExponentMark c = false := by
  simp only [isExponentMark, Bool.or_eq_false_iff, beq_eq_false_iff_ne]
  constructor <;> rintro rfl <;> exact absurd hdigit (by decide)

end CommandScript.Decimal
