import CommandScript.Decimal.Shortest

/-!
# Decimal numbers as text

A layout says how a number is written: whether a whole number keeps a zero after the point, and at
which magnitudes the notation with an exponent is used. Two layouts are in use. `plain` writes the
numbers of programs: no exponent at any magnitude and no point that is not needed, so that the
reader takes the text back as a number. `diagnostic` always shows a fraction and resorts to an
exponent far from one.
-/

namespace CommandScript.Decimal

/-- The decisions of a number format. -/
structure Layout where
  /-- A whole number is written with a zero after the point. -/
  keepsFraction : Bool
  /-- The positions of the leading digit between which no exponent is used, if there is a limit. -/
  positional : Option (Int × Int)

/-- Numbers as programs write them. -/
def Layout.plain : Layout :=
  ⟨false, none⟩

/-- Numbers as diagnostics show them: an exponent below `1e-4` and from `1e16` on. -/
def Layout.diagnostic : Layout :=
  ⟨true, some (-4, 15)⟩

/-- The digits without the zeros at their end, and how many there were. -/
def stripZeros (digits : List Char) : List Char × Nat :=
  let kept := (digits.reverse.dropWhile (· == '0')).reverse
  (kept, digits.length - kept.length)

/-- The digits with the point set as the exponent demands and zeros where it lies outside them. -/
def positionalText (digits : List Char) (exponent : Int) (keepsFraction : Bool) : List Char :=
  if 0 ≤ exponent then
    digits ++ List.replicate exponent.toNat '0' ++ (if keepsFraction then ['.', '0'] else [])
  else
    let places := (-exponent).toNat
    if places < digits.length then
      digits.take (digits.length - places) ++ '.' :: digits.drop (digits.length - places)
    else
      '0' :: '.' :: List.replicate (places - digits.length) '0' ++ digits

/-- One digit before the point, the others after it, and the position of the first as the
exponent. -/
def exponentText (digits : List Char) (position : Int) : List Char :=
  let mantissa :=
    match digits with
    | first :: second :: rest => first :: '.' :: second :: rest
    | few => few
  mantissa ++ 'e' :: (toString position).toList

/-- A positive magnitude as text. -/
def Layout.magnitude (layout : Layout) (x : Dyadic) : List Char :=
  let point := x.shortest
  let (digits, zeros) := stripZeros (Nat.toDigits 10 point.digits)
  let exponent := point.exponent + zeros
  let position := exponent + digits.length - 1
  match layout.positional with
  | some (first, last) =>
    if first ≤ position ∧ position ≤ last then
      positionalText digits exponent layout.keepsFraction
    else exponentText digits position
  | none => positionalText digits exponent layout.keepsFraction

/-- A number as text. -/
def Layout.text (layout : Layout) (x : Float) : String :=
  match reading x with
  | .notANumber => "NaN"
  | .infinite negative => if negative then "-inf" else "inf"
  | .finite negative magnitude =>
    let digits :=
      if magnitude.mantissa = 0 then (if layout.keepsFraction then ['0', '.', '0'] else ['0'])
      else layout.magnitude magnitude
    String.ofList (if negative then '-' :: digits else digits)

end CommandScript.Decimal
