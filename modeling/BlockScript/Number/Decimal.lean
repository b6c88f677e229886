import BlockScript.Number.Double
import BlockScript.Text.Digit

/-!
# Decimal texts of doubles

A decimal `digits * 10 ^ exponent` reads as the nearest double, and a double is
written with the fewest digits that read back as the same double. Of several
such texts the one nearest to the exact value is chosen.
-/

namespace BlockScript.Number

/-- A non-negative decimal: `digits * 10 ^ exponent`. -/
structure Decimal where
  digits : Nat
  exponent : Int
  deriving DecidableEq, Repr

namespace Decimal

/-- The digits of a natural number in base ten. -/
def digitsOf (n : Nat) : List Char :=
  Nat.toDigits 10 n

/-- Powers of ten from here on exceed every double. -/
def overflowPower : Int := 310

/-- Decimals below this power of ten round to zero. -/
def underflowPower : Int := -330

/-- The double nearest to a decimal with the given sign. Powers of ten far
    outside the range of doubles are settled without being computed. -/
def toDouble (negative : Bool) (d : Decimal) : Double :=
  let power := (digitsOf d.digits).length + d.exponent
  if d.digits = 0 then .zero negative
  else if overflowPower < power then .infinite negative
  else if power < underflowPower then .zero negative
  else if 0 ≤ d.exponent then .ofQuotient negative (d.digits * Nat.pow 10 d.exponent.toNat) 1
  else .ofQuotient negative d.digits (Nat.pow 10 (-d.exponent).toNat)

end Decimal

namespace Double

/-! ## Fewest digits -/

/-- How many digits of a fraction are looked at for the position of its point, which
    are more than any double has zeros there. -/
def pointReach : Nat := 400

/-- The number of digits before the point of `num / den`; for a number below
    one, minus the number of zeros right after the point. -/
def pointPosition (num den : Nat) : Int :=
  (Decimal.digitsOf (num * Nat.pow 10 pointReach / den)).length - pointReach

/-- `num / den` divided by `10 ^ exponent`, as a numerator and a denominator. -/
def scaledByTen (num den : Nat) (exponent : Int) : Nat × Nat :=
  if 0 ≤ exponent then (num, den * Nat.pow 10 exponent.toNat) else (num * Nat.pow 10 (-exponent).toNat, den)

/-- Of the two decimals of an exponent beside `scaled`, a quotient of that scale,
    the nearest that reads back as the double `x`. A tie goes to the even one. -/
def readingBack? (x : Double) (scaled : Nat × Nat) (exponent : Int) : Option Decimal :=
  let quotient := scaled.1 / scaled.2
  let below : Decimal := ⟨quotient, exponent⟩
  let above : Decimal := ⟨quotient + 1, exponent⟩
  let rounded := Double.roundHalfEven scaled.1 scaled.2
  let nearer := if rounded = quotient then below else above
  let farther := if rounded = quotient then above else below
  if nearer.toDouble false = x then some nearer
  else if farther.toDouble false = x then some farther
  else none

/-- The decimal with `count` digits that is nearest to `num / den` among the two
    beside it that read back as the double `x`. -/
def nearestDecimal? (x : Double) (num den count : Nat) : Option Decimal :=
  let exponent := pointPosition num den - count
  readingBack? x (scaledByTen num den exponent) exponent

/-- The shortest decimal that reads back as the positive number
    `significand * 2 ^ exponent`. Seventeen digits always do. -/
def shortest (significand : Nat) (exponent : Int) : Decimal :=
  let (num, den) := fraction significand exponent
  let x := Double.finite false significand exponent
  ((List.range' 1 17).findSome? (nearestDecimal? x num den)).getD ⟨significand, 0⟩

/-! ## Layout -/

/-- The layout of decimal digits with the point after the first `point` of them.
    From `1e16` on and below `0.0001` a power of ten is written out, with at
    least two digits. -/
def layout (digits : List Char) (point : Int) : List Char :=
  if -4 < point && point ≤ 16 then
    if point ≤ 0 then '0' :: '.' :: (List.replicate (-point).toNat '0' ++ digits)
    else if digits.length ≤ point then
      digits ++ List.replicate (point.toNat - digits.length) '0' ++ ['.', '0']
    else digits.take point.toNat ++ '.' :: digits.drop point.toNat
  else
    let power := point - 1
    let mantissa :=
      match digits with
      | [] => []
      | [d] => [d]
      | d :: rest => d :: '.' :: rest
    mantissa ++ 'e' :: (if power < 0 then '-' else '+') ::
      Text.paddedDigits 10 2 power.natAbs

/-- The digits of a decimal without zeros at the end, and how many of them stand
    before the point. -/
def significantDigits (d : Decimal) : List Char × Int :=
  let digits := Decimal.digitsOf d.digits
  ((digits.reverse.dropWhile (· = '0')).reverse, digits.length + d.exponent)

/-- The text of a double. -/
def toText : Double → String
  | .nan => "nan"
  | .infinite negative => if negative then "-inf" else "inf"
  | .finite negative significand exponent =>
    let magnitude :=
      if significand = 0 then ['0', '.', '0']
      else
        let (digits, point) := significantDigits (shortest significand exponent)
        layout digits point
    String.ofList (if negative then '-' :: magnitude else magnitude)

end Double

end BlockScript.Number
