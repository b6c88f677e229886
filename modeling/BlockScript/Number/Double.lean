/-!
# Double-precision numbers

The numbers of the binary64 format, written out: a sign, a significand and a
power of two. Rounding a quotient to the nearest double is done in exact
natural-number arithmetic, with ties to the even significand, so everything
here can be computed by hand.
-/

namespace BlockScript.Number

/-- A double-precision number. A finite one is `± significand * 2 ^ exponent`. -/
inductive Double where
  | nan
  | infinite (negative : Bool)
  | finite (negative : Bool) (significand : Nat) (exponent : Int)
  deriving DecidableEq, Repr

namespace Double

/-! ## The format -/

/-- The number of bits of a full significand. -/
def precision : Nat := 53

/-- The exponent of the smallest numbers. -/
def minExponent : Int := -1074

/-- The exponent of the largest numbers. -/
def maxExponent : Int := 971

/-- Zero with a sign. -/
def zero (negative : Bool) : Double :=
  .finite negative 0 minExponent

/-! ## Rounding -/

/-- The natural number nearest to `num / den`; a half goes to the even one. -/
def roundHalfEven (num den : Nat) : Nat :=
  let quotient := num / den
  let twice := 2 * (num % den)
  if twice < den then quotient
  else if den < twice then quotient + 1
  else quotient + quotient % 2

/-- `num / den / 2 ^ exponent` as a numerator and a denominator. -/
def scaled (num den : Nat) (exponent : Int) : Nat × Nat :=
  if 0 ≤ exponent then (num, den * Nat.pow 2 exponent.toNat) else (num * Nat.pow 2 (-exponent).toNat, den)

/-- The exponent at which `num / den` has a full significand, or the smallest
    exponent if that lies above it. -/
def exponentOf (num den : Nat) : Int :=
  let guess := max (Nat.log2 num - Nat.log2 den - precision : Int) minExponent
  let (n, d) := scaled num den guess
  if n / d < Nat.pow 2 precision then guess else guess + 1

/-- The double nearest to `num / den`, for a positive `den`. -/
def ofQuotient (negative : Bool) (num den : Nat) : Double :=
  if num = 0 then zero negative
  else
    let exponent := exponentOf num den
    let (n, d) := scaled num den exponent
    let rounded := roundHalfEven n d
    let (significand, exponent) :=
      if rounded = Nat.pow 2 precision then (Nat.pow 2 (precision - 1), exponent + 1) else (rounded, exponent)
    if maxExponent < exponent then .infinite negative else .finite negative significand exponent

/-- The double nearest to an integer. Beyond the largest double it is infinite. -/
def ofInt (n : Int) : Double :=
  ofQuotient (n < 0) n.natAbs 1

/-! ## Tests and parts -/

/-- Whether the number is neither infinite nor NaN. -/
def isFinite : Double → Bool
  | .finite .. => true
  | _ => false

/-- Whether the number is zero, with either sign. -/
def isZero : Double → Bool
  | .finite _ significand _ => significand = 0
  | _ => false

/-- The magnitude of a finite number as a numerator and a denominator. -/
def fraction (significand : Nat) (exponent : Int) : Nat × Nat :=
  if 0 ≤ exponent then (significand * Nat.pow 2 exponent.toNat, 1)
  else (significand, Nat.pow 2 (-exponent).toNat)

/-- The integer that a finite number equals, if it equals one. -/
def toInt? : Double → Option Int
  | .finite negative significand exponent =>
    let (num, den) := fraction significand exponent
    if num % den = 0 then
      some (if negative then -(num / den : Nat) else (num / den : Nat))
    else none
  | _ => none

/-- The integer part of a finite number, rounding toward zero. -/
def truncate : Double → Int
  | .finite negative significand exponent =>
    let (num, den) := fraction significand exponent
    if negative then -(num / den : Nat) else (num / den : Nat)
  | _ => 0

/-- Whether the number is greater than zero. -/
def isPositive : Double → Bool
  | .nan => false
  | .infinite negative => !negative
  | .finite negative significand _ => !negative && significand ≠ 0

end Double

end BlockScript.Number
