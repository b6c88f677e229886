import BlockScript.Proofs.Number.Numeral
import BlockScript.Proofs.Number.Rounding

/-!
# The shortest decimal of a double

A decimal is read as the double nearest to its value, and only the value counts. Two
doubles of the format are so far apart that the decimal with seventeen digits nearest to a
double lies within its rounding range. The search for the shortest decimal therefore ends
with one that reads back as the double.

Results:

* `Decimal.toDouble_congr`: decimals of the same value are read alike.
* `Double.nearestDecimal?_seventeen`: seventeen digits are enough.
* `Double.toDouble_shortest`: the shortest decimal reads back.
-/

namespace BlockScript.Number

namespace Decimal

/-! ## Values of decimals -/

/-- The rational number that a decimal is. -/
def value (d : Decimal) : ℚ :=
  d.digits * 10 ^ d.exponent

/-- The number of digits before the point: a positive decimal is below that power of ten,
    and not below the one before it. -/
def power (d : Decimal) : Int :=
  (digitsOf d.digits).length + d.exponent

/-- A number has as many digits as the least power of ten above it. -/
theorem digitsOf_bounds {n : Nat} (h : 0 < n) :
    10 ^ ((digitsOf n).length - 1) ≤ n ∧ n < 10 ^ (digitsOf n).length := by
  have hlength : 0 < (digitsOf n).length := Nat.length_toDigits_pos
  refine ⟨not_lt.mp fun hlt => ?_, (Nat.length_toDigits_le_iff (by decide) hlength).mp (le_refl _)⟩
  rcases Nat.eq_zero_or_pos ((digitsOf n).length - 1) with hone | hmore
  · rw [hone] at hlt
    omega
  · have hle := (Nat.length_toDigits_le_iff (by decide) hmore).mpr hlt
    unfold digitsOf at hle hlength
    omega

theorem ten_zpow_pos (exponent : Int) : (0 : ℚ) < 10 ^ exponent :=
  zpow_pos (by norm_num) _

theorem value_pos {d : Decimal} (h : 0 < d.digits) : 0 < d.value :=
  mul_pos (by exact_mod_cast h) (ten_zpow_pos _)

theorem value_bounds {d : Decimal} (h : 0 < d.digits) :
    10 ^ (d.power - 1) ≤ d.value ∧ d.value < 10 ^ d.power := by
  obtain ⟨hlow, hhigh⟩ := digitsOf_bounds h
  have hlength : 0 < (digitsOf d.digits).length := Nat.length_toDigits_pos
  have hpow := ten_zpow_pos d.exponent
  unfold power value
  constructor
  · rw [show ((digitsOf d.digits).length + d.exponent - 1 : Int) =
      ((digitsOf d.digits).length - 1 : Nat) + d.exponent by omega,
      zpow_add₀ (by norm_num), zpow_natCast]
    exact mul_le_mul_of_nonneg_right (by exact_mod_cast hlow) hpow.le
  · rw [zpow_add₀ (by norm_num), zpow_natCast]
    exact mul_lt_mul_of_pos_right (by exact_mod_cast hhigh) hpow

/-- There is one power of ten that is the least above a number. -/
theorem power_unique {q : ℚ} {n m : Int} (hn : 10 ^ (n - 1) ≤ q ∧ q < 10 ^ n)
    (hm : 10 ^ (m - 1) ≤ q ∧ q < 10 ^ m) : n = m := by
  have hle : (10 : ℚ) ^ (n - 1) < 10 ^ m := hn.1.trans_lt hm.2
  have hge : (10 : ℚ) ^ (m - 1) < 10 ^ n := hm.1.trans_lt hn.2
  rw [zpow_lt_zpow_iff_right₀ (by norm_num)] at hle hge
  omega

/-- A decimal as a numerator and a denominator. -/
def quotient (d : Decimal) : Nat × Nat :=
  if 0 ≤ d.exponent then (d.digits * 10 ^ d.exponent.toNat, 1)
  else (d.digits, 10 ^ (-d.exponent).toNat)

theorem quotient_pos (d : Decimal) : 0 < d.quotient.2 := by
  unfold quotient
  split
  · exact Nat.one_pos
  · exact Nat.pow_pos (by decide)

theorem quotient_div (d : Decimal) : (d.quotient.1 / d.quotient.2 : ℚ) = d.value := by
  unfold quotient value
  split
  · next h => simp [Double.zpow_of_nonneg 10 h]
  · next h => simp [Double.zpow_of_neg 10 h, div_eq_mul_inv]

theorem quotient_num_pos {d : Decimal} (h : 0 < d.digits) : 0 < d.quotient.1 := by
  unfold quotient
  split
  · exact Nat.mul_pos h (Nat.pow_pos (by decide))
  · exact h

/-- How a positive decimal is read: within the range of doubles, as the double nearest to
    its value. -/
theorem toDouble_eq (negative : Bool) {d : Decimal} (h : 0 < d.digits) :
    d.toDouble negative =
      if overflowPower < d.power then .infinite negative
      else if d.power < underflowPower then .zero negative
      else .ofQuotient negative d.quotient.1 d.quotient.2 := by
  have hquotient : Double.ofQuotient negative d.quotient.1 d.quotient.2 =
      if 0 ≤ d.exponent then .ofQuotient negative (d.digits * Nat.pow 10 d.exponent.toNat) 1
      else .ofQuotient negative d.digits (Nat.pow 10 (-d.exponent).toNat) := by
    unfold quotient
    split <;> rfl
  rw [hquotient]
  unfold toDouble power
  dsimp only
  rw [if_neg h.ne']

/-- Decimals of the same value are read alike. -/
theorem toDouble_congr (negative : Bool) {d d' : Decimal} (h : 0 < d.digits) (h' : 0 < d'.digits)
    (heq : d.value = d'.value) : d.toDouble negative = d'.toDouble negative := by
  have hpower : d.power = d'.power := power_unique (value_bounds h) (heq ▸ value_bounds h')
  have hround : Double.ofQuotient negative d.quotient.1 d.quotient.2 =
      Double.ofQuotient negative d'.quotient.1 d'.quotient.2 :=
    Double.ofQuotient_congr negative d.quotient_pos d'.quotient_pos
      (by rw [quotient_div, quotient_div, heq])
  rw [toDouble_eq negative h, toDouble_eq negative h', hpower, hround]

end Decimal

namespace Double

open Decimal (ten_zpow_pos)

variable {significand : Nat} {exponent : Int}

/-! ## Doubles between powers of ten -/

theorem magnitude_pos (h : 0 < significand) (exponent : Int) : 0 < magnitude significand exponent :=
  mul_pos (by exact_mod_cast h) (two_zpow_pos _)

/-- The positive doubles lie within the powers of ten at which reading gives up. -/
theorem InFormat.magnitude_bounds (h : InFormat significand exponent) (hpos : 0 < significand) :
    (10 : ℚ) ^ (-324 : Int) < magnitude significand exponent ∧
      magnitude significand exponent < 10 ^ (309 : Int) := by
  have hlow : (2 : ℚ) ^ (-1074 : Int) ≤ 2 ^ exponent :=
    zpow_le_zpow_right₀ (by norm_num) h.lower
  have hhigh : (2 : ℚ) ^ exponent ≤ 2 ^ (971 : Int) :=
    zpow_le_zpow_right₀ (by norm_num) h.upper
  have hone : (1 : ℚ) ≤ significand := by exact_mod_cast hpos
  have hshort : (significand : ℚ) < 2 ^ 53 := by exact_mod_cast h.short
  have hpow := two_zpow_pos exponent
  constructor
  · have hless : (10 : ℚ) ^ (-324 : Int) < 2 ^ (-1074 : Int) := by
      rw [zpow_neg, zpow_neg, inv_lt_inv₀ (ten_zpow_pos _) (two_zpow_pos _)]
      exact_mod_cast (by decide +kernel : 2 ^ 1074 < 10 ^ 324)
    calc (10 : ℚ) ^ (-324 : Int) < 1 * 2 ^ (-1074 : Int) := by rwa [one_mul]
      _ ≤ 1 * 2 ^ exponent := mul_le_mul_of_nonneg_left hlow (by norm_num)
      _ ≤ magnitude significand exponent := mul_le_mul_of_nonneg_right hone hpow.le
  · have hless : (2 : ℚ) ^ 53 * 2 ^ (971 : Int) < 10 ^ (309 : Int) := by
      exact_mod_cast (by decide +kernel : 2 ^ 53 * 2 ^ 971 < 10 ^ 309)
    calc magnitude significand exponent < 2 ^ 53 * 2 ^ exponent :=
        mul_lt_mul_of_pos_right hshort hpow
      _ ≤ 2 ^ 53 * 2 ^ (971 : Int) := mul_le_mul_of_nonneg_left hhigh (by norm_num)
      _ < 10 ^ (309 : Int) := hless

/-- The digits of the whole part of a scaled number tell its power of ten. -/
theorem scaled_bounds {num den scale shift : Nat} (hden : 0 < den) (hscale : scale = 10 ^ shift)
    (h : 1 ≤ (num / den : ℚ) * 10 ^ (shift : Int)) :
    (10 : ℚ) ^ ((Decimal.digitsOf (num * scale / den)).length - shift - 1 : Int) ≤ num / den ∧
      (num / den : ℚ) < 10 ^ ((Decimal.digitsOf (num * scale / den)).length - shift : Int) := by
  have hpos := ten_zpow_pos shift
  have hexpanded : (num / den : ℚ) * 10 ^ (shift : Int) = (num * scale : Nat) / den := by
    rw [zpow_natCast, hscale]
    push_cast
    ring
  obtain ⟨hlow, hhigh⟩ := natDiv_bounds (num * scale) hden
  rw [← hexpanded] at hlow hhigh
  generalize num * scale / den = whole at *
  have hwhole : 0 < whole := by
    have : (0 : ℚ) < whole := by linarith
    exact_mod_cast this
  obtain ⟨hdigits, hdigits'⟩ := Decimal.digitsOf_bounds hwhole
  have hlength : 0 < (Decimal.digitsOf whole).length := Nat.length_toDigits_pos
  constructor
  · rw [show ((Decimal.digitsOf whole).length - shift - 1 : Int) =
      ((Decimal.digitsOf whole).length - 1 : Nat) - shift by omega, zpow_sub₀ (by norm_num),
      div_le_iff₀ hpos]
    refine le_trans ?_ hlow
    rw [zpow_natCast]
    exact_mod_cast hdigits
  · rw [zpow_sub₀ (by norm_num), lt_div_iff₀ hpos]
    refine lt_of_lt_of_le hhigh ?_
    rw [zpow_natCast]
    exact_mod_cast hdigits'

/-- The position of the point of a number that is not far below one. -/
theorem pointPosition_bounds {num den : Nat} (hden : 0 < den)
    (h : (10 : ℚ) ^ (-324 : Int) < num / den) :
    (10 : ℚ) ^ (pointPosition num den - 1) ≤ num / den ∧
      (num / den : ℚ) < 10 ^ pointPosition num den := by
  have hshift : (1 : ℚ) ≤ 10 ^ (-324 : Int) * 10 ^ (pointReach : Int) := by
    rw [← zpow_add₀ (by norm_num)]
    exact one_le_zpow₀ (by norm_num) (by decide)
  have hscale (reach : Nat) : Nat.pow 10 reach = 10 ^ reach := Nat.pow_eq
  exact scaled_bounds hden (hscale pointReach)
    (hshift.trans (mul_le_mul_of_nonneg_right h.le (ten_zpow_pos _).le))

/-! ## Seventeen digits -/

/-- A decimal near to a double is read as it. -/
theorem toDouble_of_near (negative : Bool) {d : Decimal} (hdigits : 0 < d.digits)
    (hformat : InFormat significand exponent) (hpos : 0 < significand)
    (hnear : IsNear d.value significand exponent) :
    d.toDouble negative = .finite negative significand exponent := by
  have hone : (1 : ℚ) ≤ significand := by exact_mod_cast hpos
  have hpow := two_zpow_pos exponent
  obtain ⟨hlow, hhigh⟩ := hformat.magnitude_bounds hpos
  unfold magnitude at hlow hhigh
  obtain ⟨hvalue, hvalue'⟩ := Decimal.value_bounds hdigits
  -- half of a double and twice a double stay within the range, too
  have hunit : (2 : ℚ) ^ exponent ≤ significand * 2 ^ exponent :=
    le_mul_of_one_le_left hpow.le hone
  have hupper : d.power - 1 < 309 + 1 := by
    have hless : (10 : ℚ) ^ (d.power - 1) < 10 ^ (309 + 1 : Int) := by
      rw [zpow_add_one₀ (by norm_num)]
      generalize (10 : ℚ) ^ (309 : Int) = bound at hhigh ⊢
      linarith [hnear.below]
    exact (zpow_lt_zpow_iff_right₀ (by norm_num)).mp hless
  have hlower : -325 < d.power := by
    have hless : (10 : ℚ) ^ (-325 : Int) < 10 ^ d.power := by
      rw [show (-324 : Int) = -325 + 1 by norm_num, zpow_add_one₀ (by norm_num)] at hlow
      generalize (10 : ℚ) ^ (-325 : Int) = bound at hlow ⊢
      linarith [hnear.above]
    exact (zpow_lt_zpow_iff_right₀ (by norm_num)).mp hless
  have hhuge : ¬Decimal.overflowPower < d.power := by
    unfold Decimal.overflowPower
    omega
  have htiny : ¬d.power < Decimal.underflowPower := by
    unfold Decimal.underflowPower
    omega
  rw [Decimal.toDouble_eq negative hdigits, if_neg hhuge, if_neg htiny]
  refine ofQuotient_of_near negative (Decimal.quotient_num_pos hdigits) d.quotient_pos hformat ?_
  rwa [Decimal.quotient_div]

theorem scaledByTen_pos (num : Nat) {den : Nat} (h : 0 < den) (exponent : Int) :
    0 < (scaledByTen num den exponent).2 := by
  unfold scaledByTen
  split
  · exact Nat.mul_pos h (Nat.pow_pos (by decide))
  · exact h

theorem scaledByTen_div (num den : Nat) (exponent : Int) :
    ((scaledByTen num den exponent).1 : ℚ) / (scaledByTen num den exponent).2 =
      (num / den : ℚ) / 10 ^ exponent := by
  unfold scaledByTen
  split
  · next h => simp [zpow_of_nonneg 10 h, div_div]
  · next h =>
    simp [zpow_of_neg 10 h]
    ring

/-- The decimal with seventeen digits nearest to a positive double is near to it. -/
theorem isNear_seventeen (hformat : InFormat significand exponent) {digits : Nat}
    {power : Int} (hlow : (10 : ℚ) ^ (power + 16) ≤ magnitude significand exponent)
    (hdigits : |(digits : ℚ) - magnitude significand exponent / 10 ^ power| ≤ 1 / 2) :
    IsNear (Decimal.value ⟨digits, power⟩) significand exponent := by
  have hten := ten_zpow_pos power
  have htwo := two_zpow_pos exponent
  have hvalue : |Decimal.value ⟨digits, power⟩ - magnitude significand exponent| ≤
      10 ^ power / 2 := by
    have hscaled := mul_le_mul_of_nonneg_right hdigits hten.le
    rw [← abs_of_pos hten, ← abs_mul, abs_of_pos hten, sub_mul, div_mul_cancel₀ _ hten.ne']
      at hscaled
    unfold Decimal.value
    linarith
  obtain ⟨habove, hbelow⟩ := abs_le.mp hvalue
  have hunit : (10 : ℚ) ^ 16 * 10 ^ power ≤ significand * 2 ^ exponent := by
    rw [zpow_add₀ (by norm_num)] at hlow
    unfold magnitude at hlow
    norm_num at hlow ⊢
    linarith
  have hshort : (significand : ℚ) < 2 ^ 53 := by exact_mod_cast hformat.short
  have hless : (significand : ℚ) * 2 ^ exponent < 2 ^ 53 * 2 ^ exponent :=
    mul_lt_mul_of_pos_right hshort htwo
  unfold magnitude at habove hbelow
  refine ⟨by nlinarith, by nlinarith, fun hpower => ?_⟩
  rw [hpower] at hunit habove ⊢
  push_cast at hunit habove ⊢
  nlinarith

theorem roundHalfEven_cases (num den : Nat) :
    roundHalfEven num den = num / den ∨ roundHalfEven num den = num / den + 1 := by
  unfold roundHalfEven
  dsimp only
  split
  · exact .inl rfl
  · split
    · exact .inr rfl
    · omega

/-- A decimal is found at an exponent if the nearest one there reads back. -/
theorem readingBack?_isSome {x : Double} {scaled : Nat × Nat} {power : Int}
    (h : Decimal.toDouble false ⟨roundHalfEven scaled.1 scaled.2, power⟩ = x) :
    (readingBack? x scaled power).isSome := by
  have hnearer : (if roundHalfEven scaled.1 scaled.2 = scaled.1 / scaled.2 then
      (⟨scaled.1 / scaled.2, power⟩ : Decimal) else ⟨scaled.1 / scaled.2 + 1, power⟩) =
        ⟨roundHalfEven scaled.1 scaled.2, power⟩ := by
    rcases roundHalfEven_cases scaled.1 scaled.2 with heq | heq <;> rw [heq] <;> simp
  unfold readingBack?
  simp only [hnearer, h, if_true, Option.isSome_some]

/-- Seventeen digits are enough. -/
theorem nearestDecimal?_seventeen (hformat : InFormat significand exponent)
    (hpos : 0 < significand) :
    (nearestDecimal? (.finite false significand exponent) (fraction significand exponent).1
      (fraction significand exponent).2 17).isSome := by
  have hden := fraction_pos significand exponent
  have hdiv := fraction_div significand exponent
  have hlow := (pointPosition_bounds hden (hdiv.symm ▸ (hformat.magnitude_bounds hpos).1)).1
  unfold nearestDecimal?
  generalize hpower : pointPosition (fraction significand exponent).1
    (fraction significand exponent).2 - (17 : Nat) = power
  rw [hdiv, show pointPosition _ _ - 1 = power + 16 by omega] at hlow
  have hround := abs_roundHalfEven_sub
    (scaledByTen (fraction significand exponent).1 (fraction significand exponent).2 power).1
    (scaledByTen_pos (fraction significand exponent).1 hden power)
  rw [scaledByTen_div, hdiv] at hround
  refine readingBack?_isSome (toDouble_of_near false ?_ hformat hpos
    (isNear_seventeen hformat hlow hround))
  -- the digits are not zero, since the scaled number is not below one
  have hunit : (1 : ℚ) ≤ magnitude significand exponent / 10 ^ power := by
    rw [le_div_iff₀ (ten_zpow_pos _), one_mul]
    exact (zpow_le_zpow_right₀ (by norm_num) (by omega)).trans hlow
  have hdigits := (abs_le.mp hround).1
  refine (Nat.cast_pos (α := ℚ)).mp ?_
  linarith

/-- The shortest decimal of a positive double reads back as it. -/
theorem toDouble_shortest (hformat : InFormat significand exponent) (hpos : 0 < significand) :
    (shortest significand exponent).toDouble false = .finite false significand exponent := by
  have hfound : ((List.range' 1 17).findSome? (nearestDecimal? (.finite false significand exponent)
      (fraction significand exponent).1 (fraction significand exponent).2)).isSome := by
    rw [List.findSome?_isSome_iff]
    exact ⟨17, by decide, nearestDecimal?_seventeen hformat hpos⟩
  obtain ⟨decimal, hdecimal⟩ := Option.isSome_iff_exists.mp hfound
  obtain ⟨count, -, hnearest⟩ := List.exists_of_findSome?_eq_some hdecimal
  unfold shortest
  dsimp only
  rw [hdecimal]
  exact toDouble_of_readingBack? hnearest

end Double

end BlockScript.Number
