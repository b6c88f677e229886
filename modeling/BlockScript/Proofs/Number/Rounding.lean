import BlockScript.Number.Double
import Mathlib.Data.Rat.Floor
import Mathlib.Tactic.FieldSimp
import Mathlib.Tactic.Linarith
import Mathlib.Tactic.Positivity

/-!
# Rounding to doubles

What the rounding of a quotient to the nearest double gives, in terms of the rational
number that the quotient is. The exponent of the result is the only one at which the
quotient has a full significand, so the result depends on the value of the quotient alone,
and a quotient closer to a double than half the distance to the next ones is rounded to
it.

Results:

* `Double.exponentOf_spec`, `Double.IsExponentOf.eq`: the exponent of the result.
* `Double.isBinary64_ofQuotient`: the result is in the binary64 format.
* `Double.ofQuotient_congr`: quotients of the same value are rounded alike.
* `Double.ofQuotient_of_near`: a quotient near to a double is rounded to it.
-/

namespace BlockScript.Number

namespace Double

/-! ## Values -/

/-- The magnitude of a finite number. -/
def magnitude (significand : Nat) (exponent : Int) : ℚ :=
  significand * 2 ^ exponent

/-- The rational number that a finite double is. -/
def toRat : Double → ℚ
  | .finite negative significand exponent =>
    if negative then -magnitude significand exponent else magnitude significand exponent
  | _ => 0

/-- Whether a significand and an exponent are those of a number of the format: the
    significand is full unless the exponent is the smallest. -/
structure InFormat (significand : Nat) (exponent : Int) : Prop where
  short : significand < 2 ^ precision
  full : exponent = minExponent ∨ 2 ^ (precision - 1) ≤ significand
  lower : minExponent ≤ exponent
  upper : exponent ≤ maxExponent

/-- Whether a double is a number of the binary64 format, infinite or NaN. -/
def IsBinary64 : Double → Prop
  | .finite _ significand exponent => InFormat significand exponent
  | _ => True

theorem isBinary64_zero (negative : Bool) : (zero negative).IsBinary64 :=
  ⟨by decide, .inl rfl, le_refl _, by decide⟩

theorem fraction_pos (significand : Nat) (exponent : Int) :
    0 < (fraction significand exponent).2 := by
  unfold fraction
  split
  · exact Nat.one_pos
  · exact Nat.pow_pos (by decide)

theorem zpow_of_nonneg (base : ℚ) {exponent : Int} (h : 0 ≤ exponent) :
    base ^ exponent = base ^ exponent.toNat := by
  rw [← zpow_natCast, Int.toNat_of_nonneg h]

theorem zpow_of_neg (base : ℚ) {exponent : Int} (h : ¬0 ≤ exponent) :
    base ^ exponent = (base ^ (-exponent).toNat)⁻¹ := by
  rw [← zpow_natCast, Int.toNat_of_nonneg (by omega), zpow_neg, inv_inv]

/-- The numerator and denominator of a magnitude. -/
theorem fraction_div (significand : Nat) (exponent : Int) :
    ((fraction significand exponent).1 : ℚ) / (fraction significand exponent).2 =
      magnitude significand exponent := by
  unfold fraction magnitude
  split
  · next h => simp [zpow_of_nonneg 2 h]
  · next h => simp [zpow_of_neg 2 h, div_eq_mul_inv]

/-! ## Scaling and rounding -/

variable {num den : Nat} {exponent : Int}

theorem scaled_pos (h : 0 < den) (num : Nat) (exponent : Int) : 0 < (scaled num den exponent).2 := by
  unfold scaled
  split
  · exact Nat.mul_pos h (Nat.pow_pos (by decide))
  · exact h

/-- The value of a scaled quotient. -/
theorem scaled_div (num den : Nat) (exponent : Int) :
    ((scaled num den exponent).1 : ℚ) / (scaled num den exponent).2 =
      (num / den : ℚ) / 2 ^ exponent := by
  unfold scaled
  split
  · next h => simp [zpow_of_nonneg 2 h, div_div]
  · next h =>
    simp [zpow_of_neg 2 h]
    ring

theorem natCast_eq_div_add (num : Nat) (h : 0 < den) :
    (num / den : ℚ) = (num / den : Nat) + (num % den : Nat) / den := by
  have hden : (den : ℚ) ≠ 0 := by exact_mod_cast h.ne'
  rw [eq_comm, ← mul_left_inj' hden, add_mul, div_mul_cancel₀ _ hden, div_mul_cancel₀ _ hden]
  exact_mod_cast Nat.div_add_mod' num den

/-- The whole part of a quotient. -/
theorem natDiv_bounds (num : Nat) (h : 0 < den) :
    ((num / den : Nat) : ℚ) ≤ num / den ∧ (num / den : ℚ) < (num / den : Nat) + 1 := by
  have hden : (0 : ℚ) < den := by exact_mod_cast h
  have hlt : ((num % den : Nat) : ℚ) < den := by exact_mod_cast Nat.mod_lt num h
  have hpart : ((num % den : Nat) : ℚ) / den < 1 := (div_lt_one hden).mpr hlt
  have hnonneg : (0 : ℚ) ≤ ((num % den : Nat) : ℚ) / den := by positivity
  rw [natCast_eq_div_add num h]
  constructor <;> linarith

/-- The nearest natural number is at most a half away. -/
theorem abs_roundHalfEven_sub (num : Nat) (h : 0 < den) :
    |(roundHalfEven num den : ℚ) - num / den| ≤ 1 / 2 := by
  have hden : (0 : ℚ) < den := by exact_mod_cast h
  obtain ⟨hlow, hhigh⟩ := natDiv_bounds num h
  rw [natCast_eq_div_add num h] at hlow hhigh ⊢
  rw [abs_le]
  unfold roundHalfEven
  dsimp only
  split
  · next hlow =>
    have : ((num % den : Nat) : ℚ) / den < 1 / 2 := by
      rw [div_lt_div_iff₀ hden (by norm_num)]
      exact_mod_cast (by omega : num % den * 2 < 1 * den)
    constructor <;> linarith
  · split
    · next hhigh =>
      have : 1 / 2 < ((num % den : Nat) : ℚ) / den := by
        rw [div_lt_div_iff₀ (by norm_num) hden]
        exact_mod_cast (by omega : 1 * den < num % den * 2)
      push_cast
      constructor <;> linarith
    · have hhalf : ((num % den : Nat) : ℚ) / den = 1 / 2 := by
        rw [div_eq_div_iff hden.ne' (by norm_num)]
        exact_mod_cast (by omega : num % den * 2 = 1 * den)
      rw [hhalf]
      rcases Nat.mod_two_eq_zero_or_one (num / den) with heven | hodd
      · rw [heven]
        norm_num
      · rw [hodd]
        push_cast
        constructor <;> linarith

/-- The nearest natural number does not depend on how a quotient is expanded. -/
theorem roundHalfEven_expanded (num den : Nat) {factor : Nat} (h : 0 < factor) :
    roundHalfEven (num * factor) (den * factor) = roundHalfEven num den := by
  unfold roundHalfEven
  have htwice : 2 * (num % den * factor) = 2 * (num % den) * factor := by rw [Nat.mul_assoc]
  simp only [Nat.mul_div_mul_right _ _ h, Nat.mul_mod_mul_right, htwice, Nat.mul_lt_mul_right h]

/-- Equal quotients have the same nearest natural number. -/
theorem roundHalfEven_congr {num' den' : Nat} (h : 0 < den) (h' : 0 < den')
    (heq : (num / den : ℚ) = num' / den') : roundHalfEven num den = roundHalfEven num' den' := by
  have hcross : num * den' = num' * den := by
    rw [div_eq_div_iff (by exact_mod_cast h.ne') (by exact_mod_cast h'.ne')] at heq
    exact_mod_cast heq
  rw [← roundHalfEven_expanded num den h', hcross, Nat.mul_comm den den',
    roundHalfEven_expanded num' den' h]

/-! ## The exponent -/

/-- Whether a positive number has a full significand at an exponent, or the exponent is
    the smallest one and the number lies below that. -/
structure IsExponentOf (q : ℚ) (exponent : Int) : Prop where
  lower : minExponent ≤ exponent
  below : q < 2 ^ 53 * 2 ^ exponent
  full : exponent = minExponent ∨ 2 ^ 52 * 2 ^ exponent ≤ q

theorem two_zpow_pos (exponent : Int) : (0 : ℚ) < 2 ^ exponent :=
  zpow_pos (by norm_num) _

theorem magnitude_nonneg (significand : Nat) (exponent : Int) :
    0 ≤ magnitude significand exponent :=
  mul_nonneg (Nat.cast_nonneg _) (two_zpow_pos _).le

theorem two_zpow_succ (exponent : Int) : (2 : ℚ) ^ (exponent + 1) = 2 * 2 ^ exponent := by
  rw [zpow_add_one₀ (by norm_num), mul_comm]

theorem IsExponentOf.le {q : ℚ} {exponent exponent' : Int} (h : IsExponentOf q exponent)
    (h' : IsExponentOf q exponent') : exponent' ≤ exponent := by
  by_contra hlt
  have hfull := h'.full.resolve_left (by have := h.lower; omega)
  have hnext : (2 : ℚ) ^ (exponent + 1) ≤ 2 ^ exponent' :=
    zpow_le_zpow_right₀ (by norm_num) (by omega)
  rw [two_zpow_succ] at hnext
  have := h.below
  linarith

/-- There is one exponent at most. -/
theorem IsExponentOf.eq {q : ℚ} {exponent exponent' : Int} (h : IsExponentOf q exponent)
    (h' : IsExponentOf q exponent') : exponent = exponent' :=
  le_antisymm (h'.le h) (h.le h')

theorem log2_bounds {n : Nat} (h : 0 < n) :
    (2 : ℚ) ^ (n.log2 : Int) ≤ n ∧ (n : ℚ) < 2 * 2 ^ (n.log2 : Int) := by
  constructor
  · rw [zpow_natCast]
    exact_mod_cast Nat.log2_self_le h.ne'
  · rw [← two_zpow_succ, ← Nat.cast_succ, zpow_natCast]
    exact_mod_cast Nat.lt_log2_self

/-- The binary logarithms of a numerator and a denominator bound their quotient. -/
theorem log2_div_bounds (hnum : 0 < num) (hden : 0 < den) :
    (2 : ℚ) ^ (num.log2 - den.log2 : Int) < 2 * (num / den) ∧
      (num / den : ℚ) < 2 * 2 ^ (num.log2 - den.log2 : Int) := by
  obtain ⟨hn, hn'⟩ := log2_bounds hnum
  obtain ⟨hd, hd'⟩ := log2_bounds hden
  have hpos : (0 : ℚ) < den := by exact_mod_cast hden
  have hpow := two_zpow_pos den.log2
  have hnum' : (0 : ℚ) < num := by exact_mod_cast hnum
  rw [zpow_sub₀ (by norm_num)]
  constructor
  · rw [div_lt_iff₀ hpow, mul_div_assoc', div_mul_eq_mul_div, lt_div_iff₀ hpos]
    nlinarith
  · rw [mul_div_assoc', div_lt_div_iff₀ hpos hpow]
    nlinarith

theorem quotient_lt_iff (h : 0 < den) (num bound : Nat) :
    num / den < bound ↔ (num / den : ℚ) < bound := by
  have hpos : (0 : ℚ) < den := by exact_mod_cast h
  rw [Nat.div_lt_iff_lt_mul h, div_lt_iff₀ hpos]
  exact_mod_cast Iff.rfl

theorem exponentOf_spec (hnum : 0 < num) (hden : 0 < den) :
    IsExponentOf (num / den) (exponentOf num den) := by
  obtain ⟨hlow, hhigh⟩ := log2_div_bounds hnum hden
  have hsplit : (2 : ℚ) ^ (num.log2 - den.log2 : Int) =
      2 ^ 53 * 2 ^ (num.log2 - den.log2 - precision : Int) := by
    rw [zpow_sub₀ (by norm_num) _ (precision : Int), zpow_natCast, show precision = 53 from rfl]
    field_simp
  rw [hsplit] at hlow hhigh
  unfold exponentOf
  generalize hguess : max (num.log2 - den.log2 - precision : Int) minExponent = guess
  have hmin : minExponent ≤ guess := hguess ▸ le_max_right _ _
  have hguess' : guess = (num.log2 - den.log2 - precision : Int) ∨
      guess = minExponent ∧ (num.log2 - den.log2 - precision : Int) < guess := by omega
  have htest : (scaled num den guess).1 / (scaled num den guess).2 < Nat.pow 2 precision ↔
      (num / den : ℚ) < 2 ^ 53 * 2 ^ guess := by
    rw [quotient_lt_iff (scaled_pos hden num guess), scaled_div,
      div_lt_iff₀ (two_zpow_pos guess)]
    norm_num [precision]
  simp only
  split
  · next hbelow =>
    refine ⟨hmin, htest.mp hbelow, ?_⟩
    rcases hguess' with heq | ⟨heq, -⟩
    · rw [← heq] at hlow
      exact .inr (by linarith)
    · exact .inl heq
  · next habove =>
    have hfull : 2 ^ 53 * 2 ^ guess ≤ (num / den : ℚ) := not_lt.mp fun h => habove (htest.mpr h)
    rcases hguess' with heq | ⟨heq, hlt⟩
    · rw [← heq] at hhigh
      refine ⟨by omega, ?_, .inr ?_⟩ <;> rw [two_zpow_succ] <;> linarith
    · -- the smallest exponent is only chosen for numbers that it has room for
      have hnext : (2 : ℚ) ^ (num.log2 - den.log2 - precision + 1 : Int) ≤ 2 ^ guess :=
        zpow_le_zpow_right₀ (by norm_num) (by omega)
      rw [two_zpow_succ] at hnext
      linarith

/-! ## Nearest doubles -/

/-- The significand at the exponent of a number. -/
theorem significand_bounds (hden : 0 < den) (h : IsExponentOf (num / den) exponent) :
    (exponent = minExponent ∨
      2 ^ 52 ≤ roundHalfEven (scaled num den exponent).1 (scaled num den exponent).2) ∧
      roundHalfEven (scaled num den exponent).1 (scaled num den exponent).2 ≤ 2 ^ 53 := by
  have hround := abs_le.mp (abs_roundHalfEven_sub (scaled num den exponent).1
    (scaled_pos hden num exponent))
  generalize roundHalfEven (scaled num den exponent).1 (scaled num den exponent).2 = rounded at *
  rw [scaled_div] at hround
  have hpow := two_zpow_pos exponent
  constructor
  · refine h.full.imp_right fun hfull => ?_
    rw [← le_div_iff₀ hpow] at hfull
    have : (2 : ℚ) ^ 52 < rounded + 1 := by linarith [hround.1]
    exact Nat.lt_succ_iff.mp (by exact_mod_cast this)
  · have hbelow := h.below
    rw [← div_lt_iff₀ hpow] at hbelow
    have : (rounded : ℚ) < 2 ^ 53 + 1 := by linarith [hround.2]
    exact Nat.lt_succ_iff.mp (by exact_mod_cast this)

/-- Every quotient is rounded to a number of the format or to an infinity. -/
theorem isBinary64_ofQuotient (negative : Bool) (num : Nat) (hden : 0 < den) :
    (ofQuotient negative num den).IsBinary64 := by
  unfold ofQuotient
  split
  · exact isBinary64_zero negative
  · next hnum =>
    have hexponent := exponentOf_spec (Nat.pos_of_ne_zero hnum) hden
    obtain ⟨hfull, hshort⟩ := significand_bounds hden hexponent
    have hlower := hexponent.lower
    dsimp only
    generalize exponentOf num den = exponent at *
    generalize roundHalfEven (scaled num den exponent).1 (scaled num den exponent).2 = rounded at *
    by_cases hcarry : rounded = Nat.pow 2 precision
    · rw [if_pos hcarry]
      split
      · trivial
      · next hupper =>
        have hcarried : 2 ^ (precision - 1) < 2 ^ precision := by decide
        exact ⟨hcarried, .inr (le_refl _), hlower.trans (by simp), not_lt.mp hupper⟩
    · rw [if_neg hcarry]
      split
      · trivial
      · next hupper =>
        exact ⟨lt_of_le_of_ne hshort hcarry, hfull, hlower, not_lt.mp hupper⟩

/-- Quotients of the same value are rounded alike. -/
theorem ofQuotient_congr (negative : Bool) {num' den' : Nat} (h : 0 < den) (h' : 0 < den')
    (heq : (num / den : ℚ) = num' / den') :
    ofQuotient negative num den = ofQuotient negative num' den' := by
  have hden : (den : ℚ) ≠ 0 := by exact_mod_cast h.ne'
  have hden' : (den' : ℚ) ≠ 0 := by exact_mod_cast h'.ne'
  have hzero : num = 0 ↔ num' = 0 := by
    rw [← Nat.cast_eq_zero (R := ℚ), ← Nat.cast_eq_zero (R := ℚ) (n := num')]
    constructor
    · intro hnum
      rw [hnum, zero_div, eq_comm, div_eq_zero_iff] at heq
      exact heq.resolve_right hden'
    · intro hnum
      rw [hnum, zero_div, div_eq_zero_iff] at heq
      exact heq.resolve_right hden
  unfold ofQuotient
  by_cases hnum : num = 0
  · rw [if_pos hnum, if_pos (hzero.mp hnum)]
  · have hnum' := mt hzero.mpr hnum
    rw [if_neg hnum, if_neg hnum']
    have hexponent : exponentOf num den = exponentOf num' den' := by
      have hspec := exponentOf_spec (Nat.pos_of_ne_zero hnum) h
      rw [heq] at hspec
      exact hspec.eq (exponentOf_spec (Nat.pos_of_ne_zero hnum') h')
    have hround : roundHalfEven (scaled num den (exponentOf num den)).1
          (scaled num den (exponentOf num den)).2 =
        roundHalfEven (scaled num' den' (exponentOf num' den')).1
          (scaled num' den' (exponentOf num' den')).2 := by
      refine roundHalfEven_congr (scaled_pos h _ _) (scaled_pos h' _ _) ?_
      rw [scaled_div, scaled_div, heq, hexponent]
    simp only [hround]
    rw [hexponent]

/-- Whether a number is closer to a double than half the distance to the next ones.
    Below a power of two the next one is half as far away. -/
structure IsNear (q : ℚ) (significand : Nat) (exponent : Int) : Prop where
  above : (significand - 1 / 2) * 2 ^ exponent < q
  below : q < (significand + 1 / 2) * 2 ^ exponent
  above' : significand = 2 ^ 52 → (significand - 1 / 4) * 2 ^ exponent < q

theorem isNear_self (significand : Nat) (exponent : Int) :
    IsNear (magnitude significand exponent) significand exponent := by
  have hpow := two_zpow_pos exponent
  refine ⟨?_, ?_, fun _ => ?_⟩ <;> unfold magnitude <;> nlinarith

/-- A quotient near to a double is rounded to it. -/
theorem ofQuotient_of_near (negative : Bool) {significand : Nat} (hnum : 0 < num) (hden : 0 < den)
    (hformat : InFormat significand exponent) (hnear : IsNear (num / den) significand exponent) :
    ofQuotient negative num den = .finite negative significand exponent := by
  have hpow := two_zpow_pos exponent
  have hexponent := exponentOf_spec hnum hden
  have hround := abs_le.mp (abs_roundHalfEven_sub (scaled num den (exponentOf num den)).1
    (scaled_pos hden num (exponentOf num den)))
  rw [scaled_div] at hround
  have hshort : significand < 2 ^ 53 := hformat.short
  have hbelow : (num / den : ℚ) < 2 ^ 53 * 2 ^ exponent := by
    have : (significand + 1 : ℚ) ≤ 2 ^ 53 := by exact_mod_cast hshort
    nlinarith [hnear.below]
  unfold ofQuotient
  rw [if_neg hnum.ne']
  dsimp only
  by_cases hfull : exponent = minExponent ∨ 2 ^ 52 * 2 ^ exponent ≤ (num / den : ℚ)
  · -- the quotient has the exponent of the double
    obtain rfl : exponentOf num den = exponent := hexponent.eq ⟨hformat.lower, hbelow, hfull⟩
    have habove := (lt_div_iff₀ hpow).mpr hnear.above
    have hless := (div_lt_iff₀ hpow).mpr hnear.below
    have hsignificand : roundHalfEven (scaled num den (exponentOf num den)).1
        (scaled num den (exponentOf num den)).2 = significand := by
      generalize roundHalfEven _ _ = rounded at *
      have hup : (rounded : ℚ) < significand + 1 := by linarith [hround.2]
      have hdown : (significand : ℚ) < rounded + 1 := by linarith [hround.1]
      have hup' : rounded < significand + 1 := by exact_mod_cast hup
      have hdown' : significand < rounded + 1 := by exact_mod_cast hdown
      omega
    have hupper := hformat.upper
    rw [hsignificand, if_neg (show ¬significand = Nat.pow 2 precision from hshort.ne)]
    exact if_neg (by simpa using hupper)
  · -- the quotient is below the power of two that the double is
    obtain ⟨hmin, hlow⟩ := not_or.mp hfull
    have hlow := not_le.mp hlow
    have hpower : significand = 2 ^ 52 := by
      have hge : 2 ^ 52 ≤ significand := hformat.full.resolve_left hmin
      have hle : (significand : ℚ) < 2 ^ 52 + 1 := by
        have := hnear.above.trans hlow
        have := (mul_lt_mul_iff_of_pos_right hpow).mp this
        linarith
      have hle' : significand < 2 ^ 52 + 1 := by exact_mod_cast hle
      omega
    have hquarter := hnear.above' hpower
    have hhalf : (2 : ℚ) ^ exponent = 2 * 2 ^ (exponent - 1) := by
      rw [← two_zpow_succ, sub_add_cancel]
    have hpow' := two_zpow_pos (exponent - 1)
    rw [hhalf, hpower] at hquarter
    rw [hhalf] at hlow
    push_cast at hquarter
    obtain hlast : exponentOf num den = exponent - 1 := by
      refine hexponent.eq ⟨?_, by linarith, .inr (by linarith)⟩
      have := hformat.lower
      omega
    rw [hlast] at hround ⊢
    have habove : (2 : ℚ) ^ 53 - 1 / 2 < num / den / 2 ^ (exponent - 1) := by
      rw [lt_div_iff₀ hpow']
      linarith
    have hsignificand : roundHalfEven (scaled num den (exponent - 1)).1
        (scaled num den (exponent - 1)).2 = Nat.pow 2 precision := by
      have hle := (significand_bounds hden (hlast ▸ hexponent)).2
      generalize roundHalfEven _ _ = rounded at *
      have : (2 : ℚ) ^ 53 < rounded + 1 := by linarith [hround.1]
      have : 2 ^ 53 < rounded + 1 := by exact_mod_cast this
      show rounded = 2 ^ 53
      omega
    have hupper := hformat.upper
    rw [if_pos hsignificand, sub_add_cancel, hpower]
    exact if_neg (by simpa using hupper)

end Double

end BlockScript.Number
