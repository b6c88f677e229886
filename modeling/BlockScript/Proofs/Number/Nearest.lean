import BlockScript.Proofs.Number.ReadBack

/-!
# The nearest double

A quotient is rounded to the double that is nearest to it, and of two that are equally
near to the one with an even significand. At the exponent of a quotient the doubles form a
grid. Every double of a larger exponent lies on the grid, and every one of a smaller
exponent lies below the smallest full significand, which is on the grid and no larger than
the quotient. So it is enough to compare with the points of the grid.

Integers are rounded to whole numbers, and stay what they are if they are doubles.

Results:

* `Double.isNearest_ofQuotient`: no double is nearer than the one a quotient is rounded to.
* `Double.toRat_ofInt_iff`: an integer is rounded to itself exactly if it is a double.
* `Double.truncate_ofInt`: an integer is rounded to a whole number.
* `Double.literalOf?_ofInt`: the literals of integers up to 2 ^ 53.
-/

namespace BlockScript.Number.Double

/-- Whether the significand of a finite number is even. -/
def IsEven : Double → Prop
  | .finite _ significand _ => significand % 2 = 0
  | _ => False

/-- Whether a double is the one that a number is rounded to: none is nearer, and if another
    one is as near, it has the even significand. -/
structure IsNearest (d : Double) (q : ℚ) : Prop where
  finite : d.isFinite = true
  nearest {e : Double} (he : e.IsBinary64) : |d.toRat - q| ≤ |e.toRat - q|
  even {e : Double} (he : e.IsBinary64) (htie : |e.toRat - q| = |d.toRat - q|)
    (hne : e.toRat ≠ d.toRat) : d.IsEven

/-- A number that is a double is rounded to itself. -/
theorem IsNearest.toRat_eq {d e : Double} {q : ℚ} (h : d.IsNearest q) (he : e.IsBinary64)
    (hq : e.toRat = q) : d.toRat = q := by
  have hnearest := h.nearest he
  rw [hq, sub_self, abs_zero] at hnearest
  exact sub_eq_zero.mp (abs_nonpos_iff.mp hnearest)

/-! ## Points of a grid -/

section

variable {num den : Nat}

/-- A half is rounded to an even number. -/
theorem roundHalfEven_of_tie (num : Nat) (hden : 0 < den)
    (htie : |(roundHalfEven num den : ℚ) - num / den| = 1 / 2) :
    roundHalfEven num den % 2 = 0 := by
  have hpos : (0 : ℚ) < den := by exact_mod_cast hden
  have hrest : (0 : ℚ) ≤ ((num % den : Nat) : ℚ) / den := by positivity
  have hless : ((num % den : Nat) : ℚ) / den < 1 :=
    (div_lt_one hpos).mpr (by exact_mod_cast Nat.mod_lt num hden)
  rw [natCast_eq_div_add num hden] at htie
  unfold roundHalfEven at htie ⊢
  dsimp only at htie ⊢
  split at htie
  · next hlow =>
    rw [sub_add_cancel_left, abs_neg, abs_of_nonneg hrest, div_eq_div_iff hpos.ne' two_ne_zero]
      at htie
    have : num % den * 2 = 1 * den := by exact_mod_cast htie
    omega
  · next hlow =>
    rw [if_neg hlow]
    split at htie
    · next hhigh =>
      push_cast at htie
      rw [add_sub_add_left_eq_sub, abs_of_pos (sub_pos.mpr hless), sub_eq_iff_eq_add,
        ← sub_eq_iff_eq_add', show (1 : ℚ) - 1 / 2 = 1 / 2 by norm_num, eq_comm,
        div_eq_div_iff hpos.ne' two_ne_zero] at htie
      have : num % den * 2 = 1 * den := by exact_mod_cast htie
      omega
    · next hhigh =>
      rw [if_neg hhigh]
      omega

variable {q : ℚ} {exponent exponent' : Int} {rounded significand : Nat}

/-- Of the points of the grid none is nearer than the rounded one. -/
theorem grid_nearest (hrounded : |(rounded : ℚ) - q / 2 ^ exponent| ≤ 1 / 2) (k : Nat) :
    |rounded * 2 ^ exponent - q| ≤ |k * 2 ^ exponent - q| ∧
      (|k * 2 ^ exponent - q| = |rounded * 2 ^ exponent - q| → k ≠ rounded →
        |(rounded : ℚ) - q / 2 ^ exponent| = 1 / 2) := by
  have hpow := two_zpow_pos exponent
  have hscaled : ∀ n : ℚ, |n * 2 ^ exponent - q| = |n - q / 2 ^ exponent| * 2 ^ exponent := by
    intro n
    rw [← abs_of_pos hpow, ← abs_mul, abs_of_pos hpow, sub_mul, div_mul_cancel₀ _ hpow.ne']
  rw [hscaled, hscaled]
  by_cases hk : k = rounded
  · exact ⟨hk ▸ le_refl _, fun _ hne => absurd hk hne⟩
  · have hapart : (1 : ℚ) ≤ |(k : ℚ) - rounded| := by
      have : (1 : Int) ≤ |(k : Int) - rounded| := Int.one_le_abs (by omega)
      exact_mod_cast this
    have hsum : |(k : ℚ) - rounded| ≤ |k - q / 2 ^ exponent| + |(rounded : ℚ) - q / 2 ^ exponent| := by
      rw [abs_sub_comm (rounded : ℚ)]
      exact abs_sub_le _ _ _
    refine ⟨mul_le_mul_of_nonneg_right (by linarith) hpow.le, fun htie _ => ?_⟩
    have := mul_right_cancel₀ hpow.ne' htie
    linarith

/-- Where a number of the format lies: on the grid of a quotient, or below one of its points
    that the quotient reaches. -/
theorem InFormat.grid (h : InFormat significand exponent') (hexponent : IsExponentOf q exponent) :
    ∃ k : Nat, magnitude significand exponent' = k * 2 ^ exponent ∨
      magnitude significand exponent' < k * 2 ^ exponent ∧ k * 2 ^ exponent ≤ q := by
  by_cases hle : exponent ≤ exponent'
  · refine ⟨significand * 2 ^ (exponent' - exponent).toNat, .inl ?_⟩
    rw [magnitude, Nat.cast_mul, Nat.cast_pow, Nat.cast_ofNat, mul_assoc,
      ← zpow_of_nonneg 2 (by omega), ← zpow_add₀ two_ne_zero, sub_add_cancel]
  · refine ⟨2 ^ 52, .inr ⟨?_, ?_⟩⟩
    · have hshort : (significand : ℚ) < 2 ^ 53 := by exact_mod_cast h.short
      have hnext : (2 : ℚ) ^ (exponent' + 1) ≤ 2 ^ exponent :=
        zpow_le_zpow_right₀ one_le_two (by omega)
      rw [two_zpow_succ] at hnext
      have hpow := two_zpow_pos exponent'
      unfold magnitude
      push_cast
      nlinarith
    · have hlower := h.lower
      have hfull := hexponent.full.resolve_left (by omega)
      exact_mod_cast hfull

/-- No number that a double can be, of either sign, is nearer than the rounded one. -/
theorem InFormat.nearest (h : InFormat significand exponent') (hq : 0 ≤ q)
    (hexponent : IsExponentOf q exponent)
    (hrounded : |(rounded : ℚ) - q / 2 ^ exponent| ≤ 1 / 2) {c : ℚ}
    (hc : c = magnitude significand exponent' ∨ c = -magnitude significand exponent') :
    |rounded * 2 ^ exponent - q| ≤ |c - q| ∧
      (|c - q| = |rounded * 2 ^ exponent - q| → c ≠ rounded * 2 ^ exponent →
        |(rounded : ℚ) - q / 2 ^ exponent| = 1 / 2) := by
  have hgrid : ∃ k : Nat, c = k * 2 ^ exponent ∨ c < k * 2 ^ exponent ∧ k * 2 ^ exponent ≤ q := by
    rcases hc with rfl | rfl
    · exact h.grid hexponent
    · refine ⟨0, ?_⟩
      rw [Nat.cast_zero, zero_mul]
      rcases (magnitude_nonneg significand exponent').eq_or_lt with hzero | hpos
      · exact .inl (by rw [← hzero, neg_zero])
      · exact .inr ⟨neg_neg_of_pos hpos, hq⟩
  obtain ⟨k, hpoint⟩ := hgrid
  obtain ⟨hnearest, htie⟩ := grid_nearest hrounded k
  rcases hpoint with rfl | ⟨hbelow, hreached⟩
  · refine ⟨hnearest, fun heq hne => htie heq ?_⟩
    rintro rfl
    exact hne rfl
  · have hfarther : |k * 2 ^ exponent - q| < |c - q| := by
      rw [abs_of_nonpos (by linarith), abs_of_nonpos (by linarith)]
      linarith
    exact ⟨hnearest.trans hfarther.le, fun heq => absurd heq (hnearest.trans_lt hfarther).ne'⟩

end

/-! ## Rounded quotients -/

/-- The parts of a quotient that is rounded to a finite number. -/
theorem ofQuotient_eq_finite {negative : Bool} {num den : Nat} (hnum : num ≠ 0)
    (hfinite : (ofQuotient negative num den).isFinite = true) :
    ∃ significand exponent, ofQuotient negative num den = .finite negative significand exponent ∧
      magnitude significand exponent =
        roundHalfEven (scaled num den (exponentOf num den)).1 (scaled num den (exponentOf num den)).2 *
          2 ^ exponentOf num den ∧
      significand % 2 =
        roundHalfEven (scaled num den (exponentOf num den)).1
          (scaled num den (exponentOf num den)).2 % 2 := by
  unfold ofQuotient at hfinite ⊢
  rw [if_neg hnum] at hfinite ⊢
  dsimp only at hfinite ⊢
  generalize roundHalfEven _ _ = rounded at *
  by_cases hcarry : rounded = Nat.pow 2 precision
  · rw [if_pos hcarry] at hfinite ⊢
    dsimp only at hfinite ⊢
    split at hfinite
    · cases hfinite
    · next hupper =>
      rw [if_neg hupper]
      refine ⟨_, _, rfl, ?_, by rw [hcarry]; rfl⟩
      rw [magnitude, two_zpow_succ, ← mul_assoc, hcarry]
      congr 1
      norm_num [precision]
  · rw [if_neg hcarry] at hfinite ⊢
    dsimp only at hfinite ⊢
    split at hfinite
    · cases hfinite
    · next hupper =>
      rw [if_neg hupper]
      exact ⟨_, _, rfl, rfl, rfl⟩

/-- A quotient is rounded to a finite number or to an infinity. -/
theorem isFinite_ofQuotient {negative : Bool} {num den : Nat}
    (h : ∀ sign, ofQuotient negative num den ≠ .infinite sign) :
    (ofQuotient negative num den).isFinite = true := by
  unfold ofQuotient at h ⊢
  split at h
  · next hnum => rw [if_pos hnum]; rfl
  · next hnum =>
    rw [if_neg hnum]
    dsimp only at h ⊢
    generalize (if roundHalfEven _ _ = Nat.pow 2 precision then
      (Nat.pow 2 (precision - 1), exponentOf num den + 1) else _ : Nat × Int) = parts at *
    split at h
    · exact absurd rfl (h negative)
    · next hupper => rw [if_neg hupper]; rfl

/-- A double is a number of the format, of either sign. -/
theorem IsBinary64.exists_inFormat {e : Double} (he : e.IsBinary64) :
    ∃ significand exponent, InFormat significand exponent ∧
      (e.toRat = magnitude significand exponent ∨ e.toRat = -magnitude significand exponent) := by
  have hzero : (0 : ℚ) = magnitude 0 minExponent := by simp [magnitude]
  cases e with
  | nan => exact ⟨0, minExponent, isBinary64_zero false, .inl hzero⟩
  | infinite negative => exact ⟨0, minExponent, isBinary64_zero false, .inl hzero⟩
  | finite negative significand exponent =>
    refine ⟨significand, exponent, he, ?_⟩
    cases negative with
    | true => exact .inr rfl
    | false => exact .inl rfl

theorem abs_signed_sub (negative : Bool) (a b : ℚ) :
    |(if negative then -a else a) - (if negative then -b else b)| = |a - b| := by
  cases negative with
  | true => rw [if_pos rfl, if_pos rfl, neg_sub_neg, abs_sub_comm]
  | false => rfl

/-- A quotient is rounded to the nearest double. -/
theorem isNearest_ofQuotient (negative : Bool) (num : Nat) {den : Nat} (hden : 0 < den)
    (hfinite : (ofQuotient negative num den).isFinite = true) :
    (ofQuotient negative num den).IsNearest (if negative then -(num / den) else num / den) := by
  by_cases hnum : num = 0
  · have hzero : (zero negative).toRat = 0 := by
      cases negative <;> simp [toRat, zero, magnitude]
    rw [hnum, ofQuotient, if_pos rfl] at hfinite ⊢
    rw [Nat.cast_zero, zero_div, neg_zero, ite_self]
    refine ⟨hfinite, fun he => ?_, fun _ _ _ => rfl⟩
    rw [hzero, sub_self, abs_zero]
    exact abs_nonneg _
  · obtain ⟨significand, exponent, hresult, hmagnitude, heven⟩ := ofQuotient_eq_finite hnum hfinite
    have hexponent := exponentOf_spec (Nat.pos_of_ne_zero hnum) hden
    have hround := abs_roundHalfEven_sub (scaled num den (exponentOf num den)).1
      (scaled_pos hden num (exponentOf num den))
    have htie := roundHalfEven_of_tie (scaled num den (exponentOf num den)).1
      (scaled_pos hden num (exponentOf num den))
    rw [scaled_div] at hround htie
    have hq : (0 : ℚ) ≤ num / den := by positivity
    rw [hresult] at hfinite ⊢
    -- without the sign of the quotient
    have hunsigned : ∀ {e : Double}, e.IsBinary64 → ∃ c,
        e.toRat = (if negative then -c else c) ∧
        |magnitude significand exponent - num / den| ≤ |c - num / den| ∧
        (|c - num / den| = |magnitude significand exponent - num / den| →
          c ≠ magnitude significand exponent → significand % 2 = 0) := by
      intro e he
      obtain ⟨significand', exponent', hformat, hvalue⟩ := he.exists_inFormat
      refine ⟨if negative then -e.toRat else e.toRat, by cases negative <;> simp, ?_⟩
      have hvalue' : (if negative then -e.toRat else e.toRat) = magnitude significand' exponent' ∨
          (if negative then -e.toRat else e.toRat) = -magnitude significand' exponent' := by
        cases negative with
        | true => exact hvalue.symm.imp (fun h => by simp [h]) (fun h => by simp [h])
        | false => exact hvalue
      obtain ⟨hnearest, hhalf⟩ := hformat.nearest hq hexponent hround hvalue'
      rw [hmagnitude, heven]
      exact ⟨hnearest, fun heq hne => htie (hhalf heq hne)⟩
    refine ⟨hfinite, fun he => ?_, fun he heq hne => ?_⟩
    · obtain ⟨c, hc, hnearest, -⟩ := hunsigned he
      rwa [hc, toRat, abs_signed_sub, abs_signed_sub]
    · obtain ⟨c, hc, -, hhalf⟩ := hunsigned he
      rw [hc, toRat, abs_signed_sub, abs_signed_sub] at heq
      refine hhalf heq ?_
      rintro rfl
      exact hne hc

/-! ## Rounded integers -/

/-- An integer is rounded to the nearest double. -/
theorem isNearest_ofInt {n : Int} (hfinite : (ofInt n).isFinite = true) : (ofInt n).IsNearest n := by
  have hnearest := isNearest_ofQuotient (n < 0) n.natAbs Nat.one_pos hfinite
  have hvalue : (if decide (n < 0) = true then -((n.natAbs : ℚ) / (1 : Nat)) else n.natAbs / (1 : Nat)) =
      n := by
    rw [Nat.cast_one, div_one, Nat.cast_natAbs]
    split
    · next hneg => rw [abs_of_neg (by simpa using hneg), Int.cast_neg, neg_neg]
    · next hneg => rw [abs_of_nonneg (by simpa using hneg)]
  rwa [hvalue] at hnearest

theorem isBinary64_ofInt (n : Int) : (ofInt n).IsBinary64 :=
  isBinary64_ofQuotient _ _ Nat.one_pos

/-- An integer is rounded to itself exactly if it is a double. -/
theorem toRat_ofInt_iff {n : Int} (hfinite : (ofInt n).isFinite = true) :
    (ofInt n).toRat = n ↔ ∃ e : Double, e.IsBinary64 ∧ e.toRat = n :=
  ⟨fun h => ⟨_, isBinary64_ofInt n, h⟩, fun ⟨_, he, hn⟩ => (isNearest_ofInt hfinite).toRat_eq he hn⟩

/-- Integers of a magnitude up to 2 ^ 53 are doubles. -/
theorem exists_double_of_le {n : Int} (hn : n.natAbs ≤ 2 ^ 53) :
    ∃ e : Double, e.IsBinary64 ∧ e.toRat = n := by
  have hmagnitude : ∃ significand exponent, InFormat significand exponent ∧
      magnitude significand exponent = n.natAbs := by
    rcases Nat.eq_zero_or_pos n.natAbs with hzero | hpos
    · exact ⟨0, minExponent, isBinary64_zero false, by simp [magnitude, hzero]⟩
    · rcases hn.eq_or_lt with hlimit | hless
      · refine ⟨2 ^ 52, 1, ⟨by decide, .inr (by decide), by decide, by decide⟩, ?_⟩
        rw [hlimit, magnitude]
        norm_num
      · obtain ⟨significand, exponent, hformat, -, hvalue⟩ := exists_inFormat_of_lt hpos hless
        exact ⟨significand, exponent, hformat, hvalue⟩
  obtain ⟨significand, exponent, hformat, hvalue⟩ := hmagnitude
  refine ⟨.finite (n < 0) significand exponent, hformat, ?_⟩
  rw [toRat_of_magnitude _ hvalue]
  congr 1
  simp only [decide_eq_true_eq]
  omega

/-- A double that is an integer has it as its whole part, and no fraction. -/
theorem fraction_of_toRat {negative : Bool} {significand : Nat} {exponent : Int} {n : Int}
    (h : (Double.finite negative significand exponent).toRat = n) :
    (fraction significand exponent).1 % (fraction significand exponent).2 = 0 ∧
      (if negative then -((fraction significand exponent).1 / (fraction significand exponent).2 : Nat)
        else ((fraction significand exponent).1 / (fraction significand exponent).2 : Nat) : Int) =
      n := by
  have hpos := fraction_pos significand exponent
  have hden : ((fraction significand exponent).2 : ℚ) ≠ 0 := by exact_mod_cast hpos.ne'
  have hmagnitude : magnitude significand exponent = n.natAbs := by
    rw [Nat.cast_natAbs, Int.cast_abs, ← h, toRat]
    cases negative with
    | true => rw [if_pos rfl, abs_neg, abs_of_nonneg (magnitude_nonneg _ _)]
    | false => exact (abs_of_nonneg (magnitude_nonneg _ _)).symm
  have hexact : (fraction significand exponent).1 =
      n.natAbs * (fraction significand exponent).2 := by
    have hdiv := fraction_div significand exponent
    rw [hmagnitude, div_eq_iff hden] at hdiv
    exact_mod_cast hdiv
  have hwhole : (fraction significand exponent).1 / (fraction significand exponent).2 =
      n.natAbs := by
    rw [hexact, Nat.mul_div_cancel _ hpos]
  have hvalue := (toRat_of_magnitude negative hmagnitude).symm.trans h
  rw [hwhole]
  exact ⟨by rw [hexact, Nat.mul_mod_left], by exact_mod_cast hvalue⟩

/-- The whole part of a double that is an integer is that integer. -/
theorem truncate_of_toRat {d : Double} {n : Int} (h : d.toRat = n) : d.truncate = n := by
  cases d with
  | nan => exact Int.cast_injective (Int.cast_zero.trans h)
  | infinite negative => exact Int.cast_injective (Int.cast_zero.trans h)
  | finite negative significand exponent => exact (fraction_of_toRat h).2

theorem toInt?_of_toRat {d : Double} {n : Int} (hfinite : d.isFinite = true) (h : d.toRat = n) :
    d.toInt? = some n := by
  cases d with
  | nan => cases hfinite
  | infinite negative => cases hfinite
  | finite negative significand exponent =>
    obtain ⟨hexact, hvalue⟩ := fraction_of_toRat h
    exact (if_pos hexact).trans (congrArg some hvalue)

/-- An integer is rounded to a whole number. -/
theorem truncate_ofInt {n : Int} (hfinite : (ofInt n).isFinite = true) :
    (ofInt n).toRat = (ofInt n).truncate := by
  have hwhole : ∃ m : Int, (ofInt n).toRat = m := by
    by_cases hsmall : n.natAbs ≤ 2 ^ 53
    · exact ⟨n, (toRat_ofInt_iff hfinite).mpr (exists_double_of_le hsmall)⟩
    · -- a larger integer has an exponent that is not negative
      have hnum : n.natAbs ≠ 0 := by omega
      obtain ⟨significand, exponent, hresult, hmagnitude, -⟩ := ofQuotient_eq_finite hnum hfinite
      have hexponent : 0 ≤ exponentOf n.natAbs 1 := by
        by_contra hneg
        have hbelow := (exponentOf_spec (Nat.pos_of_ne_zero hnum) Nat.one_pos).below
        have hpow : (2 : ℚ) ^ exponentOf n.natAbs 1 ≤ 1 :=
          zpow_le_one_of_nonpos₀ one_le_two (by omega)
        have hlarge : (2 : ℚ) ^ 53 < n.natAbs := by exact_mod_cast not_le.mp hsmall
        rw [Nat.cast_one, div_one] at hbelow
        linarith
      generalize roundHalfEven _ _ = rounded at hmagnitude
      have hwhole : magnitude significand exponent =
          (rounded * 2 ^ (exponentOf n.natAbs 1).toNat : Nat) := by
        rw [hmagnitude, zpow_of_nonneg 2 hexponent]
        push_cast
        rfl
      exact ⟨_, (congrArg toRat hresult).trans (toRat_of_magnitude _ hwhole)⟩
  obtain ⟨m, hm⟩ := hwhole
  rw [truncate_of_toRat hm, hm]

/-- Integers of a magnitude below 2 ^ 53 have a finite double. -/
theorem isFinite_ofInt_of_lt {n : Int} (hn : n.natAbs < 2 ^ 53) : (ofInt n).isFinite = true := by
  rcases Nat.eq_zero_or_pos n.natAbs with hzero | hpos
  · rw [ofInt, hzero]
    rfl
  · obtain ⟨significand, exponent, hformat, -, hvalue⟩ := exists_inFormat_of_lt hpos hn
    have hnear : IsNear ((n.natAbs : ℚ) / (1 : Nat)) significand exponent := by
      rw [Nat.cast_one, div_one, ← hvalue]
      exact isNear_self significand exponent
    rw [ofInt, ofQuotient_of_near _ hpos Nat.one_pos hformat hnear]
    rfl

/-- The literal of such an integer consists of its digits. -/
theorem literalOf?_ofInt {n : Int} (hn : n.natAbs < 2 ^ 53) :
    literalOf? (ofInt n) = some (toString n) := by
  have hfinite := isFinite_ofInt_of_lt hn
  have hvalue := (toRat_ofInt_iff hfinite).mpr (exists_double_of_le hn.le)
  have hplain : n.natAbs < plainLimit := hn.trans (by decide)
  unfold literalOf?
  simp only [hfinite, Bool.not_true, Bool.false_eq_true, if_false,
    toInt?_of_toRat hfinite hvalue, hplain, if_true]

/-- An integer in a field stands for its double, if that is finite. -/
theorem doubleOf_int_iff {n : Int} {d : Double} :
    doubleOf (.int n) = .ok d ↔ d = ofInt n ∧ d.isFinite = true := by
  unfold doubleOf
  dsimp only
  constructor
  · intro h
    split at h
    · cases h
    · next hfinite =>
      cases h
      exact ⟨rfl, isFinite_ofQuotient hfinite⟩
  · rintro ⟨rfl, hfinite⟩
    split
    · next hinfinite =>
      rw [hinfinite] at hfinite
      cases hfinite
    · rfl

end BlockScript.Number.Double
