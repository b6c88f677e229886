import BlockScript.Proofs.Names.Identifier
import BlockScript.Proofs.Number.Shortest
import Mathlib.Data.List.TakeWhile

/-!
# Literals read back

The literal of a number, read as a number again, gives that number. The layouts of the
digits of a decimal differ in where the point stands and in the zeros around the digits,
and all of them spell the value of the decimal.

Results:

* `Double.readDecimal?_layout`: a layout spells the value of its digits.
* `Double.readDouble?_toText`: the text of a double reads back as the double.
* `finiteNumber?_literalOf?`: so does every literal, but for the sign of zero.
-/

namespace BlockScript.Number

open BlockScript.Reading BlockScript.Text

/-! ## Values of digits -/

theorem naturalOf_eq (cs : List Char) : naturalOf cs = Nat.ofDigitChars 10 cs 0 :=
  rfl

theorem naturalOf_append (cs ds : List Char) :
    naturalOf (cs ++ ds) = 10 ^ ds.length * naturalOf cs + naturalOf ds := by
  rw [naturalOf_eq, naturalOf_eq, naturalOf_eq, Nat.ofDigitChars_append,
    Nat.ofDigitChars_eq_ofDigitChars_zero]

theorem naturalOf_replicate_zero (count : Nat) : naturalOf (List.replicate count '0') = 0 := by
  rw [naturalOf_eq, Nat.ofDigitChars_replicate_zero, Nat.mul_zero]

/-- The digits of a number spell it. -/
theorem naturalOf_digitsOf (n : Nat) : naturalOf (Decimal.digitsOf n) = n :=
  Nat.ofDigitChars_ten_toDigits

theorem naturalOf_paddedDigits (width n : Nat) : naturalOf (paddedDigits 10 width n) = n := by
  unfold paddedDigits
  rw [naturalOf_append, naturalOf_replicate_zero, Nat.mul_zero, Nat.zero_add]
  exact naturalOf_digitsOf n

theorem toString_eq_ofList (n : Int) :
    toString n = String.ofList
      (if n < 0 then '-' :: Decimal.digitsOf n.natAbs else Decimal.digitsOf n.natAbs) := by
  refine String.toList_inj.mp ?_
  rw [String.toList_ofList]
  cases n with
  | ofNat n =>
    rw [Int.toString_eq_repr, Int.repr, Nat.toList_repr, if_neg (by simp)]
    rfl
  | negSucc n =>
    rw [if_pos (Int.negSucc_lt_zero n)]
    simp [Int.toString_eq_repr, Int.repr, Decimal.digitsOf]

theorem toString_injective {m n : Int} (h : toString m = toString n) : m = n := by
  have hdigits : ∀ {a b : Nat}, Decimal.digitsOf a = Decimal.digitsOf b → a = b := by
    intro a b hab
    rw [← naturalOf_digitsOf a, hab, naturalOf_digitsOf]
  have hminus : ∀ {a : Nat} {cs : List Char}, Decimal.digitsOf a ≠ '-' :: cs := by
    intro a cs heq
    have hdigit : '-'.isDigit = true := isDigit_of_mem_digitsOf (n := a) (heq ▸ List.mem_cons_self)
    cases hdigit
  rw [toString_eq_ofList, toString_eq_ofList, String.ofList_inj] at h
  split at h <;> split at h
  · have := hdigits (List.cons.inj h).2
    omega
  · exact absurd h.symm hminus
  · exact absurd h hminus
  · have := hdigits h
    omega

/-! ## Reading numerals -/

/-- A power of ten as it is written. -/
theorem readPower?_written (power : Int) :
    readPower? ('e' :: (if power < 0 then '-' else '+') :: paddedDigits 10 2 power.natAbs) =
      some power := by
  have hempty : (paddedDigits 10 2 power.natAbs).isEmpty = false := by
    simpa using paddedDigits_ne_nil 2 power.natAbs
  have hdigits : (paddedDigits 10 2 power.natAbs).all Char.isDigit = true :=
    List.all_eq_true.mpr fun c hc => isDigit_of_mem_paddedDigits hc
  by_cases h : power < 0
  · have hvalue : -(power.natAbs : Int) = power := by omega
    simp only [readPower?, h, if_true, splitSign, hempty, hdigits, naturalOf_paddedDigits, signed,
      hvalue]
    rfl
  · have hvalue : (power.natAbs : Int) = power := by omega
    simp only [readPower?, h, if_false, splitSign, hempty, hdigits, naturalOf_paddedDigits, signed,
      hvalue]
    rfl

theorem span_digits {cs rest : List Char} (hcs : ∀ c ∈ cs, c.isDigit = true)
    (hrest : ∀ c ∈ rest.head?, c.isDigit = false) :
    (cs ++ rest).takeWhile Char.isDigit = cs ∧ (cs ++ rest).dropWhile Char.isDigit = rest := by
  rw [List.takeWhile_append_of_pos hcs, List.dropWhile_append_of_pos hcs]
  cases rest with
  | nil => simp
  | cons c rest => simp [hrest c (by simp)]

/-- A numeral with a point. -/
theorem readDecimal?_point (whole part tail : List Char) {power : Int}
    (hwhole : ∀ c ∈ whole, c.isDigit = true) (hne : whole ≠ [])
    (hpart : ∀ c ∈ part, c.isDigit = true) (htail : ∀ c ∈ tail.head?, c.isDigit = false)
    (hpower : readPower? tail = some power) :
    readDecimal? (whole ++ '.' :: (part ++ tail)) =
      some ⟨naturalOf (whole ++ part), power - part.length⟩ := by
  have hpoint : ∀ c ∈ ('.' :: (part ++ tail)).head?, c.isDigit = false := by simp
  obtain ⟨htake, hdrop⟩ := span_digits hwhole hpoint
  obtain ⟨htake', hdrop'⟩ := span_digits hpart htail
  simp [readDecimal?, htake, hdrop, htake', hdrop', hne, hpower]

/-- A numeral without a point. -/
theorem readDecimal?_whole (whole tail : List Char) {power : Int}
    (hwhole : ∀ c ∈ whole, c.isDigit = true) (hne : whole ≠ [])
    (htail : ∀ c ∈ tail.head?, c = 'e') (hpower : readPower? tail = some power) :
    readDecimal? (whole ++ tail) = some ⟨naturalOf whole, power⟩ := by
  have hdigit : ∀ c ∈ tail.head?, c.isDigit = false := by
    intro c hc
    rw [htail c hc]
    rfl
  obtain ⟨htake, hdrop⟩ := span_digits hwhole hdigit
  cases tail with
  | nil =>
    rw [List.append_nil] at htake hdrop ⊢
    simp [readDecimal?, htake, hdrop, hne, hpower]
  | cons c tail =>
    obtain rfl : c = 'e' := htail c (by simp)
    simp [readDecimal?, htake, hdrop, hne, hpower]

/-! ## Layouts -/

/-- Zeros at the end of digits count as powers of ten. -/
theorem Decimal.value_shifted (n count : Nat) (exponent : Int) :
    (⟨10 ^ count * n, exponent⟩ : Decimal).value = (⟨n, exponent + count⟩ : Decimal).value := by
  unfold Decimal.value
  rw [zpow_add₀ (by norm_num), zpow_natCast]
  push_cast
  ring

section

variable {digits : List Char} (hdigits : ∀ c ∈ digits, c.isDigit = true)
include hdigits

/-- The point stands ahead of the digits and of zeros. -/
theorem readDecimal?_ahead (zeros : Nat) :
    readDecimal? ('0' :: '.' :: (List.replicate zeros '0' ++ digits)) =
      some ⟨naturalOf digits, -zeros - digits.length⟩ := by
  have hread := readDecimal?_point ['0'] (List.replicate zeros '0' ++ digits) []
    (fun _ => isDigit_of_mem_replicate_zero (n := 1)) (by simp)
    (fun c hc => (List.mem_append.mp hc).elim isDigit_of_mem_replicate_zero (hdigits c)) (by simp)
    rfl
  have hvalue : naturalOf (['0'] ++ (List.replicate zeros '0' ++ digits)) = naturalOf digits := by
    rw [naturalOf_append, naturalOf_append, naturalOf_replicate_zero]
    simp [naturalOf]
  have hexponent : (0 - (List.replicate zeros '0' ++ digits).length : Int) =
      -zeros - digits.length := by
    simp only [List.length_append, List.length_replicate]
    omega
  rw [List.append_nil, hvalue, hexponent] at hread
  exact hread

/-- The point stands behind the digits and zeros. -/
theorem readDecimal?_behind (hne : digits ≠ []) (zeros : Nat) :
    readDecimal? (digits ++ List.replicate zeros '0' ++ ['.', '0']) =
      some ⟨10 ^ (zeros + 1) * naturalOf digits, -1⟩ := by
  have hread := readDecimal?_point (digits ++ List.replicate zeros '0') ['0'] []
    (fun c hc => (List.mem_append.mp hc).elim (hdigits c) isDigit_of_mem_replicate_zero)
    (by simp [hne]) (fun _ => isDigit_of_mem_replicate_zero (n := 1)) (by simp) rfl
  have hvalue : naturalOf (digits ++ List.replicate zeros '0' ++ ['0']) =
      10 ^ (zeros + 1) * naturalOf digits := by
    rw [naturalOf_append, naturalOf_append, naturalOf_replicate_zero, List.length_replicate,
      pow_succ]
    simp [naturalOf]
    ring
  rw [hvalue] at hread
  exact hread

/-- The point stands between two digits. -/
theorem readDecimal?_between (count : Nat) (hpos : 0 < count) (hshort : count < digits.length) :
    readDecimal? (digits.take count ++ '.' :: digits.drop count) =
      some ⟨naturalOf digits, count - digits.length⟩ := by
  have hread := readDecimal?_point (digits.take count) (digits.drop count) []
    (fun c hc => hdigits c (List.mem_of_mem_take hc))
    (List.ne_nil_of_length_pos (by rw [List.length_take]; omega))
    (fun c hc => hdigits c (List.mem_of_mem_drop hc)) (by simp) rfl
  have hexponent : (0 - (digits.drop count).length : Int) = count - digits.length := by
    rw [List.length_drop]
    omega
  rw [List.append_nil, List.take_append_drop, hexponent] at hread
  exact hread

end

namespace Double

/-- A layout spells the value of its digits. -/
theorem readDecimal?_layout {digits : List Char} (hne : digits ≠ [])
    (hdigits : ∀ c ∈ digits, c.isDigit = true) (point : Int) :
    ∃ d, readDecimal? (layout digits point) = some d ∧
      d.value = (⟨naturalOf digits, point - digits.length⟩ : Decimal).value := by
  have hlength := List.length_pos_of_ne_nil hne
  unfold layout
  split
  · split
    · next hpoint =>
      refine ⟨_, readDecimal?_ahead hdigits (-point).toNat, ?_⟩
      rw [show -((-point).toNat : Int) = point by omega]
    · split
      · next hpoint hlong =>
        refine ⟨_, readDecimal?_behind hdigits hne (point.toNat - digits.length), ?_⟩
        rw [Decimal.value_shifted]
        congr 2
        omega
      · next hpoint hshort =>
        refine ⟨_, readDecimal?_between hdigits point.toNat (by omega) (by omega), ?_⟩
        rw [Int.toNat_of_nonneg (by omega)]
  · have hpower := readPower?_written (point - 1)
    have htail : ∀ c ∈ ('e' :: (if point - 1 < 0 then '-' else '+') ::
        paddedDigits 10 2 (point - 1).natAbs).head?, c.isDigit = false := by
      rintro c ⟨⟩
      rfl
    obtain ⟨first, rest, rfl⟩ := List.exists_cons_of_ne_nil hne
    cases rest with
    | nil =>
      have hread := readDecimal?_whole _ _ hdigits hne (by rintro c ⟨⟩; rfl) hpower
      exact ⟨_, hread, by simp⟩
    | cons second rest =>
      have hread := readDecimal?_point [first] (second :: rest) _
        (fun c hc => hdigits c (by simp_all)) (by simp) (fun c hc => hdigits c (by simp_all)) htail
        hpower
      refine ⟨_, hread, ?_⟩
      rw [List.singleton_append, List.length_cons (a := first)]
      congr 2
      push_cast
      ring

/-- The significant digits of a positive decimal spell its value. -/
theorem value_significantDigits (d : Decimal) :
    (⟨naturalOf (significantDigits d).1, (significantDigits d).2 - (significantDigits d).1.length⟩ :
      Decimal).value = d.value := by
  have hsplit : ∃ zeros, Decimal.digitsOf d.digits =
      (significantDigits d).1 ++ List.replicate zeros '0' := by
    have hzeros := List.eq_replicate_of_mem (a := '0')
      (l := (Decimal.digitsOf d.digits).reverse.takeWhile (· = '0'))
      fun c hc => by simpa using List.mem_takeWhile_imp hc
    refine ⟨((Decimal.digitsOf d.digits).reverse.takeWhile (· = '0')).length, ?_⟩
    calc Decimal.digitsOf d.digits
        = ((Decimal.digitsOf d.digits).reverse.takeWhile (· = '0') ++
            (Decimal.digitsOf d.digits).reverse.dropWhile (· = '0')).reverse := by
          rw [List.takeWhile_append_dropWhile, List.reverse_reverse]
      _ = _ := by
          rw [List.reverse_append, hzeros, List.reverse_replicate, List.length_replicate]
          rfl
  obtain ⟨zeros, hzeros⟩ := hsplit
  have hpoint : (significantDigits d).2 =
      ((significantDigits d).1.length + zeros : Nat) + d.exponent := by
    rw [← List.length_replicate (n := zeros) (a := '0'), ← List.length_append, ← hzeros]
    rfl
  have hvalue : d.digits = 10 ^ zeros * naturalOf (significantDigits d).1 := by
    rw [← naturalOf_digitsOf d.digits, hzeros, naturalOf_append, naturalOf_replicate_zero,
      List.length_replicate, Nat.add_zero]
  have hshift := Decimal.value_shifted (naturalOf (significantDigits d).1) zeros d.exponent
  rw [← hvalue] at hshift
  rw [hpoint]
  refine Eq.trans ?_ hshift.symm
  congr 2
  push_cast
  ring

end Double

/-! ## Reading literals -/

/-- The characters that literals consist of. -/
def literalChars : List Char :=
  ['0', '1', '2', '3', '4', '5', '6', '7', '8', '9', '.', 'e', '+', '-']

theorem mem_literalChars_of_isDigit {c : Char} (h : c.isDigit = true) : c ∈ literalChars := by
  have hall : ∀ k : Fin 10, Char.ofNat (48 + k.val) ∈ literalChars := by decide
  simp only [Char.isDigit, Bool.and_eq_true, decide_eq_true_eq] at h
  have hlow : 48 ≤ c.toNat := h.1
  have hhigh : c.toNat ≤ 57 := h.2
  have hchar := hall ⟨c.toNat - 48, by omega⟩
  rwa [show 48 + (c.toNat - 48) = c.toNat by omega, Char.ofNat_toNat] at hchar

theorem mem_literalChars_of_scan {part last : NumberPart} {cs : List Char}
    (h : scan part cs = some last) : ∀ c ∈ cs, c ∈ literalChars := by
  induction cs generalizing part with
  | nil => simp
  | cons c cs ih =>
    obtain ⟨next, hnext, hrest⟩ := Option.bind_eq_some_iff.mp h
    have hfirst : c ∈ literalChars := by
      by_cases hdigit : c.isDigit = true
      · exact mem_literalChars_of_isDigit hdigit
      · have hsign : c = '.' ∨ c = 'e' ∨ c = '+' ∨ c = '-' := by
          cases part <;> simp only [NumberPart.next, hdigit] at hnext <;> grind
        rcases hsign with rfl | rfl | rfl | rfl <;> decide
    exact List.forall_mem_cons.mpr ⟨hfirst, ih hrest⟩

theorem Numeral.mem_literalChars {cs : List Char} (h : Numeral cs) : ∀ c ∈ cs, c ∈ literalChars := by
  obtain ⟨c, rest, part, rfl, hdigit, hscan, -⟩ := h
  exact List.forall_mem_cons.mpr
    ⟨mem_literalChars_of_isDigit hdigit, mem_literalChars_of_scan hscan⟩

theorem trimWhile_eq_self {p : Char → Bool} {cs : List Char} (h : ∀ c ∈ cs, p c = false) :
    trimWhile p cs = cs := by
  have hdrop : ∀ ds : List Char, (∀ c ∈ ds, p c = false) → ds.dropWhile p = ds := by
    intro ds hds
    cases ds with
    | nil => rfl
    | cons d ds => rw [List.dropWhile_cons, hds d (by simp)]; rfl
  rw [trimWhile, hdrop cs h, dropEndWhile, hdrop _ fun c hc => h c (List.mem_reverse.mp hc),
    List.reverse_reverse]

theorem dropUnderscores?_eq_self {cs : List Char} (h : ∀ c ∈ cs, c ≠ '_') (afterDigit : Bool) :
    dropUnderscores? afterDigit cs = some cs := by
  induction cs generalizing afterDigit with
  | nil => rfl
  | cons c cs ih =>
    have hrest := ih (fun d hd => h d (by simp [hd])) c.isDigit
    rw [dropUnderscores?.eq_def]
    split
    · contradiction
    · next heq => exact absurd (List.cons.inj heq).1 (h c (by simp))
    · next heq =>
      obtain ⟨rfl, rfl⟩ := List.cons.inj heq
      rw [hrest]
      rfl

/-- A text of the characters of literals has no other spelling. -/
theorem plainNumeral?_eq_self {cs : List Char} (h : ∀ c ∈ cs, c ∈ literalChars) :
    plainNumeral? (String.ofList cs) = some cs := by
  have hall : ∀ c ∈ literalChars, isNumberBlank c = false ∧ plainDigit c = c ∧ c ≠ '_' :=
    List.forall_iff_forall_mem.mp (by decide)
  have hmap : cs.map plainDigit = cs :=
    (List.map_congr_left fun c hc => (hall c (h c hc)).2.1).trans (List.map_id cs)
  rw [plainNumeral?, String.toList_ofList, trimWhile_eq_self fun c hc => (hall c (h c hc)).1, hmap]
  exact dropUnderscores?_eq_self (fun c hc => (hall c (h c hc)).2.2) false

/-- A numeral with a sign is read as the decimal that it spells. -/
theorem readDouble?_signed (negative : Bool) {cs : List Char} (h : Numeral cs) :
    readDouble? (String.ofList (if negative then '-' :: cs else cs)) =
      (readDecimal? cs).map (Decimal.toDouble negative) := by
  have hplain : plainNumeral? (String.ofList (if negative then '-' :: cs else cs)) =
      some (if negative then '-' :: cs else cs) := by
    refine plainNumeral?_eq_self fun c hc => ?_
    cases negative with
    | false => exact h.mem_literalChars c hc
    | true =>
      rcases List.mem_cons.mp hc with rfl | hc
      · decide
      · exact h.mem_literalChars c hc
  obtain ⟨c, rest, part, rfl, hdigit, -⟩ := h
  have hsign : splitSign (if negative then '-' :: c :: rest else c :: rest) =
      (negative, c :: rest) := by
    cases negative with
    | true => rfl
    | false =>
      have hminus : c ≠ '-' := by rintro rfl; exact absurd hdigit (by decide)
      have hplus : c ≠ '+' := by rintro rfl; exact absurd hdigit (by decide)
      simp [splitSign, hminus, hplus]
  have hword : ∀ word : String, word.toList.head?.any Char.isDigit = false →
      String.ofList ((c :: rest).map Char.toLower) ≠ word := by
    rintro word hhead rfl
    simp [toLower_of_isDigit hdigit, hdigit] at hhead
  unfold readDouble?
  simp only [hplain, Option.bind_eq_bind, Option.bind_some, hsign, hword "inf" (by decide),
    hword "infinity" (by decide), hword "nan" (by decide), if_false]
  cases readDecimal? (c :: rest) <;> rfl

/-! ## Literals of doubles -/

namespace Double

/-- A number with its sign replaced. -/
def withSign (negative : Bool) : Double → Double
  | .nan => .nan
  | .infinite _ => .infinite negative
  | .finite _ significand exponent => .finite negative significand exponent

theorem ofQuotient_sign (negative : Bool) (num den : Nat) :
    ofQuotient negative num den = (ofQuotient false num den).withSign negative := by
  unfold ofQuotient
  split
  · rfl
  · dsimp only
    generalize (if roundHalfEven _ _ = Nat.pow 2 precision then
      (Nat.pow 2 (precision - 1), exponentOf num den + 1) else _ : Nat × Int) = parts
    split <;> rfl

/-- Decimals are rounded without regard to their sign. -/
theorem toDouble_sign (negative : Bool) (d : Decimal) :
    d.toDouble negative = (d.toDouble false).withSign negative := by
  unfold Decimal.toDouble
  dsimp only
  split
  · rfl
  · split
    · rfl
    · split
      · rfl
      · split <;> exact ofQuotient_sign negative _ _

variable {significand : Nat} {exponent : Int}

/-- The text of a double that is not zero reads back as the double. -/
theorem readDouble?_toText (negative : Bool) (hformat : InFormat significand exponent)
    (hpos : 0 < significand) :
    readDouble? (toText (.finite negative significand exponent)) =
      some (.finite negative significand exponent) := by
  have hshortest := digits_shortest_pos hpos exponent
  obtain ⟨c, cs, hdigits, hzero, hall⟩ := significantDigits_eq_cons hshortest
  have hvalue := value_significantDigits (shortest significand exponent)
  obtain ⟨d, hread, hsame⟩ := readDecimal?_layout (List.cons_ne_nil c cs) hall
    (significantDigits (shortest significand exponent)).2
  rw [hdigits] at hvalue
  rw [hvalue] at hsame
  have hne : significand ≠ 0 := by omega
  unfold toText
  simp only [hne, if_false, hdigits]
  rw [readDouble?_signed negative (numeral_layout hzero hall _), hread, Option.map_some]
  have hd : 0 < d.digits := by
    refine Nat.pos_of_ne_zero fun hd => ?_
    have := Decimal.value_pos hshortest
    rw [← hsame, Decimal.value, hd, Nat.cast_zero, zero_mul] at this
    exact lt_irrefl _ this
  rw [Decimal.toDouble_congr negative hd hshortest hsame,
    toDouble_sign,
    toDouble_shortest hformat hpos]
  rfl

/-- The digits of an integer that is a double read back as the double. -/
theorem readDouble?_toString (negative : Bool) (hformat : InFormat significand exponent)
    (hpos : 0 < significand) {n : Int}
    (hn : (Double.finite negative significand exponent).toRat = n) :
    readDouble? (toString n) = some (.finite negative significand exponent) := by
  have hmagnitude := magnitude_pos hpos exponent
  have hsign : negative = decide (n < 0) := by
    rw [eq_comm, toRat] at hn
    cases negative with
    | true =>
      have : (n : ℚ) < 0 := by rw [hn, if_pos rfl]; linarith
      exact (decide_eq_true (by exact_mod_cast this)).symm
    | false =>
      have : (0 : ℚ) < n := by rw [hn]; exact hmagnitude
      exact (decide_eq_false (by have : 0 < n := by exact_mod_cast this
                                 omega)).symm
  have habs : (n.natAbs : ℚ) = magnitude significand exponent := by
    rw [← abs_of_pos hmagnitude, Nat.cast_natAbs, Int.cast_abs, ← hn, toRat]
    split
    · rw [abs_neg]
    · rfl
  have hdigits : 0 < n.natAbs := (Nat.cast_pos (α := ℚ)).mp (habs ▸ hmagnitude)
  have hread := readDecimal?_whole (Decimal.digitsOf n.natAbs) []
    (fun c hc => isDigit_of_mem_digitsOf hc) Nat.toDigits_ne_nil (by simp) rfl
  rw [List.append_nil, naturalOf_digitsOf] at hread
  have hnear : IsNear (Decimal.value ⟨n.natAbs, 0⟩) significand exponent := by
    have hvalue : Decimal.value ⟨n.natAbs, 0⟩ = magnitude significand exponent := by
      simp [Decimal.value, ← habs]
    exact hvalue ▸ isNear_self significand exponent
  have htext : toString n = String.ofList
      (if negative then '-' :: Decimal.digitsOf n.natAbs else Decimal.digitsOf n.natAbs) := by
    rw [toString_eq_ofList, hsign]
    simp only [decide_eq_true_eq]
  rw [htext, readDouble?_signed negative (numeral_digitsOf _), hread, Option.map_some,
    toDouble_of_near negative hdigits hformat hpos hnear]

theorem toRat_of_magnitude (negative : Bool) {n : Nat} (h : magnitude significand exponent = n) :
    (Double.finite negative significand exponent).toRat =
      ((if negative then -(n : Int) else n : Int) : ℚ) := by
  rw [toRat, h]
  cases negative with
  | true => simp only [if_true, Int.cast_neg, Int.cast_natCast]
  | false => simp only [Bool.false_eq_true, if_false, Int.cast_natCast]

theorem toRat_of_toInt? {d : Double} {n : Int} (h : d.toInt? = some n) : d.toRat = n := by
  cases d with
  | nan => cases h
  | infinite negative => cases h
  | finite negative significand exponent =>
    have hpos := fraction_pos significand exponent
    have hdiv := fraction_div significand exponent
    unfold toInt? at h
    dsimp only at h
    split at h
    · next hexact =>
      have hquotient := natCast_eq_div_add (fraction significand exponent).1 hpos
      rw [hexact, Nat.cast_zero, zero_div, add_zero, hdiv] at hquotient
      cases h
      exact toRat_of_magnitude negative hquotient
    · cases h

/-- A whole number with fewer bits than a significand is a double. -/
theorem exists_inFormat_of_lt {n : Nat} (hpos : 0 < n) (hn : n < 2 ^ 53) :
    ∃ significand exponent, InFormat significand exponent ∧ 0 < significand ∧
      magnitude significand exponent = n := by
  have hlog : n.log2 < 53 := (Nat.log2_lt hpos.ne').mpr hn
  have hlow : 2 ^ n.log2 ≤ n := Nat.log2_self_le hpos.ne'
  have hhigh : n < 2 ^ (n.log2 + 1) := Nat.lt_log2_self
  refine ⟨n * 2 ^ (52 - n.log2), n.log2 - 52, ⟨?_, .inr ?_, ?_, ?_⟩, by positivity, ?_⟩
  · calc n * 2 ^ (52 - n.log2) < 2 ^ (n.log2 + 1) * 2 ^ (52 - n.log2) :=
        Nat.mul_lt_mul_of_pos_right hhigh (by positivity)
      _ = 2 ^ precision := by
        rw [← pow_add, show n.log2 + 1 + (52 - n.log2) = 53 by omega]
        rfl
  · calc 2 ^ (precision - 1) = 2 ^ n.log2 * 2 ^ (52 - n.log2) := by
          rw [← pow_add, show n.log2 + (52 - n.log2) = 52 by omega]
          rfl
      _ ≤ n * 2 ^ (52 - n.log2) := Nat.mul_le_mul_right _ hlow
  · have : minExponent = -1074 := rfl
    omega
  · have : maxExponent = 971 := rfl
    omega
  · have hexponent : (n.log2 - 52 : Int) = -((52 - n.log2 : Nat) : Int) := by omega
    rw [magnitude, hexponent, zpow_neg, zpow_natCast]
    push_cast
    exact mul_inv_cancel_right₀ (by positivity) _

end Double

theorem finiteNumber?_of_readDouble? {code : String} {negative : Bool} {significand : Nat}
    {exponent : Int} (h : readDouble? code = some (.finite negative significand exponent)) :
    finiteNumber? code = some (.finite negative significand exponent) := by
  rw [finiteNumber?, h]
  rfl

/-- The whole part of a double is a double, too, and its digits read back as it. -/
theorem finiteNumber?_truncate {d : Double} (hformat : d.IsBinary64) :
    ∃ whole, finiteNumber? (toString d.truncate) = some whole ∧ whole.toRat = d.truncate := by
  have hzero : ∃ whole, finiteNumber? (toString (0 : Int)) = some whole ∧
      whole.toRat = ((0 : Int) : ℚ) :=
    ⟨.zero false, by decide, by simp [Double.toRat, Double.zero, Double.magnitude]⟩
  cases d with
  | nan => exact hzero
  | infinite negative => exact hzero
  | finite negative significand exponent =>
    have hquotient : (Double.fraction significand exponent).1 /
        (Double.fraction significand exponent).2 = 0 ∨
        ∃ significand' exponent', Double.InFormat significand' exponent' ∧ 0 < significand' ∧
          Double.magnitude significand' exponent' = ((Double.fraction significand exponent).1 /
            (Double.fraction significand exponent).2 : Nat) := by
      rcases Nat.eq_zero_or_pos ((Double.fraction significand exponent).1 /
        (Double.fraction significand exponent).2) with hnone | hpos
      · exact .inl hnone
      · refine .inr ?_
        by_cases hexponent : 0 ≤ exponent
        · -- the double is whole
          have hdiv := Double.fraction_div significand exponent
          simp only [Double.fraction, hexponent, if_true, Nat.div_one, Nat.cast_one, div_one] at *
          refine ⟨significand, exponent, hformat, Nat.pos_of_mul_pos_right hpos, hdiv.symm⟩
        · refine Double.exists_inFormat_of_lt hpos (lt_of_le_of_lt ?_ hformat.short)
          simp only [Double.fraction, hexponent, if_false]
          exact Nat.div_le_self _ _
    rcases hquotient with hnone | ⟨significand', exponent', hformat', hpos, hvalue⟩
    · have htruncate : (Double.finite negative significand exponent).truncate = 0 := by
        unfold Double.truncate
        dsimp only
        rw [hnone]
        split <;> rfl
      rw [htruncate]
      exact hzero
    · have hvalue' : (Double.finite negative significand' exponent').toRat =
          (Double.finite negative significand exponent).truncate :=
        Double.toRat_of_magnitude negative hvalue
      exact ⟨_, finiteNumber?_of_readDouble?
        (Double.readDouble?_toString negative hformat' hpos hvalue'), hvalue'⟩

/-- The literal of a double reads back as the double. Zero loses its sign. -/
theorem finiteNumber?_literalOf? {d : Double} {code : String} (hformat : d.IsBinary64)
    (h : literalOf? d = some code) :
    finiteNumber? code = some (if d.isZero then .zero false else d) := by
  unfold literalOf? at h
  cases d with
  | nan => simp [Double.isFinite] at h
  | infinite negative => simp [Double.isFinite] at h
  | finite negative significand exponent =>
    simp only [Double.isFinite, Bool.not_true, Bool.false_eq_true, if_false] at h
    by_cases hzero : significand = 0
    · subst hzero
      simp only [toInt?_zero, show (0 : Int).natAbs < plainLimit by decide, if_true] at h
      cases h
      exact (by decide : finiteNumber? (toString (0 : Int)) = some (.zero false))
    · have hpos := Nat.pos_of_ne_zero hzero
      have hread : readDouble? code = some (.finite negative significand exponent) := by
        split at h
        · next n hint =>
          split at h
          · cases h
            exact Double.readDouble?_toString negative hformat hpos (Double.toRat_of_toInt? hint)
          · cases h
            exact Double.readDouble?_toText negative hformat hpos
        · cases h
          exact Double.readDouble?_toText negative hformat hpos
      rw [finiteNumber?_of_readDouble? hread]
      simp [Double.isZero, hzero]

/-- A layout is not digits alone. -/
theorem Double.layout_ne_digits (digits : List Char) (point : Int) :
    ∃ c ∈ layout digits point, c.isDigit = false ∧ c ≠ '-' := by
  unfold layout
  split
  · refine ⟨'.', ?_, rfl, by decide⟩
    split
    · simp
    · split <;> simp
  · exact ⟨'e', by simp, rfl, by decide⟩

theorem isDigit_of_mem_toString {n : Int} {c : Char} (h : c ∈ (toString n).toList) :
    c.isDigit = true ∨ c = '-' := by
  rw [toString_eq_ofList, String.toList_ofList] at h
  split at h
  · rcases List.mem_cons.mp h with rfl | h
    · exact .inr rfl
    · exact .inl (isDigit_of_mem_digitsOf h)
  · exact .inl (isDigit_of_mem_digitsOf h)

/-- A literal that is written as an integer is that of the integer. -/
theorem toRat_of_literalOf?_toString {d : Double} {n : Int} (h : literalOf? d = some (toString n)) :
    d.toRat = n := by
  have htext : ∀ negative significand exponent,
      toString n = (Double.finite negative significand exponent).toText → significand = 0 := by
    intro negative significand exponent heq
    by_contra hne
    obtain ⟨c, hc, hdigit, hminus⟩ := Double.layout_ne_digits
      (Double.significantDigits (Double.shortest significand exponent)).1
      (Double.significantDigits (Double.shortest significand exponent)).2
    have hmem : c ∈ (toString n).toList := by
      rw [heq]
      unfold Double.toText
      simp only [hne, if_false, String.toList_ofList]
      split <;> simp [hc]
    rcases isDigit_of_mem_toString hmem with hyes | hyes
    · rw [hdigit] at hyes
      cases hyes
    · exact hminus hyes
  unfold literalOf? at h
  cases d with
  | nan => simp [Double.isFinite] at h
  | infinite negative => simp [Double.isFinite] at h
  | finite negative significand exponent =>
    simp only [Double.isFinite, Bool.not_true, Bool.false_eq_true, if_false] at h
    by_cases hzero : significand = 0
    · subst hzero
      simp only [toInt?_zero, show (0 : Int).natAbs < plainLimit by decide, if_true,
        Option.some.injEq] at h
      rw [← toString_injective h]
      exact Double.toRat_of_toInt? (toInt?_zero negative exponent)
    · split at h
      · next m hint =>
        split at h
        · rw [← toString_injective (Option.some.inj h)]
          exact Double.toRat_of_toInt? hint
        · exact absurd (htext _ _ _ (Option.some.inj h).symm) hzero
      · exact absurd (htext _ _ _ (Option.some.inj h).symm) hzero

end BlockScript.Number
