import BlockScript.Number.Literal
import BlockScript.Proofs.Reading.Lexis

/-!
# Number literals

The literal of a number is a numeral that all target languages read as one
token, behind a minus sign if the number is negative. A numeral is given by the
automaton that reads it: digits without a needless zero in front, perhaps a
point and more digits, perhaps a power of ten.

Results:

* `literalOf?_shape`: every literal is a numeral, perhaps after a minus sign.
* `Numeral.cut_eq`: a numeral is one token.
-/

namespace BlockScript.Number

open BlockScript.Reading

/-! ## Numerals -/

/-- How a number goes on with several characters. -/
def scan (part : NumberPart) : List Char → Option NumberPart
  | [] => some part
  | c :: cs => (part.next c).bind fun part => scan part cs

/-- How a number starts. -/
def firstPart (c : Char) : NumberPart :=
  if c = '0' then .zero else .whole

/-- Whether characters are a whole number token. -/
def Numeral (cs : List Char) : Prop :=
  ∃ c rest part, cs = c :: rest ∧ c.isDigit = true ∧ scan (firstPart c) rest = some part ∧
    part.isWhole = true

theorem scan_append (part : NumberPart) (cs ds : List Char) :
    scan part (cs ++ ds) = (scan part cs).bind fun part => scan part ds := by
  induction cs generalizing part with
  | nil => rfl
  | cons c cs ih =>
    rw [List.cons_append, scan, scan]
    cases part.next c with
    | none => rfl
    | some next => exact ih next

/-- A part that digits do not change is the same after several. -/
theorem scan_digits {part : NumberPart} (h : ∀ c : Char, c.isDigit = true → part.next c = some part)
    {cs : List Char} (hcs : ∀ c ∈ cs, c.isDigit = true) : scan part cs = some part := by
  induction cs with
  | nil => rfl
  | cons c cs ih =>
    rw [scan, h c (hcs c (by simp))]
    exact ih fun d hd => hcs d (by simp [hd])

/-- A part that a digit leads to from another one is reached by several. -/
theorem scan_someDigits {part next : NumberPart}
    (hfirst : ∀ c : Char, c.isDigit = true → part.next c = some next)
    (h : ∀ c : Char, c.isDigit = true → next.next c = some next)
    {cs : List Char} (hne : cs ≠ []) (hcs : ∀ c ∈ cs, c.isDigit = true) :
    scan part cs = some next := by
  cases cs with
  | nil => exact absurd rfl hne
  | cons c cs =>
    rw [scan, hfirst c (hcs c (by simp))]
    exact scan_digits h fun d hd => hcs d (by simp [hd])

/-- A lexer reads a number as `scan` does. -/
theorem run_number (lexis : Lexis) {part last : NumberPart} {read cs : List Char}
    (h : scan part cs = some last) :
    lexis.run (.number part read) cs = some ([], .number last (read ++ cs)) := by
  induction cs generalizing part read with
  | nil =>
    cases h
    simp
  | cons c cs ih =>
    rw [scan] at h
    cases hnext : part.next c with
    | none =>
      rw [hnext] at h
      cases h
    | some next =>
      rw [hnext] at h
      rw [Lexis.run_cons]
      simp [Lexis.step, Lexis.absorb, hnext, ih h]

/-- A numeral is one token. -/
theorem Numeral.cut_eq (lexis : Lexis) {cs : List Char} (h : Numeral cs) :
    lexis.cut cs = some ([.number (String.ofList cs)], false) := by
  obtain ⟨c, rest, part, rfl, hdigit, hscan, hwhole⟩ := h
  have hspace : c ≠ ' ' := by
    rintro rfl
    exact absurd hdigit (by decide)
  have hstep : lexis.step .blank c = some ([], .number (firstPart c) [c]) := by
    simp [Lexis.step, Lexis.absorb, Lexis.clings, Lexis.finish, Lexis.start, hspace, hdigit,
      firstPart]
  have hrun : lexis.run .blank (c :: rest) = some ([], .number part (c :: rest)) := by
    rw [Lexis.run_cons, hstep]
    simp [run_number lexis hscan]
  simp [Lexis.cut, hrun, Lexis.finish, hwhole, Mode.isLoose, Mode.isOpen]

theorem Numeral.head_isDigit {c : Char} {cs : List Char} (h : Numeral (c :: cs)) :
    c.isDigit = true := by
  obtain ⟨d, rest, part, heq, hdigit, -⟩ := h
  cases heq
  exact hdigit

theorem Numeral.ne_nil {cs : List Char} (h : Numeral cs) : cs ≠ [] := by
  obtain ⟨d, rest, part, rfl, -⟩ := h
  simp

/-! ## Digits -/

theorem isDigit_of_mem_digitsOf {n : Nat} {c : Char} (h : c ∈ Decimal.digitsOf n) :
    c.isDigit = true :=
  Nat.isDigit_of_mem_toDigits (by omega) (by omega) h

theorem digitChar_ne_zero {n : Nat} (h : 0 < n) (hn : n < 10) : n.digitChar ≠ '0' := by
  have hall : ∀ n : Fin 10, 0 < n.val → n.val.digitChar ≠ '0' := by decide
  exact hall ⟨n, hn⟩ h

/-- The digits of a positive number do not start with a zero. -/
theorem digitsOf_eq_cons {n : Nat} (h : 0 < n) :
    ∃ c cs, Decimal.digitsOf n = c :: cs ∧ c ≠ '0' := by
  induction n using Nat.strongRecOn with
  | ind n ih =>
    unfold Decimal.digitsOf
    by_cases hn : n < 10
    · rw [Nat.toDigits_of_lt_base hn]
      exact ⟨_, [], rfl, digitChar_ne_zero h hn⟩
    · obtain ⟨c, cs, hdigits, hc⟩ := ih (n / 10) (by omega) (by omega)
      rw [Nat.toDigits_of_base_le (by omega) (by omega),
        show Nat.toDigits 10 (n / 10) = c :: cs from hdigits]
      exact ⟨c, _, rfl, hc⟩

theorem whole_next {c : Char} (h : c.isDigit = true) : NumberPart.whole.next c = some .whole := by
  simp [NumberPart.next, h]

theorem fraction_next {c : Char} (h : c.isDigit = true) :
    NumberPart.fraction.next c = some .fraction := by
  simp [NumberPart.next, h]

theorem powerDigits_next {c : Char} (h : c.isDigit = true) :
    NumberPart.powerDigits.next c = some .powerDigits := by
  simp [NumberPart.next, h]

/-- The digits of a natural number are a numeral. -/
theorem numeral_digitsOf (n : Nat) : Numeral (Decimal.digitsOf n) := by
  by_cases h : 0 < n
  · obtain ⟨c, cs, hdigits, hc⟩ := digitsOf_eq_cons h
    have hall : ∀ d ∈ c :: cs, d.isDigit = true := fun d hd =>
      isDigit_of_mem_digitsOf (n := n) (hdigits ▸ hd)
    refine ⟨c, cs, .whole, hdigits, hall c (by simp), ?_, rfl⟩
    rw [firstPart, if_neg hc]
    exact scan_digits (fun d hd => whole_next hd) fun d hd => hall d (by simp [hd])
  · obtain rfl : n = 0 := by omega
    exact ⟨'0', [], .zero, rfl, by decide, rfl, rfl⟩

/-! ## Texts of doubles -/

theorem isDigit_of_mem_replicate_zero {c : Char} {n : Nat} (h : c ∈ List.replicate n '0') :
    c.isDigit = true := by
  rw [(List.mem_replicate.mp h).2]
  decide

theorem scan_fraction {cs : List Char} (hne : cs ≠ []) (hcs : ∀ c ∈ cs, c.isDigit = true) :
    scan .point cs = some .fraction :=
  scan_someDigits (fun c hc => by simp [NumberPart.next, hc]) (fun c hc => fraction_next hc) hne hcs

/-- Digits without a zero in front, then a point and more digits. -/
theorem numeral_point {c : Char} {cs ds : List Char} (hzero : c ≠ '0')
    (hcs : ∀ d ∈ c :: cs, d.isDigit = true) (hne : ds ≠ []) (hds : ∀ d ∈ ds, d.isDigit = true) :
    Numeral (c :: cs ++ '.' :: ds) := by
  refine ⟨c, cs ++ '.' :: ds, .fraction, rfl, hcs c (by simp), ?_, rfl⟩
  have hwhole : scan .whole cs = some .whole :=
    scan_digits (fun d hd => whole_next hd) fun d hd => hcs d (by simp [hd])
  rw [firstPart, if_neg hzero, scan_append, hwhole]
  exact scan_fraction hne hds

/-- A mantissa with a power of ten. -/
theorem Numeral.power {mantissa : List Char} {c : Char} {rest digits : List Char}
    {part : NumberPart} {sign : Char} (hm : mantissa = c :: rest) (hdigit : c.isDigit = true)
    (hscan : scan (firstPart c) rest = some part) (hpart : part.next 'e' = some .power)
    (hsign : sign = '+' ∨ sign = '-') (hne : digits ≠ [])
    (hdigits : ∀ d ∈ digits, d.isDigit = true) : Numeral (mantissa ++ 'e' :: sign :: digits) := by
  subst hm
  refine ⟨c, rest ++ 'e' :: sign :: digits, .powerDigits, rfl, hdigit, ?_, rfl⟩
  have hnext : NumberPart.power.next sign = some .powerSign := by
    rcases hsign with rfl | rfl <;> rfl
  have hlast : scan .powerSign digits = some .powerDigits :=
    scan_someDigits (fun d hd => by simp [NumberPart.next, hd]) (fun d hd => powerDigits_next hd)
      hne hdigits
  rw [scan_append, hscan, Option.bind_some, scan, hpart, Option.bind_some, scan, hnext,
    Option.bind_some, hlast]

theorem paddedDigits_ne_nil (width n : Nat) : Text.paddedDigits 10 width n ≠ [] := by
  simp [Text.paddedDigits]

theorem isDigit_of_mem_paddedDigits {width n : Nat} {c : Char}
    (h : c ∈ Text.paddedDigits 10 width n) : c.isDigit = true := by
  rcases List.mem_append.mp h with h | h
  · exact isDigit_of_mem_replicate_zero h
  · exact isDigit_of_mem_digitsOf h

/-- The layout of digits without a zero in front is a numeral. -/
theorem numeral_layout {c : Char} {cs : List Char} (hzero : c ≠ '0')
    (hcs : ∀ d ∈ c :: cs, d.isDigit = true) (point : Int) :
    Numeral (Double.layout (c :: cs) point) := by
  have hc := hcs c (by simp)
  unfold Double.layout
  split
  · split
    · refine ⟨'0', '.' :: (List.replicate (-point).toNat '0' ++ c :: cs), .fraction, rfl, by decide,
        ?_, rfl⟩
      show scan .point _ = _
      refine scan_fraction (by simp) fun d hd => ?_
      rcases List.mem_append.mp hd with hd | hd
      · exact isDigit_of_mem_replicate_zero hd
      · exact hcs d hd
    · split
      · rw [show c :: cs ++ List.replicate (point.toNat - (c :: cs).length) '0' ++ ['.', '0'] =
          c :: (cs ++ List.replicate (point.toNat - (c :: cs).length) '0') ++ '.' :: ['0'] by simp]
        refine numeral_point hzero (fun d hd => ?_) (by simp) (by simp)
        rw [← List.cons_append] at hd
        rcases List.mem_append.mp hd with hd | hd
        · exact hcs d hd
        · exact isDigit_of_mem_replicate_zero hd
      · next hpositive hshort =>
        obtain ⟨count, hcount⟩ : ∃ count, point.toNat = count + 1 :=
          ⟨point.toNat - 1, by omega⟩
        have hlt : count < cs.length := by
          have hlength : (c :: cs).length = cs.length + 1 := rfl
          omega
        rw [hcount, List.take_succ_cons, List.drop_succ_cons]
        refine numeral_point hzero (fun d hd => ?_) ?_ fun d hd => ?_
        · rcases List.mem_cons.mp hd with rfl | hd
          · exact hc
          · exact hcs d (by simp [List.mem_of_mem_take hd])
        · intro hnil
          have := List.drop_eq_nil_iff.mp hnil
          omega
        · exact hcs d (by simp [List.mem_of_mem_drop hd])
  · have hsign : (if point - 1 < 0 then '-' else '+') = '+' ∨
        (if point - 1 < 0 then '-' else '+') = '-' := by
      split <;> simp
    have hfirst : firstPart c = .whole := by rw [firstPart, if_neg hzero]
    cases cs with
    | nil =>
      have hscan : scan (firstPart c) [] = some .whole := by rw [hfirst]; rfl
      exact Numeral.power rfl hc hscan (by decide) hsign (paddedDigits_ne_nil 2 _)
        fun d hd => isDigit_of_mem_paddedDigits hd
    | cons d ds =>
      have hscan : scan (firstPart c) ('.' :: d :: ds) = some .fraction := by
        rw [hfirst]
        exact scan_fraction (by simp) fun e he => hcs e (by simp_all)
      exact Numeral.power rfl hc hscan (by decide) hsign (paddedDigits_ne_nil 2 _)
        fun d hd => isDigit_of_mem_paddedDigits hd

theorem toDouble_of_ite {x : Double} {nearer farther decimal : Decimal}
    (h : (if nearer.toDouble false = x then some nearer
      else if farther.toDouble false = x then some farther
      else none) = some decimal) : decimal.toDouble false = x := by
  by_cases hnearer : nearer.toDouble false = x
  · rw [if_pos hnearer] at h
    exact Option.some.inj h ▸ hnearer
  · rw [if_neg hnearer] at h
    by_cases hfarther : farther.toDouble false = x
    · rw [if_pos hfarther] at h
      exact Option.some.inj h ▸ hfarther
    · rw [if_neg hfarther] at h
      cases h

/-- A decimal found for an exponent reads back as the number. -/
theorem toDouble_of_readingBack? {x : Double} {scaled : Nat × Nat} {exponent : Int}
    {decimal : Decimal} (h : x.readingBack? scaled exponent = some decimal) :
    decimal.toDouble false = x :=
  toDouble_of_ite h

/-- The decimal found for a positive number is not zero. -/
theorem digits_shortest_pos {significand : Nat} (h : 0 < significand) (exponent : Int) :
    0 < (Double.shortest significand exponent).digits := by
  unfold Double.shortest
  generalize Double.fraction significand exponent = quotient
  generalize hlist : List.range' 1 17 = counts
  cases hcase : counts.findSome? (Double.nearestDecimal? (.finite false significand exponent)
      quotient.1 quotient.2) with
  | none => simpa [hcase] using h
  | some decimal =>
    obtain ⟨count, -, hnearest⟩ := List.exists_of_findSome?_eq_some hcase
    have hreads := toDouble_of_readingBack? hnearest
    simp only [hcase, Option.getD_some]
    rcases Nat.eq_zero_or_pos decimal.digits with hdigits | hpos
    · -- zero does not read back as a positive number
      rw [Decimal.toDouble, if_pos hdigits, Double.zero] at hreads
      injection hreads
      omega
    · exact hpos

/-- The significant digits of a positive decimal do not start with a zero. -/
theorem significantDigits_eq_cons {d : Decimal} (h : 0 < d.digits) :
    ∃ c cs, (Double.significantDigits d).1 = c :: cs ∧ c ≠ '0' ∧
      ∀ e ∈ c :: cs, e.isDigit = true := by
  obtain ⟨c, cs, hdigits, hc⟩ := digitsOf_eq_cons h
  have hall : ∀ e ∈ c :: cs, e.isDigit = true := fun e he =>
    isDigit_of_mem_digitsOf (n := d.digits) (hdigits ▸ he)
  have hdrop : ((c :: cs).reverse.dropWhile (· = '0')).reverse =
      c :: (cs.reverse.dropWhile (· = '0')).reverse := by
    rw [List.reverse_cons, List.dropWhile_append]
    split
    · next hempty =>
      rw [List.isEmpty_iff] at hempty
      simp [hc, hempty]
    · simp
  refine ⟨c, (cs.reverse.dropWhile (· = '0')).reverse, ?_, hc, fun e he => ?_⟩
  · simp only [Double.significantDigits, hdigits, hdrop]
  · rcases List.mem_cons.mp he with rfl | he
    · exact hall _ (by simp)
    · have hsub := (List.dropWhile_sublist (l := cs.reverse) (fun c => decide (c = '0'))).subset
        (List.mem_reverse.mp he)
      exact hall e (by simp [List.mem_reverse.mp hsub])

/-- Whether a text is a numeral, perhaps after a minus sign. -/
def IsLiteral (code : String) : Prop :=
  Numeral code.toList ∨ ∃ numeral, code.toList = '-' :: numeral ∧ Numeral numeral

theorem isLiteral_toString (n : Int) : IsLiteral (toString n) := by
  cases n with
  | ofNat n =>
    refine .inl ?_
    rw [Int.toString_eq_repr, Int.repr, Nat.toList_repr]
    exact numeral_digitsOf n
  | negSucc n =>
    refine .inr ⟨_, ?_, numeral_digitsOf (n + 1)⟩
    simp [Int.toString_eq_repr, Int.repr, Decimal.digitsOf]

theorem isLiteral_toText (negative : Bool) {significand : Nat} (h : 0 < significand)
    (exponent : Int) : IsLiteral (Double.finite negative significand exponent).toText := by
  obtain ⟨c, cs, hdigits, hzero, hall⟩ :=
    significantDigits_eq_cons (digits_shortest_pos h exponent)
  have hlayout := numeral_layout hzero hall
    (Double.significantDigits (Double.shortest significand exponent)).2
  have hne : significand ≠ 0 := by omega
  unfold Double.toText
  simp only [hne, if_false, hdigits]
  cases negative with
  | false => exact .inl (by simpa using hlayout)
  | true => exact .inr ⟨_, by simp, hlayout⟩

theorem toInt?_zero (negative : Bool) (exponent : Int) :
    Double.toInt? (.finite negative 0 exponent) = some 0 := by
  have hfraction : (Double.fraction 0 exponent).1 = 0 := by
    unfold Double.fraction
    split <;> simp
  simp [Double.toInt?, hfraction]

/-- The literal of a number is a numeral, perhaps after a minus sign. -/
theorem literalOf?_shape {d : Double} {code : String} (h : literalOf? d = some code) :
    IsLiteral code := by
  unfold literalOf? at h
  cases d with
  | nan => simp [Double.isFinite] at h
  | infinite negative => simp [Double.isFinite] at h
  | finite negative significand exponent =>
    simp only [Double.isFinite, Bool.not_true, Bool.false_eq_true, if_false] at h
    by_cases hzero : significand = 0
    · -- zero is an integer
      subst hzero
      simp only [toInt?_zero, show (0 : Int).natAbs < plainLimit by decide, if_true] at h
      cases h
      exact isLiteral_toString 0
    · have htext := isLiteral_toText negative (by omega : 0 < significand) exponent
      split at h
      · split at h
        · cases h
          exact isLiteral_toString _
        · cases h
          exact htext
      · cases h
        exact htext

end BlockScript.Number
