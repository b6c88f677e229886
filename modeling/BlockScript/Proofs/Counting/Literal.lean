import BlockScript.Proofs.Counting.Settled
import BlockScript.Proofs.Number.ReadBack
import Mathlib.Data.Int.Interval
import Mathlib.Data.Set.Card

/-!
# Counts that are numbers

A loop whose count is a finite number does as many rounds as the number, without its
fraction, says, and none if it is negative. Python and Lua get the whole part as the bound.
PHP gets the number itself, so that a positive number with a fraction makes one round
more there.

Results:

* `Recounted.exists_iff`: the rounds of a loop that compares its counter with a bound.
* `Scene.rounds_of_countsNumber`: the rounds of a loop whose count is a number.
-/

namespace BlockScript

open BlockScript.Number BlockScript.Text

/-! ## Numbers as they run -/

/-- The values that the counter of a loop takes for a whole bound. A range and the
    condition of a `for` start at zero and leave out the bound, a numeric `for` starts at
    one and includes it. -/
def Language.counterValues : Language → Int → Set Int
  | .python, bound | .php, bound => {value | 0 ≤ value ∧ value < bound}
  | .lua, bound => {value | 1 ≤ value ∧ value ≤ bound}

/-- Whether a runtime counts exactly up to a limit: numerals have the values that they
    spell, and the counter of a loop goes on by one. An integer that is no double need not
    have its value. -/
structure Runtime.Counts {State Value : Type} (runtime : Runtime State Value) (language : Language)
    (amount : Value → ℚ) (limit : Nat) : Prop where
  numeral {code : String} {d : Double} (hliteral : IsLiteral code)
    (hread : finiteNumber? code = some d) (hexact : ∀ n : Int, code = toString n → d.toRat = n)
    (s : State) : amount (runtime.value s code) = d.toRat
  zero : amount runtime.zero = 0
  next {v : Value} {n : Nat} (hv : amount v = n) (hn : n < limit) :
    amount (runtime.next v) = (n + 1 : Nat)
  less {v w : Value} {n : Nat} (hv : amount v = n) (hn : n ≤ limit) :
    runtime.less v w = true ↔ (n : ℚ) < amount w
  rounds {v : Value} {n : Int} (hv : amount v = n) (hn : n ≤ limit) :
    runtime.rounds v = (language.counterValues n).ncard

theorem Language.ncard_counterValues (language : Language) (bound : Int) :
    (language.counterValues bound).ncard = bound.toNat := by
  have hfrom : {value | 0 ≤ value ∧ value < bound} = (Finset.Ico 0 bound : Set Int) := by
    ext value
    simp
  have hupTo : {value | 1 ≤ value ∧ value ≤ bound} = (Finset.Icc 1 bound : Set Int) := by
    ext value
    simp
  cases language <;>
    simp only [counterValues, hfrom, hupTo, Set.ncard_coe_finset, Int.card_Ico, Int.card_Icc,
      Int.sub_zero, Int.add_sub_cancel]

variable {State Value : Type} {runtime : Runtime State Value} {body : State → State → Prop}
  {language : Language} {amount : Value → ℚ} {limit : Nat}

/-- If every round ends, there are any number of them one after the other. -/
theorem Repeated.exists (htotal : ∀ s, ∃ t, body s t) (n : Nat) (s : State) :
    ∃ u, Repeated body n s u := by
  induction n generalizing s with
  | zero => exact ⟨s, .done s⟩
  | succ n ih =>
    obtain ⟨t, ht⟩ := htotal s
    obtain ⟨u, hu⟩ := ih t
    exact ⟨u, .round ht hu⟩

section

variable {counter bound : String} {q : ℚ}

/-- If every round ends and leaves the counter alone, and the bound is a constant, a loop
    that has the counter at `k` does the rounds up to the first whole number that is not
    below the bound. -/
theorem Recounted.exists_of_amount (hcounts : runtime.Counts language amount limit)
    (htotal : ∀ s, ∃ t, body s t)
    (hround : ∀ s t, body s t → runtime.value t counter = runtime.value s counter)
    (hassign : ∀ s v, runtime.value (runtime.assign s counter v) counter = v)
    (hbound : ∀ s, amount (runtime.value s bound) = q) (hlimit : ⌈q⌉₊ ≤ limit) (n : Nat)
    {k : Nat} (hk : k + n = max k ⌈q⌉₊) (hk' : k ≤ limit) {s : State}
    (hcounter : amount (runtime.value s counter) = k) :
    ∃ u, Recounted runtime body counter bound n s u := by
  induction n generalizing k s with
  | zero =>
    refine ⟨s, .done ?_⟩
    rw [← Bool.not_eq_true, hcounts.less hcounter hk', hbound, not_lt]
    exact (Nat.le_ceil q).trans (by exact_mod_cast (by omega : ⌈q⌉₊ ≤ k))
  | succ n ih =>
    obtain ⟨t, ht⟩ := htotal s
    have hless : (k : ℚ) < q := Nat.lt_ceil.mp (by omega)
    have hnext : amount (runtime.value
        (runtime.assign t counter (runtime.next (runtime.value t counter))) counter) =
        (k + 1 : Nat) := by
      rw [hassign, hround s t ht]
      exact hcounts.next hcounter (by omega)
    obtain ⟨u, hu⟩ := ih (k := k + 1) (by omega) (by omega) hnext
    exact ⟨u, .round ((hcounts.less hcounter hk').mpr (hbound s ▸ hless)) ht hu⟩

/-- A loop that starts its counter at zero does the rounds up to the first whole number
    that is not below the bound. -/
theorem Recounted.exists_iff (hcounts : runtime.Counts language amount limit)
    (htotal : ∀ s, ∃ t, body s t)
    (hround : ∀ s t, body s t → runtime.value t counter = runtime.value s counter)
    (hassign : ∀ s v, runtime.value (runtime.assign s counter v) counter = v)
    (hconstant : ∀ s t, runtime.value s bound = runtime.value t bound)
    (hbound : ∀ s, amount (runtime.value s bound) = q) (hlimit : q ≤ limit) {s : State}
    (hcounter : amount (runtime.value s counter) = 0) (n : Nat) :
    (∃ u, Recounted runtime body counter bound n s u) ↔ n = ⌈q⌉₊ := by
  obtain ⟨u, hu⟩ := Recounted.exists_of_amount hcounts htotal hround hassign hbound
    (Nat.ceil_le.mpr hlimit) ⌈q⌉₊ (k := 0) (by omega) (Nat.zero_le _) (by rw [hcounter]; rfl)
  constructor
  · rintro ⟨v, hv⟩
    exact Recounted.count_eq (fun s t h => ⟨hround s t h, hconstant t s⟩)
      (fun s v => ⟨hassign s v, hconstant _ s⟩) hv hu rfl rfl
  · rintro rfl
    exact ⟨u, hu⟩

end

/-- The rounds of a loop in PHP beyond those that the whole part of its count says: a
    positive number with a fraction is reached one round later than its whole part. -/
def Language.extraRounds (language : Language) (x : Double) : Nat :=
  if language = .php ∧ x.isPositive = true ∧ x.toInt? = none then 1 else 0

/-- The first whole number that is not below a finite double. -/
theorem Number.Double.ceil_toRat {x : Double} (hfinite : x.isFinite = true) :
    ⌈x.toRat⌉₊ = x.truncate.toNat + Language.php.extraRounds x := by
  cases x with
  | nan => cases hfinite
  | infinite negative => cases hfinite
  | finite negative significand exponent =>
    have hpos := fraction_pos significand exponent
    cases negative with
    | true =>
      have hceil : ⌈(Double.finite true significand exponent).toRat⌉₊ = 0 :=
        Nat.ceil_eq_zero.mpr (neg_nonpos.mpr (magnitude_nonneg significand exponent))
      have htruncate : (Double.finite true significand exponent).truncate.toNat = 0 :=
        Int.toNat_of_nonpos (neg_nonpos.mpr (Int.natCast_nonneg _))
      rw [hceil, htruncate]
      simp [Language.extraRounds, isPositive]
    | false =>
      have hquotient := natCast_eq_div_add (fraction significand exponent).1 hpos
      have hhigh := (natDiv_bounds (fraction significand exponent).1 hpos).2
      rw [fraction_div] at hquotient hhigh
      show ⌈magnitude significand exponent⌉₊ =
        (fraction significand exponent).1 / (fraction significand exponent).2 + _
      by_cases hexact : (fraction significand exponent).1 % (fraction significand exponent).2 = 0
      · rw [hexact, Nat.cast_zero, zero_div, add_zero] at hquotient
        have hnone : Language.php.extraRounds (.finite false significand exponent) = 0 :=
          if_neg (by simp [toInt?, hexact])
        rw [hquotient, Nat.ceil_natCast, hnone, Nat.add_zero]
      · have hsignificand : significand ≠ 0 := by
          rintro rfl
          exact hexact (by unfold fraction; split <;> simp)
        have hone : Language.php.extraRounds (.finite false significand exponent) = 1 :=
          if_pos ⟨rfl, by simp [isPositive, hsignificand], by simp [toInt?, hexact]⟩
        have hden : (0 : ℚ) < (fraction significand exponent).2 := by exact_mod_cast hpos
        have hrest : (0 : ℚ) < ((fraction significand exponent).1 %
            (fraction significand exponent).2 : Nat) := by
          exact_mod_cast Nat.pos_of_ne_zero hexact
        rw [hone, Nat.ceil_eq_iff (Nat.succ_ne_zero _), Nat.cast_succ, Nat.succ_sub_one]
        refine ⟨?_, hhigh.le⟩
        rw [hquotient]
        exact lt_add_of_pos_right _ (div_pos hrest hden)

namespace Scene

variable {scene : Scene} {ref : Ref} {block : Block Ref} {room : Nat} {s t u b final : PassState}
  {loop : CountedLoop} {x : Double}

/-! ## Counts that are numbers -/

/-- Whether the count of a loop is a number: that of the field, or that of a number block
    in the socket. -/
def CountsNumber (scene : Scene) (block : Block Ref) (x : Double) : Prop :=
  (∃ times, block.field? "TIMES" = some times ∧ doubleOf times.toJson = .ok x) ∨
    block.field? "TIMES" = none ∧ ∃ target other, block.valueInput "TIMES" = some target ∧
      scene.HasForm target other .number ∧ doubleOf (other.field "NUM") = .ok x

theorem literalOf?_isSome (hfinite : x.isFinite = true) : ∃ code, literalOf? x = some code := by
  unfold literalOf?
  simp only [hfinite, Bool.not_true, Bool.false_eq_true, if_false]
  split
  · split <;> exact ⟨_, rfl⟩
  · exact ⟨_, rfl⟩

/-- A block for a finite number renders to its literal. -/
theorem literal_of_number {target : Ref} {other : Block Ref} {rendered : Rendered}
    (hs : s.Named scene.dialect.policy) (hform : scene.HasForm target other .number)
    (hnumber : doubleOf (other.field "NUM") = .ok x) (hfinite : x.isFinite = true)
    (hrun : scene.renderWithin room target s = (.ok rendered, t)) :
    ∃ code tier, literalOf? x = some code ∧ rendered = .value code tier := by
  obtain ⟨less, rule, product, u, v, -, -, -, -, -, hfollow, hconclude⟩ :=
    hform.renderWithin_eq_ok hs hrun
  obtain ⟨d, w, hd, hdone⟩ := follow_bind_eq_ok hfollow
  obtain ⟨hvalue, rfl⟩ := follow_ofExcept_eq_ok hd
  cases hnumber.symm.trans hvalue
  obtain ⟨code, hcode⟩ := literalOf?_isSome hfinite
  rw [hcode] at hdone
  obtain ⟨rfl, rfl⟩ := follow_pure_eq_ok hdone
  unfold conclude at hconclude
  split at hconclude <;> cases hconclude
  exact ⟨code, _, hcode, rfl⟩

/-- The count that is a finite number is its literal. -/
theorem count_of_countsNumber {count : String} (hs : s.Named scene.dialect.policy)
    (hcounts : scene.CountsNumber block x) (hfinite : x.isFinite = true)
    (hrun : scene.follow (scene.renderWithin room) ref block (Recipe.repeatCount block) s =
      (.ok count, t)) : literalOf? x = some count := by
  rcases hcounts with ⟨times, hfield, hnumber⟩ | ⟨hfield, target, other, hinput, hform, hnumber⟩
  · obtain ⟨code, hcode⟩ := literalOf?_isSome hfinite
    unfold Recipe.repeatCount at hrun
    rw [hfield] at hrun
    obtain ⟨literal, v, hliteral, hdone⟩ := follow_bind_eq_ok hrun
    obtain ⟨rfl, rfl⟩ := follow_pure_eq_ok hdone
    obtain ⟨hliteral, rfl⟩ := follow_ofExcept_eq_ok hliteral
    rw [literal?, hnumber] at hliteral
    cases hliteral
    rw [hcode]
    rfl
  · rcases socketCount_eq_ok hfield hrun with ⟨target', tier, hinput', hrendered⟩ | ⟨rfl, hempty⟩
    · cases hinput.symm.trans hinput'
      obtain ⟨code, tier, hcode, heq⟩ := literal_of_number hs hform hnumber hfinite hrendered
      cases heq
      exact hcode
    · obtain ⟨rendered, hrendered, hno⟩ := hempty target hinput
      obtain ⟨code, tier, hcode, rfl⟩ := literal_of_number hs hform hnumber hfinite hrendered
      have hempty : ¬IsLiteral "" := by
        rintro (hnumeral | ⟨numeral, hlist, -⟩)
        · exact hnumeral.ne_nil rfl
        · cases hlist
      rcases hno with heq | ⟨tier, heq⟩
      · cases heq
      · cases heq
        exact absurd (literalOf?_shape hcode) hempty

/-- The sign of zero does not count. -/
theorem unsigned_eq (x : Double) :
    (if x.isZero then Double.zero false else x).truncate = x.truncate ∧
      (if x.isZero then Double.zero false else x).toRat = x.toRat := by
  split
  · next hzero =>
    cases x with
    | nan => cases hzero
    | infinite negative => cases hzero
    | finite negative significand exponent =>
      obtain rfl : significand = 0 := by simpa [Double.isZero] using hzero
      have hnum : ∀ exponent, (Double.fraction 0 exponent).1 = 0 := by
        intro exponent
        unfold Double.fraction
        split <;> simp
      constructor
      · simp [Double.truncate, Double.zero, hnum]
      · simp [Double.toRat, Double.zero, Double.magnitude]
  · exact ⟨rfl, rfl⟩

theorem isFinite_of_literalOf? {code : String} (h : literalOf? x = some code) :
    x.isFinite = true := by
  cases x with
  | nan => cases h
  | infinite negative => cases h
  | finite negative significand exponent => rfl

/-! ## Rounds -/

namespace Made

variable (h : scene.Made room ref block s u b t loop)
include h

/-- Where the header reads its bound once, the bound is the whole part of the number. -/
theorem bound_eq_truncate {before after : String}
    (hdialect : scene.dialect.repeatCount = .truncated before after)
    (hliteral : literalOf? x = some loop.count) (hformat : x.IsBinary64) :
    loop.bound = toString x.truncate := by
  obtain ⟨c, -, hrest⟩ := h.names
  rw [hdialect] at hrest
  rw [hrest.2.2, Recipe.truncatedCount, finiteNumber?_literalOf? hformat hliteral]
  dsimp only
  rw [(unsigned_eq x).1]

/-- Where the header reads its bound again, a number stays in it. -/
theorem bound_eq_literal (hdialect : scene.dialect.repeatCount = .stored)
    (hliteral : literalOf? x = some loop.count) (hformat : x.IsBinary64) :
    loop.stored = false ∧ loop.bound = loop.count := by
  have hnumber : isNumber loop.count = true := by
    rw [isNumber, finiteNumber?_literalOf? hformat hliteral]
    rfl
  obtain ⟨c, -, hrest⟩ := h.names
  rw [hdialect] at hrest
  simp only [hnumber, Bool.or_true, if_true] at hrest
  exact ⟨hrest.1, hrest.2.2⟩

/-- A loop whose count is a number does as many rounds as the whole part of the number
    says, and an extra one in PHP if there is a fraction. -/
theorem runs_iff (hdialect : scene.dialect = language.dialect)
    (hcounter : language.dialect.policy.IsVariable loop.counter)
    (hliteral : literalOf? x = some loop.count) (hformat : x.IsBinary64)
    (hlaw : runtime.Lawful language.dialect) (hcounts : runtime.Counts language amount limit)
    (hlimit : x.toRat ≤ limit) (htotal : ∀ y, ∃ z, body y z)
    (hround : ∀ y z, body y z → runtime.value z loop.counter = runtime.value y loop.counter)
    (n : Nat) (y : State) :
    (∃ z, loop.Runs runtime body language n y z) ↔
      n = x.truncate.toNat + language.extraRounds x := by
  have hceil := Number.Double.ceil_toRat (isFinite_of_literalOf? hliteral)
  have hceil' : ⌈x.toRat⌉₊ ≤ limit := Nat.ceil_le.mpr hlimit
  have htruncated : ∀ {before after}, scene.dialect.repeatCount = .truncated before after →
      runtime.rounds (runtime.value y loop.bound) = x.truncate.toNat := by
    intro before after hcount
    obtain ⟨whole, hread, hwhole⟩ := finiteNumber?_truncate hformat
    rw [h.bound_eq_truncate hcount hliteral hformat]
    have hamount := hcounts.numeral (isLiteral_toString x.truncate) hread
      (fun m hm => by rw [← toString_injective hm]; exact hwhole) y
    rw [hwhole] at hamount
    rw [hcounts.rounds hamount (by omega), Language.ncard_counterValues]
  have hrange : runtime.rounds (runtime.value y loop.bound) = x.truncate.toNat →
      ((∃ z, n = runtime.rounds (runtime.value y loop.bound) ∧
        Repeated body n (runtime.after y loop.bound) z) ↔ n = x.truncate.toNat + 0) := by
    intro hrounds
    rw [hrounds, Nat.add_zero]
    constructor
    · rintro ⟨z, hn, -⟩
      exact hn
    · rintro rfl
      obtain ⟨z, hz⟩ := Repeated.exists htotal x.truncate.toNat (runtime.after y loop.bound)
      exact ⟨z, rfl, hz⟩
  cases language with
  | python => exact hrange (htruncated (congrArg Dialect.repeatCount hdialect))
  | lua => exact hrange (htruncated (congrArg Dialect.repeatCount hdialect))
  | php =>
    obtain ⟨hstored, hbound⟩ :=
      h.bound_eq_literal (congrArg Dialect.repeatCount hdialect) hliteral hformat
    have hshape := literalOf?_shape hliteral
    have hread := finiteNumber?_literalOf? hformat hliteral
    have hamount : ∀ z, amount (runtime.value z loop.count) = x.toRat := by
      intro z
      rw [hcounts.numeral hshape hread (fun m hm => ?_) z, (unsigned_eq x).2]
      rw [(unsigned_eq x).2]
      exact toRat_of_literalOf?_toString (hm ▸ hliteral)
    have hconstant : ∀ z w, runtime.value z loop.count = runtime.value w loop.count :=
      hlaw.constant ⟨not_signed_of_isLiteral hshape, .inr (.inl hshape)⟩
    unfold CountedLoop.Runs
    rw [← hceil, hbound]
    refine Recounted.exists_iff hcounts htotal hround (fun z v => hlaw.assigned hcounter z v)
      hconstant hamount hlimit ?_ n
    rw [hlaw.assigned hcounter, hcounts.zero]

end Made

/-- A loop with a count that is a finite number runs its body as often as the number,
    without its fraction, says, and not at all if it is negative, if every round ends by
    itself and leaves the counter alone. The counter is a variable that no round assigns.
    Only a positive number with a fraction gives an extra round in PHP. -/
theorem rounds_of_countsNumber {config : Config} {workspace : Workspace} {rendered : Rendered}
    (hblock : (ofLanguage language config workspace).graph.block? ref = some block)
    (henabled : block.enabled = true) (htype : block.type ∈ repeatTypes)
    (hnumber : (ofLanguage language config workspace).CountsNumber block x)
    (hfinite : x.isFinite = true) (hformat : x.IsBinary64)
    (hs : (ofLanguage language config workspace).During s)
    (hrun : (ofLanguage language config workspace).renderWithin room ref s = (.ok rendered, t))
    (hlater : (ofLanguage language config workspace).Leads t final) :
    ∃ rule less s' u b t' loop,
      (ofLanguage language config workspace).rules.lookup block.type = .ok rule ∧
      rendered = .text ((ofLanguage language config workspace).statementText rule ref block
        (loop.text language.dialect)) ∧
      (ofLanguage language config workspace).Made less ref block s' u b t' loop ∧
      language.dialect.policy.IsVariable loop.counter ∧
      ¬(ofLanguage language config workspace).Assigns block u b final loop.counter ∧
      ∀ {State Value : Type} (runtime : Runtime State Value) (amount : Value → ℚ) (limit : Nat),
        runtime.Lawful language.dialect → runtime.Counts language amount limit →
        x.toRat ≤ limit → ∀ body : State → State → Prop, (∀ y, ∃ z, body y z) →
        (∀ y z, body y z → runtime.value z loop.counter = runtime.value y loop.counter) →
        ∀ n y, (∃ z, loop.Runs runtime body language n y z) ↔
          n = x.truncate.toNat + language.extraRounds x := by
  have hform : (ofLanguage language config workspace).HasForm ref block .repeatLoop :=
    hasForm_of_repeatTypes rfl htype hblock henabled
  obtain ⟨less, rule, product, s', t', hrule, hs', hnames, -, hnames', hfollow, hconclude⟩ :=
    hform.renderWithin_eq_ok hs.named hrun
  obtain ⟨u, b, loop, hmade, rfl⟩ := made_of_repeatLoop hfollow
  have hconsistent : s'.names.Consistent := hnames ▸ hs.consistent
  have hlast : (ofLanguage language config workspace).Leads t' final :=
    (leads_unnamed hnames').trans hlater
  have hliteral := count_of_countsNumber hs' hnumber hfinite hmade.count
  obtain ⟨hcounter, hunassigned⟩ := hmade.counter_unassigned
    (hmade.leads_body.extends.consistent (hmade.leads_count.extends.consistent hconsistent)) hlast
  refine ⟨rule, less, s', u, b, t', loop, hrule, text_of_conclude hconclude, hmade, hcounter,
    hunassigned, ?_⟩
  intro State Value runtime amount limit hlaw hcounts hlimit body htotal hround n y
  exact hmade.runs_iff rfl hcounter hliteral hformat hlaw hcounts hlimit htotal hround n y

/-! ### Two and a half rounds -/

/-- Rational numbers as the values of numbers and of variables. -/
def rationals : Runtime (String → ℚ) ℚ where
  value s code :=
    if Signed code then s code
    else match finiteNumber? code with
      | some d => d.toRat
      | none => 0
  after s _ := s
  assign s x v := Function.update s x v
  zero := 0
  next v := v + 1
  less v w := v < w
  whole v := ⌊v⌋
  rounds v := ⌊v⌋.toNat

theorem signed_of_isVariable {text : String} (h : Php.dialect.policy.IsVariable text) :
    Signed text := by
  obtain ⟨word, rfl, -⟩ := h
  simp [Signed, NamePolicy.sign, Php.dialect]

theorem value_of_signed {code : String} (h : Signed code) (s : String → ℚ) :
    rationals.value s code = s code :=
  if_pos h

theorem value_of_number {code : String} {d : Double} (h : ¬Signed code)
    (hread : finiteNumber? code = some d) (s : String → ℚ) : rationals.value s code = d.toRat := by
  refine (if_neg h).trans ?_
  rw [hread]

theorem lawful_rationals : rationals.Lawful Php.dialect where
  constant h s t := by
    show (if Signed _ then _ else _) = (if Signed _ then _ else _)
    rw [if_neg h.1, if_neg h.1]
  assigned h s v := by
    rw [value_of_signed (signed_of_isVariable h)]
    exact Function.update_self _ _ _
  other hx hy hne s v := by
    rw [value_of_signed (signed_of_isVariable hy), value_of_signed (signed_of_isVariable hy)]
    exact Function.update_of_ne hne.symm _ _
  wrapped h := by cases h

/-- Rational numbers count exactly. -/
theorem counts_rationals (language : Language) (limit : Nat) :
    rationals.Counts language id limit where
  numeral hliteral hread _ s := value_of_number (not_signed_of_isLiteral hliteral) hread s
  zero := rfl
  next hv _ := by
    rw [id] at hv
    show _ + 1 = _
    rw [hv, Nat.cast_succ]
  less hv _ := by
    rw [id] at hv
    show decide (_ < _) = true ↔ _
    rw [decide_eq_true_eq, hv]
    rfl
  rounds hv _ := by
    rw [id] at hv
    show ⌊_⌋.toNat = _
    rw [hv, Int.floor_intCast, language.ncard_counterValues]

/-- The double 2.5. -/
def twoAndAHalf : Double :=
  .finite false 5629499534213120 (-51)

/-- A loop with 2.5 as its count. -/
def fractionalBlock : Block Ref :=
  { Block.ofType "controls_repeat_ext" with fields := [("TIMES", .float twoAndAHalf)] }

/-- A workspace with that loop. -/
def fractional : Workspace where
  tops := [0]
  graph := ⟨#[fractionalBlock]⟩

/-- The loop that PHP gets. -/
def fractionalLoop : CountedLoop where
  count := "2.5"
  body := ""
  counter := "$count2"
  bound := "2.5"
  stored := false

/-- A round that does nothing. -/
def idle (y z : String → ℚ) : Prop :=
  z = y

theorem toRat_twoAndAHalf : twoAndAHalf.toRat = 5 / 2 := by
  norm_num [Double.toRat, twoAndAHalf, Double.magnitude, zpow_neg]

/-- A count of 2.5 gives two rounds, and in PHP a third one. -/
theorem rounds_of_countsNumber_twoAndAHalf :
    ∃ t, (ofLanguage .php plainly fractional).graph.block? 0 = some fractionalBlock ∧
      fractionalBlock.enabled = true ∧ fractionalBlock.type ∈ repeatTypes ∧
      (ofLanguage .php plainly fractional).CountsNumber fractionalBlock twoAndAHalf ∧
      twoAndAHalf.isFinite = true ∧ twoAndAHalf.IsBinary64 ∧
      (ofLanguage .php plainly fractional).During {} ∧
      (ofLanguage .php plainly fractional).renderWithin 7 0 {} =
        (.ok (.text (fractionalLoop.text Php.dialect)), t) ∧
      (ofLanguage .php plainly fractional).Leads t t ∧
      rationals.Lawful Php.dialect ∧ rationals.Counts .php id 3 ∧ twoAndAHalf.toRat ≤ (3 : Nat) ∧
      ∃ loop : CountedLoop, ∀ n y, (∃ z, loop.Runs rationals idle .php n y z) ↔ n = 2 + 1 := by
  have hrun := Pass.eq_of_toOption
    (p := (ofLanguage .php plainly fractional).renderWithin 7 0) (s := {})
    (a := .text (fractionalLoop.text Php.dialect)) (by decide +kernel)
  have htype : fractionalBlock.type ∈ repeatTypes := by decide
  have hnumber : (ofLanguage .php plainly fractional).CountsNumber fractionalBlock twoAndAHalf :=
    .inl ⟨_, rfl, rfl⟩
  have hformat : twoAndAHalf.IsBinary64 := ⟨by decide, .inr (by decide), by decide, by decide⟩
  have hlimit : twoAndAHalf.toRat ≤ (3 : Nat) := by
    rw [toRat_twoAndAHalf]
    norm_num
  have hstart : (ofLanguage .php plainly fractional).During {} := .reached .start
  refine ⟨_, rfl, rfl, htype, hnumber, rfl, hformat, hstart, hrun, .refl, lawful_rationals,
    counts_rationals .php 3, hlimit, ?_⟩
  obtain ⟨_, _, _, _, _, _, loop, _, _, _, _, _, hrounds⟩ :=
    rounds_of_countsNumber rfl rfl htype hnumber rfl hformat hstart hrun .refl
  refine ⟨loop, fun n y => ?_⟩
  exact hrounds rationals id 3 lawful_rationals (counts_rationals .php 3) hlimit idle
    (fun y => ⟨y, rfl⟩) (fun y z hround => by rw [hround]) n y

/-- The same count of 2.5 makes Python run the body twice, and PHP three times. -/
theorem fractionalCount_not_truncated :
    ((ofLanguage .python plainly fractional).render 0 {}).1.toOption =
        some (.text "for count in range(2):\n  pass\n") ∧
      ((ofLanguage .php plainly fractional).render 0 {}).1.toOption =
        some (.text (fractionalLoop.text Php.dialect)) ∧
      fractionalLoop.text Php.dialect =
        "for ($count2 = 0; $count2 < 2.5; $count2++) \x7b\n\x7d\n" ∧
      twoAndAHalf.toRat = 5 / 2 ∧ twoAndAHalf.truncate.toNat = 2 ∧
      (∃ z, fractionalLoop.Runs rationals idle .php 3 (fun _ => 0) z) ∧
      ¬∃ z, fractionalLoop.Runs rationals idle .php 2 (fun _ => 0) z := by
  have hcounter : Signed fractionalLoop.counter := by decide
  have hbound : ∀ y, rationals.value y fractionalLoop.bound = 5 / 2 := by
    intro y
    rw [← toRat_twoAndAHalf]
    exact value_of_number (by decide) (by decide +kernel) y
  have hassign : ∀ y v, rationals.value (rationals.assign y fractionalLoop.counter v)
      fractionalLoop.counter = v := by
    intro y v
    rw [value_of_signed hcounter]
    exact Function.update_self fractionalLoop.counter v y
  have hrounds : ∀ n, (∃ z, fractionalLoop.Runs rationals idle .php n (fun _ => 0) z) ↔
      n = ⌈(5 / 2 : ℚ)⌉₊ := by
    intro n
    have htotal : ∀ y, ∃ z, idle y z := fun y => ⟨y, rfl⟩
    exact Recounted.exists_iff (counts_rationals .php 3) htotal
      (fun y z hround => by rw [hround]) hassign (fun y z => by rw [hbound, hbound]) hbound
      (by norm_num) (hassign _ _) n
  have hceil : ⌈(5 / 2 : ℚ)⌉₊ = 3 := by
    rw [Nat.ceil_eq_iff (by decide)]
    norm_num
  rw [hceil] at hrounds
  refine ⟨by decide +kernel, by decide +kernel, by decide, toRat_twoAndAHalf, by decide,
    (hrounds 3).mpr rfl, fun htwo => absurd ((hrounds 2).mp htwo) (by decide)⟩

end Scene

end BlockScript
