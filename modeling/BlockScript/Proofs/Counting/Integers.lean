import BlockScript.Proofs.Counting.Literal
import BlockScript.Proofs.Number.Nearest

/-!
# Integers as literals

The integer in a field goes through a double before it is written. What is written denotes
that double exactly, in every language: digits alone denote what they spell, and so do
more digits than an integer of the language can have, because the double nearest to what
they spell is the one that they were written for. So a literal denotes the integer in the
field exactly if that is a double, and the nearest double otherwise.

Results:

* `Language.literalValue_literalOf?`: the literal of a double denotes the double.
* `Language.literalValue_toString`: so do the digits of a double that is whole.
* `Scene.integer_literals_rounded`: the literals for integers in fields.
-/

namespace BlockScript

open BlockScript.Number BlockScript.Reading BlockScript.Text

/-! ## What literals denote -/

/-- The number that a numeral denotes. Digits alone are an integer, which has any size in
    Python and 64 bits elsewhere. Every other numeral is the double nearest to what it
    spells. -/
def Language.numeralValue (language : Language) (cs : List Char) : Option ℚ :=
  if cs.all Char.isDigit = true ∧ (language = .python ∨ naturalOf cs < 2 ^ 63) then
    some (naturalOf cs)
  else (finiteNumber? (String.ofList cs)).map Double.toRat

/-- The number that a literal denotes: a numeral, perhaps after a minus sign. -/
def Language.literalValue (language : Language) (code : String) : Option ℚ :=
  match code.toList with
  | '-' :: cs => (language.numeralValue cs).map (-·)
  | cs => language.numeralValue cs

namespace Language

variable {language : Language} {x : Double}

theorem literalValue_signed (negative : Bool) {cs : List Char} (h : Numeral cs) {q : ℚ}
    (hvalue : language.numeralValue cs = some q) :
    language.literalValue (String.ofList (if negative then '-' :: cs else cs)) =
      some (if negative then -q else q) := by
  unfold literalValue
  rw [String.toList_ofList]
  cases negative with
  | true => simp [hvalue]
  | false =>
    obtain ⟨c, rest, -, rfl, hdigit, -⟩ := h
    have hminus : c ≠ '-' := by
      rintro rfl
      exact absurd hdigit (by decide)
    rw [if_neg Bool.false_ne_true, if_neg Bool.false_ne_true]
    split
    · next heq => exact absurd (List.cons.inj heq).1 hminus
    · exact hvalue

/-- The digits of a natural number that is a double denote it, also where they are too many
    for an integer. -/
theorem numeralValue_digitsOf {n : Nat} (h : ∃ e : Double, e.IsBinary64 ∧ e.toRat = n) :
    language.numeralValue (Decimal.digitsOf n) = some (n : ℚ) := by
  unfold numeralValue
  split
  · rw [naturalOf_digitsOf]
  · obtain ⟨e, he, hvalue⟩ := h
    obtain ⟨whole, hread, hwhole⟩ := finiteNumber?_truncate he
    rw [Double.truncate_of_toRat (n := n) hvalue] at hread hwhole
    have htext : String.ofList (Decimal.digitsOf n) = toString (n : Int) := by
      rw [toString_eq_ofList, if_neg (by omega), Int.natAbs_natCast]
    rw [htext, hread, Option.map_some, hwhole, Int.cast_natCast]

/-- The digits of an integer that is a double denote it. -/
theorem literalValue_toString {n : Int} (h : ∃ e : Double, e.IsBinary64 ∧ e.toRat = n) :
    language.literalValue (toString n) = some (n : ℚ) := by
  have hnatural : ∃ e : Double, e.IsBinary64 ∧ e.toRat = n.natAbs := by
    obtain ⟨e, he, hvalue⟩ := h
    obtain ⟨significand, exponent, hformat, hmagnitude⟩ := he.exists_inFormat
    refine ⟨.finite false significand exponent, hformat, ?_⟩
    have hpos := Double.magnitude_nonneg significand exponent
    rw [Nat.cast_natAbs, Int.cast_abs, ← hvalue]
    rcases hmagnitude with heq | heq
    · rw [heq, abs_of_nonneg hpos]
      rfl
    · rw [heq, abs_neg, abs_of_nonneg hpos]
      rfl
  have hdigits : language.numeralValue (Decimal.digitsOf n.natAbs) = some (n.natAbs : ℚ) :=
    numeralValue_digitsOf hnatural
  have hsigned := literalValue_signed (n < 0) (numeral_digitsOf n.natAbs) hdigits
  have hvalue : (if decide (n < 0) = true then -(n.natAbs : ℚ) else n.natAbs) = n := by
    rw [Nat.cast_natAbs]
    split
    · next hneg => rw [abs_of_neg (by simpa using hneg), Int.cast_neg, neg_neg]
    · next hneg => rw [abs_of_nonneg (by simpa using hneg)]
  rw [hvalue] at hsigned
  rw [toString_eq_ofList, ← hsigned]
  simp only [decide_eq_true_eq]

/-- The text of a double denotes it. -/
theorem literalValue_toText (negative : Bool) {significand : Nat} {exponent : Int}
    (hformat : Double.InFormat significand exponent) (hpos : 0 < significand) :
    language.literalValue (Double.finite negative significand exponent).toText =
      some (Double.finite negative significand exponent).toRat := by
  obtain ⟨c, cs, hdigits, hzero, hall⟩ :=
    significantDigits_eq_cons (digits_shortest_pos hpos exponent)
  have hlayout := numeral_layout hzero hall
    (Double.significantDigits (Double.shortest significand exponent)).2
  have htext : ∀ sign, (Double.finite sign significand exponent).toText =
      String.ofList (if sign then '-' :: Double.layout (c :: cs)
        (Double.significantDigits (Double.shortest significand exponent)).2
      else Double.layout (c :: cs)
        (Double.significantDigits (Double.shortest significand exponent)).2) := by
    intro sign
    unfold Double.toText
    simp only [hpos.ne', if_false, hdigits]
  refine (congrArg _ (htext negative)).trans (literalValue_signed negative hlayout ?_)
  obtain ⟨d, hd, hdigit, -⟩ := Double.layout_ne_digits (c :: cs)
    (Double.significantDigits (Double.shortest significand exponent)).2
  have hother : ¬(Double.layout (c :: cs)
      (Double.significantDigits (Double.shortest significand exponent)).2).all Char.isDigit = true := by
    rw [List.all_eq_true]
    intro hevery
    rw [hevery d hd] at hdigit
    cases hdigit
  have hread := finiteNumber?_of_readDouble? (Double.readDouble?_toText false hformat hpos)
  rw [htext false, if_neg Bool.false_ne_true] at hread
  rw [numeralValue, if_neg fun h => hother h.1, hread]
  rfl

/-- The literal of a double denotes the double. -/
theorem literalValue_literalOf? {code : String} (hformat : x.IsBinary64)
    (h : literalOf? x = some code) : language.literalValue code = some x.toRat := by
  have hwhole : ∀ n : Int, x.toInt? = some n →
      language.literalValue (toString n) = some x.toRat := by
    intro n hn
    have hvalue := Double.toRat_of_toInt? hn
    rw [hvalue]
    exact literalValue_toString ⟨x, hformat, hvalue⟩
  unfold literalOf? at h
  cases x with
  | nan => simp [Double.isFinite] at h
  | infinite negative => simp [Double.isFinite] at h
  | finite negative significand exponent =>
    simp only [Double.isFinite, Bool.not_true, Bool.false_eq_true, if_false] at h
    by_cases hzero : significand = 0
    · subst hzero
      simp only [toInt?_zero, show (0 : Int).natAbs < plainLimit by decide, if_true] at h
      cases h
      exact hwhole 0 (toInt?_zero negative exponent)
    · have htext : language.literalValue _ = _ :=
        literalValue_toText negative hformat (Nat.pos_of_ne_zero hzero)
      split at h
      · next n hn =>
        split at h
        · cases h
          exact hwhole n hn
        · cases h
          exact htext
      · cases h
        exact htext

end Language

/-! ## Integers in fields -/

/-- Whether a text is a literal for an integer that is rounded to a double: it denotes the
    nearest double exactly, and the integer itself exactly if that is a double. -/
structure Language.IsRounded (language : Language) (code : String) (n : Int) : Prop where
  literal : IsLiteral code
  denotes : ∃ d : Double, d.IsBinary64 ∧ d.IsNearest n ∧ language.literalValue code = some d.toRat
  exact_iff : language.literalValue code = some (n : ℚ) ↔ ∃ e : Double, e.IsBinary64 ∧ e.toRat = n
  exact_of_le (hn : n.natAbs ≤ 2 ^ 53) : language.literalValue code = some (n : ℚ)

theorem Language.isRounded_of_literalValue {language : Language} {code : String} {n : Int}
    (hfinite : (Double.ofInt n).isFinite = true) (hliteral : IsLiteral code)
    (hvalue : language.literalValue code = some (Double.ofInt n).toRat) :
    language.IsRounded code n where
  literal := hliteral
  denotes := ⟨_, Double.isBinary64_ofInt n, Double.isNearest_ofInt hfinite, hvalue⟩
  exact_iff := by rw [hvalue, Option.some_inj, Double.toRat_ofInt_iff hfinite]
  exact_of_le hn := by
    rw [hvalue, (Double.toRat_ofInt_iff hfinite).mpr (Double.exists_double_of_le hn)]

namespace Scene

variable {scene : Scene} {language : Language} {ref : Ref} {block : Block Ref} {room : Nat}
  {s t : PassState} {n : Int}

/-- The literal of a block for an integer. -/
theorem isRounded_of_number {rendered : Rendered} (hs : s.Named scene.dialect.policy)
    (hform : scene.HasForm ref block .number) (hfield : block.field? "NUM" = some (.int n))
    (hrun : scene.renderWithin room ref s = (.ok rendered, t)) :
    ∃ code tier, rendered = .value code tier ∧ language.IsRounded code n := by
  obtain ⟨d, hnumber⟩ : ∃ d, doubleOf (block.field "NUM") = .ok d := by
    obtain ⟨_, _, _, _, _, _, _, _, _, _, hfollow, -⟩ := hform.renderWithin_eq_ok hs hrun
    obtain ⟨d, _, hd, -⟩ := follow_bind_eq_ok hfollow
    exact ⟨d, (follow_ofExcept_eq_ok hd).1⟩
  have hint : block.field "NUM" = .int n := by
    rw [Block.field, hfield]
    rfl
  obtain ⟨rfl, hfinite⟩ := Double.doubleOf_int_iff.mp (hint ▸ hnumber)
  obtain ⟨code, tier, hcode, rfl⟩ := literal_of_number hs hform hnumber hfinite hrun
  exact ⟨code, tier, rfl, Language.isRounded_of_literalValue hfinite (literalOf?_shape hcode)
    (Language.literalValue_literalOf? (Double.isBinary64_ofInt n) hcode)⟩

/-- The bound of a loop whose count is an integer in a field. -/
theorem Made.isRounded_bound {u b : PassState} {loop : CountedLoop}
    (h : scene.Made room ref block s u b t loop) (hs : s.Named scene.dialect.policy)
    (hdialect : scene.dialect = language.dialect)
    (hfield : block.field? "TIMES" = some (.int n)) :
    loop.stored = false ∧ language.IsRounded loop.bound n := by
  obtain ⟨d, hnumber⟩ : ∃ d, doubleOf (.int n) = .ok d := by
    have hcount := h.count
    unfold Recipe.repeatCount at hcount
    rw [hfield] at hcount
    obtain ⟨literal, _, hliteral, -⟩ := follow_bind_eq_ok hcount
    have hliteral := (follow_ofExcept_eq_ok hliteral).1
    unfold literal? at hliteral
    cases hnumber : doubleOf (.int n) with
    | ok d => exact ⟨d, rfl⟩
    | error failure =>
      rw [show (Scalar.int n).toJson = .int n from rfl, hnumber] at hliteral
      cases hliteral
  obtain ⟨rfl, hfinite⟩ := Double.doubleOf_int_iff.mp hnumber
  have hliteral := count_of_countsNumber hs (.inl ⟨_, hfield, hnumber⟩) hfinite h.count
  have hformat := Double.isBinary64_ofInt n
  have hwhole := Double.truncate_ofInt hfinite
  have htruncated : ∀ {before after}, scene.dialect.repeatCount = .truncated before after →
      loop.stored = false ∧ language.IsRounded loop.bound n := by
    intro before after hform
    obtain ⟨_, -, hrest⟩ := h.names
    rw [hform] at hrest
    refine ⟨hrest.1, ?_⟩
    rw [h.bound_eq_truncate hform hliteral hformat]
    refine Language.isRounded_of_literalValue hfinite (isLiteral_toString _) ?_
    rw [hwhole]
    exact Language.literalValue_toString ⟨_, hformat, hwhole⟩
  cases language with
  | python => exact htruncated (by rw [hdialect]; rfl)
  | lua => exact htruncated (by rw [hdialect]; rfl)
  | php =>
    obtain ⟨hstored, hbound⟩ := h.bound_eq_literal (by rw [hdialect]; rfl) hliteral hformat
    refine ⟨hstored, ?_⟩
    rw [hbound]
    exact Language.isRounded_of_literalValue hfinite (literalOf?_shape hliteral)
      (Language.literalValue_literalOf? hformat hliteral)

/-- The literal that is written for an integer in the field of a number, or of a loop with a
    count, denotes the double nearest to the integer, in every language. It denotes the
    integer itself exactly if that is a double, as all integers up to 2 ^ 53 are. -/
theorem integer_literals_rounded {config : Config} {workspace : Workspace} {rendered : Rendered}
    (hs : (ofLanguage language config workspace).Reached s)
    (hrun : (ofLanguage language config workspace).renderWithin room ref s = (.ok rendered, t)) :
    ((ofLanguage language config workspace).HasForm ref block .number →
      block.field? "NUM" = some (.int n) →
      ∃ code tier, rendered = .value code tier ∧ language.IsRounded code n) ∧
    ((ofLanguage language config workspace).HasForm ref block .repeatLoop →
      block.field? "TIMES" = some (.int n) →
      ∃ rule less s' u b t' loop,
        (ofLanguage language config workspace).rules.lookup block.type = .ok rule ∧
        rendered = .text ((ofLanguage language config workspace).statementText rule ref block
          (loop.text language.dialect)) ∧
        (ofLanguage language config workspace).Made less ref block s' u b t' loop ∧
        loop.stored = false ∧ language.IsRounded loop.bound n) := by
  refine ⟨fun hform hfield => isRounded_of_number hs.named hform hfield hrun,
    fun hform hfield => ?_⟩
  obtain ⟨less, rule, product, s', t', hrule, hs', -, -, -, hfollow, hconclude⟩ :=
    hform.renderWithin_eq_ok hs.named hrun
  obtain ⟨u, b, loop, hmade, rfl⟩ := made_of_repeatLoop hfollow
  exact ⟨rule, less, s', u, b, t', loop, hrule, text_of_conclude hconclude, hmade,
    hmade.isRounded_bound hs' rfl hfield⟩

/-! ### The first integer that is no double -/

/-- A number block and a loop with the first integer above 2 ^ 53. -/
def beyondDoubles : Workspace where
  tops := [1]
  graph := ⟨#[{ Block.ofType "math_number" with fields := [("NUM", .int 9007199254740993)] },
    { Block.ofType "controls_repeat" with fields := [("TIMES", .int 9007199254740993)] }]⟩

theorem integer_literals_rounded_beyondDoubles :
    (ofLanguage .lua {} beyondDoubles).Reached {} ∧
      ∃ t block, (ofLanguage .lua {} beyondDoubles).renderWithin 3 0 {} =
          (.ok (.value "9007199254740992" .atomic), t) ∧
        (ofLanguage .lua {} beyondDoubles).HasForm 0 block .number ∧
        block.field? "NUM" = some (.int 9007199254740993) ∧
        Language.lua.IsRounded "9007199254740992" 9007199254740993 := by
  have hrun := Pass.eq_of_toOption
    (p := (ofLanguage .lua {} beyondDoubles).renderWithin 3 0) (s := {})
    (a := .value "9007199254740992" .atomic) (by decide +kernel)
  have hform : (ofLanguage .lua {} beyondDoubles).HasForm 0
      { Block.ofType "math_number" with fields := [("NUM", .int 9007199254740993)] } .number :=
    ⟨rfl, rfl, _, rfl, rfl⟩
  obtain ⟨code, tier, hvalue, hrounded⟩ :=
    (integer_literals_rounded .start hrun).1 hform rfl
  cases hvalue
  exact ⟨.start, _, _, hrun, hform, rfl, hrounded⟩

/-- An integer that is no double is written as another one, neither as a number nor as the
    count of a loop exactly. -/
theorem integer_literal_not_exact :
    ((ofLanguage .python {} beyondDoubles).render 0 {}).1.toOption =
        some (.value "9007199254740992" .atomic) ∧
      ((ofLanguage .python {} beyondDoubles).render 1 {}).1.toOption =
        some (.text "for count in range(9007199254740992):\n  pass\n") ∧
      Language.python.literalValue "9007199254740992" = some 9007199254740992 ∧
      Language.python.literalValue "9007199254740992" ≠ some ((9007199254740993 : Int) : ℚ) := by
  have hvalue : Language.python.literalValue "9007199254740992" = some 9007199254740992 := by
    decide +kernel
  refine ⟨by decide +kernel, by decide +kernel, hvalue, ?_⟩
  rw [hvalue, Ne, Option.some_inj]
  norm_num

end Scene

end BlockScript
