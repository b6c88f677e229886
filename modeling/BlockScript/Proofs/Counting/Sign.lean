import BlockScript.Proofs.Counting.Assigned
import BlockScript.Proofs.Number.Numeral
import BlockScript.Proofs.Recipe.Gives
import BlockScript.Proofs.Text.Lines

/-!
# Counts with the sign of a variable

Where variables have a sign, a count is told by its text: a number or a single word is
read again ahead of every round, and all else is stored. A word without the sign is a
constant. One with the sign is the text of a variable block, since every other
expression that starts with the sign has a blank or a parenthesis in it.

Results:

* `Php.gives_unsigned`: what the rules of values give.
* `Scene.counts_of_signed`: a single word with the sign is that of a variable block.
-/

namespace BlockScript

open BlockScript.Number BlockScript.Text

/-! ## Texts of counts -/

/-- Whether a text starts with the sign of a variable. -/
def Signed (code : String) : Prop :=
  code.toList.head? = some '$'

/-- Whether a text has a blank or a parenthesis in it, and is no single word. -/
def IsCompound (code : String) : Prop :=
  ' ' ∈ code.toList ∨ '(' ∈ code.toList

instance (code : String) : Decidable (Signed code) :=
  inferInstanceAs (Decidable (_ = _))

instance (code : String) : Decidable (IsCompound code) :=
  inferInstanceAs (Decidable (_ ∨ _))

theorem mem_dropLastNewline {c : Char} {cs : List Char} (hc : c ≠ '\n') (h : c ∈ cs) :
    c ∈ dropLastNewline cs := by
  unfold dropLastNewline
  split
  · next rest heq =>
    rw [← List.reverse_reverse cs, heq] at h
    simpa [hc] using h
  · exact h

/-- A single word has no blank and no parenthesis in it. -/
theorem not_isCompound_of_isSingleWord {code : String} (h : isSingleWord code = true) :
    ¬IsCompound code := by
  suffices hno : ∀ c, c ≠ '\n' → c ≠ '$' → isWordChar c = false → c ∉ code.toList by
    rintro (hmem | hmem)
    · exact hno ' ' (by decide) (by decide) (by decide) hmem
    · exact hno '(' (by decide) (by decide) (by decide) hmem
  intro c hfeed hsign hword hmem
  unfold isSingleWord at h
  simp only [Bool.and_eq_true, List.all_eq_true] at h
  have hall := h.2 c
  split at hall
  · next rest heq =>
    rw [heq] at hmem
    have hrest : c ∈ rest := by simpa [hsign] using hmem
    simp [hword] at hall
    exact hall (mem_dropLastNewline hfeed hrest)
  · simp [hword] at hall
    exact hall (mem_dropLastNewline hfeed hmem)

/-- The text of a variable with a sign is a single word. -/
theorem isSingleWord_of_isIdentifier {word : String} (h : IsIdentifier word) :
    isSingleWord ("$" ++ word) = true := by
  have hword : ∀ c, isSafeChar c = true → isWordChar c = true :=
    fun _ hc => forall_safeChar (p := (isWordChar · = true)) (by decide) hc
  obtain ⟨c, cs, hcs, hc, -, hsafe⟩ := h
  have hmem : ∀ d ∈ word.toList, isSafeChar d = true := by
    rw [hcs]
    exact fun d hd => (List.mem_cons.mp hd).elim (fun heq => heq ▸ hc) (hsafe d)
  have hfeed : '\n' ∉ word.toList := fun hno => absurd (hmem _ hno) (by decide)
  have hkept : dropLastNewline word.toList = word.toList := by
    unfold dropLastNewline
    split
    · next rest heq => exact absurd (List.mem_reverse.mp (heq ▸ List.mem_cons_self)) hfeed
    · rfl
  have hlist : ("$" ++ word).toList = '$' :: word.toList := by simp
  have hall : (!word.toList.isEmpty && word.toList.all isWordChar) = true := by
    simp only [Bool.and_eq_true, List.all_eq_true]
    exact ⟨by simp [hcs], fun d hd => hword d (hmem d hd)⟩
  simpa only [isSingleWord, hlist, hkept] using hall

/-- A first character that is not trimmed stays the first one. -/
theorem exists_trimWhile_cons {p : Char → Bool} {c : Char} (hc : p c = false) (cs : List Char) :
    ∃ rest, trimWhile p (c :: cs) = c :: rest := by
  obtain ⟨tail, hkept, htail⟩ := dropEndWhile_append p (c :: cs)
  have htrim : trimWhile p (c :: cs) = dropEndWhile p (c :: cs) := by
    rw [trimWhile, List.dropWhile_cons, hc]
    rfl
  rw [htrim]
  cases hcase : dropEndWhile p (c :: cs) with
  | nil =>
    rw [hcase, List.nil_append] at hkept
    rw [htail c (hkept ▸ List.mem_cons_self)] at hc
    cases hc
  | cons d ds =>
    rw [hcase, List.cons_append] at hkept
    exact ⟨ds, by rw [(List.cons.inj hkept).1]⟩

/-- A text with the sign of a variable is no number. -/
theorem isNumber_of_signed {code : String} (h : Signed code) : isNumber code = false := by
  obtain ⟨rest, hrest⟩ : ∃ rest, code.toList = '$' :: rest := by
    unfold Signed at h
    cases hcode : code.toList with
    | nil => simp [hcode] at h
    | cons c cs => exact ⟨cs, by simpa [hcode] using h⟩
  obtain ⟨kept, hkept⟩ := exists_trimWhile_cons (p := isNumberBlank) (c := '$') (by decide) rest
  have hdigit : plainDigit '$' = '$' := by decide
  have hnumeral : ∀ cs, plainNumeral? code = some cs → ∃ more, cs = '$' :: more := by
    intro cs hcs
    rw [plainNumeral?, hrest, hkept, List.map_cons, hdigit, dropUnderscores?.eq_def] at hcs
    obtain ⟨more, -, rfl⟩ := Option.map_eq_some_iff.mp hcs
    exact ⟨more, rfl⟩
  have hdouble : readDouble? code = none := by
    unfold readDouble?
    cases hcase : plainNumeral? code with
    | none => rfl
    | some cs =>
      obtain ⟨more, rfl⟩ := hnumeral cs hcase
      have hword : ∀ word : String, word.toList.head? ≠ some '$' →
          "$" ++ String.ofList (more.map Char.toLower) ≠ word := by
        rintro word hhead rfl
        exact hhead (by simp)
      have hdecimal : readDecimal? ('$' :: more) = none := by
        simp [readDecimal?]
      simp [splitSign, hdecimal, hword "inf" (by decide), hword "infinity" (by decide),
        hword "nan" (by decide)]
  simp [isNumber, finiteNumber?, hdouble]

/-- A literal starts with a digit or a minus sign. -/
theorem not_signed_of_isLiteral {code : String} (h : IsLiteral code) : ¬Signed code := by
  unfold Signed
  rcases h with hnumeral | ⟨numeral, hlist, -⟩
  · cases hcode : code.toList with
    | nil => simp
    | cons c cs =>
      rw [hcode] at hnumeral
      rintro ⟨⟩
      exact absurd hnumeral.head_isDigit (by decide)
  · simp [hlist]

/-! ## Expressions in PHP -/

namespace Php

open Recipe

variable {scene : Scene} {ref : Ref} {block : Block Ref}

/-- Whether a product has the sign of a variable only ahead of a blank or a
    parenthesis. -/
def IsUnsigned (product : Product) : Prop :=
  ∀ code tier, product = .value code tier → IsCompound code ∨ ¬Signed code

theorem isUnsigned_of_not_signed {code : String} {tier : Tier} (h : ¬Signed code) :
    IsUnsigned (.value code tier) := by
  rintro _ _ ⟨⟩
  exact .inr h

theorem isUnsigned_of_isCompound {code : String} {tier : Tier} (h : IsCompound code) :
    IsUnsigned (.value code tier) := by
  rintro _ _ ⟨⟩
  exact .inl h

theorem isUnsigned_spaced (a sign b : String) (tier : Tier) :
    IsUnsigned (.value (a ++ " " ++ sign ++ " " ++ b) tier) :=
  isUnsigned_of_isCompound (.inl (by simp))

theorem isUnsigned_called (name args : String) (tier : Tier) :
    IsUnsigned (.value (name ++ "(" ++ args ++ ")") tier) :=
  isUnsigned_of_isCompound (.inr (by simp))

theorem isUnsigned_around {before after : String} (h : IsCompound before ∨ IsCompound after)
    (code : String) (tier : Tier) : IsUnsigned (.value (before ++ code ++ after) tier) := by
  refine isUnsigned_of_isCompound ?_
  simp only [IsCompound, String.toList_append, List.mem_append] at h ⊢
  tauto

theorem not_signed_quote (content : String) : ¬Signed (quote content) := by
  unfold Signed quote
  split <;> simp

theorem gives_number (hdialect : scene.dialect = dialect) :
    (BlockForm.number.recipe scene ref block).Gives (fun _ _ => True) IsUnsigned := by
  refine (gives_any _).bind fun d _ => ?_
  cases hcode : literalOf? d with
  | some code => exact isUnsigned_of_not_signed (not_signed_of_isLiteral (literalOf?_shape hcode))
  | none =>
    rw [hdialect]
    refine isUnsigned_of_not_signed ?_
    split
    · decide
    · split <;> decide

theorem gives_single (hdialect : scene.dialect = dialect) :
    (BlockForm.single.recipe scene ref block).Gives (fun _ _ => True) IsUnsigned := by
  refine (gives_any _).bind fun op _ => ?_
  rw [hdialect]
  split
  · exact (gives_any _).bind fun code _ => isUnsigned_of_not_signed (by simp [Signed, negated, dialect])
  · next hop =>
    have hbefore : IsCompound (dialect.single op).before := by
      cases op <;> first | decide | exact absurd rfl hop
    exact (gives_any _).bind fun code _ => (gives_any _).bind fun _ _ =>
      isUnsigned_around (.inl hbefore) code _

theorem gives_property (hdialect : scene.dialect = dialect) :
    (BlockForm.property.recipe scene ref block).Gives (fun _ _ => True) IsUnsigned := by
  refine (gives_any _).bind fun property _ => ?_
  rw [hdialect]
  have hplain : ∀ property, IsCompound (plainTest dialect property).before ∨
      IsCompound (plainTest dialect property).after := by
    intro property
    cases property <;> decide
  cases property with
  | prime =>
    exact (gives_any _).bind fun number _ => (gives_any _).bind fun _ _ =>
      (gives_any _).bind fun name _ => isUnsigned_called name number _
  | divisibleBy =>
    refine (gives_any _).bind fun number _ => (gives_any _).bind fun divisor _ => ?_
    split
    · exact isUnsigned_of_not_signed (by decide)
    · exact isUnsigned_of_isCompound (.inl (by simp))
  | _ => exact (gives_any _).bind fun number _ => isUnsigned_around (hplain _) number _

/-- Every rule for a value, other than that for a variable, gives a text that has the
    sign of a variable only ahead of a blank or a parenthesis, however its requests are
    answered. -/
theorem gives_unsigned (hdialect : scene.dialect = dialect) {form : BlockForm}
    (hvalue : form.isValue = true) (hvariable : form ≠ .variableValue) :
    (form.recipe scene ref block).Gives (fun _ _ => True) IsUnsigned := by
  cases form with
  | compare | logic | arithmetic =>
    exact (gives_any _).bind fun op _ => (gives_any _).bind fun a _ => (gives_any _).bind fun b _ =>
      isUnsigned_spaced _ _ _ _
  | modulo =>
    exact (gives_any _).bind fun a _ => (gives_any _).bind fun b _ => isUnsigned_spaced _ _ _ _
  | logicNot =>
    refine (gives_any _).bind fun condition _ => isUnsigned_of_not_signed ?_
    simp [Signed, hdialect, dialect]
  | truthValue =>
    refine isUnsigned_of_not_signed ?_
    rw [hdialect]
    split <;> decide
  | nullValue =>
    refine isUnsigned_of_not_signed ?_
    rw [hdialect]
    decide
  | ternary =>
    refine (gives_any _).bind fun c _ => (gives_any _).bind fun a _ => (gives_any _).bind fun b _ =>
      isUnsigned_of_isCompound (.inl ?_)
    simp [hdialect, dialect]
  | number => exact gives_number hdialect
  | single => exact gives_single hdialect
  | constant =>
    refine (gives_any _).bind fun name _ => (gives_any _).bind fun _ _ =>
      isUnsigned_of_not_signed ?_
    rw [hdialect]
    cases name <;> decide
  | property => exact gives_property hdialect
  | onList =>
    refine (gives_any _).bind fun op _ => ?_
    rw [hdialect]
    exact (gives_any _).bind fun items _ => (gives_any _).bind fun name _ =>
      isUnsigned_called name items _
  | constrain =>
    refine (gives_any _).bind fun number _ => (gives_any _).bind fun low _ =>
      (gives_any _).bind fun high _ => isUnsigned_of_isCompound (.inr ?_)
    simp
  | randomInteger =>
    show (Recipe.randomInteger scene.dialect).Gives _ _
    rw [hdialect]
    refine (gives_any (valueOr "FROM" .none false "0")).bind fun low _ => ?_
    refine (gives_any (valueOr "TO" .none false "0")).bind fun high _ => ?_
    refine (gives_any (calleeName (.helper _))).bind fun name _ => ?_
    exact isUnsigned_of_isCompound (.inr (by simp))
  | randomFraction =>
    refine (gives_any _).bind fun _ _ => isUnsigned_of_not_signed ?_
    rw [hdialect]
    decide
  | arcTangent =>
    refine (gives_any _).bind fun _ _ => (gives_any _).bind fun x _ => (gives_any _).bind fun y _ =>
      isUnsigned_of_isCompound (.inr ?_)
    simp [hdialect, dialect]
  | text =>
    refine isUnsigned_of_not_signed ?_
    rw [hdialect]
    exact not_signed_quote _
  | variableValue => exact absurd rfl hvariable
  | procedureCall =>
    have htext : (call scene block).Gives (fun _ _ => True) IsCompound :=
      (gives_any _).bind fun name _ => (gives_any _).bind fun params _ =>
        (gives_any _).bind fun args _ => .inr (by simp)
    exact htext.bind fun code hcode => isUnsigned_of_isCompound hcode
  | _ => cases hvalue

end Php

/-! ## Counts -/

namespace Scene

variable {scene : Scene} {ref : Ref} {block : Block Ref} {room : Nat} {s t : PassState}
  {count name : String}

/-- Whether the count of a loop is a variable of a certain name. -/
def CountsVariable (scene : Scene) (block : Block Ref) (name : String) : Prop :=
  block.field? "TIMES" = none ∧ ∃ target other, block.valueInput "TIMES" = some target ∧
    scene.HasForm target other .variableValue ∧
    other.field Workspace.variableField = .str name

/-- A block that renders to a value has the form of one. -/
theorem hasForm_of_value {tier : Tier} (hrules : scene.rules.Known)
    (hrun : scene.renderWithin room ref s = (.ok (.value count tier), t)) :
    ∃ block form, scene.HasForm ref block form ∧ form.isValue = true := by
  obtain ⟨less, rfl, ⟨-, hno, -⟩ | ⟨block, rule, product, v, hblock, henabled, hrule, -, -,
    hconclude⟩⟩ := Scene.renderWithin_eq_ok hrun
  · cases hno
  · obtain ⟨form, hform, hkind⟩ := hrules block.type rule hrule
    refine ⟨block, form, ⟨hblock, henabled, rule, hrule, hform⟩, hkind ▸ ?_⟩
    unfold conclude at hconclude
    split at hconclude
    · assumption
    · cases product <;> cases hconclude

theorem eq_of_conclude_value {rule : Rule} {product : Product} {tier : Tier}
    (h : scene.conclude rule ref block product = .ok (.value count tier)) :
    product = .value count tier := by
  unfold conclude at h
  split at h <;> cases product <;> cases h
  rfl

/-- The text of a variable block is the identifier of its variable. -/
theorem identifier_of_variableValue {rendered : Rendered} (hs : s.Named scene.dialect.policy)
    (hform : scene.HasForm ref block .variableValue)
    (hrun : scene.renderWithin room ref s = (.ok rendered, t)) :
    ∃ name text, block.field Workspace.variableField = .str name ∧
      t.identifier? scene.dialect.policy .variable name = some text ∧
      rendered = .value text .atomic := by
  obtain ⟨less, rule, product, u, v, -, hu, -, -, hnames, hfollow, hconclude⟩ :=
    hform.renderWithin_eq_ok hs hrun
  obtain ⟨text, w, hname, hdone⟩ := follow_bind_eq_ok hfollow
  obtain ⟨rfl, rfl⟩ := follow_pure_eq_ok hdone
  obtain ⟨name, hfield, hidentifier⟩ := nameOf_eq_ok hu hname
  refine ⟨name, text, hfield, by rw [PassState.identifier?, hnames]; exact hidentifier, ?_⟩
  unfold conclude at hconclude
  split at hconclude <;> cases hconclude
  rfl

/-- The count of a loop without a number of its own comes from its socket. -/
theorem socketCount_eq_ok (hfield : block.field? "TIMES" = none)
    (hrun : scene.follow (scene.renderWithin room) ref block (Recipe.repeatCount block) s =
      (.ok count, t)) :
    (∃ target tier, block.valueInput "TIMES" = some target ∧
        scene.renderWithin room target s = (.ok (.value count tier), t)) ∨
      count = "0" ∧ ∀ target, block.valueInput "TIMES" = some target →
        ∃ rendered, scene.renderWithin room target s = (.ok rendered, t) ∧
          (rendered = .text "" ∨ ∃ tier, rendered = .value "" tier) := by
  unfold Recipe.repeatCount at hrun
  rw [hfield] at hrun
  obtain ⟨code, u, hcode, hdone⟩ := follow_bind_eq_ok hrun
  obtain ⟨rfl, rfl⟩ := follow_pure_eq_ok hdone
  unfold Recipe.value at hcode
  rw [follow_ask] at hcode
  rcases valueText_eq_ok hcode with
    ⟨hnone, rfl, -⟩ | ⟨target, hinput, ⟨htext, rfl⟩ | ⟨inner, tier, hinner, rfl⟩⟩
  · exact .inr ⟨rfl, fun target htarget => by cases hnone.symm.trans htarget⟩
  · refine .inr ⟨rfl, fun target' htarget => ?_⟩
    cases hinput.symm.trans htarget
    exact ⟨_, htext, .inl rfl⟩
  · by_cases hempty : inner = ""
    · subst hempty
      refine .inr ⟨rfl, fun target' htarget => ?_⟩
      cases hinput.symm.trans htarget
      exact ⟨_, hinner, .inr ⟨tier, rfl⟩⟩
    · have hparens : tier.needsParens .none false = false := by simp [Tier.needsParens]
      simp only [if_neg hempty, hparens, Bool.false_eq_true, if_false]
      exact .inl ⟨target, tier, hinput, hinner⟩

/-- The count of a loop with a number of its own has no sign of a variable. -/
theorem not_signed_fieldCount {times : Scalar} (hfield : block.field? "TIMES" = some times)
    (hrun : scene.follow (scene.renderWithin room) ref block (Recipe.repeatCount block) s =
      (.ok count, t)) : ¬Signed count := by
  unfold Recipe.repeatCount at hrun
  rw [hfield] at hrun
  obtain ⟨code, u, hcode, hdone⟩ := follow_bind_eq_ok hrun
  obtain ⟨rfl, rfl⟩ := follow_pure_eq_ok hdone
  obtain ⟨hliteral, rfl⟩ := follow_ofExcept_eq_ok hcode
  cases code with
  | none => decide
  | some code =>
    unfold literal? at hliteral
    cases hd : doubleOf times.toJson with
    | error failure =>
      rw [hd] at hliteral
      cases hliteral
    | ok d =>
      rw [hd] at hliteral
      exact not_signed_of_isLiteral (literalOf?_shape (Except.ok.inj hliteral))

/-- A count in PHP that starts with the sign of a variable, and has no blank and no
    parenthesis, is that of a variable block. -/
theorem counts_of_signed (hrules : scene.rules.Known) (hdialect : scene.dialect = Php.dialect)
    (hs : s.Named scene.dialect.policy)
    (hrun : scene.follow (scene.renderWithin room) ref block (Recipe.repeatCount block) s =
      (.ok count, t)) (hsigned : Signed count) (hsimple : ¬IsCompound count) :
    ∃ name, scene.CountsVariable block name ∧
      t.identifier? scene.dialect.policy .variable name = some count := by
  cases hfield : block.field? "TIMES" with
  | some times => exact absurd hsigned (not_signed_fieldCount hfield hrun)
  | none =>
    rcases socketCount_eq_ok hfield hrun with ⟨target, tier, hinput, hrun⟩ | ⟨rfl, -⟩
    · obtain ⟨other, form, hother, hvalue⟩ := hasForm_of_value hrules hrun
      by_cases hform : form = .variableValue
      · subst hform
        obtain ⟨name, text, hname, hidentifier, heq⟩ := identifier_of_variableValue hs hother hrun
        cases heq
        exact ⟨name, ⟨hfield, target, other, hinput, hother, hname⟩, hidentifier⟩
      · obtain ⟨less, rule, product, u, v, -, hu, -, -, -, hfollow, hconclude⟩ :=
          hother.renderWithin_eq_ok hs hrun
        obtain rfl := eq_of_conclude_value hconclude
        have hunsigned := of_gives (scene.named_kept.renderWithin less)
          (fun _ _ _ _ _ _ _ => trivial) (Php.gives_unsigned hdialect hvalue hform) hu hfollow
          ⟨id, id⟩
        exact (hunsigned _ _ rfl).elim (absurd · hsimple) (absurd hsigned)
    · exact absurd hsigned (by decide)

/-- An identifier is a text of a variable. -/
theorem isVariable_of_identifier {text : String} (hs : s.Named scene.dialect.policy)
    (h : s.identifier? scene.dialect.policy .variable name = some text) :
    scene.dialect.policy.IsVariable text := by
  obtain ⟨word, hlookup, rfl⟩ := identifier?_eq_some.mp h
  exact ⟨word, rfl, hs.assigned hlookup⟩

/-- The count that is a variable is the identifier of that variable. -/
theorem count_of_countsVariable (hs : s.Named scene.dialect.policy)
    (hcounts : scene.CountsVariable block name)
    (hrun : scene.follow (scene.renderWithin room) ref block (Recipe.repeatCount block) s =
      (.ok count, t)) :
    t.identifier? scene.dialect.policy .variable name = some count := by
  obtain ⟨hfield, target, other, hinput, hother, hname⟩ := hcounts
  have hvariable : ∀ {rendered}, scene.renderWithin room target s = (.ok rendered, t) →
      ∃ text, t.identifier? scene.dialect.policy .variable name = some text ∧
        rendered = .value text .atomic := by
    intro rendered hrun
    obtain ⟨name', text, hname', hidentifier, rfl⟩ := identifier_of_variableValue hs hother hrun
    cases hname.symm.trans hname'
    exact ⟨text, hidentifier, rfl⟩
  rcases socketCount_eq_ok hfield hrun with ⟨target', tier, hinput', hrendered⟩ | ⟨rfl, hempty⟩
  · cases hinput.symm.trans hinput'
    obtain ⟨text, hidentifier, heq⟩ := hvariable hrendered
    cases heq
    exact hidentifier
  · obtain ⟨rendered, hrendered, hno⟩ := hempty target hinput
    obtain ⟨text, hidentifier, rfl⟩ := hvariable hrendered
    obtain ⟨word, htext, hfits⟩ :=
      isVariable_of_identifier ((later_of_follow hrun).names.named hs) hidentifier
    obtain ⟨c, cs, hcs, -⟩ := hfits.identifier
    rcases hno with heq | ⟨tier, heq⟩
    · cases heq
    · cases heq
      have hlength := congrArg (fun s => s.toList.length) htext
      simp [hcs] at hlength

end Scene

end BlockScript
