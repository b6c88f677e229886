import BlockScript.Proofs.Code.Operand

/-!
# The lines of a program

Every part of a program is spelled by whole lines. All but the comments and the
snippets of a configuration are single lines without control characters.

Results:

* `Scene.Speaks.isLine_of_spells`: parts with a text of the language are one line.
* `Scene.Speaks.isLines_of_spells`: all parts are whole lines.
-/

namespace BlockScript

open BlockScript.Reading BlockScript.Text

/-! ## Single lines -/

/-- Whether a text has no control character. -/
def IsPlainText (text : String) : Prop :=
  ∀ c ∈ text.toList, IsPlain c

instance (text : String) : Decidable (IsPlainText text) :=
  List.decidableBAll IsPlain text.toList

@[simp]
theorem isPlainText_append {a b : String} :
    IsPlainText (a ++ b) ↔ IsPlainText a ∧ IsPlainText b := by
  simp only [IsPlainText, String.toList_append, List.mem_append, or_imp, forall_and]

/-- Texts between separators. -/
theorem isPlainText_joinWith {separator : String} (hseparator : IsPlainText separator)
    {texts : List String} (h : ∀ text ∈ texts, IsPlainText text) :
    IsPlainText (joinWith separator texts) := by
  induction texts with
  | nil => exact show IsPlainText "" by decide
  | cons text texts ih =>
    have hrest := ih fun other hother => h other (by simp [hother])
    cases texts with
    | nil => exact h text (by simp)
    | cons next rest => simpa [joinWith, h text (by simp), hseparator] using hrest

/-- Whether a text is one line, with its line feed, that is not blank. -/
def IsLine (text : String) : Prop :=
  text.toList.getLast? = some '\n' ∧ (∀ c ∈ text.toList.dropLast, IsPlain c) ∧
    isBlankText text = false

instance (text : String) : Decidable (IsLine text) :=
  @instDecidableAnd _ _ inferInstance
    (@instDecidableAnd _ _ (List.decidableBAll IsPlain text.toList.dropLast) inferInstance)

theorem isLine_of_plain {line : String} (hplain : IsPlainText line)
    (hblank : isBlankText line = false) : IsLine (line ++ "\n") := by
  refine ⟨by simp, ?_, by simp [isBlankText_append, hblank]⟩
  have hlast : (line ++ "\n").toList.dropLast = line.toList := by simp
  rw [hlast]
  exact hplain

theorem IsLine.exists_plain {text : String} (h : IsLine text) :
    ∃ line, text = line ++ "\n" ∧ IsPlainText line ∧ isBlankText line = false := by
  obtain ⟨hlast, hplain, hblank⟩ := h
  obtain ⟨cs, hcs⟩ := List.getLast?_eq_some_iff.mp hlast
  have htext : text = String.ofList cs ++ "\n" := by
    rw [← String.toList_inj, hcs]
    simp
  refine ⟨String.ofList cs, htext, ?_, ?_⟩
  · simpa [hcs, IsPlainText] using hplain
  · rw [htext, isBlankText_append] at hblank
    simpa [show isBlankText "\n" = true from by decide] using hblank

/-- A plain text ahead of the end of a line. -/
theorem isLine_append {before after : String} (hbefore : IsPlainText before) (hline : IsLine after) :
    IsLine (before ++ after) := by
  obtain ⟨line, rfl, hplain, hblank⟩ := hline.exists_plain
  rw [← String.append_assoc]
  exact isLine_of_plain (isPlainText_append.mpr ⟨hbefore, hplain⟩)
    (by simp [isBlankText_append, hblank])

/-- A line is made of whole lines. -/
theorem IsLine.isLines {text : String} (h : IsLine text) : IsLines text := by
  obtain ⟨line, rfl, hplain, hblank⟩ := h.exists_plain
  cases hlist : line.toList using List.reverseRecOn with
  | nil => simp [isBlankText, hlist] at hblank
  | append_singleton cs c =>
    refine isLines_line hlist ?_ hblank
    rintro rfl
    exact absurd (hplain '\n' (by simp [hlist])) (by decide)

/-- No control character stands in an integer. -/
theorem isPlainText_toString (n : Int) : IsPlainText (toString n) := by
  have hnumeral : ∀ {cs : List Char}, Number.Numeral cs → ∀ c ∈ cs, IsPlain c := fun hcs =>
    Python.lexis_plain.of_cut (hcs.cut_eq _)
  intro c hc
  rcases Number.isLiteral_toString n with hliteral | ⟨digits, hlist, hliteral⟩
  · exact hnumeral hliteral c hc
  · rw [hlist] at hc
    rcases List.mem_cons.mp hc with rfl | hc
    · decide
    · exact hnumeral hliteral c hc

variable {language : Language}

/-! ## Texts that are not blank -/

/-- The numbers of the blank characters. -/
def blankCodes : List Nat :=
  blankRanges.flatMap fun range => List.range' range.1 (range.2 + 1 - range.1)

theorem toNat_mem_blankCodes {c : Char} (h : isBlank c = true) : c.toNat ∈ blankCodes := by
  simp only [isBlank, blankRanges, inRanges] at h
  simp only [blankCodes, blankRanges, List.flatMap_cons, List.flatMap_nil, List.mem_append,
    List.mem_range'_1, List.not_mem_nil, or_false]
  grind

/-- No token starts with a blank character. -/
theorem Language.start_of_isBlank {c : Char} (h : isBlank c = true) :
    language.grammar.lexis.start c = some .blank ∨ language.grammar.lexis.start c = none := by
  have hall : ∀ n ∈ blankCodes, language.grammar.lexis.start (Char.ofNat n) = some .blank ∨
      language.grammar.lexis.start (Char.ofNat n) = none := by
    cases language <;> decide
  have hcase := hall c.toNat (toNat_mem_blankCodes h)
  rwa [Char.ofNat_toNat] at hcase

/-- A blank text has no tokens. -/
theorem Language.run_of_isBlank {cs : List Char} (h : ∀ c ∈ cs, isBlank c = true)
    {tokens : List Token} {mode : Mode}
    (hrun : language.grammar.lexis.run .blank cs = some (tokens, mode)) :
    tokens = [] ∧ mode = .blank := by
  induction cs generalizing tokens mode with
  | nil =>
    cases hrun
    exact ⟨rfl, rfl⟩
  | cons c cs ih =>
    have hstep : language.grammar.lexis.step .blank c =
        (language.grammar.lexis.start c).map fun mode => ([], mode) := by
      cases hstart : language.grammar.lexis.start c <;>
        simp [Lexis.step, Lexis.absorb, Lexis.clings, Lexis.finish, hstart]
    rw [Lexis.run_cons, hstep] at hrun
    rcases Language.start_of_isBlank (h c (by simp)) with hstart | hstart
    · rw [hstart] at hrun
      obtain ⟨⟨rest, last⟩, hrest, hfollowing⟩ := Option.map_eq_some_iff.mp hrun
      obtain ⟨rfl, rfl⟩ := ih (fun d hd => h d (by simp [hd])) hrest
      cases hfollowing
      exact ⟨rfl, rfl⟩
    · rw [hstart] at hrun
      cases hrun

/-- A value is not blank. -/
theorem Reading.IsOperand.isBlankText {code : String}
    (h : IsOperand language.grammar language.isFunctionName code) :
    isBlankText code = false := by
  obtain ⟨tree, hreads⟩ := h
  obtain ⟨tokens, ⟨first, mode, last, hrun, hlast, htokens, -⟩, hallowed, hrefused⟩ := hreads.reads
  rw [Bool.eq_false_iff]
  intro hblank
  obtain ⟨rfl, rfl⟩ := Language.run_of_isBlank (List.all_eq_true.mp hblank) hrun
  obtain rfl : tokens = [] := by
    cases hlast
    exact htokens.symm
  cases hcalls : tree.calls language.isFunctionName with
  | true =>
    obtain ⟨parsed, hderives, -⟩ := hallowed hcalls
    obtain ⟨t, rest, hcons, -⟩ := hderives.starts language.faithful.proper
    cases hcons
  | false =>
    obtain ⟨word, -, hmem⟩ := hrefused hcalls
    cases hmem

/-- A name has a character that is no blank. -/
theorem NamePolicy.IsName.isBlankText {text : String}
    (h : language.dialect.policy.IsName text) : isBlankText text = false := by
  obtain ⟨kind, word, rfl, hfits⟩ := h
  obtain ⟨first, rest, hword, hfirst, -⟩ := hfits.identifier
  have hdark : isBlank first = false :=
    forall_safeChar (p := (isBlank · = false)) (by decide) hfirst
  rw [isBlankText_append]
  simp [Text.isBlankText, hword, hdark]

/-! ## Headers and statements of a language -/

namespace Language

/-- A statement that is not blank. -/
theorem isLine_statement {code : String} (hplain : IsPlainText code)
    (hblank : isBlankText code = false) : IsLine (language.dialect.statement code) := by
  cases language with
  | python | lua => exact isLine_of_plain hplain hblank
  | php => exact isLine_append hplain (by decide)

theorem isLine_ifHeader {condition : String} (h : IsPlainText condition) :
    IsLine (language.dialect.ifHeader condition) := by
  cases language <;> exact isLine_append (by simp +decide [h]) (by decide)

theorem isLine_elseIfHeader {condition : String} (h : IsPlainText condition) :
    IsLine (language.dialect.elseIfHeader condition) := by
  cases language <;> exact isLine_append (by simp +decide [h]) (by decide)

theorem isLine_elseHeader : IsLine language.dialect.elseHeader := by
  cases language <;> decide

theorem isLine_whileHeader {condition : String} (h : IsPlainText condition) :
    IsLine (language.dialect.whileHeader condition) := by
  cases language <;> exact isLine_append (by simp +decide [h]) (by decide)

theorem isLine_repeatHeader {counter count : String} (hcounter : IsPlainText counter)
    (hcount : IsPlainText count) : IsLine (language.dialect.repeatHeader counter count) := by
  cases language <;> exact isLine_append (by simp +decide [hcounter, hcount]) (by decide)

theorem isLine_procedureHeader {name args : String} (hname : IsPlainText name)
    (hargs : IsPlainText args) : IsLine (language.dialect.procedureHeader name args) := by
  cases language <;> exact isLine_append (by simp +decide [hname, hargs]) (by decide)

theorem isLine_changeStatement {name summand : String} (hname : IsPlainText name)
    (hblank : isBlankText name = false) (hsummand : IsPlainText summand) :
    IsLine (language.dialect.changeStatement name summand) := by
  cases language with
  | python | lua =>
    exact isLine_of_plain (by simp +decide [hname, hsummand]) (by simp [isBlankText_append, hblank])
  | php => exact isLine_append (by simp +decide [hname, hsummand]) (by decide)

theorem isLine_nakedValue {code : String} (hplain : IsPlainText code)
    (hblank : isBlankText code = false) : IsLine (language.dialect.nakedValue code) := by
  cases language with
  | python => exact isLine_of_plain hplain hblank
  | lua => exact isLine_of_plain (by simp +decide [hplain]) (by simp [isBlankText_append, hblank])
  | php => exact isLine_append hplain (by decide)

end Language

/-! ## Parts -/

/-- Whether a role always has a text, which the language gives, and not the workspace
    or the configuration. -/
def Role.isFixed : Role → Bool
  | .comment | .opening | .closing | .trap | .closer => false
  | _ => true

namespace Scene

variable {scene : Scene} {ref : Ref} {block : Block Ref} {text : String}

/-- The comments above a block are whole lines. -/
theorem isPiece_commentLines (h : scene.dialect = language.dialect) (ref : Ref) :
    IsPiece (scene.commentLines ref) := by
  unfold commentLines
  split
  · exact .inl rfl
  · split
    · exact .inl rfl
    · have hstart : isBlankText scene.dialect.commentStart = false ∧
          '\n' ∉ scene.dialect.commentStart.toList := by
        rw [h]
        cases language <;> decide
      exact .inr (isLines_indentLines_concat _ hstart.1 hstart.2)

namespace Speaks

variable (h : scene.Speaks language)
include h

theorem isPlainText_name {name : String} (hname : scene.dialect.policy.IsName name) :
    IsPlainText name := by
  rw [h.dialect] at hname
  exact hname.isPlain

theorem isLine_isStatement {form : BlockForm}
    (hstatement : scene.IsStatement language.grammar language.isFunctionName form text) :
    IsLine text := by
  cases form with
  | variableAssignment =>
    obtain ⟨name, value, hname, hvalue, rfl⟩ := hstatement
    rw [h.dialect] at hname ⊢
    refine Language.isLine_statement ?_ (by simp [isBlankText_append, hname.isBlankText])
    simp +decide [show IsPlainText name from hname.isPlain, show IsPlainText value from hvalue.isPlain]
  | change =>
    obtain ⟨name, summand, tree, hname, hfills, rfl⟩ := hstatement
    have hsummand := isOperand_of_fills hfills
    rw [h.dialect] at hname ⊢
    exact Language.isLine_changeStatement hname.isPlain hname.isBlankText hsummand.isPlain
  | procedureCallStatement =>
    obtain ⟨code, hcode, -, rfl⟩ := hstatement
    rw [h.dialect]
    exact Language.isLine_statement hcode.isPlain hcode.isBlankText
  | _ => exact hstatement.elim

/-- The bound of a loop with a count. -/
theorem isPlainText_bound {count bound : String} (hcount : language.IsOperand count)
    (hbound : scene.IsBound count bound) : IsPlainText bound := by
  unfold IsBound at hbound
  split at hbound
  · next before after hform =>
    obtain rfl := hbound
    unfold Recipe.truncatedCount
    split
    · exact isPlainText_toString _
    · have hwrap : IsPlainText before ∧ IsPlainText after := by
        rw [h.dialect] at hform
        cases language <;> cases hform <;> decide
      simp [hwrap.1, hwrap.2, show IsPlainText count from hcount.isPlain]
  · rcases hbound with rfl | ⟨word, rfl, hfits⟩
    · exact hcount.isPlain
    · exact h.isPlainText_name ⟨.variable, word, rfl, hfits⟩

/-- Parts with a text of the language are one line. -/
theorem isLine_of_spellsOf {role : Role} (hfixed : role.isFixed = true)
    (hspells : scene.SpellsOf ref block text role) : IsLine text := by
  cases role with
  | comment | opening | closing | trap | closer => cases hfixed
  | statement =>
    obtain ⟨rule, form, -, -, hsimple, hyields⟩ := hspells
    obtain ⟨text', htext, hstatement⟩ := h.phrased.isStatement_of_yields h.fallback_changeOperand hsimple hyields
    cases htext
    exact h.isLine_isStatement hstatement
  | value =>
    obtain ⟨room, code, tier, s, t, hs, hrun, rfl⟩ := hspells
    have hcode := (h.phrased.isOperand_render hs hrun).2
    rw [h.dialect]
    exact Language.isLine_nakedValue hcode.isPlain hcode.isBlankText
  | jump flow =>
    cases flow with
    | «break» =>
      obtain rfl : text = _ := hspells
      rw [h.dialect]
      exact Language.isLine_statement (by decide) (by decide)
    | «continue» =>
      obtain rfl : text = _ := hspells
      rw [h.dialect]
      cases language <;> exact Language.isLine_statement (by decide) (by decide)
  | giveBack =>
    rcases hspells with rfl | ⟨value, hreturned, rfl⟩
    · rw [h.dialect]
      exact Language.isLine_statement (by decide) (by decide)
    · have hvalue := h.phrased.isOperand_returned hreturned
      rw [h.dialect]
      refine Language.isLine_statement ?_ (by simp [isBlankText_append, hvalue.isBlankText])
      simp +decide [show IsPlainText value from hvalue.isPlain]
  | branch arm socket =>
    obtain ⟨condition, hyields, rfl⟩ := hspells
    have hcondition := h.phrased.isOperand_condition hyields
    rw [h.dialect]
    split
    · exact Language.isLine_ifHeader hcondition.isPlain
    · exact Language.isLine_elseIfHeader hcondition.isPlain
  | otherwise =>
    obtain rfl : text = _ := hspells
    rw [h.dialect]
    exact Language.isLine_elseHeader
  | loop =>
    rcases hspells with ⟨condition, hcondition, rfl⟩ |
      ⟨counter, count, bound, hcounter, hcount, hbound, rfl⟩
    · have hoperand := h.phrased.isOperand_loopCondition hcondition
      rw [h.dialect]
      exact Language.isLine_whileHeader hoperand.isPlain
    · have hplain := h.isPlainText_bound (h.phrased.isOperand_repeatCount hcount) hbound
      have hname := h.isPlainText_name hcounter
      rw [h.dialect]
      exact Language.isLine_repeatHeader hname hplain
  | bound =>
    obtain ⟨name, count, hname, hcount, rfl⟩ := hspells
    have hoperand := h.phrased.isOperand_repeatCount hcount
    have hplain := h.isPlainText_name hname
    rw [h.dialect]
    refine Language.isLine_statement ?_ (by simp [isBlankText_append, hoperand.isBlankText])
    simp +decide [hplain, show IsPlainText count from hoperand.isPlain]
  | label =>
    obtain ⟨label, hlabel, rfl⟩ := hspells
    rw [h.dialect] at hlabel
    cases language <;> cases hlabel
    decide
  | procedure =>
    obtain ⟨name, args, hname, hargs, rfl⟩ := hspells
    have hjoined : IsPlainText (joinWith ", " args) :=
      isPlainText_joinWith (by decide) fun arg harg => h.isPlainText_name (hargs arg harg)
    have hplain := h.isPlainText_name hname
    rw [h.dialect]
    exact Language.isLine_procedureHeader hplain hjoined
  | outer =>
    obtain ⟨declaration, names, hdeclaration, -, hnames, rfl⟩ := hspells
    have hjoined : IsPlainText (joinWith ", " names) :=
      isPlainText_joinWith (by decide) fun name hname => h.isPlainText_name (hnames name hname)
    rw [h.dialect] at hdeclaration
    cases language <;> cases hdeclaration
    · exact isLine_of_plain (by simp +decide [hjoined]) (by simp +decide [isBlankText_append])
    · exact isLine_append (by simp +decide [hjoined]) (by decide)
  | filler =>
    obtain ⟨filler, hfiller, rfl⟩ := hspells
    rw [h.dialect] at hfiller ⊢
    cases language <;> cases hfiller
    decide

theorem isLine_of_spells {part : Role × Ref} (hfixed : part.1.isFixed = true)
    (hspells : scene.Spells part text) : IsLine text := by
  obtain ⟨-, block, -, hspells⟩ := hspells
  exact h.isLine_of_spellsOf hfixed hspells

/-- All parts are whole lines. -/
theorem isLines_of_spells {part : Role × Ref} (hspells : scene.Spells part text) :
    IsLines text := by
  cases hfixed : part.1.isFixed with
  | true => exact (h.isLine_of_spells hfixed hspells).isLines
  | false =>
    obtain ⟨role, ref⟩ := part
    obtain ⟨hne, block, hblock, hspells⟩ := hspells
    have hhook : ∀ snippet, IsPiece (scene.injectStatement snippet block) :=
      fun snippet => isPiece_oneTrailingNewline _
    cases role with
    | comment =>
      obtain rfl : text = _ := hspells
      exact (isPiece_commentLines h.dialect ref).resolve_left hne
    | opening =>
      obtain rfl : text = _ := hspells
      unfold startHook at hne ⊢
      split at hne
      · exact absurd rfl hne
      · next hsome =>
        rw [if_neg hsome]
        exact (hhook _).resolve_left hne
    | closing =>
      obtain rfl : text = _ := hspells
      unfold endHook at hne ⊢
      split at hne
      · exact absurd rfl hne
      · next hsome =>
        rw [if_neg hsome]
        exact (hhook _).resolve_left hne
    | trap =>
      obtain rfl : text = _ := hspells
      exact (hhook _).resolve_left hne
    | closer =>
      change text = _ ∨ text = _ at hspells
      rw [h.dialect] at hspells
      cases language with
      | python => rcases hspells with rfl | rfl <;> exact absurd rfl hne
      | lua | php =>
        exact IsLine.isLines (by rcases hspells with rfl | rfl <;> decide)
    | _ => cases hfixed

end Speaks

end Scene

end BlockScript
