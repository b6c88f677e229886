import BlockScript.Proofs.Names.Identifier
import BlockScript.Proofs.Reading.Languages
import BlockScript.Proofs.Text.Lines

/-!
# Texts without control characters

No reader lets a control character pass, not even between two quotes: a text that
is cut into tokens has none, and no line break either. Spaces around it make no
difference.

Results:

* `Lexis.Plain.of_run`, `Lexis.Plain.of_lex`, `Lexis.Plain.of_cut`: the characters
  of a text that is read.
* `Lexis.Plain.lex_dropWhile`, `Lexis.Plain.lex_dropEndWhile`: a text without the spaces
  around it.
* `Python.lexis_plain`, `Lua.lexis_plain`, `Php.lexis_plain`: the languages have no
  sign, quote or escape with a control character or a space.
-/

namespace BlockScript.Reading

open BlockScript.Text

/-- Whether a character is no control character. -/
def IsPlain (c : Char) : Prop :=
  0x20 ≤ c.toNat

instance : DecidablePred IsPlain := fun c => inferInstanceAs (Decidable (0x20 ≤ c.toNat))

/-- Whether a character is neither a control character nor a space. -/
def IsInk (c : Char) : Prop :=
  0x21 ≤ c.toNat

instance : DecidablePred IsInk := fun c => inferInstanceAs (Decidable (0x21 ≤ c.toNat))

theorem IsInk.isPlain {c : Char} (h : IsInk c) : IsPlain c :=
  Nat.le_of_succ_le h

/-- A tab is a control character. -/
theorem IsPlain.eq_space {c : Char} (hc : IsPlain c) (h : isIndentChar c = true) : c = ' ' := by
  simp only [isIndentChar, Bool.or_eq_true, decide_eq_true_eq] at h
  rcases h with rfl | rfl
  · rfl
  · exact absurd hc (by decide)

theorem isPlain_of_isSafeChar {c : Char} (h : isSafeChar c = true) : IsPlain c :=
  forall_safeChar (by decide) h

/-- A character that goes on with a number. -/
theorem isPlain_of_next {part part' : NumberPart} {c : Char} (h : part.next c = some part') :
    IsPlain c := by
  have hmarks : c.isDigit = true ∨ c = '.' ∨ c = 'e' ∨ c = '+' ∨ c = '-' := by
    cases part <;> simp only [NumberPart.next] at h <;> grind
  rcases hmarks with hdigit | rfl | rfl | rfl | rfl
  · exact isPlain_of_isSafeChar (isSafeChar_of_isDigit hdigit)
  all_goals decide

/-- Whether a text in progress was opened by a visible character. -/
def Mode.OpenedPlain : Mode → Prop
  | .text quote _ _ => IsInk quote
  | _ => True

namespace Lexis

/-- Whether no control character or space is part of any sign, quote or escape. -/
structure Plain (lexis : Lexis) : Prop where
  signs : ∀ sign ∈ lexis.signs, ∀ c ∈ sign, IsInk c
  sigil : ∀ c, lexis.sigil = some c → IsInk c
  quotes : ∀ c ∈ lexis.quotes, IsInk c
  escapes : ∀ c ∈ lexis.escapes, IsInk c

/-- All characters that the language has are checked one by one. -/
theorem plain_of_all {lexis : Lexis}
    (h : (lexis.signs.flatten ++ lexis.sigil.toList ++ lexis.quotes ++ lexis.escapes).all
      (fun c => decide (IsInk c)) = true) : lexis.Plain := by
  have hall : ∀ c ∈ lexis.signs.flatten ++ lexis.sigil.toList ++ lexis.quotes ++ lexis.escapes,
      IsInk c := fun c hc => of_decide_eq_true (List.all_eq_true.mp h c hc)
  exact ⟨fun sign hsign c hc => hall c (by simp [List.mem_flatten_of_mem hsign hc]),
    fun c hc => hall c (by simp [hc]), fun c hc => hall c (by simp [hc]),
    fun c hc => hall c (by simp [hc])⟩

theorem openedPlain_signMode (lexis : Lexis) (read : List Char) :
    (lexis.signMode read).OpenedPlain := by
  unfold signMode
  dsimp only
  split <;> trivial

namespace Plain

variable {lexis : Lexis} (hplain : lexis.Plain)
include hplain

theorem isInk_of_startsSign {read : List Char} {c : Char} (hmem : c ∈ read)
    (h : lexis.startsSign read = true) : IsInk c := by
  obtain ⟨sign, hsign, hprefix⟩ := List.any_eq_true.mp h
  exact hplain.signs sign hsign c ((List.isPrefixOf_iff_prefix.mp hprefix).subset hmem)

/-- A character that a token starts with. -/
theorem of_start {c : Char} {mode : Mode} (h : lexis.start c = some mode) :
    IsPlain c ∧ mode.OpenedPlain := by
  unfold start at h
  split at h
  · next hspace =>
    cases h
    exact ⟨hspace ▸ by decide, trivial⟩
  split at h
  · next hdigit =>
    cases h
    exact ⟨isPlain_of_isSafeChar (isSafeChar_of_isDigit hdigit), trivial⟩
  split at h
  · next hsafe =>
    cases h
    exact ⟨isPlain_of_isSafeChar hsafe, trivial⟩
  split at h
  · next hsigil =>
    cases h
    exact ⟨(hplain.sigil c hsigil).isPlain, trivial⟩
  split at h
  · next hquote =>
    cases h
    have hc := hplain.quotes c (by simpa using hquote)
    exact ⟨hc.isPlain, hc⟩
  split at h
  · next hsign =>
    cases h
    exact ⟨(hplain.isInk_of_startsSign (by simp) hsign).isPlain, openedPlain_signMode lexis [c]⟩
  · simp at h

/-- A character that goes on with a token. -/
theorem of_absorb {mode mode' : Mode} {c : Char} (hmode : mode.OpenedPlain)
    (h : lexis.absorb mode c = some mode') : IsPlain c ∧ mode'.OpenedPlain := by
  cases mode with
  | blank => simp [absorb] at h
  | complete token => simp [absorb] at h
  | word read =>
    obtain ⟨hsafe, rfl⟩ : isSafeChar c = true ∧ .word (read ++ [c]) = mode' := by
      simpa [absorb] using h
    exact ⟨isPlain_of_isSafeChar hsafe, trivial⟩
  | sigil sign =>
    obtain ⟨⟨hsafe, -⟩, rfl⟩ : (isSafeChar c = true ∧ c.isDigit = false) ∧
        .word [sign, c] = mode' := by
      simpa [absorb] using h
    exact ⟨isPlain_of_isSafeChar hsafe, trivial⟩
  | number part read =>
    obtain ⟨part', hnext, rfl⟩ := Option.map_eq_some_iff.mp h
    exact ⟨isPlain_of_next hnext, trivial⟩
  | sign read =>
    simp only [absorb] at h
    split at h
    · next hsign =>
      cases h
      exact ⟨(hplain.isInk_of_startsSign (by simp) hsign).isPlain, openedPlain_signMode lexis _⟩
    split at h
    · next hdigit =>
      cases h
      have hdigit : read = ['.'] ∧ c.isDigit = true := by simpa using hdigit
      exact ⟨isPlain_of_isSafeChar (isSafeChar_of_isDigit hdigit.2), trivial⟩
    · simp at h
  | text quote escaped read =>
    cases escaped with
    | true =>
      obtain ⟨hescape, rfl⟩ : c ∈ lexis.escapes ∧ .text quote false (read ++ [c]) = mode' := by
        simpa [absorb] using h
      exact ⟨(hplain.escapes c hescape).isPlain, hmode⟩
    | false =>
      simp only [absorb] at h
      split at h
      · next hquote =>
        cases h
        exact ⟨hquote ▸ IsInk.isPlain hmode, trivial⟩
      split at h
      · next hslash =>
        cases h
        exact ⟨hslash ▸ by decide, hmode⟩
      split at h
      · simp at h
      · next hno =>
        cases h
        exact ⟨Nat.le_of_not_lt fun hlow => hno (by simp [hlow]), hmode⟩

theorem of_step {mode : Mode} {c : Char} {r : List Token × Mode} (hmode : mode.OpenedPlain)
    (h : lexis.step mode c = some r) : IsPlain c ∧ r.2.OpenedPlain := by
  unfold step at h
  split at h
  · next habsorb =>
    cases h
    exact hplain.of_absorb hmode habsorb
  · split at h
    · simp at h
    · cases hfinish : lexis.finish mode with
      | none => simp [hfinish] at h
      | some tokens =>
        cases hstart : lexis.start c with
        | none => simp [hfinish, hstart] at h
        | some mode' =>
          obtain rfl : (tokens, mode') = r := by simpa [hfinish, hstart] using h
          exact hplain.of_start hstart

/-- The characters of a text that is read. -/
theorem of_run {mode : Mode} {cs : List Char} {r : List Token × Mode}
    (hmode : mode.OpenedPlain) (h : lexis.run mode cs = some r) : ∀ c ∈ cs, IsPlain c := by
  induction cs generalizing mode r with
  | nil => simp
  | cons c cs ih =>
    rw [run_cons] at h
    obtain ⟨s, hstep, hrun⟩ := Option.bind_eq_some_iff.mp h
    obtain ⟨t, hrun, -⟩ := Option.map_eq_some_iff.mp hrun
    obtain ⟨hc, hmode'⟩ := hplain.of_step hmode hstep
    simpa [hc] using ih hmode' hrun

theorem openedPlain_of_run {mode : Mode} {cs : List Char} {r : List Token × Mode}
    (hmode : mode.OpenedPlain) (h : lexis.run mode cs = some r) : r.2.OpenedPlain := by
  induction cs generalizing mode r with
  | nil =>
    cases h
    exact hmode
  | cons c cs ih =>
    rw [run_cons] at h
    obtain ⟨s, hstep, hrun⟩ := Option.bind_eq_some_iff.mp h
    obtain ⟨t, hrest, rfl⟩ := Option.map_eq_some_iff.mp hrun
    have hlast := ih (hplain.of_step hmode hstep).2 hrest
    exact hlast

theorem of_lex {text : String} {tokens : List Token} (h : lexis.lex text = some tokens) :
    ∀ c ∈ text.toList, IsPlain c := by
  cases hrun : lexis.run .blank text.toList with
  | none => simp [lex, hrun] at h
  | some r => exact hplain.of_run (show Mode.blank.OpenedPlain from trivial) hrun

theorem of_cut {cs : List Char} {tokens : List Token} {free : Bool}
    (h : lexis.cut cs = some (tokens, free)) : ∀ c ∈ cs, IsPlain c := by
  obtain ⟨first, mode, last, hrun, -⟩ := cut_eq_some h
  exact hplain.of_run (show Mode.blank.OpenedPlain from trivial) hrun

/-! ## Spaces around a text -/

/-- A space goes on with no token other than a text, and ends none of these. -/
theorem absorb_space {mode mode' : Mode} (hmode : mode.OpenedPlain)
    (h : lexis.absorb mode ' ' = some mode') : lexis.finish mode' = none := by
  have hink : ¬IsInk ' ' := by decide
  cases mode with
  | blank | complete => simp [absorb] at h
  | word read | sigil sign => simp [absorb, show isSafeChar ' ' = false from by decide] at h
  | number part read => cases part <;> simp [absorb, NumberPart.next] at h
  | sign read =>
    have hstart : lexis.startsSign (read ++ [' ']) = false :=
      Bool.eq_false_iff.mpr fun hyes => hink (hplain.isInk_of_startsSign (by simp) hyes)
    simp [absorb, hstart] at h
  | text quote escaped read =>
    have hquote : ' ' ≠ quote := by
      rintro rfl
      exact hink hmode
    cases escaped with
    | true =>
      have hescape : ' ' ∉ lexis.escapes := fun hmem => hink (hplain.escapes _ hmem)
      simp [absorb, hescape] at h
    | false =>
      simp only [absorb, if_neg hquote, show ' ' ≠ '\\' from by decide, if_false] at h
      split at h
      · cases h
      · cases h
        rfl

/-- A text with a space at its end. -/
theorem lex_of_space {text : String} {tokens : List Token}
    (h : lexis.lex (text ++ " ") = some tokens) : lexis.lex text = some tokens := by
  rw [lex, String.toList_append, run_append] at h
  cases hrun : lexis.run .blank text.toList with
  | none => simp [hrun] at h
  | some r =>
    obtain ⟨first, mode⟩ := r
    have hmode : mode.OpenedPlain :=
      hplain.openedPlain_of_run (show Mode.blank.OpenedPlain from trivial) hrun
    have hspace : " ".toList = [' '] := rfl
    rw [hrun, Option.bind_some, hspace, run_cons] at h
    cases habsorb : lexis.absorb mode ' ' with
    | some mode' =>
      simp [step, habsorb, hplain.absorb_space hmode habsorb, following] at h
    | none =>
      cases hfinish : lexis.finish mode with
      | none =>
        have hstep : lexis.step mode ' ' = none := by simp [step, habsorb, hfinish]
        simp [hstep] at h
      | some last =>
        have hclings : clings mode ' ' = false := by cases mode <;> rfl
        have hstep : lexis.step mode ' ' = some (last, .blank) := by
          simp [step, habsorb, hfinish, hclings, start]
        simpa [hstep, lex, hrun, hfinish, following, show lexis.finish .blank = some [] from rfl]
          using h

/-- Blanks at the end of a text are not part of any token. -/
theorem lex_dropEndWhile {code : String} {tokens : List Token}
    (h : lexis.lex code = some tokens) :
    lexis.lex (String.ofList (dropEndWhile isIndentChar code.toList)) = some tokens := by
  obtain ⟨tail, hcode, htail⟩ := dropEndWhile_append isIndentChar code.toList
  have hkept : ∀ tail : List Char, (∀ c ∈ tail, c = ' ') → ∀ cs : List Char,
      lexis.lex (String.ofList (cs ++ tail)) = some tokens →
        lexis.lex (String.ofList cs) = some tokens := by
    intro tail htail
    induction tail with
    | nil => simp
    | cons c tail ih =>
      intro cs hlex
      obtain rfl := htail c (by simp)
      have hspace := ih (fun d hd => htail d (by simp [hd])) (cs ++ [' ']) (by simpa using hlex)
      rw [String.ofList_append] at hspace
      exact hplain.lex_of_space hspace
  refine hkept tail (fun c hc => ?_) _ (by rw [hcode, String.ofList_toList]; exact h)
  exact IsPlain.eq_space (hplain.of_lex h c (by rw [← hcode]; simp [hc])) (htail c hc)

omit hplain in
/-- A space ahead of a text. -/
theorem lex_space_cons (cs : List Char) :
    lexis.lex (String.ofList (' ' :: cs)) = lexis.lex (String.ofList cs) := by
  have hstep : lexis.step .blank ' ' = some ([], .blank) := rfl
  have hrun : lexis.run .blank (' ' :: cs) = lexis.run .blank cs := by
    rw [run_cons, hstep]
    cases h : lexis.run .blank cs <;> simp [h, following]
  rw [lex, lex, String.toList_ofList, String.toList_ofList, hrun]

/-- Blanks at the start of a text are not part of any token. -/
theorem lex_dropWhile {code : String} {tokens : List Token} (h : lexis.lex code = some tokens) :
    lexis.lex (String.ofList (code.toList.dropWhile isIndentChar)) = some tokens := by
  have hall := hplain.of_lex h
  rw [← String.ofList_toList (s := code)] at h
  generalize code.toList = cs at *
  induction cs with
  | nil => exact h
  | cons c cs ih =>
    obtain ⟨hc, hcs⟩ := List.forall_mem_cons.mp hall
    rw [List.dropWhile_cons]
    split
    · next hindent =>
      obtain rfl := hc.eq_space hindent
      exact ih (by rwa [lex_space_cons] at h) hcs
    · exact h

end Plain

end Lexis

end BlockScript.Reading

open BlockScript.Reading

theorem BlockScript.Python.lexis_plain : lexis.Plain :=
  Lexis.plain_of_all (by decide)

theorem BlockScript.Lua.lexis_plain : lexis.Plain :=
  Lexis.plain_of_all (by decide)

theorem BlockScript.Php.lexis_plain : lexis.Plain :=
  Lexis.plain_of_all (by decide)
