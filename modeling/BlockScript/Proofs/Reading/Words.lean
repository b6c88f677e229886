import BlockScript.Proofs.Names.Identifier
import BlockScript.Proofs.Reading.Languages

/-!
# Words and texts as tokens

The pieces of an expression that depend on a program: identifiers, and texts
between quotes. An identifier that is no keyword is one token, also behind the
sign of a variable; a quoted text is one token whatever the text is.

Results:

* `cut_word`, `cut_variable`: an identifier is one token.
* `Python.cut_quote`, `Lua.cut_quote`, `Php.cut_quote`: so is a quoted text.
-/

namespace BlockScript.Reading

/-! ## Words -/

theorem ne_space_of_isSafeChar {c : Char} (h : isSafeChar c = true) : c ≠ ' ' := by
  rintro rfl
  exact absurd h (by decide)

theorem run_word (lexis : Lexis) {read cs : List Char} (h : ∀ c ∈ cs, isSafeChar c = true) :
    lexis.run (.word read) cs = some ([], .word (read ++ cs)) := by
  induction cs generalizing read with
  | nil => simp
  | cons c cs ih =>
    have hc := h c (by simp)
    rw [Lexis.run_cons]
    simp [Lexis.step, Lexis.absorb, hc, ih fun d hd => h d (by simp [hd])]

/-- An identifier or keyword is one token. -/
theorem cut_word (lexis : Lexis) {word : String} (h : IsIdentifier word) :
    lexis.cut word.toList =
      some ([if lexis.isKeyword word.toList then .mark word else .name word], false) := by
  obtain ⟨c, cs, hlist, hc, hdigit, hcs⟩ := h
  have hstep : lexis.step .blank c = some ([], .word [c]) := by
    simp [Lexis.step, Lexis.absorb, Lexis.clings, Lexis.finish, Lexis.start,
      ne_space_of_isSafeChar hc, hdigit, hc]
  have hrun : lexis.run .blank word.toList = some ([], .word word.toList) := by
    rw [hlist, Lexis.run_cons, hstep]
    simp [run_word lexis hcs]
  simp [Lexis.cut, hrun, Lexis.finish, Mode.isLoose, Mode.isOpen]

/-- An identifier behind the sign of a variable is one token. -/
theorem cut_variable {lexis : Lexis} {sign : Char} {word : String} (h : IsIdentifier word)
    (hsign : lexis.sigil = some sign) (hspace : sign ≠ ' ') (hdigit : sign.isDigit = false)
    (hsafe : isSafeChar sign = false) (hword : lexis.isKeyword (sign :: word.toList) = false) :
    lexis.cut (sign :: word.toList) =
      some ([.name (String.ofList (sign :: word.toList))], false) := by
  obtain ⟨c, cs, hlist, hc, hdigit', hcs⟩ := h
  have hstep : lexis.step .blank sign = some ([], .sigil sign) := by
    simp [Lexis.step, Lexis.absorb, Lexis.clings, Lexis.finish, Lexis.start, hspace, hdigit, hsafe,
      hsign]
  have hstep' : lexis.step (.sigil sign) c = some ([], .word [sign, c]) := by
    simp [Lexis.step, Lexis.absorb, hc, hdigit']
  have hrun : lexis.run .blank (sign :: word.toList) = some ([], .word (sign :: word.toList)) := by
    rw [hlist, Lexis.run_cons, hstep]
    simp [Lexis.run_cons, hstep', run_word lexis hcs]
  simp [Lexis.cut, hrun, Lexis.finish, hword, Mode.isLoose, Mode.isOpen]

/-! ## Texts between quotes -/

/-- Whether characters can stand between two quotes. -/
def inside (lexis : Lexis) (quote : Char) : List Char → Bool
  | [] => true
  | [c] => c ≠ quote && c ≠ '\\' && 0x20 ≤ c.toNat && !lexis.barred.contains (quote, c)
  | c :: d :: cs =>
    if c = '\\' then lexis.escapes.contains d && inside lexis quote cs
    else c ≠ quote && 0x20 ≤ c.toNat && !lexis.barred.contains (quote, c) &&
      inside lexis quote (d :: cs)

theorem inside_append (lexis : Lexis) {quote : Char} {cs ds : List Char}
    (hcs : inside lexis quote cs = true) (hds : inside lexis quote ds = true) :
    inside lexis quote (cs ++ ds) = true := by
  induction cs using inside.induct with
  | case1 => exact hds
  | case2 c =>
    simp only [inside, Bool.and_eq_true, decide_eq_true_eq, Bool.not_eq_true', List.contains_eq_mem,
      decide_eq_false_iff_not] at hcs
    cases ds with
    | nil => simp [inside, hcs]
    | cons d ds => simp [inside, hcs, hds]
  | case3 d cs ih =>
    simp only [inside, if_true, Bool.and_eq_true, List.contains_eq_mem, decide_eq_true_eq] at hcs
    simp [inside, hcs.1, ih hcs.2]
  | case4 c d cs hc ih =>
    simp only [inside, hc, if_false, Bool.and_eq_true, decide_eq_true_eq, Bool.not_eq_true',
      List.contains_eq_mem, decide_eq_false_iff_not] at hcs
    simp only [List.cons_append] at ih
    simp [inside, hc, hcs, ih hcs.2]

/-- What can stand between quotes depends on the escapes and on what is barred there. -/
theorem inside_congr {lexis lexis' : Lexis} (hescapes : lexis.escapes = lexis'.escapes)
    (hbarred : lexis.barred = lexis'.barred) (quote : Char) (cs : List Char) :
    inside lexis quote cs = inside lexis' quote cs := by
  induction cs using inside.induct with
  | case1 => rfl
  | case2 c => rw [inside, inside, hbarred]
  | case3 d cs ih => simp [inside, hescapes, ih]
  | case4 c d cs hc ih => simp [inside, hc, hbarred, ih]

theorem inside_flatMap (lexis : Lexis) {quote : Char} {α : Type} {f : α → List Char}
    {items : List α} (h : ∀ item ∈ items, inside lexis quote (f item) = true) :
    inside lexis quote (items.flatMap f) = true := by
  induction items with
  | nil => rfl
  | cons item items ih =>
    rw [List.flatMap_cons]
    exact inside_append lexis (h item (by simp)) (ih fun other hother => h other (by simp [hother]))

theorem run_text (lexis : Lexis) {quote : Char} {read cs : List Char} (hq : quote ≠ '\\')
    (h : inside lexis quote cs = true) :
    lexis.run (.text quote false read) cs = some ([], .text quote false (read ++ cs)) := by
  induction cs using inside.induct generalizing read with
  | case1 => simp
  | case2 c =>
    simp only [inside, Bool.and_eq_true, decide_eq_true_eq, Bool.not_eq_true', List.contains_eq_mem,
      decide_eq_false_iff_not] at h
    have hcontrol : ¬c.toNat < 32 := by omega
    rw [Lexis.run_cons]
    simp only [Lexis.step, Lexis.absorb]
    simp [h, hcontrol]
  | case3 d cs ih =>
    simp only [inside, if_true, Bool.and_eq_true, List.contains_eq_mem, decide_eq_true_eq] at h
    rw [Lexis.run_cons]
    simp [Lexis.step, Lexis.absorb, Ne.symm hq, Lexis.run_cons, h.1, ih h.2]
  | case4 c d cs hc ih =>
    simp only [inside, hc, if_false, Bool.and_eq_true, decide_eq_true_eq, Bool.not_eq_true',
      List.contains_eq_mem, decide_eq_false_iff_not] at h
    have hcontrol : ¬c.toNat < 32 := by omega
    rw [Lexis.run_cons]
    simp only [Lexis.step, Lexis.absorb]
    simp [h, hc, hcontrol, ih h.2]

/-- What is inside two quotes makes one token with them. -/
theorem cut_quoted (lexis : Lexis) {quote : Char} {cs : List Char}
    (hquote : lexis.start quote = some (.text quote false [quote])) (hq : quote ≠ '\\')
    (h : inside lexis quote cs = true) :
    lexis.cut (quote :: (cs ++ [quote])) =
      some ([.text (String.ofList (quote :: (cs ++ [quote])))], true) := by
  have hstep : lexis.step .blank quote = some ([], .text quote false [quote]) := by
    simp [Lexis.step, Lexis.absorb, Lexis.clings, Lexis.finish, hquote]
  have hlast : lexis.step (.text quote false (quote :: cs)) quote =
      some ([], .complete (.text (String.ofList (quote :: (cs ++ [quote]))))) := by
    simp [Lexis.step, Lexis.absorb]
  have hrun : lexis.run .blank (quote :: (cs ++ [quote])) =
      some ([], .complete (.text (String.ofList (quote :: (cs ++ [quote]))))) := by
    rw [Lexis.run_cons, hstep]
    simp [Lexis.run_append, run_text lexis hq h, Lexis.run_cons, hlast]
  simp [Lexis.cut, hrun, Lexis.finish, Mode.isLoose, Mode.isOpen]

end BlockScript.Reading

/-! ## Quoted texts of the languages -/

namespace BlockScript

open BlockScript.Text BlockScript.Reading

/-- A character that is no control character stands for itself. -/
theorem escapeControl_of_le {escape : Char → List Char} {c : Char} (h : 0x20 ≤ c.toNat) :
    escapeControl escape c = [c] := by
  have hne : ∀ d : Char, d.toNat < 0x20 → c ≠ d := by
    rintro d hd rfl
    omega
  have hcontrol : ¬c.toNat < 0x20 := by omega
  simp [escapeControl, hne '\n' (by decide), hne '\r' (by decide), hne '\t' (by decide), hcontrol]

/-- A property of all control characters is shown for each of them. -/
theorem forall_control {p : Char → Prop} (h : ∀ n : Fin 32, p (Char.ofNat n)) {c : Char}
    (hc : c.toNat < 0x20) : p c := by
  have := h ⟨c.toNat, hc⟩
  simpa using this

theorem inside_single (lexis : Lexis) {quote c : Char} (hquote : c ≠ quote) (hc : c ≠ '\\')
    (hcontrol : 0x20 ≤ c.toNat) (hbarred : (quote, c) ∉ lexis.barred) :
    inside lexis quote [c] = true := by
  simp [inside, hquote, hc, hcontrol, hbarred]

namespace Python

/-- The escape of a character in Python. -/
def escaped (c : Char) : List Char :=
  if c = '\\' then ['\\', '\\'] else escapeControl hexEscape c

theorem inside_escaped {quote : Char} (hq : quote = '\'' ∨ quote = '"') {c : Char}
    (hc : quote ∉ escaped c) : inside lexis quote (escaped c) = true := by
  unfold escaped at hc ⊢
  by_cases hb : c = '\\'
  · rw [if_pos hb]
    rcases hq with rfl | rfl <;> decide
  · rw [if_neg hb] at hc ⊢
    by_cases hcontrol : 0x20 ≤ c.toNat
    · rw [escapeControl_of_le hcontrol] at hc ⊢
      exact inside_single lexis (fun heq => hc (by simp [heq])) hb hcontrol (by simp [lexis])
    · rcases hq with rfl | rfl
      · exact forall_control (p := fun c => inside lexis '\'' (escapeControl hexEscape c) = true)
          (by decide) (by omega)
      · exact forall_control (p := fun c => inside lexis '"' (escapeControl hexEscape c) = true)
          (by decide) (by omega)

/-- The escape of single quotes in a text that is escaped already. -/
def escapedQuote (c : Char) : List Char :=
  if c = '\'' then ['\\', '\''] else [c]

theorem inside_escapedQuote (c : Char) :
    inside lexis '\'' ((escaped c).flatMap escapedQuote) = true := by
  unfold escaped
  by_cases hb : c = '\\'
  · rw [if_pos hb]
    decide
  · rw [if_neg hb]
    by_cases hcontrol : 0x20 ≤ c.toNat
    · rw [escapeControl_of_le hcontrol]
      by_cases hq : c = '\''
      · subst hq
        decide
      · have hself : [c].flatMap escapedQuote = [c] := by simp [escapedQuote, hq]
        rw [hself]
        exact inside_single lexis hq hb hcontrol (by simp [lexis])
    · exact forall_control
        (p := fun c => inside lexis '\'' ((escapeControl hexEscape c).flatMap escapedQuote) = true)
        (by decide) (by omega)

/-- What is quoted stands between two quotes of a kind. -/
theorem exists_inside_quote (text : String) :
    ∃ q cs, (q = '\'' ∨ q = '"') ∧ quote text = String.ofList (q :: (cs ++ [q])) ∧
      inside lexis q cs = true := by
  have hdef : quote text =
      (let content := text.toList.flatMap escaped
      if !content.contains '\'' then String.ofList ('\'' :: (content ++ ['\'']))
      else if !content.contains '"' then String.ofList ('"' :: (content ++ ['"']))
      else String.ofList ('\'' :: (content.flatMap escapedQuote ++ ['\'']))) := rfl
  rw [hdef]
  dsimp only
  split
  · next hnone =>
    refine ⟨'\'', _, .inl rfl, rfl, inside_flatMap lexis fun c hc => ?_⟩
    refine inside_escaped (.inl rfl) fun hmem => ?_
    simp [List.mem_flatMap.mpr ⟨c, hc, hmem⟩] at hnone
  · split
    · next hnone =>
      refine ⟨'"', _, .inr rfl, rfl, inside_flatMap lexis fun c hc => ?_⟩
      refine inside_escaped (.inr rfl) fun hmem => ?_
      simp [List.mem_flatMap.mpr ⟨c, hc, hmem⟩] at hnone
    · rw [List.flatMap_assoc]
      exact ⟨'\'', _, .inl rfl, rfl, inside_flatMap lexis fun c _ => inside_escapedQuote c⟩

/-- A quoted text is one token. -/
theorem cut_quote (text : String) :
    lexis.cut (quote text).toList = some ([.text (quote text)], true) := by
  obtain ⟨q, cs, hq, hquote, hinside⟩ := exists_inside_quote text
  rw [hquote, String.toList_ofList]
  rcases hq with rfl | rfl
  · exact cut_quoted lexis rfl (by decide) hinside
  · exact cut_quoted lexis rfl (by decide) hinside

end Python

namespace Lua

/-- A quoted text is one token. -/
theorem cut_quote (text : String) :
    lexis.cut (quote text).toList = some ([.text (quote text)], true) := by
  unfold quote
  rw [String.toList_ofList]
  refine cut_quoted lexis rfl (by decide) (inside_flatMap lexis fun c _ => ?_)
  by_cases hspecial : c = '\\' ∨ c = '\''
  · rcases hspecial with rfl | rfl <;> decide
  · obtain ⟨hb, hq⟩ := not_or.mp hspecial
    simp only [hb, hq, decide_false, Bool.or_self, Bool.false_eq_true, if_false]
    by_cases hcontrol : 0x20 ≤ c.toNat
    · rw [escapeControl_of_le hcontrol]
      exact inside_single lexis hq hb hcontrol (by simp [lexis])
    · exact forall_control (p := fun c => inside lexis '\'' (escapeControl decimalEscape c) = true)
        (by decide) (by omega)

end Lua

namespace Php

/-- What is quoted stands between two quotes of a kind. -/
theorem exists_inside_quote (text : String) :
    ∃ q cs, (q = '\'' ∨ q = '"') ∧ (quote text).toList = q :: (cs ++ [q]) ∧
      inside lexis q cs = true := by
  unfold quote
  split
  · next hplain =>
    refine ⟨'\'', _, .inl rfl, String.toList_ofList, inside_flatMap lexis fun c hc => ?_⟩
    by_cases hspecial : c = '\\' ∨ c = '\''
    · rcases hspecial with rfl | rfl <;> decide
    · obtain ⟨hb, hq⟩ := not_or.mp hspecial
      simp only [hb, hq, decide_false, Bool.or_self, Bool.false_eq_true, if_false]
      have hcontrol : 0x20 ≤ c.toNat := of_decide_eq_true (List.all_eq_true.mp hplain c hc)
      exact inside_single lexis hq hb hcontrol (by simp [lexis])
  · refine ⟨'"', _, .inr rfl, String.toList_ofList, inside_flatMap lexis fun c _ => ?_⟩
    by_cases hspecial : c = '\\' ∨ c = '"' ∨ c = '$'
    · rcases hspecial with rfl | rfl | rfl <;> decide
    · obtain ⟨hb, hq, hd⟩ : c ≠ '\\' ∧ c ≠ '"' ∧ c ≠ '$' := by simpa using hspecial
      simp only [hb, hq, hd, decide_false, Bool.or_self, Bool.false_eq_true, if_false]
      by_cases hcontrol : 0x20 ≤ c.toNat
      · rw [escapeControl_of_le hcontrol]
        exact inside_single lexis hq hb hcontrol (by simp [lexis, hd])
      · exact forall_control (p := fun c => inside lexis '"' (escapeControl hexEscape c) = true)
          (by decide) (by omega)

/-- A quoted text is one token. -/
theorem cut_quote (text : String) :
    lexis.cut (quote text).toList = some ([.text (quote text)], true) := by
  obtain ⟨q, cs, hq, hlist, hinside⟩ := exists_inside_quote text
  have htext : quote text = String.ofList (q :: (cs ++ [q])) := by rw [← hlist, String.ofList_toList]
  rw [hlist, htext]
  rcases hq with rfl | rfl <;> exact cut_quoted lexis rfl (by decide) hinside

end Php

end BlockScript
