import BlockScript.Proofs.Literal.Reader
import BlockScript.Proofs.Reading.Control
import BlockScript.Proofs.Reading.Words

/-!
# Quoted texts read back

Every text is quoted as one string literal of the target language, and a reader
of the language gets the text back from it. What follows the literal does not
matter, as no escape can go on past its own characters: an escape by number has
all the digits that one can have.

Results:

* `Python.readLiteral_quote`, `Lua.readLiteral_quote`, `Php.readLiteral_quote`:
  a quoted text reads back as the text.
* `isPlain_of_mem_quote`: no control character stands in a literal.
* `quote_reads_back`: both for every language.
-/

namespace BlockScript

open BlockScript.Text BlockScript.Reading

/-! ## Escapes of control characters -/

/-- The first digits are found alike if others follow. -/
theorem leadingDigits_append {digit? : Char → Option Nat} {digits tail : List Char} {most : Nat}
    (h : digits.length = most) :
    leadingDigits digit? most (digits ++ tail) = leadingDigits digit? most digits := by
  unfold leadingDigits
  rw [List.take_append_of_le_length (by omega)]

namespace LiteralRules

variable {rules : LiteralRules} {safe : List Char → Prop}

/-- What an escape of control characters has to give: a letter for the three that
    have one, and a number for the others. -/
structure ReadsControls (unescape : List Char → Option (List Char × Nat))
    (escape : Char → List Char) : Prop where
  newline (tail : List Char) : unescape ('n' :: tail) = some (['\n'], 1)
  carriage (tail : List Char) : unescape ('r' :: tail) = some (['\r'], 1)
  tab (tail : List Char) : unescape ('t' :: tail) = some (['\t'], 1)
  number {c : Char} (h : c.toNat < 0x20) : ∃ behind, escape c = '\\' :: behind ∧
    ∀ tail, unescape (behind ++ tail) = some ([c], behind.length)

/-- A character that has to be escaped only if it is a control character. -/
theorem readsAs_escapeControl {escape : Char → List Char}
    (hcontrols : ReadsControls rules.unescape escape) (hquote : rules.quote ≠ '\\')
    (hsafe : ∀ tail, safe ('\\' :: tail)) {c : Char} (hc : c ≠ rules.quote) (hslash : c ≠ '\\')
    (hplain : 0x20 ≤ c.toNat → ∀ tail, safe tail → safe (c :: tail) ∧ rules.interrupts c tail = false) :
    rules.ReadsAs safe (escapeControl escape c) c := by
  by_cases hcontrol : 0x20 ≤ c.toNat
  · rw [escapeControl_of_le hcontrol]
    exact readsAs_self hc hslash (hplain hcontrol)
  · unfold escapeControl
    split
    · next heq =>
      subst heq
      exact readsAs_escape ['n'] hquote hsafe hcontrols.newline
    · split
      · next heq =>
        subst heq
        exact readsAs_escape ['r'] hquote hsafe hcontrols.carriage
      · split
        · next heq =>
          subst heq
          exact readsAs_escape ['t'] hquote hsafe hcontrols.tab
        · have hlow : c.toNat < 0x20 := by omega
          rw [if_pos hlow]
          obtain ⟨behind, hescape, hmeant⟩ := hcontrols.number hlow
          rw [hescape]
          exact readsAs_escape behind hquote hsafe hmeant

end LiteralRules

open LiteralRules

/-- The two digits of a control character are those of its number. -/
theorem leadingDigits_hexEscape {c : Char} (hc : c.toNat < 0x20) (tail : List Char) :
    (paddedDigits 16 2 c.toNat).length = 2 ∧
      (leadingDigits hexDigit? 2 (paddedDigits 16 2 c.toNat ++ tail)).length = 2 ∧
      numberOf 16 (leadingDigits hexDigit? 2 (paddedDigits 16 2 c.toNat ++ tail)) = c.toNat := by
  have hall : (paddedDigits 16 2 c.toNat).length = 2 ∧
      (leadingDigits hexDigit? 2 (paddedDigits 16 2 c.toNat)).length = 2 ∧
      numberOf 16 (leadingDigits hexDigit? 2 (paddedDigits 16 2 c.toNat)) = c.toNat :=
    forall_control (p := fun c => (paddedDigits 16 2 c.toNat).length = 2 ∧
      (leadingDigits hexDigit? 2 (paddedDigits 16 2 c.toNat)).length = 2 ∧
      numberOf 16 (leadingDigits hexDigit? 2 (paddedDigits 16 2 c.toNat)) = c.toNat)
      (by decide) hc
  rw [leadingDigits_append hall.1]
  exact hall

/-! ## Python -/

namespace Python

theorem readsControls : ReadsControls unescape hexEscape where
  newline _ := rfl
  carriage _ := rfl
  tab _ := rfl
  number {c} h := by
    refine ⟨'x' :: paddedDigits 16 2 c.toNat, rfl, fun tail => ?_⟩
    obtain ⟨hlength, hdigits, hnumber⟩ := leadingDigits_hexEscape h tail
    simp [unescape, hlength, hdigits, hnumber]

/-- A character between quotes that are not part of its escape. -/
theorem readsAs_escaped {quote : Char} (hquote : quote = '\'' ∨ quote = '"') {c : Char}
    (hc : c ≠ quote) : (literalRules quote).ReadsAs (fun _ => True) (escaped c) c := by
  have hslash : quote ≠ '\\' := by
    rcases hquote with rfl | rfl <;> decide
  unfold escaped
  split
  · next heq =>
    subst heq
    exact readsAs_escape ['\\'] hslash (fun _ => trivial) fun _ => rfl
  · next hno =>
    refine readsAs_escapeControl readsControls hslash (fun _ => trivial) hc hno fun hle tail _ =>
      ⟨trivial, ?_⟩
    have hline : c ≠ '\n' := by
      rintro rfl
      exact absurd hle (by decide)
    have hreturn : c ≠ '\r' := by
      rintro rfl
      exact absurd hle (by decide)
    simp [literalRules, hline, hreturn]

/-- The second escape of single quotes leaves all other characters alone. -/
theorem flatMap_escapedQuote {c : Char} (hc : c ≠ '\'') :
    (escaped c).flatMap escapedQuote = escaped c := by
  unfold escaped
  split
  · decide
  · by_cases hcontrol : 0x20 ≤ c.toNat
    · rw [escapeControl_of_le hcontrol]
      simp [escapedQuote, hc]
    · exact forall_control
        (p := fun c => (escapeControl hexEscape c).flatMap escapedQuote = escapeControl hexEscape c)
        (by decide) (by omega)

/-- A character between single quotes that are escaped. -/
theorem readsAs_escapedQuote (c : Char) :
    (literalRules '\'').ReadsAs (fun _ => True) ((escaped c).flatMap escapedQuote) c := by
  by_cases hc : c = '\''
  · subst hc
    exact readsAs_escape ['\''] (by decide) (fun _ => trivial) fun _ => rfl
  · rw [flatMap_escapedQuote hc]
    exact readsAs_escaped (.inl rfl) hc

/-- No escape starts with a quote that is not part of it. -/
theorem escaped_eq_cons {quote c : Char} (hquote : quote ≠ '\\') (hc : c ≠ quote) :
    ∃ d ds, escaped c = d :: ds ∧ d ≠ quote := by
  unfold escaped
  split
  · exact ⟨_, _, rfl, Ne.symm hquote⟩
  · by_cases hcontrol : 0x20 ≤ c.toNat
    · rw [escapeControl_of_le hcontrol]
      exact ⟨c, [], rfl, hc⟩
    · have hhead : (escapeControl hexEscape c).head? = some '\\' :=
        forall_control (p := fun c => (escapeControl hexEscape c).head? = some '\\') (by decide)
          (by omega)
      cases hlist : escapeControl hexEscape c with
      | nil => simp [hlist] at hhead
      | cons d ds =>
        obtain rfl : d = '\\' := by simpa [hlist] using hhead
        exact ⟨_, _, rfl, Ne.symm hquote⟩

/-- The quotes of a text are not the first of three. -/
theorem not_isPrefixOf_escaped {quote : Char} {write : Char → List Char} {text rest : List Char}
    (hwrite : ∀ c ∈ text, ∃ d ds, write c = d :: ds ∧ d ≠ quote)
    (hrest : text = [] → rest.head? ≠ some quote) :
    [quote, quote].isPrefixOf (text.flatMap write ++ quote :: rest) = false := by
  cases text with
  | nil =>
    cases rest with
    | nil => simp [List.isPrefixOf]
    | cons d rest =>
      have hne : d ≠ quote := fun heq => hrest rfl (by simp [heq])
      simp [List.isPrefixOf, Ne.symm hne]
  | cons c text =>
    obtain ⟨d, ds, hlist, hne⟩ := hwrite c (by simp)
    simp [List.flatMap_cons, hlist, List.isPrefixOf, Ne.symm hne]

theorem readLiteral_of_write {quote : Char} (hquote : quote = '\'' ∨ quote = '"')
    {write : Char → List Char} {text rest : List Char}
    (hwrite : ∀ c ∈ text, (literalRules quote).ReadsAs (fun _ => True) (write c) c)
    (hstart : ∀ c ∈ text, ∃ d ds, write c = d :: ds ∧ d ≠ quote)
    (hrest : text = [] → rest.head? ≠ some quote) :
    readLiteral (quote :: (text.flatMap write ++ quote :: rest)) = some (text, rest) := by
  have hopen : (quote = '\'' || quote = '"') = true := by simpa using hquote
  rw [readLiteral, hopen, not_isPrefixOf_escaped hstart hrest]
  exact (read_flatMap hwrite trivial).2

/-- A quoted text reads back as the text. -/
theorem readLiteral_quote (text : String) (rest : List Char)
    (hrest : text = "" → rest.head? ≠ some '\'') :
    readLiteral ((quote text).toList ++ rest) = some (text.toList, rest) := by
  have hdef : quote text =
      (let content := text.toList.flatMap escaped
      if !content.contains '\'' then String.ofList ('\'' :: (content ++ ['\'']))
      else if !content.contains '"' then String.ofList ('"' :: (content ++ ['"']))
      else String.ofList ('\'' :: (content.flatMap escapedQuote ++ ['\'']))) := rfl
  have hnil : text.toList = [] → rest.head? ≠ some '\'' := fun h =>
    hrest (String.toList_eq_nil_iff.mp h)
  have hmem : ∀ {quote}, escaped quote = [quote] →
      (text.toList.flatMap escaped).contains quote = false → ∀ c ∈ text.toList, c ≠ quote := by
    rintro quote hself hnone c hc rfl
    have hmem : c ∈ text.toList.flatMap escaped := List.mem_flatMap.mpr ⟨c, hc, by simp [hself]⟩
    simp [hmem] at hnone
  rw [hdef]
  dsimp only
  split
  · next hnone =>
    have hne := hmem rfl (by simpa using hnone)
    rw [String.toList_ofList, List.cons_append, List.append_assoc]
    exact readLiteral_of_write (.inl rfl) (fun c hc => readsAs_escaped (.inl rfl) (hne c hc))
      (fun c hc => escaped_eq_cons (by decide) (hne c hc)) hnil
  · split
    · next hsome hnone =>
      have hne := hmem rfl (by simpa using hnone)
      rw [String.toList_ofList, List.cons_append, List.append_assoc]
      refine readLiteral_of_write (.inr rfl) (fun c hc => readsAs_escaped (.inr rfl) (hne c hc))
        (fun c hc => escaped_eq_cons (by decide) (hne c hc)) fun hempty => ?_
      simp [hempty] at hsome
    · rw [String.toList_ofList, List.flatMap_assoc, List.cons_append, List.append_assoc]
      refine readLiteral_of_write (.inl rfl) (fun c _ => readsAs_escapedQuote c) (fun c _ => ?_) hnil
      by_cases hc : c = '\''
      · subst hc
        exact ⟨'\\', ['\''], rfl, by decide⟩
      · rw [flatMap_escapedQuote hc]
        exact escaped_eq_cons (by decide) hc

end Python

/-! ## Lua -/

namespace Lua

/-- The digits of a number are no other escape. -/
theorem unescape_of_isDigit {d : Char} (hd : d.isDigit = true) (rest : List Char) :
    unescape (d :: rest) =
      let digits := leadingDigits decimalDigit? 3 (d :: rest)
      if digits ≠ [] ∧ numberOf 10 digits < 0x80 then
        some ([Char.ofNat (numberOf 10 digits)], digits.length) else none := by
  have hne : ∀ e : Char, e.isDigit = false → d ≠ e := by
    rintro e he rfl
    simp [he] at hd
  have hspecial : (d = '\\' || d = '\'' || d = '"') = false := by
    simp [hne '\\' (by decide), hne '\'' (by decide), hne '"' (by decide)]
  rw [unescape, hspecial, if_neg Bool.false_ne_true, if_neg (hne 'n' (by decide)),
    if_neg (hne 'r' (by decide)), if_neg (hne 't' (by decide))]

/-- The three digits of a control character are those of its number. -/
theorem leadingDigits_decimalEscape {c : Char} (hc : c.toNat < 0x20) (tail : List Char) :
    (paddedDigits 10 3 c.toNat).length = 3 ∧
      (leadingDigits decimalDigit? 3 (paddedDigits 10 3 c.toNat ++ tail)).length = 3 ∧
      numberOf 10 (leadingDigits decimalDigit? 3 (paddedDigits 10 3 c.toNat ++ tail)) =
        c.toNat := by
  have hall : (paddedDigits 10 3 c.toNat).length = 3 ∧
      (leadingDigits decimalDigit? 3 (paddedDigits 10 3 c.toNat)).length = 3 ∧
      numberOf 10 (leadingDigits decimalDigit? 3 (paddedDigits 10 3 c.toNat)) = c.toNat :=
    forall_control (p := fun c => (paddedDigits 10 3 c.toNat).length = 3 ∧
      (leadingDigits decimalDigit? 3 (paddedDigits 10 3 c.toNat)).length = 3 ∧
      numberOf 10 (leadingDigits decimalDigit? 3 (paddedDigits 10 3 c.toNat)) = c.toNat)
      (by decide) hc
  rw [leadingDigits_append hall.1]
  exact hall

theorem readsControls : ReadsControls unescape decimalEscape where
  newline _ := rfl
  carriage _ := rfl
  tab _ := rfl
  number {c} h := by
    refine ⟨paddedDigits 10 3 c.toNat, rfl, fun tail => ?_⟩
    obtain ⟨hlength, hdigits, hnumber⟩ := leadingDigits_decimalEscape h tail
    have hall : (paddedDigits 10 3 c.toNat).all Char.isDigit = true :=
      forall_control (p := fun c => (paddedDigits 10 3 c.toNat).all Char.isDigit = true)
        (by decide) h
    cases hlist : paddedDigits 10 3 c.toNat with
    | nil => simp [hlist] at hlength
    | cons d ds =>
      rw [hlist] at hlength hdigits hnumber hall
      have hd : d.isDigit = true := by simp_all
      have hsome : leadingDigits decimalDigit? 3 (d :: ds ++ tail) ≠ [] := by
        intro hempty
        rw [hempty] at hdigits
        exact absurd hdigits (by decide)
      have hascii : numberOf 10 (leadingDigits decimalDigit? 3 (d :: ds ++ tail)) < 0x80 := by
        omega
      rw [List.cons_append, unescape_of_isDigit hd, ← List.cons_append]
      dsimp only
      rw [if_pos ⟨hsome, hascii⟩, hnumber, hdigits, hlength, Char.ofNat_toNat]

/-- The escape of a character in Lua. -/
def escaped (c : Char) : List Char :=
  if c = '\\' || c = '\'' then ['\\', c] else escapeControl decimalEscape c

theorem readsAs_escaped (c : Char) :
    (literalRules '\'').ReadsAs (fun _ => True) (escaped c) c := by
  unfold escaped
  split
  · next hspecial =>
    refine readsAs_escape [c] (by decide) (fun _ => trivial) fun _ => ?_
    rcases (by simpa using hspecial : c = '\\' ∨ c = '\'') with rfl | rfl <;> rfl
  · next hno =>
    obtain ⟨hslash, hquote⟩ : c ≠ '\\' ∧ c ≠ '\'' := by simpa using hno
    refine readsAs_escapeControl readsControls (by decide) (fun _ => trivial) hquote hslash
      fun hle tail _ => ⟨trivial, ?_⟩
    have hline : c ≠ '\n' := by
      rintro rfl
      exact absurd hle (by decide)
    have hreturn : c ≠ '\r' := by
      rintro rfl
      exact absurd hle (by decide)
    simp [literalRules, hline, hreturn]

/-- A quoted text reads back as the text. -/
theorem readLiteral_quote (text : String) (rest : List Char) :
    readLiteral ((quote text).toList ++ rest) = some (text.toList, rest) := by
  have hdef : quote text = String.ofList ('\'' :: (text.toList.flatMap escaped ++ ['\''])) := rfl
  rw [hdef, String.toList_ofList, List.cons_append, List.append_assoc, readLiteral,
    if_pos (by decide)]
  exact (read_flatMap (fun c _ => readsAs_escaped c) trivial).2

end Lua

/-! ## PHP -/

namespace Php

/-- The escape of a character between single quotes. -/
def escapedSingle (c : Char) : List Char :=
  if c = '\\' || c = '\'' then ['\\', c] else [c]

/-- The escape of a character between double quotes. -/
def escapedDouble (c : Char) : List Char :=
  if c = '\\' || c = '"' || c = '$' then ['\\', c] else escapeControl hexEscape c

theorem readsAs_escapedSingle (c : Char) :
    singleRules.ReadsAs (fun _ => True) (escapedSingle c) c := by
  unfold escapedSingle
  split
  · next hspecial =>
    refine readsAs_escape [c] (by decide) (fun _ => trivial) fun _ => ?_
    rcases (by simpa using hspecial : c = '\\' ∨ c = '\'') with rfl | rfl <;> rfl
  · next hno =>
    obtain ⟨hslash, hquote⟩ : c ≠ '\\' ∧ c ≠ '\'' := by simpa using hno
    exact readsAs_self hquote hslash fun _ _ => ⟨trivial, rfl⟩

theorem readsControls : ReadsControls unescapeDouble hexEscape where
  newline _ := rfl
  carriage _ := rfl
  tab _ := rfl
  number {c} h := by
    refine ⟨'x' :: paddedDigits 16 2 c.toNat, rfl, fun tail => ?_⟩
    obtain ⟨hlength, hdigits, hnumber⟩ := leadingDigits_hexEscape h tail
    have hsome : leadingDigits hexDigit? 2 (paddedDigits 16 2 c.toNat ++ tail) ≠ [] := by
      intro hempty
      simp [hempty] at hdigits
    have hascii : c.toNat < 128 := by omega
    simp [unescapeDouble, hlength, hdigits, hnumber, hsome, hascii]

/-- A character between double quotes. No dollar sign follows it, as that is
    escaped. -/
theorem readsAs_escapedDouble (c : Char) :
    doubleRules.ReadsAs (fun tail => tail.head? ≠ some '$') (escapedDouble c) c := by
  unfold escapedDouble
  split
  · next hspecial =>
    refine readsAs_escape [c] (by decide) (fun _ => by simp) fun _ => ?_
    rcases (by simpa [or_assoc] using hspecial : c = '\\' ∨ c = '"' ∨ c = '$') with
      rfl | rfl | rfl <;> rfl
  · next hno =>
    obtain ⟨hslash, hquote, hdollar⟩ : c ≠ '\\' ∧ c ≠ '"' ∧ c ≠ '$' := by
      simpa [and_assoc] using hno
    refine readsAs_escapeControl readsControls (by decide) (fun _ => by simp) hquote hslash
      fun hle tail htail => ⟨by simpa using hdollar, ?_⟩
    cases tail with
    | nil => rfl
    | cons d tail =>
      have hd : d ≠ '$' := by simpa using htail
      simp [doubleRules, opensVariable, hdollar, hd]

/-- A quoted text reads back as the text. -/
theorem readLiteral_quote (text : String) (rest : List Char) :
    readLiteral ((quote text).toList ++ rest) = some (text.toList, rest) := by
  have hdef : quote text =
      (if text.toList.all fun c => 0x20 ≤ c.toNat then
        String.ofList ('\'' :: (text.toList.flatMap escapedSingle ++ ['\'']))
      else String.ofList ('"' :: (text.toList.flatMap escapedDouble ++ ['"']))) := rfl
  rw [hdef]
  split
  · rw [String.toList_ofList, List.cons_append, List.append_assoc, readLiteral, if_pos rfl]
    exact (read_flatMap (fun c _ => readsAs_escapedSingle c) trivial).2
  · rw [String.toList_ofList, List.cons_append, List.append_assoc, readLiteral,
      if_neg (by decide), if_pos rfl]
    exact (read_flatMap (fun c _ => readsAs_escapedDouble c) (by simp [doubleRules])).2

end Php

/-! ## All languages -/

/-- No control character stands in a literal. -/
theorem isPlain_of_mem_quote (language : Language) (text : String) :
    ∀ c ∈ (language.dialect.quote text).toList, IsPlain c := by
  cases language with
  | python => exact Python.lexis_plain.of_cut (Python.cut_quote text)
  | lua => exact Lua.lexis_plain.of_cut (Lua.cut_quote text)
  | php => exact Php.lexis_plain.of_cut (Php.cut_quote text)

/-- A quoted text is one string literal on one line, and the reader of the language
    gets the text back from it, whatever follows. Only Python reads two quotes
    next to each other otherwise if a third one follows. -/
theorem quote_reads_back (language : Language) (text : String) :
    (∀ rest, (language = .python → text = "" → rest.head? ≠ some '\'') →
      language.readLiteral ((language.dialect.quote text).toList ++ rest) =
        some (text.toList, rest)) ∧
      ∀ c ∈ (language.dialect.quote text).toList, 0x20 ≤ c.toNat := by
  refine ⟨fun rest hrest => ?_, isPlain_of_mem_quote language text⟩
  cases language with
  | python => exact Python.readLiteral_quote text rest (hrest rfl)
  | lua => exact Lua.readLiteral_quote text rest
  | php => exact Php.readLiteral_quote text rest

end BlockScript
