import BlockScript.Proofs.Imports.Reader
import BlockScript.Proofs.Names.Pass
import BlockScript.Proofs.Literal.RoundTrip
import BlockScript.Proofs.Number.ReadBack

/-!
# Texts that imports cover

A text of a Python program is covered by import statements if every name from a module that it
uses is imported by one of them. Pieces of a line are put together where no word and no literal
goes on from one piece to the next, and texts are put together from lines that no literal goes
on from.

Results:

* `Covered.append`: pieces of a line next to each other.
* `covered_of_safe`, `covered_of_literalChars`, `covered_quote`: identifiers, numbers and string
  literals use no name from a module.
* `CoveredText.append`, `CoveredText.indented`: lines one after the other, and further inside.
-/

namespace BlockScript.Python

open BlockScript.Number BlockScript.Reading BlockScript.Text

/-! ## Pieces of lines -/

/-- Whether a piece of a line uses names from modules only if their imports are among some
    statements, and no comment or literal goes on behind it. -/
structure Covered (stock : List String) (text : String) : Prop where
  ends : (Place.code.after text.toList).isCode = true
  feeds : '\n' ∉ text.toList
  imported : ∀ entry ∈ moduleNames, uses entry.1 text.toList = true → entry.2 ∈ stock

theorem covered_iff {stock : List String} {text : String} : Covered stock text ↔
    (Place.code.after text.toList).isCode = true ∧ '\n' ∉ text.toList ∧
      ∀ entry ∈ moduleNames, uses entry.1 text.toList = true → entry.2 ∈ stock :=
  ⟨fun h => ⟨h.ends, h.feeds, h.imported⟩, fun h => ⟨h.1, h.2.1, h.2.2⟩⟩

instance (stock : List String) (text : String) : Decidable (Covered stock text) :=
  decidable_of_iff' _ covered_iff

/-- Whether a text goes on behind any other text. -/
def opensLoose (text : String) : Bool :=
  !text.toList.head?.any isSticky

/-- Whether any other text goes on behind a text. -/
def endsLoose (text : String) : Bool :=
  !text.toList.getLast?.any isSticky

variable {stock more : List String} {a b text : String}

theorem apart_of_opensLoose (h : opensLoose b = true) : Apart a.toList b.toList := by
  intro c _ d hd
  refine .inr ?_
  simpa [opensLoose, Option.any_eq_false_iff_get, Option.mem_def.mp hd] using h

theorem apart_of_endsLoose (h : endsLoose a = true) : Apart a.toList b.toList := by
  intro c hc d _
  refine .inl ?_
  simpa [endsLoose, Option.mem_def.mp hc] using h

theorem covered_empty : Covered stock "" :=
  ⟨rfl, by simp, by simp [uses, codeOf, usesFrom]⟩

theorem Covered.mono (h : Covered stock text) (hsub : stock ⊆ more) : Covered more text :=
  ⟨h.ends, h.feeds, fun entry hentry huses => hsub (h.imported entry hentry huses)⟩

/-- Pieces of a line next to each other. -/
theorem Covered.append (ha : Covered stock a) (hb : Covered stock b)
    (hapart : Apart a.toList b.toList) : Covered stock (a ++ b) := by
  refine ⟨?_, ?_, fun entry hentry huses => ?_⟩
  · rw [String.toList_append]
    rcases (read_append ha.ends hapart).2 with hplace | ⟨-, hplace⟩
    · rw [hplace]
      exact hb.ends
    · rw [hplace]
      exact ha.ends
  · rw [String.toList_append, List.mem_append, not_or]
    exact ⟨ha.feeds, hb.feeds⟩
  · rw [String.toList_append] at huses
    have hword := isSafeChar_of_mem_moduleNames hentry
    rcases uses_append hword ha.ends hapart huses with hfirst | hlast
    · exact ha.imported entry hentry hfirst
    · exact hb.imported entry hentry hlast

/-- A piece ahead of another one. -/
theorem Covered.ahead (ha : Covered stock a) (hends : endsLoose a = true) (hb : Covered stock b) :
    Covered stock (a ++ b) :=
  ha.append hb (apart_of_endsLoose hends)

/-- A piece behind another one. -/
theorem Covered.behind (ha : Covered stock a) (hb : Covered stock b)
    (hopens : opensLoose b = true) : Covered stock (a ++ b) :=
  ha.append hb (apart_of_opensLoose hopens)

example : Covered ["import math"] "math.sqrt(" ∧ ¬Covered [] "math.sqrt(" ∧
    Covered [] "a.math" := by
  decide

/-! ## Identifiers and numbers -/

/-- A text without quotes and marks of comments is code. -/
theorem read_plain {cs : List Char} (h : ∀ c ∈ cs, c ≠ '#' ∧ isQuote c = false) :
    Place.code.after cs = .code ∧ codeOf .code cs = cs := by
  induction cs with
  | nil => exact ⟨rfl, rfl⟩
  | cons c cs ih =>
    obtain ⟨⟨hmark, hquote⟩, hrest⟩ := List.forall_mem_cons.mp h
    obtain ⟨hplace, hcode⟩ := ih hrest
    have hnext : Place.next .code c = .code := by
      simp only [isQuote, Bool.or_eq_false_iff, decide_eq_false_iff_not] at hquote
      simp [Place.next, Place.start, hmark, hquote]
    exact ⟨by rw [Place.after_cons, hnext, hplace], by simp [codeOf, hnext, hcode, Place.isCode]⟩

/-- A word is not used where its first character does not occur. -/
theorem usesFrom_of_not_mem {word cs : List Char} {bound : Bool} (hword : word ≠ [])
    (h : ∀ c ∈ word.head?, c ∉ cs) : usesFrom word bound cs = false := by
  obtain ⟨d, rest, rfl⟩ := List.exists_cons_of_ne_nil hword
  have hd : d ∉ cs := h d rfl
  induction cs generalizing bound with
  | nil => rfl
  | cons c cs ih =>
    rw [List.mem_cons, not_or] at hd
    have hno : usesFrom (d :: rest) (isSafeChar c || c = '.') cs = false :=
      ih (fun e he => by cases he; exact hd.2) hd.2
    simp [usesFrom, startsWithWord, List.isPrefixOf, hd.1, hno]

/-- The rest of a word is no use of another one. -/
theorem usesFrom_of_safe {word cs : List Char} (h : ∀ c ∈ cs, isSafeChar c = true) :
    usesFrom word true cs = false := by
  induction cs with
  | nil => rfl
  | cons c cs ih =>
    obtain ⟨hc, hrest⟩ := List.forall_mem_cons.mp h
    simp [usesFrom, hc, ih hrest]

/-- An identifier uses no name but itself. -/
theorem covered_of_safe (h : ∀ c ∈ text.toList, isSafeChar c = true)
    (hno : ∀ entry ∈ moduleNames, entry.1 ≠ text) : Covered stock text := by
  have hplain : ∀ c ∈ text.toList, c ≠ '#' ∧ isQuote c = false := fun c hc =>
    forall_safeChar (p := fun c => c ≠ '#' ∧ isQuote c = false) (by decide) (h c hc)
  obtain ⟨hplace, hcode⟩ := read_plain hplain
  refine ⟨by rw [hplace]; rfl, fun hfeed => absurd (h _ hfeed) (by decide),
    fun entry hentry huses => ?_⟩
  rw [uses, hcode] at huses
  refine absurd ?_ (hno entry hentry)
  cases hchars : text.toList with
  | nil =>
    rw [hchars] at huses
    cases huses
  | cons c cs =>
    rw [hchars] at h huses
    obtain ⟨hc, hcs⟩ := List.forall_mem_cons.mp h
    rw [usesFrom, hc, Bool.true_or, usesFrom_of_safe hcs, Bool.or_false, Bool.and_eq_true,
      startsWithWord, Bool.and_eq_true, List.isPrefixOf_iff_prefix] at huses
    -- the word ends where it does not go on, so nothing of the identifier is left
    obtain ⟨-, ⟨rest, hrest⟩, hends⟩ := huses
    rw [← hrest, List.drop_left] at hends
    cases rest with
    | nil => rw [← String.toList_inj, hchars, ← hrest, List.append_nil]
    | cons d rest =>
      have hd := h d (hrest ▸ List.mem_append_right _ List.mem_cons_self)
      simp [hd] at hends

/-- The identifiers of a program use no name from a module. -/
theorem covered_of_fits {kind : NameKind} (h : dialect.policy.Fits kind text) :
    Covered stock text := by
  obtain ⟨c, cs, hchars, hc, -, hcs⟩ := h.identifier
  refine covered_of_safe (by rw [hchars]; exact List.forall_mem_cons.mpr ⟨hc, hcs⟩) ?_
  have hreserved : ∀ entry ∈ moduleNames, entry.1 ∈ dialect.policy.reserved := by decide
  rintro entry hentry rfl
  exact h.notReserved (hreserved entry hentry)

/-- Numbers use no name. -/
theorem covered_of_literalChars (h : ∀ c ∈ text.toList, c ∈ literalChars) : Covered stock text := by
  have hchecked : literalChars.all (fun c => c ≠ '\n' && c ≠ '#' && !isQuote c &&
      moduleNames.all fun entry => !entry.1.toList.head?.any (· = c)) = true := by decide
  have hall : ∀ c ∈ literalChars, c ≠ '\n' ∧ c ≠ '#' ∧ isQuote c = false ∧
      ∀ entry ∈ moduleNames, c ∉ entry.1.toList.head? := by
    intro c hc
    have hchecked := List.all_eq_true.mp hchecked c hc
    simp only [Bool.and_eq_true, decide_eq_true_eq, Bool.not_eq_true', List.all_eq_true,
      Option.any_eq_false] at hchecked
    obtain ⟨⟨⟨hfeed, hhash⟩, hquote⟩, hhead⟩ := hchecked
    exact ⟨hfeed, hhash, hquote, fun entry hentry hmem => by simpa using hhead entry hentry c hmem⟩
  obtain ⟨hplace, hcode⟩ := read_plain fun c hc => ⟨(hall c (h c hc)).2.1, (hall c (h c hc)).2.2.1⟩
  refine ⟨by rw [hplace]; rfl, fun hfeed => (hall _ (h _ hfeed)).1 rfl,
    fun entry hentry huses => ?_⟩
  rw [uses, hcode, usesFrom_of_not_mem (ne_nil_of_mem_moduleNames hentry) fun c hc hmem =>
    (hall c (h c hmem)).2.2.2 entry hentry hc] at huses
  cases huses

theorem covered_of_isLiteral (h : IsLiteral text) : Covered stock text := by
  refine covered_of_literalChars fun c hc => ?_
  rcases h with hnumeral | ⟨numeral, hchars, hnumeral⟩
  · exact hnumeral.mem_literalChars c hc
  · rw [hchars] at hc
    rcases List.mem_cons.mp hc with rfl | hc
    · decide
    · exact hnumeral.mem_literalChars c hc

/-! ## String literals -/

/-- Where the code has no words, no name is used. -/
theorem uses_of_no_word {cs : List Char} {entry : String × String} (hentry : entry ∈ moduleNames)
    (h : ∀ c ∈ codeOf .code cs, isSafeChar c = false) : uses entry.1 cs = false := by
  refine usesFrom_of_not_mem (ne_nil_of_mem_moduleNames hentry) fun c hc hmem => ?_
  have hsafe := isSafeChar_of_mem_moduleNames hentry c (List.mem_of_head? hc)
  rw [h c hmem] at hsafe
  cases hsafe

/-- Whether a reader is in a literal on one line, with no escape begun. -/
def Place.InLiteral (place : Place) (quote : Char) : Prop :=
  place = .opened quote ∨ place = .text quote

namespace Place.InLiteral

variable {place : Place} {quote c : Char}

theorem not_isCode (h : place.InLiteral quote) : place.isCode = false := by
  rcases h with rfl | rfl <;> rfl

theorem next_eq (h : place.InLiteral quote) (hc : c ≠ quote) : place.next c = inside quote c := by
  rcases h with rfl | rfl <;> simp [next, hc]

theorem next_slash (h : place.InLiteral quote) (hquote : quote ≠ '\\') :
    place.next '\\' = .escape quote := by
  rw [h.next_eq hquote.symm]
  simp [inside, hquote.symm]

theorem next_plain (h : place.InLiteral quote) (hc : c ≠ quote) (hslash : c ≠ '\\')
    (hcontrol : 0x20 ≤ c.toNat) : place.next c = .text quote := by
  have hbreak : isLineBreak c = false := by
    simp only [isLineBreak, Bool.or_eq_false_iff, decide_eq_false_iff_not]
    constructor <;> rintro rfl <;> exact absurd hcontrol (by decide)
  rw [h.next_eq hc]
  simp [inside, hc, hslash, hbreak]

/-- What can stand between two quotes stays in the literal. -/
theorem after_inside (h : place.InLiteral quote) (hquote : quote ≠ '\\') {cs : List Char}
    (hcs : Reading.inside lexis quote cs = true) :
    (place.after cs).InLiteral quote ∧ ∀ c ∈ codeOf place cs, c = ' ' := by
  induction cs using Reading.inside.induct generalizing place with
  | case1 => exact ⟨h, by simp [codeOf]⟩
  | case2 c =>
    simp only [Reading.inside, Bool.and_eq_true, decide_eq_true_eq] at hcs
    obtain ⟨⟨⟨hc, hslash⟩, hcontrol⟩, -⟩ := hcs
    exact ⟨.inr (h.next_plain hc hslash hcontrol), by simp [codeOf, h.not_isCode]⟩
  | case3 d cs ih =>
    simp only [Reading.inside, if_true, Bool.and_eq_true] at hcs
    have hslash := h.next_slash hquote
    obtain ⟨hplace, hcode⟩ := ih (.inr rfl : (text quote).InLiteral quote) hcs.2
    rw [after_cons, hslash]
    refine ⟨hplace, ?_⟩
    have hno : (escape quote).isCode = false := rfl
    have hnext : (escape quote).next d = .text quote := rfl
    simpa only [codeOf, h.not_isCode, hslash, hno, hnext, Bool.false_and, Bool.false_eq_true,
      if_false, List.forall_mem_cons, true_and] using hcode
  | case4 c d cs hslash ih =>
    simp only [Reading.inside, hslash, if_false, Bool.and_eq_true, decide_eq_true_eq] at hcs
    obtain ⟨⟨⟨hc, hcontrol⟩, -⟩, hrest⟩ := hcs
    have hplain := h.next_plain hc hslash hcontrol
    obtain ⟨hplace, hcode⟩ := ih (.inr rfl : (text quote).InLiteral quote) hrest
    rw [after_cons, hplain]
    refine ⟨hplace, ?_⟩
    simpa only [codeOf, h.not_isCode, hplain, Bool.false_and, Bool.false_eq_true, if_false,
      List.forall_mem_cons, true_and] using hcode

end Place.InLiteral

/-- String literals use no name. -/
theorem covered_quote (content : String) : Covered stock (quote content) := by
  obtain ⟨q, cs, hq, hquote, hinside⟩ := exists_inside_quote content
  have hslash : q ≠ '\\' := by rcases hq with rfl | rfl <;> decide
  have hopened : Place.next .code q = .opened q := by rcases hq with rfl | rfl <;> rfl
  have hliteral : (Place.opened q).InLiteral q := .inl rfl
  obtain ⟨hplace, hcode⟩ := hliteral.after_inside hslash hinside
  have hchars : (quote content).toList = q :: (cs ++ [q]) := by rw [hquote, String.toList_ofList]
  have hblank : ∀ c ∈ codeOf .code (quote content).toList, c = ' ' := by
    have hno : (Place.opened q).isCode = false := rfl
    simp only [hchars, codeOf, hopened, codeOf_append, hno, hplace.not_isCode, Bool.and_false,
      Bool.false_and, Bool.false_eq_true, if_false, List.forall_mem_cons, List.forall_mem_append]
    exact ⟨trivial, hcode, trivial, by simp⟩
  refine ⟨?_, fun hfeed => ?_, fun entry hentry huses => ?_⟩
  · rw [hchars, Place.after_cons, hopened, Place.after_append]
    rcases hplace with hplace | hplace <;> simp [hplace, Place.next, Place.inside, Place.isCode]
  · have hplain := isPlain_of_mem_quote .python content '\n' hfeed
    exact absurd hplain (by decide)
  · rw [uses_of_no_word hentry fun c hc => by rw [hblank c hc]; rfl] at huses
    cases huses

end BlockScript.Python
