import BlockScript.Proofs.Reading.Phrase

/-!
# Templates

The text of an expression is put together from fixed pieces and the texts of
operands. A template matches a phrase if its fixed pieces are the tokens of the
phrase around the holes. That can be computed, and then the filled template
reads as the filled phrase.

A text that calls a word which is a keyword does not read as an expression at
all. `Reads` says so too: it relates a text to a tree whose called words are
allowed, and tells which token is in the way if they are not.

Results:

* `reads_of_matches`: a template that matches a phrase reads as that phrase.
* `Reads.parse_eq`: the tree of a text that reads as an expression.
-/

namespace BlockScript.Reading

/-! ## Texts that read as expressions -/

/-- Whether a character cannot be taken for the rest of an operator before it, or for
    indentation. -/
def isOpening (c : Char) : Bool :=
  c ≠ '=' && c ≠ '>' && c ≠ ' '

/-- Whether a text reads as an expression of the levels with a certain tree, if
    all words called in it are allowed. -/
structure Reads (g : Grammar) (allowed : String → Bool) (levels : List Level) (code : String)
    (tree : Expr) : Prop where
  opens : ∃ c cs, code.toList = c :: cs ∧ isOpening c = true
  reads : ∃ tokens, g.lexis.Spells IsCloser code.toList tokens ∧
    (tree.calls allowed = true →
      ∃ parsed, Derives g (.within levels) tokens parsed ∧ Regrouped tree parsed) ∧
    (tree.calls allowed = false → ∃ word, allowed word = false ∧ .mark word ∈ tokens)

variable {g : Grammar} {allowed : String → Bool} {levels looser : List Level} {code : String}
  {tree : Expr}

theorem Reads.ne_empty (h : Reads g allowed levels code tree) : code ≠ "" := by
  rintro rfl
  obtain ⟨c, cs, hcode, -⟩ := h.opens
  simp at hcode

theorem Reads.weaken (h : Reads g allowed levels code tree) (hsuffix : levels <:+ looser) :
    Reads g allowed looser code tree := by
  obtain ⟨tokens, hspells, hallowed, hrefused⟩ := h.reads
  refine ⟨h.opens, tokens, hspells, fun hcalls => ?_, hrefused⟩
  obtain ⟨parsed, hparsed, hregrouped⟩ := hallowed hcalls
  exact ⟨parsed, hparsed.weaken hsuffix, hregrouped⟩

/-- The tree of a text that reads as an expression. -/
theorem Reads.parse_eq (hg : g.Proper) (h : Reads g allowed g.levels code tree)
    (hcalls : tree.calls allowed = true) :
    ∃ parsed, g.parse code = some parsed ∧ Regrouped tree parsed ∧ parsed.chainFree = true := by
  obtain ⟨tokens, hspells, hallowed, -⟩ := h.reads
  obtain ⟨parsed, hparsed, hregrouped⟩ := hallowed hcalls
  exact ⟨parsed, hparsed.parse_eq hg (Lexis.lex_of_spells hspells), hregrouped, hparsed.chainFree⟩

/-! ## Templates -/

/-- A piece of a template: a fixed text, or a hole. -/
inductive Part where
  | text (fixed : String)
  | hole (i : Nat)

/-- The characters of a piece whose hole is filled. -/
def Part.chars (texts : Nat → String) : Part → List Char
  | .text fixed => fixed.toList
  | .hole i => (texts i).toList

/-- The holes of a template. -/
def partHoles : List Part → List Nat
  | [] => []
  | .text _ :: parts => partHoles parts
  | .hole i :: parts => i :: partHoles parts

/-- Whether no operand goes on into what follows it. -/
def closes : List Part → Bool
  | [] => true
  | .text fixed :: _ => fixed.toList.head?.any fun c => decide (IsCloser c)
  | .hole _ :: _ => false

/-- The tokens and holes of a template. Fixed texts and holes take turns. -/
def partSlots (lexis : Lexis) : List Part → Option (List Phrase.Slot)
  | [] => some []
  | [.text fixed] => (lexis.cut fixed.toList).map fun piece => piece.1.map .token
  | .text fixed :: .hole i :: parts => do
    let (tokens, free) ← lexis.cut fixed.toList
    let slots ← partSlots lexis parts
    if free && closes parts then return tokens.map .token ++ .hole i :: slots else none
  | .hole i :: parts => do
    let slots ← partSlots lexis parts
    if closes parts then return .hole i :: slots else none
  | .text _ :: .text _ :: _ => none

theorem exists_cons_of_closes {parts : List Part} (h : closes parts = true) (hne : parts ≠ [])
    (texts : Nat → String) :
    ∃ c cs, parts.flatMap (Part.chars texts) = c :: cs ∧ IsCloser c := by
  cases parts with
  | nil => exact absurd rfl hne
  | cons part parts =>
    cases part with
    | hole i => simp [closes] at h
    | text fixed =>
      cases htext : fixed.toList with
      | nil => simp [closes, htext] at h
      | cons c cs =>
        have hc : IsCloser c := by simpa [closes, htext] using h
        exact ⟨c, cs ++ parts.flatMap (Part.chars texts), by simp [Part.chars, htext], hc⟩

/-- An operand with the rest of the template after it. -/
theorem spells_append_parts {lexis : Lexis} {parts : List Part} {slots : List Phrase.Slot}
    {texts : Nat → String} {tokens : Nat → List Token} {cs : List Char} {ts : List Token}
    (h : lexis.Spells IsCloser cs ts) (hslots : partSlots lexis parts = some slots)
    (hcloses : closes parts = true)
    (hrest : lexis.Spells IsCloser (parts.flatMap (Part.chars texts)) (Phrase.fill tokens slots)) :
    lexis.Spells IsCloser (cs ++ parts.flatMap (Part.chars texts))
      (ts ++ Phrase.fill tokens slots) := by
  by_cases hne : parts = []
  · subst hne
    cases hslots
    simpa using h
  · obtain ⟨c, ds, hparts, hc⟩ := exists_cons_of_closes hcloses hne texts
    rw [hparts] at hrest ⊢
    exact h.append hrest hc

/-- The tokens of a filled template. -/
theorem spells_parts {lexis : Lexis} {parts : List Part} {slots : List Phrase.Slot}
    {texts : Nat → String} {tokens : Nat → List Token} (hslots : partSlots lexis parts = some slots)
    (h : ∀ i ∈ partHoles parts, lexis.Spells IsCloser (texts i).toList (tokens i) ∧
      (texts i).toList ≠ []) :
    lexis.Spells IsCloser (parts.flatMap (Part.chars texts)) (Phrase.fill tokens slots) := by
  induction parts using partSlots.induct generalizing slots with
  | case1 =>
    cases hslots
    exact ⟨[], .blank, [], rfl, rfl, rfl, fun c _ => Lexis.endsAt_of_isOpen rfl c⟩
  | case2 fixed =>
    cases hcut : lexis.cut fixed.toList with
    | none => simp [partSlots, hcut] at hslots
    | some piece =>
      obtain ⟨ts, free⟩ := piece
      simp only [partSlots, hcut, Option.map_some, Option.some.injEq] at hslots
      subst hslots
      simpa [Part.chars] using Lexis.spells_of_cut hcut
  | case3 fixed i parts ih =>
    cases hcut : lexis.cut fixed.toList with
    | none => simp [partSlots, hcut] at hslots
    | some piece =>
      obtain ⟨ts, free⟩ := piece
      cases hrest : partSlots lexis parts with
      | none => simp [partSlots, hcut, hrest] at hslots
      | some rest =>
        simp only [partSlots, hcut, hrest, Option.bind_eq_bind, Option.bind_some, Bool.and_eq_true,
          Option.ite_none_right_eq_some] at hslots
        obtain ⟨⟨rfl, hcloses⟩, hslots⟩ := hslots
        cases hslots
        obtain ⟨hhole, hne⟩ := h i (by simp [partHoles])
        have hlater := ih hrest fun j hj => h j (by simp [partHoles, hj])
        have htail := spells_append_parts hhole hrest hcloses hlater
        obtain ⟨c, cs, htext⟩ := List.exists_cons_of_ne_nil hne
        rw [htext, List.cons_append] at htail
        have := (Lexis.spells_of_cut_open hcut).append htail trivial
        simpa [Part.chars, htext] using this
  | case4 i parts ih =>
    cases hrest : partSlots lexis parts with
    | none => simp [partSlots, hrest] at hslots
    | some rest =>
      simp only [partSlots, hrest, Option.bind_eq_bind, Option.bind_some,
        Option.ite_none_right_eq_some] at hslots
      obtain ⟨hcloses, hslots⟩ := hslots
      cases hslots
      obtain ⟨hhole, -⟩ := h i (by simp [partHoles])
      have hlater := ih hrest fun j hj => h j (by simp [partHoles, hj])
      simpa [Part.chars] using spells_append_parts hhole hrest hcloses hlater
  | case5 => cases hslots

/-- Whether a template cannot be taken for the rest of an operator before it. -/
def opensParts : List Part → Bool
  | .text fixed :: _ => fixed.toList.head?.any isOpening
  | .hole _ :: _ => true
  | [] => false

/-- Whether a template with so many holes is the text of a phrase that fits at the
    levels. -/
def matchesPhrase (g : Grammar) (allowed : String → Bool) (levels : List Level) (count : Nat)
    (positions : Nat → List Level) (parts : List Part) (phrase : Phrase) : Bool :=
  partSlots g.lexis parts = some (phrase.slots g) && phrase.fits g positions levels &&
    phrase.called.all allowed && phrase.holes.all (· < count) && (partHoles parts).all (· < count) &&
    opensParts parts

theorem opens_of_opensParts {parts : List Part} {texts : Nat → String}
    (h : opensParts parts = true)
    (htexts : ∀ i ∈ partHoles parts, ∃ c cs, (texts i).toList = c :: cs ∧ isOpening c = true) :
    ∃ c cs, parts.flatMap (Part.chars texts) = c :: cs ∧ isOpening c = true := by
  cases parts with
  | nil => cases h
  | cons part parts =>
    cases part with
    | text fixed =>
      cases hfixed : fixed.toList with
      | nil => simp [opensParts, hfixed] at h
      | cons c cs => exact ⟨c, _, by simp [Part.chars, hfixed]; rfl, by simpa [opensParts, hfixed] using h⟩
    | hole i =>
      obtain ⟨c, cs, htext, hc⟩ := htexts i (by simp [partHoles])
      exact ⟨c, _, by simp [Part.chars, htext]; rfl, hc⟩

theorem mem_fill_of_mem {i : Nat} {phrase : Phrase} {tokens : Nat → List Token} {t : Token}
    (hi : i ∈ phrase.holes) (ht : t ∈ tokens i) : t ∈ Phrase.fill tokens (phrase.slots g) :=
  List.mem_flatMap.mpr ⟨_, Phrase.mem_slots_of_mem_holes g phrase hi, ht⟩

/-- A template that matches a phrase reads as that phrase. -/
theorem reads_of_matches {count : Nat} {positions : Nat → List Level} {parts : List Part}
    {phrase : Phrase} {texts : Nat → String} {trees : Nat → Expr}
    (hmatches : matchesPhrase g allowed levels count positions parts phrase = true)
    (hcode : code.toList = parts.flatMap (Part.chars texts))
    (h : ∀ i < count, Reads g allowed (positions i) (texts i) (trees i)) :
    Reads g allowed levels code (phrase.tree trees) := by
  simp only [matchesPhrase, Bool.and_eq_true, decide_eq_true_eq, List.all_eq_true] at hmatches
  obtain ⟨⟨⟨⟨⟨hslots, hfits⟩, hcalled⟩, hholes⟩, hparts⟩, hopens⟩ := hmatches
  -- the tokens and trees of the operands
  have hoperands : ∀ i, ∃ ts parsed, i < count → g.lexis.Spells IsCloser (texts i).toList ts ∧
      ((trees i).calls allowed = true →
        Derives g (.within (positions i)) ts parsed ∧ Regrouped (trees i) parsed) ∧
      ((trees i).calls allowed = false → ∃ word, allowed word = false ∧ .mark word ∈ ts) := by
    intro i
    by_cases hi : i < count
    · obtain ⟨ts, hspells, hallowed, hrefused⟩ := (h i hi).reads
      cases hcalls : (trees i).calls allowed with
      | true =>
        obtain ⟨parsed, hparsed⟩ := hallowed hcalls
        exact ⟨ts, parsed, fun _ => ⟨hspells, fun _ => hparsed, fun hfalse => by cases hfalse⟩⟩
      | false =>
        exact ⟨ts, .emptyList, fun _ => ⟨hspells, fun htrue => (by cases htrue), fun _ => hrefused hcalls⟩⟩
    · exact ⟨[], .emptyList, fun hlt => absurd hlt hi⟩
  choose tokens parsed hoperand using hoperands
  refine ⟨?_, Phrase.fill tokens (phrase.slots g), ?_, fun hcalls => ?_, fun hcalls => ?_⟩
  · rw [hcode]
    exact opens_of_opensParts hopens fun i hi => (h i (by simpa using hparts i hi)).opens
  · rw [hcode]
    refine spells_parts hslots fun i hi => ?_
    have hlt : i < count := by simpa using hparts i hi
    obtain ⟨c, cs, htext, -⟩ := (h i hlt).opens
    exact ⟨(hoperand i hlt).1, by simp [htext]⟩
  · obtain ⟨-, hall⟩ := (Phrase.calls_tree_iff phrase).mp hcalls
    have hfilled : Phrase.Filled g positions tokens trees parsed phrase.holes := fun i hi =>
      (hoperand i (by simpa using hholes i hi)).2.1 (hall i hi)
    exact Phrase.derives phrase hfits hfilled
  · have hnot : ¬(phrase.tree trees).calls allowed = true := by simp [hcalls]
    rw [Phrase.calls_tree_iff] at hnot
    obtain ⟨i, hi, hfalse⟩ : ∃ i ∈ phrase.holes, (trees i).calls allowed = false := by
      by_contra hnone
      refine hnot ⟨hcalled, fun i hi => ?_⟩
      by_contra htrue
      exact hnone ⟨i, hi, by simpa using htrue⟩
    obtain ⟨word, hword, hmem⟩ := (hoperand i (by simpa using hholes i hi)).2.2 hfalse
    exact ⟨word, hword, mem_fill_of_mem hi hmem⟩

end BlockScript.Reading
