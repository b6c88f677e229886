import BlockScript.Proofs.Number.Numeral
import BlockScript.Proofs.Reading.Position
import BlockScript.Proofs.Reading.Words

/-!
# Signs and calls

Two forms of expressions that no template covers. A sign right ahead of its
operand is a token of its own only if it makes no longer sign with what the
operand starts with. A call has any number of arguments, and its callee is a
word of the program, which may turn out to be a keyword.

Results:

* `Fills.negated`: a negated operand, kept apart from a second minus sign.
* `reads_call`: a call of a word of the program.
-/

namespace BlockScript.Reading

open BlockScript.Number BlockScript.Text

variable {g : Grammar} {allowed : String → Bool} {tier : Tier} {levels inner : List Level}
  {code : String} {tree : Expr}

/-! ## Signs ahead of an operand -/

/-- The characters that make a longer sign with a first one. -/
def Lexis.followers (lexis : Lexis) (first : Char) : List Char :=
  lexis.signs.filterMap fun
    | c :: d :: _ => if c = first then some d else none
    | _ => none

theorem startsSign_eq_false {lexis : Lexis} {first c : Char} (h : c ∉ lexis.followers first) :
    lexis.startsSign [first, c] = false := by
  rw [Lexis.startsSign, List.any_eq_false]
  intro sign hsign hstarts
  refine h (List.mem_filterMap.mpr ⟨sign, hsign, ?_⟩)
  obtain ⟨rest, rfl⟩ := List.isPrefixOf_iff_prefix.mp hstarts
  simp

/-- A sign goes with whatever makes no longer sign with it. -/
theorem spells_sign {lexis : Lexis} {first : Char} {tokens : List Token}
    (hstart : lexis.start first = some (.sign [first]))
    (hfinish : lexis.finish (.sign [first]) = some tokens) (hpoint : first ≠ '.') :
    lexis.Spells (fun c => c ∉ lexis.followers first) [first] tokens := by
  refine ⟨[], .sign [first], tokens, ?_, hfinish, rfl, fun c hc => ⟨?_, rfl⟩⟩
  · simp [Lexis.run_cons, Lexis.step, Lexis.absorb, Lexis.clings, Lexis.finish, hstart]
  · simp [Lexis.absorb, startsSign_eq_false hc, hpoint]

/-- An operator ahead of an operand that it does not cling to. -/
theorem Reads.unary {sign head : String} {follow : Char → Prop}
    (hfits : (Phrase.unary sign (.hole 0)).fits g (fun _ => inner) levels = true)
    (hopens : ∃ c cs, head.toList = c :: cs ∧ isOpening c = true)
    (hspells : g.lexis.Spells follow head.toList [.mark sign])
    (h : Reads g allowed inner code tree)
    (hfollow : ∀ c cs, code.toList = c :: cs → isOpening c = true → follow c) :
    Reads g allowed levels (head ++ code) (.unary sign tree) := by
  obtain ⟨c, cs, hcode, hc⟩ := h.opens
  obtain ⟨tokens, htokens, hallowed, hrefused⟩ := h.reads
  refine ⟨?_, .mark sign :: tokens, ?_, fun hcalls => ?_, fun hcalls => ?_⟩
  · obtain ⟨d, ds, hhead, hd⟩ := hopens
    exact ⟨d, ds ++ code.toList, by simp [hhead], hd⟩
  · rw [hcode] at htokens
    rw [String.toList_append, hcode]
    exact hspells.append htokens (hfollow c cs hcode hc)
  · obtain ⟨parsed, hparsed, hregrouped⟩ := hallowed hcalls
    have hfilled : Phrase.Filled g (fun _ => inner) (fun _ => tokens) (fun _ => tree)
        (fun _ => parsed) (Phrase.unary sign (.hole 0)).holes := fun _ _ => ⟨hparsed, hregrouped⟩
    simpa [Phrase.Denotes, Phrase.slots, Phrase.tree] using Phrase.derives _ hfits hfilled
  · obtain ⟨word, hword, hmem⟩ := hrefused hcalls
    exact ⟨word, hword, List.mem_cons_of_mem _ hmem⟩

/-! ## Negations -/

/-- Whether the minus sign ahead of an operand is a negation of a tier. -/
structure Grammar.ReadsMinus (g : Grammar) (tier : Tier) : Prop where
  start : g.lexis.start '-' = some (.sign ['-'])
  finish : g.lexis.finish (.sign ['-']) = some [.mark "-"]
  followers : (g.lexis.followers '-').all (fun c => !isOpening c || c == '-') = true
  spaced : g.lexis.cut ['-', ' '] = some ([.mark "-"], true)
  fits : (Phrase.unary "-" (.hole 0)).fits g (fun _ => g.position tier false) (g.upTo tier) = true

/-- A minus sign ahead of an operand that does not start with another one. -/
theorem Reads.minus (hminus : g.ReadsMinus tier)
    (h : Reads g allowed (g.position tier false) code tree) (hcode : code.toList.head? ≠ some '-') :
    Reads g allowed (g.upTo tier) ("-" ++ code) (.unary "-" tree) := by
  refine h.unary hminus.fits ⟨'-', [], rfl, by decide⟩
    (spells_sign hminus.start hminus.finish (by decide)) fun c cs hlist hopens hmem => ?_
  have hother := List.all_eq_true.mp hminus.followers c hmem
  simp [hopens] at hother
  simp [hlist, hother] at hcode

/-- A negated operand, kept apart from a second minus sign. -/
theorem Fills.negated (hminus : g.ReadsMinus tier)
    (h : Fills g allowed tier false code tree) :
    Renders g allowed ("-" ++ if code.toList.head? = some '-' then " " ++ code else code) tier
      (.unary "-" tree) := by
  refine ⟨?_, fun hzero => by cases hzero⟩
  split
  · rw [← String.append_assoc]
    exact h.reads.unary hminus.fits ⟨'-', [' '], rfl, by decide⟩
      (Lexis.spells_of_cut_open hminus.spaced) fun _ _ _ _ => trivial
  · next hcode => exact h.reads.minus hminus hcode

/-! ## Atoms -/

theorem isOpening_of_isSafeChar {c : Char} (h : isSafeChar c = true) : isOpening c = true := by
  have heq : c ≠ '=' := by
    rintro rfl
    exact absurd h (by decide)
  have hgt : c ≠ '>' := by
    rintro rfl
    exact absurd h (by decide)
  have hspace : c ≠ ' ' := by
    rintro rfl
    exact absurd h (by decide)
  simp [isOpening, heq, hgt, hspace]

/-- A text that is one token and an atom. -/
theorem reads_atom {token : Token} {free : Bool}
    (hopens : ∃ c cs, code.toList = c :: cs ∧ isOpening c = true)
    (hcut : g.lexis.cut code.toList = some ([token], free))
    (hderives : Derives g (.within []) [token] tree) (hcalls : tree.calls allowed = true) :
    Reads g allowed levels code tree :=
  ⟨hopens, [token], Lexis.spells_of_cut hcut,
    fun _ => ⟨tree, hderives.weaken List.nil_suffix, .refl _⟩,
    fun hno => by rw [hcalls] at hno; cases hno⟩

/-- A word alone. -/
theorem reads_name {free : Bool} (hopens : ∃ c cs, code.toList = c :: cs ∧ isOpening c = true)
    (hcut : g.lexis.cut code.toList = some ([.name code], free)) (hcast : g.isCast code = false) :
    Reads g allowed levels code (.name code) :=
  reads_atom hopens hcut (Derives.name hcast).owner rfl

theorem opens_identifier (h : IsIdentifier code) :
    ∃ c cs, code.toList = c :: cs ∧ isOpening c = true := by
  obtain ⟨c, cs, hlist, hc, -⟩ := h
  exact ⟨c, cs, hlist, isOpening_of_isSafeChar hc⟩

theorem reads_numeral (h : Numeral code.toList) : Reads g allowed levels code (.number code) := by
  have hcut := h.cut_eq g.lexis
  rw [String.ofList_toList] at hcut
  refine reads_atom ?_ hcut (.number code) rfl
  obtain ⟨c, cs, -, hlist, hdigit, -⟩ := h
  exact ⟨c, cs, hlist, isOpening_of_isSafeChar (isSafeChar_of_isDigit hdigit)⟩

/-! ## Calls -/

/-- Whether a word is one token: a name if it is allowed, and else a keyword. -/
structure Grammar.Callable (g : Grammar) (allowed : String → Bool) (word : String) : Prop where
  opens : ∃ c cs, word.toList = c :: cs ∧ isOpening c = true
  name (h : allowed word = true) : g.lexis.cut word.toList = some ([.name word], false)
  mark (h : allowed word = false) : g.lexis.cut word.toList = some ([.mark word], false)

/-- Whether a grammar has the delimiters of calls. -/
structure Grammar.ReadsCalls (g : Grammar) : Prop where
  opening : g.lexis.cut ['('] = some ([.mark "("], true)
  comma : g.lexis.cut [',', ' '] = some ([.mark ","], true)
  closing : g.lexis.cut [')'] = some ([.mark ")"], true)

/-- The characters of the arguments after the first, with the closing
    parenthesis. -/
def otherChars : List String → List Char
  | [] => [')']
  | arg :: args => ',' :: ' ' :: (arg.toList ++ otherChars args)

theorem toList_joinWith (arg : String) (args : List String) :
    (joinWith ", " (arg :: args)).toList ++ [')'] = arg.toList ++ otherChars args := by
  induction args generalizing arg with
  | nil => rfl
  | cons next args ih =>
    have hjoin : joinWith ", " (arg :: next :: args) =
        arg ++ ", " ++ joinWith ", " (next :: args) := rfl
    rw [hjoin, String.toList_append, String.toList_append, List.append_assoc, ih]
    simp [otherChars]

/-- An argument and the tokens after it, up to the closing parenthesis. -/
theorem spells_append_others {cs ds : List Char} {ts us : List Token}
    (h : g.lexis.Spells IsCloser cs ts) (hrest : g.lexis.Spells IsCloser ds us)
    (hcloser : ∃ c rest, ds = c :: rest ∧ IsCloser c) :
    g.lexis.Spells IsCloser (cs ++ ds) (ts ++ us) := by
  obtain ⟨c, rest, rfl, hc⟩ := hcloser
  exact h.append hrest hc

theorem otherChars_eq_cons (args : List String) :
    ∃ c rest, otherChars args = c :: rest ∧ IsCloser c := by
  cases args with
  | nil => exact ⟨')', [], rfl, by decide⟩
  | cons arg args => exact ⟨',', _, rfl, by decide⟩

/-- Whether texts are cut into tokens, one list for each of them. -/
def AllSpell (g : Grammar) : List String → List (List Token) → Prop :=
  List.Forall₂ fun code tokens => g.lexis.Spells IsCloser code.toList tokens ∧ code ≠ ""

theorem spells_otherChars (hg : g.ReadsCalls) {codes : List String} {tokens : List (List Token)}
    (h : AllSpell g codes tokens) :
    g.lexis.Spells IsCloser (otherChars codes) (otherTokens tokens) := by
  induction h with
  | nil => exact (Lexis.spells_of_cut_open hg.closing).mono fun _ _ => trivial
  | @cons code ts codes tokens hfirst _ ih =>
    have hrest := spells_append_others hfirst.1 ih (otherChars_eq_cons codes)
    obtain ⟨c, cs, hcode⟩ := List.exists_cons_of_ne_nil fun hnil =>
      hfirst.2 (String.toList_eq_nil_iff.mp hnil)
    rw [hcode, List.cons_append] at hrest
    have := (Lexis.spells_of_cut_open hg.comma).append hrest trivial
    simpa [otherChars, otherTokens, hcode] using this

/-- The arguments of a call, each with its tokens and what is parsed of them. -/
theorem exists_args {codes : List String} {trees : List Expr}
    (h : List.Forall₂ (Reads g allowed g.levels) codes trees) :
    ∃ tokens, AllSpell g codes tokens ∧
      (Expr.callsList allowed trees = true → ∃ args : List (List Token × Expr),
        args.map Prod.fst = tokens ∧ (∀ arg ∈ args, Derives g (.within g.levels) arg.1 arg.2) ∧
          List.Forall₂ Regrouped trees (args.map Prod.snd)) ∧
      (Expr.callsList allowed trees = false → ∃ word, allowed word = false ∧
        .mark word ∈ otherTokens tokens) := by
  induction h with
  | nil => exact ⟨[], .nil, fun _ => ⟨[], rfl, by simp, .nil⟩, fun hno => by cases hno⟩
  | @cons code tree codes trees hfirst _ ih =>
    obtain ⟨tokens, hspells, hallowed, hrefused⟩ := ih
    obtain ⟨first, hfirstSpells, hfirstAllowed, hfirstRefused⟩ := hfirst.reads
    refine ⟨first :: tokens, .cons ⟨hfirstSpells, hfirst.ne_empty⟩ hspells, fun hcalls => ?_,
      fun hcalls => ?_⟩
    · rw [Expr.callsList, Bool.and_eq_true] at hcalls
      obtain ⟨parsed, hparsed, hregrouped⟩ := hfirstAllowed hcalls.1
      obtain ⟨args, rfl, hargs, hrest⟩ := hallowed hcalls.2
      refine ⟨(first, parsed) :: args, rfl, fun arg harg => ?_, .cons hregrouped hrest⟩
      rcases List.mem_cons.mp harg with rfl | harg
      · exact hparsed
      · exact hargs arg harg
    · rw [Expr.callsList, Bool.and_eq_false_iff] at hcalls
      rcases hcalls with hcalls | hcalls
      · obtain ⟨word, hword, hmem⟩ := hfirstRefused hcalls
        exact ⟨word, hword, by simp [otherTokens, hmem]⟩
      · obtain ⟨word, hword, hmem⟩ := hrefused hcalls
        exact ⟨word, hword, by simp [otherTokens, hmem]⟩

/-- The tokens of arguments between parentheses. -/
theorem spells_args (hg : g.ReadsCalls) {codes : List String} {tokens : List (List Token)}
    (h : AllSpell g codes tokens) :
    g.lexis.Spells IsCloser ('(' :: ((joinWith ", " codes).toList ++ [')'])) (argTokens tokens) := by
  have hopening := Lexis.spells_of_cut_open hg.opening
  cases h with
  | nil =>
    have hclosing := Lexis.spells_of_cut_open hg.closing
    exact hopening.append (hclosing.mono fun _ _ => trivial) trivial
  | @cons code ts codes tokens hfirst hothers =>
    rw [toList_joinWith]
    have hrest := spells_append_others hfirst.1 (spells_otherChars hg hothers)
      (otherChars_eq_cons codes)
    obtain ⟨c, cs, hcode⟩ := List.exists_cons_of_ne_nil fun hnil =>
      hfirst.2 (String.toList_eq_nil_iff.mp hnil)
    rw [hcode, List.cons_append] at hrest ⊢
    exact hopening.append hrest trivial

theorem mem_argTokens {tokens : List (List Token)} {t : Token} (h : t ∈ otherTokens tokens)
    (hcomma : t ≠ .mark ",") : t ∈ argTokens tokens := by
  cases tokens with
  | nil => simp_all [otherTokens, argTokens]
  | cons first others => simp_all [otherTokens, argTokens]

/-- A call of a word of the program. -/
theorem reads_call (hg : g.ReadsCalls) (hcomma : allowed "," = true) {word : String}
    (hword : g.Callable allowed word) {codes : List String} {trees : List Expr}
    (h : List.Forall₂ (Reads g allowed g.levels) codes trees) :
    Reads g allowed levels (word ++ "(" ++ joinWith ", " codes ++ ")")
      (.call (.name word) trees) := by
  obtain ⟨tokens, hspells, hallowed, hrefused⟩ := exists_args h
  have hcode : (word ++ "(" ++ joinWith ", " codes ++ ")").toList =
      word.toList ++ '(' :: ((joinWith ", " codes).toList ++ [')']) := by
    simp
  have hopens : ∃ c cs, (word ++ "(" ++ joinWith ", " codes ++ ")").toList = c :: cs ∧
      isOpening c = true := by
    obtain ⟨c, cs, hlist, hc⟩ := hword.opens
    exact ⟨c, _, by rw [hcode, hlist]; rfl, hc⟩
  have hargs := spells_args hg hspells
  cases hcalls : allowed word with
  | false =>
    refine ⟨hopens, .mark word :: argTokens tokens, ?_, fun hall => ?_, fun _ => ⟨word, hcalls, by simp⟩⟩
    · rw [hcode]
      exact (Lexis.spells_of_cut (hword.mark hcalls)).append hargs (by decide)
    · simp [Expr.calls, hcalls] at hall
  | true =>
    refine ⟨hopens, .name word :: argTokens tokens, ?_, fun hall => ?_, fun hno => ?_⟩
    · rw [hcode]
      exact (Lexis.spells_of_cut (hword.name hcalls)).append hargs (by decide)
    · simp only [Expr.calls, hcalls, Bool.true_and] at hall
      obtain ⟨args, rfl, hderives, hregrouped⟩ := hallowed hall
      refine ⟨_, ?_, (Regrouped.refl (.name word)).call hregrouped⟩
      exact (Derives.callName word args hderives).owner.weaken List.nil_suffix
    · simp only [Expr.calls, hcalls, Bool.true_and] at hno
      obtain ⟨refused, hrefusedWord, hmem⟩ := hrefused hno
      refine ⟨refused, hrefusedWord, List.mem_cons_of_mem _ (mem_argTokens hmem ?_)⟩
      rintro heq
      cases heq
      rw [hcomma] at hrefusedWord
      cases hrefusedWord

end BlockScript.Reading
