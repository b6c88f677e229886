import BlockScript.Proofs.Reading.Forms

/-!
# Texts of statements

Statements are put together from keywords, names and the texts of expressions. What is
needed of these is which tokens they have and, of expressions, which tree.

Results:

* `Reads.exists_isExpression`: a text that reads as an expression is one if any word can
  be called.
* `spells_of_parts`: a text that is put together from fixed texts and others.
* `isExpression_call`: calls are expressions.
* `spells_nameTokens`: names with commas between them.
-/

namespace BlockScript.Reading

open BlockScript.Text

variable {g : Grammar} {lexis : Lexis} {code : String} {tokens : List Token} {tree : Expr}

/-! ## Expressions -/

/-- Whether a text is an expression with a tree. -/
def IsExpression (g : Grammar) (code : String) (tree : Expr) : Prop :=
  ∃ tokens, g.lexis.Spells IsCloser code.toList tokens ∧ code.toList ≠ [] ∧
    Derives g (.within g.levels) tokens tree

theorem Reads.exists_isExpression {allowed : String → Bool} {levels : List Level}
    (hall : ∀ word, allowed word = true) (hlevels : levels <:+ g.levels)
    (h : Reads g allowed levels code tree) :
    ∃ parsed, Regrouped tree parsed ∧ IsExpression g code parsed := by
  obtain ⟨tokens, hspells, hallowed, -⟩ := h.reads
  obtain ⟨parsed, hderives, hregrouped⟩ := hallowed (Expr.calls_of_forall hall tree)
  have hne : code.toList ≠ [] := fun hnil => h.ne_empty (String.toList_eq_nil_iff.mp hnil)
  exact ⟨parsed, hregrouped, tokens, hspells, hne, hderives.weaken hlevels⟩

/-! ## Templates -/

/-- The tokens of a text that is put together from fixed texts and others. -/
theorem spells_of_parts {parts : List Part} {slots : List Phrase.Slot} (texts : Nat → String)
    (operands : Nat → List Token) (hslots : partSlots lexis parts = some slots)
    (hcode : code.toList = parts.flatMap (Part.chars texts))
    (h : ∀ i ∈ partHoles parts, lexis.Spells IsCloser (texts i).toList (operands i) ∧
      (texts i).toList ≠ []) :
    lexis.Spells IsCloser code.toList (Phrase.fill operands slots) := by
  rw [hcode]
  exact spells_parts hslots h

/-- The tokens of a text between fixed ones. -/
theorem spells_around {before after : String} {first last : List Token}
    (hslots : partSlots lexis [.text before, .hole 0, .text after] =
      some (first.map .token ++ .hole 0 :: last.map .token))
    (hspells : lexis.Spells IsCloser code.toList tokens) (hne : code.toList ≠ []) :
    lexis.Spells IsCloser (before ++ code ++ after).toList (first ++ tokens ++ last) := by
  have hparts := spells_of_parts (fun _ => code) (fun _ => tokens) hslots
    (show (before ++ code ++ after).toList = _ by simp [Part.chars]) fun _ _ => ⟨hspells, hne⟩
  simpa [Phrase.fill, Phrase.Slot.tokens, List.flatMap_map] using hparts

/-- The tokens of a text after a fixed one. -/
theorem spells_after {before : String} {first : List Token}
    (hslots : partSlots lexis [.text before, .hole 0] = some (first.map .token ++ [.hole 0]))
    (hspells : lexis.Spells IsCloser code.toList tokens) (hne : code.toList ≠ []) :
    lexis.Spells IsCloser (before ++ code).toList (first ++ tokens) := by
  have hparts := spells_of_parts (fun _ => code) (fun _ => tokens) hslots
    (show (before ++ code).toList = _ by simp [Part.chars]) fun _ _ => ⟨hspells, hne⟩
  simpa [Phrase.fill, Phrase.Slot.tokens, List.flatMap_map] using hparts

/-! ## Names, calls and integers -/

theorem isExpression_name {name : String}
    (hcut : g.lexis.cut name.toList = some ([.name name], false))
    (hcast : g.isCast name = false) (hne : name.toList ≠ []) : IsExpression g name (.name name) :=
  ⟨[.name name], Lexis.spells_of_cut hcut, hne,
    (Derives.owner (.name hcast)).weaken List.nil_suffix⟩

/-- A call of a word, with its arguments. -/
theorem exists_spells_call (hcalls : g.ReadsCalls) {name : String} {codes : List String}
    {trees : List Expr} (hname : g.lexis.cut name.toList = some ([.name name], false))
    (h : List.Forall₂ (IsExpression g) codes trees) :
    ∃ args : List (List Token × Expr), args.map Prod.snd = trees ∧
      g.lexis.Spells IsCloser (name ++ "(" ++ joinWith ", " codes ++ ")").toList
        (.name name :: argTokens (args.map Prod.fst)) ∧
      Derives g (.within g.levels) (.name name :: argTokens (args.map Prod.fst))
        (.call (.name name) trees) := by
  have hargs : ∃ args : List (List Token × Expr), args.map Prod.snd = trees ∧
      AllSpell g codes (args.map Prod.fst) ∧
      ∀ arg ∈ args, Derives g (.within g.levels) arg.1 arg.2 := by
    induction h with
    | nil => exact ⟨[], rfl, .nil, by simp⟩
    | cons hfirst _ ih =>
      obtain ⟨tokens, hspells, hne, hderives⟩ := hfirst
      obtain ⟨args, rfl, hcodes, hall⟩ := ih
      refine ⟨(tokens, _) :: args, rfl, .cons ⟨hspells, ?_⟩ hcodes, ?_⟩
      · exact fun hempty => hne (by rw [hempty]; rfl)
      · exact List.forall_mem_cons.mpr ⟨hderives, hall⟩
  obtain ⟨args, rfl, hcodes, hall⟩ := hargs
  have hspells := (Lexis.spells_of_cut hname).append (spells_args hcalls hcodes) (by decide)
  refine ⟨args, rfl, ?_, (Derives.callName name args hall).owner.weaken List.nil_suffix⟩
  simpa using hspells

/-- Calls are expressions. -/
theorem isExpression_call (hcalls : g.ReadsCalls) {name : String} {codes : List String}
    {trees : List Expr} (hname : g.lexis.cut name.toList = some ([.name name], false))
    (h : List.Forall₂ (IsExpression g) codes trees) :
    IsExpression g (name ++ "(" ++ joinWith ", " codes ++ ")") (.call (.name name) trees) := by
  obtain ⟨args, -, hspells, hderives⟩ := exists_spells_call hcalls hname h
  exact ⟨_, hspells, by simp, hderives⟩

/-- An integer. -/
theorem isExpression_toString {tier : Tier} (hminus : g.ReadsMinus tier) (n : Int) :
    ∃ tree, IsExpression g (toString n) tree := by
  have hall : ∀ word : String, (fun _ : String => true) word = true := fun _ => rfl
  rcases Number.isLiteral_toString n with hliteral | ⟨digits, hlist, hliteral⟩
  · have hreads : Reads g (fun _ => true) [] (toString n) (.number (toString n)) :=
      reads_numeral hliteral
    obtain ⟨parsed, -, hparsed⟩ := hreads.exists_isExpression hall List.nil_suffix
    exact ⟨parsed, hparsed⟩
  · have hcode : toString n = "-" ++ String.ofList digits := by
      rw [← String.toList_inj, hlist]
      simp
    have hdigits : Reads g (fun _ => true) (g.position tier false)
        (String.ofList digits) (.number (String.ofList digits)) :=
      reads_numeral (by simpa using hliteral)
    have hsign : (String.ofList digits).toList.head? ≠ some '-' := by
      obtain ⟨c, cs, -, rfl, hdigit, -⟩ := hliteral
      rintro hhead
      obtain rfl : c = '-' := by simpa using hhead
      cases hdigit
    have hreads := hdigits.minus hminus hsign
    obtain ⟨parsed, -, hparsed⟩ := hreads.exists_isExpression hall (List.dropWhile_suffix _)
    exact ⟨parsed, hcode ▸ hparsed⟩

/-! ## Names with commas between them -/

/-- The tokens of names with commas between them. -/
def nameTokens : List String → List Token
  | [] => []
  | [name] => [.name name]
  | name :: names => .name name :: .mark "," :: nameTokens names

theorem spells_nameTokens {names : List String} (hcalls : g.ReadsCalls) (h : names ≠ [])
    (hnames : ∀ name ∈ names, g.lexis.cut name.toList = some ([.name name], false) ∧
      name.toList ≠ []) :
    g.lexis.Spells IsCloser (joinWith ", " names).toList (nameTokens names) ∧
      (joinWith ", " names).toList ≠ [] := by
  induction names with
  | nil => exact absurd rfl h
  | cons name names ih =>
    obtain ⟨hcut, hname⟩ := hnames name (by simp)
    cases names with
    | nil => exact ⟨Lexis.spells_of_cut hcut, hname⟩
    | cons next rest =>
      obtain ⟨hrest, hne⟩ := ih (by simp) fun other hother => hnames other (by simp [hother])
      have hjoin : joinWith ", " (name :: next :: rest) =
          name ++ ", " ++ joinWith ", " (next :: rest) := rfl
      obtain ⟨c, cs, hcode⟩ := List.exists_cons_of_ne_nil hne
      rw [hcode] at hrest
      have htail := (Lexis.spells_of_cut_open hcalls.comma).append hrest trivial
      have hwhole := (Lexis.spells_of_cut hcut).append htail (by decide)
      rw [hjoin, String.toList_append, String.toList_append, hcode]
      exact ⟨by simpa [nameTokens] using hwhole, by simp⟩

/-- The tokens of the header of a function, from the keyword to what comes after the
    parameters. -/
theorem spells_function {before after name : String} {first last : List Token}
    {params : List String} (hcalls : g.ReadsCalls)
    (hnone : partSlots g.lexis [.text before, .hole 0, .text ("(" ++ after)] =
      some (first.map .token ++ .hole 0 :: (.mark "(" :: last).map .token))
    (hsome : partSlots g.lexis [.text before, .hole 0, .text "(", .hole 1, .text after] =
      some (first.map .token ++ .hole 0 :: .token (.mark "(") :: .hole 1 :: last.map .token))
    (hname : g.lexis.cut name.toList = some ([.name name], false) ∧ name.toList ≠ [])
    (hparams : ∀ param ∈ params, g.lexis.cut param.toList = some ([.name param], false) ∧
      param.toList ≠ []) :
    g.lexis.Spells IsCloser (before ++ name ++ "(" ++ joinWith ", " params ++ after).toList
      (first ++ .name name :: .mark "(" :: (nameTokens params ++ last)) := by
  have hfirst := Lexis.spells_of_cut hname.1
  by_cases hempty : params = []
  · subst hempty
    have hwhole := spells_around hnone hfirst hname.2
    have htext : before ++ name ++ "(" ++ joinWith ", " [] ++ after =
        before ++ name ++ ("(" ++ after) := by
      simp [joinWith, String.append_assoc]
    rw [htext]
    simpa [nameTokens] using hwhole
  · obtain ⟨hnames, hne⟩ := spells_nameTokens hcalls hempty hparams
    have hwhole := spells_of_parts
      (fun i => if i = 0 then name else joinWith ", " params)
      (fun i => if i = 0 then [.name name] else nameTokens params) hsome
      (show (before ++ name ++ "(" ++ joinWith ", " params ++ after).toList = _ by
        simp [Part.chars]) fun i hi => by
        have hcases : i = 0 ∨ i = 1 := by simpa [partHoles] using hi
        rcases hcases with rfl | rfl
        · exact ⟨hfirst, hname.2⟩
        · exact ⟨hnames, hne⟩
    simpa [Phrase.fill, Phrase.Slot.tokens, List.flatMap_map] using hwhole

end BlockScript.Reading
