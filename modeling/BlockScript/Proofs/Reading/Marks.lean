import BlockScript.Proofs.Reading.Template

/-!
# What a parser takes

A parser takes tokens from the start, and of the signs and keywords only those
that are part of its grammar. A text with any other keyword is no expression.

The parser is a fixed point, so what holds of its results is shown for all of
its approximations at once.

Results:

* `parseAt_takes`: what the parser of a level takes.
* `Grammar.marks_of_parse`: an expression has the signs of its grammar only.
* `Grammar.parse_eq_none`: a text with any other sign is no expression.
-/

namespace BlockScript.Reading

/-- The signs and keywords that a token list has. -/
def marksOf (tokens : List Token) : List String :=
  tokens.filterMap fun
    | .mark sign => some sign
    | _ => none

/-- The signs and keywords of a grammar. -/
def Grammar.marks (g : Grammar) : List String :=
  ["(", ")", ",", "."] ++
    g.levels.flatMap (fun level => level.signs ++ level.middles ++ level.aheadSigns) ++
    marksOf g.emptyList

/-- Whether some tokens are left once others, of the grammar, are taken from the
    start. -/
def Takes (g : Grammar) (tokens rest : List Token) : Prop :=
  ∃ taken, tokens = taken ++ rest ∧ ∀ sign, .mark sign ∈ taken → sign ∈ g.marks

variable {g : Grammar} {tokens rest rest' : List Token} {level : Level} {sign : String}

namespace Takes

theorem refl (tokens : List Token) : Takes g tokens tokens :=
  ⟨[], rfl, by simp⟩

theorem trans (h : Takes g tokens rest) (h' : Takes g rest rest') : Takes g tokens rest' := by
  obtain ⟨first, rfl, hfirst⟩ := h
  obtain ⟨second, rfl, hsecond⟩ := h'
  refine ⟨first ++ second, by simp, fun sign hsign => ?_⟩
  rcases List.mem_append.mp hsign with hmem | hmem
  · exact hfirst sign hmem
  · exact hsecond sign hmem

theorem mark (h : sign ∈ g.marks) : Takes g (.mark sign :: rest) rest :=
  ⟨[.mark sign], rfl, fun other hother => by simp_all⟩

theorem other {token : Token} (h : ∀ sign, token ≠ .mark sign) : Takes g (token :: rest) rest :=
  ⟨[token], rfl, fun sign hsign => absurd (List.mem_singleton.mp hsign).symm (h sign)⟩

theorem name (word : String) : Takes g (.name word :: rest) rest :=
  other fun _ => by simp

/-- A sign of the grammar that was next. -/
theorem next {signs : List String} (h : nextSign signs tokens = some (sign, rest))
    (hsigns : signs ⊆ g.marks) : Takes g tokens rest := by
  unfold nextSign at h
  split at h
  · next other others =>
    split at h
    · next hmem =>
      cases h
      exact mark (hsigns hmem)
    · cases h
  · cases h

end Takes

/-! ## The signs of a grammar -/

theorem mem_marks_of_delimiter (h : sign ∈ ["(", ")", ",", "."]) : sign ∈ g.marks := by
  simp only [Grammar.marks, List.append_assoc]
  exact List.mem_append_left _ h

theorem takes_opening : Takes g (.mark "(" :: rest) rest :=
  .mark (mem_marks_of_delimiter (by simp))

theorem takes_closing : Takes g (.mark ")" :: rest) rest :=
  .mark (mem_marks_of_delimiter (by simp))

theorem delimiters_subset {signs : List String} (h : signs ⊆ ["(", ")", ",", "."]) :
    signs ⊆ g.marks :=
  fun _ hsign => mem_marks_of_delimiter (h hsign)

theorem mem_marks_of_level (hlevel : level ∈ g.levels)
    (h : sign ∈ level.signs ++ level.middles ++ level.aheadSigns) : sign ∈ g.marks := by
  refine List.mem_append_left _ (List.mem_append_right _ ?_)
  exact List.mem_flatMap.mpr ⟨level, hlevel, h⟩

theorem signs_subset (hlevel : level ∈ g.levels) : level.signs ⊆ g.marks :=
  fun _ hsign => mem_marks_of_level hlevel (by simp [hsign])

theorem middles_subset (hlevel : level ∈ g.levels) : level.middles ⊆ g.marks :=
  fun _ hsign => mem_marks_of_level hlevel (by simp [hsign])

theorem aheadSigns_subset (hlevel : level ∈ g.levels) : level.aheadSigns ⊆ g.marks :=
  fun _ hsign => mem_marks_of_level hlevel (by simp [hsign])

theorem takes_nextAhead {signs : List String} {casts : Bool} (hsigns : signs ⊆ g.marks)
    (h : nextAhead g signs casts tokens = some (sign, rest)) : Takes g tokens rest := by
  unfold nextAhead at h
  rcases Option.or_eq_some_iff.mp h with hnext | ⟨-, hcast⟩
  · exact .next hnext hsigns
  · split at hcast
    · unfold nextCast at hcast
      split at hcast
      · split at hcast
        · next hparens =>
          obtain ⟨rfl, rfl, -⟩ := hparens
          cases hcast
          exact takes_opening.trans ((Takes.name _).trans takes_closing)
        · cases hcast
      · cases hcast
    · cases hcast

theorem takes_emptyList (h : g.emptyList.isPrefixOf tokens = true) :
    Takes g tokens (tokens.drop g.emptyList.length) := by
  obtain ⟨rest, rfl⟩ := List.isPrefixOf_iff_prefix.mp h
  refine ⟨g.emptyList, by simp, fun sign hsign => List.mem_append_right _ ?_⟩
  exact List.mem_filterMap.mpr ⟨_, hsign, rfl⟩

/-! ## The parser -/

/-- Whether a task with signs and levels of the grammar takes tokens with its signs
    only. -/
def Task.Takes (g : Grammar) : (task : Task) → task.Result → Prop
  | .level levels tokens, r => levels ⊆ g.levels → Reading.Takes g tokens r.2
  | .suffixes _ tokens, r => Reading.Takes g tokens r.2
  | .args tokens, r => Reading.Takes g tokens r.2
  | .run signs tighter _ tokens, r | .chain signs tighter _ tokens, r =>
    signs ⊆ g.marks → tighter ⊆ g.levels → Reading.Takes g tokens r.2

section Steps

variable {solve : PartialFunction Task.Result} {tighter : List Level} {signs : List String}
  {r : Expr × List Token} (hsolve : ∀ task r, solve task = some r → task.Takes g r)
include hsolve

/-- An operand is a single token, or the empty list, or stands in parentheses. -/
theorem takes_primary (h : parseStep g solve (.level [] tokens) = some r) :
    Takes g tokens r.2 := by
  simp only [parseStep] at h
  unfold stepAt at h
  dsimp only at h
  split at h
  · cases h
    exact .other fun _ => by simp
  · cases h
    exact .other fun _ => by simp
  · split at h
    · cases h
    · exact (Takes.name _).trans (hsolve (.suffixes _ _) _ h)
  · split at h
    · next hlist =>
      cases h
      exact takes_emptyList hlist
    · split at h
      · next hsign =>
        subst hsign
        simp only [Option.bind_eq_bind, Option.bind_eq_some_iff, Prod.exists] at h
        obtain ⟨inner, rest, hinner, sign, rest', hnext, hafter⟩ := h
        have hin : Takes g _ rest := hsolve (.level _ _) _ hinner (List.Subset.refl _)
        have hclose : Takes g rest rest' := .next hnext (delimiters_subset (by simp))
        exact takes_opening.trans (hin.trans (hclose.trans (hsolve (.suffixes _ _) _ hafter)))
      · cases h
  · cases h

/-- Operators of one level, in turn. -/
theorem takes_leftward (hlevels : level :: tighter ⊆ g.levels)
    (hshape : level.shape = .leftward signs)
    (h : parseStep g solve (.level (level :: tighter) tokens) = some r) : Takes g tokens r.2 := by
  obtain ⟨hlevel, htighter⟩ := List.cons_subset.mp hlevels
  have hsigns : signs ⊆ g.marks := by simpa only [Level.signs, hshape] using signs_subset hlevel
  simp only [parseStep, stepAt, hshape, Option.bind_eq_bind, Option.bind_eq_some_iff,
    Prod.exists] at h
  obtain ⟨first, rest, hfirst, hrest⟩ := h
  have hstart : Takes g tokens rest := hsolve (.level _ _) _ hfirst htighter
  exact hstart.trans (hsolve (.run _ _ _ _) _ hrest hsigns htighter)

/-- A single operator between operands. -/
theorem takes_single (hlevels : level :: tighter ⊆ g.levels)
    (hshape : level.shape = .single signs)
    (h : parseStep g solve (.level (level :: tighter) tokens) = some r) : Takes g tokens r.2 := by
  obtain ⟨hlevel, htighter⟩ := List.cons_subset.mp hlevels
  have hsigns : signs ⊆ g.marks := by simpa only [Level.signs, hshape] using signs_subset hlevel
  simp only [parseStep, stepAt, hshape, Option.bind_eq_bind, Option.bind_eq_some_iff,
    Prod.exists] at h
  obtain ⟨left, rest, hleft, hrest⟩ := h
  have hstart : Takes g tokens rest := hsolve (.level _ _) _ hleft htighter
  split at hrest
  · cases hrest
    exact hstart
  · next sign rest' hnext =>
    simp only [Option.bind_eq_some_iff, Prod.exists] at hrest
    obtain ⟨right, last, hright, hlast⟩ := hrest
    cases hlast
    have hend : Takes g rest' last := hsolve (.level _ _) _ hright htighter
    exact hstart.trans ((Takes.next hnext hsigns).trans hend)

/-- Comparisons, in a chain. -/
theorem takes_chained (hlevels : level :: tighter ⊆ g.levels)
    (hshape : level.shape = .chained signs)
    (h : parseStep g solve (.level (level :: tighter) tokens) = some r) : Takes g tokens r.2 := by
  obtain ⟨hlevel, htighter⟩ := List.cons_subset.mp hlevels
  have hsigns : signs ⊆ g.marks := by simpa only [Level.signs, hshape] using signs_subset hlevel
  simp only [parseStep, stepAt, hshape, Option.bind_eq_bind, Option.bind_eq_some_iff,
    Prod.exists] at h
  obtain ⟨left, rest, hleft, hrest⟩ := h
  have hstart : Takes g tokens rest := hsolve (.level _ _) _ hleft htighter
  split at hrest
  · cases hrest
    exact hstart
  · next sign rest' hnext =>
    simp only [Option.bind_eq_some_iff, Prod.exists] at hrest
    obtain ⟨right, last, hright, hlast⟩ := hrest
    have hsecond : Takes g rest' last := hsolve (.level _ _) _ hright htighter
    have hend := hsolve (.chain _ _ _ _) _ hlast hsigns htighter
    exact hstart.trans ((Takes.next hnext hsigns).trans (hsecond.trans hend))

/-- An operator or a cast ahead of its operand. -/
theorem takes_ahead {casts : Bool} (hlevels : level :: tighter ⊆ g.levels)
    (hshape : level.shape = .ahead signs casts)
    (h : parseStep g solve (.level (level :: tighter) tokens) = some r) : Takes g tokens r.2 := by
  obtain ⟨hlevel, htighter⟩ := List.cons_subset.mp hlevels
  have hsigns : signs ⊆ g.marks := by
    simpa only [Level.aheadSigns, hshape] using aheadSigns_subset hlevel
  simp only [parseStep, stepAt, hshape] at h
  split at h
  · exact hsolve (.level _ _) _ h htighter
  · next sign rest hnext =>
    simp only [Option.bind_eq_bind, Option.bind_eq_some_iff, Prod.exists] at h
    obtain ⟨operand, last, hoperand, hlast⟩ := h
    cases hlast
    have hend : Takes g rest last := hsolve (.level _ _) _ hoperand hlevels
    exact (takes_nextAhead hsigns hnext).trans hend

/-- A power. -/
theorem takes_power {right : Tier} (hlevels : level :: tighter ⊆ g.levels)
    (hshape : level.shape = .power sign right)
    (h : parseStep g solve (.level (level :: tighter) tokens) = some r) : Takes g tokens r.2 := by
  obtain ⟨hlevel, htighter⟩ := List.cons_subset.mp hlevels
  have hsigns : [sign] ⊆ g.marks := by simpa only [Level.signs, hshape] using signs_subset hlevel
  simp only [parseStep, stepAt, hshape, Option.bind_eq_bind, Option.bind_eq_some_iff,
    Prod.exists] at h
  obtain ⟨base, rest, hbase, hrest⟩ := h
  have hstart : Takes g tokens rest := hsolve (.level _ _) _ hbase htighter
  split at hrest
  · cases hrest
    exact hstart
  · next sign' rest' hnext =>
    simp only [Option.bind_eq_some_iff, Prod.exists] at hrest
    obtain ⟨exponent, last, hexponent, hlast⟩ := hrest
    cases hlast
    have hend : Takes g rest' last :=
      hsolve (.level _ _) _ hexponent (List.dropWhile_suffix _).subset
    exact hstart.trans ((Takes.next hnext hsigns).trans hend)

/-- A choice with its condition in the middle. -/
theorem takes_conditional (hlevels : level :: tighter ⊆ g.levels)
    (hshape : level.shape = .conditional)
    (h : parseStep g solve (.level (level :: tighter) tokens) = some r) : Takes g tokens r.2 := by
  obtain ⟨hlevel, htighter⟩ := List.cons_subset.mp hlevels
  have hsigns : ["if"] ⊆ g.marks := by simpa only [Level.signs, hshape] using signs_subset hlevel
  have hmiddles : ["else"] ⊆ g.marks := by
    simpa only [Level.middles, hshape] using middles_subset hlevel
  simp only [parseStep, stepAt, hshape, Option.bind_eq_bind, Option.bind_eq_some_iff,
    Prod.exists] at h
  obtain ⟨first, rest, hfirst, hrest⟩ := h
  have hstart : Takes g tokens rest := hsolve (.level _ _) _ hfirst htighter
  split at hrest
  · cases hrest
    exact hstart
  · next sign rest' hnext =>
    simp only [Option.bind_eq_some_iff, Prod.exists] at hrest
    obtain ⟨condition, rest₁, hcondition, sign₁, rest₂, hnext₁, last, rest₃, hlast, hdone⟩ := hrest
    cases hdone
    have hmiddle : Takes g rest' rest₁ := hsolve (.level _ _) _ hcondition htighter
    have hend : Takes g rest₂ rest₃ := hsolve (.level _ _) _ hlast hlevels
    refine hstart.trans ((Takes.next hnext hsigns).trans ?_)
    exact hmiddle.trans ((Takes.next hnext₁ hmiddles).trans hend)

/-- A choice with its condition ahead. -/
theorem takes_choice (hlevels : level :: tighter ⊆ g.levels) (hshape : level.shape = .choice)
    (h : parseStep g solve (.level (level :: tighter) tokens) = some r) : Takes g tokens r.2 := by
  obtain ⟨hlevel, htighter⟩ := List.cons_subset.mp hlevels
  have hsigns : ["?"] ⊆ g.marks := by simpa only [Level.signs, hshape] using signs_subset hlevel
  have hmiddles : [":"] ⊆ g.marks := by
    simpa only [Level.middles, hshape] using middles_subset hlevel
  simp only [parseStep, stepAt, hshape, Option.bind_eq_bind, Option.bind_eq_some_iff,
    Prod.exists] at h
  obtain ⟨condition, rest, hcondition, hrest⟩ := h
  have hstart : Takes g tokens rest := hsolve (.level _ _) _ hcondition htighter
  split at hrest
  · cases hrest
    exact hstart
  · next sign rest' hnext =>
    simp only [Option.bind_eq_some_iff, Prod.exists] at hrest
    obtain ⟨first, rest₁, hfirst, sign₁, rest₂, hnext₁, last, rest₃, hlast, hdone⟩ := hrest
    cases hdone
    have hmiddle : Takes g rest' rest₁ := hsolve (.level _ _) _ hfirst htighter
    have hend : Takes g rest₂ rest₃ := hsolve (.level _ _) _ hlast htighter
    refine hstart.trans ((Takes.next hnext hsigns).trans ?_)
    exact hmiddle.trans ((Takes.next hnext₁ hmiddles).trans hend)

/-- An expression of some levels. -/
theorem takes_level {levels : List Level} (hlevels : levels ⊆ g.levels)
    (h : parseStep g solve (.level levels tokens) = some r) : Takes g tokens r.2 := by
  cases levels with
  | nil => exact takes_primary hsolve h
  | cons level tighter =>
    cases hshape : level.shape with
    | leftward signs => exact takes_leftward hsolve hlevels hshape h
    | single signs => exact takes_single hsolve hlevels hshape h
    | chained signs => exact takes_chained hsolve hlevels hshape h
    | ahead signs casts => exact takes_ahead hsolve hlevels hshape h
    | power sign right => exact takes_power hsolve hlevels hshape h
    | conditional => exact takes_conditional hsolve hlevels hshape h
    | choice => exact takes_choice hsolve hlevels hshape h

/-- Calls and members after an expression. -/
theorem takes_suffixes {owner : Expr} (h : parseStep g solve (.suffixes owner tokens) = some r) :
    Takes g tokens r.2 := by
  simp only [parseStep] at h
  unfold stepSuffixes at h
  split at h
  · cases h
    exact .refl tokens
  · next sign rest hnext =>
    refine (Takes.next hnext (delimiters_subset (by simp))).trans ?_
    split at h
    · split at h
      · next sign' rest' hclose =>
        have hafter := hsolve (.suffixes _ _) _ h
        exact (Takes.next hclose (delimiters_subset (by simp))).trans hafter
      · simp only [Option.bind_eq_bind, Option.bind_eq_some_iff, Prod.exists] at h
        obtain ⟨first, rest₁, hfirst, others, rest₂, hothers, hrest⟩ := h
        have hstart : Takes g rest rest₁ := hsolve (.level _ _) _ hfirst (List.Subset.refl _)
        have hmiddle : Takes g rest₁ rest₂ := hsolve (.args _) _ hothers
        exact hstart.trans (hmiddle.trans (hsolve (.suffixes _ _) _ hrest))
    · split at h
      · split at h
        · exact (Takes.name _).trans (hsolve (.suffixes _ _) _ h)
        · cases h
      · cases h

/-- The arguments after the first. -/
theorem takes_args {r : List Expr × List Token} (h : parseStep g solve (.args tokens) = some r) :
    Takes g tokens r.2 := by
  simp only [parseStep] at h
  unfold stepArgs at h
  split at h
  · cases h
  · next sign rest hnext =>
    refine (Takes.next hnext (delimiters_subset (by simp))).trans ?_
    split at h
    · cases h
      exact .refl rest
    · simp only [Option.bind_eq_bind, Option.bind_eq_some_iff, Prod.exists] at h
      obtain ⟨arg, rest₁, harg, args, rest₂, hothers, hdone⟩ := h
      cases hdone
      have hstart : Takes g rest rest₁ := hsolve (.level _ _) _ harg (List.Subset.refl _)
      have hend : Takes g rest₁ rest₂ := hsolve (.args _) _ hothers
      exact hstart.trans hend

/-- Further operators of a level. -/
theorem takes_run {left : Expr} (hsigns : signs ⊆ g.marks) (htighter : tighter ⊆ g.levels)
    (h : parseStep g solve (.run signs tighter left tokens) = some r) : Takes g tokens r.2 := by
  simp only [parseStep] at h
  unfold stepRun at h
  split at h
  · cases h
    exact .refl tokens
  · next sign rest hnext =>
    simp only [Option.bind_eq_bind, Option.bind_eq_some_iff, Prod.exists] at h
    obtain ⟨right, rest', hright, hrest⟩ := h
    have hstart : Takes g rest rest' := hsolve (.level _ _) _ hright htighter
    have hend := hsolve (.run _ _ _ _) _ hrest hsigns htighter
    exact (Takes.next hnext hsigns).trans (hstart.trans hend)

/-- Further comparisons. -/
theorem takes_chain {first : Expr} (hsigns : signs ⊆ g.marks) (htighter : tighter ⊆ g.levels)
    (h : parseStep g solve (.chain signs tighter first tokens) = some r) : Takes g tokens r.2 := by
  simp only [parseStep] at h
  unfold stepChain at h
  split at h
  · cases h
    exact .refl tokens
  · next sign rest hnext =>
    simp only [Option.bind_eq_bind, Option.bind_eq_some_iff, Prod.exists] at h
    obtain ⟨right, rest', hright, hrest⟩ := h
    have hstart : Takes g rest rest' := hsolve (.level _ _) _ hright htighter
    have hend := hsolve (.chain _ _ _ _) _ hrest hsigns htighter
    exact (Takes.next hnext hsigns).trans (hstart.trans hend)

end Steps

/-- What the parser takes: signs of the grammar, and what its parts take. -/
theorem parser_takes (g : Grammar) {task : Task} {r : task.Result}
    (h : least (parseStep g) task = some r) : task.Takes g r := by
  refine least_induct (fun solve hsolve task r h => ?_) h
  cases task with
  | level levels tokens => exact fun hlevels => takes_level hsolve hlevels h
  | suffixes owner tokens => exact takes_suffixes hsolve h
  | args tokens => exact takes_args hsolve h
  | run signs tighter left tokens => exact fun hsigns htighter => takes_run hsolve hsigns htighter h
  | chain signs tighter first tokens =>
    exact fun hsigns htighter => takes_chain hsolve hsigns htighter h

/-- What the parser of a level takes. -/
theorem parseAt_takes {levels : List Level} {r : Expr × List Token}
    (h : parseAt g levels tokens = some r) (hlevels : levels ⊆ g.levels) : Takes g tokens r.2 :=
  parser_takes g h hlevels

/-- The tokens of an expression have the signs of its grammar only. -/
theorem Derives.mem_marks {tree : Expr} (hg : g.Proper)
    (h : Derives g (.within g.levels) tokens tree) (hsign : .mark sign ∈ tokens) :
    sign ∈ g.marks := by
  have hparse := h.parseAt_eq hg (List.suffix_refl _) (stops_nil g.levels)
  obtain ⟨taken, htokens, hmarks⟩ := parseAt_takes hparse (List.Subset.refl _)
  rw [List.append_nil, List.append_nil] at htokens
  exact hmarks sign (htokens ▸ hsign)

/-- An expression has the signs of its grammar only. -/
theorem Grammar.marks_of_parse {text : String} {e : Expr} (h : g.parse text = some e) :
    ∃ tokens, g.lexis.lex text = some tokens ∧ ∀ sign, .mark sign ∈ tokens → sign ∈ g.marks := by
  unfold Grammar.parse at h
  simp only [Option.bind_eq_bind, Option.bind_eq_some_iff, Prod.exists] at h
  obtain ⟨tokens, hlex, tree, rest, hparse, hend⟩ := h
  obtain ⟨taken, htokens, hmarks⟩ := parseAt_takes hparse (List.Subset.refl _)
  split at hend
  · next hrest =>
    subst hrest
    rw [List.append_nil] at htokens
    exact ⟨tokens, hlex, htokens ▸ hmarks⟩
  · cases hend

/-- A text with a sign that is not in the grammar is no expression. -/
theorem Grammar.parse_eq_none {text : String} (hlex : g.lexis.lex text = some tokens)
    (hmem : .mark sign ∈ tokens) (hsign : sign ∉ g.marks) : g.parse text = none := by
  cases hparse : g.parse text with
  | none => rfl
  | some e =>
    obtain ⟨tokens', hlex', hmarks⟩ := Grammar.marks_of_parse hparse
    rw [hlex] at hlex'
    cases hlex'
    exact absurd (hmarks sign hmem) hsign

/-- A text that calls a keyword is no expression. -/
theorem Reads.parse_eq_none {allowed : String → Bool} {levels : List Level} {code : String}
    {tree : Expr} (hmarks : ∀ sign ∈ g.marks, allowed sign = true)
    (h : Reads g allowed levels code tree) (hcalls : tree.calls allowed = false) :
    g.parse code = none := by
  obtain ⟨tokens, hspells, -, hrefused⟩ := h.reads
  obtain ⟨word, hword, hmem⟩ := hrefused hcalls
  refine Grammar.parse_eq_none (Lexis.lex_of_spells hspells) hmem fun hsign => ?_
  rw [hmarks word hsign] at hword
  cases hword

end BlockScript.Reading
