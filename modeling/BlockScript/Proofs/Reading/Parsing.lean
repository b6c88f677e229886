import BlockScript.Proofs.Reading.Derivation

/-!
# Parsing derived expressions

In a proper grammar, where every sign tells its level, the parser finds the tree
of every derivation, whatever follows that cannot go on with the expression. An
operand at the start of a longer expression is parsed first, so the theorem says
how the parser goes on after it: `resume` are the steps that are left.

Results:

* `Derives.parseAt_eq`: the parser finds what a derivation derives.
* `Derives.parse_eq`: the tree of a whole text.
-/

namespace BlockScript.Reading

/-! ## Proper grammars -/

/-- Whether the signs of a level are told from those of the tighter ones. -/
def Level.isProper (g : Grammar) (level : Level) (tighter : List Level) : Bool :=
  ((level.signs ++ level.middles).all fun sign =>
    !(["(", "."].contains sign) && tighter.all fun other => !other.signs.contains sign) &&
  (level.aheadSigns.all fun sign => !(["(", ")"].contains sign) &&
    g.emptyList.head? ≠ some (.mark sign) &&
    tighter.all fun other => !other.aheadSigns.contains sign) &&
  (!level.hasCasts || tighter.all fun other => !other.hasCasts) &&
  match level.shape with
  | .power _ right => (g.upTo right).all fun other =>
    other.signs.isEmpty || (level :: tighter).contains other
  | _ => true

/-- Whether every one of the levels is proper. -/
def properLevels (g : Grammar) : List Level → Bool
  | [] => true
  | level :: tighter => level.isProper g tighter && properLevels g tighter

/-- Whether every sign of a grammar tells its place. -/
structure Grammar.Proper (g : Grammar) : Prop where
  levels : properLevels g g.levels = true
  closers : ∀ level ∈ g.levels, ∀ sign ∈ [")", ","], sign ∉ level.signs
  emptyList : ∃ sign rest, g.emptyList = .mark sign :: rest ∧ sign ∉ ["(", ")"]

variable {g : Grammar} {level : Level} {tighter levels : List Level} {place : Place}
  {ts rest : List Token} {e : Expr}

theorem isProper_of_properLevels (h : properLevels g levels = true)
    (hsuffix : level :: tighter <:+ levels) : level.isProper g tighter = true := by
  obtain ⟨looser, rfl⟩ := hsuffix
  induction looser with
  | nil => simp_all [properLevels]
  | cons first looser ih =>
    simp only [List.cons_append, properLevels, Bool.and_eq_true] at h
    exact ih h.2

namespace Grammar.Proper

theorem isProper (hg : g.Proper) (hsuffix : level :: tighter <:+ g.levels) :
    level.isProper g tighter = true :=
  isProper_of_properLevels hg.levels hsuffix

end Grammar.Proper

/-! ## What can follow -/

/-- Whether what follows cannot go on with an expression of the levels. -/
def Stops (levels : List Level) (rest : List Token) : Prop :=
  nextSign ["(", "."] rest = none ∧ ∀ level ∈ levels, nextSign level.signs rest = none

instance (levels : List Level) (rest : List Token) : Decidable (Stops levels rest) :=
  inferInstanceAs (Decidable (_ ∧ _))

theorem nextSign_cons_of_mem {signs : List String} {sign : String} (h : sign ∈ signs) :
    nextSign signs (.mark sign :: rest) = some (sign, rest) := by
  simp [nextSign, h]

theorem nextSign_cons_of_notMem {signs : List String} {sign : String} (h : sign ∉ signs) :
    nextSign signs (.mark sign :: rest) = none := by
  simp [nextSign, h]

theorem Stops.tail (h : Stops (level :: tighter) rest) : Stops tighter rest :=
  ⟨h.1, fun other hother => h.2 other (by simp [hother])⟩

theorem Stops.head (h : Stops (level :: tighter) rest) : nextSign level.signs rest = none :=
  h.2 level (by simp)

theorem stops_nil (levels : List Level) : Stops levels [] :=
  ⟨rfl, fun _ _ => rfl⟩

theorem stops_name (levels : List Level) (word : String) : Stops levels (.name word :: rest) :=
  ⟨rfl, fun _ _ => rfl⟩

theorem nextSign_mark_eq_none {signs : List String} {sign : String}
    (h : nextSign signs [.mark sign] = none) : nextSign signs (.mark sign :: rest) = none := by
  by_cases hmem : sign ∈ signs
  · rw [nextSign_cons_of_mem hmem] at h
    cases h
  · exact nextSign_cons_of_notMem hmem

/-- Whether a sign ends an expression does not depend on what comes after it. -/
theorem stops_mark {sign : String} (h : Stops levels [.mark sign]) :
    Stops levels (.mark sign :: rest) :=
  ⟨nextSign_mark_eq_none h.1, fun level hlevel => nextSign_mark_eq_none (h.2 level hlevel)⟩

/-- A sign of a level, or one between its operands, ends operands of the tighter
    levels. -/
theorem stops_sign {sign : String} (h : level.isProper g tighter = true)
    (hsign : sign ∈ level.signs ++ level.middles) : Stops tighter (.mark sign :: rest) := by
  simp only [Level.isProper, Bool.and_eq_true, List.all_eq_true] at h
  obtain ⟨⟨⟨hsigns, -⟩, -⟩, -⟩ := h
  obtain ⟨howner, htighter⟩ := hsigns sign hsign
  refine ⟨nextSign_cons_of_notMem (by simpa using howner), fun other hother => ?_⟩
  have := htighter other hother
  exact nextSign_cons_of_notMem (by simpa using this)

theorem stops_closer {sign : String} (hg : g.Proper) (hsign : sign ∈ [")", ","]) :
    Stops g.levels (.mark sign :: rest) := by
  refine ⟨nextSign_cons_of_notMem ?_, fun level hlevel =>
    nextSign_cons_of_notMem (hg.closers level hlevel sign hsign)⟩
  rintro hmem
  simp at hsign hmem
  rcases hsign with rfl | rfl <;> simp at hmem

/-- What ends an operator ends its right operand. -/
theorem Stops.right {signs : List String} {left right : List Level}
    (h : Stops (level :: tighter) rest) (hp : level.isProper g tighter = true)
    (hs : level.sides g tighter = some (signs, left, right)) : Stops right rest := by
  unfold Level.sides at hs
  split at hs
  · cases hs; exact h.tail
  · cases hs; exact h.tail
  · cases hs; exact h.tail
  · next sign tier hshape =>
    cases hs
    simp only [Level.isProper, hshape, Bool.and_eq_true, List.all_eq_true] at hp
    refine ⟨h.1, fun other hother => ?_⟩
    have hcases := hp.2 other hother
    simp only [Bool.or_eq_true, List.isEmpty_iff, List.contains_iff_mem] at hcases
    rcases hcases with hnone | hmem
    · rw [hnone]
      cases rest with
      | nil => rfl
      | cons t rest => cases t <;> simp [nextSign]
    · exact h.2 other hmem
  · cases hs

/-! ## How an expression starts -/

/-- Whether an expression at a place can start with a token. -/
def Starts (g : Grammar) (place : Place) (t : Token) : Prop :=
  ∀ sign, t = .mark sign → sign = "(" ∨ g.emptyList.head? = some (.mark sign) ∨
    ∃ level ∈ place.levels, sign ∈ level.aheadSigns

theorem Starts.mono {place' : Place} {t : Token} (h : Starts g place t)
    (hsub : ∀ level ∈ place.levels, level ∈ place'.levels) : Starts g place' t := by
  intro sign ht
  rcases h sign ht with hparen | hlist | ⟨level, hlevel, hsign⟩
  · exact .inl hparen
  · exact .inr (.inl hlist)
  · exact .inr (.inr ⟨level, hsub level hlevel, hsign⟩)

theorem sides_left {signs : List String} {left right : List Level}
    (hs : level.sides g tighter = some (signs, left, right)) :
    left = level :: tighter ∨ left = tighter := by
  unfold Level.sides at hs
  split at hs <;> cases hs <;> simp

/-- The first token of an expression. -/
theorem Derives.starts (hg : g.Proper) (h : Derives g place ts e) :
    ∃ t rest, ts = t :: rest ∧ Starts g place t := by
  induction h with
  | name | number | text | callName => exact ⟨_, _, rfl, fun sign ht => by cases ht⟩
  | group => exact ⟨_, _, rfl, fun sign ht => by cases ht; exact .inl rfl⟩
  | emptyList =>
    obtain ⟨sign, rest, hlist, -⟩ := hg.emptyList
    exact ⟨_, rest, hlist, fun sign' ht => by cases ht; exact .inr (.inl (by simp [hlist]))⟩
  | member _ _ _ ih | call _ _ _ ih =>
    obtain ⟨t, rest, rfl, ht⟩ := ih
    exact ⟨t, _, rfl, ht⟩
  | owner _ ih => exact ih
  | tighter _ ih =>
    obtain ⟨t, rest, rfl, ht⟩ := ih
    exact ⟨t, _, rfl, ht.mono fun level hlevel => List.mem_cons_of_mem _ hlevel⟩
  | between hs _ _ _ ih =>
    obtain ⟨t, rest, rfl, ht⟩ := ih
    refine ⟨t, _, rfl, ht.mono fun level hlevel => ?_⟩
    rcases sides_left hs with rfl | rfl
    · exact hlevel
    · exact List.mem_cons_of_mem _ hlevel
  | ahead hsign =>
    exact ⟨_, _, rfl, fun sign ht => by
      cases ht; exact .inr (.inr ⟨_, List.mem_cons_self, hsign⟩)⟩
  | cast => exact ⟨_, _, rfl, fun sign ht => by cases ht; exact .inl rfl⟩
  | conditional _ _ _ _ ih | choice _ _ _ _ ih =>
    obtain ⟨t, rest, rfl, ht⟩ := ih
    exact ⟨t, _, rfl, ht.mono fun level hlevel => List.mem_cons_of_mem _ hlevel⟩

/-! ## Casts -/

theorem aheadSign_ne (h : level.isProper g tighter = true) {sign : String}
    (hsign : sign ∈ level.aheadSigns) : sign ≠ "(" ∧ sign ≠ ")" := by
  simp only [Level.isProper, Bool.and_eq_true, List.all_eq_true] at h
  have := (h.1.1.2 sign hsign).1.1
  simp at this
  exact this

/-- A word that makes casts starts an expression only as the callee of a call. -/
theorem Derives.callee_of_cast {word : String} {tail : List Token} (hg : g.Proper)
    (h : Derives g place ts e) (hw : g.isCast word = true)
    (hts : ts ++ rest = .name word :: tail) : ∃ more, tail = .mark "(" :: more := by
  induction h generalizing rest tail with
  | name hn =>
    cases hts
    rw [hw] at hn
    cases hn
  | callName word' args =>
    cases hts
    cases args.map Prod.fst with
    | nil => exact ⟨_, rfl⟩
    | cons arg args => exact ⟨_, rfl⟩
  | emptyList =>
    obtain ⟨sign, more, hlist, -⟩ := hg.emptyList
    rw [hlist] at hts
    cases hts
  | member _ _ _ ih | call _ _ _ ih =>
    rw [List.append_assoc] at hts
    exact ih hts
  | owner _ ih | tighter _ ih => exact ih hts
  | between _ _ _ _ ih | conditional _ _ _ _ ih | choice _ _ _ _ ih =>
    rw [List.append_assoc] at hts
    exact ih hts
  | group | number | text | ahead | cast => cases hts

theorem nextCast_cons_of_ne {sign : String} (h : sign ≠ "(") :
    nextCast g (.mark sign :: rest) = none := by
  unfold nextCast
  split
  · next heq =>
    cases heq
    simp [h]
  · rfl

/-- An expression of levels without casts does not start with a cast. -/
theorem Derives.nextCast_eq_none (hg : g.Proper) (h : Derives g place ts e)
    (hsuffix : place.levels <:+ g.levels)
    (hplace : ∀ level ∈ place.levels, level.hasCasts = false) (rest : List Token) :
    nextCast g (ts ++ rest) = none := by
  induction h generalizing rest with
  | name | callName | number | text => rfl
  | emptyList =>
    obtain ⟨sign, more, hlist, hsign⟩ := hg.emptyList
    rw [hlist]
    exact nextCast_cons_of_ne fun heq => hsign (by simp [heq])
  | @group ts e h ih =>
    rw [List.cons_append]
    unfold nextCast
    split
    · next sign word sign' rest' heq =>
      split
      · next hcast =>
        -- the word in the parentheses would have to be called
        obtain ⟨-, rfl, hw⟩ := hcast
        simp only [List.cons.injEq, List.append_assoc] at heq
        obtain ⟨more, hmore⟩ := h.callee_of_cast hg hw heq.2
        simp at hmore
      · rfl
    · rfl
  | member _ _ _ ih | call _ _ _ ih =>
    rw [List.append_assoc]
    exact ih hsuffix hplace _
  | owner _ ih => exact ih hsuffix hplace rest
  | tighter _ ih =>
    exact ih ((List.suffix_cons _ _).trans hsuffix)
      (fun level hlevel => hplace level (List.mem_cons_of_mem _ hlevel)) rest
  | between hs _ _ _ ih =>
    rw [List.append_assoc]
    rcases sides_left hs with rfl | rfl
    · exact ih hsuffix hplace _
    · exact ih ((List.suffix_cons _ _).trans hsuffix)
        (fun level hlevel => hplace level (List.mem_cons_of_mem _ hlevel)) _
  | ahead hsign => exact nextCast_cons_of_ne (aheadSign_ne (hg.isProper hsuffix) hsign).1
  | cast hl =>
    rw [hplace _ List.mem_cons_self] at hl
    cases hl
  | conditional _ _ _ _ ih | choice _ _ _ _ ih =>
    rw [List.append_assoc]
    exact ih ((List.suffix_cons _ _).trans hsuffix)
      (fun level hlevel => hplace level (List.mem_cons_of_mem _ hlevel)) _

/-- No operator of a level is ahead of an expression of the tighter levels. -/
theorem Derives.nextAhead_eq_none {signs : List String} {casts : Bool} (hg : g.Proper)
    (hsuffix : level :: tighter <:+ g.levels) (hshape : level.shape = .ahead signs casts)
    (h : Derives g (.within tighter) ts e) (rest : List Token) :
    nextAhead g signs casts (ts ++ rest) = none := by
  have hp := hg.isProper hsuffix
  have hsigns : level.aheadSigns = signs := by simp [Level.aheadSigns, hshape]
  have hcasts : level.hasCasts = casts := by simp [Level.hasCasts, hshape]
  simp only [Level.isProper, Bool.and_eq_true, List.all_eq_true, hsigns, hcasts] at hp
  obtain ⟨⟨⟨-, hahead⟩, hcast⟩, -⟩ := hp
  have hsign : nextSign signs (ts ++ rest) = none := by
    obtain ⟨t, more, rfl, hstarts⟩ := h.starts hg
    cases t with
    | mark sign =>
      refine nextSign_cons_of_notMem fun hmem => ?_
      obtain ⟨⟨hparen, hlist⟩, htighter⟩ := hahead sign hmem
      rcases hstarts sign rfl with rfl | hhead | ⟨other, hother, hmem'⟩
      · simp at hparen
      · simp [hhead] at hlist
      · have := htighter other hother
        simp [hmem'] at this
    | _ => rfl
  unfold nextAhead
  rw [hsign, Option.none_or]
  cases casts with
  | false => rfl
  | true =>
    refine h.nextCast_eq_none hg ((List.suffix_cons _ _).trans hsuffix) (fun other hother => ?_) rest
    simp only [Bool.not_true, Bool.false_or, List.all_eq_true] at hcast
    simpa using hcast other hother

/-! ## Going on after an operand -/

/-- The steps of a parser of the levels that are left after an operand. -/
noncomputable def resume (g : Grammar) (levels : List Level) (e : Expr) (rest : List Token) :
    Option (Expr × List Token) :=
  match levels with
  | ⟨_, .leftward signs⟩ :: tighter => parseRun g signs tighter e rest
  | _ => some (e, rest)

/-- Whether what follows cannot go on with an operand of the levels. -/
def Resumes (levels : List Level) (rest : List Token) : Prop :=
  match levels with
  | ⟨_, .leftward _⟩ :: tighter => Stops tighter rest
  | levels => Stops levels rest

theorem Stops.resumes (h : Stops levels rest) : Resumes levels rest := by
  unfold Resumes
  split
  · exact h.tail
  · exact h

theorem Resumes.tail (h : Resumes (level :: tighter) rest) : Stops tighter rest := by
  unfold Resumes at h
  split at h
  · next heq =>
    cases heq
    exact h
  · exact h.tail

theorem parseRun_of_none {signs : List String} (h : nextSign signs rest = none) :
    parseRun g signs tighter e rest = some (e, rest) := by
  rw [parseRun_eq_step, stepRun, h]

theorem resume_of_stops (h : Stops levels rest) : resume g levels e rest = some (e, rest) := by
  unfold resume
  split
  · next tier signs tighter =>
    exact parseRun_of_none h.head
  · rfl

/-- What a parser does with the tokens of a derivation and what follows them. -/
def Found (g : Grammar) (place : Place) (ts : List Token) (e : Expr) : Prop :=
  match place with
  | .owner => ∀ rest, parseAt g [] (ts ++ rest) = parseSuffixes g e rest
  | .within levels => levels <:+ g.levels → ∀ rest, Resumes levels rest →
    parseAt g levels (ts ++ rest) = resume g levels e rest

theorem Found.parseAt_eq (h : Found g (.within levels) ts e) (hsuffix : levels <:+ g.levels)
    (hrest : Stops levels rest) : parseAt g levels (ts ++ rest) = some (e, rest) := by
  rw [h hsuffix rest hrest.resumes, resume_of_stops hrest]

/-! ## Calls -/

theorem parseArgs_otherTokens (hg : g.Proper) (args : List (List Token × Expr))
    (h : ∀ arg ∈ args, Found g (.within g.levels) arg.1 arg.2) :
    parseArgs g (otherTokens (args.map Prod.fst) ++ rest) =
      some (args.map Prod.snd, rest) := by
  induction args with
  | nil =>
    rw [parseArgs_eq_step, stepArgs]
    rfl
  | cons arg args ih =>
    have hnext : ∃ sign more, otherTokens (args.map Prod.fst) ++ rest = .mark sign :: more ∧
        sign ∈ [")", ","] := by
      cases args with
      | nil => exact ⟨_, _, rfl, by simp⟩
      | cons arg args => exact ⟨_, _, rfl, by simp⟩
    have hstops : Stops g.levels (otherTokens (args.map Prod.fst) ++ rest) := by
      obtain ⟨sign, more, hmore, hsign⟩ := hnext
      rw [hmore]
      exact stops_closer hg hsign
    have harg := (h arg (by simp)).parseAt_eq (List.suffix_refl _) hstops
    have hargs := ih fun other hother => h other (by simp [hother])
    rw [parseArgs_eq_step, stepArgs]
    simp only [List.map_cons, otherTokens, List.cons_append, List.append_assoc]
    rw [nextSign_cons_of_mem (by simp)]
    simp [harg, hargs]

/-- No expression starts with a closing parenthesis. -/
theorem Derives.nextSign_close (hg : g.Proper) (h : Derives g (.within g.levels) ts e)
    (rest : List Token) : nextSign [")"] (ts ++ rest) = none := by
  obtain ⟨t, more, rfl, hstarts⟩ := h.starts hg
  cases t with
  | mark sign =>
    refine nextSign_cons_of_notMem fun hmem => ?_
    obtain rfl := List.mem_singleton.mp hmem
    rcases hstarts ")" rfl with hparen | hlist | ⟨level, hlevel, hsign⟩
    · simp at hparen
    · obtain ⟨sign, others, heq, hne⟩ := hg.emptyList
      simp [heq] at hlist
      simp [hlist] at hne
    · obtain ⟨looser, tighter, hsplit⟩ := List.append_of_mem hlevel
      have hsuffix : level :: tighter <:+ g.levels := ⟨looser, hsplit.symm⟩
      have hp := hg.isProper hsuffix
      exact (aheadSign_ne hp hsign).2 rfl
  | _ => rfl

theorem parseSuffixes_argTokens (hg : g.Proper) (args : List (List Token × Expr))
    (hargs : ∀ arg ∈ args, Derives g (.within g.levels) arg.1 arg.2)
    (h : ∀ arg ∈ args, Found g (.within g.levels) arg.1 arg.2) :
    parseSuffixes g e (argTokens (args.map Prod.fst) ++ rest) =
      parseSuffixes g (.call e (args.map Prod.snd)) rest := by
  rw [parseSuffixes_eq_step, stepSuffixes]
  cases args with
  | nil => simp [argTokens, nextSign]
  | cons arg args =>
    simp only [List.map_cons, argTokens, List.cons_append, List.append_assoc]
    rw [nextSign_cons_of_mem (by simp)]
    have hclose := (hargs arg (by simp)).nextSign_close hg (otherTokens (args.map Prod.fst) ++ rest)
    have hstops : Stops g.levels (otherTokens (args.map Prod.fst) ++ rest) := by
      cases args with
      | nil => exact stops_closer hg (by simp)
      | cons arg args => exact stops_closer hg (by simp)
    have harg := (h arg (by simp)).parseAt_eq (List.suffix_refl _) hstops
    have hothers : parseArgs g (otherTokens (args.map Prod.fst) ++ rest) =
        some (args.map Prod.snd, rest) :=
      parseArgs_otherTokens hg args fun other hother => h other (by simp [hother])
    simp [hclose, harg, hothers]

/-! ## The parser finds every derivation -/

variable {signs : List String} {sign : String} {left right : List Level} {a b c : Expr}
  {ta tb tc : List Token}

/-- An operand of the tighter levels is one of the level itself. -/
theorem Found.ofTighter (hg : g.Proper) (hd : Derives g (.within tighter) ts e)
    (h : Found g (.within tighter) ts e) : Found g (.within (level :: tighter)) ts e := by
  intro hsuffix rest hrest
  have hparse := h.parseAt_eq ((List.suffix_cons _ _).trans hsuffix) hrest.tail
  obtain ⟨tier, shape⟩ := level
  rw [parseAt_eq_step, stepAt]
  cases shape with
  | leftward signs => simp [hparse, resume]
  | ahead signs casts => simp [hd.nextAhead_eq_none hg hsuffix rfl rest, hparse, resume]
  | single signs | chained signs =>
    have hstops : Stops (⟨tier, _⟩ :: tighter) rest := hrest
    have hnext : nextSign signs rest = none := hstops.head
    simp [hparse, hnext, resume]
  | power sign right =>
    have hstops : Stops (⟨tier, _⟩ :: tighter) rest := hrest
    have hnext : nextSign [sign] rest = none := hstops.head
    simp [hparse, hnext, resume]
  | conditional =>
    have hstops : Stops (⟨tier, .conditional⟩ :: tighter) rest := hrest
    have hnext : nextSign ["if"] rest = none := hstops.head
    simp [hparse, hnext, resume]
  | choice =>
    have hstops : Stops (⟨tier, .choice⟩ :: tighter) rest := hrest
    have hnext : nextSign ["?"] rest = none := hstops.head
    simp [hparse, hnext, resume]

theorem parseChain_of_none (h : nextSign signs rest = none) :
    parseChain g signs tighter e rest = some (e, rest) := by
  rw [parseChain_eq_step, stepChain, h]

theorem Found.ofBetween (hg : g.Proper) (hs : level.sides g tighter = some (signs, left, right))
    (hsign : sign ∈ signs) (ha : Found g (.within left) ta a) (hb : Found g (.within right) tb b) :
    Found g (.within (level :: tighter)) (ta ++ .mark sign :: tb) (.binary sign a b) := by
  intro hsuffix rest hrest
  have htail := (List.suffix_cons level tighter).trans hsuffix
  have hp := hg.isProper hsuffix
  rw [List.append_assoc, List.cons_append]
  obtain ⟨tier, shape⟩ := level
  cases shape with
  | leftward signs =>
    cases hs
    have hstops : Stops tighter (.mark sign :: (tb ++ rest)) :=
      stops_sign hp (List.mem_append_left _ hsign)
    rw [ha hsuffix _ hstops]
    show parseRun g signs tighter a (.mark sign :: (tb ++ rest)) =
      parseRun g signs tighter (.binary sign a b) rest
    rw [parseRun_eq_step, stepRun, nextSign_cons_of_mem hsign]
    simp [hb.parseAt_eq htail hrest.tail]
  | single signs =>
    cases hs
    have hstops : Stops tighter (.mark sign :: (tb ++ rest)) :=
      stops_sign hp (List.mem_append_left _ hsign)
    rw [parseAt_eq_step, stepAt]
    simp [ha.parseAt_eq htail hstops, nextSign_cons_of_mem hsign, hb.parseAt_eq htail hrest.tail,
      resume]
  | chained signs =>
    cases hs
    have hstops : Stops tighter (.mark sign :: (tb ++ rest)) :=
      stops_sign hp (List.mem_append_left _ hsign)
    have hends : Stops (⟨tier, .chained signs⟩ :: tighter) rest := hrest
    have hnext : nextSign signs rest = none := hends.head
    rw [parseAt_eq_step, stepAt]
    simp [ha.parseAt_eq htail hstops, nextSign_cons_of_mem hsign, hb.parseAt_eq htail hrest.tail,
      parseChain_of_none hnext, resume]
  | power sign' right' =>
    have hright : Stops right rest := Stops.right hrest hp hs
    cases hs
    obtain rfl := List.mem_singleton.mp hsign
    have hstops : Stops tighter (.mark sign :: (tb ++ rest)) :=
      stops_sign hp (List.mem_append_left _ hsign)
    rw [parseAt_eq_step, stepAt]
    simp [ha.parseAt_eq htail hstops, nextSign_cons_of_mem hsign,
      hb.parseAt_eq (List.dropWhile_suffix _) hright, resume]
  | ahead | conditional | choice => cases hs

theorem Found.ofAhead {signs : List String} {casts : Bool} {tokens : List Token}
    (hshape : level.shape = .ahead signs casts)
    (hnext : ∀ rest, nextAhead g signs casts (tokens ++ rest) = some (sign, ts ++ rest))
    (h : Found g (.within (level :: tighter)) ts e) :
    Found g (.within (level :: tighter)) tokens (.unary sign e) := by
  intro hsuffix rest hrest
  obtain ⟨tier, shape⟩ := level
  obtain rfl : shape = .ahead signs casts := hshape
  have hparse := h.parseAt_eq hsuffix hrest
  rw [parseAt_eq_step, stepAt]
  simp [hnext, hparse, resume]

theorem Found.ofConditional (hg : g.Proper) (hshape : level.shape = .conditional)
    (ha : Found g (.within tighter) ta a) (hc : Found g (.within tighter) tc c)
    (hb : Found g (.within (level :: tighter)) tb b) :
    Found g (.within (level :: tighter)) (ta ++ .mark "if" :: (tc ++ .mark "else" :: tb))
      (.choice c a b) := by
  intro hsuffix rest hrest
  have htail := (List.suffix_cons level tighter).trans hsuffix
  have hp := hg.isProper hsuffix
  obtain ⟨tier, shape⟩ := level
  obtain rfl : shape = .conditional := hshape
  have hif : Stops tighter (.mark "if" :: (tc ++ .mark "else" :: (tb ++ rest))) :=
    stops_sign hp (by simp [Level.signs])
  have helse : Stops tighter (.mark "else" :: (tb ++ rest)) :=
    stops_sign hp (by simp [Level.middles])
  have hfirst := ha.parseAt_eq htail hif
  have hcondition := hc.parseAt_eq htail helse
  have hlast := hb.parseAt_eq hsuffix hrest
  simp only [List.append_assoc, List.cons_append]
  rw [parseAt_eq_step, stepAt]
  simp [hfirst, hcondition, hlast, nextSign_cons_of_mem, resume]

theorem Found.ofChoice (hg : g.Proper) (hshape : level.shape = .choice)
    (hc : Found g (.within tighter) tc c) (ha : Found g (.within tighter) ta a)
    (hb : Found g (.within tighter) tb b) :
    Found g (.within (level :: tighter)) (tc ++ .mark "?" :: (ta ++ .mark ":" :: tb))
      (.choice c a b) := by
  intro hsuffix rest hrest
  have htail := (List.suffix_cons level tighter).trans hsuffix
  have hp := hg.isProper hsuffix
  obtain ⟨tier, shape⟩ := level
  obtain rfl : shape = .choice := hshape
  have hmark : Stops tighter (.mark "?" :: (ta ++ .mark ":" :: (tb ++ rest))) :=
    stops_sign hp (by simp [Level.signs])
  have hcolon : Stops tighter (.mark ":" :: (tb ++ rest)) :=
    stops_sign hp (by simp [Level.middles])
  have hcondition := hc.parseAt_eq htail hmark
  have hfirst := ha.parseAt_eq htail hcolon
  have hlast := hb.parseAt_eq htail hrest.tail
  simp only [List.append_assoc, List.cons_append]
  rw [parseAt_eq_step, stepAt]
  simp [hcondition, hfirst, hlast, nextSign_cons_of_mem, resume]

/-- The parser finds what a derivation derives, and goes on from there. -/
theorem Derives.found (hg : g.Proper) (h : Derives g place ts e) : Found g place ts e := by
  induction h with
  | @name word hword =>
    intro rest
    rw [List.singleton_append, parseAt_eq_step, stepAt]
    simp [hword]
  | @group ts e h ih =>
    intro rest
    obtain ⟨sign, more, hlist, hsign⟩ := hg.emptyList
    have hne : sign ≠ "(" := fun heq => hsign (by simp [heq])
    have hclose : Stops g.levels (.mark ")" :: rest) := stops_closer hg (by simp)
    have hinner := ih.parseAt_eq (List.suffix_refl _) hclose
    rw [List.cons_append, List.append_assoc, parseAt_eq_step, stepAt]
    simp [hlist, hne, hinner, nextSign_cons_of_mem]
  | @member ts e hmembers h field ih =>
    intro rest
    rw [List.append_assoc, ih, parseSuffixes_eq_step, stepSuffixes]
    simp [hmembers, nextSign_cons_of_mem]
  | callName word args h ih =>
    intro rest
    have hopen : nextSign ["("] (argTokens (args.map Prod.fst) ++ rest) ≠ none := by
      cases args <;> simp [argTokens, nextSign]
    rw [List.cons_append, parseAt_eq_step, stepAt]
    simp only [hopen, and_false, if_false]
    exact parseSuffixes_argTokens hg args h ih
  | call hf args h ihf ih =>
    intro rest
    rw [List.append_assoc, ihf]
    exact parseSuffixes_argTokens hg args h ih
  | owner h ih =>
    intro _ rest hrest
    rw [ih rest, parseSuffixes_eq_step, stepSuffixes, hrest.1]
    rfl
  | number digits | text literal =>
    intro _ rest _
    rw [List.singleton_append, parseAt_eq_step, stepAt]
    rfl
  | emptyList =>
    intro _ rest _
    obtain ⟨sign, more, hlist, -⟩ := hg.emptyList
    rw [hlist, List.cons_append, parseAt_eq_step, stepAt]
    simp [hlist, resume]
  | tighter h ih => exact ih.ofTighter hg h
  | between hs hsign _ _ iha ihb => exact iha.ofBetween hg hs hsign ihb
  | @ahead level tighter sign ts e hsign h ih =>
    obtain ⟨tier, shape⟩ := level
    cases shape with
    | ahead signs casts =>
      exact ih.ofAhead rfl fun rest => by
        simp [nextAhead, nextSign_cons_of_mem (show sign ∈ signs from hsign)]
    | _ => simp [Level.aheadSigns] at hsign
  | @cast level tighter word ts e hl hw h ih =>
    obtain ⟨tier, shape⟩ := level
    cases shape with
    | ahead signs casts =>
      obtain rfl : casts = true := hl
      intro hsuffix
      have hparen : "(" ∉ signs := fun hmem =>
        (aheadSign_ne (hg.isProper hsuffix) (show "(" ∈ Level.aheadSigns ⟨tier, _⟩ from hmem)).1 rfl
      have hnext : ∀ rest, nextAhead g signs true
          (.mark "(" :: .name word :: .mark ")" :: ts ++ rest) =
            some ("(" ++ word ++ ")", ts ++ rest) := fun rest => by
        simp [nextAhead, nextSign_cons_of_notMem hparen, nextCast, hw]
      exact Found.ofAhead rfl hnext ih hsuffix
    | _ => simp [Level.hasCasts] at hl
  | conditional hs _ _ _ iha ihc ihb => exact iha.ofConditional hg hs ihc ihb
  | choice hs _ _ _ ihc iha ihb => exact ihc.ofChoice hg hs iha ihb

/-- The parser finds what a derivation derives, if what follows cannot go on with
    it. -/
theorem Derives.parseAt_eq (hg : g.Proper) (h : Derives g (.within levels) ts e)
    (hsuffix : levels <:+ g.levels) (hrest : Stops levels rest) :
    parseAt g levels (ts ++ rest) = some (e, rest) :=
  (h.found hg).parseAt_eq hsuffix hrest

/-- The tree of a text whose tokens are an expression. -/
theorem Derives.parse_eq {text : String} (hg : g.Proper) (hlex : g.lexis.lex text = some ts)
    (h : Derives g (.within g.levels) ts e) : g.parse text = some e := by
  have hparse := h.parseAt_eq hg (List.suffix_refl _) (stops_nil g.levels)
  rw [List.append_nil] at hparse
  simp [Grammar.parse, hlex, hparse]

end BlockScript.Reading
