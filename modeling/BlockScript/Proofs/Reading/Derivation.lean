import BlockScript.Proofs.Reading.Grammar

/-!
# Derivations

A derivation says why tokens are an expression of certain levels, without
saying how a parser finds it. It has no rule for a chain of comparisons.

Results:

* `Derives.chainFree`: a derived tree has no chain of comparisons.
* `Derives.weaken`: an expression of tight levels is one of looser levels.
* `Derives.join`: two runs of one conjunction or disjunction make one run.
-/

namespace BlockScript.Reading

/-! ## Signs of a level -/

namespace Level

/-- The signs that follow an operand of a level. -/
def signs (level : Level) : List String :=
  match level.shape with
  | .leftward signs | .single signs | .chained signs => signs
  | .ahead .. => []
  | .power sign _ => [sign]
  | .conditional => ["if"]
  | .choice => ["?"]

/-- The signs that stand between two parts of an operator of the level and
    follow an operand of a tighter one. -/
def middles (level : Level) : List String :=
  match level.shape with
  | .conditional => ["else"]
  | .choice => [":"]
  | _ => []

/-- The signs that come ahead of an operand. -/
def aheadSigns (level : Level) : List String :=
  match level.shape with
  | .ahead signs _ => signs
  | _ => []

/-- Whether casts are operators of the level. -/
def hasCasts (level : Level) : Bool :=
  match level.shape with
  | .ahead _ casts => casts
  | _ => false

/-- The levels of the two operands of an infix operator, with its signs. -/
def sides (g : Grammar) (level : Level) (tighter : List Level) :
    Option (List String × List Level × List Level) :=
  match level.shape with
  | .leftward signs => some (signs, level :: tighter, tighter)
  | .single signs | .chained signs => some (signs, tighter, tighter)
  | .power sign right => some ([sign], tighter, g.upTo right)
  | _ => none

end Level

/-! ## Derivations -/

/-- The tokens of the arguments after the first, with the closing
    parenthesis. -/
def otherTokens : List (List Token) → List Token
  | [] => [.mark ")"]
  | arg :: args => .mark "," :: (arg ++ otherTokens args)

/-- The tokens of arguments between parentheses. -/
def argTokens : List (List Token) → List Token
  | [] => [.mark "(", .mark ")"]
  | arg :: args => .mark "(" :: (arg ++ otherTokens args)

/-- Where an expression stands: ahead of a call or a member, or at certain
    levels. -/
inductive Place where
  | owner
  | within (levels : List Level)

/-- The levels whose operators may stand at a place. -/
def Place.levels : Place → List Level
  | .owner => []
  | .within levels => levels

/-- Whether tokens are an expression with a certain tree. -/
inductive Derives (g : Grammar) : Place → List Token → Expr → Prop where
  | name {word : String} (h : g.isCast word = false) :
    Derives g .owner [.name word] (.name word)
  | group {ts : List Token} {e : Expr} (h : Derives g (.within g.levels) ts e) :
    Derives g .owner (.mark "(" :: (ts ++ [.mark ")"])) e
  | member {ts : List Token} {e : Expr} (hg : g.members = true) (h : Derives g .owner ts e)
    (field : String) : Derives g .owner (ts ++ [.mark ".", .name field]) (.member e field)
  | callName (word : String) (args : List (List Token × Expr))
    (h : ∀ arg ∈ args, Derives g (.within g.levels) arg.1 arg.2) :
    Derives g .owner (.name word :: argTokens (args.map Prod.fst))
      (.call (.name word) (args.map Prod.snd))
  | call {ts : List Token} {f : Expr} (hf : Derives g .owner ts f)
    (args : List (List Token × Expr))
    (h : ∀ arg ∈ args, Derives g (.within g.levels) arg.1 arg.2) :
    Derives g .owner (ts ++ argTokens (args.map Prod.fst)) (.call f (args.map Prod.snd))
  | owner {ts : List Token} {e : Expr} (h : Derives g .owner ts e) : Derives g (.within []) ts e
  | number (digits : String) : Derives g (.within []) [.number digits] (.number digits)
  | text (literal : String) : Derives g (.within []) [.text literal] (.text literal)
  | emptyList : Derives g (.within []) g.emptyList .emptyList
  | tighter {level : Level} {tighter : List Level} {ts : List Token} {e : Expr}
    (h : Derives g (.within tighter) ts e) : Derives g (.within (level :: tighter)) ts e
  | between {level : Level} {tighter left right : List Level} {signs : List String}
    {sign : String} {ta tb : List Token} {a b : Expr}
    (hs : level.sides g tighter = some (signs, left, right)) (hsign : sign ∈ signs)
    (ha : Derives g (.within left) ta a) (hb : Derives g (.within right) tb b) :
    Derives g (.within (level :: tighter)) (ta ++ .mark sign :: tb) (.binary sign a b)
  | ahead {level : Level} {tighter : List Level} {sign : String} {ts : List Token} {e : Expr}
    (hsign : sign ∈ level.aheadSigns) (h : Derives g (.within (level :: tighter)) ts e) :
    Derives g (.within (level :: tighter)) (.mark sign :: ts) (.unary sign e)
  | cast {level : Level} {tighter : List Level} {word : String} {ts : List Token} {e : Expr}
    (hl : level.hasCasts = true) (hw : g.isCast word = true)
    (h : Derives g (.within (level :: tighter)) ts e) :
    Derives g (.within (level :: tighter)) (.mark "(" :: .name word :: .mark ")" :: ts)
      (.unary ("(" ++ word ++ ")") e)
  | conditional {level : Level} {tighter : List Level} {ta tc tb : List Token} {a c b : Expr}
    (hs : level.shape = .conditional) (ha : Derives g (.within tighter) ta a)
    (hc : Derives g (.within tighter) tc c) (hb : Derives g (.within (level :: tighter)) tb b) :
    Derives g (.within (level :: tighter)) (ta ++ .mark "if" :: (tc ++ .mark "else" :: tb))
      (.choice c a b)
  | choice {level : Level} {tighter : List Level} {tc ta tb : List Token} {c a b : Expr}
    (hs : level.shape = .choice) (hc : Derives g (.within tighter) tc c)
    (ha : Derives g (.within tighter) ta a) (hb : Derives g (.within tighter) tb b) :
    Derives g (.within (level :: tighter)) (tc ++ .mark "?" :: (ta ++ .mark ":" :: tb))
      (.choice c a b)

namespace Derives

variable {g : Grammar} {place : Place} {tighter levels : List Level} {ts : List Token} {e : Expr}

/-- A derived tree has no chain of comparisons. -/
theorem chainFree (h : Derives g place ts e) : e.chainFree = true := by
  induction h with
  | callName word args _ ih =>
    simp only [Expr.chainFree, Expr.chainFreeList_iff, Bool.true_and]
    intro tree htree
    obtain ⟨arg, harg, rfl⟩ := List.mem_map.mp htree
    exact ih arg harg
  | call _ args _ ihf ih =>
    simp only [Expr.chainFree, Expr.chainFreeList_iff, Bool.and_eq_true]
    refine ⟨ihf, fun tree htree => ?_⟩
    obtain ⟨arg, harg, rfl⟩ := List.mem_map.mp htree
    exact ih arg harg
  | name | number | text | emptyList => rfl
  | group _ ih | owner _ ih | tighter _ ih => exact ih
  | member _ _ _ ih | ahead _ _ ih | cast _ _ _ ih => exact ih
  | between _ _ _ _ iha ihb => simp [Expr.chainFree, iha, ihb]
  | conditional _ _ _ _ iha ihc ihb | choice _ _ _ _ ihc iha ihb =>
    simp [Expr.chainFree, iha, ihb, ihc]

/-- An expression of tight levels is one of looser levels. -/
theorem weaken (hsuffix : tighter <:+ levels) (h : Derives g (.within tighter) ts e) :
    Derives g (.within levels) ts e := by
  obtain ⟨looser, rfl⟩ := hsuffix
  induction looser with
  | nil => exact h
  | cons level looser ih => exact ih.tighter

/-- Two runs of one conjunction or disjunction make one run. -/
theorem join {level : Level} {sign : String} {ta tb : List Token} {a b : Expr}
    (hs : level.shape = .leftward [sign]) (hrun : sign ∈ runSigns)
    (ha : Derives g (.within (level :: tighter)) ta a)
    (hb : Derives g (.within (level :: tighter)) tb b) :
    ∃ c, Derives g (.within (level :: tighter)) (ta ++ .mark sign :: tb) c ∧
      Regrouped (.binary sign a b) c := by
  have hsides : level.sides g tighter = some ([sign], level :: tighter, tighter) := by
    simp [Level.sides, hs]
  generalize hplace : Place.within (level :: tighter) = place at hb
  -- the left operands of `b` are taken over one after the other
  induction hb with
  | tighter hb =>
    cases hplace
    exact ⟨_, .between hsides (by simp) ha hb, .refl _⟩
  | @between level' tighter' left right signs sign' tb1 tb2 b1 b2 hs' hsign' hb1 hb2 ih1 =>
    cases hplace
    rw [hsides] at hs'
    cases hs'
    obtain rfl := List.mem_singleton.mp hsign'
    obtain ⟨c, hc, hreg⟩ := ih1 rfl
    refine ⟨.binary sign' c b2, ?_, ?_⟩
    · rw [← List.cons_append, ← List.append_assoc]
      exact .between hsides hsign' hc hb2
    · exact (Regrouped.run a b1 b2 hrun).trans (hreg.binary sign' (.refl b2))
  | ahead hsign' =>
    cases hplace
    simp [Level.aheadSigns, hs] at hsign'
  | cast hl =>
    cases hplace
    simp [Level.hasCasts, hs] at hl
  | conditional hs' | choice hs' =>
    cases hplace
    simp [hs] at hs'
  | _ => cases hplace

end Derives

end BlockScript.Reading
