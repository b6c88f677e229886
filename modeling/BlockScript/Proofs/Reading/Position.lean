import BlockScript.Proofs.Reading.Template
import Mathlib.Data.List.TakeWhile

/-!
# Operand positions

A position asks for a tier, and a looser operand stands there between
parentheses. In a grammar whose levels carry the tiers, either form of the
operand reads as an expression of the levels that the position takes.

Results:

* `Renders.operand`: a rendered expression in a position of any tier.
* `renders_of_entry`: a template with its operands, whose tiers are entered in
  a table.
-/

namespace BlockScript.Reading

variable {g : Grammar} {allowed : String → Bool} {tier inner : Tier} {strict : Bool}
  {code : String} {tree : Expr}

/-! ## Levels -/

namespace Grammar

/-- The levels whose operators a position of a tier takes as they are. -/
def position (g : Grammar) (tier : Tier) (strict : Bool) : List Level :=
  if Tier.none ≤ tier then g.levels else if strict then g.below tier else g.upTo tier

/-- Whether operators bind less tightly than atoms. -/
def Tiered (g : Grammar) : Prop :=
  ∀ level ∈ g.levels, Tier.atomic < level.tier

instance (g : Grammar) : Decidable g.Tiered :=
  inferInstanceAs (Decidable (∀ level ∈ g.levels, Tier.atomic < level.tier))

end Grammar

theorem dropWhile_suffix_dropWhile {α : Type} {p q : α → Bool} (h : ∀ a, q a = true → p a = true)
    (items : List α) : items.dropWhile p <:+ items.dropWhile q := by
  induction items with
  | nil => exact List.suffix_refl _
  | cons a items ih =>
    by_cases hq : q a = true
    · rw [List.dropWhile_cons_of_pos hq, List.dropWhile_cons_of_pos (h a hq)]
      exact ih
    · rw [List.dropWhile_cons_of_neg hq]
      exact List.dropWhile_suffix p

theorem Grammar.upTo_atomic (hg : g.Tiered) : g.upTo .atomic = [] := by
  refine List.dropWhile_eq_nil_iff.mpr fun level hlevel => ?_
  simpa using hg level hlevel

theorem Grammar.position_suffix (g : Grammar) (tier : Tier) (strict : Bool) :
    g.position tier strict <:+ g.levels := by
  unfold position
  split
  · exact List.suffix_refl _
  · split <;> exact List.dropWhile_suffix _

/-- An operand that needs no parentheses is one of the levels of its position. -/
theorem Grammar.upTo_suffix_position (hg : g.Tiered)
    (h : inner.needsParens tier strict = false) : g.upTo inner <:+ g.position tier strict := by
  unfold Tier.needsParens at h
  unfold position
  by_cases hatomic : inner = .atomic
  · rw [hatomic, upTo_atomic hg]
    exact List.nil_suffix
  rw [if_neg hatomic] at h
  by_cases hnone : Tier.none ≤ tier
  · rw [if_pos hnone]
    exact List.dropWhile_suffix _
  rw [if_neg hnone] at h ⊢
  cases strict with
  | true =>
    have hlt : inner < tier := by simpa using h
    refine dropWhile_suffix_dropWhile (fun level hlevel => ?_) _
    have hle : tier ≤ level.tier := by simpa using hlevel
    simpa using Int.lt_of_lt_of_le hlt hle
  | false =>
    have hle : inner ≤ tier := by simpa using h
    refine dropWhile_suffix_dropWhile (fun level hlevel => ?_) _
    have hlt : tier < level.tier := by simpa using hlevel
    simpa using Int.lt_of_le_of_lt hle hlt

/-! ## Rendered expressions -/

/-- Whether a text of a tier reads as an expression with a certain tree. The text
    `0` alone is the number zero. -/
structure Renders (g : Grammar) (allowed : String → Bool) (code : String) (tier : Tier)
    (tree : Expr) : Prop where
  reads : Reads g allowed (g.upTo tier) code tree
  zero (h : tree = .zero) : code = "0" ∧ tier = .atomic

/-- Whether a text reads in a position of a tier as an expression with a certain
    tree. -/
structure Fills (g : Grammar) (allowed : String → Bool) (tier : Tier) (strict : Bool)
    (code : String) (tree : Expr) : Prop where
  reads : Reads g allowed (g.position tier strict) code tree
  zero (h : tree = .zero) : code = "0"

/-- The text of an operand of tier `inner` in a position. -/
def enclosed (inner tier : Tier) (strict : Bool) (code : String) : String :=
  if inner.needsParens tier strict then "(" ++ code ++ ")" else code

/-- Whether the grammar has parentheses. -/
def Grammar.Groups (g : Grammar) (allowed : String → Bool) : Prop :=
  matchesPhrase g allowed [] 1 (fun _ => g.levels) [.text "(", .hole 0, .text ")"]
    (.group (.hole 0)) = true

theorem reads_group (hg : g.Groups allowed) (h : Reads g allowed g.levels code tree) :
    Reads g allowed [] ("(" ++ code ++ ")") tree := by
  have hcode : ("(" ++ code ++ ")").toList =
      [Part.text "(", .hole 0, .text ")"].flatMap (Part.chars fun _ => code) := by
    simp [Part.chars]
  have hgroup : Reads g allowed [] ("(" ++ code ++ ")")
      ((Phrase.group (.hole 0)).tree fun _ => tree) :=
    reads_of_matches hg hcode fun _ _ => h
  exact hgroup

/-- A rendered expression in a position of any tier. -/
theorem Renders.operand (hg : g.Tiered) (hgroups : g.Groups allowed)
    (h : Renders g allowed code inner tree) (tier : Tier) (strict : Bool) :
    Fills g allowed tier strict (enclosed inner tier strict code) tree := by
  unfold enclosed
  by_cases hparens : inner.needsParens tier strict = true
  · rw [if_pos hparens]
    have hloose : Reads g allowed g.levels code tree := h.reads.weaken (List.dropWhile_suffix _)
    refine ⟨(reads_group hgroups hloose).weaken List.nil_suffix, fun hzero => ?_⟩
    -- an atomic operand stands without parentheses
    rw [(h.zero hzero).2] at hparens
    simp [Tier.needsParens] at hparens
  · rw [if_neg hparens]
    refine ⟨h.reads.weaken (Grammar.upTo_suffix_position hg ?_), fun hzero => (h.zero hzero).1⟩
    simpa using hparens

theorem Fills.ne_empty (h : Fills g allowed tier strict code tree) : code ≠ "" :=
  h.reads.ne_empty

/-- The text of a whole expression. -/
theorem Fills.whole (h : Fills g allowed .none strict code tree) :
    Reads g allowed g.levels code tree := by
  simpa [Grammar.position] using h.reads

/-! ## Zeros -/

theorem Regrouped.number_iff {a b : Expr} (h : Regrouped a b) (digits : String) :
    a = .number digits ↔ b = .number digits := by
  induction h with
  | refl => exact Iff.rfl
  | symm _ ih => exact ih.symm
  | trans _ _ iha ihb => exact iha.trans ihb
  | run | member | callee | arg | unary | binary | choice => simp

theorem length_otherTokens_pos (args : List (List Token)) : 0 < (otherTokens args).length := by
  cases args <;> simp [otherTokens]

theorem length_argTokens_pos (args : List (List Token)) : 1 < (argTokens args).length := by
  cases args with
  | nil => simp [argTokens]
  | cons arg args =>
    have := length_otherTokens_pos args
    simp only [argTokens, List.length_cons, List.length_append]
    omega

/-- A number alone is the tree of its token alone. -/
theorem Derives.eq_number {place : Place} {parsed : Expr} {digits : String}
    (hlist : g.emptyList ≠ [.number digits]) (h : Derives g place [.number digits] parsed) :
    parsed = .number digits := by
  generalize htokens : [Token.number digits] = tokens at h
  have hlength := congrArg List.length htokens
  induction h with
  | number => simpa using htokens.symm
  | owner _ ih | tighter _ ih => exact ih htokens hlength
  | emptyList => exact absurd htokens.symm hlist
  | name | text | ahead | cast | group | callName => simp at htokens
  | member => simp at hlength
  | @call ts f hf args h =>
    have := length_argTokens_pos (args.map Prod.fst)
    simp only [List.length_singleton, List.length_append] at hlength
    omega
  | @between _ _ _ _ _ sign =>
    have hmem : .mark sign ∈ [Token.number digits] := htokens ▸ by simp
    simp at hmem
  | conditional =>
    have hmem : .mark "if" ∈ [Token.number digits] := htokens ▸ by simp
    simp at hmem
  | choice =>
    have hmem : .mark "?" ∈ [Token.number digits] := htokens ▸ by simp
    simp at hmem

/-- Whether the digit zero reads as itself. -/
def Grammar.ReadsZero (g : Grammar) : Prop :=
  g.lexis.cut ['0'] = some ([.number "0"], false) ∧ g.emptyList ≠ [.number "0"]

instance (g : Grammar) : Decidable g.ReadsZero :=
  inferInstanceAs (Decidable (_ ∧ _))

/-- The number zero in a position of any tier. -/
theorem fills_zero (hzero : g.ReadsZero) (tier : Tier) (strict : Bool) :
    Fills g allowed tier strict "0" .zero := by
  refine ⟨⟨⟨'0', [], rfl, by decide⟩, [.number "0"], ?_, fun _ => ?_, fun hcalls => ?_⟩, fun _ => rfl⟩
  · exact Lexis.spells_of_cut hzero.1
  · exact ⟨.zero, (Derives.number "0").weaken List.nil_suffix, .refl _⟩
  · cases hcalls

theorem Fills.isZero_eq (hzero : g.ReadsZero) (h : Fills g allowed tier strict code tree) :
    tree.isZero = decide (code = "0") := by
  have hiff : tree = .zero ↔ code = "0" := by
    refine ⟨h.zero, ?_⟩
    rintro rfl
    obtain ⟨tokens, hspells, hallowed, hrefused⟩ := h.reads.reads
    obtain rfl : [.number "0"] = tokens := by
      have hlex : g.lexis.lex "0" = some [.number "0"] :=
        Lexis.lex_of_spells (Lexis.spells_of_cut hzero.1)
      rw [Lexis.lex_of_spells hspells] at hlex
      cases hlex
      rfl
    cases hcalls : tree.calls allowed with
    | true =>
      obtain ⟨parsed, hparsed, hregrouped⟩ := hallowed hcalls
      exact (hregrouped.number_iff "0").mpr (hparsed.eq_number hzero.2)
    | false =>
      obtain ⟨word, -, hmem⟩ := hrefused hcalls
      simp at hmem
  cases tree <;> simp_all [Expr.isZero, Expr.zero]

/-! ## Tables -/

/-- Whether texts are operands with certain trees in positions of certain tiers. -/
inductive AllFill (g : Grammar) (allowed : String → Bool) :
    List (Tier × Bool) → List String → List Expr → Prop where
  | nil : AllFill g allowed [] [] []
  | cons {tier : Tier} {strict : Bool} {operands : List (Tier × Bool)} {code : String}
    {codes : List String} {tree : Expr} {trees : List Expr}
    (h : Fills g allowed tier strict code tree) (hrest : AllFill g allowed operands codes trees) :
    AllFill g allowed ((tier, strict) :: operands) (code :: codes) (tree :: trees)

/-- The levels of operands. -/
def levelsOf (g : Grammar) (operands : List (Tier × Bool)) (i : Nat) : List Level :=
  match operands[i]? with
  | some (tier, strict) => g.position tier strict
  | none => []

theorem AllFill.reads {operands : List (Tier × Bool)} {codes : List String} {trees : List Expr}
    (h : AllFill g allowed operands codes trees) {i : Nat} (hi : i < operands.length) :
    Reads g allowed (levelsOf g operands i) (codes.getD i "") (trees.getD i .emptyList) := by
  induction h generalizing i with
  | nil => simp at hi
  | cons hfirst _ ih =>
    cases i with
    | zero => exact hfirst.reads
    | succ i => exact ih (by simpa using hi)

/-- A template without its empty texts. -/
def withoutEmpty : List Part → List Part
  | [] => []
  | .hole i :: parts => .hole i :: withoutEmpty parts
  | .text fixed :: parts =>
    if fixed = "" then withoutEmpty parts else .text fixed :: withoutEmpty parts

theorem flatMap_withoutEmpty (texts : Nat → String) (parts : List Part) :
    (withoutEmpty parts).flatMap (Part.chars texts) = parts.flatMap (Part.chars texts) := by
  fun_induction withoutEmpty parts <;> simp_all [Part.chars]

/-- Whether the tree of a phrase may be a number or that of an operand. -/
def Phrase.mayBeNumber : Phrase → Bool
  | .hole _ | .number _ => true
  | .group inner => inner.mayBeNumber
  | _ => false

theorem foldl_member_ne_zero {owner : Expr} (h : owner ≠ .zero) (fields : List String) :
    fields.foldl .member owner ≠ .zero := by
  induction fields generalizing owner with
  | nil => exact h
  | cons field fields ih => exact ih (by simp [Expr.zero])

theorem Phrase.tree_ne_zero (trees : Nat → Expr) (phrase : Phrase)
    (h : phrase.mayBeNumber = false) : phrase.tree trees ≠ .zero := by
  cases phrase with
  | group inner => exact tree_ne_zero trees inner h
  | path word fields => exact foldl_member_ne_zero (by simp [Expr.zero]) fields
  | hole i => cases h
  | number digits => cases h
  | _ => simp [tree, castTree, Expr.zero]

/-- Whether a template with operands of certain tiers is the text of a phrase of
    the tier `result`. -/
def entry (g : Grammar) (allowed : String → Bool) (result : Tier) (operands : List (Tier × Bool))
    (parts : List Part) (phrase : Phrase) : Bool :=
  matchesPhrase g allowed (g.upTo result) operands.length (levelsOf g operands)
      (withoutEmpty parts) phrase &&
    !phrase.mayBeNumber

/-- A template with its operands. -/
theorem renders_of_entry {result : Tier} {operands : List (Tier × Bool)} {parts : List Part}
    {phrase : Phrase} {codes : List String} {trees : List Expr}
    (h : entry g allowed result operands parts phrase = true)
    (hcode : code.toList = parts.flatMap (Part.chars fun i => codes.getD i ""))
    (hfill : AllFill g allowed operands codes trees) :
    Renders g allowed code result (phrase.filled trees) := by
  simp only [entry, Bool.and_eq_true, Bool.not_eq_true'] at h
  refine ⟨reads_of_matches h.1 ?_ fun i hi => hfill.reads hi, fun hzero => ?_⟩
  · rw [hcode, flatMap_withoutEmpty]
  · exact absurd hzero (Phrase.tree_ne_zero _ phrase h.2)

end BlockScript.Reading
