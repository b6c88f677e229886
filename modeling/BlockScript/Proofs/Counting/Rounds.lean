import BlockScript.Proofs.Counting.Sign

/-!
# The rounds of loops with a count

What the rule for a loop with a count makes of its block, and how such a loop runs. Most
headers read their bound once. That of PHP reads it again ahead of every round, and
compares the counter with it.

Results:

* `Scene.made_of_repeatLoop`: the text of a loop with a count, by its parts.
* `Recounted.count_eq`: a loop that reads its bound again does as many rounds as the
  bound says, if no round changes the bound or the counter.
-/

namespace BlockScript

open BlockScript.Number BlockScript.Text

/-! ## Loops as they are written -/

/-- The parts of a loop with a count. -/
structure CountedLoop where
  /-- The text of the count. -/
  count : String
  /-- The indented text of the body. -/
  body : String
  counter : String
  /-- The bound in the header. -/
  bound : String
  /-- Whether the bound is a variable that is set to the count ahead of the loop. -/
  stored : Bool

namespace CountedLoop

/-- The text of a loop. -/
def text (loop : CountedLoop) (dialect : Dialect) : String :=
  (if loop.stored then dialect.statement (loop.bound ++ " = " ++ loop.count) else "") ++
    dialect.repeatHeader loop.counter loop.bound ++ loop.body ++ dialect.blockEnd

end CountedLoop

namespace Scene

variable {scene : Scene} {ref : Ref} {block : Block Ref} {room : Nat} {s t u b : PassState}

/-- Whether a loop is what the rule for loops with a count makes of a block. The count
    is rendered up to a state `u`, and the body from there up to a state `b`. -/
structure Made (scene : Scene) (room : Nat) (ref : Ref) (block : Block Ref)
    (s u b t : PassState) (loop : CountedLoop) : Prop where
  count : scene.follow (scene.renderWithin room) ref block (Recipe.repeatCount block) s =
    (.ok loop.count, u)
  body : scene.follow (scene.renderWithin room) ref block (Recipe.loopStatements scene ref block) u =
    (.ok loop.body, b)
  names : ∃ c, Pass.freshName scene.dialect.policy .variable Recipe.counterBase b =
      (.ok loop.counter, c) ∧
    match scene.dialect.repeatCount with
    | .truncated before after => loop.stored = false ∧ t = c ∧
      loop.bound = Recipe.truncatedCount before after loop.count
    | .stored =>
      if isSingleWord loop.count || isNumber loop.count then
        loop.stored = false ∧ t = c ∧ loop.bound = loop.count
      else
        loop.stored = true ∧
          Pass.freshName scene.dialect.policy .variable Recipe.boundBase c = (.ok loop.bound, t)

/-- The text of a loop with a count, by its parts. -/
theorem made_of_repeatLoop {product : Product}
    (hrun : scene.follow (scene.renderWithin room) ref block (Recipe.repeatLoop scene ref block) s =
      (.ok product, t)) :
    ∃ u b loop, scene.Made room ref block s u b t loop ∧
      product = .text (loop.text scene.dialect) := by
  obtain ⟨count, u, hcount, hrest⟩ := follow_bind_eq_ok hrun
  obtain ⟨body, b, hbody, hrest⟩ := follow_bind_eq_ok hrest
  obtain ⟨counter, c, hcounter, hrest⟩ := follow_bind_eq_ok hrest
  unfold Recipe.freshName at hcounter
  rw [follow_ask] at hcounter
  cases hform : scene.dialect.repeatCount with
  | truncated before after =>
    rw [hform] at hrest
    obtain ⟨rfl, rfl⟩ := follow_pure_eq_ok hrest
    refine ⟨u, b, ⟨count, body, counter, Recipe.truncatedCount before after count, false⟩,
      ⟨hcount, hbody, _, hcounter, ?_⟩, by simp [CountedLoop.text]⟩
    simp [hform]
  | stored =>
    rw [hform] at hrest
    dsimp only at hrest
    split at hrest
    · next hinline =>
      obtain ⟨rfl, rfl⟩ := follow_pure_eq_ok hrest
      refine ⟨u, b, ⟨count, body, counter, count, false⟩, ⟨hcount, hbody, _, hcounter, ?_⟩,
        by simp [CountedLoop.text]⟩
      simp [hform, hinline]
    · next hother =>
      obtain ⟨bound, d, hbound, hdone⟩ := follow_bind_eq_ok hrest
      obtain ⟨rfl, rfl⟩ := follow_pure_eq_ok hdone
      unfold Recipe.freshName at hbound
      rw [follow_ask] at hbound
      refine ⟨u, b, ⟨count, body, counter, bound, true⟩, ⟨hcount, hbody, c, hcounter, ?_⟩,
        by simp [CountedLoop.text]⟩
      rw [hform]
      dsimp only
      rw [if_neg hother]
      exact ⟨rfl, hbound⟩

/-- A count that is a single word stays in the header where other ones are stored. -/
theorem made_of_isSingleWord {count body counter : String}
    (hstored : scene.dialect.repeatCount = .stored) (hword : isSingleWord count = true)
    (hcount : scene.follow (scene.renderWithin room) ref block (Recipe.repeatCount block) s =
      (.ok count, u))
    (hbody : scene.follow (scene.renderWithin room) ref block
      (Recipe.loopStatements scene ref block) u = (.ok body, b))
    (hcounter : Pass.freshName scene.dialect.policy .variable Recipe.counterBase b =
      (.ok counter, t)) :
    scene.Made room ref block s u b t ⟨count, body, counter, count, false⟩ := by
  refine ⟨hcount, hbody, t, hcounter, ?_⟩
  simp [hstored, hword]

end Scene

/-! ## Loops as they run -/

/-- Whether the header of a loop with a count reads its bound ahead of every round: the
    condition of a `for` does so, while a range and a numeric `for` are set up once. -/
def Language.readsBoundAgain : Language → Bool
  | .php => true
  | .python | .lua => false

/-- Whether a text is a constant: a number, or a word without the sign of variables
    where they have one. -/
def Dialect.IsConstant (dialect : Dialect) (code : String) : Prop :=
  ¬Signed code ∧ (isNumber code = true ∨ IsLiteral code ∨
    dialect.policy.variableSign = "$" ∧ isSingleWord code = true)

/-- What a loop with a count uses when it runs. -/
structure Runtime (State Value : Type) where
  /-- The value of an expression. -/
  value : State → String → Value
  /-- The state after an expression is evaluated. -/
  after : State → String → State
  /-- The state after a variable is assigned. -/
  assign : State → String → Value → State
  zero : Value
  next : Value → Value
  less : Value → Value → Bool
  /-- The whole part of a number. -/
  whole : Value → Value
  /-- The number of rounds for a bound that is read once. -/
  rounds : Value → Nat

/-- What a language guarantees: constants keep their values, an assignment sets its
    variable and no other, and truncation depends on the value that is truncated. -/
structure Runtime.Lawful {State Value : Type} (runtime : Runtime State Value) (dialect : Dialect) :
    Prop where
  constant {code : String} (h : dialect.IsConstant code) (s t : State) :
    runtime.value s code = runtime.value t code
  assigned {x : String} (h : dialect.policy.IsVariable x) (s : State) (v : Value) :
    runtime.value (runtime.assign s x v) x = v
  other {x y : String} (hx : dialect.policy.IsVariable x) (hy : dialect.policy.IsVariable y)
    (hne : x ≠ y) (s : State) (v : Value) :
    runtime.value (runtime.assign s x v) y = runtime.value s y
  wrapped {before after : String} (h : dialect.repeatCount = .truncated before after)
    (s : State) (code : String) :
    runtime.value s (before ++ code ++ after) = runtime.whole (runtime.value s code)

section

variable {State Value : Type} (runtime : Runtime State Value) (body : State → State → Prop)

/-- Rounds one after the other. -/
inductive Repeated : Nat → State → State → Prop where
  | done (s : State) : Repeated 0 s s
  | round {n : Nat} {s t u : State} (hround : body s t) (hrest : Repeated n t u) :
    Repeated (n + 1) s u

/-- Rounds one after the other, where the counter is compared with the bound ahead of
    each of them. -/
inductive Recounted (counter bound : String) : Nat → State → State → Prop where
  | done {s : State} (hless : runtime.less (runtime.value s counter) (runtime.value s bound) = false) :
    Recounted counter bound 0 s s
  | round {n : Nat} {s t u : State}
    (hless : runtime.less (runtime.value s counter) (runtime.value s bound) = true)
    (hround : body s t)
    (hrest : Recounted counter bound n
      (runtime.assign t counter (runtime.next (runtime.value t counter))) u) :
    Recounted counter bound (n + 1) s u

/-- The state once the bound of a loop is set to its count, if it is a variable for
    that. -/
def CountedLoop.entered (loop : CountedLoop) (s : State) : State :=
  if loop.stored then
    runtime.assign (runtime.after s loop.count) loop.bound (runtime.value s loop.count)
  else s

/-- Whether a loop, entered in a state, does so many rounds and ends in another
    state. -/
def CountedLoop.Runs (language : Language) (loop : CountedLoop) (n : Nat) (s u : State) : Prop :=
  match language.readsBoundAgain with
  | true => Recounted runtime body loop.counter loop.bound n
    (runtime.assign (loop.entered runtime s) loop.counter runtime.zero) u
  | false => n = runtime.rounds (runtime.value s loop.bound) ∧
    Repeated body n (runtime.after s loop.bound) u

end

namespace CountedLoop

/-- Whether the number of rounds depends only on the value of the count when the loop is
    entered, however the language evaluates expressions, if a round leaves alone the
    counter and the bound in so far as they are variables that it does not assign. -/
def IsSettled (loop : CountedLoop) (language : Language) (assigns : String → Prop) : Prop :=
  ∀ {State Value : Type} (runtime : Runtime State Value), runtime.Lawful language.dialect →
    ∀ body : State → State → Prop,
      (∀ s t, body s t → ∀ x ∈ [loop.counter, loop.bound],
        language.dialect.policy.IsVariable x → ¬assigns x →
          runtime.value t x = runtime.value s x) →
      ∀ {n m s s' u u'}, loop.Runs runtime body language n s u →
        loop.Runs runtime body language m s' u' →
          runtime.value s loop.count = runtime.value s' loop.count → n = m

/-- Whether the bound of a loop cannot change from round to round: the header reads it
    once, or it is a constant or a variable that no round assigns. -/
def IsFixed (loop : CountedLoop) (language : Language) (assigns : String → Prop) : Prop :=
  language.readsBoundAgain = true →
    language.dialect.IsConstant loop.bound ∨
      language.dialect.policy.IsVariable loop.bound ∧ ¬assigns loop.bound

end CountedLoop

variable {State Value : Type} {runtime : Runtime State Value} {body : State → State → Prop}

/-- A loop that reads its bound again does as many rounds as the bound says, if no round
    changes the bound or the counter. -/
theorem Recounted.count_eq {counter bound : String} {n m : Nat} {s s' u u' : State}
    (hround : ∀ s t, body s t → runtime.value t counter = runtime.value s counter ∧
      runtime.value t bound = runtime.value s bound)
    (hassign : ∀ s v, runtime.value (runtime.assign s counter v) counter = v ∧
      runtime.value (runtime.assign s counter v) bound = runtime.value s bound)
    (h : Recounted runtime body counter bound n s u)
    (h' : Recounted runtime body counter bound m s' u')
    (hcounter : runtime.value s counter = runtime.value s' counter)
    (hbound : runtime.value s bound = runtime.value s' bound) : n = m := by
  induction h generalizing m s' with
  | done hless =>
    cases h' with
    | done => rfl
    | round hless' => rw [hcounter, hbound, hless'] at hless; cases hless
  | round hless hfirst _ ih =>
    cases h' with
    | done hless' => rw [hcounter, hbound, hless'] at hless; cases hless
    | round _ hfirst' hrest' =>
      obtain ⟨hc, hb⟩ := hround _ _ hfirst
      obtain ⟨hc', hb'⟩ := hround _ _ hfirst'
      refine congrArg (· + 1) (ih hrest' ?_ ?_)
      · rw [(hassign _ _).1, (hassign _ _).1, hc, hc', hcounter]
      · rw [(hassign _ _).2, (hassign _ _).2, hb, hb', hbound]

end BlockScript
