import BlockScript.Proofs.Code.Parts

/-!
# Paths through a program

The control flow of a program as a machine that runs through the lines of a layout.
Which way a condition goes and how often a loop repeats are left open. A path meets
the snippets around statements one after the other.

Results:

* `Flow.Ready.step`: a step from a point where the snippets fit leads to such a point.
* `Flow.Balanced.paired`: along every path, the snippet that opens a statement is followed
  by the one that closes it.
-/

namespace BlockScript

/-- Whether lines with a role are run and passed. The inside of a procedure is not
    run where it is defined. -/
def Role.isPassed : Role → Bool
  | .comment | .trap | .statement | .value | .bound | .label | .procedure | .outer | .filler
  | .closer => true
  | _ => false

/-- Lines without the other arms of a conditional at their start. -/
def Layout.pastArms : Layout → Layout
  | .line (.branch (_ + 1) _, _) _ rest => pastArms rest
  | .line (.otherwise, _) _ rest => pastArms rest
  | parts => parts

namespace Flow

/-! ## The machine -/

/-- A snippet that a path meets. -/
inductive Hook where
  | start (ref : Ref)
  | stop (ref : Ref)
  deriving DecidableEq, Repr

/-- What is left to run: the lines of a sequence, or a loop at its next test. -/
inductive Frame where
  | lines (rest : Layout)
  | test (inside : Layout)
  deriving DecidableEq, Repr

/-- A point of a path: the frames left to run, the innermost one first. -/
abbrev Point := List Frame

/-- Where the innermost loop is at its next test. -/
def nextTest : Point → Option Point
  | [] => none
  | .lines _ :: rest => nextTest rest
  | .test inside :: rest => some (.test inside :: rest)

/-- One step of a path, with the snippets that it meets. -/
inductive Step : Point → List Hook → Point → Prop
  | finish {rest : Point} : Step (.lines .nil :: rest) [] rest
  | pass {role : Role} {ref : Ref} {inside more : Layout} {rest : Point}
    (hrole : role.isPassed = true) :
    Step (.lines (.line (role, ref) inside more) :: rest) [] (.lines more :: rest)
  | start {ref : Ref} {inside more : Layout} {rest : Point} :
    Step (.lines (.line (.opening, ref) inside more) :: rest) [.start ref] (.lines more :: rest)
  | stop {ref : Ref} {inside more : Layout} {rest : Point} :
    Step (.lines (.line (.closing, ref) inside more) :: rest) [.stop ref] (.lines more :: rest)
  | enterArm {arm : Nat} {socket : String} {ref : Ref} {inside more : Layout} {rest : Point} :
    Step (.lines (.line (.branch arm socket, ref) inside more) :: rest) []
      (.lines inside :: .lines more.pastArms :: rest)
  | skipArm {arm : Nat} {socket : String} {ref : Ref} {inside more : Layout} {rest : Point} :
    Step (.lines (.line (.branch arm socket, ref) inside more) :: rest) [] (.lines more :: rest)
  | otherwise {ref : Ref} {inside more : Layout} {rest : Point} :
    Step (.lines (.line (.otherwise, ref) inside more) :: rest) []
      (.lines inside :: .lines more :: rest)
  | loop {ref : Ref} {inside more : Layout} {rest : Point} :
    Step (.lines (.line (.loop, ref) inside more) :: rest) [] (.test inside :: .lines more :: rest)
  | enterLoop {inside : Layout} {rest : Point} :
    Step (.test inside :: rest) [] (.lines inside :: .test inside :: rest)
  | leaveLoop {inside : Layout} {rest : Point} : Step (.test inside :: rest) [] rest
  | «break» {ref : Ref} {inside more body : Layout} {rest after : Point}
    (htest : nextTest rest = some (.test body :: after)) :
    Step (.lines (.line (.jump .break, ref) inside more) :: rest) [] after
  | «continue» {ref : Ref} {inside more : Layout} {rest test : Point}
    (htest : nextTest rest = some test) :
    Step (.lines (.line (.jump .continue, ref) inside more) :: rest) [] test
  | giveBack {ref : Ref} {inside more : Layout} {rest : Point} :
    Step (.lines (.line (.giveBack, ref) inside more) :: rest) [] []

/-- A path from one point to another, with the snippets that it meets. -/
inductive Path : Point → List Hook → Point → Prop
  | refl (point : Point) : Path point [] point
  | step {first second third : Point} {hooks more : List Hook} (hstep : Step first hooks second)
    (hpath : Path second more third) : Path first (hooks ++ more) third

/-- The snippets around the statements of blocks, one after the other. -/
def Hook.pairs (refs : List Ref) : List Hook :=
  refs.flatMap fun ref => [.start ref, .stop ref]

/-- Whether every statement that a path opens is closed next. None is open where the
    path ends. -/
def Paired (hooks : List Hook) (point : Point) : Prop :=
  ∃ refs, hooks <+: Hook.pairs refs ∧ (point = [] → hooks = Hook.pairs refs)

/-! ## Sequences of snippets -/

/-- Whether snippets lead from one open statement to another one: only one is open at
    a time. -/
inductive Alternates : Option Ref → List Hook → Option Ref → Prop
  | nil (current : Option Ref) : Alternates current [] current
  | start {ref : Ref} {hooks : List Hook} {last : Option Ref}
    (hrest : Alternates (some ref) hooks last) : Alternates none (.start ref :: hooks) last
  | stop {ref : Ref} {hooks : List Hook} {last : Option Ref}
    (hrest : Alternates none hooks last) : Alternates (some ref) (.stop ref :: hooks) last

theorem Alternates.append {first second third : Option Ref} {hooks more : List Hook}
    (h : Alternates first hooks second) (h' : Alternates second more third) :
    Alternates first (hooks ++ more) third := by
  induction h with
  | nil current => exact h'
  | start _ ih => exact .start (ih h')
  | stop _ ih => exact .stop (ih h')

/-- Snippets that start with none open are pairs, and the first half of one if a
    statement is open. -/
theorem Alternates.eq_pairs {first last : Option Ref} {hooks : List Hook}
    (h : Alternates first hooks last) :
    ∃ refs, first.toList.map Hook.start ++ hooks =
      Hook.pairs refs ++ last.toList.map Hook.start := by
  induction h with
  | nil current => exact ⟨[], by simp [Hook.pairs]⟩
  | start _ ih => exact ih
  | @stop ref _ _ _ ih =>
    obtain ⟨refs, hrefs⟩ := ih
    exact ⟨ref :: refs, by simpa [Hook.pairs] using hrefs⟩

/-! ## Points where the snippets fit -/

/-- Whether lines lead from one open statement to another one along every path through
    them. A jump is allowed where the statement of the loop around it is open, and a
    return where none is. -/
inductive Balanced : (loop before : Option Ref) → Layout → (after : Option Ref) → Prop
  | nil {loop current : Option Ref} : Balanced loop current .nil current
  | pass {loop before after : Option Ref} {role : Role} {ref : Ref} {inside rest : Layout}
    (hrole : role.isPassed = true) (hrest : Balanced loop before rest after) :
    Balanced loop before (.line (role, ref) inside rest) after
  | opening {loop after : Option Ref} {ref : Ref} {inside rest : Layout}
    (hrest : Balanced loop (some ref) rest after) :
    Balanced loop none (.line (.opening, ref) inside rest) after
  | closing {loop after : Option Ref} {ref : Ref} {inside rest : Layout}
    (hrest : Balanced loop none rest after) :
    Balanced loop (some ref) (.line (.closing, ref) inside rest) after
  | branch {loop before middle after : Option Ref} {arm : Nat} {socket : String} {ref : Ref}
    {inside rest : Layout} (hinside : Balanced loop before inside middle)
    (hpast : Balanced loop middle rest.pastArms after) (hrest : Balanced loop before rest after) :
    Balanced loop before (.line (.branch arm socket, ref) inside rest) after
  | otherwise {loop before middle after : Option Ref} {ref : Ref} {inside rest : Layout}
    (hinside : Balanced loop before inside middle) (hrest : Balanced loop middle rest after) :
    Balanced loop before (.line (.otherwise, ref) inside rest) after
  | loop {around after : Option Ref} {ref : Ref} {inside rest : Layout}
    (hinside : Balanced (some ref) (some ref) inside (some ref))
    (hrest : Balanced around (some ref) rest after) :
    Balanced around (some ref) (.line (.loop, ref) inside rest) after
  | jump {around : Ref} {after : Option Ref} {flow : FlowStatement} {ref : Ref}
    {inside rest : Layout} :
    Balanced (some around) (some around) (.line (.jump flow, ref) inside rest) after
  | giveBack {loop after : Option Ref} {ref : Ref} {inside rest : Layout} :
    Balanced loop none (.line (.giveBack, ref) inside rest) after

/-- Whether the snippets fit along every path from a point, where `current` is the
    open statement and `loop` the innermost loop. -/
inductive Ready : (current loop : Option Ref) → Point → Prop
  | done : Ready none none []
  | lines {current next loop : Option Ref} {parts : Layout} {rest : Point}
    (hparts : Balanced loop current parts next) (hrest : Ready next loop rest) :
    Ready current loop (.lines parts :: rest)
  | test {ref : Ref} {loop : Option Ref} {inside : Layout} {rest : Point}
    (hinside : Balanced (some ref) (some ref) inside (some ref))
    (hrest : Ready (some ref) loop rest) : Ready (some ref) (some ref) (.test inside :: rest)

variable {current loop : Option Ref} {point next : Point} {hooks : List Hook} {around : Ref}

/-- Inside a loop there is a next test, where the statement of the loop is open. -/
theorem Ready.nextTest (h : Ready current (some around) point) :
    ∃ body after outer, nextTest point = some (.test body :: after) ∧
      Ready (some around) (some around) (.test body :: after) ∧ Ready (some around) outer after := by
  generalize hloop : some around = loop at h
  induction h with
  | done => cases hloop
  | lines _ _ ih => exact ih hloop
  | test hinside hrest =>
    cases hloop
    exact ⟨_, _, _, rfl, .test hinside hrest, hrest⟩

/-- A step from a point where the snippets fit leads to such a point. -/
theorem Ready.step (h : Ready current loop point) (hstep : Step point hooks next) :
    ∃ current' loop', Ready current' loop' next ∧ Alternates current hooks current' := by
  cases hstep with
  | finish =>
    obtain ⟨⟩ | ⟨⟨⟩, hrest⟩ := h
    exact ⟨_, _, hrest, .nil _⟩
  | pass hrole =>
    obtain ⟨⟩ | ⟨hparts, hrest⟩ := h
    cases hparts with
    | pass _ hmore => exact ⟨_, _, .lines hmore hrest, .nil _⟩
    | _ => cases hrole
  | start =>
    obtain ⟨⟩ | ⟨hparts, hrest⟩ := h
    cases hparts with
    | opening hmore => exact ⟨_, _, .lines hmore hrest, .start (.nil _)⟩
    | pass hrole _ => cases hrole
  | stop =>
    obtain ⟨⟩ | ⟨hparts, hrest⟩ := h
    cases hparts with
    | closing hmore => exact ⟨_, _, .lines hmore hrest, .stop (.nil _)⟩
    | pass hrole _ => cases hrole
  | enterArm =>
    obtain ⟨⟩ | ⟨hparts, hrest⟩ := h
    cases hparts with
    | branch hinside hpast _ => exact ⟨_, _, .lines hinside (.lines hpast hrest), .nil _⟩
    | pass hrole _ => cases hrole
  | skipArm =>
    obtain ⟨⟩ | ⟨hparts, hrest⟩ := h
    cases hparts with
    | branch _ _ hmore => exact ⟨_, _, .lines hmore hrest, .nil _⟩
    | pass hrole _ => cases hrole
  | otherwise =>
    obtain ⟨⟩ | ⟨hparts, hrest⟩ := h
    cases hparts with
    | otherwise hinside hmore => exact ⟨_, _, .lines hinside (.lines hmore hrest), .nil _⟩
    | pass hrole _ => cases hrole
  | loop =>
    obtain ⟨⟩ | ⟨hparts, hrest⟩ := h
    cases hparts with
    | loop hinside hmore => exact ⟨_, _, .test hinside (.lines hmore hrest), .nil _⟩
    | pass hrole _ => cases hrole
  | enterLoop =>
    cases h with
    | test hinside hrest => exact ⟨_, _, .lines hinside (.test hinside hrest), .nil _⟩
  | leaveLoop =>
    cases h with
    | test _ hrest => exact ⟨_, _, hrest, .nil _⟩
  | «break» htest =>
    obtain ⟨⟩ | ⟨hparts, hrest⟩ := h
    cases hparts with
    | jump =>
      obtain ⟨body, after, outer, hnext, -, hafter⟩ := hrest.nextTest
      cases hnext.symm.trans htest
      exact ⟨_, _, hafter, .nil _⟩
    | pass hrole _ => cases hrole
  | «continue» htest =>
    obtain ⟨⟩ | ⟨hparts, hrest⟩ := h
    cases hparts with
    | jump =>
      obtain ⟨body, after, outer, hnext, hready, -⟩ := hrest.nextTest
      cases hnext.symm.trans htest
      exact ⟨_, _, hready, .nil _⟩
    | pass hrole _ => cases hrole
  | giveBack =>
    obtain ⟨⟩ | ⟨hparts, hrest⟩ := h
    cases hparts with
    | giveBack => exact ⟨_, _, .done, .nil _⟩
    | pass hrole _ => cases hrole

/-- A path goes on from every point where the snippets fit, unless it is at its end. -/
theorem Ready.progress (h : Ready current loop point) :
    point = [] ∨ ∃ hooks next, Step point hooks next := by
  cases h with
  | done => exact .inl rfl
  | test hinside hrest => exact .inr ⟨_, _, .leaveLoop⟩
  | lines hparts hrest =>
    refine .inr ?_
    cases hparts with
    | nil => exact ⟨_, _, .finish⟩
    | pass hrole => exact ⟨_, _, .pass hrole⟩
    | opening => exact ⟨_, _, .start⟩
    | closing => exact ⟨_, _, .stop⟩
    | branch => exact ⟨_, _, .skipArm⟩
    | otherwise => exact ⟨_, _, .otherwise⟩
    | loop => exact ⟨_, _, .loop⟩
    | @jump _ _ flow =>
      obtain ⟨body, after, outer, hnext, -, -⟩ := hrest.nextTest
      cases flow with
      | «break» => exact ⟨_, _, .break hnext⟩
      | «continue» => exact ⟨_, _, .continue hnext⟩
    | giveBack => exact ⟨_, _, .giveBack⟩

/-- The snippets fit at the end of a path from a point where they do. -/
theorem Ready.path (h : Ready current loop point) (hpath : Path point hooks next) :
    ∃ current' loop', Ready current' loop' next ∧ Alternates current hooks current' := by
  induction hpath generalizing current loop with
  | refl point => exact ⟨_, _, h, .nil _⟩
  | step hstep _ ih =>
    obtain ⟨middle, inner, hmiddle, hfirst⟩ := h.step hstep
    obtain ⟨last, innermost, hlast, hsecond⟩ := ih hmiddle
    exact ⟨last, innermost, hlast, hfirst.append hsecond⟩

/-- Along every path, the snippet that opens a statement is followed by the one that
    closes it, and none is open where the path ends. -/
theorem Balanced.paired {parts : Layout} (h : Balanced none none parts none)
    (hpath : Path [.lines parts] hooks point) : Paired hooks point := by
  obtain ⟨current, loop, hready, halternates⟩ := (Ready.lines h .done).path hpath
  obtain ⟨refs, hrefs⟩ := halternates.eq_pairs
  cases current with
  | none =>
    obtain rfl : hooks = Hook.pairs refs := by simpa using hrefs
    exact ⟨refs, List.prefix_rfl, fun _ => rfl⟩
  | some ref =>
    refine ⟨refs ++ [ref], ⟨[.stop ref], ?_⟩, ?_⟩
    · have hlist : hooks = Hook.pairs refs ++ [.start ref] := by simpa using hrefs
      simp [hlist, Hook.pairs]
    · rintro rfl
      cases hready

end Flow

end BlockScript
