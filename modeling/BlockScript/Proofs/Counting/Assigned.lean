import BlockScript.Proofs.Expression.Rendering
import BlockScript.Proofs.Names.Course
import BlockScript.Proofs.Pass.Guard
import BlockScript.Proofs.Recipe.Follow

/-!
# What a round of a loop assigns

The statements that run in a round of a loop body are those in the body, and those in
the procedures that it calls, which may call others. A statement in a called procedure
assigns another variable than the one of that name around the loop if the name is a
parameter of the procedure that has the statement, or of the one that has the loop.
Snippets may assign the developer's variables, and every loop with a count assigns a
counter, and perhaps a bound, of its own.

Definitions:

* `Scene.Executes`: the blocks that run in a round of a loop.
* `Scene.Assigns`: the variables that a round of a loop can assign.

Results:

* `Scene.assignmentsWritten_assigns`: the texts of the statements that run in a round
  assign these variables.
* `Scene.not_assigns_of_withheld`: a word that is given out for nothing else, after the
  body is rendered, is none that a round can assign.
* `Scene.assigns_identifier_iff`: a round assigns the variable of a logical name only if
  one of its statements does.
-/

namespace BlockScript

open BlockScript.Text

/-- Whether a text is that of a variable. -/
def NamePolicy.IsVariable (policy : NamePolicy) (text : String) : Prop :=
  ∃ word, text = policy.sign .variable ++ word ∧ policy.Fits .variable word

/-- Whether a block declares a parameter, given in lower case. -/
def Block.Declares (block : Block Ref) (key : String) : Prop :=
  ∃ params name, block.params = .ok params ∧ .str name ∈ params ∧ lower name = key

/-- Whether a text is that of a statement which assigns to a target. -/
inductive Dialect.AssignsTo (dialect : Dialect) (target : String) : String → Prop where
  | assignment (value : String) :
    AssignsTo dialect target (dialect.statement (target ++ " = " ++ value))
  | change (summand : String) : AssignsTo dialect target (dialect.changeStatement target summand)

namespace Scene

variable {scene : Scene} {ref : Ref} {block : Block Ref} {room : Nat} {s t u b final : PassState}
  {text : String}

/-! ## Statements that a round runs -/

/-- Whether a block is an enabled one whose rule has a certain form. -/
def HasForm (scene : Scene) (ref : Ref) (block : Block Ref) (form : BlockForm) : Prop :=
  scene.graph.block? ref = some block ∧ block.enabled = true ∧
    ∃ rule, scene.rules.lookup block.type = .ok rule ∧ rule.handler = .form form

/-- Whether a block is the enabled definition of a procedure. -/
def IsDefinition (scene : Scene) (ref : Ref) : Prop :=
  ∃ block, scene.HasForm ref block .procedureDefinition

/-- Whether the code that a state keeps for a procedure is what a definition was rendered
    to. Of several definitions for one procedure, the last one that is rendered counts. -/
def InForce (scene : Scene) (final : PassState) (definition : Ref) (name : String) : Prop :=
  ∃ block word room s rendered t, scene.HasForm definition block .procedureDefinition ∧
    block.field "NAME" = .str name ∧
    final.identifier? scene.dialect.policy .procedure name = some word ∧
    scene.During s ∧ scene.renderWithin room definition s = (.ok rendered, t) ∧
    scene.Leads t final ∧
    Json.find? final.definitions.entries (Recipe.procedureKey word) =
      Json.find? t.definitions.entries (Recipe.procedureKey word)

/-- Whether a block is a call that runs a definition, in the program that a state
    keeps. -/
def Calls (scene : Scene) (final : PassState) (caller definition : Ref) : Prop :=
  ∃ block form name name', scene.HasForm caller block form ∧
    (form = .procedureCall ∨ form = .procedureCallStatement) ∧
    block.field "NAME" = .str name ∧ scene.InForce final definition name' ∧
    lower name = lower name'

/-- Whether a round of a loop runs a block: one of its body, or one of a procedure whose
    call runs it. What is inside a definition runs in calls only. -/
inductive Executes (scene : Scene) (block : Block Ref) (final : PassState) :
    Option Ref → Ref → Prop where
  | body {ref : Ref} (hmem : ref ∈ (scene.graph.chainFrom [] (block.statementInput "DO")).1) :
    Executes scene block final none ref
  | inside {call : Option Ref} {outer inner : Ref} (houter : Executes scene block final call outer)
    (hother : ¬scene.IsDefinition outer) (hinside : scene.RendersInside outer inner) :
    Executes scene block final call inner
  | called {call : Option Ref} {caller definition inner : Ref}
    (hcaller : Executes scene block final call caller)
    (hcalls : scene.Calls final caller definition)
    (hinside : scene.RendersInside definition inner) :
    Executes scene block final (some definition) inner

/-! ## Variables that a round assigns -/

/-- Whether a variable, given by its name in lower case, is a parameter of the procedure
    that a block defines. -/
def IsParameter (scene : Scene) (definition : Ref) (key : String) : Prop :=
  ∃ block, scene.graph.block? definition = some block ∧ block.Declares key

/-- Whether a place inside a nest of blocks, the innermost first, stands in a procedure
    that has a variable as its parameter. The innermost procedure counts. -/
inductive StandsUnder (scene : Scene) (key : String) : List Ref → Prop where
  | definition {ref : Ref} {nest : List Ref} (hdefinition : scene.IsDefinition ref)
    (hparameter : scene.IsParameter ref key) : StandsUnder scene key (ref :: nest)
  | inside {ref : Ref} {nest : List Ref} (hother : ¬scene.IsDefinition ref)
    (hrest : StandsUnder scene key nest) : StandsUnder scene key (ref :: nest)

/-- Whether a variable is the same one for a loop inside a nest of blocks and for a
    statement that its round runs, in the body or in the call of a procedure. Every call
    has parameters of its own. -/
def SameVariable (scene : Scene) (nest : List Ref) (key : String) : Option Ref → Prop
  | none => True
  | some definition => ¬scene.StandsUnder key nest ∧ ¬scene.IsParameter definition key

/-- Whether a round of a loop inside a nest of blocks can run a statement that assigns
    the variable with a name that is `key` in lower case. -/
def CanAssign (scene : Scene) (nest : List Ref) (block : Block Ref) (final : PassState)
    (key : String) : Prop :=
  ∃ call target other form name, scene.Executes block final call target ∧
    scene.HasForm target other form ∧ (form = .variableAssignment ∨ form = .change) ∧
    other.field Workspace.variableField = .str name ∧ lower name = key ∧
    scene.SameVariable nest key call

/-- Whether a text is that of a variable that a round of a loop can assign, where the
    body is rendered from one state to another one of a pass: the variable of a logical
    name, one of the developer's that a snippet may use, or the counter or the bound of a
    loop in the body. -/
inductive Assigns (scene : Scene) (block : Block Ref) (before after final : PassState) :
    String → Prop where
  | named {name text : String} (hname : scene.CanAssign before.active block final (lower name))
    (htext : final.identifier? scene.dialect.policy .variable name = some text) :
    Assigns scene block before after final text
  | developer {name text : String}
    (htext : final.identifier? scene.dialect.policy .developerVariable name = some text) :
    Assigns scene block before after final text
  | own {word : String} (hnew : word ∉ before.names.taken) (htaken : word ∈ after.names.taken) :
    Assigns scene block before after final (scene.dialect.policy.sign .variable ++ word)

/-- Whether the texts of the statements that a round runs assign the variables that they
    should: each that is rendered in the course of the pass assigns to the identifier of the
    variable that its block names, and that is one which the round assigns if it is the
    same around the loop. -/
def AssignmentsWritten (scene : Scene) (block : Block Ref) (final : PassState) (nest : List Ref)
    (assigns : String → Prop) : Prop :=
  ∀ call target other form room s rendered t, scene.Executes block final call target →
    scene.HasForm target other form → form = .variableAssignment ∨ form = .change →
    scene.During s → scene.renderWithin room target s = (.ok rendered, t) → scene.Leads t final →
    ∃ rule code name text, scene.rules.lookup other.type = .ok rule ∧
      rendered = .text (scene.statementText rule target other code) ∧
      other.field Workspace.variableField = .str name ∧
      final.identifier? scene.dialect.policy .variable name = some text ∧
      scene.dialect.AssignsTo text code ∧
      (scene.SameVariable nest (lower name) call → assigns text)

/-! ## Rendered blocks of a form -/

/-- What a block of a form renders to is what its rule makes of it. -/
theorem HasForm.renderWithin_eq_ok {form : BlockForm} {rendered : Rendered}
    (hform : scene.HasForm ref block form) (hs : s.Named scene.dialect.policy)
    (hrun : scene.renderWithin room ref s = (.ok rendered, t)) :
    ∃ less rule product u v, scene.rules.lookup block.type = .ok rule ∧
      u.Named scene.dialect.policy ∧ u.names = s.names ∧ u.active = ref :: s.active ∧
      t.names = v.names ∧
      scene.follow (scene.renderWithin less) ref block (form.recipe scene ref block) u =
        (.ok product, v) ∧
      scene.conclude rule ref block product = .ok rendered := by
  obtain ⟨hblock, henabled, rule, hrule, hhandler⟩ := hform
  obtain ⟨less, rfl, ⟨hno, -, -⟩ | ⟨other, rule', product, v, hother, -, hrule', hfollow, rfl,
    hconclude⟩⟩ := Scene.renderWithin_eq_ok hrun
  · rcases hno with hnone | ⟨other, hother, hdisabled⟩
    · cases hblock.symm.trans hnone
    · cases hblock.symm.trans hother
      cases henabled.symm.trans hdisabled
  · cases hblock.symm.trans hother
    cases hrule.symm.trans hrule'
    rw [hhandler] at hfollow
    exact ⟨less, rule, product, { s with depth := s.depth + 1, active := ref :: s.active }, v, hrule,
      ⟨hs.assigned, hs.helpers⟩, rfl, rfl, rfl, hfollow, hconclude⟩

/-- A rule that makes a text of a block has it among the statements. -/
theorem text_of_conclude {rule : Rule} {code : String} {rendered : Rendered}
    (h : scene.conclude rule ref block (.text code) = .ok rendered) :
    rendered = .text (scene.statementText rule ref block code) := by
  unfold conclude at h
  split at h <;> cases h
  rfl

/-! ## Bodies of procedures -/

/-- What a recipe comes to after a part that succeeds is asked for. -/
theorem asks_bind {α β : Type} {one : Ref → Pass Rendered} {recipe : Recipe α}
    {next : α → Recipe β} {request : Request} {a : α}
    (hrun : scene.follow one ref block recipe s = (.ok a, t)) (h : (next a).Asks request) :
    (recipe >>= next).Asks request := by
  show (Recipe.andThen recipe next).Asks request
  induction recipe generalizing s with
  | done result =>
    obtain ⟨rfl, rfl⟩ := follow_pure_eq_ok hrun
    exact h
  | fail failure => cases hrun
  | ask own rest ih =>
    obtain ⟨reply, u, -, hrest⟩ := Pass.bind_eq_ok hrun
    exact .inr ⟨reply, ih reply hrest⟩

/-- The call of a procedure runs the chain in the body of the definition that is in
    force. -/
theorem Executes.of_mem_stack {call : Option Ref} {caller definition : Ref} {other : Block Ref}
    (hcaller : scene.Executes block final call caller)
    (hcalls : scene.Calls final caller definition)
    (hother : scene.graph.block? definition = some other)
    (hmem : ref ∈ (scene.graph.chainFrom [] (other.statementInput "STACK")).1) :
    scene.Executes block final (some definition) ref := by
  have ⟨_, _, _, _, _, _, _, ⟨other', _, room, s, _, _, hform, _, _, hs, hrun, _⟩, _⟩ := hcalls
  obtain rfl : other' = other := Option.some.inj (hform.1.symm.trans hother)
  obtain ⟨_, _, _, _, _, -, -, -, -, -, hfollow, -⟩ := hform.renderWithin_eq_ok hs.named hrun
  obtain ⟨-, henabled, rule, hrule, hhandler⟩ := hform
  have hasks : (rule.handler.recipe scene definition other').Asks (.body "STACK" false) := by
    rw [hhandler]
    obtain ⟨name, w, hname, hrest⟩ := follow_bind_eq_ok hfollow
    obtain ⟨outer, x, houter, -⟩ := follow_bind_eq_ok hrest
    exact asks_bind hname (asks_bind houter (.inl rfl))
  exact .called hcaller hcalls ⟨other', rule, _, hother, henabled, hrule, hasks, hmem⟩

/-! ## Targets of statements -/

theorem nameOf_eq_ok {kind : NameKind} {name : Json}
    (hs : s.Named scene.dialect.policy)
    (hrun : scene.follow (scene.renderWithin room) ref block (Recipe.nameOf kind name) s =
      (.ok text, t)) :
    ∃ content, name = .str content ∧
      t.identifier? scene.dialect.policy kind content = some text := by
  cases name with
  | str content =>
    unfold Recipe.nameOf at hrun
    rw [follow_ask] at hrun
    exact ⟨content, rfl, (nameOf_sound hs hrun ⟨id, id⟩).1⟩
  | _ => cases hrun

/-- An assignment assigns the identifier of the variable that its block names. -/
theorem assignment_written {product : Product} (hs : s.Named scene.dialect.policy)
    (hrun : scene.follow (scene.renderWithin room) ref block
      (BlockForm.variableAssignment.recipe scene ref block) s = (.ok product, t)) :
    ∃ name target code, block.field Workspace.variableField = .str name ∧
      t.identifier? scene.dialect.policy .variable name = some target ∧
      scene.dialect.AssignsTo target code ∧ product = .text code := by
  obtain ⟨value, v, hvalue, hrest⟩ := follow_bind_eq_ok hrun
  obtain ⟨target, w, hname, hdone⟩ := follow_bind_eq_ok hrest
  obtain ⟨rfl, rfl⟩ := follow_pure_eq_ok hdone
  obtain ⟨name, hfield, htarget⟩ := nameOf_eq_ok ((later_of_follow hvalue).names.named hs) hname
  exact ⟨name, target, _, hfield, htarget, .assignment value, rfl⟩

/-- A change assigns the identifier of the variable that its block names. -/
theorem change_written {product : Product} (hs : s.Named scene.dialect.policy)
    (hrun : scene.follow (scene.renderWithin room) ref block
      (BlockForm.change.recipe scene ref block) s = (.ok product, t)) :
    ∃ name target code, block.field Workspace.variableField = .str name ∧
      t.identifier? scene.dialect.policy .variable name = some target ∧
      scene.dialect.AssignsTo target code ∧ product = .text code := by
  obtain ⟨_, v, himports, hrest⟩ := follow_bind_eq_ok hrun
  obtain ⟨summand, w, hsummand, hrest⟩ := follow_bind_eq_ok hrest
  obtain ⟨target, x, hname, hdone⟩ := follow_bind_eq_ok hrest
  obtain ⟨rfl, rfl⟩ := follow_pure_eq_ok hdone
  have hlater := (later_of_follow himports).names.named hs
  obtain ⟨name, hfield, htarget⟩ := nameOf_eq_ok ((later_of_follow hsummand).names.named hlater) hname
  exact ⟨name, target, _, hfield, htarget, .change summand, rfl⟩

/-- The texts of the statements that a round runs assign the variables that it
    assigns. -/
theorem assignmentsWritten_assigns :
    scene.AssignmentsWritten block final u.active (scene.Assigns block u b final) := by
  intro call target other form room s rendered t hexecutes hform hassigns hs hrun hlater
  obtain ⟨less, rule, product, s', t', hrule, hs', -, -, hnames', hfollow, hconclude⟩ :=
    hform.renderWithin_eq_ok hs.named hrun
  have hwritten : ∃ name text code, other.field Workspace.variableField = .str name ∧
      t'.identifier? scene.dialect.policy .variable name = some text ∧
      scene.dialect.AssignsTo text code ∧ product = .text code := by
    rcases hassigns with rfl | rfl
    · exact assignment_written hs' hfollow
    · exact change_written hs' hfollow
  obtain ⟨name, text, code, hfield, htext, hcode, rfl⟩ := hwritten
  have hfinal : final.identifier? scene.dialect.policy .variable name = some text := by
    obtain ⟨word, hlookup, hword⟩ := Option.map_eq_some_iff.mp htext
    rw [← hnames'] at hlookup
    exact Option.map_eq_some_iff.mpr ⟨word, hlater.extends.assigned hlookup, hword⟩
  refine ⟨rule, code, name, text, hrule, text_of_conclude hconclude, hfield, hfinal, hcode, ?_⟩
  intro hsame
  exact .named ⟨call, target, other, form, name, hexecutes, hform, hassigns, hfield, rfl, hsame⟩
    hfinal

/-! ## Words that no statement assigns -/

theorem identifier?_eq_some {state : PassState} {policy : NamePolicy} {kind : NameKind}
    {name : String} : state.identifier? policy kind name = some text ↔
      ∃ word, state.names.assigned.lookup (kind, lower name) = some word ∧
        policy.sign kind ++ word = text :=
  Option.map_eq_some_iff

/-- A word that is given out for nothing else, after the body is rendered, is none that
    a round can assign. -/
theorem not_assigns_of_withheld {word : String} (hnew : word ∉ b.names.taken)
    (hfinal : final.names.Withheld word) :
    ¬scene.Assigns block u b final (scene.dialect.policy.sign .variable ++ word) := by
  generalize htext : scene.dialect.policy.sign .variable ++ word = text
  rintro (⟨-, hname⟩ | ⟨hname⟩ | ⟨-, htaken⟩)
  · obtain ⟨other, hlookup, rfl⟩ := identifier?_eq_some.mp hname
    obtain rfl := (String.append_right_inj _).mp htext
    exact hfinal.unassigned _ hlookup
  · obtain ⟨other, hlookup, rfl⟩ := identifier?_eq_some.mp hname
    obtain rfl : word = other := (String.append_right_inj _).mp htext
    exact hfinal.unassigned _ hlookup
  · obtain rfl := (String.append_right_inj _).mp htext
    exact hnew htaken

/-- The variable of a logical name that had an identifier before the body was rendered
    is assigned in a round only if a statement names it. -/
theorem assigns_identifier_iff {name : String} (hu : u.names.Consistent)
    (hfinal : final.names.Consistent) (hlater : scene.Leads u final)
    (htext : u.identifier? scene.dialect.policy .variable name = some text) :
    scene.Assigns block u b final text ↔ scene.CanAssign u.active block final (lower name) := by
  obtain ⟨word, hlookup, rfl⟩ := identifier?_eq_some.mp htext
  have hlast := hlater.extends.assigned hlookup
  refine ⟨fun h => ?_, fun h => .named h (identifier?_eq_some.mpr ⟨word, hlast, rfl⟩)⟩
  generalize htext' : scene.dialect.policy.sign .variable ++ word = text at h
  cases h with
  | @named name' _ hassign hname' =>
    obtain ⟨other, hlookup', rfl⟩ := identifier?_eq_some.mp hname'
    obtain rfl := (String.append_right_inj _).mp htext'
    obtain ⟨-, heq⟩ := Prod.mk.inj (hfinal.injective hlast hlookup')
    rwa [heq]
  | developer hname' =>
    obtain ⟨other, hlookup', rfl⟩ := identifier?_eq_some.mp hname'
    obtain rfl : word = other := (String.append_right_inj _).mp htext'
    cases hfinal.injective hlast hlookup'
  | own hnew _ =>
    obtain rfl := (String.append_right_inj _).mp htext'
    exact absurd (hu.taken hlookup) hnew

end Scene

end BlockScript
