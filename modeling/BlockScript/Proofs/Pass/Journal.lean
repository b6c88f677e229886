import BlockScript.Proofs.Names.Reached

/-!
# The journal of a pass

A pass is told what it has to do by its blocks, one request after the other, and what it
makes of them depends on all that it did before. The journal of a pass lists its requests
for identifiers and helpers with the answers, the definitions that were set, the blocks that
were rendered with what they rendered to, and the texts of the top blocks, in the order in
which this happened. It is found by following the rendering from state to state, and it goes
on as far as the pass does.

Identifiers and definitions are all that a pass keeps of what it did. They can be told from
the journal: it is a replay of how they came about.

Definitions:

* `Event`, `Scene.journal`: the journal of a pass.
* `Ledger.Replays`: how an event changes the identifiers and definitions.

Results:

* `Scene.replays_journal`: the identifiers and definitions at the end of a pass are those
  that its journal leads to.
* `Scene.exists_renderJournal_eq`: what a block renders to is in the journal.
-/

namespace BlockScript

/-! ## Events -/

/-- What happens during a pass: an identifier is given out for a logical name, or for a
    request of its own; a helper is asked for, and its text is set at the first request; a
    definition is set, on account of a block or of none; a block is rendered; a top block
    gives its text. -/
inductive Event where
  | named (kind : NameKind) (name text : String)
  | own (kind : NameKind) (base text : String)
  | helper (key template name : String) (text : Option String)
  | defined (owner : Option Ref) (key code : String)
  | rendered (ref : Ref) (result : Rendered)
  | top (ref : Ref) (text : String)
  deriving DecidableEq, Repr

/-- What a step has to note, told from the state it starts in. -/
abbrev Journal :=
  PassState → List Event

namespace Journal

/-- Nothing to note. -/
def nothing : Journal :=
  fun _ => []

/-- What a step has to note, and what follows it if it succeeds. -/
def thenOf {α : Type} (p : Pass α) (first : Journal) (rest : α → Journal) : Journal :=
  fun s => first s ++
    match p s with
    | (.ok a, t) => rest a t
    | (.error _, _) => []

theorem thenOf_of_ok {α : Type} {p : Pass α} {first : Journal} {rest : α → Journal} {a : α}
    {s t : PassState} (h : p s = (.ok a, t)) : thenOf p first rest s = first s ++ rest a t := by
  unfold thenOf
  rw [h]

end Journal

namespace Scene

variable (scene : Scene)

/-! ## The journal of a rendering

Here `one` renders a single block, and `inner` tells what there is to note about that. -/

section Rendering

variable (one : Ref → Pass Rendered) (inner : Ref → Journal)

/-- The journal of a value socket. -/
def valueJournal (block : Block Ref) (socket : String) : Journal :=
  match block.valueInput socket with
  | none => .nothing
  | some target => inner target

/-- The journal of the blocks of a chain, up to one that gives a value. -/
def chainJournal : List Ref → Journal
  | [] => .nothing
  | ref :: refs =>
    .thenOf (one ref) (inner ref) fun
      | .text _ => chainJournal refs
      | .value .. => .nothing

/-- The journal of what starts at a place. -/
def placeJournal (place : Option Ref) : Journal :=
  match place with
  | none => .nothing
  | some ref =>
    let chain := chainJournal one inner (scene.graph.chainFrom [] (some ref)).1
    match scene.graph.block? ref with
    | none => .nothing
    | some block =>
      if block.enabled then
        match scene.rules.lookup block.type with
        | .ok rule => if rule.isValue then inner ref else chain
        | .error _ => .nothing
      else chain

/-- The request for a helper with its answer, and with the text that it sets. -/
def helperEvent (key template : String) (state : PassState) : Event :=
  let name := (state.definitions.provide scene.dialect.policy state.names key template
    scene.indent).1
  .helper key template name
    (if (Json.find? state.definitions.helpers key).isSome then none
      else some (Definitions.helperText template name scene.indent))

/-- The journal of an answer to a request of the recipe for a block. -/
def answerJournal (ref : Ref) (block : Block Ref) : Request → Journal
  | .value socket _ _ => valueJournal inner block socket
  | .body socket loop => fun s =>
    scene.placeJournal one inner (block.statementInput socket)
      (if loop then { s with loops := ref :: s.loops } else s)
  | .name kind name => fun s =>
    [.named kind name (s.names.get scene.dialect.policy name kind).1]
  | .freshName kind base => fun s =>
    [.own kind base (s.names.distinct scene.dialect.policy base kind).1]
  | .helper key template => fun s => [scene.helperEvent key template s]
  | .define key code => fun _ => [.defined (some ref) key code]
  | .enclosingLoop | .markContinue | .loopContinued _ | .warn _ => .nothing

/-- The journal of following a recipe for a block. -/
def followJournal {α : Type} (ref : Ref) (block : Block Ref) : Recipe α → Journal
  | .done _ => .nothing
  | .fail _ => .nothing
  | .ask request next =>
    .thenOf (scene.answer one ref block request) (scene.answerJournal one inner ref block request)
      fun reply => followJournal ref block (next reply)

end Rendering

/-- The journal of rendering one block with room for so many levels of nesting. -/
def renderJournal : Nat → Ref → Journal
  | 0, _ => .nothing
  | room + 1, ref =>
    match scene.graph.block? ref with
    | none => .nothing
    | some block =>
      if !block.enabled then .nothing
      else
        .thenOf (scene.permit ref block) .nothing fun rule =>
          let recipe := rule.handler.recipe scene ref block
          .thenOf (Pass.entering ref (scene.follow (scene.renderWithin room) ref block recipe))
            (fun s => scene.followJournal (scene.renderWithin room) (renderJournal room) ref block
              recipe { s with depth := s.depth + 1, active := ref :: s.active })
            fun product =>
              match scene.conclude rule ref block product with
              | .ok result => fun _ => [.rendered ref result]
              | .error _ => .nothing

/-! ## The journal of a workspace -/

/-- The journal of reserving names of variables. -/
def reserveJournal (kind : NameKind) : List String → Journal
  | [] => .nothing
  | name :: names =>
    .thenOf (Pass.nameOf scene.dialect.policy kind name)
      (fun s => [.named kind name (s.names.get scene.dialect.policy name kind).1])
      fun _ => reserveJournal kind names

/-- The journal of reserving names of procedures. -/
def reserveDefinedJournal : List Scalar → Journal
  | .text name :: names =>
    .thenOf (Pass.nameOf scene.dialect.policy .procedure name)
      (fun s => [.named .procedure name (s.names.get scene.dialect.policy name .procedure).1])
      fun _ => reserveDefinedJournal names
  | _ => .nothing

/-- The journal of reserving the names of the workspace. -/
def reserveNamesJournal : Journal :=
  .thenOf (Pass.ofExcept scene.usedVariables) .nothing fun used =>
    .thenOf (scene.reserve .variable used) (scene.reserveJournal .variable used) fun names =>
      .thenOf (scene.reserve .developerVariable scene.workspace.developerVariables)
        (scene.reserveJournal .developerVariable scene.workspace.developerVariables)
        fun developer =>
          .thenOf (scene.reserveDefined scene.definedNames)
            (scene.reserveDefinedJournal scene.definedNames) fun _ =>
              match scene.dialect.initialValue with
              | none => .nothing
              | some value =>
                if (developer ++ names).isEmpty then .nothing
                else fun _ =>
                  [.defined none variablesKey (initialLines value (developer ++ names))]

/-- The journal of the top blocks. -/
def topsJournal : List Ref → Journal
  | [] => .nothing
  | ref :: refs =>
    .thenOf (scene.renderPlace (some ref))
      (scene.placeJournal scene.render (scene.renderJournal (scene.graph.size + 1)) (some ref))
      fun rendered s => .top ref (scene.topText ref rendered) :: topsJournal refs s

/-- The journal of a pass over the workspace of the scene. -/
def journal : List Event :=
  Journal.thenOf scene.reserveNames scene.reserveNamesJournal
    (fun _ => scene.topsJournal scene.workspace.tops) {}

end Scene

/-! ## Replaying -/

/-- The identifiers and definitions of a pass. -/
structure Ledger where
  names : NameTable := {}
  definitions : Definitions := {}

/-- The identifiers and definitions of a pass. -/
def PassState.ledger (state : PassState) : Ledger :=
  ⟨state.names, state.definitions⟩

namespace Ledger

variable (policy : NamePolicy) (unit : String)

/-- How an event changes the identifiers and definitions, and which answer it comes with. -/
inductive Step : Ledger → Event → Ledger → Prop where
  | named (kind : NameKind) (name : String) (ledger : Ledger) :
    Step ledger (.named kind name (ledger.names.get policy name kind).1)
      { ledger with names := (ledger.names.get policy name kind).2 }
  | own (kind : NameKind) (base : String) (ledger : Ledger) :
    Step ledger (.own kind base (ledger.names.distinct policy base kind).1)
      { ledger with names := (ledger.names.distinct policy base kind).2 }
  | helperAgain {key name : String} (template : String) {ledger : Ledger}
    (h : Json.find? ledger.definitions.helpers key = some name) :
    Step ledger (.helper key template name none) ledger
  | helperFirst {key name text : String} {names : NameTable} (template : String)
    {ledger : Ledger} (h : Json.find? ledger.definitions.helpers key = none)
    (hname : ledger.names.distinct policy key .procedure = (name, names))
    (htext : text = Definitions.helperText template name unit) :
    Step ledger (.helper key template name (some text))
      ⟨names, { ledger.definitions.add key text with
        helpers := Json.insert ledger.definitions.helpers key name }⟩
  | defined (owner : Option Ref) (key code : String) (ledger : Ledger) :
    Step ledger (.defined owner key code)
      { ledger with definitions := ledger.definitions.add key code }
  | rendered (ref : Ref) (result : Rendered) (ledger : Ledger) :
    Step ledger (.rendered ref result) ledger
  | top (ref : Ref) (text : String) (ledger : Ledger) : Step ledger (.top ref text) ledger

/-- Whether identifiers and definitions come about by some events. -/
inductive Replays : Ledger → List Event → Ledger → Prop where
  | nil (ledger : Ledger) : Replays ledger [] ledger
  | cons {first second third : Ledger} {event : Event} {events : List Event}
    (h : Step policy unit first event second) (hrest : Replays second events third) :
    Replays first (event :: events) third

variable {policy unit} {first second third : Ledger} {event : Event} {events later : List Event}

theorem Replays.single (h : Step policy unit first event second) :
    Replays policy unit first [event] second :=
  .cons h (.nil second)

theorem Replays.append (h : Replays policy unit first events second)
    (hlater : Replays policy unit second later third) :
    Replays policy unit first (events ++ later) third := by
  induction h with
  | nil => exact hlater
  | cons h _ ih => exact .cons h (ih hlater)

end Ledger

/-! ## A pass and its journal -/

/-- Whether a journal tells what a step does to the identifiers and definitions. -/
def Pass.Logs {α : Type} (scene : Scene) (p : Pass α) (journal : Journal) : Prop :=
  ∀ s, Ledger.Replays scene.dialect.policy scene.indent s.ledger (journal s) (p s).2.ledger

namespace Pass.Logs

variable {scene : Scene} {α β : Type} {p : Pass α} {f : α → Pass β} {journal : Journal}

/-- A step with nothing to note. -/
theorem quiet (h : ∀ s, (p s).2.ledger = s.ledger) : p.Logs scene .nothing := by
  intro s
  rw [h s]
  exact .nil _

theorem pure (a : α) : (Pure.pure a : Pass α).Logs scene .nothing :=
  quiet fun _ => rfl

theorem throw (failure : Failure) : (MonadExcept.throw failure : Pass α).Logs scene .nothing :=
  quiet fun _ => rfl

theorem ofExcept (x : Except Failure α) : (Pass.ofExcept x).Logs scene .nothing := by
  cases x with
  | ok a => exact .pure a
  | error failure => exact .throw failure

theorem bind {rest : α → Journal} (h : p.Logs scene journal)
    (hrest : ∀ a, (f a).Logs scene (rest a)) :
    (p >>= f).Logs scene (.thenOf p journal rest) := by
  intro s
  have hfirst := h s
  rw [Pass.bind_apply]
  unfold Journal.thenOf
  cases hp : p s with
  | mk result t =>
    rw [hp] at hfirst
    cases result with
    | ok a => exact hfirst.append (hrest a t)
    | error failure => rwa [List.append_nil]

/-- A step that is followed by one with nothing to note. -/
theorem bind_quiet (h : p.Logs scene journal) (hrest : ∀ a, (f a).Logs scene .nothing) :
    (p >>= f).Logs scene journal := by
  have hboth := h.bind hrest
  have hsame : Journal.thenOf p journal (fun _ => Journal.nothing) = journal := by
    funext s
    unfold Journal.thenOf Journal.nothing
    obtain ⟨result, t⟩ := p s
    cases result <;> exact List.append_nil _
  rwa [hsame] at hboth

end Pass.Logs

namespace Scene

variable {scene : Scene} {one : Ref → Pass Rendered} {inner : Ref → Journal} {ref : Ref}
  {block : Block Ref}

/-! ## Rendering -/

section Rendering

variable (hone : ∀ target, (one target).Logs scene (inner target))
include hone

theorem logs_valueText (socket : String) (tier : Tier) (strict : Bool) :
    (scene.valueText one block socket tier strict).Logs scene
      (valueJournal inner block socket) := by
  unfold valueText valueJournal
  cases block.valueInput socket with
  | none => exact .pure ""
  | some target =>
    refine (hone target).bind_quiet fun rendered => ?_
    cases rendered with
    | text code =>
      dsimp only
      split
      · exact .pure ""
      · exact .throw _
    | value code inner =>
      dsimp only
      split
      · exact .pure ""
      · split
        · exact .pure _
        · exact .pure _

theorem logs_chainText (refs : List Ref) :
    (scene.chainText one refs).Logs scene (chainJournal one inner refs) := by
  induction refs with
  | nil => exact .pure ""
  | cons ref refs ih =>
    refine (hone ref).bind fun rendered => ?_
    cases rendered with
    | text code => exact ih.bind_quiet fun rest => .pure _
    | value code inner => exact .throw _

theorem logs_placeCode (place : Option Ref) :
    (scene.placeCode one place).Logs scene (scene.placeJournal one inner place) := by
  cases place with
  | none => exact .pure _
  | some ref =>
    have hchain : (scene.chainCode one ref >>= fun code => Pure.pure (Rendered.text code)).Logs
        scene (chainJournal one inner (scene.graph.chainFrom [] (some ref)).1) := by
      refine Pass.Logs.bind_quiet ((logs_chainText hone _).bind_quiet fun code => ?_)
        fun code => .pure _
      split
      · exact .pure code
      · exact .throw _
    unfold placeCode placeJournal
    dsimp only
    cases scene.graph.block? ref with
    | none => exact .pure _
    | some block =>
      dsimp only
      split
      · cases hlookup : scene.rules.lookup block.type with
        | error failure => exact .throw failure
        | ok rule =>
          rw [Pass.ofExcept_bind]
          dsimp only
          split
          · exact hone ref
          · exact hchain
      · exact hchain

theorem logs_bodyText (socket : String) :
    (scene.bodyText one block socket).Logs scene
      (scene.placeJournal one inner (block.statementInput socket)) := by
  refine (logs_placeCode hone _).bind_quiet fun rendered => ?_
  cases rendered with
  | text code => exact .pure _
  | value code inner => exact .throw _

omit hone in
theorem logs_helper (key template : String) :
    (Pass.helper scene.dialect.policy scene.indent key template).Logs scene
      fun s => [scene.helperEvent key template s] := by
  intro s
  show Ledger.Replays _ _ s.ledger [scene.helperEvent key template s]
    ⟨(s.definitions.provide scene.dialect.policy s.names key template scene.indent).2.1,
      (s.definitions.provide scene.dialect.policy s.names key template scene.indent).2.2⟩
  unfold helperEvent Definitions.provide
  cases hfind : Json.find? s.definitions.helpers key with
  | some name => exact .single (.helperAgain template hfind)
  | none => exact .single (.helperFirst template hfind rfl rfl)

theorem logs_answer (request : Request) :
    (scene.answer one ref block request).Logs scene
      (scene.answerJournal one inner ref block request) := by
  cases request with
  | value socket tier strict => exact logs_valueText hone socket tier strict
  | body socket loop =>
    cases loop with
    | true => exact fun s => logs_bodyText hone socket { s with loops := ref :: s.loops }
    | false => exact logs_bodyText hone socket
  | name kind name => exact fun s => .single (.named kind name s.ledger)
  | freshName kind base => exact fun s => .single (.own kind base s.ledger)
  | helper key template => exact logs_helper key template
  | define key code => exact fun s => .single (.defined (some ref) key code s.ledger)
  | markContinue =>
    refine .quiet fun s => ?_
    show (Pass.markContinue s).2.ledger = s.ledger
    unfold Pass.markContinue
    rw [Pass.modify_apply]
    dsimp only
    split <;> rfl
  | enclosingLoop | loopContinued | warn => exact .quiet fun _ => rfl

theorem logs_follow {α : Type} (recipe : Recipe α) :
    (scene.follow one ref block recipe).Logs scene
      (scene.followJournal one inner ref block recipe) := by
  induction recipe with
  | done result => exact .pure result
  | fail failure => exact .throw failure
  | ask request next ih => exact (logs_answer hone request).bind ih

end Rendering

theorem logs_permit : (scene.permit ref block).Logs scene .nothing := by
  refine .quiet fun s => ?_
  unfold permit
  rw [Pass.bind_apply, Pass.get_apply]
  dsimp only
  split
  · rfl
  · split
    · rfl
    · cases scene.rules.lookup block.type <;> rfl

theorem logs_renderWithin (room : Nat) (ref : Ref) :
    (scene.renderWithin room ref).Logs scene (scene.renderJournal room ref) := by
  induction room generalizing ref with
  | zero => exact .throw _
  | succ room ih =>
    unfold renderWithin renderJournal
    cases scene.graph.block? ref with
    | none => exact .pure _
    | some block =>
      dsimp only
      split
      · exact .pure _
      · refine logs_permit.bind fun rule => ?_
        have hfollow : (scene.follow (scene.renderWithin room) ref block _).Logs scene
            (scene.followJournal (scene.renderWithin room) (scene.renderJournal room) ref block _) :=
          logs_follow ih (rule.handler.recipe scene ref block)
        have hentered : (Pass.entering ref (scene.follow (scene.renderWithin room) ref block
            (rule.handler.recipe scene ref block))).Logs scene fun s =>
              scene.followJournal (scene.renderWithin room) (scene.renderJournal room) ref block
                (rule.handler.recipe scene ref block)
                { s with depth := s.depth + 1, active := ref :: s.active } :=
          fun s => hfollow { s with depth := s.depth + 1, active := ref :: s.active }
        refine hentered.bind fun product => ?_
        cases scene.conclude rule ref block product with
        | error failure => exact .throw failure
        | ok result => exact fun s => .single (.rendered ref result s.ledger)

/-- What a block renders to is the last that its journal tells. -/
theorem exists_renderJournal_eq {room : Nat} {result : Rendered} {s t : PassState}
    (hblock : scene.graph.block? ref = some block) (henabled : block.enabled = true)
    (hrun : scene.renderWithin room ref s = (.ok result, t)) :
    ∃ events, scene.renderJournal room ref s = events ++ [.rendered ref result] := by
  cases room with
  | zero => cases hrun
  | succ room =>
    unfold renderWithin at hrun
    rw [hblock] at hrun
    dsimp only at hrun
    rw [henabled, Bool.not_true, if_neg Bool.false_ne_true] at hrun
    obtain ⟨rule, u, hpermit, hrest⟩ := Pass.bind_eq_ok hrun
    obtain ⟨product, v, hfollow, hconclude⟩ := Pass.bind_eq_ok hrest
    obtain ⟨hresult, rfl⟩ := Pass.ofExcept_eq_ok hconclude
    unfold renderJournal
    rw [hblock]
    dsimp only
    rw [henabled, Bool.not_true, if_neg Bool.false_ne_true, Journal.thenOf_of_ok hpermit,
      Journal.thenOf_of_ok hfollow, hresult]
    exact ⟨_, (List.append_assoc ..).symm⟩

/-! ## Whole passes -/

theorem logs_nameOf (kind : NameKind) (name : String) :
    (Pass.nameOf scene.dialect.policy kind name).Logs scene
      fun s => [.named kind name (s.names.get scene.dialect.policy name kind).1] :=
  fun s => .single (.named kind name s.ledger)

theorem logs_reserve (kind : NameKind) (names : List String) :
    (scene.reserve kind names).Logs scene (scene.reserveJournal kind names) := by
  induction names with
  | nil => exact .pure _
  | cons name names ih =>
    exact (logs_nameOf kind name).bind fun _ => ih.bind_quiet fun _ => .pure _

theorem logs_reserveDefined (names : List Scalar) :
    (scene.reserveDefined names).Logs scene (scene.reserveDefinedJournal names) := by
  induction names with
  | nil => exact .pure _
  | cons name names ih =>
    cases name with
    | text content => exact (logs_nameOf .procedure content).bind fun _ => ih
    | _ => exact .throw _

theorem logs_reserveNames : scene.reserveNames.Logs scene scene.reserveNamesJournal := by
  refine (Pass.Logs.ofExcept _).bind fun used => (logs_reserve _ _).bind fun names =>
    (logs_reserve _ _).bind fun developer => (logs_reserveDefined _).bind fun _ => ?_
  cases scene.dialect.initialValue with
  | none => exact .pure _
  | some value =>
    dsimp only
    split
    · exact .pure _
    · exact fun s => .single (.defined none _ _ s.ledger)

theorem logs_topTexts (refs : List Ref) :
    (scene.topTexts refs).Logs scene (scene.topsJournal refs) := by
  induction refs with
  | nil => exact .pure _
  | cons ref refs ih =>
    rw [topTexts_cons]
    refine Pass.Logs.bind (logs_placeCode (logs_renderWithin _) (some ref)) fun rendered => ?_
    have hrest := ih.bind_quiet (f := fun texts => Pure.pure
      (if scene.topText ref rendered = "" then texts else scene.topText ref rendered :: texts))
      fun _ => .pure _
    exact fun s => .cons (.top ref _ s.ledger) (hrest s)

/-- The identifiers and definitions at the end of a pass are those that its journal leads
    to, also if the pass fails. -/
theorem replays_journal (scene : Scene) :
    Ledger.Replays scene.dialect.policy scene.indent {} scene.journal
      (scene.program {}).2.ledger := by
  have hprogram : scene.program.Logs scene (.thenOf scene.reserveNames scene.reserveNamesJournal
      fun _ => scene.topsJournal scene.workspace.tops) :=
    logs_reserveNames.bind fun _ => (logs_topTexts _).bind_quiet fun _ => .quiet fun _ => rfl
  exact hprogram {}

end Scene

end BlockScript
