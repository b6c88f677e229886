import BlockScript.Proofs.Pass.Journal
import BlockScript.Proofs.Pass.Reported
import BlockScript.Proofs.Recipe.Follow
import BlockScript.Proofs.Recipe.Stock

/-!
# Events and what accounts for them

Every event in the journal of a pass is accounted for: a helper or an import is one that the
language has, and the definition of a procedure belongs to a block of the workspace that was
given the name of the procedure, that was rendered, and that rendered to nothing.

An event of one block is accounted for by other events of that block, so what accounts for
two stretches of a journal accounts for both of them together. The blocks inside a block are
an induction on the room for nesting.

Results:

* `Scene.Speaks.accounted_journal`: all events of a pass are accounted for.
-/

namespace BlockScript

open BlockScript.Text

/-! ## Properties of journals -/

/-- Whether a property of stretches of a journal holds of two together that it holds of. -/
structure Accumulates (P : List Event → Prop) : Prop where
  nil : P []
  append {events later : List Event} (h : P events) (h' : P later) : P (events ++ later)

/-- Whether what a step has to note has a property in every state. -/
def Journal.Always (P : List Event → Prop) (journal : Journal) : Prop :=
  ∀ s, P (journal s)

namespace Accumulates

variable {P : List Event → Prop} (hP : Accumulates P) {α : Type} {scene : Scene}
  {one : Ref → Pass Rendered} {inner : Ref → Journal} {ref : Ref} {block : Block Ref}
include hP

theorem nothing : Journal.nothing.Always P :=
  fun _ => hP.nil

theorem thenOf {p : Pass α} {first : Journal} {rest : α → Journal} (hfirst : first.Always P)
    (hrest : ∀ s a t, p s = (.ok a, t) → P (rest a t)) : (Journal.thenOf p first rest).Always P := by
  intro s
  refine hP.append (hfirst s) ?_
  cases hp : p s with
  | mk result t =>
    cases result with
    | ok a => exact hrest s a t hp
    | error failure => exact hP.nil

theorem valueJournal {socket : String}
    (h : ∀ target, block.valueInput socket = some target → (inner target).Always P) :
    (Scene.valueJournal inner block socket).Always P := by
  unfold Scene.valueJournal
  cases hinput : block.valueInput socket with
  | none => exact hP.nothing
  | some target => exact h target hinput

theorem chainJournal {refs : List Ref} (h : ∀ target ∈ refs, (inner target).Always P) :
    (Scene.chainJournal one inner refs).Always P := by
  induction refs with
  | nil => exact hP.nothing
  | cons first rest ih =>
    refine hP.thenOf (h first List.mem_cons_self) fun s rendered t _ => ?_
    cases rendered with
    | text code => exact ih (fun target htarget => h target (List.mem_cons_of_mem _ htarget)) t
    | value code tier => exact hP.nil

theorem placeJournal {place : Option Ref}
    (h : ∀ target ∈ (scene.graph.chainFrom [] place).1, (inner target).Always P) :
    (scene.placeJournal one inner place).Always P := by
  cases place with
  | none => exact hP.nothing
  | some head =>
    have hchain : (Scene.chainJournal one inner _).Always P := hP.chainJournal h
    unfold Scene.placeJournal
    dsimp only
    cases hblock : scene.graph.block? head with
    | none => exact hP.nothing
    | some block =>
      dsimp only
      split
      · split
        · split
          · exact h head (Graph.mem_chainFrom_self hblock)
          · exact hchain
        · exact hP.nothing
      · exact hchain

/-- The events of an answer: those of the request itself, and those of the blocks that are
    rendered for it. -/
theorem answerJournal {request : Request}
    (h : ∀ target ∈ scene.targets block request, (inner target).Always P)
    (hname : ∀ kind name text, P [.named kind name text])
    (hown : ∀ kind base text, P [.own kind base text])
    (hhelper : ∀ key template name text, request = .helper key template →
      P [.helper key template name text])
    (hdefine : ∀ key code, request = .define key code → P [.defined (some ref) key code]) :
    (scene.answerJournal one inner ref block request).Always P := by
  cases request with
  | value socket tier strict =>
    exact hP.valueJournal fun target htarget => h target (by simp [Scene.targets, htarget])
  | body socket loop => exact fun s => hP.placeJournal h _
  | name kind name => exact fun s => hname _ _ _
  | freshName kind base => exact fun s => hown _ _ _
  | helper key template => exact fun s => hhelper _ _ _ _ rfl
  | define key code => exact fun s => hdefine _ _ rfl
  | enclosingLoop | markContinue | loopContinued | warn => exact hP.nothing

/-- The events of a recipe are those of its answers. -/
theorem followJournal {ask : Request → Prop} {fail : Failure → Prop} {recipe : Recipe α}
    (h : recipe.Only ask fail)
    (hanswer : ∀ request, ask request →
      (scene.answerJournal one inner ref block request).Always P) :
    (scene.followJournal one inner ref block recipe).Always P := by
  induction recipe with
  | done result => exact hP.nothing
  | fail failure => exact hP.nothing
  | ask request next ih =>
    exact hP.thenOf (hanswer request h.1) fun s reply t _ => ih reply (h.2 reply) t

/-- The events ahead of the top blocks. -/
theorem reserveNamesJournal (hnamed : ∀ kind name text, P [.named kind name text])
    (hinitial : ∀ value names, scene.dialect.initialValue = some value → names ≠ [] →
      P [.defined none Scene.variablesKey (Scene.initialLines value names)]) :
    scene.reserveNamesJournal.Always P := by
  have hreserve : ∀ kind names, (scene.reserveJournal kind names).Always P := by
    intro kind names
    induction names with
    | nil => exact hP.nothing
    | cons name names ih => exact hP.thenOf (fun s => hnamed ..) fun _ _ t _ => ih t
  have hdefined : ∀ names, (scene.reserveDefinedJournal names).Always P := by
    intro names
    induction names with
    | nil => exact hP.nothing
    | cons name names ih =>
      cases name with
      | text content => exact hP.thenOf (fun s => hnamed ..) fun _ _ t _ => ih t
      | _ => exact hP.nothing
  refine hP.thenOf hP.nothing fun _ used t _ => hP.thenOf (hreserve _ _) (fun _ names u _ =>
    hP.thenOf (hreserve _ _) (fun _ developer v _ =>
      hP.thenOf (hdefined _) (fun _ _ w _ => ?_) v) u) t
  cases hvalue : scene.dialect.initialValue with
  | none => exact hP.nil
  | some value =>
    dsimp only
    split
    · exact hP.nil
    · next hnames => exact hinitial _ _ hvalue fun hno => hnames (by rw [hno]; rfl)

end Accumulates

namespace Scene

variable {scene : Scene} {one : Ref → Pass Rendered} {inner : Ref → Journal} {ref : Ref}
  {block : Block Ref} {α β : Type}

/-- The events of a composed recipe are those of its two parts. -/
theorem followJournal_bind (recipe : Recipe α) (next : α → Recipe β) :
    scene.followJournal one inner ref block (recipe >>= next) =
      .thenOf (scene.follow one ref block recipe) (scene.followJournal one inner ref block recipe)
        fun a => scene.followJournal one inner ref block (next a) := by
  show scene.followJournal one inner ref block (Recipe.andThen recipe next) = _
  induction recipe with
  | done result => rfl
  | fail failure => rfl
  | ask request rest ih =>
    funext s
    simp only [Recipe.andThen, followJournal, follow, Journal.thenOf, ih, Pass.bind_apply]
    cases scene.answer one ref block request s with
    | mk result t => cases result <;> simp

/-! ## Definitions of procedures -/

/-- A procedure has its header behind the comments. -/
theorem procedureText_eq_ok {name code : String} {s t : PassState}
    (hrun : scene.follow one ref block (Recipe.procedureText scene ref block name) s =
      (.ok code, t)) :
    ∃ args rest, code =
      scene.commentLines ref ++ (scene.dialect.procedureHeader name args ++ rest) := by
  obtain ⟨outer, _, -, hrest⟩ := follow_bind_eq_ok hrun
  obtain ⟨statements, _, -, hrest⟩ := follow_bind_eq_ok hrest
  obtain ⟨result, _, -, hrest⟩ := follow_bind_eq_ok hrest
  obtain ⟨params, _, -, hrest⟩ := follow_bind_eq_ok hrest
  obtain ⟨args, _, -, hdone⟩ := follow_bind_eq_ok hrest
  obtain ⟨rfl, -⟩ := follow_pure_eq_ok hdone
  simp only [String.append_assoc]
  exact ⟨_, _, rfl⟩

/-- A definition notes its name, then what is rendered for its text, and what it sets last. -/
theorem followJournal_procedureDefinition {name : String} (hname : block.field "NAME" = .str name)
    (s : PassState) :
    let word := (s.names.get scene.dialect.policy name .procedure).1
    scene.followJournal one inner ref block (Recipe.procedureDefinition scene ref block) s =
      .named .procedure name word ::
        Journal.thenOf (scene.follow one ref block (Recipe.procedureText scene ref block word))
          (scene.followJournal one inner ref block (Recipe.procedureText scene ref block word))
          (fun code _ => [.defined (some ref) (Recipe.procedureKey word) code])
          (Pass.nameOf scene.dialect.policy .procedure name s).2 := by
  rw [Recipe.procedureDefinition_eq, hname, followJournal_bind]
  simp only [followJournal_bind]
  rfl

theorem follow_procedureDefinition {name : String} (hname : block.field "NAME" = .str name)
    (s : PassState) :
    let word := (s.names.get scene.dialect.policy name .procedure).1
    scene.follow one ref block (Recipe.procedureDefinition scene ref block) s =
      (scene.follow one ref block (Recipe.procedureText scene ref block word) >>= fun code =>
        Pass.define (Recipe.procedureKey word) code >>= fun _ => pure .nothing)
        (Pass.nameOf scene.dialect.policy .procedure name s).2 := by
  rw [Recipe.procedureDefinition_eq, hname, follow_bind]
  simp only [follow_bind]
  rfl

end Scene

/-! ## What accounts for an event -/

/-- Whether an enabled block is the definition of a procedure of a name. -/
def Workspace.DefinesProcedure (workspace : Workspace) (ref : Ref) (name : String) : Prop :=
  ∃ block, workspace.graph.block? ref = some block ∧ block.enabled = true ∧
    block.type ∈ Scene.definitionTypes ∧ block.field "NAME" = .str name

/-- Whether an event is accounted for: by the tables of the language, by what the language
    needs at the start, or by a block and other events of the same block. -/
inductive Event.Accounted (scene : Scene) (events : List Event) : Event → Prop where
  | named (kind : NameKind) (name text : String) : Accounted scene events (.named kind name text)
  | own (kind : NameKind) (base text : String) : Accounted scene events (.own kind base text)
  | top (ref : Ref) (text : String) : Accounted scene events (.top ref text)
  | helper {helper : Helper} (h : helper ∈ scene.dialect.helpers) (name : String)
    (text : Option String) :
    Accounted scene events (.helper helper.key helper.template name text)
  | imported {statement : String} (ref : Ref) (h : statement ∈ scene.dialect.importTexts) :
    Accounted scene events (.defined (some ref) (Recipe.importKey ++ statement) statement)
  | initial {value : String} {names : List String}
    (hvalue : scene.dialect.initialValue = some value) (hnames : names ≠ []) :
    Accounted scene events (.defined none Scene.variablesKey (Scene.initialLines value names))
  | procedure {ref : Ref} {name word : String} (args rest : String) (hplaced : scene.Placed ref)
    (hdefines : scene.workspace.DefinesProcedure ref name)
    (hnamed : .named .procedure name word ∈ events)
    (hrendered : .rendered ref (.text "") ∈ events) :
    Accounted scene events (.defined (some ref) (Recipe.procedureKey word)
      (scene.commentLines ref ++ (scene.dialect.procedureHeader word args ++ rest)))
  | rendered {ref : Ref} {result : Rendered} {block : Block Ref} (hplaced : scene.Placed ref)
    (hblock : scene.graph.block? ref = some block) (henabled : block.enabled = true)
    (hcontributes : block.type ∈ Scene.definitionTypes → result = .text "" ∧
      ∃ name word code, block.field "NAME" = .str name ∧
        .named .procedure name word ∈ events ∧
        .defined (some ref) (Recipe.procedureKey word) code ∈ events) :
    Accounted scene events (.rendered ref result)

namespace Event

variable {scene : Scene} {events later : List Event} {event : Event}

/-- What accounts for an event does so among more events. -/
theorem Accounted.mono (h : event.Accounted scene events) (hsubset : events ⊆ later) :
    event.Accounted scene later := by
  cases h with
  | named => exact .named ..
  | own => exact .own ..
  | top => exact .top ..
  | helper h name text => exact .helper h name text
  | imported ref h => exact .imported ref h
  | initial hvalue hnames => exact .initial hvalue hnames
  | procedure args rest hplaced hdefines hnamed hrendered =>
    exact .procedure args rest hplaced hdefines (hsubset hnamed) (hsubset hrendered)
  | rendered hplaced hblock henabled hcontributes =>
    refine .rendered hplaced hblock henabled fun htype => ?_
    obtain ⟨hresult, name, word, code, hname, hnamed, hdefined⟩ := hcontributes htype
    exact ⟨hresult, name, word, code, hname, hsubset hnamed, hsubset hdefined⟩

/-- Whether all events of a stretch of a journal are accounted for there. -/
def AllAccounted (scene : Scene) (events : List Event) : Prop :=
  ∀ event ∈ events, event.Accounted scene events

theorem accumulates_accounted (scene : Scene) : Accumulates (AllAccounted scene) where
  nil _ h := by cases h
  append h h' event hevent := by
    rcases List.mem_append.mp hevent with hfirst | hlater
    · exact (h event hfirst).mono (List.subset_append_left _ _)
    · exact (h' event hlater).mono (List.subset_append_right _ _)

theorem AllAccounted.single (h : event.Accounted scene []) : AllAccounted scene [event] := by
  intro other hother
  obtain rfl := List.mem_singleton.mp hother
  exact h.mono (List.nil_subset _)

end Event

namespace Scene

open Event

variable {scene : Scene} {one : Ref → Pass Rendered} {inner : Ref → Journal} {ref : Ref}
  {block : Block Ref} {language : Language} {α : Type}

/-- What a recipe sets is accounted for if its language has it. -/
theorem accounted_follow (hplaced : scene.Placed ref) (hblock : scene.graph.block? ref = some block)
    (hinner : ∀ target, scene.Placed target → (inner target).Always (AllAccounted scene))
    {recipe : Recipe α} (h : recipe.Stocked scene.dialect) :
    (scene.followJournal one inner ref block recipe).Always (AllAccounted scene) := by
  refine (accumulates_accounted scene).followJournal h fun request hrequest => ?_
  refine (accumulates_accounted scene).answerJournal
    (fun target htarget => hinner target (placed_targets hplaced hblock request target htarget))
    (fun _ _ _ => .single (.named ..)) (fun _ _ _ => .single (.own ..)) ?_ ?_
  · rintro key template name text rfl
    obtain ⟨helper, hhelper, rfl, rfl⟩ := hrequest
    exact .single (.helper hhelper name text)
  · rintro key code rfl
    obtain ⟨statement, hstatement, rfl, rfl⟩ := hrequest
    exact .single (.imported ref hstatement)

/-- The definition of a procedure is accounted for by the block, which has nothing to show
    where it stands. -/
theorem accounted_procedureDefinition (hplaced : scene.Placed ref)
    (hblock : scene.graph.block? ref = some block) (henabled : block.enabled = true)
    (htype : block.type ∈ definitionTypes)
    (hinner : ∀ target, scene.Placed target → (inner target).Always (AllAccounted scene))
    (s : PassState) :
    let recipe := Recipe.procedureDefinition scene ref block
    let events := scene.followJournal one inner ref block recipe s
    match scene.follow one ref block recipe s with
    | (.ok product, _) =>
      product = .nothing ∧ AllAccounted scene (events ++ [.rendered ref (.text "")])
    | (.error _, _) => AllAccounted scene events := by
  have hall := accumulates_accounted scene
  dsimp only
  cases hname : block.field "NAME" with
  | str name =>
    rw [follow_procedureDefinition hname, followJournal_procedureDefinition hname]
    generalize (s.names.get scene.dialect.policy name .procedure).1 = word
    have htext : (scene.followJournal one inner ref block
        (Recipe.procedureText scene ref block word)).Always (AllAccounted scene) :=
      accounted_follow hplaced hblock hinner (Recipe.stocked_procedureText scene ref block word)
    generalize (Pass.nameOf scene.dialect.policy .procedure name s).2 = u
    have hbefore := hall.append (.single (.named .procedure name word)) (htext u)
    rw [Pass.bind_apply]
    unfold Journal.thenOf
    cases hrun : scene.follow one ref block (Recipe.procedureText scene ref block word) u with
    | mk result t =>
      cases result with
      | error failure =>
        dsimp only
        rwa [List.append_nil]
      | ok code =>
        obtain ⟨args, rest, rfl⟩ := procedureText_eq_ok hrun
        refine ⟨rfl, fun event hevent => ?_⟩
        rw [List.cons_append, ← List.singleton_append, List.append_assoc,
          ← List.append_assoc] at hevent ⊢
        rcases List.mem_append.mp hevent with hbefore' | hown
        · exact (hbefore event hbefore').mono (List.subset_append_left _ _)
        · rcases List.mem_pair.mp hown with rfl | rfl
          · refine .procedure args rest hplaced ⟨block, hblock, henabled, htype, hname⟩ ?_ ?_
            · exact List.mem_cons_self
            · simp
          · exact .rendered hplaced hblock henabled fun _ =>
              ⟨rfl, name, word, _, hname, List.mem_cons_self,
                List.mem_append_right _ List.mem_cons_self⟩
  | _ =>
    rw [Recipe.procedureDefinition_eq, hname]
    exact hall.nil

/-- All that happens while a block of the workspace is rendered is accounted for. -/
theorem Speaks.accounted_renderWithin (h : scene.Speaks language) (room : Nat)
    (hplaced : scene.Placed ref) : (scene.renderJournal room ref).Always (AllAccounted scene) := by
  have hall := accumulates_accounted scene
  induction room generalizing ref with
  | zero => exact hall.nothing
  | succ room ih =>
    unfold renderJournal
    cases hblock : scene.graph.block? ref with
    | none => exact hall.nothing
    | some block =>
      dsimp only
      split
      · exact hall.nothing
      · next henabled =>
        rw [Bool.not_eq_true', Bool.not_eq_false] at henabled
        refine hall.thenOf hall.nothing fun s rule t hpermit => ?_
        have hrule := (permit_eq_ok hpermit).1
        obtain ⟨form, hform, hvalue⟩ := h.known _ _ hrule
        have hiff : form = .procedureDefinition ↔ block.type ∈ definitionTypes := by
          rw [← handler_eq_procedureDefinition_iff (h.rules ▸ hrule), hform]
          simp
        rw [hform]
        by_cases hdefinition : form = .procedureDefinition
        · subst hdefinition
          have hown := @accounted_procedureDefinition scene (scene.renderWithin room) _ ref block
            hplaced hblock henabled (hiff.mp rfl) (fun target htarget => ih htarget)
            { t with depth := t.depth + 1, active := ref :: t.active }
          have hconclude : scene.conclude rule ref block .nothing = .ok (.text "") := by
            unfold conclude
            rw [hvalue]
            rfl
          unfold Journal.thenOf Pass.entering Pass.between
          show AllAccounted scene (_ ++ _)
          dsimp only [Handler.recipe, BlockForm.recipe] at hown ⊢
          split at hown
          · next product v hrun =>
            obtain ⟨rfl, hevents⟩ := hown
            simpa only [hrun, hconclude] using hevents
          · next failure v hrun =>
            simpa only [hrun, List.append_nil] using hown
        · have htype := mt hiff.mpr hdefinition
          refine hall.thenOf (fun u => ?_) (fun u product v _ => ?_) t
          · exact accounted_follow hplaced hblock (fun target htarget => ih htarget)
              (form.recipe_stocked scene ref block hdefinition) _
          · cases scene.conclude rule ref block product with
            | ok result =>
              exact .single (.rendered hplaced hblock henabled fun hno => absurd hno htype)
            | error failure => exact hall.nil

theorem accounted_reserveNames (scene : Scene) :
    scene.reserveNamesJournal.Always (AllAccounted scene) :=
  (accumulates_accounted scene).reserveNamesJournal (fun _ _ _ => .single (.named ..))
    fun _ _ hvalue hnames => .single (.initial hvalue hnames)

/-- All events of a pass are accounted for. -/
theorem Speaks.accounted_journal (h : scene.Speaks language) :
    AllAccounted scene scene.journal := by
  have hall := accumulates_accounted scene
  have htops : ∀ refs ⊆ scene.workspace.tops, (scene.topsJournal refs).Always
      (AllAccounted scene) := by
    intro refs hrefs
    induction refs with
    | nil => exact hall.nothing
    | cons ref refs ih =>
      obtain ⟨href, hrest⟩ := List.cons_subset.mp hrefs
      have hplaced : ∀ target ∈ (scene.graph.chainFrom [] (some ref)).1, scene.Placed target :=
        Placed.chain fun head hhead => Option.some.inj hhead ▸ ⟨ref, href, .refl⟩
      refine hall.thenOf (hall.placeJournal fun target htarget =>
        h.accounted_renderWithin _ (hplaced target htarget)) fun _ rendered t _ => ?_
      exact hall.append (.single (.top ..)) (ih hrest t)
  exact hall.thenOf (accounted_reserveNames scene)
    (fun _ _ t _ => htops _ (List.Subset.refl _) t) {}

end Scene

end BlockScript
