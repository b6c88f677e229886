import BlockScript.Proofs.Code.Statements
import BlockScript.Proofs.Pass.Entries
import BlockScript.Proofs.Recipe.Straight

/-!
# The definitions of procedures

The rule for a definition writes nothing where its block stands. The text that it
sets under a key of its own is the code of the parts of the procedure.

Results:

* `Scene.Speaks.procedureDefinition_written`: what the rule for a definition sets.
-/

namespace BlockScript

open BlockScript.Text

namespace Scene

variable {scene : Scene} {language : Language} {ref : Ref} {block : Block Ref} {room : Nat}
  {text : String} {parts : Layout} {s t : PassState} {lays : Option Ref → Ref → Layout → Prop}

/-- A body with something in it needs no statement to stand in. -/
theorem fill_of_ne_nil (h : parts ≠ .nil) : scene.fill ref parts = parts := by
  cases parts with
  | nil => exact absurd rfl h
  | line part inside rest => rfl

namespace Speaks

open Recipe

variable (h : scene.Speaks language) (hone : scene.LaysOut (scene.renderWithin room) lays)
include h

/-! ## Headers -/

/-- The identifier of a logical name. -/
theorem nameOf_isName {kind : NameKind} {name : Json} (hs : s.Named scene.dialect.policy)
    (hrun : scene.follow (scene.renderWithin room) ref block (nameOf kind name) s =
      (.ok text, t)) : scene.dialect.policy.IsName text :=
  h.phrased.of_yields (fun _ _ => gives_isName kind name) ⟨room, s, t, hs, hrun⟩

/-- The identifiers of logical names. -/
theorem forEach_isName {ι : Type} {kind : NameKind} {name : ι → Json} {items : List ι}
    {texts : List String} (hs : s.Named scene.dialect.policy)
    (hrun : scene.follow (scene.renderWithin room) ref block
      (forEach (fun item => nameOf kind (name item)) items) s = (.ok texts, t)) :
    ∀ text ∈ texts, scene.dialect.policy.IsName text := by
  have hall : List.Forall₂ (fun _ text => scene.dialect.policy.IsName text) items texts :=
    h.phrased.of_yields (fun _ _ => gives_forEach items fun item _ => gives_isName kind (name item))
      ⟨room, s, t, hs, hrun⟩
  clear hrun
  induction hall with
  | nil => simp
  | cons hfirst _ ih => simpa using ⟨hfirst, ih⟩

/-- The declaration of outer variables, if there is one, stands on a line inside the
    procedure. -/
theorem outerDeclaration_written (hblock : scene.graph.block? ref = some block)
    (hs : s.Named scene.dialect.policy) {outer : String}
    (hrun : scene.follow (scene.renderWithin room) ref block (outerDeclaration scene ref block) s =
      (.ok outer, t)) :
    ∃ text, ∃ declared : Bool, outer = scene.indented text ∧
      scene.IsCode text (if declared then .single (.outer, ref) else .nil) := by
  have hnone : ∃ text, ∃ declared : Bool, "" = scene.indented text ∧
      scene.IsCode text (if declared then .single (.outer, ref) else .nil) :=
    ⟨"", false, by simp, isCode_nil⟩
  unfold outerDeclaration at hrun
  cases hdeclaration : scene.dialect.globalDeclaration with
  | none =>
    rw [hdeclaration] at hrun
    obtain ⟨rfl, rfl⟩ := follow_pure_eq_ok hrun
    exact hnone
  | some declaration =>
    rw [hdeclaration] at hrun
    obtain ⟨known, u, hknown, hrest⟩ := follow_bind_eq_ok hrun
    obtain ⟨-, rfl⟩ := follow_ofExcept_eq_ok hknown
    obtain ⟨named, v, hnamed, hrest⟩ := follow_bind_eq_ok hrest
    obtain ⟨developer, w, hdeveloper, hdone⟩ := follow_bind_eq_ok hrest
    have hnames : ∀ name ∈ named ++ developer, scene.dialect.policy.IsName name := by
      have hfirst := h.forEach_isName hs hnamed
      have hsecond := h.forEach_isName ((later_of_follow hnamed).names.named hs) hdeveloper
      intro name hname
      exact (List.mem_append.mp hname).elim (hfirst name) (hsecond name)
    cases hall : named ++ developer with
    | nil =>
      rw [hall] at hdone
      obtain ⟨rfl, rfl⟩ := follow_pure_eq_ok hdone
      exact hnone
    | cons first others =>
      rw [hall] at hdone hnames
      obtain ⟨rfl, rfl⟩ := follow_pure_eq_ok hdone
      have hspells : scene.Spells (.outer, ref) (declaration (joinWith ", " (first :: others))) :=
        h.spells_of_fixed rfl hblock
          ⟨declaration, first :: others, hdeclaration, by simp, hnames, rfl⟩
      exact ⟨_, true, (h.indented_of_spells rfl hspells).symm, isCode_single hspells⟩

/-! ## Bodies -/

/-- A body between other lines. A statement stands in for it if there are none. -/
theorem surrounded_written (hblock : scene.graph.block? ref = some block)
    {frontText inner backText : String} {front body back : Layout} {alone : Bool}
    (hfront : scene.IsCode frontText front) (hbody : scene.IsCode inner body)
    (hback : scene.IsCode backText back) (halone : alone = true ↔ front = .nil ∧ back = .nil) :
    ∃ code, scene.indented frontText ++
        (if alone then scene.filled (scene.indented inner) else scene.indented inner) ++
        scene.indented backText = scene.indented code ∧
      scene.IsCode code (scene.fill ref (front ++ body ++ back)) := by
  cases alone with
  | true =>
    obtain ⟨rfl, rfl⟩ := halone.mp rfl
    obtain rfl := (h.eq_empty_iff hfront).mpr rfl
    obtain rfl := (h.eq_empty_iff hback).mpr rfl
    obtain ⟨code, hcode, hfill⟩ := h.isCode_filled hblock hbody
    exact ⟨code, by simp [hcode], by simpa using hfill⟩
  | false =>
    have hsome : front ++ body ++ back ≠ .nil := by
      intro hnil
      simp only [Outline.append_eq_nil_iff] at hnil
      simpa using halone.mpr ⟨hnil.1.1, hnil.2⟩
    refine ⟨frontText ++ inner ++ backText, ?_, ?_⟩
    · rw [h.indented_append (hfront.append hbody), h.indented_append hfront]
      simp
    · rw [fill_of_ne_nil hsome]
      exact (hfront.append hbody).append hback

/-- The lines of a procedure after its body. -/
theorem procedureEnd_written (hblock : scene.graph.block? ref = some block)
    {inner : String} {body : Layout} {result : String} (hbody : scene.IsCode inner body)
    (hyields : scene.Yields ref block (value "RETURN" .none false) result) :
    ∃ text, (if scene.indented inner ≠ "" && result ≠ "" then
          scene.indented (scene.startHook block ++ scene.endHook block) else "") ++
        (if result = "" then "" else returnStatement scene result) = scene.indented text ∧
      scene.IsCode text (scene.revisited ref block body ++ scene.givenBack ref block) ∧
      (result = "" ↔ scene.revisited ref block body ++ scene.givenBack ref block = .nil) := by
  have hempty := (h.phrased.isOperand_value hyields).1
  unfold revisited givenBack
  cases hplugged : scene.plugged block "RETURN" with
  | none =>
    obtain rfl := hempty.mpr hplugged
    exact ⟨"", by simp, by simpa using isCode_nil, by simp⟩
  | some target =>
    have hne : result ≠ "" := fun hno => by rw [hempty.mp hno] at hplugged; cases hplugged
    obtain ⟨lastText, hlast, hreturn⟩ := h.isCode_return hblock (.inl ⟨hyields, hne⟩)
    rw [if_neg hne, hlast]
    by_cases hnil : body = .nil
    · refine ⟨lastText, ?_, by simpa [hnil] using hreturn, by simp [hne, Outline.single, Outline.block]⟩
      simp [(h.indented_eq_empty_iff hbody).mpr hnil]
    · have hsome : scene.indented inner ≠ "" := fun hno => hnil ((h.indented_eq_empty_iff hbody).mp hno)
      have hhooks : scene.IsCode (scene.startHook block ++ scene.endHook block)
          (scene.opening ref block ++ scene.closing ref block) :=
        (isCode_opening hblock).append (isCode_closing hblock)
      refine ⟨scene.startHook block ++ scene.endHook block ++ lastText, ?_,
        by simpa [hnil] using hhooks.append hreturn, by simp [hne, Outline.single, Outline.block]⟩
      simp [hsome, hne, h.indented_append hhooks]

/-- The inside of a procedure. -/
theorem procedureInside_written (hblock : scene.graph.block? ref = some block)
    {outerText inner : String} {outer body : Layout} {result : String}
    (houter : scene.IsCode outerText outer) (hbody : scene.IsCode inner body)
    (hyields : scene.Yields ref block (value "RETURN" .none false) result) :
    let hooks := scene.indented (scene.startHook block ++ scene.endHook block)
    let trap := scene.injectIndented scene.config.loopTrap block
    ∃ code, scene.indented outerText ++ hooks ++ trap ++
        (if result = "" && hooks = "" && trap = "" && scene.indented outerText = "" then
          scene.filled (scene.indented inner) else scene.indented inner) ++
        (if scene.indented inner ≠ "" && result ≠ "" then hooks else "") ++
        (if result = "" then "" else returnStatement scene result) = scene.indented code ∧
      scene.IsCode code (scene.procedureInside ref block body outer) := by
  intro hooks trap
  have hhooks : scene.IsCode (scene.startHook block ++ scene.endHook block)
      (scene.opening ref block ++ scene.closing ref block) :=
    (isCode_opening hblock).append (isCode_closing hblock)
  have htrap : scene.IsCode (scene.injectStatement scene.config.loopTrap block)
      (scene.trapping ref block) := isCode_trapping hblock
  have htrapText : trap = scene.indented (scene.injectStatement scene.config.loopTrap block) :=
    injectIndented_eq _
  obtain ⟨backText, hbackText, hback, hempty⟩ := h.procedureEnd_written hblock hbody hyields
  have halone : (result = "" && hooks = "" && trap = "" && scene.indented outerText = "" : Bool) =
      true ↔ outer ++ (scene.opening ref block ++ scene.closing ref block) ++
        scene.trapping ref block = .nil ∧
        scene.revisited ref block body ++ scene.givenBack ref block = .nil := by
    rw [← hempty, Outline.append_eq_nil_iff, Outline.append_eq_nil_iff,
      ← h.indented_eq_empty_iff houter, ← h.indented_eq_empty_iff hhooks,
      ← h.indented_eq_empty_iff htrap, ← htrapText]
    simp only [Bool.and_eq_true, decide_eq_true_eq]
    tauto
  obtain ⟨code, hcode, hparts⟩ :=
    h.surrounded_written hblock ((houter.append hhooks).append htrap) hbody hback halone
  refine ⟨code, ?_, hparts⟩
  rw [← hcode, ← hbackText, h.indented_append (houter.append hhooks), h.indented_append houter,
    ← htrapText]
  simp only [String.append_assoc, hooks]

/-! ## Whole definitions -/

include hone

/-- What the rule for a definition sets, and under which key. `I` holds of the state
    up to there if it is kept by recipes that define no procedure and have no loop. -/
theorem procedureDefinition_written {I : PassState → Prop}
    (hnamed : ∀ state, I state → state.Named scene.dialect.policy)
    (hkeeps : ∀ {α : Type} {recipe : Recipe α}, recipe.Modest scene.dialect → recipe.Straight →
      (scene.follow (scene.renderWithin room) ref block recipe).Preserves I)
    (hblock : scene.graph.block? ref = some block) (henabled : block.enabled = true) {rule : Rule}
    (hrule : scene.rules.lookup block.type = .ok rule)
    (hform : rule.handler = .form .procedureDefinition) (hs : I s) {product : Product}
    (hrun : scene.follow (scene.renderWithin room) ref block
      (procedureDefinition scene ref block) s = (.ok product, t)) :
    product = .nothing ∧ ∃ u name code inside, I u ∧
      scene.ProcedureBody lays s.loops.head? ref inside ∧
      scene.IsCode code (scene.procedureParts ref inside) ∧
      scene.LabelledFor u.continued (scene.procedureParts ref inside) ∧
      t = { u with definitions := u.definitions.add (procedureKey name) code } := by
  obtain ⟨name, a, hname, hrest⟩ := follow_bind_eq_ok hrun
  obtain ⟨outer, b, houter, hrest⟩ := follow_bind_eq_ok hrest
  obtain ⟨statements, c, hstatements, hrest⟩ := follow_bind_eq_ok hrest
  obtain ⟨result, d, hresult, hrest⟩ := follow_bind_eq_ok hrest
  obtain ⟨listed, _, hparams, hlisted⟩ := follow_bind_eq_ok hrest
  obtain ⟨-, rfl⟩ := follow_ofExcept_eq_ok hparams
  obtain ⟨args, e, hargs, hset⟩ := follow_bind_eq_ok hlisted
  obtain ⟨_, f, hdefine, hdone⟩ := follow_bind_eq_ok hset
  obtain ⟨rfl, rfl⟩ := follow_pure_eq_ok hdone
  have ha := hkeeps (modest_nameOf _ _ _) (straight_nameOf _ _) _ _ _ hs hname
  have hb := hkeeps (modest_outerDeclaration scene _ ref block)
    (straight_outerDeclaration scene ref block) _ _ _ ha houter
  have hc := hkeeps (modest_body _ "STACK" false) (straight_body "STACK") _ _ _ hb hstatements
  have hd := hkeeps (modest_value _ "RETURN" _ _) (straight_value "RETURN" _ _) _ _ _ hc hresult
  have he := hkeeps (only_forEach _ fun name => modest_nameOf _ _ _)
    (only_forEach _ fun name => straight_nameOf _ name) _ _ _ hd hargs
  have hloops : b.loops = s.loops :=
    (later_of_follow houter).loops.trans (later_of_follow hname).loops
  obtain ⟨outerText, declared, rfl, houterCode⟩ :=
    h.outerDeclaration_written hblock (hnamed a ha) houter
  obtain ⟨inner, body, rfl, hbody, hwritten⟩ := h.body_written hone (hnamed b hb) hstatements
  rw [hloops] at hbody
  obtain ⟨inside, hinside, hcode⟩ :=
    h.procedureInside_written hblock houterCode hwritten.code
      ⟨room, c, _, hnamed c hc, hresult⟩
  have hheader : scene.Spells (.procedure, ref)
      (scene.dialect.procedureHeader name (joinWith ", " args)) :=
    h.spells_of_fixed rfl hblock ⟨name, args, h.nameOf_isName (hnamed s hs) hname,
      h.forEach_isName (hnamed _ hd) hargs, rfl⟩
  have hend : scene.IsCode scene.dialect.procedureEnd
      (piece .closer ref scene.dialect.procedureEnd) := isCode_piece hblock (.inr rfl)
  refine ⟨rfl, e, name, _, _, he,
    ⟨block, rule, body, declared, hblock, henabled, hrule, hform, hbody, rfl⟩,
    ((isCode_comments hblock).append (isCode_block hheader hcode)).append hend,
    labelled_procedureParts declared (LabelledFor.mono hwritten.labelled
      (List.Subset.trans (later_of_follow hresult).continued (later_of_follow hargs).continued)), ?_⟩
  rw [← hinside]
  unfold define at hdefine
  rw [follow_ask] at hdefine
  cases hdefine
  simp only [String.append_assoc]

end Speaks

end Scene

end BlockScript
