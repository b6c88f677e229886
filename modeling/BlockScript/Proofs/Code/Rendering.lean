import BlockScript.Proofs.Code.Procedures
import BlockScript.Proofs.Names.Reached

/-!
# Rendered programs

Every statement of a program is the code of the parts of its block, and so are the
main part of the program and the procedures ahead of it. What a block renders to
rests on the blocks inside it, which is an induction on the room for nesting.

Results:

* `Scene.Speaks.laysOut_renderWithin`: the text of a block.
* `Scene.Speaks.program_written`: the main part and the definitions of a program.
-/

namespace BlockScript

open BlockScript.Text

namespace Scene

variable {scene : Scene} {language : Language} {ref : Ref} {block : Block Ref} {room : Nat}
  {text : String} {parts : Layout} {loop : Option Ref} {s t : PassState}

/-- Whether a text is the code of a procedure of the workspace, with the parts that are
    inside it. -/
structure IsProcedure (scene : Scene) (text : String) (ref : Ref) (inside : Layout) : Prop where
  placed : scene.Placed ref
  body : ∃ room ≤ scene.graph.size, ∃ loop,
    scene.ProcedureBody (scene.partsWithin room) loop ref inside
  code : scene.IsCode text (scene.procedureParts ref inside)

/-- Whether a definition is the code of a procedure if its key is that of one, with labels
    for noted loops only. -/
def ProcedureEntry (scene : Scene) (noted : List Ref) (key text : String) : Prop :=
  isProcedureKey key = true → ∃ ref inside, scene.IsProcedure text ref inside ∧
    scene.LabelledFor noted (scene.procedureParts ref inside)

/-- Whether pieces of text are the main part of a program: each is the code of the parts
    of a top block. The definitions stand ahead of them. -/
structure IsMainPart (scene : Scene) (output : String) (definitions : Definitions)
    (pieces : List (String × Layout)) : Prop where
  tops : List.Forall₂ (fun ref piece => scene.TopParts (scene.graph.size + 1) ref piece.2)
    scene.workspace.tops pieces
  code (piece : String × Layout) (h : piece ∈ pieces) : scene.IsCode piece.1 piece.2
  text : output = tidy (scene.finish definitions
    (joinWith "\n" ((pieces.map Prod.fst).filter (· ≠ ""))))

/-- Identifiers that fit the language, and definitions that are the code of procedures if
    no other loops are noted yet. -/
structure SoundState (scene : Scene) (noted : List Ref) (s : PassState) : Prop where
  named : s.Named scene.dialect.policy
  holds (h : s.continued ⊆ noted) : s.Holds (scene.ProcedureEntry noted)

theorem procedureEntry_of_free {noted : List Ref} {key : String} (text : String)
    (hkey : isProcedureKey key = false) : scene.ProcedureEntry noted key text :=
  fun hyes => by rw [hkey] at hyes; cases hyes

theorem SoundState.of_eq {noted : List Ref} (h : scene.SoundState noted s)
    (hnames : t.names = s.names) (hdefinitions : t.definitions = s.definitions)
    (hcontinued : t.continued = s.continued) : scene.SoundState noted t :=
  ⟨(keepsNames_of_eq (by rw [hnames]) (by rw [hdefinitions])).named h.named,
    fun hnoted => (h.holds (hcontinued ▸ hnoted)).of_eq (by rw [hdefinitions])⟩

/-- No loop is forgotten that is noted, so what keeps the definitions in any case also does
    while no other loops are noted. -/
theorem preserves_soundState {α : Type} {noted : List Ref} {p : Pass α}
    (hp : p.Preserves (PassState.Sound scene.dialect.policy (scene.ProcedureEntry noted)))
    (hkept : p.Keeps (Later scene.dialect.policy)) : p.Preserves (scene.SoundState noted) := by
  intro s a t hs hrun
  have hlater : Later scene.dialect.policy s t := Kept.of_run hkept hrun
  refine ⟨hlater.names.named hs.named, fun hnoted => ?_⟩
  exact (hp s a t ⟨hs.named, hs.holds (List.Subset.trans hlater.continued hnoted)⟩ hrun).holds

theorem tolerates_soundState {noted : List Ref} (hlanguage : scene.dialect = language.dialect) :
    scene.Tolerates (scene.SoundState noted) := by
  have hsound : scene.Tolerates
      (PassState.Sound scene.dialect.policy (scene.ProcedureEntry noted)) :=
    tolerates_sound hlanguage fun _ text hkey => procedureEntry_of_free text hkey
  have hkept := later_kept scene
  exact {
    nameOf := fun kind name => preserves_soundState (hsound.nameOf kind name) (hkept.nameOf kind name)
    freshName := fun kind base =>
      preserves_soundState (hsound.freshName kind base) (hkept.freshName kind base)
    helper := fun key template hkey =>
      preserves_soundState (hsound.helper key template hkey) (hkept.helper key template)
    define := fun key code hkey =>
      preserves_soundState (hsound.define key code hkey) (hkept.define key code)
    markContinue := preserves_soundState hsound.markContinue hkept.markContinue
    warn := fun warning => preserves_soundState (hsound.warn warning) (hkept.warn warning) }

/-- Rendering the top blocks keeps what rendering blocks keeps. -/
theorem preserves_topTexts {I : PassState → Prop} {refs : List Ref}
    (hone : scene.AllPreserve I (scene.renderWithin (scene.graph.size + 1)))
    (hplaced : ∀ ref ∈ refs, scene.Placed ref) : (scene.topTexts refs).Preserves I := by
  induction refs with
  | nil => exact .pure _
  | cons ref refs ih =>
    have hplace : (scene.renderPlace (some ref)).Preserves I :=
      preserves_placeCode hone <| .chain fun head hhead => by
        cases hhead
        exact hplaced ref (by simp)
    rw [topTexts_cons]
    exact hplace.bind fun rendered =>
      (ih fun other hother => hplaced other (by simp [hother])).bind fun texts => .pure _

/-- A program is made of the texts of the top blocks and the definitions. -/
theorem program_eq_ok {program : Program} (hrun : scene.program {} = (.ok program, t)) :
    ∃ texts s, scene.reserveNames {} = (.ok (), s) ∧
      scene.topTexts scene.workspace.tops s = (.ok texts, t) ∧
      program.code = tidy (scene.finish t.definitions (joinWith "\n" texts)) := by
  obtain ⟨_, s, hreserve, hrest⟩ := Pass.bind_eq_ok hrun
  obtain ⟨texts, u, htexts, hrest⟩ := Pass.bind_eq_ok hrest
  obtain ⟨state, v, hstate, hdone⟩ := Pass.bind_eq_ok hrest
  obtain ⟨rfl, rfl⟩ : u = state ∧ u = v := by
    cases hstate
    exact ⟨rfl, rfl⟩
  obtain ⟨rfl, rfl⟩ := Pass.pure_eq_ok hdone
  exact ⟨texts, s, hreserve, htexts, rfl⟩

namespace Speaks

variable (h : scene.Speaks language)
include h

/-! ## Single blocks -/

/-- A statement with the comments and hooks that belong to it. -/
theorem statementText_written {rule : Rule} (hblock : scene.graph.block? ref = some block)
    (hwritten : scene.Written text parts loop s) :
    scene.Written (scene.statementText rule ref block text)
      (scene.comments ref ++
        if rule.suppressHooks then parts
        else scene.opening ref block ++ parts ++ scene.closing ref block) loop s := by
  have hwhole : scene.Written
      (if rule.suppressHooks then text else scene.startHook block ++ text ++ scene.endHook block)
      (if rule.suppressHooks then parts
        else scene.opening ref block ++ parts ++ scene.closing ref block) loop s := by
    split
    · exact hwritten
    · have hopening : scene.Written (scene.startHook block) (scene.opening ref block) loop s :=
        written_of_code (isCode_opening hblock) (by simp) (by simp)
      have hclosing : scene.Written (scene.endHook block) (scene.closing ref block) loop s :=
        written_of_code (isCode_closing hblock) (by simp) (by simp)
      exact (hopening.append hwritten).append hclosing
  have hcomments : scene.Written (scene.commentLines ref) (scene.comments ref) loop s :=
    written_of_code (isCode_comments hblock) (by simp) (by simp)
  unfold statementText
  dsimp only
  rw [oneTrailingNewline_of_isPiece (h.isPiece hwhole.code)]
  exact hcomments.append hwhole

/-- Every block that renders to a text renders to the code of its parts. -/
theorem laysOut_renderWithin (room : Nat) :
    scene.LaysOut (scene.renderWithin room) (scene.partsWithin room) := by
  induction room with
  | zero =>
    intro ref text s t _ hrun
    cases hrun
  | succ room ih =>
    intro ref text s t hs hrun
    obtain ⟨less, hless, hcases⟩ := renderWithin_eq_ok hrun
    cases hless
    have hnothing : ∀ {u}, scene.Written "" .nil s.loops.head? u :=
      written_of_code isCode_nil rfl .nil
    rcases hcases with ⟨hno, htext, rfl⟩ |
      ⟨block, rule, product, u, hblock, henabled, hrule, hfollow, rfl, hconclude⟩
    · cases htext
      rcases hno with habsent | ⟨block, hblock, hdisabled⟩
      · exact ⟨.nil, .absent habsent, hnothing⟩
      · exact ⟨.nil, .disabled hblock hdisabled, hnothing⟩
    · obtain ⟨form, hform, hvalue⟩ := h.known _ _ hrule
      have hstatement : form.isValue = false := by
        rw [← hvalue]
        cases hyes : rule.isValue with
        | false => rfl
        | true => cases product <;> simp [conclude, hyes] at hconclude
      have hno : rule.isValue = false := hvalue.trans hstatement
      have hs' : PassState.Named scene.dialect.policy
          { s with depth := s.depth + 1, active := ref :: s.active } :=
        ⟨fun hname => hs.assigned hname, fun hname => hs.helpers hname⟩
      rw [hform] at hfollow
      by_cases hdefinition : form = .procedureDefinition
      · subst hdefinition
        obtain ⟨rfl, -⟩ := h.procedureDefinition_written ih (fun _ hstate => hstate)
          (fun _ _ _ _ _ hv hw => (later_of_follow hw).names.named hv) hblock henabled hrule hform
          hs' hfollow
        obtain rfl : "" = text := by simpa [conclude, hno] using hconclude
        exact ⟨.nil, .definition hblock henabled hrule hform, hnothing⟩
      · obtain ⟨code, layout, rfl, hparts, hwritten⟩ :=
          h.ruleParts_written ih hblock hs' hrule hform hstatement hdefinition hfollow
        obtain rfl : scene.statementText rule ref block code = text := by
          simpa [conclude, hno] using hconclude
        exact ⟨_, .statement hblock henabled hrule hform hparts,
          (h.statementText_written hblock hwritten).later fun _ hmem => hmem⟩

omit h in
/-- Rendering a block keeps what its recipe keeps, where `J` holds inside the block. -/
theorem preserves_renderWithin (h : scene.Speaks language) {I J : PassState → Prop}
    (hentered : ∀ {s}, I s → J { s with depth := s.depth + 1, active := ref :: s.active })
    (hleft : ∀ {s}, J s → I { s with depth := s.depth - 1, active := s.active.erase ref })
    (hrecipe : ∀ block rule form, scene.graph.block? ref = some block → block.enabled = true →
      scene.rules.lookup block.type = .ok rule → rule.handler = .form form →
      (scene.follow (scene.renderWithin room) ref block
        (form.recipe scene ref block)).Preserves J) :
    (scene.renderWithin (room + 1) ref).Preserves I := by
  intro s a t hs hrun
  obtain ⟨less, hless, hcases⟩ := renderWithin_eq_ok hrun
  cases hless
  rcases hcases with ⟨-, -, rfl⟩ |
    ⟨block, rule, product, u, hblock, henabled, hrule, hfollow, rfl, -⟩
  · exact hs
  · obtain ⟨form, hform, -⟩ := h.known _ _ hrule
    rw [hform] at hfollow
    exact hleft (hrecipe block rule form hblock henabled hrule hform _ _ _ (hentered hs) hfollow)

/-- Rendering keeps definitions the code of procedures. -/
theorem allPreserve_renderWithin (noted : List Ref) (hroom : room ≤ scene.graph.size + 1) :
    scene.AllPreserve (scene.SoundState noted) (scene.renderWithin room) := by
  induction room with
  | zero =>
    intro ref _ s a t _ hrun
    cases hrun
  | succ room ih =>
    intro ref hplaced
    refine h.preserves_renderWithin (fun hs => hs.of_eq rfl rfl rfl)
      (fun hs => hs.of_eq rfl rfl rfl) fun block rule form hblock henabled hrule hform => ?_
    have hloop : ∀ socket, (scene.bodyText (scene.renderWithin room) block socket).Preserves
          (scene.SoundState noted) →
        (Pass.insideLoop ref (scene.bodyText (scene.renderWithin room) block socket)).Preserves
          (scene.SoundState noted) := by
      intro socket hbody s reply t hs hrun
      obtain ⟨u, hu, rfl⟩ := Pass.between_eq_ok hrun
      have hentered : scene.SoundState noted { s with loops := ref :: s.loops } :=
        hs.of_eq rfl rfl rfl
      exact (hbody _ _ _ hentered hu).of_eq rfl rfl rfl
    have hkeeps : ∀ {α : Type} {recipe : Recipe α}, recipe.Modest scene.dialect →
        (scene.follow (scene.renderWithin room) ref block recipe).Preserves
          (scene.SoundState noted) := fun hmodest =>
      (tolerates_soundState h.dialect).follow (ih (Nat.le_of_succ_le hroom)) hloop hplaced hblock
        hmodest
    by_cases hdefinition : form = .procedureDefinition
    · subst hdefinition
      intro s product t hs hrun
      obtain ⟨-, v, name, code, inside, hv, hinside, hcode, hlabelled, rfl⟩ :=
        h.procedureDefinition_written (h.laysOut_renderWithin room) (fun _ hstate => hstate.named)
          (fun hmodest _ => hkeeps hmodest) hblock henabled hrule hform hs hrun
      refine ⟨⟨fun hname => hv.named.assigned hname, fun hname => hv.named.helpers hname⟩,
        fun hnoted => (hv.holds hnoted).add (fun _ => ?_) rfl⟩
      exact ⟨ref, inside, ⟨hplaced, ⟨room, Nat.le_of_succ_le_succ hroom, _, hinside⟩, hcode⟩,
        LabelledFor.mono hlabelled hnoted⟩
    · exact hkeeps (form.recipe_modest scene ref block hdefinition)

/-! ## Top blocks -/

omit h in
/-- A place that renders to a text holds no value. -/
theorem holdsValue_of_placeCode (h : scene.Speaks language) (hs : s.Named scene.dialect.policy)
    (hrun : scene.placeCode (scene.renderWithin room) (some ref) s = (.ok (.text text), t)) :
    scene.holdsValue ref = false := by
  cases hblock : scene.graph.block? ref with
  | none => simp [holdsValue, hblock]
  | some block =>
    cases henabled : block.enabled with
    | false => simp [holdsValue, hblock, henabled]
    | true =>
      unfold placeCode at hrun
      simp only [hblock, henabled, if_true] at hrun
      obtain ⟨rule, u, hrule, hrest⟩ := Pass.bind_eq_ok hrun
      obtain ⟨hlookup, rfl⟩ := Pass.ofExcept_eq_ok hrule
      cases hvalue : rule.isValue with
      | false => simp [holdsValue, hblock, RuleTable.find?_of_lookup hlookup, hvalue]
      | true =>
        rw [hvalue] at hrest
        exact h.holdsValue_of_text hs hrest

/-- The text of what starts at the top. -/
theorem topText_written (hs : s.Named scene.dialect.policy) (hloops : s.loops = [])
    {rendered : Rendered} (hplace : scene.renderPlace (some ref) s = (.ok rendered, t)) :
    ∃ parts, scene.TopParts (scene.graph.size + 1) ref parts ∧
      scene.IsCode (scene.topText ref rendered) parts ∧ scene.LabelledFor t.continued parts := by
  unfold TopParts
  cases rendered with
  | text code =>
    obtain ⟨parts, hparts, hwritten⟩ :=
      h.placeCode_written (h.laysOut_renderWithin _) hs hplace
    rw [hloops] at hparts
    exact ⟨parts, by rwa [h.holdsValue_of_placeCode hs hplace, if_neg Bool.false_ne_true],
      hwritten.code, hwritten.labelled⟩
  | value code tier =>
    obtain ⟨target, htarget, hone⟩ := placeCode_eq_value hplace
    cases htarget
    obtain ⟨hholds, -⟩ := h.phrased.isOperand_render hs hone
    cases hblock : scene.graph.block? ref with
    | none => simp [holdsValue, hblock] at hholds
    | some block =>
      refine ⟨_, by rw [hholds, if_pos rfl]; exact ⟨block, rfl, rfl⟩, ?_,
        by simp [Layout.labelled_single]⟩
      have hspells : scene.Spells (.value, ref) (scene.dialect.nakedValue code) :=
        h.spells_of_fixed rfl hblock ⟨_, code, tier, s, _, hs, hone, rfl⟩
      have hwhole := (((isCode_comments hblock).append (isCode_opening hblock)).append
        (isCode_single hspells)).append (isCode_closing hblock)
      unfold topText nakedValue
      rw [hblock]
      simpa only [String.append_assoc] using hwhole

/-- The texts of the top blocks, those without any left out. -/
theorem topTexts_written {refs : List Ref} {texts : List String}
    (hs : s.Named scene.dialect.policy) (hloops : s.loops = [])
    (hrun : scene.topTexts refs s = (.ok texts, t)) :
    ∃ pieces : List (String × Layout),
      List.Forall₂ (fun ref piece => scene.TopParts (scene.graph.size + 1) ref piece.2) refs pieces ∧
      (∀ piece ∈ pieces, scene.IsCode piece.1 piece.2 ∧ scene.LabelledFor t.continued piece.2) ∧
      texts = (pieces.map Prod.fst).filter (· ≠ "") := by
  induction refs generalizing s texts with
  | nil =>
    obtain ⟨rfl, rfl⟩ := Pass.pure_eq_ok hrun
    exact ⟨[], .nil, by simp, rfl⟩
  | cons ref refs ih =>
    rw [topTexts_cons] at hrun
    obtain ⟨rendered, u, hfirst, hrest⟩ := Pass.bind_eq_ok hrun
    obtain ⟨others, v, hothers, hdone⟩ := Pass.bind_eq_ok hrest
    obtain ⟨htexts, rfl⟩ := Pass.pure_eq_ok hdone
    have hlater : Later scene.dialect.policy s u :=
      Kept.of_run ((later_kept scene).renderPlace (some ref)) hfirst
    obtain ⟨parts, hparts, hcode, hlabelled⟩ := h.topText_written hs hloops hfirst
    have hmore : Later scene.dialect.policy u t :=
      Kept.of_run ((later_kept scene).topTexts refs) hothers
    obtain ⟨pieces, hpieces, hcodes, rfl⟩ :=
      ih (hlater.names.named hs) (hlater.loops.trans hloops) hothers
    refine ⟨(scene.topText ref rendered, parts) :: pieces, .cons hparts hpieces,
      List.forall_mem_cons.mpr ⟨⟨hcode, LabelledFor.mono hlabelled hmore.continued⟩, hcodes⟩, ?_⟩
    rw [htexts, List.map_cons, List.filter_cons]
    by_cases hempty : scene.topText ref rendered = "" <;> simp [hempty]

/-! ## Programs -/

/-- The main part of a program is the code of the parts of the top blocks, and the
    procedures ahead of it are that of theirs, with labels for the loops that are noted. -/
theorem program_written {program : Program} (hrun : scene.program {} = (.ok program, t)) :
    (∃ pieces, scene.IsMainPart program.code t.definitions pieces ∧
      ∀ piece ∈ pieces, scene.LabelledFor t.continued piece.2) ∧
      ∀ entry ∈ t.definitions.entries, scene.ProcedureEntry t.continued entry.1 entry.2 := by
  obtain ⟨texts, s, hreserve, htexts, hcode⟩ := program_eq_ok hrun
  have hempty : PassState.Sound scene.dialect.policy (scene.ProcedureEntry t.continued) {} :=
    ⟨PassState.named_empty, fun _ hmem => by cases hmem⟩
  have hsound := sound_reserveNames (fun _ text hkey => procedureEntry_of_free text hkey)
    _ _ _ hempty hreserve
  have hlater : Later scene.dialect.policy {} s :=
    Kept.of_run (later_kept scene).reserveNames hreserve
  obtain ⟨pieces, hpieces, hcodes, rfl⟩ := h.topTexts_written hsound.named hlater.loops htexts
  have htops : ∀ ref ∈ scene.workspace.tops, scene.Placed ref :=
    fun ref hmem => ⟨ref, hmem, .refl⟩
  have hlast := preserves_topTexts (h.allPreserve_renderWithin t.continued (Nat.le_refl _)) htops
    _ _ _ ⟨hsound.named, fun _ => hsound.holds⟩ htexts
  exact ⟨⟨pieces, ⟨hpieces, fun piece hpiece => (hcodes piece hpiece).1, hcode⟩,
    fun piece hpiece => (hcodes piece hpiece).2⟩, hlast.holds (List.Subset.refl _)⟩

end Speaks

/-- Without any variables only the names of procedures are reserved. -/
theorem reserveNames_of_noVariables (hused : scene.usedVariables = .ok [])
    (hdeveloper : scene.workspace.developerVariables = []) :
    scene.reserveNames {} = scene.reserveDefined scene.definedNames {} := by
  unfold reserveNames
  rw [hused, hdeveloper]
  simp only [Pass.bind_apply, Pass.ofExcept_ok, reserve, Pass.pure_apply]
  cases hrun : scene.reserveDefined scene.definedNames {} with
  | mk result t => cases result <;> cases scene.dialect.initialValue <;> rfl

/-- Without any names there is nothing to reserve. -/
theorem reserveNames_of_noNames (hused : scene.usedVariables = .ok [])
    (hdeveloper : scene.workspace.developerVariables = []) (hdefined : scene.definedNames = []) :
    scene.reserveNames {} = (.ok (), {}) := by
  rw [reserveNames_of_noVariables hused hdeveloper, hdefined]
  rfl

end Scene

end BlockScript
