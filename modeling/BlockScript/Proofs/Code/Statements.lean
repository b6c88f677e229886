import BlockScript.Proofs.Code.Bodies

/-!
# The rules of statements

Every rule for a statement writes the code of the parts that it stands for, if the
blocks inside it render to the code of theirs.

Results:

* `Scene.Speaks.ruleParts_written`: the text that a rule makes of a block.
-/

namespace BlockScript

open BlockScript.Text

/-! ## Hooks -/

/-- Whether the rule for a form places the hooks itself. -/
def BlockForm.hooksItself : BlockForm → Bool
  | .conditional | .flow => true
  | _ => false

/-- Whether a rule suppresses the hooks just if its form places them itself. -/
def Rule.agreesOnHooks (rule : Rule) : Bool :=
  match rule.handler with
  | .form form => rule.suppressHooks == form.hooksItself
  | .always _ => true

/-- The built-in rules that place the hooks themselves are those for conditionals
    and jumps. -/
theorem RuleTable.suppressHooks_ofLanguage {language type : String} {rule : Rule}
    {form : BlockForm} (hrule : (ofLanguage language).lookup type = .ok rule)
    (hform : rule.handler = .form form) : rule.suppressHooks = form.hooksItself := by
  have hall : (ofLanguage "").rules.all fun entry => entry.2.agreesOnHooks := by decide
  have hmem := Json.mem_of_find? (find?_of_lookup hrule)
  simpa [Rule.agreesOnHooks, hform] using List.all_eq_true.mp hall _ hmem

namespace Scene

variable {scene : Scene} {language : Language} {ref : Ref} {block : Block Ref} {room : Nat}
  {loop : Option Ref} {text text' : String} {parts parts' : Layout} {s t u : PassState}
  {lays : Option Ref → Ref → Layout → Prop}

namespace Speaks

open Recipe

variable (h : scene.Speaks language) (hone : scene.LaysOut (scene.renderWithin room) lays)
include h

theorem suppressHooks_eq {type : String} {rule : Rule} {form : BlockForm}
    (hrule : scene.rules.lookup type = .ok rule) (hform : rule.handler = .form form) :
    rule.suppressHooks = form.hooksItself := by
  rw [h.rules] at hrule
  exact RuleTable.suppressHooks_ofLanguage hrule hform

/-- A body that starts with the snippet for the end of the statement. -/
theorem closedBody_written (hblock : scene.graph.block? ref = some block)
    (hbody : scene.Written text parts loop s) :
    ∃ filled, scene.filled (scene.injectIndented scene.config.statementEnd block ++
        scene.indented text) = scene.indented filled ∧
      scene.Written filled (scene.fill ref (scene.closing ref block ++ parts)) loop s := by
  have hclosing : scene.IsCode (scene.endHook block) (scene.closing ref block) :=
    isCode_closing hblock
  obtain ⟨filled, hfilled, hcode⟩ := h.isCode_filled hblock (hclosing.append hbody.code)
  rw [injectIndented_eq, ← endHook_eq, ← h.indented_append hclosing]
  exact ⟨filled, hfilled, hcode, fun hcontinues => hbody.continued (by simpa using hcontinues),
    by simpa using hbody.labelled⟩

/-! ## Conditionals -/

include hone

theorem arm_written (hblock : scene.graph.block? ref = some block)
    (hs : s.Named scene.dialect.policy) {number : Nat}
    (hrun : scene.follow (scene.renderWithin room) ref block (arm scene block number) s =
      (.ok text, t)) :
    ∃ parts, scene.ArmParts lays s.loops.head? ref block number parts ∧
      scene.Written text parts s.loops.head? t := by
  obtain ⟨condition, u, hcondition, hrest⟩ := follow_bind_eq_ok hrun
  obtain ⟨statements, v, hstatements, hdone⟩ := follow_bind_eq_ok hrest
  obtain ⟨rfl, rfl⟩ := follow_pure_eq_ok hdone
  have hlater := later_of_follow hcondition
  obtain ⟨inner, body, rfl, hbody, hwritten⟩ :=
    h.body_written hone (hlater.names.named hs) hstatements
  rw [hlater.loops] at hbody hwritten
  obtain ⟨filled, hfilled, hcode⟩ := h.closedBody_written hblock hwritten
  rw [hfilled]
  refine ⟨_, ⟨body, hbody, rfl⟩, isCode_block ?_ hcode.code, by simpa using hcode.continued,
    (Layout.labelled_block (by simp) (by simp)).mpr hcode.labelled⟩
  exact h.spells_of_fixed rfl hblock ⟨condition, ⟨room, s, u, hs, hcondition⟩, rfl⟩

theorem arms_written (hblock : scene.graph.block? ref = some block) {numbers : List Nat}
    {texts : List String} (hs : s.Named scene.dialect.policy)
    (hrun : scene.follow (scene.renderWithin room) ref block (forEach (arm scene block) numbers) s =
      (.ok texts, t)) :
    ∃ layouts, List.Forall₂ (scene.ArmParts lays s.loops.head? ref block) numbers layouts ∧
      scene.Written (Text.concat texts) (.concat layouts) s.loops.head? t := by
  induction numbers generalizing s texts with
  | nil =>
    obtain ⟨rfl, rfl⟩ := follow_pure_eq_ok hrun
    exact ⟨[], .nil, written_of_code isCode_nil rfl .nil⟩
  | cons number numbers ih =>
    obtain ⟨first, u, hfirst, hrest⟩ := follow_bind_eq_ok hrun
    obtain ⟨others, v, hothers, hdone⟩ := follow_bind_eq_ok hrest
    obtain ⟨rfl, rfl⟩ := follow_pure_eq_ok hdone
    have hlater := later_of_follow hfirst
    obtain ⟨parts, hparts, hwritten⟩ := h.arm_written hone hblock hs hfirst
    obtain ⟨layouts, hlayouts, hwritten'⟩ := ih (hlater.names.named hs) hothers
    rw [hlater.loops] at hlayouts hwritten'
    exact ⟨parts :: layouts, .cons hparts hlayouts,
      (hwritten.later (later_of_follow hothers).continued).append hwritten'⟩

theorem otherwise_written (hblock : scene.graph.block? ref = some block)
    (hs : s.Named scene.dialect.policy)
    (hrun : scene.follow (scene.renderWithin room) ref block (otherwise scene block) s =
      (.ok text, t)) :
    ∃ parts, scene.OtherwiseParts lays s.loops.head? ref block parts ∧
      scene.Written text parts s.loops.head? t := by
  unfold otherwise at hrun
  split at hrun
  · next hthere =>
    obtain ⟨statements, u, hstatements, hdone⟩ := follow_bind_eq_ok hrun
    obtain ⟨rfl, rfl⟩ := follow_pure_eq_ok hdone
    obtain ⟨inner, body, rfl, hbody, hwritten⟩ := h.body_written hone hs hstatements
    obtain ⟨filled, hfilled, hcode⟩ := h.closedBody_written hblock hwritten
    rw [hfilled]
    refine ⟨.block (.otherwise, ref) (scene.fill ref (scene.closing ref block ++ body)), ?_,
      isCode_block ?_ hcode.code, by simpa using hcode.continued,
      (Layout.labelled_block (by simp) (by simp)).mpr hcode.labelled⟩
    · rw [OtherwiseParts, if_pos hthere]
      exact ⟨body, hbody, rfl⟩
    · exact h.spells_of_fixed rfl hblock rfl
  · next hnone =>
    obtain ⟨rfl, rfl⟩ := follow_pure_eq_ok hrun
    refine ⟨.nil, ?_, written_of_code isCode_nil rfl .nil⟩
    rw [OtherwiseParts, if_neg hnone]

theorem conditional_written (hblock : scene.graph.block? ref = some block)
    (hs : s.Named scene.dialect.policy) {product : Product}
    (hrun : scene.follow (scene.renderWithin room) ref block (conditional scene block) s =
      (.ok product, t)) :
    ∃ text parts, product = .text text ∧
      scene.RuleParts lays s.loops.head? ref block .conditional parts ∧
      scene.Written text parts s.loops.head? t := by
  obtain ⟨texts, u, htexts, hrest⟩ := follow_bind_eq_ok hrun
  obtain ⟨last, v, hlast, hdone⟩ := follow_bind_eq_ok hrest
  obtain ⟨rfl, rfl⟩ := follow_pure_eq_ok hdone
  have hlater := later_of_follow htexts
  obtain ⟨layouts, hlayouts, hwritten⟩ := h.arms_written hone hblock hs htexts
  obtain ⟨otherwise, hotherwise, hwritten'⟩ :=
    h.otherwise_written hone hblock (hlater.names.named hs) hlast
  rw [hlater.loops] at hotherwise hwritten'
  refine ⟨_, _, rfl, .conditional hlayouts hotherwise, ?_⟩
  have hopening : scene.Written (scene.startHook block) (scene.opening ref block)
      s.loops.head? t := written_of_code (isCode_opening hblock) (by simp) (by simp)
  have hcloser : scene.Written scene.dialect.blockEnd (scene.closer ref) s.loops.head? t :=
    written_of_code (isCode_closer hblock) (by simp) (by simp)
  exact ((hopening.append (hwritten.later (later_of_follow hlast).continued)).append
    hwritten').append hcloser

/-! ## Loops -/

omit h hone in
/-- A loop body with the snippets of the loop. -/
theorem addLoopTrap_eq_ok {rule : Rule} {body trapped : String}
    (hrule : scene.rules.lookup block.type = .ok rule) (hhooks : rule.suppressHooks = false)
    (htrapped : scene.addLoopTrap body block = .ok trapped) :
    trapped = scene.indented (scene.endHook block) ++
      (scene.indented (scene.injectStatement scene.config.loopTrap block) ++ body) ++
      scene.indented (scene.startHook block) := by
  unfold addLoopTrap at htrapped
  rw [hrule] at htrapped
  cases htrapped
  simp [trapped, hhooks, injectIndented_eq, startHook_eq, endHook_eq]

/-- The body of a loop. -/
theorem loopStatements_written (hblock : scene.graph.block? ref = some block)
    (hs : s.Named scene.dialect.policy) {rule : Rule}
    (hrule : scene.rules.lookup block.type = .ok rule) (hhooks : rule.suppressHooks = false)
    {reply : String}
    (hrun : scene.follow (scene.renderWithin room) ref block (loopStatements scene ref block) s =
      (.ok reply, t)) :
    ∃ text parts, reply = scene.indented text ∧ scene.LoopParts lays ref block parts ∧
      scene.IsCode text parts ∧ scene.LabelledFor t.continued (.block (.loop, ref) parts) := by
  obtain ⟨statements, u, hstatements, hrest⟩ := follow_bind_eq_ok hrun
  obtain ⟨inner, body, rfl, hbody, hwritten⟩ := h.loopBody_written hone hs hstatements
  obtain ⟨trapped, v, htrapped, hend⟩ := follow_bind_eq_ok hrest
  obtain ⟨htrap, rfl⟩ := follow_ofExcept_eq_ok htrapped
  have hclosing : scene.IsCode (scene.endHook block) (scene.closing ref block) :=
    isCode_closing hblock
  have htrapping : scene.IsCode (scene.injectStatement scene.config.loopTrap block)
      (scene.trapping ref block) := isCode_trapping hblock
  have hopening : scene.IsCode (scene.startHook block) (scene.opening ref block) :=
    isCode_opening hblock
  have hcode := ((hclosing.append htrapping).append hwritten.code).append hopening
  have hfront : scene.LabelledFor v.continued (scene.closing ref block ++
      scene.trapping ref block ++ body ++ scene.opening ref block) := by simpa using hwritten.labelled
  have hindented : trapped = scene.indented (scene.endHook block ++
      scene.injectStatement scene.config.loopTrap block ++ inner ++ scene.startHook block) := by
    rw [addLoopTrap_eq_ok hrule hhooks htrap,
      h.indented_append ((hclosing.append htrapping).append hwritten.code),
      h.indented_append (hclosing.append htrapping), h.indented_append hclosing]
    simp only [String.append_assoc]
  subst hindented
  cases hlabel : scene.dialect.continueLabel with
  | none =>
    rw [hlabel] at hend
    obtain ⟨rfl, rfl⟩ := follow_pure_eq_ok hend
    obtain ⟨filled, hfilled, hfill⟩ := h.isCode_filled hblock hcode
    refine ⟨filled, _, hfilled, ⟨body, false, hbody, by simp, ?_, rfl⟩, by simpa using hfill,
      labelled_loop false hfront (by simp) ?_⟩
    · simp [hlabel]
    · simp [hlabel]
  | some label =>
    rw [hlabel] at hend
    obtain ⟨continued, w, hcontinued, hdone⟩ := follow_bind_eq_ok hend
    obtain ⟨rfl, rfl⟩ := follow_pure_eq_ok hdone
    have hnoted : continued = true ↔ ref ∈ t.continued := by
      unfold loopContinued at hcontinued
      rw [follow_ask] at hcontinued
      cases hcontinued
      exact List.contains_iff_mem
    have hlater : v.continued ⊆ t.continued := (later_of_follow hcontinued).continued
    have hsome : scene.dialect.continueLabel.isSome = true := by simp [hlabel]
    have hspells : scene.Spells (.label, ref) (label ++ "\n") :=
      h.spells_of_fixed rfl hblock ⟨label, hlabel, rfl⟩
    have hlast : scene.IsCode (if continued then label ++ "\n" else "")
        (if continued then .single (.label, ref) else .nil) := by
      cases continued with
      | true => exact isCode_single hspells
      | false => exact isCode_nil
    have hbodyText : (if continued = true then
        scene.indented (scene.endHook block ++ scene.injectStatement scene.config.loopTrap block ++
          inner ++ scene.startHook block) ++ scene.indent ++ label ++ "\n"
        else scene.indented (scene.endHook block ++
          scene.injectStatement scene.config.loopTrap block ++ inner ++ scene.startHook block)) =
        scene.indented (scene.endHook block ++ scene.injectStatement scene.config.loopTrap block ++
          inner ++ scene.startHook block ++ if continued then label ++ "\n" else "") := by
      rw [h.indented_append hcode]
      cases continued with
      | true =>
        simp only [if_true]
        rw [h.indented_of_spells rfl hspells]
        simp only [String.append_assoc]
      | false => simp
    rw [hbodyText]
    obtain ⟨filled, hfilled, hfill⟩ := h.isCode_filled hblock (hcode.append hlast)
    exact ⟨filled, _, hfilled, ⟨body, continued, hbody, by simp [hlabel],
      fun hcontinues _ => hnoted.mpr (hlater (hwritten.continued hcontinues hsome ref rfl)), rfl⟩,
      hfill, labelled_loop continued (LabelledFor.mono hfront hlater) hnoted.mp fun hmust =>
        hnoted.mpr (hlater (continued_of_loopBody hstatements hblock hsome hmust.2))⟩

/-- A loop with a condition. -/
theorem whileLoop_written (hblock : scene.graph.block? ref = some block)
    (hs : s.Named scene.dialect.policy) {rule : Rule}
    (hrule : scene.rules.lookup block.type = .ok rule) (hhooks : rule.suppressHooks = false)
    {product : Product}
    (hrun : scene.follow (scene.renderWithin room) ref block (whileLoop scene ref block) s =
      (.ok product, t)) :
    ∃ text parts, product = .text text ∧
      scene.RuleParts lays loop ref block .whileLoop parts ∧ scene.Written text parts loop t := by
  have hfinish : ∀ {condition u}, u.Named scene.dialect.policy →
      scene.IsCondition ref block condition →
      scene.follow (scene.renderWithin room) ref block (do
        let statements ← loopStatements scene ref block
        return .text (scene.dialect.whileHeader condition ++ statements ++
          scene.dialect.blockEnd)) u = (.ok product, t) →
      ∃ text parts, product = .text text ∧
        scene.RuleParts lays loop ref block .whileLoop parts ∧
        scene.Written text parts loop t := by
    intro condition u hu hcondition hrest
    obtain ⟨statements, v, hstatements, hdone⟩ := follow_bind_eq_ok hrest
    obtain ⟨rfl, rfl⟩ := follow_pure_eq_ok hdone
    obtain ⟨inner, inside, rfl, hinside, hcode, hlabelled⟩ :=
      h.loopStatements_written hone hblock hu hrule hhooks hstatements
    have hheader : scene.Spells (.loop, ref) (scene.dialect.whileHeader condition) :=
      h.spells_of_fixed rfl hblock (.inl ⟨condition, hcondition, rfl⟩)
    exact ⟨_, _, rfl, .whileLoop hinside,
      written_of_code ((isCode_block hheader hcode).append (isCode_closer hblock)) (by simp)
        (Layout.labelled_append.mpr ⟨hlabelled, labelled_closer⟩)⟩
  obtain ⟨mode, u, hchosen, hrest⟩ := follow_bind_eq_ok hrun
  obtain ⟨hmode, rfl⟩ := follow_ofExcept_eq_ok hchosen
  cases mode with
  | «while» =>
    obtain ⟨condition, v, hcondition, hrest⟩ := follow_bind_eq_ok hrest
    exact hfinish ((later_of_follow hcondition).names.named hs)
      ⟨.while, condition, hmode, rfl, room, _, _, hs, hcondition⟩ hrest
  | «until» =>
    obtain ⟨code, v, hcode, hrest⟩ := follow_bind_eq_ok hrest
    obtain ⟨condition, w, hcondition, hrest⟩ := follow_bind_eq_ok hrest
    obtain ⟨rfl, rfl⟩ := follow_pure_eq_ok hcondition
    exact hfinish ((later_of_follow hcode).names.named hs)
      ⟨.until, code, hmode, rfl, room, _, _, hs, hcode⟩ hrest

omit h hone in
/-- An identifier of its own. -/
theorem freshName_fits {kind : NameKind} {base : String}
    (hrun : scene.follow (scene.renderWithin room) ref block (freshName kind base) s =
      (.ok text, t)) :
    ∃ word, text = scene.dialect.policy.sign kind ++ word ∧
      scene.dialect.policy.Fits kind word := by
  unfold freshName at hrun
  rw [follow_ask] at hrun
  cases hrun
  exact ⟨_, rfl, NameTable.fits_allocate base⟩

/-- A loop with a count. -/
theorem repeatLoop_written (hblock : scene.graph.block? ref = some block)
    (hs : s.Named scene.dialect.policy) {rule : Rule}
    (hrule : scene.rules.lookup block.type = .ok rule) (hhooks : rule.suppressHooks = false)
    {product : Product}
    (hrun : scene.follow (scene.renderWithin room) ref block (repeatLoop scene ref block) s =
      (.ok product, t)) :
    ∃ text parts, product = .text text ∧
      scene.RuleParts lays loop ref block .repeatLoop parts ∧ scene.Written text parts loop t := by
  obtain ⟨count, u, hcount, hrest⟩ := follow_bind_eq_ok hrun
  obtain ⟨statements, v, hstatements, hrest⟩ := follow_bind_eq_ok hrest
  obtain ⟨counter, w, hcounter, hrest⟩ := follow_bind_eq_ok hrest
  have hnamed := (later_of_follow hcount).names.named hs
  obtain ⟨inner, inside, rfl, hinside, hcode, hlabelled⟩ :=
    h.loopStatements_written hone hblock hnamed hrule hhooks hstatements
  have hloop : scene.LabelledFor t.continued (.block (.loop, ref) inside) :=
    LabelledFor.mono hlabelled
      (List.Subset.trans (later_of_follow hcounter).continued (later_of_follow hrest).continued)
  obtain ⟨word, htext, hfits⟩ := freshName_fits hcounter
  have hcounterName : scene.dialect.policy.IsName counter := ⟨.variable, word, htext, hfits⟩
  have hyields : scene.Yields ref block (repeatCount block) count := ⟨room, s, u, hs, hcount⟩
  have hcloser : scene.IsCode scene.dialect.blockEnd (scene.closer ref) := isCode_closer hblock
  have hplain : ∀ {bound}, scene.IsBound count bound → ∃ parts,
      scene.RuleParts lays loop ref block .repeatLoop parts ∧
        scene.Written (scene.dialect.repeatHeader counter bound ++ scene.indented inner ++
          scene.dialect.blockEnd) parts loop t := by
    intro bound hbound
    have hheader : scene.Spells (.loop, ref) (scene.dialect.repeatHeader counter bound) :=
      h.spells_of_fixed rfl hblock (.inr ⟨counter, count, bound, hcounterName, hyields, hbound, rfl⟩)
    have hparts : scene.RuleParts lays loop ref block .repeatLoop
        ((if false then .single (.bound, ref) else .nil) ++ .block (.loop, ref) inside ++
          scene.closer ref) := .repeatLoop (by simp) hinside
    exact ⟨_, hparts, written_of_code ((isCode_block hheader hcode).append hcloser) (by simp)
      (Layout.labelled_append.mpr ⟨hloop, labelled_closer⟩)⟩
  cases hform : scene.dialect.repeatCount with
  | truncated before after =>
    rw [hform] at hrest
    obtain ⟨rfl, rfl⟩ := follow_pure_eq_ok hrest
    have hbound : scene.IsBound count (truncatedCount before after count) := by
      simp [IsBound, hform]
    obtain ⟨parts, hparts, hwritten⟩ := hplain hbound
    exact ⟨_, parts, rfl, hparts, hwritten⟩
  | stored =>
    rw [hform] at hrest
    dsimp only at hrest
    split at hrest
    · obtain ⟨rfl, rfl⟩ := follow_pure_eq_ok hrest
      have hbound : scene.IsBound count count := by simp [IsBound, hform]
      obtain ⟨parts, hparts, hwritten⟩ := hplain hbound
      exact ⟨_, parts, rfl, hparts, hwritten⟩
    · obtain ⟨bound, x, hbound, hdone⟩ := follow_bind_eq_ok hrest
      obtain ⟨rfl, rfl⟩ := follow_pure_eq_ok hdone
      obtain ⟨word, htext, hfits⟩ := freshName_fits hbound
      have hstored : scene.IsBound count bound := by
        rw [IsBound, hform]
        exact .inr ⟨word, htext, hfits⟩
      have hheader : scene.Spells (.loop, ref) (scene.dialect.repeatHeader counter bound) :=
        h.spells_of_fixed rfl hblock
          (.inr ⟨counter, count, bound, hcounterName, hyields, hstored, rfl⟩)
      have hassigned :
          scene.Spells (.bound, ref) (scene.dialect.statement (bound ++ " = " ++ count)) :=
        h.spells_of_fixed rfl hblock
          ⟨bound, count, ⟨.variable, word, htext, hfits⟩, hyields, rfl⟩
      have hparts : scene.RuleParts lays loop ref block .repeatLoop
          ((if true then .single (.bound, ref) else .nil) ++ .block (.loop, ref) inside ++
            scene.closer ref) := .repeatLoop (fun _ => hform) hinside
      have hwhole := ((isCode_single hassigned).append (isCode_block hheader hcode)).append hcloser
      have hassignedLabels : scene.LabelledFor t.continued (.single (.bound, ref)) :=
        Layout.labelled_single ref (by simp) (by simp)
      refine ⟨_, _, rfl, hparts, written_of_code ?_ (by simp [Layout.continues_single, Outline.block])
        (Layout.labelled_append.mpr ⟨Layout.labelled_append.mpr ⟨hassignedLabels, hloop⟩,
          labelled_closer⟩)⟩
      simpa only [String.append_assoc, if_true] using hwhole

/-! ## Jumps -/

omit h hone in
/-- The snippet that opens the statement of a loop again. -/
theorem isCode_reopening {loop : Ref} {hook : String} (hhook : reopened scene loop = .ok hook) :
    scene.IsCode hook (scene.reopening (some loop)) := by
  unfold reopened at hhook
  unfold reopening
  cases hblock : scene.graph.block? loop with
  | none =>
    simp only [hblock] at hhook ⊢
    split at hhook <;> cases hhook <;> exact isCode_nil
  | some loopBlock =>
    simp only [hblock] at hhook ⊢
    split at hhook
    · next hnone =>
      cases hhook
      have hempty : scene.opening loop loopBlock = .nil := by simp [opening, startHook, hnone, piece]
      simp only [hempty, ite_self]
      split <;> exact isCode_nil
    · next hsome =>
      cases hlookup : scene.rules.lookup loopBlock.type with
      | error failure =>
        rw [hlookup] at hhook
        cases hhook
      | ok rule =>
        rw [hlookup] at hhook
        cases hhook
        simp only [RuleTable.find?_of_lookup hlookup]
        split
        · exact isCode_nil
        · rw [← startHook_eq]
          exact isCode_opening hblock

omit h hone in
/-- What follows in a jump once it is noted: the loop around it is asked for. -/
theorem reopened_of_follow {warning : Warning} {before after : String} {product : Product}
    (hrun : scene.follow (scene.renderWithin room) ref block (do
      let loop ← enclosingLoop
      let hook ←
        match loop with
        | none => do
          warn warning
          pure ""
        | some loop => ofExcept (reopened scene loop)
      return .text (before ++ hook ++ after)) s = (.ok product, t)) :
    ∃ hook, product = .text (before ++ hook ++ after) ∧
      scene.IsCode hook (scene.reopening s.loops.head?) ∧ s.continued ⊆ t.continued := by
  have hlater := later_of_follow hrun
  obtain ⟨loop, u, hloop, hrest⟩ := follow_bind_eq_ok hrun
  unfold enclosingLoop at hloop
  rw [follow_ask] at hloop
  cases hloop
  cases haround : s.loops.head? with
  | none =>
    rw [haround] at hrest
    obtain ⟨_, v, -, hrest⟩ := follow_bind_eq_ok hrest
    obtain ⟨hook, w, hhook, hdone⟩ := follow_bind_eq_ok hrest
    obtain ⟨rfl, rfl⟩ := follow_pure_eq_ok hhook
    obtain ⟨rfl, rfl⟩ := follow_pure_eq_ok hdone
    exact ⟨"", rfl, isCode_nil, hlater.continued⟩
  | some loop =>
    rw [haround] at hrest
    obtain ⟨hook, v, hhook, hdone⟩ := follow_bind_eq_ok hrest
    obtain ⟨hreopened, rfl⟩ := follow_ofExcept_eq_ok hhook
    obtain ⟨rfl, rfl⟩ := follow_pure_eq_ok hdone
    exact ⟨hook, rfl, isCode_reopening hreopened, hlater.continued⟩

omit hone in
/-- The code of a jump. -/
theorem jump_written (hblock : scene.graph.block? ref = some block) {jump : FlowStatement}
    {code hook : String} (hspells : scene.SpellsOf ref block (scene.dialect.statement code)
      (.jump jump))
    (hhook : scene.IsCode hook (scene.reopening loop))
    (hnoted : jump = .continue → scene.dialect.continueLabel.isSome = true →
      ∀ around, loop = some around → around ∈ t.continued) :
    scene.Written (scene.startHook block ++ scene.endHook block ++ hook ++
        scene.dialect.statement code)
      (scene.opening ref block ++ scene.closing ref block ++ scene.reopening loop ++
        .single (.jump jump, ref)) loop t := by
  have hjump := isCode_single (h.spells_of_fixed rfl hblock hspells)
  refine ⟨(((isCode_opening hblock).append (isCode_closing hblock)).append hhook).append hjump,
    fun hcontinues => hnoted ?_, ?_⟩
  · simpa using hcontinues
  · simp [Layout.labelled_single]

omit hone in
theorem flow_written (hblock : scene.graph.block? ref = some block) {product : Product}
    (hrun : scene.follow (scene.renderWithin room) ref block (flow scene block) s =
      (.ok product, t)) :
    ∃ text parts, product = .text text ∧
      scene.RuleParts lays s.loops.head? ref block .flow parts ∧
      scene.Written text parts s.loops.head? t := by
  obtain ⟨jump, u, hchosen, hrest⟩ := follow_bind_eq_ok hrun
  obtain ⟨hjump, rfl⟩ := follow_ofExcept_eq_ok hchosen
  cases jump with
  | «break» =>
    obtain ⟨hook, rfl, hhook, -⟩ := reopened_of_follow hrest
    exact ⟨_, _, rfl, .flow hjump, h.jump_written hblock rfl hhook (by simp)⟩
  | «continue» =>
    cases hlabel : scene.dialect.continueLabel.isSome with
    | false =>
      rw [hlabel] at hrest
      obtain ⟨hook, rfl, hhook, -⟩ := reopened_of_follow hrest
      exact ⟨_, _, rfl, .flow hjump, h.jump_written hblock rfl hhook (by simp [hlabel])⟩
    | true =>
      rw [hlabel] at hrest
      obtain ⟨_, v, hmark, hrest⟩ := follow_bind_eq_ok hrest
      have hloops := (later_of_follow hmark).loops
      obtain ⟨hook, rfl, hhook, hlater⟩ := reopened_of_follow hrest
      rw [hloops] at hhook
      refine ⟨_, _, rfl, .flow hjump, h.jump_written hblock rfl hhook ?_⟩
      exact fun _ _ around haround => hlater (continued_of_markContinue hmark haround)

/-! ## Returns -/

omit hone in
/-- The statement that gives back a value stands on a line inside the body. -/
theorem isCode_return (hblock : scene.graph.block? ref = some block) {value : String}
    (hvalue : scene.IsReturned ref block value) :
    ∃ text, returnStatement scene value = scene.indented text ∧
      scene.IsCode text (.single (.giveBack, ref)) := by
  have hspells :
      scene.Spells (.giveBack, ref) (scene.dialect.statement ("return " ++ value)) :=
    h.spells_of_fixed rfl hblock (.inr ⟨value, hvalue, rfl⟩)
  exact ⟨_, (h.indented_of_spells rfl hspells).symm, isCode_single hspells⟩

omit hone in
theorem conditionalReturn_written (hblock : scene.graph.block? ref = some block)
    (hs : s.Named scene.dialect.policy) {product : Product}
    (hrun : scene.follow (scene.renderWithin room) ref block (conditionalReturn scene block) s =
      (.ok product, t)) :
    ∃ text parts, product = .text text ∧
      scene.RuleParts lays loop ref block .conditionalReturn parts ∧
      scene.Written text parts loop t := by
  have hfinish : ∀ {condition last code},
      scene.Yields ref block (valueOr "CONDITION" .none false scene.dialect.falseLiteral)
        condition →
      last = scene.indented code → scene.IsCode code (.single (.giveBack, ref)) →
      scene.Written (scene.dialect.ifHeader condition ++
          scene.injectIndented scene.config.statementEnd block ++ last ++ scene.dialect.blockEnd)
        (.block (.branch 0 "CONDITION", ref)
          (scene.closing ref block ++ .single (.giveBack, ref)) ++ scene.closer ref) loop t := by
    intro condition last code hyields hlast hcode
    have hclosing : scene.IsCode (scene.endHook block) (scene.closing ref block) :=
      isCode_closing hblock
    have hheader : scene.Spells (.branch 0 "CONDITION", ref) (scene.dialect.ifHeader condition) :=
      h.spells_of_fixed rfl hblock ⟨condition, hyields, rfl⟩
    have hwhole := (isCode_block hheader (hclosing.append hcode)).append (isCode_closer hblock)
    refine written_of_code ?_ (by simp [Layout.continues, Layout.continues_single])
      (by simp [Layout.labelled_line, Layout.labelled_single])
    rw [hlast, injectIndented_eq, ← endHook_eq]
    simpa only [h.indented_append hclosing, String.append_assoc, if_true] using hwhole
  obtain ⟨condition, u, hcondition, hrest⟩ := follow_bind_eq_ok hrun
  have hyields : scene.Yields ref block
      (valueOr "CONDITION" .none false scene.dialect.falseLiteral) condition :=
    ⟨room, s, u, hs, hcondition⟩
  cases hthere : block.hasInput "VALUE" with
  | true =>
    rw [hthere] at hrest
    obtain ⟨value, v, hvalue, hrest⟩ := follow_bind_eq_ok hrest
    obtain ⟨last, w, hlast, hdone⟩ := follow_bind_eq_ok hrest
    obtain ⟨rfl, rfl⟩ := follow_pure_eq_ok hlast
    obtain ⟨rfl, rfl⟩ := follow_pure_eq_ok hdone
    have hnamed := (later_of_follow hcondition).names.named hs
    obtain ⟨code, hcode, hreturn⟩ :=
      h.isCode_return hblock (.inr ⟨room, u, _, hnamed, hvalue⟩)
    exact ⟨_, _, rfl, .conditionalReturn, hfinish hyields hcode hreturn⟩
  | false =>
    rw [hthere] at hrest
    obtain ⟨last, v, hlast, hdone⟩ := follow_bind_eq_ok hrest
    obtain ⟨rfl, rfl⟩ := follow_pure_eq_ok hlast
    obtain ⟨rfl, rfl⟩ := follow_pure_eq_ok hdone
    have hspells : scene.Spells (.giveBack, ref) (scene.dialect.statement "return") :=
      h.spells_of_fixed rfl hblock (.inl rfl)
    exact ⟨_, _, rfl, .conditionalReturn, hfinish hyields
      (h.indented_of_spells rfl hspells).symm (isCode_single hspells)⟩

/-! ## All rules -/

omit hone in
/-- A statement with none inside it. -/
theorem simple_written (hblock : scene.graph.block? ref = some block)
    (hs : s.Named scene.dialect.policy) {rule : Rule} {form : BlockForm}
    (hrule : scene.rules.lookup block.type = .ok rule) (hform : rule.handler = .form form)
    (hsimple : form.isSimple = true) {product : Product}
    (hrun : scene.follow (scene.renderWithin room) ref block (form.recipe scene ref block) s =
      (.ok product, t)) :
    ∃ text parts, product = .text text ∧ scene.RuleParts lays loop ref block form parts ∧
      scene.Written text parts loop t := by
  have hyields : scene.Yields ref block (form.recipe scene ref block) product :=
    ⟨room, s, t, hs, hrun⟩
  obtain ⟨text, rfl, -⟩ := h.phrased.isStatement_of_yields h.fallback_changeOperand hsimple hyields
  have hspells : scene.Spells (.statement, ref) text :=
    h.spells_of_fixed rfl hblock ⟨rule, form, hrule, hform, hsimple, hyields⟩
  exact ⟨text, _, rfl, .simple hsimple,
    written_of_code (isCode_single hspells) (Layout.continues_single _ (by simp))
      (Layout.labelled_single ref (by simp) (by simp))⟩

/-- What a rule for a statement, other than that for a definition, makes of a
    block. -/
theorem ruleParts_written (hblock : scene.graph.block? ref = some block)
    (hs : s.Named scene.dialect.policy) {rule : Rule} {form : BlockForm}
    (hrule : scene.rules.lookup block.type = .ok rule) (hform : rule.handler = .form form)
    (hstatement : form.isValue = false) (hplain : form ≠ .procedureDefinition) {product : Product}
    (hrun : scene.follow (scene.renderWithin room) ref block (form.recipe scene ref block) s =
      (.ok product, t)) :
    ∃ text parts, product = .text text ∧
      scene.RuleParts lays s.loops.head? ref block form parts ∧
      scene.Written text parts s.loops.head? t := by
  have hhooks := h.suppressHooks_eq hrule hform
  cases form with
  | conditional => exact h.conditional_written hone hblock hs hrun
  | whileLoop => exact h.whileLoop_written hone hblock hs hrule hhooks hrun
  | repeatLoop => exact h.repeatLoop_written hone hblock hs hrule hhooks hrun
  | flow => exact h.flow_written hblock hrun
  | conditionalReturn => exact h.conditionalReturn_written hblock hs hrun
  | variableAssignment => exact h.simple_written hblock hs hrule hform rfl hrun
  | change => exact h.simple_written hblock hs hrule hform rfl hrun
  | procedureCallStatement => exact h.simple_written hblock hs hrule hform rfl hrun
  | procedureDefinition => exact absurd rfl hplain
  | _ => cases hstatement

end Speaks

end Scene

end BlockScript
