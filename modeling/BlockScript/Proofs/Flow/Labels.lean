import Mathlib.Data.List.Chain
import BlockScript.Proofs.Brackets.Program
import BlockScript.Proofs.Pass.Gathered

/-!
# Labels of loops

Lua has no statement that goes on with the next round of a loop: a jump goes to a label at
the end of the body. The label is there just if the body has such a jump that is in no
other loop inside it, and no line other than these is a label. Snippets and comments are
left out of this, as their texts come from the configuration and the workspace.

Results:

* `Scene.Speaks.noting_renderWithin`: a loop is noted only for a jump in its rounds.
* `Scene.labels_match`: the labels of a whole program.
-/

namespace BlockScript

open BlockScript.Reading BlockScript.Text

namespace Scene

variable {scene : Scene} {language : Language} {ref target : Ref} {block : Block Ref} {room : Nat}
  {request : Request} {form : BlockForm} {s t : PassState} {text : String}

/-! ## Noted loops -/

/-- Whether loops are noted for the jumps in their rounds only, and a block is rendered in a
    round of the loop around it. -/
structure Noting (scene : Scene) (ref : Ref) (s : PassState) : Prop where
  noted (loop : Ref) (h : loop ∈ s.continued) : scene.Continues loop
  around (loop : Ref) (h : s.loops.head? = some loop) : scene.InRound loop ref

theorem Noting.of_eq (h : scene.Noting ref s) (hloops : t.loops = s.loops)
    (hcontinued : t.continued = s.continued) : scene.Noting ref t :=
  ⟨by rw [hcontinued]; exact h.noted, by rw [hloops]; exact h.around⟩

/-- A jump to the next round is in a round of the loop that is noted. -/
theorem noting_markContinue (hcontinue : scene.IsContinue ref) :
    Pass.markContinue.Preserves (scene.Noting ref) := by
  intro s reply t hs hrun
  cases hrun
  dsimp only
  split
  · exact hs
  · next loop others hloops =>
    refine ⟨List.forall_mem_cons.mpr ⟨?_, hs.noted⟩, hs.around⟩
    exact ⟨ref, hs.around loop (by rw [hloops]; rfl), hcontinue⟩

section Requests

variable (hone : ∀ target, (scene.renderWithin room target).Preserves (scene.Noting target))
include hone

/-- What is rendered for a block is in the round that the block is in. -/
theorem Noting.descend (hform : scene.HasForm ref block form)
    (hasks : (form.recipe scene ref block).Asks request) (hstraight : request.Straight)
    (htarget : target ∈ scene.targets block request) :
    (scene.renderWithin room target).Preserves (scene.Noting ref) := by
  obtain ⟨hblock, henabled, rule, hrule, hhandler⟩ := hform
  intro s a t hs hrun
  have hlater : Later scene.dialect.policy s t :=
    Kept.of_run ((later_kept scene).renderWithin room target) hrun
  have hasked : (rule.handler.recipe scene ref block).Asks request := by rwa [hhandler]
  have hentered : scene.Noting target s := ⟨hs.noted, fun loop hloop =>
    .inside (hs.around loop hloop) hblock henabled hrule hasked hstraight htarget⟩
  exact ⟨(hone target s a t hentered hrun).noted, by rw [hlater.loops]; exact hs.around⟩

/-- The body of a loop is in its rounds. -/
theorem noting_insideLoop (hblock : scene.graph.block? ref = some block) :
    (Pass.insideLoop ref (scene.bodyText (scene.renderWithin room) block "DO")).Preserves
      (scene.Noting ref) := by
  have hbody : (scene.bodyText (scene.renderWithin room) block "DO").Preserves fun s =>
      (∀ loop ∈ s.continued, scene.Continues loop) ∧ s.loops.head? = some ref := by
    refine preserves_bodyText (fun target htarget => ?_) fun target htarget => htarget
    intro s a t hs hrun
    have hlater : Later scene.dialect.policy s t :=
      Kept.of_run ((later_kept scene).renderWithin room target) hrun
    have hentered : scene.Noting target s := by
      refine ⟨hs.1, fun loop hloop => ?_⟩
      cases hs.2.symm.trans hloop
      exact .body hblock htarget
    exact ⟨(hone target s a t hentered hrun).noted, by rw [hlater.loops]; exact hs.2⟩
  intro s reply t hs hrun
  have hlater : Later scene.dialect.policy s t := Kept.of_run ((later_kept scene).insideLoop ref
    ((later_kept scene).bodyText ((later_kept scene).renderWithin room) block "DO")) hrun
  obtain ⟨u, hu, rfl⟩ := Pass.between_eq_ok hrun
  have hentered : (∀ loop ∈ ({ s with loops := ref :: s.loops } : PassState).continued,
      scene.Continues loop) ∧ (ref :: s.loops).head? = some ref := ⟨hs.noted, rfl⟩
  exact ⟨(hbody _ _ _ hentered hu).1, by rw [hlater.loops]; exact hs.around⟩

theorem noting_answer (hform : scene.HasForm ref block form)
    (hasks : (form.recipe scene ref block).Asks request)
    (hasked : request.AskedFor scene ref block form) :
    (scene.answer (scene.renderWithin room) ref block request).Preserves (scene.Noting ref) := by
  cases request with
  | value socket tier strict =>
    exact preserves_valueText (fun _ htarget => .descend hone hform hasks trivial htarget)
      (fun target hinput => by simp [targets, hinput]) tier strict
  | body socket loop =>
    cases loop with
    | false =>
      exact preserves_bodyText (fun _ htarget => .descend hone hform hasks rfl htarget)
        fun _ htarget => htarget
    | true =>
      obtain rfl : socket = "DO" := hasked.1.2 rfl
      exact noting_insideLoop hone hform.1
  | markContinue =>
    obtain ⟨rfl, hchosen⟩ := hasked
    exact noting_markContinue ⟨block, hform, hchosen⟩
  | name | freshName | helper | define | enclosingLoop | loopContinued | warn =>
    intro s reply t hs hrun
    cases hrun
    exact hs.of_eq rfl rfl

end Requests

namespace Speaks

variable (h : scene.Speaks language)
include h

/-- Rendering a block notes a loop only for a jump in its rounds. -/
theorem noting_renderWithin (room : Nat) (ref : Ref) :
    (scene.renderWithin room ref).Preserves (scene.Noting ref) := by
  induction room generalizing ref with
  | zero =>
    intro s a t _ hrun
    cases hrun
  | succ room ih =>
    refine h.preserves_renderWithin (fun hs => hs.of_eq rfl rfl) (fun hs => hs.of_eq rfl rfl)
      fun block rule form hblock henabled hrule hhandler => ?_
    have hform : scene.HasForm ref block form := ⟨hblock, henabled, rule, hrule, hhandler⟩
    exact preserves_follow_of_only
      (fun request hrequest => noting_answer ih hform hrequest.1 hrequest.2)
      ((Recipe.only_asks _).and (form.recipe_asks scene ref block))

/-- In a whole program only loops with a jump to the next round are noted. -/
theorem continues_of_noted {program : Program} (hrun : scene.program {} = (.ok program, t)) :
    ∀ loop ∈ t.continued, scene.Continues loop := by
  obtain ⟨texts, s, hreserve, htexts, -⟩ := program_eq_ok hrun
  have hnone : s.continued = [] := by
    refine preserves_reserveNames (I := fun s => s.continued = []) ?_ ?_ _ _ _ rfl hreserve
    · intro kind name s reply t hs hrun
      cases hrun
      exact hs
    · intro code s reply t hs hrun
      cases hrun
      exact hs
  have hloops : s.loops = [] :=
    (Kept.of_run (later_kept scene).reserveNames hreserve : Later scene.dialect.policy {} s).loops
  have hone : scene.AllPreserve
      (fun s => (∀ loop ∈ s.continued, scene.Continues loop) ∧ s.loops = [])
      (scene.renderWithin (scene.graph.size + 1)) := by
    intro ref _ s a t hs hrun
    have hlater : Later scene.dialect.policy s t :=
      Kept.of_run ((later_kept scene).renderWithin _ ref) hrun
    have hentered : scene.Noting ref s := ⟨hs.1, by simp [hs.2]⟩
    exact ⟨(h.noting_renderWithin _ ref s a t hentered hrun).noted, hlater.loops.trans hs.2⟩
  exact (preserves_topTexts hone (fun ref hmem => ⟨ref, hmem, .refl⟩) _ _ _
    ⟨by simp [hnone], hloops⟩ htexts).1

end Speaks

/-! ## Lines that are labels -/

/-- A line that a rule writes is a label just if it is there as one. -/
theorem Speaks.label_mem_iff (h : scene.Speaks .lua) {part : Role × Ref}
    (hrole : part.1.isFixed = true ∨ part.1 = .closer) (hspells : scene.Spells part text) :
    "::continue::" ∈ strippedLines text.toList ↔ part.1 = .label := by
  obtain ⟨line, hline, hclausal, -, hstripped⟩ := h.exists_clausal (.inl rfl) hrole hspells
  cases hline
  constructor
  · intro hmem
    have hcode : line.code = "::continue::" :=
      (List.mem_singleton.mp (hstripped ▸ hmem)).symm
    have hclause : line.clause = .label :=
      (hcode ▸ hclausal.reads).unique Lua.isClauseText_label
    exact Role.fits_label_iff.mp (hclause ▸ hclausal.fits)
  · intro hlabel
    obtain ⟨-, other, -, hspelled⟩ := hspells
    rw [hlabel] at hspelled
    obtain ⟨label, hcontinue, htext⟩ := hspelled
    rw [h.dialect] at hcontinue
    cases hcontinue
    rw [htext]
    decide

end Scene

/-! ## Helpers -/

namespace Text

variable {cs ds : List Char} {lines : List (List Char)}

/-- Whether no two colons stand side by side. -/
def ColonsApart (cs : List Char) : Prop :=
  cs.IsChain fun c d => ¬(c = ':' ∧ d = ':')

instance (cs : List Char) : Decidable (ColonsApart cs) :=
  inferInstanceAs (Decidable (cs.IsChain _))

theorem colonsApart_of_not_mem (h : ':' ∉ cs) : ColonsApart cs := by
  induction cs with
  | nil => exact .nil
  | cons c cs ih =>
    rw [List.mem_cons, not_or] at h
    exact List.isChain_cons.mpr ⟨fun _ _ hboth => h.1 hboth.1.symm, ih h.2⟩

theorem ColonsApart.inside (h : ColonsApart ds) (hpart : cs <:+: ds) : ColonsApart cs :=
  List.IsChain.infix h hpart

/-- What does not start with a colon can follow any text. -/
theorem ColonsApart.append (h : ColonsApart cs) (hmore : ColonsApart ds)
    (hstart : ds.head? ≠ some ':') : ColonsApart (cs ++ ds) :=
  List.isChain_append.mpr ⟨h, hmore, fun _ _ _ hd hboth => hstart (hboth.2 ▸ hd)⟩

/-- What has no colon can stand ahead of any text. -/
theorem ColonsApart.append_left (h : ColonsApart ds) (hfree : ':' ∉ cs) : ColonsApart (cs ++ ds) :=
  List.isChain_append.mpr ⟨colonsApart_of_not_mem hfree, h, fun _ hc _ _ hboth =>
    hfree (hboth.1 ▸ List.mem_of_getLast? hc)⟩

theorem colonsApart_joinLines (h : ∀ line ∈ lines, ColonsApart line) :
    ColonsApart (joinLines lines) := by
  induction lines with
  | nil => exact .nil
  | cons line lines ih =>
    obtain ⟨hline, hlines⟩ := List.forall_mem_cons.mp h
    cases lines with
    | nil => exact hline
    | cons next lines =>
      have hrest : ColonsApart (['\n'] ++ joinLines (next :: lines)) :=
        (ih hlines).append_left (by simp)
      exact hline.append hrest (by simp)

theorem ColonsApart.of_mem_splitLines (h : ColonsApart cs) {line : List Char}
    (hline : line ∈ splitLines cs) : ColonsApart line :=
  h.inside (isInfix_of_mem_splitLines hline)

theorem ColonsApart.dedent {text : String} (h : ColonsApart text.toList) :
    ColonsApart (dedent text).toList := by
  unfold Text.dedent dedentLines
  rw [String.toList_ofList]
  refine colonsApart_joinLines fun line hline => ?_
  obtain ⟨old, hold, rfl⟩ := List.mem_map.mp hline
  split
  · exact .nil
  · exact (h.of_mem_splitLines hold).inside (List.drop_suffix _ _).isInfix

theorem ColonsApart.trimNewlines {text : String} (h : ColonsApart text.toList) :
    ColonsApart (trimNewlines text).toList := by
  unfold Text.trimNewlines trimWhile dropEndWhile
  rw [String.toList_ofList]
  have hend : ((text.toList.dropWhile (· = '\n')).reverse.dropWhile (· = '\n')).reverse <:+:
      text.toList.dropWhile (· = '\n') := by
    have hsuffix := List.dropWhile_suffix (l := (text.toList.dropWhile (· = '\n')).reverse)
      fun c => decide (c = '\n')
    simpa using (List.reverse_prefix.mpr hsuffix).isInfix
  exact h.inside (hend.trans (List.dropWhile_suffix _).isInfix)

/-- A word without a colon can be put in for a pattern. -/
theorem ColonsApart.replaceFrom {pattern word : List Char} (hword : word ≠ [])
    (hfree : ':' ∉ word) (h : ColonsApart cs) (skip : Nat) :
    ColonsApart (replaceFrom pattern word skip cs) ∧
      (skip = 0 → (replaceFrom pattern word skip cs).head? = some ':' → cs.head? = some ':') := by
  induction cs generalizing skip with
  | nil => cases skip <;> exact ⟨.nil, fun _ hhead => hhead⟩
  | cons c cs ih =>
    obtain ⟨hc, hcs⟩ := List.isChain_cons.mp h
    cases skip with
    | succ skip => exact ⟨(ih hcs skip).1, nofun⟩
    | zero =>
      unfold Text.replaceFrom
      split
      · refine ⟨(ih hcs _).1.append_left hfree, fun _ hhead => ?_⟩
        obtain ⟨d, ds, rfl⟩ := List.exists_cons_of_ne_nil hword
        exact absurd (by simpa using hhead : d = ':') fun heq => hfree (by simp [heq])
      · obtain ⟨hrest, hhead⟩ := ih hcs 0
        exact ⟨List.isChain_cons.mpr ⟨fun d hd hboth =>
          hc ':' (hhead rfl (hboth.2 ▸ hd)) ⟨hboth.1, rfl⟩, hrest⟩, fun _ hstart => hstart⟩

theorem ColonsApart.reindent {code unit : String} (h : ColonsApart code.toList)
    (hunit : ':' ∉ unit.toList) : ColonsApart (reindent code unit).toList := by
  unfold Text.reindent
  rw [String.toList_ofList]
  refine colonsApart_joinLines fun line hline => ?_
  obtain ⟨old, hold, rfl⟩ := List.mem_map.mp hline
  refine ColonsApart.append_left ?_ ?_
  · exact (h.of_mem_splitLines hold).inside (List.drop_suffix _ _).isInfix
  · simp [hunit]

/-- A text without two colons side by side has no label. -/
theorem ColonsApart.label_not_mem (h : ColonsApart cs) : "::continue::" ∉ strippedLines cs := by
  intro hmem
  obtain ⟨line, hline, hstripped⟩ := List.mem_filterMap.mp hmem
  have hsplit := h.of_mem_splitLines hline
  unfold strippedLine at hstripped
  split at hstripped
  · cases hstripped
  · have hlabel : ColonsApart "::continue::".toList := by
      rw [← Option.some.inj hstripped, String.toList_ofList]
      refine hsplit.inside ((List.dropWhile_suffix _).isInfix.trans ?_)
      have hsuffix := List.dropWhile_suffix (l := line.reverse) isIndentChar
      simpa [dropEndWhile] using (List.reverse_prefix.mpr hsuffix).isInfix
    exact absurd hlabel (by simp [ColonsApart])

end Text

theorem colonsApart_helperLines {lines : List String} {charLines : List (List Char)}
    (h : List.Forall₂ (fun line chars => line = String.ofList chars) lines charLines)
    (hall : ∀ line ∈ charLines, ColonsApart line) : ColonsApart (helperLines lines).toList := by
  rw [toList_helperLines h]
  exact colonsApart_joinLines hall

theorem Lua.colonsApart_template :
    ∀ helper ∈ Lua.dialect.helpers, ColonsApart helper.template.toList := by
  simp only [show Lua.dialect.helpers = [Lua.primeHelper, Lua.sumHelper, Lua.minimumHelper,
    Lua.maximumHelper, Lua.averageHelper, Lua.medianHelper, Lua.modesHelper, Lua.deviationHelper,
    Lua.randomItemHelper] from rfl, List.forall_mem_cons]
  refine ⟨?_, ?_, ?_, ?_, ?_, ?_, ?_, ?_, ?_, by simp⟩
  all_goals
    apply colonsApart_helperLines
    · repeat first | apply List.Forall₂.nil | (apply List.Forall₂.cons; exact rfl)
    · decide +kernel

theorem Definitions.colonsApart_helperText {template name unit : String}
    (htemplate : ColonsApart template.toList) (hname : IsIdentifier name)
    (hunit : ':' ∉ unit.toList) : ColonsApart (helperText template name unit).toList := by
  obtain ⟨c, cs, hchars, hc, -, hcs⟩ := hname
  have hsafe : ∀ d ∈ c :: cs, isSafeChar d = true := List.forall_mem_cons.mpr ⟨hc, hcs⟩
  have hfree : ':' ∉ name.toList := fun hmem =>
    absurd (hsafe _ (hchars ▸ hmem)) (by decide)
  have hreplaced : ColonsApart (replaceAll (trimNewlines (dedent template)) placeholder name).toList := by
    rw [replaceAll, String.toList_ofList]
    exact (htemplate.dedent.trimNewlines.replaceFrom (by simp [hchars]) hfree 0).1
  rw [helperText, String.toList_append]
  exact (hreplaced.reindent hunit).append (colonsApart_of_not_mem (by decide)) (by decide)

namespace Scene

variable {scene : Scene}

/-- No definition other than that of a procedure has a label. -/
theorem Speaks.label_not_mem (h : scene.Speaks .lua) (hunit : ':' ∉ scene.indent.toList)
    {key code : String} (hsets : scene.Sets key code) (hkey : isProcedureKey key = false) :
    "::continue::" ∉ strippedLines code.toList := by
  cases hsets with
  | imported himport =>
    rw [h.dialect] at himport
    exact absurd himport (by simp [show Language.lua.dialect.importTexts = [] from rfl])
  | initial hvalue =>
    rw [h.dialect] at hvalue
    cases hvalue
  | helper hhelper hname =>
    rw [h.dialect] at hhelper
    exact (Definitions.colonsApart_helperText (Lua.colonsApart_template _ hhelper) hname
      hunit).label_not_mem
  | procedure =>
    rw [isProcedureKey_procedureKey] at hkey
    cases hkey

/-! ## Programs -/

/-- In a Lua program the body of a loop ends with a label just if there is a jump to the next
    round in it that is in no other loop inside it, be it in the main part or in a procedure.
    No other line that a rule writes is a label, and none of a helper. -/
theorem labels_match {config : Config} {workspace : Workspace} {program : Program}
    {state : PassState}
    (hrun : (ofLanguage .lua config workspace).program {} = (.ok program, state)) :
    ((∃ pieces, (ofLanguage .lua config workspace).IsMainPart program.code state.definitions
          pieces ∧
        ∀ piece ∈ pieces, piece.2.Labelled (ofLanguage .lua config workspace).Continues
          (ofLanguage .lua config workspace).Continues) ∧
      ∀ entry ∈ state.definitions.entries,
        if isProcedureKey entry.1 = true then
          ∃ ref inside, (ofLanguage .lua config workspace).IsProcedure entry.2 ref inside ∧
            ((ofLanguage .lua config workspace).procedureParts ref inside).Labelled
              (ofLanguage .lua config workspace).Continues
              (ofLanguage .lua config workspace).Continues
        else
          ':' ∉ (ofLanguage .lua config workspace).indent.toList →
            "::continue::" ∉ strippedLines entry.2.toList) ∧
      ∀ part text, (ofLanguage .lua config workspace).Spells part text →
        part.1.isFixed = true ∨ part.1 = .closer →
          ("::continue::" ∈ strippedLines text.toList ↔ part.1 = .label) := by
  have h := speaks_ofLanguage .lua config workspace
  generalize ofLanguage .lua config workspace = scene at h hrun ⊢
  have hgathers := scene.gathers_journal
  rw [hrun] at hgathers
  have hlabelled : ∀ {parts : Layout}, scene.LabelledFor state.continued parts →
      parts.Labelled scene.Continues scene.Continues := fun hparts =>
    Layout.Labelled.mono hparts (h.continues_of_noted hrun)
      fun _ hcontinues => ⟨by rw [h.dialect]; rfl, hcontinues⟩
  obtain ⟨⟨pieces, hmain, hpieces⟩, hentries⟩ := h.program_written hrun
  refine ⟨⟨⟨pieces, hmain, fun piece hpiece => hlabelled (hpieces piece hpiece)⟩,
    fun entry hentry => ?_⟩, fun part text hspells hrole => h.label_mem_iff hrole hspells⟩
  split
  · next hkey =>
    obtain ⟨ref, inside, hprocedure, hparts⟩ := hentries entry hentry hkey
    exact ⟨ref, inside, hprocedure, hlabelled hparts⟩
  · next hkey =>
    intro hunit
    exact h.label_not_mem hunit (h.sets_of_registered (hgathers.subset hentry))
      (Bool.not_eq_true _ ▸ hkey)

/-- The loop of a count goes on with its next round, and its label is its last line. -/
theorem labels_match_rounds :
    ∃ program state, (ofLanguage .lua uncommented rounds).program {} = (.ok program, state) ∧
      ((∃ pieces, (ofLanguage .lua uncommented rounds).IsMainPart program.code state.definitions
            pieces ∧
          ∀ piece ∈ pieces, piece.2.Labelled (ofLanguage .lua uncommented rounds).Continues
            (ofLanguage .lua uncommented rounds).Continues) ∧
        ∀ entry ∈ state.definitions.entries,
          if isProcedureKey entry.1 = true then
            ∃ ref inside, (ofLanguage .lua uncommented rounds).IsProcedure entry.2 ref inside ∧
              ((ofLanguage .lua uncommented rounds).procedureParts ref inside).Labelled
                (ofLanguage .lua uncommented rounds).Continues
                (ofLanguage .lua uncommented rounds).Continues
          else
            ':' ∉ (ofLanguage .lua uncommented rounds).indent.toList →
              "::continue::" ∉ strippedLines entry.2.toList) ∧
        ∀ part text, (ofLanguage .lua uncommented rounds).Spells part text →
          part.1.isFixed = true ∨ part.1 = .closer →
            ("::continue::" ∈ strippedLines text.toList ↔ part.1 = .label) := by
  obtain ⟨program, state, hrun⟩ := Pass.exists_of_toOption program_rounds
  exact ⟨program, state, hrun, labels_match hrun⟩

end Scene

end BlockScript
