import Mathlib.Data.List.Permutation
import BlockScript.Proofs.Code.Rendering
import BlockScript.Proofs.Suite.Nesting

/-!
# The structure of a Python program

The main part of a Python program and the procedures ahead of it are read by their
indentation as the statements of the blocks, nested as these are plugged into each
other.

Results:

* `Scene.Speaks.codeLines_program`: the lines of a program are those of its definitions
  and those of its main part.
* `Scene.nested_as_blocks`: what Python reads is the nesting of the blocks.
-/

namespace BlockScript

open BlockScript.Text

namespace Scene

variable {scene : Scene} {ref : Ref} {text : String} {width : Nat}

/-! ## Lines of the main part -/

/-- The code of top blocks, one after the other. -/
theorem isCode_pieces {pieces : List (String × Layout)}
    (h : ∀ piece ∈ pieces, scene.IsCode piece.1 piece.2) :
    scene.IsCode (Text.concat (pieces.map Prod.fst)) (.concat (pieces.map Prod.snd)) := by
  induction pieces with
  | nil => exact isCode_nil
  | cons piece pieces ih =>
    exact (h piece (by simp)).append (ih fun other hother => h other (by simp [hother]))

/-- The lines of texts that are made of whole lines. -/
theorem codeLines_concatTexts {texts : List String} (h : ∀ text ∈ texts, IsPiece text) :
    codeLines (Text.concat texts).toList = texts.flatMap fun text => codeLines text.toList := by
  induction texts with
  | nil => exact codeLines_nil
  | cons text texts ih =>
    rw [Text.concat, String.toList_append, codeLines_of_isPiece (h text (by simp)),
      ih fun other hother => h other (by simp [hother]), List.flatMap_cons]

namespace Speaks

variable (h : scene.Speaks .python)
include h

/-- The lines of a program are those of its definitions and those of its main part. -/
theorem codeLines_program {output : String} {definitions : Definitions}
    {pieces : List (String × Layout)} (hmain : scene.IsMainPart output definitions pieces) :
    codeLines output.toList = definitionLines definitions.entries ++
      codeLines (Text.concat (pieces.map Prod.fst)).toList := by
  have himports : scene.dialect.importsFirst = true := by
    rw [h.dialect]
    rfl
  have hpieces : ∀ text ∈ pieces.map Prod.fst, IsPiece text := by
    intro text htext
    obtain ⟨piece, hpiece, rfl⟩ := List.mem_map.mp htext
    exact h.isPiece (hmain.code piece hpiece)
  rw [hmain.text, codeLines_tidy, finish, if_pos himports, codeLines_withImportsFirst,
    codeLines_joinWith [] rfl (by simp), flatMap_filter_ne_empty, codeLines_concatTexts hpieces]

/-- The main part of a program. -/
theorem isReadAs_main (hbare : scene.IsBare) (hwidth : 0 < width)
    (hindent : scene.indent.toList = List.replicate width ' ') {output : String}
    {definitions : Definitions} {pieces : List (String × Layout)}
    (hmain : scene.IsMainPart output definitions pieces) :
    scene.IsReadAs width (codeLines (Text.concat (pieces.map Prod.fst)).toList) scene.mainSuite := by
  have harranged := isArranged_tops h hbare hmain.tops
  exact isReadAs_of_isCode h hwidth hindent (isCode_pieces hmain.code) harranged.fixed
    harranged.arranged

/-- A procedure. -/
theorem isReadAs_procedure (hbare : scene.IsBare) (hwidth : 0 < width)
    (hindent : scene.indent.toList = List.replicate width ' ') {inside : Layout}
    (hprocedure : scene.IsProcedure text ref inside) :
    ∃ block, ∃ declared : Bool, scene.Defines ref block ∧
      scene.IsReadAs width (codeLines text.toList) (scene.procedureSuite ref block declared) := by
  obtain ⟨room, hroom, loop, hbody⟩ := hprocedure.body
  obtain ⟨block, declared, hdefines, harranged⟩ := isArranged_procedure h hbare hroom hbody
  exact ⟨block, declared, hdefines, isReadAs_of_isCode h hwidth hindent hprocedure.code
    harranged.fixed harranged.arranged⟩

end Speaks

/-! ## Programs -/

/-- The lines of a procedure stand together among those of all definitions. -/
theorem infix_definitionLines {entries : List (String × String)} {entry : String × String}
    (hentry : entry ∈ entries) (hkey : isProcedureKey entry.1 = true) :
    codeLines entry.2.toList <:+: definitionLines entries := by
  have hother : isImportKey entry.1 = false := by
    rw [Bool.eq_false_iff]
    intro himport
    rw [isProcedureKey_of_import himport] at hkey
    cases hkey
  have hmem : entry ∈ entries.filter fun entry => !isImportKey entry.1 := by
    simp [hentry, hother]
  obtain ⟨before, after, hsplit⟩ := List.append_of_mem hmem
  rw [definitionLines, hsplit, List.flatMap_append, List.flatMap_cons, ← List.append_assoc,
    ← List.append_assoc]
  exact List.infix_append _ _ _

/-- What Python reads in the main part of a program and in every procedure is the nesting
    of the blocks. -/
theorem nested_as_blocks {config : Config} {workspace : Workspace} {program : Program}
    {state : PassState} (hstart : config.statementStart = "") (hstop : config.statementEnd = "")
    (htrap : config.loopTrap = "") (hcomments : config.emitComments = false)
    (hindent : (ofLanguage .python config workspace).indent.toList = List.replicate width ' ')
    (hwidth : 0 < width)
    (hrun : (ofLanguage .python config workspace).program {} = (.ok program, state)) :
    (∃ main, codeLines program.code.toList = definitionLines state.definitions.entries ++ main ∧
        (ofLanguage .python config workspace).IsReadAs width main
          (ofLanguage .python config workspace).mainSuite) ∧
      ∀ entry ∈ state.definitions.entries, isProcedureKey entry.1 = true →
        codeLines entry.2.toList <:+: codeLines program.code.toList ∧
          ∃ ref block declared, (ofLanguage .python config workspace).Defines ref block ∧
            (ofLanguage .python config workspace).IsReadAs width (codeLines entry.2.toList)
              ((ofLanguage .python config workspace).procedureSuite ref block declared) := by
  have h := speaks_ofLanguage .python config workspace
  have hbare : (ofLanguage .python config workspace).IsBare := ⟨hstart, hstop, htrap, hcomments⟩
  obtain ⟨⟨pieces, hmain, -⟩, hentries⟩ := h.program_written hrun
  have hlines := h.codeLines_program hmain
  refine ⟨⟨_, hlines, h.isReadAs_main hbare hwidth hindent hmain⟩, fun entry hentry hkey => ?_⟩
  obtain ⟨ref, inside, hprocedure, -⟩ := hentries entry hentry hkey
  refine ⟨?_, ref, h.isReadAs_procedure hbare hwidth hindent hprocedure⟩
  rw [hlines]
  exact (infix_definitionLines hentry hkey).trans (List.infix_append' [] _ _)

/-! ### A conditional with three arms -/

/-- A conditional whose first arm holds a loop with a jump, the second one a disabled
    block, and the last one a return. -/
def branches : Workspace where
  tops := [3]
  graph := ⟨#[{ Block.ofType "controls_flow_statements" with fields := [("FLOW", .text "BREAK")] },
    { Block.ofType "controls_whileUntil" with statements := [("DO", some 0)] },
    { Block.ofType "controls_whileUntil" with enabled := false },
    { Block.ofType "controls_if" with
      values := [("IF1", none)]
      statements := [("DO0", some 1), ("DO1", some 2), ("ELSE", some 4)] },
    Block.ofType "procedures_ifreturn"]⟩

/-- No comments. -/
def uncommented : Config := { emitComments := false }

example : (ofLanguage .python uncommented branches).mainSuite =
    .choice (.branch 0 "IF0", 3) (.block (.loop, 1) (.line (.jump .break, 0) .done) .done)
      (.block (.branch 1 "IF1", 3) (.line (.filler, 3) .done)
        (.block (.otherwise, 3)
          (.choice (.branch 0 "CONDITION", 4) (.line (.giveBack, 4) .done) .done .done) .done))
      .done := by
  decide +kernel

theorem program_branches : ((ofLanguage .python uncommented branches).program {}).1.toOption =
    some ⟨"if False:\n  while False:\n    break\nelif False:\n  pass\n" ++
      "else:\n  if False:\n    return\n", 8, 0⟩ := by
  have hall : (ofLanguage .python uncommented branches).workspace.allBlocks = [3, 1, 0, 2, 4] :=
    show branches.allBlocks = [3, 1, 0, 2, 4] by cbv
  have hused : (ofLanguage .python uncommented branches).usedVariables = .ok [] := by
    unfold usedVariables Workspace.usedVariables
    rw [hall]
    rfl
  have hdefined : (ofLanguage .python uncommented branches).definedNames = [] := by
    unfold definedNames
    rw [hall]
    rfl
  rw [program, Pass.bind_apply, reserveNames_of_noNames hused rfl hdefined]
  decide +kernel

theorem nested_as_blocks_branches :
    uncommented.statementStart = "" ∧ uncommented.statementEnd = "" ∧ uncommented.loopTrap = "" ∧
      uncommented.emitComments = false ∧
      (ofLanguage .python uncommented branches).indent.toList = List.replicate 2 ' ' ∧ 0 < 2 ∧
      ∃ program state,
        (ofLanguage .python uncommented branches).program {} = (.ok program, state) ∧
        (∃ main, codeLines program.code.toList =
            definitionLines state.definitions.entries ++ main ∧
          (ofLanguage .python uncommented branches).IsReadAs 2 main
            (ofLanguage .python uncommented branches).mainSuite) ∧
        ∀ entry ∈ state.definitions.entries, isProcedureKey entry.1 = true →
          codeLines entry.2.toList <:+: codeLines program.code.toList ∧
            ∃ ref block declared, (ofLanguage .python uncommented branches).Defines ref block ∧
              (ofLanguage .python uncommented branches).IsReadAs 2 (codeLines entry.2.toList)
                ((ofLanguage .python uncommented branches).procedureSuite ref block declared) := by
  obtain ⟨program, state, hrun⟩ := Pass.exists_of_toOption program_branches
  exact ⟨rfl, rfl, rfl, rfl, rfl, by decide, program, state, hrun,
    nested_as_blocks rfl rfl rfl rfl rfl (by decide) hrun⟩

end Scene

end BlockScript
