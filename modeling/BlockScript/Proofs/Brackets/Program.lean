import Mathlib.Data.List.Permutation
import BlockScript.Proofs.Brackets.Nesting
import BlockScript.Proofs.Suite.Program

/-!
# The structure of a Lua or PHP program

The main part of a program in Lua or PHP and the procedures ahead of it are read by their
brackets as the statements of the blocks, nested as these are plugged into each other.
Only a label at the end of a loop and a bound ahead of one come with them.

Results:

* `Scene.Speaks.strippedLines_program`: the lines of a program are those of its
  definitions and those of its main part.
* `Scene.bracketed_as_blocks`: what is read is the nesting of the blocks.
-/

namespace BlockScript

open BlockScript.Text

namespace Scene

/-! ## Code as statements -/

/-- Whether lines are read by their brackets as the statements that certain parts are
    there for, along with auxiliary ones. -/
def IsBracketed (scene : Scene) (language : Language) (lines : List String)
    (suite : Suite (Role × Ref)) : Prop :=
  ∃ (code : List ClauseLine) (whole : Suite ClauseLine),
    (∀ line ∈ code, scene.IsClausal language line) ∧ lines = code.map ClauseLine.code ∧
    Suite.ofClauses (fun line => line.clause.kind) code = some whole ∧
    language.readBlocks lines = some (whole.map ClauseLine.clause) ∧
    scene.Completes none (whole.map ClauseLine.part) suite

variable {scene : Scene} {language : Language} {ref : Ref} {text : String} {parts : Layout}
  {suite : Suite (Role × Ref)}

/-- No snippet has a text. -/
theorem IsBare.isFixed_or_closer (hbare : scene.IsBare) {part : Role × Ref}
    (hspells : scene.Spells part text) : part.1.isFixed = true ∨ part.1 = .closer := by
  obtain ⟨role, ref⟩ := part
  obtain ⟨hne, block, -, hpart⟩ := hspells
  cases role with
  | comment => exact absurd (by simpa [SpellsOf, commentLines, hbare.emitComments] using hpart) hne
  | opening => exact absurd (by simpa [SpellsOf, startHook, hbare.statementStart] using hpart) hne
  | closing => exact absurd (by simpa [SpellsOf, endHook, hbare.statementEnd] using hpart) hne
  | trap =>
    change text = scene.injectStatement scene.config.loopTrap block at hpart
    rw [hbare.loopTrap] at hpart
    exact absurd hpart hne
  | closer => exact .inr rfl
  | _ => exact .inl rfl

namespace Speaks

variable (h : scene.Speaks language) (hlanguage : language = .lua ∨ language = .php)
  (hbare : scene.IsBare) (hindent : ∀ c ∈ scene.indent.toList, isIndentChar c = true)
include h hlanguage hbare hindent

/-- The code of parts is read as their statements. -/
theorem isBracketed_of_isCode (hcode : scene.IsCode text parts)
    (hclosed : scene.IsClosed parts suite) :
    scene.IsBracketed language (strippedLines text.toList) suite := by
  obtain ⟨spelled, rfl, hspells, rfl⟩ := hcode
  obtain ⟨outline, rfl, hlines⟩ :=
    Outline.exists_map (f := fun line : ClauseLine => (line.part, line.text))
      (hspells.mono fun line hline =>
        h.exists_clausal hlanguage (hbare.isFixed_or_closer hline) hline)
  obtain ⟨whole, hwhole, hgather⟩ := hclosed
  have hclausal := Outline.all_iff_lines.mp (hlines.mono fun line hline => hline.1)
  -- the parts are read as a whole
  have hparts : Suite.ofClauses partKind (outline.lines.map ClauseLine.part) = some whole := by
    have hall := hgather .done .done []
    rw [Outline.map_map, Outline.lines_map, Suite.append_done] at hall
    rw [Suite.ofClauses, hall]
  rw [Suite.ofClauses_map, Option.map_eq_some_iff] at hparts
  obtain ⟨code, hcode, rfl⟩ := hparts
  -- every line is read as what its part is
  have hkinds : ∀ line ∈ outline.lines, partKind line.part = line.clause.kind :=
    fun line hline => Role.clauseKind_of_fits (hclausal line hline).fits
  rw [Suite.ofClauses_congr hkinds] at hcode
  have hsingle : (outline.map fun line => line.text).All fun text =>
      IsLines text ∧ strippedLines text.toList = [stripStart (lineCode text)] :=
    Outline.all_map.mpr (hlines.mono fun line hline => hline.2)
  have hstripped : strippedLines ((outline.map fun line => line.text).text scene.indent).toList =
      outline.lines.map ClauseLine.code := by
    rw [Outline.strippedLines_text hindent hsingle, Outline.lines_map, List.map_map]
    rfl
  have hread : language.readBlocks (outline.lines.map ClauseLine.code) =
      some (code.map ClauseLine.clause) :=
    Language.readBlocks_of_gather (fun line hline => (hclausal line hline).reads) hcode
  rw [Outline.map_map, hstripped]
  exact ⟨outline.lines, code, hclausal, rfl, hcode, hread, hwhole⟩

omit hbare hindent in
/-- The lines of a program are those of its definitions and those of its main part. -/
theorem strippedLines_program {output : String} {definitions : Definitions}
    {pieces : List (String × Layout)} (hmain : scene.IsMainPart output definitions pieces) :
    strippedLines output.toList =
      (definitions.entries.flatMap fun entry => strippedLines entry.2.toList) ++
        strippedLines (Text.concat (pieces.map Prod.fst)).toList := by
  have himports : scene.dialect.importsFirst = false := by
    rw [h.dialect]
    rcases hlanguage with rfl | rfl <;> rfl
  have hpieces : ∀ text ∈ pieces.map Prod.fst, IsPiece text := by
    intro text htext
    obtain ⟨piece, hpiece, rfl⟩ := List.mem_map.mp htext
    exact h.isPiece (hmain.code piece hpiece)
  have hlines : codeLines output.toList =
      (definitions.entries.flatMap fun entry => codeLines entry.2.toList) ++
        codeLines (Text.concat (pieces.map Prod.fst)).toList := by
    rw [hmain.text, codeLines_tidy, finish, himports, if_neg Bool.false_ne_true,
      codeLines_withDefinitions, codeLines_joinWith [] rfl (by simp), flatMap_filter_ne_empty,
      codeLines_concatTexts hpieces]
  simp only [strippedLines_eq, hlines, List.map_append, List.map_flatMap]

/-- The main part of a program. -/
theorem isBracketed_main {output : String} {definitions : Definitions}
    {pieces : List (String × Layout)} (hmain : scene.IsMainPart output definitions pieces) :
    scene.IsBracketed language (strippedLines (Text.concat (pieces.map Prod.fst)).toList)
      scene.mainSuite :=
  h.isBracketed_of_isCode hlanguage hbare hindent (isCode_pieces hmain.code)
    (isClosed_tops h hlanguage hbare hmain.tops)

/-- A procedure. -/
theorem isBracketed_procedure {inside : Layout} (hprocedure : scene.IsProcedure text ref inside) :
    ∃ block, ∃ declared : Bool, scene.Defines ref block ∧
      scene.IsBracketed language (strippedLines text.toList)
        (scene.procedureSuite ref block declared) := by
  obtain ⟨room, hroom, loop, hbody⟩ := hprocedure.body
  obtain ⟨block, declared, hdefines, hclosed⟩ :=
    isClosed_procedure h hlanguage hbare hroom hbody
  exact ⟨block, declared, hdefines,
    h.isBracketed_of_isCode hlanguage hbare hindent hprocedure.code hclosed⟩

end Speaks

/-! ## Programs -/

/-- What is read by the brackets in the main part of a program and in every procedure is
    the nesting of the blocks. -/
theorem bracketed_as_blocks {language : Language} {config : Config} {workspace : Workspace}
    {program : Program} {state : PassState} (hlanguage : language = .lua ∨ language = .php)
    (hstart : config.statementStart = "") (hstop : config.statementEnd = "")
    (htrap : config.loopTrap = "") (hcomments : config.emitComments = false)
    (hindent : ∀ c ∈ (ofLanguage language config workspace).indent.toList, c = ' ' ∨ c = '\t')
    (hrun : (ofLanguage language config workspace).program {} = (.ok program, state)) :
    (∃ main, strippedLines program.code.toList =
          (state.definitions.entries.flatMap fun entry => strippedLines entry.2.toList) ++ main ∧
        (ofLanguage language config workspace).IsBracketed language main
          (ofLanguage language config workspace).mainSuite) ∧
      ∀ entry ∈ state.definitions.entries, isProcedureKey entry.1 = true →
        strippedLines entry.2.toList <:+: strippedLines program.code.toList ∧
          ∃ ref block declared, (ofLanguage language config workspace).Defines ref block ∧
            (ofLanguage language config workspace).IsBracketed language
              (strippedLines entry.2.toList)
              ((ofLanguage language config workspace).procedureSuite ref block declared) := by
  have h := speaks_ofLanguage language config workspace
  have hbare : (ofLanguage language config workspace).IsBare := ⟨hstart, hstop, htrap, hcomments⟩
  have hblanks : ∀ c ∈ (ofLanguage language config workspace).indent.toList,
      isIndentChar c = true := fun c hc => by simpa [isIndentChar] using hindent c hc
  obtain ⟨⟨pieces, hmain, -⟩, hentries⟩ := h.program_written hrun
  have hlines := h.strippedLines_program hlanguage hmain
  refine ⟨⟨_, hlines, h.isBracketed_main hlanguage hbare hblanks hmain⟩,
    fun entry hentry hkey => ?_⟩
  obtain ⟨ref, inside, hprocedure, -⟩ := hentries entry hentry hkey
  refine ⟨?_, ref, h.isBracketed_procedure hlanguage hbare hblanks hprocedure⟩
  obtain ⟨before, after, hsplit⟩ := List.append_of_mem hentry
  rw [hlines, hsplit, List.flatMap_append, List.flatMap_cons, List.append_assoc, List.append_assoc]
  exact List.infix_append' _ _ _

/-! ### A loop that goes on with its next round -/

/-- A loop over a sum with a conditional in it, which goes on with the next round or
    holds a return. -/
def rounds : Workspace where
  tops := [3]
  graph := ⟨#[{ Block.ofType "controls_flow_statements" with
      fields := [("FLOW", .text "CONTINUE")] },
    { Block.ofType "controls_if" with
      values := [("IF0", none)]
      statements := [("DO0", some 0), ("ELSE", some 4)] },
    { Block.ofType "math_arithmetic" with fields := [("OP", .text "ADD")] },
    { Block.ofType "controls_repeat_ext" with
      values := [("TIMES", some 2)]
      statements := [("DO", some 1)] },
    Block.ofType "procedures_ifreturn"]⟩

theorem program_rounds : ((ofLanguage .lua uncommented rounds).program {}).1.toOption =
    some ⟨"for count = 1, 0 + 0 do\n  if false then\n    goto continue\n  else\n" ++
      "    if false then\n      return\n    end\n  end\n  ::continue::\nend\n", 10, 0⟩ := by
  have hall : (ofLanguage .lua uncommented rounds).workspace.allBlocks = [3, 2, 1, 0, 4] :=
    show rounds.allBlocks = [3, 2, 1, 0, 4] by cbv
  have hused : (ofLanguage .lua uncommented rounds).usedVariables = .ok [] := by
    unfold usedVariables Workspace.usedVariables
    rw [hall]
    rfl
  have hdefined : (ofLanguage .lua uncommented rounds).definedNames = [] := by
    unfold definedNames
    rw [hall]
    rfl
  rw [program, Pass.bind_apply, reserveNames_of_noNames hused rfl hdefined]
  decide +kernel

theorem bracketed_as_blocks_rounds :
    (Language.lua = .lua ∨ Language.lua = .php) ∧ uncommented.statementStart = "" ∧
      uncommented.statementEnd = "" ∧ uncommented.loopTrap = "" ∧
      uncommented.emitComments = false ∧
      (∀ c ∈ (ofLanguage .lua uncommented rounds).indent.toList, c = ' ' ∨ c = '\t') ∧
      ∃ program state,
        (ofLanguage .lua uncommented rounds).program {} = (.ok program, state) ∧
        (∃ main, strippedLines program.code.toList =
            (state.definitions.entries.flatMap fun entry => strippedLines entry.2.toList) ++ main ∧
          (ofLanguage .lua uncommented rounds).IsBracketed .lua main
            (ofLanguage .lua uncommented rounds).mainSuite) ∧
        ∀ entry ∈ state.definitions.entries, isProcedureKey entry.1 = true →
          strippedLines entry.2.toList <:+: strippedLines program.code.toList ∧
            ∃ ref block declared, (ofLanguage .lua uncommented rounds).Defines ref block ∧
              (ofLanguage .lua uncommented rounds).IsBracketed .lua
                (strippedLines entry.2.toList)
                ((ofLanguage .lua uncommented rounds).procedureSuite ref block declared) := by
  obtain ⟨program, state, hrun⟩ := Pass.exists_of_toOption program_rounds
  have hunit : (ofLanguage .lua uncommented rounds).indent.toList = List.replicate 2 ' ' := rfl
  have hindent : ∀ c ∈ (ofLanguage .lua uncommented rounds).indent.toList, c = ' ' ∨ c = '\t' :=
    fun c hc => .inl (List.eq_of_mem_replicate (hunit ▸ hc))
  exact ⟨.inl rfl, rfl, rfl, rfl, rfl, hindent, program, state, hrun,
    bracketed_as_blocks (.inl rfl) rfl rfl rfl rfl hindent hrun⟩

end Scene

end BlockScript
