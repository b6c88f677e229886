import BlockScript.Proofs.Suite.Line

/-!
# The lines of a Python program

What the parts of a program are when Python reads them: a conditional or another arm of
one, a loop, a procedure, or a statement of the kind that the part is there for.

Results:

* `Scene.Speaks.exists_line`: the line that spells a part.
* `Scene.isReadAs_of_isCode`: the code of parts is read as their statements.
-/

namespace BlockScript

open BlockScript.Reading BlockScript.Text

/-! ## Roles -/

/-- What a part is among statements. -/
def Role.kind : Role → LineKind
  | .branch 0 _ => .start
  | .branch (_ + 1) _ => .arm
  | .otherwise => .last
  | .loop | .procedure => .header
  | _ => .simple

/-- Whether a line is what a part is there for. -/
def Role.Matches : Role → Python.Line → Prop
  | .statement, .assign .. | .statement, .value _ => True
  | .value, .value _ => True
  | .jump flow, .jump read => flow = read
  | .giveBack, .giveBack _ => True
  | .branch 0 _, .conditional _ => True
  | .branch (_ + 1) _, .elseIf _ => True
  | .otherwise, .otherwise => True
  | .loop, .whileLoop _ | .loop, .forLoop .. => True
  | .bound, .assign .. => True
  | .procedure, .function .. => True
  | .outer, .outer _ => True
  | .filler, .pass => True
  | _, _ => False

theorem Role.kind_of_matches {role : Role} {line : Python.Line} (h : role.Matches line) :
    role.kind = line.kind := by
  unfold Matches at h
  split at h <;> first | rfl | exact h.elim

/-- Whether code is a line of Python that stands at the left and is what a part is there
    for. -/
def IsCodeLine (role : Role) (text : String) : Prop :=
  ∃ code line, text = code ++ "\n" ∧ code.toList.head? ≠ some ' ' ∧
    Python.readLine code = some line ∧ role.Matches line

/-- A line of a program: what it is there for, its text, and what Python reads there. -/
structure CodeLine where
  part : Role × Ref
  text : String
  line : Python.Line

namespace Scene

variable {scene : Scene} {ref : Ref} {block : Block Ref} {text code : String} {role : Role}

/-- A value starts at the left. -/
theorem head_of_isOperand {language : Language} (h : language.IsOperand code) :
    code.toList.head? ≠ some ' ' := by
  obtain ⟨tree, hreads⟩ := h
  obtain ⟨c, cs, hcode, hc⟩ := hreads.opens
  rintro hhead
  obtain rfl : c = ' ' := by simpa [hcode] using hhead
  cases hc

theorem isExpression_of_isOperand (h : Language.python.IsOperand code) :
    ∃ tree, Python.IsExpression code tree := by
  obtain ⟨tree, hreads⟩ := h
  obtain ⟨parsed, -, hparsed⟩ := Python.isExpression_of_reads (List.suffix_refl _) hreads
  exact ⟨parsed, hparsed⟩

theorem head_of_isName {name : String} (h : Python.dialect.policy.IsName name) (rest : String) :
    (name ++ rest).toList.head? ≠ some ' ' := by
  have hne := Python.isName_ne_nil h
  have hhead : name.toList.head? ≠ some ' ' :=
    head_of_isOperand (show Language.python.IsOperand name from ⟨_, Python.reads_isName h⟩)
  obtain ⟨c, cs, hname⟩ := List.exists_cons_of_ne_nil hne
  simpa [hname] using hhead

namespace Speaks

variable (h : scene.Speaks .python)
include h

theorem isCodeLine_isStatement {form : BlockForm}
    (hstatement : scene.IsStatement Language.python.grammar Language.python.isFunctionName form text) :
    IsCodeLine .statement text := by
  cases form with
  | variableAssignment =>
    obtain ⟨name, value, hname, hvalue, rfl⟩ := hstatement
    obtain ⟨tree, hexpression⟩ := isExpression_of_isOperand hvalue
    rw [h.dialect] at hname ⊢
    refine ⟨_, _, rfl, ?_, Python.readLine_assign hname hexpression, trivial⟩
    rw [String.append_assoc]
    exact head_of_isName hname _
  | change =>
    obtain ⟨name, summand, tree, hname, hfills, rfl⟩ := hstatement
    rw [h.dialect] at hname hfills ⊢
    obtain ⟨value, hvalue⟩ := Python.isExpression_change hname hfills
    refine ⟨_, _, ?_, ?_, Python.readLine_assign hname hvalue, trivial⟩
    · simp [Language.dialect, Python.dialect, ← String.toList_inj]
    · rw [String.append_assoc]
      exact head_of_isName hname _
  | procedureCallStatement =>
    obtain ⟨code, hcode, -, rfl⟩ := hstatement
    obtain ⟨tree, hexpression⟩ := isExpression_of_isOperand hcode
    rw [h.dialect]
    exact ⟨code, _, rfl, head_of_isOperand hcode, Python.readLine_value hexpression, trivial⟩
  | _ => exact hstatement.elim

/-- The bound of a loop with a count. -/
theorem isExpression_bound {count bound : String} (hcount : Language.python.IsOperand count)
    (hbound : scene.IsBound count bound) : ∃ tree, Python.IsExpression bound tree := by
  rw [IsBound, h.dialect] at hbound
  obtain rfl : bound = Recipe.truncatedCount "int(" ")" count := hbound
  unfold Recipe.truncatedCount
  split
  · exact Python.isExpression_toString _
  · obtain ⟨tree, hexpression⟩ := isExpression_of_isOperand hcount
    have hcall := Python.isExpression_call "int" (by decide)
      (.cons hexpression .nil)
    exact ⟨_, hcall⟩

theorem isCodeLine_loop (hheader : scene.IsLoopHeader ref block text) : IsCodeLine .loop text := by
  rcases hheader with ⟨condition, hcondition, rfl⟩ |
    ⟨counter, count, bound, hcounter, hcount, hbound, rfl⟩
  · obtain ⟨tree, hexpression⟩ := isExpression_of_isOperand (h.phrased.isOperand_loopCondition hcondition)
    rw [h.dialect]
    refine ⟨_, _, ?_, ?_, Python.readLine_whileLoop hexpression, trivial⟩
    · simp [Language.dialect, Python.dialect, ← String.toList_inj]
    · simp
  · obtain ⟨tree, hexpression⟩ := h.isExpression_bound (h.phrased.isOperand_repeatCount hcount) hbound
    have hrange := Python.isExpression_call "range" (by decide)
      (.cons hexpression .nil)
    rw [h.dialect] at hcounter ⊢
    refine ⟨_, _, ?_, ?_, Python.readLine_forLoop hcounter hrange, trivial⟩
    · simp [Language.dialect, Python.dialect, joinWith, ← String.toList_inj]
    · simp

/-- The line that spells a part. -/
theorem exists_line (hfixed : role.isFixed = true) (hspells : scene.SpellsOf ref block text role) :
    IsCodeLine role text := by
  cases role with
  | comment | opening | closing | trap | closer => cases hfixed
  | statement =>
    obtain ⟨rule, form, -, -, hsimple, hyields⟩ := hspells
    obtain ⟨text', htext, hstatement⟩ := h.phrased.isStatement_of_yields h.fallback_changeOperand hsimple hyields
    cases htext
    exact h.isCodeLine_isStatement hstatement
  | value =>
    obtain ⟨room, code, tier, s, t, hs, hrun, rfl⟩ := hspells
    have hcode := (h.phrased.isOperand_render hs hrun).2
    obtain ⟨tree, hexpression⟩ := isExpression_of_isOperand hcode
    rw [h.dialect]
    exact ⟨code, _, rfl, head_of_isOperand hcode, Python.readLine_value hexpression, trivial⟩
  | jump flow =>
    cases flow with
    | «break» =>
      obtain rfl : text = _ := hspells
      rw [h.dialect]
      exact ⟨"break", _, rfl, by decide, Python.readLine_break, rfl⟩
    | «continue» =>
      obtain rfl : text = _ := hspells
      rw [h.dialect]
      exact ⟨"continue", _, rfl, by decide, Python.readLine_continue, rfl⟩
  | giveBack =>
    rcases hspells with rfl | ⟨value, hreturned, rfl⟩
    · rw [h.dialect]
      exact ⟨"return", _, rfl, by decide, Python.readLine_return, trivial⟩
    · obtain ⟨tree, hexpression⟩ := isExpression_of_isOperand (h.phrased.isOperand_returned hreturned)
      rw [h.dialect]
      exact ⟨_, _, rfl, by simp, Python.readLine_giveBack hexpression, trivial⟩
  | branch arm socket =>
    obtain ⟨condition, hyields, rfl⟩ := hspells
    obtain ⟨tree, hexpression⟩ := isExpression_of_isOperand (h.phrased.isOperand_condition hyields)
    rw [h.dialect]
    cases arm with
    | zero =>
      exact ⟨_, _, by simp [Language.dialect, Python.dialect, ← String.toList_inj], by simp,
        Python.readLine_conditional hexpression, trivial⟩
    | succ arm =>
      exact ⟨_, _, by simp [Language.dialect, Python.dialect, ← String.toList_inj], by simp,
        Python.readLine_elseIf hexpression, trivial⟩
  | otherwise =>
    obtain rfl : text = _ := hspells
    rw [h.dialect]
    exact ⟨"else:", _, rfl, by decide, Python.readLine_otherwise, trivial⟩
  | loop => exact h.isCodeLine_loop hspells
  | bound =>
    obtain ⟨name, count, hname, hcount, rfl⟩ := hspells
    obtain ⟨tree, hexpression⟩ := isExpression_of_isOperand (h.phrased.isOperand_repeatCount hcount)
    rw [h.dialect] at hname ⊢
    refine ⟨_, _, rfl, ?_, Python.readLine_assign hname hexpression, trivial⟩
    rw [String.append_assoc]
    exact head_of_isName hname _
  | label =>
    obtain ⟨label, hlabel, -⟩ := hspells
    rw [h.dialect] at hlabel
    cases hlabel
  | procedure =>
    obtain ⟨name, args, hname, hargs, rfl⟩ := hspells
    rw [h.dialect] at hname hargs ⊢
    refine ⟨_, _, ?_, ?_, Python.readLine_function hname hargs, trivial⟩
    · simp [Language.dialect, Python.dialect, ← String.toList_inj]
    · simp
  | outer =>
    obtain ⟨declaration, names, hdeclaration, hne, hnames, rfl⟩ := hspells
    rw [h.dialect] at hdeclaration hnames
    cases hdeclaration
    exact ⟨_, _, rfl, by simp, Python.readLine_outer hne hnames, trivial⟩
  | filler =>
    obtain ⟨filler, hfiller, rfl⟩ := hspells
    rw [h.dialect] at hfiller ⊢
    cases hfiller
    exact ⟨"pass", _, rfl, by decide, Python.readLine_pass, trivial⟩

end Speaks

/-! ## Code as statements -/

/-- Whether a line of a program spells its part, and is what the part is there for. -/
structure IsWritten (scene : Scene) (line : CodeLine) : Prop where
  spells : scene.Spells line.part line.text
  reads : Python.readLine (lineCode line.text) = some line.line
  fits : line.part.1.Matches line.line

/-- Whether lines are read as the statements that certain parts are there for, where
    everything stands `width` spaces deeper than what it is inside. -/
def IsReadAs (scene : Scene) (width : Nat) (lines : List (Nat × String))
    (suite : Suite (Role × Ref)) : Prop :=
  ∃ code : Suite CodeLine, code.map CodeLine.part = suite ∧ code.outline.All scene.IsWritten ∧
    lines = (code.outline.map fun line => lineCode line.text).layout width ∧
    Python.readSuite lines = some (code.map CodeLine.line)

/-- The line of a part that is spelled. -/
theorem Speaks.exists_written (h : scene.Speaks .python) {part : Role × Ref}
    (hfixed : part.1.isFixed = true) (hspells : scene.Spells part text) :
    ∃ line : CodeLine, (line.part, line.text) = (part, text) ∧ scene.IsWritten line ∧
      IsLines line.text ∧ codeLines line.text.toList = [(0, lineCode line.text)] := by
  obtain ⟨-, block, -, hrole⟩ := id hspells
  obtain ⟨code, line, rfl, hstart, hread, hmatches⟩ := h.exists_line hfixed hrole
  have hline := h.isLine_of_spells hfixed hspells
  obtain ⟨plain, hplain, hchars, hblank⟩ := hline.exists_plain
  obtain rfl : code = plain := by simpa using hplain
  have hfeed : '\n' ∉ code.toList := fun hmem => absurd (hchars _ hmem) (by decide)
  exact ⟨⟨part, code ++ "\n", line⟩, rfl, ⟨hspells, Python.readLine_lineCode hread, hmatches⟩,
    hline.isLines, codeLines_line hfeed hblank hstart⟩

/-- The code of parts is read as their statements. -/
theorem isReadAs_of_isCode (h : scene.Speaks .python) {width : Nat} (hwidth : 0 < width)
    (hindent : scene.indent.toList = List.replicate width ' ') {parts : Layout}
    (hcode : scene.IsCode text parts) (hfixed : parts.All fun part => part.1.isFixed = true)
    {suite : Suite (Role × Ref)}
    (hsuite : arrange (fun part : Role × Ref => part.1.kind) parts = some (.done, suite)) :
    scene.IsReadAs width (codeLines text.toList) suite := by
  obtain ⟨spelled, rfl, hspells, rfl⟩ := hcode
  obtain ⟨whole, rfl, hwritten⟩ := Outline.exists_map (f := fun line : CodeLine => (line.part, line.text))
    ((hspells.and (Outline.all_map.mp hfixed)).mono fun line hline =>
      h.exists_written hline.2 hline.1)
  rw [Outline.map_map, arrange_map, Option.map_eq_some_iff] at hsuite
  obtain ⟨⟨loose, code⟩, harrange, hparts⟩ := hsuite
  obtain ⟨hloose, rfl⟩ : loose.map CodeLine.part = .done ∧ code.map CodeLine.part = suite := by
    simpa using hparts
  obtain rfl : loose = .done := by
    cases loose with
    | done => rfl
    | _ => cases hloose
  -- Python takes the lines for what their parts are
  rw [arrange_congr (hwritten.mono fun line hline => Role.kind_of_matches hline.1.fits)] at harrange
  have hwhole : code.outline = whole := outline_of_arrange harrange
  have hlines : codeLines ((whole.map fun line => line.text).text scene.indent).toList =
      (whole.map fun line => lineCode line.text).layout width := by
    rw [Outline.codeLines_text hindent (Outline.all_map.mpr (hwritten.mono fun _ hline => hline.2)),
      Outline.map_map]
  refine ⟨code, rfl, ?_, ?_, ?_⟩
  · rw [hwhole]
    exact hwritten.mono fun line hline => hline.1
  · rw [hwhole, Outline.map_map]
    exact hlines
  · rw [Outline.map_map, hlines, Python.readSuite,
      Python.readLines_layout (hwritten.mono fun line hline => hline.1.reads), Option.bind_some]
    refine Suite.read_layout hwidth ?_
    rw [arrange_map, harrange]
    rfl

end Scene

end BlockScript
