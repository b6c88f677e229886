import BlockScript.Proofs.Brackets.Reader

/-!
# Lines without their indentation

A program in a language with brackets as the lines of code in it. Neither blank lines nor
the blanks around a line count for anything.

Results:

* `strippedLines_indentLines`: indentation makes no difference.
* `codeLines_withDefinitions`: the lines of a program with its definitions.
* `Outline.strippedLines_text`: the lines of an outline.
-/

namespace BlockScript

open BlockScript.Reading BlockScript.Text

/-! ## Lines -/

/-- A line without the blanks around it. A blank line is none. -/
def strippedLine (line : List Char) : Option String :=
  if line.all isBlank then none
  else some (String.ofList ((dropEndWhile isIndentChar line).dropWhile isIndentChar))

/-- The lines of code of a text without the blanks around them. -/
def strippedLines (cs : List Char) : List String :=
  (splitLines cs).filterMap strippedLine

/-- A text without blanks at its start. -/
def stripStart (text : String) : String :=
  String.ofList (text.toList.dropWhile isIndentChar)

variable {cs : List Char}

theorem strippedLine_eq (line : List Char) :
    strippedLine line = (codeLine line).map fun code => stripStart code.2 := by
  have hspaces : ∀ cs : List Char,
      (cs.dropWhile (· = ' ')).dropWhile isIndentChar = cs.dropWhile isIndentChar := by
    intro cs
    conv_rhs => rw [← List.takeWhile_append_dropWhile (p := (· = ' ')) (l := cs)]
    rw [List.dropWhile_append_of_pos]
    intro c hc
    have hspace : c = ' ' := by simpa using List.mem_takeWhile_imp hc
    rw [hspace]
    rfl
  unfold strippedLine codeLine stripStart
  split
  · rfl
  · simp [hspaces]

theorem strippedLines_eq (cs : List Char) :
    strippedLines cs = (codeLines cs).map fun code => stripStart code.2 := by
  rw [strippedLines, codeLines, List.map_filterMap]
  exact congrArg (fun read => (splitLines cs).filterMap read) (funext strippedLine_eq)

/-- A text that is made of whole lines, with what follows it. -/
theorem strippedLines_of_isPiece {text : String} (h : IsPiece text) (cs : List Char) :
    strippedLines (text.toList ++ cs) = strippedLines text.toList ++ strippedLines cs := by
  simp only [strippedLines_eq, codeLines_of_isPiece h, List.map_append]

/-- A single line. -/
theorem strippedLines_line {line : String} (hline : '\n' ∉ line.toList)
    (hblank : isBlankText line = false) :
    strippedLines (line ++ "\n").toList = [stripStart (lineCode (line ++ "\n"))] := by
  have hdark : ¬line.toList.all isBlank = true := Bool.eq_false_iff.mp hblank
  have hfeed : strippedLines (line.toList ++ ['\n']) = strippedLines line.toList := by
    rw [strippedLines_eq, strippedLines_eq, codeLines_concat]
  rw [lineCode_line hline, String.toList_append, show "\n".toList = ['\n'] from rfl, hfeed,
    strippedLines, splitLines_of_not_mem hline]
  simp [strippedLine, hdark, stripStart]

/-! ## Indentation -/

theorem strippedLine_append {lead : List Char} (hlead : ∀ c ∈ lead, isIndentChar c = true)
    (line : List Char) : strippedLine (lead ++ line) = strippedLine line := by
  have hblank : lead.all isBlank = true :=
    List.all_eq_true.mpr fun c hc => isBlank_of_isIndentChar (hlead c hc)
  unfold strippedLine
  rw [List.all_append, hblank, Bool.true_and]
  split
  · rfl
  · next hdark => rw [dropEndWhile_append_line lead hdark, List.dropWhile_append_of_pos hlead]

/-- Indentation makes no difference. -/
theorem strippedLines_indentLines {unit : String}
    (hunit : ∀ c ∈ unit.toList, isIndentChar c = true) (text : String) :
    strippedLines (indentLines text unit).toList = strippedLines text.toList := by
  have hfeed : '\n' ∉ unit.toList := fun hmem => by
    have hindent := hunit _ hmem
    simp [isIndentChar] at hindent
  have hlines : (splitLines (indentLines text unit).toList).filterMap strippedLine =
      ((splitLines text.toList).filterMap strippedLine).map id :=
    filterMap_indentLines rfl
      (fun line => by rw [strippedLine_append hunit, Option.map_id_fun, id]) hfeed text
  rwa [List.map_id] at hlines

/-- The lines of an outline. -/
theorem Outline.strippedLines_text {unit : String} {code : String → String}
    (hunit : ∀ c ∈ unit.toList, isIndentChar c = true) {outline : Outline String}
    (h : outline.All fun text => IsLines text ∧ strippedLines text.toList = [code text]) :
    strippedLines (outline.text unit).toList = outline.lines.map code := by
  induction outline with
  | nil => rfl
  | line label inside rest ihInside ihRest =>
    obtain ⟨⟨hlabel, hlines⟩, hinside, hrest⟩ := h
    have hpiece : IsPiece (indentLines (inside.text unit) unit) := by
      have hwhole : IsPiece (inside.text unit) := isPiece_text (hinside.mono fun _ h => h.1)
      rcases hwhole with hempty | hsome
      · exact .inl (by rw [hempty, indentLines_empty])
      · exact .inr (hsome.indentLines unit)
    rw [text, String.toList_append, String.toList_append, List.append_assoc,
      strippedLines_of_isPiece (.inr hlabel), strippedLines_of_isPiece hpiece,
      strippedLines_indentLines hunit, hlines, ihInside hinside, ihRest hrest]
    simp [Outline.lines]

/-! ## Tokens -/

/-- The blanks around a line are not part of any token. -/
theorem Reading.Lexis.Plain.lex_stripStart {lexis : Lexis} (hplain : lexis.Plain) {code : String}
    {tokens : List Token} (hlex : lexis.lex code = some tokens) :
    lexis.lex (stripStart (lineCode (code ++ "\n"))) = some tokens :=
  hplain.lex_dropWhile (hplain.lex_lineCode hlex)

/-! ## A program with its definitions -/

/-- The lines of a program with its definitions in their order. -/
theorem codeLines_withDefinitions (entries : List (String × String)) (code : String) :
    codeLines (Scene.withDefinitions entries code).toList =
      (entries.flatMap fun entry => codeLines entry.2.toList) ++ codeLines code.toList := by
  have hentries : ∀ entries : List (String × String),
      ((entries.filter fun entry => !isBlankText entry.2).map
        fun entry => dropNewlines entry.2).flatMap (fun text => codeLines text.toList) =
      entries.flatMap fun entry => codeLines entry.2.toList := by
    intro entries
    induction entries with
    | nil => rfl
    | cons entry entries ih =>
      cases hblank : isBlankText entry.2 with
      | true =>
        have hnone : codeLines entry.2.toList = [] :=
          codeLines_of_blank (List.all_eq_true.mp hblank)
        simpa [List.filter_cons, hblank, hnone] using ih
      | false => simpa [List.filter_cons, hblank, dropNewlines, codeLines_dropEndWhile] using ih
  unfold Scene.withDefinitions
  dsimp only
  rw [← hentries entries]
  generalize (entries.filter fun entry => !isBlankText entry.2).map
    (fun entry => dropNewlines entry.2) = texts
  split
  · next hnone =>
    rw [List.isEmpty_iff.mp hnone]
    rfl
  · rw [String.toList_append, String.toList_append, List.append_assoc,
      show "\n\n\n".toList = ['\n', '\n', '\n'] from rfl]
    simp only [List.cons_append, List.nil_append, codeLines_append, codeLines_cons]
    rw [codeLines_joinWith ['\n'] rfl (by simp)]

end BlockScript
