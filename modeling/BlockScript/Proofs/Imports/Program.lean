import BlockScript.Proofs.Imports.Rendering

/-!
# Programs import what they use

A Python program starts with its imports, one on a line. The lines behind them use no other
names from modules than those that are imported there, if the comments above statements read
as comments. The reader of such a line finds the module, since no identifier of the program
is spelled like one of these names.

Results:

* `Headed.tidy`: the final trimming leaves the imports ahead of lines that they cover.
* `Scene.Speaks.headed_program`: a program has its imports ahead of lines that they cover.
* `uses_imported`: the names from modules that a program uses.
-/

namespace BlockScript

open BlockScript.Text

namespace Python

variable {stock texts others : List String} {cs ds blanks line : List Char}

/-! ## Import lines -/

/-- Whether a line imports one of the names from modules. -/
def isImport (line : List Char) : Bool :=
  moduleNames.any fun entry => entry.2.toList = line

/-- The statements of some imports are such lines. -/
def AreImports (stock : List String) : Prop :=
  stock ⊆ moduleNames.map Prod.snd

theorem AreImports.all {p : String → Bool} (hall : moduleNames.all (fun entry => p entry.2) = true)
    (hstock : AreImports stock) {statement : String} (h : statement ∈ stock) :
    p statement = true := by
  obtain ⟨entry, hentry, rfl⟩ := List.mem_map.mp (hstock h)
  exact List.all_eq_true.mp hall entry hentry

theorem AreImports.isImport (hstock : AreImports stock) :
    ∀ line ∈ stock.map String.toList, isImport line = true := by
  intro line hline
  obtain ⟨statement, hstatement, rfl⟩ := List.mem_map.mp hline
  exact hstock.all (p := fun statement => Python.isImport statement.toList) (by decide) hstatement

/-- Imports have no line feed in them, are not blank and end without blanks. -/
theorem AreImports.plain (hstock : AreImports stock) (hline : line ∈ stock.map String.toList) :
    '\n' ∉ line ∧ line.all isBlank = false ∧ dropEndWhile isIndentChar line = line := by
  obtain ⟨statement, hstatement, rfl⟩ := List.mem_map.mp hline
  have hplain := hstock.all (p := fun statement => !statement.toList.contains '\n' &&
    !statement.toList.all isBlank &&
      decide (dropEndWhile isIndentChar statement.toList = statement.toList)) (by decide) hstatement
  simp only [Bool.and_eq_true, Bool.not_eq_true', List.contains_eq_mem, decide_eq_false_iff_not,
    decide_eq_true_eq] at hplain
  exact ⟨hplain.1.1, hplain.1.2, hplain.2⟩

/-- Blank text has no import on a line. -/
theorem AreImports.not_mem_splitLines (hstock : AreImports stock)
    (hblanks : ∀ c ∈ blanks, isBlank c = true) (hline : line ∈ stock.map String.toList) :
    line ∉ splitLines blanks := by
  intro hmem
  have hblank : line.all isBlank = true :=
    List.all_eq_true.mpr fun c hc => hblanks c ((isInfix_of_mem_splitLines hmem).subset hc)
  rw [(hstock.plain hline).2.1] at hblank
  cases hblank

/-! ## Imports ahead of covered lines -/

/-- Whether a text has imports on its first lines, and only lines behind them that they
    cover. -/
def Headed (stock : List String) (cs : List Char) : Prop :=
  ∃ rest, rest ≠ [] ∧ splitLines cs = stock.map String.toList ++ rest ∧
    ∀ line ∈ rest, CoveredLine stock line

/-- The names that are used behind the imports are imported. -/
theorem Headed.mem_imports (hstock : AreImports stock) (h : Headed stock cs)
    {entry : String × String} (hentry : entry ∈ moduleNames)
    (huses : uses entry.1 (joinLines ((splitLines cs).dropWhile isImport)) = true) :
    entry.2.toList ∈ (splitLines cs).takeWhile isImport := by
  obtain ⟨rest, -, hlines, hcovered⟩ := h
  rw [hlines, List.dropWhile_append_of_pos hstock.isImport] at huses
  rw [hlines, List.takeWhile_append_of_pos hstock.isImport]
  have hmem := uses_joinLines hentry
    (fun line hline => hcovered line ((List.dropWhile_suffix _).subset hline)) huses
  exact List.mem_append_left _ (List.mem_map_of_mem hmem)

/-! ### Trimming -/

theorem Headed.trimLeadingLines (hstock : AreImports stock) (h : Headed stock cs) :
    Headed stock (trimLeadingLines cs) := by
  rcases trimLeadingLines_eq cs with heq | ⟨blanks, hblanks, hcs⟩
  · rwa [heq]
  · obtain ⟨rest, -, hlines, hcovered⟩ := h
    generalize Text.trimLeadingLines cs = trimmed at hcs
    rw [hcs, splitLines_append] at hlines
    rcases List.append_eq_append_iff.mp hlines with ⟨more, hstocked, -⟩ | ⟨more, hblank, rfl⟩
    · obtain ⟨line, hline⟩ := List.exists_mem_of_ne_nil _ (splitLines_ne_nil blanks)
      have hmem := hstocked ▸ List.mem_append_left more hline
      exact absurd hline (hstock.not_mem_splitLines hblanks hmem)
    · -- blank lines are trimmed only where there are no imports
      have hnone : stock.map String.toList = [] :=
        List.eq_nil_iff_forall_not_mem.mpr fun line hline =>
          hstock.not_mem_splitLines hblanks hline (hblank ▸ List.mem_append_left _ hline)
      exact ⟨splitLines trimmed, splitLines_ne_nil _, by rw [hnone, List.nil_append],
        fun line hline => hcovered line (List.mem_append_right _ hline)⟩

theorem Headed.trimTrailingLines (hstock : AreImports stock) (h : Headed stock cs) :
    Headed stock (trimTrailingLines cs) := by
  rcases trimTrailingLines_eq cs with heq | ⟨before, blanks, hblanks, hcs, htrim⟩
  · rwa [heq]
  · obtain ⟨rest, -, hlines, hcovered⟩ := h
    have hend : ∀ line ∈ [[]], CoveredLine stock line := by simpa using coveredLine_nil
    have hsplit : splitLines (before ++ ['\n']) = splitLines before ++ [[]] :=
      splitLines_append before []
    rw [hcs, splitLines_append] at hlines
    rw [htrim]
    rcases List.append_eq_append_iff.mp hlines with ⟨more, hstocked, hblank⟩ | ⟨more, hbefore, rfl⟩
    · have hnone : more = [] := List.eq_nil_iff_forall_not_mem.mpr fun line hline =>
        hstock.not_mem_splitLines hblanks (hstocked ▸ List.mem_append_right _ hline)
          (hblank ▸ List.mem_append_left _ hline)
      rw [hnone, List.append_nil] at hstocked
      exact ⟨[[]], List.cons_ne_nil _ _, by rw [hsplit, hstocked], hend⟩
    · refine ⟨more ++ [[]], by simp, by rw [hsplit, hbefore, List.append_assoc], ?_⟩
      exact List.forall_mem_append.mpr
        ⟨fun line hline => hcovered line (List.mem_append_left _ hline), hend⟩

theorem Headed.trimLineEnds (hstock : AreImports stock) (h : Headed stock cs) :
    Headed stock (joinLines (trimLineEnds (splitLines cs))) := by
  obtain ⟨rest, hne, hlines, hcovered⟩ := h
  refine ⟨Text.trimLineEnds rest, ?_, ?_, fun line hline => ?_⟩
  · cases rest with
    | nil => exact absurd rfl hne
    | cons line rest => cases rest <;> exact List.cons_ne_nil _ _
  · rw [splitLines_trimLineEnds, hlines, trimLineEnds_append _ hne,
      List.map_congr_left fun line hline => (hstock.plain hline).2.2, List.map_id']
  · rcases mem_trimLineEnds hline with hmem | ⟨whole, hmem, rfl⟩
    · exact hcovered line hmem
    · obtain ⟨tail, hwhole, htail⟩ := dropEndWhile_append isIndentChar whole
      exact (hwhole ▸ hcovered whole hmem).of_append_blank htail

/-- The final trimming leaves the imports ahead of lines that they cover. -/
theorem Headed.tidy {code : String} (hstock : AreImports stock) (h : Headed stock code.toList) :
    Headed stock (tidy code).toList := by
  rw [Text.tidy, String.toList_ofList]
  exact ((h.trimLeadingLines hstock).trimTrailingLines hstock).trimLineEnds hstock

/-! ### Assembling -/

theorem coveredLines_nil : CoveredLines stock [] := by
  simpa [CoveredLines, splitLines] using coveredLine_nil

/-- Texts with line feeds between them. -/
theorem coveredLines_feeds (count : Nat) (hcs : CoveredLines stock cs)
    (hds : CoveredLines stock ds) :
    CoveredLines stock (cs ++ (List.replicate (count + 1) '\n' ++ ds)) := by
  induction count generalizing cs with
  | zero => exact coveredLines_feed.mpr ⟨hcs, hds⟩
  | succ count ih =>
    rw [List.replicate_succ, List.cons_append]
    exact coveredLines_feed.mpr ⟨hcs, ih coveredLines_nil⟩

theorem coveredLines_joinWith {separator : String} (count : Nat)
    (hseparator : separator.toList = List.replicate (count + 1) '\n')
    (h : ∀ text ∈ texts, CoveredLines stock text.toList) :
    CoveredLines stock (joinWith separator texts).toList := by
  induction texts with
  | nil => exact coveredLines_nil
  | cons text texts ih =>
    obtain ⟨hfirst, hrest⟩ := List.forall_mem_cons.mp h
    cases texts with
    | nil => exact hfirst
    | cons next texts =>
      have hwhole := coveredLines_feeds count hfirst (ih hrest)
      rw [← hseparator, ← List.append_assoc] at hwhole
      simpa only [joinWith, String.toList_append] using hwhole

/-- Imports ahead of a text that they cover. -/
theorem headed_of_imports (hstock : AreImports stock) (hne : stock ≠ [])
    (h : CoveredLines stock cs) : Headed stock ((joinWith "\n" stock).toList ++ '\n' :: cs) := by
  have himports : splitLines (joinWith "\n" stock).toList = stock.map String.toList := by
    rw [splitLines_joinWith hne, ← List.flatMap_pure_eq_map]
    exact List.flatMap_congr fun statement hstatement =>
      splitLines_of_not_mem (hstock.plain (List.mem_map_of_mem hstatement)).1
  exact ⟨splitLines cs, splitLines_ne_nil _, by rw [splitLines_append, himports], h⟩

/-- A program is put together from its imports and from texts that they cover. -/
theorem headed_assembled (hstock : AreImports stock) {body : String}
    (hothers : ∀ text ∈ others, CoveredLines stock text.toList)
    (hbody : CoveredLines stock body.toList) :
    Headed stock (Scene.assembled stock others body).toList := by
  have hdefinitions : CoveredLines stock (joinWith "\n\n" others).toList :=
    coveredLines_joinWith 1 rfl hothers
  unfold Scene.assembled
  dsimp only
  by_cases hnone : stock = []
  · subst hnone
    rw [if_pos rfl, List.nil_append]
    have hwhole : CoveredLines [] (if others = [] then body
        else joinWith "\n\n" others ++ "\n\n\n" ++ body).toList := by
      split
      · exact hbody
      · simpa using coveredLines_feeds 2 hdefinitions hbody
    exact ⟨splitLines _, splitLines_ne_nil _, rfl, hwhole⟩
  · rw [if_neg hnone, List.singleton_append, if_neg (List.cons_ne_nil _ _)]
    cases others with
    | nil =>
      have hbehind := coveredLines_feeds 1 coveredLines_nil hbody
      simpa [joinWith] using headed_of_imports hstock hnone hbehind
    | cons text others =>
      have hahead := coveredLines_feeds 0 coveredLines_nil hdefinitions
      have hbehind := coveredLines_feeds 2 hahead hbody
      simpa [joinWith] using headed_of_imports hstock hnone hbehind

end Python

/-! ## Programs -/

open Python

/-- A program has its imports ahead of lines that they cover. -/
theorem Scene.Speaks.headed_program {scene : Scene} (hspeaks : scene.Speaks .python)
    (h : scene.OnlyComments) (hcomments : ∀ ref, Language.python.Inert (scene.commentLines ref))
    {program : Scene.Program} {state : PassState}
    (hrun : scene.program {} = (.ok program, state)) :
    ∃ stock, AreImports stock ∧ Headed stock program.code.toList := by
  obtain ⟨texts, s, hreserve, htexts, hcode⟩ := program_eq_ok hrun
  have hgathers := scene.gathers_journal
  rw [hrun] at hgathers
  have hsets : ∀ entry ∈ state.definitions.entries, scene.Sets entry.1 entry.2 :=
    fun entry hentry => hspeaks.sets_of_registered (hgathers.subset hentry)
  rw [hcode, finish_eq hspeaks.dialect hsets]
  generalize hstock : (state.definitions.entries.filter fun entry => isImportKey entry.1).map
    Prod.snd = stock
  have hmem : ∀ statement, Recipe.importKey ++ statement ∈ state.keys → statement ∈ stock := by
    intro statement hkey
    obtain ⟨entry, hentry, hkey⟩ := List.mem_map.mp hkey
    have himport : isImportKey entry.1 = true := hkey ▸ isImportKey_importKey statement
    have heq := ((hsets entry hentry).import_of_key hspeaks.dialect himport).2
    obtain rfl : statement = entry.2 := by simpa using hkey.symm.trans heq
    exact hstock ▸ List.mem_map_of_mem (List.mem_filter.mpr ⟨hentry, himport⟩)
  have hlines : ∀ ref, CoveredText stock (scene.commentLines ref) := fun ref =>
    coveredText_of_inert (isPiece_commentLines hspeaks.dialect ref) (hcomments ref)
  have hyields := yields_topTexts h hlines hspeaks hmem scene.workspace.tops
  obtain ⟨hcovered, hstate⟩ := hyields s texts state (coveredState_reserved hspeaks hreserve) htexts
    (List.Subset.refl _)
  have hstatements : AreImports stock := by
    intro statement hstatement
    obtain ⟨entry, hentry, rfl⟩ := List.mem_map.mp (hstock ▸ hstatement)
    obtain ⟨hset, himport⟩ := List.mem_filter.mp hentry
    have hlisted := ((hsets entry hset).import_of_key hspeaks.dialect himport).1
    rw [hspeaks.dialect] at hlisted
    have hall : Language.python.dialect.importTexts ⊆ moduleNames.map Prod.snd := by decide
    exact hall hlisted
  refine ⟨stock, hstatements, (headed_assembled hstatements ?_ ?_).tidy hstatements⟩
  · intro text htext
    obtain ⟨entry, hentry, rfl⟩ := List.mem_map.mp htext
    obtain ⟨hset, hother⟩ := List.mem_filter.mp hentry
    rcases hstate.holds entry hset with hkey | hcode
    · rw [hkey, isImportKey_importKey] at hother
      cases hother
    · exact coveredLines_trimNewlines hcode.lines
  · exact coveredLines_joinWith 0 rfl fun text htext => (hcovered text htext).lines

/-- Whatever name from a module is used behind the imports of a program is imported, and no
    identifier is such a name. -/
theorem uses_imported (config : Config) (workspace : Workspace) {program : Scene.Program}
    (hstart : config.statementStart = "") (hend : config.statementEnd = "")
    (htrap : config.loopTrap = "")
    (hindent : ∀ unit ∈ config.indent, ∀ c ∈ unit.toList, isIndentChar c = true)
    (hcomments : ∀ ref, Language.python.Inert
      ((Scene.ofLanguage .python config workspace).commentLines ref))
    (hrun : (generate .python config workspace).1 = .ok program) :
    let lines := splitLines program.code.toList
    ∀ entry ∈ moduleNames,
      (uses entry.1 (joinLines (lines.dropWhile isImport)) = true →
        entry.2.toList ∈ lines.takeWhile isImport) ∧
      ∀ kind, ¬(Language.python.finalState config workspace).Gives kind entry.1 := by
  have hprogram : (Scene.ofLanguage .python config workspace).program {} =
      (.ok program, Language.python.finalState config workspace) := by
    rw [← hrun]
    rfl
  obtain ⟨stock, hstock, hheaded⟩ :=
    (Scene.speaks_ofLanguage .python config workspace).headed_program
      (Scene.onlyComments_ofLanguage hstart hend htrap hindent) hcomments hprogram
  have hreserved : ∀ entry ∈ moduleNames, entry.1 ∈ Language.python.dialect.policy.reserved := by
    decide +kernel
  exact fun entry hentry => ⟨hheaded.mem_imports hstock hentry, fun kind hgives =>
    hgives.fits.notReserved (hreserved entry hentry)⟩

/-! ### A constant with a comment -/

/-- A constant with a comment about another module, which has a carriage return in it or not. -/
def annotated (broken : Bool) : Workspace where
  tops := [0]
  graph := ⟨#[{ Block.ofType "math_constant" with
    fields := [("CONSTANT", .text "PI")]
    comment := some (if broken then "a\rrandom.random()" else "not random.random()") }]⟩

theorem generate_annotated (broken : Bool) :
    ∃ program, (generate .python {} (annotated broken)).1 = .ok program ∧
      program.code = (if broken then "import math\n\n\n# a\rrandom.random()\nmath.pi\n"
        else "import math\n\n\n# not random.random()\nmath.pi\n") := by
  have hall : (Scene.ofLanguage .python {} (annotated broken)).workspace.allBlocks = [0] :=
    show (annotated broken).allBlocks = [0] by cases broken <;> cbv
  have hused : (Scene.ofLanguage .python {} (annotated broken)).usedVariables = .ok [] := by
    unfold Scene.usedVariables Workspace.usedVariables
    rw [hall]
    cases broken <;> rfl
  have hdefined : (Scene.ofLanguage .python {} (annotated broken)).definedNames = [] := by
    unfold Scene.definedNames
    rw [hall]
    rfl
  have hcode : ((generate .python {} (annotated broken)).1.toOption.map fun program =>
      program.code) = some (if broken then "import math\n\n\n# a\rrandom.random()\nmath.pi\n"
        else "import math\n\n\n# not random.random()\nmath.pi\n") := by
    unfold generate
    rw [Scene.program, Pass.bind_apply, Scene.reserveNames_of_noNames hused rfl hdefined]
    cases broken <;> decide +kernel
  cases hrun : (generate .python {} (annotated broken)).1 with
  | error failure =>
    rw [hrun] at hcode
    cases hcode
  | ok program =>
    rw [hrun] at hcode
    exact ⟨program, rfl, Option.some.inj hcode⟩

theorem uses_imported_annotated :
    let scene := Scene.ofLanguage .python {} (annotated false)
    ({} : Config).statementStart = "" ∧ ({} : Config).statementEnd = "" ∧
      ({} : Config).loopTrap = "" ∧
      (∀ unit ∈ ({} : Config).indent, ∀ c ∈ unit.toList, isIndentChar c = true) ∧
      (∀ ref, Language.python.Inert (scene.commentLines ref)) ∧
      ∃ program, (generate .python {} (annotated false)).1 = .ok program ∧
        let lines := splitLines program.code.toList
        uses "math" (joinLines (lines.dropWhile isImport)) = true ∧
        uses "random" (joinLines (lines.dropWhile isImport)) = false ∧
        ∀ entry ∈ moduleNames,
          (uses entry.1 (joinLines (lines.dropWhile isImport)) = true →
            entry.2.toList ∈ lines.takeWhile isImport) ∧
          ∀ kind, ¬(Language.python.finalState {} (annotated false)).Gives kind entry.1 := by
  obtain ⟨program, hrun, hcode⟩ := generate_annotated false
  have hinert : ∀ ref, Language.python.Inert
      ((Scene.ofLanguage .python {} (annotated false)).commentLines ref) := by
    intro ref
    unfold Language.Inert
    cases ref with
    | zero => decide +kernel
    | succ ref => exact List.not_mem_nil
  refine ⟨rfl, rfl, rfl, by simp, hinert, program, hrun, ?_, ?_,
    uses_imported {} (annotated false) rfl rfl rfl (by simp) hinert hrun⟩
  all_goals
    rw [hcode]
    decide +kernel

/-- What follows a carriage return in a comment is read as code, so a name from a module that
    stands there is used without an import. -/
theorem uses_without_import :
    ∃ program, (generate .python {} (annotated true)).1 = .ok program ∧
      let lines := splitLines program.code.toList
      ("random", "import random") ∈ moduleNames ∧
        uses "random" (joinLines (lines.dropWhile isImport)) = true ∧
        "import random".toList ∉ lines.takeWhile isImport := by
  obtain ⟨program, hrun, hcode⟩ := generate_annotated true
  refine ⟨program, hrun, by decide, ?_, ?_⟩
  all_goals
    rw [hcode]
    decide +kernel

end BlockScript
