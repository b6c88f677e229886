import BlockScript.Proofs.Names.Mentioned
import BlockScript.Proofs.Pass.Allowed
import BlockScript.Proofs.Suite.Lines
import Mathlib.Data.List.Permutation

/-!
# Variables are initialised

A Python program sets every variable that it uses before anything else but the imports:
a line for each identifier, ahead of all functions and of the main part. A name keeps its
identifier for the whole pass, so wherever the program has the variable it has the one
that is set there.

Results:

* `Scene.variables_initialised`: the lines of a program, with those that set variables.
-/

namespace BlockScript

open BlockScript.Text

namespace Scene

variable {scene : Scene} {kind : NameKind} {name text : String}

/-! ## The lines that set variables -/

/-- The identifiers of a pass are words of the language. -/
theorem Reserves.fits (h : scene.Reserves kind name text) :
    ∃ word, text = scene.dialect.policy.sign kind ++ word ∧ scene.dialect.policy.Fits kind word := by
  obtain ⟨word, hlookup, rfl⟩ := identifier?_eq_some.mp h
  have hnamed : scene.reserved.Named scene.dialect.policy :=
    (scene.named_kept.reserveNames {}).named PassState.named_empty
  exact ⟨word, rfl, hnamed.assigned hlookup⟩

/-- A line that sets a variable. -/
theorem codeLines_initial {word : String} (h : IsIdentifier word) :
    codeLines (word ++ " = None").toList = [(0, word ++ " = None")] := by
  obtain ⟨c, cs, hword, hc, -, hcs⟩ := h
  have hsafe : ∀ d ∈ word.toList, isSafeChar d = true := by
    rw [hword]
    exact List.forall_mem_cons.mpr ⟨hc, hcs⟩
  have hblank : ∀ {d : Char}, isSafeChar d = true → isBlank d = false := fun hd =>
    forall_safeChar (p := fun d => isBlank d = false) (by decide) hd
  have hfeed : '\n' ∉ (word ++ " = None").toList := by
    rw [String.toList_append, List.mem_append, not_or]
    exact ⟨fun hmem => absurd (hblank (hsafe _ hmem)) (by decide), by decide⟩
  have hdark : isBlankText (word ++ " = None") = false := by
    simp [isBlankText_append, show isBlankText " = None" = false by decide]
  have hstart : (word ++ " = None").toList.head? ≠ some ' ' := by
    rw [String.toList_append, hword]
    rintro ⟨⟩
    exact absurd (hblank hc) (by decide)
  have hend : dropEndWhile isIndentChar (word ++ " = None").toList = (word ++ " = None").toList := by
    rw [String.toList_append, show " = None".toList = [' ', '=', ' ', 'N', 'o', 'n', 'e'] from rfl]
    simp [dropEndWhile, isIndentChar]
  have hline := codeLines_line hfeed hdark hstart
  rw [lineCode_line hfeed, hend, String.ofList_toList, String.toList_append,
    show "\n".toList = ['\n'] from rfl, codeLines_concat] at hline
  exact hline

/-- The lines that set variables. -/
theorem codeLines_initialLines {names : List String} (h : ∀ name ∈ names, IsIdentifier name) :
    codeLines (initialLines "None" names).toList = names.map fun name => (0, name ++ " = None") := by
  rw [initialLines, String.toList_append, show "\n".toList = ['\n'] from rfl, codeLines_concat,
    codeLines_joinWith [] rfl (by simp)]
  induction names with
  | nil => rfl
  | cons name names ih =>
    have hname : name ++ " = " ++ "None" = name ++ " = None" := String.append_assoc ..
    rw [List.map_cons, List.flatMap_cons, hname, codeLines_initial (h name List.mem_cons_self),
      ih fun other hother => h other (List.mem_cons_of_mem _ hother)]
    rfl

/-! ## Programs -/

/-- The lines of the imports of a program. -/
def importLines (definitions : Definitions) : List (Nat × String) :=
  (definitions.entries.filter fun entry => isImportKey entry.1).flatMap fun entry =>
    codeLines (strip entry.2).toList

/-- The lines of the functions of a program: of its helpers and procedures. -/
def functionLines (definitions : Definitions) : List (Nat × String) :=
  (definitions.entries.filter fun entry => !isImportKey entry.1 && entry.1 != variablesKey).flatMap
    fun entry => codeLines entry.2.toList

/-- The definitions of a program are its imports, what sets its variables, and its
    functions. -/
theorem definitionLines_of_startsWith {definitions : Definitions}
    {first : List (String × String)} (hfirst : ∀ entry ∈ first, entry.1 = variablesKey)
    (h : StartsWith first variablesKey definitions.entries) :
    definitionLines definitions.entries =
      importLines definitions ++ (first.flatMap fun entry => codeLines entry.2.toList) ++
        functionLines definitions := by
  obtain ⟨rest, hentries, hrest⟩ := h
  have hwhole : first.filter (fun entry => !isImportKey entry.1) = first :=
    List.filter_eq_self.mpr fun entry hentry => by rw [hfirst entry hentry]; decide
  have hnone : first.filter (fun entry => !isImportKey entry.1 && entry.1 != variablesKey) = [] :=
    List.filter_eq_nil_iff.mpr fun entry hentry => by rw [hfirst entry hentry]; decide
  have hfunctions : rest.filter (fun entry => !isImportKey entry.1 && entry.1 != variablesKey) =
      rest.filter fun entry => !isImportKey entry.1 :=
    List.filter_congr fun entry hentry => by simp [hrest entry hentry]
  rw [definitionLines, importLines, functionLines, hentries, List.append_assoc]
  congr 1
  simp only [List.filter_append, List.flatMap_append, hwhole, hnone, hfunctions,
    List.nil_append]

/-- The definition of the variables has a key of its own. -/
theorem key_of_mem_initialEntries {names : List String} {entry : String × String}
    (h : entry ∈ scene.initialEntries names) : entry.1 = variablesKey := by
  unfold initialEntries at h
  split at h
  · cases h
  · split at h
    · cases h
    · rw [List.mem_singleton.mp h]

/-- Python sets variables to a line each. -/
theorem Speaks.codeLines_initialEntries (h : scene.Speaks .python) {names : List String}
    (hnames : ∀ name ∈ names, IsIdentifier name) :
    (scene.initialEntries names).flatMap (fun entry => codeLines entry.2.toList) =
      names.map fun name => (0, name ++ " = None") := by
  have hvalue : scene.dialect.initialValue = some "None" := by
    rw [h.dialect]
    rfl
  unfold initialEntries
  rw [hvalue]
  dsimp only
  split
  · next hnone =>
    rw [List.isEmpty_iff.mp hnone]
    rfl
  · rw [List.flatMap_singleton, codeLines_initialLines hnames]

/-- The identifiers of variables in Python are words. -/
theorem Speaks.isIdentifier_of_reserves (h : scene.Speaks .python)
    (hreserves : scene.Reserves kind name text) : IsIdentifier text := by
  obtain ⟨word, rfl, hfits⟩ := hreserves.fits
  rw [h.dialect] at hfits ⊢
  rw [show Language.python.dialect.policy.sign kind = "" by cases kind <;> rfl,
    String.empty_append]
  exact hfits.identifier

/-- The lines of a Python program start with its imports and what sets its variables. -/
theorem Speaks.codeLines_initialised (h : scene.Speaks .python) {used names developer : List String}
    (hreserved : scene.VariablesReserved used names developer) {texts : List String}
    {state : PassState}
    (htexts : scene.topTexts scene.workspace.tops scene.reserved = (.ok texts, state)) :
    codeLines (scene.finish state.definitions (joinWith "\n" texts)).toList =
      importLines state.definitions ++
        (developer ++ names).map (fun identifier => (0, identifier ++ " = None")) ++
          functionLines state.definitions ++ codeLines (joinWith "\n" texts).toList := by
  have himports : scene.dialect.importsFirst = true := by
    rw [h.dialect]
    rfl
  have hidentifiers : ∀ identifier ∈ developer ++ names, IsIdentifier identifier := by
    intro identifier hidentifier
    obtain ⟨kind, name, hreserves⟩ := hreserved.exists_reserves hidentifier
    exact h.isIdentifier_of_reserves hreserves
  have hfirst : ∀ entry ∈ scene.initialEntries (developer ++ names), entry.1 = variablesKey :=
    fun entry hentry => key_of_mem_initialEntries hentry
  have hstarts := ((allows_startsWith h.dialect hfirst).topTexts h) _ _ _
    ⟨[], by rw [hreserved.entries, List.append_nil], by simp⟩ htexts
  rw [finish, if_pos himports, codeLines_withImportsFirst,
    definitionLines_of_startsWith hfirst hstarts, h.codeLines_initialEntries hidentifiers]

/-- Whether a program sets identifiers first, and uses no variables but with these. -/
structure SetsFirst (scene : Scene) (program : Program) (state : PassState)
    (identifiers : List String) : Prop where
  /-- The lines are those of the imports, a line for each identifier, and those of the
      functions and of the main part. -/
  lines : ∃ texts, scene.topTexts scene.workspace.tops scene.reserved = (.ok texts, state) ∧
    codeLines program.code.toList = importLines state.definitions ++
      identifiers.map (fun identifier => (0, identifier ++ " = None")) ++
        functionLines state.definitions ++ codeLines (joinWith "\n" texts).toList
  /-- Wherever the pass asks for a variable once its names are reserved, it gets one of
      the identifiers. -/
  given (kind : NameKind) (name : String) (h : scene.Uses kind name) :
    ∃ identifier ∈ identifiers, scene.AlwaysGives kind name identifier

/-- A Python program sets all variables that it uses ahead of its functions and its main
    part. What the workspace uses are the first spellings of what it mentions. -/
theorem variables_initialised {config : Config} {workspace : Workspace} {program : Program}
    {state : PassState} (hgiven : (ofLanguage .python config workspace).NamesGiven)
    (hrun : (ofLanguage .python config workspace).program {} = (.ok program, state)) :
    (∃ mentions used, workspace.mentions = .ok mentions ∧ workspace.usedVariables = .ok used ∧
        FirstSpellings mentions used) ∧
      ∃ identifiers,
        (ofLanguage .python config workspace).SetsFirst program state identifiers := by
  have hspeaks := speaks_ofLanguage .python config workspace
  obtain ⟨texts, s, hreserve, htexts, hcode⟩ := program_eq_ok hrun
  obtain ⟨rfl, used, names, developer, hreserved⟩ := reserveNames_spec hreserve
  obtain ⟨mentions, hmentions, hspellings⟩ :=
    Workspace.usedVariables_spec hreserved.usedVariables
  refine ⟨⟨mentions, used, hmentions, hreserved.usedVariables, hspellings⟩, developer ++ names,
    ⟨texts, htexts, ?_⟩, fun kind name huses => ?_⟩
  · rw [hcode, codeLines_tidy, hspeaks.codeLines_initialised hreserved htexts]
  · obtain ⟨text, htext, hreserves⟩ := hreserved.of_uses hspeaks hgiven huses
    exact ⟨text, htext, hreserves.alwaysGives⟩

/-! ### A variable in two spellings -/

/-- A block that sets a variable to its own value, which it spells differently. -/
def respelled : Workspace where
  developerVariables := ["env"]
  tops := [0]
  graph := ⟨#[{ Block.ofType "variables_set" with
      fields := [("VAR", .text "Item")], values := [("VALUE", some 1)] },
    { Block.ofType "variables_get" with fields := [("VAR", .text "item")] }]⟩

/-- No comments. -/
def quiet : Config := { emitComments := false }

theorem program_respelled : ((ofLanguage .python quiet respelled).program {}).1.toOption =
    some ⟨"env = None\nItem = None\n\n\nItem = Item\n", 5, 1⟩ := by
  have hall : (ofLanguage .python quiet respelled).workspace.allBlocks = [0, 1] :=
    show respelled.allBlocks = [0, 1] by cbv
  have hused : (ofLanguage .python quiet respelled).usedVariables = .ok ["Item"] := by
    unfold usedVariables Workspace.usedVariables
    rw [hall]
    rfl
  have hdefined : (ofLanguage .python quiet respelled).definedNames = [] := by
    unfold definedNames
    rw [hall]
    rfl
  rw [program, reserveNames, hused, hdefined]
  decide +kernel

theorem namesGiven_respelled : (ofLanguage .python quiet respelled).NamesGiven := by
  refine .of_blocks fun block hblock => ?_
  obtain rfl | rfl : block = _ ∨ block = _ := by
    simpa [ofLanguage, graph, respelled] using hblock
  all_goals
    refine ⟨by decide, fun listed hlisted => ?_⟩
    cases hlisted
    exact List.not_mem_nil

theorem variables_initialised_respelled :
    (ofLanguage .python quiet respelled).NamesGiven ∧
      ∃ program state, (ofLanguage .python quiet respelled).program {} = (.ok program, state) ∧
        (∃ mentions used, respelled.mentions = .ok mentions ∧
          respelled.usedVariables = .ok used ∧ FirstSpellings mentions used) ∧
        ∃ identifiers,
          (ofLanguage .python quiet respelled).SetsFirst program state identifiers := by
  obtain ⟨program, state, hrun⟩ := Pass.exists_of_toOption program_respelled
  exact ⟨namesGiven_respelled, program, state, hrun,
    variables_initialised namesGiven_respelled hrun⟩

end Scene

end BlockScript
