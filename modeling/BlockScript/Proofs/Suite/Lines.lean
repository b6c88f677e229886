import BlockScript.Program
import BlockScript.Proofs.Code.Outline
import BlockScript.Proofs.Reading.Control
import Mathlib.Data.List.DropRight

/-!
# Lines by their indentation

A program as the lines of code in it, each with the number of spaces ahead of it.
Blank lines count for nothing, and neither do blanks at the end of a line.

Results:

* `codeLines_append`: the lines of a text that is put together at a line feed.
* `codeLines_tidy`: the final trimming keeps all lines of code.
* `codeLines_withImportsFirst`: the lines of a program with its definitions.
* `Outline.codeLines_text`: the lines of an outline, by their depth.
-/

namespace BlockScript

open BlockScript.Text

/-! ## Lines of code -/

/-- The number of spaces ahead of a line, and what is left of it without the blanks at
    its end. A blank line is none. -/
def codeLine (line : List Char) : Option (Nat × String) :=
  if line.all isBlank then none
  else
    let kept := dropEndWhile isIndentChar line
    some ((kept.takeWhile (· = ' ')).length, String.ofList (kept.dropWhile (· = ' ')))

/-- The lines of code of a text. -/
def codeLines (cs : List Char) : List (Nat × String) :=
  (splitLines cs).filterMap codeLine

variable {cs : List Char} {c : Char}

theorem codeLine_of_blank {line : List Char} (h : ∀ c ∈ line, isBlank c = true) :
    codeLine line = none := by
  rw [codeLine, if_pos (List.all_eq_true.mpr h)]

@[simp]
theorem codeLines_nil : codeLines [] = [] := by
  simp [codeLines, splitLines, codeLine]

/-- A text is put together at a line feed. -/
theorem codeLines_append (cs ds : List Char) :
    codeLines (cs ++ '\n' :: ds) = codeLines cs ++ codeLines ds := by
  rw [codeLines, splitLines_append, List.filterMap_append]
  rfl

@[simp]
theorem codeLines_cons (cs : List Char) : codeLines ('\n' :: cs) = codeLines cs := by
  simpa using codeLines_append [] cs

@[simp]
theorem codeLines_concat (cs : List Char) : codeLines (cs ++ ['\n']) = codeLines cs := by
  simpa using codeLines_append cs []

/-- A text that is made of whole lines, with what follows it. -/
theorem codeLines_of_isPiece {text : String} (h : IsPiece text) (cs : List Char) :
    codeLines (text.toList ++ cs) = codeLines text.toList ++ codeLines cs := by
  rcases h with rfl | ⟨⟨before, c, hlist, -⟩, -⟩
  · simp
  · have hlist : text.toList = (before ++ [c]) ++ ['\n'] := by simp [hlist]
    rw [hlist, codeLines_concat, List.append_assoc, List.singleton_append, codeLines_append]

theorem codeLines_of_blank (h : ∀ c ∈ cs, isBlank c = true) : codeLines cs = [] := by
  refine List.filterMap_eq_nil_iff.mpr fun line hline => codeLine_of_blank fun c hc => h c ?_
  clear h
  induction cs generalizing line with
  | nil =>
    obtain rfl : line = [] := by simpa [splitLines] using hline
    exact hc
  | cons d cs ih =>
    rw [splitLines] at hline
    split at hline
    · rcases List.mem_cons.mp hline with rfl | hline
      · cases hc
      · exact List.mem_cons_of_mem _ (ih line hline hc)
    · cases hlines : splitLines cs with
      | nil => exact absurd hlines (splitLines_ne_nil cs)
      | cons first lines =>
        rw [hlines] at hline ih
        rcases List.mem_cons.mp hline with rfl | hline
        · rcases List.mem_cons.mp hc with rfl | hc
          · simp
          · exact List.mem_cons_of_mem _ (ih first (by simp) hc)
        · exact List.mem_cons_of_mem _ (ih line (by simp [hline]) hc)

/-! ## Single lines -/

/-- A line without its line feed and the blanks ahead of that. -/
def lineCode (text : String) : String :=
  String.ofList (dropEndWhile isIndentChar (dropNewlines text).toList)

theorem isBlank_of_isIndentChar (h : isIndentChar c = true) : isBlank c = true := by
  simp only [isIndentChar, Bool.or_eq_true, decide_eq_true_eq] at h
  rcases h with rfl | rfl <;> decide

theorem all_isBlank_dropEndWhile (line : List Char) :
    (dropEndWhile isIndentChar line).all isBlank = line.all isBlank := by
  obtain ⟨tail, hline, htail⟩ := dropEndWhile_append isIndentChar line
  have hblank : tail.all isBlank = true :=
    List.all_eq_true.mpr fun c hc => isBlank_of_isIndentChar (htail c hc)
  conv_rhs => rw [← hline, List.all_append, hblank, Bool.and_true]

theorem lineCode_line {line : String} (hline : '\n' ∉ line.toList) :
    lineCode (line ++ "\n") = String.ofList (dropEndWhile isIndentChar line.toList) := by
  have hkept : dropEndWhile (· = '\n') (line.toList ++ ['\n']) = line.toList := by
    have hrev : line.toList.reverse.dropWhile (· = '\n') = line.toList.reverse := by
      refine List.dropWhile_eq_self_iff.mpr fun hne => ?_
      have hmem : line.toList.reverse[0] ∈ line.toList := List.mem_reverse.mp (List.getElem_mem _)
      simp only [decide_eq_true_eq]
      intro heq
      exact hline (heq ▸ hmem)
    simp [dropEndWhile, hrev]
  rw [lineCode, dropNewlines, String.toList_ofList, String.toList_append,
    show "\n".toList = ['\n'] from rfl, hkept]

/-- Blanks at the end of a line are not part of any token. -/
theorem Reading.Lexis.Plain.lex_lineCode {lexis : Reading.Lexis} (hplain : lexis.Plain)
    {code : String} {tokens : List Reading.Token} (hlex : lexis.lex code = some tokens) :
    lexis.lex (lineCode (code ++ "\n")) = some tokens := by
  have hfeed : '\n' ∉ code.toList := fun hmem => absurd (hplain.of_lex hlex _ hmem) (by decide)
  rw [lineCode_line hfeed]
  exact hplain.lex_dropEndWhile hlex

/-- A line that is not indented. -/
theorem codeLines_line {line : String} (hline : '\n' ∉ line.toList)
    (hblank : isBlankText line = false) (hstart : line.toList.head? ≠ some ' ') :
    codeLines (line ++ "\n").toList = [(0, lineCode (line ++ "\n"))] := by
  have hdark : ¬line.toList.all isBlank = true := Bool.eq_false_iff.mp hblank
  obtain ⟨tail, hkept, -⟩ := dropEndWhile_append isIndentChar line.toList
  have hleft : (dropEndWhile isIndentChar line.toList).takeWhile (· = ' ') = [] ∧
      (dropEndWhile isIndentChar line.toList).dropWhile (· = ' ') =
        dropEndWhile isIndentChar line.toList := by
    cases hcs : dropEndWhile isIndentChar line.toList with
    | nil => simp
    | cons c cs =>
      have hc : c ≠ ' ' := by
        rintro rfl
        rw [hcs] at hkept
        exact hstart (by rw [← hkept]; rfl)
      simp [hc]
  rw [lineCode_line hline, String.toList_append, show "\n".toList = ['\n'] from rfl,
    codeLines_concat, codeLines, splitLines_of_not_mem hline]
  simp [codeLine, hdark, hleft]

/-! ## The final trimming -/

theorem splitLines_joinLines {lines : List (List Char)} (hne : lines ≠ [])
    (h : ∀ line ∈ lines, '\n' ∉ line) : splitLines (joinLines lines) = lines := by
  induction lines with
  | nil => exact absurd rfl hne
  | cons line lines ih =>
    have hline := h line (by simp)
    cases lines with
    | nil => exact splitLines_of_not_mem hline
    | cons next rest =>
      rw [joinLines, splitLines_append, splitLines_of_not_mem hline,
        ih (by simp) fun other hother => h other (by simp [hother])]
      · rfl
      · simp

theorem dropEndWhile_dropEndWhile (p : Char → Bool) (line : List Char) :
    dropEndWhile p (dropEndWhile p line) = dropEndWhile p line := by
  rw [dropEndWhile, dropEndWhile, List.reverse_reverse, List.dropWhile_idempotent]

theorem codeLine_dropEndWhile (line : List Char) :
    codeLine (dropEndWhile isIndentChar line) = codeLine line := by
  rw [codeLine, codeLine, all_isBlank_dropEndWhile, dropEndWhile_dropEndWhile]

theorem filterMap_codeLine_trimLineEnds (lines : List (List Char)) :
    (trimLineEnds lines).filterMap codeLine = lines.filterMap codeLine := by
  induction lines with
  | nil => rfl
  | cons line lines ih =>
    cases lines with
    | nil => rfl
    | cons next rest =>
      rw [trimLineEnds]
      · rw [List.filterMap_cons, List.filterMap_cons, codeLine_dropEndWhile, ih]
      · simp

theorem mem_trimLineEnds {lines : List (List Char)} {line : List Char}
    (h : line ∈ trimLineEnds lines) :
    line ∈ lines ∨ ∃ whole ∈ lines, line = dropEndWhile isIndentChar whole := by
  induction lines with
  | nil => cases h
  | cons first lines ih =>
    cases lines with
    | nil => exact .inl h
    | cons next rest =>
      rw [trimLineEnds] at h
      · rcases List.mem_cons.mp h with rfl | h
        · exact .inr ⟨first, by simp, rfl⟩
        · rcases ih h with hmem | ⟨whole, hmem, rfl⟩
          · exact .inl (by simp [hmem])
          · exact .inr ⟨whole, by simp [hmem], rfl⟩
      · simp

/-- Trimming the ends of lines leaves the lines that there are. -/
theorem splitLines_trimLineEnds (cs : List Char) :
    splitLines (joinLines (trimLineEnds (splitLines cs))) = trimLineEnds (splitLines cs) := by
  have hne : trimLineEnds (splitLines cs) ≠ [] := by
    cases hlines : splitLines cs with
    | nil => exact absurd hlines (splitLines_ne_nil cs)
    | cons line lines => cases lines <;> simp [trimLineEnds]
  refine splitLines_joinLines hne fun line hline => ?_
  rcases mem_trimLineEnds hline with hmem | ⟨whole, hmem, rfl⟩
  · exact not_mem_of_mem_splitLines hmem
  · obtain ⟨tail, hwhole, -⟩ := dropEndWhile_append isIndentChar whole
    have hno := not_mem_of_mem_splitLines hmem
    rw [← hwhole, List.mem_append, not_or] at hno
    exact hno.1

theorem codeLines_trimLineEnds (cs : List Char) :
    codeLines (joinLines (trimLineEnds (splitLines cs))) = codeLines cs := by
  rw [codeLines, splitLines_trimLineEnds, filterMap_codeLine_trimLineEnds]
  rfl

/-- A line feed comes after a line that is not the whole text. -/
theorem exists_lineFeed (cs : List Char) (h : (cs.takeWhile (· ≠ '\n')).length < cs.length) :
    ∃ more, cs = cs.takeWhile (· ≠ '\n') ++ '\n' :: more := by
  have hsplit := List.takeWhile_append_dropWhile (p := (· ≠ '\n')) (l := cs)
  cases hdrop : cs.dropWhile (· ≠ '\n') with
  | nil =>
    rw [hdrop, List.append_nil] at hsplit
    rw [hsplit] at h
    omega
  | cons d more =>
    have hhead := List.head?_dropWhile_not (· ≠ '\n') cs
    rw [hdrop] at hhead hsplit
    obtain rfl : d = '\n' := by simpa using hhead
    exact ⟨more, hsplit.symm⟩

/-- The blanks that go at the start are those through the last line feed among them. -/
theorem trimLeadingLines_eq (cs : List Char) : trimLeadingLines cs = cs ∨
    ∃ blanks, (∀ c ∈ blanks, isBlank c = true) ∧ cs = blanks ++ '\n' :: trimLeadingLines cs := by
  unfold trimLeadingLines
  dsimp only
  split
  · exact .inl rfl
  · next hthrough =>
    obtain ⟨rest, hcs, hall⟩ : ∃ rest, cs = cs.takeWhile isBlank ++ rest ∧
        ∀ c ∈ cs.takeWhile isBlank, isBlank c = true :=
      ⟨cs.dropWhile isBlank, List.takeWhile_append_dropWhile.symm, fun c hc =>
        List.mem_takeWhile_imp hc⟩
    generalize cs.takeWhile isBlank = blanks at *
    subst hcs
    obtain ⟨more, hmore⟩ := exists_lineFeed blanks.reverse (by simp at hthrough ⊢; omega)
    generalize blanks.reverse.takeWhile (· ≠ '\n') = last at *
    obtain rfl : blanks = (more.reverse ++ ['\n']) ++ last.reverse := by
      simpa using congrArg List.reverse hmore
    have hthrough : ((more.reverse ++ ['\n']) ++ last.reverse).length - last.length =
        (more.reverse ++ ['\n']).length := by
      simp
      omega
    refine .inr ⟨more.reverse, fun c hc => hall c (by simp [List.mem_reverse.mp hc]), ?_⟩
    rw [hthrough, List.append_assoc _ last.reverse, List.drop_left, List.append_assoc more.reverse,
      List.singleton_append]

/-- The blanks that go at the end are those behind the first line feed among them. -/
theorem trimTrailingLines_eq (cs : List Char) : trimTrailingLines cs = cs ∨
    ∃ before blanks, (∀ c ∈ blanks, isBlank c = true) ∧ cs = before ++ '\n' :: blanks ∧
      trimTrailingLines cs = before ++ ['\n'] := by
  unfold trimTrailingLines
  dsimp only
  split
  · next hshort =>
    obtain ⟨body, hcs, hall⟩ : ∃ body, cs = body ++ (cs.reverse.takeWhile isBlank).reverse ∧
        ∀ c ∈ (cs.reverse.takeWhile isBlank).reverse, isBlank c = true := by
      refine ⟨(cs.reverse.dropWhile isBlank).reverse, ?_, fun c hc => ?_⟩
      · rw [← List.reverse_append, List.takeWhile_append_dropWhile, List.reverse_reverse]
      · exact List.mem_takeWhile_imp (List.mem_reverse.mp hc)
    generalize (cs.reverse.takeWhile isBlank).reverse = blanks at *
    subst hcs
    obtain ⟨more, hmore⟩ := exists_lineFeed blanks (by omega)
    have hbody : (body ++ blanks).take ((body ++ blanks).length - blanks.length) = body := by
      simp
    refine .inr ⟨body ++ blanks.takeWhile (· ≠ '\n'), more, fun c hc => ?_, ?_, by rw [hbody]⟩
    · exact hall c (by rw [hmore]; simp [hc])
    · rw [List.append_assoc, ← hmore]
  · exact .inl rfl

theorem codeLines_trimLeadingLines (cs : List Char) :
    codeLines (trimLeadingLines cs) = codeLines cs := by
  rcases trimLeadingLines_eq cs with heq | ⟨blanks, hblanks, hcs⟩
  · rw [heq]
  · conv_rhs => rw [hcs, codeLines_append, codeLines_of_blank hblanks, List.nil_append]

theorem codeLines_trimTrailingLines (cs : List Char) :
    codeLines (trimTrailingLines cs) = codeLines cs := by
  rcases trimTrailingLines_eq cs with heq | ⟨before, blanks, hblanks, hcs, htrim⟩
  · rw [heq]
  · rw [htrim, codeLines_concat, hcs, codeLines_append, codeLines_of_blank hblanks,
      List.append_nil]

/-- The final trimming keeps all lines of code. -/
theorem codeLines_tidy (text : String) : codeLines (tidy text).toList = codeLines text.toList := by
  rw [tidy, String.toList_ofList, codeLines_trimLineEnds, codeLines_trimTrailingLines,
    codeLines_trimLeadingLines]

/-! ## A program with its definitions -/

theorem codeLines_newlines {ds : List Char} (h : ∀ c ∈ ds, c = '\n') (cs : List Char) :
    codeLines (ds ++ cs) = codeLines cs := by
  induction ds with
  | nil => rfl
  | cons d ds ih =>
    obtain rfl := h d (by simp)
    rw [List.cons_append, codeLines_cons, ih fun c hc => h c (by simp [hc])]

theorem codeLines_dropEndWhile (cs : List Char) :
    codeLines (dropEndWhile (· = '\n') cs) = codeLines cs := by
  obtain ⟨tail, hcs, htail⟩ := dropEndWhile_append (· = '\n') cs
  conv_rhs => rw [← hcs]
  cases tail with
  | nil => rw [List.append_nil]
  | cons c tail =>
    obtain rfl : c = '\n' := by simpa using htail c (by simp)
    have hfeeds : ∀ c ∈ tail, c = '\n' := fun c hc => by simpa using htail c (by simp [hc])
    have hrest := codeLines_newlines hfeeds []
    rw [List.append_nil, codeLines_nil] at hrest
    rw [codeLines_append, hrest, List.append_nil]

theorem codeLines_trimNewlines (text : String) :
    codeLines (trimNewlines text).toList = codeLines text.toList := by
  rw [trimNewlines, String.toList_ofList, trimWhile, codeLines_dropEndWhile]
  have hfeeds : ∀ c ∈ text.toList.takeWhile (· = '\n'), c = '\n' := fun c hc => by
    simpa using List.mem_takeWhile_imp hc
  rw [← codeLines_newlines hfeeds, List.takeWhile_append_dropWhile]

/-- The lines of texts with line feeds between them. -/
theorem codeLines_joinWith {separator : String} (feeds : List Char)
    (hseparator : separator.toList = '\n' :: feeds) (hfeeds : ∀ c ∈ feeds, c = '\n')
    (texts : List String) :
    codeLines (joinWith separator texts).toList =
      texts.flatMap fun text => codeLines text.toList := by
  induction texts with
  | nil => simp [joinWith]
  | cons text texts ih =>
    cases texts with
    | nil => simp [joinWith]
    | cons next rest =>
      rw [joinWith, String.toList_append, String.toList_append, hseparator, List.append_assoc,
        List.cons_append, codeLines_append, codeLines_newlines hfeeds, ih, List.flatMap_cons]
      · rfl
      · simp

/-- The lines of the definitions of a program, those of imports first. -/
def definitionLines (entries : List (String × String)) : List (Nat × String) :=
  ((entries.filter fun entry => Scene.isImportKey entry.1).flatMap fun entry =>
      codeLines (strip entry.2).toList) ++
    (entries.filter fun entry => !Scene.isImportKey entry.1).flatMap fun entry =>
      codeLines entry.2.toList

theorem codeLines_others (entries : List (String × String)) :
    ((entries.filter fun entry => !Scene.isImportKey entry.1 && !isBlankText entry.2).map
        fun entry => trimNewlines entry.2).flatMap (fun text => codeLines text.toList) =
      (entries.filter fun entry => !Scene.isImportKey entry.1).flatMap fun entry =>
        codeLines entry.2.toList := by
  induction entries with
  | nil => rfl
  | cons entry entries ih =>
    cases himport : Scene.isImportKey entry.1 with
    | true => simpa [List.filter_cons, himport] using ih
    | false =>
      cases hblank : isBlankText entry.2 with
      | true =>
        have hnone : codeLines entry.2.toList = [] :=
          codeLines_of_blank (List.all_eq_true.mp hblank)
        simpa [List.filter_cons, himport, hblank, hnone] using ih
      | false => simpa [List.filter_cons, himport, hblank, codeLines_trimNewlines] using ih

theorem flatMap_filter_ne_empty (texts : List String) :
    (texts.filter (· ≠ "")).flatMap (fun text => codeLines text.toList) =
      texts.flatMap fun text => codeLines text.toList := by
  induction texts with
  | nil => rfl
  | cons text texts ih =>
    by_cases hempty : text = ""
    · simpa [List.filter_cons, hempty] using ih
    · simpa [List.filter_cons, hempty] using ih

/-- The lines of a program with its definitions. -/
theorem codeLines_withImportsFirst (entries : List (String × String)) (code : String) :
    codeLines (Scene.withImportsFirst entries code).toList =
      definitionLines entries ++ codeLines code.toList := by
  unfold Scene.withImportsFirst
  dsimp only
  generalize himports : (entries.filter fun entry => Scene.isImportKey entry.1).map
    (fun entry => strip entry.2) = imports
  generalize hothers : (entries.filter fun entry => !Scene.isImportKey entry.1 &&
    !isBlankText entry.2).map (fun entry => trimNewlines entry.2) = others
  have hparts : ([joinWith "\n" imports, joinWith "\n\n" others].filter (· ≠ "")).flatMap
      (fun text => codeLines text.toList) = definitionLines entries := by
    rw [flatMap_filter_ne_empty, definitionLines, ← codeLines_others, hothers]
    simp only [List.flatMap_cons, List.flatMap_nil, List.append_nil]
    rw [codeLines_joinWith [] rfl (by simp),
      codeLines_joinWith ['\n'] rfl (by simp), ← himports, List.flatMap_map]
  split
  · next hnone =>
    rw [List.isEmpty_iff.mp hnone] at hparts
    rw [← hparts]
    rfl
  · rw [String.toList_append, String.toList_append, List.append_assoc,
      show "\n\n\n".toList = ['\n', '\n', '\n'] from rfl]
    simp only [List.cons_append, List.nil_append, codeLines_append, codeLines_cons]
    rw [codeLines_joinWith ['\n'] rfl (by simp), hparts]

/-! ## Indentation -/

/-- A line so many spaces further to the right. -/
def shift {α : Type} (width : Nat) (line : Nat × α) : Nat × α :=
  (width + line.1, line.2)

/-- What is ahead of a line that is not blank. -/
theorem dropEndWhile_append_line (lead : List Char) {line : List Char}
    (hline : ¬line.all isBlank = true) :
    dropEndWhile isIndentChar (lead ++ line) = lead ++ dropEndWhile isIndentChar line := by
  obtain ⟨c, hc, hdark⟩ := List.all_eq_false.mp (Bool.eq_false_iff.mpr hline)
  have hsome : line.reverse.dropWhile isIndentChar ≠ [] := fun hnil =>
    hdark (isBlank_of_isIndentChar (List.dropWhile_eq_nil_iff.mp hnil c (by simpa using hc)))
  rw [dropEndWhile, dropEndWhile, List.reverse_append, List.dropWhile_append,
    if_neg (by simpa [List.isEmpty_iff] using hsome), List.reverse_append, List.reverse_reverse]

theorem codeLine_spaces (width : Nat) (line : List Char) :
    codeLine (List.replicate width ' ' ++ line) = (codeLine line).map (shift width) := by
  have hspaces : (List.replicate width ' ').all isBlank = true :=
    List.all_eq_true.mpr fun c hc => by rw [(List.mem_replicate.mp hc).2]; decide
  by_cases hblank : line.all isBlank = true
  · rw [codeLine, codeLine, List.all_append, hspaces, hblank]
    rfl
  · rw [codeLine, codeLine, List.all_append, hspaces, Bool.true_and, if_neg hblank, if_neg hblank,
      dropEndWhile_append_line _ hblank]
    have hall : ∀ c ∈ List.replicate width ' ', decide (c = ' ') = true := fun c hc => by
      simpa using (List.mem_replicate.mp hc).2
    simp [shift, List.takeWhile_append_of_pos hall, List.dropWhile_append_of_pos hall]

/-- What is found in lines with others ahead of them, line by line. -/
theorem filterMap_leadLines {β : Type} {read : List Char → Option β} {change : β → β}
    {lead : List Char} (hempty : read [] = none)
    (hlead : ∀ line, read (lead ++ line) = (read line).map change) (lines : List (List Char)) :
    (leadLines lead lines).filterMap read = (lines.filterMap read).map change := by
  have hline : ∀ line, [lead ++ line].filterMap read = ([line].filterMap read).map change :=
    fun line => by
      rw [List.filterMap_cons, List.filterMap_cons, hlead]
      cases read line <;> rfl
  induction lines with
  | nil => rfl
  | cons line lines ih =>
    cases lines with
    | nil =>
      rw [leadLines]
      split
      · next hnone =>
        rw [List.isEmpty_iff.mp hnone]
        simp [hempty]
      · exact hline line
    | cons next rest =>
      rw [leadLines, ← List.singleton_append, List.filterMap_append, ih, hline,
        ← List.map_append, ← List.filterMap_append, List.singleton_append]
      simp

theorem not_mem_of_mem_leadLines {lead : List Char} (hlead : '\n' ∉ lead)
    {lines : List (List Char)} (h : ∀ line ∈ lines, '\n' ∉ line) {line : List Char}
    (hline : line ∈ leadLines lead lines) : '\n' ∉ line := by
  induction lines with
  | nil => cases hline
  | cons first lines ih =>
    have hfirst : '\n' ∉ lead ++ first := by simp [hlead, h first (by simp)]
    cases lines with
    | nil =>
      rw [leadLines] at hline
      split at hline
      · rw [List.mem_singleton.mp hline]
        exact List.not_mem_nil
      · rw [List.mem_singleton.mp hline]
        exact hfirst
    | cons next rest =>
      rw [leadLines] at hline
      · rcases List.mem_cons.mp hline with rfl | hline
        · exact hfirst
        · exact ih (fun other hother => h other (by simp [hother])) hline
      · simp

/-- What is found in the lines of an indented text. -/
theorem filterMap_indentLines {β : Type} {read : List Char → Option β} {change : β → β}
    {unit : String} (hempty : read [] = none)
    (hlead : ∀ line, read (unit.toList ++ line) = (read line).map change)
    (hunit : '\n' ∉ unit.toList) (text : String) :
    (splitLines (indentLines text unit).toList).filterMap read =
      ((splitLines text.toList).filterMap read).map change := by
  rw [toList_indentLines, indentChars,
    splitLines_joinLines (leadLines_ne_nil _ (splitLines_ne_nil _))
      fun line hline => not_mem_of_mem_leadLines hunit
        (fun line hline => not_mem_of_mem_splitLines hline) hline,
    filterMap_leadLines hempty hlead]

/-- Text that is indented by spaces. -/
theorem codeLines_indentLines {unit : String} {width : Nat}
    (hunit : unit.toList = List.replicate width ' ') (text : String) :
    codeLines (indentLines text unit).toList = (codeLines text.toList).map (shift width) :=
  filterMap_indentLines rfl (fun line => by rw [hunit, codeLine_spaces]) (by simp [hunit]) text

namespace Outline

variable {α β : Type}

/-- The lines of an outline with their indentation, where `width` spaces are one unit. -/
def layout (width : Nat) : Outline α → List (Nat × α)
  | .nil => []
  | .line label inside rest =>
    (0, label) :: (layout width inside).map (shift width) ++ layout width rest

/-- The lines of an outline, by their depth. -/
theorem codeLines_text {unit : String} {width : Nat} {code : String → String}
    (hunit : unit.toList = List.replicate width ' ') {outline : Outline String}
    (h : outline.All fun text => IsLines text ∧ codeLines text.toList = [(0, code text)]) :
    codeLines (outline.text unit).toList = (outline.map code).layout width := by
  induction outline with
  | nil => simp [layout]
  | line label inside rest ihInside ihRest =>
    obtain ⟨⟨hlabel, hlines⟩, hinside, hrest⟩ := h
    have hpiece : IsPiece (indentLines (inside.text unit) unit) := by
      have hwhole : IsPiece (inside.text unit) := isPiece_text (hinside.mono fun _ h => h.1)
      rcases hwhole with hempty | hsome
      · exact .inl (by rw [hempty, indentLines_empty])
      · exact .inr (hsome.indentLines unit)
    rw [text, String.toList_append, String.toList_append, List.append_assoc,
      codeLines_of_isPiece (.inr hlabel), codeLines_of_isPiece hpiece,
      codeLines_indentLines hunit, hlines, ihInside hinside, ihRest hrest]
    rfl

end Outline

end BlockScript
