import BlockScript.Proofs.Text.Noted

/-!
# Trimming texts with comments

What is trimmed at the two ends of a text, and at the ends of its lines, is the same with
comments and without them: comments stand ahead of lines that are not blank, so neither
the blank lines at the start nor those at the end have any among them.

Results:

* `Annotates.exists_start`, `Annotates.exists_end`: the two ends of texts that differ.
* `Annotates.tidy`: the final trimming keeps comments apart.
-/

namespace BlockScript.Text

variable {mark blanks rest before after tail : List Char} {text plain : List Char} {c : Char}
  {lines plainLines : List (List Char)} {line next : List Char}

/-! ## The ends of a text -/

/-- Whether a text starts with blank lines and then one that is not blank. -/
structure BlankAhead (blanks rest : List Char) : Prop where
  blank (c : Char) (h : c ∈ blanks) : isBlank c = true
  ended : blanks = [] ∨ blanks.getLast? = some '\n'
  level : '\n' ∉ rest.takeWhile isBlank

theorem endLines_ended (lines : List (List Char)) :
    endLines lines = [] ∨ (endLines lines).getLast? = some '\n' := by
  cases lines using List.reverseRecOn with
  | nil => exact .inl rfl
  | append_singleton lines line => exact .inr (by simp)

/-- What follows a line that is not blank is not among its first blanks. -/
theorem takeWhile_append_of_dark (h : line.all isBlank = false) (more : List Char) :
    (line ++ more).takeWhile isBlank = line.takeWhile isBlank := by
  have hshort : (line.takeWhile isBlank).length ≠ line.length := by
    intro hlength
    have hall := List.takeWhile_eq_self_iff.mp
      ((List.takeWhile_prefix isBlank).eq_of_length hlength)
    rw [List.all_eq_true.mpr hall] at h
    cases h
  rw [List.takeWhile_append, if_neg hshort]

/-- Blank lines ahead of a line that is not blank. -/
theorem blankAhead_of_lines (hblank : ∀ line ∈ lines, line.all isBlank = true)
    (hnext : next.all isBlank = false) (hfeed : '\n' ∉ next) (rest : List (List Char)) :
    BlankAhead (endLines lines) (joinLines (next :: rest)) where
  blank c hc := by
    obtain ⟨line, hline, hmem⟩ := List.mem_flatMap.mp hc
    rcases List.mem_append.mp hmem with hmem | hmem
    · exact List.all_eq_true.mp (hblank line hline) c hmem
    · rw [List.mem_singleton.mp hmem]
      decide
  ended := endLines_ended lines
  level := by
    have hstart : ∃ more, joinLines (next :: rest) = next ++ more := by
      cases rest with
      | nil => exact ⟨[], (List.append_nil next).symm⟩
      | cons second rest => exact ⟨_, rfl⟩
    obtain ⟨more, hmore⟩ := hstart
    rw [hmore, takeWhile_append_of_dark hnext]
    exact fun hmem => hfeed ((List.takeWhile_prefix isBlank).subset hmem)

/-- A line with blank lines after it. -/
theorem joinLines_of_blank (h : ∀ line ∈ lines, line.all isBlank = true) (line : List Char) :
    ∃ blanks, joinLines (line :: lines) = line ++ blanks ∧ ∀ c ∈ blanks, isBlank c = true := by
  cases lines with
  | nil => exact ⟨[], (List.append_nil line).symm, by simp⟩
  | cons next lines =>
    refine ⟨_, rfl, fun c hc => ?_⟩
    rcases List.mem_cons.mp hc with rfl | hmem
    · decide
    · have hall : (joinLines (next :: lines)).all isBlank = true := by
        rw [all_isBlank_joinLines]
        exact List.all_eq_true.mpr h
      exact List.all_eq_true.mp hall c hmem

namespace Annotates

variable (hmark : IsMark mark)
include hmark

/-- Texts that differ start with the same blank lines. -/
theorem exists_start (h : Annotates mark text plain) : text = plain ∨
    ∃ blanks rest plainRest, text = blanks ++ rest ∧ plain = blanks ++ plainRest ∧
      BlankAhead blanks rest ∧ BlankAhead blanks plainRest ∧ Annotates mark rest plainRest := by
  unfold Annotates at h
  rcases h.exists_start hmark with heq |
    ⟨blanks, next, lines, next', lines', htext, hplain, hblanks, hnext, hnext', hrest⟩
  · exact .inl (by rw [← joinLines_splitLines text, heq, joinLines_splitLines])
  · have hfeed : ∀ line ∈ next :: lines, '\n' ∉ line := by
      intro line hline
      have hmem : line ∈ splitLines text := htext ▸ List.mem_append_right _ hline
      exact not_mem_of_mem_splitLines hmem
    have hfeed' : ∀ line ∈ next' :: lines', '\n' ∉ line := by
      intro line hline
      have hmem : line ∈ splitLines plain := hplain ▸ List.mem_append_right _ hline
      exact not_mem_of_mem_splitLines hmem
    refine .inr ⟨endLines blanks, joinLines (next :: lines), joinLines (next' :: lines'), ?_, ?_,
      blankAhead_of_lines hblanks hnext (hfeed next List.mem_cons_self) lines,
      blankAhead_of_lines hblanks hnext' (hfeed' next' List.mem_cons_self) lines', ?_⟩
    · rw [← joinLines_append _ (List.cons_ne_nil _ _), ← htext, joinLines_splitLines]
    · rw [← joinLines_append _ (List.cons_ne_nil _ _), ← hplain, joinLines_splitLines]
    · unfold Annotates
      rwa [splitLines_joinLines (List.cons_ne_nil _ _) hfeed,
        splitLines_joinLines (List.cons_ne_nil _ _) hfeed']

omit hmark in
/-- Texts that differ are the same from the last character on that is not blank, whatever
    blanks come after it. -/
theorem exists_end (h : Annotates mark text plain) : text = plain ∨
    ∃ before plainBefore c tail, text = before ++ c :: tail ∧ plain = plainBefore ++ c :: tail ∧
      isBlank c = false ∧ (∀ d ∈ tail, isBlank d = true) ∧
      ∀ other, Annotates mark (before ++ c :: other) (plainBefore ++ c :: other) := by
  unfold Annotates at h
  rcases h.exists_end with heq | ⟨ahead, plainAhead, last, after, htext, hplain, hlast, hafter, hmore⟩
  · exact .inl (by rw [← joinLines_splitLines text, heq, joinLines_splitLines])
  · obtain ⟨start, c, blanks, rfl, hc, hblanks⟩ :=
      exists_last_not (p := isBlank) (by simpa using List.all_eq_false.mp hlast)
    obtain ⟨end', hend, hend'⟩ := joinLines_of_blank hafter (start ++ c :: blanks)
    have hfeed : '\n' ∉ start ++ [c] := by
      have hmem : start ++ c :: blanks ∈ splitLines text := by simp [htext]
      have hno := not_mem_of_mem_splitLines hmem
      simp_all
    refine .inr ⟨endLines ahead ++ start, endLines plainAhead ++ start, c, blanks ++ end', ?_, ?_, hc,
      fun d hd => (List.mem_append.mp hd).elim (hblanks d) (hend' d), fun other => ?_⟩
    · rw [← joinLines_splitLines text, htext, joinLines_append _ (List.cons_ne_nil _ _), hend]
      simp
    · rw [← joinLines_splitLines plain, hplain, joinLines_append _ (List.cons_ne_nil _ _), hend]
      simp
    · have hfeeds : ∀ line ∈ ahead, '\n' ∉ line := by
        intro line hline
        have hmem : line ∈ splitLines text := htext ▸ List.mem_append_left _ hline
        exact not_mem_of_mem_splitLines hmem
      have hfeeds' : ∀ line ∈ plainAhead, '\n' ∉ line := by
        intro line hline
        have hmem : line ∈ splitLines plain := hplain ▸ List.mem_append_left _ hline
        exact not_mem_of_mem_splitLines hmem
      have hdark : (start ++ [c]).all isBlank = false :=
        List.all_eq_false.mpr ⟨c, by simp, by simp [hc]⟩
      obtain ⟨first, more, hsplit, hfirst⟩ := startsDark_append hdark hfeed other
      rw [List.append_assoc, List.singleton_append] at hsplit
      unfold Annotates
      rw [List.append_assoc, List.append_assoc, splitLines_endLines_append hfeeds,
        splitLines_endLines_append hfeeds', hsplit]
      exact hmore first more hfirst

end Annotates

/-! ## Trimming -/

theorem isBlank_lineFeed : isBlank '\n' = true := by
  decide

/-- Read backwards from the first character that is not blank, the last line among the blanks
    comes first. -/
theorem BlankAhead.takeWhile_reverse (h : BlankAhead blanks rest) :
    ((blanks ++ rest).takeWhile isBlank).reverse.takeWhile (· ≠ '\n') =
      (rest.takeWhile isBlank).reverse := by
  have hlevel : ∀ c ∈ (rest.takeWhile isBlank).reverse, decide (c ≠ '\n') = true := by
    intro c hc
    have hne : c ≠ '\n' := fun heq => h.level (heq ▸ List.mem_reverse.mp hc)
    simpa using hne
  have hended : blanks.reverse.takeWhile (· ≠ '\n') = [] := by
    rcases h.ended with rfl | hlast
    · rfl
    · obtain ⟨cs, rfl⟩ := List.getLast?_eq_some_iff.mp hlast
      simp
  rw [List.takeWhile_append_of_pos h.blank, List.reverse_append,
    List.takeWhile_append_of_pos hlevel, hended, List.append_nil]

/-- Blank lines are trimmed at the start, but for a single line feed. -/
theorem BlankAhead.trimLeadingLines_append (h : BlankAhead blanks rest) :
    trimLeadingLines (blanks ++ rest) =
      if blanks.length ≤ 1 then blanks ++ rest else rest := by
  have hlength : ((blanks ++ rest).takeWhile isBlank).length =
      blanks.length + (rest.takeWhile isBlank).length := by
    rw [List.takeWhile_append_of_pos h.blank, List.length_append]
  unfold trimLeadingLines
  simp only [h.takeWhile_reverse, hlength, List.length_reverse, Nat.add_sub_cancel, List.drop_left]

/-- Line feeds are dropped at the start. -/
theorem BlankAhead.dropFeeds_append (h : BlankAhead blanks rest) :
    (blanks ++ rest).dropWhile (· = '\n') = blanks.dropWhile (· = '\n') ++ rest := by
  rw [List.dropWhile_append]
  split
  · next hempty =>
    rw [List.isEmpty_iff.mp hempty, List.nil_append, List.dropWhile_eq_self_iff]
    intro hne
    cases rest with
    | nil => exact absurd hne (Nat.lt_irrefl 0)
    | cons c rest =>
      simp only [List.getElem_cons_zero, decide_eq_true_eq]
      rintro rfl
      exact h.level (by simp [isBlank_lineFeed])
  · rfl

/-- What is trimmed after the last character that is not blank. -/
theorem trimTrailingLines_append (hc : isBlank c = false) (htail : ∀ d ∈ tail, isBlank d = true)
    (before : List Char) : trimTrailingLines (before ++ c :: tail) =
      before ++ c :: (if (tail.takeWhile (· ≠ '\n')).length + 1 < tail.length then
        tail.takeWhile (· ≠ '\n') ++ ['\n'] else tail) := by
  have hblanks : ((before ++ c :: tail).reverse.takeWhile isBlank).reverse = tail := by
    have hrev : (before ++ c :: tail).reverse = tail.reverse ++ c :: before.reverse := by simp
    rw [hrev, List.takeWhile_append_of_pos fun d hd => htail d (List.mem_reverse.mp hd),
      List.takeWhile_cons_of_neg (by simp [hc]), List.append_nil, List.reverse_reverse]
  have hbody : (before ++ c :: tail).take ((before ++ c :: tail).length - tail.length) =
      before ++ [c] := by
    have hsplit : before ++ c :: tail = (before ++ [c]) ++ tail := by simp
    rw [hsplit, List.length_append, Nat.add_sub_cancel, List.take_left]
  unfold trimTrailingLines
  simp only [hblanks, hbody]
  split <;> simp

/-- What is dropped after the last character that stays. -/
theorem dropEndWhile_append_cons {p : Char → Bool} (hc : p c = false) (before tail : List Char) :
    dropEndWhile p (before ++ c :: tail) = before ++ c :: dropEndWhile p tail := by
  have hrev : (before ++ c :: tail).reverse = tail.reverse ++ c :: before.reverse := by simp
  rw [dropEndWhile, hrev, List.dropWhile_append, dropEndWhile]
  split
  · next hempty =>
    rw [List.dropWhile_cons_of_neg (by simp [hc]), List.isEmpty_iff.mp hempty]
    simp
  · simp

theorem trimLineEnds_cons (line : List Char) (h : lines ≠ []) :
    trimLineEnds (line :: lines) = dropEndWhile isIndentChar line :: trimLineEnds lines := by
  cases lines with
  | nil => exact absurd rfl h
  | cons next lines => rfl

/-- The lines of a text that is put together are trimmed part by part. -/
theorem trimLineEnds_append (lines : List (List Char)) {rest : List (List Char)} (h : rest ≠ []) :
    trimLineEnds (lines ++ rest) = lines.map (dropEndWhile isIndentChar) ++ trimLineEnds rest := by
  induction lines with
  | nil => rfl
  | cons line lines ih =>
    rw [List.cons_append, trimLineEnds_cons _ (by simp [h]), ih, List.map_cons, List.cons_append]

/-- A comment is still one without blanks at its end. -/
theorem IsMark.isCommentLine_dropEndWhile (hmark : IsMark mark)
    (h : isCommentLine mark line = true) :
    isCommentLine mark (dropEndWhile isIndentChar line) = true := by
  obtain ⟨rest, hline⟩ := isCommentLine_iff.mp h
  have hblanks : ∀ c ∈ line.takeWhile isBlank, isBlank c = true := fun c hc =>
    List.mem_takeWhile_imp hc
  generalize line.takeWhile isBlank = blanks at hline hblanks
  subst hline
  cases mark using List.reverseRecOn with
  | nil => exact absurd rfl hmark.ne_nil
  | append_singleton start c =>
    have hc : isIndentChar c = false := by
      rw [Bool.eq_false_iff]
      intro hindent
      have hdark := hmark.dark c (by simp)
      rw [isBlank_of_isIndentChar hindent] at hdark
      cases hdark
    have hsplit : blanks ++ (start ++ [c] ++ rest) = (blanks ++ start) ++ c :: rest := by simp
    rw [hsplit, dropEndWhile_append_cons hc]
    simpa using hmark.isCommentLine_of_blank hblanks (dropEndWhile isIndentChar rest)

theorem Annotated.trimLineEnds (hmark : IsMark mark) (h : Annotated mark lines plainLines) :
    Annotated mark (trimLineEnds lines) (trimLineEnds plainLines) := by
  induction h with
  | nil => exact .nil
  | @line first lines plain hrest ih =>
    by_cases hnil : lines = []
    · obtain rfl := hrest.eq_nil_iff.mp hnil
      subst hnil
      exact .refl _
    · rw [trimLineEnds_cons _ hnil, trimLineEnds_cons _ fun hno => hnil (hrest.eq_nil_iff.mpr hno)]
      exact .line _ ih
  | @comment first next lines plain hline hnext _ ih =>
    have hnextKept : ∃ next' lines', Text.trimLineEnds (next :: lines) = next' :: lines' ∧
        next'.all isBlank = false := by
      cases lines with
      | nil => exact ⟨next, [], rfl, hnext⟩
      | cons second lines => exact ⟨_, _, rfl, (all_isBlank_dropEndWhile next).trans hnext⟩
    obtain ⟨next', lines', hlines, hnext'⟩ := hnextKept
    rw [trimLineEnds_cons _ (List.cons_ne_nil _ _)]
    rw [hlines] at ih ⊢
    exact .comment (hmark.isCommentLine_dropEndWhile hline) hnext' ih

namespace Annotates

variable (hmark : IsMark mark) (h : Annotates mark text plain)
include h

section Ends

include hmark

/-- Trimming at the start. -/
theorem trimLeadingLines :
    Annotates mark (trimLeadingLines text) (trimLeadingLines plain) := by
  rcases h.exists_start hmark with rfl |
    ⟨blanks, rest, plainRest, rfl, rfl, hblanks, hplain, hrest⟩
  · exact .refl _
  · rw [hblanks.trimLeadingLines_append, hplain.trimLeadingLines_append]
    split
    · exact h
    · exact hrest

/-- Dropping line feeds at the start. -/
theorem dropFeeds : Annotates mark (text.dropWhile (· = '\n')) (plain.dropWhile (· = '\n')) := by
  rcases h.exists_start hmark with rfl |
    ⟨blanks, rest, plainRest, rfl, rfl, hblanks, hplain, hrest⟩
  · exact .refl _
  · rw [hblanks.dropFeeds_append, hplain.dropFeeds_append]
    refine hrest.append_left ?_
    by_cases hnil : blanks.dropWhile (· = '\n') = []
    · exact .inl hnil
    · rcases hblanks.ended with rfl | hlast
      · exact .inl rfl
      · obtain ⟨before, hbefore⟩ := List.dropWhile_suffix (l := blanks) (· = '\n')
        rw [← hbefore, List.getLast?_append_of_ne_nil _ hnil] at hlast
        exact .inr hlast

end Ends

/-- Trimming at the end. -/
theorem trimTrailingLines :
    Annotates mark (trimTrailingLines text) (trimTrailingLines plain) := by
  rcases h.exists_end with rfl | ⟨before, plainBefore, c, tail, rfl, rfl, hc, htail, hother⟩
  · exact .refl _
  · rw [trimTrailingLines_append hc htail, trimTrailingLines_append hc htail]
    exact hother _

/-- Dropping line feeds at the end. -/
theorem dropEndFeeds :
    Annotates mark (dropEndWhile (· = '\n') text) (dropEndWhile (· = '\n') plain) := by
  rcases h.exists_end with rfl | ⟨before, plainBefore, c, tail, rfl, rfl, hc, -, hother⟩
  · exact .refl _
  · have hfeed : decide (c = '\n') = false := by
      refine decide_eq_false fun heq => ?_
      rw [heq, isBlank_lineFeed] at hc
      cases hc
    rw [dropEndWhile_append_cons hfeed, dropEndWhile_append_cons hfeed]
    exact hother _

/-- Trimming the ends of lines. -/
theorem trimLineEnds (hmark : IsMark mark) :
    Annotates mark (joinLines (trimLineEnds (splitLines text)))
      (joinLines (trimLineEnds (splitLines plain))) := by
  unfold Annotates
  rw [splitLines_trimLineEnds, splitLines_trimLineEnds]
  exact Annotated.trimLineEnds hmark h

end Annotates

/-! ## Trimmed texts -/

section Strings

variable {code plainCode : String}

theorem Annotates.dropNewlines (h : Annotates mark code.toList plainCode.toList) :
    Annotates mark (dropNewlines code).toList (dropNewlines plainCode).toList := by
  rw [Text.dropNewlines, Text.dropNewlines, String.toList_ofList, String.toList_ofList]
  exact h.dropEndFeeds

variable (hmark : IsMark mark)
include hmark

theorem Annotates.trimNewlines (h : Annotates mark code.toList plainCode.toList) :
    Annotates mark (trimNewlines code).toList (trimNewlines plainCode).toList := by
  rw [Text.trimNewlines, Text.trimNewlines, String.toList_ofList, String.toList_ofList]
  exact (h.dropFeeds hmark).dropEndFeeds

/-- The final trimming keeps comments apart. -/
theorem Annotates.tidy (h : Annotates mark code.toList plainCode.toList) :
    Annotates mark (tidy code).toList (tidy plainCode).toList := by
  rw [Text.tidy, Text.tidy, String.toList_ofList, String.toList_ofList]
  exact (h.trimLeadingLines hmark).trimTrailingLines.trimLineEnds hmark

theorem Annotates.isBlankText_eq (h : Annotates mark code.toList plainCode.toList) :
    isBlankText code = isBlankText plainCode :=
  h.isBlank_eq hmark

/-- Texts are whole lines with a line feed at their ends. -/
theorem Annotates.oneTrailingNewline (h : Annotates mark code.toList plainCode.toList) :
    Noted mark (oneTrailingNewline code) (oneTrailingNewline plainCode) := by
  unfold Text.oneTrailingNewline
  rw [h.isBlankText_eq hmark]
  split
  · exact .empty
  · exact .inr ⟨_, _, rfl, rfl, h.dropNewlines⟩

end Strings

end BlockScript.Text
