import BlockScript.Proofs.Text.Trimmed
import Mathlib.Data.List.Forall2

/-!
# Tidied texts

The final trimming looks for three patterns, one after the other: blanks and a line feed
at the start, a line feed and blanks at the end, and spaces or tabs ahead of a line feed.
No later step makes a pattern that an earlier one has removed, so trimming twice is
trimming once. What it leaves of a text are its inner lines, those from the first to the
last one that is not blank.

Results:

* `startsBlank_append_iff`: which texts lose blanks at the start. Read backwards, they are
  those that lose blanks at the end.
* `StartsBlank.of_cutEnds`, `StartsBlank.of_reverse_cutEnds`: cutting the ends of lines
  makes no blanks at the ends of a text.
* `tidy_inner`: the final trimming is idempotent and keeps the inner lines, each with its
  indentation.
-/

namespace BlockScript.Text

variable {blanks rest text before after : List Char} {lines : List (List Char)}

/-! ## Blanks at the ends of a text -/

/-- Whether a text starts with blanks that a line feed comes after. -/
def StartsBlank (text : List Char) : Prop :=
  ∃ blanks rest, blanks ≠ [] ∧ blanks.all isBlank = true ∧ text = blanks ++ '\n' :: rest

theorem StartsBlank.append (h : StartsBlank text) (more : List Char) :
    StartsBlank (text ++ more) := by
  obtain ⟨blanks, rest, hne, hblank, rfl⟩ := h
  exact ⟨blanks, rest ++ more, hne, hblank, by simp⟩

/-- Every text starts with blank lines and then a line that is not blank or the last. -/
theorem exists_blankAhead (text : List Char) :
    ∃ blanks rest, text = blanks ++ rest ∧ BlankAhead blanks rest := by
  have hblank : ∀ c ∈ text.takeWhile isBlank, isBlank c = true := fun c hc =>
    List.mem_takeWhile_imp hc
  have hrest : (text.dropWhile isBlank).takeWhile isBlank = [] :=
    List.takeWhile_eq_nil_iff.mpr fun hlength => by
      simpa using List.dropWhile_get_zero_not isBlank text hlength
  by_cases hfeed : '\n' ∈ text.takeWhile isBlank
  · obtain ⟨above, c, level, hsplit, hc, hlevel⟩ :=
      exists_last_not (p := fun c => decide (c ≠ '\n')) ⟨'\n', hfeed, by simp⟩
    obtain rfl : c = '\n' := by simpa using hc
    rw [hsplit] at hblank
    refine ⟨above ++ ['\n'], level ++ text.dropWhile isBlank, ?_, ?_, .inr (by simp), ?_⟩
    · conv_lhs => rw [← List.takeWhile_append_dropWhile (p := isBlank) (l := text), hsplit]
      simp
    · intro c hc
      rw [List.append_cons] at hblank
      exact hblank c (List.mem_append_left _ hc)
    · rw [List.takeWhile_append_of_pos fun c hc => hblank c (by simp [hc]), hrest, List.append_nil]
      exact fun hmem => by simpa using hlevel _ hmem
  · exact ⟨[], text, rfl, by simp, .inl rfl, hfeed⟩

/-- The first line feed of what follows the blank lines is behind a character that is not
    blank. -/
theorem BlankAhead.all_isBlank_eq_false {start more : List Char}
    (h : BlankAhead blanks (start ++ '\n' :: more)) : start.all isBlank = false := by
  rw [Bool.eq_false_iff]
  intro hstart
  refine h.level ?_
  rw [List.takeWhile_append_of_pos (List.all_eq_true.mp hstart),
    List.takeWhile_cons_of_pos isBlank_lineFeed]
  simp

/-- A text starts with blanks and a line feed if more than one character is ahead of its
    first line that is not blank. -/
theorem startsBlank_append_iff (h : BlankAhead blanks rest) :
    StartsBlank (blanks ++ rest) ↔ 1 < blanks.length := by
  constructor
  · rintro ⟨ahead, more, hne, hahead, htext⟩
    by_contra hshort
    -- at most one character is ahead of the line that the line feed would have to be in
    cases blanks with
    | nil =>
      obtain rfl : rest = ahead ++ '\n' :: more := htext
      rw [h.all_isBlank_eq_false] at hahead
      cases hahead
    | cons c blanks =>
      obtain rfl : blanks = [] := by simpa using hshort
      cases ahead with
      | nil => exact hne rfl
      | cons d ahead =>
        obtain rfl : rest = ahead ++ '\n' :: more := (List.cons.inj htext).2
        rw [List.all_cons, h.all_isBlank_eq_false, Bool.and_false] at hahead
        cases hahead
  · intro hlong
    rcases h.ended with rfl | hlast
    · simp at hlong
    · obtain ⟨ahead, rfl⟩ := List.getLast?_eq_some_iff.mp hlast
      refine ⟨ahead, rest, ?_, ?_, by simp⟩
      · rintro rfl
        simp at hlong
      · exact List.all_eq_true.mpr fun c hc => h.blank c (by simp [hc])

/-- Of the blanks at the end a single line feed stays, told of the text read backwards. -/
theorem BlankAhead.trimTrailingLines_reverse (h : BlankAhead blanks rest) :
    Text.trimTrailingLines (blanks ++ rest).reverse =
      if 1 < blanks.length then ('\n' :: rest).reverse else (blanks ++ rest).reverse := by
  have hlength : ((blanks ++ rest).takeWhile isBlank).reverse.length =
      (rest.takeWhile isBlank).reverse.length + blanks.length := by
    rw [List.length_reverse, List.length_reverse, List.takeWhile_append_of_pos h.blank,
      List.length_append, Nat.add_comm]
  have hsplit : (blanks ++ rest).reverse =
      (rest.dropWhile isBlank).reverse ++ ((blanks ++ rest).takeWhile isBlank).reverse := by
    rw [← List.reverse_append, List.takeWhile_append_of_pos h.blank, List.append_assoc,
      List.takeWhile_append_dropWhile]
  have hbody : (blanks ++ rest).reverse.take ((blanks ++ rest).reverse.length -
      ((blanks ++ rest).takeWhile isBlank).reverse.length) = (rest.dropWhile isBlank).reverse := by
    conv_lhs => rw [hsplit, List.length_append, Nat.add_sub_cancel, List.take_left]
  have hrest : (rest.dropWhile isBlank).reverse ++ (rest.takeWhile isBlank).reverse =
      rest.reverse := by
    rw [← List.reverse_append, List.takeWhile_append_dropWhile]
  unfold Text.trimTrailingLines
  rw [List.reverse_reverse]
  dsimp only
  rw [h.takeWhile_reverse, hbody, hrest, hlength, List.reverse_cons]
  simp only [Nat.add_lt_add_iff_left]

/-! ## Nothing left to trim -/

/-- A text that does not start with blanks and a line feed is not trimmed there. -/
theorem trimLeadingLines_eq_self (h : ¬StartsBlank text) : trimLeadingLines text = text := by
  obtain ⟨blanks, rest, rfl, hblanks⟩ := exists_blankAhead text
  rw [startsBlank_append_iff hblanks, Nat.not_lt] at h
  rw [hblanks.trimLeadingLines_append, if_pos h]

theorem not_startsBlank_trimLeadingLines (text : List Char) :
    ¬StartsBlank (trimLeadingLines text) := by
  obtain ⟨blanks, rest, rfl, hblanks⟩ := exists_blankAhead text
  rw [hblanks.trimLeadingLines_append]
  split
  · next hshort =>
    rwa [startsBlank_append_iff hblanks, Nat.not_lt]
  · have hrest : BlankAhead [] rest := ⟨by simp, .inl rfl, hblanks.level⟩
    simpa using (startsBlank_append_iff hrest).not.mpr (by simp)

/-- A text that does not end in a line feed and blanks is not trimmed there. -/
theorem trimTrailingLines_eq_self (h : ¬StartsBlank text.reverse) :
    trimTrailingLines text = text := by
  obtain ⟨blanks, rest, htext, hblanks⟩ := exists_blankAhead text.reverse
  obtain rfl : text = (blanks ++ rest).reverse := by rw [← htext, List.reverse_reverse]
  rw [htext, startsBlank_append_iff hblanks] at h
  rw [hblanks.trimTrailingLines_reverse, if_neg h]

theorem not_startsBlank_reverse_trimTrailingLines (text : List Char) :
    ¬StartsBlank (trimTrailingLines text).reverse := by
  obtain ⟨blanks, rest, htext, hblanks⟩ := exists_blankAhead text.reverse
  obtain rfl : text = (blanks ++ rest).reverse := by rw [← htext, List.reverse_reverse]
  rw [hblanks.trimTrailingLines_reverse]
  split
  · have hrest : BlankAhead ['\n'] rest :=
      ⟨by simpa using isBlank_lineFeed, .inr rfl, hblanks.level⟩
    rw [List.reverse_reverse]
    exact (startsBlank_append_iff hrest).not.mpr (by simp)
  · next hshort =>
    rwa [List.reverse_reverse, startsBlank_append_iff hblanks]

/-- Trimming at the end leaves the start of a text. -/
theorem StartsBlank.of_trimTrailingLines (h : StartsBlank (trimTrailingLines text)) :
    StartsBlank text := by
  rcases trimTrailingLines_eq text with heq | ⟨before, blanks, -, htext, htrim⟩
  · rwa [heq] at h
  · rw [htrim] at h
    have hsplit : text = (before ++ ['\n']) ++ blanks := by simp [htext]
    exact hsplit ▸ h.append blanks

/-! ## The ends of lines -/

/-- A text without the spaces and tabs ahead of its line feeds. -/
def cutEnds (text : List Char) : List Char :=
  joinLines (trimLineEnds (splitLines text))

/-- The steps of the final trimming. -/
theorem toList_tidy (text : String) :
    (tidy text).toList = cutEnds (trimTrailingLines (trimLeadingLines text.toList)) :=
  String.toList_ofList

theorem trimLineEnds_trimLineEnds (lines : List (List Char)) :
    trimLineEnds (trimLineEnds lines) = trimLineEnds lines := by
  induction lines with
  | nil => rfl
  | cons line lines ih =>
    cases lines with
    | nil => rfl
    | cons next lines =>
      have hne : trimLineEnds (next :: lines) ≠ [] := by cases lines <;> simp [trimLineEnds]
      rw [trimLineEnds_cons _ (List.cons_ne_nil _ _), trimLineEnds_cons _ hne, ih,
        dropEndWhile_dropEndWhile]

theorem cutEnds_cutEnds (text : List Char) : cutEnds (cutEnds text) = cutEnds text := by
  rw [cutEnds, cutEnds, splitLines_trimLineEnds, trimLineEnds_trimLineEnds]

/-- Lines that are cut come from lines, on both sides of a line feed that stays. -/
theorem exists_of_trimLineEnds_append {before after : List (List Char)} (hne : after ≠ [])
    (h : trimLineEnds lines = before ++ after) :
    ∃ above below, lines = above ++ below ∧ below ≠ [] ∧
      above.map (dropEndWhile isIndentChar) = before ∧ trimLineEnds below = after := by
  induction before generalizing lines with
  | nil =>
    refine ⟨[], lines, rfl, ?_, rfl, h⟩
    rintro rfl
    exact hne h.symm
  | cons first before ih =>
    cases lines with
    | nil => cases h
    | cons line lines =>
      cases lines with
      | nil =>
        obtain ⟨-, hnil⟩ := List.cons.inj h
        exact absurd (List.append_eq_nil_iff.mp hnil.symm).2 hne
      | cons next lines =>
        rw [trimLineEnds_cons _ (List.cons_ne_nil _ _)] at h
        obtain ⟨hfirst, hrest⟩ := List.cons.inj h
        obtain ⟨above, below, hlines, hbelow, habove, hafter⟩ := ih hrest
        refine ⟨line :: above, below, ?_, hbelow, ?_, hafter⟩
        · rw [hlines, List.cons_append]
        · rw [List.map_cons, hfirst, habove]

/-- A line feed of the text that is left is one of the text. -/
theorem exists_of_cutEnds_eq (h : cutEnds text = before ++ '\n' :: after) :
    ∃ above below, text = above ++ '\n' :: below ∧
      (splitLines above).map (dropEndWhile isIndentChar) = splitLines before ∧
      cutEnds below = after := by
  have hlines : trimLineEnds (splitLines text) = splitLines before ++ splitLines after := by
    rw [← splitLines_trimLineEnds, ← splitLines_append]
    exact congrArg splitLines h
  obtain ⟨above, below, hsplit, hne, habove, hbelow⟩ :=
    exists_of_trimLineEnds_append (splitLines_ne_nil after) hlines
  have hfeeds : (∀ line ∈ above, '\n' ∉ line) ∧ ∀ line ∈ below, '\n' ∉ line := by
    rw [← List.forall_mem_append, ← hsplit]
    exact fun line hline => not_mem_of_mem_splitLines hline
  have hnil : above ≠ [] := by
    rintro rfl
    exact splitLines_ne_nil before habove.symm
  refine ⟨joinLines above, joinLines below, ?_, ?_, ?_⟩
  · rw [← joinLines_splitLines text, hsplit, joinLines_append _ hne, endLines_eq_joinLines hnil]
    simp
  · rwa [splitLines_joinLines hnil hfeeds.1]
  · rw [cutEnds, splitLines_joinLines hne hfeeds.2, hbelow, joinLines_splitLines]

/-- Whether a line is another one without some of the spaces and tabs at its end. -/
structure IsKept (kept line : List Char) : Prop where
  cut : ∃ ends, line = kept ++ ends ∧ ∀ c ∈ ends, isIndentChar c = true
  blank : kept.all isBlank = line.all isBlank
  indent (h : line.all isBlank = false) : kept.takeWhile isBlank = line.takeWhile isBlank

theorem IsKept.refl (line : List Char) : IsKept line line :=
  ⟨⟨[], by simp⟩, rfl, fun _ => rfl⟩

theorem isKept_dropEndWhile (line : List Char) :
    IsKept (dropEndWhile isIndentChar line) line := by
  obtain ⟨ends, hline, hends⟩ := dropEndWhile_append isIndentChar line
  refine ⟨⟨ends, hline.symm, hends⟩, all_isBlank_dropEndWhile line, fun hdark => ?_⟩
  rw [← all_isBlank_dropEndWhile] at hdark
  conv_rhs => rw [← hline]
  exact (takeWhile_append_of_dark hdark ends).symm

theorem isKept_trimLineEnds (lines : List (List Char)) :
    List.Forall₂ IsKept (trimLineEnds lines) lines := by
  induction lines with
  | nil => exact .nil
  | cons line lines ih =>
    by_cases hnil : lines = []
    · subst hnil
      exact .cons (.refl line) .nil
    · rw [trimLineEnds_cons _ hnil]
      exact .cons (isKept_dropEndWhile line) ih

theorem all_isBlank_of_isKept {kept : List (List Char)} (h : List.Forall₂ IsKept kept lines) :
    (kept.all fun line => line.all isBlank) = lines.all fun line => line.all isBlank := by
  induction h with
  | nil => rfl
  | cons hline _ ih => rw [List.all_cons, List.all_cons, hline.blank, ih]

theorem all_isBlank_splitLines (text : List Char) :
    ((splitLines text).all fun line => line.all isBlank) = text.all isBlank := by
  rw [← all_isBlank_joinLines, joinLines_splitLines]

theorem all_isBlank_cutEnds (text : List Char) : (cutEnds text).all isBlank = text.all isBlank := by
  rw [cutEnds, all_isBlank_joinLines, all_isBlank_of_isKept (isKept_trimLineEnds _),
    all_isBlank_splitLines]

/-- Cutting the ends of lines makes no blank lines at the start of a text. -/
theorem StartsBlank.of_cutEnds (h : StartsBlank (cutEnds text)) : StartsBlank text := by
  obtain ⟨blanks, rest, hne, hblank, htext⟩ := h
  obtain ⟨above, below, rfl, habove, -⟩ := exists_of_cutEnds_eq htext
  refine ⟨above, below, ?_, ?_, rfl⟩
  · rintro rfl
    refine hne ?_
    rw [← joinLines_splitLines blanks, ← habove]
    rfl
  · have hlines : List.Forall₂ IsKept (splitLines blanks) (splitLines above) := by
      rw [← habove, List.forall₂_map_left_iff, List.forall₂_same]
      exact fun line _ => isKept_dropEndWhile line
    rw [← all_isBlank_splitLines, ← all_isBlank_of_isKept hlines, all_isBlank_splitLines, hblank]

/-- Cutting the ends of lines makes no blank lines at the end of a text. -/
theorem StartsBlank.of_reverse_cutEnds (h : StartsBlank (cutEnds text).reverse) :
    StartsBlank text.reverse := by
  obtain ⟨blanks, rest, hne, hblank, htext⟩ := h
  have hcut : cutEnds text = rest.reverse ++ '\n' :: blanks.reverse := by
    rw [← List.reverse_reverse (cutEnds text), htext]
    simp
  obtain ⟨above, below, rfl, -, hbelow⟩ := exists_of_cutEnds_eq hcut
  refine ⟨below.reverse, above.reverse, ?_, ?_, by simp⟩
  · rintro hnil
    rw [List.reverse_eq_nil_iff.mp hnil] at hbelow
    exact hne (List.reverse_eq_nil_iff.mp hbelow.symm)
  · rw [List.all_reverse, ← all_isBlank_cutEnds, hbelow, List.all_reverse, hblank]

/-! ## Inner lines -/

/-- The lines from the first to the last one that is not blank. -/
def innerLines (lines : List (List Char)) : List (List Char) :=
  (lines.dropWhile fun line => line.all isBlank).rdropWhile fun line => line.all isBlank

/-- Blank lines at the start are no inner ones. -/
theorem innerLines_append_of_blank {more : List (List Char)}
    (h : ∀ line ∈ lines, line.all isBlank = true) :
    innerLines (lines ++ more) = innerLines more := by
  rw [innerLines, List.dropWhile_append_of_pos h, innerLines]

/-- Blank lines at the end are no inner ones. -/
theorem innerLines_of_append_blank {more : List (List Char)}
    (h : ∀ line ∈ more, line.all isBlank = true) :
    innerLines (lines ++ more) = innerLines lines := by
  rw [innerLines, innerLines, List.dropWhile_append]
  split
  · next hempty =>
    rw [List.isEmpty_iff.mp hempty, List.dropWhile_eq_nil_iff.mpr h]
  · rw [List.rdropWhile, List.reverse_append,
      List.dropWhile_append_of_pos fun line hline => h line (List.mem_reverse.mp hline),
      List.rdropWhile]

theorem innerLines_map (lines : List (List Char)) :
    innerLines (lines.map (dropEndWhile isIndentChar)) =
      (innerLines lines).map (dropEndWhile isIndentChar) := by
  have hcomp : (fun line => line.all isBlank) ∘ dropEndWhile isIndentChar =
      fun line => line.all isBlank := funext all_isBlank_dropEndWhile
  rw [innerLines, innerLines, List.rdropWhile, List.rdropWhile, List.dropWhile_map, hcomp,
    ← List.map_reverse, List.dropWhile_map, hcomp, List.map_reverse]

theorem all_isBlank_of_mem_splitLines (h : ∀ c ∈ text, isBlank c = true) :
    ∀ line ∈ splitLines text, line.all isBlank = true := by
  rw [← List.all_eq_true, all_isBlank_splitLines]
  exact List.all_eq_true.mpr h

theorem innerLines_trimLeadingLines (text : List Char) :
    innerLines (splitLines (trimLeadingLines text)) = innerLines (splitLines text) := by
  rcases trimLeadingLines_eq text with heq | ⟨blanks, hblanks, htext⟩
  · rw [heq]
  · conv_rhs => rw [htext, splitLines_append]
    exact (innerLines_append_of_blank (all_isBlank_of_mem_splitLines hblanks)).symm

theorem innerLines_trimTrailingLines (text : List Char) :
    innerLines (splitLines (trimTrailingLines text)) = innerLines (splitLines text) := by
  rcases trimTrailingLines_eq text with heq | ⟨before, blanks, hblanks, htext, htrim⟩
  · rw [heq]
  · rw [htrim, htext, splitLines_append, splitLines_append,
      innerLines_of_append_blank (all_isBlank_of_mem_splitLines hblanks),
      innerLines_of_append_blank (by simp [splitLines])]

/-- Lines that are kept are blank where the lines are that they come from. -/
theorem isKept_dropWhile {kept : List (List Char)} (h : List.Forall₂ IsKept kept lines) :
    List.Forall₂ IsKept (kept.dropWhile fun line => line.all isBlank)
      (lines.dropWhile fun line => line.all isBlank) := by
  induction h with
  | nil => exact .nil
  | @cons first line kept lines hline hrest ih =>
    rw [List.dropWhile_cons, List.dropWhile_cons, hline.blank]
    split
    · exact ih
    · exact .cons hline hrest

theorem isKept_innerLines {kept : List (List Char)} (h : List.Forall₂ IsKept kept lines) :
    List.Forall₂ IsKept (innerLines kept) (innerLines lines) := by
  refine List.forall₂_reverse_iff.mpr (isKept_dropWhile ?_)
  exact List.forall₂_reverse_iff.mpr (isKept_dropWhile h)

/-- What is left of a line without all spaces and tabs at its end. -/
theorem IsKept.dropEndWhile_eq {kept line : List Char} (h : IsKept kept line) :
    dropEndWhile isIndentChar kept = dropEndWhile isIndentChar line := by
  obtain ⟨ends, rfl, hends⟩ := h.cut
  rw [dropEndWhile, dropEndWhile, List.reverse_append,
    List.dropWhile_append_of_pos fun c hc => hends c (List.mem_reverse.mp hc)]

/-! ## Tidied texts -/

theorem tidy_tidy (text : String) : tidy (tidy text) = tidy text := by
  have hstart : ¬StartsBlank (trimTrailingLines (trimLeadingLines text.toList)) := fun h =>
    not_startsBlank_trimLeadingLines text.toList h.of_trimTrailingLines
  have hend := not_startsBlank_reverse_trimTrailingLines (trimLeadingLines text.toList)
  rw [← String.toList_inj, toList_tidy (tidy text), toList_tidy text]
  generalize trimTrailingLines (trimLeadingLines text.toList) = trimmed at hstart hend
  rw [trimLeadingLines_eq_self fun h => hstart h.of_cutEnds,
    trimTrailingLines_eq_self fun h => hend h.of_reverse_cutEnds, cutEnds_cutEnds]

theorem isKept_innerLines_tidy (text : String) :
    List.Forall₂ IsKept (innerLines (splitLines (tidy text).toList))
      (innerLines (splitLines text.toList)) := by
  rw [toList_tidy, cutEnds, splitLines_trimLineEnds, ← innerLines_trimLeadingLines text.toList,
    ← innerLines_trimTrailingLines (trimLeadingLines text.toList)]
  exact isKept_innerLines (isKept_trimLineEnds _)

/-- Trimming a text twice is trimming it once. The inner lines of a text are still those of
    the trimmed one, none of them lost and no blank line among them either: without the spaces
    and tabs at their ends they are the same, and each of them keeps its indentation. -/
theorem tidy_inner (text : String) :
    tidy (tidy text) = tidy text ∧
      innerLines ((splitLines (tidy text).toList).map (dropEndWhile isIndentChar)) =
        innerLines ((splitLines text.toList).map (dropEndWhile isIndentChar)) ∧
      List.Forall₂ IsKept (innerLines (splitLines (tidy text).toList))
        (innerLines (splitLines text.toList)) := by
  refine ⟨tidy_tidy text, ?_, isKept_innerLines_tidy text⟩
  rw [innerLines_map, innerLines_map, ← List.forall₂_eq_eq_eq, List.forall₂_map_left_iff,
    List.forall₂_map_right_iff]
  exact (isKept_innerLines_tidy text).imp fun _ _ h => h.dropEndWhile_eq

/-- A blank line and an indentation between lines of code stay, blanks around them go. -/
example : tidy " \n\n\tif x:  \n \n    y \t\n\n " = "\tif x:\n\n    y\n" := by
  decide +kernel

end BlockScript.Text
