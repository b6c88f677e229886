import BlockScript.Text.Lines
import Mathlib.Data.List.Induction
import Mathlib.Data.List.TakeWhile

/-!
# Texts of whole lines

A text that is made of whole lines ends in exactly one line feed and is not blank.
Such texts are put together and indented piece by piece.

Results:

* `splitLines_append`: a text is split at any of its line feeds.
* `indentLines_append`: what is made of whole lines is indented on its own.
* `IsLines.indentLines`, `IsLines.append`: texts of whole lines.
-/

namespace BlockScript.Text

/-! ## Splitting -/

theorem splitLines_ne_nil (cs : List Char) : splitLines cs ≠ [] := by
  cases cs with
  | nil => simp [splitLines]
  | cons c cs =>
    unfold splitLines
    split
    · simp
    · split <;> simp

/-- A text is split at any of its line feeds. -/
theorem splitLines_append (cs ds : List Char) :
    splitLines (cs ++ '\n' :: ds) = splitLines cs ++ splitLines ds := by
  induction cs with
  | nil => simp [splitLines]
  | cons c cs ih =>
    rw [List.cons_append]
    by_cases hc : c = '\n'
    · simp [splitLines, hc, ih]
    · simp only [splitLines, if_neg hc, ih]
      cases hlines : splitLines cs with
      | nil => exact absurd hlines (splitLines_ne_nil cs)
      | cons line lines => simp

/-- A text without a line feed is one line. -/
theorem splitLines_of_not_mem {cs : List Char} (h : '\n' ∉ cs) : splitLines cs = [cs] := by
  induction cs with
  | nil => rfl
  | cons c cs ih =>
    rw [List.mem_cons, not_or] at h
    simp [splitLines, Ne.symm h.1, ih h.2]

/-- No piece holds a line feed. -/
theorem not_mem_of_mem_splitLines {cs line : List Char} (h : line ∈ splitLines cs) :
    '\n' ∉ line := by
  induction cs generalizing line with
  | nil =>
    obtain rfl : line = [] := by simpa [splitLines] using h
    exact List.not_mem_nil
  | cons c cs ih =>
    unfold splitLines at h
    split at h
    · rcases List.mem_cons.mp h with rfl | h
      · exact List.not_mem_nil
      · exact ih h
    · next hc =>
      cases hlines : splitLines cs with
      | nil => exact absurd hlines (splitLines_ne_nil cs)
      | cons first lines =>
        rw [hlines] at h
        rcases List.mem_cons.mp h with rfl | h
        · have hfirst : '\n' ∉ first := ih (by simp [hlines])
          simp [Ne.symm hc, hfirst]
        · exact ih (by simp [hlines, h])

/-- The pieces are parts of the text. -/
theorem isInfix_of_mem_splitLines {cs line : List Char} (h : line ∈ splitLines cs) :
    line <:+: cs := by
  suffices hall : ∀ first lines, splitLines cs = first :: lines →
      first <+: cs ∧ ∀ line ∈ lines, line <:+: cs by
    cases hlines : splitLines cs with
    | nil => exact absurd hlines (splitLines_ne_nil cs)
    | cons first lines =>
      obtain ⟨hfirst, hrest⟩ := hall first lines hlines
      rcases List.mem_cons.mp (hlines ▸ h) with rfl | hmem
      · exact hfirst.isInfix
      · exact hrest line hmem
  clear h
  induction cs with
  | nil =>
    intro first lines hlines
    cases hlines
    exact ⟨List.nil_prefix, by simp⟩
  | cons c cs ih =>
    intro first lines hlines
    cases hrest : splitLines cs with
    | nil => exact absurd hrest (splitLines_ne_nil cs)
    | cons next more =>
      obtain ⟨hnext, hmore⟩ := ih next more hrest
      unfold splitLines at hlines
      rw [hrest] at hlines
      split at hlines
      · cases hlines
        refine ⟨List.nil_prefix, fun line hline => ?_⟩
        rcases List.mem_cons.mp hline with rfl | hmem
        · exact hnext.isInfix.trans (List.suffix_cons c cs).isInfix
        · exact (hmore line hmem).trans (List.suffix_cons c cs).isInfix
      · cases hlines
        refine ⟨List.cons_prefix_cons.mpr ⟨rfl, hnext⟩, fun line hline => ?_⟩
        exact (hmore line hline).trans (List.suffix_cons c cs).isInfix

/-! ## Leads -/

/-- Lines, each with a line feed behind it. -/
def endLines (lines : List (List Char)) : List Char :=
  lines.flatMap fun line => line ++ ['\n']

@[simp]
theorem endLines_nil : endLines [] = [] := rfl

@[simp]
theorem endLines_cons (line : List Char) (lines : List (List Char)) :
    endLines (line :: lines) = line ++ '\n' :: endLines lines := by
  simp [endLines]

@[simp]
theorem endLines_append (lines more : List (List Char)) :
    endLines (lines ++ more) = endLines lines ++ endLines more := by
  simp [endLines]

theorem endLines_eq_joinLines {lines : List (List Char)} (h : lines ≠ []) :
    endLines lines = joinLines lines ++ ['\n'] := by
  induction lines with
  | nil => exact absurd rfl h
  | cons line lines ih =>
    cases lines with
    | nil => simp [joinLines]
    | cons next lines =>
      rw [endLines_cons, ih (List.cons_ne_nil _ _)]
      simp [joinLines]

theorem joinLines_append (lines : List (List Char)) {more : List (List Char)} (h : more ≠ []) :
    joinLines (lines ++ more) = endLines lines ++ joinLines more := by
  induction lines with
  | nil => rfl
  | cons line lines ih =>
    have hne : lines ++ more ≠ [] := by simp [h]
    cases hlines : lines ++ more with
    | nil => exact absurd hlines hne
    | cons next rest =>
      rw [hlines] at ih
      rw [List.cons_append, hlines, joinLines, ih, endLines_cons, List.append_assoc,
        List.cons_append]
      simp

theorem leadLines_append (lead : List Char) (lines : List (List Char)) {more : List (List Char)}
    (h : more ≠ []) :
    leadLines lead (lines ++ more) = lines.map (lead ++ ·) ++ leadLines lead more := by
  induction lines with
  | nil => rfl
  | cons line lines ih =>
    have hne : lines ++ more ≠ [] := by simp [h]
    cases hlines : lines ++ more with
    | nil => exact absurd hlines hne
    | cons next rest =>
      rw [hlines] at ih
      rw [List.cons_append, hlines, leadLines, ih, List.map_cons, List.cons_append]
      simp

theorem leadLines_ne_nil (lead : List Char) {lines : List (List Char)} (h : lines ≠ []) :
    leadLines lead lines ≠ [] := by
  match lines with
  | [] => exact absurd rfl h
  | [line] =>
    unfold leadLines
    split <;> simp
  | line :: next :: rest => simp [leadLines]

/-- The characters of an indented text. -/
def indentChars (lead cs : List Char) : List Char :=
  joinLines (leadLines lead (splitLines cs))

theorem toList_indentLines (text lead : String) :
    (indentLines text lead).toList = indentChars lead.toList text.toList := by
  simp [indentLines, indentChars]

@[simp]
theorem indentChars_nil (lead : List Char) : indentChars lead [] = [] := rfl

theorem indentChars_append (lead cs ds : List Char) :
    indentChars lead (cs ++ '\n' :: ds) =
      endLines ((splitLines cs).map (lead ++ ·)) ++ indentChars lead ds := by
  unfold indentChars
  have hne := splitLines_ne_nil ds
  rw [splitLines_append, leadLines_append _ _ hne, joinLines_append _ (leadLines_ne_nil _ hne)]

theorem indentChars_concat (lead cs : List Char) :
    indentChars lead (cs ++ ['\n']) = endLines ((splitLines cs).map (lead ++ ·)) := by
  rw [indentChars_append, indentChars_nil, List.append_nil]

/-! ## Whole lines -/

/-- Whether a text is made of whole lines: it is not blank and ends in exactly one
    line feed. -/
def IsLines (text : String) : Prop :=
  (∃ cs c, text.toList = cs ++ [c, '\n'] ∧ c ≠ '\n') ∧ isBlankText text = false

/-- Whether a text is made of whole lines or empty. -/
def IsPiece (text : String) : Prop :=
  text = "" ∨ IsLines text

theorem IsLines.ne_empty {text : String} (h : IsLines text) : text ≠ "" := by
  rintro rfl
  obtain ⟨⟨cs, c, hlist, -⟩, -⟩ := h
  simp at hlist

/-- What is made of whole lines is indented on its own. -/
theorem indentLines_append {text : String} (h : IsPiece text) (rest lead : String) :
    indentLines (text ++ rest) lead = indentLines text lead ++ indentLines rest lead := by
  rcases h with rfl | ⟨⟨cs, c, hlist, -⟩, -⟩
  · have hempty : indentLines "" lead = "" := by
      rw [← String.toList_inj, toList_indentLines]
      rfl
    rw [hempty, String.empty_append, String.empty_append]
  · rw [← String.toList_inj, String.toList_append, toList_indentLines, toList_indentLines,
      toList_indentLines, String.toList_append, hlist]
    rw [show cs ++ [c, '\n'] = (cs ++ [c]) ++ ['\n'] by simp, indentChars_concat,
      List.append_assoc, List.singleton_append, indentChars_append]

@[simp]
theorem indentLines_empty (lead : String) : indentLines "" lead = "" := by
  rw [← String.toList_inj, toList_indentLines]
  rfl

theorem isBlankText_append (a b : String) :
    isBlankText (a ++ b) = (isBlankText a && isBlankText b) := by
  simp [isBlankText]

/-- One line. -/
theorem isLines_line {line : String} {cs : List Char} {c : Char} (hline : line.toList = cs ++ [c])
    (hc : c ≠ '\n') (hblank : isBlankText line = false) : IsLines (line ++ "\n") := by
  refine ⟨⟨cs, c, ?_, hc⟩, by simp [isBlankText_append, hblank]⟩
  rw [String.toList_append, hline]
  simp

theorem IsLines.append_left {text : String} (h : IsLines text) (before : String) :
    IsLines (before ++ text) := by
  obtain ⟨⟨cs, c, hlist, hc⟩, hblank⟩ := h
  refine ⟨⟨before.toList ++ cs, c, ?_, hc⟩, by simp [isBlankText_append, hblank]⟩
  rw [String.toList_append, hlist, List.append_assoc]

/-- Nothing is dropped at the end of whole lines. -/
theorem IsLines.oneTrailingNewline {text : String} (h : IsLines text) :
    oneTrailingNewline text = text := by
  obtain ⟨⟨cs, c, hlist, hc⟩, hblank⟩ := h
  unfold Text.oneTrailingNewline
  rw [hblank, if_neg Bool.false_ne_true, ← String.toList_inj, String.toList_append, dropNewlines,
    String.toList_ofList, hlist]
  simp [dropEndWhile, hc]

/-! ## Ends of texts -/

theorem oneTrailingNewline_of_isPiece {text : String} (h : IsPiece text) :
    oneTrailingNewline text = text := by
  rcases h with rfl | h
  · rfl
  · exact h.oneTrailingNewline

/-- What is dropped at the end of a list. -/
theorem dropEndWhile_append (p : Char → Bool) (cs : List Char) :
    ∃ tail, dropEndWhile p cs ++ tail = cs ∧ ∀ c ∈ tail, p c = true := by
  refine ⟨(cs.reverse.takeWhile p).reverse, ?_, fun c hc => ?_⟩
  · rw [dropEndWhile, ← List.reverse_append, List.takeWhile_append_dropWhile, List.reverse_reverse]
  · exact List.mem_takeWhile_imp (List.mem_reverse.mp hc)

/-- What stays at the end of a list. -/
theorem dropEndWhile_concat {p : Char → Bool} {cs ds : List Char} {c : Char}
    (h : dropEndWhile p cs = ds ++ [c]) : p c = false := by
  have hrev : cs.reverse.dropWhile p = c :: ds.reverse := by
    have := congrArg List.reverse h
    simpa [dropEndWhile] using this
  have hhead := List.head?_dropWhile_not p cs.reverse
  rw [hrev] at hhead
  simpa using hhead

/-- A text that is not blank is made to end in one line feed. -/
theorem isPiece_oneTrailingNewline (text : String) : IsPiece (oneTrailingNewline text) := by
  unfold oneTrailingNewline
  split
  · exact .inl rfl
  · next hblank =>
    refine .inr ?_
    obtain ⟨tail, htext, htail⟩ := dropEndWhile_append (· = '\n') text.toList
    have hrest : isBlankText (dropNewlines text) = false := by
      have hall : tail.all isBlank = true := by
        refine List.all_eq_true.mpr fun c hc => ?_
        obtain rfl : c = '\n' := by simpa using htail c hc
        decide
      have hno : (text.toList.all isBlank) = false := by simpa [isBlankText] using hblank
      rw [← htext, List.all_append, hall, Bool.and_true] at hno
      simpa [isBlankText, dropNewlines] using hno
    cases hkept : dropEndWhile (· = '\n') text.toList using List.reverseRecOn with
    | nil => simp [isBlankText, dropNewlines, hkept] at hrest
    | append_singleton cs c =>
      have hc : c ≠ '\n' := by simpa using dropEndWhile_concat hkept
      exact isLines_line (by rw [dropNewlines, String.toList_ofList, hkept]) hc hrest

/-! ## Indented lines -/

theorem splitLines_concat (cs : List Char) {c : Char} (hc : c ≠ '\n') :
    ∃ lines last, splitLines (cs ++ [c]) = lines ++ [last ++ [c]] := by
  induction cs with
  | nil => exact ⟨[], [], by simp [splitLines, hc]⟩
  | cons d cs ih =>
    obtain ⟨lines, last, hlines⟩ := ih
    rw [List.cons_append, splitLines]
    split
    · exact ⟨[] :: lines, last, by rw [hlines]; rfl⟩
    · rw [hlines]
      cases lines with
      | nil => exact ⟨[], d :: last, rfl⟩
      | cons line lines => exact ⟨(d :: line) :: lines, last, rfl⟩

/-- Every other character than a line feed stands in a line. -/
theorem exists_mem_splitLines {cs : List Char} {d : Char} (hd : d ∈ cs) (hline : d ≠ '\n') :
    ∃ line ∈ splitLines cs, d ∈ line := by
  induction cs with
  | nil => simp at hd
  | cons c cs ih =>
    rw [splitLines]
    split
    · next hc =>
      have hrest : d ∈ cs := by
        rcases List.mem_cons.mp hd with rfl | hrest
        · exact absurd hc hline
        · exact hrest
      obtain ⟨line, hmem, hin⟩ := ih hrest
      exact ⟨line, by simp [hmem], hin⟩
    · cases hlines : splitLines cs with
      | nil => exact absurd hlines (splitLines_ne_nil cs)
      | cons first lines =>
        rcases List.mem_cons.mp hd with rfl | hrest
        · exact ⟨d :: first, by simp, by simp⟩
        · obtain ⟨line, hmem, hin⟩ := ih hrest
          rw [hlines] at hmem
          rcases List.mem_cons.mp hmem with rfl | hmem
          · exact ⟨c :: line, by simp, by simp [hin]⟩
          · exact ⟨line, by simp [hmem], hin⟩

/-- Indented lines are lines. -/
theorem IsLines.indentLines {text : String} (h : IsLines text) (lead : String) :
    IsLines (indentLines text lead) := by
  obtain ⟨⟨cs, c, hlist, hc⟩, hblank⟩ := h
  have hchars : (Text.indentLines text lead).toList =
      endLines ((splitLines (cs ++ [c])).map (lead.toList ++ ·)) := by
    rw [toList_indentLines, hlist, ← indentChars_concat]
    simp
  obtain ⟨lines, last, hlines⟩ := splitLines_concat cs hc
  refine ⟨⟨endLines (lines.map (lead.toList ++ ·)) ++ lead.toList ++ last, c, ?_, hc⟩, ?_⟩
  · rw [hchars, hlines]
    simp
  · have hsome : ∃ d ∈ cs ++ [c], isBlank d = false := by
      have hno : (text.toList.all isBlank) = false := hblank
      obtain ⟨d, hd, hdark⟩ := List.all_eq_false.mp hno
      have hdark : isBlank d = false := by simpa using hdark
      have hne : d ≠ '\n' := by
        rintro rfl
        exact absurd hdark (by decide)
      rw [hlist] at hd
      exact ⟨d, by simpa [hne] using hd, hdark⟩
    obtain ⟨d, hd, hdark⟩ := hsome
    have hne : d ≠ '\n' := by
      rintro rfl
      exact absurd hdark (by decide)
    obtain ⟨line, hmem, hin⟩ := exists_mem_splitLines hd hne
    unfold isBlankText
    rw [hchars]
    refine List.all_eq_false.mpr ⟨d, ?_, by simp [hdark]⟩
    exact List.mem_flatMap.mpr
      ⟨lead.toList ++ line, List.mem_map.mpr ⟨line, hmem, rfl⟩, by simp [hin]⟩

/-- Lines with a lead that is not blank. -/
theorem isLines_indentLines_concat (text : String) {lead : String}
    (hblank : isBlankText lead = false) (hlead : '\n' ∉ lead.toList) :
    IsLines (indentLines (text ++ "\n") lead) := by
  have hchars : (indentLines (text ++ "\n") lead).toList =
      endLines ((splitLines text.toList).map (lead.toList ++ ·)) := by
    rw [toList_indentLines, ← indentChars_concat, String.toList_append]
    rfl
  cases hlines : splitLines text.toList using List.reverseRecOn with
  | nil => exact absurd hlines (splitLines_ne_nil _)
  | append_singleton lines last =>
    have hlast : '\n' ∉ lead.toList ++ last := by
      have hno := not_mem_of_mem_splitLines (show last ∈ splitLines text.toList by simp [hlines])
      simp [hlead, hno]
    cases hends : lead.toList ++ last using List.reverseRecOn with
    | nil => simp [isBlankText, (List.append_eq_nil_iff.mp hends).1] at hblank
    | append_singleton cs c =>
      refine ⟨⟨endLines (lines.map (lead.toList ++ ·)) ++ cs, c, ?_, ?_⟩, ?_⟩
      · rw [hchars, hlines, List.map_append, endLines_append]
        simp [hends]
      · rintro rfl
        exact hlast (by simp [hends])
      · have hdark : ∃ d ∈ lead.toList, isBlank d = false := by
          simpa [isBlankText, List.all_eq_false] using hblank
        obtain ⟨d, hd, hdark⟩ := hdark
        rw [isBlankText, hchars, hlines]
        refine List.all_eq_false.mpr ⟨d, ?_, by simp [hdark]⟩
        exact List.mem_flatMap.mpr ⟨lead.toList ++ last, by simp, by simp [hd]⟩

end BlockScript.Text
