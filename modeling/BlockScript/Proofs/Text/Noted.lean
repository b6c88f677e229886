import BlockScript.Proofs.Text.Annotated

/-!
# Whole lines with comments

The text of a statement is made of whole lines, or there is none. Such texts are put
together, indented as bodies and given comments above them, and what is made of them is
still the same but for comments.

Results:

* `Noted.append`, `Noted.indentLines`: statements one after the other, and bodies.
* `Noted.commented`: comments ahead of a statement.
-/

namespace BlockScript.Text

variable {mark : List Char}

theorem splitLines_endLines_append {lines : List (List Char)} (h : ∀ line ∈ lines, '\n' ∉ line)
    (cs : List Char) : splitLines (endLines lines ++ cs) = lines ++ splitLines cs := by
  induction lines with
  | nil => rfl
  | cons line lines ih =>
    rw [endLines_cons, List.append_assoc, List.cons_append, splitLines_append,
      splitLines_of_not_mem (h line List.mem_cons_self),
      ih fun other hother => h other (List.mem_cons_of_mem _ hother)]
    rfl

/-- Whether a text of whole lines is another one with comments. There are none where there
    is no text. -/
def Noted (mark : List Char) (text plain : String) : Prop :=
  text = "" ∧ plain = "" ∨ ∃ body plainBody, text = body ++ "\n" ∧ plain = plainBody ++ "\n" ∧
    Annotates mark body.toList plainBody.toList

/-- Whether the first line of a text is not blank. -/
def StartsDark (text : List Char) : Prop :=
  ∃ line lines, splitLines text = line :: lines ∧ line.all isBlank = false

/-- What comes after the start of a line leaves it a line that is not blank. -/
theorem startsDark_append {before : List Char} (hbefore : before.all isBlank = false)
    (hfeed : '\n' ∉ before) (rest : List Char) : StartsDark (before ++ rest) := by
  have hdark : ∀ line : List Char, (before ++ line).all isBlank = false := by
    intro line
    rw [List.all_append, hbefore, Bool.false_and]
  by_cases hmem : '\n' ∈ rest
  · obtain ⟨more, after, rfl, hmore⟩ := List.eq_append_cons_of_mem hmem
    refine ⟨before ++ more, splitLines after, ?_, hdark _⟩
    rw [← List.append_assoc, splitLines_append, splitLines_of_not_mem (by simp [hfeed, hmore])]
    rfl
  · exact ⟨before ++ rest, [], splitLines_of_not_mem (by simp [hfeed, hmem]), hdark _⟩

namespace Noted

variable {text plain more plainMore lead : String}

theorem empty : Noted mark "" "" :=
  .inl ⟨rfl, rfl⟩

/-- A text that ends in a line feed. -/
protected theorem refl (h : text.toList.getLast? = some '\n') : Noted mark text text := by
  obtain ⟨body, hbody⟩ := List.getLast?_eq_some_iff.mp h
  have htext : text = String.ofList body ++ "\n" := by
    rw [← String.toList_inj, hbody]
    simp
  exact .inr ⟨_, _, htext, htext, .refl _⟩

theorem annotates (h : Noted mark text plain) : Annotates mark text.toList plain.toList := by
  rcases h with ⟨rfl, rfl⟩ | ⟨body, plainBody, rfl, rfl, h⟩
  · exact .refl _
  · rw [String.toList_append, String.toList_append]
    exact h.append (.refl [])

theorem eq_empty_iff (h : Noted mark text plain) : text = "" ↔ plain = "" := by
  rcases h with ⟨rfl, rfl⟩ | ⟨body, plainBody, rfl, rfl, -⟩
  · exact Iff.rfl
  · refine iff_of_false ?_ ?_ <;> exact fun hempty => by simpa using congrArg String.toList hempty

/-- Whole lines after whole lines. -/
theorem append (h : Noted mark text plain) (hmore : Noted mark more plainMore) :
    Noted mark (text ++ more) (plain ++ plainMore) := by
  rcases h with ⟨rfl, rfl⟩ | ⟨body, plainBody, rfl, rfl, h⟩
  · simpa using hmore
  · rcases hmore with ⟨rfl, rfl⟩ | ⟨next, plainNext, rfl, rfl, hmore⟩
    · rw [String.append_empty, String.append_empty]
      exact .inr ⟨body, plainBody, rfl, rfl, h⟩
    · refine .inr ⟨body ++ "\n" ++ next, plainBody ++ "\n" ++ plainNext, ?_, ?_, ?_⟩
      · simp only [String.append_assoc]
      · simp only [String.append_assoc]
      · simpa using h.append hmore

/-- Comments are still comments where all lines are indented. -/
theorem indentLines (hlead : ∀ c ∈ lead.toList, isIndentChar c = true)
    (h : Noted mark text plain) : Noted mark (indentLines text lead) (indentLines plain lead) := by
  have hblank : ∀ c ∈ lead.toList, isBlank c = true := fun c hc =>
    isBlank_of_isIndentChar (hlead c hc)
  have hfeed : '\n' ∉ lead.toList := fun hmem => absurd (hlead '\n' hmem) (by decide)
  have hsplit : ∀ body : String, splitLines (joinLines
      ((splitLines body.toList).map (lead.toList ++ ·))) =
        (splitLines body.toList).map (lead.toList ++ ·) := by
    intro body
    refine splitLines_joinLines (by simpa using splitLines_ne_nil _) fun line hline => ?_
    obtain ⟨inner, hinner, rfl⟩ := List.mem_map.mp hline
    simpa [hfeed] using not_mem_of_mem_splitLines hinner
  have hindented : ∀ body : String, Text.indentLines (body ++ "\n") lead =
      String.ofList (joinLines ((splitLines body.toList).map (lead.toList ++ ·))) ++ "\n" := by
    intro body
    rw [← String.toList_inj, toList_indentLines, String.toList_append, String.toList_append,
      show "\n".toList = ['\n'] from rfl, indentChars_concat, String.toList_ofList,
      endLines_eq_joinLines (by simpa using splitLines_ne_nil _)]
  rcases h with ⟨rfl, rfl⟩ | ⟨body, plainBody, rfl, rfl, h⟩
  · rw [indentLines_empty]
    exact .empty
  · refine .inr ⟨_, _, hindented body, hindented plainBody, ?_⟩
    unfold Annotates at h ⊢
    rw [String.toList_ofList, String.toList_ofList, hsplit, hsplit]
    exact h.lead hblank

/-- The first lines are both blank or neither of them is. -/
theorem startsDark (hmark : IsMark mark) (h : Noted mark text plain)
    (hplain : StartsDark plain.toList) : StartsDark text.toList := by
  obtain ⟨first, rest, hfirst, hdark⟩ := hplain
  have hall : Annotated mark (splitLines text.toList) (splitLines plain.toList) := h.annotates
  cases hlines : splitLines text.toList with
  | nil => exact absurd hlines (splitLines_ne_nil _)
  | cons line lines =>
    rw [hlines, hfirst] at hall
    obtain ⟨_, _, hcons, hblank⟩ := hall.exists_head hmark
    cases hcons
    exact ⟨line, lines, hlines, hblank ▸ hdark⟩

/-- Comments ahead of whole lines. -/
theorem commented {comments : String} (hmark : IsMark mark)
    (hlead : lead.toList = mark ++ [' ']) (h : Noted mark text plain)
    (hdark : StartsDark text.toList) :
    Noted mark (Text.indentLines (comments ++ "\n") lead ++ text) plain := by
  have habove : ∀ line ∈ (splitLines comments.toList).map (lead.toList ++ ·),
      '\n' ∉ line ∧ isCommentLine mark line = true := by
    intro line hline
    obtain ⟨inner, hinner, rfl⟩ := List.mem_map.mp hline
    have hfeed : '\n' ∉ mark := fun hmem => absurd (hmark.dark '\n' hmem) (by decide)
    refine ⟨by simp [hlead, hfeed, not_mem_of_mem_splitLines hinner], ?_⟩
    rw [hlead, List.append_assoc]
    have hnone : ∀ c ∈ ([] : List Char), isBlank c = true := by simp
    exact hmark.isCommentLine_of_blank hnone _
  have hchars : (Text.indentLines (comments ++ "\n") lead).toList =
      endLines ((splitLines comments.toList).map (lead.toList ++ ·)) := by
    rw [toList_indentLines, ← indentChars_concat, String.toList_append]
    rfl
  rcases h with ⟨rfl, rfl⟩ | ⟨body, plainBody, rfl, rfl, h⟩
  · obtain ⟨line, lines, hlines, hdark⟩ := hdark
    cases hlines
    cases hdark
  · refine .inr ⟨Text.indentLines (comments ++ "\n") lead ++ body, plainBody, ?_, rfl, ?_⟩
    · rw [String.append_assoc]
    · obtain ⟨line, lines, hlines, hdark⟩ := hdark
      rw [String.toList_append, show "\n".toList = ['\n'] from rfl, splitLines_append] at hlines
      unfold Annotates at h ⊢
      rw [String.toList_append, hchars,
        splitLines_endLines_append fun line hline => (habove line hline).1]
      cases hbody : splitLines body.toList with
      | nil => exact absurd hbody (splitLines_ne_nil _)
      | cons first rest =>
        rw [hbody] at h hlines
        cases hlines
        exact h.comments (fun line hline => (habove line hline).2) hmark hdark

end Noted

end BlockScript.Text
