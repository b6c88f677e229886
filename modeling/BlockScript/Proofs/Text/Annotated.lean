import BlockScript.Proofs.Suite.Lines

/-!
# Texts with comment lines

A line is a comment if its first characters that are not blank are a mark. A text is
another one with comments if it has further lines, all of them comments, each ahead of a
line that is not blank. Nothing is left of the difference once all comments are deleted.

Results:

* `Annotated.filter_eq`: deleting the comments from both lists of lines gives the same.
* `Annotated.exists_start`, `Annotated.exists_end`: the first and the last line that is
  not blank, where the lists of lines differ.
* `Annotates.dropComments_eq`: texts with comments between their lines and without.
-/

namespace BlockScript.Text

/-! ## Comment lines -/

/-- Whether the first characters of a line that are not blank are a mark. -/
def isCommentLine (mark line : List Char) : Bool :=
  mark.isPrefixOf (line.dropWhile isBlank)

/-- A text without its comment lines. -/
def dropComments (mark text : String) : String :=
  String.ofList (joinLines
    ((splitLines text.toList).filter fun line => !isCommentLine mark.toList line))

/-- Whether a list of characters can be the mark of comments. -/
structure IsMark (mark : List Char) : Prop where
  ne_nil : mark ≠ []
  dark (c : Char) (h : c ∈ mark) : isBlank c = false

variable {mark : List Char} {line next : List Char} {lines plain others otherPlain : List (List Char)}

theorem isCommentLine_iff : isCommentLine mark line = true ↔
    ∃ rest, line = line.takeWhile isBlank ++ (mark ++ rest) := by
  rw [isCommentLine, List.isPrefixOf_iff_prefix]
  constructor
  · rintro ⟨rest, hrest⟩
    exact ⟨rest, by rw [hrest, List.takeWhile_append_dropWhile]⟩
  · rintro ⟨rest, hrest⟩
    have hsplit : line.takeWhile isBlank ++ line.dropWhile isBlank = line :=
      List.takeWhile_append_dropWhile
    exact ⟨rest, List.append_cancel_left (hsplit.trans hrest).symm⟩

namespace IsMark

variable (hmark : IsMark mark)
include hmark

/-- A line with a mark after blanks. -/
theorem isCommentLine_of_blank {blanks : List Char} (h : ∀ c ∈ blanks, isBlank c = true)
    (rest : List Char) : isCommentLine mark (blanks ++ (mark ++ rest)) = true := by
  rw [isCommentLine, List.dropWhile_append_of_pos h, List.isPrefixOf_iff_prefix]
  obtain ⟨hne, hdark⟩ := hmark
  cases mark with
  | nil => exact absurd rfl hne
  | cons c cs =>
    rw [List.cons_append, List.dropWhile_cons_of_neg (by simp [hdark c])]
    exact List.prefix_append (c :: cs) rest

/-- A comment is not blank. -/
theorem all_isBlank_eq_false (h : isCommentLine mark line = true) : line.all isBlank = false := by
  obtain ⟨rest, hline⟩ := isCommentLine_iff.mp h
  obtain ⟨hne, hdark⟩ := hmark
  cases mark with
  | nil => exact absurd rfl hne
  | cons c cs =>
    rw [hline]
    exact List.all_eq_false.mpr ⟨c, by simp, by simp [hdark c]⟩

end IsMark

/-! ## Lines with comments between them -/

/-- The last item of a list without a property. -/
theorem exists_last_not {α : Type} {p : α → Bool} {items : List α}
    (h : ∃ item ∈ items, p item = false) :
    ∃ before last after, items = before ++ last :: after ∧ p last = false ∧
      ∀ item ∈ after, p item = true := by
  induction items using List.reverseRecOn with
  | nil =>
    obtain ⟨item, hitem, -⟩ := h
    cases hitem
  | append_singleton items final ih =>
    cases hfinal : p final with
    | false => exact ⟨items, final, [], rfl, hfinal, by simp⟩
    | true =>
      obtain ⟨item, hitem, hno⟩ := h
      have hearlier : item ∈ items := by
        rcases List.mem_append.mp hitem with hmem | hmem
        · exact hmem
        · rw [List.mem_singleton.mp hmem, hfinal] at hno
          cases hno
      obtain ⟨before, last, after, rfl, hlast, hafter⟩ := ih ⟨item, hearlier, hno⟩
      refine ⟨before, last, after ++ [final], by simp, hlast, fun other hother => ?_⟩
      rcases List.mem_append.mp hother with hmem | hmem
      · exact hafter other hmem
      · rwa [List.mem_singleton.mp hmem]

/-- Whether lines are other ones with comments, each ahead of a line that is not blank. -/
inductive Annotated (mark : List Char) : List (List Char) → List (List Char) → Prop
  | nil : Annotated mark [] []
  | line (line : List Char) {lines plain : List (List Char)} (h : Annotated mark lines plain) :
    Annotated mark (line :: lines) (line :: plain)
  | comment {line next : List Char} {lines plain : List (List Char)}
    (hline : isCommentLine mark line = true) (hnext : next.all isBlank = false)
    (h : Annotated mark (next :: lines) plain) : Annotated mark (line :: next :: lines) plain

namespace Annotated

theorem refl (lines : List (List Char)) : Annotated mark lines lines := by
  induction lines with
  | nil => exact .nil
  | cons first lines ih => exact .line first ih

/-- Deleting the comments leaves the same lines. -/
theorem filter_eq (h : Annotated mark lines plain) :
    (lines.filter fun line => !isCommentLine mark line) =
      plain.filter fun line => !isCommentLine mark line := by
  induction h with
  | nil => rfl
  | line first _ ih => rw [List.filter_cons, List.filter_cons, ih]
  | comment hline _ _ ih =>
    rw [List.filter_cons, hline, Bool.not_true, if_neg Bool.false_ne_true]
    exact ih

theorem append (h : Annotated mark lines plain) (hothers : Annotated mark others otherPlain) :
    Annotated mark (lines ++ others) (plain ++ otherPlain) := by
  induction h with
  | nil => exact hothers
  | line first _ ih => exact .line first ih
  | comment hline hnext _ ih => exact .comment hline hnext ih

theorem eq_nil_iff (h : Annotated mark lines plain) : lines = [] ↔ plain = [] := by
  induction h with
  | nil => exact Iff.rfl
  | line first _ _ => exact iff_of_false (List.cons_ne_nil _ _) (List.cons_ne_nil _ _)
  | comment _ _ _ ih =>
    exact iff_of_false (List.cons_ne_nil _ _) fun hnil => List.cons_ne_nil _ _ (ih.mpr hnil)

/-- Comments ahead of a line that is not blank. -/
theorem comments {above : List (List Char)} (habove : ∀ line ∈ above, isCommentLine mark line = true)
    (hmark : IsMark mark) (hnext : next.all isBlank = false)
    (h : Annotated mark (next :: lines) plain) :
    Annotated mark (above ++ next :: lines) plain := by
  induction above with
  | nil => exact h
  | cons first above ih =>
    have hrest := ih fun line hline => habove line (List.mem_cons_of_mem _ hline)
    have hfirst := habove first List.mem_cons_self
    cases above with
    | nil => exact .comment hfirst hnext hrest
    | cons second above =>
      have hsecond := habove second (by simp)
      exact .comment hfirst (hmark.all_isBlank_eq_false hsecond) hrest

/-- Blanks ahead of every line. -/
theorem lead {lead : List Char} (hlead : ∀ c ∈ lead, isBlank c = true)
    (h : Annotated mark lines plain) :
    Annotated mark (lines.map (lead ++ ·)) (plain.map (lead ++ ·)) := by
  induction h with
  | nil => exact .nil
  | line first _ ih => exact .line _ ih
  | comment hline hnext _ ih =>
    refine .comment ?_ ?_ ih
    · rwa [isCommentLine, List.dropWhile_append_of_pos hlead]
    · rw [List.all_append, hnext, Bool.and_false]

section Marked

variable (hmark : IsMark mark)
include hmark

/-- The first lines are both blank or neither of them is. -/
theorem exists_head (h : Annotated mark (line :: lines) plain) :
    ∃ first rest, plain = first :: rest ∧ first.all isBlank = line.all isBlank := by
  generalize hall : line :: lines = all at h
  induction h generalizing line lines with
  | nil => cases hall
  | line first _ _ =>
    cases hall
    exact ⟨_, _, rfl, rfl⟩
  | comment hline hnext _ ih =>
    cases hall
    obtain ⟨first, rest, rfl, hfirst⟩ := ih rfl
    exact ⟨first, rest, rfl, by rw [hfirst, hnext, hmark.all_isBlank_eq_false hline]⟩

/-- The lists of lines are blank both or neither of them is. -/
theorem all_blank_eq (h : Annotated mark lines plain) :
    (lines.all fun line => line.all isBlank) = plain.all fun line => line.all isBlank := by
  induction h with
  | nil => rfl
  | line first _ ih => rw [List.all_cons, List.all_cons, ih]
  | comment hline hnext _ ih =>
    rw [← ih, List.all_cons, hmark.all_isBlank_eq_false hline, List.all_cons, hnext]
    rfl

/-- A list of lines that starts with a line of its own is the same up to the first line
    that is not blank. -/
theorem exists_start (h : Annotated mark lines plain) : lines = plain ∨
    ∃ blanks next rest next' rest', lines = blanks ++ next :: rest ∧
      plain = blanks ++ next' :: rest' ∧ (∀ line ∈ blanks, line.all isBlank = true) ∧
      next.all isBlank = false ∧ next'.all isBlank = false ∧
      Annotated mark (next :: rest) (next' :: rest') := by
  induction h with
  | nil => exact .inl rfl
  | @line first lines plain hrest ih =>
    cases hfirst : first.all isBlank with
    | false =>
      exact .inr ⟨[], first, lines, first, plain, rfl, rfl, by simp, hfirst, hfirst, .line first hrest⟩
    | true =>
      rcases ih with rfl | ⟨blanks, next, rest, next', rest', rfl, rfl, hblanks, hnext⟩
      · exact .inl rfl
      · exact .inr ⟨first :: blanks, next, rest, next', rest', rfl, rfl,
          List.forall_mem_cons.mpr ⟨hfirst, hblanks⟩, hnext⟩
  | @comment line next lines plain hline hnext hrest _ =>
    obtain ⟨first, rest, rfl, hfirst⟩ := hrest.exists_head hmark
    have hdark := hmark.all_isBlank_eq_false hline
    exact .inr ⟨[], line, next :: lines, first, rest, rfl, rfl, by simp, hdark,
      hfirst.trans hnext, .comment hline hnext hrest⟩

end Marked

/-- The lists of lines are the same from the last line on that is not blank, and whatever
    else stands there. -/
theorem exists_end (h : Annotated mark lines plain) : lines = plain ∨
    ∃ before before' last after, lines = before ++ last :: after ∧
      plain = before' ++ last :: after ∧ last.all isBlank = false ∧
      (∀ line ∈ after, line.all isBlank = true) ∧
      ∀ other more, other.all isBlank = false →
        Annotated mark (before ++ other :: more) (before' ++ other :: more) := by
  induction h with
  | nil => exact .inl rfl
  | line first _ ih =>
    rcases ih with rfl | ⟨before, before', last, after, rfl, rfl, hlast, hafter, hmore⟩
    · exact .inl rfl
    · exact .inr ⟨first :: before, first :: before', last, after, rfl, rfl, hlast, hafter,
        fun other more hother => .line first (hmore other more hother)⟩
  | @comment line next lines plain hline hnext _ ih =>
    -- the comment stands ahead of `next`, or of what comes in its place
    have hahead : ∀ {before before' : List (List Char)} {last : List Char} {after : List (List Char)},
        next :: lines = before ++ last :: after →
        (∀ other more, other.all isBlank = false →
          Annotated mark (before ++ other :: more) (before' ++ other :: more)) →
        ∀ other more, other.all isBlank = false →
          Annotated mark (line :: before ++ other :: more) (before' ++ other :: more) := by
      intro before before' last after hsplit hmore other more hother
      cases before with
      | nil => exact .comment hline hother (hmore other more hother)
      | cons first before =>
        cases hsplit
        exact .comment hline hnext (hmore other more hother)
    rcases ih with rfl | ⟨before, before', last, after, hsplit, rfl, hlast, hafter, hmore⟩
    · obtain ⟨before, last, after, hsplit, hlast, hafter⟩ :=
        exists_last_not (p := fun line => line.all isBlank) ⟨next, List.mem_cons_self, hnext⟩
      exact .inr ⟨line :: before, before, last, after, by rw [hsplit]; rfl, hsplit, hlast, hafter,
        hahead hsplit fun other more _ => .refl _⟩
    · exact .inr ⟨line :: before, before', last, after, by rw [hsplit]; rfl, rfl, hlast, hafter,
        hahead hsplit hmore⟩

end Annotated

/-! ## Texts -/

/-- Whether a text is another one with comments. -/
def Annotates (mark text plain : List Char) : Prop :=
  Annotated mark (splitLines text) (splitLines plain)

variable {text plainText more plainMore lead : List Char}

theorem joinLines_splitLines (cs : List Char) : joinLines (splitLines cs) = cs := by
  induction cs with
  | nil => rfl
  | cons c cs ih =>
    rw [splitLines]
    split
    · next hc =>
      cases hlines : splitLines cs with
      | nil => exact absurd hlines (splitLines_ne_nil cs)
      | cons line lines =>
        rw [hlines] at ih
        rw [joinLines, ih, hc]
        · rfl
        · simp
    · cases hlines : splitLines cs with
      | nil => exact absurd hlines (splitLines_ne_nil cs)
      | cons line lines =>
        rw [hlines] at ih
        cases lines with
        | nil => rw [← ih]; rfl
        | cons next lines =>
          rw [← ih]
          rfl

/-- Lines are blank together if each of them is. -/
theorem all_isBlank_joinLines (lines : List (List Char)) :
    (joinLines lines).all isBlank = lines.all fun line => line.all isBlank := by
  induction lines with
  | nil => rfl
  | cons line lines ih =>
    cases lines with
    | nil => simp [joinLines]
    | cons next lines =>
      have hfeed : isBlank '\n' = true := by decide
      rw [joinLines, List.all_append, List.all_cons, hfeed, ih, Bool.true_and]
      · rfl
      · exact List.cons_ne_nil next lines

namespace Annotates

protected theorem refl (text : List Char) : Annotates mark text text :=
  Annotated.refl _

/-- Texts with a line feed between them. -/
theorem append (h : Annotates mark text plainText) (hmore : Annotates mark more plainMore) :
    Annotates mark (text ++ '\n' :: more) (plainText ++ '\n' :: plainMore) := by
  unfold Annotates
  rw [splitLines_append, splitLines_append]
  exact Annotated.append h hmore

/-- Texts after the same whole lines. -/
theorem append_left {ahead : List Char} (hahead : ahead = [] ∨ ahead.getLast? = some '\n')
    (h : Annotates mark text plainText) : Annotates mark (ahead ++ text) (ahead ++ plainText) := by
  rcases hahead with rfl | hlast
  · exact h
  · obtain ⟨cs, rfl⟩ := List.getLast?_eq_some_iff.mp hlast
    simpa using (Annotates.refl cs).append h

/-- Deleting the comments leaves the same text. -/
theorem dropComments_eq {mark text plain : String}
    (h : Annotates mark.toList text.toList plain.toList) :
    dropComments mark text = dropComments mark plain := by
  rw [dropComments, dropComments, Annotated.filter_eq h]

theorem isBlank_eq (hmark : IsMark mark) (h : Annotates mark text plainText) :
    text.all isBlank = plainText.all isBlank := by
  rw [← joinLines_splitLines text, ← joinLines_splitLines plainText, all_isBlank_joinLines,
    all_isBlank_joinLines, Annotated.all_blank_eq hmark h]

/-- Only an empty text is one without comments. -/
theorem eq_nil_iff (hmark : IsMark mark) (h : Annotates mark text plainText) :
    text = [] ↔ plainText = [] := by
  have hnil : ∀ cs : List Char, cs = [] ↔ splitLines cs = [[]] := by
    intro cs
    constructor
    · rintro rfl
      rfl
    · intro hlines
      rw [← joinLines_splitLines cs, hlines]
      rfl
  rw [hnil, hnil]
  unfold Annotates at h
  constructor
  · intro hlines
    rw [hlines] at h
    generalize splitLines plainText = lines at h ⊢
    cases h with
    | line _ hrest => rw [hrest.eq_nil_iff.mp rfl]
  · intro hlines
    rw [hlines] at h
    generalize splitLines text = lines at h
    cases h with
    | line _ hrest => rw [hrest.eq_nil_iff.mpr rfl]
    | comment hline hnext hrest =>
      obtain ⟨first, rest, hfirst, hblank⟩ := hrest.exists_head hmark
      cases hfirst
      rw [hnext] at hblank
      cases hblank

end Annotates

end BlockScript.Text
