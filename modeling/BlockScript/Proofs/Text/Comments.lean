import BlockScript.Proofs.Text.Lines
import BlockScript.Scene

/-!
# Comments in program text

What the comment lines above a statement read as. Every language has its marks for
line comments, and its own rule for where one ends: at a line feed or a carriage
return, and in PHP also ahead of a closing tag. The lines of a comment are told apart
at line feeds alone, so it depends on the comment whether all of it stays one.

Results:

* `Language.inert_line_iff`: which lines of a comment read as comments only.
* `commentLines_inert_iff`: which comments are inert above a statement.
-/

namespace BlockScript

open BlockScript.Text

/-! ## Reading comments -/

/-- What a character of program text is read as, where only comments are told apart from
    code. -/
inductive CharClass where
  | comment
  | lineBreak
  | blank
  | code
  deriving DecidableEq, Repr

/-- Whether a character breaks a line in program text. -/
def isLineBreak (c : Char) : Bool :=
  c = '\n' || c = '\r'

/-- Whether a text starts with a long bracket, which makes the mark ahead of it one for
    another kind of comment. -/
def startsLongBracket : List Char → Bool
  | '[' :: rest => (rest.dropWhile (· = '=')).head? = some '['
  | _ => false

/-- Whether a text starts with a mark for a line comment. -/
def Language.startsComment : Language → List Char → Bool
  | .python, '#' :: _ => true
  | .lua, '-' :: '-' :: rest => !startsLongBracket rest
  | .php, '#' :: rest => rest.head? ≠ some '['
  | .php, '/' :: '/' :: _ => true
  | _, _ => false

/-- Whether a text starts with a tag that closes the program text. -/
def Language.closesText : Language → List Char → Bool
  | .php, '?' :: '>' :: _ => true
  | _, _ => false

/-- What the characters of a text are read as, from inside a comment or outside. -/
def Language.read (language : Language) : (inside : Bool) → List Char → List CharClass
  | _, [] => []
  | true, c :: rest =>
    if isLineBreak c then .lineBreak :: language.read false rest
    else if language.closesText (c :: rest) then .code :: language.read false rest
    else .comment :: language.read true rest
  | false, c :: rest =>
    if isLineBreak c then .lineBreak :: language.read false rest
    else if isIndentChar c then .blank :: language.read false rest
    else if language.startsComment (c :: rest) then .comment :: language.read true rest
    else .code :: language.read false rest

/-- Whether a text reads as comments and line breaks, with nothing but blanks
    between. -/
def Language.Inert (language : Language) (text : String) : Prop :=
  .code ∉ language.read false text.toList

/-! ## Harmless comments -/

/-- Whether a line of a comment can be broken ahead of some text: a comment starts
    there, if anything does before the next break. -/
def Language.CanBreak (language : Language) (rest : List Char) : Prop :=
  match rest.dropWhile isIndentChar with
  | [] => True
  | c :: more => c = '\r' ∨ language.startsComment (c :: more) = true

/-- Whether a line of a comment stays one: no tag closes it, and it can be broken at its
    carriage returns. -/
structure Language.HarmlessLine (language : Language) (line : List Char) : Prop where
  unclosed (h : language = .php) : ¬['?', '>'] <:+: line
  breaks (rest : List Char) (h : '\r' :: rest <:+ line) : language.CanBreak rest

/-- Whether all lines of a comment stay one. -/
def Language.Harmless (language : Language) (comment : String) : Prop :=
  ∀ line ∈ splitLines comment.toList, language.HarmlessLine line

variable {language : Language} {line rest : List Char} {c : Char}

/-! ## Single lines -/

theorem canBreak_nil : language.CanBreak [] := by
  simp [Language.CanBreak]

theorem canBreak_cons_break : language.CanBreak ('\r' :: rest) := by
  simp [Language.CanBreak, isIndentChar]

theorem canBreak_cons_blank (h : isIndentChar c = true) :
    language.CanBreak (c :: rest) ↔ language.CanBreak rest := by
  simp [Language.CanBreak, h]

theorem canBreak_cons_other (hbreak : c ≠ '\r') (hblank : isIndentChar c = false) :
    language.CanBreak (c :: rest) ↔ language.startsComment (c :: rest) = true := by
  simp [Language.CanBreak, hblank, hbreak]

theorem harmlessLine_nil : language.HarmlessLine [] :=
  ⟨fun _ => by simp, fun rest h => by simp at h⟩

/-- A carriage return has to be a place where the line can be broken. -/
theorem harmlessLine_cons_break :
    language.HarmlessLine ('\r' :: line) ↔ language.CanBreak line ∧ language.HarmlessLine line := by
  constructor
  · rintro ⟨hunclosed, hbreaks⟩
    refine ⟨hbreaks line List.suffix_rfl, fun hphp hinside => ?_, fun rest hrest => ?_⟩
    · exact hunclosed hphp (List.infix_cons_iff.mpr (.inr hinside))
    · exact hbreaks rest (hrest.trans (List.suffix_cons _ _))
  · rintro ⟨hbreak, hunclosed, hbreaks⟩
    refine ⟨fun hphp hinside => ?_, fun rest hrest => ?_⟩
    · rcases List.infix_cons_iff.mp hinside with hahead | hinside
      · simp at hahead
      · exact hunclosed hphp hinside
    · rcases List.suffix_cons_iff.mp hrest with heq | hrest
      · cases heq
        exact hbreak
      · exact hbreaks rest hrest

theorem closesText_eq_true_iff :
    language.closesText line = true ↔ language = .php ∧ ['?', '>'] <+: line := by
  constructor
  · intro h
    unfold Language.closesText at h
    split at h
    · exact ⟨rfl, by simp⟩
    · cases h
  · rintro ⟨rfl, rest, rfl⟩
    rfl

/-- Any other character must not start a closing tag. -/
theorem harmlessLine_cons (h : c ≠ '\r') :
    language.HarmlessLine (c :: line) ↔
      language.closesText (c :: line) = false ∧ language.HarmlessLine line := by
  rw [Bool.eq_false_iff, Ne, closesText_eq_true_iff]
  constructor
  · rintro ⟨hunclosed, hbreaks⟩
    refine ⟨fun ⟨hphp, hahead⟩ => ?_, fun hphp hinside => ?_, fun rest hrest => ?_⟩
    · exact hunclosed hphp hahead.isInfix
    · exact hunclosed hphp (List.infix_cons_iff.mpr (.inr hinside))
    · exact hbreaks rest (hrest.trans (List.suffix_cons _ _))
  · rintro ⟨hclosed, hunclosed, hbreaks⟩
    refine ⟨fun hphp hinside => ?_, fun rest hrest => ?_⟩
    · rcases List.infix_cons_iff.mp hinside with hahead | hinside
      · exact hclosed ⟨hphp, hahead⟩
      · exact hunclosed hphp hinside
    · rcases List.suffix_cons_iff.mp hrest with heq | hrest
      · cases heq
        exact absurd rfl h
      · exact hbreaks rest hrest

/-- A mark for a comment is no tag. -/
theorem closesText_of_startsComment (h : language.startsComment line = true) :
    language.closesText line = false := by
  unfold Language.startsComment at h
  split at h <;> first | rfl | cases h

theorem closesText_of_isIndentChar (h : isIndentChar c = true) :
    language.closesText (c :: line) = false := by
  rw [Bool.eq_false_iff, Ne, closesText_eq_true_iff]
  rintro ⟨-, hahead⟩
  obtain rfl : '?' = c := (List.cons_prefix_cons.mp hahead).1
  cases h

/-- A line reads as comments only if it is harmless. From outside a comment, it also
    has to be able to follow a break. -/
theorem inert_line_iff (hline : '\n' ∉ line) :
    (.code ∉ language.read true line ↔ language.HarmlessLine line) ∧
      (.code ∉ language.read false line ↔ language.CanBreak line ∧ language.HarmlessLine line) := by
  induction line with
  | nil => simp [Language.read, harmlessLine_nil, canBreak_nil]
  | cons c line ih =>
    rw [List.mem_cons, not_or] at hline
    obtain ⟨hinside, houtside⟩ := ih hline.2
    by_cases hbreak : c = '\r'
    · subst hbreak
      have hyes : isLineBreak '\r' = true := rfl
      simp [Language.read, hyes, houtside, harmlessLine_cons_break, canBreak_cons_break]
    · have hno : isLineBreak c = false := by simp [isLineBreak, Ne.symm hline.1, hbreak]
      rw [harmlessLine_cons hbreak]
      constructor
      · cases hclosed : language.closesText (c :: line) with
        | true => simp [Language.read, hno, hclosed]
        | false => simp [Language.read, hno, hclosed, hinside]
      · cases hblank : isIndentChar c with
        | true =>
          rw [canBreak_cons_blank hblank, closesText_of_isIndentChar hblank]
          simp [Language.read, hno, hblank, houtside]
        | false =>
          rw [canBreak_cons_other hbreak hblank]
          cases hstart : language.startsComment (c :: line) with
          | false => simp [Language.read, hno, hblank, hstart]
          | true =>
            simp [Language.read, hno, hblank, hstart, hinside, closesText_of_startsComment hstart]

/-! ## Texts of lines -/

theorem startsLongBracket_append (line after : List Char) :
    startsLongBracket (line ++ '\n' :: after) = startsLongBracket line := by
  cases line with
  | nil => rfl
  | cons c line =>
    by_cases hc : c = '['
    · subst hc
      simp only [List.cons_append, startsLongBracket, List.dropWhile_append]
      cases line.dropWhile (· = '=') <;> simp
    · simp [startsLongBracket, hc]

/-- What comes after a line has nothing to do with the marks in it. -/
theorem startsComment_append (hline : line ≠ []) (after : List Char) :
    language.startsComment (line ++ '\n' :: after) = language.startsComment line := by
  match language, line with
  | _, [] => exact absurd rfl hline
  | .python, c :: line => by_cases hc : c = '#' <;> simp [Language.startsComment, hc]
  | .lua, [c] => simp [Language.startsComment]
  | .lua, c :: d :: line =>
    by_cases hc : c = '-' <;> by_cases hd : d = '-' <;>
      simp [Language.startsComment, hc, hd, startsLongBracket_append]
  | .php, [c] => by_cases hc : c = '#' <;> simp [Language.startsComment, hc]
  | .php, c :: d :: line =>
    by_cases hc : c = '#'
    · simp [Language.startsComment, hc]
    · by_cases hd : c = '/' <;> by_cases he : d = '/' <;>
        simp [Language.startsComment, hc, hd, he]

theorem closesText_append (after : List Char) :
    language.closesText (line ++ '\n' :: after) = language.closesText line := by
  match language, line with
  | .php, [] | .php, [c] => simp [Language.closesText]
  | .php, c :: d :: line =>
    by_cases hc : c = '?' <;> by_cases hd : d = '>' <;> simp [Language.closesText, hc, hd]
  | .python, _ | .lua, _ => simp [Language.closesText]

/-- A line feed ends what a line is read as. -/
theorem read_line (inside : Bool) (hline : '\n' ∉ line) (after : List Char) :
    language.read inside (line ++ '\n' :: after) =
      language.read inside line ++ .lineBreak :: language.read false after := by
  induction line generalizing inside with
  | nil => cases inside <;> rfl
  | cons c line ih =>
    rw [List.mem_cons, not_or] at hline
    have hclosed : language.closesText (c :: line ++ '\n' :: after) =
        language.closesText (c :: line) := closesText_append after
    have hstart : language.startsComment (c :: line ++ '\n' :: after) =
        language.startsComment (c :: line) := startsComment_append (by simp) after
    rw [List.cons_append] at hclosed hstart ⊢
    cases inside with
    | true =>
      simp only [Language.read, hclosed, ih _ hline.2]
      split
      · rfl
      · split <;> rfl
    | false =>
      simp only [Language.read, hstart, ih _ hline.2]
      split
      · rfl
      · split
        · rfl
        · split <;> rfl

/-- The mark ahead of a line starts a comment. -/
theorem inert_lead_iff :
    .code ∉ language.read false (language.dialect.commentStart.toList ++ line) ↔
      .code ∉ language.read true line := by
  cases language <;>
    simp [Language.dialect, Python.dialect, Lua.dialect, Php.dialect, Language.read,
      Language.startsComment, Language.closesText, startsLongBracket, isLineBreak, isIndentChar]

theorem not_mem_commentStart : '\n' ∉ language.dialect.commentStart.toList := by
  cases language <;> decide

/-- Lines with marks ahead of them are inert if every one of them is harmless. -/
theorem inert_lines_iff {lines : List (List Char)} (hlines : ∀ line ∈ lines, '\n' ∉ line) :
    .code ∉ language.read false
        (endLines (lines.map (language.dialect.commentStart.toList ++ ·))) ↔
      ∀ line ∈ lines, language.HarmlessLine line := by
  induction lines with
  | nil => simp [Language.read]
  | cons line lines ih =>
    have hfirst : '\n' ∉ line := hlines line (by simp)
    have hwhole : '\n' ∉ language.dialect.commentStart.toList ++ line := by
      simp [not_mem_commentStart, hfirst]
    rw [List.map_cons, endLines_cons, read_line false hwhole, List.mem_append, not_or,
      inert_lead_iff, (inert_line_iff hfirst).1, List.forall_mem_cons]
    simp [ih fun other hother => hlines other (by simp [hother])]

/-! ## Comments above statements -/

theorem splitLines_joinWith {texts : List String} (h : texts ≠ []) :
    splitLines (joinWith "\n" texts).toList = texts.flatMap fun text => splitLines text.toList := by
  induction texts with
  | nil => exact absurd rfl h
  | cons text texts ih =>
    cases texts with
    | nil => simp [joinWith]
    | cons next rest =>
      have hlist : (joinWith "\n" (text :: next :: rest)).toList =
          text.toList ++ '\n' :: (joinWith "\n" (next :: rest)).toList := by
        simp [joinWith]
      rw [hlist, splitLines_append, ih (by simp)]
      rfl

/-- The comment lines above a statement read as comments and line breaks if every one of
    the comments is harmless, and only then. -/
theorem commentLines_inert_iff (language : Language) (config : Config) (workspace : Workspace)
    (ref : Ref) :
    language.Inert ((Scene.ofLanguage language config workspace).commentLines ref) ↔
      (config.emitComments = true →
        ∀ comment ∈ workspace.graph.commentsAbove ref, language.Harmless comment) := by
  unfold Scene.commentLines Scene.ofLanguage Scene.graph
  dsimp only
  have hnone : language.Inert "" := List.not_mem_nil
  cases hemit : config.emitComments with
  | false => simp [hnone]
  | true =>
    cases hcomments : workspace.graph.commentsAbove ref with
    | nil => simp [hnone]
    | cons first others =>
      have hchars : (indentLines (joinWith "\n" (first :: others) ++ "\n")
          language.dialect.commentStart).toList =
          endLines (((first :: others).flatMap fun text => splitLines text.toList).map
            (language.dialect.commentStart.toList ++ ·)) := by
        rw [toList_indentLines, String.toList_append, ← splitLines_joinWith (by simp)]
        exact indentChars_concat _ _
      have hlines : ∀ line ∈ (first :: others).flatMap fun text => splitLines text.toList,
          '\n' ∉ line := by
        intro line hline
        obtain ⟨text, -, hmem⟩ := List.mem_flatMap.mp hline
        exact not_mem_of_mem_splitLines hmem
      simp only [Bool.not_true, Bool.false_eq_true, if_false, Language.Inert, hchars,
        inert_lines_iff hlines, List.mem_flatMap, true_implies]
      exact ⟨fun h comment hmem line hline => h line ⟨comment, hmem, hline⟩,
        fun h line hline => hline.elim fun comment hcomment => h comment hcomment.1 line hcomment.2⟩

/-- A block with a comment that goes on after a carriage return, and one with a comment
    that has the tag in it. -/
def brokenComments : Workspace where
  tops := [0, 1]
  graph := ⟨#[{ Block.ofType "math_number" with comment := some "a\rprint(1)" },
    { Block.ofType "math_number" with comment := some "a ?> b" }]⟩

/-- What follows a carriage return in a comment is read as code, and so is a tag. -/
theorem brokenComments_not_inert :
    (Scene.ofLanguage .python {} brokenComments).commentLines 0 = "# a\rprint(1)\n" ∧
      ¬Language.python.Inert ((Scene.ofLanguage .python {} brokenComments).commentLines 0) ∧
      (Scene.ofLanguage .php {} brokenComments).commentLines 1 = "// a ?> b\n" ∧
      ¬Language.php.Inert ((Scene.ofLanguage .php {} brokenComments).commentLines 1) := by
  unfold Language.Inert
  decide +kernel

end BlockScript
