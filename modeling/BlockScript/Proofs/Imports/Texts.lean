import BlockScript.Proofs.Imports.Covered
import BlockScript.Proofs.Pass.Ended
import BlockScript.Proofs.Text.Trimmed

/-!
# Lines that imports cover

A text of whole lines is covered by import statements if each of its lines is, and if no literal
goes on from one line to the next. Then the text can be read line by line, and it may be moved
to another indentation.

Results:

* `CoveredText.append`, `CoveredText.indented`: texts one after the other, and further inside.
* `coveredText_of_inert`: comments that read as comments.
* `uses_joinLines`: a whole text uses no more names than its lines.
-/

namespace BlockScript.Python

open BlockScript.Text

/-! ## Single lines -/

/-- Whether no literal goes on behind the place. -/
def Place.endsLine : Place → Bool
  | .code | .empty _ | .comment => true
  | _ => false

theorem Place.endsLine_of_isCode {place : Place} (h : place.isCode = true) :
    place.endsLine = true := by
  cases place with
  | code | empty => rfl
  | _ => cases h

/-- Whether a line uses names from modules only if their imports are among some statements, and
    no literal goes on behind it. -/
structure CoveredLine (stock : List String) (line : List Char) : Prop where
  ends : (Place.code.after line).endsLine = true
  imported : ∀ entry ∈ moduleNames, uses entry.1 line = true → entry.2 ∈ stock

theorem coveredLine_iff {stock : List String} {line : List Char} : CoveredLine stock line ↔
    (Place.code.after line).endsLine = true ∧
      ∀ entry ∈ moduleNames, uses entry.1 line = true → entry.2 ∈ stock :=
  ⟨fun h => ⟨h.ends, h.imported⟩, fun h => ⟨h.1, h.2⟩⟩

instance (stock : List String) (line : List Char) : Decidable (CoveredLine stock line) :=
  decidable_of_iff' _ coveredLine_iff

variable {stock more : List String} {line lead cs ds : List Char} {text : String} {c : Char}

theorem coveredLine_nil : CoveredLine stock [] :=
  ⟨rfl, fun _ _ huses => by cases huses⟩

theorem CoveredLine.mono (h : CoveredLine stock line) (hsub : stock ⊆ more) :
    CoveredLine more line :=
  ⟨h.ends, fun entry hentry huses => hsub (h.imported entry hentry huses)⟩

theorem Covered.coveredLine (h : Covered stock text) : CoveredLine stock text.toList :=
  ⟨Place.endsLine_of_isCode h.ends, h.imported⟩

/-! ## Blanks at the ends of a line -/

theorem not_isSafeChar_of_isIndentChar (h : isIndentChar c = true) : isSafeChar c = false := by
  simp only [isIndentChar, Bool.or_eq_true, decide_eq_true_eq] at h
  rcases h with rfl | rfl <;> rfl

/-- No word starts with a character that cannot be in one. -/
theorem usesFrom_cons {word : List Char} {bound : Bool} (hne : word ≠ [])
    (hword : ∀ c ∈ word, isSafeChar c = true) (hc : isSafeChar c = false) (hpoint : c ≠ '.') :
    usesFrom word bound (c :: cs) = usesFrom word false cs := by
  obtain ⟨d, word, rfl⟩ := List.exists_cons_of_ne_nil hne
  have hd : d ≠ c := by
    rintro rfl
    rw [hword d List.mem_cons_self] at hc
    cases hc
  simp [usesFrom, startsWithWord, List.isPrefixOf, hd, hc, hpoint]

/-- The indentation of a line has nothing to do with the names in it. -/
theorem coveredLine_indented (hlead : ∀ c ∈ lead, isIndentChar c = true) :
    CoveredLine stock (lead ++ line) ↔ CoveredLine stock line := by
  induction lead with
  | nil => rfl
  | cons c lead ih =>
    obtain ⟨hc, hrest⟩ := List.forall_mem_cons.mp hlead
    refine Iff.trans ?_ (ih hrest)
    have hnext : Place.next .code c = .code := by
      simp only [isIndentChar, Bool.or_eq_true, decide_eq_true_eq] at hc
      rcases hc with rfl | rfl <;> rfl
    have huses : ∀ entry ∈ moduleNames,
        uses entry.1 (c :: (lead ++ line)) = uses entry.1 (lead ++ line) := by
      intro entry hentry
      have hpoint : c ≠ '.' := by
        rintro rfl
        cases hc
      have hcode : codeOf .code (c :: (lead ++ line)) = c :: codeOf .code (lead ++ line) := by
        simp [codeOf, hnext, Place.isCode]
      have hword := isSafeChar_of_mem_moduleNames hentry
      rw [uses, hcode, usesFrom_cons (ne_nil_of_mem_moduleNames hentry) hword
        (not_isSafeChar_of_isIndentChar hc) hpoint]
      rfl
    rw [coveredLine_iff, coveredLine_iff, List.cons_append, Place.after_cons, hnext]
    exact and_congr_right fun _ => forall_congr' fun entry => forall_congr' fun hentry => by
      rw [huses entry hentry]

/-- A text uses the words that it uses ahead of the end of one. -/
theorem usesFrom_append_left {word : List Char} {bound : Bool}
    (hds : ∀ d ∈ ds.head?, isSafeChar d = false) (h : usesFrom word bound cs = true) :
    usesFrom word bound (cs ++ ds) = true := by
  induction cs generalizing bound with
  | nil => cases h
  | cons c cs ih =>
    rw [usesFrom, Bool.or_eq_true, Bool.and_eq_true, startsWithWord, Bool.and_eq_true] at h
    rw [List.cons_append, usesFrom, Bool.or_eq_true, Bool.and_eq_true, startsWithWord,
      Bool.and_eq_true]
    refine h.imp ?_ ih
    rintro ⟨hfree, hprefix, hends⟩
    obtain ⟨rest, hrest⟩ := List.isPrefixOf_iff_prefix.mp hprefix
    rw [← hrest, List.drop_left] at hends
    rw [← List.cons_append, ← hrest, List.append_assoc, List.drop_left]
    refine ⟨hfree, List.isPrefixOf_iff_prefix.mpr (List.prefix_append _ _), ?_⟩
    cases rest with
    | nil => cases ds <;> simp_all
    | cons d rest => exact hends

/-- A literal goes on behind a blank. -/
theorem Place.endsLine_of_concat (hc : isIndentChar c = true)
    (h : (Place.code.after (cs ++ [c])).endsLine = true) :
    (Place.code.after cs).endsLine = true := by
  have hquote := Place.isQuote_after cs
  rw [after_append, after_cons, after_nil] at h
  have hblank : c = ' ' ∨ c = '\t' := by simpa [isIndentChar] using hc
  have hne : ∀ quote ∈ (Place.code.after cs).quote?, c ≠ quote := by
    rintro quote hmem rfl
    rcases hblank with rfl | rfl <;> cases hquote _ hmem
  have hslash : c ≠ '\\' := by rcases hblank with rfl | rfl <;> decide
  have hbreak : ¬isLineBreak c = true := by rcases hblank with rfl | rfl <;> decide
  have hinside : ∀ quote, c ≠ quote → inside quote c = .text quote := fun quote hquote => by
    rw [inside, if_neg hquote, if_neg hslash, if_neg hbreak]
  cases hplace : Place.code.after cs with
  | code | empty | comment => rfl
  | opened q =>
    rw [hplace] at h hne
    rw [next, if_neg (hne q rfl), hinside q (hne q rfl)] at h
    cases h
  | text q =>
    rw [hplace] at h hne
    rw [next, hinside q (hne q rfl)] at h
    cases h
  | long q closing =>
    rw [hplace] at h hne
    rw [next, if_neg (hne q rfl), if_neg hslash] at h
    cases h
  | escape q | longEscape q =>
    rw [hplace] at h
    cases h

/-- A line without blanks at its end. -/
theorem CoveredLine.of_append_blank {tail : List Char} (htail : ∀ c ∈ tail, isIndentChar c = true)
    (h : CoveredLine stock (line ++ tail)) : CoveredLine stock line := by
  induction tail using List.reverseRecOn with
  | nil => rwa [List.append_nil] at h
  | append_singleton tail c ih =>
    rw [List.forall_mem_append, List.forall_mem_singleton] at htail
    refine ih htail.1 ⟨?_, fun entry hentry huses => h.imported entry hentry ?_⟩
    · rw [← List.append_assoc] at h
      exact Place.endsLine_of_concat htail.2 h.ends
    · rw [← List.append_assoc, uses, codeOf_append]
      refine usesFrom_append_left (fun d hd => ?_) huses
      rcases head?_codeOf hd with rfl | hd
      · rfl
      · cases hd
        exact not_isSafeChar_of_isIndentChar htail.2

/-! ## Texts of whole lines -/

/-- Whether a text is made of whole lines, and all of them are covered by some statements. -/
def CoveredText (stock : List String) (text : String) : Prop :=
  ∃ lines, text.toList = endLines lines ∧ ∀ line ∈ lines, '\n' ∉ line ∧ CoveredLine stock line

theorem coveredText_empty : CoveredText stock "" :=
  ⟨[], rfl, by simp⟩

/-- A single line. -/
theorem Covered.wholeLine (h : Covered stock text) : CoveredText stock (text ++ "\n") :=
  ⟨[text.toList], by simp, by simpa using ⟨h.feeds, h.coveredLine⟩⟩

/-- Texts one after the other. -/
theorem CoveredText.append {a b : String} (ha : CoveredText stock a) (hb : CoveredText stock b) :
    CoveredText stock (a ++ b) := by
  obtain ⟨lines, ha, hlines⟩ := ha
  obtain ⟨others, hb, hothers⟩ := hb
  refine ⟨lines ++ others, by rw [String.toList_append, ha, hb, endLines_append], ?_⟩
  exact List.forall_mem_append.mpr ⟨hlines, hothers⟩

theorem coveredText_concat {texts : List String} (h : ∀ text ∈ texts, CoveredText stock text) :
    CoveredText stock (concat texts) := by
  induction texts with
  | nil => exact coveredText_empty
  | cons text texts ih =>
    obtain ⟨hfirst, hrest⟩ := List.forall_mem_cons.mp h
    exact hfirst.append (ih hrest)

theorem indentChars_endLines (lead : List Char) {lines : List (List Char)}
    (h : ∀ line ∈ lines, '\n' ∉ line) :
    indentChars lead (endLines lines) = endLines (lines.map (lead ++ ·)) := by
  induction lines with
  | nil => rfl
  | cons line lines ih =>
    obtain ⟨hfirst, hrest⟩ := List.forall_mem_cons.mp h
    rw [endLines_cons, indentChars_append, splitLines_of_not_mem hfirst, ih hrest, List.map_cons,
      List.map_nil, endLines_cons, endLines_nil, List.append_assoc, List.singleton_append,
      List.map_cons, endLines_cons]

/-- A text further inside. -/
theorem CoveredText.indented {unit : String} (hunit : ∀ c ∈ unit.toList, isIndentChar c = true)
    (h : CoveredText stock text) : CoveredText stock (indentLines text unit) := by
  obtain ⟨lines, htext, hlines⟩ := h
  refine ⟨lines.map (unit.toList ++ ·), ?_, fun line hline => ?_⟩
  · rw [toList_indentLines, htext, indentChars_endLines _ fun line hline => (hlines line hline).1]
  · obtain ⟨inner, hinner, rfl⟩ := List.mem_map.mp hline
    obtain ⟨hfeed, hcovered⟩ := hlines inner hinner
    refine ⟨?_, (coveredLine_indented hunit).mpr hcovered⟩
    rw [List.mem_append, not_or]
    exact ⟨fun hmem => absurd (hunit _ hmem) (by decide), hfeed⟩

/-- A line further inside. -/
theorem Covered.indentedLine {unit : String} (hunit : ∀ c ∈ unit.toList, isIndentChar c = true)
    (h : Covered stock text) : CoveredText stock (unit ++ (text ++ "\n")) := by
  refine ⟨[unit.toList ++ text.toList], by simp, ?_⟩
  rw [List.forall_mem_singleton, List.mem_append, not_or]
  exact ⟨⟨fun hmem => absurd (hunit _ hmem) (by decide), h.feeds⟩,
    (coveredLine_indented hunit).mpr h.coveredLine⟩

/-- Line feeds at the end of a text are dropped. -/
theorem CoveredText.oneTrailingNewline (h : CoveredText stock text) :
    CoveredText stock (oneTrailingNewline text) := by
  obtain ⟨lines, htext, hlines⟩ := h
  unfold Text.oneTrailingNewline
  split
  · exact coveredText_empty
  · next hblank =>
    unfold CoveredText dropNewlines
    rw [String.toList_append, String.toList_ofList, htext]
    replace hblank : (endLines lines).all isBlank = false := by
      rw [← htext]
      simpa [isBlankText] using hblank
    clear htext
    induction lines using List.reverseRecOn with
    | nil => cases hblank
    | append_singleton lines line ih =>
      rw [List.forall_mem_append, List.forall_mem_singleton] at hlines
      cases line using List.reverseRecOn with
      | nil =>
        have hdrop : dropEndWhile (· = '\n') (endLines (lines ++ [[]])) =
            dropEndWhile (· = '\n') (endLines lines) := by
          simp [dropEndWhile]
        rw [hdrop]
        refine ih hlines.1 ?_
        rw [endLines_append, List.all_append] at hblank
        simpa [isBlank_lineFeed] using hblank
      | append_singleton line c =>
        have hc : c ≠ '\n' := fun heq => hlines.2.1 (by simp [heq])
        refine ⟨lines ++ [line ++ [c]], by simp [dropEndWhile, hc], ?_⟩
        exact List.forall_mem_append.mpr ⟨hlines.1, by simpa using hlines.2⟩

/-! ## Comments -/

/-- What reads as comments and blanks has no words in its code. -/
theorem codeOf_of_read (inside : Bool) (h : .code ∉ Language.python.read inside line) :
    ((if inside then Place.comment else .code).after line).endsLine = true ∧
      ∀ c ∈ codeOf (if inside then .comment else .code) line, isSafeChar c = false := by
  induction line generalizing inside with
  | nil => cases inside <;> exact ⟨rfl, by simp [codeOf]⟩
  | cons c line ih =>
    have hstep : ∀ {place : Place} (later : Bool),
        place.next c = (if later then .comment else .code) →
        (place = .code → later = false → isSafeChar c = false) →
        .code ∉ Language.python.read later line → (place = .code ∨ place = .comment) →
        (place.after (c :: line)).endsLine = true ∧
          ∀ d ∈ codeOf place (c :: line), isSafeChar d = false := by
      intro place later hnext hc hlater hplace
      obtain ⟨hends, hcode⟩ := ih later hlater
      rw [Place.after_cons, codeOf, hnext]
      refine ⟨hends, List.forall_mem_cons.mpr ⟨?_, hcode⟩⟩
      rcases hplace with rfl | rfl <;> cases later <;> simp_all [Place.isCode] <;> rfl
    cases inside with
    | true =>
      have hclosed : Language.python.closesText (c :: line) = false := rfl
      simp only [Language.read, hclosed, Bool.false_eq_true, if_false] at h
      split at h
      · next hbreak =>
        exact hstep false (by simp [Place.next, hbreak]) (by simp) (List.not_mem_of_not_mem_cons h)
          (.inr rfl)
      · next hbreak =>
        exact hstep true (by simp [Place.next, hbreak]) (by simp) (List.not_mem_of_not_mem_cons h)
          (.inr rfl)
    | false =>
      simp only [Language.read] at h
      split at h
      · next hbreak =>
        have hchar : c = '\n' ∨ c = '\r' := by simpa [isLineBreak] using hbreak
        exact hstep false (by rcases hchar with rfl | rfl <;> rfl)
          (fun _ _ => by rcases hchar with rfl | rfl <;> rfl) (List.not_mem_of_not_mem_cons h)
          (.inl rfl)
      · split at h
        · next hblank =>
          have hchar : c = ' ' ∨ c = '\t' := by simpa [isIndentChar] using hblank
          exact hstep false (by rcases hchar with rfl | rfl <;> rfl)
            (fun _ _ => not_isSafeChar_of_isIndentChar hblank) (List.not_mem_of_not_mem_cons h)
            (.inl rfl)
        · split at h
          · next hstart =>
            have hchar : c = '#' := by
              by_contra hno
              simp [Language.startsComment, hno] at hstart
            exact hstep true (by rw [hchar]; rfl) (by simp) (List.not_mem_of_not_mem_cons h)
              (.inl rfl)
          · exact absurd List.mem_cons_self h

/-- Comments that read as comments are covered. -/
theorem coveredLine_of_read (h : .code ∉ Language.python.read false line) :
    CoveredLine stock line := by
  obtain ⟨hends, hcode⟩ := codeOf_of_read false h
  refine ⟨hends, fun entry hentry huses => ?_⟩
  rw [uses_of_no_word hentry hcode] at huses
  cases huses

/-- Whole lines that read as comments are covered. -/
theorem coveredText_of_inert (hpiece : IsPiece text) (h : Language.python.Inert text) :
    CoveredText stock text := by
  obtain ⟨lines, hlines, htext, -⟩ := hpiece.isLed_indentLines ""
  refine ⟨lines, htext, ?_⟩
  unfold Language.Inert at h
  rw [htext] at h
  clear htext
  induction lines with
  | nil => simp
  | cons line lines ih =>
    obtain ⟨hfirst, hrest⟩ := List.forall_mem_cons.mp hlines
    rw [endLines_cons, read_line false hfirst, List.mem_append, not_or] at h
    exact List.forall_mem_cons.mpr ⟨⟨hfirst, coveredLine_of_read h.1⟩,
      ih (List.not_mem_of_not_mem_cons h.2) hrest⟩

/-! ## Whole texts -/

/-- Whether all lines of a text are covered by some statements. -/
def CoveredLines (stock : List String) (cs : List Char) : Prop :=
  ∀ line ∈ splitLines cs, CoveredLine stock line

theorem CoveredText.lines (h : CoveredText stock text) : CoveredLines stock text.toList := by
  obtain ⟨lines, htext, hlines⟩ := h
  have hsplit := splitLines_endLines_append (fun line hline => (hlines line hline).1) []
  rw [List.append_nil] at hsplit
  rw [CoveredLines, htext, hsplit]
  refine List.forall_mem_append.mpr ⟨fun line hline => (hlines line hline).2, ?_⟩
  simpa [splitLines] using coveredLine_nil

/-- Texts on either side of a line feed. -/
theorem coveredLines_feed : CoveredLines stock (cs ++ '\n' :: ds) ↔
    CoveredLines stock cs ∧ CoveredLines stock ds := by
  rw [CoveredLines, splitLines_append, List.forall_mem_append]
  rfl

/-- Line feeds ahead of a text. -/
theorem coveredLines_dropWhile (h : CoveredLines stock cs) :
    CoveredLines stock (cs.dropWhile (· = '\n')) := by
  induction cs with
  | nil => exact h
  | cons c cs ih =>
    by_cases hc : c = '\n'
    · subst hc
      rw [List.dropWhile_cons_of_pos (by simp)]
      have hfeed : CoveredLines stock ([] ++ '\n' :: cs) := h
      exact ih (coveredLines_feed.mp hfeed).2
    · rwa [List.dropWhile_cons_of_neg (by simpa using hc)]

/-- Line feeds behind a text. -/
theorem coveredLines_dropEndWhile (h : CoveredLines stock cs) :
    CoveredLines stock (dropEndWhile (· = '\n') cs) := by
  induction cs using List.reverseRecOn with
  | nil => exact h
  | append_singleton cs c ih =>
    by_cases hc : c = '\n'
    · subst hc
      have hdrop : dropEndWhile (· = '\n') (cs ++ ['\n']) = dropEndWhile (· = '\n') cs := by
        simp [dropEndWhile]
      rw [hdrop]
      exact ih (coveredLines_feed.mp h).1
    · have hkeep : dropEndWhile (· = '\n') (cs ++ [c]) = cs ++ [c] := by simp [dropEndWhile, hc]
      rwa [hkeep]

theorem coveredLines_trimNewlines (h : CoveredLines stock text.toList) :
    CoveredLines stock (trimNewlines text).toList := by
  rw [trimNewlines, String.toList_ofList]
  exact coveredLines_dropEndWhile (coveredLines_dropWhile h)

/-- A line feed ends whatever does not go on behind it. -/
theorem Place.next_feed (h : (Place.code.after cs).endsLine = true) :
    (Place.code.after cs).next '\n' = .code := by
  have hquote := Place.isQuote_after cs
  cases hplace : Place.code.after cs with
  | code | comment => rfl
  | empty q =>
    rw [hplace] at hquote
    have hne : '\n' ≠ q := by
      rintro rfl
      cases hquote _ rfl
    simp [next, hne, start]
  | _ =>
    rw [hplace] at h
    cases h

/-- A text uses no more names than its lines do. -/
theorem uses_joinLines {lines : List (List Char)} {entry : String × String}
    (hentry : entry ∈ moduleNames) (hlines : ∀ line ∈ lines, CoveredLine stock line)
    (h : uses entry.1 (joinLines lines) = true) : entry.2 ∈ stock := by
  induction lines with
  | nil => cases h
  | cons line lines ih =>
    obtain ⟨hfirst, hrest⟩ := List.forall_mem_cons.mp hlines
    cases lines with
    | nil => exact hfirst.imported entry hentry h
    | cons next lines =>
      have hword := isSafeChar_of_mem_moduleNames hentry
      obtain ⟨c, hc, hcode⟩ : ∃ c, (c = '\n' ∨ c = ' ') ∧
          codeOf .code (line ++ '\n' :: joinLines (next :: lines)) =
            codeOf .code line ++ c :: codeOf .code (joinLines (next :: lines)) := by
        rw [codeOf_append, codeOf, Place.next_feed hfirst.ends]
        split
        · exact ⟨_, .inl rfl, rfl⟩
        · exact ⟨_, .inr rfl, rfl⟩
      have hsafe : isSafeChar c = false ∧ c ≠ '.' := by rcases hc with rfl | rfl <;> decide
      rw [uses, joinLines, hcode] at h
      · rcases usesFrom_append hword (fun _ _ d hd => .inr (by cases hd; exact hsafe.1)) h with
          hline | hlater
        · exact hfirst.imported entry hentry hline
        · rw [usesFrom_cons (ne_nil_of_mem_moduleNames hentry) hword hsafe.1 hsafe.2] at hlater
          exact ih hrest hlater
      · simp

end BlockScript.Python
