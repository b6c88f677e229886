import BlockScript.Proofs.Names.Capture
import BlockScript.Proofs.Suite.Lines

/-!
# The text of a helper

The template of a helper mentions the name of the helper by a placeholder. Its text mentions
the name itself, at the same places, and apart from that it is the same under every name:
moving it to another indentation changes the spaces ahead of a line, and a name is none of
them. The templates of the languages mention the name in the header of a function only.

Results:

* `recast_weave`: a text is moved to another indentation around the names in it.
* `Definitions.toList_helperText`: where the text of a helper mentions its name.
* `Language.HasTemplate.helperText_eq`: the text of a helper starts with a header.
-/

namespace BlockScript.Text

/-! ## Cutting a text at a pattern -/

/-- What stands ahead of the first occurrence of a pattern, and what stands behind each of
    them, where the next `skip` characters belong to an occurrence. -/
def cutFrom (pattern : List Char) : Nat → List Char → List Char × List (List Char)
  | _, [] => ([], [])
  | skip + 1, _ :: rest => cutFrom pattern skip rest
  | 0, c :: rest =>
    if pattern.isPrefixOf (c :: rest) then
      let (ahead, behind) := cutFrom pattern (pattern.length - 1) rest
      ([], ahead :: behind)
    else
      let (ahead, behind) := cutFrom pattern 0 rest
      (c :: ahead, behind)

/-- A text ahead of the first name, and what stands behind each name. -/
def weave (name : List Char) (pieces : List Char × List (List Char)) : List Char :=
  pieces.1 ++ pieces.2.flatMap fun piece => name ++ piece

/-- What is between the occurrences of a pattern stays. -/
theorem replaceFrom_eq (pattern new : List Char) (skip : Nat) (cs : List Char) :
    replaceFrom pattern new skip cs = weave new (cutFrom pattern skip cs) := by
  induction cs generalizing skip with
  | nil => cases skip <;> rfl
  | cons c rest ih =>
    cases skip with
    | succ skip => exact ih skip
    | zero =>
      unfold replaceFrom cutFrom
      split
      · simp [ih, weave]
      · simp [ih, weave]

/-! ## Moving a text to another indentation -/

/-- A text with one change made to its first line, and another one to the other lines. -/
def recast (first other : List Char → List Char) (cs : List Char) : List Char :=
  match splitLines cs with
  | [] => []
  | line :: lines => joinLines (first line :: lines.map other)

theorem recast_joinLines (first other : List Char → List Char) {line : List Char}
    {lines : List (List Char)} (h : ∀ part ∈ line :: lines, '\n' ∉ part) :
    recast first other (joinLines (line :: lines)) = joinLines (first line :: lines.map other) := by
  rw [recast, splitLines_joinLines (by simp) h]

/-- The last line of a text goes on with what is behind the text. -/
theorem exists_splitLines_append (cs : List Char) : ∃ lines last,
    splitLines cs = lines ++ [last] ∧ ∀ ds line more, splitLines ds = line :: more →
      splitLines (cs ++ ds) = lines ++ (last ++ line) :: more := by
  induction cs with
  | nil => exact ⟨[], [], rfl, fun ds line more h => h⟩
  | cons c cs ih =>
    obtain ⟨lines, last, hlines, happend⟩ := ih
    by_cases hc : c = '\n'
    · refine ⟨[] :: lines, last, by simp [splitLines, hc, hlines], fun ds line more h => ?_⟩
      simp [splitLines, hc, happend ds line more h]
    · cases lines with
      | nil =>
        refine ⟨[], c :: last, by simp [splitLines, hc, hlines], fun ds line more h => ?_⟩
        simp [splitLines, hc, happend ds line more h]
      | cons head lines =>
        refine ⟨(c :: head) :: lines, last, by simp [splitLines, hc, hlines],
          fun ds line more h => ?_⟩
        simp [splitLines, hc, happend ds line more h]

/-- A word without line feeds is the start of a line. -/
theorem splitLines_append_of_not_mem {word ds line : List Char} {more : List (List Char)}
    (hword : '\n' ∉ word) (hds : splitLines ds = line :: more) :
    splitLines (word ++ ds) = (word ++ line) :: more := by
  induction word with
  | nil => exact hds
  | cons c word ih =>
    rw [List.mem_cons, not_or] at hword
    simp [splitLines, Ne.symm hword.1, ih hword.2]

theorem joinLines_cons_append (cs line : List Char) (lines : List (List Char)) :
    joinLines ((cs ++ line) :: lines) = cs ++ joinLines (line :: lines) := by
  cases lines <;> simp [joinLines]

/-- Whether a change to a line does not reach what stands behind the start of a word. -/
def Leaves (change : List Char → List Char) (word : List Char) : Prop :=
  ∀ cs ds, change (cs ++ (word ++ ds)) = change cs ++ (word ++ ds)

variable {first other : List Char → List Char} {word : List Char}

/-- Lines are changed around a word that the changes do not reach. -/
theorem recast_append (hfirst : Leaves first word) (hother : Leaves other word)
    (hword : '\n' ∉ word) (cs ds : List Char) :
    recast first other (cs ++ (word ++ ds)) =
      recast first other cs ++ (word ++ recast id other ds) := by
  cases hds : splitLines ds with
  | nil => exact absurd hds (splitLines_ne_nil ds)
  | cons line more =>
    obtain ⟨lines, last, hlines, happend⟩ := exists_splitLines_append cs
    have hall := happend (word ++ ds) _ _ (splitLines_append_of_not_mem hword hds)
    unfold recast
    rw [hall, hlines, hds]
    cases lines with
    | nil =>
      dsimp only [List.nil_append]
      rw [hfirst, joinLines_cons_append, joinLines_cons_append]
      rfl
    | cons head lines =>
      dsimp only [List.cons_append]
      rw [List.map_append, List.map_cons, hother, ← List.cons_append, joinLines_append _ (by simp),
        List.map_append, ← List.cons_append, joinLines_append _ (by simp), joinLines_cons_append,
        joinLines_cons_append, List.append_assoc]
      rfl

/-- A text is changed around the names in it. -/
theorem recast_weave (hfirst : Leaves first word) (hother : Leaves other word)
    (hword : '\n' ∉ word) (ahead : List Char) (behind : List (List Char)) :
    recast first other (weave word (ahead, behind)) =
      weave word (recast first other ahead, behind.map (recast id other)) := by
  induction behind generalizing first ahead with
  | nil => simp [weave]
  | cons piece behind ih =>
    have hrest : weave word (ahead, piece :: behind) =
        ahead ++ (word ++ weave word (piece, behind)) := by simp [weave]
    rw [hrest, recast_append hfirst hother hword, ih (fun _ _ => rfl)]
    simp [weave]

/-! ## Texts that stay as they are -/

/-- A text in which a pattern does not occur is not cut. -/
theorem cutFrom_of_not_occursIn {pattern cs : List Char} (h : occursIn pattern cs = false) :
    cutFrom pattern 0 cs = (cs, []) := by
  induction cs with
  | nil => rfl
  | cons c rest ih =>
    simp only [occursIn, Bool.or_eq_false_iff] at h
    simp [cutFrom, h.1, ih h.2]

/-- A text is cut at the pattern in it. -/
theorem cutFrom_append {p : Char} {pattern ahead behind : List Char} (hahead : p ∉ ahead)
    (hbehind : occursIn (p :: pattern) behind = false) :
    cutFrom (p :: pattern) 0 (ahead ++ (p :: pattern ++ behind)) = (ahead, [behind]) := by
  have hskip : ∀ cs ds : List Char,
      cutFrom (p :: pattern) cs.length (cs ++ ds) = cutFrom (p :: pattern) 0 ds := by
    intro cs ds
    induction cs with
    | nil => rfl
    | cons c cs ih => exact ih
  induction ahead with
  | nil =>
    simp only [List.nil_append, List.cons_append, cutFrom, List.isPrefixOf_cons_cons_self,
      List.isPrefixOf_iff_prefix, List.prefix_append, if_true, List.length_cons,
      Nat.add_sub_cancel, hskip, cutFrom_of_not_occursIn hbehind]
  | cons c ahead ih =>
    rw [List.mem_cons, not_or] at hahead
    have hrest := ih hahead.2
    rw [List.cons_append] at hrest
    simp [cutFrom, List.isPrefixOf, hahead.1, hrest]

theorem toList_joinWith_newline (lines : List String) :
    (joinWith "\n" lines).toList = joinLines (lines.map String.toList) := by
  induction lines with
  | nil => rfl
  | cons line lines ih =>
    cases lines with
    | nil => rfl
    | cons next lines => simp [joinWith, joinLines, ih]

end BlockScript.Text

namespace BlockScript

open BlockScript.Text

/-! ## Helpers -/

/-- A template in the indentation of a program, cut at the places for its name. -/
def Definitions.pieces (template unit : String) : List Char × List (List Char) :=
  let (ahead, behind) :=
    cutFrom Definitions.placeholder.toList 0 (trimNewlines (dedent template)).toList
  let change := reindentLine unit.toList
  (recast change change ahead, behind.map (recast id change))

theorem leaves_reindentLine (unit : List Char) {c : Char} (hc : c ≠ ' ') (rest : List Char) :
    Leaves (reindentLine unit) (c :: rest) := by
  intro cs ds
  have hspaces : (cs ++ (c :: rest ++ ds)).takeWhile (· = ' ') = cs.takeWhile (· = ' ') := by
    rw [List.takeWhile_append]
    split
    · next h =>
      rw [(List.takeWhile_prefix _).eq_of_length h]
      simp [hc]
    · rfl
  have hle : 2 * ((cs.takeWhile (· = ' ')).length / 2) ≤ cs.length := by
    have := (List.takeWhile_prefix (l := cs) (p := fun c => decide (c = ' '))).length_le
    omega
  unfold reindentLine
  dsimp only
  rw [hspaces, List.drop_append_of_le_length hle, List.append_assoc]

theorem toList_reindent (code unit : String) : (reindent code unit).toList =
    recast (reindentLine unit.toList) (reindentLine unit.toList) code.toList := by
  unfold reindent recast
  rw [String.toList_ofList]
  cases splitLines code.toList <;> rfl

/-- The text of a helper is its template in the indentation of the program, with the name
    wherever it belongs. -/
theorem Definitions.toList_helperText (template unit : String) {name : String}
    (hname : IsIdentifier name) : (helperText template name unit).toList =
      weave name.toList (pieces template unit) ++ ['\n'] := by
  obtain ⟨c, cs, hchars, hc, -, hcs⟩ := hname
  have hsafe : ∀ d ∈ name.toList, isSafeChar d = true := by
    rw [hchars]
    exact List.forall_mem_cons.mpr ⟨hc, hcs⟩
  have hfeed : '\n' ∉ name.toList := fun hmem => absurd (hsafe _ hmem) (by decide)
  have hspace : c ≠ ' ' := by
    rintro rfl
    exact absurd hc (by decide)
  have hleaves : Leaves (reindentLine unit.toList) name.toList :=
    hchars ▸ leaves_reindentLine unit.toList hspace cs
  unfold helperText pieces
  rw [String.toList_append, toList_reindent, replaceAll, String.toList_ofList, replaceFrom_eq,
    recast_weave hleaves hleaves hfeed]
  rfl

/-! ### Headers -/

/-- What stands ahead of the name in the header of a function. -/
def Language.headerStart : Language → String
  | .python => "def "
  | .lua | .php => "function "

/-- What stands behind the parameters in the header of a function. -/
def Language.headerEnd : Language → String
  | .python => "):"
  | .lua => ")"
  | .php => ") \x7b"

theorem procedureHeader_eq (language : Language) (name args : String) :
    language.dialect.procedureHeader name args =
      language.headerStart ++ name ++ "(" ++ args ++ language.headerEnd ++ "\n" := by
  rw [@String.append_assoc _ language.headerEnd "\n"]
  cases language <;> rfl

/-- Whether the lines of a template are a header with the placeholder in it, and a body
    without one. No line is blank, and the header starts at the margin. -/
def Language.isTemplate (language : Language) : List (List Char) → Bool
  | [] => false
  | header :: body =>
    let start := language.headerStart.toList ++ Definitions.placeholder.toList
    let params := (header.drop (start.length + 1)).takeWhile (· ≠ ')')
    let tail := '(' :: params ++ language.headerEnd.toList
    header == start ++ tail && !body.isEmpty &&
      (header :: body).all (fun line => !line.contains '\n' && !line.all isIndentChar) &&
      !occursIn Definitions.placeholder.toList (joinLines (tail :: body))

/-- Whether a template is made of such lines. -/
def Language.HasTemplate (language : Language) (template : String) : Prop :=
  ∃ lines charLines, template = helperLines lines ∧
    List.Forall₂ (fun line chars => line = String.ofList chars) lines charLines ∧
    language.isTemplate charLines = true

theorem hasTemplate_helperLines {language : Language} {lines : List String}
    {charLines : List (List Char)}
    (h : List.Forall₂ (fun line chars => line = String.ofList chars) lines charLines)
    (hshape : language.isTemplate charLines = true) : language.HasTemplate (helperLines lines) :=
  ⟨lines, charLines, rfl, h, hshape⟩

/-- All helpers have such templates. -/
theorem hasTemplate_helpers (language : Language) :
    ∀ helper ∈ language.dialect.helpers, language.HasTemplate helper.template := by
  cases language with
  | python =>
    simp only [show Language.python.dialect.helpers = [Python.primeHelper, Python.meanHelper,
      Python.medianHelper, Python.modesHelper, Python.deviationHelper] from rfl,
      List.forall_mem_cons]
    refine ⟨?_, ?_, ?_, ?_, ?_, by simp⟩
    all_goals
      apply hasTemplate_helperLines
      · repeat first | apply List.Forall₂.nil | (apply List.Forall₂.cons; exact rfl)
      · decide +kernel
  | lua =>
    simp only [show Language.lua.dialect.helpers = [Lua.primeHelper, Lua.sumHelper,
      Lua.minimumHelper, Lua.maximumHelper, Lua.averageHelper, Lua.medianHelper, Lua.modesHelper,
      Lua.deviationHelper, Lua.randomItemHelper] from rfl, List.forall_mem_cons]
    refine ⟨?_, ?_, ?_, ?_, ?_, ?_, ?_, ?_, ?_, by simp⟩
    all_goals
      apply hasTemplate_helperLines
      · repeat first | apply List.Forall₂.nil | (apply List.Forall₂.cons; exact rfl)
      · decide +kernel
  | php =>
    simp only [show Language.php.dialect.helpers = [Php.primeHelper, Php.meanHelper,
      Php.medianHelper, Php.modesHelper, Php.deviationHelper, Php.randomItemHelper,
      Php.randomIntegerHelper] from rfl, List.forall_mem_cons]
    refine ⟨?_, ?_, ?_, ?_, ?_, ?_, ?_, by simp⟩
    all_goals
      apply hasTemplate_helperLines
      · repeat first | apply List.Forall₂.nil | (apply List.Forall₂.cons; exact rfl)
      · decide +kernel

theorem toList_helperLines {lines : List String} {charLines : List (List Char)}
    (h : List.Forall₂ (fun line chars => line = String.ofList chars) lines charLines) :
    (helperLines lines).toList = joinLines charLines := by
  have hmap : lines.map String.toList = charLines := by
    induction h with
    | nil => rfl
    | cons hline _ ih => rw [List.map_cons, ih, hline, String.toList_ofList]
  rw [helperLines, toList_joinWith_newline, hmap]

/-- A text without a margin that holds no blank lines keeps its lines. -/
theorem dedentLines_of_header {header : List Char} {body : List (List Char)} {c : Char}
    (hstart : header.head? = some c) (hc : isIndentChar c = false)
    (hlines : ∀ line ∈ header :: body, line.all isIndentChar = false) :
    dedentLines (header :: body) = header :: body := by
  have hfilter : (header :: body).filter (fun line => !line.all isIndentChar) = header :: body :=
    List.filter_eq_self.mpr fun line hline => by simp [hlines line hline]
  have hmargin : margin (header :: body) = [] := by
    cases header with
    | nil => cases hstart
    | cons d header =>
      obtain rfl : d = c := by simpa using hstart
      cases body <;> simp [margin, hc, commonStart]
  unfold dedentLines
  rw [hfilter, hmargin]
  refine (List.map_congr_left fun line hline => ?_).trans (List.map_id _)
  simp [hlines line hline]

/-- Nothing is trimmed off lines that are not blank. -/
theorem trimNewlines_joinLines {lines : List (List Char)} (hne : lines ≠ [])
    (hfeeds : ∀ line ∈ lines, '\n' ∉ line) (hsome : ∀ line ∈ lines, line ≠ []) :
    trimNewlines (String.ofList (joinLines lines)) = String.ofList (joinLines lines) := by
  have hstart : (joinLines lines).dropWhile (· = '\n') = joinLines lines := by
    obtain ⟨line, more, rfl⟩ := List.exists_cons_of_ne_nil hne
    obtain ⟨c, cs, rfl⟩ := List.exists_cons_of_ne_nil (hsome _ List.mem_cons_self)
    have hc : c ≠ '\n' := fun heq => hfeeds _ List.mem_cons_self (by simp [heq])
    cases more <;> simp [joinLines, hc]
  have hend : dropEndWhile (· = '\n') (joinLines lines) = joinLines lines := by
    obtain ⟨more, line, rfl⟩ := List.eq_nil_or_concat' lines |>.resolve_left hne
    have hline : line ∈ more ++ [line] := List.mem_append_right _ List.mem_cons_self
    obtain ⟨cs, c, rfl⟩ := List.eq_nil_or_concat' line |>.resolve_left (hsome _ hline)
    have hc : c ≠ '\n' := fun heq => hfeeds _ hline (by simp [heq])
    rw [joinLines_append _ (by simp)]
    simp [joinLines, dropEndWhile, hc]
  unfold trimNewlines trimWhile
  rw [String.toList_ofList, hstart, hend]

/-- A text at the margin without blank lines is kept. -/
theorem trimNewlines_dedent {text : String} {header : List Char} {body : List (List Char)}
    {c : Char} (htext : text.toList = joinLines (header :: body))
    (hstart : header.head? = some c) (hc : isIndentChar c = false)
    (hfeeds : ∀ line ∈ header :: body, '\n' ∉ line)
    (hlines : ∀ line ∈ header :: body, line.all isIndentChar = false) :
    trimNewlines (dedent text) = String.ofList (joinLines (header :: body)) := by
  have hsome : ∀ line ∈ header :: body, line ≠ [] := by
    rintro line hline rfl
    exact absurd (hlines _ hline) (by decide)
  unfold dedent
  rw [htext, splitLines_joinLines (by simp) hfeeds, dedentLines_of_header hstart hc hlines,
    trimNewlines_joinLines (by simp) hfeeds hsome]

/-- What stands ahead of the name in a header is at the margin. -/
theorem exists_headerStart (language : Language) : ∃ c start,
    language.headerStart.toList = c :: start ∧ isIndentChar c = false ∧ '\n' ∉ c :: start := by
  cases language <;> exact ⟨_, _, rfl, by decide⟩

theorem recast_headerStart (language : Language) (unit : List Char) :
    recast (reindentLine unit) (reindentLine unit) language.headerStart.toList =
      language.headerStart.toList := by
  obtain ⟨c, start, hstart, hc, hfeed⟩ := exists_headerStart language
  have hspace : c ≠ ' ' := by
    rintro rfl
    exact absurd hc (by decide)
  have hline : reindentLine unit (c :: start) = c :: start := by
    simpa [reindentLine] using leaves_reindentLine unit hspace start [] []
  rw [hstart, recast, splitLines_of_not_mem hfeed]
  exact hline

/-- The lines of a helper are those of its template in the indentation of the program, with
    the name in the header. -/
theorem Language.toList_helperText {language : Language} {lines : List String}
    {header : List Char} {body : List (List Char)}
    (hlines : List.Forall₂ (fun line chars => line = String.ofList chars) lines (header :: body))
    (hshape : language.isTemplate (header :: body) = true) (unit : String) :
    ∃ params, header = language.headerStart.toList ++ Definitions.placeholder.toList ++
        ('(' :: params ++ language.headerEnd.toList) ∧
      ∀ name, IsIdentifier name → (Definitions.helperText (helperLines lines) name unit).toList =
        endLines ((language.headerStart.toList ++ (name.toList ++
          ('(' :: params ++ language.headerEnd.toList))) ::
            body.map (reindentLine unit.toList)) := by
  have hchars := toList_helperLines hlines
  simp only [isTemplate, Bool.and_eq_true, beq_iff_eq, List.all_eq_true, Bool.not_eq_true',
    List.contains_eq_mem, decide_eq_false_iff_not] at hshape
  generalize (header.drop _).takeWhile _ = params at hshape
  obtain ⟨⟨⟨rfl, hbody⟩, hall⟩, hbehind⟩ := hshape
  obtain ⟨first, others, rfl⟩ : ∃ first others, body = first :: others :=
    List.exists_cons_of_ne_nil (by simpa using hbody)
  obtain ⟨c, start, hstart, hc, -⟩ := exists_headerStart language
  have htrimmed := trimNewlines_dedent hchars (by rw [hstart]; rfl) hc
    (fun line hline => (hall line hline).1) fun line hline => (hall line hline).2
  generalize htail : '(' :: params ++ language.headerEnd.toList = tail at *
  have hcut : cutFrom Definitions.placeholder.toList 0
      (joinLines ((language.headerStart.toList ++ Definitions.placeholder.toList ++ tail) ::
        first :: others)) =
      (language.headerStart.toList, [joinLines (tail :: first :: others)]) := by
    rw [List.append_assoc, joinLines_cons_append, joinLines_cons_append]
    exact cutFrom_append (by cases language <;> decide) hbehind
  have hfeeds : ∀ line ∈ tail :: first :: others, '\n' ∉ line :=
    List.forall_mem_cons.mpr
      ⟨fun hmem => (hall _ List.mem_cons_self).1 (List.mem_append_right _ hmem),
        fun line hline => (hall line (.tail _ hline)).1⟩
  refine ⟨params, by rw [htail], fun name hname => ?_⟩
  rw [Definitions.toList_helperText _ _ hname, Definitions.pieces, htrimmed, String.toList_ofList,
    hcut]
  dsimp only [weave]
  rw [recast_headerStart, List.map_singleton, recast_joinLines id _ hfeeds, List.flatMap_singleton,
    ← joinLines_cons_append, ← joinLines_cons_append, id, endLines_eq_joinLines (by simp), htail]

/-- A helper starts with the header that the language writes for a procedure, and its name
    stands nowhere else. -/
theorem Language.HasTemplate.helperText_eq {language : Language} {template : String}
    (h : language.HasTemplate template) (unit : String) :
    ∃ params rest, ∀ name, IsIdentifier name → Definitions.helperText template name unit =
      language.dialect.procedureHeader name params ++ rest := by
  obtain ⟨lines, charLines, rfl, hlines, hshape⟩ := h
  cases charLines with
  | nil => cases hshape
  | cons header body =>
    obtain ⟨params, -, htext⟩ := language.toList_helperText hlines hshape unit
    refine ⟨String.ofList params, String.ofList (endLines (body.map (reindentLine unit.toList))),
      fun name hname => ?_⟩
    rw [← String.toList_inj, htext name hname, procedureHeader_eq]
    simp [endLines]

end BlockScript
