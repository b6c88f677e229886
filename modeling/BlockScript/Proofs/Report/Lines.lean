import BlockScript.Proofs.Report.Outermost
import BlockScript.Proofs.Text.Lines

/-!
# Lines of a report

The parser sees the program behind what it needs ahead of it, and counts rows from there. The
report counts lines of the program alone. The two agree for every node that starts in the
program. A node that starts ahead of the program has no line in it; the report gives it line 0.
This is the case of a PHP program that as a whole could not be read, since its root starts at
the opening tag.

Results:

* `splitLines_parsedText`: the lines of the parsed text end in those of the program.
* `syntaxIssues_lines`: which issues stand on a line of the program, and on which one.
* `unreadable_notWithin`: a program with an issue on line 0.
-/

namespace BlockScript

open BlockScript.Text

variable {language source : String}

namespace SyntaxNode

variable {node found : SyntaxNode}

/-! ## Where nodes start -/

/-- The row that a node starts in. -/
def row : SyntaxNode → Int
  | .node _ row _ _ _ _ => row

/-- The column that a node starts at. -/
def column : SyntaxNode → Int
  | .node _ _ column _ _ _ => column

/-- Whether a node starts within a text: in one of its lines and no further than at the end of
    it. Columns count the bytes of a line. -/
def StartsIn (text : String) (node : SyntaxNode) : Prop :=
  ∃ (row column : Nat) (line : List Char), node.row = row ∧ node.column = column ∧
    (splitLines text.toList)[row]? = some line ∧ column ≤ (String.ofList line).utf8ByteSize

/-- Whether a node starts ahead of the program. -/
def StartsAhead (language : String) (node : SyntaxNode) : Prop :=
  node.row < preambleLines language

/-- What holds of all nodes of a tree holds of its root and of all nodes of its children. -/
theorem forall_at?_iff {P : SyntaxNode → Prop} :
    (∀ place found, node.at? place = some found → P found) ↔
      P node ∧ ∀ child ∈ node.children, ∀ place found, child.at? place = some found → P found := by
  constructor
  · intro h
    refine ⟨h [] node rfl, fun child hchild place found hat => ?_⟩
    obtain ⟨i, hi⟩ := List.mem_iff_getElem?.mp hchild
    exact h (i :: place) found (at?_cons_eq_some_iff.mpr ⟨child, hi, hat⟩)
  · rintro ⟨hroot, hbelow⟩ place found hat
    cases place with
    | nil =>
      cases hat
      exact hroot
    | cons i place =>
      obtain ⟨child, hchild, hat⟩ := at?_cons_eq_some_iff.mp hat
      exact hbelow child (List.mem_of_getElem? hchild) place found hat

theorem exists_at?_of_mem_faults (h : found ∈ node.faults) :
    ∃ place, node.at? place = some found := by
  rw [faults_eq] at h
  obtain ⟨⟨place, found⟩, hmem, rfl⟩ := List.mem_map.mp h
  exact ⟨place, (mem_outermost_iff.mp hmem).2⟩

end SyntaxNode

/-! ## Lines of the parsed text -/

theorem preamble_of_ne (h : language ≠ Language.php.name) : preamble language = "" :=
  if_neg h

theorem preambleLines_of_ne (h : language ≠ Language.php.name) : preambleLines language = 0 := by
  rw [preambleLines, preamble_of_ne h]
  rfl

/-- The lines of the parsed text are some ahead of the program and those of the program. -/
theorem splitLines_parsedText (language source : String) :
    ∃ ahead, ahead.length = preambleLines language ∧
      splitLines (parsedText language source).toList = ahead ++ splitLines source.toList := by
  by_cases hphp : language = Language.php.name
  · have hpreamble : preamble language = "<?php\n" := if_pos hphp
    refine ⟨["<?php".toList], ?_, ?_⟩
    · rw [preambleLines, hpreamble]
      decide
    · have htext : (parsedText language source).toList =
          "<?php".toList ++ '\n' :: source.toList := by
        rw [parsedText, hpreamble, String.toList_append]
        rfl
      rw [htext, splitLines_append, splitLines_of_not_mem (by decide)]
  · refine ⟨[], (preambleLines_of_ne hphp).symm, ?_⟩
    rw [parsedText, preamble_of_ne hphp, String.empty_append, List.nil_append]

/-! ## Lines of issues -/

/-- Whether an issue stands on a line of a program. Lines count from one; what follows the last
    line feed is a line, also if there is nothing. -/
def SyntaxIssue.IsWithin (source : String) (issue : SyntaxIssue) : Prop :=
  1 ≤ issue.line ∧ issue.line ≤ (splitLines source.toList).length

theorem SyntaxIssue.line_ofNode (language : String) (node : SyntaxNode) :
    (SyntaxIssue.ofNode language node).line = node.row - preambleLines language + 1 := by
  cases node
  rfl

/-- A node in the parsed text has its issue on a line of the program unless it starts ahead of
    the program. Then the line of the issue is the one that the node starts in. -/
theorem SyntaxIssue.isWithin_ofNode_iff {node : SyntaxNode}
    (h : node.StartsIn (parsedText language source)) :
    ((SyntaxIssue.ofNode language node).IsWithin source ↔ ¬ node.StartsAhead language) ∧
      (¬ node.StartsAhead language →
        (splitLines source.toList)[((SyntaxIssue.ofNode language node).line - 1).toNat]? =
          (splitLines (parsedText language source).toList)[node.row.toNat]?) := by
  obtain ⟨row, _, line, hrow, -, hline, -⟩ := h
  obtain ⟨ahead, hahead, hlines⟩ := splitLines_parsedText language source
  have hbound : row < ahead.length + (splitLines source.toList).length := by
    rw [← List.length_append, ← hlines]
    exact (List.getElem?_eq_some_iff.mp hline).1
  rw [SyntaxIssue.IsWithin, SyntaxIssue.line_ofNode, SyntaxNode.StartsAhead, hrow, ← hahead]
  refine ⟨by omega, fun hbehind => ?_⟩
  have hindex : ((row : Int) - ahead.length + 1 - 1).toNat = row - ahead.length := by omega
  rw [hindex, hlines, Int.toNat_natCast, List.getElem?_append_right (by omega)]

/-- If all nodes start within the parsed text, the issues of a report stand on lines of the
    program, each on the very line that its node starts in, but for those whose node starts
    ahead of the program. These occur for PHP only, and are given line 0. -/
theorem syntaxIssues_lines (language source : String) (tree : SyntaxNode)
    (h : ∀ place node, tree.at? place = some node →
      node.StartsIn (parsedText language source)) :
    List.Forall₂
      (fun node issue =>
        (issue.IsWithin source ↔ ¬ node.StartsAhead language) ∧
          (¬ node.StartsAhead language →
            (splitLines source.toList)[(issue.line - 1).toNat]? =
              (splitLines (parsedText language source).toList)[node.row.toNat]?) ∧
          (node.StartsAhead language → language = Language.php.name ∧ issue.line = 0))
      tree.faults (syntaxIssues language tree) := by
  rw [syntaxIssues, List.forall₂_map_right_iff, List.forall₂_same]
  intro node hnode
  obtain ⟨place, hat⟩ := SyntaxNode.exists_at?_of_mem_faults hnode
  have hstarts := h place node hat
  obtain ⟨hwithin, hline⟩ := SyntaxIssue.isWithin_ofNode_iff hstarts
  refine ⟨hwithin, hline, fun hahead => ?_⟩
  obtain ⟨row, _, _, hrow, -⟩ := hstarts
  rw [SyntaxNode.StartsAhead, hrow] at hahead
  have hphp : language = Language.php.name := by
    by_contra hne
    rw [preambleLines_of_ne hne] at hahead
    omega
  have hlines : preambleLines language = 1 := by
    rw [hphp]
    decide
  refine ⟨hphp, ?_⟩
  rw [SyntaxIssue.line_ofNode, hrow]
  omega

/-- A program of two lines and an empty one, with a fault in the second. -/
theorem syntaxIssues_lines_second :
    let source := "$x = 1;\n$y = ;\n"
    let tree : SyntaxNode :=
      .node "program" 0 0 false [] [.node "ERROR" 2 5 false [59] []]
    (∀ place node, tree.at? place = some node → node.StartsIn (parsedText "php" source)) ∧
      List.Forall₂
        (fun node issue =>
          (issue.IsWithin source ↔ ¬ node.StartsAhead "php") ∧
            (¬ node.StartsAhead "php" →
              (splitLines source.toList)[(issue.line - 1).toNat]? =
                (splitLines (parsedText "php" source).toList)[node.row.toNat]?) ∧
            (node.StartsAhead "php" → "php" = Language.php.name ∧ issue.line = 0))
        tree.faults (syntaxIssues "php" tree) := by
  intro source tree
  have hstarts : ∀ place node, tree.at? place = some node →
      node.StartsIn (parsedText "php" source) := by
    refine SyntaxNode.forall_at?_iff.mpr
      ⟨⟨0, 0, "<?php".toList, rfl, rfl, by decide, by decide⟩, ?_⟩
    intro child hchild
    obtain rfl := List.mem_singleton.mp hchild
    refine SyntaxNode.forall_at?_iff.mpr
      ⟨⟨2, 5, "$y = ;".toList, rfl, rfl, by decide, by decide⟩, ?_⟩
    exact fun _ h => absurd h List.not_mem_nil
  exact ⟨hstarts, syntaxIssues_lines "php" source tree hstarts⟩

/-- A PHP program that could not be read at all. Its root starts at the opening tag, within the
    parsed text, but the issue stands on no line of the program. -/
theorem unreadable_notWithin :
    let source := "$x = ;\n"
    let tree : SyntaxNode := .node "ERROR" 0 0 false [] []
    (∀ place node, tree.at? place = some node → node.StartsIn (parsedText "php" source)) ∧
      ∃ issue ∈ syntaxIssues "php" tree, ¬ issue.IsWithin source := by
  intro source tree
  refine ⟨SyntaxNode.forall_at?_iff.mpr
    ⟨⟨0, 0, "<?php".toList, rfl, rfl, by decide, by decide⟩, fun _ h => ?_⟩, ?_⟩
  · exact absurd h List.not_mem_nil
  · refine ⟨SyntaxIssue.ofNode "php" tree, ?_, ?_⟩
    · rw [syntaxIssues, SyntaxNode.faults_eq, SyntaxNode.outermost_of_isFault (by decide)]
      exact List.mem_singleton.mpr rfl
    · have hline : (SyntaxIssue.ofNode "php" tree).line = 0 := by decide
      rw [SyntaxIssue.IsWithin, hline]
      omega

end BlockScript
