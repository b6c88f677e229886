import BlockScript.Language
import BlockScript.Text.Bytes
import BlockScript.Text.Quoted

/-!
# Syntax reports

A parser of the target language turns a program into a tree, in which it marks
what it could not read as an error and what it expected in vain as missing. The
report lists the outermost of these nodes in document order. Positions in the
tree count from the start of the text that was parsed, which may have a line of
its own ahead of the program; the report counts from the program.
-/

namespace BlockScript

/-- A node of a syntax tree. Its place is a row and a column that count from
    zero. What it covers is given in bytes, since a fault need not start or end
    at a character; a missing node covers nothing. -/
inductive SyntaxNode where
  | node (type : String) (row column : Int) (missing : Bool) (bytes : List Nat)
    (children : List SyntaxNode)
  deriving Inhabited

namespace SyntaxNode

/-- The nodes below a node. -/
def children : SyntaxNode → List SyntaxNode
  | .node _ _ _ _ _ children => children

/-- The type of nodes that could not be read. -/
def errorType : String := "ERROR"

/-- Whether the node marks a fault. -/
def isFault : SyntaxNode → Bool
  | .node type _ _ missing _ _ => type = errorType || missing

mutual

/-- The number of nodes of a tree. -/
def count : SyntaxNode → Nat
  | .node _ _ _ _ _ children => countAll children + 1

/-- The number of nodes of several trees. -/
def countAll : List SyntaxNode → Nat
  | [] => 0
  | first :: rest => count first + countAll rest

end

theorem countAll_append (nodes more : List SyntaxNode) :
    countAll (nodes ++ more) = countAll nodes + countAll more := by
  induction nodes with
  | nil => simp [countAll]
  | cons node nodes ih => simp [countAll, ih, Nat.add_assoc]

theorem countAll_children_lt (node : SyntaxNode) : countAll node.children < node.count := by
  cases node
  simp [children, count]

/-- The loop of `iter_error_nodes`: the faulty nodes on a stack and below, in
    document order. What lies below a faulty node is not looked at. -/
def faultsOf : List SyntaxNode → List SyntaxNode
  | [] => []
  | first :: stack =>
    if first.isFault then first :: faultsOf stack else faultsOf (first.children ++ stack)
termination_by stack => countAll stack
decreasing_by
  · have := countAll_children_lt first
    simp only [countAll]
    omega
  · have := countAll_children_lt first
    simp only [countAll_append, countAll]
    omega

/-- `iter_error_nodes`: the outermost faulty nodes of a tree. -/
def faults (tree : SyntaxNode) : List SyntaxNode :=
  faultsOf [tree]

end SyntaxNode

/-! ## Reports -/

/-- `SyntaxIssue`: a fault of a program: its line, counting from one, its column,
    counting from zero, its kind, and the text at that place. -/
structure SyntaxIssue where
  line : Int
  column : Int
  kind : String
  text : String
  deriving DecidableEq, Repr

/-- `SyntaxIssue.__str__`: the line of a report for an issue. -/
def SyntaxIssue.message (issue : SyntaxIssue) : String :=
  s!"{issue.line}:{issue.column}: {issue.kind} {Text.shown issue.text}"

/-- `SOURCE_PREAMBLES`: what a parser needs ahead of a program in the named language. -/
def preamble (language : String) : String :=
  if language = Language.php.name then "<?php\n" else ""

/-- The text that is parsed for a program. -/
def parsedText (language source : String) : String :=
  preamble language ++ source

/-- `preamble_lines`: the number of lines ahead of a program. -/
def preambleLines (language : String) : Nat :=
  (preamble language).toList.count '\n'

/-- The issue for a faulty node. -/
def SyntaxIssue.ofNode (language : String) : SyntaxNode → SyntaxIssue
  | .node _ row column missing bytes _ =>
    ⟨row - preambleLines language + 1, column, if missing then "missing" else "error",
      Text.decode bytes⟩

/-- `check_syntax`: the issues of a program in the named language, from its syntax
    tree. -/
def syntaxIssues (language : String) (tree : SyntaxNode) : List SyntaxIssue :=
  tree.faults.map (.ofNode language)

/-- The warning for a program with issues. -/
def issueWarning (language : String) (issues : List SyntaxIssue) : Option String :=
  if issues.isEmpty then none
  else some s!"{issues.length} syntax issue(s) in generated {language}"

end BlockScript
