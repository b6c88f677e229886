import BlockScript.Text.Lines

/-!
# Final trimming

A finished program loses the blank lines at its two ends and the spaces and
tabs at the ends of its lines. Nothing else changes: neither the indentation of
a line nor the blank lines between two lines of code.
-/

namespace BlockScript.Text

/-- `_LEADING_BLANK_LINES`: removes the blanks at the start up to the last line feed
    among them. A line feed with nothing before it is not enough to remove. -/
def trimLeadingLines (cs : List Char) : List Char :=
  let blanks := cs.takeWhile isBlank
  let last := (blanks.reverse.takeWhile (· ≠ '\n')).length
  let through := blanks.length - last
  if through ≤ 1 then cs else cs.drop through

/-- `_TRAILING_BLANK_LINES`: keeps one line feed of the blanks at the end, if they
    hold one that is not the last character. -/
def trimTrailingLines (cs : List Char) : List Char :=
  let blanks := (cs.reverse.takeWhile isBlank).reverse
  let body := cs.take (cs.length - blanks.length)
  let line := blanks.takeWhile (· ≠ '\n')
  if line.length + 1 < blanks.length then body ++ line ++ ['\n'] else cs

/-- `_TRAILING_SPACES`: removes the spaces and tabs before every line feed. -/
def trimLineEnds : List (List Char) → List (List Char)
  | [] => []
  | [line] => [line]
  | line :: lines => dropEndWhile isIndentChar line :: trimLineEnds lines

/-- `_tidy`: the finished form of a program text. -/
def tidy (code : String) : String :=
  let trimmed := trimTrailingLines (trimLeadingLines code.toList)
  String.ofList (joinLines (trimLineEnds (splitLines trimmed)))

end BlockScript.Text
