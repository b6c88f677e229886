import BlockScript.Text.Blank

/-!
# Lines

Program text is built from lines that end in a line feed. This module splits
and joins lines, puts a lead before every line, and moves text between
indentation units.
-/

namespace BlockScript.Text

/-! ## Splitting and joining -/

/-- The pieces of a text between its line feeds. A text without line feed is
    one piece, so the result is never empty. -/
def splitLines : List Char → List (List Char)
  | [] => [[]]
  | c :: rest =>
    if c = '\n' then [] :: splitLines rest
    else
      match splitLines rest with
      | [] => [[c]]
      | line :: lines => (c :: line) :: lines

/-- The pieces with a line feed between neighbours. -/
def joinLines : List (List Char) → List Char
  | [] => []
  | [line] => line
  | line :: lines => line ++ '\n' :: joinLines lines

/-- The texts with `separator` between neighbours. -/
def joinWith (separator : String) : List String → String
  | [] => ""
  | [text] => text
  | text :: texts => text ++ separator ++ joinWith separator texts

/-- The texts one after the other. -/
def concat : List String → String
  | [] => ""
  | text :: texts => text ++ concat texts

/-! ## Spaces -/

/-- A text of so many spaces, put together from two halves. -/
def spaces (width : Nat) : String :=
  if width = 0 then ""
  else
    let half := spaces (width / 2)
    if width % 2 = 0 then half ++ half else (half ++ half).push ' '

/-! ## Line ends -/

/-- A text without the line feeds at its end. -/
def dropNewlines (s : String) : String :=
  String.ofList (dropEndWhile (· = '\n') s.toList)

/-- A text without the line feeds at its two ends. -/
def trimNewlines (s : String) : String :=
  String.ofList (trimWhile (· = '\n') s.toList)

/-- A text without the last character if that is a line feed. -/
def dropLastNewline (cs : List Char) : List Char :=
  match cs.reverse with
  | '\n' :: rest => rest.reverse
  | _ => cs

/-- `_one_trailing_newline`: a text that ends in exactly one line feed, or no text if
    it was blank. -/
def oneTrailingNewline (s : String) : String :=
  if isBlankText s then "" else dropNewlines s ++ "\n"

/-! ## Leads -/

/-- Puts `lead` before every line but an empty last one. -/
def leadLines (lead : List Char) : List (List Char) → List (List Char)
  | [] => []
  | [line] => if line.isEmpty then [[]] else [lead ++ line]
  | line :: lines => (lead ++ line) :: leadLines lead lines

/-- `prefix_lines` as `statement_to_code` uses it: puts `lead` before every line of a
    text. A text that ends in a line feed still does, and no text stays no text. -/
def indentLines (text lead : String) : String :=
  String.ofList (joinLines (leadLines lead.toList (splitLines text.toList)))

/-! ## Margins and indentation units -/

/-- A space or a tab. -/
def isIndentChar (c : Char) : Bool :=
  c = ' ' || c = '\t'

/-- The longest common beginning of two lists. -/
def commonStart : List Char → List Char → List Char
  | a :: as, b :: bs => if a = b then a :: commonStart as bs else []
  | _, _ => []

/-- The longest run of spaces and tabs that begins every line of the list. -/
def margin : List (List Char) → List Char
  | [] => []
  | [line] => line.takeWhile isIndentChar
  | line :: lines => commonStart (line.takeWhile isIndentChar) (margin lines)

/-- Empties the lines of spaces and tabs alone and removes the margin that the
    other lines share. -/
def dedentLines (lines : List (List Char)) : List (List Char) :=
  let shared := margin (lines.filter fun line => !line.all isIndentChar)
  lines.map fun line => if line.all isIndentChar then [] else line.drop shared.length

/-- A text without the margin that its lines share. -/
def dedent (text : String) : String :=
  String.ofList (joinLines (dedentLines (splitLines text.toList)))

/-- `_TWO_SPACE_INDENT`: turns the two-space units at the start of a line into
    `unit`s. An odd space stays. -/
def reindentLine (unit : List Char) (line : List Char) : List Char :=
  let units := (line.takeWhile (· = ' ')).length / 2
  (List.replicate units unit).flatten ++ line.drop (2 * units)

/-- `reindent`: turns the two-space indentation of every line into units of `unit`. -/
def reindent (code unit : String) : String :=
  String.ofList (joinLines ((splitLines code.toList).map (reindentLine unit.toList)))

end BlockScript.Text
