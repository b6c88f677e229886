/-!
# Configuration

The options of one rendering pass. The three snippets are lines of target code
that a debugger needs around statements and inside loops; the mark `%1` in them
stands for the quoted id of the block at hand.
-/

namespace BlockScript

/-- `GeneratorConfig`: the options of one rendering pass. Without `indent`, the
    indentation of the target language is used. -/
structure Config where
  statementStart : String := ""
  statementEnd : String := ""
  loopTrap : String := ""
  indent : Option String := none
  maxDepth : Int := 100
  emitComments : Bool := true

end BlockScript
