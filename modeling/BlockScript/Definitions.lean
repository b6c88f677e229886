import BlockScript.Json.Basic
import BlockScript.Names
import BlockScript.Text.Lines
import BlockScript.Text.Search

/-!
# Definitions

What a program needs ahead of its main part: imports, variables, procedures and
helper functions, each under a key of its own and in the order of the first
request. A helper function is defined once, under a name found free when it was
first asked for.
-/

namespace BlockScript

open BlockScript.Text

/-- `DefinitionRegistry`: the definitions of one program, and the function names of
    its helpers. -/
structure Definitions where
  entries : List (String × String) := []
  helpers : List (String × String) := []

namespace Definitions

/-- `FUNCTION_NAME_PLACEHOLDER`: stands in a helper's template wherever its own name
    belongs. -/
def placeholder : String := "\x7b\x7bFUNCTION_NAME\x7d\x7d"

/-- `DefinitionRegistry.add`: sets the text under a key. A key used before keeps its
    place. -/
def add (definitions : Definitions) (key code : String) : Definitions :=
  { definitions with entries := Json.insert definitions.entries key code }

/-- The text of a helper: the template without its margin and the empty lines
    around it, under the given name and in the given indentation. -/
def helperText (template name unit : String) : String :=
  reindent (replaceAll (trimNewlines (dedent template)) placeholder name) unit ++ "\n"

/-- `DefinitionRegistry.provide`: the function name of a helper, which is defined at
    the first request. -/
def provide (policy : NamePolicy) (names : NameTable) (definitions : Definitions)
    (key template unit : String) : String × NameTable × Definitions :=
  match Json.find? definitions.helpers key with
  | some name => (name, names, definitions)
  | none =>
    let (name, names) := names.distinct policy key .procedure
    let definitions := definitions.add key (helperText template name unit)
    (name, names, { definitions with helpers := Json.insert definitions.helpers key name })

end Definitions

end BlockScript
