import BlockScript.Choice
import BlockScript.Document
import BlockScript.Json.Reader
import BlockScript.Text.Lines

/-!
# Failures

Every way in which reading a document or rendering a program can fail, as a
cause, and the message for each.
-/

namespace BlockScript

open BlockScript.Text

/-- The two schemas that a document can be checked against. -/
inductive Schema where
  | block
  | workspace
  deriving DecidableEq, Repr

/-- The name of a schema. -/
def Schema.name : Schema → String
  | .block => "Block"
  | .workspace => "Workspace"

/-- Why a request cannot be answered: the kinds of `GenerationError`, and the errors
    that are raised beside them. -/
inductive Failure where
  /-- A JSON text cannot be read. -/
  | unreadable (text : String) (error : Json.ReadError)
  /-- A document is a value in which no key can be looked for. -/
  | notSearchable (kind : String)
  /-- `ValidationError`: a document does not follow its schema. -/
  | invalid (schema : Schema) (faults : List SchemaFault)
  /-- There is no such target language. -/
  | unsupportedLanguage (name : String)
  /-- `UnsupportedOperationError`: a field holds no member of a set of choices, or no
      number. -/
  | unsupported (title : String) (value : Json)
  /-- A value is not the name of a member of a closed set. -/
  | notAMember (title : String) (value : Json)
  /-- `UnknownBlockTypeError`: no rule renders blocks of a type. -/
  | unknownBlockType (language type : String)
  /-- `DuplicateRuleError`: a block type already has a rule. -/
  | duplicateRule (language type : String)
  /-- A table leaves out some choices. -/
  | missingEntries (owner title : String) (missing : List String)
  /-- `StructureTooDeepError`: a chain of statements comes back to one of its blocks. -/
  | cyclicChain (id : String)
  /-- `StructureTooDeepError`: a block is nested inside itself. -/
  | containsItself (id : String)
  /-- `StructureTooDeepError`: blocks are nested too deep. -/
  | tooDeep (limit : Int)
  /-- A value stands in a chain of statements. -/
  | valueInChain (type : String)
  /-- The rule for a value gave none. -/
  | valueExpected (type : String)
  /-- The rule for a statement gave a value. -/
  | statementExpected (type : String)
  /-- A statement is plugged into a value socket. -/
  | statementInValueSocket (socket type target : String)
  /-- A value is plugged into a statement socket. -/
  | valueInStatementSocket (socket type : String)
  /-- A name is not a text but a value of some kind. -/
  | nameNotText (kind : String)
  /-- Parameters are not a list but a value of some kind. -/
  | paramsNotList (kind : String)
  /-- An integer lies beyond the doubles. -/
  | integerTooLarge
  /-- There is no loop to leave. -/
  | noLoopToLeave
  /-- A language is asked for, but none is named. -/
  | languageLeftOut
  /-- An indentation is asked for without its width. -/
  | widthLeftOut
  /-- Blocks are to be rendered within a depth that is not given. -/
  | depthLeftOut
  /-- The width of an indentation is no size that a text can have. -/
  | widthBeyondSizes
  /-- An indentation is wider than the memory. -/
  | widthBeyondMemory

namespace Failure

/-- The texts as a list of shown texts. -/
def shownList (texts : List String) : String :=
  "[" ++ joinWith ", " (texts.map shown) ++ "]"

/-- The headline of a list of schema faults. -/
def faultHeadline (schema : Schema) (count : Nat) : String :=
  if count = 1 then s!"1 validation error for {schema.name}"
  else s!"{count} validation errors for {schema.name}"

/-- The message for a failure. -/
def message : Failure → String
  | .unreadable text error => error.message text
  | .notSearchable kind => s!"argument of type '{kind}' is not iterable"
  | .invalid schema faults => faultHeadline schema faults.length
  | .unsupportedLanguage name => s!"Unsupported language for code generation: {name}"
  | .unsupported title value => s!"Unsupported {title}: {value.shown}"
  | .notAMember title value => s!"{value.shown} is not a valid {title}"
  | .unknownBlockType language type => s!"No {language} rule for block type '{type}'"
  | .duplicateRule language type => s!"{language}: rule for '{type}' is already registered"
  | .missingEntries owner title missing =>
    s!"{owner} is missing {title} entries: {shownList missing}"
  | .cyclicChain id => s!"Cyclic statement chain at block '{id}'"
  | .containsItself id => s!"Block '{id}' contains itself"
  | .tooDeep limit => s!"Block structure nested deeper than {limit} levels"
  | .valueInChain type => s!"Value block '{type}' cannot appear in a statement chain"
  | .valueExpected type => s!"Value rule for '{type}' must return (code, order)"
  | .statementExpected type => s!"Statement rule for '{type}' returned a value"
  | .statementInValueSocket socket type target =>
    s!"Socket '{socket}' of '{type}' holds statement block '{target}'"
  | .valueInStatementSocket socket type => s!"Socket '{socket}' of '{type}' holds a value block"
  | .nameNotText kind => s!"'{kind}' object has no attribute 'lower'"
  | .paramsNotList kind => s!"'{kind}' object is not iterable"
  | .integerTooLarge => "int too large to convert to float"
  | .noLoopToLeave => "pop from empty list"
  | .languageLeftOut => "unhashable type: 'list'"
  | .widthLeftOut => "can't multiply sequence by non-int of type 'list'"
  | .depthLeftOut => "'>=' not supported between instances of 'int' and 'list'"
  | .widthBeyondSizes => "cannot fit 'int' into an index-sized integer"
  | .widthBeyondMemory => ""

end Failure

/-! ## Choices in fields -/

/-- `BlockOp.parse`: the choice that a field value stands for. Only the exact text of
    a member does. -/
def chosen (α : Type) [Choice α] (value : Json) : Except Failure α :=
  match value with
  | .str text =>
    match Choice.ofText? text with
    | some member => .ok member
    | none => .error (.unsupported (Choice.title α) value)
  | _ => .error (.unsupported (Choice.title α) value)

/-- `check_exhaustive`: fails unless every choice is in the table or skipped. -/
def checkCoverage (α : Type) [Choice α] (owner : String) (table skipped : List String) :
    Except Failure Unit :=
  match missingChoices (Choice.texts α) table skipped with
  | [] => .ok ()
  | missing => .error (.missingEntries owner (Choice.title α) missing)

end BlockScript
