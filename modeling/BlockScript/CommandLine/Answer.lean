import BlockScript.CommandLine.Folder
import BlockScript.CommandLine.Options
import BlockScript.Loading
import BlockScript.Program
import BlockScript.SyntaxReport

/-!
# Answers of the command line

What a run of the command line prints and how it ends, as a function of the
options, of the text that was read and of the syntax tree of the result. The
status is 0 for a program, 1 if there is none, and 2 for a program with syntax
issues or for arguments that cannot be used.

How deep the calls of a run can go depends on where it takes place, so a run has some
room. Half a surrogate pair is no character. The room tells whether the schema takes a
text that has one. If it does, and the half comes into the program, then the program
cannot be printed, and the run has no outcome.
-/

namespace BlockScript.CommandLine

open BlockScript.Text

/-- What a run prints, line by line where it reports, and its exit status. -/
structure Outcome where
  status : Nat
  output : String
  reports : List String
  deriving Repr

/-- The file name that stands for the standard input. -/
def standardInput : String := "-"

/-! ## Reports -/

/-- The parts of the program that report. -/
inductive Reporter where
  | commandLine
  | rendering
  | checking

/-- The name under which a part reports. -/
def Reporter.name : Reporter → String
  | .commandLine => "blockgen.cli"
  | .rendering => "blockgen.generators._base"
  | .checking => "blockgen.api"

/-- A line of progress. -/
def info (reporter : Reporter) (text : String) : String :=
  "INFO " ++ reporter.name ++ ": " ++ text

/-- A line about something doubtful. -/
def warning (reporter : Reporter) (text : String) : String :=
  "WARNING " ++ reporter.name ++ ": " ++ text

/-- A line about a failure. -/
def failure (reporter : Reporter) (text : String) : String :=
  "ERROR " ++ reporter.name ++ ": " ++ text

/-- The line at the start of rendering. -/
def startReport (language : Language) (workspace : Workspace) : String :=
  info .rendering s!"Generating {language.name} for {workspace.tops.length} top blocks"

/-- The line at the end of rendering. -/
def endReport (language : Language) (program : Scene.Program) : String :=
  info .rendering
    s!"Generated {program.lines} {language.name} lines ({program.definitions} definitions)"

/-! ## Running -/

/-- Whether a failure is reported and ends the run with status 1. The others are
    faults of a document or of the options that no report is made of. -/
def isReported : Failure → Bool
  | .notSearchable _ | .nameNotText _ | .paramsNotList _ => false
  | .integerTooLarge | .noLoopToLeave => false
  | .languageLeftOut | .widthLeftOut | .depthLeftOut => false
  | .widthBeyondSizes | .widthBeyondMemory => false
  | _ => true

/-- The outcome of a failure after some reports. -/
def failed (reports : List String) (cause : Failure) : Except Failure Outcome :=
  if isReported cause then .ok ⟨1, "", reports ++ [failure .commandLine cause.message]⟩
  else .error cause

/-- The reports about the syntax of a program. -/
def syntaxReports (options : Options) (language : Language) (issues : List SyntaxIssue) :
    List String :=
  (issueWarning language.name issues).toList.map (warning .checking) ++
    issues.map fun issue => options.file ++ ":" ++ issue.message

/-- The failure of a rendering with these options. Where the depth is left out,
    no depth is exceeded: there is none to compare with. -/
def renderFailure (options : Options) : Failure → Failure
  | .tooDeep limit => if options.maxDepth.isNone then .depthLeftOut else .tooDeep limit
  | cause => cause

/-- The outcome for a workspace in a language, where `tree` is the syntax tree of
    the program made from it. Lines of progress appear only on request. -/
def answerWorkspace (options : Options) (language : Language) (config : Config)
    (workspace : Workspace) (tree : SyntaxNode) : Except Failure Outcome :=
  let progress (line : String) := if options.verbose then [line] else []
  let (result, warnings) := generate language config workspace
  let reports := progress (startReport language workspace) ++
    warnings.map fun noted => warning .rendering noted.message
  match result with
  | .error cause => failed reports (renderFailure options cause)
  | .ok program =>
    let reports := reports ++ progress (endReport language program)
    let issues := if options.check then syntaxIssues language.name tree else []
    .ok ⟨if issues.isEmpty then 0 else 2, program.code,
      reports ++ syntaxReports options language issues⟩

/-- The outcome for a text. Its own faults come before those of the options, and
    the indentation before the language. -/
def answerText (options : Options) (text : String) (tree : SyntaxNode) :
    Except Failure Outcome :=
  match Workspace.ofText text, options.config, options.language with
  | .error cause, _, _ => failed [] cause
  | .ok _, .error cause, _ => failed [] cause
  | .ok _, .ok _, none => failed [] .languageLeftOut
  | .ok workspace, .ok config, some language =>
    answerWorkspace options language config workspace tree

/-- `main` once the arguments are parsed: the outcome for what was read from the file
    of the options. -/
def answer (options : Options) (input : Except FileError String) (tree : SyntaxNode) :
    Except Failure Outcome :=
  match input with
  | .error error => .ok ⟨1, "", [failure .commandLine (error.message options.file)]⟩
  | .ok text => answerText options text tree

/-! ## Room -/

/-- How much can be nested where a run takes place, and what its schema takes. A limit
    that is left out is never met. -/
structure Room where
  /-- The lists and objects that can be open at once while a text is read. -/
  reading : Option Nat := none
  /-- The blocks that can be nested in a document, in sockets and along chains. -/
  document : Option Nat := none
  /-- The blocks that can be nested while they are rendered. -/
  rendering : Option Nat := none
  /-- Whether a text with half a surrogate pair in it is one for the schema. -/
  halves : Bool := true

/-- The room that there is as a rule. A thousand calls can be underway, one for every
    level of a text, and up to six for every level of blocks; the schema is followed
    for 255 levels of blocks. -/
def Room.usual : Room :=
  { reading := some 990, document := some 255, rendering := some 160 }

/-- Whether reading a text comes to more open lists and objects than there is room
    for. -/
def Room.exceededBy (room : Room) (text : String) : Bool :=
  match Json.readWithin room.reading text with
  | .error (.fault .tooNested _) => true
  | _ => false

/-! ### Documents -/

/-- Whether a text is read as a value in which half a surrogate pair is spelled. -/
def spellsHalf (text : String) : Bool :=
  match Json.readWithin none text with
  | .ok (_, half) => half
  | .error _ => false

/-- Whether a text has a character that may stand for half a surrogate pair. -/
def hasHalf (text : String) : Bool :=
  text.toList.any Json.standsForHalf

/-- The texts of a block that the schema checks: all but what the extra state has under
    its keys. The value of a field is tried as four types. -/
def blockTexts (block : Block Ref) : List String :=
  block.type :: block.id.toList ++ block.comment.toList ++ block.fields.map Prod.fst ++
    (block.fields.flatMap fun field =>
      match field.2 with
      | .text text => List.replicate 4 text
      | _ => []) ++
    block.values.map Prod.fst ++ block.statements.map Prod.fst ++ block.extraState.map Prod.fst

/-- The texts of a document that the schema checks. -/
def checkedTexts (workspace : Workspace) : List String :=
  workspace.declaredVariables ++ workspace.developerVariables ++
    workspace.graph.blocks.toList.flatMap blockTexts

/-- How many faults a schema with so much room finds in a document that follows it
    otherwise. -/
def Room.faultsIn (room : Room) (text : String) (workspace : Workspace) : Nat :=
  if !room.document.all workspace.graph.nestsWithin then 1
  else if room.halves || !spellsHalf text then 0
  else (checkedTexts workspace).countP hasHalf

/-- How many such faults there are in the document of a text. -/
def Room.faults (room : Room) (text : String) : Nat :=
  match Workspace.ofText text with
  | .ok workspace => room.faultsIn text workspace
  | .error _ => 0

/-- The schema that the document of a text is checked against. -/
def schemaOf (text : String) : Schema :=
  match (Json.read text).toOption.map mentionsType with
  | some (.ok true) => .block
  | _ => .workspace

/-! ### Programs -/

/-- What is to be generated. -/
structure Task where
  language : Language
  config : Config
  workspace : Workspace

/-- What some options ask for with a text, if it can be loaded and they can be used. -/
def task? (options : Options) (text : String) : Option Task :=
  match Workspace.ofText text, options.config, options.language with
  | .ok workspace, .ok config, some language => some ⟨language, config, workspace⟩
  | _, _, _ => none

/-- The program that is asked for, or why there is none. -/
def Task.result (task : Task) : Except Failure Scene.Program :=
  (generate task.language task.config task.workspace).1

/-- The task with another depth for nested blocks. -/
def Task.within (task : Task) (limit : Nat) : Task :=
  { task with config := { task.config with maxDepth := limit } }

/-- Whether rendering comes to more nested blocks than there is room for, where the
    configuration allows for more. -/
def Room.overflows (room : Room) (task : Task) : Bool :=
  match room.rendering with
  | none => false
  | some limit =>
    match (task.within limit).result with
    | .error (.tooDeep _) => limit < task.config.maxDepth
    | _ => false

/-- Whether a program is asked for that may have half a surrogate pair in it. -/
def Task.givesHalf (task : Task) : Bool :=
  match task.result with
  | .ok program => hasHalf program.code
  | .error _ => false

/-! ### Runs -/

/-- Why a run has no outcome. -/
inductive Escape where
  /-- A failure that no report is made of. -/
  | failure (cause : Failure)
  /-- No room for a list or an object of the text. -/
  | readingTooDeep
  /-- No room for a block that is rendered. -/
  | renderingTooDeep
  /-- Half a surrogate pair in the program, which cannot be printed. -/
  | halfSurrogate

/-- The message for a run without an outcome. -/
def Escape.message : Escape → String
  | .failure cause => cause.message
  | .readingTooDeep | .renderingTooDeep => "maximum recursion depth exceeded"
  | .halfSurrogate => "surrogates not allowed"

/-- The outcome of a run within some room, for what was read from the file of the
    options. -/
def run (room : Room) (options : Options) (input : Except FileError String)
    (tree : SyntaxNode) : Except Escape Outcome :=
  match input with
  | .error _ => (answer options input tree).mapError .failure
  | .ok text =>
    if room.exceededBy text then .error .readingTooDeep
    else if room.faults text ≠ 0 then
      .ok ⟨1, "", [failure .commandLine
        (Failure.faultHeadline (schemaOf text) (room.faults text))]⟩
    else if (task? options text).any room.overflows then .error .renderingTooDeep
    else if spellsHalf text && (task? options text).any Task.givesHalf then
      .error .halfSurrogate
    else (answer options input tree).mapError .failure

/-! ## Usage -/

/-- How the command line is used. -/
def usage : String :=
  "usage: blockgen [options] file"

/-- The help of `build_arg_parser`: the description of the options. -/
def helpText : String :=
  joinWith "\n" (usage :: "" :: (Flag.all.map fun flag => "  " ++ joinWith ", " flag.spellings)) ++
    "\n"

/-- The outcome for arguments that were not read to their end. -/
def stopped : Stop → Outcome
  | .help => ⟨0, helpText, []⟩
  | .error error => ⟨2, "", [usage, "blockgen: error: " ++ error.message]⟩

end BlockScript.CommandLine
