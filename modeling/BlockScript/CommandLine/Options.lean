import BlockScript.CommandLine.Indentation
import BlockScript.Config
import BlockScript.Language
import BlockScript.Number.Reading

/-!
# Options

Reading the arguments of the command line. Options may stand anywhere, may be
shortened to a beginning that no other option has, and take their value from the
next argument or after an equals sign; single letters can be run together.
Everything after `--` is a plain argument, and `--` as an attached value leaves
the value out.
-/

namespace BlockScript.CommandLine

open BlockScript.Number BlockScript.Text

/-! ## What can be given -/

/-- The parsed arguments: what the command line asks for. A language and a depth that
    are left out, although their options are given, are `none`. -/
structure Options where
  file : String := ""
  language : Option Language := some .python
  statementStart : String := ""
  statementEnd : String := ""
  loopTrap : String := ""
  indent : Indentation := .ofLanguage
  maxDepth : Option Int := some 100
  noComments : Bool := false
  check : Bool := false
  verbose : Bool := false

/-- `config_from_args`: the configuration that the options describe, if their
    indentation can be had. A depth that is left out admits no block. -/
def Options.config (options : Options) : Except Failure Config := do
  let indent ← options.indent.unit
  return {
    statementStart := options.statementStart
    statementEnd := options.statementEnd
    loopTrap := options.loopTrap
    indent
    maxDepth := options.maxDepth.getD 0
    emitComments := !options.noComments }

/-! ## Flags -/

/-- The arguments of `build_arg_parser`: the options. -/
inductive Flag where
  | help
  | language
  | statementStart
  | statementEnd
  | loopTrap
  | indent
  | maxDepth
  | noComments
  | check
  | verbose
  deriving DecidableEq, Repr

namespace Flag

/-- The spellings of an option. -/
def spellings : Flag → List String
  | .help => ["-h", "--help"]
  | .language => ["--language", "-l"]
  | .statementStart => ["--statement-prefix"]
  | .statementEnd => ["--statement-suffix"]
  | .loopTrap => ["--loop-trap"]
  | .indent => ["--indent"]
  | .maxDepth => ["--max-depth"]
  | .noComments => ["--no-comments"]
  | .check => ["--check"]
  | .verbose => ["--verbose", "-v"]

/-- All options in the order in which they are described. -/
def all : List Flag :=
  [help, language, statementStart, statementEnd, loopTrap, indent, maxDepth, noComments, check,
    verbose]

/-- All spellings, each with its option. -/
def table : List (String × Flag) :=
  all.flatMap fun flag => flag.spellings.map fun spelling => (spelling, flag)

/-- The option with a spelling. -/
def find? (spelling : String) : Option Flag :=
  table.lookup spelling

/-- The name of an option in messages. -/
def title (flag : Flag) : String :=
  joinWith "/" flag.spellings

/-- Whether an option takes a value. -/
def takesValue : Flag → Bool
  | .help | .noComments | .check | .verbose => false
  | .language | .statementStart | .statementEnd | .loopTrap | .indent | .maxDepth => true

end Flag

/-! ## What can go wrong -/

/-- Why the arguments cannot be used. -/
inductive UsageError where
  | ambiguous (argument : String) (matching : List String)
  | expectedValue (flag : Flag)
  | ignoredValue (flag : Flag) (value : String)
  | notAnInteger (flag : Flag) (value : String)
  | unknownLanguage (value : String)
  | fileRequired
  | unrecognized (arguments : List String)

/-- The message for an error about one option. -/
def about (flag : Flag) (problem : String) : String :=
  s!"argument {flag.title}: {problem}"

/-- The message for a usage error. -/
def UsageError.message : UsageError → String
  | .ambiguous argument matching =>
    "ambiguous option: " ++ argument ++ " could match " ++ joinWith ", " matching
  | .expectedValue flag => about flag "expected one argument"
  | .ignoredValue flag value => about flag ("ignored explicit argument " ++ shown value)
  | .notAnInteger flag value => about flag ("invalid int value: " ++ shown value)
  | .unknownLanguage value =>
    let choices := joinWith ", " (Language.all.map fun language => shown language.name)
    about .language ("invalid choice: " ++ shown value ++ " (choose from " ++ choices ++ ")")
  | .fileRequired => "the following arguments are required: file"
  | .unrecognized arguments => "unrecognized arguments: " ++ joinWith " " arguments

/-! ## Telling options from plain arguments -/

/-- The argument after which all others are plain. -/
def separator : String := "--"

/-- What an argument is taken for. What stands behind the spelling of an option
    in the same argument is attached to it: its value, or the letters of further
    options. -/
inductive Token where
  | plain (argument : String)
  | separator
  | option (flag : Flag) (spelling : String) (attached : Option String)
  | unknown (argument : String)

/-- A text before and after its first equals sign. -/
def splitEquals (text : String) : Option (String × String) :=
  let cs := text.toList
  if cs.contains '=' then
    some (String.ofList (cs.takeWhile (· ≠ '=')), String.ofList ((cs.dropWhile (· ≠ '=')).drop 1))
  else none

/-- A decimal digit of any script. -/
def isDigit (c : Char) : Bool :=
  (digit? c).isSome

/-- Whether an argument looks like a negative number, which is no option. -/
def looksNegative (argument : String) : Bool :=
  match dropLastNewline argument.toList with
  | '-' :: rest =>
    let fraction := rest.dropWhile isDigit
    match fraction with
    | [] => !rest.isEmpty
    | '.' :: digits => !digits.isEmpty && digits.all isDigit
    | _ => false
  | _ => false

/-- The options that an argument can be short for, each with its spelling and
    what is attached. A spelling with two dashes ends at an equals sign; one with
    a single dash is a letter to which the rest is attached. -/
def candidates (argument : String) : List (Flag × String × Option String) :=
  if startsWith "--" argument then
    let (start, attached) :=
      match splitEquals argument with
      | some (start, value) => (start, some value)
      | none => (argument, none)
    Flag.table.filterMap fun (spelling, flag) =>
      if startsWith start spelling then some (flag, spelling, attached) else none
  else
    let letter := String.ofList (argument.toList.take 2)
    let rest := String.ofList (argument.toList.drop 2)
    Flag.table.filterMap fun (spelling, flag) =>
      if spelling = letter then some (flag, spelling, some rest)
      else if startsWith argument spelling then some (flag, spelling, none)
      else none

/-- What an argument ahead of `--` is taken for. -/
def tokenOf (argument : String) : Except UsageError Token :=
  if !startsWith "-" argument || argument = "-" then .ok (.plain argument)
  else
    match Flag.find? argument with
    | some flag => .ok (.option flag argument none)
    | none =>
      let beforeEquals := do
        let (spelling, value) ← splitEquals argument
        let flag ← Flag.find? spelling
        return (Token.option flag spelling (some value))
      match beforeEquals with
      | some token => .ok token
      | none =>
        match candidates argument with
        | [(flag, spelling, attached)] => .ok (.option flag spelling attached)
        | [] =>
          if looksNegative argument || argument.toList.contains ' ' then .ok (.plain argument)
          else .ok (.unknown argument)
        | several => .error (.ambiguous argument (several.map fun (_, spelling, _) => spelling))

/-- What each argument is taken for. -/
def tokensOf : List String → Except UsageError (List Token)
  | [] => .ok []
  | argument :: rest =>
    if argument = separator then .ok (.separator :: rest.map .plain)
    else do
      let token ← tokenOf argument
      let tokens ← tokensOf rest
      return token :: tokens

/-! ## Applying options -/

/-- The integer of a value. -/
def integerOf (flag : Flag) (value : String) : Except UsageError Int :=
  match readInt? value with
  | some n => .ok n
  | none => .error (.notAnInteger flag value)

/-- Applies an option whose value is left out. -/
def leaveOut (options : Options) : Flag → Options
  | .language => { options with language := none }
  | .statementStart => { options with statementStart := "" }
  | .statementEnd => { options with statementEnd := "" }
  | .loopTrap => { options with loopTrap := "" }
  | .indent => { options with indent := .leftOut }
  | .maxDepth => { options with maxDepth := none }
  | .help | .noComments | .check | .verbose => options

/-- Applies an option that takes a value. A separator attached to the option is
    no value, so that the value is left out. -/
def applyValue (options : Options) (flag : Flag) (value : String) :
    Except UsageError Options :=
  if value = separator then .ok (leaveOut options flag)
  else
    match flag with
    | .language =>
      match Language.ofName? value with
      | some language => .ok { options with language := some language }
      | none => .error (.unknownLanguage value)
    | .statementStart => .ok { options with statementStart := value }
    | .statementEnd => .ok { options with statementEnd := value }
    | .loopTrap => .ok { options with loopTrap := value }
    | .indent => (integerOf flag value).map fun n => { options with indent := .width n }
    | .maxDepth => (integerOf flag value).map fun n => { options with maxDepth := some n }
    | .help | .noComments | .check | .verbose => .ok options

/-- Applies an option that takes no value. -/
def applySwitch (options : Options) : Flag → Options
  | .noComments => { options with noComments := true }
  | .check => { options with check := true }
  | .verbose => { options with verbose := true }
  | _ => options

/-- An option to be applied, with its value if it takes one. -/
abbrev Action :=
  Flag × Option String

/-- What an option in one argument asks for: actions, and perhaps an option that
    still waits for the next argument. -/
structure Asked where
  actions : List Action := []
  waiting : Option Flag := none

/-- What an option with letters attached asks for: if it takes a value, the
    letters are the value; a switch is followed by the option of the first
    letter, to which the other letters are attached. -/
def askedByLetters (flag : Flag) (letters : List Char) : Except UsageError Asked :=
  if flag.takesValue then .ok { actions := [(flag, some (String.ofList letters))] }
  else
    match letters with
    | [] => .error (.ignoredValue flag "")
    | letter :: rest =>
      match Flag.find? (String.ofList ['-', letter]) with
      | none => .error (.ignoredValue flag (String.ofList letters))
      | some next =>
        if rest.isEmpty then .ok { actions := [(flag, none)], waiting := some next }
        else
          (askedByLetters next rest).map fun asked =>
            { asked with actions := (flag, none) :: asked.actions }

/-- What an option asks for. Only options spelled with a single dash run
    together. -/
def askedBy (flag : Flag) (spelling : String) : Option String → Except UsageError Asked
  | none => .ok { waiting := some flag }
  | some attached =>
    if !flag.takesValue && startsWith "--" spelling then .error (.ignoredValue flag attached)
    else askedByLetters flag attached.toList

/-- Why reading the arguments ends early. -/
inductive Stop where
  | help
  | error (error : UsageError)

/-- How far the arguments are read: the options so far, the file if it was
    given, and the arguments that have no use. -/
structure Progress where
  options : Options := {}
  file : Option String := none
  extra : List String := []

/-- Applies actions in order. Asking for help ends the reading at once. -/
def perform (progress : Progress) : List Action → Except Stop Progress
  | [] => .ok progress
  | (.help, _) :: _ => .error .help
  | (flag, some value) :: actions =>
    match applyValue progress.options flag value with
    | .error error => .error (.error error)
    | .ok options => perform { progress with options } actions
  | (flag, none) :: actions =>
    perform { progress with options := applySwitch progress.options flag } actions

/-- Notes an argument that has no use. -/
def Progress.addExtra (progress : Progress) (argument : String) : Progress :=
  { progress with extra := progress.extra ++ [argument] }

/-- Reads tokens in order. The first plain argument is the file; a separator
    right before or behind it has no further meaning. An option that takes no
    value from its own argument takes the next one, which has to be plain. -/
def readTokens (progress : Progress) : List Token → Except Stop Progress
  | [] => .ok progress
  | .plain argument :: tokens =>
    match progress.file, tokens with
    | some _, tokens => readTokens (progress.addExtra argument) tokens
    | none, .separator :: tokens => readTokens { progress with file := some argument } tokens
    | none, tokens => readTokens { progress with file := some argument } tokens
  | .separator :: tokens =>
    if progress.file.isSome || tokens.isEmpty then readTokens (progress.addExtra "--") tokens
    else readTokens progress tokens
  | .unknown argument :: tokens => readTokens (progress.addExtra argument) tokens
  | .option flag spelling attached :: tokens =>
    match askedBy flag spelling attached with
    | .error error => .error (.error error)
    | .ok asked =>
      match asked.waiting with
      | none =>
        match perform progress asked.actions with
        | .error stop => .error stop
        | .ok progress => readTokens progress tokens
      | some waiting =>
        if waiting.takesValue then
          match tokens with
          | .plain value :: tokens =>
            match perform progress (asked.actions ++ [(waiting, some value)]) with
            | .error stop => .error stop
            | .ok progress => readTokens progress tokens
          | _ => .error (.error (.expectedValue waiting))
        else
          match perform progress (asked.actions ++ [(waiting, none)]) with
          | .error stop => .error stop
          | .ok progress => readTokens progress tokens

/-- What the arguments ask for. Every argument needs a use, and a file has to be
    given. -/
def readArguments (arguments : List String) : Except Stop Options :=
  match tokensOf arguments with
  | .error error => .error (.error error)
  | .ok tokens =>
    match readTokens {} tokens with
    | .error stop => .error stop
    | .ok progress =>
      match progress.file with
      | none => .error (.error .fileRequired)
      | some file =>
        if progress.extra.isEmpty then .ok { progress.options with file }
        else .error (.error (.unrecognized progress.extra))

end BlockScript.CommandLine
