import Gherkin.Command.Settings

/-!
# Command-Line Arguments

The words after the program's name: options of the program as a whole, the
name of a command, and the options and paths of that command.

Words are taken from left to right. An option with a value of its own word
stays *pending* until the next option is understood or the words end, and only
then is its value looked at. So a word that is no option at all is reported
before the value of a pending one, and a fault in the words of a command is
reported before the value that was pending when its name was reached.

## Main definitions

* `UsageError`: What can be wrong with the words, or asked for instead.
* `Invocation`: A command and the settings that its flags override.
* `Scan.take`: What one word does.
* `Invocation.ofWords`: The command that the words give.
-/

namespace Gherkin

namespace Command

/-- Why words give no command. Asking for help or for the version counts,
    because then nothing is run either. -/
inductive UsageError where
  | unknownArgument
  | unknownCommand
  | missingCommand
  | nothingGiven
  | help
  | version
  | repeated
  | unwantedValue
  | invalidValue
  | unreadableValue
  deriving DecidableEq, Repr

/-- The exit code of a usage error. -/
def UsageError.exitCode : UsageError → Nat
  | .help => 0
  | .version => 0
  | _ => 2

/-- The names of the commands. -/
inductive Name where
  | fmt
  | events
  | dom
  | check
  deriving DecidableEq, Repr

namespace Name

/-- A command's name as a word. -/
def word : Name → String
  | .fmt => "fmt"
  | .events => "events"
  | .dom => "dom"
  | .check => "check"

/-- All names. -/
def all : List Name :=
  [.fmt, .events, .dom, .check]

/-- The command that a word names. Case matters. -/
def ofWord? (word : String) : Option Name :=
  all.find? (fun name => name.word == word)

end Name

/-- The word that asks for help in place of a command. -/
def helpWord : String := "help"

/-- Options, and the paths that a command may take. -/
inductive Parameter where
  | logLevel
  | help
  | version
  | input
  | output
  | centerSteps
  | color
  | noColor
  | commentIndent
  | noAlignComments
  | skipComments
  | json
  | pretty
  | paths
  deriving DecidableEq, Repr

namespace Parameter

/-- The long name of an option; paths have none. -/
def long? : Parameter → Option String
  | .logLevel => some "log-level"
  | .help => some "help"
  | .version => some "version"
  | .input => some "in"
  | .output => some "out"
  | .centerSteps => some "center-steps"
  | .color => some "color"
  | .noColor => some "no-color"
  | .commentIndent => some "comment-indent"
  | .noAlignComments => some "no-align-comments"
  | .skipComments => some "skip-comments"
  | .json => some "json"
  | .pretty => some "pretty"
  | .paths => none

/-- The letter of an option. Few have one. -/
def short? : Parameter → Option Char
  | .help => some 'h'
  | .version => some 'V'
  | .input => some 'i'
  | .output => some 'o'
  | _ => none

/-- Whether an option can have a value. -/
def takesValue : Parameter → Bool
  | .logLevel | .input | .output | .centerSteps | .commentIndent | .paths => true
  | _ => false

end Parameter

/-- The parameters that are understood before a command, or after one. -/
def parameters : Option Name → List Parameter
  | none => [.logLevel, .help, .version]
  | some .fmt =>
    [.input, .output, .centerSteps, .color, .noColor, .commentIndent, .noAlignComments,
      .skipComments, .logLevel, .help]
  | some .events => [.input, .output, .json, .logLevel, .help]
  | some .dom => [.input, .output, .pretty, .logLevel, .help]
  | some .check => [.paths, .logLevel, .help]

/-- What the options seen so far say. -/
structure Given where
  logLevel : Option LogLevel := none
  input : Option String := none
  output : Option String := none
  centerSteps : Option Bool := none
  color : Option ColorChoice := none
  commentIndent : Option Nat := none
  noAlignComments : Bool := false
  skipComments : Bool := false
  json : Bool := false
  pretty : Bool := false
  paths : List String := []
  deriving DecidableEq, Repr

namespace Given

/-- A value that may be given once. A missing value is reported before a
    repetition, and a repetition before a value that makes no sense. -/
def once {α β : Type} (before : Option α) (values : List String)
    (read : String → Except UsageError β) : Except UsageError β :=
  match values, before with
  | [], _ => .error .invalidValue
  | _ :: _, some _ => .error .repeated
  | value :: _, none => read value

/-- A flag that may be given once. -/
def flag (before : Bool) : Except UsageError Bool :=
  if before then .error .repeated else .ok true

/-- A path, which cannot be empty. -/
def path (text : String) : Except UsageError String :=
  if text.isEmpty then .error .invalidValue else .ok text

/-- A value read by its words. -/
def readable {α : Type} (value : Option α) : Except UsageError α :=
  match value with
  | some value => .ok value
  | none => .error .unreadableValue

/-- The value of a truth option: one of two words, or none at all for yes. -/
def truth : List String → Except UsageError Bool
  | [] => .ok true
  | "true" :: _ => .ok true
  | "false" :: _ => .ok false
  | _ => .error .invalidValue

/-- What is known after a parameter with the values given for it. The two
    colour flags override each other, so each can follow the other. -/
def set (given : Given) (parameter : Parameter) (values : List String) :
    Except UsageError Given :=
  match parameter with
  | .logLevel => do
    let level ← once given.logLevel values (fun v => readable (LogLevel.ofWord? v))
    .ok { given with logLevel := some level }
  | .help => .error .help
  | .version => .error .version
  | .input => do
    let input ← once given.input values path
    .ok { given with input := some input }
  | .output => do
    let output ← once given.output values path
    .ok { given with output := some output }
  | .centerSteps =>
    if given.centerSteps.isSome then .error .repeated
    else do
      let centerSteps ← truth values
      .ok { given with centerSteps := some centerSteps }
  | .color =>
    if given.color = some .always then .error .repeated
    else .ok { given with color := some .always }
  | .noColor =>
    if given.color = some .never then .error .repeated
    else .ok { given with color := some .never }
  | .commentIndent => do
    let indent ← once given.commentIndent values (fun v => readable (size? v))
    .ok { given with commentIndent := some indent }
  | .noAlignComments => do
    let noAlignComments ← flag given.noAlignComments
    .ok { given with noAlignComments := noAlignComments }
  | .skipComments => do
    let skipComments ← flag given.skipComments
    .ok { given with skipComments := skipComments }
  | .json => do
    let json ← flag given.json
    .ok { given with json := json }
  | .pretty => do
    let pretty ← flag given.pretty
    .ok { given with pretty := pretty }
  | .paths => do
    let paths ← values.mapM path
    .ok { given with paths := given.paths ++ paths }

end Given

/-- A parameter whose values are not complete or not looked at yet. -/
structure Pending where
  parameter : Parameter
  values : List String
  deriving DecidableEq, Repr

/-- How far the words have been taken: what they say so far, the parameter
    that is pending, whether the next word is its value, and whether options
    have been ended. -/
structure Scan where
  given : Given := {}
  pending : Option Pending := none
  awaiting : Bool := false
  ended : Bool := false
  deriving DecidableEq, Repr

/-- The form of a word. -/
inductive Form where
  | ender
  | long (name : String) (value : Option String)
  | short (letters : List Char)
  | plain
  deriving DecidableEq, Repr

/-- The form of a word that starts with two dashes, of which the rest is
    given: a long option, with a value behind the first equals sign. -/
def longForm (rest : List Char) : Form :=
  let name := String.ofList (rest.takeWhile (· != '='))
  match rest.dropWhile (· != '=') with
  | [] => .long name none
  | _ :: value => .long name (some (String.ofList value))

/-- The form of a word. A single dash is a plain word. -/
def formOf (word : String) : Form :=
  match word.toList with
  | ['-', '-'] => .ender
  | '-' :: '-' :: rest => longForm rest
  | '-' :: c :: rest => .short (c :: rest)
  | _ => .plain

namespace Scan

/-- Look at the values of the pending parameter. -/
def settle (scan : Scan) : Except UsageError Scan :=
  match scan.pending with
  | none => .ok scan
  | some pending => do
    let given ← scan.given.set pending.parameter pending.values
    .ok { scan with given := given, pending := none }

/-- A parameter with all its values. -/
def setNow (scan : Scan) (parameter : Parameter) (values : List String) :
    Except UsageError Scan := do
  let scan ← scan.settle
  let given ← scan.given.set parameter values
  .ok { scan with given := given, awaiting := false }

/-- An option whose value is to be the next word. -/
def await (scan : Scan) (parameter : Parameter) : Except UsageError Scan := do
  let scan ← scan.settle
  .ok { scan with pending := some ⟨parameter, []⟩, awaiting := true }

/-- An option given by its long name. -/
def takeLong (command : Option Name) (scan : Scan) (name : String) (value : Option String) :
    Except UsageError Scan :=
  match (parameters command).find? (fun p => p.long? == some name) with
  | none => .error .unknownArgument
  | some parameter =>
    match value with
    | none => if parameter.takesValue then scan.await parameter else scan.setNow parameter []
    | some value =>
      if parameter.takesValue then scan.setNow parameter [value] else .error .unwantedValue

/-- Options given by their letters. The first that takes a value takes the
    rest of the word, without an equals sign in front. -/
def takeShort (command : Option Name) : Scan → List Char → Except UsageError Scan
  | scan, [] => .ok scan
  | scan, c :: rest =>
    match (parameters command).find? (fun p => p.short? == some c) with
    | none => .error .unknownArgument
    | some parameter =>
      if parameter.takesValue then
        match rest with
        | [] => scan.await parameter
        | '=' :: value => scan.setNow parameter [String.ofList value]
        | value => scan.setNow parameter [String.ofList value]
      else do
        let scan ← scan.setNow parameter []
        takeShort command scan rest

/-- A word that is no option and no value: a path, where paths are taken. In
    front of the command only its name can stand, and not behind the end of
    options. -/
def takePlain (command : Option Name) (scan : Scan) (word : String) : Except UsageError Scan :=
  match command with
  | none =>
    if scan.ended && ((Name.ofWord? word).isSome || word == helpWord) then
      .error .unknownArgument
    else .error .unknownCommand
  | some .check =>
    match scan.pending with
    | some ⟨.paths, values⟩ =>
      .ok { scan with pending := some ⟨.paths, values ++ [word]⟩, awaiting := false }
    | _ => do
      let scan ← scan.settle
      .ok { scan with pending := some ⟨.paths, [word]⟩, awaiting := false }
  | some _ => .error .unknownArgument

/-- Take one word. -/
def take (command : Option Name) (scan : Scan) (word : String) : Except UsageError Scan :=
  if scan.ended then scan.takePlain command word
  else
    match formOf word with
    | .ender => .ok { scan with ended := true }
    | .long name value => scan.takeLong command name value
    | .short letters => takeShort command scan letters
    | .plain =>
      match scan.awaiting, scan.pending with
      | true, some pending =>
        .ok { scan with
          pending := some { pending with values := pending.values ++ [word] }
          awaiting := false }
      | _, _ => scan.takePlain command word

/-- Take all words of a command. -/
def takeAll (command : Option Name) : Scan → List String → Except UsageError Scan
  | scan, [] => scan.settle
  | scan, word :: rest => do
    let scan ← scan.take command word
    takeAll command scan rest

end Scan

/-- Where a command reads from and writes to; without a path these are the
    standard streams. -/
structure Endpoints where
  input : Option String
  output : Option String
  deriving DecidableEq, Repr

end Command

/-- What the program can be asked to do. -/
inductive Command where
  | fmt (endpoints : Command.Endpoints) (skipComments : Bool)
  | events (endpoints : Command.Endpoints) (json : Bool)
  | dom (endpoints : Command.Endpoints) (pretty : Bool)
  | check (paths : List String)
  deriving DecidableEq, Repr

namespace Command

/-- A command and the settings that its flags override. -/
structure Invocation where
  command : Command
  overrides : Overrides
  deriving DecidableEq, Repr

/-- The command with a name, completed by what its options say. -/
def ofGiven (name : Name) (given : Given) : Command :=
  let endpoints : Endpoints := ⟨given.input, given.output⟩
  match name with
  | .fmt => .fmt endpoints given.skipComments
  | .events => .events endpoints given.json
  | .dom => .dom endpoints given.pretty
  | .check => .check given.paths

/-- The settings that options override. -/
def Given.overrides (given : Given) : Overrides where
  logLevel := given.logLevel
  centerSteps := given.centerSteps
  commentMinIndent := given.commentIndent
  alignComments := if given.noAlignComments then some false else none
  color := given.color

/-- What asking for help amounts to. Help can be asked for about one command,
    or about help itself. -/
def helpAbout : List String → UsageError
  | [] => .help
  | [word] => if (Name.ofWord? word).isSome || word == helpWord then .help else .unknownCommand
  | _ => .unknownCommand

namespace Invocation

/-- The command whose name has been reached, with the words behind it. An
    option of the program as a whole counts on either side of the name, and
    behind it with precedence. -/
def ofCommand (scan : Scan) (name : Name) (words : List String) :
    Except UsageError Invocation := do
  let behind ← Scan.takeAll (some name) {} words
  let front ← scan.settle
  let overrides := behind.given.overrides
  .ok ⟨ofGiven name behind.given,
    { overrides with logLevel := overrides.logLevel.or front.given.logLevel }⟩

/-- The command that words give, of which some have been taken. -/
def ofWordsFrom : Scan → List String → Except UsageError Invocation
  | scan, [] => do
    let scan ← scan.settle
    .error (if scan.given.logLevel.isSome then .missingCommand else .nothingGiven)
  | scan, word :: rest =>
    if scan.ended || scan.awaiting then do
      let scan ← scan.take none word
      ofWordsFrom scan rest
    else if word == helpWord then .error (helpAbout rest)
    else
      match Name.ofWord? word with
      | some name => ofCommand scan name rest
      | none => do
        let scan ← scan.take none word
        ofWordsFrom scan rest

/-- The command that words give. -/
def ofWords (words : List String) : Except UsageError Invocation :=
  ofWordsFrom {} words

end Invocation

end Command

end Gherkin
