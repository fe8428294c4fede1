import Gherkin.Command.Arguments
import Gherkin.Command.Files
import Gherkin.Json.Encoding
import Gherkin.Layout.Canonical

/-!
# Running a Command

A command turns the texts it reads into one text that it writes. What it
writes is decided before anything is written: `Command.product` says which
inputs fail the command and what the output is, given a way to read. A
failing command therefore never touches its output.

`runCommand` carries a command out on any system that can read and write paths.
`run` is the whole program on files held as a value: words and environment
in, exit code and output out.

## Main definitions

* `Failure`: Why a command fails, and what is reported.
* `Product`: What a command is about to write.
* `product`: The product of a command.
* `runCommand`: A command, carried out on a system.
* `prepare`: The command that words and environment give.
* `run`: The program.
-/

namespace Gherkin

namespace Command

/-- An input or output: a path, or else a standard stream. -/
abbrev Endpoint := Option String

/-- The name of an input in reports. -/
def inputName (input : Endpoint) : String :=
  input.getD "<stdin>"

/-- Why a command fails. -/
inductive Failure where
  | unreadable (input : Endpoint) (error : FileError)
  | unwritable (output : Endpoint) (error : FileError)
  | unformattable (input : Endpoint) (error : FeatureError)
  | refused (input : Endpoint) (refusal : Refusal)
  | noFeature (input : Endpoint) (error : FeatureError)
  deriving DecidableEq, Repr

/-- The wording of an error and of the errors behind it. A refused document
    is named twice: as what keeps the feature from being read, and itself. -/
def featureChain (error : FeatureError) : List String :=
  error.describe ::
    match error with
    | .refused refusal => [refusal.describe]
    | _ => []

namespace Failure

/-- The wording of a failure, followed by the reasons behind it. -/
def chain : Failure → List String
  | .unreadable input error =>
    [String.join ["failed to read ", input.getD "standard input"], error.message]
  | .unwritable output error =>
    [String.join ["failed to write ", output.getD "standard output"], error.message]
  | .unformattable input error =>
    String.join ["failed to format ", inputName input] :: featureChain error
  | .refused input refusal =>
    [String.join ["failed to parse ", inputName input], refusal.describe]
  | .noFeature input error =>
    String.join ["failed to parse ", inputName input] :: featureChain error

/-- The wording of a failure alone. -/
def headline (failure : Failure) : String :=
  failure.chain.headD ""

end Failure

/-- A report: an error and the reasons behind it, on one line. -/
def report (chain : List String) : String :=
  String.join ["error: ", ": ".intercalate chain, "\n"]

/-- What a command is about to write, where to, and whether all its inputs
    were valid. -/
structure Product where
  output : Endpoint
  text : String
  valid : Bool := true
  deriving DecidableEq, Repr

/-- A way to read inputs. -/
abbrev Read := Endpoint → Except FileError String

/-- Read an input for a command that fails without it. -/
def load (read : Read) (input : Endpoint) : Except Failure String :=
  (read input).mapError (Failure.unreadable input)

/-- What checking an input finds: nothing, or what is wrong with it. -/
def verdict (read : Read) (input : Endpoint) : Option String :=
  match load read input with
  | .error failure => some failure.headline
  | .ok source =>
    match readFeature source with
    | .error error => some error.describe
    | .ok _ => none

/-- The line about an input that has been checked. -/
def verdictLine (input : Endpoint) (problem : Option String) : String :=
  inputName input ++ ": " ++ problem.getD "ok" ++ "\n"

/-- The inputs of a command. -/
def inputs : Command → List Endpoint
  | .fmt endpoints _ => [endpoints.input]
  | .events endpoints _ => [endpoints.input]
  | .dom endpoints _ => [endpoints.input]
  | .check [] => [none]
  | .check paths => paths.map some

/-- The product of a command. `terminal` says whether standard output is a
    terminal. -/
def product (read : Read) (settings : Settings) (terminal : Bool) (command : Command) :
    Except Failure Product :=
  match command with
  | .fmt endpoints skipComments => do
    let source ← load read endpoints.input
    let options := { settings.layout (endpoints.output.isNone && terminal) with
      skipComments := skipComments }
    let text ← (formatSource source options).mapError (Failure.unformattable endpoints.input)
    .ok { output := endpoints.output, text }
  | .events endpoints json => do
    let source ← load read endpoints.input
    let events ← (readEvents source).mapError (Failure.refused endpoints.input)
    .ok { output := endpoints.output, text := if json then jsonLines events else listing events }
  | .dom endpoints pretty => do
    let source ← load read endpoints.input
    let feature ← (readFeature source).mapError (Failure.noFeature endpoints.input)
    let json := feature.toJson
    .ok { output := endpoints.output, text := (if pretty then json.pretty else json.compact) ++ "\n" }
  | .check _ =>
    let verdicts := (inputs command).map (fun input => (input, verdict read input))
    .ok {
      output := none
      text := String.join (verdicts.map (fun (input, problem) => verdictLine input problem))
      valid := verdicts.all (fun (_, problem) => problem.isNone) }

/-- What the program leaves behind. There is no report when the words give no
    command. -/
structure Outcome (σ : Type) where
  code : Nat
  stdout : String := ""
  report : Option String := some ""
  files : σ

/-- A way to read from the files of a system and from standard input. -/
def readFrom {σ : Type} (system : System σ) (files : σ) : Read
  | none => system.stdin files >>= decode
  | some path => system.read files path >>= decode

/-- Run a command on a system. -/
def runCommand {σ : Type} (system : System σ) (files : σ) (settings : Settings) (terminal : Bool)
    (command : Command) : Outcome σ :=
  match command.product (readFrom system files) settings terminal with
  | .error failure => { code := 1, report := some (Command.report failure.chain), files }
  | .ok product =>
    let code := if product.valid then 0 else 1
    match product.output with
    | none => { code, stdout := product.text, files }
    | some path =>
      let written := system.write files path product.text
      match written.error with
      | none => { code, stdout := written.stdout, files := written.files }
      | some error =>
        { code := 1
          stdout := written.stdout
          report := some (Command.report (Failure.unwritable (some path) error).chain)
          files := written.files }

/-- Why no command is run at all. -/
inductive Setback where
  | usage (error : UsageError)
  | settings (error : SettingError)
  deriving DecidableEq, Repr

namespace Setback

/-- The exit code when no command is run. -/
def exitCode : Setback → Nat
  | .usage error => error.exitCode
  | .settings _ => 2

/-- What is reported when no command is run. Usage is explained elsewhere. -/
def report? : Setback → Option String
  | .usage _ => none
  | .settings error => some (Command.report [error.describe])

end Setback

/-- The command that words give and the settings it runs with. The words are
    looked at before the environment. -/
def prepare (words : List String) (env : String → Option String) :
    Except Setback (Command × Settings) := do
  let invocation ← (Invocation.ofWords words).mapError Setback.usage
  let settings ← (Settings.ofEnvironment env).mapError Setback.settings
  .ok (invocation.command, settings.override invocation.overrides)

/-- The program: the words after its name, the environment, the bytes of
    standard input, the files, and whether standard output is a terminal. -/
def run (words : List String) (env : String → Option String) (stdin : ByteArray) (files : Files)
    (terminal : Bool) : Outcome Files :=
  match prepare words env with
  | .error setback => { code := setback.exitCode, report := setback.report?, files }
  | .ok (command, settings) => runCommand (Files.system stdin) files settings terminal command

end Command

end Gherkin
