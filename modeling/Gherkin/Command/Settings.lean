import Gherkin.Layout.Page
import Gherkin.Text.Basic

/-!
# Settings

What can be configured. Settings have usual values, the environment can
change them, and flags on the command line override the environment.

The environment is consulted in a fixed order, and the first value in it that
makes no sense is reported.

## Main definitions

* `LogLevel`, `ColorChoice`: Two settings with named values.
* `Settings`: All settings.
* `Settings.ofEnvironment`: Settings from environment variables.
* `Overrides`: The settings that flags set.
* `Settings.layout`: The layout options that settings amount to.
-/

namespace Gherkin

namespace Command

/-- How much is logged. -/
inductive LogLevel where
  | trace
  | debug
  | info
  | warn
  | error
  deriving DecidableEq, Repr

namespace LogLevel

/-- The name of a level. -/
def name : LogLevel → String
  | .trace => "trace"
  | .debug => "debug"
  | .info => "info"
  | .warn => "warn"
  | .error => "error"

/-- The words that stand for a level, in any case. One level has two. -/
def words : List (String × LogLevel) :=
  [("trace", .trace), ("debug", .debug), ("info", .info), ("warn", .warn), ("warning", .warn),
    ("error", .error)]

/-- The level that a word stands for. -/
def ofWord? (word : String) : Option LogLevel :=
  (words.find? (fun entry => Text.spells word entry.1)).map (·.2)

end LogLevel

/-- When colours are used. -/
inductive ColorChoice where
  | auto
  | always
  | never
  deriving DecidableEq, Repr

namespace ColorChoice

/-- The words that stand for a choice, in any case. -/
def words : List (String × ColorChoice) :=
  [("auto", .auto), ("always", .always), ("never", .never)]

/-- The choice that a word stands for. -/
def ofWord? (word : String) : Option ColorChoice :=
  (words.find? (fun entry => Text.spells word entry.1)).map (·.2)

/-- Whether colours are used for output that goes to a terminal or not. -/
def resolve (choice : ColorChoice) (terminal : Bool) : Bool :=
  match choice with
  | .auto => terminal
  | .always => true
  | .never => false

end ColorChoice

/-- The words for yes and no, in any case. -/
def booleanWords : List (String × Bool) :=
  [("1", true), ("true", true), ("yes", true), ("on", true),
    ("0", false), ("false", false), ("no", false), ("off", false)]

/-- The truth value that a word stands for. -/
def boolean? (word : String) : Option Bool :=
  (booleanWords.find? (fun entry => Text.spells (trimSpace word) entry.1)).map (·.2)

/-- The largest number that a size can be. -/
def maxSize : Nat := UInt64.size - 1

/-- The value of ASCII digits. -/
def decimalValue (digits : List Char) : Nat :=
  digits.foldl (fun n c => 10 * n + (c.toNat - '0'.toNat)) 0

/-- The size that a text spells: an optional plus sign and ASCII digits, with
    a value of at most `maxSize`. -/
def size? (text : String) : Option Nat :=
  let digits :=
    match text.toList with
    | '+' :: rest => rest
    | cs => cs
  if !digits.isEmpty && digits.all Char.isDigit && decimalValue digits ≤ maxSize then
    some (decimalValue digits)
  else none

/-- A value in the environment that makes no sense. -/
inductive SettingError where
  | logLevel (value : String)
  | commentIndent (value : String)
  | color (value : String)
  | boolean (value : String) (name : String)
  deriving DecidableEq, Repr

namespace SettingError

/-- What is said about a value that makes no sense. -/
def message : SettingError → String
  | .logLevel value =>
    String.join
      ["unknown log level '", value, "', expected one of: trace, debug, info, warn, error"]
  | .commentIndent value =>
    String.join ["invalid comment indent '", value, "', expected a non-negative integer"]
  | .color value =>
    String.join ["unknown colour mode '", value, "', expected one of: auto, always, never"]
  | .boolean value name =>
    String.join ["invalid boolean '", value, "' for ", name, ", expected true or false"]

/-- The wording of the error. -/
def describe (error : SettingError) : String :=
  String.join ["invalid configuration: ", error.message]

end SettingError

/-- All settings. -/
structure Settings where
  logLevel : LogLevel := .warn
  centerSteps : Bool := false
  commentMinIndent : Nat := 45
  alignComments : Bool := true
  color : ColorChoice := .auto
  muted : Bool := false
  deriving DecidableEq, Repr

/-- The settings that flags set. -/
structure Overrides where
  logLevel : Option LogLevel := none
  centerSteps : Option Bool := none
  commentMinIndent : Option Nat := none
  alignComments : Option Bool := none
  color : Option ColorChoice := none
  deriving DecidableEq, Repr

namespace Settings

/-- The value of a variable, or `usual` when it is not set. -/
def lookup {α : Type} (value : Option String) (usual : α) (read : String → Except SettingError α) :
    Except SettingError α :=
  match value with
  | none => .ok usual
  | some text => read text

/-- The truth value of a variable. -/
def readBoolean (name : String) (text : String) : Except SettingError Bool :=
  match boolean? text with
  | some value => .ok value
  | none => .error (.boolean text name)

/-- The log level of a variable. White space around the word is not
    ignored. -/
def readLogLevel (text : String) : Except SettingError LogLevel :=
  match LogLevel.ofWord? text with
  | some level => .ok level
  | none => .error (.logLevel text)

/-- The number of a variable. -/
def readIndent (text : String) : Except SettingError Nat :=
  match size? (trimSpace text) with
  | some indent => .ok indent
  | none => .error (.commentIndent text)

/-- The colour choice of a variable. -/
def readColor (text : String) : Except SettingError ColorChoice :=
  match ColorChoice.ofWord? (trimSpace text) with
  | some choice => .ok choice
  | none => .error (.color (trimSpace text))

/-- The environment variable of the log level. -/
def logLevelVariable : String := "GHERKISH_LOG_LEVEL"

/-- The environment variable of the least comment column. -/
def commentIndentVariable : String := "GHERKISH_COMMENT_INDENT"

/-- The environment variable of the colour choice. -/
def colorVariable : String := "GHERKISH_COLOR"

/-- The environment variable that right-aligns step keywords. -/
def centerStepsVariable : String := "GHERKISH_CENTER_STEPS"

/-- The environment variable that aligns comments. -/
def alignCommentsVariable : String := "GHERKISH_ALIGN_COMMENTS"

/-- The environment variable by which the user of a terminal asks every
    program for no colours. Any value asks for it but the empty one. -/
def mutedVariable : String := "NO_COLOR"

/-- The environment variables that are consulted, in order. -/
def variableNames : List String :=
  [logLevelVariable, commentIndentVariable, colorVariable, centerStepsVariable,
    alignCommentsVariable, mutedVariable]

/-- The settings that environment variables amount to. -/
def ofEnvironment (env : String → Option String) : Except SettingError Settings := do
  let usual : Settings := {}
  let logLevel ← lookup (env logLevelVariable) usual.logLevel readLogLevel
  let commentMinIndent ← lookup (env commentIndentVariable) usual.commentMinIndent readIndent
  let color ← lookup (env colorVariable) usual.color readColor
  let centerSteps ← lookup (env centerStepsVariable) usual.centerSteps
    (readBoolean centerStepsVariable)
  let alignComments ← lookup (env alignCommentsVariable) usual.alignComments
    (readBoolean alignCommentsVariable)
  let muted := (env mutedVariable).any (fun value => !value.isEmpty)
  .ok { logLevel, centerSteps, commentMinIndent, alignComments, color, muted }

/-- The settings with some of them overridden. -/
def override (settings : Settings) (overrides : Overrides) : Settings where
  logLevel := overrides.logLevel.getD settings.logLevel
  centerSteps := overrides.centerSteps.getD settings.centerSteps
  commentMinIndent := overrides.commentMinIndent.getD settings.commentMinIndent
  alignComments := overrides.alignComments.getD settings.alignComments
  color := overrides.color.getD settings.color
  muted := settings.muted

/-- The layout options for output that goes to a terminal or not. -/
def layout (settings : Settings) (terminal : Bool) : Layout.Options where
  centerSteps := settings.centerSteps
  color := settings.color.resolve terminal
  alignComments := settings.alignComments
  commentMinIndent := settings.commentMinIndent
  muted := settings.muted

end Settings

end Command

end Gherkin
