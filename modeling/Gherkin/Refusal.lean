import Gherkin.Source.Position

/-!
# Why a Document Is Refused

A document that is not a feature is refused at its first fault. The reader
only knows the fault: a cause and a byte offset. For a person it becomes a
`Refusal`, which adds the line and column and quotes what stands there.

## Main definitions

* `Cause`: The rules that a document can break.
* `Cause.message`: What is said about each.
* `Fault`: A cause and the offset at which it shows.
* `Refusal`: A fault placed in its document.
-/

namespace Gherkin

/-- The rules that a document can break. -/
inductive Cause where
  | danglingEscape
  | unterminatedQuote
  | expectedLineEnd
  | expectedTagName
  | expectedTag
  | expectedRow
  | expectedCell
  | expectedCellClose
  | unevenRow (found : Nat) (expected : Nat)
  | expectedFeature
  | expectedFeatureAfterTags
  | expectedTitle
  | secondFeature
  | expectedBlock
  | expectedBlockAfterTags
  | secondBackground
  | lateBackground
  | strayStep
  | expectedStep
  | expectedStepText
  | strayTable
  | strayDocString
  | examplesOutsideOutline
  | taggedExamples
  | secondExamples
  | stepAfterExamples
  | textAfterFence
  | unterminatedDocString
  deriving DecidableEq, Repr

/-- What is said about a cause. -/
def Cause.message : Cause → String
  | .danglingEscape => "dangling `\\` escape at end of line"
  | .unterminatedQuote => "unterminated quoted string"
  | .expectedLineEnd => "expected end of line"
  | .expectedTagName => "expected a tag name after `@`"
  | .expectedTag => "expected a tag or end of line"
  | .expectedRow => "expected `|` to open a table row"
  | .expectedCell => "expected a table cell closed by `|`"
  | .expectedCellClose => "expected `|` to close table cell"
  | .unevenRow found expected =>
    String.join ["table row has ", toString found, " cells but expected ", toString expected]
  | .expectedFeature => "expected `Feature:`"
  | .expectedFeatureAfterTags => "expected `Feature:` after tags"
  | .expectedTitle => "expected a Feature title"
  | .secondFeature => "only one `Feature:` is allowed per document"
  | .expectedBlock => "expected `Background:`, `Scenario:` or `Scenario Outline:`"
  | .expectedBlockAfterTags =>
    "expected `Background:`, `Scenario:` or `Scenario Outline:` after tags"
  | .secondBackground => "only one `Background:` is allowed per Feature"
  | .lateBackground =>
    "`Background:` must come before any `Scenario:` or `Scenario Outline:`"
  | .strayStep =>
    "steps must belong to a `Background:`, `Scenario:` or `Scenario Outline:`"
  | .expectedStep => "expected a step"
  | .expectedStepText => "expected step text"
  | .strayTable => "a table must follow a step or `Examples:`"
  | .strayDocString => "a doc string must follow a step"
  | .examplesOutsideOutline => "`Examples:` is only allowed in a `Scenario Outline:`"
  | .taggedExamples => "`Examples:` cannot be tagged"
  | .secondExamples => "only one `Examples:` is allowed per `Scenario Outline:`"
  | .stepAfterExamples => "steps must come before `Examples:`"
  | .textAfterFence => "expected end of line after opening `\"\"\"`"
  | .unterminatedDocString => "unterminated doc string; expected closing `\"\"\"`"

/-- A cause and the byte offset at which it shows. -/
structure Fault where
  offset : Nat
  cause : Cause
  deriving DecidableEq, Repr

/-- The most characters of a line that a refusal quotes. -/
def excerptLength : Nat := 40

/-- The text from an offset to the end of its line, cut to `excerptLength`
    characters and then marked as cut. -/
def excerptAt (source : String) (offset : Nat) : String :=
  let rest := (Text.dropBytes? offset source.toList).getD []
  let line := rest.takeWhile (fun c => c != '\n' && c != '\r')
  String.ofList (line.take excerptLength ++ if line.length ≤ excerptLength then [] else ['…'])

/-- A fault placed in its document. -/
structure Refusal where
  cause : Cause
  offset : Nat
  position : Position
  excerpt : String
  deriving DecidableEq, Repr

namespace Refusal

/-- Place a fault in the document in which it was found. -/
def ofFault (source : String) (fault : Fault) : Refusal where
  cause := fault.cause
  offset := min fault.offset (Source.size source)
  position := locate source fault.offset
  excerpt := excerptAt source (min fault.offset (Source.size source))

/-- The wording of a refusal. -/
def describe (refusal : Refusal) : String :=
  String.join
    [refusal.position.describe, ": ", refusal.cause.message, " (",
      if refusal.excerpt.isEmpty then "at end of line"
      else String.join ["near `", refusal.excerpt, "`"],
      ")"]

end Refusal

end Gherkin
