import Gherkin.Text.Basic

/-!
# Keywords

The words that give a line its meaning. A *heading* opens a section and ends
in a colon; a *step keyword* opens a step and must be followed by a blank or
the end of the line.

`or` is a step keyword that trees may hold and that can be spelled, but no
line is recognised by it: it is reserved.

## Main definitions

* `BlockKind`: The three kinds of block that hold steps.
* `Heading`: What a heading line opens.
* `StepKeyword`: The words that open a step.
* `Heading.recognise?`, `StepKeyword.recognise?`: The keyword a line begins with.
* `StepKeyword.ofWord?`: The keyword that a word spells.
-/

namespace Gherkin

/-- The kinds of block that hold steps. -/
inductive BlockKind where
  | background
  | scenario
  | outline
  deriving DecidableEq, Repr

/-- What a heading line opens. -/
inductive Heading where
  | feature
  | block (kind : BlockKind)
  | examples
  deriving DecidableEq, Repr

namespace Heading

/-- The heading as it is written, colon included. -/
def text : Heading → String
  | .feature => "Feature:"
  | .block .background => "Background:"
  | .block .scenario => "Scenario:"
  | .block .outline => "Scenario Outline:"
  | .examples => "Examples:"

/-- The short name of what the heading opens. -/
def name : Heading → String
  | .feature => "Feature"
  | .block .background => "Background"
  | .block .scenario => "Scenario"
  | .block .outline => "Outline"
  | .examples => "Examples"

/-- All headings. No heading is the beginning of another, so the order does
    not matter. -/
def all : List Heading :=
  [.block .outline, .block .background, .block .scenario, .examples, .feature]

/-- The heading that `content` begins with. -/
def recognise? (content : List Char) : Option Heading :=
  all.find? (fun heading => heading.text.toList.isPrefixOf content)

end Heading

/-- The words that open a step, named for what the step contributes: the
    context, the action, the outcome, or a continuation of the step before. -/
inductive StepKeyword where
  | context
  | action
  | outcome
  | and
  | but
  | or
  deriving DecidableEq, Repr

namespace StepKeyword

/-- The keyword as it is written. -/
def text : StepKeyword → String
  | .context => "Given"
  | .action => "When"
  | .outcome => "Then"
  | .and => "And"
  | .but => "But"
  | .or => "Or"

/-- The keywords that a line can be recognised by. -/
def active : List StepKeyword :=
  [.context, .action, .outcome, .and, .but]

/-- All keywords. -/
def all : List StepKeyword :=
  active ++ [.or]

/-- A keyword is reserved when no line is recognised by it. -/
def isReserved (keyword : StepKeyword) : Bool :=
  keyword == .or

/-- Whether `content` begins with the word `word`, that is, with its letters
    and then a blank or nothing. -/
def startsWith (word : List Char) (content : List Char) : Bool :=
  word.isPrefixOf content &&
    match content.drop word.length with
    | [] => true
    | c :: _ => Text.isBlank c

/-- The step keyword that `content` begins with. -/
def recognise? (content : List Char) : Option StepKeyword :=
  active.find? (fun keyword => startsWith keyword.text.toList content)

/-- The keyword that a word spells. Surrounding white space is ignored and so
    is the case of ASCII letters; reserved keywords can be spelled. -/
def ofWord? (word : String) : Option StepKeyword :=
  all.find? (fun keyword => Text.spells (trimSpace word) keyword.text)

/-- What is said of a word that spells no keyword. -/
def unknownMessage (word : String) : String :=
  String.join ["invalid step keyword: ", trimSpace word]

end StepKeyword

end Gherkin
