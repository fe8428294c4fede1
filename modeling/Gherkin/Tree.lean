import Gherkin.Keyword
import Gherkin.Text.Basic

/-!
# Feature Trees

A feature as a tree: what a document says, without where it says it.

Every node that has a line of its own can carry comments: one at the end of
that line and any number on lines above it. The feature also keeps the
comments below its last line. Tags and comments are held without the sign
that introduces them.

Trees built by hand may hold what no document says, such as a title with a
line break or a step with a reserved keyword. The types do not forbid it:
which trees survive being written and read again is a question of its own.

## Main definitions

* `Comments`: The comments of a node.
* `Row`, `Table`, `DocString`, `Argument`: What a step can be given.
* `Step`, `Block`, `Examples`, `Scenario`, `Feature`: The parts of a feature.
-/

namespace Gherkin

/-- The comments of a node: the one at the end of its line, and those on the
    lines above it. -/
structure Comments where
  inline : Option String := none
  leading : List String := []
  deriving DecidableEq, Repr, Inhabited

/-- A row of a table. -/
structure Row where
  cells : List String := []
  comments : Comments := {}
  deriving DecidableEq, Repr, Inhabited

/-- A table. Its rows need not have the same number of cells. -/
structure Table where
  rows : List Row := []
  deriving DecidableEq, Repr, Inhabited

/-- The number of cells of the longest row. -/
def Table.columns (table : Table) : Nat :=
  (table.rows.map (fun row => row.cells.length)).foldl max 0

/-- Lines of text between two fences, and the indentation of the first
    fence. The comment at the end of its line stands behind the second. -/
structure DocString where
  indent : Nat
  lines : List String := []
  comments : Comments := {}
  deriving DecidableEq, Repr, Inhabited

/-- What a step is given besides its text. -/
inductive Argument where
  | none
  | docString (doc : DocString)
  | table (table : Table)
  deriving DecidableEq, Repr, Inhabited

/-- A step. -/
structure Step where
  keyword : StepKeyword
  text : String := ""
  tags : List String := []
  argument : Argument := .none
  comments : Comments := {}
  deriving DecidableEq, Repr

/-- A titled list of steps. -/
structure Block where
  title : String := ""
  tags : List String := []
  steps : List Step := []
  comments : Comments := {}
  deriving DecidableEq, Repr, Inhabited

/-- The table of values that an outline is run with. -/
structure Examples where
  table : Table := {}
  comments : Comments := {}
  deriving DecidableEq, Repr, Inhabited

/-- A scenario, or an outline of scenarios with the examples that complete
    it. -/
inductive Scenario where
  | plain (block : Block)
  | outline (block : Block) (examples : Option Examples)
  deriving DecidableEq, Repr, Inhabited

namespace Scenario

/-- The title and steps of a scenario. -/
def block : Scenario → Block
  | .plain block => block
  | .outline block _ => block

/-- The examples of a scenario; only an outline has any. -/
def examples? : Scenario → Option Examples
  | .plain _ => none
  | .outline _ examples => examples

/-- Whether a scenario is an outline. -/
def isOutline : Scenario → Bool
  | .plain _ => false
  | .outline .. => true

end Scenario

/-- A feature. The lines of its description are separated by line feeds. -/
structure Feature where
  title : String := ""
  description : String := ""
  tags : List String := []
  background : Option Block := none
  scenarios : List Scenario := []
  comments : Comments := {}
  trailing : List String := []
  deriving DecidableEq, Repr, Inhabited

/-- The lines of the description; an empty description has none. -/
def Feature.descriptionLines (feature : Feature) : List String :=
  if feature.description.isEmpty then []
  else (Text.cutAt '\n' feature.description.toList).map String.ofList

end Gherkin
