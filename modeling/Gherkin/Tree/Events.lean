import Gherkin.Event
import Gherkin.Tree

/-!
# A Tree Written Out as Events

The kinds of event that a reader meets in a document that says what a tree
says, in order. Spans are left out, since a tree does not know them, and so
are blank lines, since a tree does not keep them.

Comments above a part come before the event that opens it, and the comment at
the end of its line right after. There are two exceptions. A row or a doc
string is only at the end of its line once its content has been seen, so the
comment comes before the closing event. And the comments above a table are
those above its first row: they come before the table opens, not between the
table and the row.

An outline whose examples have no rows yields no table, because a document
cannot show one. A step whose table has no rows yields a table all the same,
so that the step can be told from one without an argument.

## Main definitions

* `Row.kinds`, `Table.kinds`, `DocString.kinds`, `Argument.kinds`: The events
  of what a step is given.
* `Step.kinds`, `Block.kinds`, `Examples.kinds`, `Scenario.kinds`: The events
  of the parts of a feature.
* `Feature.kinds`: The events of a feature.
-/

namespace Gherkin

namespace Comments

/-- The comments above a part. -/
def above (comments : Comments) : List EventKind :=
  comments.leading.map (EventKind.comment · false)

/-- The comment at the end of a part's line. -/
def beside (comments : Comments) : List EventKind :=
  comments.inline.toList.map (EventKind.comment · true)

end Comments

/-- The events of a row, without the comments above it. -/
def Row.kinds (row : Row) : List EventKind :=
  .row :: row.cells.map EventKind.cell ++ row.comments.beside ++ [.rowEnd]

namespace Table

/-- The events of rows below others, each after the comments above it. -/
def laterKinds (rows : List Row) : List EventKind :=
  rows.flatMap (fun row => row.comments.above ++ row.kinds)

/-- The events of a table. The comments above its first row are comments
    above the table. -/
def kinds (table : Table) : List EventKind :=
  match table.rows with
  | [] => [.table, .tableEnd]
  | first :: rest =>
    first.comments.above ++ .table :: first.kinds ++ laterKinds rest ++ [.tableEnd]

end Table

/-- The events of a doc string. -/
def DocString.kinds (doc : DocString) : List EventKind :=
  doc.comments.above ++ .docString doc.indent :: doc.lines.map EventKind.docLine ++
    doc.comments.beside ++ [.docStringEnd]

/-- The events of an argument. -/
def Argument.kinds : Argument → List EventKind
  | .none => []
  | .docString doc => doc.kinds
  | .table grid => grid.kinds

/-- The events of a step. -/
def Step.kinds (step : Step) : List EventKind :=
  step.comments.above ++ .step step.keyword step.text step.tags :: step.comments.beside ++
    step.argument.kinds ++ [.stepEnd]

/-- The events of examples. -/
def Examples.kinds (examples : Examples) : List EventKind :=
  examples.comments.above ++ .examples :: examples.comments.beside ++
    (if examples.table.rows.isEmpty then [] else examples.table.kinds) ++ [.examplesEnd]

/-- The events of a block, with those of its examples if it has any. -/
def Block.kinds (block : Block) (kind : BlockKind) (examples : Option Examples) :
    List EventKind :=
  block.comments.above ++ .block kind block.title block.tags :: block.comments.beside ++
    block.steps.flatMap Step.kinds ++ examples.toList.flatMap Examples.kinds ++ [.blockEnd kind]

/-- The events of a scenario. -/
def Scenario.kinds : Scenario → List EventKind
  | .plain block => block.kinds .scenario none
  | .outline block examples => block.kinds .outline examples

/-- The events of a feature. -/
def Feature.kinds (feature : Feature) : List EventKind :=
  feature.comments.above ++
    .feature feature.title feature.description feature.tags :: feature.comments.beside ++
    feature.background.toList.flatMap (fun block => block.kinds .background none) ++
    feature.scenarios.flatMap Scenario.kinds ++
    feature.trailing.map (EventKind.comment · false) ++ [.featureEnd]

end Gherkin
