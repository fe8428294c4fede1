import Gherkin.Reader.Scan
import Gherkin.Tree
import Gherkin.Proofs.Source.Lines

/-!
# Trees That a Document Can Say

Trees built by hand may hold what no document says: a title with a line
break, a comment that ends in white space, a table whose rows differ in
length. Printing such a tree loses something, because the printed text is read
as something else.

A tree is *printable* when each of its texts can stand where it would be
printed. The conditions are local, one for each kind of text, and say nothing
about layout: what is printable does not depend on how it is going to be
printed.

## Main definitions

* `OneLine`: A text without line breaks.
* `IsPhrase`, `IsProse`, `IsTag`, `IsComment`, `IsCell`, `IsDocLine`: Texts
  that can stand in the places of a document.
* `Feature.Printable`: A feature all of whose texts can stand where they are.
-/

namespace Gherkin

/-- A text without line breaks. -/
def OneLine (text : String) : Prop :=
  Source.Unbroken text.toList

/-- A text that a title or a step can have: it is not empty, does not begin
    with a blank, and is scanned whole. -/
structure IsPhrase (text : String) : Prop where
  ne_empty : text ≠ ""
  oneLine : OneLine text
  head : ∀ c ∈ text.toList.head?, Text.isBlank c = false
  scans : Reader.scanText false text.toList = .ok (text.toList, [])

/-- A text that a line of the description can have: one that does not end the
    description by what it begins with. -/
structure IsProse (text : String) : Prop extends IsPhrase text where
  noTag : text.toList.head? ≠ some '@'
  noHeading : ∀ kind, (Heading.block kind).text.toList.isPrefixOf text.toList = false

/-- The name of a tag. -/
structure IsTag (name : String) : Prop where
  ne_empty : name ≠ ""
  oneLine : OneLine name
  chars : ∀ c ∈ name.toList, Reader.isTagChar c = true

/-- The text of a comment: nothing at its end would be trimmed. -/
structure IsComment (text : String) : Prop where
  oneLine : OneLine text
  trimmed : Text.dropTrailing Text.isSpace text.toList = text.toList

/-- The text of a cell. -/
structure IsCell (text : String) : Prop where
  oneLine : OneLine text
  noBar : ∀ c ∈ text.toList, c ≠ '|'
  trimmed : Text.trim Text.isBlank text.toList = text.toList

/-- A line of a doc string: it does not close it. -/
structure IsDocLine (text : String) : Prop where
  oneLine : OneLine text
  noFence : Reader.fence.isPrefixOf (Text.skipBlanks text.toList) = false

/-- Comments that can stand beside and above a part. -/
structure Comments.Printable (comments : Comments) : Prop where
  inline : ∀ text ∈ comments.inline, IsComment text
  leading : ∀ text ∈ comments.leading, IsComment text

/-- A row with the given number of cells. A bar in the comment beside it would
    be read as one more cell. -/
structure Row.Printable (columns : Nat) (row : Row) : Prop where
  length : row.cells.length = columns
  cells : ∀ cell ∈ row.cells, IsCell cell
  comments : row.comments.Printable
  noBar : ∀ text ∈ row.comments.inline, ∀ c ∈ text.toList, c ≠ '|'

/-- A table whose rows all have the same number of cells, and at least one. -/
def Table.Printable (table : Table) : Prop :=
  ∃ columns, 1 ≤ columns ∧ ∀ row ∈ table.rows, row.Printable columns

/-- A doc string. Its indentation is of no concern. -/
structure DocString.Printable (doc : DocString) : Prop where
  lines : ∀ line ∈ doc.lines, IsDocLine line
  comments : doc.comments.Printable

/-- An argument. A step cannot be given a table without rows. -/
def Argument.Printable : Argument → Prop
  | .none => True
  | .docString doc => doc.Printable
  | .table grid => grid.rows ≠ [] ∧ grid.Printable

/-- A step. -/
structure Step.Printable (step : Step) : Prop where
  keyword : step.keyword ≠ .or
  text : IsPhrase step.text
  tags : ∀ tag ∈ step.tags, IsTag tag
  argument : step.argument.Printable
  comments : step.comments.Printable

/-- A title that a block can have. -/
def IsTitle (title : String) : Prop :=
  title = "" ∨ IsPhrase title

/-- A block. -/
structure Block.Printable (block : Block) : Prop where
  title : IsTitle block.title
  tags : ∀ tag ∈ block.tags, IsTag tag
  steps : ∀ step ∈ block.steps, step.Printable
  comments : block.comments.Printable

/-- Examples. -/
structure Examples.Printable (examples : Examples) : Prop where
  table : examples.table.Printable
  comments : examples.comments.Printable

/-- A scenario. -/
def Scenario.Printable : Scenario → Prop
  | .plain block => block.Printable
  | .outline block examples => block.Printable ∧ ∀ e ∈ examples, e.Printable

/-- Lines of a description: it neither begins nor ends with an empty line, and
    the other lines are prose. -/
structure IsDescription (lines : List String) : Prop where
  first : lines.head? ≠ some ""
  last : lines.getLast? ≠ some ""
  prose : ∀ line ∈ lines, line ≠ "" → IsProse line

/-- A feature. -/
structure Feature.Printable (feature : Feature) : Prop where
  title : IsPhrase feature.title
  description : IsDescription feature.descriptionLines
  tags : ∀ tag ∈ feature.tags, IsTag tag
  background : ∀ block ∈ feature.background, block.Printable
  scenarios : ∀ scenario ∈ feature.scenarios, scenario.Printable
  comments : feature.comments.Printable
  trailing : ∀ text ∈ feature.trailing, IsComment text

end Gherkin
