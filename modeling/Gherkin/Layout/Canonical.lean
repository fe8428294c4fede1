import Gherkin.Delivery
import Gherkin.Layout.Page
import Gherkin.Text.Classes

/-!
# The Canonical Layout

Features are printed with fixed indentation: blocks by two spaces, steps by
four, arguments by six. A blank line stands before each block, before the
examples of an outline and before the comments that end the feature, and
nowhere else; what the description and doc strings hold is not layout.

Each part of the tree has a function that gives its lines, so the printed
feature is a concatenation, with `Page.separate` in between.

A column of a table is as wide as its widest cell. Cells that look like numbers
are pushed to the right of their column, all others to the left.

## Main definitions

* `isNumeric`: Whether a cell looks like a number.
* `widths`: The widths of a table's columns.
* `rowLine`: A row as a printed line.
* `stepLines`, `blockLines`, `examplesLines`: The lines of the parts.
* `featurePage`: The lines of a feature.
* `formatFeature`: A feature as text.
* `formatSource`: A document in its canonical layout.
-/

namespace Gherkin

namespace Layout

/-- The part of a number behind its first digits: nothing, or a point or
    comma and further digits. -/
def isFraction : List Char → Bool
  | [] => true
  | c :: rest => (c == '.' || c == ',') && !rest.isEmpty && rest.all Text.isDecimalDigit

/-- Whether a cell looks like a number: an optional sign, digits of any
    script, and optionally a point or comma with further digits. -/
def isNumeric (cell : String) : Bool :=
  let unsigned :=
    match cell.toList with
    | '+' :: rest => rest
    | '-' :: rest => rest
    | cs => cs
  !(unsigned.takeWhile Text.isDecimalDigit).isEmpty &&
    isFraction (unsigned.dropWhile Text.isDecimalDigit)

/-- The larger width in each column; a column that only one list has keeps
    its width. -/
def widen : List Nat → List Nat → List Nat
  | [], ws => ws
  | ws, [] => ws
  | a :: as, b :: bs => max a b :: widen as bs

/-- The widths of a table's columns, in characters. -/
def widths (table : Table) : List Nat :=
  table.rows.foldr (fun row ws => widen (row.cells.map String.length) ws) []

/-- A cell in its column, with a space on either side. -/
def padded (width : Nat) (cell : String) : String :=
  let padding := Text.spaces (width - cell.length)
  if isNumeric cell then " " ++ padding ++ cell ++ " " else " " ++ cell ++ padding ++ " "

/-- A row as a printed line. Cells without a column are left out, and so are
    columns without a cell. -/
def rowLine (widths : List Nat) (indent : Nat) (cells : List String) : Line where
  indent := indent
  segments :=
    ⟨"|", .border⟩ ::
      (widths.zip cells).flatMap (fun (width, cell) =>
        [⟨padded width cell, .plain⟩, ⟨"|", .border⟩])

/-- The indentation of blocks and of the description. -/
def blockIndent : Nat := 2

/-- The indentation of steps and of the examples heading. -/
def stepIndent : Nat := 4

/-- The indentation of doc strings and tables. -/
def argumentIndent : Nat := 6

/-- The width of the field in which step keywords are right-aligned, counted
    from the left margin. -/
def keywordField : Nat := 9

/-- The comment at the end of a line, unless comments are left out. -/
def inlineComment (options : Options) (comments : Comments) : Option String :=
  if options.skipComments then none else comments.inline

/-- Comments on lines of their own, unless comments are left out. -/
def commentLines (options : Options) (indent : Nat) (comments : List String) : List Line :=
  if options.skipComments then []
  else comments.map (fun text => Line.single indent ("#" ++ text) .comment)

/-- The line of tags, if there are any. -/
def tagLines (indent : Nat) (tags : List String) : List Line :=
  if tags.isEmpty then [] else [Line.single indent (tagLine tags) .tag]

/-- A heading with its title. -/
def headingLine (options : Options) (indent : Nat) (heading : Heading) (title : String)
    (comments : Comments) : Line where
  indent := indent
  segments :=
    ⟨heading.text, .keyword⟩ :: if title.isEmpty then [] else [⟨" " ++ title, .plain⟩]
  comment := inlineComment options comments

/-- The lines of a doc string. An empty line of text has no indentation. -/
def docStringLines (options : Options) (doc : DocString) : List Line :=
  commentLines options argumentIndent doc.comments.leading ++
    Line.single argumentIndent "\"\"\"" .fence ::
      doc.lines.map (fun text =>
        if text.isEmpty then Line.blank else Line.single argumentIndent text .plain) ++
    [{ Line.single argumentIndent "\"\"\"" .fence with
        comment := inlineComment options doc.comments }]

/-- The lines of a table. -/
def tableLines (options : Options) (table : Table) : List Line :=
  let ws := widths table
  table.rows.flatMap (fun row =>
    commentLines options argumentIndent row.comments.leading ++
      [{ rowLine ws argumentIndent row.cells with comment := inlineComment options row.comments }])

/-- The lines of an argument. -/
def argumentLines (options : Options) : Argument → List Line
  | .none => []
  | .docString doc => docStringLines options doc
  | .table rows => tableLines options rows

/-- The indentation of a step with the given keyword. -/
def keywordIndent (options : Options) (keyword : StepKeyword) : Nat :=
  if options.centerSteps then keywordField - keyword.text.length else stepIndent

/-- The line of a step itself. -/
def stepLine (options : Options) (step : Step) : Line where
  indent := keywordIndent options step.keyword
  segments := [⟨step.keyword.text, .stepKeyword⟩, ⟨" " ++ step.text, .plain⟩]
  comment := inlineComment options step.comments

/-- The lines of a step. -/
def stepLines (options : Options) (step : Step) : List Line :=
  commentLines options stepIndent step.comments.leading ++ tagLines stepIndent step.tags ++
    stepLine options step :: argumentLines options step.argument

/-- The lines of a block. -/
def blockLines (options : Options) (kind : BlockKind) (block : Block) : List Line :=
  commentLines options blockIndent block.comments.leading ++ tagLines blockIndent block.tags ++
    headingLine options blockIndent (.block kind) block.title block.comments ::
      block.steps.flatMap (stepLines options)

/-- The lines of examples. -/
def examplesLines (options : Options) (examples : Examples) : List Line :=
  commentLines options stepIndent examples.comments.leading ++
    headingLine options stepIndent .examples "" examples.comments ::
      tableLines options examples.table

/-- The lines of a feature above its first block. -/
def openingLines (options : Options) (feature : Feature) : List Line :=
  commentLines options 0 feature.comments.leading ++ tagLines 0 feature.tags ++
    headingLine options 0 .feature feature.title feature.comments ::
      feature.descriptionLines.map (fun text => Line.single blockIndent text .plain)

namespace Page

/-- Add a part after a blank line. -/
def addPart (page : Page) (lines : List Line) : Page :=
  page.separate.append lines

/-- Add a scenario and its examples. -/
def addScenario (options : Options) (page : Page) : Scenario → Page
  | .plain block => page.addPart (blockLines options .scenario block)
  | .outline block none => page.addPart (blockLines options .outline block)
  | .outline block (some examples) =>
    (page.addPart (blockLines options .outline block)).addPart (examplesLines options examples)

end Page

/-- The lines of a feature. -/
def featurePage (options : Options) (feature : Feature) : Page :=
  let opening : Page := ⟨openingLines options feature⟩
  let withBackground :=
    match feature.background with
    | none => opening
    | some block => opening.addPart (blockLines options .background block)
  let withScenarios := feature.scenarios.foldl (Page.addScenario options) withBackground
  if options.skipComments || feature.trailing.isEmpty then withScenarios
  else withScenarios.addPart (commentLines options 0 feature.trailing)

end Layout

/-- A feature in its canonical layout. -/
def formatFeature (feature : Feature) (options : Layout.Options) : String :=
  (Layout.featurePage options feature).render options

/-- A document in its canonical layout. -/
def formatSource (source : String) (options : Layout.Options) : Except FeatureError String :=
  (readFeature source).map (formatFeature · options)

end Gherkin
