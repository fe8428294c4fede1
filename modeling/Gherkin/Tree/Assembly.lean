import Gherkin.Event
import Gherkin.Tree

/-!
# Assembling a Tree From Events

An `Assembly` takes events one at a time and puts a feature together. It has
a slot for each part that can be open, and for an argument that is closed but
not yet handed to its step.

An event that does not fit is refused, and the assembly goes on. It then no
longer holds whatever the event had already taken out of its slot: a block
that is closed by the wrong event is lost, and so is a step that is closed
when its block is gone.

Comments on lines of their own wait for the next part that opens. A comment
at the end of a line goes to the part opened last, as long as nothing has
been closed since; otherwise it waits like the others.

## Main definitions

* `Misfit`: Why an event does not fit.
* `Assembly`: A tree under construction.
* `Assembly.accept`: Take one event.
* `Assembly.feature?`: The finished feature.
* `assemble`: The feature that a list of events describes.
-/

namespace Gherkin

/-- Why an event does not fit into the tree so far. -/
inductive Misfit where
  | complete
  | featurePresent
  | noFeature
  | blockOpen
  | otherBlockOpen
  | otherBlockClosed
  | noBlock
  | stepOpen
  | otherStepOpen
  | noStep
  | examplesMisplaced
  | noExamples
  | noOutline
  | noDocString
  | tableMisplaced
  | noTable
  | noRow
  deriving DecidableEq, Repr

/-- What is said about an event that does not fit. -/
def Misfit.message : Misfit → String
  | .complete => "the Feature is already complete"
  | .featurePresent => "the document already has a Feature"
  | .noFeature => "no Feature is open"
  | .blockOpen => "a block is still open"
  | .otherBlockOpen => "another block is still open"
  | .otherBlockClosed => "it does not close the open block"
  | .noBlock => "no block is open"
  | .stepOpen => "a step is still open"
  | .otherStepOpen => "another step is still open"
  | .noStep => "no step is open"
  | .examplesMisplaced => "examples must follow the steps of a Scenario Outline"
  | .noExamples => "no Examples section is open"
  | .noOutline => "no Scenario Outline is open"
  | .noDocString => "no doc string is open"
  | .tableMisplaced => "a table must belong to a step or Examples"
  | .noTable => "no table is open"
  | .noRow => "no table row is open"

/-- A block that is open, with the examples it has been given. -/
structure OpenBlock where
  kind : BlockKind
  block : Block
  examples : Option Examples := none
  deriving DecidableEq, Repr

/-- The part that a comment at the end of a line belongs to. -/
inductive Target where
  | feature
  | block
  | step
  | docString
  | row
  | examples
  deriving DecidableEq, Repr

/-- A tree under construction. -/
structure Assembly where
  feature : Option Feature := none
  finished : Bool := false
  block : Option OpenBlock := none
  step : Option Step := none
  docString : Option DocString := none
  closedDocString : Option DocString := none
  table : Option Table := none
  row : Option Row := none
  closedTable : Option Table := none
  examples : Option Examples := none
  waiting : List String := []
  target : Option Target := none
  deriving DecidableEq, Repr

/-- What becomes of an event: it is taken, or refused for a reason. Either way
    there is an assembly to go on with. -/
inductive Verdict where
  | taken (next : Assembly)
  | refused (reason : Misfit) (next : Assembly)
  deriving DecidableEq, Repr

namespace Verdict

/-- The assembly to go on with. -/
def next : Verdict → Assembly
  | .taken next => next
  | .refused _ next => next

/-- The reason of a refusal. -/
def reason? : Verdict → Option Misfit
  | .taken _ => none
  | .refused reason _ => some reason

end Verdict

namespace Comments

/-- The comments of a part that opens: those that waited for it. -/
def opening (waiting : List String) : Comments :=
  { leading := waiting }

/-- Put a comment at the end of the node's line. -/
def withInline (comments : Comments) (text : String) : Comments :=
  { comments with inline := some text }

end Comments

namespace Assembly

/-- Open the feature. -/
def openFeature (a : Assembly) (title description : String) (tags : List String) : Verdict :=
  if a.feature.isSome then .refused .featurePresent a
  else .taken { a with
    feature := some { title, description, tags, comments := .opening a.waiting }
    waiting := []
    target := some .feature }

/-- Close the feature. The comments that still wait come after everything. -/
def closeFeature (a : Assembly) : Verdict :=
  if a.block.isSome then .refused .blockOpen a
  else
    let released := { a with waiting := [] }
    match a.feature with
    | none => .refused .noFeature released
    | some feature =>
      .taken { released with feature := some { feature with trailing := a.waiting }, finished := true }

/-- Open a block. -/
def openBlock (a : Assembly) (kind : BlockKind) (title : String) (tags : List String) : Verdict :=
  if a.feature.isNone then .refused .noFeature a
  else if a.block.isSome then .refused .otherBlockOpen a
  else .taken { a with
    block := some { kind, block := { title, tags, comments := .opening a.waiting } }
    waiting := []
    target := some .block }

/-- Add a closed block to the feature. A later background replaces an earlier
    one. -/
def addBlock (feature : Feature) (o : OpenBlock) : Feature :=
  match o.kind with
  | .background => { feature with background := some o.block }
  | .scenario => { feature with scenarios := feature.scenarios ++ [.plain o.block] }
  | .outline => { feature with scenarios := feature.scenarios ++ [.outline o.block o.examples] }

/-- Close a block. -/
def closeBlock (a : Assembly) (kind : BlockKind) : Verdict :=
  if a.step.isSome then .refused .stepOpen a
  else
    let emptied := { a with block := none }
    match a.feature, a.block with
    | none, _ => .refused .noFeature emptied
    | some _, none => .refused .otherBlockClosed emptied
    | some feature, some o =>
      if o.kind = kind then .taken { emptied with feature := some (addBlock feature o) }
      else .refused .otherBlockClosed emptied

/-- Open a step. -/
def openStep (a : Assembly) (keyword : StepKeyword) (text : String) (tags : List String) :
    Verdict :=
  if a.block.isNone then .refused .noBlock a
  else if a.step.isSome then .refused .otherStepOpen a
  else .taken { a with
    step := some { keyword, text, tags, comments := .opening a.waiting }
    waiting := []
    target := some .step }

/-- Close a step and hand it the argument that was closed last; a doc string
    is preferred to a table. -/
def closeStep (a : Assembly) : Verdict :=
  match a.step with
  | none => .refused .noStep a
  | some step =>
    let (step, emptied) :=
      match a.closedDocString, a.closedTable with
      | some doc, _ =>
        ({ step with argument := .docString doc },
          { a with step := none, closedDocString := none })
      | none, some table =>
        ({ step with argument := .table table }, { a with step := none, closedTable := none })
      | none, none => (step, { a with step := none })
    match a.block with
    | none => .refused .noBlock emptied
    | some o =>
      .taken { emptied with
        block := some { o with block := { o.block with steps := o.block.steps ++ [step] } } }

/-- Open the examples of an outline. -/
def openExamples (a : Assembly) : Verdict :=
  if a.block.any (fun o => o.kind == .outline) && a.step.isNone then
    .taken { a with
      examples := some { comments := .opening a.waiting }
      waiting := []
      target := some .examples }
  else .refused .examplesMisplaced a

/-- Close the examples of an outline. Later examples replace earlier ones. -/
def closeExamples (a : Assembly) : Verdict :=
  match a.examples with
  | none => .refused .noExamples a
  | some examples =>
    let examples := { examples with table := a.closedTable.getD {} }
    let emptied := { a with examples := none, closedTable := none }
    match a.block with
    | some o =>
      if o.kind = .outline then
        .taken { emptied with block := some { o with examples := some examples } }
      else .refused .noOutline emptied
    | none => .refused .noOutline emptied

/-- Open a doc string. -/
def openDocString (a : Assembly) (indent : Nat) : Verdict :=
  if a.step.isNone then .refused .noStep a
  else .taken { a with
    docString := some { indent, comments := .opening a.waiting }
    waiting := []
    target := some .docString }

/-- Add a line to the open doc string. -/
def addDocLine (a : Assembly) (text : String) : Verdict :=
  match a.docString with
  | none => .refused .noDocString a
  | some doc => .taken { a with docString := some { doc with lines := doc.lines ++ [text] } }

/-- Close a doc string. -/
def closeDocString (a : Assembly) : Verdict :=
  match a.docString with
  | none => .refused .noDocString a
  | some doc => .taken { a with docString := none, closedDocString := some doc }

/-- Open a table. It has no line of its own, so comments go on waiting. -/
def openTable (a : Assembly) : Verdict :=
  if a.step.isNone && a.examples.isNone then .refused .tableMisplaced a
  else .taken { a with table := some {} }

/-- Open a row. -/
def openRow (a : Assembly) : Verdict :=
  if a.table.isNone then .refused .noTable a
  else .taken { a with
    row := some { comments := .opening a.waiting }
    waiting := []
    target := some .row }

/-- Add a cell to the open row. -/
def addCell (a : Assembly) (content : String) : Verdict :=
  match a.row with
  | none => .refused .noRow a
  | some row => .taken { a with row := some { row with cells := row.cells ++ [content] } }

/-- Close a row and add it to the open table, if there still is one. -/
def closeRow (a : Assembly) : Verdict :=
  match a.row with
  | none => .refused .noRow a
  | some row =>
    .taken { a with
      row := none
      table := a.table.map (fun table => { table with rows := table.rows ++ [row] }) }

/-- Close a table. -/
def closeTable (a : Assembly) : Verdict :=
  match a.table with
  | none => .refused .noTable a
  | some table => .taken { a with table := none, closedTable := some table }

/-- Let a comment wait for the next part that opens. -/
def hold (a : Assembly) (text : String) : Assembly :=
  { a with waiting := a.waiting ++ [text] }

/-- Put a comment at the end of the line of the part opened last. -/
def attach (a : Assembly) (text : String) : Assembly :=
  match a.target with
  | none => a.hold text
  | some .feature =>
    match a.feature with
    | none => a.hold text
    | some n => { a with feature := some { n with comments := n.comments.withInline text } }
  | some .block =>
    match a.block with
    | none => a.hold text
    | some o =>
      { a with block := some { o with
        block := { o.block with comments := o.block.comments.withInline text } } }
  | some .step =>
    match a.step with
    | none => a.hold text
    | some n => { a with step := some { n with comments := n.comments.withInline text } }
  | some .docString =>
    match a.docString with
    | none => a.hold text
    | some n => { a with docString := some { n with comments := n.comments.withInline text } }
  | some .row =>
    match a.row with
    | none => a.hold text
    | some n => { a with row := some { n with comments := n.comments.withInline text } }
  | some .examples =>
    match a.examples with
    | none => a.hold text
    | some n => { a with examples := some { n with comments := n.comments.withInline text } }

/-- Take an event while the feature is not complete. -/
def place (a : Assembly) : EventKind → Verdict
  | .feature title description tags => a.openFeature title description tags
  | .featureEnd => a.closeFeature
  | .block kind title tags => a.openBlock kind title tags
  | .blockEnd kind => a.closeBlock kind
  | .step keyword text tags => a.openStep keyword text tags
  | .stepEnd => a.closeStep
  | .docString indent => a.openDocString indent
  | .docLine text => a.addDocLine text
  | .docStringEnd => a.closeDocString
  | .table => a.openTable
  | .row => a.openRow
  | .cell content => a.addCell content
  | .rowEnd => a.closeRow
  | .tableEnd => a.closeTable
  | .examples => a.openExamples
  | .examplesEnd => a.closeExamples
  | .blankLine => .taken a
  | .comment text inline => .taken (if inline then a.attach text else a.hold text)

/-- Whether closing this drops an argument that nobody claimed. -/
def dropsArguments : EventKind → Bool
  | .featureEnd | .blockEnd _ | .stepEnd | .examplesEnd => true
  | _ => false

/-- What every closing event does besides closing its part. -/
def afterwards (a : Assembly) (kind : EventKind) : Assembly :=
  let a := if dropsArguments kind then { a with closedDocString := none, closedTable := none } else a
  if kind.isCloser then { a with target := none } else a

/-- Take one event. -/
def accept (a : Assembly) (kind : EventKind) : Verdict :=
  if a.finished then .refused .complete a
  else
    match a.place kind with
    | .taken next => .taken (next.afterwards kind)
    | refused => refused

/-- The feature, once it is closed. -/
def feature? (a : Assembly) : Option Feature :=
  if a.finished then a.feature else none

end Assembly

/-- What is said about an event that an assembly refuses. -/
def Misfit.describe (reason : Misfit) (kind : EventKind) : String :=
  String.join ["unexpected ", kind.name, " event: ", reason.message]

end Gherkin
