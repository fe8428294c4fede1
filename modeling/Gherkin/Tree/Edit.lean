import Gherkin.Tree

/-!
# Editing a Tree

An edit names a node by the way to it from the feature and says what to do
there. If the way leads nowhere the tree stays as it is, and so it does when
a step is given a keyword that does not exist.

Edits are grouped by the kind of node they apply to, so that an edit that
makes no sense for a node cannot be written down. The exception is giving
examples to a block that is no outline, which fails like a missing node.

## Main definitions

* `Edit`: What to change, and where.
* `EditError`: Why an edit fails.
* `Feature.apply`: The tree after an edit.
-/

namespace Gherkin

/-- Why an edit fails. -/
inductive EditError where
  | noSuchNode
  | unknownKeyword (word : String)
  deriving DecidableEq, Repr

/-- Changes to the comments of a node. -/
inductive CommentEdit where
  | setInline (text : Option String)
  | addLeading (text : String)
  deriving DecidableEq, Repr

/-- Changes to a feature. -/
inductive FeatureEdit where
  | setTitle (title : String)
  | setDescription (description : String)
  | addTag (tag : String)
  | setTags (tags : List String)
  | setBackground (block : Option Block)
  | addScenario (scenario : Scenario)
  | removeScenario (index : Nat)
  | comments (edit : CommentEdit)
  | addTrailing (text : String)
  deriving DecidableEq, Repr

/-- Changes to a block. -/
inductive BlockEdit where
  | setTitle (title : String)
  | addTag (tag : String)
  | setTags (tags : List String)
  | addStep (step : Step)
  | removeStep (index : Nat)
  | comments (edit : CommentEdit)
  deriving DecidableEq, Repr

/-- Changes to a step. A keyword is given as a word that is to spell one. -/
inductive StepEdit where
  | setKeyword (word : String)
  | setText (text : String)
  | addTag (tag : String)
  | setTags (tags : List String)
  | setArgument (argument : Argument)
  | comments (edit : CommentEdit)
  deriving DecidableEq, Repr

/-- Changes to a doc string. -/
inductive DocStringEdit where
  | setIndent (indent : Nat)
  | addLine (text : String)
  | comments (edit : CommentEdit)
  deriving DecidableEq, Repr

/-- Changes to examples. -/
inductive ExamplesEdit where
  | setTable (table : Table)
  | addRow (row : Row)
  | comments (edit : CommentEdit)
  deriving DecidableEq, Repr

/-- The way to a block. -/
inductive BlockPath where
  | background
  | scenario (index : Nat)
  deriving DecidableEq, Repr

/-- What to change, and where. Steps are counted within their block. -/
inductive Edit where
  | feature (edit : FeatureEdit)
  | block (path : BlockPath) (edit : BlockEdit)
  | setExamples (scenario : Nat) (examples : Option Examples)
  | examples (scenario : Nat) (edit : ExamplesEdit)
  | step (path : BlockPath) (index : Nat) (edit : StepEdit)
  | docString (path : BlockPath) (index : Nat) (edit : DocStringEdit)
  | addRow (path : BlockPath) (index : Nat) (row : Row)
  deriving DecidableEq, Repr

/-- Change the member of a list at an index, which must exist. -/
def editAt {α : Type} (change : α → Except EditError α) : Nat → List α → Except EditError (List α)
  | _, [] => .error .noSuchNode
  | 0, a :: rest => do
    let changed ← change a
    .ok (changed :: rest)
  | index + 1, a :: rest => do
    let rest ← editAt change index rest
    .ok (a :: rest)

/-- Remove the member of a list at an index, which must exist. -/
def removeAt {α : Type} (index : Nat) (items : List α) : Except EditError (List α) :=
  if index < items.length then .ok (items.eraseIdx index) else .error .noSuchNode

/-- Change comments. -/
def Comments.apply (comments : Comments) : CommentEdit → Comments
  | .setInline text => { comments with inline := text }
  | .addLeading text => { comments with leading := comments.leading ++ [text] }

/-- Add a row to a table. -/
def Table.addRow (table : Table) (row : Row) : Table :=
  { table with rows := table.rows ++ [row] }

/-- Change a doc string. -/
def DocString.apply (doc : DocString) : DocStringEdit → DocString
  | .setIndent indent => { doc with indent := indent }
  | .addLine text => { doc with lines := doc.lines ++ [text] }
  | .comments edit => { doc with comments := doc.comments.apply edit }

/-- Change examples. -/
def Examples.apply (examples : Examples) : ExamplesEdit → Examples
  | .setTable table => { examples with table := table }
  | .addRow row => { examples with table := examples.table.addRow row }
  | .comments edit => { examples with comments := examples.comments.apply edit }

namespace Step

/-- Change a step. -/
def apply (step : Step) : StepEdit → Except EditError Step
  | .setKeyword word =>
    match StepKeyword.ofWord? word with
    | some keyword => .ok { step with keyword := keyword }
    | none => .error (.unknownKeyword word)
  | .setText text => .ok { step with text := text }
  | .addTag tag => .ok { step with tags := step.tags ++ [tag] }
  | .setTags tags => .ok { step with tags := tags }
  | .setArgument argument => .ok { step with argument := argument }
  | .comments edit => .ok { step with comments := step.comments.apply edit }

/-- Change the doc string of a step, which must have one. -/
def applyDocString (step : Step) (edit : DocStringEdit) : Except EditError Step :=
  match step.argument with
  | .docString doc => .ok { step with argument := .docString (doc.apply edit) }
  | _ => .error .noSuchNode

/-- Add a row to the table of a step, which must have one. -/
def addRow (step : Step) (row : Row) : Except EditError Step :=
  match step.argument with
  | .table rows => .ok { step with argument := .table (rows.addRow row) }
  | _ => .error .noSuchNode

end Step

/-- Change a block. -/
def Block.apply (block : Block) : BlockEdit → Except EditError Block
  | .setTitle title => .ok { block with title := title }
  | .addTag tag => .ok { block with tags := block.tags ++ [tag] }
  | .setTags tags => .ok { block with tags := tags }
  | .addStep step => .ok { block with steps := block.steps ++ [step] }
  | .removeStep index => do
    let steps ← removeAt index block.steps
    .ok { block with steps := steps }
  | .comments edit => .ok { block with comments := block.comments.apply edit }

/-- Change a step of a block. -/
def Block.editStep (block : Block) (index : Nat) (change : Step → Except EditError Step) :
    Except EditError Block := do
  let steps ← editAt change index block.steps
  .ok { block with steps := steps }

namespace Scenario

/-- Change the block of a scenario. -/
def editBlock (change : Block → Except EditError Block) : Scenario → Except EditError Scenario
  | .plain block => do
    let block ← change block
    .ok (.plain block)
  | .outline block examples => do
    let block ← change block
    .ok (.outline block examples)

/-- Give an outline other examples, or none. -/
def setExamples (examples : Option Examples) : Scenario → Except EditError Scenario
  | .plain _ => .error .noSuchNode
  | .outline block _ => .ok (.outline block examples)

/-- Change the examples of an outline, which must have some. -/
def editExamples (edit : ExamplesEdit) : Scenario → Except EditError Scenario
  | .outline block (some examples) => .ok (.outline block (some (examples.apply edit)))
  | _ => .error .noSuchNode

end Scenario

namespace Feature

/-- Change a feature as a whole. -/
def applyHere (feature : Feature) : FeatureEdit → Except EditError Feature
  | .setTitle title => .ok { feature with title := title }
  | .setDescription description => .ok { feature with description := description }
  | .addTag tag => .ok { feature with tags := feature.tags ++ [tag] }
  | .setTags tags => .ok { feature with tags := tags }
  | .setBackground block => .ok { feature with background := block }
  | .addScenario scenario => .ok { feature with scenarios := feature.scenarios ++ [scenario] }
  | .removeScenario index => do
    let scenarios ← removeAt index feature.scenarios
    .ok { feature with scenarios := scenarios }
  | .comments edit => .ok { feature with comments := feature.comments.apply edit }
  | .addTrailing text => .ok { feature with trailing := feature.trailing ++ [text] }

/-- Change a scenario. -/
def editScenario (feature : Feature) (index : Nat)
    (change : Scenario → Except EditError Scenario) : Except EditError Feature := do
  let scenarios ← editAt change index feature.scenarios
  .ok { feature with scenarios := scenarios }

/-- Change a block. -/
def editBlock (feature : Feature) (path : BlockPath)
    (change : Block → Except EditError Block) : Except EditError Feature :=
  match path with
  | .scenario index => feature.editScenario index (Scenario.editBlock change)
  | .background =>
    match feature.background with
    | none => .error .noSuchNode
    | some block => do
      let block ← change block
      .ok { feature with background := some block }

/-- The feature after an edit. -/
def apply (feature : Feature) : Edit → Except EditError Feature
  | .feature edit => feature.applyHere edit
  | .block path edit => feature.editBlock path (fun block => block.apply edit)
  | .setExamples index examples => feature.editScenario index (Scenario.setExamples examples)
  | .examples index edit => feature.editScenario index (Scenario.editExamples edit)
  | .step path index edit =>
    feature.editBlock path (fun block => block.editStep index (fun step => step.apply edit))
  | .docString path index edit =>
    feature.editBlock path
      (fun block => block.editStep index (fun step => step.applyDocString edit))
  | .addRow path index row =>
    feature.editBlock path (fun block => block.editStep index (fun step => step.addRow row))

end Feature

end Gherkin
