import Gherkin.Tree

/-!
# Trees Up to Layout

Two things in a tree say nothing about what a feature does. One is how far its
doc strings were indented, the one thing that a tree keeps of the layout of
its document: `Feature.reindented` gives all doc strings of a feature the same
indentation and leaves everything else alone. The other is comments: two trees
that differ in nothing else describe the same feature, and
`Feature.uncommented` picks one tree for all of them, the one with no comments
at all.

## Main definitions

* `Feature.reindented`: A feature whose doc strings all have the given
  indentation.
* `Feature.uncommented`: A feature without its comments.
-/

namespace Gherkin

/-- An argument whose doc string has the given indentation. -/
def Argument.reindented (indent : Nat) : Argument → Argument
  | .none => .none
  | .docString doc => .docString { doc with indent }
  | .table grid => .table grid

/-- A step whose doc string has the given indentation. -/
def Step.reindented (indent : Nat) (step : Step) : Step :=
  { step with argument := step.argument.reindented indent }

/-- A block whose doc strings have the given indentation. -/
def Block.reindented (indent : Nat) (block : Block) : Block :=
  { block with steps := block.steps.map (Step.reindented indent) }

/-- A scenario whose doc strings have the given indentation. -/
def Scenario.reindented (indent : Nat) : Scenario → Scenario
  | .plain block => .plain (block.reindented indent)
  | .outline block examples => .outline (block.reindented indent) examples

/-- A feature whose doc strings all have the given indentation. -/
def Feature.reindented (indent : Nat) (feature : Feature) : Feature :=
  { feature with
    background := feature.background.map (Block.reindented indent)
    scenarios := feature.scenarios.map (Scenario.reindented indent) }

/-- A row without its comments. -/
def Row.uncommented (row : Row) : Row :=
  { row with comments := {} }

/-- A table without the comments of its rows. -/
def Table.uncommented (table : Table) : Table :=
  ⟨table.rows.map Row.uncommented⟩

/-- A doc string without its comments. -/
def DocString.uncommented (doc : DocString) : DocString :=
  { doc with comments := {} }

/-- An argument without its comments. -/
def Argument.uncommented : Argument → Argument
  | .none => .none
  | .docString doc => .docString doc.uncommented
  | .table grid => .table grid.uncommented

/-- A step without its comments and those of its argument. -/
def Step.uncommented (step : Step) : Step :=
  { step with argument := step.argument.uncommented, comments := {} }

/-- A block without its comments and those of its steps. -/
def Block.uncommented (block : Block) : Block :=
  { block with steps := block.steps.map Step.uncommented, comments := {} }

/-- Examples without their comments. -/
def Examples.uncommented (examples : Examples) : Examples where
  table := examples.table.uncommented

/-- A scenario without comments. -/
def Scenario.uncommented : Scenario → Scenario
  | .plain block => .plain block.uncommented
  | .outline block examples => .outline block.uncommented (examples.map Examples.uncommented)

/-- A feature without its comments and those of its parts. -/
def Feature.uncommented (feature : Feature) : Feature :=
  { feature with
    background := feature.background.map Block.uncommented
    scenarios := feature.scenarios.map Scenario.uncommented
    comments := {}
    trailing := [] }

end Gherkin
