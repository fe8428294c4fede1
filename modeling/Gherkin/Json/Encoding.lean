import Gherkin.Event
import Gherkin.Json
import Gherkin.Tree

/-!
# Events and Trees as JSON

An event is an object that names the event, gives what it carries, and ends
with its span.

A node of a tree is an object too. Tags and comments appear only where a node
has them; everything else is always there, so that a missing background or
missing examples show as `null`.

## Main definitions

* `Event.toJson`: An event as a value.
* `jsonLines`: A list of events, one object a line.
* `Feature.toJson`: A feature as a value.
-/

namespace Gherkin

/-- A span as an object. -/
def Span.toJson (span : Span) : Json :=
  .obj [("start", .num span.start), ("end", .num span.stop)]

/-- What an event carries, member by member. -/
def EventKind.members : EventKind → List (String × Json)
  | .feature title description tags =>
    [("title", .str title), ("description", .str description), ("tags", Json.strings tags)]
  | .block _ title tags => [("title", .str title), ("tags", Json.strings tags)]
  | .step keyword text tags =>
    [("keyword", .str keyword.text), ("text", .str text), ("tags", Json.strings tags)]
  | .docString indent => [("indent", .num indent)]
  | .docLine text => [("line", .str text)]
  | .cell content => [("content", .str content)]
  | .comment text inline => [("text", .str text), ("inline", .bool inline)]
  | _ => []

/-- An event as an object. -/
def Event.toJson (event : Event) : Json :=
  .obj (("event", .str event.kind.name) :: event.kind.members ++ [("span", event.span.toJson)])

/-- Events as JSON, one a line. -/
def jsonLines (events : List Event) : String :=
  String.join (events.map (fun event => event.toJson.compact ++ "\n"))

/-- The comments of a node. -/
def Comments.members (comments : Comments) : List (String × Json) :=
  Json.ifPresent "comment" comments.inline ++
    Json.unlessEmpty "leading_comments" comments.leading

/-- A row as an object. -/
def Row.toJson (row : Row) : Json :=
  .obj (("cells", Json.strings row.cells) :: row.comments.members)

/-- The rows of a table. -/
def Table.members (table : Table) : List (String × Json) :=
  [("rows", .arr (table.rows.map Row.toJson))]

/-- A table as an object. -/
def Table.toJson (table : Table) : Json :=
  .obj table.members

/-- What a doc string holds. -/
def DocString.members (doc : DocString) : List (String × Json) :=
  [("indent", .num doc.indent), ("lines", Json.strings doc.lines)] ++ doc.comments.members

/-- An argument as an object that says of which type it is. -/
def Argument.toJson : Argument → Json
  | .none => .obj [("type", .str "None")]
  | .docString doc => .obj (("type", .str "DocString") :: doc.members)
  | .table rows => .obj (("type", .str "Table") :: rows.members)

/-- A step as an object. -/
def Step.toJson (step : Step) : Json :=
  .obj ([("keyword", .str step.keyword.text), ("text", .str step.text)] ++
    Json.unlessEmpty "tags" step.tags ++ [("argument", step.argument.toJson)] ++
    step.comments.members)

/-- What a block holds. -/
def Block.members (block : Block) : List (String × Json) :=
  [("title", .str block.title)] ++ Json.unlessEmpty "tags" block.tags ++
    [("steps", .arr (block.steps.map Step.toJson))] ++ block.comments.members

/-- A block as an object. -/
def Block.toJson (block : Block) : Json :=
  .obj block.members

/-- Examples as an object. -/
def Examples.toJson (examples : Examples) : Json :=
  .obj (("table", examples.table.toJson) :: examples.comments.members)

/-- A scenario as an object that says of which kind it is. -/
def Scenario.toJson : Scenario → Json
  | .plain block => .obj (("kind", .str "Plain") :: block.members)
  | .outline block examples =>
    .obj (("kind", .str "Outline") :: block.members ++
      [("examples", match examples with
        | none => .null
        | some examples => examples.toJson)])

/-- A feature as an object. -/
def Feature.toJson (feature : Feature) : Json :=
  .obj ([("title", .str feature.title), ("description", .str feature.description)] ++
    Json.unlessEmpty "tags" feature.tags ++
    [("background", match feature.background with
        | none => .null
        | some block => block.toJson),
      ("scenarios", .arr (feature.scenarios.map Scenario.toJson))] ++
    feature.comments.members ++ Json.unlessEmpty "trailing_comments" feature.trailing)

end Gherkin
