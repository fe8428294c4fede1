import Gherkin.Keyword
import Gherkin.Source.Position
import Gherkin.Text.Classes

/-!
# Events

Reading a document yields a flat list of events. Most come in pairs that open
and close a part of the document, so the list is a tree written out in order;
a few stand alone. Each event has a span in the document.

Blank lines and comments are events too. A comment is *inline* when it stands
at the end of a line that says something else.

## Main definitions

* `EventKind`: What happened.
* `Event`: What happened, and where.
* `EventKind.closer?`: The event that closes what this one opens.
* `EventKind.describe`, `Event.describe`: The one-line wording for people.
* `listing`: A list of events, one per line, indented by depth.
-/

namespace Gherkin

/-- What is seen in a document, in the order in which it is seen. Tags and
    comments are held without the sign that introduces them. -/
inductive EventKind where
  | feature (title : String) (description : String) (tags : List String)
  | featureEnd
  | block (kind : BlockKind) (title : String) (tags : List String)
  | blockEnd (kind : BlockKind)
  | step (keyword : StepKeyword) (text : String) (tags : List String)
  | stepEnd
  | docString (indent : Nat)
  | docLine (text : String)
  | docStringEnd
  | table
  | row
  | cell (content : String)
  | rowEnd
  | tableEnd
  | examples
  | examplesEnd
  | blankLine
  | comment (text : String) (inline : Bool)
  deriving DecidableEq, Repr

/-- An event with the bytes of the document that it comes from. -/
structure Event where
  kind : EventKind
  span : Span
  deriving DecidableEq, Repr

/-- How an event changes the depth. -/
inductive Nesting where
  | opens
  | closes
  | leaf
  deriving DecidableEq, Repr

namespace BlockKind

/-- The name of the event that opens a block. -/
def eventName : BlockKind → String
  | .background => "Background"
  | .scenario => "Scenario"
  | .outline => "Outline"

end BlockKind

/-- Tags as they are written on one line. -/
def tagLine (tags : List String) : String :=
  " ".intercalate (tags.map ("@" ++ ·))

namespace EventKind

/-- The name of the event. -/
def name : EventKind → String
  | .feature .. => "Feature"
  | .featureEnd => "FeatureEnd"
  | .block kind .. => kind.eventName
  | .blockEnd kind => kind.eventName ++ "End"
  | .step .. => "Step"
  | .stepEnd => "StepEnd"
  | .docString _ => "DocString"
  | .docLine _ => "DocStringLine"
  | .docStringEnd => "DocStringEnd"
  | .table => "Table"
  | .row => "TableRow"
  | .cell _ => "TableCell"
  | .rowEnd => "TableRowEnd"
  | .tableEnd => "TableEnd"
  | .examples => "OutlineExamples"
  | .examplesEnd => "OutlineExamplesEnd"
  | .blankLine => "BlankLine"
  | .comment .. => "Comment"

/-- The event that closes what this event opens; `none` when it opens
    nothing. -/
def closer? : EventKind → Option EventKind
  | .feature .. => some .featureEnd
  | .block kind .. => some (.blockEnd kind)
  | .step .. => some .stepEnd
  | .docString _ => some .docStringEnd
  | .table => some .tableEnd
  | .row => some .rowEnd
  | .examples => some .examplesEnd
  | _ => none

/-- Whether the event closes something. -/
def isCloser : EventKind → Bool
  | .featureEnd | .blockEnd _ | .stepEnd | .docStringEnd | .tableEnd | .rowEnd
  | .examplesEnd => true
  | _ => false

/-- How the event changes the depth. -/
def nesting (kind : EventKind) : Nesting :=
  if kind.closer?.isSome then .opens
  else if kind.isCloser then .closes
  else .leaf

/-- Tags as they follow a title in the wording of an event. -/
def describeTags (tags : List String) : String :=
  String.join (tags.map (" @" ++ ·))

/-- What the event carries, as it follows the event's name. -/
def details : EventKind → String
  | .feature title description tags =>
    " " ++ Text.quote title ++ describeTags tags ++
      (if description.isEmpty then "" else " description=" ++ Text.quote description)
  | .block _ title tags => " " ++ Text.quote title ++ describeTags tags
  | .step keyword text tags =>
    " " ++ keyword.text ++ " " ++ Text.quote text ++ describeTags tags
  | .docString indent => " indent=" ++ toString indent
  | .docLine text => " " ++ Text.quote text
  | .cell content => " " ++ Text.quote content
  | .comment text inline => " " ++ Text.quote text ++ (if inline then " inline" else "")
  | _ => ""

/-- The wording of an event kind. -/
def describe (kind : EventKind) : String :=
  kind.name ++ kind.details

end EventKind

/-- The wording of an event: its kind and its span. -/
def Event.describe (event : Event) : String :=
  event.kind.describe ++ " @" ++ toString event.span.start ++ ".." ++ toString event.span.stop

namespace Event

/-- The depth at which an event stands when `depth` parts are open before it.
    A closing event stands at the depth of the event that it closes. -/
def depthAt (depth : Nat) (event : Event) : Nat :=
  match event.kind.nesting with
  | .closes => depth - 1
  | _ => depth

/-- The depth after an event. -/
def depthAfter (depth : Nat) (event : Event) : Nat :=
  match event.kind.nesting with
  | .opens => depth + 1
  | .closes => depth - 1
  | .leaf => depth

/-- The lines of a listing that starts at the given depth. -/
def listingFrom (depth : Nat) : List Event → List String
  | [] => []
  | event :: rest =>
    (Text.spaces (2 * event.depthAt depth) ++ event.describe ++ "\n") ::
      listingFrom (event.depthAfter depth) rest

end Event

/-- Events for people to read: one a line, indented two spaces per open
    part. -/
def listing (events : List Event) : String :=
  String.join (Event.listingFrom 0 events)

end Gherkin
