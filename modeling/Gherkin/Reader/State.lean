import Gherkin.Event
import Gherkin.Reader.Scan

/-!
# The State Between Two Lines

The reader looks at one line at a time. What it must remember between lines
is little: which part of the document it is in, and the things it has seen
but cannot place yet.

Two kinds of things wait to be placed. *Trivia*, that is blank lines and
comments on lines of their own, wait for the next part that opens and are
reported in front of it. *Tags* wait for the next heading or step, which they
belong to and whose span they extend.

A part is not closed by its last line but by the first line that cannot
belong to it, so the events that close it point back at the end of the last
line that said something: neither trivia nor tags move that end.

## Main definitions

* `Place`: Where in a block the reader is.
* `Phase`: Where in the document the reader is.
* `State`: The phase and what waits to be placed.
* `Place.closers`: The events that close what is open at a place.
* `State.finish`: What the end of the document does.
-/

namespace Gherkin

namespace Reader

/-- Before or after the examples of a block. Only an outline can get past
    them, and then takes no further step. -/
inductive Stage where
  | steps
  | closed
  deriving DecidableEq, Repr

/-- What a table belongs to. -/
inductive Owner where
  | step
  | examples
  deriving DecidableEq, Repr

namespace Owner

/-- The event that closes the owner. -/
def closer : Owner → EventKind
  | .step => .stepEnd
  | .examples => .examplesEnd

/-- The stage of the block once the owner is closed. -/
def stage : Owner → Stage
  | .step => .steps
  | .examples => .closed

end Owner

/-- Where in a block the reader is: between steps, behind a step or an
    examples heading that may still take an argument, in a table with a known
    number of columns, or in a doc string whose fence had this indentation. -/
inductive Place where
  | between (stage : Stage)
  | argument (owner : Owner)
  | table (owner : Owner) (columns : Nat)
  | docString (indent : Nat)
  deriving DecidableEq, Repr

namespace Place

/-- The events that close what is open at a place, down to the block. -/
def closers : Place → List EventKind
  | .between _ => []
  | .argument owner => [owner.closer]
  | .table owner _ => [.tableEnd, owner.closer]
  | .docString _ => [.docStringEnd, .stepEnd]

/-- The stage of the block once these are closed. -/
def stage : Place → Stage
  | .between stage => stage
  | .argument owner => owner.stage
  | .table owner _ => owner.stage
  | .docString _ => .steps

end Place

/-- The heading of the feature while its description is still being read,
    and the description so far.

    `side` are the comments and the blank lines outside the description, in
    order; `pending` is the trivia since the last line of text, of which the
    blank lines belong to the description only if more text follows. -/
structure Opening where
  title : String
  tags : List String
  span : Span
  remarks : List Event
  description : List String
  side : List Event
  pending : List Event
  deriving DecidableEq, Repr

/-- Where in the document the reader is. -/
inductive Phase where
  | preamble
  | opening (opening : Opening)
  | body
  | block (kind : BlockKind) (place : Place)
  deriving DecidableEq, Repr

/-- Tags that wait for the line they belong to, and the offset of the first
    of them. -/
structure TagGroup where
  start : Nat
  names : List String
  deriving DecidableEq, Repr

/-- What the reader remembers between two lines. -/
structure State where
  phase : Phase := .preamble
  trivia : List Event := []
  tags : Option TagGroup := none
  lastStop : Nat := 0
  hasBackground : Bool := false
  hasScenario : Bool := false
  deriving DecidableEq, Repr

/-- The outcome of a line: the events it completes and the next state. -/
abbrev Outcome := Except Fault (List Event × State)

namespace Opening

/-- The opening once its pending trivia is known to be followed by text. -/
def settle (opening : Opening) : Opening :=
  if opening.description.isEmpty then
    { opening with side := opening.side ++ opening.pending, pending := [] }
  else
    let (blanks, comments) := opening.pending.partition (fun event => event.kind == .blankLine)
    { opening with
      description := opening.description ++ blanks.map (fun _ => "")
      side := opening.side ++ comments
      pending := [] }

/-- The event that announces the feature. -/
def event (opening : Opening) : Event :=
  ⟨.feature opening.title ("\n".intercalate opening.description) opening.tags, opening.span⟩

end Opening

namespace State

/-- Hold trivia back until a part opens. -/
def hold (state : State) (events : List Event) : State :=
  { state with trivia := state.trivia ++ events }

/-- Add the tags of a line to those that wait. The offset is that of the
    line's first tag. -/
def addTags (state : State) (offset : Nat) (names : List String) : State :=
  { state with
    tags := some (match state.tags with
      | none => ⟨offset, names⟩
      | some group => { group with names := group.names ++ names }) }

/-- The tags that wait. -/
def tagNames (state : State) : List String :=
  match state.tags with
  | none => []
  | some group => group.names

/-- Where a part with a heading at `offset` starts: at its tags, if it has
    any. -/
def startOf (state : State) (offset : Nat) : Nat :=
  match state.tags with
  | none => offset
  | some group => group.start

/-- An event that closes something, placed at the end of the last line that
    said something. -/
def closing (state : State) (kind : EventKind) : Event :=
  ⟨kind, Span.point state.lastStop⟩

/-- Open the feature: everything held so far stands in front of it, and the
    trivia around its description follows it. -/
def announce (state : State) (opening : Opening) : List Event × State :=
  (state.trivia ++ opening.event :: opening.remarks,
    { state with phase := .body, trivia := opening.side ++ opening.pending })

/-- Leave a block: close what is open in it, and the block itself. -/
def leave (state : State) (kind : BlockKind) (place : Place) : List Event × State :=
  ((place.closers ++ [EventKind.blockEnd kind]).map state.closing, { state with phase := .body })

/-- The end of the document between two blocks. -/
def finishBody (state : State) (stop : Nat) : Except Fault (List Event) :=
  match state.tags with
  | some _ => .error ⟨stop, .expectedBlockAfterTags⟩
  | none => .ok (state.trivia ++ [state.closing .featureEnd])

/-- The end of the document at offset `stop`: everything open is closed, but
    tags need something to belong to and a doc string needs its fence. -/
def finish (state : State) (stop : Nat) : Except Fault (List Event) :=
  match state.phase with
  | .preamble =>
    match state.tags with
    | some _ => .error ⟨stop, .expectedFeatureAfterTags⟩
    | none => .ok state.trivia
  | .opening opening => do
    let (events, state) := state.announce opening
    let more ← state.finishBody stop
    .ok (events ++ more)
  | .body => state.finishBody stop
  | .block _ (.docString _) => .error ⟨stop, .unterminatedDocString⟩
  | .block kind place => do
    let (events, state) := state.leave kind place
    let more ← state.finishBody stop
    .ok (events ++ more)

end State

end Reader

end Gherkin
