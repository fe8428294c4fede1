import Gherkin.Reader.State

/-!
# Reading a Document

The lines of a document are read one after the other from the initial state.
The events of the document are those of its lines, followed by what its end
closes; the first line that is refused refuses the document.

`State.step` is the grammar: given what came before, it says what a line
means, or why it cannot stand there. Each construct has a function of its
own that turns its line into events; `step` only decides which one applies.

Every fault a line can have is found on that line, so the first faulty line
decides, and within it the leftmost fault.

## Main definitions

* `State.step`: The meaning of a line in a state.
* `run`: The events of a list of lines from a state.
* `readEvents`: The events of a document, or why it is refused.
-/

namespace Gherkin

namespace Source.Line

open Reader (Stop Remark Cell)

/-- The line without its indentation. -/
def content (line : Line) : List Char :=
  Text.skipBlanks line.text

/-- The offset of the line's first character that is no blank. -/
def contentStart (line : Line) : Nat :=
  line.offsetOf line.content

/-- What follows a keyword on the line, without the blanks after it. -/
def afterKeyword (line : Line) (keyword : String) : List Char :=
  Text.skipBlanks (line.content.drop keyword.length)

/-- Refuse the line as a whole. -/
def refuse {α : Type} (line : Line) (cause : Cause) : Except Fault α :=
  .error ⟨line.contentStart, cause⟩

/-- Give the fault of a scan its offset. -/
def scan {α : Type} (line : Line) (result : Except Stop α) : Except Fault α :=
  result.mapError (fun stop => ⟨line.offsetOf stop.rest, stop.cause⟩)

/-- The event of a comment on the line. -/
def commentEvent (line : Line) (inline : Bool) (remark : Remark) : Event :=
  ⟨.comment (String.ofList remark.text) inline, ⟨line.offsetOf remark.place, line.stop⟩⟩

/-- The events of a comment that may stand at the end of the line. -/
def inlineEvents (line : Line) (remark : Option Remark) : List Event :=
  (remark.map (line.commentEvent true)).toList

/-- The events of a comment on a line that is not reported itself. -/
def sideEvents (line : Line) (remark : Option Remark) : List Event :=
  (remark.map (line.commentEvent false)).toList

/-- The event of a table cell on the line. -/
def cellEvent (line : Line) (cell : Cell) : Event :=
  let start := line.offsetOf cell.place
  ⟨.cell (String.ofList cell.text), ⟨start, start + Text.width cell.text⟩⟩

/-- The event of a blank line. -/
def blankEvent (line : Line) : Event :=
  ⟨.blankLine, ⟨line.start, line.stop⟩⟩

end Source.Line

namespace Reader

open Source (Line)

namespace State

/-- A part with a heading opens: trivia is released in front of it, and its
    tags are used up. -/
def opened (state : State) (line : Line) (phase : Phase) : State :=
  { state with phase := phase, trivia := [], tags := none, lastStop := line.stop }

/-- A comment on a line of its own. -/
def readComment (state : State) (line : Line) : Outcome := do
  let remark ← line.scan (scanEnd line.text)
  .ok ([], state.hold (line.sideEvents remark))

/-- A line of tags. -/
def readTags (state : State) (line : Line) : Outcome := do
  let (names, remark) ← line.scan (scanTags line.text)
  .ok ([], (state.addTags line.contentStart names).hold (line.sideEvents remark))

/-- The heading of the feature. Its event has to wait for the description. -/
def readFeature (state : State) (line : Line) : Outcome := do
  let after := line.afterKeyword Heading.feature.text
  let (title, rest) ← line.scan (scanText false after)
  if title.isEmpty then
    .error ⟨line.offsetOf after, .expectedTitle⟩
  else
    let remark ← line.scan (scanEnd rest)
    .ok ([], { state with
      phase := .opening {
        title := String.ofList title
        tags := state.tagNames
        span := ⟨state.startOf line.contentStart, line.stop⟩
        remarks := line.inlineEvents remark
        description := []
        side := []
        pending := [] }
      tags := none
      lastStop := line.stop })

/-- A line of the description. Whatever it begins with, it is text. -/
def readDescription (state : State) (line : Line) (opening : Opening) : Outcome := do
  let (text, rest) ← line.scan (scanText false line.content)
  let remark ← line.scan (scanEnd rest)
  let settled := opening.settle
  .ok ([], { state with
    phase := .opening { settled with
      description := settled.description ++ [String.ofList text]
      side := settled.side ++ line.sideEvents remark }
    lastStop := line.stop })

/-- The heading of a block. -/
def readBlock (state : State) (line : Line) (kind : BlockKind) : Outcome := do
  let after := line.afterKeyword (Heading.block kind).text
  let (title, rest) ← line.scan (scanText false after)
  let remark ← line.scan (scanEnd rest)
  let event : Event :=
    ⟨.block kind (String.ofList title) state.tagNames,
      ⟨state.startOf line.contentStart, line.stop⟩⟩
  let next := state.opened line (.block kind (.between .steps))
  .ok (state.trivia ++ event :: line.inlineEvents remark,
    { next with
      hasBackground := state.hasBackground || kind == .background
      hasScenario := state.hasScenario || kind != .background })

/-- A line between two blocks. -/
def readBody (state : State) (line : Line) (cls : LineClass) : Outcome :=
  match cls with
  | .heading (.block kind) =>
    if kind == .background && state.hasBackground then line.refuse .secondBackground
    else if kind == .background && state.hasScenario then line.refuse .lateBackground
    else state.readBlock line kind
  | .heading .feature => line.refuse .secondFeature
  | .step _ => line.refuse .strayStep
  | _ => line.refuse .expectedBlock

/-- A step. -/
def readStep (state : State) (line : Line) (kind : BlockKind) (keyword : StepKeyword) :
    Outcome := do
  let after := line.afterKeyword keyword.text
  let (text, rest) ← line.scan (scanText false after)
  if text.isEmpty then
    .error ⟨line.offsetOf after, .expectedStepText⟩
  else
    let remark ← line.scan (scanEnd rest)
    let event : Event :=
      ⟨.step keyword (String.ofList text) state.tagNames,
        ⟨state.startOf line.contentStart, line.stop⟩⟩
    .ok (state.trivia ++ event :: line.inlineEvents remark,
      state.opened line (.block kind (.argument .step)))

/-- The heading of the examples of a block. They belong to outlines alone and
    take no tags. -/
def readExamples (state : State) (line : Line) (kind : BlockKind) : Outcome :=
  if kind != .outline then line.refuse .examplesOutsideOutline
  else
    match state.tags with
    | some group => .error ⟨group.start, .taggedExamples⟩
    | none => do
      let remark ← line.scan
        (scanEnd (line.content.drop Heading.examples.text.length))
      let event : Event := ⟨.examples, ⟨line.contentStart, line.stop⟩⟩
      .ok (state.trivia ++ event :: line.inlineEvents remark,
        state.opened line (.block kind (.argument .examples)))

/-- Go on to a line that the open block cannot hold: the block is left. -/
def leaveFor (state : State) (line : Line) (kind : BlockKind) (place : Place)
    (cls : LineClass) : Outcome := do
  let (events, state) := state.leave kind place
  let (more, state) ← state.readBody line cls
  .ok (events ++ more, state)

/-- Go on within the open block: a step or the examples before it are
    closed. -/
def settleFor (state : State) (kind : BlockKind) (place : Place)
    (read : State → Outcome) : Outcome := do
  let events := place.closers.map state.closing
  let (more, state) ← read { state with phase := .block kind (.between place.stage) }
  .ok (events ++ more, state)

/-- A line before the examples of a block that continues no argument. -/
def readInSteps (state : State) (line : Line) (kind : BlockKind) (place : Place)
    (cls : LineClass) : Outcome :=
  match cls with
  | .step keyword => state.settleFor kind place (fun s => s.readStep line kind keyword)
  | .heading .examples => state.settleFor kind place (fun s => s.readExamples line kind)
  | .heading (.block _) => state.leaveFor line kind place cls
  | .heading .feature => line.refuse .secondFeature
  | .row => line.refuse .strayTable
  | .fence => line.refuse .strayDocString
  | _ => line.refuse .expectedStep

/-- A line behind the examples of a block that does not belong to them. -/
def readAfterExamples (state : State) (line : Line) (kind : BlockKind) (place : Place)
    (cls : LineClass) : Outcome :=
  match cls with
  | .step _ => line.refuse .stepAfterExamples
  | .heading .examples => line.refuse .secondExamples
  | _ => state.leaveFor line kind place cls

/-- A line in a block that continues no argument. -/
def readInBlock (state : State) (line : Line) (kind : BlockKind) (place : Place)
    (cls : LineClass) : Outcome :=
  match place.stage with
  | .steps => state.readInSteps line kind place cls
  | .closed => state.readAfterExamples line kind place cls

/-- A table row. `columns` is the number of cells of the rows before it. -/
def readRow (state : State) (line : Line) (kind : BlockKind) (owner : Owner)
    (columns : Option Nat) : Outcome := do
  let (cells, remark) ← line.scan (scanRow line.text)
  let span : Span := ⟨line.contentStart, line.stop⟩
  let row := ⟨.row, span⟩ :: cells.map line.cellEvent ++ line.inlineEvents remark ++
    [⟨.rowEnd, Span.point line.stop⟩]
  let next := { state with
    phase := .block kind (.table owner cells.length), trivia := [], lastStop := line.stop }
  match columns with
  | none => .ok (state.trivia ++ ⟨.table, span⟩ :: row, next)
  | some expected =>
    if cells.length = expected then .ok (state.trivia ++ row, next)
    else line.refuse (.unevenRow cells.length expected)

/-- The fence that opens a doc string. Nothing may follow it. -/
def readFence (state : State) (line : Line) (kind : BlockKind) : Outcome :=
  match Text.skipBlanks (line.content.drop fence.length) with
  | [] =>
    let indent := Text.indentation line.text
    .ok (state.trivia ++ [⟨.docString indent, ⟨line.contentStart, line.stop⟩⟩],
      { state with
        phase := .block kind (.docString indent), trivia := [], lastStop := line.stop })
  | rest => .error ⟨line.offsetOf rest, .textAfterFence⟩

/-- A line of a doc string: its closing fence, or text that means nothing. -/
def readDocLine (state : State) (line : Line) (kind : BlockKind) (indent : Nat) : Outcome :=
  match classify line.text with
  | .fence => do
    let remark ← line.scan (scanEnd (line.content.drop fence.length))
    let next := { state with lastStop := line.stop }
    .ok (line.inlineEvents remark ++ [next.closing .docStringEnd, next.closing .stepEnd],
      { next with phase := .block kind (.between .steps) })
  | _ =>
    let body := Text.stripIndent indent line.text
    .ok ([⟨.docLine (String.ofList body), ⟨line.offsetOf body, line.stop⟩⟩],
      { state with lastStop := line.stop })

/-- A line that neither a doc string nor the description claims. -/
def readLine (state : State) (line : Line) : Outcome :=
  match classify line.text with
  | .blank => .ok ([], state.hold [line.blankEvent])
  | .comment => state.readComment line
  | cls =>
    match state.phase with
    | .block kind place =>
      match cls, place with
      | .tags, _ => state.settleFor kind place (fun s => s.readTags line)
      | .row, .argument owner => state.readRow line kind owner none
      | .row, .table owner columns => state.readRow line kind owner (some columns)
      | .fence, .argument .step => state.readFence line kind
      | _, _ => state.readInBlock line kind place cls
    | .body =>
      match cls with
      | .tags => state.readTags line
      | _ => state.readBody line cls
    | _ =>
      match cls with
      | .tags => state.readTags line
      | .heading .feature => state.readFeature line
      | _ => line.refuse .expectedFeature

/-- A line while the description is being read. Tags and the headings of
    blocks end the description. -/
def readOpening (state : State) (line : Line) (opening : Opening) : Outcome :=
  match classify line.text with
  | .tags | .heading (.block _) => do
    let (events, state) := state.announce opening
    let (more, state) ← state.readLine line
    .ok (events ++ more, state)
  | .blank =>
    .ok ([], { state with
      phase := .opening { opening with pending := opening.pending ++ [line.blankEvent] } })
  | .comment => do
    let remark ← line.scan (scanEnd line.text)
    .ok ([], { state with
      phase := .opening { opening with
        pending := opening.pending ++ line.sideEvents remark } })
  | _ => state.readDescription line opening

/-- The meaning of a line in a state. -/
def step (state : State) (line : Line) : Outcome :=
  match state.phase with
  | .opening opening => state.readOpening line opening
  | .block kind (.docString indent) => state.readDocLine line kind indent
  | _ => state.readLine line

end State

/-- The events of the remaining lines of a document that ends at offset
    `stop`. -/
def run (stop : Nat) : State → List Source.Line → Except Fault (List Event)
  | state, [] => state.finish stop
  | state, line :: rest => do
    let (events, state) ← state.step line
    let more ← run stop state rest
    .ok (events ++ more)

/-- The events of a document or its first fault. -/
def read (source : String) : Except Fault (List Event) :=
  run (Source.size source) {} (Source.lines source)

end Reader

/-- The events of a document, or why it is refused. -/
def readEvents (source : String) : Except Refusal (List Event) :=
  (Reader.read source).mapError (Refusal.ofFault source)

end Gherkin
