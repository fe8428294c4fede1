import Gherkin.Source.Line

/-!
# Spans and Positions

A `Span` is a range of byte offsets and is what events carry. A `Position` is
what a person is told: a line and a column, both counted from one, the column
in characters.

## Main definitions

* `Span`: A half-open range of byte offsets.
* `Span.slice?`: The text that a span covers.
* `Position`: A line and a column.
* `locate`: The position of a byte offset.
-/

namespace Gherkin

/-- The bytes from `start` up to but not including `stop`. -/
structure Span where
  start : Nat
  stop : Nat
  deriving DecidableEq, Repr

namespace Span

/-- The empty span at an offset. -/
def point (offset : Nat) : Span :=
  ⟨offset, offset⟩

/-- The number of bytes covered; a reversed span covers none. -/
def length (span : Span) : Nat :=
  span.stop - span.start

/-- Whether the span covers no byte. -/
def isEmpty (span : Span) : Bool :=
  span.length == 0

/-- The text that the span covers. There is none when the span is reversed,
    reaches past the end, or has an end inside a character. -/
def slice? (span : Span) (source : String) : Option String :=
  if span.start ≤ span.stop then
    ((Text.dropBytes? span.start source.toList).bind
      (Text.takeBytes? span.length)).map String.ofList
  else none

end Span

/-- A line and a column, counted from one; columns count characters. -/
structure Position where
  line : Nat
  column : Nat
  deriving DecidableEq, Repr

/-- The wording of a position in messages. -/
def Position.describe (position : Position) : String :=
  String.join ["line ", toString position.line, ", column ", toString position.column]

namespace Source

/-- The column of an offset in a line. An offset inside the ending counts as
    the end of the text, and one inside a character as the first column. -/
def Line.columnOf (line : Line) (offset : Nat) : Nat :=
  match Text.takeBytes? (min offset line.stop - line.start) line.text with
  | some before => before.length + 1
  | none => 1

/-- Find the line that holds `offset`, counting lines from `number`. When no
    line does, the offset follows the last ending and is the first column of
    the line after it. -/
def locateIn (offset : Nat) (number : Nat) : List Line → Position
  | [] => ⟨number, 1⟩
  | line :: rest =>
    if offset < line.next || line.ending == .none then ⟨number, line.columnOf offset⟩
    else locateIn offset (number + 1) rest

end Source

/-- The position of a byte offset. Offsets past the end stand for the end. -/
def locate (source : String) (offset : Nat) : Position :=
  Source.locateIn (min offset (Source.size source)) 1 (Source.lines source)

end Gherkin
