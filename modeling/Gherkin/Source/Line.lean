import Gherkin.Text.Basic

/-!
# Lines of a Document

A document is read line by line. A line ends at a line feed, a carriage
return, or the two together, and an ending that closes the document opens no
further line: the empty document has no line at all.

Splitting recurses on the characters. The one case that needs care is an
ordinary character: it joins the line that the rest of the document begins
with, or starts a line of its own when nothing follows.

## Main definitions

* `Ending`: How a line ends.
* `Line`: A line's offset, text and ending.
* `Line.split`: The lines of a text that starts at a given offset.
* `size`, `lines`: The number of bytes and the lines of a document.
-/

namespace Gherkin

namespace Source

/-- How a line ends. Only the last line of a document can end in `none`. -/
inductive Ending where
  | none
  | lineFeed
  | carriageReturn
  | both
  deriving DecidableEq, Repr

/-- The number of bytes of an ending. -/
def Ending.width : Ending → Nat
  | .none => 0
  | .lineFeed => 1
  | .carriageReturn => 1
  | .both => 2

/-- A line of a document: the byte offset of its first character, its text
    without the ending, and the ending. -/
structure Line where
  start : Nat
  text : List Char
  ending : Ending
  deriving DecidableEq, Repr

namespace Line

/-- The offset just past the line's text. -/
def stop (line : Line) : Nat :=
  line.start + Text.width line.text

/-- The offset just past the line's ending, where the next line starts. -/
def next (line : Line) : Nat :=
  line.stop + line.ending.width

/-- The offset at which the suffix `rest` of the line's text begins. Places
    in a line are named throughout by what remains of it. -/
def offsetOf (line : Line) (rest : List Char) : Nat :=
  line.stop - Text.width rest

/-- Put the character `c`, which is found at offset `start`, in front of the
    first of the lines that follow it. -/
def extend (start : Nat) (c : Char) : List Line → List Line
  | [] => [⟨start, [c], .none⟩]
  | line :: rest => { line with start := start, text := c :: line.text } :: rest

/-- The lines of a text whose first character has offset `start`. -/
def split (start : Nat) : List Char → List Line
  | [] => []
  | '\n' :: rest => ⟨start, [], .lineFeed⟩ :: split (start + 1) rest
  | '\r' :: '\n' :: rest => ⟨start, [], .both⟩ :: split (start + 2) rest
  | '\r' :: rest => ⟨start, [], .carriageReturn⟩ :: split (start + 1) rest
  | c :: rest => extend start c (split (start + c.utf8Size) rest)

end Line

/-- The number of bytes of a document. -/
def size (source : String) : Nat :=
  Text.width source.toList

/-- The lines of a document. -/
def lines (source : String) : List Line :=
  Line.split 0 source.toList

end Source

end Gherkin
