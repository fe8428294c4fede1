import Gherkin.Text.Basic

/-!
# Printed Lines and Pages

What a layout is made of: the choices it leaves open, the roles of the pieces
of a line, lines, and pages of lines.

Each role has a colour. Colouring puts control sequences around a piece and
leaves the piece itself alone, so widths are always those of the plain text. A
terminal can be *muted*. Then the sequences that select a colour have no
parameters; those for bold, italic and reset stay as they are.

A printed line keeps its indentation, its pieces and the comment at its end
apart, because where the comment goes is not for the line alone to say: it is
told the column. Each run of neighbouring lines that have a comment shares one
comment column, so the text of a line is only known once the lines around it
are.

## Main definitions

* `Options`: The choices, with their usual values.
* `Role`: What a piece of a line is.
* `paint`: A piece of a line in the colour of its role.
* `Segment`, `Line`: A piece of a line, and a line.
* `Line.width`: The characters before the comment.
* `Line.render`: The text of a line.
* `Page`: Lines in order.
* `Page.separate`: Puts a blank line where one is wanted.
* `Page.runs`, `Page.column`: Lines that share a comment column, and where it
  is.
* `Page.render`: The text of all lines.
-/

namespace Gherkin

namespace Layout

/-- How a feature is laid out.

    `centerSteps` right-aligns step keywords in a field of fixed width,
    `color` adds terminal colours, `alignComments` puts comments at the ends of
    neighbouring lines into one column, which starts no earlier than
    `commentMinIndent`, and `skipComments` leaves every comment out. `muted`
    is for a terminal whose user wants no colours: what `color` adds is then
    bold and italic only. -/
structure Options where
  centerSteps : Bool := false
  color : Bool := false
  alignComments : Bool := true
  commentMinIndent : Nat := 45
  skipComments : Bool := false
  muted : Bool := false
  deriving DecidableEq, Repr

/-- What a piece of a printed line is. -/
inductive Role where
  | plain
  | keyword
  | stepKeyword
  | tag
  | border
  | fence
  | comment
  deriving DecidableEq, Repr

/-- A terminal control sequence. -/
def control (parameters : String) : String :=
  "\x1b[" ++ parameters ++ "m"

/-- The sequence that selects a colour, given by its parameters. -/
def colorControl (muted : Bool) (parameters : String) : String :=
  control (if muted then "" else parameters)

/-- The sequence that selects a colour of the terminal's palette. -/
def palette (muted : Bool) (index : Nat) : String :=
  colorControl muted ("38;5;" ++ toString index)

/-- The sequence that goes back to the terminal's own colour. -/
def ownColor (muted : Bool) : String :=
  colorControl muted "39"

/-- The sequences before and after a piece with the given role. A role with an
    attribute besides its colour resets everything, the others only the
    colour. -/
def Role.around (muted : Bool) : Role → String × String
  | .plain => ("", "")
  | .keyword => (palette muted 12 ++ control "1", control "0")
  | .stepKeyword => (palette muted 10 ++ control "1", control "0")
  | .tag => (palette muted 14, ownColor muted)
  | .border => (palette muted 8, ownColor muted)
  | .fence => (palette muted 11, ownColor muted)
  | .comment => (palette muted 8 ++ control "3", control "0")

/-- A piece of a line in the colour of its role. Nothing is put around an
    empty piece. -/
def paint (text : String) (role : Role) (color muted : Bool) : String :=
  if color && !text.isEmpty then (role.around muted).1 ++ text ++ (role.around muted).2 else text

/-- A piece of a line with one role. -/
structure Segment where
  text : String
  role : Role
  deriving DecidableEq, Repr

/-- The number of characters of a piece. -/
def Segment.width (segment : Segment) : Nat :=
  segment.text.length

/-- A printed line. The comment at its end is held without its sign. -/
structure Line where
  indent : Nat := 0
  segments : List Segment := []
  comment : Option String := none
  deriving DecidableEq, Repr

namespace Line

/-- A line without content. -/
def blank : Line := {}

/-- A line with a single piece. -/
def single (indent : Nat) (text : String) (role : Role) : Line :=
  { indent, segments := [⟨text, role⟩] }

/-- The number of characters of the indentation and the pieces. -/
def width (line : Line) : Nat :=
  line.indent + line.segments.foldr (fun segment rest => segment.width + rest) 0

/-- Whether the line has neither content nor comment. Indentation is no
    content. -/
def isBlank (line : Line) : Bool :=
  line.comment.isNone && line.segments.all (fun segment => segment.text.isEmpty)

/-- The number of spaces before a comment that is to start at `column`. There
    is always one. -/
def gap (line : Line) (column : Nat) (options : Options) : Nat :=
  if options.alignComments then max (column - line.width) 1 else 1

/-- The text of a line, without an ending. A blank line has no indentation. -/
def render (line : Line) (column : Nat) (options : Options) : String :=
  if line.isBlank then ""
  else
    Text.spaces line.indent ++
      String.join (line.segments.map (fun s => paint s.text s.role options.color options.muted)) ++
      match line.comment with
      | none => ""
      | some comment =>
        Text.spaces (line.gap column options) ++
          paint ("#" ++ comment) .comment options.color options.muted

end Line

/-- Lines in order. -/
structure Page where
  lines : List Line := []
  deriving DecidableEq, Repr

namespace Page

/-- Add a line. -/
def push (page : Page) (line : Line) : Page :=
  ⟨page.lines ++ [line]⟩

/-- Add lines. -/
def append (page : Page) (lines : List Line) : Page :=
  ⟨page.lines ++ lines⟩

/-- Add a blank line, unless there is no line yet or the last one is blank. -/
def separate (page : Page) : Page :=
  match page.lines.getLast? with
  | some line => if line.isBlank then page else page.push Line.blank
  | none => page

/-- Cut the lines into runs that share a comment column. -/
def runs (page : Page) : List (List Line) :=
  page.lines.splitBy (fun a b => a.comment.isSome && b.comment.isSome)

/-- The column at which the comments of a run start: one space behind its
    widest line, but not before the least column. -/
def column (run : List Line) (options : Options) : Nat :=
  max options.commentMinIndent ((run.map Line.width).foldl max 0 + 1)

/-- The text of a run, each line with its ending. -/
def renderRun (run : List Line) (options : Options) : String :=
  String.join (run.map (fun line => line.render (column run options) options ++ "\n"))

/-- The text of all lines. -/
def render (page : Page) (options : Options) : String :=
  String.join (page.runs.map (fun run => renderRun run options))

end Page

end Layout

end Gherkin
