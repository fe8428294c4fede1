import Gherkin.Keyword
import Gherkin.Refusal
import Gherkin.Text.Basic

/-!
# Scanning Within a Line

What a line is, judged by how it begins after its indentation, and what a
single line can hold besides its keyword: text with quotes and escapes, a
comment, tags, table cells.

The class of a line never depends on the lines before it; what a class means
at a given point of a document is the business of the reader.

Scanners work on the characters that are left of the line and give back those
that are left after them. A place in a line is named by what remains there,
so a scanner that fails says what was left when it did, and offsets are only
computed when an event or a fault is made from a place.

Text ends at a comment sign, but not at one inside double quotes or behind a
backslash, and the blanks at its end do not belong to it unless they are
quoted or escaped. `scanText` decides the latter as it returns from the end
of the line: a blank is dropped exactly when nothing was kept after it.

## Main definitions

* `LineClass`, `classify`: The classes of lines, and the class of a line.
* `Stop`: A cause and what remained of the line.
* `scanText`: Text up to a comment or the end of the line.
* `scanEnd`: Nothing but an optional comment.
* `scanTags`: Tags, then an optional comment.
* `scanRow`: A bar, table cells, then an optional comment.
-/

namespace Gherkin

namespace Reader

/-- What a line begins with. -/
inductive LineClass where
  | blank
  | comment
  | tags
  | fence
  | row
  | heading (heading : Heading)
  | step (keyword : StepKeyword)
  | text
  deriving DecidableEq, Repr

/-- The sign that opens and closes a doc string. -/
def fence : List Char := ['"', '"', '"']

/-- The class of a line that has no indentation. -/
def classifyContent (content : List Char) : LineClass :=
  match content with
  | [] => .blank
  | '#' :: _ => .comment
  | '@' :: _ => .tags
  | '|' :: _ => .row
  | _ =>
    if fence.isPrefixOf content then .fence
    else
      match Heading.recognise? content with
      | some heading => .heading heading
      | none =>
        match StepKeyword.recognise? content with
        | some keyword => .step keyword
        | none => .text

/-- The class of a line. -/
def classify (text : List Char) : LineClass :=
  classifyContent (Text.skipBlanks text)

/-- A fault within a line: its cause and what remained of the line. -/
structure Stop where
  cause : Cause
  rest : List Char
  deriving DecidableEq, Repr

/-- Text up to an unquoted comment sign or the end of the line, and what
    remains there. The flag says whether the scan starts inside quotes. The
    text keeps its quotes and backslashes. -/
def scanText : Bool → List Char → Except Stop (List Char × List Char)
  | false, [] => .ok ([], [])
  | true, [] => .error ⟨.unterminatedQuote, []⟩
  | _, ['\\'] => .error ⟨.danglingEscape, ['\\']⟩
  | quoted, '\\' :: c :: rest => do
    let (text, rest) ← scanText quoted rest
    .ok ('\\' :: c :: text, rest)
  | quoted, '"' :: rest => do
    let (text, rest) ← scanText (!quoted) rest
    .ok ('"' :: text, rest)
  | false, '#' :: rest => .ok ([], '#' :: rest)
  | quoted, c :: rest => do
    let (text, rest) ← scanText quoted rest
    .ok (if !quoted && text.isEmpty && Text.isBlank c then [] else c :: text, rest)

/-- A comment: its text, without the sign and without white space at the end,
    and what remained of the line where its sign stands. -/
structure Remark where
  text : List Char
  place : List Char
  deriving DecidableEq, Repr

/-- Blanks and an optional comment up to the end of the line. -/
def scanEnd (cs : List Char) : Except Stop (Option Remark) :=
  match Text.skipBlanks cs with
  | [] => .ok none
  | '#' :: rest => .ok (some ⟨Text.dropTrailing Text.isSpace rest, '#' :: rest⟩)
  | rest => .error ⟨.expectedLineEnd, rest⟩

/-- Whether a tag name can go on with `c`. -/
def isTagChar (c : Char) : Bool :=
  !(c == '#' || c == '"' || Text.isBlank c)

/-- Tags separated by blanks, then an optional comment. The flag says whether
    the scan starts inside a name, whose remaining characters come first in
    the result. A name ends at a blank, a comment sign or a quote, and a quote
    can follow nothing; a tag sign inside a name belongs to it. -/
def scanTagsFrom : Bool → List Char → Except Stop (List Char × List String × Option Remark)
  | _, [] => .ok ([], [], none)
  | inName, c :: rest =>
    if Text.isBlank c then do
      let (_, tags, remark) ← scanTagsFrom false rest
      .ok ([], tags, remark)
    else if c == '#' then do
      let remark ← scanEnd (c :: rest)
      .ok ([], [], remark)
    else if inName && isTagChar c then do
      let (name, tags, remark) ← scanTagsFrom true rest
      .ok (c :: name, tags, remark)
    else if !inName && c == '@' then
      if rest.head?.any isTagChar then do
        let (name, tags, remark) ← scanTagsFrom true rest
        .ok ([], String.ofList name :: tags, remark)
      else .error ⟨.expectedTagName, rest⟩
    else .error ⟨.expectedTag, c :: rest⟩

/-- The tags of a line and an optional comment after them. -/
def scanTags (cs : List Char) : Except Stop (List String × Option Remark) := do
  let (_, tags, remark) ← scanTagsFrom false cs
  .ok (tags, remark)

/-- A table cell: its text without surrounding blanks, and what remained of
    the line where that text starts. -/
structure Cell where
  text : List Char
  place : List Char
  deriving DecidableEq, Repr

/-- The cell between two bars. `inside` is what stands between them and
    `after` what follows from the closing bar on. A cell of blanks only is
    placed at the closing bar. -/
def Cell.between (inside after : List Char) : Cell :=
  let content := Text.skipBlanks inside
  ⟨Text.dropTrailing Text.isBlank content, content ++ after⟩

/-- The cells of a row, one for each bar that `cs` holds, and what follows the
    last bar. Every bar closes a cell: nothing in a row is quoted. -/
def scanCells : List Char → List Char → List Cell × List Char
  | seen, [] => ([], seen.reverse)
  | seen, '|' :: rest =>
    let (cells, tail) := scanCells [] rest
    (Cell.between seen.reverse ('|' :: rest) :: cells, tail)
  | seen, c :: rest => scanCells (c :: seen) rest

/-- The cells that follow the bar that opens a row, and an optional
    comment. -/
def scanRowBody (cs : List Char) : Except Stop (List Cell × Option Remark) :=
  let (cells, tail) := scanCells [] cs
  let rest := Text.skipBlanks tail
  if cells.isEmpty then .error ⟨.expectedCell, rest⟩
  else
    match rest with
    | [] => .ok (cells, none)
    | '#' :: _ => do
      let remark ← scanEnd rest
      .ok (cells, remark)
    | _ => .error ⟨.expectedCellClose, rest⟩

/-- A table row: the bar that opens it, its cells and an optional comment. -/
def scanRow (cs : List Char) : Except Stop (List Cell × Option Remark) :=
  match Text.skipBlanks cs with
  | '|' :: rest => scanRowBody rest
  | rest => .error ⟨.expectedRow, rest⟩

end Reader

end Gherkin
