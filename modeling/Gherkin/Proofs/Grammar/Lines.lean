import Gherkin.Reader.Scan
import Gherkin.Proofs.Grammar.Letters

/-!
# The Grammar of Documents

Which documents are accepted, said twice over with the operations on
languages: what can stand on a line, as a language of characters, and which
lines can follow one another, as a language of lines. Nothing here runs; the
reader is held against this grammar elsewhere.

A line is *trivia* when it is blank or holds a comment only. Trivia can stand
between any two lines, except that in a doc string it is text. Tags can stand
where a heading or a step is still to come, but not before examples.

## Main definitions

* `LineGrammar.scannable`, `LineGrammar.phrase`, `LineGrammar.ending`: Text,
  text that is not empty, and the end of a line.
* `LineGrammar.tagLine`, `LineGrammar.row` and so on: The kinds of lines.
* `LineGrammar.document`: The documents that are accepted.
-/

namespace Gherkin

namespace LineGrammar

open scoped Computability

section Characters

/-- One given character. -/
def char (c : Char) : Language Char :=
  letter (· = c)

/-- The characters of a word. -/
def word (text : List Char) : Language Char :=
  {text}

/-- A space or a tab. -/
def blank : Language Char :=
  letter (fun c => Text.isBlank c = true)

/-- A comment up to the end of the line. -/
def remark : Language Char :=
  char '#' * ⊤

/-- The end of a line: blanks, and perhaps a comment. -/
def ending : Language Char :=
  blank∗ * (1 + remark)

/-- A backslash and the character that it protects. -/
def escape : Language Char :=
  char '\\' * letter (fun _ => True)

/-- Characters between two double quotes. -/
def quoted : Language Char :=
  char '"' * (letter (fun c => c ≠ '"' ∧ c ≠ '\\') + escape)∗ * char '"'

/-- A character that stands for itself. -/
def IsPlain (c : Char) : Prop :=
  c ≠ '\\' ∧ c ≠ '"' ∧ c ≠ '#'

/-- Text up to a comment or the end of the line. Up to there, every backslash
    protects a character and every quote is closed. -/
def scannable : Language Char :=
  (letter IsPlain + escape + quoted)∗ * (1 + remark)

/-- Text that begins with something else than a blank. -/
def phrase : Language Char :=
  (letter (fun c => IsPlain c ∧ Text.isBlank c = false) + escape + quoted) * scannable

/-- A character of a tag's name. -/
def IsNameChar (c : Char) : Prop :=
  c ≠ '#' ∧ c ≠ '"' ∧ Text.isBlank c = false

/-- A tag: its sign and a name that is not empty. -/
def tag : Language Char :=
  char '@' * (letter IsNameChar * (letter IsNameChar)∗)

/-- A cell with the bar that closes it. -/
def cell : Language Char :=
  (letter (· ≠ '|'))∗ * char '|'

/-- What can follow the last cell of a row: a comment there holds no bar. -/
def rowEnding : Language Char :=
  blank∗ * (1 + char '#' * (letter (· ≠ '|'))∗)

end Characters

section Lines

/-- A line that says something behind a keyword or a sign. -/
def opened (text : List Char) (rest : Language Char) : Language Char :=
  blank∗ * (word text * rest)

/-- Tags separated by blanks. -/
def tagLine : Language Char :=
  blank∗ * (tag * ((blank * blank∗ * tag)∗ * ending))

/-- The heading of the feature has a title. -/
def featureLine : Language Char :=
  opened Heading.feature.text.toList (blank∗ * phrase)

/-- The heading of a block may have a title. -/
def blockLine (kind : BlockKind) : Language Char :=
  opened (Heading.block kind).text.toList scannable

/-- A step has text. -/
def stepLine : Language Char :=
  {text | ∃ keyword ∈ StepKeyword.active,
    text ∈ opened keyword.text.toList (blank * (blank∗ * phrase))}

/-- The heading of examples has no title. -/
def examplesLine : Language Char :=
  opened Heading.examples.text.toList ending

/-- A row of so many cells. -/
def row (columns : ℕ) : Language Char :=
  opened ['|'] (cell ^ columns * rowEnding)

/-- A fence that opens a doc string. -/
def openFence : Language Char :=
  opened Reader.fence blank∗

/-- A fence that closes a doc string. -/
def closeFence : Language Char :=
  opened Reader.fence ending

/-- A line that does not begin with a fence. -/
def bodyLine : Language Char :=
  (opened Reader.fence ⊤)ᶜ

/-- A line of the description: text that neither tags nor the heading of a
    block begin. Blank lines and comments are such lines too. -/
def descriptionLine : Language Char :=
  {text | text ∈ scannable ∧ Reader.classify text ≠ .tags ∧
    ∀ kind, Reader.classify text ≠ .heading (.block kind)}

end Lines

section Documents

/-- One line of a kind. -/
def line (kind : Language Char) : Language (List Char) :=
  letter (· ∈ kind)

/-- Any number of blank lines and comments. -/
def trivia : Language (List Char) :=
  (line ending)∗

/-- Any number of blank lines, comments and lines of tags. -/
def preface : Language (List Char) :=
  (line ending + line tagLine)∗

/-- The rows of a table, all of one length. -/
def table : Language (List Char) :=
  {lines | ∃ columns, 1 ≤ columns ∧
    lines ∈ line (row columns) * (trivia * line (row columns))∗}

/-- The two fences of a doc string and the lines between them. -/
def docString : Language (List Char) :=
  line openFence * (line bodyLine)∗ * line closeFence

/-- A step with at most one argument. -/
def step : Language (List Char) :=
  line stepLine * (1 + trivia * docString + trivia * table)

/-- The steps of a block. -/
def steps : Language (List Char) :=
  (preface * step)∗

/-- The examples of an outline, which take no tags. -/
def examples : Language (List Char) :=
  trivia * line examplesLine * (1 + trivia * table)

/-- What follows the heading of the feature and its description. -/
def body : Language (List Char) :=
  (1 + preface * line (blockLine .background) * steps) *
    (preface * line (blockLine .scenario) * steps +
      preface * line (blockLine .outline) * steps * (1 + examples))∗ *
    trivia

/-- The documents that are accepted: a feature, or nothing but trivia. -/
def document : Language (List Char) :=
  trivia + preface * line featureLine * (line descriptionLine)∗ * body

end Documents

end LineGrammar

end Gherkin
