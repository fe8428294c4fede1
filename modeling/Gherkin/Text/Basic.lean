/-!
# Texts as Lists of Characters

What is done to the characters of a text throughout: blanks are trimmed, bytes
are counted, pieces are cut, letters are compared.

There are two notions of empty space, which must not be confused. Inside a line
of a feature file only the space and the tab separate things: these are the
*blanks*. Everything the reader skips, trims or counts as indentation is a
blank, so a no-break space in a step is part of its text. The end of a comment,
and values handed in from outside the document, are instead trimmed of *white
space* in the sense of the Unicode property of that name. `isSpace` lists its
members.

Positions in a document are counted in bytes of its UTF-8 encoding, while the
reader works on characters. The bridge is the number of bytes a list of
characters occupies, and the prefix or suffix found at a byte offset, which
exists only when the offset falls between two characters.

Everything is done on lists of characters and recursion follows the list, so a
lemma about it is an induction over the text.

## Main definitions

* `isBlank`, `isSpace`: The two classes of empty space.
* `dropTrailing`: Removes the longest suffix of one class.
* `trim`: Removes the characters of one class from both ends.
* `stripIndent`: Removes at most a given number of leading blanks.
* `trimRange`: Moves the ends of a byte range inwards over blanks.
* `spaces`: A text of spaces.
* `width`: The number of bytes of a list of characters.
* `takeBytes?`, `dropBytes?`: The parts before and after a byte offset.
* `cutAt`: The pieces of a text between the occurrences of a character.
* `spells`: Whether two texts differ in the case of ASCII letters at most.
-/

namespace Gherkin

namespace Text

section Blanks

/-- A blank separates words within a line: the space or the tab. -/
def isBlank (c : Char) : Bool :=
  c == ' ' || c == '\t'

/-- A character of the Unicode property White_Space. -/
def isSpace (c : Char) : Bool :=
  let n := c.toNat
  (0x09 ≤ n && n ≤ 0x0D) || n == 0x20 || n == 0x85 || n == 0xA0 || n == 0x1680 ||
    (0x2000 ≤ n && n ≤ 0x200A) || n == 0x2028 || n == 0x2029 || n == 0x202F ||
    n == 0x205F || n == 0x3000

/-- Every blank is white space, so trimming white space trims blanks too. -/
theorem isSpace_of_isBlank {c : Char} (h : isBlank c = true) : isSpace c = true := by
  simp only [isBlank, Bool.or_eq_true, beq_iff_eq] at h
  rcases h with rfl | rfl <;> decide

/-- Remove the longest suffix whose members all satisfy `p`. -/
def dropTrailing {α : Type} (p : α → Bool) : List α → List α
  | [] => []
  | a :: rest =>
    let kept := dropTrailing p rest
    if kept.isEmpty && p a then [] else a :: kept

/-- Remove the members of `p` from both ends. -/
def trim {α : Type} (p : α → Bool) (cs : List α) : List α :=
  dropTrailing p (cs.dropWhile p)

/-- Remove the leading blanks. -/
def skipBlanks (cs : List Char) : List Char :=
  cs.dropWhile isBlank

/-- The number of leading blanks. -/
def indentation (cs : List Char) : Nat :=
  (cs.takeWhile isBlank).length

/-- Remove leading blanks, but no more than `indent` of them. A line that is
    indented less keeps nothing of its indentation. -/
def stripIndent : Nat → List Char → List Char
  | indent + 1, c :: rest => if isBlank c then stripIndent indent rest else c :: rest
  | _, cs => cs

/-- A blank, seen as a byte of UTF-8. No byte of a longer encoding is a
    blank, so bytes and characters agree on where blanks are. -/
def isBlankByte (b : UInt8) : Bool :=
  b == 0x20 || b == 0x09

/-- Move both ends of the byte range `start..stop` inwards over blanks.

    The range need not lie inside `bytes`: positions that hold no byte hold
    no blank, and a reversed range is returned as it is. -/
def trimRange (bytes : List UInt8) (start stop : Nat) : Nat × Nat :=
  let within := (bytes.drop start).take (stop - start)
  let first := start + (within.takeWhile isBlankByte).length
  if bytes.length < stop then (first, stop)
  else
    let kept := (bytes.take stop).drop first
    (first, stop - (kept.reverse.takeWhile isBlankByte).length)

/-- A text of `n` spaces. -/
def spaces (n : Nat) : String :=
  String.ofList (List.replicate n ' ')

end Blanks

section Bytes

/-- The number of bytes that `cs` occupies in UTF-8. -/
def width : List Char → Nat
  | [] => 0
  | c :: rest => c.utf8Size + width rest

/-- The characters that make up exactly the first `n` bytes; `none` when
    offset `n` lies inside a character or past the end. -/
def takeBytes? : Nat → List Char → Option (List Char)
  | 0, _ => some []
  | _ + 1, [] => none
  | n + 1, c :: rest =>
    if c.utf8Size ≤ n + 1 then (takeBytes? (n + 1 - c.utf8Size) rest).map (c :: ·) else none

/-- The characters from byte offset `n` on; `none` when that offset lies
    inside a character or past the end. -/
def dropBytes? : Nat → List Char → Option (List Char)
  | 0, cs => some cs
  | _ + 1, [] => none
  | n + 1, c :: rest =>
    if c.utf8Size ≤ n + 1 then dropBytes? (n + 1 - c.utf8Size) rest else none

@[simp] theorem width_nil : width [] = 0 := rfl

@[simp] theorem width_cons (c : Char) (rest : List Char) :
    width (c :: rest) = c.utf8Size + width rest := rfl

/-- Widths add up along concatenation. -/
@[simp] theorem width_append (a b : List Char) : width (a ++ b) = width a + width b := by
  induction a with
  | nil => simp
  | cons c rest ih => simp [ih, Nat.add_assoc]

end Bytes

section Words

/-- The pieces between the occurrences of `sep`. There is one more piece than
    there are occurrences, so even the empty text has a piece. -/
def cutAt (sep : Char) : List Char → List (List Char)
  | [] => [[]]
  | c :: rest =>
    if c == sep then [] :: cutAt sep rest
    else
      match cutAt sep rest with
      | [] => [[c]]
      | piece :: pieces => (c :: piece) :: pieces

/-- The text with its ASCII letters in lower case. Keywords and settings may be
    spelled in any case. The words they are compared with have ASCII letters
    only, and no other letter has one of theirs as its lower-case form, so
    folding ASCII letters decides the comparison. -/
def lower (text : String) : List Char :=
  text.toList.map Char.toLower

/-- Whether two texts differ in the case of ASCII letters at most. -/
def spells (text word : String) : Bool :=
  lower text == lower word

end Words

end Text

/-- Remove blanks from both ends of a text. -/
def trimBlanks (text : String) : String :=
  String.ofList (Text.trim Text.isBlank text.toList)

/-- Remove white space from both ends of a text. -/
def trimSpace (text : String) : String :=
  String.ofList (Text.trim Text.isSpace text.toList)

end Gherkin
