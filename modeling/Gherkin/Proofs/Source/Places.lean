import Gherkin.Source.Position
import Gherkin.Proofs.Source.Lines

/-!
# Places in a Document

An offset of a document means something only where it falls between two
characters. `At` says so by what follows there: a place is an offset together
with the rest of the document. Two places are then compared by their rests,
and the text that a span covers is what the rest at its start has more than
the rest at its end.

The lines of a document are such rests. Their texts and endings, put together
again, are the document, and each line stands at the offset it says it does.

## Main definitions

* `Source.At`: What a document goes on with at an offset.
* `Source.Line.chars`: The characters of a line with its ending.

## Theorems

* `Text.dropBytes?_append`, `Text.takeBytes?_append`: Bytes are counted by
  the characters before them.
* `Source.At.exists_between`: What stands between two places.
* `Source.At.slice`: The text of a span.
* `Source.Line.split_chars`: The lines of a text make up the text.
* `Source.at_line`, `Source.at_place`: Where a line stands, and where what is
  left of it does.
-/

namespace Gherkin

namespace Text

/-- Bytes are dropped along with the characters they belong to. -/
theorem dropBytes?_append (before rest : List Char) :
    dropBytes? (width before) (before ++ rest) = some rest := by
  induction before with
  | nil => cases rest <;> rfl
  | cons c cs ih =>
      rcases Nat.exists_eq_add_of_lt (Nat.add_pos_left c.utf8Size_pos (width cs)) with ⟨n, hn⟩
      have hwidth : c.utf8Size + width cs = n + 1 := by omega
      rw [width_cons, hwidth, List.cons_append, dropBytes?, if_pos (by omega)]
      have hrest : n + 1 - c.utf8Size = width cs := by omega
      rw [hrest, ih]

/-- Bytes are taken along with the characters they belong to. -/
theorem takeBytes?_append (before rest : List Char) :
    takeBytes? (width before) (before ++ rest) = some before := by
  induction before with
  | nil => cases rest <;> rfl
  | cons c cs ih =>
      rcases Nat.exists_eq_add_of_lt (Nat.add_pos_left c.utf8Size_pos (width cs)) with ⟨n, hn⟩
      have hwidth : c.utf8Size + width cs = n + 1 := by omega
      rw [width_cons, hwidth, List.cons_append, takeBytes?, if_pos (by omega)]
      have hrest : n + 1 - c.utf8Size = width cs := by omega
      rw [hrest, ih, Option.map_some]

/-- Only the empty text has no width. -/
theorem width_eq_zero_iff {cs : List Char} : width cs = 0 ↔ cs = [] := by
  cases cs with
  | nil => simp
  | cons c rest =>
      have hpos := c.utf8Size_pos
      simp only [width_cons, reduceCtorEq, iff_false]
      omega

end Text

namespace Source

/-- The document goes on with `rest` at an offset. -/
def At (source : String) (offset : Nat) (rest : List Char) : Prop :=
  ∃ before, source.toList = before ++ rest ∧ Text.width before = offset

namespace At

variable {source : String} {offset other : Nat} {text rest more : List Char}

/-- A place further on, behind a text. -/
theorem skip (h : At source offset (text ++ rest)) :
    At source (offset + Text.width text) rest := by
  rcases h with ⟨before, hsource, rfl⟩
  exact ⟨before ++ text, by rw [hsource, List.append_assoc], Text.width_append before text⟩

/-- What follows a place reaches to the end of the document. -/
theorem size_eq (h : At source offset rest) : size source = offset + Text.width rest := by
  rcases h with ⟨before, hsource, rfl⟩
  rw [size, hsource, Text.width_append]

theorem le_size (h : At source offset rest) : offset ≤ size source := by
  rw [h.size_eq]
  exact Nat.le_add_right offset _

/-- Of two places the later one follows a text that begins at the earlier
    one. -/
theorem exists_between (h : At source offset rest) (hmore : At source other more)
    (hle : offset ≤ other) : ∃ between, rest = between ++ more ∧
      other = offset + Text.width between := by
  rcases h with ⟨before, hsource, rfl⟩
  rcases hmore with ⟨longer, hsource', rfl⟩
  rw [hsource] at hsource'
  rcases List.append_eq_append_iff.mp hsource' with ⟨gap, rfl, hrest⟩ | ⟨gap, rfl, hmore⟩
  · exact ⟨gap, hrest, Text.width_append before gap⟩
  · -- The places are in the wrong order unless nothing lies between them.
    rw [Text.width_append] at hle
    have hgap : gap = [] := Text.width_eq_zero_iff.mp (by omega)
    subst hgap
    exact ⟨[], by rw [hmore]; rfl, by simp⟩

/-- A span covers the text between its ends. -/
theorem slice (h : At source offset (text ++ rest)) :
    (Span.mk offset (offset + Text.width text)).slice? source = some (String.ofList text) := by
  rcases h with ⟨before, hsource, rfl⟩
  have hlength : (Span.mk (Text.width before) (Text.width before + Text.width text)).length =
      Text.width text := by
    simp only [Span.length]
    omega
  rw [Span.slice?, if_pos (Nat.le_add_right _ _), hsource, Text.dropBytes?_append, hlength,
    Option.bind_some, Text.takeBytes?_append, Option.map_some]

end At

theorem Ending.width_chars (ending : Ending) : Text.width ending.chars = ending.width := by
  cases ending <;> rfl

namespace Line

/-- The characters of a line, with its ending. -/
def chars (line : Line) : List Char :=
  line.text ++ line.ending.chars

theorem width_chars (line : Line) : line.start + Text.width line.chars = line.next := by
  rw [chars, Text.width_append, Ending.width_chars, next, stop, Nat.add_assoc]

/-- The lines of a text make up the text. -/
theorem split_chars (start : Nat) (cs : List Char) : (split start cs).flatMap chars = cs := by
  fun_induction split start cs with
  | case1 => rfl
  | case2 start rest ih => rw [List.flatMap_cons, ih]; rfl
  | case3 start rest ih => rw [List.flatMap_cons, ih]; rfl
  | case4 start rest hnot ih => rw [List.flatMap_cons, ih]; rfl
  | case5 start c rest hfeed hboth hreturn ih =>
      -- The character joins the first line, or is all there is.
      cases hlines : split (start + c.utf8Size) rest with
      | nil =>
          rw [hlines] at ih
          rw [← ih]
          rfl
      | cons line more =>
          rw [hlines] at ih
          rw [← ih]
          rfl

/-- A line stands behind those before it. -/
theorem Follow.start_eq {start : Nat} {above below : List Line} {line : Line}
    (h : Follow start (above ++ line :: below)) :
    line.start = start + Text.width (above.flatMap chars) := by
  induction above generalizing start with
  | nil => exact h.1
  | cons first rest ih =>
      rcases h with ⟨hstart, -, hrest⟩
      rw [ih hrest, ← width_chars, hstart, List.flatMap_cons, Text.width_append, Nat.add_assoc]

end Line

variable {source : String} {line : Line} {above below : List Line}

/-- A line stands where it says it does, in front of the lines below it. -/
theorem at_line (h : lines source = above ++ line :: below) :
    At source line.start (line.chars ++ below.flatMap Line.chars) := by
  refine ⟨above.flatMap Line.chars, ?_, ?_⟩
  · have hchars := Line.split_chars 0 source.toList
    rw [← lines, h, List.flatMap_append, List.flatMap_cons] at hchars
    exact hchars.symm
  · have hfollow := Line.follow_split 0 source.toList
    rw [← lines, h] at hfollow
    rw [hfollow.start_eq, Nat.zero_add]

/-- What is left of a line stands where its offset says, in front of the
    ending and the lines below. -/
theorem at_place (h : lines source = above ++ line :: below) {rest : List Char}
    (hrest : rest <:+ line.text) :
    At source (line.offsetOf rest) (rest ++ (line.ending.chars ++ below.flatMap Line.chars)) ∧
      At source line.stop (line.ending.chars ++ below.flatMap Line.chars) ∧
      line.offsetOf rest + Text.width rest = line.stop := by
  rcases hrest with ⟨before, hbefore⟩
  have hline := at_line h
  have hwidth : line.stop = line.start + Text.width before + Text.width rest := by
    rw [Line.stop, ← hbefore, Text.width_append, Nat.add_assoc]
  have hoffset : line.offsetOf rest = line.start + Text.width before := by
    rw [Line.offsetOf, hwidth, Nat.add_sub_cancel]
  rw [Line.chars, ← hbefore, List.append_assoc, List.append_assoc] at hline
  refine ⟨?_, ?_, by omega⟩
  · rw [hoffset]
    exact hline.skip
  · rw [hwidth]
    exact hline.skip.skip

theorem at_rest (h : line ∈ lines source) {rest : List Char} (hrest : rest <:+ line.text) :
    ∃ more, At source (line.offsetOf rest) (rest ++ more) ∧ At source line.stop more ∧
      line.offsetOf rest + Text.width rest = line.stop := by
  rcases List.append_of_mem h with ⟨above, below, hlines⟩
  exact ⟨_, at_place hlines hrest⟩

end Source

end Gherkin
