import Gherkin.Proofs.FailFast
import Gherkin.Proofs.Source.Positions

/-!
# A Refusal Points at Its Fault

A refusal gives an offset, a line, a column and a quotation. All four can be
checked against the document without knowing how it is read: the offset lies
between two characters, the line counts the line breaks before it, the column
counts the characters since the last of them, and what is quoted is the rest of
the line.

The reader finds fault with a place on a line, or with the end of the document.
Both are places in the sense of `Splits`, which cuts the line around an offset
in two. What is told about such an offset then follows from how positions move:
the first place of a line is in the first column, and every character of the
line moves the position by one.

## Main definitions

* `Source.Splits`: What stands on either side of an offset on its line.
* `Refusal.Pinpoints`: A refusal tells where its fault stands.

## Theorems

* `Source.Splits.column`, `Source.Splits.excerpt`: What is told about an offset
  that splits its line.
* `Source.Splits.not_within`: Such an offset lies within no ending.
* `place_of_error`: Where a document that is refused has its fault.
* `readEvents_pinpoints`: Every refusal points at its fault.
-/

namespace Gherkin

open Reader
open Source (Line)

section Unbroken

variable {source : String} {offset : Nat} {text rest : List Char}

/-- Within a line a position moves by one column for each character. -/
theorem locate_unbroken (h : Source.At source offset (text ++ rest))
    (htext : Source.Unbroken text) :
    locate source (offset + Text.width text) =
      ⟨(locate source offset).line, (locate source offset).column + text.length⟩ := by
  induction text generalizing offset with
  | nil => rfl
  | cons c more ih =>
      have hc := htext c List.mem_cons_self
      have hstep := locate_advance h
      rw [Position.advance, if_neg (fun hboth => hc.2 hboth.1), if_neg (not_or.mpr hc)] at hstep
      have hmore := ih (Source.At.next h) (htext.mono fun d hd => List.mem_cons_of_mem c hd)
      rw [hstep] at hmore
      rw [Text.width_cons, ← Nat.add_assoc, hmore, List.length_cons]
      congr 1
      exact Nat.add_right_comm _ _ _

/-- Where a line break is over, a line begins. -/
theorem Source.BreakEnds.column (h : BreakEnds source offset) :
    (locate source offset).column = 1 := by
  cases h with
  | lineFeed hat =>
      have hstep := locate_advance hat
      rw [Position.advance_break _ (Or.inl rfl)] at hstep
      exact congrArg Position.column hstep
  | carriageReturn hat hrest =>
      have hstep := locate_advance hat
      rw [Position.advance_break _ (Or.inr ⟨rfl, hrest⟩)] at hstep
      exact congrArg Position.column hstep

end Unbroken

namespace Source

/-- What stands on either side of an offset on its line: the line starts at
    `start` with `before`, goes on from the offset with `behind`, and is
    followed by `more`. -/
structure Splits (source : String) (offset start : Nat) (before behind more : List Char) :
    Prop where
  text : At source start (before ++ (behind ++ more))
  offset_eq : offset = start + Text.width before
  begins : start = 0 ∨ BreakEnds source start
  unbroken : Unbroken (before ++ behind)
  ends : more = [] ∨ more.head? = some '\n' ∨ more.head? = some '\r'

namespace Splits

variable {source : String} {offset start : Nat} {before behind more : List Char}

theorem at_offset (h : Splits source offset start before behind more) :
    At source offset (behind ++ more) := by
  rw [h.offset_eq]
  exact h.text.skip

/-- The column counts the characters since the line began. -/
theorem column (h : Splits source offset start before behind more) :
    (locate source offset).column = 1 + before.length := by
  have hstart : (locate source start).column = 1 := by
    rcases h.begins with rfl | hends
    · rw [locate_zero]
    · exact hends.column
  have hbefore : Unbroken before := h.unbroken.mono fun c hc => List.mem_append_left behind hc
  rw [h.offset_eq, locate_unbroken h.text hbefore, hstart]

/-- What is quoted is the rest of the line. -/
theorem excerpt (h : Splits source offset start before behind more) :
    excerptAt source offset = if behind.length ≤ 40 then String.ofList behind
      else String.ofList (behind.take 40) ++ "…" := by
  have hbehind : Unbroken behind := h.unbroken.mono fun c hc => List.mem_append_right before hc
  rw [excerptAt_eq h.at_offset hbehind h.ends, excerptLength]
  split_ifs with hlength
  · rw [List.append_nil, List.take_of_length_le hlength]
  · rw [String.ofList_append]

/-- No ending has its characters on either side of the offset. -/
theorem not_within (h : Splits source offset start before behind more) {other : Nat}
    {rest : List Char} (hboth : At source other ('\r' :: '\n' :: rest)) : offset ≠ other + 1 := by
  intro heq
  rcases List.eq_nil_or_concat' before with rfl | ⟨front, c, rfl⟩
  · -- A line does not begin within an ending.
    have hoffset : start = other + 1 := by
      rw [← heq, h.offset_eq]
      rfl
    rcases h.begins with hzero | hends
    · omega
    · rw [hoffset] at hends
      simpa using hboth.breakEnds_iff.mp hends
  · -- The character before the offset is on the line, so it is no carriage return.
    have hat : At source (start + Text.width front) (c :: (behind ++ more)) := by
      have htext := h.text
      rw [List.append_assoc] at htext
      exact htext.skip
    have hwidth : start + Text.width front + c.utf8Size = other + '\r'.utf8Size := by
      have hoffset := h.offset_eq
      rw [heq, Text.width_append] at hoffset
      have hc : Text.width [c] = c.utf8Size := rfl
      have hreturn : '\r'.utf8Size = 1 := rfl
      omega
    exact (h.unbroken c (by simp)).2 (hat.char_eq hboth hwidth).1

end Splits

section Places

variable {source : String} {above below : List Line} {line : Line} {rest : List Char}
  {offset : Nat}

/-- A line starts where the document does, or where a line break is over. -/
theorem begins_start (h : lines source = above ++ line :: below) :
    line.start = 0 ∨ BreakEnds source line.start := by
  have hfollow := Line.follow_split 0 source.toList
  rw [← lines, h] at hfollow
  rcases List.eq_nil_or_concat' above with rfl | ⟨front, upper, rfl⟩
  · exact Or.inl hfollow.1
  · have hended := (hfollow.passed upper (by simp)).1
    rw [List.append_assoc, List.singleton_append] at h
    rw [start_below h]
    exact Or.inr (breakEnds_next h hended)

/-- A place on a line splits it. -/
theorem splits_place (h : lines source = above ++ line :: below) (hrest : rest <:+ line.text) :
    ∃ before, Splits source (line.offsetOf rest) line.start before rest
      (line.ending.chars ++ below.flatMap Line.chars) := by
  have hmem : line ∈ lines source := by rw [h]; simp
  have hunbroken := Line.unbroken_split 0 source.toList line hmem
  have hline := at_line h
  rcases hrest with ⟨before, hbefore⟩
  rw [Line.chars, ← hbefore, List.append_assoc, List.append_assoc] at hline
  refine ⟨before, hline, ?_, begins_start h, hbefore ▸ hunbroken, behind_text h⟩
  rw [Line.offsetOf, Line.stop, ← hbefore, Text.width_append, ← Nat.add_assoc, Nat.add_sub_cancel]

/-- The end of a document whose lines are all ended splits a line without any
    text. -/
theorem splits_size (h : ∀ line ∈ lines source, line.ending ≠ .none) :
    Splits source (size source) (size source) [] [] [] := by
  refine ⟨at_size source, rfl, ?_, unbroken_nil, Or.inl rfl⟩
  rcases List.eq_nil_or_concat' (lines source) with hnil | ⟨above, line, hlines⟩
  · -- Without lines there is no text at all.
    have hchars := Line.split_chars 0 source.toList
    rw [← lines, hnil, List.flatMap_nil] at hchars
    exact Or.inl (by rw [size, ← hchars, Text.width_nil])
  · rw [size_eq_next hlines]
    exact Or.inr (breakEnds_next hlines (h line (by rw [hlines]; simp)))

/-- The end of a document splits its last line, or the line behind it. -/
theorem exists_splits_size (source : String) :
    ∃ start before behind more, Splits source (size source) start before behind more := by
  rcases List.eq_nil_or_concat' (lines source) with hnil | ⟨above, line, hlines⟩
  · exact ⟨_, _, _, _, splits_size (by simp [hnil])⟩
  · by_cases hopen : line.ending = .none
    · rcases splits_place hlines List.nil_suffix with ⟨before, hsplits⟩
      rw [← size_eq_offsetOf hlines hopen] at hsplits
      exact ⟨_, _, _, _, hsplits⟩
    · exact ⟨_, _, _, _, splits_size (ended_of_last hlines hopen)⟩

/-- The characters of a line before an offset can be counted, since no
    character has the offset inside. -/
theorem At.exists_takeBytes? (h : At source offset rest) (hline : line ∈ lines source)
    (hle : line.start ≤ offset) :
    ∃ before, Text.takeBytes? (min offset line.stop - line.start) line.text = some before := by
  by_cases hstop : line.stop ≤ offset
  · have hall : min offset line.stop - line.start = Text.width line.text := by
      rw [Nat.min_eq_right hstop, Line.stop, Nat.add_sub_cancel_left]
    have htake := Text.takeBytes?_append line.text []
    rw [List.append_nil] at htake
    exact ⟨line.text, hall ▸ htake⟩
  · rcases List.append_of_mem hline with ⟨above, below, hlines⟩
    rcases (at_line hlines).exists_between h hle with ⟨before, hchars, hoffset⟩
    -- The offset lies before the end of the text, so what is before it is part of the text.
    have hpart : min offset line.stop - line.start = Text.width before := by omega
    rw [Line.chars, List.append_assoc] at hchars
    rcases List.append_eq_append_iff.mp hchars with ⟨gap, rfl, -⟩ | ⟨gap, htext, -⟩
    · rw [Text.width_append, Line.stop] at *
      omega
    · rw [hpart, htext]
      exact ⟨before, Text.takeBytes?_append before gap⟩

end Places

end Source

/-- A refusal tells where its fault stands. -/
structure Refusal.Pinpoints (source : String) (refusal : Refusal) : Prop where
  /-- The offset lies in the document, between two characters. -/
  boundary : refusal.offset ≤ Source.size source ∧ ∃ rest, Source.At source refusal.offset rest
  /-- It lies in the text of a line or at the end of it, or at the end of the
      document. -/
  onLine : (∃ line ∈ Source.lines source, line.start ≤ refusal.offset ∧
    refusal.offset ≤ line.stop) ∨ refusal.offset = Source.size source
  /-- It lies within no ending. -/
  whole : ∀ start rest, Source.At source start ('\r' :: '\n' :: rest) →
    refusal.offset ≠ start + 1
  /-- The line counts the line breaks that are over. -/
  line : refusal.position.line = 1 + (Source.breaks source refusal.offset).ncard
  /-- The column counts the characters since the line began, and what is
      quoted is the rest of the line, cut after forty characters. -/
  told : ∃ start before behind more,
    Source.Splits source refusal.offset start before behind more ∧
      refusal.position.column = 1 + before.length ∧
      refusal.excerpt = if behind.length ≤ 40 then String.ofList behind
        else String.ofList (behind.take 40) ++ "…"
  /-- On whatever line the column is counted, no character has the offset
      inside. -/
  counted : ∀ line ∈ Source.lines source, line.start ≤ refusal.offset →
    ∃ before, Text.takeBytes? (min refusal.offset line.stop - line.start) line.text = some before

section Refusing

variable {source : String} {fault : Fault}

/-- A document is refused for a place on one of its lines, or for its end. -/
theorem place_of_error (h : run (Source.size source) {} (Source.lines source) = .error fault) :
    (∃ above line below rest, Source.lines source = above ++ line :: below ∧ rest <:+ line.text ∧
      fault.offset = line.offsetOf rest) ∨ fault.offset = Source.size source := by
  rcases run_eq_error h with
    ⟨above, line, below, state, hlines, hleads, hstep⟩ | ⟨state, -, hfinish⟩
  · rcases exists_place below hleads (State.step_fails fault hstep) with
      ⟨front, place, back, rest, hplace, -, hrest, hoffset⟩
    exact Or.inl ⟨front, place, back, rest, hlines.trans hplace, hrest, hoffset⟩
  · exact Or.inr (State.finish_missed fault hfinish).2

/-- What is told about a fault at an offset that splits its line. -/
theorem Refusal.pinpoints_of_splits {start : Nat} {before behind more : List Char}
    (h : Source.Splits source fault.offset start before behind more)
    (honLine : (∃ line ∈ Source.lines source, line.start ≤ fault.offset ∧
      fault.offset ≤ line.stop) ∨ fault.offset = Source.size source) :
    (Refusal.ofFault source fault).Pinpoints source := by
  have hat := h.at_offset
  have hoffset : (Refusal.ofFault source fault).offset = fault.offset :=
    Nat.min_eq_left hat.le_size
  constructor
  · rw [hoffset]
    exact ⟨hat.le_size, _, hat⟩
  · rwa [hoffset]
  · rw [hoffset]
    exact fun _ _ hboth => h.not_within hboth
  · rw [hoffset]
    exact locate_line hat
  · rw [hoffset]
    refine ⟨start, before, behind, more, h, h.column, ?_⟩
    rw [← h.excerpt, ← hoffset]
    rfl
  · rw [hoffset]
    exact fun _ hline hle => hat.exists_takeBytes? hline hle

end Refusing

/-- Every refusal points at its fault. -/
theorem readEvents_pinpoints {source : String} {refusal : Refusal}
    (h : readEvents source = .error refusal) : refusal.Pinpoints source := by
  rcases readEvents_eq_error h with ⟨fault, hrun, rfl⟩
  rcases place_of_error hrun with ⟨above, line, below, rest, hlines, hrest, hoffset⟩ | hsize
  · rcases Source.splits_place hlines hrest with ⟨before, hsplits⟩
    rw [← hoffset] at hsplits
    have hmem : line ∈ Source.lines source := by rw [hlines]; simp
    have hstart : line.start ≤ fault.offset := by
      rw [hsplits.offset_eq]
      exact Nat.le_add_right _ _
    have hstop : fault.offset ≤ line.stop := hoffset ▸ Nat.sub_le _ _
    exact Refusal.pinpoints_of_splits hsplits (Or.inl ⟨line, hmem, hstart, hstop⟩)
  · rcases Source.exists_splits_size source with ⟨start, before, behind, more, hsplits⟩
    rw [← hsize] at hsplits
    exact Refusal.pinpoints_of_splits hsplits (Or.inr hsize)

/-- A document with text among its tags, whose lines end in different ways. -/
def strayTextSample : String :=
  "Feature: é\r\n\rScenario:\n\t@ü é, and so on for more than forty characters\r\n"

/-- The sample is refused behind its tag, as the column tells in characters, and
    the line is quoted from there. -/
theorem readEvents_pinpoints_sample : ∃ refusal, readEvents strayTextSample = .error refusal ∧
    refusal.Pinpoints strayTextSample ∧
    refusal = ⟨.expectedTag, 29, ⟨4, 5⟩, "é, and so on for more than forty charact…"⟩ := by
  have hread : readEvents strayTextSample =
      .error ⟨.expectedTag, 29, ⟨4, 5⟩, "é, and so on for more than forty charact…"⟩ := by
    decide +kernel
  exact ⟨_, hread, readEvents_pinpoints hread, rfl⟩

end Gherkin
