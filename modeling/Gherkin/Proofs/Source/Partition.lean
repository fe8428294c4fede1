import Gherkin.Proofs.Source.Breaks
import Gherkin.Proofs.Source.Rejoined

/-!
# Lines Partition a Document

Whoever is given three offsets for each line, where it starts, where its text
stops and where the next line starts, can check them against the document
without splitting it again. The offsets fall between characters, the lines lie
edge to edge from the beginning to the end, no text holds a line break, and
behind each text stands one whole line break. Only the last line may lack it,
and has a text then.

The offsets of the lines that splitting finds pass this check, and no others
do. For one line the check says that an unbroken text stands in the document
with an ending that nothing behind it completes (`Bounds.isLine_iff`). So the
first line that was given is the first line of the document, and what is left
of the document behind it is told by the offsets that are left.

## Main definitions

* `Bounds`: The three offsets of a line.
* `Bounds.IsLine`: Offsets that could be those of a line.
* `Partition`: Offsets that make up a document line by line.
* `Line.Stands`: A line that stands in a document.

## Theorems

* `isValid_iff_at`: Offsets between two characters.
* `Bounds.isLine_iff`: Offsets of a line are those of a line that stands in the
  document.
* `Partition.of_lines`: The lines of a document partition it.
* `join_whole`: The lines, one behind the other, are the document.
* `Partition.split_below`: The lines from one of a partition on.
* `Partition.eq_lines`, `lines_partition`: Nothing else partitions a document.
-/

namespace Gherkin

/-- The width of a text is the number of bytes of its encoding. -/
theorem Text.width_toList (s : String) : width s.toList = s.utf8ByteSize := by
  have hlist : ∀ cs, width cs = (String.ofList cs).utf8ByteSize := by
    intro cs
    induction cs with
    | nil => rfl
    | cons c rest ih =>
        rw [width_cons, ih, String.ofList_cons, String.utf8ByteSize_append,
          String.utf8ByteSize_singleton]
  rw [hlist, String.ofList_toList]

namespace Source

/-- Where a line starts, where its text stops, and where the next line
    starts. -/
structure Bounds where
  start : Nat
  stop : Nat
  next : Nat
  deriving DecidableEq, Repr

/-- The offsets of a line. -/
def Line.bounds (line : Line) : Bounds :=
  ⟨line.start, line.stop, line.next⟩

namespace Bounds

/-- What stands between the start and the stop. -/
def text? (source : String) (bounds : Bounds) : Option String :=
  (Span.mk bounds.start bounds.stop).slice? source

/-- What stands between the stop and the next line. -/
def ending? (source : String) (bounds : Bounds) : Option String :=
  (Span.mk bounds.stop bounds.next).slice? source

/-- What stands between the start and the next line. -/
def whole? (source : String) (bounds : Bounds) : Option String :=
  (Span.mk bounds.start bounds.next).slice? source

/-- A whole line break stands between the stop and the next line, or nothing
    does. -/
inductive Ends (source : String) (bounds : Bounds) : Prop
  | both (h : bounds.ending? source = some "\r\n")
  | lineFeed (h : bounds.ending? source = some "\n")
  | carriageReturn (h : bounds.ending? source = some "\r")
      (hrest : ∀ rest, ¬ At source bounds.next ('\n' :: rest))
  | unended (h : bounds.ending? source = some "")

/-- Offsets that could be those of a line: they are in order and fall between
    characters, with a text and an ending between them. -/
structure IsLine (source : String) (bounds : Bounds) : Prop where
  ordered : bounds.start ≤ bounds.stop ∧ bounds.stop ≤ bounds.next
  valid : ∀ offset ∈ [bounds.start, bounds.stop, bounds.next],
    String.Pos.Raw.IsValid source ⟨offset⟩
  unbroken : ∃ text, bounds.text? source = some text ∧ Unbroken text.toList
  ends : Ends source bounds

end Bounds

/-- Offsets that make up a document line by line. -/
structure Partition (source : String) (lines : List Bounds) : Prop where
  /-- The first line starts at the beginning. -/
  first : ∀ bounds ∈ lines.head?, bounds.start = 0
  /-- Each line goes on to where the one below it starts. -/
  linked : lines.IsChain (fun bounds below => bounds.next = below.start)
  /-- The last line goes on to the end. -/
  last : ∀ bounds ∈ lines.getLast?, bounds.next = source.utf8ByteSize
  /-- Only the empty document has no line. -/
  eq_nil_iff : lines = [] ↔ source = ""
  isLine : ∀ bounds ∈ lines, bounds.IsLine source
  /-- Only a last line may lack an ending, and only if it has a text. -/
  unended : ∀ above bounds below, lines = above ++ bounds :: below →
    bounds.ending? source = some "" → below = [] ∧ bounds.text? source ≠ some ""

section Places

variable {source : String} {offset other : Nat} {rest more : List Char}

/-- The offsets between two characters are those where a document goes on. -/
theorem isValid_iff_at :
    String.Pos.Raw.IsValid source ⟨offset⟩ ↔ ∃ rest, At source offset rest := by
  rw [String.Pos.Raw.isValid_iff_exists_append]
  constructor
  · rintro ⟨before, behind, rfl, hoffset⟩
    refine ⟨behind.toList, before.toList, String.toList_append, ?_⟩
    rw [Text.width_toList, ← String.byteIdx_rawEndPos, ← hoffset]
  · rintro ⟨rest, before, hsource, rfl⟩
    refine ⟨String.ofList before, String.ofList rest, ?_, ?_⟩
    · rw [← String.ofList_append, ← hsource, String.ofList_toList]
    · rw [String.Pos.Raw.ext_iff, String.byteIdx_rawEndPos, ← Text.width_toList,
        String.toList_ofList]

/-- At its end a document goes on with nothing. -/
theorem At.eq_nil (h : At source offset rest) (hsize : offset = source.utf8ByteSize) :
    rest = [] := by
  have hwidth := h.size_eq
  rw [size, Text.width_toList] at hwidth
  exact Text.width_eq_zero_iff.mp (by omega)

/-- What stands between two places is what a span covers. -/
theorem At.exists_slice (h : At source offset rest) (hmore : At source other more)
    (hle : offset ≤ other) : ∃ between, rest = between ++ more ∧
      other = offset + Text.width between ∧
      (Span.mk offset other).slice? source = some (String.ofList between) := by
  rcases h.exists_between hmore hle with ⟨between, rfl, rfl⟩
  exact ⟨between, rfl, rfl, h.slice⟩

end Places

namespace Line

/-- A line stands in a document in front of `rest`, which does not complete its
    ending. -/
structure Stands (source : String) (line : Line) (rest : List Char) : Prop where
  place : At source line.start (line.chars ++ rest)
  unbroken : Unbroken line.text
  apart : line.ending = .carriageReturn → rest.head? ≠ some '\n'

namespace Stands

variable {source : String} {line : Line} {rest : List Char}

theorem at_stop (h : line.Stands source rest) :
    At source line.stop (line.ending.chars ++ rest) := by
  have hplace := h.place
  rw [chars, List.append_assoc] at hplace
  exact hplace.skip

theorem at_next (h : line.Stands source rest) : At source line.next rest := by
  have hskip := h.place.skip
  rwa [width_chars] at hskip

theorem text_eq (h : line.Stands source rest) :
    line.bounds.text? source = some (String.ofList line.text) := by
  have hplace := h.place
  rw [chars, List.append_assoc] at hplace
  exact hplace.slice

theorem ending_eq (h : line.Stands source rest) :
    line.bounds.ending? source = some (String.ofList line.ending.chars) := by
  have hslice := h.at_stop.slice
  rwa [Ending.width_chars] at hslice

theorem whole_eq (h : line.Stands source rest) :
    line.bounds.whole? source = some (String.ofList line.chars) := by
  have hslice := h.place.slice
  rwa [width_chars] at hslice

/-- A line that is ended or the last one is split off. -/
theorem split (h : line.Stands source rest)
    (hunended : line.ending = .none → rest = [] ∧ line.text ≠ []) :
    Line.split line.start (line.chars ++ rest) = line :: Line.split line.next rest := by
  by_cases hnone : line.ending = .none
  · rcases hunended hnone with ⟨rfl, htext⟩
    rw [List.append_nil, chars, hnone, Ending.chars, List.append_nil,
      split_unended line.start h.unbroken htext, ← hnone]
    rfl
  · exact split_line line.start h.unbroken hnone h.apart

theorem ends (h : line.Stands source rest) : line.bounds.Ends source := by
  have hending := h.ending_eq
  cases hkind : line.ending with
  | none => rw [hkind] at hending; exact .unended hending
  | lineFeed => rw [hkind] at hending; exact .lineFeed hending
  | carriageReturn =>
      rw [hkind] at hending
      refine .carriageReturn hending (fun more hmore => ?_)
      rw [h.at_next.unique hmore] at h
      exact h.apart hkind rfl
  | both => rw [hkind] at hending; exact .both hending

/-- The offsets of a line that stands in a document are those of a line. -/
theorem isLine (h : line.Stands source rest) : line.bounds.IsLine source where
  ordered := ⟨Nat.le_add_right _ _, Nat.le_add_right _ _⟩
  valid := by
    intro offset hoffset
    rw [isValid_iff_at]
    simp only [List.mem_cons, List.not_mem_nil, or_false] at hoffset
    rcases hoffset with rfl | rfl | rfl
    · exact ⟨_, h.place⟩
    · exact ⟨_, h.at_stop⟩
    · exact ⟨_, h.at_next⟩
  unbroken := ⟨_, h.text_eq, by rw [String.toList_ofList]; exact h.unbroken⟩
  ends := h.ends

end Stands

end Line

namespace Bounds

variable {source : String} {bounds : Bounds}

/-- The ending that the offsets tell. -/
theorem Ends.exists_ending (h : bounds.Ends source) :
    ∃ ending : Ending, bounds.ending? source = some (String.ofList ending.chars) ∧
      (ending = .carriageReturn → ∀ rest, ¬ At source bounds.next ('\n' :: rest)) := by
  cases h with
  | both h => exact ⟨.both, h, by simp⟩
  | lineFeed h => exact ⟨.lineFeed, h, by simp⟩
  | carriageReturn h hrest => exact ⟨.carriageReturn, h, fun _ => hrest⟩
  | unended h => exact ⟨.none, h, by simp⟩

/-- Offsets are those of a line exactly if it is one that stands in the
    document. -/
theorem isLine_iff :
    bounds.IsLine source ↔ ∃ line rest, line.bounds = bounds ∧ Line.Stands source line rest := by
  constructor
  · rintro ⟨⟨hstop, hnext⟩, hvalid, ⟨text, htext, hunbroken⟩, hends⟩
    rcases isValid_iff_at.mp (hvalid bounds.start (by simp)) with ⟨_, hatStart⟩
    rcases isValid_iff_at.mp (hvalid bounds.stop (by simp)) with ⟨_, hatStop⟩
    rcases isValid_iff_at.mp (hvalid bounds.next (by simp)) with ⟨rest, hatNext⟩
    rcases hends.exists_ending with ⟨ending, hending, hreturn⟩
    -- Two places each enclose a text, and these are the ones that the slices show.
    rcases hatStop.exists_slice hatNext hnext with ⟨second, rfl, hnextEq, hsecond⟩
    rcases hatStart.exists_slice hatStop hstop with ⟨first, rfl, hstopEq, hfirst⟩
    have hfirstText : String.ofList first = text := Option.some.inj (hfirst.symm.trans htext)
    have hsecondEnding : second = ending.chars :=
      String.ofList_injective (Option.some.inj (hsecond.symm.trans hending))
    subst hsecondEnding
    rw [Ending.width_chars] at hnextEq
    refine ⟨⟨bounds.start, first, ending⟩, rest, ?_, ?_, ?_, ?_⟩
    · simp only [Line.bounds, Line.next, Line.stop, ← hstopEq, ← hnextEq]
    · rw [Line.chars, List.append_assoc]
      exact hatStart
    · rwa [← hfirstText, String.toList_ofList] at hunbroken
    · intro hkind hhead
      rcases List.head?_eq_some_iff.mp hhead with ⟨more, rfl⟩
      exact hreturn hkind more hatNext
  · rintro ⟨line, rest, rfl, hstands⟩
    exact hstands.isLine

end Bounds

section Lines

variable {source : String} {above below : List Line} {line : Line}

theorem stands_line (h : lines source = above ++ line :: below) :
    line.Stands source (below.flatMap Line.chars) where
  place := at_line h
  unbroken := Line.unbroken_split 0 source.toList line (by rw [← lines, h]; simp)
  apart := head?_behind h

theorem exists_stands (h : line ∈ lines source) : ∃ rest, line.Stands source rest := by
  rcases List.append_of_mem h with ⟨above, below, hlines⟩
  exact ⟨_, stands_line hlines⟩

theorem lines_eq_nil_iff : lines source = [] ↔ source = "" := by
  constructor
  · intro h
    have hchars := Line.split_chars 0 source.toList
    rw [← lines, h, List.flatMap_nil] at hchars
    exact String.toList_inj.mp hchars.symm
  · rintro rfl
    rfl

/-- A line without an ending is the last one, and has a text. -/
theorem text_ne_nil_of_unended (h : lines source = above ++ line :: below)
    (hnone : line.ending = .none) : below = [] ∧ line.text ≠ [] := by
  have hmem : line ∈ Line.split 0 source.toList := by rw [← lines, h]; simp
  have hchars := Line.chars_ne_nil hmem
  rw [Line.chars, hnone, Ending.chars, List.append_nil] at hchars
  exact ⟨below_eq_nil h hnone, hchars⟩

/-- The lines of a document partition it. -/
theorem Partition.of_lines (source : String) :
    Partition source ((lines source).map Line.bounds) where
  first := by
    intro bounds hbounds
    cases hlines : lines source with
    | nil => simp [hlines] at hbounds
    | cons line below =>
        have hfollow := Line.follow_split 0 source.toList
        rw [← lines, hlines] at hfollow
        rw [hlines, List.map_cons, List.head?_cons, Option.mem_some_iff] at hbounds
        rw [← hbounds]
        exact hfollow.1
  linked := by
    rw [List.isChain_map, List.isChain_iff_forall_rel_of_append_cons_cons]
    intro line later above below hlines
    exact (start_below hlines).symm
  last := by
    intro bounds hbounds
    rw [List.getLast?_map, Option.mem_map] at hbounds
    rcases hbounds with ⟨line, hline, rfl⟩
    rcases List.getLast?_eq_some_iff.mp hline with ⟨above, hlines⟩
    rw [← Text.width_toList]
    exact (size_eq_next hlines).symm
  eq_nil_iff := by rw [List.map_eq_nil_iff, lines_eq_nil_iff]
  isLine := by
    rw [List.forall_mem_map]
    intro line hline
    rcases exists_stands hline with ⟨rest, hstands⟩
    exact hstands.isLine
  unended := by
    intro above bounds below hbounds hending
    rcases List.map_eq_append_iff.mp hbounds with ⟨upper, others, hlines, -, hothers⟩
    rcases List.map_eq_cons_iff.mp hothers with ⟨line, lower, rfl, rfl, rfl⟩
    have hstands := stands_line hlines
    have hnone : line.ending = .none := by
      by_contra hended
      rw [hstands.ending_eq, Option.some.injEq] at hending
      exact Ending.chars_ne_nil hended (String.ofList_injective hending)
    rcases text_ne_nil_of_unended hlines hnone with ⟨rfl, htext⟩
    refine ⟨rfl, fun hempty => htext ?_⟩
    rw [hstands.text_eq, Option.some.injEq] at hempty
    exact String.ofList_injective hempty

/-- What is cut out for every line of a document is cut out for all of them. -/
theorem mapM_bounds {cut : Bounds → Option String} {shown : Line → List Char} {lines : List Line}
    (h : ∀ line ∈ lines, cut line.bounds = some (String.ofList (shown line))) :
    (lines.map Line.bounds).mapM cut = some (lines.map fun line => String.ofList (shown line)) := by
  induction lines with
  | nil => rfl
  | cons line rest ih =>
      have hrest := ih (fun other hother => h other (List.mem_cons_of_mem line hother))
      rw [List.map_cons, List.mapM_cons, h line List.mem_cons_self, hrest]
      rfl

/-- The lines of a document, one behind the other, are the document. -/
theorem join_whole (source : String) :
    (((lines source).map Line.bounds).mapM (Bounds.whole? source)).map String.join =
      some source := by
  have hwhole : ∀ line ∈ lines source,
      line.bounds.whole? source = some (String.ofList line.chars) := by
    intro line hline
    rcases exists_stands hline with ⟨rest, hstands⟩
    exact hstands.whole_eq
  have hjoin : String.join ((lines source).map fun line => String.ofList line.chars) = source := by
    rw [← String.toList_inj, String.toList_join, List.flatMap_map]
    simp only [String.toList_ofList]
    exact Line.split_chars 0 source.toList
  rw [mapM_bounds hwhole, Option.map_some, hjoin]

end Lines

namespace Partition

variable {source : String} {lines above below : List Bounds} {bounds : Bounds} {rest : List Char}

/-- The last line goes on to the end of the document. -/
theorem next_last (h : Partition source lines) (hlines : lines = above ++ [bounds]) :
    bounds.next = source.utf8ByteSize :=
  h.last bounds (by simp [hlines])

/-- Each line of a partition is the first line of what the document goes on with
    at its start. -/
theorem exists_split (h : Partition source lines) (hlines : lines = above ++ bounds :: below)
    (hrest : At source bounds.start rest) :
    ∃ more, At source bounds.next more ∧ (Line.split bounds.start rest).map Line.bounds =
      bounds :: (Line.split bounds.next more).map Line.bounds := by
  rcases Bounds.isLine_iff.mp (h.isLine bounds (by simp [hlines])) with ⟨line, more, rfl, hstands⟩
  refine ⟨more, hstands.at_next, ?_⟩
  have hchars : rest = line.chars ++ more := hrest.unique hstands.place
  have hunended : line.ending = .none → more = [] ∧ line.text ≠ [] := by
    intro hnone
    have hending := hstands.ending_eq
    rw [hnone] at hending
    rcases h.unended above _ below hlines hending with ⟨rfl, htext⟩
    refine ⟨hstands.at_next.eq_nil (h.next_last hlines), fun hnil => htext ?_⟩
    rw [hstands.text_eq, hnil]
  have hsplit := hstands.split hunended
  rw [← hchars] at hsplit
  exact congrArg (List.map Line.bounds) hsplit

/-- From each line of a partition on, the document is split into the lines that
    the partition goes on with. -/
theorem split_below (h : Partition source lines) (hlines : lines = above ++ bounds :: below)
    (hrest : At source bounds.start rest) :
    (Line.split bounds.start rest).map Line.bounds = bounds :: below := by
  induction below generalizing above bounds rest with
  | nil =>
      rcases h.exists_split hlines hrest with ⟨more, hmore, hsplit⟩
      rw [hsplit, hmore.eq_nil (h.next_last hlines)]
      rfl
  | cons later others ih =>
      rcases h.exists_split hlines hrest with ⟨more, hmore, hsplit⟩
      have hlinked : bounds.next = later.start :=
        List.isChain_iff_forall_rel_of_append_cons_cons.mp h.linked hlines
      have hothers : lines = (above ++ [bounds]) ++ later :: others := by simp [hlines]
      rw [hlinked] at hmore hsplit
      rw [hsplit, ih hothers hmore]

/-- Only the lines of a document partition it. -/
theorem eq_lines (h : Partition source lines) : lines = (Source.lines source).map Line.bounds := by
  cases lines with
  | nil =>
      rw [h.eq_nil_iff.mp rfl]
      rfl
  | cons bounds below =>
      have hstart : bounds.start = 0 := h.first bounds rfl
      have hat : At source bounds.start source.toList := ⟨[], rfl, hstart.symm⟩
      have hsplit := h.split_below (List.nil_append (bounds :: below)).symm hat
      rw [hstart] at hsplit
      exact hsplit.symm

end Partition

/-- The lines of a document partition it, and nothing else does. Put one behind
    the other they are the document, and what each line has as its text and as
    its ending is what stands there. -/
theorem lines_partition (source : String) :
    (∀ bounds, Partition source bounds ↔ bounds = (lines source).map Line.bounds) ∧
      (((lines source).map Line.bounds).mapM (Bounds.whole? source)).map String.join =
        some source ∧
      ((lines source).map Line.bounds).mapM (Bounds.text? source) =
        some ((lines source).map fun line => String.ofList line.text) ∧
      ((lines source).map Line.bounds).mapM (Bounds.ending? source) =
        some ((lines source).map fun line => String.ofList line.ending.chars) := by
  refine ⟨fun bounds => ⟨Partition.eq_lines, ?_⟩, join_whole source, mapM_bounds ?_,
    mapM_bounds ?_⟩
  · rintro rfl
    exact Partition.of_lines source
  · intro line hline
    rcases exists_stands hline with ⟨rest, hstands⟩
    exact hstands.text_eq
  · intro line hline
    rcases exists_stands hline with ⟨rest, hstands⟩
    exact hstands.ending_eq

-- Two breaks meet in the middle, and the last line is not ended.
example : (lines "é\r\n\rb").map Line.bounds = [⟨0, 2, 4⟩, ⟨4, 4, 5⟩, ⟨5, 6, 6⟩] := by
  decide +kernel

end Source

end Gherkin
