import Mathlib.Data.List.Forall2
import Mathlib.Data.List.SplitBy
import Mathlib.Order.Bounds.Basic
import Gherkin.Proofs.Layout.Printed

/-!
# Comments in One Column

A page is cut into runs before it is rendered, and each run settles the column
of its comments by itself. This module says what comes out, in terms of the
lines of the page only: neighbouring lines with comments have their comments in
one column, one space behind the widest of them or further right if the options
say so, and no other line has a part in it.

The cut is made by comparing each line with the next one. Two lines with
comments stay together and all others are parted, so the runs of several lines
are just the longest stretches of lines with comments. Around such a stretch
the cut can be followed in three pieces.

The gap before a comment is computed with a subtraction that cannot go below
zero and a minimum of one space. Neither matters, because no line of a run is
as wide as the column.

## Main definitions

* `Line.plain`: The indentation and the pieces of a line, as text.
* `Page.texts`: The rendered lines of a page.
* `Page.IsRun`: A longest stretch of lines with comments.
* `Page.Aligned`: Each line of a page has its text, and comments are aligned.

## Theorems

* `Page.runs_eq`: A stretch of lines with comments is a run.
* `Page.texts_eq`: The texts of a stretch depend on nothing else.
* `width_lt_column`: A line ends before the column of its run.
* `Page.render_aligned`: Every page is rendered aligned.
-/

namespace Gherkin

namespace Layout

open Source (Unbroken)

/-- The indentation and the pieces of a line, as text. -/
def Line.plain (line : Line) : String :=
  Text.spaces line.indent ++ String.join (line.segments.map Segment.text)

/-- Whether no piece of a line and no comment holds a line feed. -/
structure Line.OneLine (line : Line) : Prop where
  segments : ∀ segment ∈ line.segments, '\n' ∉ segment.text.toList
  comment : ∀ text ∈ line.comment, '\n' ∉ text.toList

section Lines

variable {line : Line} {options : Options}

theorem Line.length_plain (line : Line) : line.plain.length = line.width := by
  have hpieces : ∀ segments : List Segment, (String.join (segments.map Segment.text)).length =
      segments.foldr (fun segment rest => segment.width + rest) 0 := by
    intro segments
    induction segments with
    | nil => rfl
    | cons segment rest ih =>
        rw [List.map_cons, String.join_cons, String.length_append, ih]
        rfl
  rw [plain, String.length_append, hpieces, Text.length_spaces, width]

theorem Line.render_of_comment (hcolor : options.color = false) {comment : String}
    (h : line.comment = some comment) (column : Nat) :
    line.render column options =
      line.plain ++ Text.spaces (line.gap column options) ++ "#" ++ comment := by
  have hblank : line.isBlank = false := by simp [isBlank, h]
  simp only [render, hblank, Bool.false_eq_true, if_false, hcolor, paint_plain, h, plain,
    String.append_assoc]

theorem Line.render_of_no_comment (hcolor : options.color = false) (h : line.comment = none)
    (column : Nat) : line.render column options = if line.isBlank then "" else line.plain := by
  simp only [render, hcolor, paint_plain, h, plain, String.append_empty]

theorem Line.oneLine_plain (h : line.OneLine) : '\n' ∉ line.plain.toList := by
  rw [plain, String.toList_append, Text.toList_spaces, String.toList_join, List.mem_append,
    List.mem_replicate, List.mem_flatMap]
  rintro (⟨-, hfeed⟩ | ⟨text, htext, hmem⟩)
  · exact absurd hfeed (by decide)
  · rcases List.mem_map.mp htext with ⟨segment, hsegment, rfl⟩
    exact h.segments segment hsegment hmem

/-- A line is rendered as one line. -/
theorem Line.oneLine_render (hcolor : options.color = false) (h : line.OneLine) (column : Nat) :
    '\n' ∉ (line.render column options).toList := by
  have hplain := line.oneLine_plain h
  cases hcomment : line.comment with
  | none =>
      rw [render_of_no_comment hcolor hcomment]
      split
      · simp
      · exact hplain
  | some comment =>
      have htext := h.comment comment hcomment
      rw [render_of_comment hcolor hcomment]
      simp [hplain, htext]

end Lines

section Columns

variable {run : List Line} {line : Line} {options : Options}

/-- The column of a run is settled by its widest line. -/
theorem isGreatest_widest (h : run ≠ []) :
    IsGreatest {width | ∃ line ∈ run, line.width = width} ((run.map Line.width).foldl max 0) := by
  cases run with
  | nil => exact absurd rfl h
  | cons first more =>
      have hmax : ((first :: more).map Line.width).max? =
          some (((first :: more).map Line.width).foldl max 0) := by
        rw [List.map_cons, List.max?_cons', List.foldl_cons, Nat.zero_max]
      rcases List.max?_eq_some_iff.mp hmax with ⟨hmem, hle⟩
      refine ⟨List.mem_map.mp hmem, ?_⟩
      intro width hwidth
      rcases hwidth with ⟨line, hline, rfl⟩
      exact hle line.width (List.mem_map_of_mem hline)

/-- A line ends before the column of its run. -/
theorem width_lt_column (h : line ∈ run) : line.width < Page.column run options := by
  have hle := (isGreatest_widest (List.ne_nil_of_mem h)).2 ⟨line, h, rfl⟩
  rw [Page.column]
  omega

/-- The gap before a comment is what is missing to the column. -/
theorem gap_eq (halign : options.alignComments = true) (h : line ∈ run) :
    line.gap (Page.column run options) options = Page.column run options - line.width := by
  have hlt : line.width < Page.column run options := width_lt_column h
  rw [Line.gap, if_pos halign]
  omega

end Columns

namespace Page

variable {page : Page} {above run below : List Line} {line : Line} {options : Options}

/-- The rendered lines of a page, without their endings. -/
def texts (page : Page) (options : Options) : List String :=
  page.runs.flatMap (fun run => run.map (fun line => line.render (column run options) options))

theorem render_eq (page : Page) (options : Options) :
    page.render options = String.join ((page.texts options).map (· ++ "\n")) := by
  refine String.toList_inj.mp ?_
  simp only [render, renderRun, texts, String.toList_join, List.flatMap_map, List.map_flatMap,
    List.flatMap_assoc]

/-- The lines of a page and their texts, one by one: each is rendered with the
    column of its run. -/
theorem forall₂_texts (page : Page) (options : Options) :
    List.Forall₂ (fun line text => ∃ run ∈ page.runs, line ∈ run ∧
      text = line.render (column run options) options) page.lines (page.texts options) := by
  have hlines : page.runs.flatten = page.lines := List.flatten_splitBy _ _
  rw [← hlines, texts, List.flatMap_def]
  refine List.rel_flatten (List.forall₂_map_right_iff.mpr (List.forall₂_same.mpr ?_))
  intro run hrun
  refine List.forall₂_map_right_iff.mpr (List.forall₂_same.mpr ?_)
  intro line hline
  exact ⟨run, hrun, hline, rfl⟩

theorem length_texts (page : Page) (options : Options) :
    (page.texts options).length = page.lines.length :=
  (page.forall₂_texts options).length_eq.symm

/-- The text of a line. -/
theorem exists_text (h : page.lines = above ++ line :: below) (options : Options) :
    ∃ run ∈ page.runs, line ∈ run ∧
      (page.texts options)[above.length]? = some (line.render (column run options) options) := by
  have hlength := page.length_texts options
  have hbound : above.length < page.lines.length := by simp [h]
  have hget := (page.forall₂_texts options).get hbound (by omega)
  have hline : page.lines.get ⟨above.length, hbound⟩ = line := by simp [h]
  rw [hline] at hget
  rcases hget with ⟨run, hrun, hmem, htext⟩
  refine ⟨run, hrun, hmem, ?_⟩
  rw [List.getElem?_eq_getElem (by omega), ← htext]
  rfl

/-- A longest stretch of lines with comments. -/
structure IsRun (page : Page) (above run below : List Line) : Prop where
  lines_eq : page.lines = above ++ (run ++ below)
  ne_nil : run ≠ []
  commented : ∀ line ∈ run, line.comment ≠ none
  above : ∀ line ∈ above.getLast?, line.comment = none
  below : ∀ line ∈ below.head?, line.comment = none

/-- A longest stretch of lines with comments is a run of the page. -/
theorem IsRun.runs_eq (h : page.IsRun above run below) :
    page.runs = (Page.mk above).runs ++ run :: (Page.mk below).runs := by
  have hrun : run.splitBy (fun a b => a.comment.isSome && b.comment.isSome) = [run] := by
    refine List.splitBy_of_isChain h.ne_nil (List.Pairwise.isChain ?_)
    refine List.pairwise_of_forall_mem_list ?_
    intro first hfirst second hsecond
    simp [Option.isSome_iff_ne_none, h.commented first hfirst, h.commented second hsecond]
  rw [runs, h.lines_eq, List.splitBy_append, List.splitBy_append, hrun]
  · rfl
  · intro _ _ line hline
    simp [h.below line hline]
  · intro line hline _ _
    simp [h.above line hline]

/-- The texts of a stretch of lines with comments. No other line has a part in
    them. -/
theorem IsRun.texts_eq (h : page.IsRun above run below) (options : Options) :
    page.texts options = (Page.mk above).texts options ++
      (run.map (fun line => line.render (column run options) options) ++
        (Page.mk below).texts options) := by
  rw [texts, h.runs_eq, List.flatMap_append, List.flatMap_cons]
  rfl

/-- Where the text of a line of such a stretch is found. -/
theorem IsRun.getElem?_texts {front back : List Line} (h : page.IsRun above run below)
    (hrun : run = front ++ line :: back) (options : Options) :
    (page.texts options)[above.length + front.length]? =
      some (line.render (column run options) options) := by
  have hlength : ((Page.mk above).texts options).length = above.length := length_texts _ options
  rw [h.texts_eq, List.getElem?_append_right (by omega), hlength, Nat.add_sub_cancel_left,
    List.getElem?_append_left (by simp [hrun]), List.getElem?_map, hrun]
  simp

/-- Every line with a comment belongs to such a stretch. -/
theorem exists_isRun (h : page.lines = above ++ line :: below) (hcomment : line.comment ≠ none) :
    ∃ front before behind back, above = front ++ before ∧ below = behind ++ back ∧
      page.IsRun front (before ++ line :: behind) back := by
  -- The neighbours are followed in both directions as long as they have comments.
  have habove : above.rdropWhile (fun line => line.comment.isSome) ++
      above.rtakeWhile (fun line => line.comment.isSome) = above :=
    List.rdropWhile_append_rtakeWhile
  have hbelow : below.takeWhile (fun line => line.comment.isSome) ++
      below.dropWhile (fun line => line.comment.isSome) = below :=
    List.takeWhile_append_dropWhile
  refine ⟨_, _, _, _, habove.symm, hbelow.symm, ?_, by simp, ?_, ?_, ?_⟩
  · rw [h, List.append_assoc, List.cons_append, hbelow, ← List.append_assoc, habove]
  · intro other hother
    rcases List.mem_append.mp hother with hmem | hmem
    · have hsome := List.mem_rtakeWhile_imp hmem
      exact Option.isSome_iff_ne_none.mp hsome
    · rcases List.mem_cons.mp hmem with rfl | hmem
      · exact hcomment
      · have hsome := List.mem_takeWhile_imp hmem
        exact Option.isSome_iff_ne_none.mp hsome
  · intro other hother
    rcases List.mem_getLast?_eq_getLast hother with ⟨hne, rfl⟩
    have hlast := List.rdropWhile_last_not _ above hne
    simpa using hlast
  · intro other hother
    rcases List.head?_eq_some_iff.mp hother with ⟨rest, hrest⟩
    have hhead := List.head_dropWhile_not (fun line : Line => line.comment.isSome) (l := below)
      (by simp [hrest])
    simpa [hrest] using hhead

/-- The texts of a page, one for each line. Comments are put behind the text of
    their lines, and in one column if they are to be aligned. -/
structure Aligned (page : Page) (options : Options) (texts : List String) : Prop where
  /-- Each text is a line of its own. -/
  render_eq : page.render options = String.join (texts.map (· ++ "\n"))
  length_eq : texts.length = page.lines.length
  oneLine : ∀ text ∈ texts, '\n' ∉ text.toList
  /-- Without a comment there is only the text of the line. -/
  bare : ∀ above line below, page.lines = above ++ line :: below → line.comment = none →
    texts[above.length]? = some (if line.isBlank then "" else line.plain)
  /-- If comments are not aligned, each follows after one space. -/
  unaligned : options.alignComments = false → ∀ above line below comment,
    page.lines = above ++ line :: below → line.comment = some comment →
      texts[above.length]? = some (line.plain ++ " " ++ "#" ++ comment)
  /-- Every line with a comment belongs to a longest stretch of such lines. -/
  covered : ∀ above line below, page.lines = above ++ line :: below → line.comment ≠ none →
    ∃ front before behind back, above = front ++ before ∧ below = behind ++ back ∧
      page.IsRun front (before ++ line :: behind) back
  /-- If comments are aligned, those of a stretch start in the same column, which
      its widest line settles. -/
  aligned : options.alignComments = true → ∀ above run below, page.IsRun above run below →
    ∃ widest, IsGreatest {width | ∃ line ∈ run, line.width = width} widest ∧
      ∀ front line back comment, run = front ++ line :: back → line.comment = some comment →
        ∃ gap, 1 ≤ gap ∧ texts[above.length + front.length]? =
            some (line.plain ++ Text.spaces gap ++ "#" ++ comment) ∧
          (line.plain ++ Text.spaces gap).length = max options.commentMinIndent (1 + widest)
  /-- The gap is the plain difference, because a line ends before the column. -/
  unclamped : options.alignComments = true → ∀ run ∈ page.runs, ∀ line ∈ run,
    line.width < column run options ∧
      line.gap (column run options) options = column run options - line.width

/-- The comments of a run start in the column that its widest line settles. -/
theorem IsRun.aligned (h : page.IsRun above run below) (hcolor : options.color = false)
    (halign : options.alignComments = true) {front back : List Line} {comment : String}
    (hrun : run = front ++ line :: back) (hcomment : line.comment = some comment) :
    ∃ gap, 1 ≤ gap ∧ (page.texts options)[above.length + front.length]? =
        some (line.plain ++ Text.spaces gap ++ "#" ++ comment) ∧
      (line.plain ++ Text.spaces gap).length =
        max options.commentMinIndent (1 + (run.map Line.width).foldl max 0) := by
  have hmem : line ∈ run := by simp [hrun]
  have hlt : line.width < column run options := width_lt_column hmem
  have hgap : line.gap (column run options) options = column run options - line.width :=
    gap_eq halign hmem
  refine ⟨line.gap (column run options) options, by omega, ?_, ?_⟩
  · rw [h.getElem?_texts hrun, Line.render_of_comment hcolor hcomment]
  · rw [String.length_append, Line.length_plain, Text.length_spaces, hgap]
    rw [column] at hlt ⊢
    omega

/-- A page without colours and line feeds has a text for each line, with the
    comments aligned. -/
theorem render_aligned (page : Page) (options : Options) (hcolor : options.color = false)
    (hlines : ∀ line ∈ page.lines, line.OneLine) : page.Aligned options (page.texts options) where
  render_eq := page.render_eq options
  length_eq := page.length_texts options
  oneLine text htext := by
    rcases List.mem_flatMap.mp htext with ⟨run, hrun, hmem⟩
    rcases List.mem_map.mp hmem with ⟨line, hline, rfl⟩
    have hpage : line ∈ page.runs.flatten := List.mem_flatten_of_mem hrun hline
    rw [runs, List.flatten_splitBy] at hpage
    exact Line.oneLine_render hcolor (hlines line hpage) _
  bare above line below h hcomment := by
    rcases exists_text h options with ⟨run, -, -, htext⟩
    rw [htext, Line.render_of_no_comment hcolor hcomment]
  unaligned halign above line below comment h hcomment := by
    rcases exists_text h options with ⟨run, -, -, htext⟩
    rw [htext, Line.render_of_comment hcolor hcomment, Line.gap, if_neg (by simp [halign])]
    rfl
  covered above line below h hcomment := exists_isRun h hcomment
  aligned halign above run below h := by
    refine ⟨_, isGreatest_widest h.ne_nil, ?_⟩
    intro front line back comment hrun hcomment
    exact h.aligned hcolor halign hrun hcomment
  unclamped halign run hrun line hline := ⟨width_lt_column hline, gap_eq halign hline⟩

/-- Two lines with comments, two without, and one that is only a comment. -/
def mixedSample : Page :=
  ⟨[{ indent := 2, segments := [⟨"é", .keyword⟩, ⟨" x", .plain⟩], comment := some " a" },
    { indent := 4, segments := [⟨"longer", .plain⟩], comment := some " b" },
    Line.blank,
    Line.single 0 "the longest line" .plain,
    { comment := some " c" }]⟩

/-- The first two comments share a column, which the longest line has no part
    in. -/
theorem render_aligned_sample :
    (∀ line ∈ mixedSample.lines, line.OneLine) ∧
      mixedSample.Aligned { commentMinIndent := 3 } (mixedSample.texts { commentMinIndent := 3 }) ∧
      mixedSample.texts { commentMinIndent := 3 } =
        ["  é x      # a", "    longer # b", "", "the longest line", "   # c"] := by
  have hlines : ∀ line ∈ mixedSample.lines, line.OneLine := by
    intro line hline
    simp only [mixedSample, List.mem_cons, List.not_mem_nil, or_false] at hline
    rcases hline with rfl | rfl | rfl | rfl | rfl
    all_goals exact ⟨by simp [Line.blank, Line.single], by simp [Line.blank, Line.single]⟩
  exact ⟨hlines, render_aligned mixedSample _ rfl hlines, by decide +kernel⟩

end Page

end Layout

end Gherkin
