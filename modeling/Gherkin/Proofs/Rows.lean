import Gherkin.Proofs.Spans
import Gherkin.Proofs.Reader.Padding
import Gherkin.Proofs.Text.Cutting

/-!
# Rows and Their Bars

A row is cut at its bars and at nothing else. What stands before the first bar
is its indentation, what stands between one bar and the next is a cell, and
what stands behind the last is the end of the line. Bars are looked for before
anything else, so a comment sign in front of the last bar is text of a cell,
and a comment behind the last bar holds none.

Cutting is what the library's `splitOn` does, so a row is described by it. The
scanner collects cells from the front and keeps for each what is left of the
line where its text begins. `scanCells_cut` says which rest that is, and with
it the offset of a cell is the width of all that stands before it.

## Main definitions

* `IsRow`: The text of a row, cut at its bars.
* `RowEvents`: The events of a row agree with what its bars cut it into.

## Theorems

* `scanCells_cut`: A cell and what is left of the line where it begins.
* `scanRow_eq_ok_iff`: A row is opened by a bar.
* `IsRow.reads`: A row that is cut so is read.
* `exists_isRow`: A row that is read is cut so.
* `readRow_exact`: The reader takes exactly the rows, for what they are.
-/

namespace Gherkin

open Reader
open Source (Line At)

/-- The text of a row, cut at its bars: the indentation, the pieces that bars
    close, of which there is at least one, and the end of the line. -/
structure IsRow (text gap : List Char) (pieces : List (List Char)) (tail : List Char) :
    Prop where
  cut : text.splitOn '|' = gap :: pieces ++ [tail]
  closed : pieces ≠ []
  indented : ∀ c ∈ gap, Text.isBlank c = true
  ends : AtEnd tail

/-- The events of a row agree with what its bars cut it into. Cells are the
    pieces in order, without the blanks around them, and each covers its text
    where that stands; a comment is what follows its sign. -/
structure RowEvents (source : String) (line : Line) (gap : List Char)
    (pieces : List (List Char)) (tail : List Char) (cells comment : List Event) : Prop where
  length : cells.length = pieces.length
  cell : ∀ i piece, pieces[i]? = some piece → ∃ event, cells[i]? = some event ∧
    event.kind = .cell (String.ofList (Text.trim Text.isBlank piece)) ∧
    event.span.slice? source = some (String.ofList (Text.trim Text.isBlank piece)) ∧
    event.span.start = line.start + Text.width (gap ++ '|' ::
      ((pieces.take i).flatMap (· ++ ['|']) ++ piece.takeWhile Text.isBlank))
  comment : (comment = [] ∧ ∀ c ∈ tail, Text.isBlank c = true) ∨
    ∃ blanks rest, tail = blanks ++ '#' :: rest ∧ (∀ c ∈ blanks, Text.isBlank c = true) ∧
      '|' ∉ rest ∧ comment = [⟨.comment (String.ofList (Text.dropTrailing Text.isSpace rest)) true,
        ⟨line.offsetOf ('#' :: rest), line.stop⟩⟩]

/-- Pieces that bars close are the cells, and the one more is what follows
    them. -/
theorem scanCells_bars {pieces : List (List Char)} {tail : List Char}
    (h : ∀ piece ∈ pieces ++ [tail], '|' ∉ piece) :
    (scanCells [] (pieces.flatMap (· ++ ['|']) ++ tail)).1.map Cell.text =
        pieces.map (Text.trim Text.isBlank) ∧
      (scanCells [] (pieces.flatMap (· ++ ['|']) ++ tail)).2 = tail := by
  refine scanCells_pieces pieces tail ?_ ?_
  · rintro piece hpiece _ hc rfl
    exact h piece (List.mem_append_left [tail] hpiece) hc
  · rintro _ hc rfl
    exact h tail (by simp) hc

/-- A cell and what is left of the line where it begins: what stands before it
    does not matter. -/
theorem scanCells_cut {before : List (List Char)} {piece : List Char}
    (after : List (List Char)) (tail : List Char) (h : ∀ q ∈ before ++ [piece], '|' ∉ q) :
    (scanCells [] ((before ++ piece :: after).flatMap (· ++ ['|']) ++ tail)).1[before.length]? =
      some (Cell.between piece ('|' :: (after.flatMap (· ++ ['|']) ++ tail))) := by
  have hbar : ∀ q ∈ before ++ [piece], ∀ c ∈ q, c ≠ '|' := by
    rintro q hq _ hc rfl
    exact h q hq hc
  clear h
  induction before with
  | nil =>
      have hcs : ([] ++ piece :: after).flatMap (· ++ ['|']) ++ tail =
          piece ++ '|' :: (after.flatMap (· ++ ['|']) ++ tail) := by simp
      rw [hcs, scanCells_bar [] piece _ (hbar piece (by simp))]
      rfl
  | cons first more ih =>
      have hcs : (first :: more ++ piece :: after).flatMap (· ++ ['|']) ++ tail =
          first ++ '|' :: ((more ++ piece :: after).flatMap (· ++ ['|']) ++ tail) := by simp
      rw [hcs, scanCells_bar [] first _ (hbar first (by simp)), List.length_cons,
        List.getElem?_cons_succ]
      exact ih (fun q hq => hbar q (List.mem_cons_of_mem first hq))

/-- A row is read when a bar opens it and what follows the bar is read. -/
theorem scanRow_eq_ok_iff {text : List Char} {cells : List Cell} {remark : Option Remark} :
    scanRow text = .ok (cells, remark) ↔
      ∃ rest, Text.skipBlanks text = '|' :: rest ∧ scanRowBody rest = .ok (cells, remark) := by
  unfold scanRow
  split
  · rename_i rest hrest
    simp only [hrest, List.cons.injEq, true_and, exists_eq_left']
  · rename_i hbar
    constructor
    · exact fun h => absurd h (by simp only [reduceCtorEq, not_false_eq_true])
    · rintro ⟨rest, hrest, -⟩
      exact absurd hrest (hbar rest)

namespace IsRow

variable {text gap tail : List Char} {pieces : List (List Char)}

/-- A row, put together. -/
theorem text_eq (h : IsRow text gap pieces tail) :
    text = gap ++ '|' :: (pieces.flatMap (· ++ ['|']) ++ tail) ∧
      ∀ piece ∈ gap :: pieces ++ [tail], '|' ∉ piece := by
  rcases Text.splitOn_iff.mp h.cut with ⟨htext, hbars⟩
  exact ⟨by rw [htext]; simp, hbars⟩

/-- The first bar is what the line begins with behind its indentation. -/
theorem skipBlanks (h : IsRow text gap pieces tail) :
    Text.skipBlanks text = '|' :: (pieces.flatMap (· ++ ['|']) ++ tail) := by
  rw [h.text_eq.1, Text.skipBlanks_append gap _ h.indented, Text.skipBlanks_cons _ _ (by decide)]

/-- A row has one bar more than it has pieces. -/
theorem count_eq (h : IsRow text gap pieces tail) : text.count '|' = pieces.length + 1 := by
  rcases h.text_eq with ⟨htext, hbars⟩
  have hgap : gap.count '|' = 0 := List.count_eq_zero.mpr (hbars gap (by simp))
  have hrest := Text.count_closed (fun piece hp => hbars piece (List.mem_cons_of_mem gap hp))
  rw [htext, List.count_append, hgap, List.count_cons_self, hrest, Nat.zero_add]

/-- A row that is cut so is read, and its cells are those of the scanner. -/
theorem reads (h : IsRow text gap pieces tail) : ∃ remark,
    scanRow text =
        .ok ((scanCells [] (pieces.flatMap (· ++ ['|']) ++ tail)).1, remark) ∧
      scanEnd tail = .ok remark := by
  rcases h.text_eq with ⟨-, hbars⟩
  rcases scanCells_bars (fun piece hp => hbars piece (List.mem_cons_of_mem gap hp)) with
    ⟨hcells, hrest⟩
  rcases (scanEnd_isOk_iff tail).mpr h.ends with ⟨remark, hend⟩
  refine ⟨remark, ?_, hend⟩
  rw [scanRow_eq_ok_iff]
  refine ⟨_, h.skipBlanks, ?_⟩
  rw [scanRowBody_eq_ok_iff, hrest]
  refine ⟨rfl, fun hnone => ?_, hend⟩
  rw [hnone, List.map_nil] at hcells
  exact h.closed (List.map_eq_nil_iff.mp hcells.symm)

end IsRow

/-- A row that is read is cut at its bars. -/
theorem exists_isRow {text : List Char} {cells : List Cell} {remark : Option Remark}
    (h : scanRow text = .ok (cells, remark)) : ∃ gap pieces tail, IsRow text gap pieces tail := by
  rcases scanRow_eq_ok_iff.mp h with ⟨rest, hrest, hscan⟩
  rcases Text.exists_skipBlanks text with ⟨gap, hgap, htext⟩
  rcases Text.exists_closed '|' rest with ⟨pieces, tail, rfl, hbars⟩
  rcases scanRowBody_eq_ok_iff.mp hscan with ⟨hcells, hne, hend⟩
  rcases scanCells_bars hbars with ⟨htexts, hlast⟩
  refine ⟨gap, pieces, tail, ?_, ?_, hgap, ?_⟩
  · rw [Text.splitOn_iff]
    refine ⟨by rw [htext, hrest]; simp, ?_⟩
    rintro piece hpiece hbar
    rcases List.mem_cons.mp hpiece with rfl | hpiece
    -- A bar is no blank, so the indentation holds none.
    · exact absurd (hgap '|' hbar) (by decide)
    · exact hbars piece hpiece hbar
  · rintro rfl
    rw [hcells, List.map_nil, List.map_eq_nil_iff] at htexts
    exact hne htexts
  · rw [hlast] at hend
    exact (scanEnd_isOk_iff tail).mp ⟨remark, hend⟩

section Events

variable {source : String} {line : Line} {gap tail : List Char} {pieces : List (List Char)}

/-- A cell covers its text, where that stands on the line. -/
theorem IsRow.cell_event (h : IsRow line.text gap pieces tail)
    (hline : line ∈ Source.lines source) {i : Nat} {piece : List Char}
    (hpiece : pieces[i]? = some piece) : ∃ cell,
    (scanCells [] (pieces.flatMap (· ++ ['|']) ++ tail)).1[i]? = some cell ∧
      cell.text = Text.trim Text.isBlank piece ∧
      (line.cellEvent cell).span.slice? source =
        some (String.ofList (Text.trim Text.isBlank piece)) ∧
      (line.cellEvent cell).span.start = line.start + Text.width (gap ++ '|' ::
        ((pieces.take i).flatMap (· ++ ['|']) ++ piece.takeWhile Text.isBlank)) := by
  rcases h.text_eq with ⟨htext, hbars⟩
  rcases List.getElem?_eq_some_iff.mp hpiece with ⟨hlt, hget⟩
  have hpieces : pieces = pieces.take i ++ piece :: pieces.drop (i + 1) := by
    rw [← hget, ← List.drop_eq_getElem_cons hlt, List.take_append_drop]
  have hlength : (pieces.take i).length = i := by rw [List.length_take]; omega
  have hbefore : ∀ q ∈ pieces.take i ++ [piece], '|' ∉ q := by
    intro q hq
    refine hbars q (List.mem_append_left [tail] (List.mem_cons_of_mem gap ?_))
    rcases List.mem_append.mp hq with htaken | hself
    · exact List.mem_of_mem_take htaken
    · rw [List.mem_singleton.mp hself]
      exact List.mem_of_getElem? hpiece
  have hcell := scanCells_cut (pieces.drop (i + 1)) tail hbefore
  rw [← hpieces, hlength] at hcell
  refine ⟨_, hcell, rfl, ?_⟩
  -- The line is what stands before the cell's text and what is left where that begins.
  have hplace : line.text = gap ++ '|' ::
      ((pieces.take i).flatMap (· ++ ['|']) ++ piece.takeWhile Text.isBlank) ++
      (Text.skipBlanks piece ++ '|' :: ((pieces.drop (i + 1)).flatMap (· ++ ['|']) ++ tail)) := by
    have hblanks : piece.takeWhile Text.isBlank ++ Text.skipBlanks piece = piece :=
      List.takeWhile_append_dropWhile
    nth_rewrite 1 [htext, hpieces, ← hblanks]
    simp
  have hprefix : Text.trim Text.isBlank piece <+: Text.skipBlanks piece := by
    rw [Text.trim, Text.dropTrailing_eq_rdropWhile]
    exact List.rdropWhile_prefix Text.isBlank _
  rcases Source.at_rest hline ⟨_, hplace.symm⟩ with ⟨more, hat, -, hwidth⟩
  rcases hprefix with ⟨trail, htrail⟩
  rw [← htrail, List.append_assoc, List.append_assoc] at hat
  refine ⟨?_, ?_⟩
  · have hslice := hat.slice
    rwa [← List.append_assoc, htrail] at hslice
  · have hstop : line.stop = line.start + Text.width line.text := rfl
    rw [hplace, Text.width_append, ← hwidth, ← Nat.add_assoc] at hstop
    exact Nat.add_right_cancel hstop

/-- The comment of a row is what follows its sign behind the last bar. -/
theorem IsRow.comment_event (h : IsRow line.text gap pieces tail) {remark : Option Remark}
    (hend : scanEnd tail = .ok remark) :
    (line.inlineEvents remark = [] ∧ ∀ c ∈ tail, Text.isBlank c = true) ∨
      ∃ blanks rest, tail = blanks ++ '#' :: rest ∧ (∀ c ∈ blanks, Text.isBlank c = true) ∧
        '|' ∉ rest ∧ line.inlineEvents remark =
          [⟨.comment (String.ofList (Text.dropTrailing Text.isSpace rest)) true,
            ⟨line.offsetOf ('#' :: rest), line.stop⟩⟩] := by
  rcases Text.exists_skipBlanks tail with ⟨blanks, hblanks, htail⟩
  unfold scanEnd at hend
  split at hend
  · rename_i hnone
    cases hend
    exact Or.inl ⟨rfl, Text.skipBlanks_eq_nil_iff.mp hnone⟩
  · rename_i rest hrest
    cases hend
    rw [hrest] at htail
    refine Or.inr ⟨blanks, rest, htail, hblanks, fun hbar => ?_, rfl⟩
    -- Behind the last bar there is none.
    exact h.text_eq.2 tail (by simp) (by simp [htail, hbar])
  · exact absurd hend (by simp only [reduceCtorEq, not_false_eq_true])

/-- A row begins at its first bar. -/
theorem IsRow.contentStart_eq (h : IsRow line.text gap pieces tail) :
    line.contentStart = line.start + Text.width gap := by
  have hcontent : line.content = '|' :: (pieces.flatMap (· ++ ['|']) ++ tail) := h.skipBlanks
  have hstop : line.stop = line.start + Text.width line.text := rfl
  rw [Line.contentStart, Line.offsetOf, hcontent, hstop, h.text_eq.1, Text.width_append,
    ← Nat.add_assoc, Nat.add_sub_cancel]

/-- What the reader reports of the first row of a table, once it is scanned. -/
theorem readRow_of_scan (state : State) (kind : BlockKind) (owner : Owner) {cells : List Cell}
    {remark : Option Remark} (hscan : scanRow line.text = .ok (cells, remark)) :
    ∃ next, state.readRow line kind owner none =
      .ok (state.trivia ++ ⟨.table, ⟨line.contentStart, line.stop⟩⟩ ::
        (⟨.row, ⟨line.contentStart, line.stop⟩⟩ :: cells.map line.cellEvent ++
          line.inlineEvents remark ++ [⟨.rowEnd, Span.point line.stop⟩]), next) := by
  unfold State.readRow
  rw [hscan]
  exact ⟨_, rfl⟩

/-- The events of a row that is cut so. -/
theorem IsRow.rowEvents (h : IsRow line.text gap pieces tail)
    (hline : line ∈ Source.lines source) {remark : Option Remark}
    (hend : scanEnd tail = .ok remark) :
    RowEvents source line gap pieces tail
      ((scanCells [] (pieces.flatMap (· ++ ['|']) ++ tail)).1.map line.cellEvent)
      (line.inlineEvents remark) where
  length := by
    have hbars := fun piece hp => h.text_eq.2 piece (List.mem_cons_of_mem gap hp)
    have hlength := congrArg List.length (scanCells_bars hbars).1
    simpa only [List.length_map] using hlength
  cell := by
    intro i piece hpiece
    rcases h.cell_event hline hpiece with ⟨cell, hcell, htext, hslice, hstart⟩
    refine ⟨line.cellEvent cell, ?_, ?_, hslice, hstart⟩
    · rw [List.getElem?_map, hcell, Option.map_some]
    · rw [Line.cellEvent, htext]
  comment := h.comment_event hend

/-- The reader takes a line for a row exactly when its bars cut it as they cut
    a row, and then it reports the row from the first bar on, a cell for each
    piece between two bars, and the comment behind the last bar. -/
theorem readRow_exact (hline : line ∈ Source.lines source) (state : State) (kind : BlockKind)
    (owner : Owner) :
    ((∃ outcome, state.readRow line kind owner none = .ok outcome) ↔
      ∃ gap pieces tail, IsRow line.text gap pieces tail) ∧
    ∀ gap pieces tail, IsRow line.text gap pieces tail →
      line.text.count '|' = pieces.length + 1 ∧
      ∃ cells comment next, RowEvents source line gap pieces tail cells comment ∧
        state.readRow line kind owner none =
          .ok (state.trivia ++ ⟨.table, ⟨line.start + Text.width gap, line.stop⟩⟩ ::
            (⟨.row, ⟨line.start + Text.width gap, line.stop⟩⟩ :: cells ++ comment ++
              [⟨.rowEnd, Span.point line.stop⟩]), next) := by
  refine ⟨⟨?_, ?_⟩, ?_⟩
  · rintro ⟨outcome, hread⟩
    rcases Line.scan_bind_eq_ok hread with ⟨⟨cells, remark⟩, hscan, -⟩
    exact exists_isRow hscan
  · rintro ⟨gap, pieces, tail, h⟩
    rcases h.reads with ⟨remark, hscan, -⟩
    rcases readRow_of_scan state kind owner hscan with ⟨next, hread⟩
    exact ⟨_, hread⟩
  · intro gap pieces tail h
    rcases h.reads with ⟨remark, hscan, hend⟩
    rcases readRow_of_scan state kind owner hscan with ⟨next, hread⟩
    rw [h.contentStart_eq] at hread
    exact ⟨h.count_eq, _, _, next, h.rowEvents hline hend, hread⟩

/-- A row with a comment sign in a cell, a cell without a character, a cell of
    blanks, and a comment in which a quote is left open. -/
def rowSample : String :=
  "Given x\n\t| é #1 || \t|# ü\""

/-- The second line of the sample is a row, and its events agree with it. -/
theorem readRow_exact_sample : ∃ line ∈ Source.lines rowSample,
    IsRow line.text ['\t'] [" é #1 ".toList, [], " \t".toList] "# ü\"".toList ∧
      (∃ outcome, State.readRow {} line .scenario .step none = .ok outcome) ∧
      ∃ cells comment, RowEvents rowSample line ['\t'] [" é #1 ".toList, [], " \t".toList]
        "# ü\"".toList cells comment := by
  have hline : ⟨8, "\t| é #1 || \t|# ü\"".toList, .none⟩ ∈ Source.lines rowSample := by
    decide +kernel
  have hrow : IsRow "\t| é #1 || \t|# ü\"".toList ['\t']
      [" é #1 ".toList, [], " \t".toList] "# ü\"".toList :=
    ⟨by decide +kernel, by simp, by simp [Text.isBlank], (scanEnd_isOk_iff _).mp ⟨_, rfl⟩⟩
  rcases readRow_exact hline {} .scenario .step with ⟨hiff, hevents⟩
  rcases hevents _ _ _ hrow with ⟨-, cells, comment, -, hagree, -⟩
  exact ⟨_, hline, hrow, hiff.mpr ⟨_, _, _, hrow⟩, cells, comment, hagree⟩

end Events

end Gherkin
