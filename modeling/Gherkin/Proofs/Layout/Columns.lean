import Mathlib.Algebra.GroupWithZero.Nat
import Mathlib.Data.List.Fold
import Gherkin.Layout.Canonical
import Gherkin.Proofs.Grammar.Letters
import Gherkin.Proofs.Layout.Alignment

/-!
# Columns of a Table

The rows of a table are printed one by one, each from its own cells and the
widths of the columns, and yet their borders come to stand below each other.
They do because a printed cell is as wide as its column and two spaces more,
whatever the cell holds and on whichever side it is padded. So where a border
stands depends on the columns before it and not on the row.

For this every cell needs a column that is wide enough. The widths of a table
are the greatest lengths in its columns, also where rows are shorter than
others, so the rows of the table itself always fit.

A row is printed as a border and then each cell with the border behind it. To
cut a row at one of its borders it is better to take each cell with the border
before it and to have one border left at the end; `opened` is this other form.

Which side a cell is padded on depends on whether it looks like a number.
`numeral` says which texts do, as a language, and not how they are found.

## Main definitions

* `numeral`: The texts that look like a number.
* `border`: The column in which a border stands.
* `Fits`: Every cell of a row has a column that is wide enough.
* `InColumns`: A printed row has its cells between borders.
* `LinesUp`: The columns of a table line up.

## Theorems

* `isNumeric_iff`: Whether a cell looks like a number.
* `length_widths`, `isGreatest_width`: How many columns a table has, and how
  wide they are.
* `fits_of_mem`: The rows of a table fit into its columns.
* `Fits.inColumns`: A row whose cells fit is printed in columns.
* `table_linesUp`: The columns of every table line up.
-/

namespace Gherkin

namespace Layout

open scoped Computability

section Numbers

/-- At least one digit. -/
def digits : Language Char :=
  letter (fun c => Text.isDecimalDigit c = true) * (letter (fun c => Text.isDecimalDigit c = true))∗

/-- What may follow the first digits of a number: nothing, or a point or comma
    and further digits. -/
def fraction : Language Char :=
  1 + letter (fun c => c = '.' ∨ c = ',') * digits

/-- The texts that look like a number. -/
def numeral : Language Char :=
  (1 + letter (fun c => c = '+' ∨ c = '-')) * (digits * fraction)

variable {cs rest : List Char} {c : Char}

theorem mem_digits : cs ∈ digits ↔ cs ≠ [] ∧ ∀ c ∈ cs, Text.isDecimalDigit c = true := by
  cases cs with
  | nil => simp [digits]
  | cons c rest => simp [digits, mem_kstar_letter]

/-- Neither a sign nor a point nor a comma is a digit. -/
theorem not_digit (h : c = '+' ∨ c = '-' ∨ c = '.' ∨ c = ',') : Text.isDecimalDigit c = false := by
  rcases h with rfl | rfl | rfl | rfl <;> decide +kernel

theorem mem_fraction : cs ∈ fraction ↔ isFraction cs = true := by
  cases cs with
  | nil =>
      rw [fraction, Language.mem_add]
      simp [isFraction]
  | cons c rest =>
      rw [fraction, Language.mem_add, cons_mem_letter_mul, mem_digits]
      simp [isFraction, and_assoc]

/-- Digits are read as long as there are any. -/
theorem mem_kstar_digit_mul_fraction :
    cs ∈ (letter (fun c => Text.isDecimalDigit c = true))∗ * fraction ↔
      isFraction (cs.dropWhile Text.isDecimalDigit) = true := by
  induction cs with
  | nil => rw [nil_mem_kstar_mul, mem_fraction, List.dropWhile_nil]
  | cons c rest ih =>
      rw [cons_mem_kstar_letter_mul, ih, mem_fraction]
      by_cases hdigit : Text.isDecimalDigit c = true
      · -- A digit is not where a fraction begins.
        have hno : isFraction (c :: rest) = false := by
          by_contra hyes
          rw [Bool.not_eq_false, isFraction, Bool.and_eq_true, Bool.and_eq_true] at hyes
          have hpoint : c = '.' ∨ c = ',' := by simpa using hyes.1.1
          rw [not_digit (Or.inr (Or.inr hpoint))] at hdigit
          exact absurd hdigit Bool.false_ne_true
        rw [List.dropWhile_cons_of_pos hdigit]
        simp [hno, hdigit]
      · rw [List.dropWhile_cons_of_neg hdigit]
        simp [hdigit]

theorem mem_digits_mul_fraction :
    cs ∈ digits * fraction ↔ (cs.takeWhile Text.isDecimalDigit).isEmpty = false ∧
      isFraction (cs.dropWhile Text.isDecimalDigit) = true := by
  rw [digits, mul_assoc]
  cases cs with
  | nil => simp
  | cons c rest =>
      rw [cons_mem_letter_mul, mem_kstar_digit_mul_fraction]
      by_cases hdigit : Text.isDecimalDigit c = true
      · simp [hdigit]
      · simp [hdigit]

/-- A cell looks like a number if it is an optional sign, digits, and an
    optional fraction. -/
theorem isNumeric_iff (cell : String) : isNumeric cell = true ↔ cell.toList ∈ numeral := by
  -- A sign is no digit, so at most one of the two forms of a number is left.
  have hsign : ∀ c rest, c = '+' ∨ c = '-' → c :: rest ∉ digits * fraction := by
    intro c rest hc hmem
    rw [digits, mul_assoc, cons_mem_letter_mul] at hmem
    have hno : Text.isDecimalDigit c = false := not_digit (by rcases hc with h | h <;> simp [h])
    exact absurd hmem.1 (by simp [hno])
  rw [numeral, add_mul, one_mul, Language.mem_add, isNumeric, Bool.and_eq_true,
    Bool.not_eq_true']
  cases hcs : cell.toList with
  | nil => simp [mem_digits_mul_fraction]
  | cons c rest =>
      rw [cons_mem_letter_mul]
      by_cases hc : c = '+' ∨ c = '-'
      · have hno := hsign c rest hc
        rcases hc with rfl | rfl
        · simp [hno, mem_digits_mul_fraction]
        · simp [hno, mem_digits_mul_fraction]
      · rw [or_iff_left (fun h => hc h.1), mem_digits_mul_fraction]
        rw [not_or] at hc
        simp [hc.1, hc.2]

end Numbers

section Widths

variable {table : Table} {row : Row} {cell : String} {i width : Nat}

theorem length_widen (as bs : List Nat) : (widen as bs).length = max as.length bs.length := by
  fun_induction widen as bs with
  | case1 => simp
  | case2 => simp
  | case3 a as b bs ih => simp [ih]

theorem getElem?_widen (as bs : List Nat) (i : Nat) :
    (widen as bs)[i]? = Option.merge max as[i]? bs[i]? := by
  fun_induction widen as bs generalizing i with
  | case1 => simp
  | case2 => simp
  | case3 a as b bs ih =>
      cases i with
      | zero => simp
      | succ i => simpa using ih i

theorem widths_cons (first : Row) (rest : List Row) :
    widths ⟨first :: rest⟩ = widen (first.cells.map String.length) (widths ⟨rest⟩) := rfl

/-- There are as many widths as the longest row has cells. -/
theorem length_widths (table : Table) : (widths table).length = table.columns := by
  rcases table with ⟨rows⟩
  rw [Table.columns, List.foldl_eq_foldr]
  induction rows with
  | nil => rfl
  | cons first rest ih =>
      rw [List.map_cons, List.foldr_cons, ← ih, widths_cons, length_widen, List.length_map]

/-- Every cell of a table has a column, and one that is wide enough. -/
theorem exists_width (hrow : row ∈ table.rows) (hcell : row.cells[i]? = some cell) :
    ∃ width, (widths table)[i]? = some width ∧ cell.length ≤ width := by
  rcases table with ⟨rows⟩
  induction rows with
  | nil => exact absurd hrow (by simp)
  | cons first rest ih =>
      rw [widths_cons, getElem?_widen, List.getElem?_map]
      rcases List.mem_cons.mp hrow with rfl | hmem
      · rw [hcell, Option.map_some]
        cases (widths ⟨rest⟩)[i]? with
        | none => exact ⟨_, rfl, Nat.le_refl _⟩
        | some other => exact ⟨_, rfl, Nat.le_max_left _ _⟩
      · rcases ih hmem with ⟨width, hwidth, hle⟩
        rw [hwidth]
        cases first.cells[i]? with
        | none => exact ⟨_, rfl, hle⟩
        | some other => exact ⟨_, rfl, Nat.le_trans hle (Nat.le_max_right _ _)⟩

/-- No column is wider than all of its cells. -/
theorem exists_widest (h : (widths table)[i]? = some width) :
    ∃ row ∈ table.rows, ∃ cell, row.cells[i]? = some cell ∧ cell.length = width := by
  rcases table with ⟨rows⟩
  induction rows with
  | nil => exact absurd h (by simp [widths])
  | cons first rest ih =>
      rw [widths_cons, getElem?_widen, List.getElem?_map] at h
      -- The wider of two columns is one of them.
      rcases Option.merge_eq_or_eq Std.MaxEqOr.max_eq_or (first.cells[i]?.map String.length)
        (widths ⟨rest⟩)[i]? with hfirst | hrest
      · rw [hfirst, Option.map_eq_some_iff] at h
        rcases h with ⟨cell, hcell, hlength⟩
        exact ⟨first, List.mem_cons_self, cell, hcell, hlength⟩
      · rw [hrest] at h
        rcases ih h with ⟨row, hrow, hfound⟩
        exact ⟨row, List.mem_cons_of_mem first hrow, hfound⟩

/-- Every cell of a table has a column. -/
theorem length_le_widths (h : row ∈ table.rows) : row.cells.length ≤ (widths table).length := by
  by_contra hlt
  have hcell : row.cells[(widths table).length]? = some (row.cells[(widths table).length]) :=
    List.getElem?_eq_getElem (by omega)
  rcases exists_width h hcell with ⟨width, hwidth, -⟩
  simp at hwidth

end Widths

section Rows

variable {ws : List Nat} {cells : List String} {pairs : List (Nat × String)} {indent k width : Nat}
  {cell : String}

/-- The column in which the border before a cell stands. -/
def border (ws : List Nat) (indent k : Nat) : Nat :=
  indent + ((ws.take k).map (· + 3)).sum

theorem border_succ (h : ws[k]? = some width) :
    border ws indent (k + 1) = border ws indent k + 1 + (width + 2) := by
  rw [border, border, List.take_add_one, h]
  simp only [Option.toList_some, List.map_append, List.map_cons, List.map_nil, List.sum_append,
    List.sum_cons, List.sum_nil]
  omega

/-- Whether every cell has a column, and one that is wide enough. -/
structure Fits (ws : List Nat) (cells : List String) : Prop where
  columns : cells.length ≤ ws.length
  wide : ∀ pair ∈ ws.zip cells, pair.2.length ≤ pair.1

/-- The rows of a table fit into its columns. -/
theorem fits_of_mem {table : Table} {row : Row} (h : row ∈ table.rows) :
    Fits (widths table) row.cells := by
  refine ⟨length_le_widths h, ?_⟩
  intro pair hpair
  rcases List.mem_iff_getElem?.mp hpair with ⟨i, hi⟩
  rcases List.getElem?_zip_eq_some.mp hi with ⟨hwidth, hcell⟩
  rcases exists_width h hcell with ⟨width, hsame, hle⟩
  rw [hwidth, Option.some.injEq] at hsame
  rw [hsame]
  exact hle

theorem length_padded (h : cell.length ≤ width) : (padded width cell).length = width + 2 := by
  have hspace : " ".length = 1 := rfl
  unfold padded
  split
  · simp only [String.length_append, Text.length_spaces, hspace]
    omega
  · simp only [String.length_append, Text.length_spaces, hspace]
    omega

/-- Cells in their columns, each behind a border. -/
def opened (pairs : List (Nat × String)) : List Char :=
  pairs.flatMap (fun pair => '|' :: (padded pair.1 pair.2).toList)

theorem length_opened (h : ∀ pair ∈ pairs, pair.2.length ≤ pair.1) :
    (opened pairs).length = ((pairs.map Prod.fst).map (· + 3)).sum := by
  induction pairs with
  | nil => rfl
  | cons pair rest ih =>
      have hpair := length_padded (h pair List.mem_cons_self)
      have hrest := ih (fun other hother => h other (List.mem_cons_of_mem pair hother))
      rw [opened] at hrest ⊢
      simp only [List.flatMap_cons, List.length_append, List.length_cons, List.map_cons,
        List.sum_cons, String.length_toList, hpair, hrest]

/-- A row is its cells, each behind a border, and the last border. -/
theorem toList_plain_rowLine (ws : List Nat) (indent : Nat) (cells : List String) :
    (rowLine ws indent cells).plain.toList =
      List.replicate indent ' ' ++ (opened (ws.zip cells) ++ ['|']) := by
  have hturn : ∀ pairs : List (Nat × String),
      '|' :: (pairs.map (fun pair => (padded pair.1 pair.2).toList)).flatMap (· ++ ['|']) =
        opened pairs ++ ['|'] := by
    intro pairs
    induction pairs with
    | nil => rfl
    | cons pair rest ih =>
        rw [opened] at ih ⊢
        simp only [List.map_cons, List.flatMap_cons, List.append_assoc, List.cons_append,
          List.nil_append, ih]
  have hchars := rowLine_chars ws indent cells
  rw [hturn, Line.chars] at hchars
  rw [Line.plain, String.toList_append, String.toList_join, List.flatMap_map, hchars,
    Text.toList_spaces]
  rfl

/-- A row up to one of its borders, and from there on. -/
theorem Fits.plain_split (h : Fits ws cells) (indent : Nat) (hk : k ≤ cells.length) :
    ∃ before, before.length = border ws indent k ∧ (rowLine ws indent cells).plain.toList =
      before ++ (opened ((ws.zip cells).drop k) ++ ['|']) := by
  refine ⟨List.replicate indent ' ' ++ opened ((ws.zip cells).take k), ?_, ?_⟩
  · have hcolumns := h.columns
    have hfst : ((ws.zip cells).take k).map Prod.fst = ws.take k := by
      rw [List.zip, List.take_zipWith]
      exact List.map_fst_zip (by rw [List.length_take, List.length_take]; omega)
    rw [List.length_append, List.length_replicate,
      length_opened (fun pair hpair => h.wide pair (List.mem_of_mem_take hpair)), hfst, border]
  · rw [toList_plain_rowLine, List.append_assoc, ← List.append_assoc (opened _), opened, opened,
      opened, ← List.flatMap_append, List.take_append_drop]

/-- A cell between spaces, of which there is a single one on the right if the
    cell looks like a number, and on the left if not. -/
def Pushed (cell : String) (cs : List Char) : Prop :=
  ∃ left right, cs = List.replicate left ' ' ++ cell.toList ++ List.replicate right ' ' ∧
    1 ≤ left ∧ 1 ≤ right ∧ if isNumeric cell then right = 1 else left = 1

/-- A text that has all cells of a row between borders, and nothing else behind
    its indentation. -/
structure InColumns (ws : List Nat) (indent : Nat) (cells : List String) (text : String) :
    Prop where
  margin : text.toList.take indent = List.replicate indent ' '
  bars : ∀ k ≤ cells.length, text.toList[border ws indent k]? = some '|'
  held : ∀ k cell, cells[k]? = some cell →
    Pushed cell (text.toList.extract (border ws indent k + 1) (border ws indent (k + 1)))
  /-- The last border is the last character. -/
  length_eq : text.length = border ws indent cells.length + 1

theorem Fits.bar (h : Fits ws cells) (indent : Nat) (hk : k ≤ cells.length) :
    (rowLine ws indent cells).plain.toList[border ws indent k]? = some '|' := by
  rcases h.plain_split indent hk with ⟨before, hbefore, hplain⟩
  rw [hplain, ← hbefore, List.getElem?_append_right (Nat.le_refl _), Nat.sub_self]
  cases (ws.zip cells).drop k with
  | nil => rfl
  | cons pair rest => rfl

/-- Between two borders stands the cell, padded to the width of its column. -/
theorem Fits.extract_plain (h : Fits ws cells) (indent : Nat) (hwidth : ws[k]? = some width)
    (hcell : cells[k]? = some cell) :
    (rowLine ws indent cells).plain.toList.extract (border ws indent k + 1)
      (border ws indent (k + 1)) = (padded width cell).toList := by
  have hpair : (ws.zip cells)[k]? = some (width, cell) :=
    List.getElem?_zip_eq_some.mpr ⟨hwidth, hcell⟩
  have hlength : (padded width cell).toList.length = width + 2 := by
    rw [String.length_toList, length_padded (h.wide _ (List.mem_of_getElem? hpair))]
  rcases List.getElem?_eq_some_iff.mp hcell with ⟨hk, -⟩
  rcases List.getElem?_eq_some_iff.mp hpair with ⟨hlt, hget⟩
  rcases h.plain_split indent (Nat.le_of_lt hk) with ⟨before, hbefore, hplain⟩
  have hdrop : opened ((ws.zip cells).drop k) = '|' :: ((padded width cell).toList ++
      opened ((ws.zip cells).drop (k + 1))) := by
    rw [List.drop_eq_getElem_cons hlt, hget, opened, List.flatMap_cons]
    rfl
  -- The padded cell is as long as the gap to the next border.
  rw [border_succ hwidth, List.extract_eq_take_drop, Nat.add_sub_cancel_left, hplain, hdrop,
    ← hbefore, ← hlength]
  simp

theorem Fits.held (h : Fits ws cells) (indent : Nat) (hcell : cells[k]? = some cell) :
    Pushed cell ((rowLine ws indent cells).plain.toList.extract (border ws indent k + 1)
      (border ws indent (k + 1))) := by
  rcases List.getElem?_eq_some_iff.mp hcell with ⟨hk, -⟩
  have hcolumns := h.columns
  have hwidth : ws[k]? = some ws[k] := List.getElem?_eq_getElem (by omega)
  rw [h.extract_plain indent hwidth hcell]
  exact padded_toList ws[k] cell

/-- A row whose cells fit is printed in columns. -/
theorem Fits.inColumns (h : Fits ws cells) (indent : Nat) :
    InColumns ws indent cells (rowLine ws indent cells).plain where
  margin := by
    rw [toList_plain_rowLine, List.take_left' (List.length_replicate)]
  bars k hk := h.bar indent hk
  held k cell hcell := h.held indent hcell
  length_eq := by
    rcases h.plain_split indent (Nat.le_refl cells.length) with ⟨before, hbefore, hplain⟩
    have hnone : (ws.zip cells).drop cells.length = [] := by
      rw [List.drop_eq_nil_iff, List.length_zip]
      exact Nat.min_le_right _ _
    rw [← String.length_toList, hplain, hnone, List.length_append, hbefore]
    rfl

/-- A row by itself. -/
theorem render_rowLine (ws : List Nat) (indent : Nat) (cells : List String) {options : Options}
    (hcolor : options.color = false) :
    (Page.mk [rowLine ws indent cells]).render options =
      (rowLine ws indent cells).plain ++ "\n" := by
  have hcomment : (rowLine ws indent cells).comment = none := rfl
  have hblank : (rowLine ws indent cells).isBlank = false := by simp [Line.isBlank, rowLine]
  have htexts : (Page.mk [rowLine ws indent cells]).texts options =
      [(rowLine ws indent cells).plain] := by
    simp [Page.texts, Page.runs, List.splitBy, List.splitBy.loop,
      Line.render_of_no_comment hcolor hcomment, hblank]
  rw [Page.render_eq, htexts]
  simp [String.join]

theorem oneLine_rowLine (ws : List Nat) (indent : Nat) (h : ∀ cell ∈ cells, '\n' ∉ cell.toList) :
    (rowLine ws indent cells).OneLine := by
  refine ⟨?_, by simp [rowLine]⟩
  intro segment hsegment
  rcases List.mem_cons.mp hsegment with rfl | hmem
  · decide
  · rcases List.mem_flatMap.mp hmem with ⟨pair, hpair, hpiece⟩
    simp only [List.mem_cons, List.not_mem_nil, or_false] at hpiece
    rcases hpiece with rfl | rfl
    · have hcell := h pair.2 (List.of_mem_zip hpair).2
      rcases padded_toList pair.1 pair.2 with ⟨left, right, hpadded, -⟩
      simp [hpadded, hcell]
    · decide

end Rows

section Tables

variable {table : Table}

/-- The lengths of the cells of a column. -/
def columnLengths (table : Table) (i : Nat) : Set Nat :=
  {length | ∃ row ∈ table.rows, ∃ cell, row.cells[i]? = some cell ∧ cell.length = length}

/-- The columns of a table line up in all of its rows. -/
structure LinesUp (table : Table) : Prop where
  count : (widths table).length = table.columns
  widest : ∀ i width, (widths table)[i]? = some width → IsGreatest (columnLengths table i) width
  /-- Each row by itself is a line in columns. -/
  rows : ∀ row ∈ table.rows, ∀ indent options, options.color = false →
    ∃ text, (Page.mk [rowLine (widths table) indent row.cells]).render options = text ++ "\n" ∧
      InColumns (widths table) indent row.cells text ∧
      ((∀ cell ∈ row.cells, '\n' ∉ cell.toList) → '\n' ∉ text.toList)
  /-- Rows with equally many cells are equally long. -/
  level : ∀ row ∈ table.rows, ∀ other ∈ table.rows, row.cells.length = other.cells.length →
    ∀ indent options, options.color = false →
      ((Page.mk [rowLine (widths table) indent row.cells]).render options).length =
        ((Page.mk [rowLine (widths table) indent other.cells]).render options).length

theorem isGreatest_width {i width : Nat} (h : (widths table)[i]? = some width) :
    IsGreatest (columnLengths table i) width := by
  refine ⟨exists_widest h, ?_⟩
  intro length hlength
  rcases hlength with ⟨row, hrow, cell, hcell, rfl⟩
  rcases exists_width hrow hcell with ⟨other, hother, hle⟩
  rw [h, Option.some.injEq] at hother
  rw [hother]
  exact hle

/-- The columns of every table line up, with the cells that look like numbers on
    the right. -/
theorem table_linesUp (table : Table) :
    LinesUp table ∧ ∀ cell, isNumeric cell = true ↔ cell.toList ∈ numeral := by
  refine ⟨⟨length_widths table, fun i width => isGreatest_width, ?_, ?_⟩, isNumeric_iff⟩
  · intro row hrow indent options hcolor
    refine ⟨_, render_rowLine _ indent row.cells hcolor, (fits_of_mem hrow).inColumns indent, ?_⟩
    intro hcells
    exact Line.oneLine_plain (oneLine_rowLine _ indent hcells)
  · intro row hrow other hother hcount indent options hcolor
    have hlength := ((fits_of_mem hrow).inColumns indent).length_eq
    have hlength' := ((fits_of_mem hother).inColumns indent).length_eq
    rw [render_rowLine _ _ _ hcolor, render_rowLine _ _ _ hcolor, String.length_append,
      String.length_append, hlength, hlength', hcount]

-- Numbers stand on the right of their columns, and a row may be short.
example :
    let table : Table :=
      ⟨[⟨["é", "op", "b"], {}⟩, ⟨["2", "+"], {}⟩, ⟨["30", "", "+4,5"], {}⟩]⟩
    table.rows.map (fun row => (rowLine (widths table) 1 row.cells).render 0 {}) =
      [" | é  | op | b    |", " |  2 | +  |", " | 30 |    | +4,5 |"] := by
  decide +kernel

end Tables

end Layout

end Gherkin
