import Gherkin.Tree.Events
import Gherkin.Tree.Assembly
import Gherkin.Proofs.Tree.Printable

/-!
# Events of Trees That Still Grow

A document is read from the front, so at any moment only a part of its tree
is there: some steps of a block, some rows of a table. This module cuts the
events of each kind of node where the node can still grow. What has been read
of a node that is still open is its `openKinds`, and its `kinds` are these, what
was added last, and the event that closes it.

Blank lines are events too, but no tree knows them; `withoutBlanks` leaves
them out.

## Main definitions

* `withoutBlanks`: Events without those of blank lines.
* `Feature.openKinds`, `Block.openKinds`, `Step.openKinds`,
  `Examples.openKinds`, `DocString.openKinds`, `Table.openKinds`: The events of
  nodes that can still grow.

## Theorems

* `Feature.openKinds_addBlock`: A feature grows by a block.
* `Block.openKinds_addStep`: A block grows by a step.
* `Table.openKinds_addRow`: A table grows by a row.
* `Feature.descriptionLines_intercalate`: Lines of a description, joined and
  cut again.
-/

namespace Gherkin

/-- Events without those of blank lines. -/
def withoutBlanks (kinds : List EventKind) : List EventKind :=
  kinds.filter (· != .blankLine)

@[simp] theorem withoutBlanks_nil : withoutBlanks [] = [] := rfl

@[simp] theorem withoutBlanks_append (a b : List EventKind) :
    withoutBlanks (a ++ b) = withoutBlanks a ++ withoutBlanks b :=
  List.filter_append a b

@[simp] theorem withoutBlanks_cons {kind : EventKind} (rest : List EventKind)
    (h : kind ≠ .blankLine) : withoutBlanks (kind :: rest) = kind :: withoutBlanks rest := by
  simp [withoutBlanks, h]

theorem withoutBlanks_eq_self {kinds : List EventKind} (h : EventKind.blankLine ∉ kinds) :
    withoutBlanks kinds = kinds := by
  refine List.filter_eq_self.mpr (fun kind hk => ?_)
  simp only [bne_iff_ne, ne_eq]
  rintro rfl
  exact h hk

section NoBlanks

-- No tree yields the event of a blank line.

theorem withoutBlanks_map {α : Type} {f : α → EventKind} (h : ∀ a, f a ≠ .blankLine)
    (as : List α) : withoutBlanks (as.map f) = as.map f := by
  refine withoutBlanks_eq_self ?_
  intro hmem
  rcases List.mem_map.mp hmem with ⟨a, -, ha⟩
  exact h a ha

theorem withoutBlanks_flatMap {α : Type} {f : α → List EventKind}
    (h : ∀ a, withoutBlanks (f a) = f a) (as : List α) :
    withoutBlanks (as.flatMap f) = as.flatMap f := by
  induction as with
  | nil => rfl
  | cons a rest ih => rw [List.flatMap_cons, withoutBlanks_append, h a, ih]

@[simp] theorem withoutBlanks_above (comments : Comments) :
    withoutBlanks comments.above = comments.above :=
  withoutBlanks_map (by simp) _

@[simp] theorem withoutBlanks_beside (comments : Comments) :
    withoutBlanks comments.beside = comments.beside :=
  withoutBlanks_map (by simp) _

@[simp] theorem Row.withoutBlanks_kinds (row : Row) : withoutBlanks row.kinds = row.kinds := by
  simp [Row.kinds, withoutBlanks_map]

@[simp] theorem Table.withoutBlanks_kinds (grid : Table) :
    withoutBlanks grid.kinds = grid.kinds := by
  rcases grid with ⟨rows⟩
  cases rows with
  | nil => rfl
  | cons first rest => simp [Table.kinds, Table.laterKinds, withoutBlanks_flatMap]

@[simp] theorem Argument.withoutBlanks_kinds (argument : Argument) :
    withoutBlanks argument.kinds = argument.kinds := by
  cases argument with
  | none => rfl
  | docString doc => simp [Argument.kinds, DocString.kinds, withoutBlanks_map]
  | table grid => exact grid.withoutBlanks_kinds

@[simp] theorem Step.withoutBlanks_kinds (step : Step) :
    withoutBlanks step.kinds = step.kinds := by
  simp [Step.kinds]

@[simp] theorem Examples.withoutBlanks_kinds (examples : Examples) :
    withoutBlanks examples.kinds = examples.kinds := by
  by_cases h : examples.table.rows = [] <;> simp [Examples.kinds, h]

end NoBlanks

/-- The events of a block that can take another step. -/
def Block.openKinds (block : Block) (kind : BlockKind) : List EventKind :=
  block.comments.above ++ .block kind block.title block.tags :: block.comments.beside ++
    block.steps.flatMap Step.kinds

/-- The events of a step that can still be given an argument. -/
def Step.openKinds (step : Step) : List EventKind :=
  step.comments.above ++ .step step.keyword step.text step.tags :: step.comments.beside

/-- The events of examples that can still be given a table. -/
def Examples.openKinds (examples : Examples) : List EventKind :=
  examples.comments.above ++ .examples :: examples.comments.beside

/-- The events of a doc string that can take another line. -/
def DocString.openKinds (doc : DocString) : List EventKind :=
  doc.comments.above ++ .docString doc.indent :: doc.lines.map EventKind.docLine

/-- The events of a table that can take another row. -/
def Table.openKinds (first : Row) (rest : List Row) : List EventKind :=
  first.comments.above ++ .table :: first.kinds ++ Table.laterKinds rest

/-- The events of a feature that can take another block. -/
def Feature.openKinds (feature : Feature) : List EventKind :=
  feature.comments.above ++
    .feature feature.title feature.description feature.tags :: feature.comments.beside ++
    feature.background.toList.flatMap (fun block => block.kinds .background none) ++
    feature.scenarios.flatMap Scenario.kinds

@[simp] theorem Block.withoutBlanks_openKinds (block : Block) (kind : BlockKind) :
    withoutBlanks (block.openKinds kind) = block.openKinds kind := by
  simp [Block.openKinds, withoutBlanks_flatMap]

theorem Block.kinds_eq (block : Block) (kind : BlockKind) (examples : Option Examples) :
    block.kinds kind examples =
      block.openKinds kind ++ examples.toList.flatMap Examples.kinds ++ [.blockEnd kind] := rfl

theorem Step.kinds_eq (step : Step) :
    step.kinds = step.openKinds ++ step.argument.kinds ++ [.stepEnd] := rfl

theorem DocString.kinds_eq (doc : DocString) :
    doc.kinds = doc.openKinds ++ doc.comments.beside ++ [.docStringEnd] := rfl

theorem Table.kinds_eq (first : Row) (rest : List Row) :
    Table.kinds ⟨first :: rest⟩ = Table.openKinds first rest ++ [.tableEnd] := rfl

theorem Feature.kinds_eq (feature : Feature) :
    feature.kinds = feature.openKinds ++
      feature.trailing.map (EventKind.comment · false) ++ [.featureEnd] := rfl

/-- A block grows by a step. -/
theorem Block.openKinds_addStep (block : Block) (kind : BlockKind) (step : Step) :
    { block with steps := block.steps ++ [step] }.openKinds kind =
      block.openKinds kind ++ step.kinds := by
  simp [Block.openKinds]

/-- A table grows by a row. -/
theorem Table.openKinds_addRow (first row : Row) (rest : List Row) :
    Table.openKinds first (rest ++ [row]) =
      Table.openKinds first rest ++ row.comments.above ++ row.kinds := by
  simp [Table.openKinds, Table.laterKinds]

/-- A doc string grows by a line. -/
theorem DocString.openKinds_addLine (doc : DocString) (text : String) :
    { doc with lines := doc.lines ++ [text] }.openKinds = doc.openKinds ++ [.docLine text] := by
  simp [DocString.openKinds]

/-- A feature grows by a block. A background can only be added while there is
    no block yet, because its events come before those of all scenarios. -/
theorem Feature.openKinds_addBlock (feature : Feature) (o : OpenBlock)
    (hbg : o.kind = .background → feature.background = none ∧ feature.scenarios = [])
    (hex : o.kind ≠ .outline → o.examples = none) :
    (Assembly.addBlock feature o).openKinds =
      feature.openKinds ++ o.block.kinds o.kind o.examples := by
  rcases o with ⟨kind, block, examples⟩
  cases kind with
  | background =>
      -- There are no events of scenarios that this block could come behind.
      have hempty := hbg rfl
      have hnone : examples = none := hex (by simp)
      simp [Assembly.addBlock, Feature.openKinds, hempty.1, hempty.2, hnone]
  | scenario =>
      have hnone : examples = none := hex (by simp)
      simp [Assembly.addBlock, Feature.openKinds, Scenario.kinds, hnone]
  | outline => simp [Assembly.addBlock, Feature.openKinds, Scenario.kinds]

/-- Cutting is the library's. -/
theorem Text.cutAt_eq_splitOn (sep : Char) (cs : List Char) :
    Text.cutAt sep cs = cs.splitOn sep := by
  induction cs with
  | nil => rfl
  | cons c rest ih =>
      rw [Text.cutAt, List.splitOn_cons_eq_if_modifyHead, ih]
      by_cases h : c == sep
      · simp only [h, if_true]
      · simp only [h, Bool.false_eq_true, if_false]
        -- The pieces of a text are never none, so the character has one to go in front of.
        cases hrest : rest.splitOn sep with
        | nil => exact absurd hrest (List.splitOn_ne_nil sep rest)
        | cons piece pieces => rfl

/-- The lines of a description, joined again, are the description. -/
theorem Feature.intercalate_descriptionLines (feature : Feature) :
    "\n".intercalate feature.descriptionLines = feature.description := by
  unfold Feature.descriptionLines
  by_cases hempty : feature.description.isEmpty = true
  · rw [if_pos hempty, String.isEmpty_iff.mp hempty]
    rfl
  · rw [if_neg hempty, Text.cutAt_eq_splitOn, ← String.toList_inj, String.toList_intercalate,
      List.map_map]
    have hid : String.toList ∘ String.ofList = id := by
      funext cs
      exact String.toList_ofList
    rw [hid, List.map_id]
    exact List.intercalate_splitOn '\n'

/-- Lines of a description are found again after they have been joined. -/
theorem Feature.descriptionLines_intercalate (feature : Feature) (lines : List String)
    (h : IsDescription lines) (hdesc : feature.description = "\n".intercalate lines) :
    feature.descriptionLines = lines := by
  unfold Feature.descriptionLines
  rw [hdesc]
  cases hlines : lines with
  | nil => rfl
  | cons first rest =>
      -- No line has a break of its own, so cutting finds just those that joining put in.
      have hone : ∀ line ∈ lines, '\n' ∉ line.toList := by
        intro line hmem hbreak
        by_cases hempty : line = ""
        · subst hempty
          exact absurd hbreak (by simp)
        · exact ((h.prose line hmem hempty).oneLine '\n' hbreak).1 rfl
      have hcut : Text.cutAt '\n' ("\n".intercalate lines).toList = lines.map String.toList := by
        rw [Text.cutAt_eq_splitOn, String.toList_intercalate]
        refine List.splitOn_intercalate '\n' ?_ (by simp [hlines])
        intro cs hcs
        rcases List.mem_map.mp hcs with ⟨line, hline, rfl⟩
        exact hone line hline
      -- A description starts with a line of text, so it is not taken for one without lines.
      have hne : ("\n".intercalate lines).isEmpty = false := by
        have hfirst : first ≠ "" := by
          rintro rfl
          exact h.first (by rw [hlines]; rfl)
        rw [String.isEmpty_eq_false_iff, Ne, ← String.toList_eq_nil_iff, String.toList_intercalate,
          hlines]
        have hchars : first.toList ≠ [] := by simpa using hfirst
        cases rest <;> simp_all [List.intercalate]
      rw [← hlines, hne, hcut]
      simp

end Gherkin
