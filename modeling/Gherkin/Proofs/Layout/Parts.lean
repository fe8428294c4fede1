import Gherkin.Proofs.Layout.Columns
import Gherkin.Proofs.Layout.Passes
import Gherkin.Proofs.Tree.Growth
import Gherkin.Proofs.Tree.UpToLayout

/-!
# The Printed Parts of a Feature

The lines of a step, of examples or of a whole block, read after whatever
stands before them. What a part yields depends on what is open before it,
because its first line closes that; and what is open behind it is closed
later, by the next part or by the end. So a lemma about a part compares the
events up to and including the closers that are still to come.

## Main definitions

* `inBlock`: The reader in a block, with nothing waiting.
* `Resting`: A place that is not within a doc string.

## Theorems

* `passes_table`, `passes_docString`: The arguments of a step.
* `passes_step`, `passes_steps`: Steps.
* `passes_block`, `passes_examples`: A block and its examples.
-/

namespace Gherkin

namespace Layout

open Reader (Gist Place Stage Owner Item)

section

variable {options : Options}

theorem inlineComment_eq (hskip : options.skipComments = false) (comments : Comments) :
    inlineComment options comments = comments.inline := by
  simp [inlineComment, hskip]

/-- The reader in a block, with nothing waiting. -/
def inBlock (kind : BlockKind) (place : Place) (hasBackground hasScenario : Bool) : Gist :=
  { phase := .block kind place, hasBackground, hasScenario }

/-- Not within a doc string, where lines are only text. -/
def Resting (place : Place) : Prop :=
  ∀ indent, place ≠ .docString indent

variable {kind : BlockKind} {place : Place} {hasBackground hasScenario : Bool}

theorem mode_inBlock (h : Resting place) :
    (inBlock kind place hasBackground hasScenario).mode = .structural := by
  cases place with
  | docString indent => exact absurd rfl (h indent)
  | _ => rfl

theorem mode_inBlock_ne (h : Resting place) (indent : Nat) :
    (inBlock kind place hasBackground hasScenario).mode ≠ .verbatim indent := by
  rw [mode_inBlock h]
  simp

theorem mode_beneath_inBlock (h : Resting place) (comments tags : List String) :
    (beneath (inBlock kind place hasBackground hasScenario) comments tags).2.mode =
      .structural := by
  cases tags with
  | nil => exact (Gist.mode_hold _ _).trans (mode_inBlock h)
  | cons tag rest => rfl

/-- A step opens beneath its comments and tags. Whether the tags or the step
    itself close what was open makes no difference. -/
theorem take_step_beneath (hstage : place.stage = .steps) (st : Step) :
    ∃ kinds, (beneath (inBlock kind place hasBackground hasScenario) st.comments.leading
        st.tags).2.take (.step st.keyword st.text st.comments.inline) =
        some (kinds, inBlock kind (.argument .step) hasBackground hasScenario) ∧
      (beneath (inBlock kind place hasBackground hasScenario) st.comments.leading st.tags).1 ++
        kinds = place.closers ++ st.openKinds := by
  cases htags : st.tags with
  -- Without tags it is the step that closes what was open.
  | nil =>
      refine ⟨place.closers ++ st.openKinds, ?_, ?_⟩
      · simp [beneath, Gist.take, Gist.hold, inBlock, hstage, Gist.opened, Gist.tagNames,
          Step.openKinds, htags, Reader.inlineKinds, Comments.beside, Comments.above]
      · simp [beneath]
  -- The tags have closed it already, so the step yields its own events only.
  | cons tag rest =>
      refine ⟨st.openKinds, ?_, ?_⟩
      · simp [beneath, Gist.take, Gist.hold, Gist.settle, Gist.addTags, inBlock, hstage,
          Gist.opened, Gist.tagNames, Step.openKinds, htags, Reader.inlineKinds, Comments.beside,
          Comments.above]
      · simp [beneath, Gist.settle, Gist.hold, inBlock]

/-- A block opens beneath its comments and tags. Whether the tags or the heading
    close what was open makes no difference. -/
theorem take_block_beneath {g : Gist} (hbody : g.leave.2.phase = .body) (htags : g.tags = none)
    (hadmits : g.admits kind = true) (b : Block) :
    ∃ kinds, (beneath g b.comments.leading b.tags).2.take
        (.block kind b.title b.comments.inline) =
        some (kinds, inBlock kind (.between .steps) (g.hasBackground || kind == .background)
          (g.hasScenario || kind != .background)) ∧
      (beneath g b.comments.leading b.tags).1 ++ kinds =
        g.leave.1 ++ g.leave.2.trivia ++ { b with steps := [] }.openKinds kind := by
  -- Held comments change nothing but the trivia that comes out before the heading.
  have hheld := Gist.leave_hold g b.comments.above
  rcases Gist.hold_keeps g b.comments.above with ⟨htags', hback, hscen⟩
  have hbody' : (g.hold b.comments.above).leave.2.phase = .body := by
    rw [hheld]
    exact hbody
  have hadmits' : (g.hold b.comments.above).admits kind = true := by
    rw [Gist.admits, hback, hscen]
    exact hadmits
  cases hb : b.tags with
  | nil =>
      have htake := Gist.take_block hbody' hadmits' b.title b.comments.inline
      rw [hback, hscen] at htake
      refine ⟨_, htake, ?_⟩
      rw [hheld]
      simp [beneath, Gist.tagNames, htags', htags, Block.openKinds, Comments.beside,
        Reader.inlineKinds]
  | cons tag rest =>
      -- The tags end the step, the heading the block: together they leave as one would.
      rcases Gist.leave_settle (g.hold b.comments.above) with ⟨hclosers, hleft⟩
      rcases Gist.settle_keeps (g.hold b.comments.above) with ⟨htags'', hback', hscen'⟩
      have hleave := Gist.leave_addTags (g.hold b.comments.above).settle.2 (tag :: rest)
      have hback'' : ((g.hold b.comments.above).settle.2.addTags (tag :: rest)).hasBackground =
          g.hasBackground := hback'.trans hback
      have hscen'' : ((g.hold b.comments.above).settle.2.addTags (tag :: rest)).hasScenario =
          g.hasScenario := hscen'.trans hscen
      have hbody'' : ((g.hold b.comments.above).settle.2.addTags (tag :: rest)).leave.2.phase =
          .body := by
        rw [hleave, hleft]
        exact hbody'
      have hadmits'' : ((g.hold b.comments.above).settle.2.addTags (tag :: rest)).admits kind =
          true := by
        rw [Gist.admits, hback'', hscen'']
        exact hadmits
      have htake := Gist.take_block hbody'' hadmits'' b.title b.comments.inline
      rw [hback'', hscen''] at htake
      refine ⟨_, htake, ?_⟩
      -- No tags waited before, so those of the block are all there are.
      have hnames : ((g.hold b.comments.above).settle.2.addTags (tag :: rest)).tagNames =
          tag :: rest := by
        simp [Gist.addTags, Gist.tagNames, htags'', htags', htags]
      have htrivia : ((g.hold b.comments.above).settle.2.leave.2.addTags (tag :: rest)).trivia =
          g.leave.2.trivia ++ b.comments.above := by
        rw [hleft, hheld]
        rfl
      change (g.hold b.comments.above).settle.1 ++ _ = _
      rw [hleave, htrivia, hnames, ← List.append_assoc, hclosers, hheld]
      simp [Block.openKinds, Comments.beside, Reader.inlineKinds]

-- Only what is printed without colours is read again.
variable (hcolor : options.color = false)
include hcolor

/-- Lines of a doc string. -/
theorem passes_docLines {lines : List String} (h : ∀ line ∈ lines, IsDocLine line) :
    Passes options (inBlock kind (.docString argumentIndent) hasBackground hasScenario)
      (lines.map (fun text =>
        if text.isEmpty then Line.blank else Line.single argumentIndent text .plain))
      (lines.map EventKind.docLine)
      (inBlock kind (.docString argumentIndent) hasBackground hasScenario) := by
  induction lines with
  | nil => exact .nil _
  | cons text rest ih =>
      have hsaid := says_docLine hcolor (h text List.mem_cons_self)
      have htake : (inBlock kind (.docString argumentIndent) hasBackground hasScenario).take
          (.docLine text) = some ([.docLine text],
            inBlock kind (.docString argumentIndent) hasBackground hasScenario) := rfl
      exact .cons hsaid htake (ih (fun t ht => h t (List.mem_cons_of_mem text ht)))

-- Comments that are not printed are not read again either.
variable (hskip : options.skipComments = false)
include hskip

/-- The lines of a doc string, whose last line closes the step too. -/
theorem passes_docString {doc : DocString} (h : doc.Printable) :
    Passes options (inBlock kind (.argument .step) hasBackground hasScenario)
      (docStringLines options doc)
      ({ doc with indent := argumentIndent }.kinds ++ [.stepEnd])
      (inBlock kind (.between .steps) hasBackground hasScenario) := by
  have hcomments := passes_comments hcolor hskip argumentIndent h.comments.leading
    (inBlock kind (.argument .step) hasBackground hasScenario)
    (mode_inBlock_ne (fun indent => by simp))
  have hopen : Passes options
      ((inBlock kind (.argument .step) hasBackground hasScenario).hold doc.comments.above)
      [Line.single argumentIndent "\"\"\"" .fence]
      (doc.comments.above ++ [.docString argumentIndent])
      (inBlock kind (.docString argumentIndent) hasBackground hasScenario) := by
    refine .single (says_fence hcolor (by simp [Gist.hold, inBlock, Gist.mode])
      (fun text ht => absurd ht (by simp))) ?_
    simp [Gist.hold, inBlock, Gist.take]
  have hlines : Passes options (inBlock kind (.docString argumentIndent) hasBackground hasScenario)
      _ _ (inBlock kind (.docString argumentIndent) hasBackground hasScenario) :=
    passes_docLines hcolor h.lines
  have hclose : Passes options
      (inBlock kind (.docString argumentIndent) hasBackground hasScenario)
      [{ Line.single argumentIndent "\"\"\"" .fence with
          comment := inlineComment options doc.comments }]
      (doc.comments.beside ++ [.docStringEnd, .stepEnd])
      (inBlock kind (.between .steps) hasBackground hasScenario) := by
    rw [inlineComment_eq hskip]
    exact .single (says_fence hcolor (by simp [inBlock, Gist.mode]) h.comments.inline) rfl
  -- Comments above, the opening fence, the lines, and the closing fence.
  have hall := hcomments.append (hopen.append (hlines.append hclose))
  simpa [docStringLines, DocString.kinds] using hall

/-- The comments above a step, its tags and its line. -/
theorem passes_stepLine (hrest : Resting place) (hstage : place.stage = .steps) {st : Step}
    (h : st.Printable) :
    Passes options (inBlock kind place hasBackground hasScenario)
      (commentLines options stepIndent st.comments.leading ++ tagLines stepIndent st.tags ++
        [stepLine options st])
      (place.closers ++ st.openKinds)
      (inBlock kind (.argument .step) hasBackground hasScenario) := by
  have hprelude := passes_beneath hcolor hskip stepIndent h.comments.leading h.tags
    (inBlock kind place hasBackground hasScenario) (mode_inBlock_ne hrest)
  have hsaid := says_step hcolor h (by rw [inlineComment_eq hskip]; exact h.comments.inline)
  rw [inlineComment_eq hskip] at hsaid
  rcases take_step_beneath hstage st with ⟨kinds, htake, hkinds⟩
  rw [← hkinds]
  refine hprelude.append (.single ?_ htake)
  rw [mode_beneath_inBlock hrest]
  exact hsaid

/-- The comments above a row and its line, where the reader takes rows. -/
theorem passes_row (hrest : Resting place) {columns : Nat} (hpos : 1 ≤ columns) {ws : List Nat}
    (hws : columns ≤ ws.length) {row : Row} (h : row.Printable columns) {kinds : List EventKind}
    {next : Gist}
    (htake : ((inBlock kind place hasBackground hasScenario).hold row.comments.above).take
      (.row row.cells row.comments.inline) = some (kinds, next)) :
    Passes options (inBlock kind place hasBackground hasScenario)
      (commentLines options argumentIndent row.comments.leading ++
        [{ rowLine ws argumentIndent row.cells with
            comment := inlineComment options row.comments }]) kinds next := by
  have hcomments := passes_comments hcolor hskip argumentIndent h.comments.leading
    (inBlock kind place hasBackground hasScenario) (mode_inBlock_ne hrest)
  have hbeside : ∀ text ∈ inlineComment options row.comments,
      IsComment text ∧ ∀ c ∈ text.toList, c ≠ '|' := by
    rw [inlineComment_eq hskip]
    exact fun text ht => ⟨h.comments.inline text ht, h.noBar text ht⟩
  have hsaid := says_row hcolor h hpos hws hbeside
  refine hcomments.append (.single ?_ htake)
  rw [Gist.mode_hold, mode_inBlock hrest]
  rw [inlineComment_eq hskip] at hsaid ⊢
  exact hsaid

/-- Rows below others. -/
theorem passes_laterRows (owner : Owner) {columns : Nat} (hpos : 1 ≤ columns) {ws : List Nat}
    (hws : columns ≤ ws.length) {rows : List Row} (h : ∀ row ∈ rows, row.Printable columns) :
    Passes options (inBlock kind (.table owner columns) hasBackground hasScenario)
      (rows.flatMap (fun row => commentLines options argumentIndent row.comments.leading ++
        [{ rowLine ws argumentIndent row.cells with
            comment := inlineComment options row.comments }]))
      (Table.laterKinds rows)
      (inBlock kind (.table owner columns) hasBackground hasScenario) := by
  induction rows with
  | nil => exact .nil _
  | cons row rest ih =>
      have hrow := h row List.mem_cons_self
      -- The row is as wide as the table, which is what keeps the reader in it.
      have htake : ((inBlock kind (.table owner columns) hasBackground hasScenario).hold
          row.comments.above).take (.row row.cells row.comments.inline) =
          some (row.comments.above ++ row.kinds,
            inBlock kind (.table owner columns) hasBackground hasScenario) := by
        simp [Gist.hold, inBlock, Gist.take, hrow.length, Reader.rowKinds, Row.kinds,
          Reader.inlineKinds, Comments.beside]
      rw [List.flatMap_cons, Table.laterKinds, List.flatMap_cons]
      refine (passes_row hcolor hskip ?_ hpos hws hrow htake).append
        (ih (fun r hr => h r (List.mem_cons_of_mem row hr)))
      intro indent
      simp

/-- The lines of a table, which is still open behind them. -/
theorem passes_table (owner : Owner) {columns : Nat} (hpos : 1 ≤ columns) {first : Row}
    {rest : List Row} (h : ∀ row ∈ first :: rest, row.Printable columns) :
    Passes options (inBlock kind (.argument owner) hasBackground hasScenario)
      (tableLines options ⟨first :: rest⟩) (Table.openKinds first rest)
      (inBlock kind (.table owner columns) hasBackground hasScenario) := by
  have hfirst := h first List.mem_cons_self
  have hws : columns ≤ (widths ⟨first :: rest⟩).length := by
    rw [← hfirst.length]
    exact length_le_widths List.mem_cons_self
  -- The first row sets the width of the table.
  have htake : ((inBlock kind (.argument owner) hasBackground hasScenario).hold
      first.comments.above).take (.row first.cells first.comments.inline) =
      some (first.comments.above ++ .table :: first.kinds,
        inBlock kind (.table owner columns) hasBackground hasScenario) := by
    simp [Gist.hold, inBlock, Gist.take, hfirst.length, Reader.rowKinds, Row.kinds,
      Reader.inlineKinds, Comments.beside]
  have hlater : Passes options (inBlock kind (.table owner columns) hasBackground hasScenario) _ _
      (inBlock kind (.table owner columns) hasBackground hasScenario) :=
    passes_laterRows hcolor hskip owner hpos hws
      (fun row hrow => h row (List.mem_cons_of_mem first hrow))
  unfold tableLines
  rw [List.flatMap_cons]
  refine (passes_row hcolor hskip ?_ hpos hws hfirst htake).append hlater
  intro indent
  simp

/-- The lines of a step. What is open behind them belongs to the step. -/
theorem passes_step (hrest : Resting place) (hstage : place.stage = .steps) {st : Step}
    (h : st.Printable) :
    ∃ kinds place', Passes options (inBlock kind place hasBackground hasScenario)
        (stepLines options st) kinds (inBlock kind place' hasBackground hasScenario) ∧
      Resting place' ∧ place'.stage = .steps ∧
      kinds ++ place'.closers = place.closers ++ (st.reindented argumentIndent).kinds := by
  have hline : Passes options (inBlock kind place hasBackground hasScenario) _ _
      (inBlock kind (.argument .step) hasBackground hasScenario) :=
    passes_stepLine hcolor hskip hrest hstage h
  have hlines : stepLines options st =
      commentLines options stepIndent st.comments.leading ++ tagLines stepIndent st.tags ++
        [stepLine options st] ++ argumentLines options st.argument := by
    simp [stepLines]
  have hargument := h.argument
  rw [hlines]
  -- What is open behind the step depends on its argument: nothing more behind a doc string.
  cases harg : st.argument with
  | none =>
      refine ⟨_, .argument .step, hline.append (.nil _), fun indent => by simp, rfl, ?_⟩
      simp [Step.reindented, Argument.reindented, Step.kinds_eq, Step.openKinds, harg,
        Argument.kinds, Place.closers, Owner.closer]
  | docString doc =>
      rw [harg] at hargument
      refine ⟨_, .between .steps, hline.append (passes_docString hcolor hskip hargument),
        fun indent => by simp, rfl, ?_⟩
      simp [Step.reindented, Argument.reindented, Step.kinds_eq, Step.openKinds, harg,
        Argument.kinds]
  | table grid =>
      rw [harg] at hargument
      rcases grid with ⟨rows⟩
      rcases hargument with ⟨hne, columns, hpos, hrows⟩
      cases rows with
      | nil => exact absurd rfl hne
      | cons first others =>
          refine ⟨_, .table .step columns,
            hline.append (passes_table hcolor hskip .step hpos hrows), fun indent => by simp,
            rfl, ?_⟩
          simp [Step.reindented, Argument.reindented, Step.kinds_eq, Step.openKinds, harg,
            Argument.kinds, Table.kinds_eq, Place.closers, Owner.closer]

/-- The lines of steps. -/
theorem passes_steps (hrest : Resting place) (hstage : place.stage = .steps) {steps : List Step}
    (h : ∀ st ∈ steps, st.Printable) :
    ∃ kinds place', Passes options (inBlock kind place hasBackground hasScenario)
        (steps.flatMap (stepLines options)) kinds (inBlock kind place' hasBackground hasScenario) ∧
      Resting place' ∧ place'.stage = .steps ∧
      kinds ++ place'.closers =
        place.closers ++ (steps.map (Step.reindented argumentIndent)).flatMap Step.kinds := by
  -- Every step starts where the one before left the reader, so the place is general.
  induction steps generalizing place with
  | nil => exact ⟨[], place, .nil _, hrest, hstage, by simp⟩
  | cons st others ih =>
      have hstep : ∃ kinds mid, Passes options (inBlock kind place hasBackground hasScenario)
          (stepLines options st) kinds (inBlock kind mid hasBackground hasScenario) ∧ _ :=
        passes_step hcolor hskip hrest hstage (h st List.mem_cons_self)
      rcases hstep with ⟨kinds, mid, hpass, hmid, hmidstage, hkinds⟩
      rcases ih hmid hmidstage (fun s hs => h s (List.mem_cons_of_mem st hs)) with
        ⟨kinds', place', hpass', hrest', hstage', hkinds'⟩
      refine ⟨kinds ++ kinds', place', ?_, hrest', hstage', ?_⟩
      · rw [List.flatMap_cons]
        exact hpass.append hpass'
      · rw [List.append_assoc, hkinds', ← List.append_assoc, hkinds]
        simp

/-- The lines of a block. Its first line closes what was open before. -/
theorem passes_block {g : Gist} (hm : ∀ indent, g.mode ≠ .verbatim indent)
    (hbody : g.leave.2.phase = .body) (htags : g.tags = none) (hadmits : g.admits kind = true)
    {b : Block} (h : b.Printable) :
    ∃ kinds place, Passes options g (blockLines options kind b) kinds
        (inBlock kind place (g.hasBackground || kind == .background)
          (g.hasScenario || kind != .background)) ∧
      Resting place ∧ place.stage = .steps ∧
      kinds ++ place.closers =
        g.leave.1 ++ g.leave.2.trivia ++ (b.reindented argumentIndent).openKinds kind := by
  have hprelude := passes_beneath hcolor hskip blockIndent h.comments.leading h.tags g hm
  -- In the description or behind a step alike, a heading is a heading.
  have hmode : ∀ indent, (beneath g b.comments.leading b.tags).2.mode ≠ .verbatim indent := by
    intro indent
    cases b.tags with
    | nil =>
        simp only [beneath, List.isEmpty_nil, if_true, Gist.mode_hold]
        exact hm indent
    | cons tag rest =>
        simp [beneath, Gist.mode_settle_addTags]
  have hsaid := says_block hcolor hmode blockIndent kind h.title
    (by rw [inlineComment_eq hskip]; exact h.comments.inline)
  rw [inlineComment_eq hskip] at hsaid
  rcases take_block_beneath hbody htags hadmits b with ⟨kinds, htake, hkinds⟩
  have hstart : Resting (.between .steps) := fun indent => by simp
  rcases passes_steps hcolor hskip hstart rfl h.steps with
    ⟨more, place, hsteps, hrest, hstage, hmore⟩
  refine ⟨_, place, hprelude.append (.cons hsaid htake hsteps), hrest, hstage, ?_⟩
  rw [← List.append_assoc, hkinds, List.append_assoc, hmore]
  simp [Block.openKinds, Block.reindented]

/-- The lines of examples behind the steps of an outline, with blank lines
    before them. -/
theorem passes_examples (hrest : Resting place) (hstage : place.stage = .steps)
    (gap : List EventKind) {ex : Examples} (h : ex.Printable) :
    ∃ kinds place', Passes options ((inBlock .outline place hasBackground hasScenario).hold gap)
        (examplesLines options ex) kinds (inBlock .outline place' hasBackground hasScenario) ∧
      Resting place' ∧
      kinds ++ place'.closers = place.closers ++ gap ++ ex.kinds := by
  have hcomments := passes_comments hcolor hskip stepIndent h.comments.leading
    ((inBlock .outline place hasBackground hasScenario).hold gap)
    (by rw [Gist.mode_hold]; exact mode_inBlock_ne hrest)
  rw [Gist.hold_hold] at hcomments
  have hsaid := says_examples hcolor stepIndent
    (by rw [inlineComment_eq hskip]; exact h.comments.inline)
  have htake : ((inBlock .outline place hasBackground hasScenario).hold
      (gap ++ ex.comments.above)).take (.examples ex.comments.inline) =
      some (place.closers ++ gap ++ ex.openKinds,
        inBlock .outline (.argument .examples) hasBackground hasScenario) := by
    simp [Gist.take, Gist.hold, inBlock, hstage, Gist.opened, Examples.openKinds,
      Reader.inlineKinds, Comments.beside]
  have hheading : Passes options ((inBlock .outline place hasBackground hasScenario).hold
      (gap ++ ex.comments.above)) [headingLine options stepIndent .examples "" ex.comments]
      (place.closers ++ gap ++ ex.openKinds)
      (inBlock .outline (.argument .examples) hasBackground hasScenario) := by
    refine .single ?_ htake
    rw [Gist.mode_hold, mode_inBlock hrest]
    rw [inlineComment_eq hskip] at hsaid
    exact hsaid
  have hlines : examplesLines options ex =
      commentLines options stepIndent ex.comments.leading ++
        [headingLine options stepIndent .examples "" ex.comments] ++
        tableLines options ex.table := by
    simp [examplesLines]
  rw [hlines]
  rcases ex with ⟨⟨rows⟩, comments⟩
  rcases h.table with ⟨columns, hpos, hrows⟩
  -- Examples without a table are still waiting for one.
  cases rows with
  | nil =>
      refine ⟨_, .argument .examples, (hcomments.append hheading).append (.nil _),
        fun indent => by simp, ?_⟩
      simp [Examples.kinds, Examples.openKinds, Place.closers, Owner.closer]
  | cons first rest =>
      refine ⟨_, .table .examples columns,
        (hcomments.append hheading).append (passes_table hcolor hskip .examples hpos hrows),
        fun indent => by simp, ?_⟩
      simp [Examples.kinds, Examples.openKinds, Place.closers, Owner.closer, Table.kinds_eq]

end

end Layout

end Gherkin
