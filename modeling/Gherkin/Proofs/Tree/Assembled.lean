import Gherkin.Delivery
import Gherkin.Proofs.Tree.Growth

/-!
# Assembling the Events of a Tree

Whoever hands the events of a tree to a fresh assembly gets the tree back,
whatever texts it holds. Blank lines between the events make no difference, as
long as none comes after the end of the feature.

The assembly has a slot for each part that can be open, and what must be shown
is that no slot leaks from one part into the next. So every lemma here says
what the whole assembly is after the events of a part, not only what the slot
of the part holds. The one thing that is left open is the target of comments
at the end of a line, because it depends on whether a list of parts was empty.

## Main definitions

* `Assembly.feed`: Hand events to an assembly, as long as it takes them.

## Theorems

* `Assembly.feed_row`, `Assembly.feed_table`, `Assembly.feed_docString`,
  `Assembly.feed_step`, `Assembly.feed_block`: The events of a part.
* `Assembly.feed_feature`: The events of a feature up to its end.
* `Assembly.feed_kinds`: An assembly takes the events of a tree one by one and
  shows the tree after the last.
* `Feature.kinds_injective`: A tree is determined by its events.
* `assemble_tree`: The events of a tree describe the tree.
* `assemble_trivia`: Trivia describes no tree.
-/

namespace Gherkin

namespace Assembly

/-- Hand events to an assembly. -/
def feed (a : Assembly) : List EventKind → Option Assembly
  | [] => some a
  | kind :: rest =>
    match a.accept kind with
    | .taken next => next.feed rest
    | .refused _ _ => none

@[simp] theorem feed_nil (a : Assembly) : a.feed [] = some a := rfl

theorem feed_cons {a next : Assembly} {kind : EventKind} (rest : List EventKind)
    (h : a.accept kind = .taken next) : a.feed (kind :: rest) = next.feed rest := by
  rw [feed, h]

theorem feed_append (a : Assembly) (ks more : List EventKind) :
    a.feed (ks ++ more) = (a.feed ks).bind (·.feed more) := by
  induction ks generalizing a with
  | nil => rfl
  | cons kind rest ih =>
      rw [List.cons_append, feed, feed]
      cases a.accept kind with
      | taken next => exact ih next
      | refused reason next => rfl

/-- Events that are taken lead to where the rest is handed on. -/
theorem feed_after {a b : Assembly} {ks : List EventKind} (more : List EventKind)
    (h : a.feed ks = some b) : a.feed (ks ++ more) = b.feed more := by
  rw [feed_append, h, Option.bind_some]

/-- Comments on lines of their own wait. -/
theorem feed_comments (a : Assembly) (texts : List String) (h : a.finished = false) :
    a.feed (texts.map (EventKind.comment · false)) =
      some { a with waiting := a.waiting ++ texts } := by
  induction texts generalizing a with
  | nil => simp
  | cons text rest ih =>
      -- A comment opens and closes nothing, so it only joins those that wait.
      have htake : a.accept (.comment text false) = .taken (a.hold text) := by
        simp [accept, h, place, afterwards, dropsArguments, EventKind.isCloser]
      rw [List.map_cons, feed_cons _ htake, ih (a.hold text) h]
      simp [hold]

/-- Cells are added to the open row. -/
theorem feed_cells (a : Assembly) (row : Row) (cells : List String) (h : a.finished = false) :
    { a with row := some row }.feed (cells.map EventKind.cell) =
      some { a with row := some { row with cells := row.cells ++ cells } } := by
  induction cells generalizing row with
  | nil => simp
  | cons content rest ih =>
      have htake : { a with row := some row }.accept (.cell content) =
          .taken { a with row := some { row with cells := row.cells ++ [content] } } := by
        simp [accept, h, place, addCell, afterwards, dropsArguments, EventKind.isCloser]
      rw [List.map_cons, feed_cons _ htake, ih { row with cells := row.cells ++ [content] }]
      simp

/-- Lines are added to the open doc string. -/
theorem feed_docLines (a : Assembly) (doc : DocString) (lines : List String)
    (h : a.finished = false) :
    { a with docString := some doc }.feed (lines.map EventKind.docLine) =
      some { a with docString := some { doc with lines := doc.lines ++ lines } } := by
  induction lines generalizing doc with
  | nil => simp
  | cons text rest ih =>
      have htake : { a with docString := some doc }.accept (.docLine text) =
          .taken { a with docString := some { doc with lines := doc.lines ++ [text] } } := by
        simp [accept, h, place, addDocLine, afterwards, dropsArguments, EventKind.isCloser]
      rw [List.map_cons, feed_cons _ htake, ih { doc with lines := doc.lines ++ [text] }]
      simp

/-- A row is added to the open table, with the comments that waited. -/
theorem feed_row (a : Assembly) (rows : List Row) (row : Row) (h : a.finished = false) :
    { a with table := some ⟨rows⟩, waiting := row.comments.leading }.feed row.kinds =
      some { a with
        table := some ⟨rows ++ [row]⟩, row := none, waiting := [], target := none } := by
  rcases row with ⟨cells, inline, leading⟩
  have hopen : { a with table := some ⟨rows⟩, waiting := leading }.accept .row =
      .taken { a with
        table := some ⟨rows⟩, row := some ⟨[], none, leading⟩, waiting := []
        target := some .row } := by
    simp [accept, h, place, openRow, Comments.opening, afterwards, dropsArguments,
      EventKind.isCloser]
  have hcells := feed_cells { a with
    table := some ⟨rows⟩, waiting := [], target := some .row } ⟨[], none, leading⟩ cells h
  simp only [Row.kinds, List.append_assoc, List.cons_append]
  rw [feed_cons _ hopen, feed_after _ hcells]
  cases inline <;>
    simp [Comments.beside, feed, accept, h, place, attach, Comments.withInline, closeRow,
      afterwards, dropsArguments, EventKind.isCloser]

/-- Further rows are added to the open table, each with the comments above
    it. -/
theorem feed_laterRows (a : Assembly) (rows more : List Row) (h : a.finished = false) :
    { a with table := some ⟨rows⟩, row := none, waiting := [], target := none }.feed
        (Table.laterKinds more) =
      some { a with
        table := some ⟨rows ++ more⟩, row := none, waiting := [], target := none } := by
  induction more generalizing rows with
  | nil => simp [Table.laterKinds]
  | cons row rest ih =>
      have habove := feed_comments { a with
        table := some ⟨rows⟩, row := none, waiting := [], target := none }
        row.comments.leading h
      have hrow := feed_row { a with row := none, target := none } rows row h
      rw [Table.laterKinds, List.flatMap_cons, List.append_assoc, Comments.above,
        feed_after _ habove, List.nil_append, feed_after _ hrow, ← Table.laterKinds,
        ih (rows ++ [row])]
      simp

/-- A table is closed, whoever it belongs to. -/
theorem feed_table (a : Assembly) (table : Table) (h : a.finished = false)
    (howner : (a.step.isNone && a.examples.isNone) = false) :
    { a with row := none, waiting := [] }.feed table.kinds =
      some { a with
        table := none, row := none, closedTable := some table, waiting := []
        target := none } := by
  rcases table with ⟨rows⟩
  cases rows with
  | nil =>
      simp [Table.kinds, feed, accept, h, place, openTable, howner, closeTable, afterwards,
        dropsArguments, EventKind.isCloser]
  | cons first rest =>
      have habove := feed_comments { a with row := none, waiting := [] } first.comments.leading h
      have hopen : { a with row := none, waiting := first.comments.leading }.accept .table =
          .taken { a with table := some {}, row := none, waiting := first.comments.leading } := by
        simp [accept, h, place, openTable, howner, afterwards, dropsArguments,
          EventKind.isCloser]
      have hrow := feed_row { a with row := none } [] first h
      have hmore := feed_laterRows a [first] rest h
      rw [Table.kinds_eq, Table.openKinds, Comments.above]
      simp only [List.append_assoc, List.cons_append]
      rw [feed_after _ habove, List.nil_append, feed_cons _ hopen, feed_after _ hrow,
        List.nil_append, feed_after _ hmore]
      simp [feed, accept, h, place, closeTable, afterwards, dropsArguments, EventKind.isCloser]

/-- A doc string is closed. -/
theorem feed_docString (a : Assembly) (doc : DocString) (h : a.finished = false)
    (howner : a.step.isNone = false) :
    { a with waiting := [] }.feed doc.kinds =
      some { a with
        docString := none, closedDocString := some doc, waiting := [], target := none } := by
  rcases doc with ⟨indent, lines, inline, leading⟩
  -- First the comments above, then the fence, which takes them, then the lines.
  have habove := feed_comments { a with waiting := [] } leading h
  have hopen : { a with waiting := leading }.accept (.docString indent) =
      .taken { a with
        docString := some ⟨indent, [], none, leading⟩, waiting := []
        target := some .docString } := by
    simp [accept, h, place, openDocString, howner, Comments.opening, afterwards, dropsArguments,
      EventKind.isCloser]
  have hlines := feed_docLines { a with waiting := [], target := some .docString }
    ⟨indent, [], none, leading⟩ lines h
  simp only [DocString.kinds, Comments.above, List.append_assoc, List.cons_append]
  rw [feed_after _ habove, List.nil_append, feed_cons _ hopen, feed_after _ hlines]
  -- What stands beside the closing fence arrives while the doc string is still open.
  cases inline <;>
    simp [Comments.beside, feed, accept, h, place, attach, Comments.withInline, closeDocString,
      afterwards, dropsArguments, EventKind.isCloser]

/-- A step is added to the open block, with its argument. -/
theorem feed_step (f : Feature) (o : OpenBlock) (target : Option Target) (st : Step) :
    feed { feature := some f, block := some o, target } st.kinds =
      some { feature := some f,
             block := some { o with
               block := { o.block with steps := o.block.steps ++ [st] } } } := by
  rcases st with ⟨keyword, text, tags, argument, inline, leading⟩
  -- The comments above wait until the step opens and takes them.
  have habove := feed_comments { feature := some f, block := some o, target } leading rfl
  have hopen : accept { feature := some f, block := some o, target, waiting := leading }
      (.step keyword text tags) =
      .taken { feature := some f, block := some o,
               step := some ⟨keyword, text, tags, .none, none, leading⟩,
               target := some .step } := rfl
  -- A comment beside the step finds it as its target.
  have hbeside : feed { feature := some f, block := some o,
                        step := some ⟨keyword, text, tags, .none, none, leading⟩,
                        target := some .step } (Comments.beside ⟨inline, leading⟩) =
      some { feature := some f, block := some o,
             step := some ⟨keyword, text, tags, .none, inline, leading⟩,
             target := some .step } := by
    cases inline <;> rfl
  simp only [Step.kinds, Comments.above, List.append_assoc, List.cons_append]
  rw [feed_after _ habove, List.nil_append, feed_cons _ hopen, feed_after _ hbeside, feed_append]
  -- A closed argument sits in a slot of its own until the end of the step picks it up.
  cases argument with
  | none => rfl
  | docString doc =>
      have hdoc := feed_docString { feature := some f, block := some o,
                                    step := some ⟨keyword, text, tags, .none, inline, leading⟩,
                                    target := some .step } doc rfl rfl
      rw [Argument.kinds, hdoc]
      rfl
  | table grid =>
      have htable := feed_table { feature := some f, block := some o,
                                  step := some ⟨keyword, text, tags, .none, inline, leading⟩,
                                  target := some .step } grid rfl rfl
      rw [Argument.kinds, htable]
      rfl

/-- Steps are added to the open block. -/
theorem feed_steps (f : Feature) (o : OpenBlock) (target : Option Target) (steps : List Step) :
    ∃ target', feed { feature := some f, block := some o, target } (steps.flatMap Step.kinds) =
      some { feature := some f,
             block := some { o with block := { o.block with steps := o.block.steps ++ steps } },
             target := target' } := by
  induction steps generalizing o target with
  | nil => exact ⟨target, by simp⟩
  | cons st rest ih =>
      -- The target is set after the first step and forgotten after every further one.
      rcases ih { o with block := { o.block with steps := o.block.steps ++ [st] } } none with
        ⟨target', hrest⟩
      refine ⟨target', ?_⟩
      rw [List.flatMap_cons, feed_after _ (feed_step f o target st), hrest]
      simp

/-- Examples are added to the open outline. -/
theorem feed_examples (f : Feature) (block : Block) (target : Option Target) (ex : Examples) :
    feed { feature := some f, block := some ⟨.outline, block, none⟩, target } ex.kinds =
      some { feature := some f, block := some ⟨.outline, block, some ex⟩ } := by
  rcases ex with ⟨grid, inline, leading⟩
  have habove := feed_comments
    { feature := some f, block := some ⟨.outline, block, none⟩, target } leading rfl
  have hopen : accept { feature := some f, block := some ⟨.outline, block, none⟩, target,
                        waiting := leading } .examples =
      .taken { feature := some f, block := some ⟨.outline, block, none⟩,
               examples := some ⟨{}, none, leading⟩, target := some .examples } := rfl
  have hbeside : feed { feature := some f, block := some ⟨.outline, block, none⟩,
                        examples := some ⟨{}, none, leading⟩, target := some .examples }
        (Comments.beside ⟨inline, leading⟩) =
      some { feature := some f, block := some ⟨.outline, block, none⟩,
             examples := some ⟨{}, inline, leading⟩, target := some .examples } := by
    cases inline <;> rfl
  simp only [Examples.kinds, Comments.above, List.append_assoc, List.cons_append]
  rw [feed_after _ habove, List.nil_append, feed_cons _ hopen, feed_after _ hbeside, feed_append]
  -- Examples without rows report no table at all.
  by_cases hrows : grid.rows.isEmpty = true
  · rcases grid with ⟨rows⟩
    cases rows with
    | nil => rfl
    | cons row rest => exact absurd hrows (by simp)
  · have htable := feed_table
      { feature := some f, block := some ⟨.outline, block, none⟩,
        examples := some ⟨{}, inline, leading⟩, target := some .examples } grid rfl rfl
    rw [if_neg hrows, htable]
    rfl

/-- A block is added to the feature. -/
theorem feed_block (f : Feature) (o : OpenBlock) (target : Option Target)
    (hex : o.kind ≠ .outline → o.examples = none) :
    feed { feature := some f, target } (o.block.kinds o.kind o.examples) =
      some { feature := some (addBlock f o) } := by
  rcases o with ⟨kind, ⟨title, tags, steps, inline, leading⟩, examples⟩
  have habove := feed_comments { feature := some f, target } leading rfl
  have hopen : accept { feature := some f, target, waiting := leading } (.block kind title tags) =
      .taken { feature := some f, block := some ⟨kind, ⟨title, tags, [], none, leading⟩, none⟩,
               target := some .block } := rfl
  have hbeside : feed { feature := some f,
                        block := some ⟨kind, ⟨title, tags, [], none, leading⟩, none⟩,
                        target := some .block } (Comments.beside ⟨inline, leading⟩) =
      some { feature := some f, block := some ⟨kind, ⟨title, tags, [], inline, leading⟩, none⟩,
             target := some .block } := by
    cases inline <;> rfl
  -- The steps find the block without examples; these come last.
  rcases feed_steps f ⟨kind, ⟨title, tags, [], inline, leading⟩, none⟩ (some .block) steps with
    ⟨target', hsteps⟩
  simp only [Block.kinds, Comments.above, List.append_assoc, List.cons_append]
  rw [feed_after _ habove, List.nil_append, feed_cons _ hopen, feed_after _ hbeside,
    feed_after _ hsteps, feed_append]
  cases examples with
  | none => cases kind <;> rfl
  | some ex =>
      cases kind with
      -- Only an outline has examples.
      | background => exact absurd (hex (by simp)) (by simp)
      | scenario => exact absurd (hex (by simp)) (by simp)
      | outline =>
          simp only [Option.toList_some, List.flatMap_cons, List.flatMap_nil, List.append_nil]
          rw [feed_examples]
          rfl

/-- A scenario is added to the feature. -/
theorem feed_scenario (f : Feature) (target : Option Target) (s : Scenario) :
    feed { feature := some f, target } s.kinds =
      some { feature := some { f with scenarios := f.scenarios ++ [s] } } := by
  cases s with
  | plain block => exact feed_block f ⟨.scenario, block, none⟩ target (fun _ => rfl)
  | outline block ex => exact feed_block f ⟨.outline, block, ex⟩ target (fun h => absurd rfl h)

/-- Scenarios are added to the feature. -/
theorem feed_scenarios (f : Feature) (target : Option Target) (scenarios : List Scenario) :
    ∃ target', feed { feature := some f, target } (scenarios.flatMap Scenario.kinds) =
      some { feature := some { f with scenarios := f.scenarios ++ scenarios },
             target := target' } := by
  induction scenarios generalizing f target with
  | nil => exact ⟨target, by simp⟩
  | cons s rest ih =>
      rcases ih { f with scenarios := f.scenarios ++ [s] } none with ⟨target', hrest⟩
      refine ⟨target', ?_⟩
      rw [List.flatMap_cons, feed_after _ (feed_scenario f target s), hrest]
      simp

/-- The events of a feature up to its end, handed to a fresh assembly. -/
theorem feed_feature (t : Feature) :
    ∃ target, feed {} (t.openKinds ++ t.trailing.map (EventKind.comment · false)) =
      some { feature := some { t with trailing := [] }, waiting := t.trailing, target } := by
  rcases t with ⟨title, description, tags, background, scenarios, ⟨inline, leading⟩, trailing⟩
  have habove := feed_comments {} leading rfl
  have hopen : accept { waiting := leading } (.feature title description tags) =
      .taken { feature := some ⟨title, description, tags, none, [], ⟨none, leading⟩, []⟩,
               target := some .feature } := rfl
  have hbeside : feed { feature := some ⟨title, description, tags, none, [], ⟨none, leading⟩, []⟩,
                        target := some .feature } (Comments.beside ⟨inline, leading⟩) =
      some { feature := some ⟨title, description, tags, none, [], ⟨inline, leading⟩, []⟩,
             target := some .feature } := by
    cases inline <;> rfl
  -- The background goes in before the scenarios, while the feature has no block yet.
  have hback : ∃ target, feed
      { feature := some ⟨title, description, tags, none, [], ⟨inline, leading⟩, []⟩,
        target := some .feature }
      (background.toList.flatMap (fun block => block.kinds .background none)) =
      some { feature := some ⟨title, description, tags, background, [], ⟨inline, leading⟩, []⟩,
             target } := by
    cases background with
    | none => exact ⟨some .feature, rfl⟩
    | some block =>
        refine ⟨none, ?_⟩
        simp only [Option.toList_some, List.flatMap_cons, List.flatMap_nil, List.append_nil]
        exact feed_block _ ⟨.background, block, none⟩ _ (fun _ => rfl)
  rcases hback with ⟨target, hback⟩
  rcases feed_scenarios ⟨title, description, tags, background, [], ⟨inline, leading⟩, []⟩ target
    scenarios with ⟨target', hscen⟩
  refine ⟨target', ?_⟩
  simp only [Feature.openKinds, Comments.above, List.append_assoc, List.cons_append]
  rw [feed_after _ habove, List.nil_append, feed_cons _ hopen, feed_after _ hbeside,
    feed_after _ hback, feed_after _ hscen, feed_comments _ _ rfl]
  rfl

/-- An assembly that is complete takes nothing more. -/
theorem not_finished_of_feed {a b : Assembly} {ks : List EventKind} (h : a.feed ks = some b)
    (hb : b.finished = false) : a.finished = false := by
  cases ks with
  | nil =>
      rw [feed_nil, Option.some.injEq] at h
      rw [h]
      exact hb
  -- A finished assembly refuses whatever comes, so nothing was handed to it.
  | cons kind rest =>
      rw [← Bool.not_eq_true]
      intro hdone
      simp [feed, accept, hdone] at h

/-- Blank lines make no difference while the feature is not complete. -/
theorem feed_withoutBlanks {a b : Assembly} {ks : List EventKind}
    (h : a.feed (withoutBlanks ks) = some b) (hb : b.finished = false) : a.feed ks = some b := by
  induction ks generalizing a with
  | nil => exact h
  | cons kind rest ih =>
      -- A blank line is taken and changes nothing, unless the assembly is finished.
      by_cases hblank : kind = .blankLine
      · subst hblank
        have hopen := not_finished_of_feed h hb
        have htake : a.accept .blankLine = .taken a := by
          simp [accept, hopen, place, afterwards, dropsArguments, EventKind.isCloser]
        rw [feed_cons _ htake]
        exact ih h
      · rw [withoutBlanks_cons _ hblank, feed] at h
        rw [feed]
        cases htake : a.accept kind with
        | taken next =>
            rw [htake] at h
            exact ih h
        | refused reason next =>
            rw [htake] at h
            exact absurd h (by simp only [reduceCtorEq, not_false_eq_true])

/-- What is handed over before the end of a feature is taken, wherever blank
    lines stand. -/
theorem feed_before {t : Feature} {before : List EventKind}
    (h : withoutBlanks before ++ [.featureEnd] = t.kinds) :
    ∃ target, feed {} before =
      some { feature := some { t with trailing := [] }, waiting := t.trailing, target } := by
  rw [Feature.kinds_eq, List.append_left_inj] at h
  rcases feed_feature t with ⟨target, hfeed⟩
  rw [← h] at hfeed
  -- Blank lines go back in before the end of the feature, where they do no harm.
  exact ⟨target, feed_withoutBlanks hfeed rfl⟩

/-- The end of the feature completes it. -/
theorem feed_end {t : Feature} {before : List EventKind} {target : Option Target}
    (h : feed {} before =
      some { feature := some { t with trailing := [] }, waiting := t.trailing, target }) :
    feed {} (before ++ [.featureEnd]) = some { feature := some t, finished := true } := by
  rw [feed_after _ h]
  rfl

/-- The events of a tree complete the tree. -/
theorem feed_tree (t : Feature) :
    feed {} t.kinds = some { feature := some t, finished := true } := by
  rcases feed_feature t with ⟨target, hfeed⟩
  rw [Feature.kinds_eq]
  exact feed_end hfeed

/-- Part of what leads to an unfinished assembly leads to one as well. -/
theorem feed_unfinished {a b : Assembly} {taken before : List EventKind}
    (h : a.feed before = some b) (hb : b.finished = false) (hpre : taken <+: before) :
    ∃ c, a.feed taken = some c ∧ c.finished = false := by
  rcases hpre with ⟨more, rfl⟩
  rw [feed_append] at h
  rcases Option.bind_eq_some_iff.mp h with ⟨c, htaken, hmore⟩
  exact ⟨c, htaken, not_finished_of_feed hmore hb⟩

/-- A fresh assembly takes every event of a tree, whatever texts the tree holds
    and wherever blank lines stand between them. It has no feature to show until
    the last event, and then it shows the tree. -/
theorem feed_kinds (t : Feature) {before : List EventKind}
    (h : withoutBlanks before ++ [.featureEnd] = t.kinds) :
    (∀ taken, taken <+: before → ∃ a, feed {} taken = some a ∧ a.feature? = none) ∧
      ∃ a, feed {} (before ++ [.featureEnd]) = some a ∧ a.feature? = some t := by
  rcases feed_before h with ⟨target, hbefore⟩
  refine ⟨fun taken hpre => ?_, _, feed_end hbefore, rfl⟩
  rcases feed_unfinished hbefore rfl hpre with ⟨a, htaken, hopen⟩
  refine ⟨a, htaken, ?_⟩
  rw [feature?, hopen]
  rfl

/-- A tree that no document says: line breaks in a title and a tag, a reserved
    keyword, a step with a table of no rows, comments wherever there can be
    some. -/
def unruly : Feature where
  title := "two\nlines"
  tags := ["not a\ntag"]
  background := some { steps := [{ keyword := .or, argument := .table {} }] }
  scenarios := [
    .outline
      { title := "#"
        steps := [{ keyword := .context
                    argument := .docString ⟨3, ["\"\"\"", ""], ⟨some "", ["above"]⟩⟩ }] }
      (some { table := ⟨[⟨["|"], ⟨none, ["first"]⟩⟩, ⟨[], ⟨some "beside", []⟩⟩]⟩ }),
    .outline {} (some { comments := ⟨some "no rows", [" "]⟩ })]
  comments := ⟨some "inline", ["", "\t"]⟩
  trailing := ["last"]

/-- An unruly tree comes back even with a blank line before every event. -/
theorem feed_kinds_unruly :
    let before := unruly.kinds.dropLast.flatMap ([.blankLine, ·])
    ∃ a, feed {} (before ++ [.featureEnd]) = some a ∧ a.feature? = some unruly :=
  (feed_kinds unruly (by decide)).2

/-- Delivering events to one assembly is feeding it their kinds. -/
theorem deliverAll_answer {a b : Assembly} {events : List Event}
    (h : a.feed (events.map Event.kind) = some b) :
    deliverAll (answer : Assembly → Event → Reply Assembly Unit ProcessorError) [a] events =
      { processors := [b] } := by
  induction events generalizing a with
  | nil =>
      rw [List.map_nil, feed_nil, Option.some.injEq] at h
      rw [h]
      rfl
  | cons event rest ih =>
      rw [List.map_cons, feed] at h
      cases htake : a.accept event.kind with
      | taken next =>
          rw [htake] at h
          simp [deliverAll, deliver, answer, htake, Verdict.next, Verdict.reason?, ih h]
      | refused reason next =>
          rw [htake] at h
          exact absurd h (by simp only [reduceCtorEq, not_false_eq_true])

end Assembly

/-- A tree is determined by its events. -/
theorem Feature.kinds_injective : Function.Injective Feature.kinds := by
  intro t u h
  have hfeed := Assembly.feed_tree t
  rw [h, Assembly.feed_tree u] at hfeed
  simpa using hfeed.symm

/-- What an assembly makes of events that it takes. -/
theorem assemble_of_feed {events : List Event} {a : Assembly}
    (h : Assembly.feed {} (events.map Event.kind) = some a) :
    assemble events = a.feature?.elim (.error .missing) .ok := by
  unfold assemble
  rw [Assembly.deliverAll_answer h]
  cases hf : a.feature? <;> simp [hf]

/-- The events of a tree describe the tree, wherever blank lines stand. -/
theorem assemble_tree {events : List Event} {before : List EventKind} {t : Feature}
    (hkinds : events.map Event.kind = before ++ [.featureEnd])
    (htree : withoutBlanks before ++ [.featureEnd] = t.kinds) : assemble events = .ok t := by
  rcases Assembly.feed_before htree with ⟨target, hbefore⟩
  have hall := Assembly.feed_end hbefore
  rw [← hkinds] at hall
  rw [assemble_of_feed hall]
  rfl

/-- Comments and blank lines describe no tree. -/
theorem assemble_trivia {events : List Event} {texts : List String}
    (h : withoutBlanks (events.map Event.kind) = texts.map (EventKind.comment · false)) :
    assemble events = .error .missing := by
  have hfeed := Assembly.feed_comments {} texts rfl
  rw [← h] at hfeed
  rw [assemble_of_feed (Assembly.feed_withoutBlanks hfeed rfl)]
  rfl

end Gherkin
