import Gherkin.Proofs.Layout.RoundTrip
import Gherkin.Proofs.Tree.UpToLayout

/-!
# What the Layout Forgets

Two things that a tree holds are not shown on its page. Doc strings are put
where the layout wants them, so how far they were indented is lost; and a
layout without comments loses these too. Trees that differ in nothing else
have the same page.

That makes the layout canonical. A printed tree is read back up to what the
layout forgets, so printing it once more, in this layout or in another that
forgets no less, gives what printing the tree itself would have given. And it
makes being printable the exact condition for being read back: trees that are
read are printable, and whether a tree is does not depend on what is forgotten.

## Main definitions

* `Options.commented`: The same layout, but with comments.

## Theorems

* `featurePage_reindented`, `featurePage_uncommented`: Trees with one page.
* `Feature.printable_reindented`, `Feature.Printable.uncommented`: What is
  forgotten does not decide what is printable.
* `formatSource_formatSource`: Printing again, in any layout.
* `readFeature_formatFeature_iff`: Which trees are read back.
* `formatFeature_skipping`: Leaving comments out is removing them first.
-/

namespace Gherkin

namespace Layout

section Indentation

variable (options : Options) (indent : Nat)

theorem argumentLines_reindented (argument : Argument) :
    argumentLines options (argument.reindented indent) = argumentLines options argument := by
  cases argument with
  | none => rfl
  | docString doc => rfl
  | table grid => rfl

theorem stepLines_reindented (step : Step) :
    stepLines options (step.reindented indent) = stepLines options step := by
  unfold stepLines
  rw [← argumentLines_reindented options indent step.argument]
  rfl

theorem blockLines_reindented (kind : BlockKind) (block : Block) :
    blockLines options kind (block.reindented indent) = blockLines options kind block := by
  unfold blockLines Block.reindented
  simp only [List.flatMap_map, stepLines_reindented]

theorem addScenario_reindented (page : Page) (scenario : Scenario) :
    page.addScenario options (scenario.reindented indent) = page.addScenario options scenario := by
  cases scenario with
  | plain block => simp only [Scenario.reindented, Page.addScenario, blockLines_reindented]
  | outline block examples =>
      cases examples with
      | none => simp only [Scenario.reindented, Page.addScenario, blockLines_reindented]
      | some examples => simp only [Scenario.reindented, Page.addScenario, blockLines_reindented]

/-- The layout does not show how far doc strings were indented. -/
theorem featurePage_reindented (t : Feature) :
    featurePage options (t.reindented indent) = featurePage options t := by
  have hopening : openingLines options (t.reindented indent) = openingLines options t := rfl
  unfold featurePage
  rw [hopening]
  cases hb : t.background with
  | none => simp [Feature.reindented, hb, List.foldl_map, addScenario_reindented]
  | some block =>
      simp [Feature.reindented, hb, List.foldl_map, addScenario_reindented, blockLines_reindented]

end Indentation

/-- The same layout, but with comments. -/
def Options.commented (options : Options) : Options :=
  { options with skipComments := false }

section WithoutComments

-- A layout without comments shows of a tree what one with comments shows of the same tree
-- without its comments.
variable {options : Options} (hskip : options.skipComments = true)
include hskip

theorem commentLines_skipped (indent : Nat) (texts : List String) :
    commentLines options indent texts = [] := by
  simp [commentLines, hskip]

theorem headingLine_skipped (indent : Nat) (heading : Heading) (title : String)
    (comments : Comments) :
    headingLine options indent heading title comments =
      headingLine options.commented indent heading title {} := by
  simp [headingLine, inlineComment, hskip, Options.commented]

theorem docStringLines_skipped (doc : DocString) :
    docStringLines options doc = docStringLines options.commented doc.uncommented := by
  simp [docStringLines, commentLines, inlineComment, hskip, Options.commented,
    DocString.uncommented]

theorem tableLines_skipped (table : Table) :
    tableLines options table = tableLines options.commented table.uncommented := by
  -- Columns are as wide as their cells, whatever stands beside them.
  have hwidths : widths table.uncommented = widths table := by
    simp [widths, Table.uncommented, Row.uncommented, List.foldr_map]
  unfold tableLines
  rw [hwidths]
  simp [Table.uncommented, Row.uncommented, List.flatMap_map, commentLines, inlineComment, hskip,
    Options.commented]

theorem argumentLines_skipped (argument : Argument) :
    argumentLines options argument = argumentLines options.commented argument.uncommented := by
  cases argument with
  | none => rfl
  | docString doc => exact docStringLines_skipped hskip doc
  | table grid => exact tableLines_skipped hskip grid

theorem stepLines_skipped (step : Step) :
    stepLines options step = stepLines options.commented step.uncommented := by
  unfold stepLines
  rw [commentLines_skipped hskip, argumentLines_skipped hskip]
  simp only [Step.uncommented, commentLines, stepLine, inlineComment, hskip, Options.commented,
    if_true, Bool.false_eq_true, if_false, List.map_nil]
  rfl

theorem blockLines_skipped (kind : BlockKind) (block : Block) :
    blockLines options kind block = blockLines options.commented kind block.uncommented := by
  have hsteps : stepLines options = fun step => stepLines options.commented step.uncommented :=
    funext (stepLines_skipped hskip)
  unfold blockLines
  rw [commentLines_skipped hskip, headingLine_skipped hskip, hsteps]
  simp [Block.uncommented, commentLines, List.flatMap_map]

theorem examplesLines_skipped (examples : Examples) :
    examplesLines options examples = examplesLines options.commented examples.uncommented := by
  unfold examplesLines
  rw [commentLines_skipped hskip, headingLine_skipped hskip, tableLines_skipped hskip]
  simp [Examples.uncommented, commentLines]

theorem addScenario_skipped (page : Page) (scenario : Scenario) :
    page.addScenario options scenario =
      page.addScenario options.commented scenario.uncommented := by
  cases scenario with
  | plain block => simp only [Scenario.uncommented, Page.addScenario, blockLines_skipped hskip]
  | outline block examples =>
      cases examples with
      | none =>
          simp only [Scenario.uncommented, Option.map_none, Page.addScenario,
            blockLines_skipped hskip]
      | some examples =>
          simp only [Scenario.uncommented, Option.map_some, Page.addScenario,
            blockLines_skipped hskip, examplesLines_skipped hskip]

/-- A layout without comments shows the tree without its comments. -/
theorem featurePage_uncommented (t : Feature) :
    featurePage options t = featurePage options.commented t.uncommented := by
  have hopening : openingLines options t = openingLines options.commented t.uncommented := by
    unfold openingLines
    rw [commentLines_skipped hskip, headingLine_skipped hskip]
    simp [Feature.uncommented, commentLines, Feature.descriptionLines]
  have hscenarios : Page.addScenario options =
      fun page scenario => page.addScenario options.commented scenario.uncommented := by
    funext page scenario
    exact addScenario_skipped hskip page scenario
  unfold featurePage
  rw [hopening, hscenarios]
  cases hb : t.background with
  | none => simp [Feature.uncommented, hb, hskip, List.foldl_map]
  | some block =>
      simp [Feature.uncommented, hb, hskip, List.foldl_map, blockLines_skipped hskip]

end WithoutComments

end Layout

section Printable

-- Being printable is about texts alone, and the number of an indentation is no text.

theorem Argument.printable_reindented {indent : Nat} {argument : Argument} :
    (argument.reindented indent).Printable ↔ argument.Printable := by
  cases argument with
  | none => exact Iff.rfl
  | table grid => exact Iff.rfl
  | docString doc => exact ⟨fun h => ⟨h.lines, h.comments⟩, fun h => ⟨h.lines, h.comments⟩⟩

theorem Step.printable_reindented {indent : Nat} {step : Step} :
    (step.reindented indent).Printable ↔ step.Printable := by
  constructor
  · intro h
    exact ⟨h.keyword, h.text, h.tags, Argument.printable_reindented.mp h.argument, h.comments⟩
  · intro h
    exact ⟨h.keyword, h.text, h.tags, Argument.printable_reindented.mpr h.argument, h.comments⟩

theorem Block.printable_reindented {indent : Nat} {block : Block} :
    (block.reindented indent).Printable ↔ block.Printable := by
  have hsteps : (∀ step ∈ (block.reindented indent).steps, step.Printable) ↔
      ∀ step ∈ block.steps, step.Printable := by
    simp only [Block.reindented, List.forall_mem_map, Step.printable_reindented]
  exact ⟨fun h => ⟨h.title, h.tags, hsteps.mp h.steps, h.comments⟩,
    fun h => ⟨h.title, h.tags, hsteps.mpr h.steps, h.comments⟩⟩

theorem Scenario.printable_reindented {indent : Nat} {scenario : Scenario} :
    (scenario.reindented indent).Printable ↔ scenario.Printable := by
  cases scenario with
  | plain block => exact Block.printable_reindented
  | outline block examples => exact and_congr_left' Block.printable_reindented

/-- How far doc strings are indented does not decide what is printable. -/
theorem Feature.printable_reindented {indent : Nat} {t : Feature} :
    (t.reindented indent).Printable ↔ t.Printable := by
  have hbackground : (∀ block ∈ (t.reindented indent).background, block.Printable) ↔
      ∀ block ∈ t.background, block.Printable := by
    simp [Feature.reindented, Block.printable_reindented]
  have hscenarios : (∀ scenario ∈ (t.reindented indent).scenarios, scenario.Printable) ↔
      ∀ scenario ∈ t.scenarios, scenario.Printable := by
    simp only [Feature.reindented, List.forall_mem_map, Scenario.printable_reindented]
  constructor
  · intro h
    exact ⟨h.title, h.description, h.tags, hbackground.mp h.background,
      hscenarios.mp h.scenarios, h.comments, h.trailing⟩
  · intro h
    exact ⟨h.title, h.description, h.tags, hbackground.mpr h.background,
      hscenarios.mpr h.scenarios, h.comments, h.trailing⟩

theorem Comments.Printable.none : ({} : Comments).Printable :=
  ⟨fun _ h => absurd h (by simp), fun _ h => absurd h (by simp)⟩

theorem Table.Printable.uncommented {table : Table} (h : table.Printable) :
    table.uncommented.Printable := by
  rcases h with ⟨columns, hpos, hrows⟩
  refine ⟨columns, hpos, ?_⟩
  simp only [Table.uncommented, List.forall_mem_map]
  intro row hrow
  have hprintable := hrows row hrow
  exact ⟨hprintable.length, hprintable.cells, .none,
    fun _ ht => absurd ht (by simp [Row.uncommented])⟩

theorem Argument.Printable.uncommented {argument : Argument} (h : argument.Printable) :
    argument.uncommented.Printable := by
  cases argument with
  | none => trivial
  | docString doc => exact ⟨h.lines, .none⟩
  | table grid => exact ⟨by simpa [Table.uncommented] using h.1, h.2.uncommented⟩

theorem Block.Printable.uncommented {block : Block} (h : block.Printable) :
    block.uncommented.Printable := by
  refine ⟨h.title, h.tags, ?_, .none⟩
  simp only [Block.uncommented, List.forall_mem_map]
  intro step hstep
  have hprintable := h.steps step hstep
  exact ⟨hprintable.keyword, hprintable.text, hprintable.tags, hprintable.argument.uncommented,
    .none⟩

theorem Scenario.Printable.uncommented {scenario : Scenario} (h : scenario.Printable) :
    scenario.uncommented.Printable := by
  cases scenario with
  | plain block => exact Block.Printable.uncommented h
  | outline block examples =>
      refine ⟨h.1.uncommented, ?_⟩
      intro e he
      rcases Option.map_eq_some_iff.mp he with ⟨shown, hshown, rfl⟩
      exact ⟨(h.2 shown hshown).table.uncommented, .none⟩

/-- A printable tree without its comments is printable. -/
theorem Feature.Printable.uncommented {t : Feature} (h : t.Printable) :
    t.uncommented.Printable := by
  refine ⟨h.title, h.description, h.tags, ?_, ?_, .none,
    fun _ ht => absurd ht (by simp [Feature.uncommented])⟩
  · intro block hblock
    rcases Option.map_eq_some_iff.mp hblock with ⟨shown, hshown, rfl⟩
    exact (h.background shown hshown).uncommented
  · simp only [Feature.uncommented, List.forall_mem_map]
    intro scenario hscenario
    exact (h.scenarios scenario hscenario).uncommented

end Printable

section Idempotence

-- Nothing is left to be removed the second time.

theorem Table.uncommented_idem (table : Table) :
    table.uncommented.uncommented = table.uncommented := by
  simp [Table.uncommented, Row.uncommented]

theorem Argument.uncommented_idem (argument : Argument) :
    argument.uncommented.uncommented = argument.uncommented := by
  cases argument with
  | none => rfl
  | docString doc => rfl
  | table grid => simp only [Argument.uncommented, Table.uncommented_idem]

theorem Block.uncommented_idem (block : Block) :
    block.uncommented.uncommented = block.uncommented := by
  simp [Block.uncommented, Step.uncommented, Argument.uncommented_idem]

theorem Scenario.uncommented_idem (scenario : Scenario) :
    scenario.uncommented.uncommented = scenario.uncommented := by
  cases scenario with
  | plain block => simp only [Scenario.uncommented, Block.uncommented_idem]
  | outline block examples =>
      cases examples <;>
        simp [Scenario.uncommented, Block.uncommented_idem, Examples.uncommented,
          Table.uncommented_idem]

theorem Feature.uncommented_idem (t : Feature) : t.uncommented.uncommented = t.uncommented := by
  cases hb : t.background <;>
    simp [Feature.uncommented, hb, Block.uncommented_idem, Scenario.uncommented_idem]

end Idempotence

theorem formatFeature_reindented (t : Feature) (indent : Nat) (options : Layout.Options) :
    formatFeature (t.reindented indent) options = formatFeature t options := by
  rw [formatFeature, Layout.featurePage_reindented, formatFeature]

/-- Where lines go and how they look does not depend on whether comments were
    left out. -/
theorem formatFeature_uncommented {options : Layout.Options} (hskip : options.skipComments = true)
    (t : Feature) :
    formatFeature t options = formatFeature t.uncommented options.commented := by
  rw [formatFeature, Layout.featurePage_uncommented hskip]
  rfl

/-- A printable tree that is printed without its comments is read back without
    them. -/
theorem readFeature_uncommented {t : Feature} (h : t.Printable) {options : Layout.Options}
    (hcolor : options.color = false) (hskip : options.skipComments = true) :
    readFeature (formatFeature t options) =
      .ok (t.uncommented.reindented Layout.argumentIndent) := by
  rw [formatFeature_uncommented hskip]
  exact readFeature_printed h.uncommented hcolor rfl

/-- A tree that was read, printed in any layout without colours, is read back
    as a tree that every layout which forgets no less prints alike. -/
theorem exists_readFeature_formatFeature {source : String} {t : Feature}
    (h : readFeature source = .ok t) {first second : Layout.Options} (hcolor : first.color = false)
    (hskip : first.skipComments = true → second.skipComments = true) :
    ∃ t', readFeature (formatFeature t first) = .ok t' ∧
      formatFeature t' second = formatFeature t second := by
  have hprintable := printable_of_readFeature h
  cases hcomments : first.skipComments with
  | false =>
      exact ⟨_, readFeature_printed hprintable hcolor hcomments,
        formatFeature_reindented t _ second⟩
  -- Without comments the page is that of the tree without its comments.
  | true =>
      refine ⟨_, readFeature_uncommented hprintable hcolor hcomments, ?_⟩
      rw [formatFeature_reindented, formatFeature_uncommented (hskip hcomments),
        t.uncommented_idem, ← formatFeature_uncommented (hskip hcomments)]

/-- A document that was printed without colours prints, in any layout that
    leaves out no fewer comments, as the document it was printed from. In its
    own layout it does not change. -/
theorem formatSource_formatSource {source text : String} {first second : Layout.Options}
    (hcolor : first.color = false)
    (hskip : first.skipComments = true → second.skipComments = true)
    (h : formatSource source first = .ok text) :
    (∃ again, formatSource source second = .ok again ∧ formatSource text second = .ok again) ∧
    formatSource text first = .ok text := by
  cases hread : readFeature source with
  | error failure =>
      rw [formatSource, hread] at h
      exact absurd h (by simp [Except.map])
  | ok t =>
      have htext : formatFeature t first = text := by
        rw [formatSource, hread] at h
        exact Except.ok.inj h
      -- What is read back prints alike in the second layout, and in the first.
      have hagain : ∀ options : Layout.Options,
          (first.skipComments = true → options.skipComments = true) →
          formatSource text options = .ok (formatFeature t options) := by
        intro options hmore
        rcases exists_readFeature_formatFeature hread hcolor hmore with ⟨t', hread', hsame⟩
        rw [formatSource, ← htext, hread', ← hsame]
        rfl
      refine ⟨⟨formatFeature t second, ?_, hagain second hskip⟩, ?_⟩
      · rw [formatSource, hread]
        rfl
      · rw [hagain first id, htext]

/-- A document with comments whose step is not where a layout would put it. -/
def commentedSample : String :=
  "Feature: f # c\nScenario:\n# d\nGiven x\n"

/-- The sample without its comments, printed once more with centred steps and
    in colour. -/
theorem formatSource_formatSource_sample : ∃ text again,
    formatSource commentedSample { skipComments := true } = .ok text ∧ text ≠ commentedSample ∧
    formatSource commentedSample { skipComments := true, centerSteps := true, color := true } =
      .ok again ∧
    formatSource text { skipComments := true, centerSteps := true, color := true } = .ok again := by
  have hsome : (formatSource commentedSample { skipComments := true }).toOption.any
      (fun text => text != commentedSample) = true := by
    decide +kernel
  cases hfirst : formatSource commentedSample { skipComments := true } with
  | error failure =>
      rw [hfirst] at hsome
      exact absurd hsome (by simp [Except.toOption])
  | ok text =>
      rw [hfirst] at hsome
      have hagain : (∃ again, _ ∧ formatSource text
          { skipComments := true, centerSteps := true, color := true } = .ok again) ∧ _ :=
        formatSource_formatSource rfl (fun _ => rfl) hfirst
      rcases hagain.1 with ⟨again, hsource, htext⟩
      exact ⟨text, again, rfl, by simpa [Except.toOption] using hsome, hsource, htext⟩

/-- Exactly the printable trees are read back from their page. -/
theorem readFeature_formatFeature_iff (t : Feature) (options : Layout.Options)
    (hcolor : options.color = false) (hskip : options.skipComments = false) :
    readFeature (formatFeature t options) = .ok (t.reindented 6) ↔ t.Printable := by
  constructor
  · intro h
    exact Feature.printable_reindented.mp (printable_of_readFeature h)
  · intro h
    exact readFeature_printed h hcolor hskip

/-- A tree with one scenario of one step. -/
def singleStep (keyword : StepKeyword) : Feature where
  title := "f"
  scenarios := [.plain { steps := [{ keyword, text := "x" }] }]

/-- A step with a reserved keyword can be printed, but is not read back; that
    the same step with another keyword is shows that it is printable. -/
theorem readFeature_formatFeature_iff_reserved :
    readFeature (formatFeature (singleStep .or) {}) ≠ .ok ((singleStep .or).reindented 6) ∧
    (singleStep .and).Printable := by
  constructor
  · rw [Ne, readFeature_formatFeature_iff _ _ rfl rfl]
    intro h
    have hblock : Block.Printable _ := h.scenarios _ List.mem_cons_self
    exact (hblock.steps _ List.mem_cons_self).keyword rfl
  · exact (readFeature_formatFeature_iff (singleStep .and) {} rfl rfl).mp (by decide +kernel)

/-- A layout without comments prints a tree as one with comments prints it once
    its comments are removed. So trees that differ in nothing but comments are
    printed alike, and a tree that was read is read back without them. -/
theorem formatFeature_skipping (t : Feature) (options : Layout.Options) :
    formatFeature t { options with skipComments := true } =
        formatFeature t.uncommented { options with skipComments := false } ∧
      (∀ other : Feature, other.uncommented = t.uncommented →
        formatFeature other { options with skipComments := true } =
          formatFeature t { options with skipComments := true }) ∧
      ∀ source, readFeature source = .ok t → options.color = false →
        readFeature (formatFeature t { options with skipComments := true }) =
          .ok (t.uncommented.reindented 6) := by
  have hremoved : ∀ tree : Feature, formatFeature tree { options with skipComments := true } =
      formatFeature tree.uncommented { options with skipComments := false } :=
    fun tree => formatFeature_uncommented rfl tree
  refine ⟨hremoved t, fun other hsame => ?_, fun source hread hcolor => ?_⟩
  · rw [hremoved other, hremoved t, hsame]
  · exact readFeature_uncommented (printable_of_readFeature hread) hcolor rfl

/-- The sample of a round trip has comments of every sort. Centred and without
    them it is read back as its tree without them, which is printed alike. -/
theorem formatFeature_skipping_sample : ∃ t, readFeature roundTripSample = .ok t ∧
    t.uncommented ≠ t ∧
    readFeature (formatFeature t { centerSteps := true, skipComments := true }) =
      .ok (t.uncommented.reindented 6) ∧
    formatFeature t.uncommented { centerSteps := true, skipComments := true } =
      formatFeature t { centerSteps := true, skipComments := true } := by
  have hsome : (readFeature roundTripSample).toOption.any
      (fun t => decide (t.uncommented ≠ t)) = true := by
    decide +kernel
  cases hread : readFeature roundTripSample with
  | error failure =>
      rw [hread] at hsome
      exact absurd hsome (by simp [Except.toOption])
  | ok t =>
      rw [hread] at hsome
      have hskipping := formatFeature_skipping t { centerSteps := true }
      refine ⟨t, rfl, by simpa [Except.toOption] using hsome, ?_, ?_⟩
      · exact hskipping.2.2 roundTripSample hread rfl
      · exact hskipping.2.1 t.uncommented t.uncommented_idem

end Gherkin
