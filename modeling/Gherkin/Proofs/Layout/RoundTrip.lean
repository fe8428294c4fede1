import Gherkin.Proofs.Agreement
import Gherkin.Proofs.Layout.Reread

/-!
# Printing and Reading Again

A feature that was read from a document, printed without colours and with its
comments, and read again is the same feature. Only the indentation of its doc
strings is new, because the layout chooses it.

The argument does not look at the document at all. Every tree that is read is
printable, and for printable trees the lines of the page say what they were
made from; the assembly then puts the same tree together.

## Theorems

* `printable_of_readFeature`: Trees that are read are printable.
* `readEvents_formatFeature`: The events of a printed feature.
* `readFeature_printed`: A printable tree is read back.
* `readFeature_formatFeature`: A tree that was read is read back.
-/

namespace Gherkin

open Layout (argumentIndent)

/-- Trees that are read are printable. -/
theorem printable_of_readFeature {source : String} {t : Feature}
    (h : readFeature source = .ok t) : t.Printable := by
  cases hread : readEvents source with
  | error refusal =>
      rw [readFeature, hread] at h
      exact absurd h (by simp)
  | ok events =>
      rcases readFeature_of_events hread with ⟨t', ht', hread', -⟩ | ⟨-, hmissing⟩
      · rw [h, Except.ok.injEq] at hread'
        rw [hread']
        exact ht'
      · rw [h] at hmissing
        exact absurd hmissing (by simp)

/-- The events of a printed feature, up to blank lines. -/
theorem readEvents_formatFeature {t : Feature} (h : t.Printable) {options : Layout.Options}
    (hcolor : options.color = false) (hskip : options.skipComments = false) :
    ∃ events before, readEvents (formatFeature t options) = .ok events ∧
      events.map Event.kind = before ++ [.featureEnd] ∧
      withoutBlanks before ++ [.featureEnd] = (t.reindented argumentIndent).kinds := by
  rcases Layout.featurePage_kinds hcolor hskip h with ⟨kinds, g, before, hpass, hfinish, hbefore⟩
  rcases (Layout.featurePage options t).render_texts options with ⟨texts, htexts, hrender⟩
  have hlines := Source.lines_ended texts (hpass.unbroken htexts)
  have hrun := Reader.readEvents_gist (formatFeature t options)
  rw [formatFeature, hrender, hlines, hpass.run htexts, hfinish, ← hrender] at hrun
  cases hread : readEvents ((Layout.featurePage options t).render options) with
  | error refusal =>
      rw [hread] at hrun
      exact absurd hrun (by simp [Except.toOption])
  | ok events =>
      rw [hread] at hrun
      simp only [Except.toOption, Option.map_some, Option.some.injEq] at hrun
      exact ⟨events, before, hread, hrun, hbefore⟩

/-- A printable tree is read back. -/
theorem readFeature_printed {t : Feature} (h : t.Printable) {options : Layout.Options}
    (hcolor : options.color = false) (hskip : options.skipComments = false) :
    readFeature (formatFeature t options) = .ok (t.reindented argumentIndent) := by
  rcases readEvents_formatFeature h hcolor hskip with ⟨events, before, hread, hkinds, htree⟩
  rw [readFeature, hread]
  exact assemble_tree hkinds htree

/-- A tree that was read from a document is read back from its printed form,
    with every doc string indented by six. -/
theorem readFeature_formatFeature {source : String} {t : Feature}
    (h : readFeature source = .ok t) (options : Layout.Options) (hcolor : options.color = false)
    (hskip : options.skipComments = false) :
    readFeature (formatFeature t options) = .ok (t.reindented 6) :=
  readFeature_printed (printable_of_readFeature h) hcolor hskip

/-- A document with comments, tags, a description, a table and a doc string
    that is not where the layout would put it. -/
def roundTripSample : String :=
  "#top\n@a @b\nFeature: \"f # g\" # title\n  one\n\n  two\n  Background:\n" ++
    "  # above\n  Given x\\# # beside\n   | a |  | # row\n   # next\n   | 1 | 2 |\n" ++
    " Scenario Outline:\n  @c\n  When y\n \"\"\"\n   body\n\n \"\"\" # closed\n" ++
    "  Examples: # none\n# end"

/-- The sample survives a narrow, centred layout, though its doc string moves. -/
theorem readFeature_formatFeature_sample : ∃ t, readFeature roundTripSample = .ok t ∧
    t.reindented 6 ≠ t ∧
    readFeature (formatFeature t { centerSteps := true, commentMinIndent := 3 }) =
      .ok (t.reindented 6) := by
  have hsome : (readFeature roundTripSample).toOption.any
      (fun t => decide (t.reindented 6 ≠ t)) = true := by
    decide +kernel
  cases hread : readFeature roundTripSample with
  | error failure =>
      rw [hread] at hsome
      exact absurd hsome (by simp [Except.toOption])
  | ok t =>
      rw [hread] at hsome
      refine ⟨t, rfl, by simpa [Except.toOption] using hsome, ?_⟩
      exact readFeature_formatFeature hread _ rfl rfl

end Gherkin
