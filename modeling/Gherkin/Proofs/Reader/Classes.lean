import Gherkin.Reader.Scan
import Gherkin.Proofs.Text.Trimming

/-!
# What the Classes of Lines Say

The class of a line is found by tests that are made one after the other.
This module turns the tests into facts: what a line of each class begins with,
and that a line that begins so has the class, whatever comes after. The
second half is by computation, because each beginning decides every test that
is made before its own.

## Main definitions

* `Begins`: What the content of a line of a class begins with.

## Theorems

* `classify_begins`: A line begins as its class says.
* `classify_of_fence`, `classify_heading`, `classify_step`: Lines that
  begin with a fence, a heading or a step keyword.
* `classify_ends_description`: The lines that end a description.
* `scanRow_of_class`: A line that is a row has the bar that opens one.
-/

namespace Gherkin

namespace Reader

/-- What the content of a line of a class begins with. -/
def Begins (content : List Char) : LineClass → Prop
  | .blank => content = []
  | .comment => ∃ rest, content = '#' :: rest
  | .tags => ∃ rest, content = '@' :: rest
  | .row => ∃ rest, content = '|' :: rest
  | .fence => ∃ rest, content = fence ++ rest
  | .heading opens => ∃ rest, content = opens.text.toList ++ rest
  | .step keyword => keyword ≠ .or ∧
      StepKeyword.startsWith keyword.text.toList content = true
  | .text => True

theorem exists_append_of_isPrefixOf {word content : List Char}
    (h : word.isPrefixOf content = true) : ∃ rest, content = word ++ rest := by
  rcases List.isPrefixOf_iff_prefix.mp h with ⟨rest, hrest⟩
  exact ⟨rest, hrest.symm⟩

/-- A line begins as its class says. -/
theorem classify_begins (text : List Char) :
    Begins (Text.skipBlanks text) (classify text) := by
  unfold classify classifyContent
  split
  · assumption
  · exact ⟨_, by assumption⟩
  · exact ⟨_, by assumption⟩
  · exact ⟨_, by assumption⟩
  -- A keyword or heading was found by its text, so the line begins with it.
  · split
    · exact exists_append_of_isPrefixOf (by assumption)
    · split
      · rename_i heading hfound
        unfold Heading.recognise? at hfound
        have hprefix := List.find?_some hfound
        exact exists_append_of_isPrefixOf hprefix
      · split
        · rename_i keyword hfound
          unfold StepKeyword.recognise? at hfound
          have hstarts := List.find?_some hfound
          refine ⟨?_, hstarts⟩
          -- The reserved keyword is not among those that are looked for.
          rintro rfl
          exact absurd (List.mem_of_find?_eq_some hfound) (by decide)
        · trivial

theorem begins_of_class {text : List Char} {cls : LineClass} (h : classify text = cls) :
    Begins (Text.skipBlanks text) cls := by
  rw [← h]
  exact classify_begins text

theorem classify_eq_of_content {text : List Char} {content : List Char} {cls : LineClass}
    (h : Text.skipBlanks text = content) (hc : classifyContent content = cls) :
    classify text = cls := by
  unfold classify
  rw [h, hc]

/-- A line that begins with a fence is a fence. -/
theorem classify_of_fence {text : List Char}
    (h : fence.isPrefixOf (Text.skipBlanks text) = true) : classify text = .fence := by
  rcases exists_append_of_isPrefixOf h with ⟨rest, hrest⟩
  exact classify_eq_of_content hrest rfl

/-- A line that begins with a heading is that heading. -/
theorem classify_heading {text rest : List Char} {heading : Heading}
    (h : Text.skipBlanks text = heading.text.toList ++ rest) :
    classify text = .heading heading := by
  refine classify_eq_of_content h ?_
  cases heading with
  | feature => rfl
  | examples => rfl
  | block kind => cases kind <;> rfl

/-- A line that begins with a step keyword and a blank is a step. -/
theorem classify_step {text rest : List Char} {keyword : StepKeyword} {c : Char}
    (hor : keyword ≠ .or) (hc : Text.isBlank c = true)
    (h : Text.skipBlanks text = keyword.text.toList ++ c :: rest) :
    classify text = .step keyword := by
  refine classify_eq_of_content h ?_
  simp only [Text.isBlank, Bool.or_eq_true, beq_iff_eq] at hc
  cases keyword with
  | context => rcases hc with rfl | rfl <;> rfl
  | action => rcases hc with rfl | rfl <;> rfl
  | outcome => rcases hc with rfl | rfl <;> rfl
  | and => rcases hc with rfl | rfl <;> rfl
  | but => rcases hc with rfl | rfl <;> rfl
  | or => exact absurd rfl hor

/-- A line ends a description exactly when it begins with a tag sign or with
    the heading of a block. -/
theorem classify_ends_description (text : List Char) :
    (classify text = .tags ∨ ∃ kind, classify text = .heading (.block kind)) ↔
      (Text.skipBlanks text).head? = some '@' ∨
        ∃ kind, (Heading.block kind).text.toList.isPrefixOf (Text.skipBlanks text) = true := by
  constructor
  · intro hends
    rcases hends with h | ⟨kind, h⟩
    · rcases begins_of_class h with ⟨rest, hrest⟩
      exact Or.inl (by rw [hrest]; rfl)
    · rcases begins_of_class h with ⟨rest, hrest⟩
      exact Or.inr ⟨kind, by rw [hrest, List.isPrefixOf_iff_prefix]; exact List.prefix_append _ _⟩
  · intro hcontent
    rcases hcontent with h | ⟨kind, h⟩
    · cases hskip : Text.skipBlanks text with
      | nil => rw [hskip] at h; exact absurd h (by simp)
      | cons c rest =>
          rw [hskip, List.head?_cons, Option.some.injEq] at h
          subst h
          exact Or.inl (classify_eq_of_content hskip rfl)
    · rcases exists_append_of_isPrefixOf h with ⟨rest, hrest⟩
      exact Or.inr ⟨kind, classify_heading hrest⟩

/-- A line that is a row has the bar that opens one. -/
theorem scanRow_of_class {text : List Char} (h : classify text = .row) :
    scanRow text = scanRowBody ((Text.skipBlanks text).drop 1) := by
  rcases begins_of_class h with ⟨rest, hrest⟩
  simp only [scanRow, hrest, List.drop_one, List.tail_cons]

end Reader

end Gherkin
