import Gherkin.Proofs.Reader.TreeSoFar
import Gherkin.Proofs.Tree.Assembled

/-!
# The Tree and the Events of a Document

The reader and the assembly are two machines with a state each, and the one
knows nothing of the other. They agree all the same: whatever the reader
accepts, the assembly turns into the tree that the events were read off.

`readEvents_tree` gives the tree of an accepted document without the assembly,
and `assemble_tree` says that the assembly finds it. What is left is to tell
documents with a feature from those without one.

## Theorems

* `readFeature_of_events`: The feature of an accepted document, and its events.
* `readFeature_congr`: Blank lines among the events make no difference.
* `readFeature_kinds`: What a document yields in each of the three cases.
-/

namespace Gherkin

open Reader (IsTrivia)

/-- Whether a feature is announced among events. -/
def AnnouncesFeature (kinds : List EventKind) : Prop :=
  ∃ title description tags, EventKind.feature title description tags ∈ kinds

theorem Feature.announces_kinds (t : Feature) : AnnouncesFeature t.kinds := by
  refine ⟨t.title, t.description, t.tags, ?_⟩
  simp [Feature.kinds]

theorem announces_withoutBlanks {kinds : List EventKind} :
    AnnouncesFeature (withoutBlanks kinds) ↔ AnnouncesFeature kinds := by
  simp [AnnouncesFeature, withoutBlanks]

theorem not_announces_of_isTrivia {kinds : List EventKind} (h : IsTrivia kinds) :
    ¬ AnnouncesFeature kinds := by
  rintro ⟨title, description, tags, hmem⟩
  rcases h _ hmem with hblank | ⟨text, hcomment, -⟩
  · exact absurd hblank (by simp only [reduceCtorEq, not_false_eq_true])
  · exact absurd hcomment (by simp only [reduceCtorEq, not_false_eq_true])

/-- An accepted document yields a printable tree whose events it has, or it
    has no feature at all. -/
theorem readFeature_of_events {source : String} {events : List Event}
    (h : readEvents source = .ok events) :
    (∃ t : Feature, t.Printable ∧ readFeature source = .ok t ∧
      t.kinds = withoutBlanks (events.map Event.kind)) ∨
    (IsTrivia (events.map Event.kind) ∧ readFeature source = .error .missing) := by
  have hread : readFeature source = assemble events := by rw [readFeature, h]
  rw [hread]
  rcases Reader.readEvents_tree h with ⟨t, ht, before, hkinds, htree⟩ | htrivia
  · refine Or.inl ⟨t, ht, assemble_tree hkinds htree, ?_⟩
    rw [← htree, hkinds, withoutBlanks_append]
    simp
  · rcases htrivia.comments with ⟨texts, htexts, -⟩
    exact Or.inr ⟨htrivia, assemble_trivia htexts⟩

/-- Documents whose events are of the same kinds, less blank lines, yield the
    same tree or none. -/
theorem readFeature_congr {first second : String} {events others : List Event}
    (hfirst : readEvents first = .ok events) (hsecond : readEvents second = .ok others)
    (hkinds : withoutBlanks (events.map Event.kind) = withoutBlanks (others.map Event.kind)) :
    (∃ t, readFeature first = .ok t ∧ readFeature second = .ok t) ∨
      (readFeature first = .error .missing ∧ readFeature second = .error .missing) := by
  -- A tree announces its feature, and trivia does not.
  have hnone : ∀ {kinds : List EventKind} {t : Feature}, IsTrivia kinds →
      t.kinds ≠ withoutBlanks kinds := by
    intro kinds t htrivia ht
    have hannounces := t.announces_kinds
    rw [ht, announces_withoutBlanks] at hannounces
    exact not_announces_of_isTrivia htrivia hannounces
  rcases readFeature_of_events hfirst with ⟨t, -, ht, htkinds⟩ | ⟨htrivia, hmissing⟩ <;>
    rcases readFeature_of_events hsecond with ⟨u, -, hu, hukinds⟩ | ⟨htrivia', hmissing'⟩
  · rw [hkinds, ← hukinds] at htkinds
    exact Or.inl ⟨t, ht, Feature.kinds_injective htkinds ▸ hu⟩
  · exact absurd (htkinds.trans hkinds) (hnone htrivia')
  · exact absurd (hukinds.trans hkinds.symm) (hnone htrivia)
  · exact Or.inr ⟨hmissing, hmissing'⟩

/-- A document that is refused yields no feature, for the same reason. One
    that is accepted yields a feature if and only if its events announce one,
    and the events of the feature are then those of the document less its
    blank lines. Events never fail to make a tree. -/
theorem readFeature_kinds (source : String) :
    (∀ refusal, readEvents source = .error refusal →
      readFeature source = .error (.refused refusal)) ∧
    (∀ events, readEvents source = .ok events → AnnouncesFeature (events.map Event.kind) →
      ∃ t : Feature, readFeature source = .ok t ∧
        t.kinds = withoutBlanks (events.map Event.kind)) ∧
    (∀ events, readEvents source = .ok events → ¬ AnnouncesFeature (events.map Event.kind) →
      readFeature source = .error .missing) ∧
    ∀ error, readFeature source ≠ .error (.processor error) := by
  refine ⟨?_, ?_, ?_, ?_⟩
  · intro refusal h
    rw [readFeature, h]
  · intro events h hannounces
    rcases readFeature_of_events h with ⟨t, -, ht, hkinds⟩ | ⟨htrivia, -⟩
    · exact ⟨t, ht, hkinds⟩
    · exact absurd hannounces (not_announces_of_isTrivia htrivia)
  -- A tree announces its feature, so there was none.
  · intro events h hnone
    rcases readFeature_of_events h with ⟨t, -, -, hkinds⟩ | ⟨-, hmissing⟩
    · have hannounces := t.announces_kinds
      rw [hkinds, announces_withoutBlanks] at hannounces
      exact absurd hannounces hnone
    · exact hmissing
  -- Of the three ways to fail, the assembly never takes the one through its events.
  · intro error herror
    cases hread : readEvents source with
    | error refusal =>
        rw [readFeature, hread] at herror
        exact absurd herror (by simp)
    | ok events =>
        rcases readFeature_of_events hread with ⟨t, -, ht, -⟩ | ⟨-, hmissing⟩
        · rw [ht] at herror
          exact absurd herror (by simp)
        · rw [hmissing] at herror
          exact absurd herror (by simp)

end Gherkin
