import Gherkin.Proofs.Agreement
import Gherkin.Proofs.Reader.Parallel
import Gherkin.Proofs.Source.Positions

/-!
# How Lines End Makes No Difference

Two documents whose lines have the same texts are the same to a reader,
whether a line ends in a line feed, a carriage return or both. They are
accepted together, with events of the same kinds and the same tree, or refused
together for the same cause.

A refusal also names a line and a column and quotes what stands there, and
these are the same as well. A place on a line is told by the number of lines
above it and by the text before it. Only the end of a document has no such
place: it is told as the end of the last line or as the line after it,
depending on whether that line is ended. So the last line must be ended in both
documents or in neither.

## Main definitions

* `SameReading`: Two documents are the same to a reader.

## Theorems

* `Reader.Opposite.told_alike`, `Refusal.ofFault_alike`: Places and faults that
  correspond are told in the same words.
* `readEvents_same_texts`: Documents with the same texts are read the same.
-/

namespace Gherkin

open Reader
open Source (Line)

section Telling

variable {first second : String}

/-- Places that lie opposite each other are told in the same words. -/
theorem Reader.Opposite.told_alike {offset twin : Nat}
    (h : Opposite (Source.lines first) (Source.lines second) offset twin) :
    locate first offset = locate second twin ∧
      excerptAt first (min offset (Source.size first)) =
        excerptAt second (min twin (Source.size second)) := by
  rcases h with ⟨above, below, above', below', line, start, ending, rest, hfirst, hsecond, habove,
    hrest⟩
  have htwin : rest <:+ (Line.mk start line.text ending).text := hrest
  have hle := (Source.at_place hfirst hrest).1.le_size
  have hle' := (Source.at_place hsecond htwin).1.le_size
  rw [locate_place hfirst hrest, locate_place hsecond htwin, Nat.min_eq_left hle,
    Nat.min_eq_left hle', excerptAt_rest hfirst hrest, excerptAt_rest hsecond htwin, habove]
  exact ⟨rfl, rfl⟩

/-- The ends of documents are told in the same words if both are ended or
    neither is. -/
theorem locate_size_congr
    (h : (Source.lines first).map Line.text = (Source.lines second).map Line.text)
    (hends : Source.EndsInBreak first ↔ Source.EndsInBreak second) :
    locate first (Source.size first) = locate second (Source.size second) := by
  have hlength : (Source.lines first).length = (Source.lines second).length := by
    simpa using congrArg List.length h
  rcases List.eq_nil_or_concat' (Source.lines first) with hfirst | ⟨above, line, hfirst⟩
  · -- Neither document has a line.
    have hsecond : Source.lines second = [] := by simpa [hfirst] using hlength.symm
    rw [locate_size_ended (by simp [hfirst]), locate_size_ended (by simp [hsecond]), hlength]
  · rcases List.eq_nil_or_concat' (Source.lines second) with hsecond | ⟨above', twin, hsecond⟩
    · simp [hfirst, hsecond] at hlength
    · rw [Source.endsInBreak_iff hfirst, Source.endsInBreak_iff hsecond] at hends
      by_cases hended : line.ending = .none
      · have htwin : twin.ending = .none := not_not.mp (mt hends.mpr (not_not.mpr hended))
        have htext : line.text = twin.text := by
          have hlast := congrArg List.getLast? h
          simpa [hfirst, hsecond] using hlast
        have habove : above.length = above'.length := by
          simpa [hfirst, hsecond] using hlength
        rw [locate_size_open hfirst hended, locate_size_open hsecond htwin, htext, habove]
      · rw [locate_size_ended (Source.ended_of_last hfirst hended),
          locate_size_ended (Source.ended_of_last hsecond (hends.mp hended)), hlength]

end Telling

/-- Two documents are the same to a reader. -/
inductive SameReading (first second : String) : Prop
  /-- Both are accepted, with events of the same kinds and the same feature, if
      there is one. -/
  | accepted (events others : List Event) (hfirst : readEvents first = .ok events)
      (hsecond : readEvents second = .ok others)
      (hkinds : events.map Event.kind = others.map Event.kind)
      (hfeature : (∃ t, readFeature first = .ok t ∧ readFeature second = .ok t) ∨
        (readFeature first = .error .missing ∧ readFeature second = .error .missing))
  /-- Both are refused for the same cause, and so with the same message. If the
      last lines are both ended or both not, the refusals name the same line and
      column and quote the same text. -/
  | refused (refusal other : Refusal) (hfirst : readEvents first = .error refusal)
      (hsecond : readEvents second = .error other)
      (hfeature : readFeature first = .error (.refused refusal) ∧
        readFeature second = .error (.refused other))
      (hcause : refusal.cause = other.cause)
      (hplace : (Source.EndsInBreak first ↔ Source.EndsInBreak second) →
        refusal.position = other.position ∧ refusal.excerpt = other.excerpt)

section Reading

variable {first second : String}

/-- Two documents with the same texts are refused alike. -/
theorem read_alike (h : (Source.lines first).map Line.text = (Source.lines second).map Line.text) :
    Alike (Corresponds (Source.lines first) (Source.lines second) (Source.size first)
      (Source.size second)) (Reader.read first) (Reader.read second) := by
  have hlength : ([] : List Line).length = ([] : List Line).length := rfl
  have htags : ∀ group waiting, ({} : State).tags = some group → ({} : State).tags = some waiting →
      Opposite ([] ++ Source.lines first) ([] ++ Source.lines second) group.start
        waiting.start := by
    simp
  exact run_alike h hlength rfl htags

/-- Faults that correspond are told in the same words. -/
theorem Refusal.ofFault_alike {fault other : Fault}
    (h : (Source.lines first).map Line.text = (Source.lines second).map Line.text)
    (hfaults : Corresponds (Source.lines first) (Source.lines second) (Source.size first)
      (Source.size second) fault other)
    (hends : Source.EndsInBreak first ↔ Source.EndsInBreak second) :
    (Refusal.ofFault first fault).position = (Refusal.ofFault second other).position ∧
      (Refusal.ofFault first fault).excerpt = (Refusal.ofFault second other).excerpt := by
  rcases hfaults with ⟨-, hopposite | ⟨hfault, hother⟩⟩
  · exact hopposite.told_alike
  · simp only [Refusal.ofFault, hfault, hother, Nat.min_self, excerptAt_size, and_true]
    exact locate_size_congr h hends

/-- Documents with the same texts, line by line, are the same to a reader,
    however their lines end. -/
theorem readEvents_same_texts
    (h : (Source.lines first).map Line.text = (Source.lines second).map Line.text) :
    SameReading first second := by
  have halike := read_alike h
  have hgist := readEvents_gist first
  have hgist' := readEvents_gist second
  cases hfirst : Reader.read first with
  | ok events =>
      cases hsecond : Reader.read second with
      | error other => simp [hfirst, hsecond, Alike] at halike
      | ok others =>
          have hevents : readEvents first = .ok events := by rw [readEvents, hfirst]; rfl
          have hothers : readEvents second = .ok others := by rw [readEvents, hsecond]; rfl
          have hkinds : events.map Event.kind = others.map Event.kind := by
            rw [h, ← hgist', hevents, hothers] at hgist
            simpa [Except.toOption] using hgist
          exact .accepted events others hevents hothers hkinds
            (readFeature_congr hevents hothers (congrArg withoutBlanks hkinds))
  | error fault =>
      cases hsecond : Reader.read second with
      | ok others => simp [hfirst, hsecond, Alike] at halike
      | error other =>
          rw [hfirst, hsecond] at halike
          have hrefused : readEvents first = .error (.ofFault first fault) := by
            rw [readEvents, hfirst]; rfl
          have hrefused' : readEvents second = .error (.ofFault second other) := by
            rw [readEvents, hsecond]; rfl
          exact .refused _ _ hrefused hrefused'
            ⟨by rw [readFeature, hrefused], by rw [readFeature, hrefused']⟩ halike.1
            (Refusal.ofFault_alike h halike)

end Reading

/-- Three endings in turn, and none at the end. -/
theorem readEvents_same_texts_mixed :
    SameReading "@é\nFeature: f\n\ntext\nScenario:\n Given x\n \"\"\"\n  y\n \"\"\"\n"
        "@é\rFeature: f\r\n\rtext\nScenario:\r\n Given x\r \"\"\"\n  y\r\n \"\"\"" ∧
      SameReading "Feature: f\n\n@é\n" "Feature: f\r\r\n@é\r\n" :=
  ⟨readEvents_same_texts (by decide +kernel), readEvents_same_texts (by decide +kernel)⟩

end Gherkin
