import Mathlib.Logic.Relation
import Gherkin.Proofs.Reader.Padding
import Gherkin.Proofs.Source.Rejoined
import Gherkin.Proofs.Standing

/-!
# Spacing Has No Meaning

The blanks at both ends of a line and the blank lines of a document are there
for its readers only: a document describes the same feature when they are
changed. Three things are exempt. The lines of a doc string are its text, the
indentation of the fence in front of them says what of it is indentation, and a
blank line between two lines of the description is part of it.

One more thing has to be watched, which is not a matter of blanks. Where the
blanks between a carriage return and a line feed are removed, the two become
one ending, and there is a line less. It is a blank line, so that it matters in
the description alone.

## Main definitions

* `Respaced`: One change of spacing.

## Theorems

* `readFeature_padded`: Other blanks at the ends of a line.
* `readFeature_inserted`: A further blank line.
* `readFeature_respaced`: Spacing, changed any number of times.
-/

namespace Gherkin

open Reader
open Source (Line Ending)

/-- A change of spacing: a line gets another indentation or more blanks at its
    end, or there is a further line of blanks. The flag says whether a blank
    line of the description may be emptied between a carriage return and a line
    feed, which makes them one. -/
inductive Respaced (fusing : Bool) (source : String) : String → Prop
  | indent (above : List Line) (line : Line) (below : List Line) (run : List Char)
      (hlines : Source.lines source = above ++ line :: below)
      (hrun : ∀ c ∈ run, Text.isBlank c = true) (hbody : isBodyLine source line = false)
      (hfence : opensDocString source line = false)
      (hfusing : fusing = true ∨ ¬ (line ∈ descriptionLines (Source.lines source) ∧
        run ++ line.content = [] ∧ Source.lastEnding above = .carriageReturn ∧
        line.ending = .lineFeed)) :
      Respaced fusing source
        (Source.join (above ++ { line with text := run ++ line.content } :: below))
  | trail (above : List Line) (line : Line) (below : List Line) (run : List Char)
      (hlines : Source.lines source = above ++ line :: below)
      (hrun : ∀ c ∈ run, Text.isBlank c = true) (hbody : isBodyLine source line = false) :
      Respaced fusing source
        (Source.join (above ++ { line with text := line.text ++ run } :: below))
  | insert (above below : List Line) (run : List Char) (ending : Ending)
      (hlines : Source.lines source = above ++ below)
      (hended : ∀ line ∈ above, line.ending ≠ .none) (hending : ending = .none → below = [])
      (hrun : ∀ c ∈ run, Text.isBlank c = true)
      (hquoted : ∀ last ∈ above.getLast?, isBodyLine source last = false ∧
        opensDocString source last = false)
      (hwithin : ¬ WithinDescription above below) :
      Respaced fusing source (Source.join (above ++ ⟨0, run, ending⟩ :: below))
  | append (above : List Line) (line : Line) (first : Ending) (run : List Char) (second : Ending)
      (hlines : Source.lines source = above ++ [line]) (hopen : line.ending = .none)
      (hfirst : first ≠ .none) (hrun : ∀ c ∈ run, Text.isBlank c = true) :
      Respaced fusing source
        (Source.join (above ++ [{ line with ending := first }, ⟨0, run, second⟩]))

section Lines

variable {source other : String} {t : Feature} {above below : List Line} {line : Line}
  {text run : List Char}

theorem unbroken_of_blank (h : ∀ c ∈ run, Text.isBlank c = true) : Source.Unbroken run := by
  intro c hc
  have hblank := h c hc
  simp only [Text.isBlank, Bool.or_eq_true, beq_iff_eq] at hblank
  rcases hblank with rfl | rfl <;> decide

theorem Text.Padded.unbroken (h : Text.Padded run text) (hrun : Source.Unbroken run) :
    Source.Unbroken text := by
  cases h with
  | intro lead trail hlead htrail =>
      refine (unbroken_of_blank hlead).append (Source.Unbroken.append ?_ (unbroken_of_blank htrail))
      exact hrun.mono (fun c hc => Text.mem_of_mem_skipBlanks hc)

/-- A line with other blanks at its ends. -/
theorem readFeature_padded (hread : readFeature source = .ok t)
    (hlines : Source.lines source = above ++ line :: below) (hpadded : Text.Padded line.text text)
    (hbody : isBodyLine source line = false)
    (hindent : opensDocString source line = true → classify line.text = .fence →
      Text.indentation text = Text.indentation line.text)
    (hfused : ¬ (line ∈ descriptionLines (Source.lines source) ∧ text = [] ∧
      Source.lastEnding above = .carriageReturn ∧ line.ending = .lineFeed)) :
    readFeature (Source.join (above ++ { line with text := text } :: below)) = .ok t := by
  rcases readEvents_of_readFeature hread with ⟨events, hevents⟩
  have hrun := readEvents_eq_ok hevents
  rw [hlines] at hrun
  rcases exists_leads hrun with ⟨mid, hleads⟩
  have hsource : (Source.lines source).map Line.text =
      above.map Line.text ++ line.text :: below.map Line.text := by
    rw [hlines, List.map_append, List.map_cons]
  have hunbroken := Source.unbroken_lines source line.text (by rw [hsource]; simp)
  have hmode : ∀ indent, mid.gist.mode = .verbatim indent → classify line.text = .fence :=
    fun indent hm => hleads.fence_of_quoting hevents hlines hbody (State.quoting_of_mode hm)
  have htexts := Source.texts_rewritten hlines (hpadded.unbroken hunbroken)
  generalize hother : (Source.lines (Source.join (above ++ { line with text := text } ::
    below))).map Line.text = others at htexts
  cases htexts with
  | kept =>
      refine readFeature_of_rest hread hleads hsource hother (fun kinds hkinds => ⟨kinds, ?_, rfl⟩)
      rcases Option.bind_eq_some_iff.mp hkinds with ⟨⟨first, next⟩, hstep, hrest⟩
      have hpad := Gist.step_padded hpadded hmode (fun kind hp hclass =>
        hindent (hleads.opens_of_fence hevents hlines (Phase.block_of_gist hp) hclass) hclass) hstep
      rw [Gist.run, hpad]
      exact hrest
  | gone hempty hwhy =>
      subst hempty
      have hblank : classify line.text = .blank := by
        rw [← classify_padded hpadded]
        rfl
      have hnot : ∀ indent, mid.gist.mode ≠ .verbatim indent := by
        intro indent hm
        exact absurd (hblank.symm.trans (hmode indent hm)) (by simp)
      refine readFeature_of_rest hread hleads hsource hother (fun kinds hkinds => ?_)
      rw [Gist.run_blank hnot hblank] at hkinds
      refine (State.agree_hold_blank (fun opening hp => ?_)).2.run hkinds
      rcases hwhy with rfl | ⟨hlast, hfeed⟩
      · exact Or.inr trivial
      · refine hleads.quiet_below hp hblank (fun hmem => hfused ⟨?_, rfl, hlast, hfeed⟩)
        rwa [hlines]

/-- A further line of blanks. -/
theorem readFeature_inserted {mid : State} (hread : readFeature source = .ok t)
    (hlines : Source.lines source = above ++ below) (hleads : Leads {} above mid)
    (hquoting : ¬ mid.Quoting)
    (hquiet : ∀ opening, mid.phase = .opening opening →
      opening.description = [] ∨ Quiet (below.map Line.text))
    (hrun : ∀ c ∈ run, Text.isBlank c = true)
    (hother : Source.Inserted (above.map Line.text) (below.map Line.text) run
      ((Source.lines other).map Line.text)) :
    readFeature other = .ok t := by
  have hsource : (Source.lines source).map Line.text =
      above.map Line.text ++ below.map Line.text := by
    rw [hlines, List.map_append]
  have hnot : ∀ indent, mid.gist.mode ≠ .verbatim indent :=
    fun indent hm => hquoting (State.quoting_of_mode hm)
  have hblank : classify run = .blank :=
    classify_eq_of_content (Text.skipBlanks_eq_nil_iff.mpr hrun) rfl
  generalize hothers : (Source.lines other).map Line.text = others at hother
  cases hother with
  | added =>
      refine readFeature_of_rest hread hleads hsource hothers (fun kinds hkinds => ?_)
      rw [Gist.run_blank hnot hblank]
      exact (State.agree_hold_blank hquiet).1.run hkinds
  | absent =>
      exact readFeature_of_rest hread hleads hsource hothers
        (fun kinds hkinds => ⟨kinds, hkinds, rfl⟩)
  | instead more hbelow =>
      refine readFeature_of_rest hread hleads hsource hothers (fun kinds hkinds => ⟨kinds, ?_, rfl⟩)
      rw [hbelow, Gist.run_blank hnot rfl] at hkinds
      rwa [Gist.run_blank hnot hblank]

/-- A change of spacing keeps the feature, unless two endings become one in its
    description. -/
theorem Respaced.keeps_feature (h : Respaced false source other)
    (hread : readFeature source = .ok t) : readFeature other = .ok t := by
  rcases readEvents_of_readFeature hread with ⟨events, hevents⟩
  have haccepted := readEvents_eq_ok hevents
  cases h with
  | indent above line below run hlines hrun hbody hfence hfusing =>
      have hpadded : Text.Padded line.text (run ++ (Text.skipBlanks line.text ++ [])) :=
        .intro run [] hrun (by simp)
      rw [List.append_nil] at hpadded
      exact readFeature_padded hread hlines hpadded hbody
        (fun hopens _ => absurd (hfence.symm.trans hopens) (by decide))
        (hfusing.resolve_left (by decide))
  | trail above line below run hlines hrun hbody =>
      refine readFeature_padded hread hlines (Text.padded_append line.text hrun) hbody ?_ ?_
      · intro _ hclass
        refine Text.indentation_append (fun hnil => ?_) run
        exact absurd (hclass.symm.trans (classify_eq_of_content hnil rfl)) (by decide)
      · rintro ⟨-, hnil, hlast, hfeed⟩
        exact Source.text_ne_nil_of_fed hlines hlast hfeed (List.append_eq_nil_iff.mp hnil).1
  | insert above below run ending hlines hended hending hrun hquoted hwithin =>
      rw [hlines] at haccepted
      rcases exists_leads haccepted with ⟨mid, hleads⟩
      exact readFeature_inserted hread hlines hleads (hleads.not_quoting hevents hlines hquoted)
        (fun opening hp => hleads.quiet hp hwithin) hrun
        (Source.texts_inserted hlines hended (unbroken_of_blank hrun) hending 0)
  | append above line first run second hlines hopen hfirst hrun =>
      rw [hlines, ← List.append_nil (above ++ [line])] at haccepted
      rcases exists_leads haccepted with ⟨mid, hleads⟩
      rcases hleads.run_eq_ok haccepted with ⟨rest, hfinish, -⟩
      exact readFeature_inserted hread (hlines.trans (List.append_nil _).symm) hleads
        (State.finish_eq_ok hfinish).1 (fun _ _ => Or.inr trivial) hrun
        (Source.texts_appended hlines hopen hfirst (unbroken_of_blank hrun) 0 second)

/-- Spacing may be changed any number of times: the document describes the same
    feature. -/
theorem readFeature_respaced (h : Relation.ReflTransGen (Respaced false) source other)
    (hread : readFeature source = .ok t) : readFeature other = .ok t := by
  induction h with
  | refl => exact hread
  | tail _ hstep ih => exact hstep.keeps_feature ih

end Lines

theorem Respaced.of_eq {fusing : Bool} {source other joined : String}
    (h : Respaced fusing source joined) (heq : joined = other) : Respaced fusing source other :=
  heq ▸ h

/-- A further line between a tag and its feature, a line of the description
    without its indentation, blanks behind an escaped one, and a line behind the
    last. -/
theorem readFeature_respaced_sample :
    let source := "@a\nFeature: f\n one\\ \nScenario:\nGiven x\n \"\"\"\n  y\n\"\"\""
    let other := "@a\n\t\nFeature: f\none\\  \nScenario:\nGiven x\n \"\"\"\n  y\n\"\"\"\r "
    let step : Step :=
      { keyword := .context, text := "x", argument := .docString { indent := 1, lines := [" y"] } }
    let t : Feature :=
      { title := "f", description := "one\\ ", tags := ["a"]
        scenarios := [.plain { steps := [step] }] }
    Relation.ReflTransGen (Respaced false) source other ∧ readFeature source = .ok t ∧
      readFeature other = .ok t := by
  intro source other step t
  let inserted := "@a\n\t\nFeature: f\n one\\ \nScenario:\nGiven x\n \"\"\"\n  y\n\"\"\""
  let flush := "@a\n\t\nFeature: f\none\\ \nScenario:\nGiven x\n \"\"\"\n  y\n\"\"\""
  let trailing := "@a\n\t\nFeature: f\none\\  \nScenario:\nGiven x\n \"\"\"\n  y\n\"\"\""
  have hinserted : Respaced false source inserted := by
    refine .of_eq (.insert ((Source.lines source).take 1) ((Source.lines source).drop 1) ['\t']
      .lineFeed ?_ ?_ ?_ (by simp [Text.isBlank]) ?_ ?_) ?_
    all_goals decide +kernel
  have hflush : Respaced false inserted flush := by
    refine .of_eq (.indent ((Source.lines inserted).take 3) ⟨16, " one\\ ".toList, .lineFeed⟩
      ((Source.lines inserted).drop 4) [] ?_ (by simp) ?_ ?_ ?_) ?_
    all_goals decide +kernel
  have htrailing : Respaced false flush trailing := by
    refine .of_eq (.trail ((Source.lines flush).take 3) ⟨16, "one\\ ".toList, .lineFeed⟩
      ((Source.lines flush).drop 4) [' '] ?_ (by simp [Text.isBlank]) ?_) ?_
    all_goals decide +kernel
  have hother : Respaced false trailing other := by
    refine .of_eq (.append ((Source.lines trailing).take 8) ⟨50, "\"\"\"".toList, .none⟩
      .carriageReturn [' '] .none ?_ ?_ ?_ (by simp [Text.isBlank])) ?_
    all_goals decide +kernel
  have hedits : Relation.ReflTransGen (Respaced false) source other :=
    .tail (.tail (.tail (.single hinserted) hflush) htrailing) hother
  have hread : readFeature source = .ok t := by decide +kernel
  exact ⟨hedits, hread, readFeature_respaced hedits hread⟩

/-- A blank line of the description that is emptied where a carriage return and
    a line feed meet is lost: spacing has a meaning there. -/
theorem readFeature_fused :
    Respaced true "Feature: f\none\r  \ntwo\n" "Feature: f\none\r\ntwo\n" ∧
      readFeature "Feature: f\none\r  \ntwo\n" =
        .ok { title := "f", description := "one\n\ntwo" } ∧
      readFeature "Feature: f\none\r\ntwo\n" = .ok { title := "f", description := "one\ntwo" } := by
  refine ⟨?_, by decide +kernel, by decide +kernel⟩
  refine .of_eq (.indent
    [⟨0, "Feature: f".toList, .lineFeed⟩, ⟨11, "one".toList, .carriageReturn⟩]
    ⟨15, "  ".toList, .lineFeed⟩ [⟨18, "two".toList, .lineFeed⟩] [] ?_ (by simp) ?_ ?_
    (Or.inl rfl)) ?_
  all_goals decide +kernel

end Gherkin
