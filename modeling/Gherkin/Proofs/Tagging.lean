import Mathlib.Data.List.DropRight
import Gherkin.Proofs.Source.Lines
import Gherkin.Proofs.Ledger.Entry

/-!
# Which Tags Belong to Which Part

Tags stand on lines of their own, above the heading or the step they belong to,
with blank lines and comments among them. The reader collects them line by line
and hands them over to the next part that can have tags. What it has collected
can also be read off from the lines: above the heading, up to the last line
that says something else, these are the words of the lines of tags.

A part is told from its event by where its heading ends. Only the feature is
announced later than its heading is read, so what has been handed over is what
has been reported and, while the description is read, the feature.

## Main definitions

* `Source.Line.words`: The words of a line before its comment.
* `tagLinesAbove`: The lines of tags right above a line.
* `Event.tagging?`: The tags of a part, and where its heading is.
* `Tagging.Collects`: The tags of a part are those right above its heading.
* `TagsAttached`: Every part has the tags above it, and every line of tags
  belongs to one part.
* `Reader.State.Turn`: What a line does about tags.

## Theorems

* `Reader.words_of_scanTags`: The tags of a line are its words.
* `Reader.State.Reads.turn`: A line does one of these things about tags.
* `Gathered.step`, `Gathered.finish`: Tags are gathered line by line.
* `readEvents_tagged`: Every part of a document has the tags above it.
-/

namespace Gherkin

open Reader
open Source (Line)

/-- The words of a line that stand before its comment. -/
def Source.Line.words (line : Line) : List (List Char) :=
  ((line.text.takeWhile (· != '#')).splitOnP Text.isBlank).filter (· ≠ [])

/-- Whether a line can stand between tags and what they belong to. -/
def Reader.LineClass.isPreliminary : LineClass → Bool
  | .blank | .comment | .tags => true
  | _ => false

theorem Reader.LineClass.isPreliminary_eq_false {cls : LineClass} (hblank : cls ≠ .blank)
    (hcomment : cls ≠ .comment) (htags : cls ≠ .tags) : cls.isPreliminary = false := by
  unfold isPreliminary
  split <;> simp_all

/-- The lines of tags above a line, up to the last line that says something
    else. -/
def tagLinesAbove (above : List Line) : List Line :=
  (above.rtakeWhile (fun line => (classify line.text).isPreliminary)).filter
    (fun line => classify line.text = .tags)

/-- The tags of a part, the class of its heading and where that ends. -/
structure Tagging where
  cls : LineClass
  tags : List String
  stop : Nat

/-- What an event says about the tags of a part. -/
def Event.tagging? (event : Event) : Option Tagging :=
  match event.kind with
  | .feature _ _ tags => some ⟨.heading .feature, tags, event.span.stop⟩
  | .block kind _ tags => some ⟨.heading (.block kind), tags, event.span.stop⟩
  | .step keyword _ tags => some ⟨.step keyword, tags, event.span.stop⟩
  | _ => none

/-- A tag as it stands in the document. -/
def signed (tag : String) : List Char :=
  '@' :: tag.toList

/-- The heading of a part stands right below these lines, and its tags are
    those that stand right above it, in order. -/
def Tagging.Collects (tagging : Tagging) (lines above : List Line) : Prop :=
  (∃ heading below, lines = above ++ heading :: below ∧
    classify heading.text = tagging.cls ∧ heading.stop = tagging.stop) ∧
  tagging.tags.map signed = (tagLinesAbove above).flatMap Line.words

/-- The tags of a line belong to the part that an event opens. -/
def Event.Bears (event : Event) (lines : List Line) (line : Line) : Prop :=
  ∃ tagging above, event.tagging? = some tagging ∧ tagging.Collects lines above ∧
    line ∈ tagLinesAbove above

/-- Every part has the tags above it, and every line of tags belongs to one
    part. Only in a doc string a line that looks like tags is none. -/
structure TagsAttached (lines : List Line) (events : List Event) : Prop where
  collected : ∀ event ∈ events, ∀ tagging, event.tagging? = some tagging →
    ∃ above, tagging.Collects lines above
  attached : ∀ line ∈ lines, classify line.text = .tags →
    (∀ event ∈ events, Account.docLine.shows line event = false) →
    ∃ before event after, events = before ++ event :: after ∧ event.Bears lines line ∧
      ∀ other ∈ before ++ after, ¬ other.Bears lines line

/-- The character in front of a line is a break between words or belongs to the
    first of them. -/
theorem splitOnP_takeWhile_cons {c : Char} (h : c ≠ '#') (rest : List Char) :
    ((c :: rest).takeWhile (· != '#')).splitOnP Text.isBlank =
      if Text.isBlank c then [] :: (rest.takeWhile (· != '#')).splitOnP Text.isBlank
      else ((rest.takeWhile (· != '#')).splitOnP Text.isBlank).modifyHead (c :: ·) := by
  simp [h, List.splitOnP_cons_eq_if_modifyHead]

/-- Outside of a name the words to come are tags; inside, the name comes first. -/
theorem Reader.words_of_scanTagsFrom {inName : Bool} {cs name : List Char} {tags : List String}
    {remark : Option Remark} (h : scanTagsFrom inName cs = .ok (name, tags, remark)) :
    ∃ first more, (cs.takeWhile (· != '#')).splitOnP Text.isBlank = first :: more ∧
      if inName then first = name ∧ more.filter (· ≠ []) = tags.map signed
      else (first :: more).filter (· ≠ []) = tags.map signed := by
  fun_induction scanTagsFrom inName cs generalizing name tags remark with
  | case1 inName =>
      cases h
      exact ⟨[], [], by simp, by cases inName <;> simp⟩
  | case2 inName c rest hblank ih =>
      rcases bind_eq_ok h with ⟨⟨inner, others, last⟩, hrest, heq⟩
      cases heq
      rcases ih hrest with ⟨first, more, hsplit, hwords⟩
      have hhash : c ≠ '#' := by
        rintro rfl
        exact absurd hblank (by decide)
      rw [splitOnP_takeWhile_cons hhash, if_pos hblank, hsplit]
      exact ⟨[], first :: more, rfl, by cases inName <;> simpa using hwords⟩
  | case3 inName c rest hblank hhash =>
      rcases bind_eq_ok h with ⟨last, hend, heq⟩
      cases heq
      exact ⟨[], [], by simp [eq_of_beq hhash], by cases inName <;> simp⟩
  | case4 inName c rest hblank hhash hname ih =>
      rcases bind_eq_ok h with ⟨⟨inner, others, last⟩, hrest, heq⟩
      cases heq
      rcases ih hrest with ⟨first, more, hsplit, rfl, hwords⟩
      rw [Bool.and_eq_true] at hname
      rcases hname with ⟨rfl, -⟩
      rw [splitOnP_takeWhile_cons (by simpa using hhash), if_neg hblank, hsplit]
      exact ⟨c :: first, more, rfl, rfl, hwords⟩
  | case5 inName c rest hblank hhash hname hsign hhead ih =>
      rcases bind_eq_ok h with ⟨⟨inner, others, last⟩, hrest, heq⟩
      cases heq
      rcases ih hrest with ⟨first, more, hsplit, rfl, hwords⟩
      rw [Bool.and_eq_true, Bool.not_eq_true', beq_iff_eq] at hsign
      rcases hsign with ⟨rfl, rfl⟩
      rw [splitOnP_takeWhile_cons (by decide), if_neg hblank, hsplit]
      exact ⟨'@' :: first, more, rfl, by simpa [signed] using hwords⟩
  | case6 => exact absurd h (by simp)
  | case7 => exact absurd h (by simp)

/-- The tags of a line are its words. -/
theorem Reader.words_of_scanTags {line : Line} {tags : List String} {remark : Option Remark}
    (h : scanTags line.text = .ok (tags, remark)) : line.words = tags.map signed := by
  rcases bind_eq_ok h with ⟨⟨name, more, last⟩, hscan, heq⟩
  cases heq
  rcases words_of_scanTagsFrom hscan with ⟨first, rest, hsplit, hwords⟩
  rw [Line.words, hsplit]
  exact hwords

section Above

variable {above below : List Line} {line heading : Line}

theorem tagLinesAbove_of_trivia
    (h : classify line.text = .blank ∨ classify line.text = .comment) :
    tagLinesAbove (above ++ [line]) = tagLinesAbove above := by
  rcases h with h | h <;> simp [tagLinesAbove, h, LineClass.isPreliminary]

theorem tagLinesAbove_of_tags (h : classify line.text = .tags) :
    tagLinesAbove (above ++ [line]) = tagLinesAbove above ++ [line] := by
  simp [tagLinesAbove, h, LineClass.isPreliminary]

theorem tagLinesAbove_of_other (h : (classify line.text).isPreliminary = false) :
    tagLinesAbove (above ++ [line]) = [] := by
  simp [tagLinesAbove, h]

/-- Tags do not reach over a line that says something else. -/
theorem mem_of_mem_tagLinesAbove (hheading : (classify heading.text).isPreliminary = false)
    (h : line ∈ tagLinesAbove (above ++ heading :: below)) : line ∈ below := by
  induction below using List.reverseRecOn with
  | nil =>
      rw [tagLinesAbove_of_other hheading] at h
      exact absurd h List.not_mem_nil
  | append_singleton front last ih =>
      rw [← List.cons_append, ← List.append_assoc] at h
      rw [List.mem_append, List.mem_singleton]
      by_cases htrivia : classify last.text = .blank ∨ classify last.text = .comment
      · rw [tagLinesAbove_of_trivia htrivia] at h
        exact Or.inl (ih h)
      · by_cases htags : classify last.text = .tags
        · rw [tagLinesAbove_of_tags htags, List.mem_append, List.mem_singleton] at h
          exact h.imp_left ih
        · rw [not_or] at htrivia
          have hother := LineClass.isPreliminary_eq_false htrivia.1 htrivia.2 htags
          rw [tagLinesAbove_of_other hother] at h
          exact absurd h List.not_mem_nil

theorem mem_above_of_mem_tagLinesAbove (h : line ∈ tagLinesAbove above) : line ∈ above :=
  (List.rtakeWhile_suffix _ _).subset (List.mem_of_mem_filter h)

end Above

/-- The taggings among events. -/
def taggings (events : List Event) : List Tagging :=
  events.filterMap Event.tagging?

@[simp] theorem taggings_nil : taggings [] = [] := rfl

@[simp] theorem taggings_append (a b : List Event) :
    taggings (a ++ b) = taggings a ++ taggings b :=
  List.filterMap_append

@[simp] theorem taggings_cons (event : Event) (rest : List Event) :
    taggings (event :: rest) = event.tagging?.toList ++ taggings rest := by
  cases h : event.tagging? <;> simp [taggings, h]

@[simp] theorem taggings_inlineEvents (line : Line) (remark : Option Remark) :
    taggings (line.inlineEvents remark) = [] := by
  cases remark <;> rfl

@[simp] theorem taggings_sideEvents (line : Line) (remark : Option Remark) :
    taggings (line.sideEvents remark) = [] := by
  cases remark <;> rfl

@[simp] theorem taggings_cells (line : Line) (cells : List Cell) :
    taggings (cells.map line.cellEvent) = [] := by
  induction cells with
  | nil => rfl
  | cons cell rest ih => simpa [Line.cellEvent, Event.tagging?] using ih

namespace Reader.State

@[simp] theorem taggings_closers (state : State) (place : Place) :
    taggings (place.closers.map state.closing) = [] := by
  cases place with
  | between stage => rfl
  | argument owner => cases owner <;> rfl
  | table owner columns => cases owner <;> rfl
  | docString indent => rfl

/-- The feature while it is not announced yet. -/
def unannounced (state : State) : List Tagging :=
  match state.phase with
  | .opening opening => [⟨.heading .feature, opening.tags, opening.span.stop⟩]
  | _ => []

/-- Neither a description nor a step nor examples can go on. -/
def Resting (state : State) : Prop :=
  state.phase = .preamble ∨ state.phase = .body ∨
    ∃ kind stage, state.phase = .block kind (.between stage)

/-- Nothing that is held back has tags, and tags wait only where nothing else
    can go on. -/
structure Tidy (state : State) : Prop where
  trivia : taggings state.trivia = []
  held : ∀ opening, state.phase = .opening opening →
    taggings (opening.remarks ++ opening.side ++ opening.pending) = []
  waiting : state.tags = none ∨ state.Resting

/-- What a line does about tags, and the parts it hands tags over to. -/
inductive Turn (state : State) (line : Line) (events : List Event) (next : State) :
    List Tagging → Prop
  | trivia (hclass : classify line.text = .blank ∨ classify line.text = .comment)
      (hquoting : ¬ state.Quoting) (hnext : ¬ next.Quoting)
      (htags : next.tagNames = state.tagNames) : Turn state line events next []
  | tags (names : List String) (hclass : classify line.text = .tags)
      (hwords : line.words = names.map signed) (hnames : names ≠ [])
      (hquoting : ¬ state.Quoting) (hnext : ¬ next.Quoting)
      (htags : next.tagNames = state.tagNames ++ names) : Turn state line events next []
  | heading (hclass : (classify line.text).isPreliminary = false) (hquoting : ¬ state.Quoting)
      (hnext : ¬ next.Quoting) (htags : next.tags = none) :
      Turn state line events next [⟨classify line.text, state.tagNames, line.stop⟩]
  | other (hclass : (classify line.text).isPreliminary = false) (hnone : state.tags = none)
      (htags : next.tags = none) : Turn state line events next []
  | quoted (event : Event) (hevent : event ∈ events)
      (hshows : Account.docLine.shows line event = true) (hquoting : state.Quoting)
      (hnext : next.Quoting) : Turn state line events next []

variable {state next : State} {line : Line} {events : List Event}

theorem unannounced_of_ne (h : ∀ opening, state.phase ≠ .opening opening) :
    state.unannounced = [] := by
  unfold unannounced
  split
  · exact absurd (by assumption) (h _)
  · rfl

theorem Resting.ne_opening (h : state.Resting) (opening : Opening) :
    state.phase ≠ .opening opening := by
  rcases h with h | h | ⟨kind, stage, h⟩ <;> simp [h]

theorem Resting.not_quoting (h : state.Resting) : ¬ state.Quoting := by
  rcases h with h | h | ⟨kind, stage, h⟩ <;> simp [Quoting, h]

theorem resting_settled (state : State) : state.settled.2.Resting := by
  rcases state with ⟨phase, trivia, tags, lastStop, hasBackground, hasScenario⟩
  cases phase with
  | preamble => exact Or.inl rfl
  | opening opening => exact Or.inr (Or.inl rfl)
  | body => exact Or.inr (Or.inl rfl)
  | block kind place => exact Or.inr (Or.inr ⟨kind, place.stage, rfl⟩)

theorem tagNames_addTags (state : State) (offset : Nat) (names : List String) :
    (state.addTags offset names).tagNames = state.tagNames ++ names := by
  rcases state with ⟨phase, trivia, tags, lastStop, hasBackground, hasScenario⟩
  cases tags <;> rfl

namespace Tidy

theorem keep (h : state.Tidy) (kept : List Event) (hkept : taggings kept = []) :
    (state.keep kept).Tidy ∧ (state.keep kept).unannounced = state.unannounced ∧
      (state.keep kept).tagNames = state.tagNames ∧
      ((state.keep kept).Quoting ↔ state.Quoting) := by
  unfold State.keep
  split
  · rename_i opening hphase
    have hheld := h.held opening hphase
    refine ⟨⟨h.trivia, ?_, ?_⟩, by simp [unannounced, hphase], rfl, by simp [Quoting, hphase]⟩
    · rintro _ ⟨⟩
      simp_all
    · refine Or.inl (h.waiting.resolve_right ?_)
      simp [Resting, hphase]
  · refine ⟨⟨by simp [State.hold, h.trivia, hkept], h.held, h.waiting⟩, rfl, rfl, Iff.rfl⟩

/-- Opening the feature reports it, and nothing else that has tags. -/
theorem announce (h : state.Tidy) {opening : Opening} (hphase : state.phase = .opening opening) :
    taggings (state.announce opening).1 = state.unannounced ∧
      taggings (state.announce opening).2.trivia = [] := by
  have hheld := h.held opening hphase
  simp only [taggings_append, List.append_eq_nil_iff] at hheld
  refine ⟨?_, ?_⟩
  · simp [State.announce, h.trivia, hheld.1.1, Opening.event, Event.tagging?, unannounced, hphase]
  · simp [State.announce, hheld.1.2, hheld.2]

theorem settled (h : state.Tidy) :
    taggings state.settled.1 = state.unannounced ∧ taggings state.settled.2.trivia = [] := by
  unfold State.settled
  split
  · exact h.announce (by assumption)
  · rename_i kind place hphase
    exact ⟨by simp [unannounced, hphase], h.trivia⟩
  · rename_i hopening hblock
    exact ⟨(unannounced_of_ne hopening).symm, h.trivia⟩

theorem left (h : state.Tidy) :
    taggings state.left.1 = state.unannounced ∧ taggings state.left.2.trivia = [] := by
  unfold State.left
  split
  · exact h.announce (by assumption)
  · rename_i kind place hphase
    exact ⟨by simp [State.leave, State.closing, Event.tagging?, unannounced, hphase], h.trivia⟩
  · rename_i hopening hblock
    exact ⟨(unannounced_of_ne hopening).symm, h.trivia⟩

end Tidy

/-- A line does one of these things about tags, and the parts it hands them
    over to are reported behind those before it. -/
theorem Reads.turn (h : state.Reads line events next) (htidy : state.Tidy) :
    ∃ new, Turn state line events next new ∧ next.Tidy ∧
      taggings events ++ next.unannounced = state.unannounced ++ new := by
  cases h with
  | blank hquoting hclass =>
      rcases htidy.keep [line.blankEvent] rfl with ⟨hkept, hopening, htags, hsame⟩
      exact ⟨[], .trivia (Or.inl hclass) hquoting (by rwa [hsame]) htags, hkept, by simp [hopening]⟩
  | comment remark hquoting hclass hend =>
      rcases htidy.keep [line.commentEvent false remark] rfl with ⟨hkept, hopening, htags, hsame⟩
      exact ⟨[], .trivia (Or.inr hclass) hquoting (by rwa [hsame]) htags, hkept, by simp [hopening]⟩
  | tags names remark hquoting hclass hscan =>
      rcases htidy.settled with ⟨hevents, htrivia⟩
      have hresting : ((state.settled.2.addTags line.contentStart names).hold
          (line.sideEvents remark)).Resting := resting_settled state
      refine ⟨[], .tags names hclass (words_of_scanTags hscan) (scanTags_ne_nil hclass hscan)
        hquoting hresting.not_quoting ?_, ⟨?_, ?_, Or.inr hresting⟩, ?_⟩
      -- What is settled before the tags are added has nothing to do with them.
      · have hnames : state.settled.2.tagNames = state.tagNames := by
          simp only [tagNames, tags_settled]
        rw [← hnames, ← tagNames_addTags _ line.contentStart]
        rfl
      · simp [hold, addTags, htrivia]
      · exact fun opening hopening => absurd hopening (hresting.ne_opening opening)
      · simp [hevents, unannounced_of_ne hresting.ne_opening]
  | feature title rest remark hphase hclass hne htext hend =>
      refine ⟨_, .heading (by rw [hclass]; rfl) (by simp [Quoting, hphase]) (by simp [Quoting]) rfl,
        ⟨htidy.trivia, ?_, Or.inl rfl⟩, ?_⟩
      · rintro _ ⟨⟩
        simp
      · simp [unannounced, hphase, hclass]
  | prose opening text rest remark hphase hclass htext hend =>
      have hnone : state.tags = none := htidy.waiting.resolve_right (by simp [Resting, hphase])
      have hother := LineClass.isPreliminary_eq_false hclass.1 hclass.2.1 hclass.2.2.1
      rcases opening.settle_keeps with ⟨htags, hspan, hremarks, hpending, hside⟩
      refine ⟨[], .other hother hnone hnone,
        ⟨htidy.trivia, ?_, Or.inl hnone⟩, by simp [unannounced, hphase, htags, hspan]⟩
      rintro _ ⟨⟩
      have hheld := htidy.held opening hphase
      simp only [taggings_append, List.append_eq_nil_iff, taggings_sideEvents, and_true,
        hremarks, hpending, taggings_nil] at hheld ⊢
      refine ⟨hheld.1.1, List.filterMap_eq_nil_iff.mpr fun event hevent => ?_⟩
      have hall : taggings (opening.side ++ opening.pending) = [] := by simp [hheld]
      exact List.filterMap_eq_nil_iff.mp hall event (hside event hevent)
  | block kind title rest remark hquoting hphase hadmits hclass htext hend =>
      rcases htidy.left with ⟨hevents, htrivia⟩
      refine ⟨_, .heading (by rw [hclass]; rfl) hquoting (by simp [Quoting, opened]) rfl,
        ⟨rfl, by simp [opened], Or.inl rfl⟩, ?_⟩
      simp [hevents, htrivia, unannounced, hclass, opened, Event.tagging?]
  | step kind place keyword text rest remark hquoting hphase hstage hclass hne htext hend =>
      refine ⟨_, .heading (by rw [hclass]; rfl) hquoting (by simp [Quoting, opened]) rfl,
        ⟨rfl, by simp [opened], Or.inl rfl⟩, ?_⟩
      simp [htidy.trivia, unannounced, hphase, hclass, opened, Event.tagging?]
  | examples place remark hquoting hphase hstage htags hclass hend =>
      refine ⟨[], .other (by rw [hclass]; rfl) htags rfl,
        ⟨rfl, by simp [opened], Or.inl rfl⟩, ?_⟩
      simp [htidy.trivia, unannounced, hphase, opened, Event.tagging?]
  | row kind owner place cells remark hphase hplace hclass hscan =>
      -- Tags would have closed the step or the table before.
      have hnone : state.tags = none := by
        refine htidy.waiting.resolve_right ?_
        rcases hplace with rfl | rfl <;> simp [Resting, hphase]
      refine ⟨[], .other (by rw [hclass]; rfl) hnone hnone,
        ⟨rfl, by simp, Or.inl hnone⟩, ?_⟩
      split <;> simp [htidy.trivia, unannounced, hphase, Event.tagging?]
  | openFence kind hphase hclass hend =>
      have hnone : state.tags = none := htidy.waiting.resolve_right (by simp [Resting, hphase])
      refine ⟨[], .other (by rw [hclass]; rfl) hnone hnone,
        ⟨rfl, by simp, Or.inl hnone⟩, ?_⟩
      simp [htidy.trivia, unannounced, hphase, Event.tagging?]
  | closeFence kind indent remark hphase hclass hend =>
      have hnone : state.tags = none := htidy.waiting.resolve_right (by simp [Resting, hphase])
      refine ⟨[], .other (by rw [hclass]; rfl) hnone hnone,
        ⟨htidy.trivia, by simp, Or.inl hnone⟩, ?_⟩
      simp [unannounced, hphase, Event.tagging?]
  | docLine kind indent hphase hclass =>
      have hquoting : state.Quoting := ⟨kind, indent, hphase⟩
      refine ⟨[], .quoted _ (List.mem_singleton_self _) (by simp [Account.shows, EventKind.mark?])
        hquoting hquoting, ⟨htidy.trivia, htidy.held, htidy.waiting⟩, ?_⟩
      simp [unannounced, hphase, Event.tagging?]

end Reader.State

namespace Tagging

variable {tagging other : Tagging} {lines above above' : List Line} {line : Line}

/-- Further lines change nothing for the parts before them. -/
theorem Collects.extend (h : tagging.Collects lines above) (more : List Line) :
    tagging.Collects (lines ++ more) above := by
  rcases h with ⟨⟨heading, below, rfl, hclass, hstop⟩, htags⟩
  exact ⟨⟨heading, below ++ more, by simp, hclass, hstop⟩, htags⟩

/-- Only headings and steps have tags. -/
theorem isPreliminary_eq_false {event : Event} (h : event.tagging? = some tagging) :
    tagging.cls.isPreliminary = false := by
  unfold Event.tagging? at h
  split at h <;> cases h <;> rfl

/-- Of two headings that a line stands above, none is below the other. -/
theorem heading_eq {heading heading' : Line} {rest below below' : List Line}
    (hlines : (above ++ heading :: below).Pairwise (fun line later => line.stop < later.start))
    (heq : heading :: below = rest ++ heading' :: below')
    (hclass : (classify heading.text).isPreliminary = false)
    (hline : line ∈ tagLinesAbove above) (hline' : line ∈ tagLinesAbove (above ++ rest)) :
    heading = heading' := by
  cases rest with
  | nil => exact (List.cons.inj heq).1
  | cons first rest =>
      rcases List.cons.inj heq with ⟨rfl, rfl⟩
      -- The line would stand both above the heading and below it.
      have hbelow := mem_of_mem_tagLinesAbove hclass hline'
      have hlt := (List.pairwise_append.mp hlines).2.2 line
        (mem_above_of_mem_tagLinesAbove hline) line (by simp [hbelow])
      rw [Line.stop] at hlt
      omega

theorem Collects.stop_eq (hlines : lines.Pairwise (fun line later => line.stop < later.start))
    (h : tagging.Collects lines above) (h' : other.Collects lines above')
    (hcls : tagging.cls.isPreliminary = false) (hcls' : other.cls.isPreliminary = false)
    (hline : line ∈ tagLinesAbove above) (hline' : line ∈ tagLinesAbove above') :
    tagging.stop = other.stop := by
  rcases h with ⟨⟨heading, below, rfl, hclass, hstop⟩, -⟩
  rcases h' with ⟨⟨heading', below', heq, hclass', hstop'⟩, -⟩
  rw [← hclass] at hcls
  rw [← hclass'] at hcls'
  rw [← hstop, ← hstop']
  rcases List.append_eq_append_iff.mp heq with ⟨rest, rfl, hrest⟩ | ⟨rest, rfl, hrest⟩
  · rw [heading_eq hlines hrest hcls hline hline']
  · rw [heq] at hlines
    rw [heading_eq hlines hrest hcls' hline' hline]

end Tagging

/-- What has been gathered when some lines are read and some events reported:
    the tags that wait are those right above, the parts so far have collected
    theirs, and every line of tags belongs to one of them or still waits. -/
structure Gathered (seen : List Line) (emitted : List Event) (state : State) : Prop where
  tidy : state.Tidy
  names : ¬ state.Quoting →
    state.tagNames.map signed = (tagLinesAbove seen).flatMap Line.words
  collected : ∀ tagging ∈ taggings emitted ++ state.unannounced,
    ∃ above, tagging.Collects seen above
  sorted : (taggings emitted ++ state.unannounced).Pairwise
    (fun tagging later => tagging.stop < later.stop)
  borne : ∀ line ∈ seen, classify line.text = .tags →
    (∃ event ∈ emitted, Account.docLine.shows line event = true) ∨
    (∃ tagging ∈ taggings emitted ++ state.unannounced, ∃ above,
      tagging.Collects seen above ∧ line ∈ tagLinesAbove above) ∨
    (¬ state.Quoting ∧ line ∈ tagLinesAbove seen ∧ line.words ≠ [])

namespace Gathered

variable {seen : List Line} {emitted events : List Event} {state next : State} {line : Line}

theorem initial : Gathered [] [] {} where
  tidy := ⟨rfl, by simp, Or.inl rfl⟩
  names := fun _ => rfl
  collected := by simp [State.unannounced]
  sorted := List.Pairwise.nil
  borne := by simp

/-- Where no tags wait, no line of tags does. -/
theorem words_eq_nil (h : Gathered seen emitted state) (hnone : state.tags = none)
    (hquoting : ¬ state.Quoting) (hline : line ∈ tagLinesAbove seen) : line.words = [] := by
  have hnames := h.names hquoting
  simp only [State.tagNames, hnone, List.map_nil] at hnames
  rw [eq_comm, List.flatMap_eq_nil_iff] at hnames
  exact hnames line hline

/-- The part that a line opens has the tags that waited. -/
theorem collects_new {new : List Tagging} (h : Gathered seen emitted state)
    (hturn : state.Turn line events next new) :
    new.Pairwise (fun tagging later => tagging.stop < later.stop) ∧
      ∀ tagging ∈ new, tagging.Collects (seen ++ [line]) seen ∧ tagging.stop = line.stop := by
  cases hturn with
  | heading hclass hquoting hnext htags =>
      refine ⟨List.pairwise_singleton _ _, fun tagging hmem => ?_⟩
      rw [List.mem_singleton.mp hmem]
      exact ⟨⟨⟨line, [], rfl, rfl, rfl⟩, h.names hquoting⟩, rfl⟩
  | _ => exact ⟨List.Pairwise.nil, by simp⟩

/-- The tags that wait behind a line. -/
theorem names_step {new : List Tagging} (h : Gathered seen emitted state)
    (hturn : state.Turn line events next new) (hquoting : ¬ next.Quoting) :
    next.tagNames.map signed = (tagLinesAbove (seen ++ [line])).flatMap Line.words := by
  cases hturn with
  | trivia hclass hstate _ htags =>
      rw [htags, tagLinesAbove_of_trivia hclass]
      exact h.names hstate
  | tags names hclass hwords _ hstate _ htags =>
      rw [htags, tagLinesAbove_of_tags hclass, List.map_append, h.names hstate,
        List.flatMap_append]
      simp [hwords]
  | heading hclass _ _ htags => simp [State.tagNames, htags, tagLinesAbove_of_other hclass]
  | other hclass _ htags => simp [State.tagNames, htags, tagLinesAbove_of_other hclass]
  | quoted _ _ _ _ hnext => exact absurd hnext hquoting

/-- A line of tags that waits goes on to wait, or the line takes its tags. -/
theorem borne_step {new : List Tagging} (h : Gathered seen emitted state)
    (hturn : state.Turn line events next new) {above : Line} (hquoting : ¬ state.Quoting)
    (habove : above ∈ tagLinesAbove seen) (hwords : above.words ≠ []) :
    (∃ tagging ∈ new, above ∈ tagLinesAbove seen) ∨
      (¬ next.Quoting ∧ above ∈ tagLinesAbove (seen ++ [line]) ∧ above.words ≠ []) := by
  cases hturn with
  | trivia hclass _ hnext _ =>
      rw [tagLinesAbove_of_trivia hclass]
      exact Or.inr ⟨hnext, habove, hwords⟩
  | tags _ hclass _ _ _ hnext _ =>
      rw [tagLinesAbove_of_tags hclass]
      exact Or.inr ⟨hnext, List.mem_append_left _ habove, hwords⟩
  | heading => exact Or.inl ⟨_, List.mem_singleton_self _, habove⟩
  | other _ hnone _ => exact absurd (h.words_eq_nil hnone hquoting habove) hwords
  | quoted _ _ _ hstate _ => exact absurd hstate hquoting

/-- A line of tags waits, unless it stands in a doc string. -/
theorem borne_new {new : List Tagging} (hturn : state.Turn line events next new)
    (hclass : classify line.text = .tags) :
    (∃ event ∈ events, Account.docLine.shows line event = true) ∨
      (¬ next.Quoting ∧ line ∈ tagLinesAbove (seen ++ [line]) ∧ line.words ≠ []) := by
  cases hturn with
  | trivia hother => simp [hclass] at hother
  | tags names _ hwords hnames _ hnext _ =>
      rw [tagLinesAbove_of_tags hclass]
      exact Or.inr ⟨hnext, by simp, by simpa [hwords] using hnames⟩
  | heading hother => simp [hclass, LineClass.isPreliminary] at hother
  | other hother => simp [hclass, LineClass.isPreliminary] at hother
  | quoted event hevent hshows => exact Or.inl ⟨event, hevent, hshows⟩

/-- Tags are gathered line by line. -/
theorem step (h : Gathered seen emitted state) (hreads : state.Reads line events next)
    (hbelow : ∀ above ∈ seen, above.stop < line.start) :
    Gathered (seen ++ [line]) (emitted ++ events) next := by
  rcases hreads.turn h.tidy with ⟨new, hturn, htidy, hnew⟩
  rcases h.collects_new hturn with ⟨hone, hcollects⟩
  have hall : taggings (emitted ++ events) ++ next.unannounced =
      (taggings emitted ++ state.unannounced) ++ new := by
    rw [taggings_append, List.append_assoc, hnew, List.append_assoc]
  refine ⟨htidy, h.names_step hturn, ?_, ?_, ?_⟩
  · intro tagging hmem
    rw [hall, List.mem_append] at hmem
    rcases hmem with hmem | hmem
    · rcases h.collected tagging hmem with ⟨above, habove⟩
      exact ⟨above, habove.extend [line]⟩
    · exact ⟨seen, (hcollects tagging hmem).1⟩
  · rw [hall]
    refine List.pairwise_append.mpr ⟨h.sorted, hone, fun tagging hmem later hlater => ?_⟩
    -- The heading of a part so far is a line that was read before.
    rcases h.collected tagging hmem with ⟨above, ⟨heading, below, rfl, -, hstop⟩, -⟩
    have hlt := hbelow heading (by simp)
    have hle : line.start ≤ line.stop := Nat.le_add_right _ _
    rw [(hcollects later hlater).2, ← hstop]
    omega
  · intro above habove hclass
    rw [hall]
    rcases List.mem_append.mp habove with habove | habove
    · rcases h.borne above habove hclass with ⟨event, hevent, hshows⟩ | hborne | hwaits
      · exact Or.inl ⟨event, List.mem_append_left _ hevent, hshows⟩
      · rcases hborne with ⟨tagging, hmem, place, hplace, hline⟩
        exact Or.inr (Or.inl ⟨tagging, List.mem_append_left _ hmem, place,
          hplace.extend [line], hline⟩)
      · rcases hwaits with ⟨hquoting, hline, hwords⟩
        rcases h.borne_step hturn hquoting hline hwords with ⟨tagging, hmem, hline⟩ | hwaits
        · exact Or.inr (Or.inl ⟨tagging, List.mem_append_right _ hmem, seen,
            (hcollects tagging hmem).1, hline⟩)
        · exact Or.inr (Or.inr hwaits)
    · rw [List.mem_singleton.mp habove] at hclass ⊢
      rcases borne_new hturn hclass with ⟨event, hevent, hshows⟩ | hwaits
      · exact Or.inl ⟨event, List.mem_append_right _ hevent, hshows⟩
      · exact Or.inr (Or.inr hwaits)

/-- At the end nothing waits any more. -/
theorem finish {stop : Nat} (h : Gathered seen emitted state)
    (hlines : seen.Pairwise (fun line later => line.stop < later.start))
    (hfinish : state.finish stop = .ok events) : TagsAttached seen (emitted ++ events) := by
  rcases State.finish_eq_ok hfinish with ⟨hquoting, htags, rfl⟩
  rcases h.tidy.left with ⟨hleft, htrivia⟩
  -- The end of the feature has no tags, and the feature is announced now.
  have hall : taggings emitted ++ state.unannounced = taggings (emitted ++ (state.left.1 ++
      state.left.2.trivia ++ if state.phase = .preamble then [] else
        [⟨.featureEnd, Span.point state.lastStop⟩])) := by
    split <;> simp [hleft, htrivia, Event.tagging?]
  have hcollected := h.collected
  have hsorted := h.sorted
  have hborne := h.borne
  rw [hall] at hcollected hsorted hborne
  refine ⟨fun event hevent tagging htagging => ?_, fun line hline hclass hplain => ?_⟩
  · exact hcollected tagging (List.mem_filterMap.mpr ⟨event, hevent, htagging⟩)
  · rcases hborne line hline hclass with ⟨event, hevent, hshows⟩ | hborne | hwaits
    · exact absurd hshows (by simp [hplain event (List.mem_append_left _ hevent)])
    · rcases hborne with ⟨tagging, hmem, above, hcollects, habove⟩
      rcases List.mem_filterMap.mp hmem with ⟨event, hevent, htagging⟩
      rcases List.append_of_mem hevent with ⟨before, after, hevents⟩
      refine ⟨before, event, after, hevents, ⟨tagging, above, htagging, hcollects, habove⟩, ?_⟩
      rintro other hother ⟨tagging', above', htagging', hcollects', habove'⟩
      -- The other event would end on the same line, but each part has a heading of its own.
      have hstop := hcollects.stop_eq hlines hcollects'
        (Tagging.isPreliminary_eq_false htagging) (Tagging.isPreliminary_eq_false htagging')
        habove habove'
      rw [hevents, taggings_append, taggings_cons, htagging, Option.toList_some,
        List.singleton_append, List.pairwise_append, List.pairwise_cons] at hsorted
      rcases hsorted with ⟨-, ⟨hafter, -⟩, hbefore⟩
      rcases List.mem_append.mp hother with hother | hother
      · have hlt := hbefore tagging' (List.mem_filterMap.mpr ⟨other, hother, htagging'⟩) tagging
          List.mem_cons_self
        omega
      · have hlt := hafter tagging' (List.mem_filterMap.mpr ⟨other, hother, htagging'⟩)
        omega
    · exact absurd (h.words_eq_nil htags hquoting hwaits.2.1) hwaits.2.2

/-- The tags of a whole document, by induction on the lines to come. -/
theorem run {stop : Nat} {lines : List Line} (h : Gathered seen emitted state)
    (hlines : (seen ++ lines).Pairwise (fun line later => line.stop < later.start))
    (hrun : Reader.run stop state lines = .ok events) :
    TagsAttached (seen ++ lines) (emitted ++ events) := by
  induction lines generalizing seen emitted state events with
  | nil =>
      rw [List.append_nil] at hlines ⊢
      exact h.finish hlines hrun
  | cons line rest ih =>
      rcases bind_eq_ok hrun with ⟨⟨reported, next⟩, hstep, hrun⟩
      rcases bind_eq_ok hrun with ⟨more, hmore, heq⟩
      cases heq
      have hbelow : ∀ above ∈ seen, above.stop < line.start := fun above habove =>
        (List.pairwise_append.mp hlines).2.2 above habove line List.mem_cons_self
      have hnext := h.step (State.reads_of_step hstep) hbelow
      rw [← List.singleton_append, ← List.append_assoc] at hlines ⊢
      rw [← List.append_assoc]
      exact ih hnext hlines hmore

end Gathered

/-- Every part of a document has the tags right above its heading, in order,
    and every line of tags belongs to one part. -/
theorem readEvents_tagged {source : String} {events : List Event}
    (h : readEvents source = .ok events) : TagsAttached (Source.lines source) events :=
  Gathered.initial.run (Line.follow_split 0 source.toList).pairwise (readEvents_eq_ok h)

/-- A document with tags before every kind of part, with other lines among them
    and across the end of a block, and with a line in a doc string that looks
    like tags. -/
def taggedSample : String :=
  "@a @b#c\n\n @c\nFeature: f\n@d\nBackground:\nGiven x\n\"\"\"\n@e\n\"\"\"\n@f\n# g\n\t@h\n" ++
    "Scenario: s\n@i@j\nThen y\n| a |\n\n@k\nScenario Outline:\nExamples:\n@l\nScenario:"

/-- The sample is read, and these are its tags. -/
theorem readEvents_tagged_sample : ∃ events, readEvents taggedSample = .ok events ∧
    TagsAttached (Source.lines taggedSample) events ∧
    (taggings events).map Tagging.tags =
      [["a", "b", "c"], ["d"], [], ["f", "h"], ["i@j"], ["k"], ["l"]] := by
  have hread : ∃ events, readEvents taggedSample = .ok events ∧
      decide ((taggings events).map Tagging.tags =
        [["a", "b", "c"], ["d"], [], ["f", "h"], ["i@j"], ["k"], ["l"]]) = true :=
    exists_readEvents (by decide +kernel)
  rcases hread with ⟨events, hread, htags⟩
  exact ⟨events, hread, readEvents_tagged hread, of_decide_eq_true htags⟩

end Gherkin
