import Gherkin.Proofs.Source.Places
import Gherkin.Proofs.Ledger.Entry

/-!
# What Events Cover

Every event comes with a span, and the text under the span is what the event
was read off. A cell and a line of a doc string cover just what they say, a
comment covers its sign and its text, a part covers its first line from its
tags or its keyword on, and what closes a part covers nothing.

The reader names places by what is left of a line, and the tags of a part may
be lines above it. So there are two things to follow: that what a scan leaves
is left of the line that was scanned, and that the place of the first waiting
tag stays behind the line being read. All else is arithmetic that
`Source.At` has done already.

## Main definitions

* `EventKind.Agrees`: What the text under an event has to be.
* `Event.Placed`: The text under an event is what it has to be.
* `Remark.FoundIn`: A comment as it stands in a text.
* `State.Rooted`: What the reader holds stands in the document.

## Theorems

* `scanEnd_found`, `scanTags_found`, `scanRowBody_found`: Comments stand in the
  text that was scanned.
* `State.Rooted.step`: A line reports events that agree with the document.
* `run_placed`: All lines of a document do.
* `readEvents_placed`: The events of a document agree with it.
-/

namespace Gherkin

open Reader
open Source (Line At)

/-- What a part begins with: the sign of its first tag, or its keyword when it
    has no tags. -/
def beginning (tags : List String) (keyword : String) : List Char :=
  if tags.isEmpty then keyword.toList else ['@']

/-- What the text under an event has to be. -/
def EventKind.Agrees (text : List Char) : EventKind → Prop
  | .feature _ _ tags => beginning tags Heading.feature.text <+: text
  | .block kind _ tags => beginning tags (Heading.block kind).text <+: text
  | .step keyword _ tags => beginning tags keyword.text <+: text
  | .examples => Heading.examples.text.toList <+: text
  | .docString _ => fence <+: text
  | .table | .row => ['|'] <+: text
  | .cell content => text = content.toList
  | .docLine line => text = line.toList
  | .blankLine => ∀ c ∈ text, Text.isBlank c = true
  | .comment remark _ =>
    ∃ rest, text = '#' :: rest ∧ remark.toList = Text.dropTrailing Text.isSpace rest
  | .featureEnd | .blockEnd _ | .stepEnd | .docStringEnd | .tableEnd | .rowEnd
  | .examplesEnd => text = []

/-- An event stands in a document, and the text under it is what it has to
    be. -/
def Event.Placed (source : String) (event : Event) : Prop :=
  ∃ text rest, At source event.span.start (text ++ rest) ∧
    event.span.stop = event.span.start + Text.width text ∧ event.kind.Agrees text

/-- A comment as it stands in a text: from its sign on, trimmed at the end. -/
def Reader.Remark.FoundIn (remark : Remark) (cs : List Char) : Prop :=
  remark.place <:+ cs ∧ ∃ rest, remark.place = '#' :: rest ∧
    remark.text = Text.dropTrailing Text.isSpace rest

section Scanning

variable {cs rest : List Char} {remark : Remark}

theorem Reader.Remark.FoundIn.mono (h : remark.FoundIn rest) (hrest : rest <:+ cs) :
    remark.FoundIn cs :=
  ⟨h.1.trans hrest, h.2⟩

theorem scanEnd_found (h : scanEnd cs = .ok (some remark)) : remark.FoundIn cs := by
  unfold scanEnd at h
  split at h
  · exact absurd h (by simp only [Except.ok.injEq, reduceCtorEq, not_false_eq_true])
  · rename_i rest hrest
    cases h
    have hsuffix : Text.skipBlanks cs <:+ cs := List.dropWhile_suffix Text.isBlank
    rw [hrest] at hsuffix
    exact ⟨hsuffix, rest, rfl, rfl⟩
  · exact absurd h (by simp only [reduceCtorEq, not_false_eq_true])

theorem scanTagsFrom_found {inName : Bool} {name : List Char} {tags : List String}
    (h : scanTagsFrom inName cs = .ok (name, tags, some remark)) : remark.FoundIn cs := by
  -- The comment is found by the call that reaches its sign.
  fun_induction scanTagsFrom inName cs generalizing name tags with
  | case1 => simp at h
  | case2 inName c rest hblank ih =>
      rcases bind_eq_ok h with ⟨⟨inner, more, last⟩, hrest, heq⟩
      cases heq
      exact (ih hrest).mono (List.suffix_cons c rest)
  | case3 inName c rest hblank hhash =>
      rcases bind_eq_ok h with ⟨last, hend, heq⟩
      cases heq
      exact scanEnd_found hend
  | case4 inName c rest hblank hhash htag ih =>
      rcases bind_eq_ok h with ⟨⟨inner, more, last⟩, hrest, heq⟩
      cases heq
      exact (ih hrest).mono (List.suffix_cons c rest)
  | case5 inName c rest hblank hhash htag hat hhead ih =>
      rcases bind_eq_ok h with ⟨⟨inner, more, last⟩, hrest, heq⟩
      cases heq
      exact (ih hrest).mono (List.suffix_cons c rest)
  | case6 => exact absurd h (by simp only [reduceCtorEq, not_false_eq_true])
  | case7 => exact absurd h (by simp only [reduceCtorEq, not_false_eq_true])

theorem scanTags_found {tags : List String} (h : scanTags cs = .ok (tags, some remark)) :
    remark.FoundIn cs := by
  rcases bind_eq_ok h with ⟨⟨name, more, last⟩, hscan, heq⟩
  cases heq
  exact scanTagsFrom_found hscan

theorem scanRowBody_found {cells : List Cell} (h : scanRowBody cs = .ok (cells, some remark)) :
    remark.FoundIn cs := by
  rcases scanRowBody_eq_ok_iff.mp h with ⟨-, -, hend⟩
  exact (scanEnd_found hend).mono (scanCells_tail_suffix [] cs)

end Scanning

section Lines

variable {source : String} {line : Line}

/-- An event from somewhere on a line to its end. -/
theorem placed_rest (hline : line ∈ Source.lines source) {rest : List Char}
    (hrest : rest <:+ line.text) {kind : EventKind} (hkind : kind.Agrees rest) :
    Event.Placed source ⟨kind, ⟨line.offsetOf rest, line.stop⟩⟩ := by
  rcases Source.at_rest hline hrest with ⟨more, hat, -, hstop⟩
  exact ⟨rest, more, hat, hstop.symm, hkind⟩

/-- An event without width. -/
theorem placed_point {offset : Nat} {rest : List Char} (hat : At source offset rest)
    {kind : EventKind} (hkind : kind.isCloser = true) :
    Event.Placed source ⟨kind, Span.point offset⟩ := by
  refine ⟨[], rest, hat, rfl, ?_⟩
  cases kind <;> simp_all [EventKind.isCloser, EventKind.Agrees]

/-- The end of a line is a place. -/
theorem at_stop (hline : line ∈ Source.lines source) : ∃ rest, At source line.stop rest := by
  rcases Source.at_rest hline List.suffix_rfl with ⟨more, -, hstop, -⟩
  exact ⟨more, hstop⟩

theorem placed_remark (hline : line ∈ Source.lines source) {remark : Remark}
    (hremark : remark.FoundIn line.text) (inline : Bool) :
    (line.commentEvent inline remark).Placed source := by
  rcases hremark with ⟨hplace, rest, hsign, htext⟩
  refine placed_rest hline hplace ⟨rest, hsign, ?_⟩
  rw [String.toList_ofList, htext]

theorem placed_inline (hline : line ∈ Source.lines source) {remark : Option Remark}
    (hremark : ∀ r, remark = some r → r.FoundIn line.text) :
    ∀ event ∈ line.inlineEvents remark, event.Placed source := by
  cases remark with
  | none => simp [Line.inlineEvents]
  | some r => simpa [Line.inlineEvents] using placed_remark hline (hremark r rfl) true

theorem placed_side (hline : line ∈ Source.lines source) {remark : Option Remark}
    (hremark : ∀ r, remark = some r → r.FoundIn line.text) :
    ∀ event ∈ line.sideEvents remark, event.Placed source := by
  cases remark with
  | none => simp [Line.sideEvents]
  | some r => simpa [Line.sideEvents] using placed_remark hline (hremark r rfl) false

theorem placed_blank (hline : line ∈ Source.lines source) (hclass : classify line.text = .blank) :
    line.blankEvent.Placed source := by
  have hoffset : line.offsetOf line.text = line.start := by
    rw [Line.offsetOf, Line.stop, Nat.add_sub_cancel]
  have hplaced : Event.Placed source ⟨.blankLine, ⟨line.offsetOf line.text, line.stop⟩⟩ :=
    placed_rest hline List.suffix_rfl (Text.skipBlanks_eq_nil_iff.mp (begins_of_class hclass))
  rwa [hoffset] at hplaced

theorem placed_cell (hline : line ∈ Source.lines source) {cell : Cell}
    (htext : cell.text <+: cell.place) (hplace : cell.place <:+ line.text) :
    (line.cellEvent cell).Placed source := by
  rcases Source.at_rest hline hplace with ⟨more, hat, -, -⟩
  rcases htext with ⟨after, hafter⟩
  rw [← hafter, List.append_assoc, hafter] at hat
  exact ⟨cell.text, after ++ more, hat, rfl, (String.toList_ofList).symm⟩

/-- The comment behind the text that follows a keyword stands on the line. -/
theorem found_afterKeyword {keyword : String} {text rest : List Char} {remark : Option Remark}
    (htext : scanText false (line.afterKeyword keyword) = .ok (text, rest))
    (hend : scanEnd rest = .ok remark) : ∀ r, remark = some r → r.FoundIn line.text := by
  rintro r rfl
  exact (scanEnd_found hend).mono ((scanText_rest_suffix htext).trans
    ((List.dropWhile_suffix Text.isBlank).trans
      ((List.drop_suffix _ _).trans line.content_suffix)))

/-- The comment behind a sign or a keyword that nothing follows stands on the
    line. -/
theorem found_behind {n : Nat} {remark : Option Remark}
    (hend : scanEnd (line.content.drop n) = .ok remark) :
    ∀ r, remark = some r → r.FoundIn line.text := by
  rintro r rfl
  exact (scanEnd_found hend).mono ((List.drop_suffix n _).trans line.content_suffix)

/-- A row covers its line from the first bar on, its cells and its comment are
    covered where they stand, and its end covers nothing. -/
theorem placed_row (hline : line ∈ Source.lines source) (hclass : classify line.text = .row)
    {cells : List Cell} {remark : Option Remark}
    (hscan : scanRowBody (line.content.drop 1) = .ok (cells, remark)) :
    ∀ event ∈ ⟨.row, ⟨line.contentStart, line.stop⟩⟩ :: cells.map line.cellEvent ++
      line.inlineEvents remark ++ [⟨.rowEnd, Span.point line.stop⟩], event.Placed source := by
  have hrest : line.content.drop 1 <:+ line.text :=
    (List.drop_suffix _ _).trans line.content_suffix
  rcases begins_of_class hclass with ⟨after, hbar⟩
  have hrow : Event.Placed source ⟨.row, ⟨line.contentStart, line.stop⟩⟩ :=
    placed_rest hline line.content_suffix ⟨after, hbar.symm⟩
  have hcells : ∀ event ∈ cells.map line.cellEvent, event.Placed source := by
    intro event hevent
    rcases List.mem_map.mp hevent with ⟨cell, hcell, rfl⟩
    rcases scanRowBody_place hscan cell hcell with ⟨htext, hplace⟩
    exact placed_cell hline htext (hplace.trans hrest)
  have hinline : ∀ event ∈ line.inlineEvents remark, event.Placed source := by
    refine placed_inline hline ?_
    rintro r rfl
    exact (scanRowBody_found hscan).mono hrest
  rcases at_stop hline with ⟨more, hstop⟩
  have hend : Event.Placed source ⟨.rowEnd, Span.point line.stop⟩ := placed_point hstop rfl
  exact List.forall_mem_append.mpr ⟨List.forall_mem_append.mpr
    ⟨List.forall_mem_cons.mpr ⟨hrow, hcells⟩, hinline⟩, List.forall_mem_singleton.mpr hend⟩

/-- The events of a part that opens behind others. -/
theorem placed_part {before trivia after : List Event} {opener : Event}
    (hbefore : ∀ event ∈ before, event.Placed source)
    (htrivia : ∀ event ∈ trivia, event.Placed source) (hopener : opener.Placed source)
    (hafter : ∀ event ∈ after, event.Placed source) :
    ∀ event ∈ before ++ (trivia ++ opener :: after), event.Placed source :=
  List.forall_mem_append.mpr ⟨hbefore, List.forall_mem_append.mpr ⟨htrivia,
    List.forall_mem_cons.mpr ⟨hopener, hafter⟩⟩⟩

end Lines

namespace Reader.State

/-- What the reader holds stands in the document, and the tags that wait begin
    before `reach`. -/
structure Rooted (source : String) (reach : Nat) (state : State) : Prop where
  trivia : ∀ event ∈ state.trivia, event.Placed source
  heading : ∀ opening, state.phase = .opening opening → opening.event.Placed source
  held : ∀ opening, state.phase = .opening opening →
    ∀ event ∈ opening.remarks ++ opening.side ++ opening.pending, event.Placed source
  tags : ∀ group, state.tags = some group → group.names ≠ [] ∧ group.start < reach ∧
    ∃ rest, At source group.start ('@' :: rest)
  last : ∃ rest, At source state.lastStop rest

namespace Rooted

variable {source : String} {reach : Nat} {state next : State} {line : Line}
  {events : List Event}

theorem mono (h : Rooted source reach state) {later : Nat} (hle : reach ≤ later) :
    Rooted source later state where
  trivia := h.trivia
  heading := h.heading
  held := h.held
  tags := by
    intro group hgroup
    rcases h.tags group hgroup with ⟨hne, hstart, hat⟩
    exact ⟨hne, hstart.trans_le hle, hat⟩
  last := h.last

/-- Trivia is held back. -/
theorem hold (h : Rooted source reach state) (hevents : ∀ event ∈ events, event.Placed source) :
    Rooted source reach (state.hold events) where
  trivia := by
    intro event hevent
    rcases List.mem_append.mp hevent with hheld | hnew
    · exact h.trivia event hheld
    · exact hevents event hnew
  heading := h.heading
  held := h.held
  tags := h.tags
  last := h.last

theorem keep (h : Rooted source reach state) (hevents : ∀ event ∈ events, event.Placed source) :
    Rooted source reach (state.keep events) := by
  by_cases hopening : ∃ opening, state.phase = .opening opening
  · rcases hopening with ⟨opening, hphase⟩
    have hkeep : state.keep events = { state with
        phase := .opening { opening with pending := opening.pending ++ events } } := by
      simp [State.keep, hphase]
    rw [hkeep]
    refine ⟨h.trivia, ?_, ?_, h.tags, h.last⟩
    · rintro later hlater
      cases hlater
      exact h.heading opening hphase
    · rintro later hlater event hevent
      cases hlater
      rw [← List.append_assoc] at hevent
      rcases List.mem_append.mp hevent with hheld | hnew
      · exact h.held opening hphase event hheld
      · exact hevents event hnew
  · push Not at hopening
    rw [keep_of_ne hopening]
    exact h.hold hevents

/-- What closes a part covers nothing. -/
theorem closing (h : Rooted source reach state) {kinds : List EventKind}
    (hkinds : ∀ kind ∈ kinds, kind.isCloser = true) :
    ∀ event ∈ kinds.map state.closing, event.Placed source := by
  intro event hevent
  rcases List.mem_map.mp hevent with ⟨kind, hkind, rfl⟩
  rcases h.last with ⟨rest, hat⟩
  exact placed_point hat (hkinds kind hkind)

/-- The feature is announced. -/
theorem announce (h : Rooted source reach state) {opening : Opening}
    (hphase : state.phase = .opening opening) :
    (∀ event ∈ (state.announce opening).1, event.Placed source) ∧
      Rooted source reach (state.announce opening).2 := by
  have hheld := h.held opening hphase
  refine ⟨?_, ?_, ?_, ?_, h.tags, h.last⟩
  · intro event hevent
    rcases List.mem_append.mp hevent with htrivia | hevent
    · exact h.trivia event htrivia
    · rcases List.mem_cons.mp hevent with rfl | hremark
      · exact h.heading opening hphase
      · exact hheld event (by simp [hremark])
  · intro event hevent
    refine hheld event ?_
    rw [List.append_assoc]
    exact List.mem_append_right _ hevent
  · rintro later hlater
    exact absurd hlater (by simp [State.announce])
  · rintro later hlater
    exact absurd hlater (by simp [State.announce])

/-- A part other than the description is all that is open. -/
theorem settle (h : Rooted source reach state) {phase : Phase}
    (hphase : ∀ opening, phase ≠ .opening opening) :
    Rooted source reach { state with phase := phase } where
  trivia := h.trivia
  heading := fun opening hopening => absurd hopening (hphase opening)
  held := fun opening hopening => absurd hopening (hphase opening)
  tags := h.tags
  last := h.last

/-- What is settled by tags. -/
theorem settled (h : Rooted source reach state) :
    (∀ event ∈ state.settled.1, event.Placed source) ∧ Rooted source reach state.settled.2 := by
  unfold State.settled
  split
  · exact h.announce (by assumption)
  · exact ⟨h.closing Place.isCloser_of_mem_closers, h.settle (by simp)⟩
  · exact ⟨by simp, h⟩

/-- What is left by the heading of a block or the end of the document. -/
theorem left (h : Rooted source reach state) :
    (∀ event ∈ state.left.1, event.Placed source) ∧ Rooted source reach state.left.2 := by
  unfold State.left
  split
  · exact h.announce (by assumption)
  · rename_i kind place hphase
    refine ⟨h.closing (fun closer hcloser => ?_), h.settle (by simp)⟩
    rcases List.mem_append.mp hcloser with hcloser | hcloser
    · exact Place.isCloser_of_mem_closers closer hcloser
    · rw [List.mem_singleton.mp hcloser]
      rfl
  · exact ⟨by simp, h⟩

/-- Tags are added to those that wait. The first of them keeps its place. -/
theorem addTags (h : Rooted source reach state) {offset : Nat} {names : List String}
    (hnames : names ≠ []) (hoffset : offset < reach) {rest : List Char}
    (hat : At source offset ('@' :: rest)) : Rooted source reach (state.addTags offset names) where
  trivia := h.trivia
  heading := h.heading
  held := h.held
  tags := by
    intro group hgroup
    cases hwaiting : state.tags with
    | none =>
        simp only [State.addTags, hwaiting, Option.some.injEq] at hgroup
        subst hgroup
        exact ⟨hnames, hoffset, rest, hat⟩
    | some first =>
        simp only [State.addTags, hwaiting, Option.some.injEq] at hgroup
        subst hgroup
        rcases h.tags first hwaiting with ⟨hne, hstart, hfirst⟩
        exact ⟨by simp [hne], hstart, hfirst⟩
  last := h.last

/-- Behind a line that opens or closes a part nothing is held back but tags. -/
theorem after (h : Rooted source reach state) (hline : line ∈ Source.lines source)
    (hreach : reach ≤ line.start) (htrivia : next.trivia = [])
    (hphase : ∀ opening, next.phase ≠ .opening opening)
    (htags : next.tags = none ∨ next.tags = state.tags) (hstop : next.lastStop = line.stop) :
    Rooted source line.stop next where
  trivia := by simp [htrivia]
  heading := fun opening hopening => absurd hopening (hphase opening)
  held := fun opening hopening => absurd hopening (hphase opening)
  tags := by
    intro group hgroup
    rcases htags with hnone | hsame
    · simp [hnone] at hgroup
    · have hlater : reach ≤ line.stop := hreach.trans (Nat.le_add_right _ _)
      exact (h.mono hlater).tags group (hsame ▸ hgroup)
  last := hstop ▸ at_stop hline

/-- The event of a part covers its heading, and its tags if it has any. -/
theorem opener (h : Rooted source reach state) (hline : line ∈ Source.lines source)
    (hreach : reach ≤ line.start) {kind : EventKind} {keyword : String}
    (hkeyword : keyword.toList <+: line.content)
    (hkind : ∀ text, beginning state.tagNames keyword <+: text → kind.Agrees text) :
    Event.Placed source ⟨kind, ⟨state.startOf line.contentStart, line.stop⟩⟩ := by
  cases htags : state.tags with
  | none =>
      have hstart : state.startOf line.contentStart = line.offsetOf line.content := by
        simp [startOf, htags, Line.contentStart]
      rw [hstart]
      refine placed_rest hline line.content_suffix (hkind _ ?_)
      simpa [beginning, tagNames, htags] using hkeyword
  | some group =>
      rcases h.tags group htags with ⟨hne, hbefore, rest, hat⟩
      rcases at_stop hline with ⟨more, hstop⟩
      have hlt : group.start < line.stop :=
        hbefore.trans_le (hreach.trans (Nat.le_add_right _ _))
      have hstart : state.startOf line.contentStart = group.start := by simp [startOf, htags]
      rcases hat.exists_between hstop hlt.le with ⟨between, hbetween, hwidth⟩
      rw [hbetween] at hat
      rw [hstart]
      refine ⟨between, more, hat, hwidth, hkind between ?_⟩
      -- The line ends behind the first tag, so something of it is covered.
      cases between with
      | nil => simp [hwidth] at hlt
      | cons c others =>
          rw [List.cons_append, List.cons.injEq] at hbetween
          rw [← hbetween.1]
          simp [beginning, tagNames, htags, hne]

/-- A line of the description. Its comment joins the trivia around the
    description, and so does what was pending, less the blank lines in it. -/
theorem prose (h : Rooted source reach state) {opening : Opening}
    (hphase : state.phase = .opening opening) (hline : line ∈ Source.lines source)
    (hreach : reach ≤ line.start) {text : List Char} {remark : Option Remark}
    (hremark : ∀ r, remark = some r → r.FoundIn line.text) :
    Rooted source line.stop { state with
      phase := .opening { opening.settle with
        description := opening.settle.description ++ [String.ofList text]
        side := opening.settle.side ++ line.sideEvents remark }
      lastStop := line.stop } := by
  rcases opening.settle_keeps with ⟨htags, hspan, hremarks, hpending, hside⟩
  have hheld := h.held opening hphase
  refine ⟨h.trivia, ?_, ?_, ?_, at_stop hline⟩
  · rintro later hlater
    cases hlater
    -- The text under the heading does not depend on the description.
    rcases h.heading opening hphase with ⟨under, rest, hat, hwidth, hagrees⟩
    simp only [Opening.event, htags, hspan]
    exact ⟨under, rest, hat, hwidth, hagrees⟩
  · rintro later hlater event hevent
    cases hlater
    simp only [hremarks, hpending, List.append_nil, List.mem_append] at hevent
    rcases hevent with hremarked | hkept | hnew
    · exact hheld event (by simp [hremarked])
    · exact hheld event (by simpa using Or.inr (by simpa using hside event hkept))
    · exact placed_side hline hremark event hnew
  · exact (h.mono (hreach.trans (Nat.le_add_right _ _))).tags

/-- A line of tags. They wait from their first sign on, which stands on the
    line. -/
theorem tagged (h : Rooted source line.stop state) (hline : line ∈ Source.lines source)
    (hclass : classify line.text = .tags) {names : List String} {remark : Option Remark}
    (hscan : scanTags line.text = .ok (names, remark)) :
    Rooted source line.stop
      ((state.addTags line.contentStart names).hold (line.sideEvents remark)) := by
  rcases begins_of_class hclass with ⟨rest, hrest⟩
  rcases Source.at_rest hline line.content_suffix with ⟨more, hat, -, hstop⟩
  rw [Line.content, hrest] at hat hstop
  have hoffset : line.contentStart = line.offsetOf ('@' :: rest) := by
    rw [Line.contentStart, Line.content, hrest]
  have hlt : line.contentStart < line.stop := by
    rw [hoffset, ← hstop, Text.width_cons]
    exact Nat.lt_add_of_pos_right (Nat.add_pos_left (Char.utf8Size_pos '@') _)
  refine (h.addTags (scanTags_ne_nil hclass hscan) hlt (hoffset ▸ hat)).hold
    (placed_side hline ?_)
  rintro r rfl
  exact scanTags_found hscan

/-- The heading of the feature is held back with its comment. -/
theorem feature (h : Rooted source reach state) (hline : line ∈ Source.lines source)
    (hreach : reach ≤ line.start) (hclass : classify line.text = .heading .feature)
    {title : List Char} {remark : Option Remark}
    (hremark : ∀ r, remark = some r → r.FoundIn line.text) :
    Rooted source line.stop { state with
      phase := .opening {
        title := String.ofList title
        tags := state.tagNames
        span := ⟨state.startOf line.contentStart, line.stop⟩
        remarks := line.inlineEvents remark
        description := []
        side := []
        pending := [] }
      tags := none
      lastStop := line.stop } := by
  rcases begins_of_class hclass with ⟨after, hkeyword⟩
  have hplaced : Event.Placed source ⟨.feature (String.ofList title) ("\n".intercalate [])
      state.tagNames, ⟨state.startOf line.contentStart, line.stop⟩⟩ :=
    h.opener hline hreach ⟨after, hkeyword.symm⟩ (fun _ hagrees => hagrees)
  refine ⟨h.trivia, ?_, ?_, by simp, at_stop hline⟩
  · rintro opening hopening
    cases hopening
    exact hplaced
  · rintro opening hopening event hevent
    cases hopening
    simp only [List.append_nil] at hevent
    exact placed_inline hline hremark event hevent

/-- A line reports events that agree with the document, and so does what is
    held back behind it. -/
theorem step (h : Rooted source reach state) (hline : line ∈ Source.lines source)
    (hreach : reach ≤ line.start) (hreads : state.Reads line events next) :
    (∀ event ∈ events, event.Placed source) ∧ Rooted source line.stop next := by
  have hlater : reach ≤ line.stop := hreach.trans (Nat.le_add_right _ _)
  have hcontent := line.content_suffix
  cases hreads with
  -- Lines that only add to what is held back.
  | blank hquoting hclass =>
      refine ⟨by simp, (h.mono hlater).keep ?_⟩
      simpa using placed_blank hline hclass
  | comment remark hquoting hclass hend =>
      refine ⟨by simp, (h.mono hlater).keep ?_⟩
      simpa using placed_remark hline (scanEnd_found hend) false
  | tags names remark hquoting hclass hscan =>
      rcases (h.mono hlater).settled with ⟨hevents, hsettled⟩
      exact ⟨hevents, hsettled.tagged hline hclass hscan⟩
  | feature title rest remark hphase hclass hne htext hend =>
      exact ⟨by simp, h.feature hline hreach hclass (found_afterKeyword htext hend)⟩
  | prose opening text rest remark hphase hclass htext hend =>
      refine ⟨by simp, h.prose hphase hline hreach ?_⟩
      rintro r rfl
      exact (scanEnd_found hend).mono ((scanText_rest_suffix htext).trans hcontent)
  -- Parts are covered from their first tag or their keyword on.
  | block kind title rest remark hquoting hphase hadmits hclass htext hend =>
      rcases h.left with ⟨hleft, hbody⟩
      rcases begins_of_class hclass with ⟨after, hkeyword⟩
      have hplaced : Event.Placed source ⟨.block kind (String.ofList title) state.tagNames,
          ⟨state.startOf line.contentStart, line.stop⟩⟩ :=
        h.opener hline hreach ⟨after, hkeyword.symm⟩ (fun _ hagrees => hagrees)
      refine ⟨?_, h.after hline hreach rfl (by simp [State.opened]) (Or.inl rfl) rfl⟩
      exact placed_part hleft hbody.trivia hplaced
        (placed_inline hline (found_afterKeyword htext hend))
  | step kind place keyword text rest remark hquoting hphase hstage hclass hne htext hend =>
      rcases begins_of_class hclass with ⟨-, hstarts⟩
      rcases exists_append_of_isPrefixOf (Bool.and_eq_true_iff.mp hstarts).1 with ⟨after, hkeyword⟩
      have hplaced : Event.Placed source ⟨.step keyword (String.ofList text) state.tagNames,
          ⟨state.startOf line.contentStart, line.stop⟩⟩ :=
        h.opener hline hreach ⟨after, hkeyword.symm⟩ (fun _ hagrees => hagrees)
      refine ⟨?_, h.after hline hreach rfl (by simp [State.opened]) (Or.inl rfl) rfl⟩
      exact placed_part (h.closing Place.isCloser_of_mem_closers) h.trivia hplaced
        (placed_inline hline (found_afterKeyword htext hend))
  | examples place remark hquoting hphase hstage htags hclass hend =>
      rcases begins_of_class hclass with ⟨after, hkeyword⟩
      have hplaced : Event.Placed source ⟨.examples, ⟨line.contentStart, line.stop⟩⟩ :=
        placed_rest hline hcontent ⟨after, hkeyword.symm⟩
      refine ⟨?_, h.after hline hreach rfl (by simp [State.opened]) (Or.inl rfl) rfl⟩
      exact placed_part (h.closing Place.isCloser_of_mem_closers) h.trivia hplaced
        (placed_inline hline (found_behind hend))
  | row kind owner place cells remark hphase hplace hclass hscan =>
      rcases begins_of_class hclass with ⟨after, hbar⟩
      have htable : Event.Placed source ⟨.table, ⟨line.contentStart, line.stop⟩⟩ :=
        placed_rest hline hcontent ⟨after, hbar.symm⟩
      refine ⟨?_, h.after hline hreach rfl (by simp) (Or.inr rfl) rfl⟩
      refine List.forall_mem_append.mpr ⟨h.trivia,
        List.forall_mem_append.mpr ⟨?_, placed_row hline hclass hscan⟩⟩
      split
      · exact List.forall_mem_singleton.mpr htable
      · exact List.forall_mem_nil _
  -- Doc strings, from fence to fence.
  | openFence kind hphase hclass hend =>
      rcases begins_of_class hclass with ⟨after, hfence⟩
      have hplaced : Event.Placed source
          ⟨.docString (Text.indentation line.text), ⟨line.contentStart, line.stop⟩⟩ :=
        placed_rest hline hcontent ⟨after, hfence.symm⟩
      refine ⟨?_, h.after hline hreach rfl (by simp) (Or.inr rfl) rfl⟩
      exact List.forall_mem_append.mpr ⟨h.trivia, List.forall_mem_singleton.mpr hplaced⟩
  | closeFence kind indent remark hphase hclass hend =>
      rcases at_stop hline with ⟨more, hstop⟩
      have hdoc : Event.Placed source ⟨.docStringEnd, Span.point line.stop⟩ :=
        placed_point hstop rfl
      have hstep : Event.Placed source ⟨.stepEnd, Span.point line.stop⟩ := placed_point hstop rfl
      refine ⟨List.forall_mem_append.mpr ⟨placed_inline hline (found_behind hend), ?_⟩, ?_⟩
      · simp [hdoc, hstep]
      · exact { (h.mono hlater).settle (by simp) with last := ⟨more, hstop⟩ }
  | docLine kind indent hphase hclass =>
      have hbody : Text.stripIndent indent line.text <:+ line.text :=
        Text.stripIndent_suffix indent line.text
      have hplaced : Event.Placed source
          ⟨.docLine (String.ofList (Text.stripIndent indent line.text)),
            ⟨line.offsetOf (Text.stripIndent indent line.text), line.stop⟩⟩ :=
        placed_rest hline hbody (String.toList_ofList).symm
      exact ⟨List.forall_mem_singleton.mpr hplaced, { h.mono hlater with last := at_stop hline }⟩

/-- The end of the document reports events that agree with it. -/
theorem finish (h : Rooted source reach state) {stop : Nat}
    (hfinish : state.finish stop = .ok events) : ∀ event ∈ events, event.Placed source := by
  rcases finish_eq_ok hfinish with ⟨-, -, rfl⟩
  rcases h.left with ⟨hleft, hbody⟩
  refine List.forall_mem_append.mpr ⟨List.forall_mem_append.mpr ⟨hleft, hbody.trivia⟩, ?_⟩
  split
  · simp
  · rcases h.last with ⟨rest, hat⟩
    have hend : Event.Placed source ⟨.featureEnd, Span.point state.lastStop⟩ :=
      placed_point hat rfl
    simpa using hend

end Rooted

end Reader.State

open Reader (State)

/-- All lines of a document report events that agree with it. -/
theorem run_placed {source : String} {stop reach : Nat} {state : State} {lines : List Line}
    {events : List Event} (h : state.Rooted source reach)
    (hmem : ∀ line ∈ lines, line ∈ Source.lines source)
    (hreach : ∀ line ∈ lines, reach ≤ line.start)
    (hlines : lines.Pairwise (fun line later => line.stop < later.start))
    (hrun : run stop state lines = .ok events) : ∀ event ∈ events, event.Placed source := by
  induction lines generalizing reach state events with
  | nil => exact h.finish hrun
  | cons line rest ih =>
      rcases bind_eq_ok hrun with ⟨⟨first, next⟩, hstep, hrun⟩
      rcases bind_eq_ok hrun with ⟨more, hrest, hrun⟩
      cases hrun
      rcases List.pairwise_cons.mp hlines with ⟨hbelow, hlines⟩
      rcases h.step (hmem line List.mem_cons_self) (hreach line List.mem_cons_self)
        (State.reads_of_step hstep) with ⟨hfirst, hnext⟩
      have hmore := ih hnext (fun later hlater => hmem later (List.mem_cons_of_mem line hlater))
        (fun later hlater => (hbelow later hlater).le) hlines hrest
      exact List.forall_mem_append.mpr ⟨hfirst, hmore⟩

/-- The reader starts with nothing held. -/
theorem rooted_initial (source : String) : State.Rooted source 0 {} where
  trivia := by simp
  heading := by simp
  held := by simp
  tags := by simp
  last := ⟨source.toList, [], rfl, rfl⟩

/-- The events of a document lie in it, between characters, and the text under
    each of them is what the event says. -/
theorem readEvents_placed {source : String} {events : List Event}
    (h : readEvents source = .ok events) :
    ∀ event ∈ events, event.span.start ≤ event.span.stop ∧
      event.span.stop ≤ Source.size source ∧
      (event.kind.isCloser = true → event.span.start = event.span.stop) ∧
      ∃ slice, event.span.slice? source = some slice ∧ event.kind.Agrees slice.toList := by
  intro event hevent
  have hplaced := run_placed (rooted_initial source) (fun _ hline => hline)
    (fun line _ => Nat.zero_le line.start) (Line.follow_split 0 source.toList).pairwise
    (readEvents_eq_ok h) event hevent
  rcases hplaced with ⟨text, rest, hat, hstop, hagrees⟩
  refine ⟨by omega, ?_, fun hcloser => ?_, String.ofList text, ?_, ?_⟩
  · rw [hstop]
    exact hat.skip.le_size
  · have hnone : text = [] := by
      cases hkind : event.kind <;> simp_all [EventKind.isCloser, EventKind.Agrees]
    rw [hstop, hnone, Text.width_nil, Nat.add_zero]
  · have hspan : event.span = ⟨event.span.start, event.span.start + Text.width text⟩ := by
      rw [← hstop]
    rw [hspan]
    exact hat.slice
  · rwa [String.toList_ofList]

/-- A document with characters of several bytes in every text, some of them
    behind a backslash. -/
def multibyteSample : String :=
  "@é @ü#ö\n Feature: \\é \"日\\本\" #☃\n  \\😀\n\nScenario:\n @ñ\n\t\n Given \\日\n" ++
    "| ä | \\é |\nWhen “x”\n  \"\"\"\n   é\n  \"\"\" #ß"

/-- The sample is accepted, and its events agree with it. A step is covered
    from its tag on. -/
theorem readEvents_placed_multibyte : ∃ events, readEvents multibyteSample = .ok events ∧
    (∀ event ∈ events, event.span.start ≤ event.span.stop ∧
      event.span.stop ≤ Source.size multibyteSample ∧
      (event.kind.isCloser = true → event.span.start = event.span.stop) ∧
      ∃ slice, event.span.slice? multibyteSample = some slice ∧
        event.kind.Agrees slice.toList) ∧
    ∃ event ∈ events, event.span.slice? multibyteSample = some "@ñ\n\t\n Given \\日" := by
  have hread : ∃ events, readEvents multibyteSample = .ok events ∧
      events.any (fun event => decide (event.span.slice? multibyteSample =
        some "@ñ\n\t\n Given \\日")) = true :=
    exists_readEvents (by decide +kernel)
  rcases hread with ⟨events, hread, hstep⟩
  refine ⟨events, hread, readEvents_placed hread, ?_⟩
  simpa using hstep

end Gherkin
