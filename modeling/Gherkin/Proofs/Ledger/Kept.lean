import Gherkin.Proofs.Ledger.Description

/-!
# Keeping the Ledger

The reader reports events later than it reads the lines they end on. Trivia is
held back until a part opens, the heading of the feature until its description
is complete, and what closes a part is reported when a later line cannot belong
to it. In the ledger each event stands with its line from the start, so keeping
the ledger is following what the reader holds back: what has been reported so
far, followed by what is held back, is the ledger, line by line.

Where a part is still open, the events that close it will be entered on the
line that said something last. That line is the last one but for trivia and
tags, and these are what is held back.

## Main definitions

* `Sealed`: No further line can belong to the description.
* `Kept`: The ledger of the lines that have been read.
* `Filed`: The ledger of a document.

## Theorems

* `Kept.keep`, `Kept.advance`: Trivia, and the lines of a block that say
  something.
* `Kept.settle`, `Kept.left`: The end of what is open.
* `Kept.step`: A line is entered in the ledger.
* `Kept.finish`, `run_filed`: All lines of a document are.
-/

namespace Gherkin

open Reader
open Source (Line)

/-- No further line can belong to the description. -/
def Sealed (entries : List Entry) : Prop :=
  ∀ more, descriptionLines (entries.map Entry.line ++ more) = described entries

theorem Sealed.sealable {entries : List Entry} (h : Sealed entries) : Sealable entries :=
  fun more _ => h more

namespace Entry

/-- The entry tells of no feature. -/
def Quiet (entry : Entry) : Prop :=
  ∀ event ∈ entry.events, ∀ title description tags,
    event.kind ≠ .feature title description tags

/-- An entry with parts closed behind it. -/
def close (entry : Entry) (ends : List Event) : Entry :=
  { entry with events := entry.events ++ ends }

theorem Sound.quiet {entry : Entry} (hsound : entry.Sound)
    (h : entry.account = .opening → classify entry.line.text ≠ .heading .feature) :
    entry.Quiet := by
  intro event hevent title description tags hkind
  rcases Records.opening_of_feature hsound hevent hkind with ⟨hopening, hclass⟩
  exact h hopening hclass

end Entry

section Adding

variable {entries : List Entry} {entry : Entry}

theorem described_add (h : entry.account ≠ .description) :
    described (entries ++ [entry]) = described entries := by
  have hnone : described [entry] = [] := described_eq_nil (fun e he =>
    List.mem_singleton.mp he ▸ h)
  rw [described_append, hnone, List.append_nil]

theorem Sealed.add (h : Sealed entries) (haccount : entry.account ≠ .description) :
    Sealed (entries ++ [entry]) := by
  intro more
  rw [described_add haccount, List.map_append, List.append_assoc]
  exact h _

/-- A line that ends the description seals it. -/
theorem Sealable.add (h : Sealable entries) (haccount : entry.account ≠ .description)
    (hends : entry.line.endsDescription = true) : Sealed (entries ++ [entry]) := by
  intro more
  rw [described_add haccount, List.map_append, List.append_assoc]
  refine h _ (fun line hline => ?_)
  rw [List.map_singleton, List.singleton_append, List.head?_cons, Option.mem_some_iff] at hline
  exact hline ▸ hends

theorem Told.add (h : Told entries) (hsound : entry.Sound)
    (haccount : entry.account ≠ .description) (hquiet : entry.Quiet) :
    Told (entries ++ [entry]) := by
  refine ⟨fun e he => ?_, fun hdescribed => ?_, fun event hevent title description tags hkind => ?_⟩
  · rcases List.mem_append.mp he with he | he
    · exact h.sound e he
    · exact List.mem_singleton.mp he ▸ hsound
  · rw [described_add haccount] at hdescribed
    rcases h.feature hdescribed with ⟨event, hevent, hkind⟩
    exact ⟨event, by simp [hevent], hkind⟩
  · rw [described_add haccount]
    rw [reported_append, List.mem_append] at hevent
    rcases hevent with hevent | hevent
    · exact h.title event hevent title description tags hkind
    · simp only [reported_cons, reported_nil, List.append_nil] at hevent
      exact absurd hkind (hquiet event hevent title description tags)

end Adding

section Closing

variable {done held : List Entry} {last : Entry} {ends : List Event}

theorem described_close :
    described (done ++ [last.close ends] ++ held) = described (done ++ [last] ++ held) := by
  have hone : described [last.close ends] = described [last] := by
    by_cases haccount : last.account = .description <;> simp [described, Entry.close, haccount]
  rw [described_append, described_append, described_append, described_append, hone]

theorem lines_close :
    (done ++ [last.close ends] ++ held).map Entry.line =
      (done ++ [last] ++ held).map Entry.line := by
  simp [Entry.close]

theorem Sealed.close (h : Sealed (done ++ [last] ++ held)) :
    Sealed (done ++ [last.close ends] ++ held) := by
  intro more
  rw [described_close, lines_close]
  exact h more

/-- Parts are closed behind the line that said something last. -/
theorem Told.close (h : Told (done ++ [last] ++ held))
    (haccount : last.account = .opening ∨ last.account = .fence)
    (hends : ∀ event ∈ ends, last.line.Minor event) :
    Told (done ++ [last.close ends] ++ held) := by
  refine ⟨fun entry hentry => ?_, fun hdescribed => ?_,
    fun event hevent title description tags hkind => ?_⟩
  · simp only [List.mem_append, List.mem_singleton] at hentry
    rcases hentry with (hdone | rfl) | hheld
    · exact h.sound entry (by simp [hdone])
    · exact Records.close (h.sound last (by simp)) haccount hends
    · exact h.sound entry (by simp [hheld])
  · rw [described_close] at hdescribed
    rcases h.feature hdescribed with ⟨event, hevent, hkind⟩
    refine ⟨event, ?_, hkind⟩
    simp only [reported_append, reported_cons, reported_nil, List.append_nil,
      List.mem_append] at hevent
    rcases hevent with (hdone | hlast) | hheld
    · simp [hdone]
    · simp [Entry.close, hlast]
    · simp [hheld]
  · rw [described_close]
    simp only [reported_append, reported_cons, reported_nil, Entry.close, List.mem_append,
      List.append_nil] at hevent
    rcases hevent with (hdone | hlast | hends') | hheld
    · exact h.title event (by simp [hdone]) title description tags hkind
    · exact h.title event (by simp [hlast]) title description tags hkind
    · have hmark := (hends event hends').1
      rw [hkind] at hmark
      exact absurd hmark (by simp [EventKind.mark?])
    · exact h.title event (by simp [hheld]) title description tags hkind

end Closing

/-- What can be closed at a place is closed behind the last line that said
    something. A doc string is closed by a line of its own, and within it
    nothing is held back. -/
def Reader.Place.Closable (place : Place) (last : Entry) (held : List Entry) : Prop :=
  match place with
  | .docString _ => held = []
  | _ => last.account = .opening ∨ last.account = .fence

/-- The ledger of the lines that have been read. What has been reported,
    followed by what is held back, is the ledger. -/
inductive Kept (state : State) (emitted : List Event) : List Entry → Prop
  | preamble (entries : List Entry) (hphase : state.phase = .preamble)
      (hsound : ∀ entry ∈ entries, entry.Sound)
      (hpreface : ∀ entry ∈ entries, entry.Preliminary)
      (hemitted : emitted = []) (htrivia : state.trivia = reported entries) :
      Kept state emitted entries
  | opening (opening : Opening) (above : List Entry) (heading : Line) (lead core tail : List Entry)
      (hphase : state.phase = .opening opening) (hhead : Headed opening above heading)
      (hregion : Region opening lead core tail) (hemitted : emitted = [])
      (htrivia : state.trivia = reported above) :
      Kept state emitted
        (above ++ [⟨heading, .opening, opening.event :: opening.remarks⟩] ++
          (lead ++ core ++ tail))
  | body (done held : List Entry) (hphase : state.phase = .body) (htold : Told (done ++ held))
      (hsealed : Sealed (done ++ held)) (hemitted : emitted = reported done)
      (htrivia : state.trivia = reported held) :
      Kept state emitted (done ++ held)
  | block (kind : BlockKind) (place : Place) (done : List Entry) (last : Entry)
      (held : List Entry) (hphase : state.phase = .block kind place)
      (htold : Told (done ++ [last] ++ held)) (hsealed : Sealed (done ++ [last] ++ held))
      (hemitted : emitted = reported (done ++ [last])) (htrivia : state.trivia = reported held)
      (hstop : last.line.stop = state.lastStop)
      (hplace : place.Closable last held) :
      Kept state emitted (done ++ [last] ++ held)

section Closers

variable {state : State} {place : Place} {last : Entry} {held : List Entry}

theorem Reader.State.ne_docString (h : ¬ state.Quoting) {kind : BlockKind}
    (hphase : state.phase = .block kind place) : ∀ indent, place ≠ .docString indent := by
  rintro indent rfl
  exact h ⟨kind, indent, hphase⟩

theorem Reader.Place.Closable.account (h : place.Closable last held)
    (hplace : ∀ indent, place ≠ .docString indent) :
    last.account = .opening ∨ last.account = .fence := by
  unfold Place.Closable at h
  split at h
  · exact absurd rfl (hplace _)
  · exact h

/-- Closing what is open outside of a doc string stands for no line. -/
theorem mark_of_mem_closers (hplace : ∀ indent, place ≠ .docString indent) {kind : EventKind}
    (h : kind ∈ place.closers) : kind.mark? = none ∧ kind.isComment = false := by
  cases place with
  | between stage => simp [Place.closers] at h
  | argument owner =>
      rw [List.mem_singleton.mp h]
      cases owner <;> exact ⟨rfl, rfl⟩
  | table owner columns =>
      rcases List.mem_cons.mp h with rfl | h
      · exact ⟨rfl, rfl⟩
      · rw [List.mem_singleton.mp h]
        cases owner <;> exact ⟨rfl, rfl⟩
  | docString indent => exact absurd rfl (hplace indent)

/-- What closes a part ends where the last line that said something does. -/
theorem minor_closing (hstop : last.line.stop = state.lastStop) {kinds : List EventKind}
    (h : ∀ kind ∈ kinds, kind.mark? = none ∧ kind.isComment = false) :
    ∀ event ∈ kinds.map state.closing, last.line.Minor event := by
  intro event hevent
  rcases List.mem_map.mp hevent with ⟨kind, hkind, rfl⟩
  exact ⟨(h kind hkind).1, (h kind hkind).2, Line.holds_of_stop hstop.symm⟩

end Closers

namespace Kept

variable {state next : State} {emitted : List Event} {entries : List Entry} {entry : Entry}

/-- A line that opens nothing and is no text is held back. -/
theorem hold (h : Kept state emitted entries) (hquoting : ¬ state.Quoting)
    (hphase : ∀ opening, state.phase ≠ .opening opening) (hsound : entry.Sound)
    (hentry : entry.Preliminary) :
    Kept (state.hold entry.events) emitted (entries ++ [entry]) := by
  have hdescription := hentry.description
  have hquiet := hsound.quiet (fun _ => hentry.feature)
  cases h with
  | preamble entries hpreamble hsounds hpreface hemitted htrivia =>
      refine .preamble _ hpreamble ?_ ?_ hemitted (by simp [State.hold, htrivia])
      · intro e he
        rcases List.mem_append.mp he with he | he
        · exact hsounds e he
        · exact List.mem_singleton.mp he ▸ hsound
      · intro e he
        rcases List.mem_append.mp he with he | he
        · exact hpreface e he
        · exact List.mem_singleton.mp he ▸ hentry
  | opening opening above heading lead core tail hopened => exact absurd hopened (hphase opening)
  | body done held hbody htold hsealed hemitted htrivia =>
      have htold' := htold.add hsound hdescription hquiet
      have hsealed' := hsealed.add hdescription
      rw [List.append_assoc] at htold' hsealed' ⊢
      exact .body done (held ++ [entry]) hbody htold' hsealed' hemitted
        (by simp [State.hold, htrivia])
  | block kind place done last held hblock htold hsealed hemitted htrivia hstop hplace =>
      have htold' := htold.add hsound hdescription hquiet
      have hsealed' := hsealed.add hdescription
      have hdoc := State.ne_docString hquoting hblock
      have hplace' : place.Closable last (held ++ [entry]) := by
        unfold Place.Closable
        split
        · exact absurd rfl (hdoc _)
        · exact hplace.account hdoc
      rw [List.append_assoc] at htold' hsealed' ⊢
      exact .block kind place done last (held ++ [entry]) hblock htold' hsealed' hemitted
        (by simp [State.hold, htrivia]) hstop hplace'

/-- Trivia is held back, wherever it stands. -/
theorem keep (h : Kept state emitted entries) (hquoting : ¬ state.Quoting) (hsound : entry.Sound)
    (hidle : entry.Idle) : Kept (state.keep entry.events) emitted (entries ++ [entry]) := by
  by_cases hopened : ∃ opening, state.phase = .opening opening
  · rcases hopened with ⟨opening, hopened⟩
    cases h with
    | opening found above heading lead core tail hphase hhead hregion hemitted htrivia =>
        let later : Opening := { found with pending := found.pending ++ entry.events }
        have hkeep : state.keep entry.events = { state with phase := .opening later } := by
          simp [State.keep, hphase, later]
        rw [hkeep, List.append_assoc, List.append_assoc _ tail]
        exact .opening later above heading lead core (tail ++ [entry]) rfl (hhead.of_eq rfl rfl)
          (hregion.keep hsound hidle) hemitted htrivia
    | _ => simp_all
  · push Not at hopened
    rw [State.keep_of_ne hopened]
    exact h.hold hquoting hopened hsound (hsound.preliminary hidle)

/-- Tags are kept apart from the events. -/
theorem addTags (h : Kept state emitted entries) (offset : Nat) (names : List String) :
    Kept (state.addTags offset names) emitted entries := by
  cases h with
  | preamble entries hphase hsounds hpreface hemitted htrivia =>
      exact .preamble entries hphase hsounds hpreface hemitted htrivia
  | opening opening above heading lead core tail hphase hhead hregion hemitted htrivia =>
      exact .opening opening above heading lead core tail hphase hhead hregion hemitted htrivia
  | body done held hphase htold hsealed hemitted htrivia =>
      exact .body done held hphase htold hsealed hemitted htrivia
  | block kind place done last held hphase htold hsealed hemitted htrivia hstop hplace =>
      exact .block kind place done last held hphase htold hsealed hemitted htrivia hstop hplace

/-- Whatever is open in a block is closed behind the last line that said
    something, and the rest is still held back. -/
theorem closed (h : Kept state emitted entries) (hquoting : ¬ state.Quoting) {kind : BlockKind}
    {place : Place} (hphase : state.phase = .block kind place) {kinds : List EventKind}
    (hkinds : ∀ kind ∈ kinds, kind.mark? = none ∧ kind.isComment = false) :
    ∃ done last held, (done ++ [last] ++ held).map Entry.line = entries.map Entry.line ∧
      Told (done ++ [last] ++ held) ∧ Sealed (done ++ [last] ++ held) ∧
      emitted ++ kinds.map state.closing = reported (done ++ [last]) ∧
      state.trivia = reported held ∧ last.line.stop = state.lastStop ∧
      (last.account = .opening ∨ last.account = .fence) := by
  cases h with
  | block kind place done last held hblock htold hsealed hemitted htrivia hstop hplace =>
      have haccount := hplace.account (State.ne_docString hquoting hblock)
      have hends := minor_closing hstop hkinds
      refine ⟨done, last.close (kinds.map state.closing), held, lines_close,
        htold.close haccount hends, hsealed.close, ?_, htrivia, hstop, haccount⟩
      simp [hemitted, Entry.close]
  | _ => simp_all

/-- A step or examples end within a block. -/
theorem settle (h : Kept state emitted entries) (hquoting : ¬ state.Quoting) {kind : BlockKind}
    {place : Place} (hphase : state.phase = .block kind place) :
    ∃ entries', entries'.map Entry.line = entries.map Entry.line ∧
      Kept { state with phase := .block kind (.between place.stage) }
        (emitted ++ place.closers.map state.closing) entries' := by
  rcases h.closed hquoting hphase
    (fun kind hkind => mark_of_mem_closers (State.ne_docString hquoting hphase) hkind) with
    ⟨done, last, held, hlines, htold, hsealed, hemitted, htrivia, hstop, haccount⟩
  exact ⟨_, hlines, .block kind (.between place.stage) done last held rfl htold hsealed hemitted
    htrivia hstop haccount⟩

/-- Whatever is open ends, and with it the description. -/
theorem left (h : Kept state emitted entries) (hquoting : ¬ state.Quoting)
    (hphase : state.phase ≠ .preamble) :
    ∃ done held, (done ++ held).map Entry.line = entries.map Entry.line ∧ Told (done ++ held) ∧
      Sealable (done ++ held) ∧ emitted ++ state.left.1 = reported done ∧
      state.left.2.trivia = reported held := by
  cases hstate : state.phase with
  | preamble => exact absurd hstate hphase
  | opening opening =>
      cases h with
      | opening found above heading lead core tail hopened hhead hregion hemitted htrivia =>
          have hleft : state.left = state.announce found := by simp [State.left, hopened]
          rcases hhead.told hregion with ⟨htold, hsealable⟩
          refine ⟨_, _, rfl, htold, hsealable, ?_, ?_⟩
          · simp [hleft, State.announce, hemitted, htrivia]
          · simp [hleft, State.announce, hregion.side, hregion.pending]
      | _ => simp_all
  | body =>
      cases h with
      | body done held hbody htold hsealed hemitted htrivia =>
          have hleft : state.left = ([], state) := by simp [State.left, hbody]
          refine ⟨done, held, rfl, htold, hsealed.sealable, ?_, ?_⟩
          · simp [hleft, hemitted]
          · simp [hleft, htrivia]
      | _ => simp_all
  | block kind place =>
      have hleft : state.left = state.leave kind place := by simp [State.left, hstate]
      have hkinds : ∀ closer ∈ place.closers ++ [EventKind.blockEnd kind],
          closer.mark? = none ∧ closer.isComment = false := by
        intro closer hcloser
        rcases List.mem_append.mp hcloser with hcloser | hcloser
        · exact mark_of_mem_closers (State.ne_docString hquoting hstate) hcloser
        · rw [List.mem_singleton.mp hcloser]
          exact ⟨rfl, rfl⟩
      rcases h.closed hquoting hstate hkinds with
        ⟨done, last, held, hlines, htold, hsealed, hemitted, htrivia, -, -⟩
      refine ⟨done ++ [last], held, hlines, htold, hsealed.sealable, ?_, ?_⟩
      · rw [hleft]
        exact hemitted
      · rw [hleft]
        exact htrivia

/-- A line of a block that says something is the last one that did. What was
    held back is reported before it. -/
theorem advance (h : Kept state emitted entries) {kind kind' : BlockKind} {place place' : Place}
    (hphase : state.phase = .block kind place) (hsound : entry.Sound)
    (haccount : entry.account ≠ .description)
    (hclass : entry.account = .opening → classify entry.line.text ≠ .heading .feature)
    (hnext : next.phase = .block kind' place') (htrivia : next.trivia = [])
    (hstop : entry.line.stop = next.lastStop) (hplace : place'.Closable entry []) :
    Kept next (emitted ++ (state.trivia ++ entry.events)) (entries ++ [entry]) := by
  cases h with
  | block kind place done last held hblock htold hsealed hemitted hheld hlast hopen =>
      have hkept := Kept.block kind' place' (done ++ [last] ++ held) entry [] hnext
        (by rw [List.append_nil]; exact htold.add hsound haccount (hsound.quiet hclass))
        (by rw [List.append_nil]; exact hsealed.add haccount)
        (show emitted ++ (state.trivia ++ entry.events) = _ by simp [hemitted, hheld])
        (by rw [htrivia]; rfl) hstop hplace
      rwa [List.append_nil] at hkept
  | _ => simp_all

/-- A line within a doc string, or its closing fence. Nothing is held back
    there. -/
theorem quote (h : Kept state emitted entries) {kind kind' : BlockKind} {indent : Nat}
    {place' : Place} (hphase : state.phase = .block kind (.docString indent))
    (hsound : entry.Sound) (hdescription : entry.account ≠ .description)
    (hopening : entry.account ≠ .opening) (hnext : next.phase = .block kind' place')
    (htrivia : next.trivia = state.trivia) (hstop : entry.line.stop = next.lastStop)
    (hplace : place'.Closable entry []) :
    Kept next (emitted ++ entry.events) (entries ++ [entry]) := by
  have hnone : state.trivia = [] := by
    cases h with
    | block found place done last held hblock htold hsealed hemitted hheld hlast hopen =>
        rw [hblock] at hphase
        cases hphase
        have hnil : held = [] := hopen
        rw [hheld, hnil, reported_nil]
    | _ => simp_all
  have hkept := h.advance hphase hsound hdescription (fun haccount => absurd haccount hopening)
    hnext (htrivia.trans hnone) hstop hplace
  rwa [hnone, List.nil_append] at hkept

variable {line : Line}

/-- A line of tags ends the description, or a step or examples. -/
theorem tags (h : Kept state emitted entries) (hquoting : ¬ state.Quoting) {names : List String}
    {remark : Option Remark} (hclass : classify line.text = .tags)
    (hscan : scanTags line.text = .ok (names, remark)) :
    ∃ entries', entries'.map Entry.line = entries.map Entry.line ++ [line] ∧
      Kept ((state.settled.2.addTags line.contentStart names).hold (line.sideEvents remark))
        (emitted ++ state.settled.1) entries' := by
  let entry : Entry := ⟨line, .tags, line.sideEvents remark⟩
  have hsound : entry.Sound := .tags names remark hclass hscan
  have hentry : entry.Preliminary := ⟨by simp [entry], by simp [entry], by simp [entry, hclass]⟩
  -- Where no description is open, what is settled first leaves the ledger as it is.
  have hhold : ∀ {s : State} {reports : List Event} {es : List Entry},
      es.map Entry.line = entries.map Entry.line → Kept s reports es → ¬ s.Quoting →
      (∀ opening, s.phase ≠ .opening opening) →
      ∃ entries', entries'.map Entry.line = entries.map Entry.line ++ [line] ∧
        Kept ((s.addTags line.contentStart names).hold entry.events) reports entries' := by
    intro s reports es hlines hkept hquiet hphase
    refine ⟨es ++ [entry], by simp [hlines, entry], ?_⟩
    exact (hkept.addTags line.contentStart names).hold hquiet hphase hsound hentry
  cases hphase : state.phase with
  | preamble =>
      have hsettled : state.settled = ([], state) := by simp [State.settled, hphase]
      rw [hsettled, List.append_nil]
      exact hhold rfl h hquoting (by simp [hphase])
  | body =>
      have hsettled : state.settled = ([], state) := by simp [State.settled, hphase]
      rw [hsettled, List.append_nil]
      exact hhold rfl h hquoting (by simp [hphase])
  | block kind place =>
      have hsettled : state.settled = (place.closers.map state.closing,
          { state with phase := .block kind (.between place.stage) }) := by
        simp [State.settled, hphase]
      rcases h.settle hquoting hphase with ⟨es, hlines, hkept⟩
      rw [hsettled]
      exact hhold hlines hkept (by simp [State.Quoting]) (by simp)
  | opening opening =>
      rcases h.left hquoting (by simp [hphase]) with
        ⟨done, held, hlines, htold, hsealable, hemitted, htrivia⟩
      have hsettled : state.settled = state.left := by simp [State.settled, State.left, hphase]
      have hbody : state.left.2.phase = .body := by simp [State.left, hphase, State.announce]
      have htold' := htold.add hsound hentry.description (hsound.quiet (fun _ => hentry.feature))
      have hsealed : Sealed (done ++ held ++ [entry]) := hsealable.add hentry.description
        (by simp [entry, Line.endsDescription, hclass])
      rw [List.append_assoc] at htold' hsealed
      refine ⟨done ++ (held ++ [entry]), by simp [← hlines, entry], ?_⟩
      rw [hsettled]
      exact .body done (held ++ [entry]) hbody htold' hsealed hemitted
        (by simp [State.hold, State.addTags, htrivia, entry])

/-- The heading of the feature. -/
theorem feature (h : Kept state emitted entries) (hphase : state.phase = .preamble)
    {opening : Opening} {remark : Option Remark} {item : Item}
    (hclass : classify line.text = .heading .feature)
    (hitem : Item.structural? line.text = some item)
    (hremark : item.remark? = remark.map Remark.comment)
    (hremarks : opening.remarks = line.inlineEvents remark) (hstop : opening.span.stop = line.stop)
    (hdescription : opening.description = []) (hside : opening.side = [])
    (hpending : opening.pending = []) (hnext : next.phase = .opening opening)
    (htrivia : next.trivia = state.trivia) :
    ∃ entries', entries'.map Entry.line = entries.map Entry.line ++ [line] ∧
      Kept next emitted entries' := by
  cases h with
  | preamble entries hpreamble hsound hpreface hemitted hheld =>
      have hhead : Headed opening entries line := ⟨hsound, hpreface, hclass,
        ⟨remark, hremarks, by rw [hitem]; exact hremark⟩, hstop⟩
      exact ⟨_, by simp, .opening opening entries line [] [] [] hnext hhead
        (region_nil hdescription hside hpending) hemitted (by rw [htrivia, hheld])⟩
  | _ => simp_all

/-- A line of the description. -/
theorem prose (h : Kept state emitted entries) {opening : Opening}
    (hphase : state.phase = .opening opening) {text rest : List Char} {remark : Option Remark}
    (hclass : classify line.text ≠ .blank ∧ classify line.text ≠ .comment ∧
      classify line.text ≠ .tags ∧ ∀ kind, classify line.text ≠ .heading (.block kind))
    (htext : scanText false line.content = .ok (text, rest)) (hend : scanEnd rest = .ok remark)
    (hnext : next.phase = .opening { opening.settle with
      description := opening.settle.description ++ [String.ofList text]
      side := opening.settle.side ++ line.sideEvents remark })
    (htrivia : next.trivia = state.trivia) :
    ∃ entries', entries'.map Entry.line = entries.map Entry.line ++ [line] ∧
      Kept next emitted entries' := by
  cases h with
  | opening found above heading lead core tail hopened hhead hregion hemitted hheld =>
      rw [hopened] at hphase
      cases hphase
      rcases hregion.prose hclass htext hend with ⟨lead', core', hlines, hregion'⟩
      have hsettle : opening.settle.remarks = opening.remarks ∧
          opening.settle.span = opening.span := by
        unfold Opening.settle
        split <;> exact ⟨rfl, rfl⟩
      refine ⟨_, ?_, .opening _ above heading lead' core' [] hnext
        (hhead.of_eq hsettle.1 hsettle.2) hregion' hemitted (by rw [htrivia, hheld])⟩
      rw [List.append_nil, List.map_append, hlines]
      simp
  | _ => simp_all

/-- The heading of a block, behind whatever it ends. -/
theorem openBlock (h : Kept state emitted entries) (hquoting : ¬ state.Quoting)
    (hphase : state.phase ≠ .preamble) {kind : BlockKind} (hsound : entry.Sound)
    (haccount : entry.account = .opening)
    (hclass : classify entry.line.text = .heading (.block kind))
    (hnext : next.phase = .block kind (.between .steps)) (htrivia : next.trivia = [])
    (hstop : entry.line.stop = next.lastStop) :
    ∃ entries', entries'.map Entry.line = entries.map Entry.line ++ [entry.line] ∧
      Kept next (emitted ++ (state.left.1 ++ (state.left.2.trivia ++ entry.events))) entries' := by
  rcases h.left hquoting hphase with ⟨done, held, hlines, htold, hsealable, hemitted, hheld⟩
  have hother : entry.account ≠ .description := by simp [haccount]
  have htold' := htold.add hsound hother (hsound.quiet (fun _ => by simp [hclass]))
  have hsealed := hsealable.add hother (by simp [Line.endsDescription, hclass])
  refine ⟨done ++ held ++ [entry] ++ [], by simp [← hlines], ?_⟩
  refine .block kind (.between .steps) (done ++ held) entry [] hnext (by simpa using htold')
    (by simpa using hsealed) ?_ (by rw [htrivia]; rfl) hstop (Or.inl haccount)
  rw [← List.append_assoc, hemitted, hheld]
  simp

/-- A line of a block that opens a part behind whatever it ends. -/
theorem openPart (h : Kept state emitted entries) (hquoting : ¬ state.Quoting)
    {kind kind' : BlockKind} {place place' : Place} (hphase : state.phase = .block kind place)
    (hsound : entry.Sound) (haccount : entry.account = .opening)
    (hclass : classify entry.line.text ≠ .heading .feature)
    (hnext : next.phase = .block kind' place') (htrivia : next.trivia = [])
    (hstop : entry.line.stop = next.lastStop) (hplace : place'.Closable entry []) :
    ∃ entries', entries'.map Entry.line = entries.map Entry.line ++ [entry.line] ∧
      Kept next (emitted ++ (place.closers.map state.closing ++ (state.trivia ++ entry.events)))
        entries' := by
  rcases h.settle hquoting hphase with ⟨es, hlines, hkept⟩
  refine ⟨es ++ [entry], by simp [hlines], ?_⟩
  rw [← List.append_assoc]
  exact hkept.advance rfl hsound (by simp [haccount]) (fun _ => hclass) hnext htrivia hstop hplace

/-- Every line that is taken is entered in the ledger. -/
theorem step {events : List Event} (h : Kept state emitted entries)
    (hreads : state.Reads line events next) :
    ∃ entries', entries'.map Entry.line = entries.map Entry.line ++ [line] ∧
      Kept next (emitted ++ events) entries' := by
  cases hreads with
  | blank hquoting hclass =>
      have hsound : Entry.Sound ⟨line, .blank, [line.blankEvent]⟩ := .blank hclass
      rw [List.append_nil]
      exact ⟨_, List.map_append, h.keep hquoting hsound (Or.inl rfl)⟩
  | comment remark hquoting hclass hend =>
      have hsound : Entry.Sound ⟨line, .comment, [line.commentEvent false remark]⟩ :=
        .comment remark hclass hend
      rw [List.append_nil]
      exact ⟨_, List.map_append, h.keep hquoting hsound (Or.inr rfl)⟩
  | tags names remark hquoting hclass hscan => exact h.tags hquoting hclass hscan
  | feature title rest remark hphase hclass hne htext hend =>
      have hitem : Item.structural? line.text =
          some (.feature (String.ofList title) (remark.map Remark.comment)) :=
        Item.structural?_eq_some_iff.mpr
          ⟨hclass, title, hne, rfl, phrase?_of_scan htext hend⟩
      rw [List.append_nil]
      exact h.feature hphase hclass hitem rfl rfl rfl rfl rfl rfl rfl rfl
  | prose opening text rest remark hphase hclass htext hend =>
      rw [List.append_nil]
      exact h.prose hphase hclass htext hend rfl rfl
  | block kind title rest remark hquoting hphase hadmits hclass htext hend =>
      have hitem : Item.structural? line.text =
          some (.block kind (String.ofList title) (remark.map Remark.comment)) :=
        Item.structural?_eq_some_iff.mpr ⟨hclass, title, rfl, phrase?_of_scan htext hend⟩
      have hsound : Entry.Sound ⟨line, .opening, _⟩ := Records.opener
        (.block kind (String.ofList title) state.tagNames) (state.startOf line.contentStart) rfl
        (by simp [hclass]) (by simp) hitem rfl
      have hbody : state.phase ≠ .preamble := by
        intro hpreamble
        simp [State.left, hpreamble] at hphase
      exact h.openBlock hquoting hbody hsound rfl hclass rfl rfl rfl
  | step kind place keyword text rest remark hquoting hphase hstage hclass hne htext hend =>
      have hitem : Item.structural? line.text =
          some (.step keyword (String.ofList text) (remark.map Remark.comment)) :=
        Item.structural?_eq_some_iff.mpr ⟨hclass, text, hne, rfl, phrase?_of_scan htext hend⟩
      have hsound : Entry.Sound ⟨line, .opening, _⟩ := Records.opener
        (.step keyword (String.ofList text) state.tagNames) (state.startOf line.contentStart) rfl
        (by simp [hclass]) (by simp) hitem rfl
      exact h.openPart hquoting hphase hsound rfl (by simp [hclass]) rfl rfl rfl (Or.inl rfl)
  | examples place remark hquoting hphase hstage htags hclass hend =>
      have hitem : Item.structural? line.text = some (.examples (remark.map Remark.comment)) :=
        Item.structural?_eq_some_iff.mpr ⟨hclass, ending?_of_scan hend⟩
      have hsound : Entry.Sound ⟨line, .opening, _⟩ := Records.opener .examples line.contentStart
        rfl (by simp [hclass]) (by simp) hitem rfl
      exact h.openPart hquoting hphase hsound rfl (by simp [hclass]) rfl rfl rfl (Or.inl rfl)
  | row kind owner place cells remark hphase hplace hclass hscan =>
      have hsound : Entry.Sound ⟨line, .opening, _⟩ := Records.row
        (if place = .argument owner then [⟨.table, ⟨line.contentStart, line.stop⟩⟩] else [])
        line.contentStart hclass hscan (by split <;> simp)
      exact ⟨_, List.map_append, h.advance hphase hsound (by simp) (by simp [hclass]) rfl rfl rfl
        (Or.inl rfl)⟩
  | openFence kind hphase hclass hend =>
      have hscan : scanEnd (line.content.drop fence.length) = .ok none := by rw [scanEnd, hend]
      have hitem : Item.structural? line.text = some (.fence (Text.indentation line.text) none) :=
        Item.structural?_eq_some_iff.mpr ⟨hclass, rfl, ending?_of_scan hscan⟩
      have hremark : (Item.fence (Text.indentation line.text) none).remark? =
          (none : Option Remark).map Remark.comment := rfl
      have hsound : Entry.Sound ⟨line, .opening, _⟩ := Records.opener
        (.docString (Text.indentation line.text)) line.contentStart rfl (by simp [hclass])
        (by simp) hitem hremark
      exact ⟨_, List.map_append, h.advance hphase hsound (by simp) (by simp [hclass]) rfl rfl rfl
        rfl⟩
  | closeFence kind indent remark hphase hclass hend =>
      have hitem : Item.structural? line.text =
          some (.fence (Text.indentation line.text) (remark.map Remark.comment)) :=
        Item.structural?_eq_some_iff.mpr ⟨hclass, rfl, ending?_of_scan hend⟩
      have hminor : ∀ event ∈ [(⟨.stepEnd, Span.point line.stop⟩ : Event)], line.Minor event := by
        intro event hevent
        rw [List.mem_singleton.mp hevent]
        exact ⟨rfl, rfl, Line.holds_of_stop rfl⟩
      have hsound : Entry.Sound ⟨line, .fence, _⟩ :=
        Records.fence _ remark hclass (by rw [hitem]; rfl) hminor
      exact ⟨_, List.map_append, h.quote hphase hsound (by simp) (by simp) rfl rfl rfl
        (Or.inr rfl)⟩
  | docLine kind indent hphase hclass =>
      have hsound : Entry.Sound ⟨line, .docLine, _⟩ :=
        Records.docLine (String.ofList (Text.stripIndent indent line.text))
          ⟨line.offsetOf (Text.stripIndent indent line.text), line.stop⟩ rfl
      exact ⟨_, List.map_append, h.quote hphase hsound (by simp) (by simp) hphase rfl rfl rfl⟩

end Kept

/-- The ledger of a document: its events are those of the ledger, but for the
    end of the feature, and its description is that of the ledger. -/
structure Filed (lines : List Line) (events : List Event) (entries : List Entry) : Prop where
  complete : entries.map Entry.line = lines
  told : Told entries
  description : descriptionLines lines = described entries
  report : ∃ ends : List Event, events = reported entries ++ ends ∧
    ∀ event ∈ ends, event.kind = .featureEnd

/-- The end of the document closes the ledger. -/
theorem Kept.finish {state : State} {emitted events : List Event} {entries : List Entry}
    {stop : Nat} (h : Kept state emitted entries) (hfinish : state.finish stop = .ok events) :
    ∃ entries', Filed (entries.map Entry.line) (emitted ++ events) entries' := by
  rcases State.finish_eq_ok hfinish with ⟨hquoting, -, rfl⟩
  by_cases hphase : state.phase = .preamble
  · cases h with
    | preamble entries hpreamble hsound hpreface hemitted htrivia =>
        have hdescribed := described_eq_nil (fun entry he => (hpreface entry he).description)
        have htitle : ∀ event ∈ reported entries, ∀ title description tags,
            event.kind ≠ .feature title description tags := by
          intro event hevent title description tags hkind
          rcases List.mem_flatMap.mp hevent with ⟨entry, hentry, hmem⟩
          exact (hpreface entry hentry).opening
            (Records.opening_of_feature (hsound entry hentry) hmem hkind).1
        have hlines : ∀ line ∈ entries.map Entry.line, classify line.text ≠ .heading .feature := by
          intro line hline
          rcases List.mem_map.mp hline with ⟨entry, hentry, rfl⟩
          exact (hpreface entry hentry).feature
        refine ⟨entries, rfl, ⟨hsound, fun hne => absurd hdescribed hne,
          fun event hevent title description tags hkind =>
            absurd hkind (htitle event hevent title description tags)⟩, ?_, [], ?_, by simp⟩
        · have hnone := descriptionLines_above hlines []
          rw [List.append_nil] at hnone
          rw [hnone, hdescribed]
          rfl
        · simp [State.left, hphase, hemitted, htrivia]
    | _ => simp_all
  · rcases h.left hquoting hphase with ⟨done, held, hlines, htold, hsealable, hemitted, htrivia⟩
    refine ⟨done ++ held, hlines, htold, ?_, [⟨.featureEnd, Span.point state.lastStop⟩], ?_,
      by simp⟩
    · have hnone := hsealable [] (by simp)
      rwa [List.append_nil, hlines] at hnone
    · rw [if_neg hphase, htrivia, reported_append, ← hemitted]
      simp

/-- All lines of a document are entered in its ledger. -/
theorem run_filed {stop : Nat} {state : State} {lines : List Line} {emitted events : List Event}
    {entries : List Entry} (h : Kept state emitted entries)
    (hrun : run stop state lines = .ok events) :
    ∃ entries', Filed (entries.map Entry.line ++ lines) (emitted ++ events) entries' := by
  induction lines generalizing state emitted events entries with
  | nil =>
      rw [List.append_nil]
      exact h.finish hrun
  | cons line rest ih =>
      rcases bind_eq_ok hrun with ⟨⟨first, next⟩, hstep, hrun⟩
      rcases bind_eq_ok hrun with ⟨more, hrest, hrun⟩
      cases hrun
      rcases h.step (State.reads_of_step hstep) with ⟨entries', hlines, hkept⟩
      have hfiled := ih hkept hrest
      rwa [hlines, List.append_assoc, List.append_assoc] at hfiled

end Gherkin
