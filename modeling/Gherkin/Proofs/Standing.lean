import Gherkin.Proofs.Agreement
import Gherkin.Proofs.FailFast
import Gherkin.Proofs.Ledger.Kept
import Gherkin.Proofs.Reader.Blanks

/-!
# Where a Line Stands

What can be said about a place in a document without following the reader
there. Whether a place is inside a doc string can be told from the events, and
whether it is inside the description from the lines. This module shows that the
reader, when it gets there, is in a state that fits.

## Main definitions

* `isBodyLine`, `opensDocString`: The lines of a doc string, by their events.
* `WithinDescription`: The places between two lines of the description.

## Theorems

* `Reader.Leads.run_eq_ok`, `Reader.Leads.gist_run`: A document, read on from
  where its first lines lead.
* `Reader.Leads.fence_of_quoting`, `Reader.Leads.opens_of_fence`,
  `Reader.Leads.not_quoting`: Lines of doc strings, and places outside of them.
* `Reader.Leads.description_goes_on`: A description with a line above and one
  below.
* `Reader.Leads.quiet`, `Reader.Leads.quiet_below`: Places where no description
  goes on.
* `readFeature_of_rest`: Documents that differ below their first lines.
-/

namespace Gherkin

open Reader
open Source (Line)

/-- Whether an event of some kind ends where the line does. -/
def bears (source : String) (ofKind : EventKind → Bool) (line : Line) : Bool :=
  (readEvents source).toOption.any fun events =>
    events.any fun event => ofKind event.kind && event.span.stop == line.stop

/-- Whether a line is one of the body of a doc string. -/
def isBodyLine (source : String) (line : Line) : Bool :=
  bears source (fun kind => match kind with | .docLine _ => true | _ => false) line

/-- Whether a line is the fence that opens a doc string. -/
def opensDocString (source : String) (line : Line) : Bool :=
  bears source (fun kind => match kind with | .docString _ => true | _ => false) line

/-- A place in a document with lines of the description on both sides. -/
def WithinDescription (above below : List Line) : Prop :=
  (∃ line ∈ above, line ∈ descriptionLines (above ++ below)) ∧
    ∃ line ∈ below, line ∈ descriptionLines (above ++ below)

instance (above below : List Line) : Decidable (WithinDescription above below) :=
  inferInstanceAs (Decidable (_ ∧ _))

namespace Reader

variable {state mid : State} {above below : List Line} {line : Line} {stop : Nat}
  {events : List Event}

/-- The first lines of a document that is accepted lead somewhere. -/
theorem exists_leads (h : run stop state (above ++ below) = .ok events) :
    ∃ mid, Leads state above mid := by
  induction above generalizing state events with
  | nil => exact ⟨state, .refl state⟩
  | cons line rest ih =>
      rcases bind_eq_ok h with ⟨⟨first, next⟩, hstep, hrun⟩
      rcases bind_eq_ok hrun with ⟨more, hmore, -⟩
      rcases ih hmore with ⟨mid, hmid⟩
      exact ⟨mid, .step hstep hmid⟩

/-- The document is read on from where its first lines lead. -/
theorem Leads.run_eq_ok (h : Leads state above mid)
    (hrun : run stop state (above ++ below) = .ok events) :
    ∃ rest, run stop mid below = .ok rest ∧ ∀ event ∈ rest, event ∈ events := by
  induction h generalizing events with
  | refl state => exact ⟨events, hrun, fun _ he => he⟩
  | step hstep hrest ih =>
      rcases bind_eq_ok hrun with ⟨⟨first, next⟩, hfirst, hrun⟩
      rcases bind_eq_ok hrun with ⟨more, hmore, hevents⟩
      rw [hstep] at hfirst
      cases hfirst
      cases hevents
      rcases ih hmore with ⟨rest, hrest, hsub⟩
      exact ⟨rest, hrest, fun event he => List.mem_append_right _ (hsub event he)⟩

/-- The last of the lines is read where those before it lead. -/
theorem Leads.last_step {next : State} (h : Leads state (above ++ [line]) next) :
    ∃ mid reported, Leads state above mid ∧ mid.step line = .ok (reported, next) := by
  induction above generalizing state with
  | nil =>
      cases h with
      | step hstep hrest =>
          cases hrest
          exact ⟨state, _, .refl state, hstep⟩
  | cons first rest ih =>
      cases h with
      | step hstep hrest =>
          rcases ih hrest with ⟨mid, reported, hmid, hlast⟩
          exact ⟨mid, reported, .step hstep hmid, hlast⟩

/-- The gist of a document is that of its first lines and of the rest. -/
theorem Leads.gist_run (h : Leads state above mid) :
    ∃ kinds, ∀ texts, state.gist.run (above.map Line.text ++ texts) =
      (mid.gist.run texts).map (kinds ++ ·) := by
  induction h with
  | refl state => exact ⟨[], fun texts => by simp⟩
  | @step state next last line rest events hstep hrest ih =>
      rcases ih with ⟨kinds, hkinds⟩
      have hgist := State.step_gist state line
      rw [hstep] at hgist
      refine ⟨events.map Event.kind ++ kinds, fun texts => ?_⟩
      rw [List.map_cons, List.cons_append, Gist.run, ← hgist]
      simp only [Outcome.gist, Except.toOption, Option.map_some, Option.bind_some, hkinds,
        Option.map_map]
      congr 1
      funext more
      simp

/-- The ledger of the first lines. -/
theorem Leads.kept (h : Leads state above mid) {emitted : List Event} {entries : List Entry}
    (hkept : Kept state emitted entries) :
    ∃ emitted' entries', entries'.map Entry.line = entries.map Entry.line ++ above ∧
      Kept mid emitted' entries' := by
  induction h generalizing emitted entries with
  | refl state => exact ⟨emitted, entries, (List.append_nil _).symm, hkept⟩
  | step hstep hrest ih =>
      rcases hkept.step (State.reads_of_step hstep) with ⟨entries', hlines, hkept'⟩
      rcases ih hkept' with ⟨emitted'', entries'', hlines', hkept''⟩
      exact ⟨emitted'', entries'', by rw [hlines', hlines]; simp, hkept''⟩

theorem Phase.block_of_gist {phase : Phase} {kind : BlockKind} {place : Place}
    (h : phase.gist = .block kind place) : phase = .block kind place := by
  cases phase with
  | block kind place =>
      cases h
      rfl
  | _ => exact absurd h (by simp [Phase.gist])

theorem Phase.opening_of_gist {phase : Phase} {heading : Gist.Opening}
    (h : phase.gist = .opening heading) :
    ∃ opening, phase = .opening opening ∧ opening.gist = heading := by
  cases phase with
  | opening opening =>
      cases h
      exact ⟨opening, rfl, rfl⟩
  | _ => exact absurd h (by simp [Phase.gist])

/-- A line is text of a doc string only in one. -/
theorem State.quoting_of_mode {indent : Nat} (h : mid.gist.mode = .verbatim indent) :
    mid.Quoting := by
  unfold Gist.mode at h
  split at h
  · exact absurd h (by simp)
  · rename_i hp
    exact ⟨_, _, Phase.block_of_gist hp⟩
  · exact absurd h (by simp)

/-- A blank line more or less, where the description does not go on. -/
theorem State.agree_hold_blank {quiet : Prop}
    (hquiet : ∀ opening, mid.phase = .opening opening → opening.description = [] ∨ quiet) :
    Gist.Agree quiet mid.gist (mid.gist.hold [.blankLine]) ∧
      Gist.Agree quiet (mid.gist.hold [.blankLine]) mid.gist := by
  refine Gist.agree_hold_blank (fun heading hp => ?_)
  rcases Phase.opening_of_gist hp with ⟨opening, hphase, rfl⟩
  exact hquiet opening hphase

end Reader

section DocStrings

variable {source : String} {mid : State} {above below : List Line} {line : Line}
  {events : List Event}

/-- The events of a line are among those of the document. -/
theorem Reader.Leads.step_events (h : Leads {} above mid) (hread : readEvents source = .ok events)
    (hlines : Source.lines source = above ++ line :: below) :
    ∃ reported next, mid.step line = .ok (reported, next) ∧ ∀ event ∈ reported, event ∈ events := by
  have hrun := readEvents_eq_ok hread
  rw [hlines] at hrun
  rcases h.run_eq_ok hrun with ⟨rest, hrest, hsub⟩
  rcases bind_eq_ok hrest with ⟨⟨reported, next⟩, hstep, hmore⟩
  rcases bind_eq_ok hmore with ⟨more, -, hevents⟩
  cases hevents
  exact ⟨reported, next, hstep, fun event he => hsub event (List.mem_append_left _ he)⟩

theorem bears_of_mem {ofKind : EventKind → Bool} {event : Event}
    (hread : readEvents source = .ok events) (hevent : event ∈ events)
    (hkind : ofKind event.kind = true) (hstop : event.span.stop = line.stop) :
    bears source ofKind line = true := by
  simp only [bears, hread, Except.toOption, Option.any_some, List.any_eq_true, Bool.and_eq_true,
    beq_iff_eq]
  exact ⟨event, hevent, hkind, hstop⟩

/-- A doc string goes on behind its opening fence and behind the lines of its
    body. -/
theorem Reader.State.Reads.of_quoting {state next : State} {reported : List Event}
    (h : state.Reads line reported next) (hnext : next.Quoting) :
    ∃ event ∈ reported, event.span.stop = line.stop ∧
      ((∃ words, event.kind = .docLine words) ∨ ∃ indent, event.kind = .docString indent) := by
  -- Trivia keeps the phase, and a doc string is not where it was read.
  have hkeep : ∀ kept, ¬ state.Quoting → ¬ (state.keep kept).Quoting := by
    intro kept hquoting
    unfold State.keep
    split
    · simp [State.Quoting]
    · exact hquoting
  rcases hnext with ⟨kind, indent, hphase⟩
  cases h with
  | blank hquoting hclass => exact absurd ⟨kind, indent, hphase⟩ (hkeep _ hquoting)
  | comment remark hquoting hclass hend => exact absurd ⟨kind, indent, hphase⟩ (hkeep _ hquoting)
  | tags names remark hquoting hclass hscan =>
      have hsettled : state.settled.2.phase = .block kind (.docString indent) := hphase
      unfold State.settled at hsettled
      split at hsettled
      · exact absurd hsettled (by simp [State.announce])
      · exact absurd hsettled (by simp)
      · exact absurd ⟨kind, indent, hsettled⟩ hquoting
  | openFence kind hphase hclass hend =>
      exact ⟨_, List.mem_append_right _ (List.mem_singleton_self _), rfl, Or.inr ⟨_, rfl⟩⟩
  | docLine kind indent hphase hclass =>
      exact ⟨_, List.mem_singleton_self _, rfl, Or.inl ⟨_, rfl⟩⟩
  | _ => exact absurd hphase (by simp [State.opened])

/-- In a doc string, a line that is not of its body is a fence. -/
theorem Reader.Leads.fence_of_quoting (h : Leads {} above mid)
    (hread : readEvents source = .ok events) (hlines : Source.lines source = above ++ line :: below)
    (hbody : isBodyLine source line = false) (hquoting : mid.Quoting) :
    classify line.text = .fence := by
  rcases h.step_events hread hlines with ⟨reported, next, hstep, hsub⟩
  rcases hquoting with ⟨kind, indent, hphase⟩
  cases State.reads_of_step hstep with
  | closeFence kind indent remark hphase hclass hend => exact hclass
  | docLine kind indent hphase hclass =>
      have hbears : isBodyLine source line = true :=
        bears_of_mem hread (hsub _ (List.mem_singleton_self _)) rfl rfl
      exact absurd (hbody.symm.trans hbears) (by decide)
  | _ => simp_all [State.Quoting]

/-- Behind a step, a fence opens a doc string. -/
theorem Reader.Leads.opens_of_fence (h : Leads {} above mid)
    (hread : readEvents source = .ok events) (hlines : Source.lines source = above ++ line :: below)
    {kind : BlockKind} (hphase : mid.phase = .block kind (.argument .step))
    (hclass : classify line.text = .fence) : opensDocString source line = true := by
  rcases h.step_events hread hlines with ⟨reported, next, hstep, hsub⟩
  cases State.reads_of_step hstep with
  | openFence kind hphase hclass hend =>
      exact bears_of_mem hread
        (hsub _ (List.mem_append_right _ (List.mem_singleton_self _))) rfl rfl
  | _ => simp_all

/-- Behind a line that neither opens a doc string nor is of its body, there is
    none. -/
theorem Reader.Leads.not_quoting (h : Leads {} above mid) (hread : readEvents source = .ok events)
    (hlines : Source.lines source = above ++ below)
    (hlast : ∀ line ∈ above.getLast?, isBodyLine source line = false ∧
      opensDocString source line = false) : ¬ mid.Quoting := by
  intro hquoting
  rcases List.eq_nil_or_concat above with rfl | ⟨front, line, rfl⟩
  · cases h
    simp [State.Quoting] at hquoting
  · rw [List.concat_eq_append] at h hlines hlast
    rw [List.append_assoc, List.singleton_append] at hlines
    rcases h.last_step with ⟨before, reported, hbefore, hstep⟩
    rcases hbefore.step_events hread hlines with ⟨same, next, hsame, hsub⟩
    rw [hstep] at hsame
    cases hsame
    have hnot := hlast line (by simp)
    rcases (State.reads_of_step hstep).of_quoting hquoting with
      ⟨event, hevent, hstop, ⟨words, hkind⟩ | ⟨indent, hkind⟩⟩
    · have hbears : isBodyLine source line = true :=
        bears_of_mem hread (hsub event hevent) (by rw [hkind]) hstop
      exact absurd (hnot.1.symm.trans hbears) (by decide)
    · have hbears : opensDocString source line = true :=
        bears_of_mem hread (hsub event hevent) (by rw [hkind]) hstop
      exact absurd (hnot.2.symm.trans hbears) (by decide)

end DocStrings

section Description

variable {mid : State} {above below : List Line} {line : Line} {opening : Opening}

/-- Lines that add to a description have one in front that does. -/
theorem exists_of_not_quiet {lines : List Line} (h : ¬ Quiet (lines.map Line.text)) :
    ∃ idle line rest, lines = idle ++ line :: rest ∧
      (∀ other ∈ idle, other.isIdle = true ∧ other.endsDescription = false) ∧
      line.isIdle = false ∧ line.endsDescription = false := by
  induction lines with
  | nil => exact absurd trivial h
  | cons line rest ih =>
      -- Behind a blank line or a comment, it is one of the others.
      have hcons (hline : line.isIdle = true ∧ line.endsDescription = false)
          (hrest : ¬ Quiet (rest.map Line.text)) :
          ∃ idle first more, line :: rest = idle ++ first :: more ∧
            (∀ other ∈ idle, other.isIdle = true ∧ other.endsDescription = false) ∧
            first.isIdle = false ∧ first.endsDescription = false := by
        rcases ih hrest with ⟨idle, first, more, rfl, hidle, hfirst⟩
        exact ⟨line :: idle, first, more, rfl, List.forall_mem_cons.mpr ⟨hline, hidle⟩, hfirst⟩
      simp only [List.map_cons, Quiet] at h
      split at h
      · exact absurd trivial h
      · exact absurd trivial h
      · exact hcons (by simp [Line.isIdle, Line.endsDescription, *]) h
      · exact hcons (by simp [Line.isIdle, Line.endsDescription, *]) h
      · rename_i htags hblock hblank hcomment
        refine ⟨[], line, rest, rfl, by simp, ?_, ?_⟩
        · simp [Line.isIdle, show classify line.text ≠ .blank from hblank,
            show classify line.text ≠ .comment from hcomment]
        · unfold Line.endsDescription
          split
          · exact absurd (by assumption) htags
          · exact absurd (by assumption) (hblock _)
          · rfl

/-- The description lies between the heading and the first line below that ends
    it. -/
theorem Headed.descriptionLines_below {preface : List Entry} {heading : Line}
    (h : Headed opening preface heading) {region : List Line}
    (hregion : ∀ line ∈ region, line.endsDescription = false) (below : List Line) :
    descriptionLines (preface.map Entry.line ++ heading :: (region ++ below)) =
      (Text.trim Line.isIdle (region ++ below.takeWhile (fun line => !line.endsDescription))).filter
        (fun line => classify line.text != .comment) := by
  rw [descriptionLines_above h.ne_feature, descriptionLines,
    List.dropWhile_cons_of_neg (by simp [h.feature]), List.tail_cons,
    List.takeWhile_append_of_pos (fun line hline => by simp [hregion line hline])]

/-- The description when it goes on below: a line of it is above, the next one
    below, and what is between them belongs to it but for comments. -/
theorem Reader.Leads.description_goes_on (h : Leads {} above mid)
    (hphase : mid.phase = .opening opening) (hdescription : opening.description ≠ [])
    (hloud : ¬ Quiet (below.map Line.text)) :
    ∃ before text after idle next rest, text ∈ above ∧ idle ++ [next] <+: below ∧
      text.isIdle = false ∧ next.isIdle = false ∧
      descriptionLines (above ++ below) =
        (Text.trim Line.isIdle (before ++ text :: (after ++ idle ++ next :: rest))).filter
          (fun line => classify line.text != .comment) := by
  rcases h.kept (.preamble [] rfl (by simp) (by simp) rfl rfl) with
    ⟨emitted, entries, hlines, hkept⟩
  cases hkept with
  | preamble entries hpreamble => exact absurd (hpreamble.symm.trans hphase) (by simp)
  | body done held hbody => exact absurd (hbody.symm.trans hphase) (by simp)
  | block kind place done last held hblock => exact absurd (hblock.symm.trans hphase) (by simp)
  | opening o preface heading lead core tail ho hhead hregion hemitted htrivia =>
      cases ho.symm.trans hphase
      -- The first line of the description so far.
      have hcore : core ≠ [] := by
        rintro rfl
        exact hdescription (by rw [hregion.description]; rfl)
      rcases List.exists_cons_of_ne_nil hcore with ⟨first, others, rfl⟩
      rcases exists_of_not_quiet hloud with ⟨idle, next, more, rfl, hidle, hnext⟩
      have habove : above = preface.map Entry.line ++
          heading :: (lead ++ first :: others ++ tail).map Entry.line := by
        simpa using hlines.symm
      refine ⟨lead.map Entry.line, first.line, (others ++ tail).map Entry.line, idle, next,
        more.takeWhile (fun line => !line.endsDescription), ?_, ⟨more, by simp⟩,
        (hregion.first first rfl).2, hnext.1, ?_⟩
      · rw [habove]
        simp
      · have hends : ∀ line ∈ (lead ++ first :: others ++ tail).map Entry.line,
            line.endsDescription = false := by
          intro line hline
          rcases List.mem_map.mp hline with ⟨entry, hentry, rfl⟩
          exact hregion.endsDescription entry hentry
        have hbelow : (idle ++ next :: more).takeWhile (fun line => !line.endsDescription) =
            idle ++ next :: more.takeWhile (fun line => !line.endsDescription) := by
          rw [List.takeWhile_append_of_pos (fun line hline => by simp [(hidle line hline).2]),
            List.takeWhile_cons_of_pos (by simp [hnext.2])]
        rw [habove, List.append_assoc, List.cons_append, hhead.descriptionLines_below hends, hbelow]
        simp

/-- Where no line of the description is below, or none above, the description
    does not go on. -/
theorem Reader.Leads.quiet (h : Leads {} above mid) (hphase : mid.phase = .opening opening)
    (hwithin : ¬ WithinDescription above below) :
    opening.description = [] ∨ Quiet (below.map Line.text) := by
  by_contra hnot
  push Not at hnot
  rcases h.description_goes_on hphase hnot.1 hnot.2 with
    ⟨before, text, after, idle, next, rest, habove, hfront, htext, hnext, hdescription⟩
  have hcomment : ∀ line : Line, line.isIdle = false → classify line.text ≠ .comment := by
    intro line hline hclass
    simp [Line.isIdle, hclass] at hline
  refine hwithin ⟨⟨text, habove, ?_⟩, ⟨next, hfront.subset (by simp), ?_⟩⟩
  · rw [hdescription]
    refine List.mem_filter.mpr ⟨?_, by simpa using hcomment text htext⟩
    exact Text.mem_trim_of_between _ ⟨text, by simp, htext⟩ ⟨text, by simp, htext⟩
  · rw [hdescription, ← List.cons_append, ← List.append_assoc]
    refine List.mem_filter.mpr ⟨?_, by simpa using hcomment next hnext⟩
    exact Text.mem_trim_of_between _ ⟨next, by simp, hnext⟩ ⟨next, by simp, hnext⟩

/-- Below a blank line that is not of the description, the description does not
    go on. -/
theorem Reader.Leads.quiet_below (h : Leads {} above mid) (hphase : mid.phase = .opening opening)
    (hblank : classify line.text = .blank)
    (hline : line ∉ descriptionLines (above ++ line :: below)) :
    opening.description = [] ∨ Quiet (below.map Line.text) := by
  by_contra hnot
  push Not at hnot
  have hloud : ¬ Quiet ((line :: below).map Line.text) := by
    simpa only [List.map_cons, Quiet, hblank] using hnot.2
  rcases h.description_goes_on hphase hnot.1 hloud with
    ⟨before, text, after, idle, next, rest, -, hfront, htext, hnext, hdescription⟩
  have hidleline : line.isIdle = true := by simp [Line.isIdle, hblank]
  -- The blank line comes first below, and is not the one that goes on.
  cases idle with
  | nil =>
      have heq : next = line := (List.cons_prefix_cons.mp hfront).1
      rw [heq, hidleline] at hnext
      exact absurd hnext (by simp)
  | cons first others =>
      have heq : first = line := (List.cons_prefix_cons.mp hfront).1
      subst heq
      refine hline ?_
      rw [hdescription]
      refine List.mem_filter.mpr ⟨?_, by simp [hblank]⟩
      have hassoc : before ++ text :: (after ++ first :: others ++ next :: rest) =
          (before ++ text :: after) ++ first :: (others ++ next :: rest) := by simp
      rw [hassoc]
      exact Text.mem_trim_of_between _ ⟨text, by simp, htext⟩ ⟨next, by simp, hnext⟩

end Description

section Documents

variable {source other : String} {mid : State} {above : List Line} {texts others : List (List Char)}
  {t : Feature}

theorem readEvents_of_readFeature (h : readFeature source = .ok t) :
    ∃ events, readEvents source = .ok events := by
  cases hread : readEvents source with
  | ok events => exact ⟨events, rfl⟩
  | error refusal =>
      rw [readFeature, hread] at h
      exact absurd h (by simp)

/-- Documents that differ below their first lines describe the same feature if
    the rest of both is read alike, up to blank lines. -/
theorem readFeature_of_rest (hread : readFeature source = .ok t) (hleads : Leads {} above mid)
    (hsource : (Source.lines source).map Line.text = above.map Line.text ++ texts)
    (hother : (Source.lines other).map Line.text = above.map Line.text ++ others)
    (hrest : ∀ kinds, mid.gist.run texts = some kinds →
      ∃ same, mid.gist.run others = some same ∧ withoutBlanks same = withoutBlanks kinds) :
    readFeature other = .ok t := by
  rcases readEvents_of_readFeature hread with ⟨events, hevents⟩
  rcases hleads.gist_run with ⟨emitted, hrun⟩
  have hgist : ({} : State).gist = {} := rfl
  have hfirst := readEvents_gist source
  rw [hsource, hevents, ← hgist, hrun] at hfirst
  rcases Option.map_eq_some_iff.mp hfirst.symm with ⟨kinds, hkinds, hall⟩
  rcases hrest kinds hkinds with ⟨same, hsame, hblanks⟩
  have hsecond := readEvents_gist other
  rw [hother, ← hgist, hrun, hsame, Option.map_some] at hsecond
  rcases Option.map_eq_some_iff.mp hsecond with ⟨found, hfound, hfoundkinds⟩
  rcases readFeature_congr hevents (toOption_eq_some_iff.mp hfound) (by
    rw [hfoundkinds, ← hall, withoutBlanks_append, withoutBlanks_append, hblanks]) with
    ⟨same, hsame, hresult⟩ | ⟨hmissing, -⟩
  · rw [hread] at hsame
    cases hsame
    exact hresult
  · rw [hread] at hmissing
    exact absurd hmissing (by simp)

end Documents

end Gherkin
