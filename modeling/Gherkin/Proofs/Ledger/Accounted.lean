import Mathlib.Data.List.Nodup
import Mathlib.Data.List.Pairwise
import Gherkin.Proofs.Source.Lines
import Gherkin.Proofs.Ledger.Kept

/-!
# Every Line Is Accounted For

What the ledger of a document says about its lines and events, without the
ledger. Lines do not overlap, so an event ends on one line only, and the events
that end on a line are those entered for it. Hence each line has one account
and no other, which can be told from the events and the lines alone; the
comment on a line is reported once; and the events come in the order of their
lines, but for the one that ends the feature.

## Main definitions

* `Accounted`: A line is reported as an account says.
* `Accounting`: Every line of a document is accounted for, in order.

## Theorems

* `Filed.accounted_iff`: A line is reported as its entry says.
* `Filed.accounting`: The events of a ledger account for its lines.
* `readEvents_accounting`: The events of a document account for its lines.
-/

namespace Gherkin

open Reader
open Source (Line)

/-- A line is reported as an account says. For a line of the description this
    is a matter of the lines around it, and tags are told from the lines of
    doc strings that look like them. -/
def Accounted (lines : List Line) (events : List Event) (line : Line) : Account → Prop
  | .blank => events.countP (Account.blank.shows line) = 1
  | .comment => classify line.text = .comment ∧ events.countP (Account.comment.shows line) = 1
  | .opening => events.countP (Account.opening.shows line) = 1
  | .docLine => events.countP (Account.docLine.shows line) = 1
  | .fence => classify line.text = .fence ∧ events.countP (Account.fence.shows line) = 1
  | .description => line ∈ descriptionLines lines
  | .tags => classify line.text = .tags ∧ events.countP (Account.docLine.shows line) = 0

/-- Every line is accounted for once, and the events are in the order of the
    lines. -/
structure Accounting (lines : List Line) (events : List Event) : Prop where
  /-- Each line has one account. -/
  accounted : ∀ line ∈ lines, ∃! account, Accounted lines events line account
  /-- The comment on a line is reported once: at the end of a line that opens a
      part or closes a doc string as such, and on its own otherwise. -/
  comments : ∀ line ∈ lines, ∀ account, Accounted lines events line account →
    (events.filter (fun event => event.kind.isComment && line.holds event)).map Event.kind =
      (account.comment? line).toList.map (EventKind.comment · account.inline)
  /-- Each line of the description contributes one line to it, in order. -/
  feature : descriptionLines lines ≠ [] → ∃ event ∈ events, ∃ title description tags,
    event.kind = .feature title description tags
  description : ∀ event ∈ events, ∀ title description tags,
    event.kind = .feature title description tags →
      description = "\n".intercalate ((descriptionLines lines).map Line.prose)
  unbroken : ∀ line ∈ descriptionLines lines, '\n' ∉ line.prose.toList
  /-- Each event ends on one line, but for the end of the feature. -/
  placed : ∀ event ∈ events, event.kind ≠ .featureEnd →
    ∃! line, line ∈ lines ∧ line.holds event = true
  /-- No event ends on a line above that of an event before it. -/
  ordered : (events.filter (fun event => decide (event.kind ≠ .featureEnd))).Pairwise
    (fun event later => ∀ line ∈ lines, ∀ below ∈ lines,
      line.holds event = true → below.holds later = true → line.start ≤ below.start)

section Lines

variable {lines : List Line} {line other : Line} {event : Event}

/-- Where lines do not overlap, an event ends on one of them only. -/
theorem eq_of_holds (hlines : lines.Pairwise (fun line later => line.stop < later.start))
    (hline : line ∈ lines) (hother : other ∈ lines) (h : line.holds event = true)
    (h' : other.holds event = true) : line = other := by
  have hapart : lines.Pairwise (fun a b => a.stop < b.start ∨ b.stop < a.start) :=
    hlines.imp Or.inl
  have : Std.Symm (fun a b : Line => a.stop < b.start ∨ b.stop < a.start) :=
    ⟨fun _ _ => Or.symm⟩
  by_contra hne
  have hcases := hapart.forall hline hother hne
  rw [Line.holds_iff] at h h'
  omega

/-- What a line contributes to the description is one line. -/
theorem newline_notMem_prose (h : Source.Unbroken line.text) : '\n' ∉ line.prose.toList := by
  unfold Line.prose
  split
  · rename_i text rest hscan
    rcases (scanText_spec _ _ _ _ hscan).1 with ⟨gap, -, hcontent⟩
    rw [String.toList_ofList]
    intro hmem
    have htext : '\n' ∈ line.content := by simp [hcontent, hmem]
    exact (h _ (Text.mem_of_mem_skipBlanks htext)).1 rfl
  · simp

end Lines

namespace Filed

variable {lines : List Line} {events : List Event} {entries : List Entry} {entry : Entry}

/-- The events that end on a line are those entered for it. -/
theorem filter_reported (h : Filed lines events entries)
    (hlines : lines.Pairwise (fun line later => line.stop < later.start))
    (hentry : entry ∈ entries) :
    (reported entries).filter entry.line.holds = entry.events := by
  rcases List.append_of_mem hentry with ⟨before, after, rfl⟩
  rw [← h.complete, List.map_append, List.map_cons, List.pairwise_append,
    List.pairwise_cons] at hlines
  rcases hlines with ⟨-, ⟨hafter, -⟩, hbefore⟩
  -- What ends on a line above or below does not end on this one.
  have habove : (reported before).filter entry.line.holds = [] := by
    refine List.filter_eq_nil_iff.mpr (fun event hevent hholds => ?_)
    rcases List.mem_flatMap.mp hevent with ⟨e, he, hmem⟩
    have hown := Records.holds (h.told.sound e (by simp [he])) hmem
    have hlt := hbefore e.line (List.mem_map_of_mem he) entry.line List.mem_cons_self
    rw [Line.holds_iff] at hown hholds
    omega
  have hbelow : (reported after).filter entry.line.holds = [] := by
    refine List.filter_eq_nil_iff.mpr (fun event hevent hholds => ?_)
    rcases List.mem_flatMap.mp hevent with ⟨e, he, hmem⟩
    have hown := Records.holds (h.told.sound e (by simp [he])) hmem
    have hlt := hafter e.line (List.mem_map_of_mem he)
    rw [Line.holds_iff] at hown hholds
    omega
  have hself : entry.events.filter entry.line.holds = entry.events :=
    List.filter_eq_self.mpr (fun event hevent =>
      Records.holds (h.told.sound entry (by simp)) hevent)
  rw [reported_append, reported_cons, List.filter_append, List.filter_append, habove, hbelow,
    hself, List.nil_append, List.append_nil]

/-- Which events stand for a line is a matter of its own entry. -/
theorem countP_shows (h : Filed lines events entries)
    (hlines : lines.Pairwise (fun line later => line.stop < later.start))
    (hentry : entry ∈ entries) (mark : Account) :
    events.countP (mark.shows entry.line) = entry.events.countP (mark.shows entry.line) := by
  rcases h.report with ⟨ends, rfl, hends⟩
  have hnone : ends.countP (mark.shows entry.line) = 0 :=
    Records.countP_eq_zero (fun event hevent => by rw [hends event hevent]; rfl)
  have hheld : (reported entries).countP (mark.shows entry.line) =
      ((reported entries).filter entry.line.holds).countP (mark.shows entry.line) := by
    rw [List.countP_filter]
    refine List.countP_congr (fun event _ => ?_)
    rw [Bool.and_eq_true]
    exact ⟨fun hshows => ⟨hshows, Account.holds_of_shows hshows⟩, And.left⟩
  rw [List.countP_append, hnone, Nat.add_zero, hheld, h.filter_reported hlines hentry]

/-- Only one entry is made for a line. -/
theorem eq_of_line (h : Filed lines events entries)
    (hlines : lines.Pairwise (fun line later => line.stop < later.start)) {other : Entry}
    (hentry : entry ∈ entries) (hother : other ∈ entries) (hline : other.line = entry.line) :
    other = entry := by
  have hnodup : (entries.map Entry.line).Nodup := by
    rw [h.complete]
    refine hlines.imp (fun {line later} hlt heq => ?_)
    rw [heq, Line.stop] at hlt
    omega
  exact List.inj_on_of_nodup_map hnodup hother hentry hline

/-- A line is of the description if its entry says so. -/
theorem mem_descriptionLines_iff (h : Filed lines events entries)
    (hlines : lines.Pairwise (fun line later => line.stop < later.start))
    (hentry : entry ∈ entries) :
    entry.line ∈ descriptionLines lines ↔ entry.account = .description := by
  rw [h.description, described, List.mem_map]
  constructor
  · rintro ⟨other, hother, hline⟩
    rw [List.mem_filter, decide_eq_true_eq] at hother
    rw [← h.eq_of_line hlines hentry hother.1 hline]
    exact hother.2
  · intro haccount
    exact ⟨entry, List.mem_filter.mpr ⟨hentry, by simpa using haccount⟩, rfl⟩

/-- A line is reported as its entry says, and in no other way. -/
theorem accounted_iff (h : Filed lines events entries)
    (hlines : lines.Pairwise (fun line later => line.stop < later.start))
    (hentry : entry ∈ entries) (account : Account) :
    Accounted lines events entry.line account ↔ account = entry.account := by
  have hsound := h.told.sound entry hentry
  have hcount := h.countP_shows hlines hentry
  -- The event that stands for a line gives its account away, but for a comment on a line
  -- without a mark of its own, which does not look like a comment.
  have hmarked : ∀ {mark : Account}, events.countP (mark.shows entry.line) = 1 →
      (mark = .comment → classify entry.line.text = .comment) → mark = entry.account := by
    intro mark hone hclass
    have hpos : 0 < entry.events.countP (mark.shows entry.line) := by
      rw [← hcount, hone]
      exact Nat.one_pos
    rcases List.countP_pos_iff.mp hpos with ⟨event, hevent, hshows⟩
    rcases Records.eq_of_mark hsound hevent (Account.mark_of_shows hshows) with
      heq | ⟨hcomment, hother⟩
    · exact heq
    · rcases Records.ne_of_class_comment hsound (hclass hcomment) with ⟨hdescription, htags⟩
      exact absurd hother (by simp [hdescription, htags])
  constructor
  · intro hacc
    cases account with
    | blank => exact hmarked hacc (by simp)
    | comment => exact hmarked hacc.2 (fun _ => hacc.1)
    | opening => exact hmarked hacc (by simp)
    | docLine => exact hmarked hacc (by simp)
    | fence => exact hmarked hacc.2 (by simp)
    | description => exact ((h.mem_descriptionLines_iff hlines hentry).mp hacc).symm
    | tags =>
        rcases Records.eq_of_class_tags hsound hacc.1 with htags | hdoc
        · exact htags.symm
        · have hone := Records.countP_shows (hsound.records hdoc) (by simp) (by simp)
          rw [← hcount, hacc.2] at hone
          exact absurd hone (by simp)
  · rintro rfl
    have hone : entry.account ≠ .description → entry.account ≠ .tags →
        events.countP (entry.account.shows entry.line) = 1 := fun hdescription htags => by
      rw [hcount, Records.countP_shows hsound hdescription htags]
    cases haccount : entry.account with
    | blank => simpa [haccount, Accounted] using hone
    | comment =>
        exact ⟨(hsound.records haccount).eq_commentEvent.1, by simpa [haccount] using hone⟩
    | opening => simpa [haccount, Accounted] using hone
    | docLine => simpa [haccount, Accounted] using hone
    | fence => exact ⟨(hsound.records haccount).class_fence, by simpa [haccount] using hone⟩
    | description => exact (h.mem_descriptionLines_iff hlines hentry).mpr haccount
    | tags =>
        refine ⟨(hsound.records haccount).class_tags, ?_⟩
        rw [hcount]
        refine List.countP_eq_zero.mpr (fun event hevent hshows => ?_)
        have hmark := Records.eq_of_mark hsound hevent (Account.mark_of_shows hshows)
        simp [haccount] at hmark

/-- Every line has an entry. -/
theorem exists_entry (h : Filed lines events entries) {line : Line} (hline : line ∈ lines) :
    ∃ entry ∈ entries, entry.line = line := by
  rw [← h.complete] at hline
  exact List.mem_map.mp hline

/-- An event other than the end of the feature is entered somewhere. -/
theorem mem_reported (h : Filed lines events entries) {event : Event} (hevent : event ∈ events)
    (hkind : event.kind ≠ .featureEnd) : event ∈ reported entries := by
  rcases h.report with ⟨ends, rfl, hends⟩
  rcases List.mem_append.mp hevent with hevent | hevent
  · exact hevent
  · exact absurd (hends event hevent) hkind

theorem comments (h : Filed lines events entries)
    (hlines : lines.Pairwise (fun line later => line.stop < later.start))
    (hentry : entry ∈ entries) :
    (events.filter (fun event => event.kind.isComment && entry.line.holds event)).map Event.kind =
      (entry.account.comment? entry.line).toList.map
        (EventKind.comment · entry.account.inline) := by
  rw [← Records.comments (h.told.sound entry hentry), ← h.filter_reported hlines hentry]
  rcases h.report with ⟨ends, rfl, hends⟩
  have hnone : ends.filter (fun event => event.kind.isComment && entry.line.holds event) = [] := by
    refine List.filter_eq_nil_iff.mpr (fun event hevent => ?_)
    rw [hends event hevent]
    simp [EventKind.isComment]
  rw [List.filter_append, hnone, List.append_nil, List.filter_filter]

/-- Events are entered in the order of their lines. -/
theorem ordered (h : Filed lines events entries)
    (hlines : lines.Pairwise (fun line later => line.stop < later.start)) :
    (reported entries).Pairwise (fun event later => ∀ line ∈ lines, ∀ below ∈ lines,
      line.holds event = true → below.holds later = true → line.start ≤ below.start) := by
  -- The line that an event ends on is that of its entry.
  have hline : ∀ entry ∈ entries, ∀ event ∈ entry.events, ∀ line ∈ lines,
      line.holds event = true → line = entry.line := by
    intro entry hentry event hevent line hline hholds
    have hmem : entry.line ∈ lines := h.complete ▸ List.mem_map_of_mem hentry
    exact eq_of_holds hlines hline hmem hholds
      (Records.holds (h.told.sound entry hentry) hevent)
  have hentries : entries.Pairwise (fun entry later => entry.line.stop < later.line.start) := by
    rw [← h.complete] at hlines
    exact List.pairwise_map.mp hlines
  refine List.pairwise_flatMap.mpr ⟨fun entry hentry => ?_, ?_⟩
  · refine List.pairwise_iff_forall_sublist.mpr (fun {event later} hsub => ?_)
    intro line hmem below hmem' hholds hholds'
    rw [hline entry hentry event (hsub.subset (by simp)) line hmem hholds,
      hline entry hentry later (hsub.subset (by simp)) below hmem' hholds']
  · refine hentries.imp_of_mem (fun {entry later} hentry hlater hlt => ?_)
    intro event hevent event' hevent' line hmem below hmem' hholds hholds'
    rw [hline entry hentry event hevent line hmem hholds,
      hline later hlater event' hevent' below hmem' hholds']
    rw [Line.stop] at hlt
    omega

/-- The events of a ledger account for its lines. -/
theorem accounting (h : Filed lines events entries)
    (hlines : lines.Pairwise (fun line later => line.stop < later.start))
    (hunbroken : ∀ line ∈ lines, Source.Unbroken line.text) : Accounting lines events where
  accounted := by
    intro line hline
    rcases h.exists_entry hline with ⟨entry, hentry, rfl⟩
    refine ⟨entry.account, (h.accounted_iff hlines hentry _).mpr rfl, fun account hacc => ?_⟩
    exact (h.accounted_iff hlines hentry account).mp hacc
  comments := by
    intro line hline account hacc
    rcases h.exists_entry hline with ⟨entry, hentry, rfl⟩
    rw [(h.accounted_iff hlines hentry account).mp hacc]
    exact h.comments hlines hentry
  feature := by
    intro hdescription
    rw [h.description] at hdescription
    rcases h.told.feature hdescription with ⟨event, hevent, hkind⟩
    rcases h.report with ⟨ends, rfl, -⟩
    exact ⟨event, List.mem_append_left ends hevent, hkind⟩
  description := by
    intro event hevent title description tags hkind
    have hmem := h.mem_reported hevent (by simp [hkind])
    rw [h.description]
    exact h.told.title event hmem title description tags hkind
  unbroken := by
    intro line hline
    rw [h.description, described, List.mem_map] at hline
    rcases hline with ⟨entry, hentry, rfl⟩
    have hmem : entry.line ∈ lines :=
      h.complete ▸ List.mem_map_of_mem (List.mem_filter.mp hentry).1
    exact newline_notMem_prose (hunbroken entry.line hmem)
  placed := by
    intro event hevent hkind
    rcases List.mem_flatMap.mp (h.mem_reported hevent hkind) with ⟨entry, hentry, hmem⟩
    have hline : entry.line ∈ lines := h.complete ▸ List.mem_map_of_mem hentry
    have hholds := Records.holds (h.told.sound entry hentry) hmem
    refine ⟨entry.line, ⟨hline, hholds⟩, fun other hother => ?_⟩
    exact eq_of_holds hlines hother.1 hline hother.2 hholds
  ordered := by
    rcases h.report with ⟨ends, rfl, hends⟩
    have hnone : ends.filter (fun event => decide (event.kind ≠ .featureEnd)) = [] :=
      List.filter_eq_nil_iff.mpr (fun event hevent => by simp [hends event hevent])
    rw [List.filter_append, hnone, List.append_nil]
    exact (h.ordered hlines).filter _

end Filed

/-- The events of a document account for its lines. -/
theorem readEvents_accounting {source : String} {events : List Event}
    (h : readEvents source = .ok events) : Accounting (Source.lines source) events := by
  have hread : read source = .ok events := by
    unfold readEvents at h
    cases hread : read source with
    | error fault =>
        rw [hread] at h
        exact absurd h (by simp [Except.mapError])
    | ok found =>
        rw [hread] at h
        cases h
        rfl
  have hinitial : Kept {} [] [] := .preamble [] rfl (by simp) (by simp) rfl rfl
  rcases run_filed hinitial hread with ⟨entries, hfiled⟩
  have hlines := (Line.follow_split 0 source.toList).pairwise
  exact hfiled.accounting hlines (Line.unbroken_split 0 source.toList)

/-- A document with comments wherever they can stand in it. -/
def remarkedSample : String :=
  "@t #a\nFeature: f #b\n x\n\n #c\n y #d\nScenario:\n And z\n\"\"\"\n#\n\"\"\" #e"

/-- The sample is accepted, and its lines are accounted for. A blank line and
    two lines of text make up its description, and a comment does not. -/
theorem readEvents_accounting_remarked : ∃ events, readEvents remarkedSample = .ok events ∧
    Accounting (Source.lines remarkedSample) events ∧
    (descriptionLines (Source.lines remarkedSample)).map Line.prose = ["x", "", "y"] := by
  have hsome : (readEvents remarkedSample).toOption.isSome = true := by decide +kernel
  cases hread : readEvents remarkedSample with
  | error refusal =>
      rw [hread] at hsome
      exact absurd hsome (by simp [Except.toOption])
  | ok events => exact ⟨events, rfl, readEvents_accounting hread, by decide +kernel⟩

end Gherkin
