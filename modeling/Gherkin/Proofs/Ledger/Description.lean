import Gherkin.Proofs.Text.Trimming
import Gherkin.Proofs.Ledger.Entry

/-!
# The Lines of the Description

Which lines of a document make up the description of its feature can be said
without the reader: they lie below the heading of the feature and above the
first tags or heading of a block, without the blank lines and comments at both
ends, and comments in between do not count.

The reader does not know this while it reads. A blank line below a line of
text belongs to the description only if more text comes, so it is held back as
pending, and its entry in the ledger is changed when the text comes. `Region`
says what the ledger is like at that stage, and what of it the reader holds.

## Main definitions

* `Entry`: A line with its account and its events.
* `reported`, `described`: The events and the description of a ledger.
* `descriptionLines`: The lines of the description of a document.
* `Source.Line.prose`: The text that a line contributes to the description.
* `Headed`, `Region`: The ledger while the description is read, down to the
  heading and below it.
* `Told`, `Sealable`: The ledger once the description is complete.

## Theorems

* `descriptionLines_region`: The description lies below the heading.
* `Region.keep`, `Region.prose`: Trivia and text in the description.
* `Headed.told`: The end of the description.
-/

namespace Gherkin

open Reader
open Source (Line)

/-- A line with its account and its events. -/
structure Entry where
  line : Line
  account : Account
  events : List Event

/-- A line is recorded as its account says. -/
def Entry.Sound (entry : Entry) : Prop :=
  Records entry.line entry.account entry.events

/-- The events of a ledger. -/
def reported (entries : List Entry) : List Event :=
  entries.flatMap Entry.events

/-- The lines that a ledger has under the description. -/
def described (entries : List Entry) : List Line :=
  (entries.filter (fun entry => decide (entry.account = .description))).map Entry.line

@[simp] theorem reported_nil : reported [] = [] := rfl

@[simp] theorem reported_append (a b : List Entry) :
    reported (a ++ b) = reported a ++ reported b :=
  List.flatMap_append

@[simp] theorem reported_cons (entry : Entry) (rest : List Entry) :
    reported (entry :: rest) = entry.events ++ reported rest :=
  List.flatMap_cons

@[simp] theorem described_append (a b : List Entry) :
    described (a ++ b) = described a ++ described b := by
  simp [described]

theorem described_eq_nil {entries : List Entry}
    (h : ∀ entry ∈ entries, entry.account ≠ .description) : described entries = [] := by
  have hnone : entries.filter (fun entry => decide (entry.account = .description)) = [] :=
    List.filter_eq_nil_iff.mpr (fun entry hentry => by simpa using h entry hentry)
  rw [described, hnone, List.map_nil]

namespace Source.Line

/-- Whether a line is blank or a comment. -/
def isIdle (line : Line) : Bool :=
  decide (classify line.text = .blank) || decide (classify line.text = .comment)

/-- Whether a line ends the description: tags and the headings of blocks
    do. -/
def endsDescription (line : Line) : Bool :=
  match classify line.text with
  | .tags | .heading (.block _) => true
  | _ => false

/-- The text that a line contributes to the description. -/
def prose (line : Line) : String :=
  match scanText false line.content with
  | .ok (text, _) => String.ofList text
  | .error _ => ""

end Source.Line

/-- The lines of the description of a document. -/
def descriptionLines (lines : List Line) : List Line :=
  let below := (lines.dropWhile (fun line => classify line.text != .heading .feature)).tail
  let region := below.takeWhile (fun line => !line.endsDescription)
  (Text.trim Line.isIdle region).filter (fun line => classify line.text != .comment)

/-- Lines above the heading of the feature are no part of the description. -/
theorem descriptionLines_above {above : List Line}
    (h : ∀ line ∈ above, classify line.text ≠ .heading .feature) (lines : List Line) :
    descriptionLines (above ++ lines) = descriptionLines lines := by
  unfold descriptionLines
  rw [List.dropWhile_append_of_pos (fun line hline => by simpa using h line hline)]

/-- The description lies below the heading of the feature and ends with the
    document or at the first line that ends it. -/
theorem descriptionLines_region {heading : Line} {region more : List Line}
    (hheading : classify heading.text = .heading .feature)
    (hregion : ∀ line ∈ region, line.endsDescription = false)
    (hmore : ∀ line ∈ more.head?, line.endsDescription = true) :
    descriptionLines (heading :: (region ++ more)) =
      (Text.trim Line.isIdle region).filter (fun line => classify line.text != .comment) := by
  have hstop : more.takeWhile (fun line => !line.endsDescription) = [] := by
    cases more with
    | nil => rfl
    | cons line rest => simp [hmore line rfl]
  have htake : (region ++ more).takeWhile (fun line => !line.endsDescription) = region := by
    rw [List.takeWhile_append_of_pos (fun line hline => by simp [hregion line hline]), hstop,
      List.append_nil]
  unfold descriptionLines
  simp only [List.dropWhile_cons_of_neg, hheading, bne_self_eq_false, Bool.false_eq_true,
    not_false_eq_true, List.tail_cons, htake]

namespace Entry

/-- A blank line or a comment. -/
def Idle (entry : Entry) : Prop :=
  entry.account = .blank ∨ entry.account = .comment

/-- A line that may stand above the heading of the feature. -/
structure Preliminary (entry : Entry) : Prop where
  description : entry.account ≠ .description
  opening : entry.account ≠ .opening
  feature : classify entry.line.text ≠ .heading .feature

/-- The entry of a line that turns out to stand within the description. A blank
    line becomes part of it and is not reported any more. -/
def absorbed (entry : Entry) : Entry :=
  if entry.account = .blank then { entry with account := .description, events := [] } else entry

@[simp] theorem absorbed_line (entry : Entry) : entry.absorbed.line = entry.line := by
  unfold absorbed
  split <;> rfl

variable {entry : Entry}

theorem Sound.records (hsound : entry.Sound) {account : Account} (h : entry.account = account) :
    Records entry.line account entry.events :=
  h ▸ hsound

theorem Sound.isIdle (hsound : entry.Sound) (h : entry.Idle) :
    entry.line.isIdle = true ∧ entry.line.endsDescription = false := by
  rcases h with h | h
  · simp [Line.isIdle, Line.endsDescription, (hsound.records h).eq_blankEvent.1]
  · simp [Line.isIdle, Line.endsDescription, (hsound.records h).eq_commentEvent.1]

theorem Sound.preliminary (hsound : entry.Sound) (h : entry.Idle) : entry.Preliminary := by
  rcases h with h | h
  · exact ⟨by simp [h], by simp [h], by simp [(hsound.records h).eq_blankEvent.1]⟩
  · exact ⟨by simp [h], by simp [h], by simp [(hsound.records h).eq_commentEvent.1]⟩

/-- Within the description a line is part of it or a comment. -/
theorem Idle.absorbed (h : entry.Idle) :
    entry.absorbed.account = .description ∨ entry.absorbed.account = .comment := by
  rcases h with h | h <;> simp [Entry.absorbed, h]

end Entry

/-- Nothing is left of a blank line behind its indentation. -/
theorem content_of_blank {line : Line} (h : classify line.text = .blank) : line.content = [] :=
  begins_of_class h

theorem Entry.Sound.absorbed {entry : Entry} (hsound : entry.Sound) : entry.absorbed.Sound := by
  by_cases hblank : entry.account = .blank
  · have hclass := (hsound.records hblank).eq_blankEvent.1
    -- The line is scanned as no text, and no comment is behind it.
    have htext : scanText false entry.line.content = .ok ([], []) := by
      rw [content_of_blank hclass]
      rfl
    rw [Entry.absorbed, if_pos hblank]
    exact Records.description [] [] none (by simp [hclass]) htext rfl
  · rw [Entry.absorbed, if_neg hblank]
    exact hsound

/-- What is left of the events of trivia when its blank lines become part of
    the description, and the lines that they become. -/
theorem reported_absorbed {entries : List Entry} (hsound : ∀ entry ∈ entries, entry.Sound)
    (hidle : ∀ entry ∈ entries, entry.Idle) :
    reported (entries.map Entry.absorbed) =
        (reported entries).filter (fun event => !(event.kind == .blankLine)) ∧
      (described (entries.map Entry.absorbed)).map Line.prose =
        ((reported entries).filter (fun event => event.kind == .blankLine)).map
          (fun _ => "") := by
  induction entries with
  | nil => exact ⟨rfl, rfl⟩
  | cons entry rest ih =>
      rcases ih (fun e he => hsound e (List.mem_cons_of_mem entry he))
        (fun e he => hidle e (List.mem_cons_of_mem entry he)) with ⟨hreported, hdescribed⟩
      have hfirst := hsound entry List.mem_cons_self
      unfold described at hdescribed ⊢
      rcases hidle entry List.mem_cons_self with haccount | haccount
      · rcases (hfirst.records haccount).eq_blankEvent with ⟨hclass, hevents⟩
        have hprose : entry.line.prose = "" := by
          simp [Line.prose, content_of_blank hclass, scanText]
        simp [Entry.absorbed, haccount, hevents, Line.blankEvent, hreported, hdescribed, hprose]
      · rcases (hfirst.records haccount).eq_commentEvent with ⟨hclass, remark, hevents⟩
        simp [Entry.absorbed, haccount, hevents, Line.commentEvent, hreported, hdescribed]

/-- A ledger in which the description is told by the event of the feature. -/
structure Told (entries : List Entry) : Prop where
  sound : ∀ entry ∈ entries, entry.Sound
  feature : described entries ≠ [] → ∃ event ∈ reported entries, ∃ title description tags,
    event.kind = .feature title description tags
  title : ∀ event ∈ reported entries, ∀ title description tags,
    event.kind = .feature title description tags →
      description = "\n".intercalate ((described entries).map Line.prose)

/-- The description is complete if the next line ends it, or if there is
    none. -/
def Sealable (entries : List Entry) : Prop :=
  ∀ more, (∀ line ∈ more.head?, line.endsDescription = true) →
    descriptionLines (entries.map Entry.line ++ more) = described entries

/-- The ledger below the heading while the description is read: trivia, the
    lines from the first to the last text so far, and pending trivia. -/
structure Region (opening : Opening) (lead core tail : List Entry) : Prop where
  sound : ∀ entry ∈ lead ++ core ++ tail, entry.Sound
  idle : ∀ entry ∈ lead ++ tail, entry.Idle
  within : ∀ entry ∈ core, (entry.account = .description ∨ entry.account = .comment) ∧
    entry.line.endsDescription = false
  first : ∀ entry ∈ core.head?, entry.account = .description ∧ entry.line.isIdle = false
  last : ∀ entry ∈ core.getLast?, entry.line.isIdle = false
  side : opening.side = reported (lead ++ core)
  pending : opening.pending = reported tail
  description : opening.description = (described core).map Line.prose

/-- The ledger down to the heading, whose event waits for the description. -/
structure Headed (opening : Opening) (above : List Entry) (heading : Line) : Prop where
  sound : ∀ entry ∈ above, entry.Sound
  preface : ∀ entry ∈ above, entry.Preliminary
  feature : classify heading.text = .heading .feature
  remarks : ∃ remark, opening.remarks = heading.inlineEvents remark ∧
    (Item.structural? heading.text).bind Item.remark? = remark.map Remark.comment
  stop : opening.span.stop = heading.stop

theorem region_nil {opening : Opening} (hdescription : opening.description = [])
    (hside : opening.side = []) (hpending : opening.pending = []) : Region opening [] [] [] where
  sound := by simp
  idle := by simp
  within := by simp
  first := by simp
  last := by simp
  side := hside
  pending := hpending
  description := hdescription

namespace Region

variable {opening : Opening} {lead core tail : List Entry}

/-- Trivia in the description is pending. -/
theorem keep (h : Region opening lead core tail) {entry : Entry} (hsound : entry.Sound)
    (hidle : entry.Idle) :
    Region { opening with pending := opening.pending ++ entry.events } lead core
      (tail ++ [entry]) where
  sound := by
    intro e he
    rw [← List.append_assoc] at he
    rcases List.mem_append.mp he with he | he
    · exact h.sound e he
    · exact List.mem_singleton.mp he ▸ hsound
  idle := by
    intro e he
    rw [← List.append_assoc] at he
    rcases List.mem_append.mp he with he | he
    · exact h.idle e he
    · exact List.mem_singleton.mp he ▸ hidle
  within := h.within
  first := h.first
  last := h.last
  side := h.side
  pending := by simp [h.pending]
  description := h.description

/-- There is a description as soon as there is a line of it. -/
theorem description_isEmpty (h : Region opening lead core tail) :
    opening.description.isEmpty = core.isEmpty := by
  rw [h.description]
  cases core with
  | nil => rfl
  | cons entry rest => simp [described, (h.first entry rfl).1]

/-- A line of text. What was pending is now within the description, or above
    its first line. -/
theorem prose (h : Region opening lead core tail) {line : Line} {text rest : List Char}
    {remark : Option Remark}
    (hclass : classify line.text ≠ .blank ∧ classify line.text ≠ .comment ∧
      classify line.text ≠ .tags ∧ ∀ kind, classify line.text ≠ .heading (.block kind))
    (htext : scanText false line.content = .ok (text, rest)) (hend : scanEnd rest = .ok remark) :
    ∃ lead' core', (lead' ++ core').map Entry.line =
        (lead ++ core ++ tail).map Entry.line ++ [line] ∧
      Region { opening.settle with
        description := opening.settle.description ++ [String.ofList text]
        side := opening.settle.side ++ line.sideEvents remark } lead' core' [] := by
  let entry : Entry := ⟨line, .description, line.sideEvents remark⟩
  have hsound : entry.Sound :=
    .description text rest remark ⟨hclass.2.1, hclass.2.2.1⟩ htext hend
  have hidle : line.isIdle = false := by simp [Line.isIdle, hclass.1, hclass.2.1]
  have hinside : line.endsDescription = false := by
    rcases hclass with ⟨-, -, htags, hblock⟩
    unfold Line.endsDescription
    split
    · exact absurd (by assumption) htags
    · exact absurd (by assumption) (hblock _)
    · rfl
  have hprose : line.prose = String.ofList text := by simp [Line.prose, htext]
  have hempty := h.description_isEmpty
  cases hcore : core with
  | nil =>
      -- The first line of text: all trivia before it stays outside.
      subst hcore
      have hnone : opening.description = [] := by simpa using hempty
      refine ⟨lead ++ tail, [entry], by simp [entry], ?_⟩
      exact {
        sound := by
          intro e he
          simp only [List.append_nil, List.mem_append, List.mem_singleton] at he
          rcases he with he | rfl
          · exact h.sound e (by simpa using he)
          · exact hsound
        idle := by simpa using h.idle
        within := by simpa [entry] using hinside
        first := by simpa [entry] using hidle
        last := by simpa [entry] using hidle
        side := by simp [Opening.settle, hnone, h.side, h.pending, entry]
        pending := by simp [Opening.settle, hnone]
        description := by simp [Opening.settle, hnone, described, entry, hprose] }
  | cons top others =>
      -- More text: what was pending lies within the description.
      have hsome : opening.description.isEmpty = false := by rw [hempty, hcore]; rfl
      have hsettle : opening.settle = { opening with
          description := opening.description ++
            (opening.pending.filter (fun event => event.kind == .blankLine)).map (fun _ => "")
          side := opening.side ++
            opening.pending.filter (fun event => !(event.kind == .blankLine))
          pending := [] } := by
        simp [Opening.settle, hsome, List.partition_eq_filter_filter, Function.comp_def]
      have htail : ∀ e ∈ tail, e.Sound ∧ e.Idle := fun e he =>
        ⟨h.sound e (by simp [he]), h.idle e (by simp [he])⟩
      rcases reported_absorbed (fun e he => (htail e he).1) (fun e he => (htail e he).2) with
        ⟨hreported, hdescribed⟩
      rw [← hcore]
      refine ⟨lead, core ++ (tail.map Entry.absorbed ++ [entry]), by simp [entry], ?_⟩
      exact {
        sound := by
          intro e he
          simp only [List.append_nil, List.mem_append, List.mem_singleton, List.mem_map] at he
          rcases he with he | he | ⟨pending, hpending, rfl⟩ | rfl
          · exact h.sound e (by simp [he])
          · exact h.sound e (by simp [he])
          · exact (htail pending hpending).1.absorbed
          · exact hsound
        idle := fun e he => h.idle e (by simp at he; simp [he])
        within := by
          intro e he
          simp only [List.mem_append, List.mem_singleton, List.mem_map] at he
          rcases he with he | ⟨pending, hpending, rfl⟩ | rfl
          · exact h.within e he
          · rcases htail pending hpending with ⟨hsound, hidle⟩
            exact ⟨hidle.absorbed, by rw [Entry.absorbed_line, (hsound.isIdle hidle).2]⟩
          · exact ⟨Or.inl rfl, hinside⟩
        first := fun e he => h.first e (by simpa [hcore] using he)
        last := by
          intro e he
          rw [← List.append_assoc, List.getLast?_concat, Option.mem_some_iff] at he
          exact he ▸ hidle
        side := by simp [hsettle, h.side, h.pending, hreported, entry]
        pending := by rw [hsettle, reported_nil]
        description := by
          have hentry : described [entry] = [line] := rfl
          rw [hsettle, described_append, described_append, List.map_append, List.map_append,
            hdescribed, hentry, ← h.description, ← h.pending, List.append_assoc, List.map_singleton,
            hprose] }

/-- The lines from the first to the last text, less the comments, are those
    that the ledger has under the description. -/
theorem trim_lines (h : Region opening lead core tail) :
    (Text.trim Line.isIdle ((lead ++ core ++ tail).map Entry.line)).filter
      (fun line => classify line.text != .comment) = described core := by
  have houter : ∀ entry ∈ lead ++ tail, entry.line.isIdle = true := fun entry he =>
    ((h.sound entry (by simp at he; rcases he with he | he <;> simp [he])).isIdle
      (h.idle entry he)).1
  have hcore : Text.trim Line.isIdle (core.map Entry.line) = core.map Entry.line := by
    refine Text.trim_of_ends Line.isIdle ?_ ?_
    · intro line hline
      rw [List.head?_map, Option.mem_def, Option.map_eq_some_iff] at hline
      rcases hline with ⟨entry, hentry, rfl⟩
      exact (h.first entry hentry).2
    · intro line hline
      rw [List.getLast?_map, Option.mem_def, Option.map_eq_some_iff] at hline
      rcases hline with ⟨entry, hentry, rfl⟩
      exact h.last entry hentry
  have htrim : Text.trim Line.isIdle ((lead ++ core ++ tail).map Entry.line) =
      core.map Entry.line := by
    rw [List.map_append, List.map_append]
    refine Text.trim_padded Line.isIdle _ _ ?_ ?_ hcore
    · intro line hline
      rcases List.mem_map.mp hline with ⟨entry, hentry, rfl⟩
      exact houter entry (by simp [hentry])
    · intro line hline
      rcases List.mem_map.mp hline with ⟨entry, hentry, rfl⟩
      exact houter entry (by simp [hentry])
  rw [htrim, List.filter_map, described]
  congr 1
  refine List.filter_congr (fun entry hentry => ?_)
  have hsound := h.sound entry (by simp [hentry])
  -- A line between texts is a comment exactly if it looks like one.
  rcases (h.within entry hentry).1 with haccount | haccount
  · have hclass : classify entry.line.text ≠ .comment := fun hclass =>
      (Records.ne_of_class_comment hsound hclass).1 haccount
    simp [haccount, hclass]
  · simp [haccount, (hsound.records haccount).eq_commentEvent.1]

theorem endsDescription (h : Region opening lead core tail) :
    ∀ entry ∈ lead ++ core ++ tail, entry.line.endsDescription = false := by
  intro entry hentry
  by_cases hcore : entry ∈ core
  · exact (h.within entry hcore).2
  · exact ((h.sound entry hentry).isIdle (h.idle entry (by simp_all))).2

/-- Nothing below the heading opens a part. -/
theorem ne_opening (h : Region opening lead core tail) :
    ∀ entry ∈ lead ++ core ++ tail, entry.account ≠ .opening := by
  intro entry hentry hopening
  by_cases hcore : entry ∈ core
  · rcases (h.within entry hcore).1 with haccount | haccount <;> simp [haccount] at hopening
  · rcases h.idle entry (by simp_all) with haccount | haccount <;> simp [haccount] at hopening

theorem described_eq (h : Region opening lead core tail) :
    described (lead ++ core ++ tail) = described core := by
  have hidle : ∀ entry ∈ lead ++ tail, entry.account ≠ .description := by
    intro entry hentry haccount
    rcases h.idle entry hentry with hidle | hidle <;> simp [hidle] at haccount
  have hlead := described_eq_nil (fun entry (he : entry ∈ lead) => hidle entry (by simp [he]))
  have htail := described_eq_nil (fun entry (he : entry ∈ tail) => hidle entry (by simp [he]))
  simp only [described_append, hlead, htail, List.nil_append, List.append_nil]

end Region

namespace Headed

variable {opening : Opening} {above : List Entry} {heading : Line}

/-- What is said below the heading does not change it. -/
theorem of_eq (h : Headed opening above heading) {later : Opening}
    (hremarks : later.remarks = opening.remarks) (hspan : later.span = opening.span) :
    Headed later above heading where
  sound := h.sound
  preface := h.preface
  feature := h.feature
  remarks := hremarks ▸ h.remarks
  stop := hspan ▸ h.stop

theorem records (h : Headed opening above heading) :
    Records heading .opening (opening.event :: opening.remarks) := by
  rcases h.remarks with ⟨remark, hremarks, hcomment⟩
  have hrecords := Records.opening opening.event [] [] [] remark (by simp [h.feature]) hcomment
    rfl h.stop (fun _ _ _ _ => h.feature) (by simp)
  simpa [hremarks] using hrecords

/-- Above the heading is no heading of a feature. -/
theorem ne_feature (h : Headed opening above heading) :
    ∀ line ∈ above.map Entry.line, classify line.text ≠ .heading .feature := by
  intro line hline
  rcases List.mem_map.mp hline with ⟨entry, hentry, rfl⟩
  exact (h.preface entry hentry).feature

/-- The lines of the description are found in the region below the heading. -/
theorem descriptionLines_eq (h : Headed opening above heading) {region more : List Line}
    (hregion : ∀ line ∈ region, line.endsDescription = false)
    (hmore : ∀ line ∈ more.head?, line.endsDescription = true) :
    descriptionLines (above.map Entry.line ++ heading :: (region ++ more)) =
      (Text.trim Line.isIdle region).filter (fun line => classify line.text != .comment) := by
  rw [descriptionLines_above h.ne_feature, descriptionLines_region h.feature hregion hmore]

/-- The event of the feature is the only one above its end that tells of a
    feature. -/
theorem event_eq (h : Headed opening above heading) {entry : Entry} {event : Event}
    {title description : String} {tags : List String}
    (hentry : entry ∈ above ++ [⟨heading, .opening, opening.event :: opening.remarks⟩])
    (hevent : event ∈ entry.events) (hkind : event.kind = .feature title description tags) :
    event = opening.event := by
  rcases List.mem_append.mp hentry with habove | hheading
  · exact absurd (Records.opening_of_feature (h.sound entry habove) hevent hkind).1
      (h.preface entry habove).opening
  · rw [List.mem_singleton.mp hheading] at hevent
    rcases List.mem_cons.mp hevent with rfl | hremark
    · rfl
    · rcases h.remarks with ⟨remark, hremarks, -⟩
      rw [hremarks] at hremark
      have hmark := (mem_inlineEvents hremark).1
      rw [hkind] at hmark
      exact absurd hmark (by simp [EventKind.mark?])

/-- The end of the description: the heading is reported with it. -/
theorem told (h : Headed opening above heading) {lead core tail : List Entry}
    (hregion : Region opening lead core tail) :
    Told (above ++ [⟨heading, .opening, opening.event :: opening.remarks⟩] ++
        (lead ++ core ++ tail)) ∧
      Sealable (above ++ [⟨heading, .opening, opening.event :: opening.remarks⟩] ++
        (lead ++ core ++ tail)) := by
  have hdescribed : described
      (above ++ [⟨heading, .opening, opening.event :: opening.remarks⟩] ++
        (lead ++ core ++ tail)) = described core := by
    have habove := described_eq_nil (fun entry he => (h.preface entry he).description)
    have hone : described [⟨heading, .opening, opening.event :: opening.remarks⟩] = [] := rfl
    rw [described_append, described_append, habove, hone, hregion.described_eq]
    rfl
  refine ⟨⟨?_, ?_, ?_⟩, ?_⟩
  · intro entry hentry
    rcases List.mem_append.mp hentry with hdone | hheld
    · rcases List.mem_append.mp hdone with habove | hheading
      · exact h.sound entry habove
      · rw [List.mem_singleton.mp hheading]
        exact h.records
    · exact hregion.sound entry hheld
  · exact fun _ => ⟨opening.event, by simp, _, _, _, rfl⟩
  · intro event hevent title description tags hkind
    rcases List.mem_flatMap.mp hevent with ⟨entry, hentry, hmem⟩
    rcases List.mem_append.mp hentry with hdone | hheld
    · rw [h.event_eq hdone hmem hkind] at hkind
      cases hkind
      rw [hdescribed, ← hregion.description]
    · exact absurd (Records.opening_of_feature (hregion.sound entry hheld) hmem hkind).1
        (hregion.ne_opening entry hheld)
  · intro more hmore
    have hlines : ∀ line ∈ (lead ++ core ++ tail).map Entry.line,
        line.endsDescription = false := by
      intro line hline
      rcases List.mem_map.mp hline with ⟨entry, hentry, rfl⟩
      exact hregion.endsDescription entry hentry
    rw [hdescribed, ← hregion.trim_lines, ← h.descriptionLines_eq hlines hmore]
    simp

end Headed

end Gherkin
