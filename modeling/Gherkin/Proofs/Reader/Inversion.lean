import Gherkin.Proofs.Reader.Rescan
import Gherkin.Proofs.Reader.Simulation

/-!
# What a Line Can Do

`State.step` tells the places of a document apart in many small functions.
Here is the outcome in one piece: `State.Reads` lists what a line can do, with
the scan it needs, the events it completes and the state it leaves, and
`State.reads_of_step` says that a line which is not refused does one of these
things. Whatever is said about events and their places goes by cases on
`State.Reads`, and need not look into the reader again.

The blanks, comments and tags of a document mean the same almost everywhere.
So what they do is written with three operations that look at the phase
themselves.

## Main definitions

* `State.Quoting`: The reader is in a doc string.
* `State.keep`: Hold trivia back, wherever it is.
* `State.settled`: End the description, or the step or examples that are open.
* `State.left`: End the description, or the block that is open.
* `State.Reads`: What a line can do.

## Theorems

* `State.reads_of_step`: A line that is taken does one of these things.
* `State.finish_eq_ok`: What the end of the document does.
* `readEvents_eq_ok`: An accepted document is read from its first line on.
* `exists_readEvents`: What is found of a document when it is read.
-/

namespace Gherkin

open Reader

theorem Source.Line.content_suffix (line : Source.Line) : line.content <:+ line.text :=
  List.dropWhile_suffix Text.isBlank

/-- What follows a scan succeeds only if the scan does. -/
theorem Source.Line.scan_bind_eq_ok {α β : Type} {line : Source.Line} {result : Except Stop α}
    {f : α → Except Fault β} {b : β} (h : (line.scan result >>= f) = .ok b) :
    ∃ a, result = .ok a ∧ f a = .ok b := by
  rcases bind_eq_ok h with ⟨a, hscan, hf⟩
  cases result with
  | error stop => exact absurd hscan (by simp [Source.Line.scan, Except.mapError])
  | ok a' =>
      cases hscan
      exact ⟨a, rfl, hf⟩

namespace Reader

open Source (Line)

/-- A line that begins with the sign of a tag has a tag. -/
theorem scanTags_ne_nil {cs : List Char} {tags : List String} {found : Option Remark}
    (hclass : classify cs = .tags) (hscan : scanTags cs = .ok (tags, found)) : tags ≠ [] := by
  rcases bind_eq_ok hscan with ⟨⟨name, more, last⟩, hfrom, heq⟩
  cases heq
  rcases begins_of_class hclass with ⟨rest, hrest⟩
  clear hclass hscan
  induction cs generalizing name with
  | nil => simp [Text.skipBlanks] at hrest
  | cons c cs ih =>
      by_cases hblank : Text.isBlank c = true
      · rw [scanTagsFrom, if_pos hblank] at hfrom
        rcases bind_eq_ok hfrom with ⟨⟨inner, others, remark⟩, hrest', heq⟩
        cases heq
        rw [← List.singleton_append, Text.skipBlanks_append [c] cs (by simpa using hblank)] at hrest
        exact ih inner hrest' hrest
      · -- The first character that is no blank is the sign, and a name follows it.
        rw [Text.skipBlanks_cons c cs (by simpa using hblank), List.cons.injEq] at hrest
        rcases hrest with ⟨rfl, rfl⟩
        rw [scanTagsFrom] at hfrom
        simp only [hblank, Bool.false_eq_true, if_false, Bool.false_and, Bool.not_false,
          Bool.true_and, beq_self_eq_true, if_true] at hfrom
        split at hfrom
        · rename_i hhash
          exact absurd hhash (by decide)
        · split at hfrom
          · rcases bind_eq_ok hfrom with ⟨⟨inner, others, remark⟩, -, heq⟩
            cases heq
            exact List.cons_ne_nil _ _
          · exact absurd hfrom (by simp only [reduceCtorEq, not_false_eq_true])

/-- Going on with the description loses at most blank lines among what is held,
    and leaves the heading as it is. -/
theorem Opening.settle_keeps (opening : Opening) :
    opening.settle.tags = opening.tags ∧ opening.settle.span = opening.span ∧
      opening.settle.remarks = opening.remarks ∧ opening.settle.pending = [] ∧
      ∀ event ∈ opening.settle.side, event ∈ opening.side ++ opening.pending := by
  unfold Opening.settle
  split
  · exact ⟨rfl, rfl, rfl, rfl, fun _ hevent => hevent⟩
  · refine ⟨rfl, rfl, rfl, rfl, fun event hevent => ?_⟩
    rw [List.partition_eq_filter_filter] at hevent
    rcases List.mem_append.mp hevent with hside | hpending
    · exact List.mem_append_left _ hside
    · exact List.mem_append_right _ (List.mem_of_mem_filter hpending)

namespace State

/-- The reader is in a doc string. -/
def Quoting (state : State) : Prop :=
  ∃ kind indent, state.phase = .block kind (.docString indent)

/-- Hold trivia back. While the description is read it may still turn out to
    be part of it. -/
def keep (state : State) (events : List Event) : State :=
  match state.phase with
  | .opening opening =>
    { state with phase := .opening { opening with pending := opening.pending ++ events } }
  | _ => state.hold events

/-- End the description, or the step or examples that are open. -/
def settled (state : State) : List Event × State :=
  match state.phase with
  | .opening opening => state.announce opening
  | .block kind place =>
    (place.closers.map state.closing, { state with phase := .block kind (.between place.stage) })
  | _ => ([], state)

theorem tags_settled (state : State) : state.settled.2.tags = state.tags := by
  rcases state with ⟨phase, trivia, tags, lastStop, hasBackground, hasScenario⟩
  cases phase <;> rfl

/-- End the description, or the block that is open. -/
def left (state : State) : List Event × State :=
  match state.phase with
  | .opening opening => state.announce opening
  | .block kind place => state.leave kind place
  | _ => ([], state)

/-- What a line can do, case by case: where it can stand, what is scanned, the
    events it completes and what is remembered after it. -/
inductive Reads (state : State) (line : Line) : List Event → State → Prop
  | blank (hquoting : ¬ state.Quoting) (hclass : classify line.text = .blank) :
      Reads state line [] (state.keep [line.blankEvent])
  | comment (remark : Remark) (hquoting : ¬ state.Quoting)
      (hclass : classify line.text = .comment) (hend : scanEnd line.text = .ok (some remark)) :
      Reads state line [] (state.keep [line.commentEvent false remark])
  | tags (names : List String) (remark : Option Remark) (hquoting : ¬ state.Quoting)
      (hclass : classify line.text = .tags) (hscan : scanTags line.text = .ok (names, remark)) :
      Reads state line state.settled.1
        ((state.settled.2.addTags line.contentStart names).hold (line.sideEvents remark))
  | feature (title rest : List Char) (remark : Option Remark) (hphase : state.phase = .preamble)
      (hclass : classify line.text = .heading .feature) (hne : title ≠ [])
      (htext : scanText false (line.afterKeyword Heading.feature.text) = .ok (title, rest))
      (hend : scanEnd rest = .ok remark) :
      Reads state line [] { state with
        phase := .opening {
          title := String.ofList title
          tags := state.tagNames
          span := ⟨state.startOf line.contentStart, line.stop⟩
          remarks := line.inlineEvents remark
          description := []
          side := []
          pending := [] }
        tags := none
        lastStop := line.stop }
  | prose (opening : Opening) (text rest : List Char) (remark : Option Remark)
      (hphase : state.phase = .opening opening)
      (hclass : classify line.text ≠ .blank ∧ classify line.text ≠ .comment ∧
        classify line.text ≠ .tags ∧ ∀ kind, classify line.text ≠ .heading (.block kind))
      (htext : scanText false line.content = .ok (text, rest))
      (hend : scanEnd rest = .ok remark) :
      Reads state line [] { state with
        phase := .opening { opening.settle with
          description := opening.settle.description ++ [String.ofList text]
          side := opening.settle.side ++ line.sideEvents remark }
        lastStop := line.stop }
  | block (kind : BlockKind) (title rest : List Char) (remark : Option Remark)
      (hquoting : ¬ state.Quoting) (hphase : state.left.2.phase = .body)
      (hadmits : kind = .background → state.hasBackground = false ∧ state.hasScenario = false)
      (hclass : classify line.text = .heading (.block kind))
      (htext : scanText false (line.afterKeyword (Heading.block kind).text) = .ok (title, rest))
      (hend : scanEnd rest = .ok remark) :
      Reads state line
        (state.left.1 ++ (state.left.2.trivia ++
          ⟨.block kind (String.ofList title) state.tagNames,
            ⟨state.startOf line.contentStart, line.stop⟩⟩ :: line.inlineEvents remark))
        { state.left.2.opened line (.block kind (.between .steps)) with
          hasBackground := state.hasBackground || kind == .background
          hasScenario := state.hasScenario || kind != .background }
  | step (kind : BlockKind) (place : Place) (keyword : StepKeyword) (text rest : List Char)
      (remark : Option Remark) (hquoting : ¬ state.Quoting)
      (hphase : state.phase = .block kind place) (hstage : place.stage = .steps)
      (hclass : classify line.text = .step keyword) (hne : text ≠ [])
      (htext : scanText false (line.afterKeyword keyword.text) = .ok (text, rest))
      (hend : scanEnd rest = .ok remark) :
      Reads state line
        (place.closers.map state.closing ++ (state.trivia ++
          ⟨.step keyword (String.ofList text) state.tagNames,
            ⟨state.startOf line.contentStart, line.stop⟩⟩ :: line.inlineEvents remark))
        (state.opened line (.block kind (.argument .step)))
  | examples (place : Place) (remark : Option Remark) (hquoting : ¬ state.Quoting)
      (hphase : state.phase = .block .outline place) (hstage : place.stage = .steps)
      (htags : state.tags = none) (hclass : classify line.text = .heading .examples)
      (hend : scanEnd (line.content.drop Heading.examples.text.length) = .ok remark) :
      Reads state line
        (place.closers.map state.closing ++ (state.trivia ++
          ⟨.examples, ⟨line.contentStart, line.stop⟩⟩ :: line.inlineEvents remark))
        (state.opened line (.block .outline (.argument .examples)))
  | row (kind : BlockKind) (owner : Owner) (place : Place) (cells : List Cell)
      (remark : Option Remark) (hphase : state.phase = .block kind place)
      (hplace : place = .argument owner ∨ place = .table owner cells.length)
      (hclass : classify line.text = .row)
      (hscan : scanRowBody (line.content.drop 1) = .ok (cells, remark)) :
      Reads state line
        (state.trivia ++
          ((if place = .argument owner then [⟨.table, ⟨line.contentStart, line.stop⟩⟩] else []) ++
            (⟨.row, ⟨line.contentStart, line.stop⟩⟩ :: cells.map line.cellEvent ++
              line.inlineEvents remark ++ [⟨.rowEnd, Span.point line.stop⟩])))
        { state with
          phase := .block kind (.table owner cells.length), trivia := [], lastStop := line.stop }
  | openFence (kind : BlockKind) (hphase : state.phase = .block kind (.argument .step))
      (hclass : classify line.text = .fence)
      (hend : Text.skipBlanks (line.content.drop fence.length) = []) :
      Reads state line
        (state.trivia ++
          [⟨.docString (Text.indentation line.text), ⟨line.contentStart, line.stop⟩⟩])
        { state with
          phase := .block kind (.docString (Text.indentation line.text))
          trivia := []
          lastStop := line.stop }
  | closeFence (kind : BlockKind) (indent : Nat) (remark : Option Remark)
      (hphase : state.phase = .block kind (.docString indent))
      (hclass : classify line.text = .fence)
      (hend : scanEnd (line.content.drop fence.length) = .ok remark) :
      Reads state line
        (line.inlineEvents remark ++
          [⟨.docStringEnd, Span.point line.stop⟩, ⟨.stepEnd, Span.point line.stop⟩])
        { state with phase := .block kind (.between .steps), lastStop := line.stop }
  | docLine (kind : BlockKind) (indent : Nat)
      (hphase : state.phase = .block kind (.docString indent))
      (hclass : classify line.text ≠ .fence) :
      Reads state line
        [⟨.docLine (String.ofList (Text.stripIndent indent line.text)),
          ⟨line.offsetOf (Text.stripIndent indent line.text), line.stop⟩⟩]
        { state with lastStop := line.stop }

variable {state next : State} {line : Line} {events : List Event}

theorem keep_of_ne (h : ∀ opening, state.phase ≠ .opening opening) (kept : List Event) :
    state.keep kept = state.hold kept := by
  unfold keep
  split
  · exact absurd (by assumption) (h _)
  · rfl

/-- The heading of a block, once all before it is closed. -/
theorem readBlock_eq_ok {kind : BlockKind}
    (h : state.readBlock line kind = .ok (events, next)) :
    ∃ title rest remark,
      scanText false (line.afterKeyword (Heading.block kind).text) = .ok (title, rest) ∧
      scanEnd rest = .ok remark ∧
      events = state.trivia ++
        ⟨.block kind (String.ofList title) state.tagNames,
          ⟨state.startOf line.contentStart, line.stop⟩⟩ :: line.inlineEvents remark ∧
      next = { state.opened line (.block kind (.between .steps)) with
        hasBackground := state.hasBackground || kind == .background
        hasScenario := state.hasScenario || kind != .background } := by
  rcases Line.scan_bind_eq_ok h with ⟨⟨title, rest⟩, htext, h⟩
  rcases Line.scan_bind_eq_ok h with ⟨remark, hend, h⟩
  cases h
  exact ⟨title, rest, remark, htext, hend, rfl, rfl⟩

/-- Between two blocks only the heading of a block is taken. -/
theorem readBody_eq_ok {cls : LineClass} (h : state.readBody line cls = .ok (events, next)) :
    ∃ kind, cls = .heading (.block kind) ∧
      (kind = .background → state.hasBackground = false ∧ state.hasScenario = false) ∧
      state.readBlock line kind = .ok (events, next) := by
  unfold readBody at h
  split at h
  · rename_i kind
    split_ifs at h with hsecond hlate
    · exact absurd h (by simp [Source.Line.refuse])
    · exact absurd h (by simp [Source.Line.refuse])
    · refine ⟨kind, rfl, ?_, h⟩
      rintro rfl
      simpa using And.intro hsecond hlate
  all_goals exact absurd h (by simp [Source.Line.refuse])

theorem leaveFor_eq_ok {kind : BlockKind} {place : Place} {cls : LineClass}
    (h : state.leaveFor line kind place cls = .ok (events, next)) :
    ∃ block more, cls = .heading (.block block) ∧
      (block = .background → state.hasBackground = false ∧ state.hasScenario = false) ∧
      events = (state.leave kind place).1 ++ more ∧
      (state.leave kind place).2.readBlock line block = .ok (more, next) := by
  unfold leaveFor at h
  rcases bind_eq_ok h with ⟨⟨more, after⟩, hbody, h⟩
  cases h
  rcases readBody_eq_ok hbody with ⟨block, hcls, hadmits, hblock⟩
  exact ⟨block, more, hcls, hadmits, rfl, hblock⟩

theorem settleFor_eq_ok {kind : BlockKind} {place : Place} {read : State → Outcome}
    (h : state.settleFor kind place read = .ok (events, next)) :
    ∃ more, events = place.closers.map state.closing ++ more ∧
      read { state with phase := .block kind (.between place.stage) } = .ok (more, next) := by
  unfold settleFor at h
  rcases bind_eq_ok h with ⟨⟨more, after⟩, hread, h⟩
  cases h
  exact ⟨more, rfl, hread⟩

/-- Outside of the description, trivia is held. -/
theorem reads_of_trivia (hopening : ∀ opening, state.phase ≠ .opening opening)
    (hquoting : ¬ state.Quoting)
    (hclass : classify line.text = .blank ∨ classify line.text = .comment)
    (h : state.readLine line = .ok (events, next)) : state.Reads line events next := by
  rcases hclass with hclass | hclass
  · simp only [readLine, hclass] at h
    cases h
    rw [← keep_of_ne hopening]
    exact .blank hquoting hclass
  · simp only [readLine, hclass, readComment] at h
    rcases Line.scan_bind_eq_ok h with ⟨found, hend, h⟩
    rcases scanEnd_of_comment hclass with ⟨remark, hremark⟩
    rw [hremark, Except.ok.injEq] at hend
    subst hend
    cases h
    rw [← keep_of_ne hopening]
    exact .comment remark hquoting hclass hremark

/-- Tags, once what they end is settled. -/
theorem readTags_eq_ok (h : state.readTags line = .ok (events, next)) :
    ∃ names remark, scanTags line.text = .ok (names, remark) ∧ events = [] ∧
      next = (state.addTags line.contentStart names).hold (line.sideEvents remark) := by
  rcases Line.scan_bind_eq_ok h with ⟨⟨names, remark⟩, hscan, h⟩
  cases h
  exact ⟨names, remark, hscan, rfl, rfl⟩

theorem reads_of_readTags (hquoting : ¬ state.Quoting) (hclass : classify line.text = .tags)
    (hsettled : state.settled = ([], state))
    (h : state.readTags line = .ok (events, next)) : state.Reads line events next := by
  rcases readTags_eq_ok h with ⟨names, remark, hscan, rfl, rfl⟩
  have hreads := Reads.tags names remark hquoting hclass hscan
  rwa [hsettled] at hreads

theorem reads_of_readFeature (hphase : state.phase = .preamble)
    (hclass : classify line.text = .heading .feature)
    (h : state.readFeature line = .ok (events, next)) : state.Reads line events next := by
  rcases Line.scan_bind_eq_ok h with ⟨⟨title, rest⟩, htext, h⟩
  by_cases hne : title = []
  · simp [hne] at h
  · simp only [List.isEmpty_iff, hne, if_false] at h
    rcases Line.scan_bind_eq_ok h with ⟨remark, hend, h⟩
    cases h
    exact .feature title rest remark hphase hclass hne htext hend

theorem reads_of_readDescription {opening : Opening} (hphase : state.phase = .opening opening)
    (hclass : classify line.text ≠ .blank ∧ classify line.text ≠ .comment ∧
      classify line.text ≠ .tags ∧ ∀ kind, classify line.text ≠ .heading (.block kind))
    (h : state.readDescription line opening = .ok (events, next)) :
    state.Reads line events next := by
  rcases Line.scan_bind_eq_ok h with ⟨⟨text, rest⟩, htext, h⟩
  rcases Line.scan_bind_eq_ok h with ⟨remark, hend, h⟩
  cases h
  exact .prose opening text rest remark hphase hclass htext hend

/-- The heading of a block, behind whatever it ends. -/
theorem reads_of_readBlock {kind : BlockKind} {more : List Event} (hquoting : ¬ state.Quoting)
    (hphase : state.left.2.phase = .body)
    (hadmits : kind = .background → state.hasBackground = false ∧ state.hasScenario = false)
    (hclass : classify line.text = .heading (.block kind))
    (h : state.left.2.readBlock line kind = .ok (more, next)) :
    state.Reads line (state.left.1 ++ more) next := by
  rcases readBlock_eq_ok h with ⟨title, rest, remark, htext, hend, rfl, rfl⟩
  have hreads := Reads.block kind title rest remark hquoting hphase hadmits hclass htext hend
  -- Leaving a part changes neither the tags nor which blocks there have been.
  have hkeeps : state.left.2.tags = state.tags ∧
      state.left.2.hasBackground = state.hasBackground ∧
      state.left.2.hasScenario = state.hasScenario := by
    unfold left
    split <;> exact ⟨rfl, rfl, rfl⟩
  simp only [tagNames, startOf, hkeeps] at hreads ⊢
  exact hreads

/-- The line of a step, when the step before it is closed. -/
theorem reads_of_readStep {kind : BlockKind} {place : Place} {keyword : StepKeyword}
    {more : List Event} (hquoting : ¬ state.Quoting) (hphase : state.phase = .block kind place)
    (hstage : place.stage = .steps) (hclass : classify line.text = .step keyword)
    (h : { state with phase := .block kind (.between place.stage) }.readStep line kind keyword =
      .ok (more, next)) :
    state.Reads line (place.closers.map state.closing ++ more) next := by
  rcases Line.scan_bind_eq_ok h with ⟨⟨text, rest⟩, htext, h⟩
  by_cases hne : text = []
  · simp [hne] at h
  · simp only [List.isEmpty_iff, hne, if_false] at h
    rcases Line.scan_bind_eq_ok h with ⟨remark, hend, h⟩
    cases h
    exact .step kind place keyword text rest remark hquoting hphase hstage hclass hne htext hend

/-- The heading of the examples, when the step before it is closed. -/
theorem reads_of_readExamples {kind : BlockKind} {place : Place} {more : List Event}
    (hquoting : ¬ state.Quoting) (hphase : state.phase = .block kind place)
    (hstage : place.stage = .steps) (hclass : classify line.text = .heading .examples)
    (h : { state with phase := .block kind (.between place.stage) }.readExamples line kind =
      .ok (more, next)) :
    state.Reads line (place.closers.map state.closing ++ more) next := by
  unfold readExamples at h
  by_cases hkind : kind = .outline
  · subst hkind
    cases htags : state.tags with
    | some group => simp [htags] at h
    | none =>
        simp only [htags, bne_self_eq_false, Bool.false_eq_true, if_false] at h
        rcases Line.scan_bind_eq_ok h with ⟨remark, hend, h⟩
        cases h
        have hreads := Reads.examples place remark hquoting hphase hstage htags hclass hend
        simpa [opened, htags] using hreads
  · simp [hkind, Source.Line.refuse] at h

theorem reads_of_readRow {kind : BlockKind} {owner : Owner} {place : Place}
    {columns : Option Nat} (hphase : state.phase = .block kind place)
    (hplace : place = columns.elim (.argument owner) (.table owner))
    (hclass : classify line.text = .row)
    (h : state.readRow line kind owner columns = .ok (events, next)) :
    state.Reads line events next := by
  rcases Line.scan_bind_eq_ok h with ⟨⟨cells, remark⟩, hscan, h⟩
  rw [scanRow_of_class hclass] at hscan
  cases columns with
  | none =>
      cases h
      have hreads := Reads.row kind owner place cells remark hphase (Or.inl hplace) hclass hscan
      simpa [hplace] using hreads
  | some expected =>
      by_cases hcells : cells.length = expected
      · simp only [hcells, if_true] at h
        cases h
        have hreads := Reads.row kind owner place cells remark hphase
          (Or.inr (by rw [hplace, hcells]; rfl)) hclass hscan
        simpa [hplace, hcells] using hreads
      · simp [hcells, Source.Line.refuse] at h

theorem reads_of_readFence {kind : BlockKind} (hphase : state.phase = .block kind (.argument .step))
    (hclass : classify line.text = .fence)
    (h : state.readFence line kind = .ok (events, next)) : state.Reads line events next := by
  unfold readFence at h
  split at h
  · rename_i hend
    cases h
    exact .openFence kind hphase hclass hend
  · exact absurd h (by simp)

theorem reads_of_readDocLine {kind : BlockKind} {indent : Nat}
    (hphase : state.phase = .block kind (.docString indent))
    (h : state.readDocLine line kind indent = .ok (events, next)) :
    state.Reads line events next := by
  unfold readDocLine at h
  split at h
  · rename_i hclass
    rcases Line.scan_bind_eq_ok h with ⟨remark, hend, h⟩
    cases h
    exact .closeFence kind indent remark hphase hclass hend
  · rename_i hclass
    cases h
    exact .docLine kind indent hphase hclass

/-- A line between two blocks. -/
theorem reads_of_readLine_body (hphase : state.phase = .body)
    (h : state.readLine line = .ok (events, next)) : state.Reads line events next := by
  have hopening : ∀ opening, state.phase ≠ .opening opening := by simp [hphase]
  have hquoting : ¬ state.Quoting := by simp [Quoting, hphase]
  have hleft : state.left = ([], state) := by simp [left, hphase]
  by_cases htrivia : classify line.text = .blank ∨ classify line.text = .comment
  · exact reads_of_trivia hopening hquoting htrivia h
  · push Not at htrivia
    by_cases htags : classify line.text = .tags
    · simp only [readLine, htags, hphase] at h
      exact reads_of_readTags hquoting htags (by simp [settled, hphase]) h
    · have hbody : state.readBody line (classify line.text) = .ok (events, next) := by
        cases hclass : classify line.text <;> simp_all [readLine]
      rcases readBody_eq_ok hbody with ⟨kind, hclass, hadmits, hblock⟩
      have hreads := reads_of_readBlock hquoting (by rw [hleft, hphase]) hadmits hclass
        (by rw [hleft]; exact hblock)
      rwa [hleft] at hreads

/-- A line before the feature. -/
theorem reads_of_readLine_preamble (hphase : state.phase = .preamble)
    (h : state.readLine line = .ok (events, next)) : state.Reads line events next := by
  have hopening : ∀ opening, state.phase ≠ .opening opening := by simp [hphase]
  have hquoting : ¬ state.Quoting := by simp [Quoting, hphase]
  by_cases htrivia : classify line.text = .blank ∨ classify line.text = .comment
  · exact reads_of_trivia hopening hquoting htrivia h
  · by_cases htags : classify line.text = .tags
    · simp only [readLine, htags, hphase] at h
      exact reads_of_readTags hquoting htags (by simp [settled, hphase]) h
    · by_cases hfeature : classify line.text = .heading .feature
      · simp only [readLine, hfeature, hphase] at h
        exact reads_of_readFeature hphase hfeature h
      · -- Nothing else can stand here.
        have hrefused : state.readLine line = line.refuse .expectedFeature := by
          unfold readLine
          rw [hphase]
          split <;> simp_all
        rw [hrefused] at h
        exact absurd h (by simp [Source.Line.refuse])

/-- A line of a block that neither continues an argument nor is a tag. -/
theorem reads_of_readInBlock {kind : BlockKind} {place : Place} (hquoting : ¬ state.Quoting)
    (hphase : state.phase = .block kind place)
    (h : state.readInBlock line kind place (classify line.text) = .ok (events, next)) :
    state.Reads line events next := by
  have hleft : state.left = state.leave kind place := by simp [left, hphase]
  have hleave : state.leaveFor line kind place (classify line.text) = .ok (events, next) →
      state.Reads line events next := by
    intro hleave
    rcases leaveFor_eq_ok hleave with ⟨block, more, hclass, hadmits, rfl, hblock⟩
    rw [← hleft] at hblock ⊢
    exact reads_of_readBlock hquoting (by rw [hleft]; rfl) hadmits hclass hblock
  unfold readInBlock at h
  cases hstage : place.stage with
  | steps =>
      simp only [hstage, readInSteps] at h
      split at h
      · rename_i keyword hclass
        rcases settleFor_eq_ok h with ⟨more, rfl, hstep⟩
        exact reads_of_readStep hquoting hphase hstage hclass hstep
      · rename_i hclass
        rcases settleFor_eq_ok h with ⟨more, rfl, hexamples⟩
        exact reads_of_readExamples hquoting hphase hstage hclass hexamples
      · rename_i block hclass
        exact hleave h
      all_goals exact absurd h (by simp [Source.Line.refuse])
  | closed =>
      simp only [hstage, readAfterExamples] at h
      split at h
      · exact absurd h (by simp [Source.Line.refuse])
      · exact absurd h (by simp [Source.Line.refuse])
      · exact hleave h

/-- A line of a block. -/
theorem reads_of_readLine_block {kind : BlockKind} {place : Place} (hquoting : ¬ state.Quoting)
    (hphase : state.phase = .block kind place)
    (h : state.readLine line = .ok (events, next)) : state.Reads line events next := by
  have hopening : ∀ opening, state.phase ≠ .opening opening := by simp [hphase]
  by_cases htrivia : classify line.text = .blank ∨ classify line.text = .comment
  · exact reads_of_trivia hopening hquoting htrivia h
  · unfold readLine at h
    split at h
    · exact absurd (Or.inl (by assumption)) htrivia
    · exact absurd (Or.inr (by assumption)) htrivia
    · rw [hphase] at h
      simp only at h
      -- Tags settle the place; rows and fences may continue an argument.
      split at h
      · rename_i hclass
        rcases settleFor_eq_ok h with ⟨more, rfl, htags⟩
        rcases readTags_eq_ok htags with ⟨names, remark, hscan, rfl, rfl⟩
        have hreads := Reads.tags names remark hquoting hclass hscan
        simpa [settled, hphase] using hreads
      · rename_i owner hclass
        exact reads_of_readRow hphase rfl hclass h
      · rename_i owner columns hclass
        exact reads_of_readRow hphase rfl hclass h
      · rename_i hclass
        exact reads_of_readFence hphase hclass h
      · exact reads_of_readInBlock hquoting hphase h

/-- A line while the description is read. -/
theorem reads_of_readOpening {opening : Opening} (hphase : state.phase = .opening opening)
    (h : state.readOpening line opening = .ok (events, next)) : state.Reads line events next := by
  have hquoting : ¬ state.Quoting := by simp [Quoting, hphase]
  have hleft : state.left = state.announce opening := by simp [left, hphase]
  have hsettled : state.settled = state.announce opening := by simp [settled, hphase]
  unfold readOpening at h
  split at h
  · rename_i hclass
    rcases bind_eq_ok h with ⟨⟨more, after⟩, htags, h⟩
    cases h
    simp only [readLine, hclass] at htags
    rcases readTags_eq_ok htags with ⟨names, remark, hscan, rfl, rfl⟩
    have hreads := Reads.tags names remark hquoting hclass hscan
    simpa [hsettled, announce] using hreads
  · rename_i kind hclass
    rcases bind_eq_ok h with ⟨⟨more, after⟩, hbody, h⟩
    cases h
    simp only [readLine, hclass] at hbody
    rcases readBody_eq_ok hbody with ⟨block, heading, hadmits, hblock⟩
    cases heading
    have hreads := reads_of_readBlock hquoting (by rw [hleft]; rfl) hadmits hclass
      (by rw [hleft]; exact hblock)
    rwa [hleft] at hreads
  · rename_i hclass
    cases h
    have hreads := Reads.blank hquoting hclass
    simpa [keep, hphase] using hreads
  · rename_i hclass
    rcases Line.scan_bind_eq_ok h with ⟨found, hend, h⟩
    rcases scanEnd_of_comment hclass with ⟨remark, hremark⟩
    rw [hremark, Except.ok.injEq] at hend
    subst hend
    cases h
    have hreads := Reads.comment remark hquoting hclass hremark
    simpa [keep, hphase, Source.Line.sideEvents] using hreads
  · rename_i htags hblock hblank hcomment
    exact reads_of_readDescription hphase ⟨hblank, hcomment, htags, hblock⟩ h

/-- A line that is taken does one of the things a line can do. -/
theorem reads_of_step (h : state.step line = .ok (events, next)) :
    state.Reads line events next := by
  unfold step at h
  split at h
  · rename_i opening hphase
    exact reads_of_readOpening hphase h
  · rename_i kind indent hphase
    exact reads_of_readDocLine hphase h
  · rename_i hopening hdoc
    cases hphase : state.phase with
    | preamble => exact reads_of_readLine_preamble hphase h
    | opening opening => exact absurd hphase (hopening opening)
    | body => exact reads_of_readLine_body hphase h
    | block kind place =>
        have hquoting : ¬ state.Quoting := by
          rintro ⟨kind, indent, hquoting⟩
          exact hdoc kind indent hquoting
        exact reads_of_readLine_block hquoting hphase h

theorem finishBody_eq_ok {stop : Nat} (h : state.finishBody stop = .ok events) :
    state.tags = none ∧
      events = state.trivia ++ [⟨.featureEnd, Span.point state.lastStop⟩] := by
  unfold finishBody at h
  split at h
  · exact absurd h (by simp)
  · cases h
    exact ⟨by assumption, rfl⟩

/-- The end of a document closes what is open and releases what was held;
    only a document without a feature has no end of its own. -/
theorem finish_eq_ok {stop : Nat} (h : state.finish stop = .ok events) :
    ¬ state.Quoting ∧ state.tags = none ∧
      events = state.left.1 ++ state.left.2.trivia ++
        (if state.phase = .preamble then [] else [⟨.featureEnd, Span.point state.lastStop⟩]) := by
  unfold finish at h
  split at h
  · rename_i hphase
    split at h
    · exact absurd h (by simp)
    · cases h
      exact ⟨by simp [Quoting, hphase], by assumption, by simp [left, hphase]⟩
  · rename_i opening hphase
    rcases bind_eq_ok h with ⟨more, hmore, h⟩
    cases h
    rcases finishBody_eq_ok hmore with ⟨htags, rfl⟩
    exact ⟨by simp [Quoting, hphase], htags, by simp [left, hphase, announce]⟩
  · rename_i hphase
    rcases finishBody_eq_ok h with ⟨htags, rfl⟩
    exact ⟨by simp [Quoting, hphase], htags, by simp [left, hphase]⟩
  · exact absurd h (by simp)
  · rename_i kind place hplace hphase
    rcases bind_eq_ok h with ⟨more, hmore, h⟩
    cases h
    rcases finishBody_eq_ok hmore with ⟨htags, rfl⟩
    exact ⟨by simp_all [Quoting], htags, by simp [left, hphase, leave]⟩

end State

end Reader

/-- A document that is accepted is read from its first line on. -/
theorem readEvents_eq_ok {source : String} {events : List Event}
    (h : readEvents source = .ok events) :
    run (Source.size source) {} (Source.lines source) = .ok events := by
  unfold readEvents Reader.read at h
  cases hrun : run (Source.size source) {} (Source.lines source) with
  | error fault =>
      rw [hrun] at h
      exact absurd h (by simp [Except.mapError])
  | ok found =>
      rw [hrun] at h
      cases h
      rfl

/-- A document of which something is found to hold when it is read is one that
    is accepted. -/
theorem exists_readEvents {source : String} {p : List Event → Bool}
    (h : (readEvents source).toOption.any p = true) :
    ∃ events, readEvents source = .ok events ∧ p events = true := by
  cases hread : readEvents source with
  | ok events =>
      rw [hread] at h
      exact ⟨events, rfl, h⟩
  | error refusal =>
      rw [hread] at h
      exact absurd h (by simp [Except.toOption])

end Gherkin
