import Gherkin.Proofs.FailFast

/-!
# Two Readings Side by Side

The reader is run on two documents whose lines have the same texts, though
they stand at other offsets and end in other ways. The events of the two runs
are of the same kinds, which `run_gist` knows, because a gist has no offsets.
What is followed here is where a run fails: both do, for the same cause, and
at places that lie opposite each other, on the same line and with the same rest
of that line behind them.

A fault stands on the line that is refused, so the places lie opposite each
other as soon as both readers look at the same text. The exception is the tags
that wait, and for these the two runs have to remember lines that lie opposite
each other as well.

## Main definitions

* `Alike`: Two outcomes succeed together, or fail in corresponding ways.
* `State.Twins`: Corresponding faults of a line and its twin.
* `Opposite`: Offsets at the same place of two documents.

## Theorems

* `State.step_alike`: A line and its twin fail alike.
* `run_alike`: Two documents with the same texts fail alike.
-/

namespace Gherkin

open Source (Line Ending)

namespace Reader

/-- Two outcomes are alike: both succeed, or both fail and the errors
    correspond. What they yield is not compared. -/
def Alike {ε α : Type} (P : ε → ε → Prop) : Except ε α → Except ε α → Prop
  | .ok _, .ok _ => True
  | .error e, .error e' => P e e'
  | _, _ => False

namespace Alike

variable {ε α β : Type} {P Q : ε → ε → Prop} {result twin : Except ε α}

theorem ok (a b : α) : Alike P (.ok a) (.ok b) :=
  trivial

theorem mono (h : Alike P result twin) (hPQ : ∀ e e', P e e' → Q e e') : Alike Q result twin := by
  cases result with
  | ok a => cases twin <;> exact h
  | error e =>
      cases twin with
      | ok b => exact h
      | error e' => exact hPQ e e' h

/-- What is made of the results makes no difference. -/
theorem then_ok (h : Alike P result twin) (f g : α → β) :
    Alike P (result >>= fun a => .ok (f a)) (twin >>= fun a => .ok (g a)) := by
  cases result <;> cases twin <;> exact h

end Alike

/-- Corresponding faults of a line and of its twin at offset `start`: the same
    cause, and the same rest of the line behind the place, or else the place is
    that of the tags that wait. -/
def State.Twins (state other : State) (line : Line) (start : Nat) (ending : Ending)
    (fault twin : Fault) : Prop :=
  fault.cause = twin.cause ∧
    ((∃ rest, rest <:+ line.text ∧ fault.offset = line.offsetOf rest ∧
        twin.offset = Line.offsetOf ⟨start, line.text, ending⟩ rest) ∨
      ∃ group waiting, state.tags = some group ∧ other.tags = some waiting ∧
        fault.offset = group.start ∧ twin.offset = waiting.start)

/-- What the reader asks a state for, besides the phase. -/
structure State.Level (state other : State) : Prop where
  tags : state.tags.isSome = other.tags.isSome
  background : state.hasBackground = other.hasBackground
  scenario : state.hasScenario = other.hasScenario

namespace State.Level

variable {state other : State}

theorem announce (h : state.Level other) (opening heading : Opening) :
    (state.announce opening).2.Level (other.announce heading).2 :=
  ⟨h.1, h.2, h.3⟩

theorem leave (h : state.Level other) (kind : BlockKind) (place : Place) :
    (state.leave kind place).2.Level (other.leave kind place).2 :=
  ⟨h.1, h.2, h.3⟩

end State.Level

/-- Phases of the same gist are the same, unless the description is read. -/
theorem Phase.eq_of_gist {phase other : Phase} (h : phase.gist = other.gist) :
    phase = other ∨
      ∃ opening heading, phase = .opening opening ∧ other = .opening heading := by
  cases phase <;> cases other <;> simp_all [Phase.gist]

namespace State

section Lines

variable {state other : State} {line : Line} {start : Nat} {ending : Ending}

/-- A line and its twin are refused alike at a place on them. -/
theorem error_alike {α : Type} {cause : Cause} {rest : List Char} (hrest : rest <:+ line.text) :
    Alike (state.Twins other line start ending)
      (.error ⟨line.offsetOf rest, cause⟩ : Except Fault α)
      (.error ⟨Line.offsetOf ⟨start, line.text, ending⟩ rest, cause⟩) :=
  ⟨rfl, Or.inl ⟨rest, hrest, rfl, rfl⟩⟩

theorem refuse_alike {α : Type} {cause : Cause} :
    Alike (state.Twins other line start ending) (line.refuse cause : Except Fault α)
      (Line.refuse ⟨start, line.text, ending⟩ cause) :=
  error_alike line.content_suffix

/-- A scan has the same result on a line and its twin. -/
theorem scan_alike {α β : Type} {cs : List Char} {result : Except Stop α}
    (h : Fails (Stop.In cs) result) (hcs : cs <:+ line.text) {next twin : α → Except Fault β}
    (hnext : ∀ a, result = .ok a →
      Alike (state.Twins other line start ending) (next a) (twin a)) :
    Alike (state.Twins other line start ending) (line.scan result >>= next)
      (Line.scan ⟨start, line.text, ending⟩ result >>= twin) := by
  cases result with
  | ok a => exact hnext a rfl
  | error stop => exact error_alike ((h stop rfl).1.trans hcs)

/-- The scan of what may end a line. -/
theorem scanEnd_alike {β : Type} {cs : List Char} (hcs : cs <:+ line.text)
    (f g : Option Remark → β) :
    Alike (state.Twins other line start ending)
      (line.scan (scanEnd cs) >>= fun remark => .ok (f remark))
      (Line.scan ⟨start, line.text, ending⟩ (scanEnd cs) >>= fun remark => .ok (g remark)) :=
  scan_alike (scanEnd_fails cs) hcs fun _ _ => .ok _ _

theorem readComment_alike : Alike (state.Twins other line start ending) (state.readComment line)
    (other.readComment ⟨start, line.text, ending⟩) :=
  scanEnd_alike List.suffix_rfl _ _

theorem readTags_alike : Alike (state.Twins other line start ending) (state.readTags line)
    (other.readTags ⟨start, line.text, ending⟩) :=
  scan_alike (scanTags_fails _) List.suffix_rfl fun _ _ => .ok _ _

theorem readFeature_alike : Alike (state.Twins other line start ending) (state.readFeature line)
    (other.readFeature ⟨start, line.text, ending⟩) := by
  have hafter := afterKeyword_suffix line Heading.feature.text
  refine scan_alike (scanText_fails false _) hafter ?_
  rintro ⟨title, rest⟩ htext
  have hrest := (scanText_rest_suffix htext).trans hafter
  by_cases hempty : title.isEmpty = true
  · simp only [hempty, if_true]
    exact error_alike hafter
  · simp only [hempty, Bool.false_eq_true, if_false]
    exact scanEnd_alike hrest _ _

theorem readDescription_alike {opening heading : Opening} :
    Alike (state.Twins other line start ending) (state.readDescription line opening)
      (other.readDescription ⟨start, line.text, ending⟩ heading) := by
  refine scan_alike (scanText_fails false _) line.content_suffix ?_
  rintro ⟨text, rest⟩ htext
  exact scanEnd_alike ((scanText_rest_suffix htext).trans line.content_suffix) _ _

theorem readBlock_alike {kind : BlockKind} :
    Alike (state.Twins other line start ending) (state.readBlock line kind)
      (other.readBlock ⟨start, line.text, ending⟩ kind) := by
  have hafter := afterKeyword_suffix line (Heading.block kind).text
  refine scan_alike (scanText_fails false _) hafter ?_
  rintro ⟨title, rest⟩ htext
  exact scanEnd_alike ((scanText_rest_suffix htext).trans hafter) _ _

theorem readBody_alike (h : state.Level other) {cls : LineClass} :
    Alike (state.Twins other line start ending) (state.readBody line cls)
      (other.readBody ⟨start, line.text, ending⟩ cls) := by
  unfold readBody
  split
  · rename_i kind
    rw [← h.background, ← h.scenario]
    split_ifs
    · exact refuse_alike
    · exact refuse_alike
    · exact readBlock_alike
  all_goals exact refuse_alike

theorem readStep_alike {kind : BlockKind} {keyword : StepKeyword} :
    Alike (state.Twins other line start ending) (state.readStep line kind keyword)
      (other.readStep ⟨start, line.text, ending⟩ kind keyword) := by
  have hafter := afterKeyword_suffix line keyword.text
  refine scan_alike (scanText_fails false _) hafter ?_
  rintro ⟨text, rest⟩ htext
  have hrest := (scanText_rest_suffix htext).trans hafter
  by_cases hempty : text.isEmpty = true
  · simp only [hempty, if_true]
    exact error_alike hafter
  · simp only [hempty, Bool.false_eq_true, if_false]
    exact scanEnd_alike hrest _ _

theorem readExamples_alike (h : state.Level other) {kind : BlockKind} :
    Alike (state.Twins other line start ending) (state.readExamples line kind)
      (other.readExamples ⟨start, line.text, ending⟩ kind) := by
  have hrest : line.content.drop Heading.examples.text.length <:+ line.text :=
    (List.drop_suffix _ _).trans line.content_suffix
  have htags := h.tags
  unfold readExamples
  split_ifs
  · exact refuse_alike
  · cases hstate : state.tags with
    | none =>
        cases hother : other.tags with
        | none => exact scanEnd_alike hrest _ _
        | some waiting => simp [hstate, hother] at htags
    | some group =>
        cases hother : other.tags with
        | none => simp [hstate, hother] at htags
        -- Here the tags are at fault, which stand above the line.
        | some waiting => exact ⟨rfl, Or.inr ⟨group, waiting, hstate, hother, rfl, rfl⟩⟩

theorem leaveFor_alike (h : state.Level other) {kind : BlockKind} {place : Place}
    {cls : LineClass} :
    Alike (state.Twins other line start ending) (state.leaveFor line kind place cls)
      (other.leaveFor ⟨start, line.text, ending⟩ kind place cls) :=
  (readBody_alike (h.leave kind place)).then_ok _ _

theorem settleFor_alike {kind : BlockKind} {place : Place} {read twin : State → Outcome}
    (h : Alike (state.Twins other line start ending)
      (read { state with phase := .block kind (.between place.stage) })
      (twin { other with phase := .block kind (.between place.stage) })) :
    Alike (state.Twins other line start ending) (state.settleFor kind place read)
      (other.settleFor kind place twin) :=
  h.then_ok _ _

theorem readInBlock_alike (h : state.Level other) {kind : BlockKind} {place : Place}
    {cls : LineClass} :
    Alike (state.Twins other line start ending) (state.readInBlock line kind place cls)
      (other.readInBlock ⟨start, line.text, ending⟩ kind place cls) := by
  unfold readInBlock readInSteps readAfterExamples
  split
  · split
    · exact settleFor_alike readStep_alike
    · exact settleFor_alike (readExamples_alike ⟨h.1, h.2, h.3⟩)
    · exact leaveFor_alike h
    all_goals exact refuse_alike
  · split
    · exact refuse_alike
    · exact refuse_alike
    · exact leaveFor_alike h

theorem readRow_alike {kind : BlockKind} {owner : Owner} {columns : Option Nat} :
    Alike (state.Twins other line start ending) (state.readRow line kind owner columns)
      (other.readRow ⟨start, line.text, ending⟩ kind owner columns) := by
  refine scan_alike (scanRow_fails line.text) List.suffix_rfl fun _ _ => ?_
  simp only
  split
  · exact .ok _ _
  · split
    · exact .ok _ _
    · exact refuse_alike

theorem readFence_alike {kind : BlockKind} :
    Alike (state.Twins other line start ending) (state.readFence line kind)
      (other.readFence ⟨start, line.text, ending⟩ kind) := by
  have hrest : Text.skipBlanks (line.content.drop fence.length) <:+ line.text :=
    (List.dropWhile_suffix Text.isBlank).trans ((List.drop_suffix _ _).trans line.content_suffix)
  have htwin : Source.Line.content ⟨start, line.text, ending⟩ = line.content := rfl
  unfold readFence
  rw [htwin]
  split
  · exact .ok _ _
  · exact error_alike hrest

theorem readDocLine_alike {kind : BlockKind} {indent : Nat} :
    Alike (state.Twins other line start ending) (state.readDocLine line kind indent)
      (other.readDocLine ⟨start, line.text, ending⟩ kind indent) := by
  unfold readDocLine
  simp only
  split
  · exact scanEnd_alike ((List.drop_suffix _ _).trans line.content_suffix) _ _
  · exact .ok _ _

/-- A line in states of the same phase. -/
theorem readLine_alike (h : state.Level other) (hphase : state.phase = other.phase) :
    Alike (state.Twins other line start ending) (state.readLine line)
      (other.readLine ⟨start, line.text, ending⟩) := by
  unfold readLine
  rw [← hphase]
  simp only
  split
  · exact .ok _ _
  · exact readComment_alike
  · split
    · split
      · exact settleFor_alike readTags_alike
      · exact readRow_alike
      · exact readRow_alike
      · exact readFence_alike
      · exact readInBlock_alike h
    · split
      · exact readTags_alike
      · exact readBody_alike h
    · split
      · exact readTags_alike
      · exact readFeature_alike
      · exact refuse_alike

theorem readOpening_alike (h : state.Level other) {opening heading : Opening} :
    Alike (state.Twins other line start ending) (state.readOpening line opening)
      (other.readOpening ⟨start, line.text, ending⟩ heading) := by
  have hbody := h.announce opening heading
  unfold readOpening
  simp only
  split
  · exact (readLine_alike hbody rfl).then_ok _ _
  · exact (readLine_alike hbody rfl).then_ok _ _
  · exact .ok _ _
  · exact scanEnd_alike List.suffix_rfl _ _
  · exact readDescription_alike

theorem level_of_gist (h : state.gist = other.gist) : state.Level other where
  tags := by simpa [gist] using congrArg (fun g => g.tags.isSome) h
  background := congrArg Gist.hasBackground h
  scenario := congrArg Gist.hasScenario h

/-- States with the same gist fail alike on a line and its twin. -/
theorem step_alike (h : state.gist = other.gist) :
    Alike (state.Twins other line start ending) (state.step line)
      (other.step ⟨start, line.text, ending⟩) := by
  have hlevel := level_of_gist h
  rcases Phase.eq_of_gist (congrArg Gist.phase h) with hphase | ⟨opening, heading, hstate, hother⟩
  · unfold step
    rw [← hphase]
    split
    · exact readOpening_alike hlevel
    · exact readDocLine_alike
    · exact readLine_alike hlevel hphase
  · simp only [step, hstate, hother]
    exact readOpening_alike hlevel

end Lines

variable {state other : State} {stop twin : Nat}

/-- Faults of the end of a document. -/
def AtEnds (stop twin : Nat) (fault other : Fault) : Prop :=
  fault.cause = other.cause ∧ fault.offset = stop ∧ other.offset = twin

theorem finishBody_alike (h : state.Level other) :
    Alike (AtEnds stop twin) (state.finishBody stop) (other.finishBody twin) := by
  have htags := h.tags
  unfold finishBody
  cases hstate : state.tags <;> cases hother : other.tags
  · exact .ok _ _
  · simp [hstate, hother] at htags
  · simp [hstate, hother] at htags
  · exact ⟨rfl, rfl, rfl⟩

/-- States with the same gist fail alike at the end of a document. -/
theorem finish_alike (h : state.gist = other.gist) :
    Alike (AtEnds stop twin) (state.finish stop) (other.finish twin) := by
  have hlevel := level_of_gist h
  rcases Phase.eq_of_gist (congrArg Gist.phase h) with hphase | ⟨opening, heading, hstate, hother⟩
  · have htags := hlevel.tags
    unfold finish
    rw [← hphase]
    split
    · cases hstate : state.tags <;> cases hother : other.tags
      · exact .ok _ _
      · simp [hstate, hother] at htags
      · simp [hstate, hother] at htags
      · exact ⟨rfl, rfl, rfl⟩
    · exact (finishBody_alike (hlevel.announce _ _)).then_ok _ _
    · exact finishBody_alike hlevel
    · exact ⟨rfl, rfl, rfl⟩
    · rename_i kind place hplace hblock
      exact (finishBody_alike (hlevel.leave kind place)).then_ok _ _
  · simp only [finish, hstate, hother]
    exact (finishBody_alike (hlevel.announce _ _)).then_ok _ _

end State

/-- Offsets of two documents that lie opposite each other: the same number of
    lines is above them, and the same text is before and behind them on their
    lines. -/
inductive Opposite (lines twins : List Line) : Nat → Nat → Prop
  | intro (above below above' below' : List Line) (line : Line) (start : Nat) (ending : Ending)
      (rest : List Char) (hlines : lines = above ++ line :: below)
      (htwins : twins = above' ++ ⟨start, line.text, ending⟩ :: below')
      (habove : above.length = above'.length) (hrest : rest <:+ line.text) :
      Opposite lines twins (line.offsetOf rest) (Line.offsetOf ⟨start, line.text, ending⟩ rest)

/-- Faults of two documents that are found at the same place. -/
def Corresponds (lines twins : List Line) (stop twin : Nat) (fault other : Fault) : Prop :=
  fault.cause = other.cause ∧
    (Opposite lines twins fault.offset other.offset ∨ fault.offset = stop ∧ other.offset = twin)

section Running

variable {lines twins above above' : List Line} {state other next after : State} {line : Line}
  {start stop twin : Nat} {ending : Ending} {events reported : List Event}

/-- States with the same gist still have the same gist after a line and its
    twin. -/
theorem gist_of_steps (hgist : state.gist = other.gist)
    (hstep : state.step line = .ok (events, next))
    (htwin : other.step ⟨start, line.text, ending⟩ = .ok (reported, after)) :
    next.gist = after.gist := by
  have hline := State.step_gist state line
  have hother := State.step_gist other ⟨start, line.text, ending⟩
  rw [hstep, Outcome.gist_ok, hgist] at hline
  rw [htwin, Outcome.gist_ok, ← hline, Option.some.injEq, Prod.mk.injEq] at hother
  exact hother.2.symm

/-- Tags that wait lie opposite each other after lines that do. -/
theorem opposite_of_steps (hgist : state.gist = other.gist)
    (hstep : state.step line = .ok (events, next))
    (htwin : other.step ⟨start, line.text, ending⟩ = .ok (reported, after))
    (hline : Opposite lines twins line.contentStart
      (Line.contentStart ⟨start, line.text, ending⟩))
    (htags : ∀ group waiting, state.tags = some group → other.tags = some waiting →
      Opposite lines twins group.start waiting.start) :
    ∀ group waiting, next.tags = some group → after.tags = some waiting →
      Opposite lines twins group.start waiting.start := by
  intro group waiting hgroup hwaiting
  rw [(State.reads_of_step hstep).tags_startOf hgroup,
    (State.reads_of_step htwin).tags_startOf hwaiting]
  have hsome := (State.level_of_gist hgist).tags
  unfold State.startOf
  cases hold : state.tags with
  | none =>
      cases hkept : other.tags with
      | none => exact hline
      | some kept => simp [hold, hkept] at hsome
  | some old =>
      cases hkept : other.tags with
      | none => simp [hold, hkept] at hsome
      | some kept => exact htags old kept hold hkept

/-- Two runs on the rest of documents with the same texts. The tags that wait
    lie opposite each other. -/
theorem run_alike (htexts : lines.map Line.text = twins.map Line.text)
    (habove : above.length = above'.length) (hgist : state.gist = other.gist)
    (htags : ∀ group waiting, state.tags = some group → other.tags = some waiting →
      Opposite (above ++ lines) (above' ++ twins) group.start waiting.start) :
    Alike (Corresponds (above ++ lines) (above' ++ twins) stop twin) (run stop state lines)
      (run twin other twins) := by
  induction lines generalizing twins above above' state other with
  | nil =>
      rw [List.map_nil, eq_comm, List.map_eq_nil_iff] at htexts
      subst htexts
      exact (State.finish_alike hgist).mono fun fault found h => ⟨h.1, Or.inr h.2⟩
  | cons line rest ih =>
      cases twins with
      | nil => simp at htexts
      | cons first more =>
          rw [List.map_cons, List.map_cons, List.cons.injEq] at htexts
          rcases htexts with ⟨htext, htexts⟩
          rcases first with ⟨start, text, ending⟩
          change line.text = text at htext
          subst htext
          have hopposite : ∀ suffix, suffix <:+ line.text →
              Opposite (above ++ line :: rest) (above' ++ ⟨start, line.text, ending⟩ :: more)
                (line.offsetOf suffix) (Line.offsetOf ⟨start, line.text, ending⟩ suffix) :=
            fun suffix hsuffix =>
              .intro above rest above' more line start ending suffix rfl rfl habove hsuffix
          have hstep : Alike (state.Twins other line start ending) (state.step line)
              (other.step ⟨start, line.text, ending⟩) := State.step_alike hgist
          rw [run, run]
          cases hline : state.step line with
          | error fault =>
              cases htwin : other.step ⟨start, line.text, ending⟩ with
              | ok out => simp [hline, htwin, Alike] at hstep
              | error found =>
                  rw [hline, htwin] at hstep
                  rcases hstep with ⟨hcause, ⟨suffix, hsuffix, hat, hat'⟩ |
                    ⟨group, waiting, hgroup, hwaiting, hat, hat'⟩⟩
                  · exact ⟨hcause, Or.inl (by rw [hat, hat']; exact hopposite suffix hsuffix)⟩
                  · exact ⟨hcause, Or.inl (by rw [hat, hat']; exact htags _ _ hgroup hwaiting)⟩
          | ok out =>
              cases htwin : other.step ⟨start, line.text, ending⟩ with
              | error found => simp [hline, htwin, Alike] at hstep
              | ok out' =>
                  have hnext := opposite_of_steps hgist hline htwin
                    (hopposite line.content line.content_suffix) htags
                  -- The line and its twin join what is above.
                  rw [List.append_cons above line rest, List.append_cons above' _ more] at hnext ⊢
                  exact (ih htexts (by simp [habove]) (gist_of_steps hgist hline htwin)
                    hnext).then_ok _ _

end Running

end Reader

end Gherkin
