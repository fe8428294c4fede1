import Gherkin.Proofs.Source.Extension
import Gherkin.Proofs.Reader.Faults

/-!
# A Document Is Refused at Once

A document is refused at the first line that rules it out, and not before that
line nor after it. Not before: whatever has been read can be completed, so the
lines above the place of a fault begin a document that is accepted. Not after:
unless something is missing at the end, nothing that follows the document makes
a difference, and the refusal stays the same to the letter.

Every state of the reader can be completed by a line or two: by a feature where
there is none, else by a scenario, which takes the tags that wait, once an open
doc string is closed. That a refusal does not change is a matter of the text it
quotes and of the line numbers, which depend on nothing behind the line that is
refused.

## Main definitions

* `Reader.Leads`: Lines lead from one state to another.
* `Reader.Gist.completion`: Text that completes what has been read.
* `FailsFast`: A refusal comes neither too early nor too late.

## Theorems

* `Reader.run_eq_error`: Where a refused document is refused.
* `Reader.Gist.run_completion`: What has been read can be completed.
* `viable_of_leads`: Lines that are read begin a document that is accepted.
* `readEvents_failsFast`: Every document that is refused is refused at once.
-/

namespace Gherkin

open Reader
open Source (Line)

namespace Reader

/-- Lines lead from one state to another. -/
inductive Leads : State → List Line → State → Prop
  | refl (state : State) : Leads state [] state
  | step {state next last : State} {line : Line} {rest : List Line} {events : List Event}
      (hstep : state.step line = .ok (events, next)) (hrest : Leads next rest last) :
      Leads state (line :: rest) last

section Leading

variable {state mid last : State} {above below : List Line} {line : Line} {stop : Nat}
  {fault : Fault}

/-- The first lines lead somewhere if all of them do. -/
theorem Leads.left (h : Leads state (above ++ below) last) : ∃ mid, Leads state above mid := by
  induction above generalizing state with
  | nil => exact ⟨state, .refl state⟩
  | cons line rest ih =>
      cases h with
      | step hstep hrest =>
          rcases ih hrest with ⟨mid, hmid⟩
          exact ⟨mid, .step hstep hmid⟩

theorem Leads.run_error (h : Leads state above mid) (hrun : run stop mid below = .error fault) :
    run stop state (above ++ below) = .error fault := by
  induction h with
  | refl state => exact hrun
  | step hstep hrest ih =>
      rw [List.cons_append, run, hstep]
      simp only [bind, Except.bind, ih hrun]

theorem Leads.run_ok {events : List Event} (h : Leads state above mid)
    (hrun : run stop mid below = .ok events) :
    ∃ all, run stop state (above ++ below) = .ok all := by
  induction h with
  | refl state => exact ⟨events, hrun⟩
  | step hstep hrest ih =>
      rcases ih hrun with ⟨all, hall⟩
      rw [List.cons_append, run, hstep]
      simp only [bind, Except.bind, hall]
      exact ⟨_, rfl⟩

/-- A document is refused at a line, or at its end. -/
theorem run_eq_error {lines : List Line} (h : run stop state lines = .error fault) :
    (∃ above line below mid, lines = above ++ line :: below ∧ Leads state above mid ∧
      mid.step line = .error fault) ∨
    ∃ mid, Leads state lines mid ∧ mid.finish stop = .error fault := by
  induction lines generalizing state with
  | nil => exact Or.inr ⟨state, .refl state, h⟩
  | cons line rest ih =>
      cases hstep : state.step line with
      | error found =>
          rw [run, hstep] at h
          cases h
          exact Or.inl ⟨[], line, rest, state, rfl, .refl state, hstep⟩
      | ok outcome =>
          rcases outcome with ⟨events, next⟩
          have hrest : run stop next rest = .error fault := by
            rw [run, hstep] at h
            cases hrun : run stop next rest with
            | error found =>
                simp only [bind, Except.bind, hrun] at h
                exact h
            | ok more => simp only [bind, Except.bind, hrun, reduceCtorEq] at h
          rcases ih hrest with
            ⟨above, later, below, mid, rfl, hleads, hfault⟩ | ⟨mid, hleads, hfault⟩
          · exact Or.inl ⟨line :: above, later, below, mid, rfl, .step hstep hleads, hfault⟩
          · exact Or.inr ⟨mid, .step hstep hleads, hfault⟩

/-- How a line ends makes no difference. -/
theorem State.step_ending (state : State) (line : Line) (ending : Source.Ending) :
    state.step { line with ending := ending } = state.step line :=
  rfl

/-- The tags that wait begin where a part that takes them would. -/
theorem State.Reads.tags_startOf {next : State} {events : List Event} {group : TagGroup}
    (h : state.Reads line events next) (hgroup : next.tags = some group) :
    group.start = state.startOf line.contentStart := by
  have hkept : next.tags = state.tags → group.start = state.startOf line.contentStart := by
    intro hsame
    rw [State.startOf, ← hsame, hgroup]
  cases h with
  | blank | comment =>
      refine hkept ?_
      unfold State.keep
      split <;> rfl
  | tags names remark =>
      have hsettled := state.tags_settled
      cases htags : state.tags with
      | none =>
          rw [htags] at hsettled
          simp only [State.hold, State.addTags, hsettled, Option.some.injEq] at hgroup
          rw [← hgroup, State.startOf, htags]
      | some old =>
          rw [htags] at hsettled
          simp only [State.hold, State.addTags, hsettled, Option.some.injEq] at hgroup
          rw [← hgroup, State.startOf, htags]
  | feature | block | step | examples => exact absurd hgroup (by simp [State.opened])
  | prose | row | openFence | closeFence | docLine => exact hkept rfl

/-- The tags that wait begin where they did, or on the line that was read. -/
theorem State.Reads.tags_start {next : State} {events : List Event} {group : TagGroup}
    (h : state.Reads line events next) (hgroup : next.tags = some group) :
    (∃ old, state.tags = some old ∧ group.start = old.start) ∨
      group.start = line.contentStart := by
  have hstart := h.tags_startOf hgroup
  cases htags : state.tags with
  | none => exact Or.inr (by rw [hstart, State.startOf, htags])
  | some old => exact Or.inl ⟨old, rfl, by rw [hstart, State.startOf, htags]⟩

/-- The tags that wait begin on a line that was read. -/
theorem Leads.tags_start (h : Leads state above last) {P : Nat → Prop}
    (hstate : ∀ group, state.tags = some group → P group.start)
    (habove : ∀ line ∈ above, P line.contentStart) :
    ∀ group, last.tags = some group → P group.start := by
  induction h with
  | refl state => exact hstate
  | step hstep hrest ih =>
      refine ih (fun group hgroup => ?_)
        (fun line hline => habove line (List.mem_cons_of_mem _ hline))
      rcases (State.reads_of_step hstep).tags_start hgroup with ⟨old, hold, hstart⟩ | hstart
      · rw [hstart]
        exact hstate old hold
      · rw [hstart]
        exact habove _ List.mem_cons_self

end Leading

namespace Gist

/-- Text that completes what has been read: a feature, or a scenario once an
    open doc string is closed. -/
def completion (g : Gist) : List Char :=
  match g.phase with
  | .preamble => "Feature: x".toList
  | .block _ (.docString _) => "\"\"\"\nScenario:".toList
  | _ => "Scenario:".toList

theorem head?_completion (g : Gist) : g.completion.head? ≠ some '\n' := by
  unfold completion
  split <;> decide

/-- A line that is taken leaves the rest to be completed. -/
theorem run_cons {g next : Gist} {text : List Char} {texts : List (List Char)} {item : Item}
    {kinds : List EventKind} (hread : Item.read? g.mode text = some item)
    (htake : g.take item = some (kinds, next)) (h : (next.run texts).isSome = true) :
    (g.run (text :: texts)).isSome = true := by
  rw [run, step, hread, Option.bind_some, htake]
  simpa using h

/-- The heading of a scenario completes a feature, whatever tags wait. -/
theorem run_scenario {g : Gist} (hbody : g.leave.2.phase = .body)
    (hmode : ∀ indent, g.mode ≠ .verbatim indent) : (g.run ["Scenario:".toList]).isSome = true := by
  have hread : Item.read? g.mode "Scenario:".toList = some (.block .scenario "" none) := by
    cases hm : g.mode with
    | verbatim indent => exact absurd hm (hmode indent)
    | structural => decide +kernel
    | descriptive => decide +kernel
  have hadmits : g.admits .scenario = true := rfl
  exact run_cons hread (take_block hbody hadmits "" none) rfl

/-- What has been read can be completed. -/
theorem run_completion (g : Gist) (start : Nat) :
    (g.run ((Line.split start g.completion).map Line.text)).isSome = true := by
  rcases g with ⟨phase, trivia, tags, hasBackground, hasScenario⟩
  cases phase with
  | preamble =>
      have hread : Item.read? .structural "Feature: x".toList = some (.feature "x" none) := by
        decide +kernel
      exact run_cons hread rfl rfl
  | opening opening => exact run_scenario rfl (by simp [mode])
  | body => exact run_scenario rfl (by simp [mode])
  | block kind place =>
      cases place with
      | docString indent =>
          have hfence : classify "\"\"\"".toList = .fence := by decide +kernel
          have hitem : Item.structural? "\"\"\"".toList = some (.fence 0 none) := by decide +kernel
          have hread : Item.read? (.verbatim indent) "\"\"\"".toList = some (.fence 0 none) := by
            rw [Item.read?, hfence]
            exact hitem
          exact run_cons hread rfl (run_scenario rfl (by simp [mode]))
      | _ => exact run_scenario rfl (by simp [mode])

end Gist

end Reader

/-- A refusal comes neither too early nor too late. -/
structure FailsFast (source : String) (refusal : Refusal) : Prop where
  /-- The lines above the place of the fault begin a document that is
      accepted. -/
  viable : ∃ completed events,
    (Source.lines source).take (refusal.position.line - 1) <+: Source.lines completed ∧
      readEvents completed = .ok events
  /-- Unless something is missing at the end, what follows makes no
      difference. -/
  stable : refusal.cause.isAtEnd = false →
    ∀ more, readEvents (Source.terminated source ++ more) = .error refusal

section Refusing

variable {source : String} {refusal : Refusal} {above below : List Line}

theorem readEvents_eq_error (h : readEvents source = .error refusal) :
    ∃ fault, run (Source.size source) {} (Source.lines source) = .error fault ∧
      refusal = .ofFault source fault := by
  unfold readEvents Reader.read at h
  cases hrun : run (Source.size source) {} (Source.lines source) with
  | ok events =>
      rw [hrun] at h
      exact absurd h (by simp [Except.mapError])
  | error fault =>
      rw [hrun] at h
      cases h
      exact ⟨fault, rfl, rfl⟩

/-- Lines that are read begin a document that is accepted. -/
theorem viable_of_leads {state : State} (h : Source.lines source = above ++ below)
    (hleads : Leads {} above state) (hended : ∀ line ∈ above, line.ending ≠ .none) :
    ∃ completed events, above <+: Source.lines completed ∧ readEvents completed = .ok events := by
  obtain ⟨completed, next, hlines⟩ : ∃ completed next, Source.lines completed =
      above ++ Line.split next state.gist.completion := by
    have hsplit := Line.split_above h state.gist.completion hended
      (fun _ _ _ => state.gist.head?_completion)
    refine ⟨String.ofList (above.flatMap Line.chars ++ state.gist.completion),
      0 + Text.width (above.flatMap Line.chars), ?_⟩
    rw [Source.lines, String.toList_ofList, hsplit]
  refine ⟨completed, ?_⟩
  have hgist := run_gist (Source.size completed) state (Line.split next state.gist.completion)
  have hsome := state.gist.run_completion next
  cases hrun : run (Source.size completed) state (Line.split next state.gist.completion) with
  | error fault =>
      rw [← hgist, hrun] at hsome
      exact absurd hsome (by simp [Except.toOption])
  | ok more =>
      rcases hleads.run_ok hrun with ⟨events, hevents⟩
      refine ⟨events, hlines ▸ List.prefix_append _ _, ?_⟩
      rw [readEvents, Reader.read, hlines, hevents]
      rfl

/-- Where a fault stands that is found on a line: on that line, or above it
    where the tags are that wait. -/
theorem exists_place {state : State} {line : Line} {fault : Fault} (below : List Line)
    (hleads : Leads {} above state) (hblames : state.Blames line fault) :
    ∃ front place back rest, above ++ line :: below = front ++ place :: back ∧
      front.length ≤ above.length ∧ rest <:+ place.text ∧ fault.offset = place.offsetOf rest := by
  rcases hblames with ⟨-, ⟨rest, hrest, hoffset⟩ | ⟨group, hgroup, hoffset⟩⟩
  · exact ⟨above, line, below, rest, rfl, Nat.le_refl _, hrest, hoffset⟩
  · have hmem : ∃ place ∈ above, group.start = place.contentStart :=
      hleads.tags_start (P := fun start => ∃ place ∈ above, start = place.contentStart) (by simp)
        (fun place hplace => ⟨place, hplace, rfl⟩) group hgroup
    rcases hmem with ⟨place, hplace, hstart⟩
    rcases List.append_of_mem hplace with ⟨front, back, rfl⟩
    exact ⟨front, place, back ++ line :: below, place.content, by simp, by simp,
      place.content_suffix, hoffset.trans hstart⟩

/-- The lines above the place of a fault are ended, and there are no more of
    them than lines in front of a line that holds it. -/
theorem position_above (source : String) (fault : Fault) :
    ∃ k, (Refusal.ofFault source fault).position.line - 1 = k ∧
      (∀ line ∈ (Source.lines source).take k, line.ending ≠ .none) ∧
      ∀ front place back, Source.lines source = front ++ place :: back →
        fault.offset ≤ place.stop → k ≤ front.length := by
  rcases Source.locateIn_line (min fault.offset (Source.size source)) 1 (Source.lines source) with
    ⟨k, hline, hpassed⟩
  refine ⟨k, ?_, fun line hline => (hpassed line hline).1, fun front place back hlines hle => ?_⟩
  · simp only [Refusal.ofFault, locate, hline]
    omega
  · -- A line that was passed ends before the offset.
    by_contra hlt
    have hmem : place ∈ (Source.lines source).take k := by
      obtain ⟨m, rfl⟩ : ∃ m, k = front.length + (m + 1) := ⟨k - front.length - 1, by omega⟩
      simp [hlines, List.take_append]
    rcases hpassed place hmem with ⟨hended, hnext⟩
    have hpos := Source.Ending.width_pos hended
    rw [Line.next] at hnext
    omega

end Refusing

/-- Every document that is refused is refused at once. -/
theorem readEvents_failsFast {source : String} {refusal : Refusal}
    (h : readEvents source = .error refusal) : FailsFast source refusal := by
  rcases readEvents_eq_error h with ⟨fault, hrun, rfl⟩
  rcases position_above source fault with ⟨k, hk, hended, hbound⟩
  have hsplit := (List.take_append_drop k (Source.lines source)).symm
  rcases run_eq_error hrun with
    ⟨above, line, below, state, hlines, hleads, hstep⟩ | ⟨state, hleads, hfinish⟩
  · rcases exists_place below hleads (State.step_fails fault hstep) with
      ⟨front, place, back, rest, hplace, hlength, hrest, hoffset⟩
    rw [← hlines] at hplace
    refine ⟨?_, fun _ more => ?_⟩
    · -- The lines above the place were read before the line that is refused.
      have hstop : fault.offset ≤ place.stop := hoffset ▸ Nat.sub_le _ _
      have hle : k ≤ above.length := (hbound front place back hplace hstop).trans hlength
      have htake : (Source.lines source).take k = above.take k := by
        rw [hlines, List.take_append_of_le_length hle]
      rw [← List.take_append_drop k above, ← htake] at hleads
      rcases hleads.left with ⟨mid, hmid⟩
      rw [hk]
      exact viable_of_leads hsplit hmid hended
    · rcases Source.lines_extended hlines more with ⟨ending, later, hlater⟩
      have hrefused : run (Source.size (Source.terminated source ++ more)) {}
          (above ++ { line with ending := ending } :: later) = .error fault := by
        refine hleads.run_error ?_
        rw [run, State.step_ending, hstep]
        rfl
      rw [readEvents, Reader.read, hlater, hrefused,
        ← Refusal.ofFault_extended hplace hrest hoffset more]
      rfl
  · refine ⟨?_, fun hcause => ?_⟩
    · rw [hsplit] at hleads
      rcases hleads.left with ⟨mid, hmid⟩
      rw [hk]
      exact viable_of_leads hsplit hmid hended
    · have hend := State.finish_fails fault hfinish
      exact absurd (hend.symm.trans hcause) (by simp)

/-- A document with tags above its examples. -/
def taggedExamplesSample : String :=
  "Feature: f\nScenario Outline:\nGiven x\n\n  @é\n# c\n\tExamples:\n| a |"

/-- The sample is refused at its tags, above the line that rules it out. -/
theorem readEvents_failsFast_sample : ∃ refusal, readEvents taggedExamplesSample = .error refusal ∧
    FailsFast taggedExamplesSample refusal ∧
    refusal = ⟨.taggedExamples, 40, ⟨5, 3⟩, "@é"⟩ := by
  have hread : readEvents taggedExamplesSample =
      .error ⟨.taggedExamples, 40, ⟨5, 3⟩, "@é"⟩ := by decide +kernel
  exact ⟨_, hread, readEvents_failsFast hread, rfl⟩

end Gherkin
