import Gherkin.Proofs.Reader.Classes
import Gherkin.Proofs.Reader.Gist

/-!
# The Reader and Its Gist

The reader without places agrees with the reader. Both take a line, and both
either refuse it or yield events and a state; the events of the gist are those
of the reader less their spans, and so are the states. `State.step_gist` says
this of every line in every state, so whatever is shown of the gist holds of
the events of the reader.

The reader decides by place and class together, the gist by item. The proofs
go along the reader: one lemma for each of its functions, and the dispatch on
the class of the line last.

## Main definitions

* `State.gist`: The gist of a state.
* `Outcome.gist`: The gist of what a line does.

## Theorems

* `State.step_gist`: The reader and its gist agree on every line.
* `State.finish_gist`: They agree on the end of the document.
* `run_gist`, `readEvents_gist`: They agree on documents.
-/

namespace Gherkin

namespace Reader

/-- The gist of an opening. -/
def Opening.gist (opening : Opening) : Gist.Opening where
  title := opening.title
  tags := opening.tags
  remarks := opening.remarks.map Event.kind
  description := opening.description
  side := opening.side.map Event.kind
  pending := opening.pending.map Event.kind

/-- The gist of a phase. -/
def Phase.gist : Phase → Gist.Phase
  | .preamble => .preamble
  | .opening heading => .opening heading.gist
  | .body => .body
  | .block kind place => .block kind place

/-- The gist of a state. -/
def State.gist (state : State) : Gist where
  phase := state.phase.gist
  trivia := state.trivia.map Event.kind
  tags := state.tags.map TagGroup.names
  hasBackground := state.hasBackground
  hasScenario := state.hasScenario

/-- The gist of what a line does. -/
def Outcome.gist (outcome : Outcome) : Option (List EventKind × Gist) :=
  outcome.toOption.map fun out => (out.1.map Event.kind, out.2.gist)

open Source (Line)

@[simp] theorem Outcome.gist_ok (events : List Event) (state : State) :
    Outcome.gist (.ok (events, state)) = some (events.map Event.kind, state.gist) := rfl

@[simp] theorem Outcome.gist_error (fault : Fault) :
    Outcome.gist (.error fault) = none := rfl

@[simp] theorem Outcome.gist_refuse (line : Line) (cause : Cause) :
    Outcome.gist (line.refuse cause) = none := rfl

/-- A scan that fails ends the line; one that succeeds passes its result on,
    and the offset of a failure is no part of the gist. -/
@[simp] theorem Outcome.gist_scan_bind {α : Type} (line : Line) (result : Except Stop α)
    (f : α → Outcome) :
    Outcome.gist (line.scan result >>= f) = result.toOption.bind fun a => (f a).gist := by
  cases result with
  | error stop => rfl
  | ok a => rfl

/-- What goes before the events of a line goes before those of its gist. -/
@[simp] theorem Outcome.gist_bind_append (outcome : Outcome) (events : List Event) :
    Outcome.gist (outcome >>= fun out => .ok (events ++ out.1, out.2)) =
      outcome.gist.map fun out => (events.map Event.kind ++ out.1, out.2) := by
  cases outcome with
  | error fault => rfl
  | ok out => simp [Outcome.gist, bind, Except.bind, Except.toOption]

@[simp] theorem inlineEvents_kinds (line : Line) (remark : Option Remark) :
    (line.inlineEvents remark).map Event.kind = inlineKinds (remark.map Remark.comment) := by
  cases remark with
  | none => rfl
  | some r => rfl

@[simp] theorem sideEvents_kinds (line : Line) (remark : Option Remark) :
    (line.sideEvents remark).map Event.kind = sideKinds (remark.map Remark.comment) := by
  cases remark with
  | none => rfl
  | some r => rfl

@[simp] theorem State.gist_tagNames (state : State) : state.gist.tagNames = state.tagNames := by
  unfold State.gist Gist.tagNames State.tagNames
  cases state.tags with
  | none => rfl
  | some group => rfl

theorem State.gist_addTags (state : State) (offset : Nat) (names : List String) :
    (state.addTags offset names).gist = state.gist.addTags names := by
  unfold State.addTags Gist.addTags
  rw [State.gist_tagNames]
  unfold State.gist State.tagNames
  cases state.tags with
  | none => rfl
  | some group => rfl

theorem State.gist_announce (state : State) (opening : Opening) :
    ((state.announce opening).1.map Event.kind, (state.announce opening).2.gist) =
      state.gist.announce opening.gist := by
  simp [State.announce, Gist.announce, State.gist, Phase.gist, Opening.gist, Opening.event]

theorem State.gist_leave (state : State) (kind : BlockKind) (place : Place)
    (h : state.phase = .block kind place) :
    ((state.leave kind place).1.map Event.kind, (state.leave kind place).2.gist) =
      state.gist.leave := by
  simp [State.leave, Gist.leave, State.gist, Phase.gist, h, State.closing, Function.comp_def]

theorem State.gist_hold (state : State) (events : List Event)
    (h : ∀ opening, state.phase ≠ .opening opening) :
    (state.hold events).gist = state.gist.hold (events.map Event.kind) := by
  unfold State.hold Gist.hold State.gist
  cases hp : state.phase with
  | opening o => exact absurd hp (h o)
  | preamble => simp [Phase.gist]
  | body => simp [Phase.gist]
  | block kind place => simp [Phase.gist]

/-- The scan of a comment line yields its comment. -/
theorem scanEnd_of_comment {text : List Char} (h : classify text = .comment) :
    ∃ remark, scanEnd text = .ok (some remark) := by
  rcases begins_of_class h with ⟨rest, hrest⟩
  rw [scanEnd, hrest]
  exact ⟨_, rfl⟩

/-- A line is refused where nothing of its class can be taken. -/
theorem Gist.refuses {g : Gist} {text : List Char} {cls : LineClass} (hc : classify text = cls)
    (h : ∀ item kinds next, g.Takes item kinds next → cls ≠ item.lineClass) :
    (Item.structural? text).bind g.take = none := by
  cases hitem : Item.structural? text with
  | none => rfl
  | some item =>
      have hcls := Item.lineClass_structural? hitem
      cases ht : g.take item with
      | none => exact ht
      | some out => exact absurd (hc.symm.trans hcls) (h item out.1 out.2 (takes_of_take ht))

theorem State.readComment_gist (state : State) (line : Line)
    (h : ∀ opening, state.phase ≠ .opening opening) (hc : classify line.text = .comment) :
    (state.readComment line).gist = (Item.structural? line.text).bind state.gist.take := by
  rcases scanEnd_of_comment hc with ⟨remark, hr⟩
  simp only [State.readComment, Item.structural?, hc, ending?, hr]
  simp [State.gist_hold state _ h, Except.toOption, Gist.take, sideKinds]

theorem State.readTags_gist (state : State) (line : Line)
    (h : ∀ opening, state.phase ≠ .opening opening) :
    (state.readTags line).gist = (scanTags line.text).toOption.map fun (names, remark) =>
      ([], (state.gist.addTags names).hold (sideKinds (remark.map Remark.comment))) := by
  simp only [State.readTags, Outcome.gist_scan_bind]
  cases scanTags line.text with
  | error stop => rfl
  | ok out =>
      have hadd : ∀ opening, (state.addTags line.contentStart out.1).phase ≠ .opening opening := h
      simp [Except.toOption, State.gist_hold _ _ hadd, State.gist_addTags]

/-- Tags where nothing is open. -/
theorem State.readTags_settled_gist (state : State) (line : Line)
    (h : ∀ opening, state.phase ≠ .opening opening)
    (hset : state.gist.settle = ([], state.gist)) (hc : classify line.text = .tags)
    (hread : state.readLine line = state.readTags line) :
    (state.readLine line).gist = (Item.structural? line.text).bind state.gist.take := by
  rw [hread, State.readTags_gist state line h]
  simp only [Item.structural?, hc]
  cases scanTags line.text with
  | error stop => rfl
  | ok out => simp [Except.toOption, Gist.take, hset]

/-- Trivia outside of the description and of doc strings. -/
theorem State.readLine_trivia_gist (state : State) (line : Line)
    (h : ∀ opening, state.phase ≠ .opening opening)
    (hc : classify line.text = .blank ∨ classify line.text = .comment) :
    (state.readLine line).gist = (Item.structural? line.text).bind state.gist.take := by
  rcases hc with hc | hc
  · simp [State.readLine, hc, Item.structural?, Gist.take, State.gist_hold _ _ h,
      Source.Line.blankEvent]
  · simp only [State.readLine, hc]
    exact State.readComment_gist state line h hc

theorem State.readFeature_gist (state : State) (line : Line)
    (h : state.phase = .preamble) (hc : classify line.text = .heading .feature) :
    (state.readFeature line).gist = (Item.structural? line.text).bind state.gist.take := by
  have hp : state.gist.phase = .preamble := by simp only [State.gist, h, Phase.gist]
  simp only [State.readFeature, Item.structural?, hc, phrase?, ending?, Outcome.gist_scan_bind,
    Source.Line.afterKeyword, Source.Line.content]
  cases scanText false (Text.skipBlanks ((Text.skipBlanks line.text).drop
      Heading.feature.text.length)) with
  | error stop => rfl
  | ok out =>
      rcases out with ⟨title, rest⟩
      cases hrest : scanEnd rest with
      | error stop => cases title <;> simp [hrest, Except.toOption]
      | ok remark =>
          -- Both refuse a feature without a title, once its line has been scanned.
          cases title with
          | nil => simp [Except.toOption, hrest]
          | cons c cs =>
              simp [Except.toOption, hrest, Gist.take, hp]
              simp [State.gist, Phase.gist, Opening.gist]

/-- The state behind a line that opens a part of a block. -/
theorem State.gist_opened (state : State) (line : Line) (kind : BlockKind) (place : Place) :
    (state.opened line (.block kind place)).gist = state.gist.opened kind place := by
  simp [State.opened, State.gist, Gist.opened, Phase.gist]

theorem State.readBlock_gist (state : State) (line : Line) (kind : BlockKind) :
    (state.readBlock line kind).gist =
      (phrase? (line.afterKeyword (Heading.block kind).text)).map fun (title, comment) =>
        (state.gist.trivia ++
            .block kind (String.ofList title) state.gist.tagNames :: inlineKinds comment,
          { phase := .block kind (.between .steps)
            hasBackground := state.gist.hasBackground || kind == .background
            hasScenario := state.gist.hasScenario || kind != .background }) := by
  simp only [State.readBlock, phrase?, ending?, Outcome.gist_scan_bind]
  cases scanText false (line.afterKeyword (Heading.block kind).text) with
  | error stop => rfl
  | ok out =>
      rcases out with ⟨title, rest⟩
      cases hrest : scanEnd rest with
      | error stop => simp [hrest, Except.toOption]
      | ok remark =>
          simp [hrest, Except.toOption]
          simp [State.gist, State.opened, Phase.gist]

theorem State.readStep_gist (state : State) (line : Line) (kind : BlockKind)
    (keyword : StepKeyword) :
    (state.readStep line kind keyword).gist =
      (phrase? (line.afterKeyword keyword.text)).bind fun (text, comment) =>
        if text.isEmpty then none
        else some (state.gist.trivia ++
            .step keyword (String.ofList text) state.gist.tagNames :: inlineKinds comment,
          state.gist.opened kind (.argument .step)) := by
  simp only [State.readStep, phrase?, ending?, Outcome.gist_scan_bind]
  cases scanText false (line.afterKeyword keyword.text) with
  | error stop => rfl
  | ok out =>
      rcases out with ⟨text, rest⟩
      cases hrest : scanEnd rest with
      | error stop => cases text <;> simp [hrest, Except.toOption]
      | ok remark =>
          cases text with
          | nil => simp [Except.toOption, hrest]
          | cons c cs =>
              simp [Except.toOption, hrest, State.gist_opened]
              simp [State.gist]

theorem State.readExamples_gist (state : State) (line : Line) (kind : BlockKind) :
    (state.readExamples line kind).gist =
      if kind = .outline ∧ state.gist.tags = none then
        (ending? (line.content.drop Heading.examples.text.length)).map fun comment =>
          (state.gist.trivia ++ .examples :: inlineKinds comment,
            state.gist.opened kind (.argument .examples))
      else none := by
  unfold State.readExamples
  -- The reader looks at the block before it scans the line; the order is no part of the gist.
  by_cases hk : kind = .outline
  · subst hk
    cases htags : state.tags with
    | some group => simp [State.gist, htags]
    | none =>
        have hg : state.gist.tags = none := by simp only [State.gist, htags, Option.map_none]
        simp only [hg, ending?]
        cases scanEnd (line.content.drop Heading.examples.text.length) with
        | error stop => rfl
        | ok remark =>
            simp [Except.toOption, State.gist_opened]
            simp [State.gist]
  · simp [hk]

/-- A row, whether it is the first of its table or must match those before. -/
theorem State.readRow_gist (state : State) (line : Line) (kind : BlockKind) (owner : Owner)
    (columns : Option Nat) (hc : classify line.text = .row) :
    (state.readRow line kind owner columns).gist =
      (scanRowBody (line.content.drop 1)).toOption.bind fun (cells, remark) =>
        if ∀ n, columns = some n → cells.length = n then
          some (state.gist.trivia ++ (if columns = none then [.table] else []) ++
              rowKinds (cells.map fun cell => String.ofList cell.text)
                (remark.map Remark.comment),
            { state.gist with phase := .block kind (.table owner cells.length), trivia := [] })
        else none := by
  simp only [State.readRow, Outcome.gist_scan_bind, scanRow_of_class hc, Source.Line.content]
  cases scanRowBody ((Text.skipBlanks line.text).drop 1) with
  | error stop => rfl
  | ok out =>
      rcases out with ⟨cells, remark⟩
      have hcells : (cells.map line.cellEvent).map Event.kind =
          (cells.map fun cell => String.ofList cell.text).map EventKind.cell := by
        simp [Source.Line.cellEvent, Function.comp_def]
      -- The first row opens the table, a later one has to be as wide.
      cases columns with
      | none =>
          simp only [Except.toOption, Option.bind_some, Outcome.gist_ok]
          simp [rowKinds, hcells, State.gist, Phase.gist]
      | some n =>
          by_cases hn : cells.length = n
          · subst hn
            simp [Except.toOption, rowKinds, hcells, State.gist, Phase.gist]
          · simp [Except.toOption, hn]

theorem State.readFence_gist (state : State) (line : Line) (kind : BlockKind)
    (h : state.phase = .block kind (.argument .step)) (hc : classify line.text = .fence) :
    (state.readFence line kind).gist = (Item.structural? line.text).bind state.gist.take := by
  have hp : state.gist.phase = .block kind (.argument .step) := by
    simp only [State.gist, h, Phase.gist]
  simp only [State.readFence, Item.structural?, hc, ending?, scanEnd, Source.Line.content]
  -- What follows the fence must be nothing; a comment is only allowed behind the closing one.
  split
  · rename_i hnil
    simp [hnil, Except.toOption, Gist.take, hp]
    simp [State.gist, Phase.gist]
  · rename_i rest hrest
    split
    · exact absurd (by assumption) hrest
    · simp [Except.toOption, Gist.take, hp]
    · simp [Except.toOption]

theorem State.readDocLine_gist (state : State) (line : Line) (kind : BlockKind) (indent : Nat)
    (h : state.phase = .block kind (.docString indent)) :
    (state.readDocLine line kind indent).gist =
      (Item.read? (.verbatim indent) line.text).bind state.gist.take := by
  have hp : state.gist.phase = .block kind (.docString indent) := by
    simp only [State.gist, h, Phase.gist]
  by_cases hc : classify line.text = .fence
  · simp only [State.readDocLine, Item.read?, hc, Item.structural?, ending?,
      Outcome.gist_scan_bind, Source.Line.content]
    cases scanEnd ((Text.skipBlanks line.text).drop fence.length) with
    | error stop => rfl
    | ok remark =>
        simp [Except.toOption, Gist.take, hp, State.closing]
        simp [State.gist, Phase.gist]
  · have hread : Item.read? (.verbatim indent) line.text =
        some (.docLine (String.ofList (Text.stripIndent indent line.text))) := by
      unfold Item.read?
      split <;> simp_all
    rw [hread]
    unfold State.readDocLine
    split
    · exact absurd (by assumption) hc
    · simp [Gist.take, hp]
      simp [State.gist, h]

/-- Settled openings: trivia that turns out to stand inside the description is
    divided the way `Gist.Opening.addLine` divides it. -/
theorem Opening.gist_settle (opening : Opening) (text : String) (side : List Event)
    (comment : Option String) (hside : side.map Event.kind = sideKinds comment) :
    Opening.gist { opening.settle with
      description := opening.settle.description ++ [text]
      side := opening.settle.side ++ side } = opening.gist.addLine text comment := by
  unfold Opening.settle Gist.Opening.addLine
  -- Blank lines before the first line of text do not belong to the description.
  by_cases hd : opening.description.isEmpty
  · have hnil : opening.description = [] := List.isEmpty_iff.mp hd
    simp [Opening.gist, hnil, hside]
  · simp [Opening.gist, hd, hside, List.partition_eq_filter_filter, List.filter_map,
      Function.comp_def, bne]

theorem State.readDescription_gist (state : State) (line : Line) (opening : Opening)
    (h : state.phase = .opening opening) :
    (state.readDescription line opening).gist =
      (Item.prose? line.text).bind state.gist.take := by
  have hp : state.gist.phase = .opening opening.gist := by simp only [State.gist, h, Phase.gist]
  simp only [State.readDescription, Item.prose?, phrase?, ending?, Outcome.gist_scan_bind,
    Source.Line.content]
  cases scanText false (Text.skipBlanks line.text) with
  | error stop => rfl
  | ok out =>
      rcases out with ⟨text, rest⟩
      cases hrest : scanEnd rest with
      | error stop => simp [hrest, Except.toOption]
      | ok remark =>
          have hs := Opening.gist_settle opening (String.ofList text) (line.sideEvents remark)
            (remark.map Remark.comment) (sideEvents_kinds line remark)
          simp only [hrest, Except.toOption, Option.bind_some, Outcome.gist_ok, Option.map_some,
            List.map_nil, Gist.take, hp, Option.some.injEq, Prod.mk.injEq, true_and]
          simp only [State.gist, Phase.gist, hs]

/-- The heading of a block in the body of the feature. -/
theorem State.readBody_block_gist (state : State) (line : Line) (kind : BlockKind)
    (h : state.phase = .body) :
    (state.readBody line (.heading (.block kind))).gist =
      (phrase? (line.afterKeyword (Heading.block kind).text)).bind fun (title, comment) =>
        state.gist.openBlock kind (String.ofList title) comment := by
  have hp : state.gist.phase = .body := by simp only [State.gist, h, Phase.gist]
  have hb : state.gist.hasBackground = state.hasBackground := rfl
  have hs : state.gist.hasScenario = state.hasScenario := rfl
  -- Which headings are admitted depends on what came before, not on their titles.
  by_cases ha : state.gist.admits kind
  · have hread : state.readBody line (.heading (.block kind)) = state.readBlock line kind := by
      cases kind <;> simp_all [State.readBody, Gist.admits]
    rw [hread, State.readBlock_gist]
    cases phrase? (line.afterKeyword (Heading.block kind).text) with
    | none => rfl
    | some out => simp [Gist.openBlock, hp, ha]
  · have hread : (state.readBody line (.heading (.block kind))).gist = none := by
      cases kind <;> simp_all [State.readBody, Gist.admits]
      by_cases hbg : state.hasBackground <;> simp_all
    simp [hread, Gist.openBlock, ha]

/-- No other line can stand between two blocks. -/
theorem State.readBody_refused (state : State) (line : Line) (cls : LineClass)
    (h : ∀ kind, cls ≠ .heading (.block kind)) : (state.readBody line cls).gist = none := by
  unfold State.readBody
  split
  · exact absurd rfl (h _)
  · rfl
  · rfl
  · rfl

theorem State.leaveFor_gist (state : State) (line : Line) (kind : BlockKind) (place : Place)
    (cls : LineClass) (h : state.phase = .block kind place) :
    (state.leaveFor line kind place cls).gist =
      ((state.leave kind place).2.readBody line cls).gist.map fun out =>
        (state.gist.leave.1 ++ out.1, out.2) := by
  have hl := congrArg Prod.fst (State.gist_leave state kind place h)
  simp only at hl
  rw [← hl]
  exact Outcome.gist_bind_append _ _

theorem State.settleFor_gist (state : State) (kind : BlockKind) (place : Place)
    (read : State → Outcome) :
    (state.settleFor kind place read).gist =
      (read { state with phase := .block kind (.between place.stage) }).gist.map fun out =>
        (place.closers ++ out.1, out.2) := by
  have hk : (place.closers.map state.closing).map Event.kind = place.closers := by
    simp [State.closing, Function.comp_def]
  unfold State.settleFor
  rw [Outcome.gist_bind_append, hk]

/-- The heading of a block in another block: the open one is left first. -/
theorem State.leaveFor_block_gist (state : State) (line : Line) (kind next : BlockKind)
    (place : Place) (h : state.phase = .block kind place)
    (hc : classify line.text = .heading (.block next)) :
    (state.leaveFor line kind place (.heading (.block next))).gist =
      (Item.structural? line.text).bind state.gist.take := by
  have hl := congrArg Prod.snd (State.gist_leave state kind place h)
  simp only at hl
  rw [State.leaveFor_gist state line kind place _ h,
    State.readBody_block_gist (state.leave kind place).2 line next rfl, hl]
  simp only [Item.structural?, hc, Source.Line.afterKeyword, Source.Line.content]
  cases phrase? (Text.skipBlanks ((Text.skipBlanks line.text).drop
      (Heading.block next).text.length)) with
  | none => rfl
  | some out => rfl

/-- A line in a block before its examples that continues no argument. -/
theorem State.readInSteps_gist (state : State) (line : Line) (kind : BlockKind) (place : Place)
    (h : state.phase = .block kind place) (hst : place.stage = .steps)
    (hdoc : ∀ indent, place ≠ .docString indent)
    (hb : classify line.text ≠ .blank) (hcm : classify line.text ≠ .comment)
    (ht : classify line.text ≠ .tags)
    (hrow : classify line.text = .row → ∃ stage, place = .between stage)
    (hfence : classify line.text = .fence → place ≠ .argument .step) :
    (state.readInSteps line kind place (classify line.text)).gist =
      (Item.structural? line.text).bind state.gist.take := by
  have hp : state.gist.phase = .block kind place := by simp only [State.gist, h, Phase.gist]
  cases hc : classify line.text with
  | blank => exact absurd hc hb
  | comment => exact absurd hc hcm
  | tags => exact absurd hc ht
  | text => simp [State.readInSteps, Item.structural?, hc]
  | fence =>
      -- A fence only opens a doc string right behind its step.
      refine (Gist.refuses hc ?_).symm
      intro item kinds next htaken
      cases htaken with
      | openFence indent other hother =>
          rw [hp] at hother
          exact absurd (Gist.Phase.block.inj hother).2 (hfence hc)
      | closeFence indent remark other opened hother =>
          rw [hp] at hother
          exact absurd (Gist.Phase.block.inj hother).2 (hdoc opened)
      | _ => simp [Item.lineClass]
  | row =>
      -- The rows of a table are read elsewhere; this one has no owner.
      rcases hrow hc with ⟨stage, rfl⟩
      refine (Gist.refuses hc ?_).symm
      intro item kinds next htaken
      cases htaken <;> simp_all [Item.lineClass]
  -- The open step is closed first, and this one opens in the block that is left.
  | step keyword =>
      simp only [State.readInSteps, Item.structural?, hc, State.settleFor_gist,
        State.readStep_gist, Source.Line.afterKeyword, Source.Line.content]
      cases phrase? (Text.skipBlanks ((Text.skipBlanks line.text).drop keyword.text.length)) with
      | none => rfl
      | some out =>
          cases hw : out.1 with
          | nil => simp [hw]
          | cons c cs =>
              simp [hw, Gist.take, hp, hst, -State.gist_tagNames]
              exact ⟨rfl, rfl⟩
  | heading heading =>
      cases heading with
      | feature =>
          refine (Gist.refuses hc ?_).symm
          intro item kinds next htaken
          cases htaken <;> simp_all [Item.lineClass]
      | block next => exact State.leaveFor_block_gist state line kind next place h hc
      -- Examples close the last step, but only an outline has them and only without tags.
      | examples =>
          simp only [State.readInSteps, Item.structural?, hc, State.settleFor_gist,
            State.readExamples_gist, Source.Line.content]
          cases ending? ((Text.skipBlanks line.text).drop Heading.examples.text.length) with
          | none => simp
          | some comment =>
              have hgt : ({ state with phase := .block kind (.between place.stage) } :
                  State).gist.tags = state.gist.tags := rfl
              rw [hgt]
              cases kind with
              | background => simp [Gist.take, hp]
              | scenario => simp [Gist.take, hp]
              | outline =>
                  by_cases hg : state.gist.tags = none
                  · simp [Gist.take, hp, hst, hg]
                    exact ⟨rfl, rfl⟩
                  · simp [Gist.take, hp, hst, hg]

/-- A line behind the examples of a block that does not belong to them. -/
theorem State.readAfterExamples_gist (state : State) (line : Line) (kind : BlockKind)
    (place : Place) (h : state.phase = .block kind place) (hst : place.stage = .closed)
    (hb : classify line.text ≠ .blank) (hcm : classify line.text ≠ .comment)
    (ht : classify line.text ≠ .tags)
    (hrow : classify line.text = .row → ∃ stage, place = .between stage) :
    (state.readAfterExamples line kind place (classify line.text)).gist =
      (Item.structural? line.text).bind state.gist.take := by
  have hp : state.gist.phase = .block kind place := by simp only [State.gist, h, Phase.gist]
  -- The reader leaves the block and lets its body decide; both refuse all but headings.
  have hleave : ∀ cls, (∀ next, cls ≠ .heading (.block next)) →
      (state.leaveFor line kind place cls).gist = none := by
    intro cls hcls
    rw [State.leaveFor_gist state line kind place cls h, State.readBody_refused _ line cls hcls]
    rfl
  cases hc : classify line.text with
  | blank => exact absurd hc hb
  | comment => exact absurd hc hcm
  | tags => exact absurd hc ht
  | text => simp [State.readAfterExamples, Item.structural?, hc, hleave]
  | fence =>
      -- A step and its doc string come before the examples.
      refine (hleave _ (by simp)).trans (Gist.refuses hc ?_).symm
      intro item kinds next htaken
      cases htaken with
      | openFence indent other hother =>
          rw [hp] at hother
          rw [(Gist.Phase.block.inj hother).2] at hst
          exact absurd hst (by decide)
      | closeFence indent remark other opened hother =>
          rw [hp] at hother
          rw [(Gist.Phase.block.inj hother).2] at hst
          exact absurd hst (by simp [Place.stage])
      | _ => simp [Item.lineClass]
  | row =>
      rcases hrow hc with ⟨stage, rfl⟩
      refine (hleave _ (by simp)).trans (Gist.refuses hc ?_).symm
      intro item kinds next htaken
      cases htaken <;> simp_all [Item.lineClass]
  | step keyword =>
      refine (Gist.refuses hc ?_).symm
      intro item kinds next htaken
      cases htaken <;> simp_all [Item.lineClass]
  | heading heading =>
      cases heading with
      | feature =>
          refine (hleave _ (by simp)).trans (Gist.refuses hc ?_).symm
          intro item kinds next htaken
          cases htaken <;> simp_all [Item.lineClass]
      | block next => exact State.leaveFor_block_gist state line kind next place h hc
      | examples =>
          -- A block has its examples once.
          refine (Gist.refuses hc ?_).symm
          intro item kinds next htaken
          cases htaken <;> simp_all [Item.lineClass]

/-- A line in a block that continues no argument. -/
theorem State.readInBlock_gist (state : State) (line : Line) (kind : BlockKind) (place : Place)
    (h : state.phase = .block kind place) (hdoc : ∀ indent, place ≠ .docString indent)
    (hb : classify line.text ≠ .blank) (hcm : classify line.text ≠ .comment)
    (ht : classify line.text ≠ .tags)
    (hrow : classify line.text = .row → ∃ stage, place = .between stage)
    (hfence : classify line.text = .fence → place ≠ .argument .step) :
    (state.readInBlock line kind place (classify line.text)).gist =
      (Item.structural? line.text).bind state.gist.take := by
  unfold State.readInBlock
  cases hst : place.stage with
  | steps =>
      exact State.readInSteps_gist state line kind place h hst hdoc hb hcm ht hrow hfence
  | closed => exact State.readAfterExamples_gist state line kind place h hst hb hcm ht hrow

/-- A line in a block, outside of doc strings. -/
theorem State.readLine_block_gist (state : State) (line : Line) (kind : BlockKind)
    (place : Place) (h : state.phase = .block kind place)
    (hdoc : ∀ indent, place ≠ .docString indent) :
    (state.readLine line).gist = (Item.structural? line.text).bind state.gist.take := by
  have hp : state.gist.phase = .block kind place := by simp only [State.gist, h, Phase.gist]
  have hno : ∀ opening, state.phase ≠ .opening opening := by
    intro opening heq
    rw [h] at heq
    exact absurd heq (by simp only [reduceCtorEq, not_false_eq_true])
  have hin := State.readInBlock_gist state line kind place h hdoc
  cases hc : classify line.text with
  | blank => exact State.readLine_trivia_gist state line hno (Or.inl hc)
  | comment => exact State.readLine_trivia_gist state line hno (Or.inr hc)
  -- Tags end what is open in the block, and wait in what is left of it.
  | tags =>
      have hset : state.gist.settle = (place.closers,
          { state.gist with phase := .block kind (.between place.stage) }) := by
        simp only [Gist.settle, hp]
      have htags := State.readTags_gist
        { state with phase := .block kind (.between place.stage) } line (by simp)
      simp only [State.readLine, hc, h, State.settleFor_gist, htags, Item.structural?]
      cases scanTags line.text with
      | error stop => rfl
      | ok out =>
          simp only [Except.toOption, Gist.take, hset, Option.map_some, Option.bind_some,
            List.append_nil]
          rfl
  -- Rows and fences are the lines that continue an argument.
  | row =>
      rw [hc] at hin
      cases place with
      | between stage =>
          simpa [State.readLine, hc, h] using hin
      | docString indent => exact absurd rfl (hdoc indent)
      | argument owner =>
          simp only [State.readLine, hc, h, State.readRow_gist _ _ _ _ _ hc,
            Item.structural?, Source.Line.content]
          cases scanRowBody ((Text.skipBlanks line.text).drop 1) with
          | error stop => rfl
          | ok out => simp [Except.toOption, Gist.take, hp]
      | table owner columns =>
          simp only [State.readLine, hc, h, State.readRow_gist _ _ _ _ _ hc,
            Item.structural?, Source.Line.content]
          cases scanRowBody ((Text.skipBlanks line.text).drop 1) with
          | error stop => rfl
          | ok out => simp [Except.toOption, Gist.take, hp]
  | fence =>
      rw [hc] at hin
      cases place with
      | between stage => simpa [State.readLine, hc, h] using hin
      | docString indent => exact absurd rfl (hdoc indent)
      | table owner columns => simpa [State.readLine, hc, h] using hin
      | argument owner =>
          cases owner with
          | step =>
              simp only [State.readLine, hc, h]
              exact State.readFence_gist state line kind h hc
          | examples => simpa [State.readLine, hc, h] using hin
  | text => rw [hc] at hin; simpa [State.readLine, hc, h] using hin
  | step keyword => rw [hc] at hin; simpa [State.readLine, hc, h] using hin
  | heading heading => rw [hc] at hin; simpa [State.readLine, hc, h] using hin

/-- A line in the body of the feature, outside of blocks. -/
theorem State.readLine_body_gist (state : State) (line : Line) (h : state.phase = .body) :
    (state.readLine line).gist = (Item.structural? line.text).bind state.gist.take := by
  have hp : state.gist.phase = .body := by simp only [State.gist, h, Phase.gist]
  have hno : ∀ opening, state.phase ≠ .opening opening := by simp [h]
  have hl : state.gist.leave = ([], state.gist) := by simp only [Gist.leave, hp]
  have hset : state.gist.settle = ([], state.gist) := by simp only [Gist.settle, hp]
  -- What belongs in a block is refused outside of one.
  have hrefused : ∀ cls, classify line.text = cls → cls ∉ [.blank, .comment, .tags] →
      (∀ kind, cls ≠ .heading (.block kind)) →
      (Item.structural? line.text).bind state.gist.take = none := by
    intro cls hc hheld hblock
    refine Gist.refuses hc ?_
    intro item kinds next htaken
    cases htaken <;> simp_all [Item.lineClass]
  cases hc : classify line.text with
  | blank => exact State.readLine_trivia_gist state line hno (Or.inl hc)
  | comment => exact State.readLine_trivia_gist state line hno (Or.inr hc)
  | tags =>
      have hread : state.readLine line = state.readTags line := by simp [State.readLine, hc, h]
      exact State.readTags_settled_gist state line hno hset hc hread
  | text => simp [State.readLine, hc, h, Item.structural?, State.readBody]
  | fence => simp [State.readLine, hc, h, State.readBody, hrefused]
  | row => simp [State.readLine, hc, h, State.readBody, hrefused]
  | step keyword => simp [State.readLine, hc, h, State.readBody, hrefused]
  | heading heading =>
      cases heading with
      | feature => simp [State.readLine, hc, h, State.readBody, hrefused]
      | examples => simp [State.readLine, hc, h, State.readBody, hrefused]
      -- Nothing is open, so leaving it yields no events.
      | block kind =>
          simp only [State.readLine, hc, h, State.readBody_block_gist state line kind h,
            Item.structural?, Source.Line.afterKeyword, Source.Line.content]
          cases phrase? (Text.skipBlanks ((Text.skipBlanks line.text).drop
              (Heading.block kind).text.length)) with
          | none => rfl
          | some out => simp [Gist.take, hl]

/-- A line before the feature. -/
theorem State.readLine_preamble_gist (state : State) (line : Line)
    (h : state.phase = .preamble) :
    (state.readLine line).gist = (Item.structural? line.text).bind state.gist.take := by
  have hp : state.gist.phase = .preamble := by simp only [State.gist, h, Phase.gist]
  have hno : ∀ opening, state.phase ≠ .opening opening := by simp [h]
  have hl : state.gist.leave = ([], state.gist) := by simp only [Gist.leave, hp]
  have hset : state.gist.settle = ([], state.gist) := by simp only [Gist.settle, hp]
  -- Only tags and trivia may stand before the feature.
  have hrefused : ∀ cls, classify line.text = cls →
      cls ∉ [.blank, .comment, .tags, .heading .feature] →
      (Item.structural? line.text).bind state.gist.take = none := by
    intro cls hc hheld
    refine Gist.refuses hc ?_
    intro item kinds next htaken
    cases htaken <;> simp_all [Item.lineClass, Gist.openBlock]
  cases hc : classify line.text with
  | blank => exact State.readLine_trivia_gist state line hno (Or.inl hc)
  | comment => exact State.readLine_trivia_gist state line hno (Or.inr hc)
  | tags =>
      have hread : state.readLine line = state.readTags line := by simp [State.readLine, hc, h]
      exact State.readTags_settled_gist state line hno hset hc hread
  | text => simp [State.readLine, hc, h, hrefused]
  | fence => simp [State.readLine, hc, h, hrefused]
  | row => simp [State.readLine, hc, h, hrefused]
  | step keyword => simp [State.readLine, hc, h, hrefused]
  | heading heading =>
      cases heading with
      | feature =>
          simp only [State.readLine, hc, h]
          exact State.readFeature_gist state line h hc
      | examples => simp [State.readLine, hc, h, hrefused]
      | block kind => simp [State.readLine, hc, h, hrefused]

/-- A line that ends the description is a line of the body that follows. -/
theorem Gist.take_announce (g : Gist) (opening : Gist.Opening) (item : Item)
    (h : g.phase = .opening opening)
    (hitem : (∃ names comment, item = .tags names comment) ∨
      ∃ kind title comment, item = .block kind title comment) :
    g.take item = ((g.announce opening).2.take item).map fun out =>
      ((g.announce opening).1 ++ out.1, out.2) := by
  -- The feature is announced by the line that ends the description, and only once.
  have hset : g.settle = g.announce opening := by simp only [Gist.settle, h]
  have hl : g.leave = g.announce opening := by simp only [Gist.leave, h]
  have hset' : (g.announce opening).2.settle = ([], (g.announce opening).2) := rfl
  have hl' : (g.announce opening).2.leave = ([], (g.announce opening).2) := rfl
  rcases hitem with ⟨names, comment, rfl⟩ | ⟨kind, title, comment, rfl⟩
  · simp [Gist.take, hset, hset']
  · simp [Gist.take, hl, hl']

theorem State.readOpening_gist (state : State) (line : Line) (opening : Opening)
    (h : state.phase = .opening opening) :
    (state.readOpening line opening).gist =
      (Item.read? .descriptive line.text).bind state.gist.take := by
  have hp : state.gist.phase = .opening opening.gist := by simp only [State.gist, h, Phase.gist]
  have hann := State.gist_announce state opening
  have hbody := State.readLine_body_gist (state.announce opening).2 line rfl
  have hann1 := congrArg Prod.fst hann
  have hann2 := congrArg Prod.snd hann
  simp only at hann1 hann2
  cases hc : classify line.text with
  | blank =>
      simp only [State.readOpening, Item.read?, hc, Item.structural?, Outcome.gist_ok,
        Option.bind_some, Gist.take, Gist.hold, hp]
      simp [State.gist, Phase.gist, Opening.gist, Source.Line.blankEvent]
  | comment =>
      rcases scanEnd_of_comment hc with ⟨remark, hr⟩
      simp only [State.readOpening, Item.read?, hc, Item.structural?, ending?, hr,
        Outcome.gist_scan_bind, Except.toOption, Option.bind_some, Option.map_some, Gist.take,
        Gist.hold, hp, Outcome.gist_ok]
      simp [State.gist, Phase.gist, Opening.gist, sideKinds]
  -- The description ends, and the line is read again as one of the body.
  | tags =>
      simp only [State.readOpening, Item.read?, hc]
      rw [Outcome.gist_bind_append, hbody, hann1, hann2]
      simp only [Item.structural?, hc]
      cases scanTags line.text with
      | error stop => rfl
      | ok out =>
          simp only [Except.toOption, Option.map_some, Option.bind_some]
          rw [Gist.take_announce _ _ _ hp (Or.inl ⟨_, _, rfl⟩)]
  | text =>
      simp only [State.readOpening, Item.read?, hc]
      exact State.readDescription_gist state line opening h
  | fence =>
      simp only [State.readOpening, Item.read?, hc]
      exact State.readDescription_gist state line opening h
  | row =>
      simp only [State.readOpening, Item.read?, hc]
      exact State.readDescription_gist state line opening h
  | step keyword =>
      simp only [State.readOpening, Item.read?, hc]
      exact State.readDescription_gist state line opening h
  | heading heading =>
      cases heading with
      | feature =>
          simp only [State.readOpening, Item.read?, hc]
          exact State.readDescription_gist state line opening h
      | examples =>
          simp only [State.readOpening, Item.read?, hc]
          exact State.readDescription_gist state line opening h
      | block kind =>
          simp only [State.readOpening, Item.read?, hc]
          rw [Outcome.gist_bind_append, hbody, hann1, hann2]
          simp only [Item.structural?, hc]
          cases phrase? (Text.skipBlanks ((Text.skipBlanks line.text).drop
              (Heading.block kind).text.length)) with
          | none => rfl
          | some out =>
              simp only [Option.map_some, Option.bind_some]
              rw [Gist.take_announce _ _ _ hp (Or.inr ⟨_, _, _, rfl⟩)]

/-- The reader and its gist agree on every line in every state. -/
theorem State.step_gist (state : State) (line : Line) :
    (state.step line).gist = state.gist.step line.text := by
  have hg : state.gist.phase = state.phase.gist := rfl
  unfold State.step Gist.step Gist.mode
  rw [hg]
  cases h : state.phase with
  | preamble => exact State.readLine_preamble_gist state line h
  | body => exact State.readLine_body_gist state line h
  | opening o => exact State.readOpening_gist state line o h
  | block kind place =>
      cases place with
      | docString indent => exact State.readDocLine_gist state line kind indent h
      | between stage => exact State.readLine_block_gist state line kind _ h (by simp)
      | argument owner => exact State.readLine_block_gist state line kind _ h (by simp)
      | table owner columns => exact State.readLine_block_gist state line kind _ h (by simp)

/-- The end of the document between two blocks. -/
theorem State.finishBody_gist (state : State) (stop : Nat) :
    (state.finishBody stop).toOption.map (List.map Event.kind) =
      if state.gist.tags = none then some (state.gist.trivia ++ [.featureEnd]) else none := by
  unfold State.finishBody
  cases htags : state.tags with
  | none => simp [State.gist, htags, Except.toOption, State.closing]
  | some group => simp [State.gist, htags, Except.toOption]

/-- The end of the document behind events that are still to come. -/
theorem State.finishBody_append_gist (state : State) (events : List Event) (stop : Nat) :
    ((state.finishBody stop) >>= fun more =>
        (Except.ok (events ++ more) : Except Fault (List Event))).toOption.map
          (List.map Event.kind) =
      if state.gist.tags = none then
        some (events.map Event.kind ++ state.gist.trivia ++ [.featureEnd])
      else none := by
  have hbody := State.finishBody_gist state stop
  cases hf : state.finishBody stop with
  | error fault =>
      rw [hf] at hbody
      by_cases ht : state.gist.tags = none
      · simp [ht, Except.toOption] at hbody
      · simp [ht, bind, Except.bind, Except.toOption]
  | ok more =>
      rw [hf] at hbody
      by_cases ht : state.gist.tags = none
      · simp only [Except.toOption, Option.map_some, ht, if_true, Option.some.injEq] at hbody
        simp [ht, bind, Except.bind, Except.toOption, hbody]
      · simp [ht, Except.toOption] at hbody

/-- The reader and its gist agree on the end of the document. -/
theorem State.finish_gist (state : State) (stop : Nat) :
    (state.finish stop).toOption.map (List.map Event.kind) = state.gist.finish := by
  have hg : state.gist.phase = state.phase.gist := rfl
  unfold State.finish Gist.finish
  rw [hg]
  cases h : state.phase with
  | preamble =>
      cases htags : state.tags with
      | none => simp [State.gist, htags, Except.toOption, Phase.gist]
      | some group => simp [State.gist, htags, Except.toOption, Phase.gist]
  | body =>
      have hl : state.gist.leave = ([], state.gist) := by
        simp only [Gist.leave, hg, h, Phase.gist]
      simp only [State.finishBody_gist, Phase.gist, hl, List.nil_append]
  | opening o =>
      have hp : state.gist.phase = .opening o.gist := by rw [hg, h, Phase.gist]
      have hl : state.gist.leave = state.gist.announce o.gist := by simp only [Gist.leave, hp]
      have hann := State.gist_announce state o
      have htags : (state.announce o).2.gist.tags = state.gist.tags := rfl
      simp only [State.finishBody_append_gist, Phase.gist, hl, ← hann, htags]
  | block kind place =>
      have hp : state.gist.phase = .block kind place := by rw [hg, h, Phase.gist]
      have hl := State.gist_leave state kind place h
      have htags : (state.leave kind place).2.gist.tags = state.gist.tags := rfl
      cases place with
      -- A doc string that is still open is a fault at the end.
      | docString indent => rfl
      | between stage =>
          simp only [State.finishBody_append_gist, Phase.gist, ← hl, htags]
      | argument owner =>
          simp only [State.finishBody_append_gist, Phase.gist, ← hl, htags]
      | table owner columns =>
          simp only [State.finishBody_append_gist, Phase.gist, ← hl, htags]

/-- The reader and its gist agree on the rest of a document, by induction on
    its lines. -/
theorem run_gist (stop : Nat) (state : State) (lines : List Line) :
    (run stop state lines).toOption.map (List.map Event.kind) =
      state.gist.run (lines.map Line.text) := by
  induction lines generalizing state with
  | nil => exact State.finish_gist state stop
  | cons line rest ih =>
      have hstep := State.step_gist state line
      simp only [run, Gist.run, List.map_cons, ← hstep]
      cases hs : state.step line with
      | error fault => rfl
      | ok out =>
          rcases out with ⟨events, next⟩
          have hnext := ih next
          simp only [Outcome.gist_ok, Option.bind_some, ← hnext]
          cases hr : run stop next rest with
          | error fault => simp [hr, bind, Except.bind, Except.toOption]
          | ok more => simp [hr, bind, Except.bind, Except.toOption]

/-- The kinds of a document's events are those its gist yields, and it is
    refused exactly when its gist is. -/
theorem readEvents_gist (source : String) :
    (readEvents source).toOption.map (List.map Event.kind) =
      Gist.run {} ((Source.lines source).map Line.text) := by
  have h := run_gist (Source.size source) {} (Source.lines source)
  have hinit : ({} : State).gist = {} := rfl
  rw [← hinit, ← h]
  unfold readEvents read
  cases run (Source.size source) {} (Source.lines source) with
  | error fault => rfl
  | ok events => rfl

end Reader

end Gherkin
