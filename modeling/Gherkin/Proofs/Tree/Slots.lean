import Mathlib.Logic.Function.Basic
import Gherkin.Proofs.EventGrammar

/-!
# The Slots of an Assembly

An assembly keeps no record of the order in which parts were opened. It has a
slot for each sort of part, and what it checks before it takes an event is
which slots are filled, never what they hold. `Slots` is an assembly of which
only that is left, and `slots_of_accept` says that it follows the assembly.

Features, blocks and steps are guarded on both sides: none is opened or closed
while a part inside is open. So the three slots can be read as a list of what
is still to be closed, innermost first. The other slots cannot, since doc
strings, tables, rows and examples are not looked at when what is around them
is closed.

## Main definitions

* `Slots`, `Assembly.slots`: Which slots are filled.
* `Slots.after`: What an event does to the slots, where it is taken.
* `Slots.isOpen`: Whether there is something for an event to close.
* `Slots.frame`: The features, blocks and steps that are still to be closed.
* `Slots.Framed`: Steps are open within blocks only, and these within features.

## Theorems

* `slots_of_accept`: The slots follow the assembly.
* `Slots.isOpen_after`: An event fills or empties the slot of its own part.
* `Slots.isOpen_of_closes`: Only what is open is closed.
* `Slots.frame_after`: Features, blocks and steps are closed in their turn.
-/

namespace Gherkin

/-- Which slots of an assembly are filled. Of a block its kind is kept, because
    the event that closes it has to agree with it. -/
structure Slots where
  feature : Bool := false
  finished : Bool := false
  block : Option BlockKind := none
  step : Bool := false
  docString : Bool := false
  table : Bool := false
  row : Bool := false
  examples : Bool := false
  deriving DecidableEq, Repr

/-- The slots of an assembly. -/
def Assembly.slots (a : Assembly) : Slots where
  feature := a.feature.isSome
  finished := a.finished
  block := a.block.map OpenBlock.kind
  step := a.step.isSome
  docString := a.docString.isSome
  table := a.table.isSome
  row := a.row.isSome
  examples := a.examples.isSome

namespace Slots

/-- What an event does to the slots while the feature is not complete; `none`
    where it is refused. -/
def place (s : Slots) : EventKind → Option Slots
  | .feature .. => if s.feature = false then some { s with feature := true } else none
  | .featureEnd =>
    if s.block = none ∧ s.feature then some { s with finished := true } else none
  | .block kind .. =>
    if s.feature ∧ s.block = none then some { s with block := some kind } else none
  | .blockEnd kind =>
    if s.step = false ∧ s.feature ∧ s.block = some kind then some { s with block := none }
    else none
  | .step .. =>
    if s.block.isSome ∧ s.step = false then some { s with step := true } else none
  | .stepEnd => if s.step ∧ s.block.isSome then some { s with step := false } else none
  | .docString _ => if s.step then some { s with docString := true } else none
  | .docLine _ => if s.docString then some s else none
  | .docStringEnd => if s.docString then some { s with docString := false } else none
  | .table => if s.step ∨ s.examples then some { s with table := true } else none
  | .row => if s.table then some { s with row := true } else none
  | .cell _ => if s.row then some s else none
  | .rowEnd => if s.row then some { s with row := false } else none
  | .tableEnd => if s.table then some { s with table := false } else none
  | .examples =>
    if s.block = some .outline ∧ s.step = false then some { s with examples := true } else none
  | .examplesEnd =>
    if s.examples ∧ s.block = some .outline then some { s with examples := false } else none
  | .blankLine | .comment .. => some s

/-- What an event does to the slots. -/
def after (s : Slots) (kind : EventKind) : Option Slots :=
  if s.finished then none else s.place kind

theorem after_eq_some {s next : Slots} {kind : EventKind} :
    s.after kind = some next ↔ s.finished = false ∧ s.place kind = some next := by
  simp [after]

end Slots

theorem Assembly.slots_afterwards (a : Assembly) (kind : EventKind) :
    (a.afterwards kind).slots = a.slots := by
  unfold afterwards
  by_cases hdrops : dropsArguments kind <;> by_cases hcloses : kind.isCloser <;>
    simp [hdrops, hcloses, slots]

theorem Assembly.slots_attach (a : Assembly) (text : String) :
    (a.attach text).slots = a.slots := by
  unfold attach
  -- Whatever the comment goes to is filled before and after.
  split <;> first | rfl | (split <;> simp_all [slots, hold])

/-- The slots follow the assembly while the feature is not complete. -/
theorem Assembly.slots_of_place {a next : Assembly} {kind : EventKind}
    (h : a.place kind = .taken next) : a.slots.place kind = some next.slots := by
  rcases a with ⟨feature, finished, block, step, docString, closedDocString, table, row,
    closedTable, examples, waiting, target⟩
  -- For each event the slots it asks about are told apart; where it is refused, `h` says so.
  cases kind with
  | feature title description tags =>
      cases feature <;> cases h
      rfl
  | featureEnd =>
      cases block <;> cases feature <;> cases h
      rfl
  | block kind title tags =>
      cases feature <;> cases block <;> cases h
      rfl
  | blockEnd kind =>
      cases step <;> cases feature <;> rcases block with _ | ⟨_ | _ | _, _, _⟩ <;> cases kind <;>
        cases h <;> rfl
  | step keyword text tags =>
      cases block <;> cases step <;> cases h
      rfl
  | stepEnd =>
      cases step <;> cases block <;> cases closedDocString <;> cases closedTable <;> cases h <;> rfl
  | docString indent =>
      cases step <;> cases h
      rfl
  | docLine text =>
      cases docString <;> cases h
      rfl
  | docStringEnd =>
      cases docString <;> cases h
      rfl
  | table => cases step <;> cases examples <;> cases h <;> rfl
  | row =>
      cases table <;> cases h
      rfl
  | cell content =>
      cases row <;> cases h
      rfl
  | rowEnd => cases row <;> cases table <;> cases h <;> rfl
  | tableEnd =>
      cases table <;> cases h
      rfl
  | examples =>
      cases step <;> rcases block with _ | ⟨_ | _ | _, _, _⟩ <;> cases h
      rfl
  | examplesEnd =>
      cases examples <;> rcases block with _ | ⟨_ | _ | _, _, _⟩ <;> cases h
      rfl
  | blankLine =>
      cases h
      rfl
  | comment text inline =>
      cases h
      cases inline with
      | true => simp [Slots.place, slots_attach]
      | false => rfl

/-- The slots follow the assembly. -/
theorem Assembly.slots_of_accept {a next : Assembly} {kind : EventKind}
    (h : a.accept kind = .taken next) : a.slots.after kind = some next.slots := by
  unfold accept at h
  split at h
  · exact absurd h (by simp)
  · rename_i hopen
    have hslots : a.slots.finished = false := Bool.eq_false_of_not_eq_true hopen
    cases hplace : a.place kind with
    | refused reason left =>
        rw [hplace] at h
        exact absurd h (by simp)
    | taken placed =>
        rw [hplace] at h
        cases h
        rw [slots_afterwards, Slots.after_eq_some]
        exact ⟨hslots, slots_of_place hplace⟩

namespace Slots

/-- Whether there is something for an event to close. -/
def isOpen (s : Slots) : EventKind → Bool
  | .featureEnd => s.feature && !s.finished
  | .blockEnd kind => decide (some kind = s.block)
  | .stepEnd => s.step
  | .docStringEnd => s.docString
  | .tableEnd => s.table
  | .rowEnd => s.row
  | .examplesEnd => s.examples
  | _ => false

/-- What an event does to what is open: it opens its own part, closes it, or
    does neither. -/
def opened (isOpen : EventKind → Bool) (kind : EventKind) : EventKind → Bool :=
  match kind.closer? with
  | some closer => Function.update isOpen closer true
  | none => if kind.isCloser then Function.update isOpen kind false else isOpen

/-- An event fills or empties the slot of its own part, and no other. -/
theorem isOpen_after {s next : Slots} {kind : EventKind} (h : s.after kind = some next) :
    next.isOpen = opened s.isOpen kind := by
  rcases after_eq_some.mp h with ⟨hopen, hplace⟩
  funext c
  cases kind with
  | blankLine =>
      cases hplace
      rfl
  | comment text inline =>
      cases hplace
      rfl
  | _ =>
      simp only [place, Option.ite_none_right_eq_some, Option.some.injEq] at hplace
      rcases hplace with ⟨hguard, rfl⟩
      -- An event has only one slot to ask about, which is its own or another's.
      cases c <;> simp_all [isOpen, opened, EventKind.closer?, EventKind.isCloser,
        Function.update_apply]

/-- Only what is open is closed. -/
theorem isOpen_of_closes {s next : Slots} {kind : EventKind} (h : s.after kind = some next)
    (hcloses : kind.isCloser = true) : s.isOpen kind = true := by
  rcases after_eq_some.mp h with ⟨hopen, hplace⟩
  cases kind <;> simp_all [place, isOpen, EventKind.isCloser]

/-- The features, blocks and steps that are still to be closed, innermost
    first. -/
def frame (s : Slots) : List EventKind :=
  if s.finished then []
  else
    (if s.step then [.stepEnd] else []) ++ s.block.toList.map .blockEnd ++
      (if s.feature then [.featureEnd] else [])

/-- Steps are open within blocks only, and blocks within the feature. -/
structure Framed (s : Slots) : Prop where
  step : s.step = true → s.block.isSome = true
  block : s.block.isSome = true → s.feature = true

theorem framed_initial : Framed {} :=
  ⟨by simp, by simp⟩

end Slots

/-- Whether an event opens or closes a feature, a block or a step. -/
def EventKind.isFrame : EventKind → Bool
  | .feature .. | .featureEnd | .block .. | .blockEnd _ | .step .. | .stepEnd => true
  | _ => false

namespace Slots

/-- Features, blocks and steps stay within each other. -/
theorem Framed.after {s next : Slots} {kind : EventKind} (hs : s.Framed)
    (h : s.after kind = some next) : next.Framed := by
  rcases after_eq_some.mp h with ⟨-, hplace⟩
  have hstep := hs.step
  have hblock := hs.block
  cases kind with
  | blankLine =>
      cases hplace
      exact hs
  | comment text inline =>
      cases hplace
      exact hs
  | _ =>
      simp only [place, Option.ite_none_right_eq_some, Option.some.injEq] at hplace
      rcases hplace with ⟨hguard, rfl⟩
      constructor <;> simp_all

/-- Features, blocks and steps are closed in their turn, and nothing else
    closes them. -/
theorem frame_after {s next : Slots} {kind : EventKind} (hs : s.Framed)
    (h : s.after kind = some next) :
    if kind.isFrame then owedAfter s.frame kind = some next.frame else next.frame = s.frame := by
  rcases after_eq_some.mp h with ⟨hopen, hplace⟩
  have hstep := hs.step
  have hblock := hs.block
  cases kind with
  | blankLine =>
      cases hplace
      rfl
  | comment text inline =>
      cases hplace
      rfl
  | _ =>
      simp only [place, Option.ite_none_right_eq_some, Option.some.injEq] at hplace
      rcases hplace with ⟨hguard, rfl⟩
      simp_all [EventKind.isFrame, owedAfter, EventKind.closer?, EventKind.isCloser, frame]

end Slots

end Gherkin
