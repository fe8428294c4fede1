import Gherkin.Reader.Step
import Gherkin.Proofs.Reader.Item

/-!
# The Gist of Reading

A reader without places. Its state holds what the state of the reader holds
except offsets and spans, and it takes the items of lines rather than lines,
so that what it does can be followed without any arithmetic.

It is organised the other way round. The reader asks where it is and then
what the line is; here each item says once which places it fits and what it
does there. That the two agree is shown elsewhere; here are the machine and
the small facts about its operations.

## Main definitions

* `Gist`: A state of the reader without places.
* `Gist.take`: What an item does to a gist.
* `Gist.Takes`: What an item can do, case by case.
* `Gist.step`, `Gist.finish`, `Gist.run`: A line, the end, all lines.

## Theorems

* `Gist.takes_of_take`: An item that is taken does one of these things.
* `Gist.leave_hold`, `Gist.leave_settle`, `Gist.leave_addTags`: Leaving what
  is open, with trivia or tags in between.
* `Gist.take_block`: What the heading of a block does.
* `Gist.finish_eq`: What the end of a document with a feature does.
-/

namespace Gherkin

namespace Reader

/-- The heading of the feature and the description so far. -/
structure Gist.Opening where
  title : String
  tags : List String
  remarks : List EventKind
  description : List String
  side : List EventKind
  pending : List EventKind
  deriving DecidableEq, Repr

/-- Where in the document the reader is. -/
inductive Gist.Phase where
  | preamble
  | opening (opening : Gist.Opening)
  | body
  | block (kind : BlockKind) (place : Place)
  deriving DecidableEq, Repr

/-- What the reader remembers between two lines, less all places. -/
structure Gist where
  phase : Gist.Phase := .preamble
  trivia : List EventKind := []
  tags : Option (List String) := none
  hasBackground : Bool := false
  hasScenario : Bool := false
  deriving DecidableEq, Repr

/-- The comment that ends the line of a part. -/
def inlineKinds (comment : Option String) : List EventKind :=
  comment.toList.map (EventKind.comment · true)

/-- The comment that ends a line that is not reported itself. -/
def sideKinds (comment : Option String) : List EventKind :=
  comment.toList.map (EventKind.comment · false)

/-- The events of a row. -/
def rowKinds (cells : List String) (comment : Option String) : List EventKind :=
  .row :: cells.map EventKind.cell ++ inlineKinds comment ++ [.rowEnd]

namespace Gist

/-- The opening with a further line of description. -/
def Opening.addLine (opening : Opening) (text : String) (comment : Option String) : Opening :=
  if opening.description.isEmpty then
    { opening with
      description := [text]
      side := opening.side ++ opening.pending ++ sideKinds comment
      pending := [] }
  else
    { opening with
      description := opening.description ++
        (opening.pending.filter (· == .blankLine)).map (fun _ => "") ++ [text]
      side := opening.side ++ opening.pending.filter (· != .blankLine) ++ sideKinds comment
      pending := [] }

/-- How the next line is to be understood. -/
def mode (g : Gist) : Mode :=
  match g.phase with
  | .opening _ => .descriptive
  | .block _ (.docString indent) => .verbatim indent
  | _ => .structural

/-- The tags that wait. -/
def tagNames (g : Gist) : List String :=
  g.tags.getD []

/-- Hold trivia back. While the description is read it may still turn out to
    be part of it. -/
def hold (g : Gist) (kinds : List EventKind) : Gist :=
  match g.phase with
  | .opening opening =>
    { g with phase := .opening { opening with pending := opening.pending ++ kinds } }
  | _ => { g with trivia := g.trivia ++ kinds }

/-- Add tags to those that wait. -/
def addTags (g : Gist) (names : List String) : Gist :=
  { g with tags := some (g.tagNames ++ names) }

/-- Open the feature. -/
def announce (g : Gist) (opening : Opening) : List EventKind × Gist :=
  (g.trivia ++
      .feature opening.title ("\n".intercalate opening.description) opening.tags ::
        opening.remarks,
    { g with phase := .body, trivia := opening.side ++ opening.pending })

/-- End the description, or the step or examples that are open. -/
def settle (g : Gist) : List EventKind × Gist :=
  match g.phase with
  | .opening opening => g.announce opening
  | .block kind place => (place.closers, { g with phase := .block kind (.between place.stage) })
  | _ => ([], g)

/-- End the description, or the block that is open. -/
def leave (g : Gist) : List EventKind × Gist :=
  match g.phase with
  | .opening opening => g.announce opening
  | .block kind place => (place.closers ++ [.blockEnd kind], { g with phase := .body })
  | _ => ([], g)

/-- Whether a block of this kind may come next. -/
def admits (g : Gist) (kind : BlockKind) : Bool :=
  kind != .background || (!g.hasBackground && !g.hasScenario)

/-- Open a block in the body of the feature. -/
def openBlock (g : Gist) (kind : BlockKind) (title : String) (comment : Option String) :
    Option (List EventKind × Gist) :=
  if g.phase = .body ∧ g.admits kind then
    some (g.trivia ++ .block kind title g.tagNames :: inlineKinds comment,
      { phase := .block kind (.between .steps)
        hasBackground := g.hasBackground || kind == .background
        hasScenario := g.hasScenario || kind != .background })
  else none

/-- The gist behind a line that opens a part of a block. -/
def opened (g : Gist) (kind : BlockKind) (place : Place) : Gist :=
  { g with phase := .block kind place, trivia := [], tags := none }

/-- What an item does: the events it completes and what is remembered after
    it; `none` where it cannot stand. -/
def take (g : Gist) : Item → Option (List EventKind × Gist)
  | .blank => some ([], g.hold [.blankLine])
  | .comment text => some ([], g.hold [.comment text false])
  | .tags names comment =>
    some (g.settle.1, (g.settle.2.addTags names).hold (sideKinds comment))
  | .feature title comment =>
    match g.phase with
    | .preamble => some ([], { g with
        phase := .opening ⟨title, g.tagNames, inlineKinds comment, [], [], []⟩, tags := none })
    | _ => none
  | .prose text comment =>
    match g.phase with
    | .opening opening => some ([], { g with phase := .opening (opening.addLine text comment) })
    | _ => none
  | .block kind title comment =>
    (g.leave.2.openBlock kind title comment).map fun (kinds, next) => (g.leave.1 ++ kinds, next)
  | .step keyword text comment =>
    match g.phase with
    | .block kind place =>
      if place.stage = .steps then
        some (place.closers ++ g.trivia ++ .step keyword text g.tagNames :: inlineKinds comment,
          g.opened kind (.argument .step))
      else none
    | _ => none
  | .examples comment =>
    match g.phase with
    | .block .outline place =>
      if place.stage = .steps ∧ g.tags = none then
        some (place.closers ++ g.trivia ++ .examples :: inlineKinds comment,
          g.opened .outline (.argument .examples))
      else none
    | _ => none
  | .row cells comment =>
    match g.phase with
    | .block kind (.argument owner) =>
      some (g.trivia ++ .table :: rowKinds cells comment,
        { g with phase := .block kind (.table owner cells.length), trivia := [] })
    | .block kind (.table owner columns) =>
      if cells.length = columns then
        some (g.trivia ++ rowKinds cells comment,
          { g with phase := .block kind (.table owner cells.length), trivia := [] })
      else none
    | _ => none
  | .fence indent comment =>
    match g.phase with
    | .block kind (.argument .step) =>
      if comment = none then
        some (g.trivia ++ [.docString indent],
          { g with phase := .block kind (.docString indent), trivia := [] })
      else none
    | .block kind (.docString _) =>
      some (inlineKinds comment ++ [.docStringEnd, .stepEnd],
        { g with phase := .block kind (.between .steps) })
    | _ => none
  | .docLine text =>
    match g.phase with
    | .block _ (.docString _) => some ([.docLine text], g)
    | _ => none

/-- What an item can do, case by case: where it can stand, which events it
    completes and what is remembered after it. -/
inductive Takes (g : Gist) : Item → List EventKind → Gist → Prop
  | blank : Takes g .blank [] (g.hold [.blankLine])
  | comment (text : String) : Takes g (.comment text) [] (g.hold [.comment text false])
  | tags (names : List String) (remark : Option String) :
      Takes g (.tags names remark) g.settle.1
        ((g.settle.2.addTags names).hold (sideKinds remark))
  | feature (title : String) (remark : Option String) (hp : g.phase = .preamble) :
      Takes g (.feature title remark) [] { g with
        phase := .opening ⟨title, g.tagNames, inlineKinds remark, [], [], []⟩, tags := none }
  | prose (text : String) (remark : Option String) (opening : Opening)
      (hp : g.phase = .opening opening) :
      Takes g (.prose text remark) [] { g with phase := .opening (opening.addLine text remark) }
  | block (kind : BlockKind) (title : String) (remark : Option String) (kinds : List EventKind)
      (next : Gist) (hopen : g.leave.2.openBlock kind title remark = some (kinds, next)) :
      Takes g (.block kind title remark) (g.leave.1 ++ kinds) next
  | step (keyword : StepKeyword) (text : String) (remark : Option String) (kind : BlockKind)
      (place : Place) (hp : g.phase = .block kind place) (hstage : place.stage = .steps) :
      Takes g (.step keyword text remark)
        (place.closers ++ g.trivia ++ .step keyword text g.tagNames :: inlineKinds remark)
        (g.opened kind (.argument .step))
  | examples (remark : Option String) (place : Place) (hp : g.phase = .block .outline place)
      (hstage : place.stage = .steps) (htags : g.tags = none) :
      Takes g (.examples remark) (place.closers ++ g.trivia ++ .examples :: inlineKinds remark)
        (g.opened .outline (.argument .examples))
  | firstRow (cells : List String) (remark : Option String) (kind : BlockKind) (owner : Owner)
      (hp : g.phase = .block kind (.argument owner)) :
      Takes g (.row cells remark) (g.trivia ++ .table :: rowKinds cells remark)
        { g with phase := .block kind (.table owner cells.length), trivia := [] }
  | nextRow (cells : List String) (remark : Option String) (kind : BlockKind) (owner : Owner)
      (hp : g.phase = .block kind (.table owner cells.length)) :
      Takes g (.row cells remark) (g.trivia ++ rowKinds cells remark)
        { g with phase := .block kind (.table owner cells.length), trivia := [] }
  | openFence (indent : Nat) (kind : BlockKind)
      (hp : g.phase = .block kind (.argument .step)) :
      Takes g (.fence indent none) (g.trivia ++ [.docString indent])
        { g with phase := .block kind (.docString indent), trivia := [] }
  | closeFence (indent : Nat) (remark : Option String) (kind : BlockKind) (opened : Nat)
      (hp : g.phase = .block kind (.docString opened)) :
      Takes g (.fence indent remark) (inlineKinds remark ++ [.docStringEnd, .stepEnd])
        { g with phase := .block kind (.between .steps) }
  | docLine (text : String) (kind : BlockKind) (indent : Nat)
      (hp : g.phase = .block kind (.docString indent)) :
      Takes g (.docLine text) [.docLine text] g

/-- The meaning of a line. -/
def step (g : Gist) (text : List Char) : Option (List EventKind × Gist) :=
  (Item.read? g.mode text).bind g.take

/-- The end of the document. -/
def finish (g : Gist) : Option (List EventKind) :=
  match g.phase with
  | .preamble => if g.tags = none then some g.trivia else none
  | .block _ (.docString _) => none
  | _ => if g.tags = none then some (g.leave.1 ++ g.leave.2.trivia ++ [.featureEnd]) else none

/-- The events of the remaining lines. -/
def run : Gist → List (List Char) → Option (List EventKind)
  | g, [] => g.finish
  | g, text :: rest =>
    (g.step text).bind fun (kinds, next) => (run next rest).map (kinds ++ ·)

end Gist

@[simp] theorem Place.stage_between (stage : Stage) : (Place.between stage).stage = stage := rfl

@[simp] theorem Place.closers_between (stage : Stage) : (Place.between stage).closers = [] := rfl

theorem Place.isCloser_of_mem_closers {place : Place} :
    ∀ kind ∈ place.closers, kind.isCloser = true := by
  intro kind hkind
  cases place with
  | between stage => simp [Place.closers] at hkind
  | argument owner => cases owner <;> simp_all [Place.closers, Owner.closer, EventKind.isCloser]
  | table owner columns =>
      rcases List.mem_cons.mp hkind with rfl | hkind
      · rfl
      · cases owner <;> simp_all [Owner.closer, EventKind.isCloser]
  | docString indent =>
      rcases List.mem_cons.mp hkind with rfl | hkind
      · rfl
      · rw [List.mem_singleton.mp hkind]
        rfl

namespace Gist

@[simp] theorem hold_nil (g : Gist) : g.hold [] = g := by
  rcases g with ⟨phase, trivia, tags, hasBackground, hasScenario⟩
  cases phase <;> simp [hold]

@[simp] theorem hold_hold (g : Gist) (ks more : List EventKind) :
    (g.hold ks).hold more = g.hold (ks ++ more) := by
  rcases g with ⟨phase, trivia, tags, hasBackground, hasScenario⟩
  cases phase <;> simp [hold]

@[simp] theorem mode_hold (g : Gist) (ks : List EventKind) : (g.hold ks).mode = g.mode := by
  rcases g with ⟨phase, trivia, tags, hasBackground, hasScenario⟩
  cases phase with
  | block kind place => cases place <;> rfl
  | _ => rfl

/-- Trivia that is held back comes before whatever opens next. -/
theorem leave_hold (g : Gist) (ks : List EventKind) :
    (g.hold ks).leave = (g.leave.1, { g.leave.2 with trivia := g.leave.2.trivia ++ ks }) := by
  rcases g with ⟨phase, trivia, tags, hasBackground, hasScenario⟩
  cases phase <;> simp [hold, leave, announce]

/-- Leaving in two steps: first what is open within a block, then the block. -/
theorem leave_settle (g : Gist) :
    g.settle.1 ++ g.settle.2.leave.1 = g.leave.1 ∧ g.settle.2.leave.2 = g.leave.2 := by
  rcases g with ⟨phase, trivia, tags, hasBackground, hasScenario⟩
  cases phase <;> simp [settle, leave, announce]

/-- Behind tags the reader is in no description and no doc string. -/
theorem mode_settle_addTags (g : Gist) (names : List String) :
    (g.settle.2.addTags names).mode = .structural := by
  rcases g with ⟨phase, trivia, tags, hasBackground, hasScenario⟩
  cases phase <;> rfl

theorem leave_addTags (g : Gist) (names : List String) :
    (g.addTags names).leave = (g.leave.1, g.leave.2.addTags names) := by
  rcases g with ⟨phase, trivia, tags, hasBackground, hasScenario⟩
  cases phase <;> simp [addTags, leave, announce, tagNames]

theorem hold_keeps (g : Gist) (ks : List EventKind) : (g.hold ks).tags = g.tags ∧
    (g.hold ks).hasBackground = g.hasBackground ∧ (g.hold ks).hasScenario = g.hasScenario := by
  rcases g with ⟨phase, trivia, tags, hasBackground, hasScenario⟩
  cases phase <;> exact ⟨rfl, rfl, rfl⟩

theorem settle_keeps (g : Gist) : g.settle.2.tags = g.tags ∧
    g.settle.2.hasBackground = g.hasBackground ∧ g.settle.2.hasScenario = g.hasScenario := by
  rcases g with ⟨phase, trivia, tags, hasBackground, hasScenario⟩
  cases phase <;> exact ⟨rfl, rfl, rfl⟩

/-- An item that is taken does one of the things it can do. Every proof about
    items goes through this, so that the places are told apart only here. -/
theorem takes_of_take {g next : Gist} {item : Item} {kinds : List EventKind}
    (h : g.take item = some (kinds, next)) : Takes g item kinds next := by
  cases item with
  | blank =>
      simp only [take, Option.some.injEq, Prod.mk.injEq] at h
      rcases h with ⟨rfl, rfl⟩
      exact .blank
  | comment text =>
      simp only [take, Option.some.injEq, Prod.mk.injEq] at h
      rcases h with ⟨rfl, rfl⟩
      exact .comment text
  | tags names remark =>
      simp only [take, Option.some.injEq, Prod.mk.injEq] at h
      rcases h with ⟨rfl, rfl⟩
      exact .tags names remark
  | feature title remark =>
      simp only [take] at h
      split at h
      · rename_i hp
        simp only [Option.some.injEq, Prod.mk.injEq] at h
        rcases h with ⟨rfl, rfl⟩
        exact .feature title remark hp
      · exact absurd h (by simp only [reduceCtorEq, not_false_eq_true])
  | prose text remark =>
      simp only [take] at h
      split at h
      · rename_i opening hp
        simp only [Option.some.injEq, Prod.mk.injEq] at h
        rcases h with ⟨rfl, rfl⟩
        exact .prose text remark opening hp
      · exact absurd h (by simp only [reduceCtorEq, not_false_eq_true])
  | block kind title remark =>
      simp only [take, Option.map_eq_some_iff, Prod.mk.injEq] at h
      rcases h with ⟨⟨opened, after⟩, hopen, rfl, rfl⟩
      exact .block kind title remark opened after hopen
  | step keyword text remark =>
      simp only [take] at h
      split at h
      · rename_i kind place hp
        split at h
        · rename_i hstage
          simp only [Option.some.injEq, Prod.mk.injEq] at h
          rcases h with ⟨rfl, rfl⟩
          exact .step keyword text remark kind place hp hstage
        · exact absurd h (by simp only [reduceCtorEq, not_false_eq_true])
      · exact absurd h (by simp only [reduceCtorEq, not_false_eq_true])
  | examples remark =>
      simp only [take] at h
      split at h
      · rename_i place hp
        split at h
        · rename_i hcond
          simp only [Option.some.injEq, Prod.mk.injEq] at h
          rcases h with ⟨rfl, rfl⟩
          exact .examples remark place hp hcond.1 hcond.2
        · exact absurd h (by simp only [reduceCtorEq, not_false_eq_true])
      · exact absurd h (by simp only [reduceCtorEq, not_false_eq_true])
  | row cells remark =>
      simp only [take] at h
      -- Rows start a table or go on with it; the columns must agree then.
      split at h
      · rename_i kind owner hp
        simp only [Option.some.injEq, Prod.mk.injEq] at h
        rcases h with ⟨rfl, rfl⟩
        exact .firstRow cells remark kind owner hp
      · rename_i kind owner columns hp
        split at h
        · rename_i hlength
          simp only [Option.some.injEq, Prod.mk.injEq] at h
          rcases h with ⟨rfl, rfl⟩
          rw [← hlength] at hp
          exact .nextRow cells remark kind owner hp
        · exact absurd h (by simp only [reduceCtorEq, not_false_eq_true])
      · exact absurd h (by simp only [reduceCtorEq, not_false_eq_true])
  | fence indent remark =>
      simp only [take] at h
      split at h
      · rename_i kind hp
        split at h
        -- The fence that opens a doc string has no comment beside it.
        · rename_i hnone
          simp only [Option.some.injEq, Prod.mk.injEq] at h
          rcases h with ⟨rfl, rfl⟩
          rw [hnone]
          exact .openFence indent kind hp
        · exact absurd h (by simp only [reduceCtorEq, not_false_eq_true])
      · rename_i kind opened hp
        simp only [Option.some.injEq, Prod.mk.injEq] at h
        rcases h with ⟨rfl, rfl⟩
        exact .closeFence indent remark kind opened hp
      · exact absurd h (by simp only [reduceCtorEq, not_false_eq_true])
  | docLine text =>
      simp only [take] at h
      split at h
      · rename_i kind indent hp
        simp only [Option.some.injEq, Prod.mk.injEq] at h
        rcases h with ⟨rfl, rfl⟩
        exact .docLine text kind indent hp
      · exact absurd h (by simp only [reduceCtorEq, not_false_eq_true])

/-- The heading of a block leaves what is open and opens the block. -/
theorem take_block {g : Gist} (hbody : g.leave.2.phase = .body) {kind : BlockKind}
    (hadmits : g.admits kind = true) (title : String) (comment : Option String) :
    g.take (.block kind title comment) =
      some (g.leave.1 ++ (g.leave.2.trivia ++ .block kind title g.tagNames :: inlineKinds comment),
        { phase := .block kind (.between .steps)
          hasBackground := g.hasBackground || kind == .background
          hasScenario := g.hasScenario || kind != .background }) := by
  rcases g with ⟨phase, trivia, tags, hasBackground, hasScenario⟩
  -- Only a background asks for room; the other kinds are always admitted.
  have hroom : kind = .background → hasBackground = false ∧ hasScenario = false := by
    rintro rfl
    simpa [admits] using hadmits
  cases phase with
  | preamble => exact absurd hbody (by simp [leave])
  | opening o => simpa [take, leave, announce, openBlock, admits, tagNames] using hroom
  | body => simpa [take, leave, openBlock, admits, tagNames] using hroom
  | block kind place => simpa [take, leave, openBlock, admits, tagNames] using hroom

/-- The end of a document that has a feature, where no doc string is open. -/
theorem finish_eq {g : Gist} (hbody : g.leave.2.phase = .body) (htags : g.tags = none)
    (hm : ∀ indent, g.mode ≠ .verbatim indent) :
    g.finish = some (g.leave.1 ++ g.leave.2.trivia ++ [.featureEnd]) := by
  rcases g with ⟨phase, trivia, tags, hasBackground, hasScenario⟩
  subst htags
  cases phase with
  | preamble => exact absurd hbody (by simp [leave])
  | opening o => rfl
  | body => rfl
  | block kind place =>
      cases place with
      | docString indent => exact absurd rfl (hm indent)
      | _ => rfl

end Gist

end Reader

end Gherkin
