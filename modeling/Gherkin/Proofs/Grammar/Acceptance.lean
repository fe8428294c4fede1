import Gherkin.Proofs.Reader.Simulation
import Gherkin.Proofs.Grammar.Recognised
import Gherkin.Proofs.Grammar.Residue

/-!
# The Documents That Are Accepted

A document is read without a fault exactly when it is in the grammar of
documents.

Every state of the reader has a language: the lines that can still follow.
`Gist.rest` names it in terms of the grammar, and `step_rest` says that it
moves along with the reader. A line can come next in that language exactly
when the reader takes it, and what can follow then is the language of the
state that the reader is in afterwards. The end of the document is the same
with no line left, so induction over the lines carries this from the initial
state, whose language is the grammar, to whole documents.

## Main definitions

* `Gist.rest`: The lines that can still follow.
* `Gist.Tidy`: What holds of every state that is reached.

## Theorems

* `Gist.step_tidy`: Reading keeps a state tidy.
* `Gist.step_rest`: The language of a state moves along with the reader.
* `Gist.run_isSome_iff`: The lines that are accepted from a state.
* `readEvents_isOk_iff`: The documents that are accepted.
-/

namespace Gherkin

namespace Reader

open scoped Computability

open LineGrammar

variable {text : List Char} {lines : List (List Char)}

namespace Gist

/-- What can come next without tags. -/
def untagged (g : Gist) : Language (List Char) :=
  match g.phase with
  | .block kind place => LineGrammar.untagged kind place
  | _ => 1

/-- What can come next with or without tags. -/
def tagged (g : Gist) : Language (List Char) :=
  match g.phase with
  | .preamble => featured
  | .block kind place => LineGrammar.tagged kind place.stage
  | _ => headed (g.admits .background)

/-- The lines that can still follow. -/
def rest (g : Gist) : Language (List Char) :=
  match g.phase with
  -- In a description and in a doc string trivia is not skipped, so both stand apart.
  | .opening _ => (line descriptionLine)∗ * body
  | .block kind (.docString indent) => onward kind (.docString indent)
  | _ => awaiting g.tags g.untagged g.tagged

/-- What holds of every state that is reached: tags wait only where a heading
    or a step may come, no background can follow once a block has been opened,
    and tables have columns. -/
def Tidy (g : Gist) : Prop :=
  match g.phase with
  | .preamble => g.admits .background = true
  | .opening _ => g.tags = none ∧ g.admits .background = true
  | .body => True
  | .block _ (.between _) => g.admits .background = false
  | .block _ (.table _ columns) =>
    g.tags = none ∧ g.admits .background = false ∧ 1 ≤ columns
  | .block _ _ => g.tags = none ∧ g.admits .background = false

/-- In a block where no tags wait. -/
theorem rest_block {g : Gist} {kind : BlockKind} {place : Place}
    (hp : g.phase = .block kind place) (ht : g.tags = none) : g.rest = onward kind place := by
  cases place with
  | docString indent => simp only [rest, hp]
  -- Everywhere else in a block, this is what the equations of the grammar say.
  | _ =>
      simp only [rest, untagged, tagged, hp, ht, awaiting]
      exact (onward_eq _ _ (by simp)).symm

/-- Behind a line of a block that no trivia or tags follow yet. -/
@[simp] theorem rest_inside (kind : BlockKind) (place : Place) (hasBackground hasScenario : Bool) :
    rest ⟨.block kind place, [], none, hasBackground, hasScenario⟩ = onward kind place :=
  rest_block rfl rfl

/-- A line by its class: it takes no tags, or it takes tags, or it is trivia,
    or tags. -/
theorem cons_mem_rest {g : Gist} (h : g.mode = .structural) : text :: lines ∈ g.rest ↔
    (g.tags = none ∧ text :: lines ∈ g.untagged) ∨ text :: lines ∈ g.tagged ∨
      (text ∈ ending ∧ lines ∈ g.rest) ∨
      (text ∈ LineGrammar.tagLine ∧ lines ∈ preface * g.tagged) := by
  -- Outside of descriptions and doc strings the language has the common form.
  have hrest : g.rest = awaiting g.tags g.untagged g.tagged := by
    unfold mode at h
    unfold rest
    split
    · rename_i hp
      rw [hp] at h
      exact absurd h (by simp)
    · rename_i hp
      rw [hp] at h
      exact absurd h (by simp)
    · rfl
  rw [hrest, cons_mem_awaiting]

/-- Trivia changes nothing. -/
theorem hold_rest (g : Gist) (kinds : List EventKind) : (g.hold kinds).rest = g.rest := by
  unfold hold
  split
  · rename_i hp
    simp only [rest, hp]
  · rfl

/-- After tags only what takes tags can come. -/
theorem addTags_rest (g : Gist) (names : List String) (kinds : List EventKind) :
    ((g.settle.2.addTags names).hold kinds).rest = preface * g.tagged := by
  rw [hold_rest]
  cases hp : g.phase with
  | preamble => simp only [settle, addTags, rest, awaiting, tagged, hp]
  | opening opening => simp only [settle, announce, addTags, rest, awaiting, tagged, hp]; rfl
  | body => simp only [settle, addTags, rest, awaiting, tagged, hp]; rfl
  | block kind place => simp only [settle, addTags, rest, awaiting, tagged, hp]; rfl

theorem leave_admits (g : Gist) (kind : BlockKind) : g.leave.2.admits kind = g.admits kind := by
  unfold leave
  split <;> rfl

theorem admits_iff {g : Gist} {kind : BlockKind} :
    g.admits kind = true ↔ (kind = .background → g.admits .background = true) := by
  cases kind with
  | background => simp
  | scenario => simp [admits]
  | outline => simp [admits]

/-- Where the part that is open can be left, a block of this kind can come
    when it is admitted. -/
theorem take_block_rest {g : Gist} (hp : g.leave.2.phase = .body)
    (kind : BlockKind) (title : String) (comment : Option String) :
    (∃ out, g.take (.block kind title comment) = some out ∧ lines ∈ out.2.rest) ↔
      (kind = .background → g.admits .background = true) ∧
        lines ∈ onward kind (.between .steps) := by
  rw [← admits_iff, ← leave_admits]
  -- Either the heading is refused, or the block is open behind it with nothing waiting.
  cases ha : g.leave.2.admits kind with
  | false => simp [take, openBlock, ha]
  | true => simp [take, openBlock, hp, ha]

/-- The language of a state before the feature moves along with the reader. -/
theorem step_rest_preamble {g : Gist} (hp : g.phase = .preamble) :
    text :: lines ∈ g.rest ↔ ∃ out, g.step text = some out ∧ lines ∈ out.2.rest := by
  have hmode : g.mode = .structural := by simp only [mode, hp]
  rw [cons_mem_rest hmode, mem_ending_iff_item, mem_tagLine]
  simp only [untagged, tagged, hp, featured, cons_mem_line_mul, mem_featureLine, step, hmode,
    Item.read?]
  -- What the line says settles which summand it can be in; the others are empty.
  cases Item.structural? text with
  | none => simp
  | some item =>
      cases item with
      | blank => simp [take, hold_rest]
      | comment words => simp [take, hold_rest]
      | tags names comment => simp [take, addTags_rest, tagged, hp, featured]
      | feature title comment => simp [take, hp, rest]
      | prose words comment => simp [take, hp]
      | block kind title comment => simp [take, leave, openBlock, hp]
      | step keyword words comment => simp [take, hp]
      | examples comment => simp [take, hp]
      | row cells comment => simp [take, hp]
      | fence indent comment => simp [take, hp]
      | docLine words => simp [take, hp]

/-- The language of a state in the body of the feature moves along with the
    reader. -/
theorem step_rest_body {g : Gist} (hp : g.phase = .body) :
    text :: lines ∈ g.rest ↔ ∃ out, g.step text = some out ∧ lines ∈ out.2.rest := by
  have hmode : g.mode = .structural := by simp only [mode, hp]
  rw [cons_mem_rest hmode, mem_ending_iff_item, mem_tagLine]
  simp only [untagged, tagged, hp, cons_mem_headed, mem_blockLine, step, hmode, Item.read?]
  cases Item.structural? text with
  | none => simp
  | some item =>
      cases item with
      | blank => simp [take, hold_rest]
      | comment words => simp [take, hold_rest]
      | tags names comment => simp [take, addTags_rest, tagged, hp]
      | feature title comment => simp [take, hp]
      | prose words comment => simp [take, hp]
      | block kind title comment =>
          have hleave : g.leave.2.phase = .body := by simp only [leave, hp]
          rw [Option.bind_some, take_block_rest hleave]
          simp
      | step keyword words comment => simp [take, hp]
      | examples comment => simp [take, hp]
      | row cells comment => simp [take, hp]
      | fence indent comment => simp [take, hp]
      | docLine words => simp [take, hp]

/-- The language of a state in a doc string moves along with the reader. -/
theorem step_rest_docString {g : Gist} {kind : BlockKind} {indent : ℕ}
    (hp : g.phase = .block kind (.docString indent)) (ht : g.tags = none) :
    text :: lines ∈ g.rest ↔ ∃ out, g.step text = some out ∧ lines ∈ out.2.rest := by
  have hmode : g.mode = .verbatim indent := by simp only [mode, hp]
  rw [rest_block hp ht, onward, line, cons_mem_kstar_letter_mul, cons_mem_line_mul,
    mem_closeFence_iff_read, mem_bodyLine]
  simp only [step, hmode]
  cases h : Item.read? (.verbatim indent) text with
  | none => simp
  | some item =>
      rcases read?_verbatim h with ⟨n, comment, rfl⟩ | ⟨words, rfl⟩
      -- The closing fence ends the step, and nothing is open behind it.
      · have hrest : rest { g with phase := .block kind (.between .steps) } =
            onward kind (.between .steps) := rest_block rfl ht
        simp [take, hp, hrest, onward]
      · have hrest := rest_block hp ht
        simp [take, hp, hrest, onward, line]

/-- The language of a state in the description moves along with the reader. -/
theorem step_rest_opening {g : Gist} {opening : Gist.Opening} (hp : g.phase = .opening opening)
    (ha : g.admits .background = true) :
    text :: lines ∈ g.rest ↔ ∃ out, g.step text = some out ∧ lines ∈ out.2.rest := by
  have hmode : g.mode = .descriptive := by simp only [mode, hp]
  have hrest : g.rest = (line descriptionLine)∗ * body := by simp only [rest, hp]
  -- Trivia may end the description already or still be in it; the latter says more.
  have hmore : lines ∈ body → lines ∈ g.rest := by
    intro hbody
    rw [hrest, kstar_mul]
    exact Or.inl hbody
  have hfront : text :: lines ∈ g.rest ↔ text :: lines ∈ body ∨
      (text ∈ descriptionLine ∧ lines ∈ g.rest) := by
    rw [hrest]
    exact cons_mem_kstar_letter_mul
  have hbody : text :: lines ∈ body ↔ text :: lines ∈ headed true ∨
      (text ∈ ending ∧ lines ∈ body) ∨
      (text ∈ LineGrammar.tagLine ∧ lines ∈ preface * headed true) := by
    rw [body_eq, cons_mem_waiting]
    simp
  rw [hfront, hbody, cons_mem_headed, mem_descriptionLine, mem_ending_iff_read,
    mem_tagLine_iff_read]
  simp only [mem_blockLine_iff_read, step, hmode]
  cases Item.read? .descriptive text with
  | none => simp
  | some item =>
      cases item with
      | blank => simpa [take, hold_rest] using hmore
      | comment words => simpa [take, hold_rest] using hmore
      -- Tags end the description, and no block has been opened yet.
      | tags names comment => simp [take, addTags_rest, tagged, hp, ha]
      | feature title comment => simp [take, hp]
      | prose words comment => simp [take, hp, rest]
      | block kind title comment =>
          have hleave : g.leave.2.phase = .body := by simp only [leave, hp, announce]
          rw [Option.bind_some, take_block_rest hleave]
          simp [ha]
      | step keyword words comment => simp [take, hp]
      | examples comment => simp [take, hp]
      | row cells comment => simp [take, hp]
      | fence indent comment => simp [take, hp]
      | docLine words => simp [take, hp]

/-- What can come next without tags in a block, by what the line says. -/
theorem cons_mem_untagged_iff {kind : BlockKind} {place : Place}
    (hdoc : ∀ indent, place ≠ .docString indent)
    (htable : ∀ owner columns, place = .table owner columns → 1 ≤ columns) :
    text :: lines ∈ LineGrammar.untagged kind place ↔
      (kind = .outline ∧ place.stage = .steps ∧
        (∃ comment, Item.structural? text = some (.examples comment)) ∧
        lines ∈ onward .outline (.argument .examples)) ∨
      (∃ cells comment owner, Item.structural? text = some (.row cells comment) ∧
        (place = .argument owner ∨ place = .table owner cells.length) ∧
        lines ∈ onward kind (.table owner cells.length)) ∨
      (place = .argument .step ∧
        (∃ indent, Item.structural? text = some (.fence indent none)) ∧
        lines ∈ onward kind (.docString 0)) := by
  rw [cons_mem_untagged hdoc, cons_mem_ended, mem_examplesLine, mem_openFence]
  refine or_congr_right ?_
  rw [← or_assoc]
  refine or_congr_left ?_
  -- The rows that a table takes are those with as many cells as it has columns.
  constructor
  · intro hmem
    rcases hmem with ⟨owner, columns, rfl, hcolumns, hrow, hlines⟩ |
      ⟨owner, columns, rfl, hrow, hlines⟩
    · rcases (mem_row hcolumns).mp hrow with ⟨cells, comment, hitem, rfl⟩
      exact ⟨cells, comment, owner, hitem, Or.inl rfl, hlines⟩
    · rcases (mem_row (htable owner columns rfl)).mp hrow with ⟨cells, comment, hitem, rfl⟩
      exact ⟨cells, comment, owner, hitem, Or.inr rfl, hlines⟩
  · intro hsaid
    rcases hsaid with ⟨cells, comment, owner, hitem, rfl | rfl, hlines⟩
    · have hpos := length_pos_of_structural? hitem
      have hrow := (mem_row hpos).mpr ⟨cells, comment, hitem, rfl⟩
      exact Or.inl ⟨owner, cells.length, rfl, hpos, hrow, hlines⟩
    · have hpos := length_pos_of_structural? hitem
      have hrow := (mem_row hpos).mpr ⟨cells, comment, hitem, rfl⟩
      exact Or.inr ⟨owner, cells.length, rfl, hrow, hlines⟩

/-- The language of a state in a block moves along with the reader. -/
theorem step_rest_block {g : Gist} {kind : BlockKind} {place : Place}
    (hp : g.phase = .block kind place) (hdoc : ∀ indent, place ≠ .docString indent)
    (ha : g.admits .background = false)
    (ht : (∀ stage, place ≠ .between stage) → g.tags = none)
    (htable : ∀ owner columns, place = .table owner columns → 1 ≤ columns) :
    text :: lines ∈ g.rest ↔ ∃ out, g.step text = some out ∧ lines ∈ out.2.rest := by
  have hmode : g.mode = .structural := by
    unfold mode
    rw [hp]
    split
    · rename_i h
      exact absurd h (by simp)
    · rename_i h
      exact absurd (Gist.Phase.block.inj h).2 (hdoc _)
    · rfl
  rw [cons_mem_rest hmode, mem_ending_iff_item, mem_tagLine]
  simp only [untagged, tagged, hp, cons_mem_untagged_iff hdoc htable, cons_mem_tagged,
    cons_mem_headed, mem_stepLine, mem_blockLine, step, hmode, Item.read?]
  cases Item.structural? text with
  | none => simp
  | some item =>
      cases item with
      | blank => simp [take, hold_rest]
      | comment words => simp [take, hold_rest]
      | tags names comment => simp [take, addTags_rest, tagged, hp]
      | feature title comment => simp [take, hp]
      | prose words comment => simp [take, hp]
      | block next title comment =>
          have hleave : g.leave.2.phase = .body := by simp only [leave, hp]
          rw [Option.bind_some, take_block_rest hleave]
          simp [ha]
      | step keyword words comment =>
          by_cases hstage : place.stage = .steps
          · simp [take, hp, hstage, opened]
          · simp [take, hp, hstage]
      -- Examples are refused below tags, which is where the two forms differ.
      | examples comment =>
          cases kind with
          | background => simp [take, hp]
          | scenario => simp [take, hp]
          | outline =>
              by_cases hif : place.stage = .steps ∧ g.tags = none
              · simp [take, hp, hif, opened]
              · simpa [take, hp, hif] using fun htags hstage => absurd ⟨hstage, htags⟩ hif
      -- Rows belong to a table, or start one behind a step or the heading of examples.
      | row cells comment =>
          cases place with
          | between stage => simp [take, hp]
          | argument owner =>
              have htags : g.tags = none := ht (by simp)
              simp [take, hp, htags]
          | table owner columns =>
              have htags : g.tags = none := ht (by simp)
              by_cases hcells : cells.length = columns
              · subst hcells
                simp [take, hp, htags]
              · simp [take, hp, hcells, Ne.symm hcells]
          | docString indent => exact absurd rfl (hdoc indent)
      | fence indent comment =>
          cases place with
          | between stage => simp [take, hp]
          | argument owner =>
              have htags : g.tags = none := ht (by simp)
              cases owner with
              | step =>
                  cases comment with
                  | none => simp [take, hp, htags, onward]
                  | some words => simp [take, hp]
              | examples => simp [take, hp]
          | table owner columns => simp [take, hp]
          | docString indent => exact absurd rfl (hdoc indent)
      | docLine words =>
          cases place with
          | docString indent => exact absurd rfl (hdoc indent)
          | _ => simp [take, hp]

/-- The language of a state moves along with the reader. -/
theorem step_rest {g : Gist} (h : g.Tidy) (text : List Char) (lines : List (List Char)) :
    text :: lines ∈ g.rest ↔ ∃ out, g.step text = some out ∧ lines ∈ out.2.rest := by
  unfold Tidy at h
  cases hp : g.phase with
  | preamble => exact step_rest_preamble hp
  | opening opening =>
      rw [hp] at h
      exact step_rest_opening hp h.2
  | body => exact step_rest_body hp
  | block kind place =>
      rw [hp] at h
      cases place with
      | between stage => exact step_rest_block hp (by simp) h (by simp) (by simp)
      | argument owner => exact step_rest_block hp (by simp) h.2 (fun _ => h.1) (by simp)
      | table owner columns =>
          refine step_rest_block hp (by simp) h.2.1 (fun _ => h.1) ?_
          rintro _ _ ⟨⟩
          exact h.2.2
      | docString indent => exact step_rest_docString hp h.1

theorem hold_tidy {g : Gist} (h : g.Tidy) (kinds : List EventKind) : (g.hold kinds).Tidy := by
  unfold hold
  split
  · rename_i hp
    simp only [Tidy, hp] at h ⊢
    exact h
  · exact h

/-- In a block no background can follow. -/
theorem Tidy.admits_block {g : Gist} (h : g.Tidy) {kind : BlockKind} {place : Place}
    (hp : g.phase = .block kind place) : g.admits .background = false := by
  unfold Tidy at h
  rw [hp] at h
  cases place with
  | between stage => exact h
  | argument owner => exact h.2
  | table owner columns => exact h.2.1
  | docString indent => exact h.2

/-- Inside a step or examples no tags wait. -/
theorem Tidy.tags_block {g : Gist} (h : g.Tidy) {kind : BlockKind} {place : Place}
    (hp : g.phase = .block kind place) (hplace : ∀ stage, place ≠ .between stage) :
    g.tags = none := by
  unfold Tidy at h
  rw [hp] at h
  cases place with
  | between stage => exact absurd rfl (hplace stage)
  | argument owner => exact h.1
  | table owner columns => exact h.1
  | docString indent => exact h.1

/-- Tags leave a state tidy. -/
theorem addTags_tidy {g : Gist} (h : g.Tidy) (names : List String) :
    (g.settle.2.addTags names).Tidy := by
  cases hp : g.phase with
  | preamble => simpa [settle, addTags, hp, Tidy, admits] using h
  | opening opening => simp [settle, announce, addTags, hp, Tidy]
  | body => simp [settle, addTags, hp, Tidy]
  | block kind place => simpa [settle, addTags, hp, Tidy, admits] using h.admits_block hp

/-- What a line says leaves a state tidy. -/
theorem take_tidy {g next : Gist} {item : Item} {kinds : List EventKind} (h : g.Tidy)
    (hrow : ∀ cells comment, item = .row cells comment → 1 ≤ cells.length)
    (ht : g.take item = some (kinds, next)) : next.Tidy := by
  cases takes_of_take ht with
  | blank => exact hold_tidy h _
  | comment text => exact hold_tidy h _
  | tags names remark => exact hold_tidy (addTags_tidy h names) _
  | feature title remark hp => simpa [Tidy, hp, admits] using h
  | prose text remark opening hp => simpa [Tidy, hp, admits] using h
  -- Whichever block opens, no background can open behind it.
  | block kind title remark kinds next hopen =>
      unfold openBlock at hopen
      split at hopen
      · rw [Option.some.injEq, Prod.mk.injEq] at hopen
        rw [← hopen.2]
        cases kind <;> simp [Tidy, admits]
      · exact absurd hopen (by simp only [reduceCtorEq, not_false_eq_true])
  | step keyword text remark kind place hp hstage =>
      simpa [Tidy, Gist.opened, admits] using h.admits_block hp
  | examples remark place hp hstage htags =>
      simpa [Tidy, Gist.opened, admits] using h.admits_block hp
  | firstRow cells remark kind owner hp =>
      exact ⟨h.tags_block hp (by simp), h.admits_block hp, hrow cells remark rfl⟩
  | nextRow cells remark kind owner hp =>
      exact ⟨h.tags_block hp (by simp), h.admits_block hp, hrow cells remark rfl⟩
  | openFence indent kind hp => exact ⟨h.tags_block hp (by simp), h.admits_block hp⟩
  | closeFence indent remark kind opened hp => exact h.admits_block hp
  | docLine text kind indent hp => exact h

theorem step_tidy {g : Gist} {text : List Char} {out : List EventKind × Gist} (h : g.Tidy)
    (hs : g.step text = some out) : out.2.Tidy := by
  rcases Option.bind_eq_some_iff.mp hs with ⟨item, hread, ht⟩
  refine take_tidy h ?_ ht
  rintro cells comment rfl
  exact length_pos_of_read? hread

theorem tidy_initial : Tidy {} :=
  rfl

/-- At the beginning any document can follow. -/
theorem rest_initial : rest {} = document := by
  change waiting 1 featured = document
  unfold waiting featured document
  rw [mul_one, mul_assoc, mul_assoc]

/-- A document can end exactly where nothing has to follow. -/
theorem finish_rest {g : Gist} (h : g.Tidy) : [] ∈ g.rest ↔ ∃ kinds, g.finish = some kinds := by
  have hone : [] ∈ (1 : Language (List Char)) := Language.nil_mem_one
  cases hp : g.phase with
  | preamble =>
      have hmem : [] ∈ g.rest ↔ g.tags = none := by
        simp only [rest, untagged, tagged, hp]
        exact nil_mem_awaiting hone nil_notMem_letter_mul
      rw [hmem]
      simp [finish, hp]
  -- No tags can wait in a description, so a document can always end there.
  | opening opening =>
      have hmem : [] ∈ g.rest := by
        simp only [rest, hp, nil_mem_kstar_mul, body_eq]
        exact nil_mem_waiting.mpr (Or.inl hone)
      simp only [Tidy, hp] at h
      simp [hmem, finish, hp, h.1]
  | body =>
      have hmem : [] ∈ g.rest ↔ g.tags = none := by
        simp only [rest, untagged, tagged, hp]
        exact nil_mem_awaiting hone nil_notMem_headed
      rw [hmem]
      simp [finish, hp]
  | block kind place =>
      cases place with
      -- A doc string has to be closed.
      | docString indent =>
          simp [rest, hp, finish, onward, line]
      | _ =>
          have hmem : [] ∈ g.rest ↔ g.tags = none := by
            simp only [rest, untagged, tagged, hp]
            exact nil_mem_awaiting (nil_mem_untagged (by simp)) nil_notMem_tagged
          rw [hmem]
          simp [finish, hp]

/-- The lines that are read from a state without a fault are those that can
    follow, by induction on the lines. -/
theorem run_isSome_iff {g : Gist} (h : g.Tidy) (lines : List (List Char)) :
    (∃ kinds, g.run lines = some kinds) ↔ lines ∈ g.rest := by
  induction lines generalizing g with
  | nil => exact (finish_rest h).symm
  | cons text more ih =>
      rw [step_rest h text more]
      simp only [run]
      constructor
      · intro haccepted
        rcases haccepted with ⟨kinds, hrun⟩
        rcases Option.bind_eq_some_iff.mp hrun with ⟨out, hstep, hmap⟩
        rcases Option.map_eq_some_iff.mp hmap with ⟨later, hlater, _⟩
        exact ⟨out, hstep, (ih (step_tidy h hstep)).mp ⟨later, hlater⟩⟩
      · intro hnext
        rcases hnext with ⟨out, hstep, hmore⟩
        rcases (ih (step_tidy h hstep)).mpr hmore with ⟨later, hlater⟩
        exact ⟨out.1 ++ later, by simp [hstep, hlater]⟩

end Gist

end Reader

/-- A document is read without a fault exactly when its lines are in the
    grammar of documents. -/
theorem readEvents_isOk_iff (source : String) :
    (∃ events, readEvents source = .ok events) ↔
      (Source.lines source).map Source.Line.text ∈ LineGrammar.document := by
  have hrun := Reader.Gist.run_isSome_iff Reader.Gist.tidy_initial
    ((Source.lines source).map Source.Line.text)
  rw [← Reader.Gist.rest_initial, ← hrun, ← Reader.readEvents_gist]
  cases readEvents source with
  | error refusal => simp [Except.toOption]
  | ok events => simp [Except.toOption]

end Gherkin
