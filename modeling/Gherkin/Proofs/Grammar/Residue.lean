import Gherkin.Reader.State
import Gherkin.Proofs.Grammar.Lines

/-!
# What Can Still Follow

The grammar of documents read from the front. For each place in a document
where a reader can be, this module names the language of the lines that can
still follow there, and takes it apart by the next line.

Between two lines trivia can stand, and tags can where a heading or a step is
to come. So nearly every such language has one form: trivia and then something
that takes no tags, or trivia and tags and then something that does.
`waiting` is that form, and the equations below bring the parts of the grammar
into it.

## Main definitions

* `LineGrammar.waiting`: Trivia, and perhaps tags, before what is to come.
* `LineGrammar.awaiting`: The same, when tags may have been read already.
* `LineGrammar.onward`: What can follow at a place in a block.
* `LineGrammar.untagged`, `LineGrammar.tagged`: What can come next there, by
  whether it takes tags.

## Theorems

* `LineGrammar.cons_mem_waiting`: Such a language by its first line.
* `LineGrammar.scenarios_eq`, `LineGrammar.body_eq`, `LineGrammar.onward_eq`:
  The parts of the grammar in that form.
-/

namespace Gherkin

namespace LineGrammar

open scoped Computability

open Reader (Place Stage Owner)

section Waiting

variable {text : List Char} {lines : List (List Char)} {a b c : Language (List Char)}

/-- Trivia before what takes no tags, or trivia and tags before what does. -/
def waiting (a b : Language (List Char)) : Language (List Char) :=
  trivia * a + preface * b

theorem cons_mem_line_mul {kind : Language Char} :
    text :: lines ∈ line kind * a ↔ text ∈ kind ∧ lines ∈ a :=
  cons_mem_letter_mul

theorem cons_mem_preface_mul : text :: lines ∈ preface * b ↔
    text :: lines ∈ b ∨ ((text ∈ ending ∨ text ∈ tagLine) ∧ lines ∈ preface * b) := by
  unfold preface line
  rw [letter_add_letter, cons_mem_kstar_letter_mul]

/-- The first of the lines that wait for something is trivia, or tags, or
    what they wait for. -/
theorem cons_mem_waiting : text :: lines ∈ waiting a b ↔
    text :: lines ∈ a ∨ text :: lines ∈ b ∨ (text ∈ ending ∧ lines ∈ waiting a b) ∨
      (text ∈ tagLine ∧ lines ∈ preface * b) := by
  have htrivia : text :: lines ∈ trivia * a ↔
      text :: lines ∈ a ∨ (text ∈ ending ∧ lines ∈ trivia * a) :=
    cons_mem_kstar_letter_mul
  -- A blank line keeps both ways open, tags only the second.
  unfold waiting
  rw [Language.mem_add, Language.mem_add, htrivia, cons_mem_preface_mul]
  tauto

theorem nil_mem_waiting : [] ∈ waiting a b ↔ [] ∈ a ∨ [] ∈ b := by
  unfold waiting trivia preface
  rw [Language.mem_add, nil_mem_kstar_mul, nil_mem_kstar_mul]

/-- One more thing to wait for that takes no tags. -/
theorem waiting_add_left (a b c : Language (List Char)) :
    waiting a b + trivia * c = waiting (a + c) b := by
  unfold waiting
  rw [mul_add, add_right_comm]

/-- One more thing to wait for that takes tags. -/
theorem waiting_add_right (a b c : Language (List Char)) :
    waiting a b + preface * c = waiting a (c + b) := by
  unfold waiting
  rw [mul_add, add_assoc, add_comm (preface * b)]

/-- The lines that wait for something, when tags may have been read. -/
def awaiting (tags : Option (List String)) (a b : Language (List Char)) :
    Language (List Char) :=
  match tags with
  | none => waiting a b
  -- Behind tags only what takes tags can come.
  | some _ => preface * b

theorem cons_mem_awaiting {tags : Option (List String)} :
    text :: lines ∈ awaiting tags a b ↔
      (tags = none ∧ text :: lines ∈ a) ∨ text :: lines ∈ b ∨
        (text ∈ ending ∧ lines ∈ awaiting tags a b) ∨
        (text ∈ tagLine ∧ lines ∈ preface * b) := by
  cases tags with
  | none => simp only [awaiting, cons_mem_waiting, true_and]
  | some names =>
      simp only [awaiting, reduceCtorEq, false_and, false_or]
      rw [cons_mem_preface_mul]
      tauto

theorem nil_mem_awaiting {tags : Option (List String)} (ha : [] ∈ a) (hb : [] ∉ b) :
    [] ∈ awaiting tags a b ↔ tags = none := by
  cases tags with
  | none => simp [awaiting, nil_mem_waiting, ha]
  | some names => simp [awaiting, preface, hb]

end Waiting

section Blocks

/-- The scenarios that can still come and the trivia at the end. -/
def scenarios : Language (List Char) :=
  (preface * line (blockLine .scenario) * steps +
    preface * line (blockLine .outline) * steps * (1 + examples))∗ * trivia

/-- What can follow the steps of a block and belongs to it. -/
def closing : BlockKind → Language (List Char)
  | .outline => 1 + examples
  | _ => 1

/-- The steps that a block can still have, and all that follows it. -/
def inSteps (kind : BlockKind) : Language (List Char) :=
  steps * (closing kind * scenarios)

/-- A heading of this kind and all that can follow it. -/
def headedBy (kind : BlockKind) : Language (List Char) :=
  line (blockLine kind) * inSteps kind

/-- The heading of a block and all that can follow it; the flag says whether
    it can be that of the background. -/
def headed : Bool → Language (List Char)
  | false => headedBy .scenario + headedBy .outline
  | true => headedBy .background + (headedBy .scenario + headedBy .outline)

/-- What can follow in a block once nothing is open in it. -/
def settled (kind : BlockKind) : Stage → Language (List Char)
  | .steps => inSteps kind
  | .closed => scenarios

/-- What can follow at a place in a block, when no tags wait. -/
def onward (kind : BlockKind) : Place → Language (List Char)
  | .between stage => settled kind stage
  | .argument .step => (1 + trivia * docString + trivia * table) * settled kind .steps
  | .argument .examples => (1 + trivia * table) * settled kind .closed
  | .table owner columns => (trivia * line (row columns))∗ * settled kind owner.stage
  | .docString _ => (line bodyLine)∗ * (line closeFence * settled kind .steps)

/-- What can come next without tags once nothing is open in a block. -/
def ended : BlockKind → Stage → Language (List Char)
  | .outline, .steps => 1 + line examplesLine * onward .outline (.argument .examples)
  | _, _ => 1

/-- What can come next without tags at a place in a block. -/
def untagged (kind : BlockKind) : Place → Language (List Char)
  | .between stage => ended kind stage
  | .argument .step =>
    ended kind .steps + docString * settled kind .steps + table * settled kind .steps
  | .argument .examples => ended kind .closed + table * settled kind .closed
  | .table owner columns =>
    ended kind owner.stage + line (row columns) * onward kind (.table owner columns)
  | .docString _ => 0

/-- What can come next with or without tags in a block. -/
def tagged (kind : BlockKind) : Stage → Language (List Char)
  | .steps => step * inSteps kind + headed false
  | .closed => headed false

/-- The heading of the feature and all that can follow it. -/
def featured : Language (List Char) :=
  line featureLine * ((line descriptionLine)∗ * body)

theorem scenarios_eq : scenarios = waiting 1 (headed false) := by
  have h := kstar_mul (preface * line (blockLine .scenario) * steps +
    preface * line (blockLine .outline) * steps * (1 + examples)) trivia
  change scenarios = trivia + _ * scenarios at h
  rw [h]
  -- Each kind of block is a summand, and its heading comes first in it.
  simp only [waiting, headed, headedBy, inSteps, closing, mul_assoc, add_mul, mul_add, one_mul,
    mul_one]

theorem body_eq : body = waiting 1 (headed true) := by
  have h : body = (1 + preface * line (blockLine .background) * steps) * scenarios :=
    mul_assoc _ _ _
  -- A background goes on with scenarios, as every other block does.
  have hhead : preface * line (blockLine .background) * steps * scenarios =
      preface * headedBy .background := by
    simp only [headedBy, inSteps, closing, mul_assoc, one_mul]
  rw [h, add_mul, one_mul, hhead, scenarios_eq, waiting_add_right]
  rfl

/-- What follows the steps of a block, by whether it takes tags. -/
theorem closing_mul_scenarios (kind : BlockKind) :
    closing kind * scenarios = waiting (ended kind .steps) (headed false) := by
  have hnone : (1 : Language (List Char)) * scenarios = waiting 1 (headed false) := by
    rw [one_mul, scenarios_eq]
  cases kind with
  | background => exact hnone
  | scenario => exact hnone
  | outline =>
      -- The examples stand before the scenarios that can still come.
      have hexamples : examples * scenarios =
          trivia * (line examplesLine * onward .outline (.argument .examples)) := by
        unfold examples
        rw [mul_assoc, mul_assoc]
        rfl
      unfold closing ended
      rw [add_mul, hnone, hexamples, waiting_add_left]

theorem settled_eq (kind : BlockKind) (stage : Stage) :
    settled kind stage = waiting (ended kind stage) (tagged kind stage) := by
  cases stage with
  | steps =>
      -- A further step, or what follows the steps.
      have h := kstar_mul (preface * step) (closing kind * scenarios)
      change inSteps kind = _ + preface * step * inSteps kind at h
      change inSteps kind = waiting _ (step * inSteps kind + headed false)
      rw [← waiting_add_right, ← closing_mul_scenarios, ← mul_assoc, ← h]
  | closed =>
      have hended : ended kind .closed = 1 := by cases kind <;> rfl
      rw [hended]
      exact scenarios_eq

/-- Rows that can follow a row. -/
theorem rows_eq (columns : ℕ) (a b : Language (List Char)) :
    (trivia * line (row columns))∗ * waiting a b =
      waiting (a + line (row columns) * ((trivia * line (row columns))∗ * waiting a b)) b := by
  rw [← waiting_add_left, ← mul_assoc, ← kstar_mul]

/-- What can follow at a place in a block, by whether it takes tags. In a doc
    string there is no trivia. -/
theorem onward_eq (kind : BlockKind) (place : Place) (h : ∀ indent, place ≠ .docString indent) :
    onward kind place = waiting (untagged kind place) (tagged kind place.stage) := by
  cases place with
  | between stage => exact settled_eq kind stage
  | argument owner =>
      cases owner with
      -- Each argument is one more thing to wait for, and it takes no tags.
      | step =>
          simp only [onward, untagged]
          rw [add_mul, add_mul, one_mul, mul_assoc, mul_assoc, ← waiting_add_left,
            ← waiting_add_left]
          exact congrArg (· + _ + _) (settled_eq kind .steps)
      | examples =>
          simp only [onward, untagged]
          rw [add_mul, one_mul, mul_assoc, ← waiting_add_left]
          exact congrArg (· + _) (settled_eq kind .closed)
  | table owner columns =>
      -- A table can always have a further row.
      have hrows := rows_eq columns (ended kind owner.stage) (tagged kind owner.stage)
      rw [← settled_eq] at hrows
      exact hrows
  | docString indent => exact absurd rfl (h indent)

end Blocks

section Front

variable {text : List Char} {lines : List (List Char)} {kind : BlockKind}

theorem cons_mem_headed {room : Bool} : text :: lines ∈ headed room ↔
    ∃ kind, (kind = .background → room = true) ∧ text ∈ blockLine kind ∧
      lines ∈ onward kind (.between .steps) := by
  have hby : ∀ kind, text :: lines ∈ headedBy kind ↔
      text ∈ blockLine kind ∧ lines ∈ onward kind (.between .steps) :=
    fun _ => cons_mem_line_mul
  cases room with
  | false =>
      simp only [headed, Language.mem_add, hby]
      constructor
      · intro hmem
        rcases hmem with h | h
        · exact ⟨.scenario, by simp, h⟩
        · exact ⟨.outline, by simp, h⟩
      · intro hfront
        rcases hfront with ⟨_ | _ | _, hroom, h⟩
        · exact absurd (hroom rfl) (by simp)
        · exact Or.inl h
        · exact Or.inr h
  | true =>
      simp only [headed, Language.mem_add, hby]
      constructor
      · intro hmem
        rcases hmem with h | h | h
        · exact ⟨.background, by simp, h⟩
        · exact ⟨.scenario, by simp, h⟩
        · exact ⟨.outline, by simp, h⟩
      · intro hfront
        rcases hfront with ⟨_ | _ | _, hroom, h⟩
        · exact Or.inl h
        · exact Or.inr (Or.inl h)
        · exact Or.inr (Or.inr h)

theorem cons_mem_tagged {stage : Stage} : text :: lines ∈ tagged kind stage ↔
    (stage = .steps ∧ text ∈ stepLine ∧ lines ∈ onward kind (.argument .step)) ∨
      text :: lines ∈ headed false := by
  cases stage with
  | steps =>
      simp only [tagged, step, Language.mem_add, mul_assoc, cons_mem_line_mul, onward, settled,
        true_and]
  | closed => simp [tagged]

theorem cons_mem_ended {stage : Stage} : text :: lines ∈ ended kind stage ↔
    kind = .outline ∧ stage = .steps ∧ text ∈ examplesLine ∧
      lines ∈ onward .outline (.argument .examples) := by
  cases stage with
  | steps =>
      cases kind with
      | background => simp [ended]
      | scenario => simp [ended]
      | outline =>
          simp only [ended, Language.mem_add, cons_notMem_one, cons_mem_line_mul, false_or,
            true_and]
  | closed => cases kind <;> simp [ended]

theorem cons_mem_table_mul {a : Language (List Char)} : text :: lines ∈ table * a ↔
    ∃ columns, 1 ≤ columns ∧ text ∈ row columns ∧
      lines ∈ (trivia * line (row columns))∗ * a := by
  have hcons : ∀ columns, text :: lines ∈
      line (row columns) * (trivia * line (row columns))∗ * a ↔
        text ∈ row columns ∧ lines ∈ (trivia * line (row columns))∗ * a := by
    intro columns
    rw [mul_assoc, cons_mem_line_mul]
  -- The number of columns is the same on both sides; only the product is regrouped.
  constructor
  · intro hmem
    rcases hmem with ⟨rows, ⟨columns, hcolumns, hrows⟩, more, hmore, heq⟩
    refine ⟨columns, hcolumns, (hcons columns).mp ?_⟩
    rw [← heq]
    exact Language.append_mem_mul hrows hmore
  · intro hfront
    rcases hfront with ⟨columns, hcolumns, hmem⟩
    rcases (hcons columns).mpr hmem with ⟨rows, hrows, more, hmore, heq⟩
    exact ⟨rows, ⟨columns, hcolumns, hrows⟩, more, hmore, heq⟩

/-- What can come next without tags is the heading of examples, the first row
    of a table or a further one, or a fence. -/
theorem cons_mem_untagged {place : Place} (h : ∀ indent, place ≠ .docString indent) :
    text :: lines ∈ untagged kind place ↔ text :: lines ∈ ended kind place.stage ∨
      (∃ owner columns, place = .argument owner ∧ 1 ≤ columns ∧ text ∈ row columns ∧
        lines ∈ onward kind (.table owner columns)) ∨
      (∃ owner columns, place = .table owner columns ∧ text ∈ row columns ∧
        lines ∈ onward kind place) ∨
      (place = .argument .step ∧ text ∈ openFence ∧ lines ∈ onward kind (.docString 0)) := by
  cases place with
  | between stage => simp [untagged, Place.stage]
  | argument owner =>
      cases owner with
      | step =>
          -- The indentation of a fence is no part of what can follow it.
          have hdoc : text :: lines ∈ docString * settled kind .steps ↔
              text ∈ openFence ∧ lines ∈ onward kind (.docString 0) := by
            unfold docString
            rw [mul_assoc, mul_assoc, cons_mem_line_mul]
            rfl
          have hrows : (∃ owner columns, Place.argument .step = .argument owner ∧ 1 ≤ columns ∧
              text ∈ row columns ∧ lines ∈ onward kind (.table owner columns)) ↔
              text :: lines ∈ table * settled kind .steps := by
            rw [cons_mem_table_mul]
            simp [onward, Owner.stage]
          simp only [untagged, Language.mem_add, hdoc, hrows, Place.stage, Owner.stage,
            reduceCtorEq, false_and, exists_false, false_or, true_and]
          tauto
      | examples =>
          have hrows : (∃ owner columns, Place.argument .examples = .argument owner ∧
              1 ≤ columns ∧ text ∈ row columns ∧ lines ∈ onward kind (.table owner columns)) ↔
              text :: lines ∈ table * settled kind .closed := by
            rw [cons_mem_table_mul]
            simp [onward, Owner.stage]
          simp only [untagged, Language.mem_add, hrows]
          simp [Place.stage, Owner.stage]
  | table owner columns =>
      simp only [untagged, Language.mem_add, cons_mem_line_mul]
      simp [Place.stage]
  | docString indent => exact absurd rfl (h indent)

theorem nil_notMem_headed {room : Bool} : [] ∉ headed room := by
  cases room with
  | false => simp only [headed, Language.mem_add, headedBy, line, nil_notMem_letter_mul, or_self,
      not_false_eq_true]
  | true => simp only [headed, Language.mem_add, headedBy, line, nil_notMem_letter_mul, or_self,
      not_false_eq_true]

theorem nil_notMem_tagged {stage : Stage} : [] ∉ tagged kind stage := by
  cases stage with
  | steps => simp only [tagged, step, Language.mem_add, mul_assoc, line, nil_notMem_letter_mul,
      nil_notMem_headed, or_self, not_false_eq_true]
  | closed =>
      change [] ∉ headed false
      exact nil_notMem_headed

theorem nil_mem_ended {stage : Stage} : [] ∈ ended kind stage := by
  unfold ended
  split
  · exact (Language.mem_add _ _ _).mpr (Or.inl Language.nil_mem_one)
  · exact Language.nil_mem_one

/-- A document can end wherever no doc string is open. -/
theorem nil_mem_untagged {place : Place} (h : ∀ indent, place ≠ .docString indent) :
    [] ∈ untagged kind place := by
  cases place with
  | between stage => exact nil_mem_ended
  | argument owner =>
      cases owner with
      | step => exact Or.inl (Or.inl nil_mem_ended)
      | examples => exact Or.inl nil_mem_ended
  | table owner columns => exact Or.inl nil_mem_ended
  | docString indent => exact absurd rfl (h indent)

end Front

end LineGrammar

end Gherkin
