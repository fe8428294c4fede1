import Mathlib.Computability.Language

/-!
# Languages Read From the Front

A reader that goes through a list from the front decides membership in a
language one letter at a time. So for each way to build languages this module
says when a list that begins with a given letter is in the language, in terms
of the rest of the list. Letters are described by properties, because neither
characters nor lines are few.

## Main definitions

* `letter`: The lists of one letter that has a property.

## Theorems

* `cons_mem_letter_mul`: A letter, and then the rest.
* `kstar_mul`: Something repeated before something else.
* `cons_mem_kstar_letter_mul`: Letters of one kind before something else.
-/

namespace Gherkin

open scoped Computability

variable {α : Type}

/-- The lists of one letter that has a property. -/
def letter (p : α → Prop) : Language α :=
  {word | ∃ a, p a ∧ word = [a]}

section

variable {p q : α → Prop} {a : α} {rest : List α} {l m : Language α}

@[simp] theorem cons_mem_letter_mul :
    a :: rest ∈ letter p * l ↔ p a ∧ rest ∈ l := by
  rw [Language.mem_mul]
  constructor
  · intro hmem
    rcases hmem with ⟨_, ⟨b, hb, rfl⟩, more, hmore, heq⟩
    rw [List.singleton_append, List.cons.injEq] at heq
    rcases heq with ⟨rfl, rfl⟩
    exact ⟨hb, hmore⟩
  · intro hfront
    rcases hfront with ⟨ha, hrest⟩
    exact ⟨[a], ⟨a, ha, rfl⟩, rest, hrest, rfl⟩

@[simp] theorem nil_notMem_letter_mul : [] ∉ letter p * l := by
  rw [Language.mem_mul]
  intro hmem
  rcases hmem with ⟨_, ⟨b, hb, rfl⟩, more, hmore, heq⟩
  exact absurd heq (by simp)

@[simp] theorem cons_notMem_one : a :: rest ∉ (1 : Language α) := by
  rw [Language.mem_one]
  simp

theorem nil_mem_mul : [] ∈ l * m ↔ [] ∈ l ∧ [] ∈ m := by
  rw [Language.mem_mul]
  constructor
  · intro hmem
    rcases hmem with ⟨a, ha, b, hb, heq⟩
    rw [List.append_eq_nil_iff] at heq
    rcases heq with ⟨rfl, rfl⟩
    exact ⟨ha, hb⟩
  · intro hfront
    rcases hfront with ⟨hl, hm⟩
    exact ⟨[], hl, [], hm, rfl⟩

/-- Something repeated before something else: it is there once more, or it is
    not there at all. -/
theorem kstar_mul (l m : Language α) : l∗ * m = m + l * (l∗ * m) := by
  -- A repetition is empty or starts with one of its parts.
  nth_rewrite 1 [← Language.one_add_self_mul_kstar_eq_kstar l]
  rw [add_mul, one_mul, mul_assoc]

theorem letter_add_letter (p q : α → Prop) :
    letter p + letter q = letter (fun a => p a ∨ q a) := by
  ext word
  rw [Language.mem_add]
  constructor
  · intro hmem
    rcases hmem with ⟨a, ha, rfl⟩ | ⟨a, ha, rfl⟩
    · exact ⟨a, Or.inl ha, rfl⟩
    · exact ⟨a, Or.inr ha, rfl⟩
  · intro hfront
    rcases hfront with ⟨a, ha | ha, rfl⟩
    · exact Or.inl ⟨a, ha, rfl⟩
    · exact Or.inr ⟨a, ha, rfl⟩

/-- Letters of one kind before something else. -/
theorem cons_mem_kstar_letter_mul :
    a :: rest ∈ (letter p)∗ * l ↔ a :: rest ∈ l ∨ (p a ∧ rest ∈ (letter p)∗ * l) := by
  nth_rewrite 1 [kstar_mul]
  rw [Language.mem_add, cons_mem_letter_mul]

@[simp] theorem nil_mem_kstar_mul : [] ∈ l∗ * m ↔ [] ∈ m := by
  rw [nil_mem_mul]
  exact ⟨fun h => h.2, fun h => ⟨Language.nil_mem_kstar l, h⟩⟩

/-- A list of letters of one kind. -/
theorem mem_kstar_letter {word : List α} : word ∈ (letter p)∗ ↔ ∀ a ∈ word, p a := by
  induction word with
  | nil => simp [Language.nil_mem_kstar]
  | cons a rest ih =>
      -- A repetition alone is one before the empty word.
      rw [← mul_one (letter p)∗, cons_mem_kstar_letter_mul, mul_one, ih]
      simp

end

end Gherkin
