import Mathlib.Data.List.DropRight
import Gherkin.Text.Basic

/-!
# Laws of Trimming

What is left of a text when blanks or white space are removed from an end of
it. The suffix that `dropTrailing` removes is the one the library's
`rdropWhile` removes, so most of its laws are taken from there.

A text that is printed again is found between blanks other than those it was
read between. The laws below are the ones that make this harmless: trimming a
text that is already trimmed changes nothing, and blanks that are put around
it are trimmed away again.

## Theorems

* `skipBlanks_append`: Blanks in front are skipped.
* `skipBlanks_head`: What is left does not begin with a blank.
* `dropTrailing_eq_rdropWhile`: Removal from the end is the library's.
* `dropTrailing_append`: Removed characters may be added at the end.
* `trim_eq_self`: A trimmed text is unchanged by either half of trimming.
* `trim_of_ends`: A text whose ends are kept is trimmed.
* `trim_padded`: Padding is trimmed away.
* `mem_trim_of_between`: What stands between two that are kept is kept.
* `skipBlanks_stripIndent`: Removing an indentation keeps the content.
-/

namespace Gherkin

namespace Text

/-- Blanks in front are skipped. -/
theorem skipBlanks_append (gap cs : List Char) (h : ∀ c ∈ gap, isBlank c = true) :
    skipBlanks (gap ++ cs) = skipBlanks cs := by
  unfold skipBlanks
  exact List.dropWhile_append_of_pos h

theorem skipBlanks_cons (c : Char) (cs : List Char) (h : isBlank c = false) :
    skipBlanks (c :: cs) = c :: cs := by
  unfold skipBlanks
  exact List.dropWhile_cons_of_neg (by rw [h]; decide)

/-- What is left after blanks have been skipped does not begin with one. -/
theorem skipBlanks_head {cs rest : List Char} {c : Char} (h : skipBlanks cs = c :: rest) :
    isBlank c = false := by
  have hne : cs.dropWhile isBlank ≠ [] := by
    unfold skipBlanks at h
    rw [h]
    exact List.cons_ne_nil c rest
  have hhead := List.head_dropWhile_not isBlank hne
  unfold skipBlanks at h
  simp only [h, List.head_cons] at hhead
  exact hhead

@[simp] theorem skipBlanks_idem (cs : List Char) :
    skipBlanks (skipBlanks cs) = skipBlanks cs := by
  cases h : skipBlanks cs with
  | nil => rfl
  | cons c rest => exact skipBlanks_cons c rest (skipBlanks_head h)

/-- A text is the blanks it begins with and what is left without them. -/
theorem exists_skipBlanks (cs : List Char) :
    ∃ gap, (∀ c ∈ gap, isBlank c = true) ∧ cs = gap ++ skipBlanks cs :=
  ⟨cs.takeWhile isBlank, fun _ hc => List.mem_takeWhile_imp hc,
    (List.takeWhile_append_dropWhile).symm⟩

/-- A text of which nothing is left consists of blanks. -/
theorem skipBlanks_eq_nil_iff {cs : List Char} :
    skipBlanks cs = [] ↔ ∀ c ∈ cs, isBlank c = true := by
  unfold skipBlanks
  exact List.dropWhile_eq_nil_iff

theorem mem_of_mem_skipBlanks {cs : List Char} {c : Char} (h : c ∈ skipBlanks cs) : c ∈ cs :=
  (List.dropWhile_sublist isBlank).subset h

@[simp] theorem toList_spaces (n : Nat) : (spaces n).toList = List.replicate n ' ' := by
  simp [spaces]

@[simp] theorem length_spaces (n : Nat) : (spaces n).length = n := by
  rw [← String.length_toList, toList_spaces, List.length_replicate]

theorem isBlank_of_mem_replicate {n : Nat} {c : Char} (h : c ∈ List.replicate n ' ') :
    isBlank c = true := by
  rw [List.eq_of_mem_replicate h]
  decide

/-- Spaces in front are skipped. -/
@[simp] theorem skipBlanks_replicate (n : Nat) (cs : List Char) :
    skipBlanks (List.replicate n ' ' ++ cs) = skipBlanks cs :=
  skipBlanks_append _ cs (fun _ h => isBlank_of_mem_replicate h)

section Trailing

variable {α : Type} (p : α → Bool)

theorem dropTrailing_concat (cs : List α) (a : α) :
    dropTrailing p (cs ++ [a]) = if p a then dropTrailing p cs else cs ++ [a] := by
  induction cs with
  | nil => by_cases h : p a <;> simp [dropTrailing, h]
  | cons b rest ih =>
      simp only [List.cons_append, dropTrailing]
      rw [ih]
      by_cases h : p a
      · simp only [h, if_true]
      · simp [h]

/-- Removal from the end is the library's. -/
theorem dropTrailing_eq_rdropWhile (cs : List α) : dropTrailing p cs = cs.rdropWhile p := by
  -- The library's function is computed from the end, so the induction is too.
  induction cs using List.reverseRecOn with
  | nil => rfl
  | append_singleton rest a ih => rw [dropTrailing_concat, List.rdropWhile_concat, ih]

@[simp] theorem dropTrailing_idem (cs : List α) :
    dropTrailing p (dropTrailing p cs) = dropTrailing p cs := by
  simp only [dropTrailing_eq_rdropWhile]
  exact List.rdropWhile_idempotent p cs

/-- Characters that are removed may be added at the end. -/
theorem dropTrailing_append (cs tail : List α) (h : ∀ a ∈ tail, p a = true) :
    dropTrailing p (cs ++ tail) = dropTrailing p cs := by
  induction tail using List.reverseRecOn with
  | nil => rw [List.append_nil]
  | append_singleton rest a ih =>
      have ha : p a = true := h a (by simp)
      rw [← List.append_assoc, dropTrailing_concat, if_pos ha]
      exact ih (fun b hb => h b (by simp [hb]))

theorem mem_of_mem_dropTrailing {cs : List α} {a : α} (h : a ∈ dropTrailing p cs) : a ∈ cs := by
  rw [dropTrailing_eq_rdropWhile] at h
  exact (List.rdropWhile_prefix p cs).subset h

theorem length_dropTrailing_le (cs : List α) : (dropTrailing p cs).length ≤ cs.length := by
  rw [dropTrailing_eq_rdropWhile]
  exact (List.rdropWhile_prefix p cs).length_le

/-- A trimmed text is unchanged by either half of trimming. Both halves only
    ever shorten, so if together they keep the length then so does each. -/
theorem trim_eq_self {cs : List α} (h : trim p cs = cs) :
    cs.dropWhile p = cs ∧ dropTrailing p cs = cs := by
  have hlen : cs.length ≤ (cs.dropWhile p).length := by
    calc cs.length = (trim p cs).length := by rw [h]
      _ ≤ (cs.dropWhile p).length := length_dropTrailing_le p _
  -- A suffix of the same length is the whole list.
  have hdrop : cs.dropWhile p = cs := (List.dropWhile_suffix p).eq_of_length_le hlen
  refine ⟨hdrop, ?_⟩
  unfold trim at h
  rw [hdrop] at h
  exact h

/-- A text whose ends are kept is trimmed. -/
theorem trim_of_ends {cs : List α} (hfirst : ∀ a ∈ cs.head?, p a = false)
    (hlast : ∀ a ∈ cs.getLast?, p a = false) : trim p cs = cs := by
  have hdrop : cs.dropWhile p = cs := by
    cases cs with
    | nil => rfl
    | cons a rest => exact List.dropWhile_cons_of_neg (by rw [hfirst a rfl]; decide)
  unfold trim
  rw [hdrop, dropTrailing_eq_rdropWhile, List.rdropWhile_eq_self_iff]
  intro hne hp
  rw [hlast _ (List.getLast?_eq_some_getLast hne)] at hp
  exact absurd hp (by decide)

@[simp] theorem trim_trim (cs : List α) : trim p (trim p cs) = trim p cs := by
  have hhead : (trim p cs).dropWhile p = trim p cs := by
    unfold trim
    rw [dropTrailing_eq_rdropWhile]
    cases hd : (cs.dropWhile p).rdropWhile p with
    | nil => rfl
    | cons a rest =>
        -- The first character is one of the untrimmed text's, which was no member of `p`.
        have hpre := List.rdropWhile_prefix p (cs.dropWhile p)
        rw [hd] at hpre
        rcases hpre with ⟨tail, htail⟩
        have hne : cs.dropWhile p ≠ [] := by rw [← htail]; simp
        have hfirst := List.head_dropWhile_not p hne
        have ha : (cs.dropWhile p).head hne = a := by simp only [← htail, List.cons_append,
          List.head_cons]
        rw [ha] at hfirst
        exact List.dropWhile_cons_of_neg (by rw [hfirst]; decide)
  calc trim p (trim p cs) = dropTrailing p ((trim p cs).dropWhile p) := rfl
    _ = dropTrailing p (trim p cs) := by rw [hhead]
    _ = trim p cs := dropTrailing_idem p _

/-- Padding is trimmed away. -/
theorem trim_padded {cs : List α} (left right : List α) (hl : ∀ a ∈ left, p a = true)
    (hr : ∀ a ∈ right, p a = true) (h : trim p cs = cs) :
    trim p (left ++ cs ++ right) = cs := by
  rcases trim_eq_self p h with ⟨hdrop, htrail⟩
  unfold trim
  rw [List.append_assoc, List.dropWhile_append_of_pos hl]
  cases cs with
  | nil =>
      -- Nothing but padding: it is one run, and all of it goes.
      have hnil : right.dropWhile p = [] := List.dropWhile_eq_nil_iff.mpr hr
      rw [List.nil_append, hnil]
      rfl
  | cons a rest =>
      -- The text begins with what stays, since trimming has nothing to do there.
      have ha : ¬ p a = true := by
        intro hpa
        rw [List.dropWhile_cons_of_pos hpa] at hdrop
        have hlen := congrArg List.length hdrop
        have hle := (List.dropWhile_sublist p (l := rest)).length_le
        simp only [List.length_cons] at hlen
        omega
      rw [List.cons_append, List.dropWhile_cons_of_neg ha, ← List.cons_append,
        dropTrailing_append p _ right hr, htrail]

theorem dropTrailing_ne_nil {cs : List α} (h : ∃ a ∈ cs, p a = false) : dropTrailing p cs ≠ [] := by
  rcases h with ⟨a, hmem, ha⟩
  rw [dropTrailing_eq_rdropWhile, Ne, List.rdropWhile_eq_nil_iff]
  intro hall
  exact absurd (hall a hmem) (by simp [ha])

/-- What stands in front of something that is kept is kept with it. -/
theorem dropTrailing_append_of_mem (front : List α) {cs : List α} (h : ∃ a ∈ cs, p a = false) :
    dropTrailing p (front ++ cs) = front ++ dropTrailing p cs := by
  have hne := dropTrailing_ne_nil p h
  induction front with
  | nil => rfl
  | cons b rest ih => simp [dropTrailing, ih, hne]

/-- What stands between two that are kept, or is kept itself, is kept. -/
theorem mem_trim_of_between {before after : List α} {a : α}
    (hfirst : ∃ b ∈ before ++ [a], p b = false) (hlast : ∃ b ∈ a :: after, p b = false) :
    a ∈ trim p (before ++ a :: after) := by
  have hdrop : ∃ front, (before ++ a :: after).dropWhile p = front ++ a :: after := by
    have hne : (before ++ [a]).dropWhile p ≠ [] := by
      rcases hfirst with ⟨b, hb, hpb⟩
      rw [Ne, List.dropWhile_eq_nil_iff]
      intro hall
      exact absurd (hall b hb) (by simp [hpb])
    rcases List.suffix_concat_iff.mp (List.dropWhile_suffix p (l := before ++ [a])) with
      hnil | ⟨front, hfront, -⟩
    · exact absurd hnil hne
    · refine ⟨front, ?_⟩
      rw [← List.singleton_append, ← List.append_assoc, List.dropWhile_append,
        if_neg (by simpa using hne), hfront, List.append_assoc, List.singleton_append]
  rcases hdrop with ⟨front, hfront⟩
  rw [trim, hfront, dropTrailing_append_of_mem p front hlast]
  refine List.mem_append_right _ ?_
  -- The member itself is in front of what is kept behind it.
  have hne := dropTrailing_ne_nil p hlast
  simp only [dropTrailing] at hne ⊢
  split at hne
  · exact absurd rfl hne
  · rename_i hkept
    rw [if_neg hkept]
    exact List.mem_cons_self
end Trailing

/-- Removing an indentation keeps what follows all blanks. -/
@[simp] theorem skipBlanks_stripIndent (indent : Nat) (cs : List Char) :
    skipBlanks (stripIndent indent cs) = skipBlanks cs := by
  induction indent generalizing cs with
  | zero => cases cs <;> rfl
  | succ n ih =>
      cases cs with
      | nil => rfl
      | cons c rest =>
          unfold stripIndent
          by_cases h : isBlank c = true
          · rw [if_pos h, ih]
            exact (skipBlanks_append [c] rest (by simpa using h)).symm
          · rw [if_neg h]

theorem mem_of_mem_stripIndent {indent : Nat} {cs : List Char} {c : Char}
    (h : c ∈ stripIndent indent cs) : c ∈ cs := by
  induction indent generalizing cs with
  | zero => cases cs <;> exact h
  | succ n ih =>
      cases cs with
      | nil => exact h
      | cons a rest =>
          unfold stripIndent at h
          by_cases ha : isBlank a = true
          · rw [if_pos ha] at h
            exact List.mem_cons_of_mem a (ih h)
          · rw [if_neg ha] at h
            exact h

/-- Removing an indentation leaves the end of a line. -/
theorem stripIndent_suffix (indent : Nat) (cs : List Char) :
    stripIndent indent cs <:+ cs := by
  fun_induction stripIndent indent cs with
  | case1 indent c rest hblank ih => exact ih.trans (List.suffix_cons c rest)
  | case2 => exact List.suffix_rfl
  | case3 => exact List.suffix_rfl

/-- An indentation of exactly the stripped width is removed whole and nothing
    else is. -/
@[simp] theorem stripIndent_replicate (n : Nat) (cs : List Char) :
    stripIndent n (List.replicate n ' ' ++ cs) = cs := by
  induction n with
  | zero => cases cs <;> rfl
  | succ k ih =>
      rw [List.replicate_succ, List.cons_append, stripIndent, if_pos (by decide), ih]

end Text

end Gherkin
