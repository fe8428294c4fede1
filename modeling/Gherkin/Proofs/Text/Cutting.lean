import Mathlib.Data.List.Basic

/-!
# Texts Cut at a Sign

A text is made of pieces that a sign closes and of one more piece behind the
last sign, and it is so in one way only. What is written piece by piece, such
as a line at a time, can therefore be cut into its pieces again, and the signs
in it can be counted.

## Theorems

* `splitOn_iff`: Pieces and the text they are put together to.
* `count_closed`: A text has a sign for every piece that one closes.
-/

namespace Gherkin

namespace Text

variable {sep : Char} {pieces : List (List Char)} {tail : List Char}

theorem splitOn_closed (h : ∀ piece ∈ pieces ++ [tail], sep ∉ piece) :
    (pieces.flatMap (· ++ [sep]) ++ tail).splitOn sep = pieces ++ [tail] := by
  induction pieces with
  | nil => exact List.splitOn_eq_singleton (h tail (by simp))
  | cons piece rest ih =>
      have hcs : (piece :: rest).flatMap (· ++ [sep]) ++ tail =
          piece ++ sep :: (rest.flatMap (· ++ [sep]) ++ tail) := by simp
      rw [hcs, List.splitOn_append_cons_self_of_not_mem (h piece (by simp)),
        ih (fun q hq => h q (List.mem_cons_of_mem piece hq)), List.cons_append]

/-- Every text is made of pieces that a sign closes and of one more. -/
theorem exists_closed (sep : Char) (cs : List Char) : ∃ pieces tail,
    cs = pieces.flatMap (· ++ [sep]) ++ tail ∧ ∀ piece ∈ pieces ++ [tail], sep ∉ piece := by
  induction cs with
  | nil => exact ⟨[], [], rfl, by simp⟩
  | cons c rest ih =>
      rcases ih with ⟨pieces, tail, rfl, hseps⟩
      by_cases hc : c = sep
      · subst hc
        exact ⟨[] :: pieces, tail, by simp, by simpa using hseps⟩
      · have hother : sep ≠ c := fun h => hc h.symm
        cases pieces with
        | nil => exact ⟨[], c :: tail, by simp, by simpa [hother] using hseps⟩
        | cons piece more =>
            refine ⟨(c :: piece) :: more, tail, by simp, ?_⟩
            simpa [hother] using hseps

/-- Pieces and the text they are put together to. -/
theorem splitOn_iff {cs : List Char} :
    cs.splitOn sep = pieces ++ [tail] ↔
      cs = pieces.flatMap (· ++ [sep]) ++ tail ∧ ∀ piece ∈ pieces ++ [tail], sep ∉ piece := by
  constructor
  · intro hcut
    rcases exists_closed sep cs with ⟨others, last, rfl, hseps⟩
    -- The text can be cut in one way only.
    rw [splitOn_closed hseps] at hcut
    rcases List.append_inj' hcut rfl with ⟨rfl, hlast⟩
    cases hlast
    exact ⟨rfl, hseps⟩
  · rintro ⟨rfl, hseps⟩
    exact splitOn_closed hseps

/-- A text has a sign for every piece that one closes. -/
theorem count_closed (h : ∀ piece ∈ pieces ++ [tail], sep ∉ piece) :
    (pieces.flatMap (· ++ [sep]) ++ tail).count sep = pieces.length := by
  induction pieces with
  | nil => simpa using List.count_eq_zero.mpr (h tail (by simp))
  | cons piece rest ih =>
      have hrest := ih (fun q hq => h q (List.mem_cons_of_mem piece hq))
      have hpiece : piece.count sep = 0 := List.count_eq_zero.mpr (h piece (by simp))
      rw [List.count_append] at hrest
      simp only [List.flatMap_cons, List.count_append, List.count_singleton_self, hpiece,
        List.length_cons]
      omega

end Text

end Gherkin
