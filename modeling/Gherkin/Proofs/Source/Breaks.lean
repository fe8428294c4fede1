import Mathlib.Data.Set.Card
import Gherkin.Proofs.Source.Extension

/-!
# Where Line Breaks End

The lines of a document were made by a recursion on its characters. Here they
are met again from the other side: given a character of the document, which
line does it stand on, and is it part of the text or of the ending? Only the
carriage return in front of a line feed is part of an ending without being its
last character.

So a line break can be told by the characters alone. It is over behind a line
feed, and behind a carriage return that no line feed follows, and the lines of
the document are ended at just these offsets.

## Main definitions

* `EndsInBreak`: The last line of a document is ended.
* `BreakEnds`: A line break is over at an offset.
* `breaks`: The line breaks that are over at an offset.

## Theorems

* `At.exists_line`: A character is part of a line's text or of its ending.
* `At.breakEnds_iff`: Whether a line break is over behind a character.
* `breakEnds_next`: Where a line ends, a line break is over.
* `At.ncard_breaks_succ`, `At.breaks_eq`: One more line break is over behind a
  character, or none.
-/

namespace Gherkin

namespace Source

/-- The last line of a document is ended. -/
def EndsInBreak (source : String) : Prop :=
  source.toList.getLast? = some '\n' ∨ source.toList.getLast? = some '\r'

section Lines

variable {source : String} {above below : List Line} {line : Line}

theorem Ending.getLast?_chars {ending : Ending} (h : ending ≠ .none) :
    ending.chars.getLast? = some '\n' ∨ ending.chars.getLast? = some '\r' := by
  cases ending <;> simp_all [Ending.chars]

/-- A character of an ending is its last one, or the carriage return in front
    of a line feed. -/
theorem Ending.chars_eq_append {ending : Ending} {c : Char} {passed left : List Char}
    (h : ending.chars = passed ++ c :: left) :
    (left = [] ∧ (c = '\n' ∨ (c = '\r' ∧ ending = .carriageReturn))) ∨
      (ending = .both ∧ passed = [] ∧ c = '\r' ∧ left = ['\n']) := by
  cases ending with
  | none => simp [chars] at h
  | lineFeed => simp_all [chars, List.cons_eq_append_iff]
  | carriageReturn => simp_all [chars, List.cons_eq_append_iff]
  | both =>
      simp only [chars, List.cons_eq_append_iff, List.cons.injEq, List.nil_eq_append_iff] at h
      rcases h with ⟨rfl, rfl, rfl⟩ | ⟨_, rfl, ⟨rfl, rfl, rfl⟩ | ⟨_, rfl, _, hnil⟩⟩
      · exact Or.inr ⟨rfl, rfl, rfl, rfl⟩
      · exact Or.inl ⟨rfl, Or.inl rfl⟩
      · simp at hnil

/-- A document ends in a line break exactly if its last line is ended. -/
theorem endsInBreak_iff (h : lines source = above ++ [line]) :
    EndsInBreak source ↔ line.ending ≠ .none := by
  constructor
  · intro hends hnone
    have hlast := Line.getLast?_of_none h hnone
    exact hends.elim hlast.1 hlast.2
  · intro hended
    have hchars := Line.split_chars 0 source.toList
    rw [← Source.lines, h, List.flatMap_append, List.flatMap_singleton, Line.chars,
      ← List.append_assoc] at hchars
    have hlast := Ending.getLast?_chars hended
    rw [← List.getLast?_append_of_ne_nil _ (Ending.chars_ne_nil hended), hchars] at hlast
    exact hlast

/-- The lines above a line are ended, and end before it starts. -/
theorem Line.Follow.passed {start : Nat} (h : Follow start (above ++ line :: below)) :
    ∀ upper ∈ above, upper.ending ≠ .none ∧ upper.next ≤ line.start := by
  intro upper hupper
  refine ⟨h.ended (List.cons_ne_nil _ _) upper hupper, ?_⟩
  induction above generalizing start with
  | nil => simp at hupper
  | cons first rest ih =>
      rcases h with ⟨-, -, hrest⟩
      rcases List.mem_cons.mp hupper with rfl | hmem
      · exact hrest.start_le line (by simp)
      · exact ih hrest hmem

theorem Line.Follow.next_start {start : Nat} {later : Line}
    (h : Follow start (above ++ line :: later :: below)) : later.start = line.next := by
  induction above generalizing start with
  | nil => exact h.2.2.1
  | cons first rest ih => exact ih h.2.2

/-- All lines of a document are ended if the last one is. -/
theorem ended_of_last (h : lines source = above ++ [line]) (hended : line.ending ≠ .none) :
    ∀ upper ∈ lines source, upper.ending ≠ .none := by
  have hfollow := Line.follow_split 0 source.toList
  rw [← lines, h] at hfollow
  intro upper hupper
  rw [h] at hupper
  rcases List.mem_append.mp hupper with habove | hlast
  · exact (hfollow.passed upper habove).1
  · rwa [List.mem_singleton.mp hlast]

theorem next_le_size (h : lines source = above ++ line :: below) : line.next ≤ size source := by
  have hnext := (at_line h).skip.le_size
  rwa [Line.width_chars] at hnext

/-- A document goes on to where its last line ends. -/
theorem size_eq_next (h : lines source = above ++ [line]) : size source = line.next := by
  have hsize := (at_line h).size_eq
  rwa [List.flatMap_nil, List.append_nil, Line.width_chars] at hsize

/-- Without an ending this is the last place on that line. -/
theorem size_eq_offsetOf (h : lines source = above ++ [line]) (hopen : line.ending = .none) :
    size source = line.offsetOf [] := by
  rw [size_eq_next h, Line.next, hopen]
  rfl

end Lines

section Breaks

variable {source : String} {above below : List Line} {line : Line} {c : Char}
  {rest : List Char} {offset : Nat}

/-- A line break of a document is over at an offset. A line feed is the end of
    a break whatever stands before it, a carriage return only where no line
    feed follows. -/
inductive BreakEnds (source : String) : Nat → Prop
  | lineFeed {start : Nat} {rest : List Char} (h : At source start ('\n' :: rest)) :
      BreakEnds source (start + 1)
  | carriageReturn {start : Nat} {rest : List Char} (h : At source start ('\r' :: rest))
      (hrest : rest.head? ≠ some '\n') : BreakEnds source (start + 1)

/-- The place behind one more character. -/
theorem At.next (h : At source offset (c :: rest)) : At source (offset + c.utf8Size) rest := by
  have hskip : At source (offset + Text.width [c]) rest := h.skip
  exact hskip

theorem at_size (source : String) : At source (size source) [] :=
  ⟨source.toList, (List.append_nil _).symm, rfl⟩

theorem BreakEnds.exists_at (h : BreakEnds source offset) : ∃ rest, At source offset rest := by
  cases h with
  | lineFeed hat => exact ⟨_, hat.next⟩
  | carriageReturn hat hrest => exact ⟨_, hat.next⟩

/-- At an offset a document can only go on in one way. -/
theorem At.unique {more : List Char} (h : At source offset rest) (hmore : At source offset more) :
    rest = more := by
  rcases h.exists_between hmore (Nat.le_refl offset) with ⟨between, hrest, hoffset⟩
  have hnil : between = [] := Text.width_eq_zero_iff.mp (by omega)
  rw [hrest, hnil, List.nil_append]

/-- Characters with the same text behind them at the same offset are the
    same. -/
theorem At.char_eq {d : Char} {start other : Nat} {more : List Char}
    (h : At source start (c :: rest)) (hmore : At source other (d :: more))
    (heq : start + c.utf8Size = other + d.utf8Size) : c = d ∧ rest = more := by
  have hrest : rest = more := by
    have hbehind := hmore.next
    rw [← heq] at hbehind
    exact h.next.unique hbehind
  subst hrest
  rcases h with ⟨before, hsource, -⟩
  rcases hmore with ⟨before', hsource', -⟩
  rw [hsource, List.append_cons, List.append_cons before'] at hsource'
  have hfront := List.append_cancel_right hsource'
  exact ⟨by simpa using (List.append_inj_right' hfront rfl), rfl⟩

/-- Whether a line break is over behind a character. -/
theorem At.breakEnds_iff (h : At source offset (c :: rest)) :
    BreakEnds source (offset + c.utf8Size) ↔ c = '\n' ∨ (c = '\r' ∧ rest.head? ≠ some '\n') := by
  constructor
  · intro hends
    generalize hstop : offset + c.utf8Size = stop at hends
    cases hends with
    | lineFeed hfeed => exact Or.inl (h.char_eq hfeed hstop).1
    | carriageReturn hreturn hrest =>
        rcases h.char_eq hreturn hstop with ⟨hc, rfl⟩
        exact Or.inr ⟨hc, hrest⟩
  · rintro (rfl | ⟨rfl, hrest⟩)
    · exact .lineFeed h
    · exact .carriageReturn h hrest

/-- Every character of a document stands on a line, ending included. -/
theorem Line.exists_of_flatMap_chars {lines : List Line} {before : List Char}
    (h : lines.flatMap chars = before ++ c :: rest) :
    ∃ above line below passed left, lines = above ++ line :: below ∧
      line.chars = passed ++ c :: left ∧ before = above.flatMap chars ++ passed ∧
      rest = left ++ below.flatMap chars := by
  induction lines generalizing before with
  | nil => simp at h
  | cons first more ih =>
      -- The character stands further down, or on the first line.
      have hdown : ∀ gap, more.flatMap chars = gap ++ c :: rest → before = first.chars ++ gap →
          ∃ above line below passed left, first :: more = above ++ line :: below ∧
            line.chars = passed ++ c :: left ∧ before = above.flatMap chars ++ passed ∧
            rest = left ++ below.flatMap chars := by
        intro gap hmore hbefore
        rcases ih hmore with ⟨above, line, below, passed, left, rfl, hline, rfl, hrest⟩
        exact ⟨first :: above, line, below, passed, left, rfl, hline, by simp [hbefore], hrest⟩
      rw [List.flatMap_cons] at h
      rcases List.append_eq_append_iff.mp h with ⟨gap, hbefore, hmore⟩ | ⟨gap, hfirst, hgap⟩
      · exact hdown gap hmore hbefore
      · cases gap with
        | nil =>
            rw [List.nil_append] at hgap
            rw [List.append_nil] at hfirst
            exact hdown [] hgap.symm (by rw [hfirst, List.append_nil])
        | cons d left =>
            rw [List.cons_append, List.cons.injEq] at hgap
            rcases hgap with ⟨rfl, rfl⟩
            exact ⟨[], first, more, before, left, rfl, hfirst, rfl, rfl⟩

/-- A character of a document is part of the text of a line, or of its
    ending. -/
theorem At.exists_line (h : At source offset (c :: rest)) :
    ∃ above line below, lines source = above ++ line :: below ∧
      ((∃ behind, c :: behind <:+ line.text ∧ offset = line.offsetOf (c :: behind)) ∨
        ∃ passed left, line.ending.chars = passed ++ c :: left ∧
          offset = line.stop + Text.width passed ∧ rest = left ++ below.flatMap Line.chars) := by
  rcases h with ⟨before, hsource, rfl⟩
  have hchars := Line.split_chars 0 source.toList
  rw [← lines, hsource] at hchars
  rcases Line.exists_of_flatMap_chars hchars with
    ⟨above, line, below, passed, left, hlines, hline, rfl, rfl⟩
  have hfollow := Line.follow_split 0 source.toList
  rw [← lines, hlines] at hfollow
  have hstart : Text.width (above.flatMap Line.chars) = line.start := by
    rw [hfollow.start_eq, Nat.zero_add]
  rw [Text.width_append, hstart]
  refine ⟨above, line, below, hlines, ?_⟩
  rw [Line.chars] at hline
  rcases List.append_eq_append_iff.mp hline with ⟨gap, rfl, hending⟩ | ⟨gap, htext, hgap⟩
  · refine Or.inr ⟨gap, left, hending, ?_, rfl⟩
    rw [Text.width_append, Line.stop, Nat.add_assoc]
  · cases gap with
    | nil =>
        rw [List.append_nil] at htext
        refine Or.inr ⟨[], left, hgap.symm, ?_, rfl⟩
        rw [Line.stop, htext]
        rfl
    | cons d behind =>
        rw [List.cons_append, List.cons.injEq] at hgap
        rcases hgap with ⟨rfl, -⟩
        refine Or.inl ⟨behind, ⟨passed, htext.symm⟩, ?_⟩
        rw [Line.offsetOf, Line.stop, htext, Text.width_append, ← Nat.add_assoc,
          Nat.add_sub_cancel]

/-- No line feed follows a carriage return that ends a line. -/
theorem head?_behind (h : lines source = above ++ line :: below)
    (hreturn : line.ending = .carriageReturn) :
    (below.flatMap Line.chars).head? ≠ some '\n' := by
  cases below with
  | nil => simp
  | cons later more =>
      have hlater : lines source = (above ++ [line]) ++ later :: more := by simp [h]
      exact head?_below hlater (more.flatMap Line.chars) line (by simp) hreturn

/-- A line starts where the line above it ends. -/
theorem start_below {later : Line} (h : lines source = above ++ line :: later :: below) :
    later.start = line.next := by
  have hfollow := Line.follow_split 0 source.toList
  rw [← lines, h] at hfollow
  exact hfollow.next_start

/-- A line break is over where a line that is ended stops. -/
theorem breakEnds_next (h : lines source = above ++ line :: below) (hended : line.ending ≠ .none) :
    BreakEnds source line.next := by
  have hstop := (at_place h List.nil_suffix).2.1
  cases hending : line.ending with
  | none => exact absurd hending hended
  | lineFeed =>
      rw [hending] at hstop
      rw [Line.next, hending]
      exact .lineFeed hstop
  | carriageReturn =>
      rw [hending] at hstop
      rw [Line.next, hending]
      exact .carriageReturn hstop (head?_behind h hending)
  | both =>
      rw [hending] at hstop
      rw [Line.next, hending]
      exact .lineFeed (At.next hstop)

/-- The line breaks that are over at an offset, by where they end. -/
def breaks (source : String) (offset : Nat) : Set Nat :=
  {stop | stop ≤ offset ∧ BreakEnds source stop}

theorem finite_breaks (source : String) (offset : Nat) : (breaks source offset).Finite :=
  (Set.finite_le_nat offset).subset fun _ hstop => hstop.1

theorem breaks_zero (source : String) : breaks source 0 = ∅ := by
  ext stop
  constructor
  · rintro ⟨hle, hends⟩
    cases hends <;> simp at hle
  · exact False.elim

/-- No line break ends inside a character. -/
theorem At.le_or_eq_of_breakEnds {stop : Nat} (h : At source offset (c :: rest))
    (hle : stop ≤ offset + c.utf8Size) (hends : BreakEnds source stop) :
    stop ≤ offset ∨ stop = offset + c.utf8Size := by
  by_cases hbefore : stop ≤ offset
  · exact Or.inl hbefore
  · rcases hends.exists_at with ⟨more, hmore⟩
    rcases h.exists_between hmore (by omega) with ⟨between, hrest, hstop⟩
    cases between with
    | nil =>
        rw [Text.width_nil] at hstop
        omega
    | cons d later =>
        rw [List.cons_append, List.cons.injEq] at hrest
        rw [Text.width_cons, ← hrest.1] at hstop
        omega

/-- Behind the last character of an ending one more line break is over. -/
theorem At.ncard_breaks_succ (h : At source offset (c :: rest))
    (hends : c = '\n' ∨ (c = '\r' ∧ rest.head? ≠ some '\n')) :
    (breaks source (offset + c.utf8Size)).ncard = (breaks source offset).ncard + 1 := by
  have hpos := c.utf8Size_pos
  have hset : breaks source (offset + c.utf8Size) =
      insert (offset + c.utf8Size) (breaks source offset) := by
    ext stop
    constructor
    · rintro ⟨hle, hstop⟩
      exact (h.le_or_eq_of_breakEnds hle hstop).symm.imp id fun hbefore => ⟨hbefore, hstop⟩
    · rintro (rfl | ⟨hle, hstop⟩)
      · exact ⟨Nat.le_refl _, h.breakEnds_iff.mpr hends⟩
      · exact ⟨by omega, hstop⟩
  have hnew : offset + c.utf8Size ∉ breaks source offset := by
    intro hmem
    have hle := hmem.1
    omega
  rw [hset, Set.ncard_insert_of_notMem hnew (finite_breaks source offset)]

/-- Behind any other character there are as many as before it. -/
theorem At.breaks_eq (h : At source offset (c :: rest))
    (hends : ¬ (c = '\n' ∨ (c = '\r' ∧ rest.head? ≠ some '\n'))) :
    breaks source (offset + c.utf8Size) = breaks source offset := by
  ext stop
  constructor
  · rintro ⟨hle, hstop⟩
    rcases h.le_or_eq_of_breakEnds hle hstop with hbefore | rfl
    · exact ⟨hbefore, hstop⟩
    · exact absurd (h.breakEnds_iff.mp hstop) hends
  · rintro ⟨hle, hstop⟩
    exact ⟨by omega, hstop⟩

end Breaks

end Source

end Gherkin
