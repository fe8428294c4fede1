import Mathlib.Data.Prod.Lex
import Gherkin.Proofs.Source.Breaks

/-!
# Positions Move With the Text

A position is found by looking for the line that holds an offset, but what it
tells is simpler than that: it moves along with the text. `locate_advance` says
by how much. An ordinary character moves the position by one column, the end of
a line moves it to the first column of the next line, and a carriage return in
front of a line feed does not move it at all, because the two are one ending.

Everything else about positions follows from this step. Going on through a text
never moves a position back, and moves it forward unless it only passes such a
carriage return, so positions compare as the offsets do. And the number of a
line counts the line breaks that are over.

## Main definitions

* `Position.advance`: The position behind one more character.
* `Position.key`: A position as a pair that is compared by its line first.
* `LocatesInOrder`: Positions compare as the offsets do.

## Theorems

* `locate_held`, `locate_place`: The line and column of an offset that a line
  holds, and of a place on a line.
* `locate_size_ended`, `locate_size_open`: Those of the end of a document.
* `locate_advance`: How a position moves past a character.
* `key_locate_le`, `key_locate_lt`: How it moves through a text.
* `locate_line`: The number of a line counts the line breaks before it.
* `locate_inOrder`: Positions compare as the offsets do.
-/

namespace Gherkin

open Source (Line)

namespace Source

variable {above below : List Line} {line : Line} {rest : List Char} {offset number : Nat}

/-- The column of a place is told by the text before it. -/
theorem Line.columnOf_place (hrest : rest <:+ line.text) :
    line.columnOf (line.offsetOf rest) = line.text.length - rest.length + 1 := by
  rcases hrest with ⟨before, hbefore⟩
  have hoffset : min (line.offsetOf rest) line.stop - line.start = Text.width before := by
    simp only [Line.offsetOf, Line.stop, ← hbefore, Text.width_append]
    omega
  rw [Line.columnOf, hoffset, ← hbefore, Text.takeBytes?_append]
  simp

/-- Lines that end before an offset are passed. -/
theorem locateIn_passed (h : ∀ line ∈ above, line.ending ≠ .none ∧ line.next ≤ offset) :
    locateIn offset number (above ++ below) = locateIn offset (number + above.length) below := by
  induction above generalizing number with
  | nil => rfl
  | cons first more ih =>
      rcases h first List.mem_cons_self with ⟨hended, hnext⟩
      have hpassed : (decide (offset < first.next) || first.ending == .none) = false := by
        simp [hended, hnext]
      rw [List.cons_append, locateIn, hpassed, if_neg Bool.false_ne_true,
        ih (fun line hline => h line (List.mem_cons_of_mem first hline)), List.length_cons]
      congr 1
      omega

end Source

section Telling

variable {source : String} {above below : List Line} {line : Line} {rest : List Char}

/-- An offset is told on the line that holds it, from its first character up
    to where the next line starts. -/
theorem locate_held {offset : Nat} (h : Source.lines source = above ++ line :: below)
    (hle : line.start ≤ offset) (hlt : offset ≤ line.stop ∨ offset < line.next) :
    locate source offset = ⟨above.length + 1, line.columnOf offset⟩ := by
  have hfollow := Line.follow_split 0 source.toList
  rw [← Source.lines, h] at hfollow
  have hpassed : ∀ upper ∈ above, upper.ending ≠ .none ∧ upper.next ≤ offset := by
    intro upper hupper
    rcases hfollow.passed upper hupper with ⟨hended, hnext⟩
    exact ⟨hended, hnext.trans hle⟩
  have hsize : line.next ≤ Source.size source := Source.next_le_size h
  have hbound : offset ≤ Source.size source := by
    simp only [Line.next] at hlt hsize
    omega
  rw [locate, Nat.min_eq_left hbound, h, Source.locateIn_passed hpassed, Nat.add_comm]
  rcases hlt with hstop | hnext
  · rw [Source.locateIn_cons hstop]
  · rw [Source.locateIn, if_pos (by simp [hnext])]

/-- A place on a line is told by the lines above it and by the text before
    it. -/
theorem locate_place (h : Source.lines source = above ++ line :: below)
    (hrest : rest <:+ line.text) :
    locate source (line.offsetOf rest) =
      ⟨above.length + 1, line.text.length - rest.length + 1⟩ := by
  have hle : line.start ≤ line.offsetOf rest := by
    rcases hrest with ⟨before, hbefore⟩
    simp only [Line.offsetOf, Line.stop, ← hbefore, Text.width_append]
    omega
  rw [locate_held h hle (Or.inl (Nat.sub_le _ _)), Line.columnOf_place hrest]

/-- The end of a document whose last line is ended is told as the line after
    it. -/
theorem locate_size_ended (h : ∀ line ∈ Source.lines source, line.ending ≠ .none) :
    locate source (Source.size source) = ⟨(Source.lines source).length + 1, 1⟩ := by
  have hpassed : ∀ line ∈ Source.lines source,
      line.ending ≠ .none ∧ line.next ≤ Source.size source := by
    intro line hline
    rcases List.append_of_mem hline with ⟨above, below, hlines⟩
    exact ⟨h line hline, Source.next_le_size hlines⟩
  rw [locate, Nat.min_self, ← List.append_nil (Source.lines source),
    Source.locateIn_passed hpassed, Source.locateIn, List.append_nil, Nat.add_comm]

/-- The end of a document whose last line is not ended is told as the end of
    that line. -/
theorem locate_size_open (h : Source.lines source = above ++ [line])
    (hopen : line.ending = .none) :
    locate source (Source.size source) = ⟨above.length + 1, line.text.length + 1⟩ := by
  rw [Source.size_eq_offsetOf h hopen, locate_place h List.nil_suffix]
  rfl

end Telling

section Advancing

variable {source : String} {above below : List Line} {line : Line} {c : Char}
  {rest more between : List Char} {offset : Nat} {position : Position}

/-- The position behind one more character, with `rest` behind it. -/
def Position.advance (position : Position) (c : Char) (rest : List Char) : Position :=
  if c = '\r' ∧ rest.head? = some '\n' then position
  else if c = '\n' ∨ c = '\r' then ⟨position.line + 1, 1⟩
  else ⟨position.line, position.column + 1⟩

theorem locate_start (h : Source.lines source = above ++ line :: below) :
    locate source line.start = ⟨above.length + 1, 1⟩ := by
  have hplace := locate_place h (List.suffix_refl line.text)
  have hstart : line.offsetOf line.text = line.start := by
    rw [Line.offsetOf, Line.stop, Nat.add_sub_cancel]
  rwa [hstart, Nat.sub_self, Nat.zero_add] at hplace

/-- Behind a line that is ended comes the first column of the next line, even
    if there is no text on it. -/
theorem locate_next (h : Source.lines source = above ++ line :: below)
    (hended : line.ending ≠ .none) : locate source line.next = ⟨above.length + 2, 1⟩ := by
  cases below with
  | nil =>
      rw [← Source.size_eq_next h, locate_size_ended (Source.ended_of_last h hended), h]
      simp
  | cons later more =>
      have hlater : Source.lines source = (above ++ [line]) ++ later :: more := by simp [h]
      rw [← Source.start_below h, locate_start hlater]
      simp

/-- The two characters of an ending are told alike. -/
theorem locate_within (h : Source.lines source = above ++ line :: below)
    (hboth : line.ending = .both) : locate source (line.stop + 1) = locate source line.stop := by
  have hstart : line.start ≤ line.stop := Nat.le_add_right _ _
  have hnext : line.stop + 1 < line.next := by
    rw [Line.next, hboth]
    exact Nat.lt_succ_self _
  rw [locate_held h (Nat.le_succ_of_le hstart) (Or.inr hnext),
    locate_held h hstart (Or.inl (Nat.le_refl _))]
  simp [Line.columnOf]

/-- Behind the last character of an ending comes the next line. -/
theorem Position.advance_break (position : Position)
    (h : c = '\n' ∨ (c = '\r' ∧ rest.head? ≠ some '\n')) :
    position.advance c rest = ⟨position.line + 1, 1⟩ := by
  rcases h with rfl | ⟨rfl, hrest⟩
  · simp [advance]
  · simp [advance, hrest]

/-- Before the last character of an ending the line stays the same. -/
theorem Position.advance_line (h : ¬ (c = '\n' ∨ (c = '\r' ∧ rest.head? ≠ some '\n'))) :
    (position.advance c rest).line = position.line := by
  unfold advance
  split_ifs with hboth hbreak
  · rfl
  · exact absurd (hbreak.imp_right fun hreturn => ⟨hreturn, fun hfeed => hboth ⟨hreturn, hfeed⟩⟩) h
  · rfl

/-- A position moves by one column past a character of a line's text. -/
theorem locate_advance_text (h : Source.lines source = above ++ line :: below)
    (htext : c :: more <:+ line.text) :
    locate source (line.offsetOf (c :: more) + c.utf8Size) =
      (locate source (line.offsetOf (c :: more))).advance c rest := by
  have hmem : line ∈ Source.lines source := by rw [h]; simp
  have hc := Line.unbroken_split 0 source.toList line hmem c (htext.subset List.mem_cons_self)
  have hmore : more <:+ line.text := (List.suffix_cons c more).trans htext
  have hoffset : line.offsetOf (c :: more) + c.utf8Size = line.offsetOf more := by
    have hplace := (Source.at_place h htext).2.2
    have hplace' := (Source.at_place h hmore).2.2
    rw [Text.width_cons] at hplace
    omega
  have hlength := htext.length_le
  rw [List.length_cons] at hlength
  rw [hoffset, locate_place h htext, locate_place h hmore, Position.advance,
    if_neg (fun hboth => hc.2 hboth.1), if_neg (not_or.mpr hc), List.length_cons]
  rw [Position.mk.injEq]
  exact ⟨rfl, by change _ = _ - _ + 1 + 1; omega⟩

/-- A position moves to the next line past the last character of an ending, and
    does not move past a character before that one. -/
theorem locate_advance_ending (h : Source.lines source = above ++ line :: below)
    {passed left : List Char} (hending : line.ending.chars = passed ++ c :: left) :
    locate source (line.stop + Text.width passed + c.utf8Size) =
      (locate source (line.stop + Text.width passed)).advance c
        (left ++ below.flatMap Line.chars) := by
  rcases Source.Ending.chars_eq_append hending with ⟨rfl, hc⟩ | ⟨hboth, rfl, rfl, rfl⟩
  · have hbreak : c = '\n' ∨ (c = '\r' ∧ ([] ++ below.flatMap Line.chars).head? ≠ some '\n') :=
      hc.imp_right fun hreturn => ⟨hreturn.1, Source.head?_behind h hreturn.2⟩
    have hended : line.ending ≠ .none := by
      intro hnone
      simp [hnone, Source.Ending.chars] at hending
    have hwidth : line.stop + Text.width passed + c.utf8Size = line.next := by
      rw [Line.next, ← Source.Ending.width_chars, hending]
      simp [Nat.add_assoc]
    have hlt : line.stop + Text.width passed < line.next := by
      have hpos := c.utf8Size_pos
      omega
    have hle : line.start ≤ line.stop + Text.width passed := by
      rw [Line.stop]
      omega
    rw [Position.advance_break _ hbreak, hwidth, locate_next h hended,
      locate_held h hle (Or.inr hlt)]
  · exact locate_within h hboth

/-- How a position moves past a character. -/
theorem locate_advance (h : Source.At source offset (c :: rest)) :
    locate source (offset + c.utf8Size) = (locate source offset).advance c rest := by
  rcases h.exists_line with ⟨above, line, below, hlines,
    ⟨behind, htext, rfl⟩ | ⟨passed, left, hending, rfl, rfl⟩⟩
  · exact locate_advance_text hlines htext
  · exact locate_advance_ending hlines hending

/-- A position as a pair that is compared by its line first. -/
def Position.key (position : Position) : ℕ ×ₗ ℕ :=
  toLex (position.line, position.column)

/-- Every character moves a position forward, but for a carriage return in
    front of a line feed. -/
theorem Position.key_lt_advance (h : ¬ (c = '\r' ∧ rest.head? = some '\n')) :
    position.key < (position.advance c rest).key := by
  rw [advance, if_neg h, key, key, Prod.Lex.toLex_lt_toLex]
  by_cases hbreak : c = '\n' ∨ c = '\r'
  · rw [if_pos hbreak]
    exact Or.inl (Nat.lt_succ_self _)
  · rw [if_neg hbreak]
    exact Or.inr ⟨rfl, Nat.lt_succ_self _⟩

theorem Position.key_le_advance : position.key ≤ (position.advance c rest).key := by
  by_cases h : c = '\r' ∧ rest.head? = some '\n'
  · rw [advance, if_pos h]
  · exact (key_lt_advance h).le

/-- Going on through a text never moves a position back. -/
theorem key_locate_le (h : Source.At source offset (between ++ more)) :
    (locate source offset).key ≤ (locate source (offset + Text.width between)).key := by
  induction between generalizing offset with
  | nil => exact le_refl _
  | cons c rest ih =>
      have hstep := locate_advance h
      have hrest := ih (Source.At.next h)
      rw [hstep] at hrest
      rw [Text.width_cons, ← Nat.add_assoc]
      exact Position.key_le_advance.trans hrest

/-- Going on through a text moves a position forward, unless only a carriage
    return in front of a line feed is passed. -/
theorem key_locate_lt (h : Source.At source offset (between ++ more)) (hne : between ≠ [])
    (hpasses : ¬ (between = ['\r'] ∧ more.head? = some '\n')) :
    (locate source offset).key < (locate source (offset + Text.width between)).key := by
  cases between with
  | nil => exact absurd rfl hne
  | cons c rest =>
      have hstep := locate_advance h
      have hbehind := Source.At.next h
      have hrest := key_locate_le hbehind
      rw [Text.width_cons, ← Nat.add_assoc]
      by_cases hreturn : c = '\r' ∧ (rest ++ more).head? = some '\n'
      · -- The line feed that follows is passed as well, and moves the position.
        cases rest with
        | nil => exact absurd ⟨by rw [hreturn.1], hreturn.2⟩ hpasses
        | cons d later =>
            have hd : d = '\n' := by simpa using hreturn.2
            have hfeed := locate_advance hbehind
            have hlater := key_locate_le (Source.At.next hbehind)
            rw [hfeed] at hlater
            rw [Text.width_cons, ← Nat.add_assoc]
            refine lt_of_le_of_lt ?_ (lt_of_lt_of_le (Position.key_lt_advance ?_) hlater)
            · rw [hstep]
              exact Position.key_le_advance
            · rw [hd]
              simp
      · rw [hstep] at hrest
        exact lt_of_lt_of_le (Position.key_lt_advance hreturn) hrest

theorem locate_zero (source : String) : locate source 0 = ⟨1, 1⟩ := by
  cases hlines : Source.lines source with
  | nil => simp [locate, hlines, Source.locateIn]
  | cons line below =>
      have hfollow := Line.follow_split 0 source.toList
      rw [← Source.lines, hlines] at hfollow
      rw [← List.nil_append (line :: below)] at hlines
      rw [← hfollow.1, locate_start hlines]
      rfl

/-- The number of a line counts the line breaks before it. -/
theorem locate_line (h : Source.At source offset rest) :
    (locate source offset).line = 1 + (Source.breaks source offset).ncard := by
  rcases h with ⟨before, hsource, rfl⟩
  -- Both sides are followed along the text before the offset.
  induction before using List.reverseRecOn generalizing rest with
  | nil => rw [Text.width_nil, locate_zero, Source.breaks_zero, Set.ncard_empty]
  | append_singleton before c ih =>
      rw [List.append_assoc, List.singleton_append] at hsource
      have hat : Source.At source (Text.width before) (c :: rest) := ⟨before, hsource, rfl⟩
      rw [Text.width_append, Text.width_cons, Text.width_nil, Nat.add_zero, locate_advance hat]
      by_cases hends : c = '\n' ∨ (c = '\r' ∧ rest.head? ≠ some '\n')
      · rw [Position.advance_break _ hends, hat.ncard_breaks_succ hends, ih hsource, Nat.add_assoc]
      · rw [Position.advance_line hends, hat.breaks_eq hends, ih hsource]

end Advancing

/-- Positions compare as the offsets do. -/
structure LocatesInOrder (source : String) : Prop where
  /-- Of two offsets between characters the earlier one has the lesser
      position, unless all that lies between them is the carriage return of an
      ending of two characters. -/
  ordered : ∀ {offset other : Nat} {rest more : List Char}, Source.At source offset rest →
    Source.At source other more → offset < other →
    ¬ (['\r', '\n'] <+: rest ∧ other = offset + 1) →
    (locate source offset).key < (locate source other).key
  /-- The offset within such an ending has the position of its carriage
      return. -/
  within : ∀ {offset : Nat} {rest : List Char}, Source.At source offset ('\r' :: '\n' :: rest) →
    locate source (offset + 1) = locate source offset
  /-- Offsets past the end are told as the end. -/
  beyond : ∀ offset, Source.size source < offset →
    locate source offset = locate source (Source.size source)
  /-- The end of a document that ends in a line break is the first column of a
      line that comes after all others. -/
  ended : Source.EndsInBreak source →
    locate source (Source.size source) = ⟨(Source.lines source).length + 1, 1⟩ ∧
      ∀ {offset : Nat} {rest : List Char}, Source.At source offset rest →
        offset < Source.size source →
        (locate source offset).line < (locate source (Source.size source)).line

theorem locate_column_pos (source : String) (offset : Nat) :
    0 < (locate source offset).column := by
  have hlines : ∀ number lines,
      0 < (Source.locateIn (min offset (Source.size source)) number lines).column := by
    intro number lines
    induction lines generalizing number with
    | nil => exact Nat.one_pos
    | cons line rest ih =>
        unfold Source.locateIn
        split
        · unfold Source.Line.columnOf
          split
          · exact Nat.succ_pos _
          · exact Nat.one_pos
        · exact ih (number + 1)
  exact hlines 1 (Source.lines source)

/-- Offsets between characters are told in their order. -/
theorem key_locate_lt_of_at {source : String} {offset other : Nat} {rest more : List Char}
    (h : Source.At source offset rest) (hmore : Source.At source other more) (hlt : offset < other)
    (hpasses : ¬ (['\r', '\n'] <+: rest ∧ other = offset + 1)) :
    (locate source offset).key < (locate source other).key := by
  rcases h.exists_between hmore hlt.le with ⟨between, rfl, rfl⟩
  refine key_locate_lt h ?_ ?_
  · rintro rfl
    simp at hlt
  · rintro ⟨rfl, hfeed⟩
    rcases List.head?_eq_some_iff.mp hfeed with ⟨later, rfl⟩
    exact hpasses ⟨⟨later, rfl⟩, rfl⟩

/-- The end of a document that ends in a line break. -/
theorem locate_size_of_endsInBreak {source : String} (h : Source.EndsInBreak source) :
    locate source (Source.size source) = ⟨(Source.lines source).length + 1, 1⟩ := by
  rcases List.eq_nil_or_concat' (Source.lines source) with hnil | ⟨above, line, hlines⟩
  · exact locate_size_ended (by simp [hnil])
  · exact locate_size_ended (Source.ended_of_last hlines ((Source.endsInBreak_iff hlines).mp h))

/-- Every line of a document that ends in a line break lies above its end. -/
theorem line_lt_of_endsInBreak {source : String} {offset : Nat} {rest : List Char}
    (h : Source.EndsInBreak source) (hat : Source.At source offset rest)
    (hlt : offset < Source.size source) :
    (locate source offset).line < (locate source (Source.size source)).line := by
  have hkey := key_locate_lt_of_at hat (Source.at_size source) hlt ?_
  · -- The end is in the first column, so a lesser position is one further up.
    have hpos := locate_column_pos source offset
    rw [Position.key, Position.key, Prod.Lex.toLex_lt_toLex, locate_size_of_endsInBreak h] at hkey
    rw [locate_size_of_endsInBreak h]
    simp only at hkey ⊢
    omega
  · rintro ⟨⟨later, rfl⟩, hsize⟩
    rw [hat.size_eq, Text.width_append] at hsize
    have hwidth : Text.width ['\r', '\n'] = 2 := rfl
    omega

/-- In every document positions compare as the offsets do. -/
theorem locate_inOrder (source : String) : LocatesInOrder source where
  ordered := key_locate_lt_of_at
  within h := by
    have hstep := locate_advance h
    rwa [Position.advance, if_pos ⟨rfl, rfl⟩] at hstep
  beyond offset h := by rw [locate, locate, Nat.min_eq_right h.le, Nat.min_self]
  ended h := ⟨locate_size_of_endsInBreak h, line_lt_of_endsInBreak h⟩

-- The offset within the ending is told as the one before it, and past the end is the end.
example : [0, 2, 3, 4, 5, 9].map (locate "é\r\nb") =
    [⟨1, 1⟩, ⟨1, 2⟩, ⟨1, 2⟩, ⟨2, 1⟩, ⟨2, 2⟩, ⟨2, 2⟩] := by
  decide +kernel

end Gherkin
