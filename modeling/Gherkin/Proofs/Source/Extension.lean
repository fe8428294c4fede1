import Mathlib.Data.List.Chain
import Gherkin.Refusal
import Gherkin.Proofs.Source.Places

/-!
# Documents That Go On

What a document has in common with one that begins like it. Two things can
happen to its text: some of its lines are kept and others follow them, or more
text follows all of its lines. In the first case the lines that are kept are
lines of both documents. In the second case this is so for all lines, provided
that the last one was ended; only how it ends can change, when a line feed
follows a carriage return.

A fault on a line is told in the same words in both documents, since its
position and what is quoted of its line depend on the lines up to there.

## Main definitions

* `Source.terminated`: The document with its last line ended.

## Theorems

* `Source.Line.split_above`: The first lines of a text, with other text behind.
* `Source.Line.split_extended`: The lines of a text, with more text behind.
* `Source.lines_extended`: A line of a document is one of the longer document.
* `Source.locateIn_line`: No line before a position holds the offset.
* `excerptAt_eq`, `excerptAt_rest`: What is quoted at an offset.
* `Refusal.ofFault_extended`: A fault on a line is told in the same words.
-/

namespace Gherkin

namespace Source

theorem Ending.chars_ne_nil {ending : Ending} (h : ending ≠ .none) : ending.chars ≠ [] := by
  cases ending with
  | none => exact absurd rfl h
  | _ => exact List.cons_ne_nil _ _

namespace Line

variable {line : Line} {start : Nat} {cs : List Char}

/-- Every line has a character, if only one that ends it. -/
theorem chars_ne_nil (h : line ∈ split start cs) : line.chars ≠ [] := by
  fun_induction split start cs with
  | case1 => exact absurd h List.not_mem_nil
  | case2 start rest ih =>
      rcases List.mem_cons.mp h with rfl | hmem
      · exact List.cons_ne_nil _ _
      · exact ih hmem
  | case3 start rest ih =>
      rcases List.mem_cons.mp h with rfl | hmem
      · exact List.cons_ne_nil _ _
      · exact ih hmem
  | case4 start rest hnot ih =>
      rcases List.mem_cons.mp h with rfl | hmem
      · exact List.cons_ne_nil _ _
      · exact ih hmem
  | case5 start c rest hfeed hboth hreturn ih =>
      cases hlines : split (start + c.utf8Size) rest with
      | nil =>
          rw [hlines, extend, List.mem_singleton] at h
          rw [h]
          exact List.cons_ne_nil _ _
      | cons first more =>
          rw [hlines] at h ih
          rcases List.mem_cons.mp h with rfl | hmem
          · exact List.cons_ne_nil _ _
          · exact ih (List.mem_cons_of_mem first hmem)

theorem head?_append_chars {rest : List Char} (h : line.chars ≠ []) :
    (line.chars ++ rest).head? = line.chars.head? := by
  rw [List.head?_append]
  cases hhead : line.chars.head? with
  | none => exact absurd (List.head?_eq_none_iff.mp hhead) h
  | some c => rfl

theorem head?_chars {first : Line} {more : List Line} (h : split start cs = first :: more) :
    first.chars.head? = cs.head? := by
  have hfirst : first.chars ≠ [] := chars_ne_nil (by rw [h]; exact List.mem_cons_self)
  rw [← split_chars start cs, h, List.flatMap_cons, head?_append_chars hfirst]

/-- A line feed that follows a carriage return ends the same line. -/
def Apart (line later : Line) : Prop :=
  line.ending = .carriageReturn → later.chars.head? ≠ some '\n'

theorem apart_split (start : Nat) (cs : List Char) : (split start cs).IsChain Apart := by
  fun_induction split start cs with
  | case1 => exact List.isChain_nil
  | case2 start rest ih => exact List.isChain_cons.mpr ⟨by simp [Apart], ih⟩
  | case3 start rest ih => exact List.isChain_cons.mpr ⟨by simp [Apart], ih⟩
  | case4 start rest hnot ih =>
      refine List.isChain_cons.mpr ⟨fun later hlater _ hhead => ?_, ih⟩
      cases hlines : split (start + 1) rest with
      | nil => simp [hlines] at hlater
      | cons first more =>
          rw [hlines, List.head?_cons, Option.mem_some_iff] at hlater
          rw [← hlater, head?_chars hlines] at hhead
          rcases List.head?_eq_some_iff.mp hhead with ⟨after, rfl⟩
          exact hnot after rfl
  | case5 start c rest hfeed hboth hreturn ih =>
      cases hlines : split (start + c.utf8Size) rest with
      | nil => exact List.isChain_singleton _
      | cons first more =>
          rw [hlines] at ih
          -- The first line has the same ending as without the character.
          rcases List.isChain_cons.mp ih with ⟨hlater, hmore⟩
          exact List.isChain_cons.mpr ⟨hlater, hmore⟩

theorem Follow.left {above below : List Line} (h : Follow start (above ++ below)) :
    Follow start above := by
  induction above generalizing start with
  | nil => trivial
  | cons first rest ih =>
      rcases h with ⟨hstart, hending, hrest⟩
      exact ⟨hstart, fun hne => hending (by simp [hne]), ih hrest⟩

/-- Lines that are ended are the lines of their text, unless what follows
    completes the last ending. -/
theorem split_lines {lines : List Line} {rest : List Char} (hfollow : Follow start lines)
    (hunbroken : ∀ line ∈ lines, Unbroken line.text)
    (hended : ∀ line ∈ lines, line.ending ≠ .none) (hapart : lines.IsChain Apart)
    (hrest : ∀ line ∈ lines.getLast?, line.ending = .carriageReturn → rest.head? ≠ some '\n') :
    split start (lines.flatMap chars ++ rest) =
      lines ++ split (start + Text.width (lines.flatMap chars)) rest := by
  induction lines generalizing start with
  | nil => rfl
  | cons line more ih =>
      rcases hfollow with ⟨rfl, -, hfollow⟩
      rcases List.isChain_cons.mp hapart with ⟨hlater, hapart⟩
      have hmore := ih hfollow (fun l hl => hunbroken l (List.mem_cons_of_mem line hl))
        (fun l hl => hended l (List.mem_cons_of_mem line hl)) hapart
        (fun l hl => hrest l (by rw [List.getLast?_cons, hl]; rfl))
      have hreturn : line.ending = .carriageReturn →
          (more.flatMap chars ++ rest).head? ≠ some '\n' := by
        intro hending
        cases more with
        | nil => exact hrest line rfl hending
        | cons second others =>
            have hchars : second.chars ≠ [] := List.append_ne_nil_of_right_ne_nil _
              (Ending.chars_ne_nil (hended second (by simp)))
            rw [List.flatMap_cons, List.append_assoc, head?_append_chars hchars]
            exact hlater second rfl hending
      rw [List.flatMap_cons, Text.width_append, ← Nat.add_assoc, width_chars, List.append_assoc,
        List.cons_append, ← hmore]
      exact split_line line.start (hunbroken line List.mem_cons_self)
        (hended line List.mem_cons_self) hreturn

/-- The first lines of a text stay as they are when other text follows them. -/
theorem split_above {above below : List Line} (h : split start cs = above ++ below)
    (rest : List Char) (hended : ∀ line ∈ above, line.ending ≠ .none)
    (hrest : ∀ line ∈ above.getLast?, line.ending = .carriageReturn → rest.head? ≠ some '\n') :
    split start (above.flatMap chars ++ rest) =
      above ++ split (start + Text.width (above.flatMap chars)) rest := by
  have hfollow := follow_split start cs
  have hunbroken := unbroken_split start cs
  have hapart := apart_split start cs
  rw [h] at hfollow hunbroken hapart
  exact split_lines hfollow.left (fun line hline => hunbroken line (List.mem_append_left _ hline))
    hended hapart.left_of_append hrest

theorem Follow.ended {above below : List Line} (h : Follow start (above ++ below))
    (hne : below ≠ []) : ∀ line ∈ above, line.ending ≠ .none := by
  induction above generalizing start with
  | nil => simp
  | cons first rest ih =>
      rcases h with ⟨-, hending, hrest⟩
      intro line hline
      rcases List.mem_cons.mp hline with rfl | hmem
      · intro hnone
        exact absurd (hending (by simp [hne])) (by simp [hnone, Ending.width])
      · exact ih hrest line hmem

/-- The last line of a text when more text follows it: it is ended, perhaps in
    another way. -/
theorem split_last {more : List Char} (hunbroken : Unbroken line.text)
    (hended : line.ending = .none → more.head? = some '\n') :
    ∃ ending below, split line.start (line.chars ++ more) =
      { line with ending := ending } :: below := by
  by_cases hreturn : line.ending = .carriageReturn ∧ more.head? = some '\n'
  · rcases hreturn with ⟨hending, hhead⟩
    rcases List.head?_eq_some_iff.mp hhead with ⟨rest, rfl⟩
    have hline : split line.start (line.text ++ Ending.both.chars ++ rest) = _ :=
      split_line line.start hunbroken (by simp) (by simp)
    refine ⟨.both, _, Eq.trans ?_ hline⟩
    simp [chars, hending, Ending.chars]
  · by_cases hnone : line.ending = .none
    · rcases List.head?_eq_some_iff.mp (hended hnone) with ⟨rest, rfl⟩
      have hline : split line.start (line.text ++ Ending.lineFeed.chars ++ rest) = _ :=
        split_line line.start hunbroken (by simp) (by simp)
      refine ⟨.lineFeed, _, Eq.trans ?_ hline⟩
      simp [chars, hnone, Ending.chars]
    · exact ⟨line.ending, _, split_line line.start hunbroken hnone
        (fun hending hhead => hreturn ⟨hending, hhead⟩)⟩

/-- The lines of a text when more text follows its last line. How that line
    ends may change. -/
theorem split_extended {above : List Line} {more : List Char}
    (h : split start cs = above ++ [line])
    (hended : line.ending = .none → more.head? = some '\n') :
    ∃ ending below, split start (cs ++ more) =
      above ++ { line with ending := ending } :: below := by
  have hfollow := follow_split start cs
  have hunbroken := unbroken_split start cs
  have hapart := apart_split start cs
  rw [h] at hfollow hunbroken hapart
  have hchars : line.chars ≠ [] := chars_ne_nil (by rw [h]; simp)
  rcases split_last (hunbroken line (by simp)) hended with ⟨ending, below, hlast⟩
  refine ⟨ending, below, ?_⟩
  have hmore : cs ++ more = above.flatMap chars ++ (line.chars ++ more) := by
    rw [← split_chars start cs, h]
    simp
  have habove := split_above h (line.chars ++ more) (hfollow.ended (by simp)) ?_
  · rw [hmore, habove, ← hfollow.start_eq, hlast]
  · intro last hlast hending
    rw [head?_append_chars hchars]
    exact (List.isChain_append.mp hapart).2.2 last hlast line rfl hending

/-- Where the last line has no ending, the text ends in no line break. -/
theorem getLast?_of_none {above : List Line} (h : split start cs = above ++ [line])
    (hnone : line.ending = .none) : cs.getLast? ≠ some '\n' ∧ cs.getLast? ≠ some '\r' := by
  have hmem : line ∈ split start cs := by rw [h]; simp
  have hunbroken := unbroken_split start cs line hmem
  have hchars : line.chars = line.text := by simp [chars, hnone, Ending.chars]
  have hne : line.text ≠ [] := hchars ▸ chars_ne_nil hmem
  have hlast : cs.getLast? = line.text.getLast? := by
    rw [← split_chars start cs, h, List.flatMap_append, List.flatMap_singleton, hchars,
      List.getLast?_append_of_ne_nil _ hne]
  rw [hlast]
  exact ⟨fun hfeed => (hunbroken _ (List.mem_of_getLast? hfeed)).1 rfl,
    fun hreturn => (hunbroken _ (List.mem_of_getLast? hreturn)).2 rfl⟩

end Line

/-- The document with its last line ended. -/
def terminated (source : String) : String :=
  if source.toList.getLast? = some '\n' ∨ source.toList.getLast? = some '\r' then source
  else source ++ "\n"

variable {source : String} {line : Line} {above below : List Line}

/-- What follows the lines above does not complete their ending. -/
theorem head?_below (h : lines source = above ++ line :: below) (rest : List Char) :
    ∀ last ∈ above.getLast?, last.ending = .carriageReturn →
      (line.chars ++ rest).head? ≠ some '\n' := by
  intro last hlast hreturn
  have hapart := Line.apart_split 0 source.toList
  rw [← lines, h] at hapart
  have hmem : line ∈ Line.split 0 source.toList := by
    rw [← lines, h]
    exact List.mem_append_right _ List.mem_cons_self
  rw [Line.head?_append_chars (Line.chars_ne_nil hmem)]
  exact (List.isChain_append.mp hapart).2.2 last hlast line rfl hreturn

/-- A line of a document is one of the document with more text behind it, but
    perhaps for its ending. -/
theorem lines_extended (h : lines source = above ++ line :: below) (more : String) :
    ∃ ending later, lines (terminated source ++ more) =
      above ++ { line with ending := ending } :: later := by
  -- The text is followed by more, or by a line feed and more.
  have hextended : ∀ front last, lines source = front ++ [last] →
      ∃ ending later, lines (terminated source ++ more) =
        front ++ { last with ending := ending } :: later := by
    intro front last hlines
    unfold terminated
    split
    · rename_i hended
      rw [lines, String.toList_append]
      refine Line.split_extended hlines (fun hnone => ?_)
      have hlast := Line.getLast?_of_none hlines hnone
      exact absurd hended (by simp [hlast])
    · rw [lines, String.toList_append, String.toList_append, List.append_assoc]
      exact Line.split_extended hlines (fun _ => rfl)
  rcases List.eq_nil_or_concat' below with rfl | ⟨front, last, rfl⟩
  · exact hextended above line h
  · rcases hextended (above ++ line :: front) last (by simp [h]) with ⟨ending, later, hlater⟩
    exact ⟨line.ending, front ++ { last with ending := ending } :: later, by simp [hlater]⟩

section Locating

variable {offset number : Nat}

/-- The lines before a position are ended, and end before the offset does. -/
theorem locateIn_line (offset number : Nat) (lines : List Line) :
    ∃ k, (locateIn offset number lines).line = number + k ∧
      ∀ line ∈ lines.take k, line.ending ≠ .none ∧ line.next ≤ offset := by
  induction lines generalizing number with
  | nil => exact ⟨0, rfl, by simp⟩
  | cons line rest ih =>
      unfold locateIn
      split
      · exact ⟨0, rfl, by simp⟩
      · rename_i hpast
        rw [Bool.or_eq_true, decide_eq_true_eq, beq_iff_eq, not_or] at hpast
        rcases ih (number + 1) with ⟨k, hline, hpassed⟩
        refine ⟨k + 1, by omega, fun l hl => ?_⟩
        rcases List.mem_cons.mp (List.take_succ_cons ▸ hl) with rfl | hmem
        · exact ⟨hpast.2, by omega⟩
        · exact hpassed l hmem

theorem Ending.width_pos {ending : Ending} (h : ending ≠ .none) : 0 < ending.width := by
  cases ending with
  | none => exact absurd rfl h
  | carriageReturn => exact Nat.one_pos
  | lineFeed => exact Nat.one_pos
  | both => exact Nat.two_pos

/-- A line holds the offsets up to the end of its text. -/
theorem locateIn_cons (h : offset ≤ line.stop) :
    locateIn offset number (line :: below) = ⟨number, line.columnOf offset⟩ := by
  have hholds : (decide (offset < line.next) || line.ending == .none) = true := by
    by_cases hnone : line.ending = .none
    · simp [hnone]
    · have hpos := Ending.width_pos hnone
      refine Bool.or_eq_true_iff.mpr (Or.inl (decide_eq_true ?_))
      rw [Line.next]
      omega
  rw [locateIn, if_pos hholds]

/-- The position of an offset is found on the line that holds it or above. -/
theorem locateIn_append (h : offset ≤ line.stop) (ending : Ending) (later : List Line) :
    locateIn offset number (above ++ line :: below) =
      locateIn offset number (above ++ { line with ending := ending } :: later) := by
  induction above generalizing number with
  | nil =>
      have hlater : offset ≤ { line with ending := ending }.stop := h
      rw [List.nil_append, List.nil_append, locateIn_cons h, locateIn_cons hlater]
      rfl
  | cons first rest ih => simp only [List.cons_append, locateIn, ih]

end Locating

end Source

open Source (Line)

variable {source : String} {line : Line} {above below : List Line} {rest : List Char}

/-- What is quoted is the text up to the next line break. -/
theorem excerptAt_eq {offset : Nat} {more : List Char} (h : Source.At source offset (rest ++ more))
    (hrest : Source.Unbroken rest)
    (hmore : more = [] ∨ more.head? = some '\n' ∨ more.head? = some '\r') :
    excerptAt source offset = String.ofList (rest.take excerptLength ++
      if rest.length ≤ excerptLength then [] else ['…']) := by
  rcases h with ⟨before, hsource, hwidth⟩
  have hall : ∀ c ∈ rest, (c != '\n' && c != '\r') = true := by
    intro c hc
    simpa using hrest c hc
  have hend : more.takeWhile (fun c => c != '\n' && c != '\r') = [] := by
    rcases hmore with rfl | hfeed | hreturn
    · rfl
    · rcases List.head?_eq_some_iff.mp hfeed with ⟨later, rfl⟩
      rfl
    · rcases List.head?_eq_some_iff.mp hreturn with ⟨later, rfl⟩
      rfl
  have htake : (rest ++ more).takeWhile (fun c => c != '\n' && c != '\r') = rest := by
    rw [List.takeWhile_append_of_pos hall, hend, List.append_nil]
  rw [excerptAt, hsource, ← hwidth, Text.dropBytes?_append]
  simp only [Option.getD_some, htake]

/-- Behind the text of a line comes its ending, or nothing. -/
theorem Source.behind_text (h : Source.lines source = above ++ line :: below) :
    line.ending.chars ++ below.flatMap Line.chars = [] ∨
      (line.ending.chars ++ below.flatMap Line.chars).head? = some '\n' ∨
      (line.ending.chars ++ below.flatMap Line.chars).head? = some '\r' := by
  have hfollow := Line.follow_split 0 source.toList
  rw [← Source.lines, h, ← List.singleton_append, ← List.append_assoc] at hfollow
  cases hending : line.ending with
  | none =>
      have hbelow : below = [] := by
        by_contra hne
        exact hfollow.ended hne line (by simp) hending
      exact Or.inl (by simp [hbelow, Source.Ending.chars])
  | lineFeed => exact Or.inr (Or.inl rfl)
  | carriageReturn => exact Or.inr (Or.inr rfl)
  | both => exact Or.inr (Or.inr rfl)

/-- What is quoted at a place on a line is what is left of the line. -/
theorem excerptAt_rest (h : Source.lines source = above ++ line :: below)
    (hrest : rest <:+ line.text) :
    excerptAt source (line.offsetOf rest) = String.ofList (rest.take excerptLength ++
      if rest.length ≤ excerptLength then [] else ['…']) := by
  have hmem : line ∈ Source.lines source := by rw [h]; simp
  have hunbroken := Line.unbroken_split 0 source.toList line hmem
  exact excerptAt_eq (Source.at_place h hrest).1 (hunbroken.mono fun c hc => hrest.subset hc)
    (Source.behind_text h)

/-- Nothing is quoted at the end of a document. -/
theorem excerptAt_size (source : String) : excerptAt source (Source.size source) = "" := by
  have hdrop := Text.dropBytes?_append source.toList []
  rw [List.append_nil] at hdrop
  rw [excerptAt, Source.size, hdrop]
  rfl

/-- A fault on a line is told in the same words when more text follows the
    document. -/
theorem Refusal.ofFault_extended (h : Source.lines source = above ++ line :: below)
    (hrest : rest <:+ line.text) {fault : Fault} (hfault : fault.offset = line.offsetOf rest)
    (more : String) :
    ofFault (Source.terminated source ++ more) fault = ofFault source fault := by
  rcases Source.lines_extended h more with ⟨ending, later, hlater⟩
  -- The place is one of both documents.
  have hplace := Source.at_place h hrest
  have hplace' : Source.At (Source.terminated source ++ more) (line.offsetOf rest) _ :=
    (Source.at_place hlater hrest).1
  have hstop : line.offsetOf rest ≤ line.stop := by omega
  have hexcerpt := excerptAt_rest h hrest
  have hexcerpt' := excerptAt_rest hlater hrest
  change excerptAt _ (line.offsetOf rest) = _ at hexcerpt'
  simp only [ofFault, locate, hfault, Nat.min_eq_left hplace.1.le_size,
    Nat.min_eq_left hplace'.le_size, hexcerpt, hexcerpt', h, hlater,
    Source.locateIn_append hstop ending later]

end Gherkin
