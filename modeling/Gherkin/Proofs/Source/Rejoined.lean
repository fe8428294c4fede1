import Gherkin.Proofs.Source.Extension

/-!
# Lines Put Together Again

A document is the characters of its lines, one line behind the other. This
module changes one of the lines, or puts a line in between, and asks which
lines the document has then. They are the lines that one expects, but for two
cases. A line without characters at the end of a document is none. And a line
feed that comes to stand directly behind a carriage return belongs to it: the
line above now ends in both, and no empty line is left in between.

## Main definitions

* `join`: The document with given lines.
* `textsOf`: The texts of the lines of a list of characters.
* `Ending.behind`: What follows an ending.

## Theorems

* `textsOf_line`, `textsOf_lines`: The lines in front of more characters.
* `Rewritten`, `texts_rewritten`: A line with another text.
* `Inserted`, `texts_inserted`, `texts_appended`: A line more, among the others
  or behind one that was not ended.
* `text_ne_nil_of_fed`: A carriage return and a line feed do not meet.
-/

namespace Gherkin

namespace Source

/-- The document with these lines. Where they say they start is of no
    account. -/
def join (lines : List Line) : String :=
  String.ofList (lines.flatMap Line.chars)

/-- The texts of the lines of a list of characters. -/
def textsOf (cs : List Char) : List (List Char) :=
  (Line.split 0 cs).map Line.text

/-- What follows an ending: a line feed behind a carriage return is part of
    it. -/
def Ending.behind : Ending → List Char → List Char
  | .carriageReturn, '\n' :: rest => rest
  | _, rest => rest

theorem Ending.behind_of_head {ending : Ending} {rest : List Char}
    (h : ending = .carriageReturn → rest.head? ≠ some '\n') : ending.behind rest = rest := by
  unfold behind
  split
  · exact absurd rfl (h rfl)
  · rfl

/-- The ending of the last of the lines. -/
def lastEnding (lines : List Line) : Ending :=
  (lines.getLast?.map Line.ending).getD .none

section Texts

theorem texts_join (lines : List Line) :
    (Source.lines (join lines)).map Line.text = textsOf (lines.flatMap Line.chars) := by
  rw [Source.lines, join, String.toList_ofList, textsOf]

theorem Line.texts_extend (start : Nat) (c : Char) (lines : List Line) :
    (Line.extend start c lines).map Line.text =
      match lines.map Line.text with
      | [] => [[c]]
      | text :: rest => (c :: text) :: rest := by
  cases lines <;> rfl

/-- The texts of lines do not depend on where the lines stand. -/
theorem texts_split (start : Nat) (cs : List Char) :
    (Line.split start cs).map Line.text = textsOf cs := by
  unfold textsOf
  generalize 0 = other
  fun_induction Line.split start cs generalizing other with
  | case1 => rfl
  | case2 start rest ih => rw [Line.split, List.map_cons, List.map_cons, ih]
  | case3 start rest ih => rw [Line.split, List.map_cons, List.map_cons, ih]
  | case4 start rest hnot ih =>
      rw [Line.split, List.map_cons, List.map_cons, ih]
      exact hnot
  | case5 start c rest hfeed hboth hreturn ih =>
      rw [Line.split, Line.texts_extend, Line.texts_extend, ih]
      · exact hfeed
      · exact hboth
      · exact hreturn

/-- A text with its ending is a line, whatever follows. -/
theorem textsOf_line {text : List Char} {ending : Ending} (htext : Unbroken text)
    (hending : ending ≠ .none) (rest : List Char) :
    textsOf (text ++ ending.chars ++ rest) = text :: textsOf (ending.behind rest) := by
  by_cases hfeed : ending = .carriageReturn → rest.head? ≠ some '\n'
  · rw [Ending.behind_of_head hfeed, textsOf, Line.split_line 0 htext hending hfeed, List.map_cons,
      texts_split]
  -- The line feed makes it another ending.
  · push Not at hfeed
    rcases hfeed with ⟨rfl, hhead⟩
    rcases List.head?_eq_some_iff.mp hhead with ⟨more, rfl⟩
    have hchars : text ++ Ending.carriageReturn.chars ++ '\n' :: more =
        text ++ Ending.both.chars ++ more := by
      simp [Ending.chars]
    rw [hchars, textsOf, Line.split_line 0 htext (by simp) (by simp), List.map_cons, texts_split]
    rfl

/-- A text without an ending is a line if it has a character. -/
theorem textsOf_unended {text : List Char} (htext : Unbroken text) (hne : text ≠ []) :
    textsOf text = [text] := by
  rw [textsOf, Line.split_unended 0 htext hne]
  rfl

end Texts

section Documents

variable {source : String} {line : Line} {above below : List Line}

/-- The lines of a document in front of other characters. -/
theorem textsOf_lines (h : lines source = above ++ below)
    (hended : ∀ line ∈ above, line.ending ≠ .none) (rest : List Char) :
    textsOf (above.flatMap Line.chars ++ rest) =
      above.map Line.text ++ textsOf ((lastEnding above).behind rest) := by
  rcases List.eq_nil_or_concat above with rfl | ⟨front, last, rfl⟩
  · rfl
  · rw [List.concat_eq_append, List.append_assoc, List.singleton_append] at h
    have hsplit := Line.split_above h (last.chars ++ rest)
      (fun line hline => hended line (by simp [hline])) (head?_below h rest)
    have hlast : last ∈ Line.split 0 source.toList := by
      rw [← lines, h]
      simp
    have hline := textsOf_line (Line.unbroken_split 0 source.toList last hlast)
      (hended last (by simp)) rest
    rw [List.concat_eq_append, List.flatMap_append, List.flatMap_singleton, List.append_assoc,
      textsOf, hsplit, List.map_append, texts_split, Line.chars, hline]
    simp [lastEnding]

/-- The last lines of a document, by themselves. -/
theorem textsOf_below (h : lines source = above ++ below) :
    textsOf (below.flatMap Line.chars) = below.map Line.text := by
  cases below with
  | nil => rfl
  | cons line more =>
      have hfollow := Line.follow_split 0 source.toList
      rw [← lines, h] at hfollow
      have hsplit := Line.split_above h ((line :: more).flatMap Line.chars)
        (hfollow.ended (List.cons_ne_nil line more)) (head?_below h _)
      have hchars := Line.split_chars 0 source.toList
      rw [← lines, h, List.flatMap_append] at hchars
      rw [hchars, ← lines, h, List.append_cancel_left_eq] at hsplit
      rw [← texts_split, ← hsplit]

/-- Only a line without a text, ended by a line feed, is taken for a part of
    the ending above it. -/
theorem behind_line {text : List Char} (htext : Unbroken text) {ending : Ending}
    (hshown : text ≠ [] ∨ ending ≠ .none) (last : Ending) (rest : List Char) :
    last.behind (text ++ ending.chars ++ rest) = text ++ ending.chars ++ rest ∨
      text = [] ∧ last = .carriageReturn ∧ ending = .lineFeed ∧
        last.behind (text ++ ending.chars ++ rest) = rest := by
  cases text with
  | cons c more =>
      refine Or.inl (Ending.behind_of_head (fun _ hhead => ?_))
      exact (htext c List.mem_cons_self).1 (Option.some.inj hhead)
  | nil =>
      cases ending with
      | none => exact absurd rfl (hshown.resolve_left (not_not_intro rfl))
      | lineFeed =>
          cases last with
          | carriageReturn => exact Or.inr ⟨rfl, rfl, rfl, rfl⟩
          | _ => exact Or.inl rfl
      | _ => exact Or.inl (Ending.behind_of_head (by simp [Ending.chars]))

/-- Only the last line of a document may lack an ending. -/
theorem below_eq_nil (h : lines source = above ++ line :: below) (hnone : line.ending = .none) :
    below = [] := by
  by_contra hne
  have hfollow := Line.follow_split 0 source.toList
  rw [← lines, h, ← List.singleton_append, ← List.append_assoc] at hfollow
  exact hfollow.ended hne line (by simp) hnone

/-- The texts of a document of which a line was given another text: that line
    has it, or has gone with it. -/
inductive Rewritten (above : List Line) (line : Line) (below : List Line) (text : List Char) :
    List (List Char) → Prop
  | kept : Rewritten above line below text (above.map Line.text ++ text :: below.map Line.text)
  | gone (htext : text = [])
      (hwhy : below = [] ∨ lastEnding above = .carriageReturn ∧ line.ending = .lineFeed) :
      Rewritten above line below text (above.map Line.text ++ below.map Line.text)

theorem texts_rewritten (h : lines source = above ++ line :: below) {text : List Char}
    (htext : Unbroken text) :
    Rewritten above line below text
      ((lines (join (above ++ { line with text := text } :: below))).map Line.text) := by
  have hfollow := Line.follow_split 0 source.toList
  rw [← lines, h] at hfollow
  have hlines : lines source = (above ++ [line]) ++ below := by
    rw [h, List.append_assoc, List.singleton_append]
  rw [texts_join, List.flatMap_append, List.flatMap_cons, Line.chars,
    textsOf_lines h (hfollow.ended (List.cons_ne_nil line below))]
  by_cases hshown : text ≠ [] ∨ line.ending ≠ .none
  · rcases behind_line htext hshown (lastEnding above) (below.flatMap Line.chars) with
      hbehind | ⟨rfl, hlast, hfeed, hbehind⟩
    · have hfront : textsOf (text ++ line.ending.chars ++ below.flatMap Line.chars) =
          text :: below.map Line.text := by
        by_cases hnone : line.ending = .none
        · rw [below_eq_nil h hnone, hnone, List.flatMap_nil, Ending.chars, List.append_nil,
            List.append_nil]
          exact textsOf_unended htext (hshown.resolve_right (not_not_intro hnone))
        · rw [textsOf_line htext hnone, Ending.behind_of_head, textsOf_below hlines]
          intro hreturn
          cases hbelow : below with
          | nil => simp
          | cons next more =>
              rw [hbelow] at hlines
              rw [List.flatMap_cons]
              exact head?_below hlines _ line (by simp) hreturn
      rw [hbehind, hfront]
      exact .kept
    · rw [hbehind, textsOf_below hlines]
      exact .gone rfl (Or.inr ⟨hlast, hfeed⟩)
  · push Not at hshown
    rcases hshown with ⟨rfl, hnone⟩
    rw [below_eq_nil h hnone, hnone, List.flatMap_nil, Ending.chars, List.append_nil,
      Ending.behind_of_head (by simp)]
    exact .gone rfl (Or.inl rfl)

/-- Lines behind an ending stay as they are, unless the first of them is a line
    feed that completes it. -/
theorem behind_below (h : lines source = above ++ below) (ending : Ending) :
    textsOf (ending.behind (below.flatMap Line.chars)) = below.map Line.text ∨
      ∃ more, below.map Line.text = [] :: more ∧
        textsOf (ending.behind (below.flatMap Line.chars)) = more := by
  cases below with
  | nil => exact Or.inl (by cases ending <;> rfl)
  | cons line more =>
      have hlines : lines source = (above ++ [line]) ++ more := by
        rw [h, List.append_assoc, List.singleton_append]
      have hline : line ∈ Line.split 0 source.toList := by
        rw [← lines, h]
        simp
      have hshown : line.text ≠ [] ∨ line.ending ≠ .none := by
        by_contra hnot
        push Not at hnot
        exact Line.chars_ne_nil hline (by rw [Line.chars, hnot.1, hnot.2]; rfl)
      rw [List.flatMap_cons, Line.chars]
      rcases behind_line (Line.unbroken_split 0 source.toList line hline) hshown ending
        (more.flatMap Line.chars) with hbehind | ⟨htext, -, -, hbehind⟩
      · rw [hbehind, ← Line.chars, ← List.flatMap_cons]
        exact Or.inl (textsOf_below h)
      · rw [hbehind]
        exact Or.inr ⟨more.map Line.text, by rw [List.map_cons, htext], textsOf_below hlines⟩

/-- The texts of a document with a line more: it is there, or has become part of
    an ending, or an empty line below it has. -/
inductive Inserted (above below : List (List Char)) (text : List Char) : List (List Char) → Prop
  | added : Inserted above below text (above ++ text :: below)
  | absent : Inserted above below text (above ++ below)
  | instead (more : List (List Char)) (hbelow : below = [] :: more) :
      Inserted above below text (above ++ text :: more)

theorem texts_inserted (h : lines source = above ++ below)
    (hended : ∀ line ∈ above, line.ending ≠ .none) {text : List Char} (htext : Unbroken text)
    {ending : Ending} (hending : ending = .none → below = []) (start : Nat) :
    Inserted (above.map Line.text) (below.map Line.text) text
      ((lines (join (above ++ ⟨start, text, ending⟩ :: below))).map Line.text) := by
  rw [texts_join, List.flatMap_append, List.flatMap_cons, Line.chars, textsOf_lines h hended]
  by_cases hshown : text ≠ [] ∨ ending ≠ .none
  · rcases behind_line htext hshown (lastEnding above) (below.flatMap Line.chars) with
      hbehind | ⟨-, -, -, hbehind⟩
    · rw [hbehind]
      by_cases hnone : ending = .none
      · rw [hending hnone, hnone, List.flatMap_nil, Ending.chars, List.append_nil, List.append_nil,
          textsOf_unended htext (hshown.resolve_right (not_not_intro hnone))]
        exact .added
      · rw [textsOf_line htext hnone]
        rcases behind_below h ending with hsame | ⟨more, hbelow, hmore⟩
        · rw [hsame]
          exact .added
        · rw [hmore]
          exact .instead more hbelow
    · rw [hbehind, textsOf_below h]
      exact .absent
  · push Not at hshown
    rcases hshown with ⟨rfl, hnone⟩
    rw [hending hnone, hnone, List.flatMap_nil, Ending.chars, List.append_nil,
      Ending.behind_of_head (by simp)]
    exact .absent

/-- The last line of a document may be given an ending. -/
theorem lines_join_ended (h : lines source = above ++ [line]) (hnone : line.ending = .none)
    {ending : Ending} (hending : ending ≠ .none) :
    lines (join (above ++ [{ line with ending := ending }])) =
      above ++ [{ line with ending := ending }] := by
  have hfollow := Line.follow_split 0 source.toList
  rw [← lines, h] at hfollow
  have hmem : line ∈ Line.split 0 source.toList := by
    rw [← lines, h]
    simp
  have hchars : line.chars ++ ending.chars = line.text ++ ending.chars := by
    rw [Line.chars, hnone, Ending.chars, List.append_nil]
  have hsplit := Line.split_above h (line.text ++ ending.chars)
    (hfollow.ended (List.cons_ne_nil line [])) (hchars ▸ head?_below h ending.chars)
  have hline : Line.split line.start (line.text ++ ending.chars ++ []) = _ :=
    Line.split_line line.start (Line.unbroken_split 0 source.toList line hmem) hending (by simp)
  rw [List.append_nil] at hline
  rw [lines, join, String.toList_ofList, List.flatMap_append, List.flatMap_singleton, Line.chars,
    hsplit, ← hfollow.start_eq, hline]
  rfl

/-- A line behind one that was not ended. -/
theorem texts_appended (h : lines source = above ++ [line]) (hnone : line.ending = .none)
    {first : Ending} (hfirst : first ≠ .none) {text : List Char} (htext : Unbroken text)
    (start : Nat) (second : Ending) :
    Inserted ((above ++ [line]).map Line.text) [] text
      ((lines (join (above ++ [{ line with ending := first }, ⟨start, text, second⟩]))).map
        Line.text) := by
  have hlines := lines_join_ended h hnone hfirst
  have hfollow := Line.follow_split 0 source.toList
  rw [← lines, h] at hfollow
  have hended : ∀ other ∈ above ++ [{ line with ending := first }], other.ending ≠ .none := by
    intro other hother
    rcases List.mem_append.mp hother with habove | hlast
    · exact hfollow.ended (List.cons_ne_nil line []) other habove
    · rw [List.mem_singleton.mp hlast]
      exact hfirst
  have htexts := texts_inserted (hlines.trans (List.append_nil _).symm) hended htext
    (fun _ : second = .none => rfl) start
  rw [List.append_assoc, List.singleton_append, List.map_append] at htexts
  rw [List.map_append]
  exact htexts

/-- An empty line that ends in a line feed does not follow a carriage return. -/
theorem text_ne_nil_of_fed (h : lines source = above ++ line :: below)
    (hlast : lastEnding above = .carriageReturn) (hfeed : line.ending = .lineFeed) :
    line.text ≠ [] := by
  intro hnil
  have hmet : ∃ last ∈ above.getLast?, last.ending = .carriageReturn := by
    unfold lastEnding at hlast
    cases hgot : above.getLast? with
    | none => rw [hgot] at hlast; exact absurd hlast (by simp)
    | some last =>
        rw [hgot] at hlast
        exact ⟨last, rfl, hlast⟩
  rcases hmet with ⟨last, hmem, hreturn⟩
  refine head?_below h [] last hmem hreturn ?_
  rw [Line.chars, hnil, hfeed]
  rfl

end Documents

end Source

end Gherkin
