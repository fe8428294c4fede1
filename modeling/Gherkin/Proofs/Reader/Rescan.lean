import Gherkin.Proofs.Reader.Item
import Gherkin.Proofs.Text.Trimming

/-!
# Scanning Again

A text that has been scanned is printed on another line, between other
blanks and in front of another comment. This module shows that it is then
found again: what a scan yields depends on the text alone and not on what
follows it, as long as that says nothing itself.

`AtEnd` is this condition on what follows. It is the same for a text, for the
tags of a line and for the cells of a row, and it is exactly what `scanEnd`
accepts, so a scan that stops there never fails afterwards.

## Main definitions

* `AtEnd`: Nothing is left but blanks and perhaps a comment.

## Theorems

* `scanEnd_isOk_iff`: What `scanEnd` accepts.
* `scanText_spec`: What a text is found between.
* `scanText_again`: A text is found again in front of anything at an end.
* `phrase?_again`: A text and the comment after it.
* `scanTags_spec`, `scanTags_tagLine`: Tags as they are read and as they are
  printed.
* `scanCells_bar`, `scanCells_tail`: Cells one by one.
* `scanRowBody_eq_ok_iff`: The rows that are read behind their first bar.
* `scanText_rest_suffix`, `scanCells_tail_suffix`: What a scan leaves is left of
  the line.
-/

namespace Gherkin

namespace Reader

/-- Nothing is left of a line but blanks and perhaps a comment. -/
def AtEnd (cs : List Char) : Prop :=
  ∀ c rest, Text.skipBlanks cs = c :: rest → c = '#'

theorem atEnd_nil : AtEnd [] := by
  intro c rest h
  exact absurd h (by simp [Text.skipBlanks])

@[simp] theorem atEnd_skipBlanks {cs : List Char} : AtEnd (Text.skipBlanks cs) ↔ AtEnd cs := by
  unfold AtEnd
  rw [Text.skipBlanks_idem]

/-- The end of a line accepts exactly blanks and a comment. -/
theorem scanEnd_isOk_iff (cs : List Char) : (∃ remark, scanEnd cs = .ok remark) ↔ AtEnd cs := by
  unfold scanEnd AtEnd
  constructor
  · rintro ⟨remark, h⟩ c rest hcs
    rw [hcs] at h
    by_contra hc
    split at h
    · exact absurd (by assumption) (List.cons_ne_nil c rest)
    · rename_i heq
      exact hc (List.cons.inj heq).1
    · exact absurd h (by simp only [reduceCtorEq, not_false_eq_true])
  · intro h
    cases hcs : Text.skipBlanks cs with
    | nil => exact ⟨none, rfl⟩
    | cons c rest =>
        have hc := h c rest hcs
        subst hc
        exact ⟨_, rfl⟩

/-- A sequence of two computations succeeds only through both. -/
theorem bind_eq_ok {ε α β : Type} {first : Except ε α} {next : α → Except ε β} {b : β}
    (h : (first >>= next) = .ok b) : ∃ a, first = .ok a ∧ next a = .ok b := by
  cases first with
  | error e => exact absurd h (by simp [bind, Except.bind])
  | ok a => exact ⟨a, rfl, h⟩

/-- An ordinary character: no escape, no quote, and no comment sign unless it
    is quoted. -/
theorem scanText_cons (q : Bool) (c : Char) (rest : List Char) (hesc : c ≠ '\\') (hquote : c ≠ '"')
    (hhash : q = false → c ≠ '#') :
    scanText q (c :: rest) = scanText q rest >>= fun (text, rest) =>
      .ok (if !q && text.isEmpty && Text.isBlank c then [] else c :: text, rest) := by
  rw [scanText.eq_def]
  split <;> simp_all

/-- At the end of a line there is no text. -/
theorem scanText_of_atEnd (cs : List Char) (h : AtEnd cs) :
    scanText false cs = .ok ([], Text.skipBlanks cs) := by
  induction cs with
  | nil => rfl
  | cons c rest ih =>
      -- Blanks are dropped while no text is behind them, and a comment stops the scan.
      by_cases hc : Text.isBlank c = true
      · have hskip : Text.skipBlanks (c :: rest) = Text.skipBlanks rest :=
          Text.skipBlanks_append [c] rest (by simpa using hc)
        have hrest : AtEnd rest := by
          intro d more hd
          exact h d more (hskip.trans hd)
        have hne : c ≠ '\\' ∧ c ≠ '"' ∧ c ≠ '#' := by
          refine ⟨?_, ?_, ?_⟩ <;> (rintro rfl; exact absurd hc (by decide))
        rw [scanText_cons false c rest hne.1 hne.2.1 (fun _ => hne.2.2), ih hrest, hskip]
        simp [bind, Except.bind, hc]
      · have hskip := Text.skipBlanks_cons c rest (by simpa using hc)
        have hhash := h c rest hskip
        subst hhash
        rw [hskip]
        rfl

/-- What a scan yields, and the blanks it dropped, make up what it was given;
    it stops at the end or at a comment sign; and the text is found again in
    front of anything at an end. -/
theorem scanText_spec (q : Bool) (cs text rest : List Char) (h : scanText q cs = .ok (text, rest)) :
    (∃ gap, (∀ c ∈ gap, Text.isBlank c = true) ∧ cs = text ++ gap ++ rest) ∧
      (rest = [] ∨ ∃ more, rest = '#' :: more) ∧
      ∀ tail, AtEnd tail → scanText q (text ++ tail) = .ok (text, Text.skipBlanks tail) := by
  fun_induction scanText q cs generalizing text rest with
  | case1 =>
      simp only [Except.ok.injEq, Prod.mk.injEq] at h
      rcases h with ⟨rfl, rfl⟩
      exact ⟨⟨[], by simp, rfl⟩, Or.inl rfl, fun tail ht => scanText_of_atEnd tail ht⟩
  | case2 => exact absurd h (by simp only [reduceCtorEq, not_false_eq_true])
  | case3 => exact absurd h (by simp only [reduceCtorEq, not_false_eq_true])
  -- An escape is kept with the character it protects.
  | case4 q c more ih =>
      rcases bind_eq_ok h with ⟨⟨inner, last⟩, hinner, heq⟩
      simp only [Except.ok.injEq, Prod.mk.injEq] at heq
      rcases heq with ⟨rfl, rfl⟩
      rcases ih inner last hinner with ⟨⟨gap, hgap, hcs⟩, hlast, hagain⟩
      refine ⟨⟨gap, hgap, by rw [hcs]; rfl⟩, hlast, fun tail ht => ?_⟩
      simp [scanText, hagain tail ht, bind, Except.bind]
  | case5 q more ih =>
      rcases bind_eq_ok h with ⟨⟨inner, last⟩, hinner, heq⟩
      simp only [Except.ok.injEq, Prod.mk.injEq] at heq
      rcases heq with ⟨rfl, rfl⟩
      rcases ih inner last hinner with ⟨⟨gap, hgap, hcs⟩, hlast, hagain⟩
      refine ⟨⟨gap, hgap, by rw [hcs]; rfl⟩, hlast, fun tail ht => ?_⟩
      simp [scanText, hagain tail ht, bind, Except.bind]
  -- The comment sign is left for the end of the line.
  | case6 more =>
      simp only [Except.ok.injEq, Prod.mk.injEq] at h
      rcases h with ⟨rfl, rfl⟩
      exact ⟨⟨[], by simp, rfl⟩, Or.inr ⟨more, rfl⟩, fun tail ht => scanText_of_atEnd tail ht⟩
  | case7 q c more hlone hesc hquote hhash ih =>
      rcases bind_eq_ok h with ⟨⟨inner, last⟩, hinner, heq⟩
      simp only [Except.ok.injEq, Prod.mk.injEq] at heq
      rcases heq with ⟨htext, rfl⟩
      rcases ih inner last hinner with ⟨⟨gap, hgap, hcs⟩, hlast, hagain⟩
      have hplain : c ≠ '\\' := by
        intro hc
        cases more with
        | nil => exact hlone hc rfl
        | cons d ds => exact hesc d ds hc rfl
      by_cases hdrop : (!q && inner.isEmpty && Text.isBlank c) = true
      · -- A blank behind which nothing was kept joins the gap.
        rw [if_pos hdrop] at htext
        subst htext
        simp only [Bool.and_eq_true, Bool.not_eq_eq_eq_not, Bool.not_true,
          List.isEmpty_iff] at hdrop
        rcases hdrop with ⟨⟨rfl, rfl⟩, hblank⟩
        refine ⟨⟨c :: gap, ?_, by rw [hcs]; rfl⟩, hlast, fun tail ht => scanText_of_atEnd tail ht⟩
        intro d hd
        rcases List.mem_cons.mp hd with rfl | hd
        · exact hblank
        · exact hgap d hd
      · rw [if_neg hdrop] at htext
        subst htext
        refine ⟨⟨gap, hgap, by rw [hcs]; rfl⟩, hlast, fun tail ht => ?_⟩
        rw [List.cons_append, scanText_cons q c _ hplain hquote hhash, hagain tail ht]
        simp only [bind, Except.bind, if_neg hdrop]

/-- A text that is scanned whole is found again in front of anything at an
    end. -/
theorem scanText_again {text : List Char} (h : scanText false text = .ok (text, []))
    (tail : List Char) (ht : AtEnd tail) :
    scanText false (text ++ tail) = .ok (text, Text.skipBlanks tail) :=
  (scanText_spec false text text [] h).2.2 tail ht

@[simp] theorem ending?_skipBlanks (cs : List Char) :
    ending? (Text.skipBlanks cs) = ending? cs := by
  simp only [ending?, scanEnd, Text.skipBlanks_idem]

theorem atEnd_of_ending? {cs : List Char} {comment : Option String}
    (h : ending? cs = some comment) : AtEnd cs := by
  rcases Option.map_eq_some_iff.mp h with ⟨remark, hend, _⟩
  exact (scanEnd_isOk_iff cs).mp ⟨remark, toOption_eq_some_iff.mp hend⟩

/-- A comment behind blanks ends a line. -/
theorem ending?_comment (gap text : List Char) (h : ∀ c ∈ gap, Text.isBlank c = true) :
    ending? (gap ++ '#' :: text) =
      some (some (String.ofList (Text.dropTrailing Text.isSpace text))) := by
  have hskip : Text.skipBlanks (gap ++ '#' :: text) = '#' :: text := by
    rw [Text.skipBlanks_append gap _ h]
    exact Text.skipBlanks_cons '#' text (by decide)
  simp only [ending?, scanEnd, hskip]
  rfl

/-- The comment that ends a line is what follows its sign, trimmed. -/
theorem ending?_eq_some {cs : List Char} {comment : String}
    (h : ending? cs = some (some comment)) :
    ∃ rest, Text.skipBlanks cs = '#' :: rest ∧
      comment.toList = Text.dropTrailing Text.isSpace rest := by
  unfold ending? scanEnd at h
  split at h
  · exact absurd h (by simp [Except.toOption])
  · rename_i rest hrest
    simp only [Except.toOption, Option.map_some, Option.some.injEq] at h
    refine ⟨rest, hrest, ?_⟩
    rw [← h]
    exact String.toList_ofList
  · exact absurd h (by simp [Except.toOption])

/-- A text that is scanned whole, in front of the end of a line. -/
theorem phrase?_again {text tail : List Char} {comment : Option String}
    (h : scanText false text = .ok (text, [])) (ht : ending? tail = some comment) :
    phrase? (text ++ tail) = some (text, comment) := by
  unfold phrase?
  rw [scanText_again h tail (atEnd_of_ending? ht)]
  simp [Except.toOption, ht]

/-- A phrase that has been read is a text that is scanned whole, blanks, and
    the end of the line. -/
theorem phrase?_spec {cs text : List Char} {comment : Option String}
    (h : phrase? cs = some (text, comment)) :
    scanText false text = .ok (text, []) ∧ ∃ gap rest, (∀ c ∈ gap, Text.isBlank c = true) ∧
      cs = text ++ gap ++ rest ∧ ending? rest = some comment := by
  rcases Option.bind_eq_some_iff.mp h with ⟨⟨words, rest⟩, hscan, hmap⟩
  rcases Option.map_eq_some_iff.mp hmap with ⟨remark, hend, heq⟩
  rw [Prod.mk.injEq] at heq
  rcases heq with ⟨rfl, rfl⟩
  rcases scanText_spec false cs words rest (toOption_eq_some_iff.mp hscan) with
    ⟨⟨gap, hgap, hcs⟩, _, hagain⟩
  refine ⟨?_, gap, rest, hgap, hcs, hend⟩
  -- Nothing follows the text when it is scanned alone, and that is an end too.
  have hnil := hagain [] atEnd_nil
  rw [List.append_nil] at hnil
  exact hnil

/-- A phrase is empty exactly at the end of a line. -/
theorem phrase?_nil_iff {cs words : List Char} {comment : Option String}
    (h : phrase? cs = some (words, comment)) : words = [] ↔ AtEnd cs := by
  constructor
  -- Nothing was kept, so there are only blanks before the end of the line.
  · rintro rfl
    rcases phrase?_spec h with ⟨_, gap, rest, hgap, hcs, hend⟩
    have hat := atEnd_of_ending? hend
    rw [← atEnd_skipBlanks] at hat ⊢
    rw [hcs, List.nil_append, Text.skipBlanks_append gap rest hgap]
    exact hat
  · intro hat
    unfold phrase? at h
    rw [scanText_of_atEnd cs hat] at h
    simp only [Except.toOption, Option.bind_some, Option.map_eq_some_iff, Prod.mk.injEq] at h
    rcases h with ⟨_, _, rfl, _⟩
    rfl

section Characters

-- A property that all characters of a line have.
variable {P : Char → Prop}

/-- A comment as it is read: nothing at its end is trimmed a second time, and
    its characters are characters of the line. -/
def Remark.Has (P : Char → Prop) (remark : Remark) : Prop :=
  Text.dropTrailing Text.isSpace remark.text = remark.text ∧ ∀ c ∈ remark.text, P c

theorem scanEnd_has {cs : List Char} {remark : Remark} (hP : ∀ c ∈ cs, P c)
    (h : scanEnd cs = .ok (some remark)) : remark.Has P := by
  unfold scanEnd at h
  split at h
  · exact absurd h (by simp only [Except.ok.injEq, reduceCtorEq, not_false_eq_true])
  · rename_i rest hrest
    simp only [Except.ok.injEq, Option.some.injEq] at h
    subst h
    -- The comment is trimmed where it is read, so trimming it again changes nothing.
    refine ⟨Text.dropTrailing_idem _ _, fun c hc => hP c ?_⟩
    have hmem : c ∈ Text.skipBlanks cs := by
      rw [hrest]
      exact List.mem_cons_of_mem _ (Text.mem_of_mem_dropTrailing _ hc)
    exact Text.mem_of_mem_skipBlanks hmem
  · exact absurd h (by simp only [reduceCtorEq, not_false_eq_true])

/-- Tags that have been read: names are not empty and hold only characters of
    the line that can stand in a name. -/
theorem scanTagsFrom_spec (inName : Bool) (cs name : List Char) (tags : List String)
    (remark : Option Remark) (hP : ∀ c ∈ cs, P c)
    (h : scanTagsFrom inName cs = .ok (name, tags, remark)) :
    (∀ c ∈ name, isTagChar c = true ∧ P c) ∧
      (inName = true → cs.head?.any isTagChar = true → name ≠ []) ∧
      (∀ tag ∈ tags, tag ≠ "" ∧ ∀ c ∈ tag.toList, isTagChar c = true ∧ P c) ∧
      ∀ r, remark = some r → r.Has P := by
  fun_induction scanTagsFrom inName cs generalizing name tags remark with
  | case1 inName =>
      simp only [Except.ok.injEq, Prod.mk.injEq] at h
      rcases h with ⟨rfl, rfl, rfl⟩
      simp
  | case2 inName c rest hblank ih =>
      rcases bind_eq_ok h with ⟨⟨inner, more, last⟩, hrest, heq⟩
      simp only [Except.ok.injEq, Prod.mk.injEq] at heq
      rcases heq with ⟨rfl, rfl, rfl⟩
      rcases ih inner more last (fun d hd => hP d (List.mem_cons_of_mem c hd)) hrest with
        ⟨_, _, htags, hremark⟩
      refine ⟨by simp, fun _ htag => ?_, htags, hremark⟩
      -- A blank is no character of a name.
      simp [isTagChar, hblank] at htag
  | case3 inName c rest hblank hhash =>
      rcases bind_eq_ok h with ⟨last, hend, heq⟩
      simp only [Except.ok.injEq, Prod.mk.injEq] at heq
      rcases heq with ⟨rfl, rfl, rfl⟩
      refine ⟨by simp, fun _ htag => ?_, by simp, ?_⟩
      · simp only [beq_iff_eq] at hhash
        simp [isTagChar, hhash] at htag
      · rintro r rfl
        exact scanEnd_has hP hend
  | case4 inName c rest hblank hhash htag ih =>
      rcases bind_eq_ok h with ⟨⟨inner, more, last⟩, hrest, heq⟩
      simp only [Except.ok.injEq, Prod.mk.injEq] at heq
      rcases heq with ⟨rfl, rfl, rfl⟩
      rcases ih inner more last (fun d hd => hP d (List.mem_cons_of_mem c hd)) hrest with
        ⟨hname, _, htags, hremark⟩
      refine ⟨fun d hd => ?_, by simp, htags, hremark⟩
      rcases List.mem_cons.mp hd with rfl | hd
      · exact ⟨(Bool.and_eq_true_iff.mp htag).2, hP d List.mem_cons_self⟩
      · exact hname d hd
  -- A sign and a name behind it, which the scanner looked ahead for.
  | case5 inName c rest hblank hhash htag hat hhead ih =>
      rcases bind_eq_ok h with ⟨⟨inner, more, last⟩, hrest, heq⟩
      simp only [Except.ok.injEq, Prod.mk.injEq] at heq
      rcases heq with ⟨rfl, rfl, rfl⟩
      rcases ih inner more last (fun d hd => hP d (List.mem_cons_of_mem c hd)) hrest with
        ⟨hname, hne, htags, hremark⟩
      refine ⟨by simp, fun hin => ?_, fun tag ht => ?_, hremark⟩
      · simp [hin] at hat
      · rcases List.mem_cons.mp ht with rfl | ht
        · refine ⟨?_, by simpa using hname⟩
          simpa using hne rfl hhead
        · exact htags tag ht
  | case6 => exact absurd h (by simp only [reduceCtorEq, not_false_eq_true])
  | case7 => exact absurd h (by simp only [reduceCtorEq, not_false_eq_true])

theorem scanTags_spec {cs : List Char} {tags : List String} {remark : Option Remark}
    (hP : ∀ c ∈ cs, P c) (h : scanTags cs = .ok (tags, remark)) :
    (∀ tag ∈ tags, tag ≠ "" ∧ ∀ c ∈ tag.toList, isTagChar c = true ∧ P c) ∧
      ∀ r, remark = some r → r.Has P := by
  rcases bind_eq_ok h with ⟨⟨name, more, last⟩, hscan, heq⟩
  simp only [Except.ok.injEq, Prod.mk.injEq] at heq
  rcases heq with ⟨rfl, rfl⟩
  exact (scanTagsFrom_spec false cs name more last hP hscan).2.2

end Characters

/-- Inside a name, the characters that can stand in a name are kept. -/
theorem scanTagsFrom_name (name tail : List Char) (h : ∀ c ∈ name, isTagChar c = true) :
    scanTagsFrom true (name ++ tail) = scanTagsFrom true tail >>= fun (more, tags, remark) =>
      .ok (name ++ more, tags, remark) := by
  induction name with
  | nil =>
      rw [List.nil_append]
      cases scanTagsFrom true tail <;> rfl
  | cons c rest ih =>
      have hc := h c List.mem_cons_self
      have hne : Text.isBlank c = false ∧ (c == '#') = false := by
        simp only [isTagChar, Bool.not_eq_eq_eq_not, Bool.not_true, Bool.or_eq_false_iff] at hc
        exact ⟨hc.2, hc.1.1⟩
      -- Neither a blank nor a comment sign, so it joins the name.
      rw [List.cons_append, scanTagsFrom, ih (fun d hd => h d (List.mem_cons_of_mem c hd))]
      simp only [hne.1, hne.2, hc, Bool.true_and, if_true, Bool.false_eq_true, if_false]
      cases scanTagsFrom true tail <;> rfl

/-- A tag that is followed by nothing or by a blank. -/
theorem scanTagsFrom_tag (tag : String) (tail : List Char) (hne : tag ≠ "")
    (h : ∀ c ∈ tag.toList, isTagChar c = true) :
    scanTagsFrom false ('@' :: (tag.toList ++ tail)) =
      scanTagsFrom true tail >>= fun (more, tags, remark) =>
        .ok ([], String.ofList (tag.toList ++ more) :: tags, remark) := by
  have hhead : (tag.toList ++ tail).head?.any isTagChar = true := by
    cases htag : tag.toList with
    | nil => exact absurd (String.toList_eq_nil_iff.mp htag) hne
    | cons c cs => simpa using h c (by rw [htag]; exact List.mem_cons_self)
  have hat : Text.isBlank '@' = false ∧ ('@' == '#') = false := by decide
  rw [scanTagsFrom, scanTagsFrom_name tag.toList tail h]
  simp only [hat.1, hat.2, hhead, Bool.false_and, Bool.not_false, Bool.true_and, beq_self_eq_true,
    if_true, Bool.false_eq_true, if_false]
  cases scanTagsFrom true tail <;> rfl

theorem tagLine_cons_cons (tag next : String) (rest : List String) :
    (tagLine (tag :: next :: rest)).toList =
      '@' :: (tag.toList ++ ' ' :: (tagLine (next :: rest)).toList) := by
  simp [tagLine, String.intercalate_cons_cons]

/-- Tags printed on a line are read back, and nothing else is. -/
theorem scanTagsFrom_tagLine (tags : List String)
    (h : ∀ tag ∈ tags, tag ≠ "" ∧ ∀ c ∈ tag.toList, isTagChar c = true) :
    scanTagsFrom false (tagLine tags).toList = .ok ([], tags, none) := by
  induction tags with
  | nil => rfl
  | cons tag rest ih =>
      have htag := h tag List.mem_cons_self
      cases rest with
      | nil =>
          have hline : (tagLine [tag]).toList = '@' :: (tag.toList ++ []) := by simp [tagLine]
          rw [hline, scanTagsFrom_tag tag [] htag.1 htag.2]
          simp [scanTagsFrom, bind, Except.bind]
      | cons next more =>
          have hnext := ih (fun t ht => h t (List.mem_cons_of_mem tag ht))
          rw [tagLine_cons_cons, scanTagsFrom_tag tag _ htag.1 htag.2]
          -- The space behind a tag ends its name, and the next tag is outside of one.
          have hsep : scanTagsFrom true (' ' :: (tagLine (next :: more)).toList) =
              .ok ([], next :: more, none) := by
            rw [scanTagsFrom, if_pos (by decide), hnext]
            rfl
          rw [hsep]
          simp [bind, Except.bind]

/-- A printed line of tags, with its indentation. -/
theorem scanTags_tagLine (n : Nat) (tags : List String)
    (h : ∀ tag ∈ tags, tag ≠ "" ∧ ∀ c ∈ tag.toList, isTagChar c = true) :
    scanTags (List.replicate n ' ' ++ (tagLine tags).toList) = .ok (tags, none) := by
  have hindent : ∀ k, scanTagsFrom false (List.replicate k ' ' ++ (tagLine tags).toList) =
      .ok ([], tags, none) := by
    intro k
    induction k with
    | zero => exact scanTagsFrom_tagLine tags h
    | succ m ih =>
        rw [List.replicate_succ, List.cons_append, scanTagsFrom, if_pos (by decide), ih]
        rfl
  rw [scanTags, hindent n]
  rfl

/-- A bar closes the cell that was being read. -/
theorem scanCells_bar (seen inside rest : List Char) (h : ∀ c ∈ inside, c ≠ '|') :
    scanCells seen (inside ++ '|' :: rest) =
      (Cell.between (seen.reverse ++ inside) ('|' :: rest) :: (scanCells [] rest).1,
        (scanCells [] rest).2) := by
  induction inside generalizing seen with
  | nil => simp [scanCells]
  | cons c more ih =>
      have hc : c ≠ '|' := h c List.mem_cons_self
      have hstep : scanCells seen (c :: (more ++ '|' :: rest)) =
          scanCells (c :: seen) (more ++ '|' :: rest) := by
        rw [scanCells.eq_def]
        split <;> simp_all
      rw [List.cons_append, hstep, ih (c :: seen) (fun d hd => h d (List.mem_cons_of_mem c hd))]
      simp

/-- Without a bar there is no further cell. -/
theorem scanCells_tail (seen tail : List Char) (h : ∀ c ∈ tail, c ≠ '|') :
    scanCells seen tail = ([], seen.reverse ++ tail) := by
  induction tail generalizing seen with
  | nil => simp [scanCells]
  | cons c more ih =>
      have hc : c ≠ '|' := h c List.mem_cons_self
      have hstep : scanCells seen (c :: more) = scanCells (c :: seen) more := by
        rw [scanCells.eq_def]
        split <;> simp_all
      rw [hstep, ih (c :: seen) (fun d hd => h d (List.mem_cons_of_mem c hd))]
      simp

/-- Pieces that each end in a bar, and a last one without, are the cells and
    what follows them. -/
theorem scanCells_pieces (pieces : List (List Char)) (tail : List Char)
    (h : ∀ piece ∈ pieces, ∀ c ∈ piece, c ≠ '|') (ht : ∀ c ∈ tail, c ≠ '|') :
    (scanCells [] (pieces.flatMap (· ++ ['|']) ++ tail)).1.map Cell.text =
        pieces.map (Text.trim Text.isBlank) ∧
      (scanCells [] (pieces.flatMap (· ++ ['|']) ++ tail)).2 = tail := by
  induction pieces with
  | nil =>
      rw [List.flatMap_nil, List.nil_append, scanCells_tail [] tail ht]
      exact ⟨rfl, rfl⟩
  | cons piece rest ih =>
      have hcs : (piece :: rest).flatMap (· ++ ['|']) ++ tail =
          piece ++ '|' :: (rest.flatMap (· ++ ['|']) ++ tail) := by simp
      rcases ih (fun q hq => h q (List.mem_cons_of_mem piece hq)) with ⟨hcells, htail⟩
      rw [hcs, scanCells_bar [] piece _ (h piece List.mem_cons_self)]
      refine ⟨?_, htail⟩
      rw [List.map_cons, hcells]
      rfl

/-- A row is read when it has a cell and nothing but a comment behind it. -/
theorem scanRowBody_eq_ok_iff {cs : List Char} {cells : List Cell} {remark : Option Remark} :
    scanRowBody cs = .ok (cells, remark) ↔
      (scanCells [] cs).1 = cells ∧ cells ≠ [] ∧ scanEnd (scanCells [] cs).2 = .ok remark := by
  unfold scanRowBody scanEnd
  rcases scanCells [] cs with ⟨row, tail⟩
  by_cases hrow : row = []
  · subst hrow
    simp only [List.isEmpty_nil, if_true, reduceCtorEq, false_iff, not_and]
    rintro rfl hne
    exact absurd rfl hne
  · have hempty : row.isEmpty = false := List.isEmpty_eq_false_iff.mpr hrow
    simp only [hempty, Bool.false_eq_true, if_false]
    have hcells : ∀ found : Option Remark, row = cells ∧ found = remark ↔
        row = cells ∧ cells ≠ [] ∧ found = remark := by
      intro found
      exact and_congr_right (fun heq => (and_iff_right (heq ▸ hrow)).symm)
    split
    · simpa only [Except.ok.injEq, Prod.mk.injEq] using hcells none
    · rename_i rest hskip
      rw [Text.skipBlanks_idem, hskip]
      simpa only [bind, Except.bind, Except.ok.injEq, Prod.mk.injEq] using hcells _
    · simp only [reduceCtorEq, and_false]

/-- A printed row is read back: its cells are the pieces between the bars,
    trimmed. -/
theorem scanRowBody_pieces (pieces : List (List Char)) (tail : List Char) (comment : Option String)
    (hne : pieces ≠ []) (h : ∀ piece ∈ pieces, ∀ c ∈ piece, c ≠ '|')
    (ht : ∀ c ∈ tail, c ≠ '|') (hend : ending? tail = some comment) :
    ∃ cells remark, scanRowBody (pieces.flatMap (· ++ ['|']) ++ tail) = .ok (cells, remark) ∧
      cells.map Cell.text = pieces.map (Text.trim Text.isBlank) ∧
      remark.map Remark.comment = comment := by
  rcases scanCells_pieces pieces tail h ht with ⟨hcells, htail⟩
  rcases Option.map_eq_some_iff.mp hend with ⟨remark, hremark, hcomment⟩
  refine ⟨_, remark, scanRowBody_eq_ok_iff.mpr ⟨rfl, ?_, ?_⟩, hcells, hcomment⟩
  -- There are as many cells as pieces, so there is one at least.
  · intro hnone
    rw [hnone, List.map_nil] at hcells
    exact hne (List.map_eq_nil_iff.mp hcells.symm)
  · rw [htail]
    exact toOption_eq_some_iff.mp hremark

section Cells

variable {P : Char → Prop}

/-- Cells that have been read are trimmed and hold no bar, and neither does
    what follows the last of them. -/
theorem scanCells_spec (seen cs : List Char) (hseen : ∀ c ∈ seen, c ≠ '|' ∧ P c)
    (hP : ∀ c ∈ cs, P c) :
    (∀ cell ∈ (scanCells seen cs).1, Text.trim Text.isBlank cell.text = cell.text ∧
        ∀ c ∈ cell.text, c ≠ '|' ∧ P c) ∧
      ∀ c ∈ (scanCells seen cs).2, c ≠ '|' ∧ P c := by
  fun_induction scanCells seen cs with
  | case1 seen => exact ⟨by simp, by simpa using hseen⟩
  -- The characters so far are the cell, which is trimmed when it is closed.
  | case2 seen rest cells tail heq ih =>
      have hrest := ih (by simp) (fun d hd => hP d (List.mem_cons_of_mem '|' hd))
      rw [heq] at hrest
      refine ⟨fun cell hcell => ?_, hrest.2⟩
      rcases List.mem_cons.mp hcell with rfl | hcell
      · refine ⟨Text.trim_trim Text.isBlank seen.reverse, fun c hc => hseen c ?_⟩
        have hmem : c ∈ Text.skipBlanks seen.reverse := Text.mem_of_mem_dropTrailing _ hc
        simpa using Text.mem_of_mem_skipBlanks hmem
      · exact hrest.1 cell hcell
  | case3 seen c rest hbar ih =>
      refine ih (fun d hd => ?_) (fun d hd => hP d (List.mem_cons_of_mem c hd))
      rcases List.mem_cons.mp hd with rfl | hd
      · exact ⟨hbar, hP d List.mem_cons_self⟩
      · exact hseen d hd

/-- A row that has been read: it has a cell, its cells are trimmed and hold no
    bar, and its comment holds none either. -/
theorem scanRowBody_spec {cs : List Char} {cells : List Cell} {remark : Option Remark}
    (hP : ∀ c ∈ cs, P c) (h : scanRowBody cs = .ok (cells, remark)) :
    cells ≠ [] ∧
      (∀ cell ∈ cells, Text.trim Text.isBlank cell.text = cell.text ∧
        ∀ c ∈ cell.text, c ≠ '|' ∧ P c) ∧
      ∀ r, remark = some r → r.Has (fun c => c ≠ '|' ∧ P c) := by
  have hspec := scanCells_spec (P := P) [] cs (by simp) hP
  rcases scanRowBody_eq_ok_iff.mp h with ⟨rfl, hne, hend⟩
  refine ⟨hne, hspec.1, ?_⟩
  rintro r rfl
  exact scanEnd_has hspec.2 hend

end Cells

/-- What follows the last bar of a row is left of the row. -/
theorem scanCells_tail_suffix (seen cs : List Char) :
    (scanCells seen cs).2 <:+ seen.reverse ++ cs := by
  fun_induction scanCells seen cs with
  | case1 seen => simp
  | case2 seen rest cells tail heq ih =>
      rw [heq] at ih
      exact ih.trans ⟨seen.reverse ++ ['|'], by simp⟩
  | case3 seen c rest hbar ih => simpa using ih

/-- What a text leaves of a line is left of the line. -/
theorem scanText_rest_suffix {quoted : Bool} {cs text rest : List Char}
    (h : scanText quoted cs = .ok (text, rest)) : rest <:+ cs := by
  rcases (scanText_spec quoted cs text rest h).1 with ⟨gap, -, rfl⟩
  exact List.suffix_append (text ++ gap) rest

end Reader

end Gherkin
