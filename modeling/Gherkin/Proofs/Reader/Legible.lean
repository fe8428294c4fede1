import Gherkin.Proofs.Reader.Classes
import Gherkin.Proofs.Reader.Rescan
import Gherkin.Proofs.Tree.Printable

/-!
# What Is Read Can Be Printed

Every text that a line yields can stand where it would be printed. This is a
fact about single lines: each text comes out of one scan, and the scan tells
what the text looks like. That the texts end up in a printable tree is then a
matter of where they are put.

## Main definitions

* `Item.Printable`: The texts of an item can stand where they are printed.

## Theorems

* `Item.read?_printable`: What a line says is printable.
-/

namespace Gherkin

namespace Reader

open Source (Unbroken)

/-- The texts of an item can stand where they are printed. -/
def Item.Printable : Item → Prop
  | .blank => True
  | .comment text => IsComment text
  | .tags names remark => (∀ name ∈ names, IsTag name) ∧ ∀ text ∈ remark, IsComment text
  | .feature title remark => IsPhrase title ∧ ∀ text ∈ remark, IsComment text
  | .prose words remark => IsProse words ∧ ∀ text ∈ remark, IsComment text
  | .block _ title remark => IsTitle title ∧ ∀ text ∈ remark, IsComment text
  | .step keyword words remark =>
    keyword ≠ .or ∧ IsPhrase words ∧ ∀ text ∈ remark, IsComment text
  | .examples remark => ∀ text ∈ remark, IsComment text
  | .row cells remark => cells ≠ [] ∧ (∀ cell ∈ cells, IsCell cell) ∧
      ∀ text ∈ remark, IsComment text ∧ ∀ c ∈ text.toList, c ≠ '|'
  | .fence _ remark => ∀ text ∈ remark, IsComment text
  | .docLine text => IsDocLine text

theorem isComment_of_ending? {cs : List Char} {comment : Option String} (hl : Unbroken cs)
    (h : ending? cs = some comment) : ∀ text ∈ comment, IsComment text := by
  rintro text rfl
  rcases ending?_eq_some h with ⟨rest, hrest, htext⟩
  refine ⟨?_, ?_⟩
  · intro c hc
    rw [htext] at hc
    refine hl c (Text.mem_of_mem_skipBlanks ?_)
    rw [hrest]
    exact List.mem_cons_of_mem _ (Text.mem_of_mem_dropTrailing _ hc)
  · rw [htext, Text.dropTrailing_idem]

theorem isComment_of_has {remark : Option Remark} (h : ∀ r, remark = some r →
    r.Has (fun c => c ≠ '\n' ∧ c ≠ '\r')) : ∀ text ∈ remark.map Remark.comment, IsComment text := by
  intro text htext
  rcases Option.map_eq_some_iff.mp htext with ⟨r, hr, rfl⟩
  have hhas := h r hr
  refine ⟨?_, ?_⟩
  · simpa [OneLine, Unbroken, Remark.comment] using hhas.2
  · simpa [Remark.comment] using hhas.1

/-- A text found where blanks have been skipped. Either there is none, or it
    is a phrase: it begins where the blanks ended. -/
theorem isPhrase_of_phrase? {cs text : List Char} {comment : Option String} (hl : Unbroken cs)
    (h : phrase? (Text.skipBlanks cs) = some (text, comment)) :
    (text ≠ [] → IsPhrase (String.ofList text)) ∧ ∀ t ∈ comment, IsComment t := by
  rcases phrase?_spec h with ⟨hscan, gap, rest, hgap, hcs, hend⟩
  have hmem : ∀ c, c ∈ text ∨ c ∈ rest → c ∈ cs := by
    intro c hc
    refine Text.mem_of_mem_skipBlanks ?_
    rw [hcs]
    rcases hc with hc | hc <;> simp [hc]
  refine ⟨fun hne => ⟨?_, ?_, ?_, ?_⟩,
    isComment_of_ending? (hl.mono fun c hc => hmem c (Or.inr hc)) hend⟩
  · simpa using hne
  · intro c hc
    rw [String.toList_ofList] at hc
    exact hl c (hmem c (Or.inl hc))
  -- The text begins where the blanks were skipped to, so not with a blank.
  · intro c hc
    rw [String.toList_ofList] at hc
    cases htext : text with
    | nil => exact absurd htext hne
    | cons d more =>
        rw [htext, List.head?_cons, Option.mem_some_iff] at hc
        subst hc
        have hskip : Text.skipBlanks cs = d :: (more ++ gap ++ rest) := by
          rw [hcs, htext]
          rfl
        exact Text.skipBlanks_head hskip
  · rw [String.toList_ofList]
    exact hscan

theorem isTitle_of_phrase? {cs text : List Char} {comment : Option String} (hl : Unbroken cs)
    (h : phrase? (Text.skipBlanks cs) = some (text, comment)) :
    IsTitle (String.ofList text) ∧ ∀ t ∈ comment, IsComment t := by
  rcases isPhrase_of_phrase? hl h with ⟨hphrase, hcomment⟩
  refine ⟨?_, hcomment⟩
  cases text with
  | nil => exact Or.inl rfl
  | cons c more => exact Or.inr (hphrase (List.cons_ne_nil c more))

/-- What a line says by its class is printable. -/
theorem Item.structural?_printable {text : List Char} {item : Item} (hl : Unbroken text)
    (h : Item.structural? text = some item) : item.Printable := by
  -- Whatever part of the line is scanned, it holds no line break.
  have hcontent : Unbroken (Text.skipBlanks text) :=
    hl.mono fun _ hc => Text.mem_of_mem_skipBlanks hc
  have hdrop : ∀ n, Unbroken ((Text.skipBlanks text).drop n) :=
    fun n => hcontent.mono fun _ hc => List.mem_of_mem_drop hc
  rw [Item.structural?_eq_some_iff] at h
  cases item with
  | blank => trivial
  | comment words => exact isComment_of_ending? hl h.2 words rfl
  | tags names comment =>
      rcases h with ⟨_, remark, hscan, rfl⟩
      rcases scanTags_spec (P := fun c => c ≠ '\n' ∧ c ≠ '\r') hl hscan with ⟨htags, hremark⟩
      refine ⟨fun name hname => ?_, isComment_of_has hremark⟩
      have htag := htags name hname
      exact ⟨htag.1, fun c hc => (htag.2 c hc).2, fun c hc => (htag.2 c hc).1⟩
  | fence indent comment => exact isComment_of_ending? (hdrop _) h.2.2
  | row cells comment =>
      rcases h with ⟨_, scanned, remark, hscan, rfl, rfl⟩
      rcases scanRowBody_spec (P := fun c => c ≠ '\n' ∧ c ≠ '\r') (hdrop 1) hscan with
        ⟨hne, hcells, hremark⟩
      refine ⟨by simpa using hne, fun cell hcell => ?_, fun words hwords => ?_⟩
      · rcases List.mem_map.mp hcell with ⟨raw, hraw, rfl⟩
        have hspec := hcells raw hraw
        refine ⟨?_, ?_, ?_⟩
        · intro c hc
          rw [String.toList_ofList] at hc
          exact (hspec.2 c hc).2
        · intro c hc
          rw [String.toList_ofList] at hc
          exact (hspec.2 c hc).1
        · rw [String.toList_ofList]
          exact hspec.1
      · -- The comment behind a row must not hold a bar either.
        rcases Option.map_eq_some_iff.mp hwords with ⟨r, hr, rfl⟩
        have hhas := hremark r hr
        refine ⟨⟨?_, ?_⟩, ?_⟩
        · intro c hc
          exact (hhas.2 c (by simpa [Remark.comment] using hc)).2
        · simpa [Remark.comment] using hhas.1
        · intro c hc
          exact (hhas.2 c (by simpa [Remark.comment] using hc)).1
  | feature title comment =>
      rcases h with ⟨_, words, hne, rfl, hphrase⟩
      rcases isPhrase_of_phrase? (hdrop _) hphrase with ⟨htitle, hcomment⟩
      exact ⟨htitle hne, hcomment⟩
  | block kind title comment =>
      rcases h with ⟨_, words, rfl, hphrase⟩
      exact isTitle_of_phrase? (hdrop _) hphrase
  | examples comment => exact isComment_of_ending? (hdrop _) h.2
  | step keyword said comment =>
      rcases h with ⟨hc, words, hne, rfl, hphrase⟩
      rcases isPhrase_of_phrase? (hdrop _) hphrase with ⟨hwords, hcomment⟩
      -- No line is recognised by a reserved keyword.
      exact ⟨(begins_of_class hc).1, hwords hne, hcomment⟩
  | prose words comment => exact absurd h not_false
  | docLine words => exact absurd h not_false

/-- A line of the description holds text: it is neither blank nor a comment,
    so the scan keeps its first character. -/
theorem phrase?_ne_nil {text words : List Char} {comment : Option String}
    (hb : classify text ≠ .blank) (hcm : classify text ≠ .comment)
    (h : phrase? (Text.skipBlanks text) = some (words, comment)) : words ≠ [] := by
  intro hnil
  -- An empty text would put the end of the line here, as in trivia.
  have hat := atEnd_skipBlanks.mp ((phrase?_nil_iff h).mp hnil)
  cases hskip : Text.skipBlanks text with
  | nil => exact hb (classify_eq_of_content hskip rfl)
  | cons c more =>
      have hc := hat c more hskip
      subst hc
      exact hcm (classify_eq_of_content hskip rfl)

/-- What a line says in the description is printable. -/
theorem Item.prose?_printable {text : List Char} {item : Item} (hl : Unbroken text)
    (hb : classify text ≠ .blank) (hcm : classify text ≠ .comment)
    (hends : ¬ (classify text = .tags ∨ ∃ kind, classify text = .heading (.block kind)))
    (h : Item.prose? text = some item) : item.Printable := by
  rcases Option.map_eq_some_iff.mp h with ⟨⟨words, comment⟩, hphrase, rfl⟩
  have hne := phrase?_ne_nil hb hcm hphrase
  rcases isPhrase_of_phrase? hl hphrase with ⟨hwords, hcomment⟩
  rcases phrase?_spec hphrase with ⟨_, gap, rest, _, hcs, _⟩
  rw [classify_ends_description, not_or, not_exists] at hends
  -- What the words begin with, the line begins with behind its blanks.
  refine ⟨⟨hwords hne, ?_, fun kind => ?_⟩, hcomment⟩
  · intro hat
    refine hends.1 ?_
    rw [String.toList_ofList] at hat
    rw [hcs, List.append_assoc, List.head?_append_of_ne_nil _ hne]
    exact hat
  · rw [← Bool.not_eq_true]
    intro hprefix
    refine hends.2 kind ?_
    rw [String.toList_ofList, List.isPrefixOf_iff_prefix] at hprefix
    rw [List.isPrefixOf_iff_prefix, hcs, List.append_assoc]
    exact hprefix.trans (List.prefix_append words _)

/-- What a line says is printable. -/
theorem Item.read?_printable {mode : Mode} {text : List Char} {item : Item}
    (hl : Unbroken text) (h : Item.read? mode text = some item) : item.Printable := by
  cases mode with
  | structural => exact Item.structural?_printable hl h
  | descriptive =>
      simp only [Item.read?] at h
      split at h
      · exact Item.structural?_printable hl h
      · exact Item.structural?_printable hl h
      · exact Item.structural?_printable hl h
      · exact Item.structural?_printable hl h
      -- The remaining classes mean nothing in a description.
      · refine Item.prose?_printable hl (by assumption) (by assumption) ?_ h
        rintro (ht | ⟨kind, hk⟩)
        · contradiction
        · rename_i hblock
          exact hblock kind hk
  | verbatim indent =>
      simp only [Item.read?] at h
      split at h
      · exact Item.structural?_printable hl h
      -- Stripping the indentation cannot make a fence of what was none.
      · rename_i hfence
        simp only [Option.some.injEq] at h
        subst h
        refine ⟨?_, ?_⟩
        · intro c hc
          rw [String.toList_ofList] at hc
          exact hl c (Text.mem_of_mem_stripIndent hc)
        · rw [String.toList_ofList, Text.skipBlanks_stripIndent, ← Bool.not_eq_true]
          exact fun hprefix => hfence (classify_of_fence hprefix)

end Reader

end Gherkin
