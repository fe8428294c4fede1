import Gherkin.Proofs.Grammar.Scanned

/-!
# The Kinds of Lines

A line is in the language of a kind exactly when the scan of the line yields
an item of that kind. So the grammar of documents, which speaks of languages,
and the reader, which speaks of items, can be compared line by line.

The class of a line decides which scanner looks at it, and a class goes with
what the line begins with. Each proof here has these two parts: the keyword
or sign in front fixes the class, and the language of what follows is the one
that the scanner accepts.

## Theorems

* `LineGrammar.mem_ending_iff_item`, `LineGrammar.mem_tagLine`,
  `LineGrammar.mem_row` and so on: The kinds of lines.
* `LineGrammar.mem_descriptionLine`, `LineGrammar.mem_bodyLine`: The lines of
  a description and of a doc string.
-/

namespace Gherkin

open scoped Computability

namespace LineGrammar

open Reader

variable {text : List Char} {l : Language Char}

/-- A line opens with the sign of a class exactly when it is of that class. -/
theorem mem_opened_iff_classify {c : Char} {sign : List Char} {cls : LineClass}
    (hblank : Text.isBlank c = false)
    (hbegins : Begins (Text.skipBlanks text) cls →
      ∃ rest, Text.skipBlanks text = c :: sign ++ rest)
    (hclass : ∀ rest, Text.skipBlanks text = c :: sign ++ rest → rest ∈ l →
      classify text = cls) :
    text ∈ opened (c :: sign) l ↔
      classify text = cls ∧ (Text.skipBlanks text).drop (c :: sign).length ∈ l := by
  rw [mem_opened hblank]
  constructor
  · intro hmem
    rcases hmem with ⟨rest, hskip, hrest⟩
    refine ⟨hclass rest hskip hrest, ?_⟩
    rw [hskip, List.drop_left]
    exact hrest
  · intro hsaid
    rcases hsaid with ⟨hcls, hrest⟩
    have hbegin := classify_begins text
    rw [hcls] at hbegin
    rcases hbegins hbegin with ⟨rest, hskip⟩
    rw [hskip, List.drop_left] at hrest
    exact ⟨rest, hskip, hrest⟩

theorem mem_opened_heading {heading : Heading} :
    text ∈ opened heading.text.toList l ↔ classify text = .heading heading ∧
      (Text.skipBlanks text).drop heading.text.length ∈ l := by
  rw [← String.length_toList]
  -- The sign of a heading is its text, and no heading begins with a blank.
  rcases heading with _ | (_ | _ | _) | _
  all_goals exact mem_opened_iff_classify rfl id fun _ h _ => classify_heading h

theorem mem_opened_bar : text ∈ opened ['|'] l ↔
    classify text = .row ∧ (Text.skipBlanks text).drop 1 ∈ l :=
  mem_opened_iff_classify rfl id fun _ h _ => classify_eq_of_content h rfl

theorem mem_opened_fence : text ∈ opened fence l ↔
    classify text = .fence ∧ (Text.skipBlanks text).drop fence.length ∈ l :=
  mem_opened_iff_classify rfl id fun _ h _ => classify_eq_of_content h rfl

theorem mem_opened_step {keyword : StepKeyword} (hor : keyword ≠ .or) :
    text ∈ opened keyword.text.toList (blank * l) ↔ classify text = .step keyword ∧
      (Text.skipBlanks text).drop keyword.text.length ∈ blank * l := by
  -- A keyword is only one when a blank follows it, which the language asks for.
  have hclass : ∀ rest, Text.skipBlanks text = keyword.text.toList ++ rest → rest ∈ blank * l →
      classify text = .step keyword := by
    intro rest hskip hrest
    cases rest with
    | nil => exact absurd hrest nil_notMem_letter_mul
    | cons c more => exact classify_step hor (cons_mem_letter_mul.mp hrest).1 hskip
  have hbegins : Begins (Text.skipBlanks text) (.step keyword) →
      ∃ rest, Text.skipBlanks text = keyword.text.toList ++ rest := by
    intro hstep
    rcases hstep with ⟨_, hstarts⟩
    unfold StepKeyword.startsWith at hstarts
    rw [Bool.and_eq_true] at hstarts
    exact exists_append_of_isPrefixOf hstarts.1
  rw [← String.length_toList]
  -- The keyword that is never active has no class.
  cases keyword with
  | or => exact absurd rfl hor
  | _ => exact mem_opened_iff_classify rfl hbegins hclass

/-- The end of a line is a whole line when it is blank or a comment. -/
theorem mem_ending_iff_classify :
    text ∈ ending ↔ classify text = .blank ∨ classify text = .comment := by
  rw [mem_ending]
  constructor
  · intro hat
    cases hskip : Text.skipBlanks text with
    | nil => exact Or.inl (classify_eq_of_content hskip rfl)
    | cons c rest =>
        have hhash := hat c rest hskip
        subst hhash
        exact Or.inr (classify_eq_of_content hskip rfl)
  · intro hcls c rest hskip
    rcases hcls with hcls | hcls
    · exact absurd (hskip.symm.trans (begins_of_class hcls)) (List.cons_ne_nil c rest)
    · rcases begins_of_class hcls with ⟨more, hmore⟩
      exact (List.cons.inj (hskip.symm.trans hmore)).1

/-- A blank line or a comment. -/
theorem mem_ending_iff_item : text ∈ ending ↔
    Item.structural? text = some .blank ∨
      ∃ words, Item.structural? text = some (.comment words) := by
  simp only [mem_ending_iff_classify, Item.structural?_eq_some_iff, Item.SaidBy]
  refine or_congr_right ⟨fun hcls => ?_, fun ⟨words, hcls, _⟩ => hcls⟩
  -- A line of this class begins with the sign, so its scan finds the comment.
  rcases begins_of_class hcls with ⟨rest, hskip⟩
  have hend := ending?_comment [] rest (by simp)
  rw [List.nil_append, ← hskip, ending?_skipBlanks] at hend
  exact ⟨_, hcls, hend⟩

theorem classify_of_mem_tagLine (h : text ∈ tagLine) : classify text = .tags := by
  unfold tagLine at h
  rw [mem_blanks_mul] at h
  · cases hskip : Text.skipBlanks text with
    | nil =>
        rw [hskip] at h
        exact absurd h nil_notMem_tag_mul
    | cons c rest =>
        rw [hskip, cons_mem_tag_mul] at h
        rw [h.1] at hskip
        exact classify_eq_of_content hskip rfl
  · intro c rest hc hmem
    rw [(cons_mem_tag_mul.mp hmem).1] at hc
    exact absurd hc (by decide)

theorem mem_tagLine : text ∈ tagLine ↔
    ∃ names comment, Item.structural? text = some (.tags names comment) := by
  simp only [Item.structural?_eq_some_iff, Item.SaidBy]
  constructor
  -- The language of what is left outside of names includes that of a whole line.
  · intro hmem
    have hscan : ∃ out, scanTagsFrom false text = .ok out :=
      (mem_tagsFrom false text).mp ((Language.mem_add _ _ _).mpr (Or.inr hmem))
    rcases hscan with ⟨⟨name, names, remark⟩, hscan⟩
    refine ⟨names, remark.map Remark.comment, classify_of_mem_tagLine hmem, remark, ?_, rfl⟩
    simp only [scanTags, hscan, bind, Except.bind]
  · intro hsaid
    rcases hsaid with ⟨names, comment, hcls, remark, hscan, _⟩
    rcases bind_eq_ok hscan with ⟨out, hscan, _⟩
    have hmem : text ∈ tagsFrom false := (mem_tagsFrom false text).mpr ⟨out, hscan⟩
    rcases (Language.mem_add _ _ _).mp hmem with hend | htags
    · -- The scan alone would take a line without tags too, but the class does not.
      rcases begins_of_class hcls with ⟨rest, hskip⟩
      exact absurd (mem_ending.mp hend '@' rest hskip) (by decide)
    · exact htags

theorem mem_featureLine : text ∈ featureLine ↔
    ∃ title comment, Item.structural? text = some (.feature title comment) := by
  unfold featureLine
  rw [mem_opened_heading, mem_blanks_phrase]
  simp only [Item.structural?_eq_some_iff, Item.SaidBy]
  constructor
  · intro hmem
    rcases hmem with ⟨hcls, words, comment, hphrase, hne⟩
    exact ⟨String.ofList words, comment, hcls, words, hne, rfl, hphrase⟩
  · intro hsaid
    rcases hsaid with ⟨title, comment, hcls, words, hne, _, hphrase⟩
    exact ⟨hcls, words, comment, hphrase, hne⟩

theorem mem_blockLine {kind : BlockKind} : text ∈ blockLine kind ↔
    ∃ title comment, Item.structural? text = some (.block kind title comment) := by
  unfold blockLine
  rw [mem_opened_heading, ← skipBlanks_mem_scannable, mem_scannable]
  simp only [Item.structural?_eq_some_iff, Item.SaidBy]
  constructor
  · intro hmem
    rcases hmem with ⟨hcls, words, comment, hphrase⟩
    exact ⟨String.ofList words, comment, hcls, words, rfl, hphrase⟩
  · intro hsaid
    rcases hsaid with ⟨title, comment, hcls, words, _, hphrase⟩
    exact ⟨hcls, words, comment, hphrase⟩

/-- What follows the keyword of a step. -/
theorem afterKeyword_of_classify {keyword : StepKeyword} (h : classify text = .step keyword) :
    keyword ∈ StepKeyword.active ∧
      ((Text.skipBlanks text).drop keyword.text.length = [] ∨
        ∃ c rest, (Text.skipBlanks text).drop keyword.text.length = c :: rest ∧
          Text.isBlank c = true) := by
  rcases begins_of_class h with ⟨hor, hstarts⟩
  refine ⟨by cases keyword <;> simp_all [StepKeyword.active], ?_⟩
  -- A keyword at the very end of a line is one too, though no step has no text.
  unfold StepKeyword.startsWith at hstarts
  rw [Bool.and_eq_true, String.length_toList] at hstarts
  cases hdrop : (Text.skipBlanks text).drop keyword.text.length with
  | nil => exact Or.inl rfl
  | cons c rest =>
      rw [hdrop] at hstarts
      exact Or.inr ⟨c, rest, rfl, hstarts.2⟩

/-- Behind the keyword of a step, text that is not empty comes after a
    blank. -/
theorem mem_blank_phrase_of_classify {keyword : StepKeyword}
    (h : classify text = .step keyword) :
    (Text.skipBlanks text).drop keyword.text.length ∈ blank * (blank∗ * phrase) ↔
      (Text.skipBlanks text).drop keyword.text.length ∈ blank∗ * phrase := by
  rcases (afterKeyword_of_classify h).2 with hnil | ⟨c, rest, hdrop, hc⟩
  · rw [hnil, nil_mem_kstar_mul]
    exact iff_of_false nil_notMem_letter_mul nil_notMem_phrase
  · rw [hdrop, cons_mem_blanks_phrase hc]
    unfold blank
    rw [cons_mem_letter_mul]
    exact and_iff_right hc

theorem mem_stepLine : text ∈ stepLine ↔
    ∃ keyword words comment, Item.structural? text = some (.step keyword words comment) := by
  have hor : ∀ keyword ∈ StepKeyword.active, keyword ≠ .or := by decide
  simp only [Item.structural?_eq_some_iff, Item.SaidBy]
  constructor
  · intro hmem
    rcases hmem with ⟨keyword, hactive, hmem⟩
    rcases (mem_opened_step (hor keyword hactive)).mp hmem with ⟨hcls, hrest⟩
    rw [mem_blank_phrase_of_classify hcls, mem_blanks_phrase] at hrest
    rcases hrest with ⟨words, comment, hphrase, hne⟩
    exact ⟨keyword, String.ofList words, comment, hcls, words, hne, rfl, hphrase⟩
  · intro hsaid
    rcases hsaid with ⟨keyword, said, comment, hcls, words, hne, _, hphrase⟩
    have hactive := (afterKeyword_of_classify hcls).1
    refine ⟨keyword, hactive, (mem_opened_step (hor keyword hactive)).mpr ⟨hcls, ?_⟩⟩
    rw [mem_blank_phrase_of_classify hcls, mem_blanks_phrase]
    exact ⟨words, comment, hphrase, hne⟩

theorem mem_examplesLine : text ∈ examplesLine ↔
    ∃ comment, Item.structural? text = some (.examples comment) := by
  unfold examplesLine
  rw [mem_opened_heading, mem_ending_iff_ending?]
  simp only [Item.structural?_eq_some_iff, Item.SaidBy, exists_and_left]

theorem mem_row {columns : ℕ} (h : 1 ≤ columns) : text ∈ row columns ↔
    ∃ cells comment, Item.structural? text = some (.row cells comment) ∧
      cells.length = columns := by
  unfold row
  rw [mem_opened_bar, mem_cells_rowEnding h]
  simp only [Item.structural?_eq_some_iff, Item.SaidBy]
  constructor
  · intro hmem
    rcases hmem with ⟨hcls, scanned, ⟨remark, hscan⟩, hlength⟩
    refine ⟨_, _, ⟨hcls, scanned, remark, hscan, rfl, rfl⟩, ?_⟩
    rw [List.length_map, hlength]
  · intro hsaid
    rcases hsaid with ⟨cells, comment, ⟨hcls, scanned, remark, hscan, rfl, _⟩, hlength⟩
    rw [List.length_map] at hlength
    exact ⟨hcls, scanned, ⟨remark, hscan⟩, hlength⟩

/-- A row has a cell. -/
theorem length_pos_of_structural? {cells : List String} {comment : Option String}
    (h : Item.structural? text = some (.row cells comment)) : 1 ≤ cells.length := by
  rw [Item.structural?_eq_some_iff] at h
  rcases h with ⟨_, scanned, remark, hscan, rfl, _⟩
  have hne := (scanRowBody_eq_ok_iff.mp hscan).2.1
  rw [List.length_map]
  exact List.length_pos_iff.mpr hne

theorem mem_closeFence : text ∈ closeFence ↔
    ∃ indent comment, Item.structural? text = some (.fence indent comment) := by
  unfold closeFence
  rw [mem_opened_fence, mem_ending_iff_ending?]
  simp only [Item.structural?_eq_some_iff, Item.SaidBy]
  constructor
  · intro hmem
    rcases hmem with ⟨hcls, comment, hend⟩
    exact ⟨_, comment, hcls, rfl, hend⟩
  · intro hsaid
    rcases hsaid with ⟨indent, comment, hcls, _, hend⟩
    exact ⟨hcls, comment, hend⟩

theorem mem_openFence : text ∈ openFence ↔
    ∃ indent, Item.structural? text = some (.fence indent none) := by
  unfold openFence
  rw [mem_opened_fence, mem_blanks_iff_ending?]
  simp only [Item.structural?_eq_some_iff, Item.SaidBy]
  constructor
  · intro hmem
    rcases hmem with ⟨hcls, hend⟩
    exact ⟨_, hcls, rfl, hend⟩
  · intro hsaid
    rcases hsaid with ⟨indent, hcls, _, hend⟩
    exact ⟨hcls, hend⟩

section Description

/-- What ends the description, or is no part of it, is read there as it is
    elsewhere. -/
theorem read?_descriptive_iff {item : Item}
    (h : item.lineClass = .blank ∨ item.lineClass = .comment ∨ item.lineClass = .tags ∨
      ∃ kind, item.lineClass = .heading (.block kind)) :
    Item.read? .descriptive text = some item ↔ Item.structural? text = some item := by
  simp only [Item.read?]
  split
  · rfl
  · rfl
  · rfl
  · rfl
  -- In all other classes the line is text, whatever it would be elsewhere.
  · rename_i hblank hcomment htags hblock
    constructor
    · intro hprose
      rcases Option.map_eq_some_iff.mp hprose with ⟨out, _, rfl⟩
      exact absurd h (by simp [Item.lineClass])
    · intro hitem
      rw [← Item.lineClass_structural? hitem] at h
      rcases h with h | h | h | ⟨kind, h⟩
      · exact absurd h hblank
      · exact absurd h hcomment
      · exact absurd h htags
      · exact absurd h (hblock kind)

/-- Any other line of a description is text. -/
theorem read?_descriptive_of_text (hend : ¬ (classify text = .blank ∨ classify text = .comment))
    (htags : classify text ≠ .tags) (hblock : ∀ kind, classify text ≠ .heading (.block kind)) :
    Item.read? .descriptive text = Item.prose? text := by
  simp only [Item.read?]
  split
  · exact absurd (Or.inl (by assumption)) hend
  · exact absurd (Or.inr (by assumption)) hend
  · exact absurd (by assumption) htags
  · exact absurd (by assumption) (hblock _)
  · rfl

/-- What is read as text has no class of its own. -/
theorem read?_prose {words : String} {comment : Option String}
    (h : Item.read? .descriptive text = some (.prose words comment)) :
    classify text ≠ .tags ∧ (∀ kind, classify text ≠ .heading (.block kind)) ∧
      Item.prose? text = some (.prose words comment) := by
  have hno : Item.structural? text ≠ some (.prose words comment) := by
    rw [Ne, Item.structural?_eq_some_iff]
    exact not_false
  simp only [Item.read?] at h
  split at h
  · exact absurd h hno
  · exact absurd h hno
  · exact absurd h hno
  · exact absurd h hno
  · rename_i htags hblock
    exact ⟨htags, hblock, h⟩

theorem mem_ending_iff_read : text ∈ ending ↔
    Item.read? .descriptive text = some .blank ∨
      ∃ words, Item.read? .descriptive text = some (.comment words) := by
  rw [mem_ending_iff_item]
  exact or_congr (read?_descriptive_iff (Or.inl rfl)).symm
    (exists_congr fun _ => (read?_descriptive_iff (Or.inr (Or.inl rfl))).symm)

theorem mem_tagLine_iff_read : text ∈ tagLine ↔
    ∃ names comment, Item.read? .descriptive text = some (.tags names comment) := by
  rw [mem_tagLine]
  exact exists₂_congr fun _ _ => (read?_descriptive_iff (Or.inr (Or.inr (Or.inl rfl)))).symm

theorem mem_blockLine_iff_read {kind : BlockKind} : text ∈ blockLine kind ↔
    ∃ title comment, Item.read? .descriptive text = some (.block kind title comment) := by
  rw [mem_blockLine]
  exact exists₂_congr fun _ _ =>
    (read?_descriptive_iff (Or.inr (Or.inr (Or.inr ⟨kind, rfl⟩)))).symm

/-- Trivia can be scanned as text. -/
theorem scannable_of_mem_ending (h : text ∈ ending) : text ∈ scannable := by
  have hscan := scanText_of_atEnd text (mem_ending.mp h)
  exact (mem_textFrom false text).mpr ⟨_, hscan⟩

/-- A line of a description is read as text, or it is trivia. -/
theorem mem_descriptionLine : text ∈ descriptionLine ↔ text ∈ ending ∨
    ∃ words comment, Item.read? .descriptive text = some (.prose words comment) := by
  change text ∈ scannable ∧ classify text ≠ .tags ∧
    (∀ kind, classify text ≠ .heading (.block kind)) ↔ _
  -- Trivia is read as such in a description, so it is kept apart from text.
  by_cases hend : text ∈ ending
  · have hcls := mem_ending_iff_classify.mp hend
    refine iff_of_true ⟨scannable_of_mem_ending hend, ?_, ?_⟩ (Or.inl hend)
    · rcases hcls with hcls | hcls <;> simp [hcls]
    · rcases hcls with hcls | hcls <;> simp [hcls]
  · have hcls := mt mem_ending_iff_classify.mpr hend
    rw [← skipBlanks_mem_scannable, mem_scannable]
    constructor
    · intro hmem
      rcases hmem with ⟨⟨words, comment, hphrase⟩, htags, hblock⟩
      refine Or.inr ⟨String.ofList words, comment, ?_⟩
      rw [read?_descriptive_of_text hcls htags hblock]
      simp [Item.prose?, hphrase]
    · intro hsaid
      rcases hsaid with hmem | ⟨words, comment, h⟩
      · exact absurd hmem hend
      · rcases read?_prose h with ⟨htags, hblock, hprose⟩
        rcases Option.map_eq_some_iff.mp hprose with ⟨⟨said, remark⟩, hphrase, _⟩
        exact ⟨⟨said, remark, hphrase⟩, htags, hblock⟩

end Description

section DocString

/-- A line of a doc string is one that is no fence. -/
theorem mem_bodyLine {indent : ℕ} : text ∈ bodyLine ↔
    ∃ words, Item.read? (.verbatim indent) text = some (.docLine words) := by
  change ¬ text ∈ opened fence ⊤ ↔ _
  rw [mem_opened_fence]
  simp only [Item.read?]
  split
  -- A fence is a fence even when what follows it is at fault.
  · rename_i hc
    refine iff_of_false (fun h => h ⟨hc, trivial⟩) ?_
    intro hsaid
    rcases hsaid with ⟨words, h⟩
    exact absurd (Item.structural?_eq_some_iff.mp h) not_false
  · rename_i hc
    exact iff_of_true (fun h => hc h.1) ⟨_, rfl⟩

/-- A doc string ends as it begins. -/
theorem mem_closeFence_iff_read {indent : ℕ} : text ∈ closeFence ↔
    ∃ n comment, Item.read? (.verbatim indent) text = some (.fence n comment) := by
  rw [mem_closeFence]
  simp only [Item.read?]
  split
  · rfl
  · rename_i hc
    refine iff_of_false ?_ (by simp)
    intro hsaid
    rcases hsaid with ⟨n, comment, h⟩
    exact hc (Item.lineClass_structural? h)

/-- There is nothing else in a doc string. -/
theorem read?_verbatim {indent : ℕ} {item : Item}
    (h : Item.read? (.verbatim indent) text = some item) :
    (∃ n comment, item = .fence n comment) ∨ ∃ words, item = .docLine words := by
  simp only [Item.read?] at h
  split at h
  · rename_i hc
    simp only [Item.structural?, hc] at h
    rcases Option.map_eq_some_iff.mp h with ⟨comment, _, rfl⟩
    exact Or.inl ⟨_, comment, rfl⟩
  · exact Or.inr ⟨_, (Option.some.inj h).symm⟩

end DocString

/-- A row has a cell, wherever it is read. -/
theorem length_pos_of_read? {mode : Mode} {cells : List String} {comment : Option String}
    (h : Item.read? mode text = some (.row cells comment)) : 1 ≤ cells.length := by
  cases mode with
  | structural => exact length_pos_of_structural? h
  | descriptive =>
      simp only [Item.read?] at h
      split at h
      · exact length_pos_of_structural? h
      · exact length_pos_of_structural? h
      · exact length_pos_of_structural? h
      · exact length_pos_of_structural? h
      · rcases Option.map_eq_some_iff.mp h with ⟨out, _, heq⟩
        exact absurd heq (by simp only [reduceCtorEq, not_false_eq_true])
  | verbatim indent =>
      rcases read?_verbatim h with ⟨n, remark, heq⟩ | ⟨words, heq⟩
      · exact absurd heq (by simp only [reduceCtorEq, not_false_eq_true])
      · exact absurd heq (by simp only [reduceCtorEq, not_false_eq_true])

end LineGrammar

end Gherkin
