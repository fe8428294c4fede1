import Gherkin.Proofs.Reader.Classes
import Gherkin.Proofs.Reader.Rescan
import Gherkin.Proofs.Grammar.Lines

/-!
# The Grammar of a Line and Its Scan

The kinds of lines that the grammar of documents names are put together from
languages of characters: text, tags, cells, and the end of a line. This module
holds these languages against the scanners. Characters are in a language
exactly when its scanner reads them without a fault.

A scanner goes through a line from the front, so the languages are taken
apart from the front too. For text and for tags this needs the language of
what is left inside a quote, or inside a name; it is the scanner's flag that
tells which of the two languages is meant.

## Main definitions

* `LineGrammar.textFrom`: What is left of a text, inside or outside a quote.
* `LineGrammar.tagsFrom`: What is left of a line of tags, inside or outside a
  name.

## Theorems

* `LineGrammar.mem_opened`: What stands behind a keyword or a sign.
* `LineGrammar.mem_ending`, `LineGrammar.mem_textFrom`,
  `LineGrammar.mem_blanks_phrase`: The end of a line, text, and text that is
  not empty.
* `LineGrammar.mem_tagsFrom`: A line of tags.
* `LineGrammar.mem_cells_rowEnding`: A row of so many cells.
-/

namespace Gherkin

open scoped Computability

namespace LineGrammar

open Reader

section Blanks

/-- Blanks in front of what does not begin with one are those that are
    skipped. -/
theorem mem_blanks_mul {l : Language Char}
    (h : ∀ c rest, Text.isBlank c = true → c :: rest ∉ l) (cs : List Char) :
    cs ∈ blank∗ * l ↔ Text.skipBlanks cs ∈ l := by
  unfold blank
  induction cs with
  | nil => rw [nil_mem_kstar_mul]; rfl
  | cons c rest ih =>
      rw [cons_mem_kstar_letter_mul, ih]
      cases hc : Text.isBlank c with
      -- The language begins here or nowhere, as no blank is left to skip.
      | false => simp [Text.skipBlanks_cons c rest hc]
      | true =>
          have hskip : Text.skipBlanks (c :: rest) = Text.skipBlanks rest :=
            Text.skipBlanks_append [c] rest (by simpa using hc)
          simp [hskip, h c rest hc]

/-- Words begin with their first character. -/
theorem mem_word_mul {text cs : List Char} {l : Language Char} :
    cs ∈ word text * l ↔ ∃ rest, cs = text ++ rest ∧ rest ∈ l := by
  rw [Language.mem_mul]
  constructor
  · intro hmem
    rcases hmem with ⟨_, rfl, rest, hrest, rfl⟩
    exact ⟨rest, rfl, hrest⟩
  · intro hword
    rcases hword with ⟨rest, rfl, hrest⟩
    exact ⟨text, rfl, rest, hrest, rfl⟩

/-- A line that says something behind a keyword or a sign. -/
theorem mem_opened {c : Char} {sign cs : List Char} {l : Language Char}
    (hc : Text.isBlank c = false) :
    cs ∈ opened (c :: sign) l ↔
      ∃ rest, Text.skipBlanks cs = c :: sign ++ rest ∧ rest ∈ l := by
  unfold opened
  rw [mem_blanks_mul, mem_word_mul]
  -- What is behind the blanks begins with the sign, which is no blank.
  intro d rest hd hmem
  rcases mem_word_mul.mp hmem with ⟨more, heq, _⟩
  rw [List.cons_append, List.cons.injEq] at heq
  rw [heq.1, hc] at hd
  exact absurd hd (by simp)

theorem mem_remark {cs : List Char} : cs ∈ remark ↔ ∃ rest, cs = '#' :: rest := by
  unfold remark char
  cases cs with
  | nil => simp
  | cons c rest =>
      rw [cons_mem_letter_mul]
      constructor
      · intro hmem
        rcases hmem with ⟨rfl, _⟩
        exact ⟨rest, rfl⟩
      · intro hsaid
        rcases hsaid with ⟨more, heq⟩
        rw [List.cons.injEq] at heq
        exact ⟨heq.1, trivial⟩

/-- The end of a line. -/
theorem mem_ending {cs : List Char} : cs ∈ ending ↔ AtEnd cs := by
  unfold ending AtEnd
  rw [mem_blanks_mul, Language.mem_add, Language.mem_one, mem_remark]
  · cases Text.skipBlanks cs with
    | nil => simp
    | cons c rest => simp
  -- Neither nothing nor a comment begins with a blank.
  · intro c rest hc hmem
    rcases Language.mem_add _ _ _ |>.mp hmem with hone | hremark
    · exact cons_notMem_one hone
    · rcases mem_remark.mp hremark with ⟨more, heq⟩
      rw [List.cons.injEq] at heq
      rw [heq.1] at hc
      exact absurd hc (by decide)

theorem mem_ending_iff_ending? {cs : List Char} :
    cs ∈ ending ↔ ∃ comment, ending? cs = some comment := by
  rw [mem_ending, ← scanEnd_isOk_iff]
  unfold ending?
  cases scanEnd cs with
  | error stop => simp [Except.toOption]
  | ok remark => simp [Except.toOption]

/-- Nothing but blanks is left when the end of a line has no comment. -/
theorem mem_blanks_iff_ending? {cs : List Char} :
    cs ∈ blank∗ ↔ ending? cs = some none := by
  unfold blank
  rw [mem_kstar_letter, ← Text.skipBlanks_eq_nil_iff]
  unfold ending? scanEnd
  split
  · rename_i heq
    simp [heq, Except.toOption]
  · rename_i heq
    simp [heq, Except.toOption]
  · rename_i hnil _
    exact iff_of_false hnil (by simp [Except.toOption])

end Blanks

section Texts

/-- What is left of a text, inside a quote or outside of one. -/
def textFrom : Bool → Language Char
  | false => scannable
  | true => (letter (fun c => c ≠ '"' ∧ c ≠ '\\') + escape)∗ * (char '"' * scannable)

theorem escape_mul (l : Language Char) :
    escape * l = char '\\' * (letter (fun _ => True) * l) :=
  mul_assoc _ _ _

theorem quoted_mul_scannable : quoted * scannable = char '"' * textFrom true := by
  unfold quoted
  rw [mul_assoc, mul_assoc]
  rfl

theorem textFrom_false : textFrom false =
    1 + remark + (letter IsPlain * textFrom false +
      char '\\' * (letter (fun _ => True) * textFrom false) + char '"' * textFrom true) := by
  -- The repetition is unrolled once; its parts each begin with their own letter.
  rw [← escape_mul, ← quoted_mul_scannable]
  change scannable = 1 + remark + (letter IsPlain * scannable + escape * scannable + _)
  rw [← add_mul, ← add_mul]
  exact kstar_mul _ _

theorem textFrom_true : textFrom true = char '"' * textFrom false +
    (letter (fun c => c ≠ '"' ∧ c ≠ '\\') * textFrom true +
      char '\\' * (letter (fun _ => True) * textFrom true)) := by
  rw [← escape_mul, ← add_mul]
  exact kstar_mul _ _

theorem nil_mem_textFrom (q : Bool) : [] ∈ textFrom q ↔ q = false := by
  cases q with
  | false =>
      rw [textFrom_false]
      simp only [Language.mem_add, Language.nil_mem_one, true_or]
  | true =>
      rw [textFrom_true]
      simp only [Language.mem_add, char, nil_notMem_letter_mul, or_self, Bool.true_eq_false]

/-- A character of a text and what is left after it. -/
theorem cons_mem_textFrom (q : Bool) (c : Char) (rest : List Char) :
    c :: rest ∈ textFrom q ↔
      (q = false ∧ c = '#') ∨ (c = '"' ∧ rest ∈ textFrom (!q)) ∨
        (c = '\\' ∧ rest ∈ letter (fun _ => True) * textFrom q) ∨
        (c ≠ '"' ∧ c ≠ '\\' ∧ (q = false → c ≠ '#') ∧ rest ∈ textFrom q) := by
  cases q with
  | false =>
      nth_rewrite 1 [textFrom_false]
      simp only [Language.mem_add, cons_notMem_one, mem_remark, char, cons_mem_letter_mul,
        IsPlain, List.cons.injEq, exists_and_left, exists_eq', and_true, Bool.not_false]
      tauto
  | true =>
      nth_rewrite 1 [textFrom_true]
      simp only [Language.mem_add, char, cons_mem_letter_mul, Bool.not_true]
      tauto

/-- A computation that goes on without a fault succeeds when its beginning
    does. -/
theorem exists_bind_ok_iff {ε α β : Type} {first : Except ε α} {next : α → Except ε β}
    (h : ∀ a, ∃ b, next a = .ok b) :
    (∃ b, (first >>= next) = .ok b) ↔ ∃ a, first = .ok a := by
  cases first with
  | error e => simp [bind, Except.bind]
  | ok a => simpa [bind, Except.bind] using h a

/-- A text is scanned to its end exactly when it is one. -/
theorem mem_textFrom (q : Bool) (cs : List Char) :
    cs ∈ textFrom q ↔ ∃ out, scanText q cs = .ok out := by
  -- Along the scanner: one case for each way it looks at the next character.
  fun_induction scanText q cs with
  | case1 => simp [nil_mem_textFrom]
  | case2 => simp [nil_mem_textFrom]
  | case3 q => simp [cons_mem_textFrom]
  | case4 q c more ih =>
      rw [exists_bind_ok_iff (fun _ => ⟨_, rfl⟩), ← ih]
      simp [cons_mem_textFrom q '\\']
  | case5 q more ih =>
      rw [exists_bind_ok_iff (fun _ => ⟨_, rfl⟩), ← ih]
      simp [cons_mem_textFrom q '"']
  | case6 more => simp [cons_mem_textFrom]
  -- A character that stands for itself leaves the flag as it is.
  | case7 q c more hlone hesc hquote hhash ih =>
      have hplain : c ≠ '\\' := by
        intro hc
        cases more with
        | nil => exact hlone hc rfl
        | cons d ds => exact hesc d ds hc rfl
      rw [exists_bind_ok_iff (fun _ => ⟨_, rfl⟩), ← ih, cons_mem_textFrom]
      constructor
      · intro hmem
        rcases hmem with ⟨hq, hc⟩ | ⟨hc, _⟩ | ⟨hc, _⟩ | ⟨_, _, _, hmem⟩
        · exact absurd hc (hhash hq)
        · exact absurd hc hquote
        · exact absurd hc hplain
        · exact hmem
      · intro hmem
        exact Or.inr (Or.inr (Or.inr ⟨hquote, hplain, hhash, hmem⟩))

/-- Text can be read up to a comment or the end of the line. -/
theorem mem_scannable {cs : List Char} :
    cs ∈ scannable ↔ ∃ words comment, phrase? cs = some (words, comment) := by
  change cs ∈ textFrom false ↔ _
  rw [mem_textFrom]
  unfold phrase?
  cases hs : scanText false cs with
  | error stop => simp [Except.toOption]
  | ok out =>
      rcases out with ⟨words, rest⟩
      -- The scan stops at the end or in front of a comment, and both end the line.
      rcases (scanText_spec false cs words rest hs).2.1 with rfl | ⟨more, rfl⟩
      · simp [Except.toOption, ending?, scanEnd, Text.skipBlanks]
      · have hend := ending?_comment [] more (by simp)
        rw [List.nil_append] at hend
        simp [Except.toOption, hend]

/-- Blanks are text. -/
theorem skipBlanks_mem_scannable {cs : List Char} :
    Text.skipBlanks cs ∈ scannable ↔ cs ∈ scannable := by
  induction cs with
  | nil => rfl
  | cons c rest ih =>
      cases hc : Text.isBlank c with
      | false => rw [Text.skipBlanks_cons c rest hc]
      | true =>
          have hskip : Text.skipBlanks (c :: rest) = Text.skipBlanks rest :=
            Text.skipBlanks_append [c] rest (by simpa using hc)
          -- A blank is none of the characters that mean something in a text.
          have hne : c ≠ '"' ∧ c ≠ '\\' ∧ c ≠ '#' := by
            refine ⟨?_, ?_, ?_⟩ <;> (rintro rfl; exact absurd hc (by decide))
          rw [hskip, ih]
          change rest ∈ textFrom false ↔ c :: rest ∈ textFrom false
          rw [cons_mem_textFrom]
          simp [hne]

theorem nil_notMem_phrase : [] ∉ phrase := by
  unfold phrase
  rw [add_mul, add_mul, escape_mul, quoted_mul_scannable]
  simp only [Language.mem_add, char, nil_notMem_letter_mul, or_self, not_false_eq_true]

/-- A phrase is text that begins neither with a blank nor with a comment. -/
theorem cons_mem_phrase {c : Char} {rest : List Char} :
    c :: rest ∈ phrase ↔ Text.isBlank c = false ∧ c ≠ '#' ∧ c :: rest ∈ scannable := by
  unfold phrase
  rw [add_mul, add_mul, escape_mul, quoted_mul_scannable]
  change _ ↔ _ ∧ _ ∧ c :: rest ∈ textFrom false
  rw [cons_mem_textFrom]
  simp only [Language.mem_add, char, cons_mem_letter_mul, IsPlain, Bool.not_false]
  constructor
  -- A plain character, an escape or a quote: each is how some text begins.
  · intro hmem
    rcases hmem with (⟨⟨⟨hesc, hquote, hhash⟩, hblank⟩, hrest⟩ | ⟨rfl, hrest⟩) | ⟨rfl, hrest⟩
    · exact ⟨hblank, hhash, Or.inr (Or.inr (Or.inr ⟨hquote, hesc, fun _ => hhash, hrest⟩))⟩
    · exact ⟨rfl, by decide, Or.inr (Or.inr (Or.inl ⟨rfl, hrest⟩))⟩
    · exact ⟨rfl, by decide, Or.inr (Or.inl ⟨rfl, hrest⟩)⟩
  · intro hsaid
    rcases hsaid with ⟨hblank, hhash,
      ⟨_, hc⟩ | ⟨hc, hrest⟩ | ⟨hc, hrest⟩ | ⟨hquote, hesc, _, hrest⟩⟩
    · exact absurd hc hhash
    · exact Or.inr ⟨hc, hrest⟩
    · exact Or.inl (Or.inr ⟨hc, hrest⟩)
    · exact Or.inl (Or.inl ⟨⟨⟨hesc, hquote, hhash⟩, hblank⟩, hrest⟩)

/-- Text that is not empty is text that begins before the end of the line. -/
theorem mem_blanks_phrase_iff {cs : List Char} :
    cs ∈ blank∗ * phrase ↔ cs ∈ scannable ∧ ¬ AtEnd cs := by
  rw [mem_blanks_mul, ← skipBlanks_mem_scannable]
  -- Behind the blanks a phrase begins, unless the line ends there.
  · unfold AtEnd
    cases hskip : Text.skipBlanks cs with
    | nil => simp [nil_notMem_phrase]
    | cons c rest =>
        rw [cons_mem_phrase]
        simp [Text.skipBlanks_head hskip, and_comm]
  · intro c rest hc hmem
    rw [cons_mem_phrase, hc] at hmem
    exact absurd hmem.1 (by simp)

theorem cons_mem_blanks_phrase {c : Char} {rest : List Char} (hc : Text.isBlank c = true) :
    c :: rest ∈ blank∗ * phrase ↔ rest ∈ blank∗ * phrase := by
  unfold blank
  rw [cons_mem_kstar_letter_mul, cons_mem_phrase]
  simp [hc]

/-- Text that is not empty can be read. -/
theorem mem_blanks_phrase {cs : List Char} :
    cs ∈ blank∗ * phrase ↔
      ∃ words comment, phrase? (Text.skipBlanks cs) = some (words, comment) ∧ words ≠ [] := by
  rw [mem_blanks_phrase_iff, ← skipBlanks_mem_scannable, mem_scannable, ← atEnd_skipBlanks]
  constructor
  · intro hmem
    rcases hmem with ⟨⟨words, comment, h⟩, hat⟩
    exact ⟨words, comment, h, mt (phrase?_nil_iff h).mp hat⟩
  · intro hsaid
    rcases hsaid with ⟨words, comment, h, hne⟩
    exact ⟨⟨words, comment, h⟩, mt (phrase?_nil_iff h).mpr hne⟩

end Texts

section Tags

/-- What can follow a tag. -/
def tagsAfter : Language Char :=
  (blank * blank∗ * tag)∗ * ending

/-- What is left of a line of tags, inside a name or outside of one. -/
def tagsFrom : Bool → Language Char
  | false => ending + blank∗ * (tag * tagsAfter)
  | true => (letter IsNameChar)∗ * tagsAfter

theorem tagsAfter_eq : tagsAfter = ending + blank * (blank∗ * (tag * tagsAfter)) := by
  unfold tagsAfter
  nth_rewrite 1 [kstar_mul]
  rw [mul_assoc, mul_assoc]

theorem isNameChar_iff {c : Char} : IsNameChar c ↔ isTagChar c = true := by
  simp [IsNameChar, isTagChar, and_assoc]

theorem cons_mem_ending {c : Char} {rest : List Char} :
    c :: rest ∈ ending ↔ c = '#' ∨ (Text.isBlank c = true ∧ rest ∈ ending) := by
  unfold ending blank
  rw [cons_mem_kstar_letter_mul, Language.mem_add, mem_remark]
  simp

/-- A tag begins with its sign. -/
theorem cons_mem_tag_mul {c : Char} {rest : List Char} {l : Language Char} :
    c :: rest ∈ tag * l ↔
      c = '@' ∧ rest ∈ letter IsNameChar * ((letter IsNameChar)∗ * l) := by
  unfold tag char
  rw [mul_assoc, mul_assoc, cons_mem_letter_mul]

theorem nil_notMem_tag_mul {l : Language Char} : [] ∉ tag * l := by
  unfold tag char
  rw [mul_assoc]
  exact nil_notMem_letter_mul

theorem cons_mem_blanks_tag {c : Char} {rest : List Char} {l : Language Char} :
    c :: rest ∈ blank∗ * (tag * l) ↔
      (c = '@' ∧ rest ∈ letter IsNameChar * ((letter IsNameChar)∗ * l)) ∨
        (Text.isBlank c = true ∧ rest ∈ blank∗ * (tag * l)) := by
  unfold blank
  rw [cons_mem_kstar_letter_mul, cons_mem_tag_mul]

theorem cons_mem_tagsAfter {c : Char} {rest : List Char} :
    c :: rest ∈ tagsAfter ↔ c = '#' ∨ (Text.isBlank c = true ∧ rest ∈ tagsFrom false) := by
  rw [tagsAfter_eq, Language.mem_add, cons_mem_ending]
  unfold blank tagsFrom
  rw [cons_mem_letter_mul, Language.mem_add]
  tauto

theorem cons_mem_tagsFrom_false {c : Char} {rest : List Char} :
    c :: rest ∈ tagsFrom false ↔ c = '#' ∨ (Text.isBlank c = true ∧ rest ∈ tagsFrom false) ∨
      (c = '@' ∧ rest ∈ letter IsNameChar * tagsFrom true) := by
  unfold tagsFrom
  rw [Language.mem_add, Language.mem_add, cons_mem_ending, cons_mem_blanks_tag]
  tauto

theorem cons_mem_tagsFrom_true {c : Char} {rest : List Char} :
    c :: rest ∈ tagsFrom true ↔ c = '#' ∨ (Text.isBlank c = true ∧ rest ∈ tagsFrom false) ∨
      (IsNameChar c ∧ rest ∈ tagsFrom true) := by
  unfold tagsFrom
  rw [cons_mem_kstar_letter_mul, cons_mem_tagsAfter]
  exact or_assoc

/-- A name that is not empty. -/
theorem mem_name_mul {rest : List Char} : rest ∈ letter IsNameChar * tagsFrom true ↔
    rest.head?.any isTagChar = true ∧ rest ∈ tagsFrom true := by
  cases rest with
  | nil => simp
  | cons c more =>
      rw [cons_mem_letter_mul, cons_mem_tagsFrom_true, isNameChar_iff, List.head?_cons,
        Option.any_some]
      -- A name goes on like the rest of one, once its first character is there.
      constructor
      · intro hmem
        rcases hmem with ⟨hc, hmore⟩
        exact ⟨hc, Or.inr (Or.inr ⟨hc, hmore⟩)⟩
      · intro hsaid
        rcases hsaid with ⟨hc, rfl | ⟨hblank, _⟩ | ⟨_, hmore⟩⟩
        · exact absurd hc (by decide)
        · simp [isTagChar, hblank] at hc
        · exact ⟨hc, hmore⟩

theorem nil_mem_tagsFrom (inName : Bool) : [] ∈ tagsFrom inName := by
  have hend : [] ∈ ending := mem_ending.mpr atEnd_nil
  cases inName with
  | false => exact (Language.mem_add _ _ _).mpr (Or.inl hend)
  | true =>
      unfold tagsFrom tagsAfter
      rw [nil_mem_kstar_mul, nil_mem_kstar_mul]
      exact hend

/-- A line of tags is scanned to its end exactly when it is one. -/
theorem mem_tagsFrom (inName : Bool) (cs : List Char) :
    cs ∈ tagsFrom inName ↔ ∃ out, scanTagsFrom inName cs = .ok out := by
  -- Along the scanner again; its flag says whether a name is being read.
  fun_induction scanTagsFrom inName cs with
  | case1 inName => simp [nil_mem_tagsFrom]
  | case2 inName c rest hblank ih =>
      have hne : c ≠ '#' ∧ c ≠ '@' ∧ ¬ IsNameChar c := by
        refine ⟨?_, ?_, ?_⟩
        · rintro rfl; exact absurd hblank (by decide)
        · rintro rfl; exact absurd hblank (by decide)
        · intro hname
          rcases hname with ⟨_, _, hc⟩
          rw [hblank] at hc
          exact absurd hc (by simp)
      rw [exists_bind_ok_iff (fun _ => ⟨_, rfl⟩), ← ih]
      cases inName with
      | false => simp [cons_mem_tagsFrom_false, hne, hblank]
      | true => simp [cons_mem_tagsFrom_true, hne, hblank]
  -- A comment ends the line, inside a name or not.
  | case3 inName c rest hblank hhash =>
      rw [beq_iff_eq] at hhash
      subst hhash
      have hok : ∃ remark, scanEnd ('#' :: rest) = .ok remark := ⟨_, rfl⟩
      rw [exists_bind_ok_iff (fun _ => ⟨_, rfl⟩)]
      cases inName with
      | false => simp only [cons_mem_tagsFrom_false, true_or, hok]
      | true => simp only [cons_mem_tagsFrom_true, true_or, hok]
  | case4 inName c rest hblank hhash htag ih =>
      rw [Bool.and_eq_true] at htag
      rcases htag with ⟨rfl, htag⟩
      rw [beq_iff_eq] at hhash
      rw [exists_bind_ok_iff (fun _ => ⟨_, rfl⟩), ← ih, cons_mem_tagsFrom_true, isNameChar_iff]
      simp [hhash, hblank, htag]
  | case5 inName c rest hblank hhash htag hat hhead ih =>
      rw [Bool.and_eq_true, Bool.not_eq_true', beq_iff_eq] at hat
      rcases hat with ⟨rfl, rfl⟩
      rw [exists_bind_ok_iff (fun _ => ⟨_, rfl⟩), ← ih, cons_mem_tagsFrom_false, mem_name_mul]
      simp [hhead, hblank]
  -- A sign without a name is refused, and no tag has an empty name.
  | case6 inName c rest hblank hhash htag hat hhead =>
      rw [Bool.and_eq_true, Bool.not_eq_true', beq_iff_eq] at hat
      rcases hat with ⟨rfl, rfl⟩
      rw [cons_mem_tagsFrom_false, mem_name_mul]
      simp [hhead, hblank]
  | case7 inName c rest hblank hhash htag hat =>
      rw [beq_iff_eq] at hhash
      cases inName with
      | false =>
          rw [cons_mem_tagsFrom_false]
          simp only [Bool.not_false, Bool.true_and, beq_iff_eq] at hat
          simp [hhash, hblank, hat]
      | true =>
          rw [cons_mem_tagsFrom_true, isNameChar_iff]
          simp only [Bool.true_and] at htag
          simp [hhash, hblank, htag]

end Tags

section Rows

theorem cons_mem_cell_mul {c : Char} {rest : List Char} {l : Language Char} :
    c :: rest ∈ cell * l ↔ (c = '|' ∧ rest ∈ l) ∨ (c ≠ '|' ∧ rest ∈ cell * l) := by
  unfold cell char
  rw [mul_assoc, cons_mem_kstar_letter_mul, cons_mem_letter_mul]

/-- A cell is closed by its first bar. -/
theorem append_mem_cell_mul {inside rest : List Char} {l : Language Char}
    (h : ∀ c ∈ inside, c ≠ '|') : inside ++ '|' :: rest ∈ cell * l ↔ rest ∈ l := by
  induction inside with
  | nil => simp [cons_mem_cell_mul]
  | cons c more ih =>
      have hc : c ≠ '|' := h c List.mem_cons_self
      rw [List.cons_append, cons_mem_cell_mul, ih (fun d hd => h d (List.mem_cons_of_mem c hd))]
      simp [hc]

theorem bar_mem_of_mem_cell_mul {cs : List Char} {l : Language Char} (h : cs ∈ cell * l) :
    '|' ∈ cs := by
  induction cs with
  | nil =>
      unfold cell char at h
      rw [mul_assoc, nil_mem_kstar_mul] at h
      exact absurd h nil_notMem_letter_mul
  | cons c rest ih =>
      rcases cons_mem_cell_mul.mp h with ⟨rfl, _⟩ | ⟨_, hrest⟩
      · exact List.mem_cons_self
      · exact List.mem_cons_of_mem c (ih hrest)

/-- The cells of a row are those that are scanned, when what follows them
    holds no bar. -/
theorem mem_cells_mul {l : Language Char} (hl : ∀ cs ∈ l, '|' ∉ cs) (seen cs : List Char)
    (hseen : ∀ c ∈ seen, c ≠ '|') (n : ℕ) :
    seen.reverse ++ cs ∈ cell ^ n * l ↔
      (scanCells seen cs).1.length = n ∧ (scanCells seen cs).2 ∈ l := by
  -- The scanner collects the characters of a cell in reverse until a bar closes it.
  fun_induction scanCells seen cs generalizing n with
  -- No bar is left, so no further cell is.
  | case1 seen =>
      cases n with
      | zero => simp
      | succ n =>
          rw [pow_succ', mul_assoc, List.append_nil]
          refine iff_of_false (fun hmem => ?_) (by simp)
          exact hseen '|' (List.mem_reverse.mp (bar_mem_of_mem_cell_mul hmem)) rfl
  | case2 seen rest cells tail heq ih =>
      rw [heq] at ih
      cases n with
      -- There is a bar, but what follows the cells holds none.
      | zero =>
          rw [pow_zero, one_mul]
          exact iff_of_false (fun hmem => hl _ hmem (by simp)) (by simp)
      | succ n =>
          rw [pow_succ', mul_assoc, append_mem_cell_mul (by simpa using hseen)]
          simpa using ih (by simp) n
  | case3 seen c rest hbar ih =>
      have hall : ∀ d ∈ c :: seen, d ≠ '|' := by
        intro d hd
        rcases List.mem_cons.mp hd with rfl | hd
        · exact hbar
        · exact hseen d hd
      simpa using ih hall n

/-- Blanks are no bars. -/
theorem bar_mem_skipBlanks {cs : List Char} : '|' ∈ Text.skipBlanks cs ↔ '|' ∈ cs := by
  rcases Text.exists_skipBlanks cs with ⟨gap, hgap, hcs⟩
  constructor
  · exact Text.mem_of_mem_skipBlanks
  · intro hmem
    rw [hcs, List.mem_append] at hmem
    rcases hmem with hmem | hmem
    · exact absurd (hgap '|' hmem) (by decide)
    · exact hmem

theorem mem_rowEnding {cs : List Char} : cs ∈ rowEnding ↔ AtEnd cs ∧ '|' ∉ cs := by
  unfold rowEnding char
  rw [mem_blanks_mul, ← bar_mem_skipBlanks]
  · unfold AtEnd
    cases Text.skipBlanks cs with
    | nil =>
        rw [Language.mem_add]
        simp
    -- A comment is the rest of the line, and it holds no bar.
    | cons c rest =>
        rw [Language.mem_add, cons_mem_letter_mul, mem_kstar_letter]
        constructor
        · intro hmem
          rcases hmem with hone | ⟨rfl, hrest⟩
          · exact absurd hone cons_notMem_one
          · simpa using fun hbar => hrest '|' hbar rfl
        · intro hsaid
          rcases hsaid with ⟨hat, hbar⟩
          refine Or.inr ⟨hat c rest rfl, fun d hd => ?_⟩
          rintro rfl
          exact hbar (List.mem_cons_of_mem c hd)
  · intro c rest hc hmem
    rcases (Language.mem_add _ _ _).mp hmem with hone | hremark
    · exact cons_notMem_one hone
    · rw [cons_mem_letter_mul] at hremark
      rw [hremark.1] at hc
      exact absurd hc (by decide)

/-- A row is scanned when it has a cell and only the end of the line follows
    the last one. -/
theorem exists_scanRowBody_iff {cs : List Char} {cells : List Cell} :
    (∃ remark, scanRowBody cs = .ok (cells, remark)) ↔
      (scanCells [] cs).1 = cells ∧ cells ≠ [] ∧ AtEnd (scanCells [] cs).2 := by
  simp only [scanRowBody_eq_ok_iff, exists_and_left, scanEnd_isOk_iff]

/-- A row of so many cells is scanned as one. -/
theorem mem_cells_rowEnding {cs : List Char} {n : ℕ} (hn : 1 ≤ n) :
    cs ∈ cell ^ n * rowEnding ↔
      ∃ cells, (∃ remark, scanRowBody cs = .ok (cells, remark)) ∧ cells.length = n := by
  have hspec := (scanCells_spec (P := fun _ => True) [] cs (by simp) (by simp)).2
  have hcells := mem_cells_mul (fun tail ht => (mem_rowEnding.mp ht).2) [] cs (by simp) n
  rw [List.reverse_nil, List.nil_append] at hcells
  rw [hcells, mem_rowEnding]
  simp only [exists_scanRowBody_iff]
  constructor
  · intro hmem
    rcases hmem with ⟨hlength, hat, _⟩
    refine ⟨_, ⟨rfl, ?_, hat⟩, hlength⟩
    intro hnil
    rw [hnil, List.length_nil] at hlength
    omega
  -- The scanner goes on to the last bar, so none is left behind it.
  · intro hscanned
    rcases hscanned with ⟨cells, ⟨rfl, _, hat⟩, hlength⟩
    exact ⟨hlength, hat, fun hbar => (hspec '|' hbar).1 rfl⟩

end Rows

end LineGrammar

end Gherkin
