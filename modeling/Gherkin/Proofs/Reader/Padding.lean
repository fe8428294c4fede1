import Gherkin.Proofs.Reader.Classes
import Gherkin.Proofs.Reader.Gist
import Gherkin.Proofs.Reader.Rescan

/-!
# Blanks Around a Line

A line says the same with another indentation and with blanks at its end.
Every scan of a line trims the blanks that end what it scans, whether that is a
text, a comment, the name of a tag or a cell, and skips those in front of it.
The class of a line is judged without its indentation, and blanks at the end do
not change it either: no keyword ends in a blank, and a step keyword may be
followed by one.

Only two lines keep their blanks. A line of a doc string is taken as it is, and
the fence that opens one tells how far it is indented.

## Main definitions

* `Text.Padded`: A text with other blanks in front and more behind.
* `Item.indented`: What a line says, with another indentation.

## Theorems

* `ending?_trailing`, `phrase?_trailing`, `scanTags_padded`, `scanRowBody_trailing`:
  Scans of a line with blanks behind it.
* `classify_padded`: The class of a padded line.
* `Item.structural?_padded`, `Item.prose?_padded`, `Item.read?_padded`: What a
  padded line says.
* `Gist.step_padded`: What a padded line does.
-/

namespace Gherkin

/-- A text with other blanks in front of it and more blanks behind it. -/
inductive Text.Padded (text : List Char) : List Char → Prop
  | intro (lead trail : List Char) (hlead : ∀ c ∈ lead, Text.isBlank c = true)
      (htrail : ∀ c ∈ trail, Text.isBlank c = true) :
      Padded text (lead ++ (Text.skipBlanks text ++ trail))

namespace Text

/-- Blanks behind nothing are nothing. -/
theorem skipBlanks_trailing_nil {cs trail : List Char} (h : ∀ c ∈ trail, isBlank c = true)
    (hnil : skipBlanks cs = []) : skipBlanks (cs ++ trail) = [] := by
  rw [skipBlanks_eq_nil_iff] at hnil ⊢
  intro c hc
  exact (List.mem_append.mp hc).elim (hnil c) (h c)

/-- Blanks behind something stay behind it. -/
theorem skipBlanks_trailing {cs : List Char} (hne : skipBlanks cs ≠ []) (trail : List Char) :
    skipBlanks (cs ++ trail) = skipBlanks cs ++ trail := by
  unfold skipBlanks at hne ⊢
  rw [List.dropWhile_append, if_neg (by simpa using hne)]

/-- A text that is padded has the same content, with blanks behind it. -/
theorem Padded.exists_content {text padded : List Char} (h : Padded text padded) :
    ∃ trail, (∀ c ∈ trail, isBlank c = true) ∧
      ((skipBlanks text = [] ∧ skipBlanks padded = []) ∨
        (skipBlanks text ≠ [] ∧ skipBlanks padded = skipBlanks text ++ trail)) := by
  rcases h with ⟨lead, trail, hlead, htrail⟩
  refine ⟨trail, htrail, ?_⟩
  rw [skipBlanks_append lead _ hlead]
  by_cases hnil : skipBlanks text = []
  · refine Or.inl ⟨hnil, ?_⟩
    rw [hnil, List.nil_append]
    exact skipBlanks_eq_nil_iff.mpr htrail
  · refine Or.inr ⟨hnil, ?_⟩
    rw [skipBlanks_trailing (by rwa [skipBlanks_idem]), skipBlanks_idem]

/-- Blanks behind a text pad it. -/
theorem padded_append (text : List Char) {trail : List Char} (h : ∀ c ∈ trail, isBlank c = true) :
    Padded text (text ++ trail) := by
  rcases exists_skipBlanks text with ⟨gap, hgap, htext⟩
  have hpadded : Padded text (gap ++ (skipBlanks text ++ trail)) := .intro gap trail hgap h
  rwa [← List.append_assoc, ← htext] at hpadded

/-- Blanks behind a text pad it, and do not indent it unless it is blank. -/
theorem indentation_append {cs : List Char} (h : skipBlanks cs ≠ []) (trail : List Char) :
    indentation (cs ++ trail) = indentation cs := by
  have hshort : (cs.takeWhile isBlank).length ≠ cs.length := by
    intro hlength
    refine h ?_
    rw [skipBlanks_eq_nil_iff]
    exact List.takeWhile_eq_self_iff.mp ((List.takeWhile_prefix isBlank).eq_of_length hlength)
  rw [indentation, indentation, List.takeWhile_append, if_neg hshort]

end Text

namespace Reader

/-- Blanks in front of tags are skipped. -/
theorem scanTags_lead {lead : List Char} (hlead : ∀ c ∈ lead, Text.isBlank c = true)
    (cs : List Char) : scanTags (lead ++ cs) = scanTags cs := by
  induction lead with
  | nil => rfl
  | cons c rest ih =>
      rw [← ih (fun d hd => hlead d (List.mem_cons_of_mem c hd)), List.cons_append, scanTags,
        scanTags, scanTagsFrom, if_pos (hlead c List.mem_cons_self)]
      cases scanTagsFrom false (rest ++ cs) <;> rfl

section Trailing

variable {trail : List Char} (htrail : ∀ c ∈ trail, Text.isBlank c = true)

include htrail

theorem ending?_trailing {cs : List Char} {comment : Option String}
    (h : ending? cs = some comment) : ending? (cs ++ trail) = some comment := by
  by_cases hnil : Text.skipBlanks cs = []
  · simp only [ending?, scanEnd, hnil, Text.skipBlanks_trailing_nil htrail hnil] at h ⊢
    exact h
  · have hat := atEnd_of_ending? h
    cases hskip : Text.skipBlanks cs with
    | nil => exact absurd hskip hnil
    | cons c rest =>
        have hsign := hat c rest hskip
        subst hsign
        have hspace : ∀ c ∈ trail, Text.isSpace c = true := fun c hc =>
          Text.isSpace_of_isBlank (htrail c hc)
        simp only [ending?, scanEnd, Text.skipBlanks_trailing hnil, hskip, List.cons_append] at h ⊢
        simpa [Except.toOption, Remark.comment, Text.dropTrailing_append _ _ _ hspace] using h

theorem phrase?_trailing {cs words : List Char} {comment : Option String}
    (h : phrase? cs = some (words, comment)) : phrase? (cs ++ trail) = some (words, comment) := by
  rcases phrase?_spec h with ⟨hwords, gap, rest, hgap, rfl, hend⟩
  rw [List.append_assoc, List.append_assoc]
  refine phrase?_again hwords ?_
  rw [← ending?_skipBlanks, Text.skipBlanks_append gap _ hgap, ending?_skipBlanks]
  exact ending?_trailing htrail hend

/-- A text behind a keyword and blanks. -/
theorem phrase?_skip_trailing {cs words : List Char} {comment : Option String}
    (h : phrase? (Text.skipBlanks cs) = some (words, comment)) :
    phrase? (Text.skipBlanks (cs ++ trail)) = some (words, comment) := by
  by_cases hnil : Text.skipBlanks cs = []
  · rwa [Text.skipBlanks_trailing_nil htrail hnil, ← hnil]
  · rw [Text.skipBlanks_trailing hnil]
    exact phrase?_trailing htrail h

/-- The end of a line, as it is scanned rather than read. -/
theorem scanEnd_trailing {cs : List Char} {remark : Option Remark} (h : scanEnd cs = .ok remark) :
    ∃ found, scanEnd (cs ++ trail) = .ok found ∧
      found.map Remark.comment = remark.map Remark.comment := by
  have hend : ending? cs = some (remark.map Remark.comment) := by rw [ending?, h]; rfl
  rcases Option.map_eq_some_iff.mp (ending?_trailing htrail hend) with ⟨found, hfound, hsame⟩
  exact ⟨found, toOption_eq_some_iff.mp hfound, hsame⟩

/-- Blanks hold no tags. -/
theorem scanTagsFrom_blanks (inName : Bool) :
    scanTagsFrom inName trail = .ok ([], [], none) := by
  induction trail generalizing inName with
  | nil => rfl
  | cons c rest ih =>
      rw [scanTagsFrom, if_pos (htrail c List.mem_cons_self),
        ih (fun d hd => htrail d (List.mem_cons_of_mem c hd))]
      rfl

theorem scanTagsFrom_trailing {inName : Bool} {cs name : List Char} {tags : List String}
    {remark : Option Remark} (h : scanTagsFrom inName cs = .ok (name, tags, remark)) :
    ∃ found, scanTagsFrom inName (cs ++ trail) = .ok (name, tags, found) ∧
      found.map Remark.comment = remark.map Remark.comment := by
  -- The scan goes on as before, and finds the blanks where it found the end.
  fun_induction scanTagsFrom inName cs generalizing name tags remark with
  | case1 inName =>
      cases h
      exact ⟨none, scanTagsFrom_blanks htrail inName, rfl⟩
  | case2 inName c rest hblank ih =>
      rcases bind_eq_ok h with ⟨⟨inner, more, last⟩, hrest, heq⟩
      cases heq
      rcases ih hrest with ⟨found, hfound, hsame⟩
      refine ⟨found, ?_, hsame⟩
      rw [List.cons_append, scanTagsFrom, if_pos hblank, hfound]
      rfl
  | case3 inName c rest hblank hhash =>
      rcases bind_eq_ok h with ⟨last, hend, heq⟩
      cases heq
      rcases scanEnd_trailing htrail hend with ⟨found, hfound, hsame⟩
      refine ⟨found, ?_, hsame⟩
      rw [List.cons_append] at hfound
      rw [List.cons_append, scanTagsFrom, if_neg hblank, if_pos hhash, hfound]
      rfl
  | case4 inName c rest hblank hhash htag ih =>
      rcases bind_eq_ok h with ⟨⟨inner, more, last⟩, hrest, heq⟩
      cases heq
      rcases ih hrest with ⟨found, hfound, hsame⟩
      refine ⟨found, ?_, hsame⟩
      rw [List.cons_append, scanTagsFrom, if_neg hblank, if_neg hhash, if_pos htag, hfound]
      rfl
  | case5 inName c rest hblank hhash htag hat hhead ih =>
      rcases bind_eq_ok h with ⟨⟨inner, more, last⟩, hrest, heq⟩
      cases heq
      rcases ih hrest with ⟨found, hfound, hsame⟩
      refine ⟨found, ?_, hsame⟩
      have hhead' : (rest ++ trail).head?.any isTagChar = true := by
        cases rest with
        | nil => simp at hhead
        | cons d ds => exact hhead
      rw [List.cons_append, scanTagsFrom, if_neg hblank, if_neg hhash, if_neg htag, if_pos hat,
        if_pos hhead', hfound]
      rfl
  | case6 => exact absurd h (by simp only [reduceCtorEq, not_false_eq_true])
  | case7 => exact absurd h (by simp only [reduceCtorEq, not_false_eq_true])

/-- Blanks close no cell. -/
theorem scanCells_trailing (seen cs : List Char) :
    (scanCells seen (cs ++ trail)).1.map Cell.text = (scanCells seen cs).1.map Cell.text ∧
      (scanCells seen (cs ++ trail)).2 = (scanCells seen cs).2 ++ trail := by
  have hbar : ∀ c ∈ trail, c ≠ '|' := by
    rintro c hc rfl
    exact absurd (htrail _ hc) (by decide)
  fun_induction scanCells seen cs with
  | case1 seen =>
      rw [List.nil_append, scanCells_tail seen trail hbar]
      exact ⟨rfl, rfl⟩
  | case2 seen rest cells tail heq ih =>
      rw [heq] at ih
      rw [List.cons_append, scanCells]
      exact ⟨by simp only [List.map_cons, ih.1]; rfl, ih.2⟩
  | case3 seen c rest hne ih =>
      have hstep : ∀ more, scanCells seen (c :: more) = scanCells (c :: seen) more := by
        intro more
        rw [scanCells.eq_def]
        split <;> simp_all
      rw [List.cons_append, hstep]
      exact ih

theorem scanRowBody_trailing {cs : List Char} {cells : List Cell} {remark : Option Remark}
    (h : scanRowBody cs = .ok (cells, remark)) :
    ∃ scanned found, scanRowBody (cs ++ trail) = .ok (scanned, found) ∧
      scanned.map Cell.text = cells.map Cell.text ∧
      found.map Remark.comment = remark.map Remark.comment := by
  rcases scanRowBody_eq_ok_iff.mp h with ⟨rfl, hne, hend⟩
  rcases scanCells_trailing htrail [] cs with ⟨hcells, htail⟩
  rcases scanEnd_trailing htrail hend with ⟨found, hfound, hsame⟩
  refine ⟨_, found, scanRowBody_eq_ok_iff.mpr ⟨rfl, ?_, by rw [htail, hfound]⟩, hcells, hsame⟩
  intro hnil
  rw [hnil, List.map_nil, eq_comm, List.map_eq_nil_iff] at hcells
  exact hne hcells

end Trailing

/-- The tags of a line, with other blanks around them. -/
theorem scanTags_padded {text padded : List Char} {names : List String} {remark : Option Remark}
    (hpadded : Text.Padded text padded) (h : scanTags text = .ok (names, remark)) :
    ∃ found, scanTags padded = .ok (names, found) ∧
      found.map Remark.comment = remark.map Remark.comment := by
  rcases hpadded with ⟨lead, trail, hlead, htrail⟩
  rcases Text.exists_skipBlanks text with ⟨gap, hgap, htext⟩
  rw [htext, scanTags_lead hgap] at h
  rcases bind_eq_ok h with ⟨⟨name, tags, last⟩, hscan, heq⟩
  cases heq
  rcases scanTagsFrom_trailing htrail hscan with ⟨found, hfound, hsame⟩
  refine ⟨found, ?_, hsame⟩
  rw [scanTags_lead hlead, scanTags, hfound]
  rfl

section Classes

variable {trail : List Char} (htrail : ∀ c ∈ trail, Text.isBlank c = true)

include htrail

/-- Blanks do not complete a word that does not end in one. -/
theorem isPrefixOf_trailing {word : List Char} (hword : word.getLast?.any Text.isBlank = false)
    (content : List Char) : word.isPrefixOf (content ++ trail) = word.isPrefixOf content := by
  rw [Bool.eq_iff_iff, List.isPrefixOf_iff_prefix, List.isPrefixOf_iff_prefix]
  refine ⟨fun h => ?_, fun h => h.trans (List.prefix_append content trail)⟩
  rcases List.prefix_or_prefix_of_prefix h (List.prefix_append content trail) with hfits | hlong
  · exact hfits
  -- The word would go on into the blanks.
  · rcases hlong with ⟨more, rfl⟩
    have hmore : more <+: trail := (List.prefix_append_right_inj content).mp h
    cases hlast : more.getLast? with
    | none =>
        have hnil := List.getLast?_eq_none_iff.mp hlast
        subst hnil
        exact ⟨[], by simp⟩
    | some c =>
        have hblank := htrail c (hmore.subset (List.mem_of_getLast? hlast))
        rw [List.getLast?_append, hlast, Option.some_or, Option.any_some, hblank] at hword
        exact absurd hword (by decide)

/-- A step keyword ends at a blank as it ends at the end of the line. -/
theorem startsWith_trailing (keyword : StepKeyword) (content : List Char) :
    StepKeyword.startsWith keyword.text.toList (content ++ trail) =
      StepKeyword.startsWith keyword.text.toList content := by
  unfold StepKeyword.startsWith
  rw [isPrefixOf_trailing htrail (by cases keyword <;> decide)]
  cases hprefix : keyword.text.toList.isPrefixOf content with
  | false => rfl
  | true =>
      rcases exists_append_of_isPrefixOf hprefix with ⟨rest, rfl⟩
      rw [List.append_assoc, List.drop_left, List.drop_left]
      cases rest with
      | cons c more => rfl
      | nil =>
          cases trail with
          | nil => rfl
          | cons c more => simpa using htrail c List.mem_cons_self

/-- Blanks at the end of a line do not change its class. -/
theorem classifyContent_trailing {content : List Char} (hne : content ≠ []) :
    classifyContent (content ++ trail) = classifyContent content := by
  have hfence : fence.isPrefixOf (content ++ trail) = fence.isPrefixOf content :=
    isPrefixOf_trailing htrail (by decide) content
  have hheading : Heading.recognise? (content ++ trail) = Heading.recognise? content := by
    unfold Heading.recognise?
    congr 1
    funext heading
    refine isPrefixOf_trailing htrail ?_ content
    rcases heading with _ | kind | _
    · decide
    · cases kind <;> decide
    · decide
  have hstep : StepKeyword.recognise? (content ++ trail) = StepKeyword.recognise? content := by
    unfold StepKeyword.recognise?
    congr 1
    funext keyword
    exact startsWith_trailing htrail keyword content
  unfold classifyContent
  rw [hfence, hheading, hstep]
  cases content with
  | nil => exact absurd rfl hne
  | cons c rest =>
      rw [List.cons_append]
      split <;> simp_all

end Classes

/-- The class of a line does not depend on the blanks around it. -/
theorem classify_padded {text padded : List Char} (h : Text.Padded text padded) :
    classify padded = classify text := by
  rcases h.exists_content with ⟨trail, htrail, ⟨hnil, hpadded⟩ | ⟨hne, hpadded⟩⟩
  · unfold classify
    rw [hnil, hpadded]
  · unfold classify
    rw [hpadded, classifyContent_trailing htrail hne]

namespace Item

/-- What a line says, with another indentation: only a fence tells its own. -/
def indented (indent : Nat) : Item → Item
  | .fence _ remark => .fence indent remark
  | item => item

variable {text padded : List Char} {item : Item}

/-- A line says the same by its class, but for the indentation of a fence. -/
theorem structural?_padded (hpadded : Text.Padded text padded) (h : structural? text = some item) :
    structural? padded = some (item.indented (Text.indentation padded)) := by
  have hclass := classify_padded hpadded
  rw [structural?_eq_some_iff] at h ⊢
  rcases hpadded.exists_content with ⟨trail, htrail, ⟨hnil, -⟩ | ⟨-, hcontent⟩⟩
  -- A line without content says nothing else.
  · have hblank : classify text = .blank := classify_eq_of_content hnil rfl
    cases item with
    | blank => exact hclass.trans hblank
    | prose words remark => exact absurd h not_false
    | docLine words => exact absurd h not_false
    | _ => exact absurd (hblank.symm.trans h.1) (by simp)
  -- Behind its keyword or sign the line goes on as before, up to the blanks.
  · have hdrop : ∀ word rest : List Char, Text.skipBlanks text = word ++ rest →
        (Text.skipBlanks padded).drop word.length =
          (Text.skipBlanks text).drop word.length ++ trail := by
      intro word rest hword
      rw [hcontent, hword, List.append_assoc, List.drop_left, List.drop_left]
    cases item with
    | blank => exact hclass.trans h
    | comment words =>
        rcases h with ⟨hc, hend⟩
        refine ⟨hclass.trans hc, ?_⟩
        rw [← ending?_skipBlanks, hcontent]
        exact ending?_trailing htrail (by rwa [ending?_skipBlanks])
    | tags names remark =>
        rcases h with ⟨hc, last, hscan, rfl⟩
        rcases scanTags_padded hpadded hscan with ⟨found, hfound, hsame⟩
        exact ⟨hclass.trans hc, found, hfound, hsame.symm⟩
    | fence indent remark =>
        rcases h with ⟨hc, -, hend⟩
        rcases begins_of_class hc with ⟨rest, hrest⟩
        refine ⟨hclass.trans hc, rfl, ?_⟩
        rw [hdrop _ rest hrest]
        exact ending?_trailing htrail hend
    | row cells remark =>
        rcases h with ⟨hc, scanned, last, hscan, rfl, rfl⟩
        rcases begins_of_class hc with ⟨rest, hrest⟩
        rcases scanRowBody_trailing htrail hscan with ⟨again, found, hfound, hcells, hsame⟩
        refine ⟨hclass.trans hc, again, found, ?_, ?_, hsame.symm⟩
        · rw [← hfound]
          exact congrArg scanRowBody (hdrop ['|'] rest hrest)
        · have htexts := congrArg (List.map String.ofList) hcells
          rw [List.map_map, List.map_map] at htexts
          exact htexts.symm
    | feature title remark =>
        rcases h with ⟨hc, words, hne, rfl, hphrase⟩
        rcases begins_of_class hc with ⟨rest, hrest⟩
        refine ⟨hclass.trans hc, words, hne, rfl, ?_⟩
        rw [← String.length_toList, hdrop _ rest hrest]
        exact phrase?_skip_trailing htrail hphrase
    | block kind title remark =>
        rcases h with ⟨hc, words, rfl, hphrase⟩
        rcases begins_of_class hc with ⟨rest, hrest⟩
        refine ⟨hclass.trans hc, words, rfl, ?_⟩
        rw [← String.length_toList, hdrop _ rest hrest]
        exact phrase?_skip_trailing htrail hphrase
    | examples remark =>
        rcases h with ⟨hc, hend⟩
        rcases begins_of_class hc with ⟨rest, hrest⟩
        refine ⟨hclass.trans hc, ?_⟩
        rw [← String.length_toList, hdrop _ rest hrest]
        exact ending?_trailing htrail hend
    | step keyword said remark =>
        rcases h with ⟨hc, words, hne, rfl, hphrase⟩
        rcases begins_of_class hc with ⟨-, hstarts⟩
        rcases exists_append_of_isPrefixOf (Bool.and_eq_true_iff.mp hstarts).1 with ⟨rest, hrest⟩
        refine ⟨hclass.trans hc, words, hne, rfl, ?_⟩
        rw [← String.length_toList, hdrop _ rest hrest]
        exact phrase?_skip_trailing htrail hphrase
    | prose words remark => exact absurd h not_false
    | docLine words => exact absurd h not_false

/-- A line of the description says the same. -/
theorem prose?_padded (hpadded : Text.Padded text padded) (h : prose? text = some item) :
    prose? padded = some item := by
  rcases Option.map_eq_some_iff.mp h with ⟨⟨words, remark⟩, hphrase, rfl⟩
  refine Option.map_eq_some_iff.mpr ⟨(words, remark), ?_, rfl⟩
  rcases hpadded.exists_content with ⟨trail, htrail, ⟨hnil, hempty⟩ | ⟨-, hcontent⟩⟩
  · rwa [hempty, ← hnil]
  · rw [hcontent]
    exact phrase?_trailing htrail hphrase

/-- A line says the same wherever it is no text of a doc string. -/
theorem read?_padded {mode : Mode} (hpadded : Text.Padded text padded)
    (hmode : ∀ indent, mode = .verbatim indent → classify text = .fence)
    (h : read? mode text = some item) :
    read? mode padded = some (item.indented (Text.indentation padded)) := by
  have hclass := classify_padded hpadded
  cases mode with
  | structural => exact structural?_padded hpadded h
  | verbatim indent =>
      have hfence := hmode indent rfl
      simp only [read?, hfence] at h
      simp only [read?, hclass, hfence]
      exact structural?_padded hpadded h
  | descriptive =>
      simp only [read?, hclass] at h ⊢
      split at h
      · exact structural?_padded hpadded h
      · exact structural?_padded hpadded h
      · exact structural?_padded hpadded h
      · exact structural?_padded hpadded h
      · rw [prose?_padded hpadded h]
        rcases Option.map_eq_some_iff.mp h with ⟨⟨words, remark⟩, -, rfl⟩
        rfl

end Item

namespace Gist

variable {text padded : List Char}

/-- A padded line does the same where it is no text of a doc string, and with
    the same indentation where it opens one. -/
theorem step_padded {g next : Gist} {kinds : List EventKind} (hpadded : Text.Padded text padded)
    (hmode : ∀ indent, g.mode = .verbatim indent → classify text = .fence)
    (hindent : ∀ kind, g.phase = .block kind (.argument .step) → classify text = .fence →
      Text.indentation padded = Text.indentation text)
    (h : g.step text = some (kinds, next)) : g.step padded = some (kinds, next) := by
  rcases Option.bind_eq_some_iff.mp h with ⟨item, hread, htake⟩
  refine Option.bind_eq_some_iff.mpr ⟨_, Item.read?_padded hpadded hmode hread, ?_⟩
  cases takes_of_take htake with
  | openFence indent kind hp =>
      have hstructural : Item.structural? text = some (.fence indent none) := by
        rwa [mode, hp] at hread
      rcases Item.structural?_eq_some_iff.mp hstructural with ⟨hclass, rfl, -⟩
      rw [Item.indented, hindent kind hp hclass]
      exact htake
  -- The fence that closes a doc string may stand anywhere.
  | closeFence indent remark kind opened hp => simp only [Item.indented, take, hp]
  | _ => exact htake

end Gist

end Reader

end Gherkin
