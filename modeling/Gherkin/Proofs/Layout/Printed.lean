import Gherkin.Layout.Canonical
import Gherkin.Proofs.Reader.Legible

/-!
# What a Printed Line Says

Every line of the canonical layout, printed without colours, says what it was
made from, at whatever column the comment at its end starts. The column is
settled by the lines around a line, and this module is about single lines, so
its statements hold for all columns at once.

A printed line is an indentation, some pieces and a comment behind a gap.
`Line.says_of_chars` deals with this form once and for all; what remains for
each kind of line is to scan its pieces again, and that they scan to
themselves is what makes a text printable.

## Main definitions

* `Line.chars`, `commentTail`: The pieces of a line and the comment behind
  them, as characters.
* `Line.Says`: What a printed line says when it is read in a mode.

## Theorems

* `says_comment`, `says_blank`, `says_tags`, `says_feature`, `says_block`,
  `says_examples`, `says_step`, `says_row`, `says_fence`, `says_docLine`,
  `says_prose`: One for each kind of line.
-/

namespace Gherkin

namespace Layout

open Reader (Mode Item ending? phrase? classify)
open Source (Unbroken)

/-- The pieces of a line. -/
def Line.chars (line : Line) : List Char :=
  line.segments.flatMap (fun segment => segment.text.toList)

/-- A comment behind so many spaces. -/
def commentTail (gap : Nat) : Option String → List Char
  | none => []
  | some text => List.replicate gap ' ' ++ '#' :: text.toList

/-- What a printed line says when it is read in a mode, wherever the comment
    at its end starts. -/
structure Line.Says (options : Options) (line : Line) (mode : Mode) (item : Item) : Prop where
  unbroken : ∀ column, Unbroken (line.render column options).toList
  reads : ∀ column, Item.read? mode (line.render column options).toList = some item

section Plain

variable {options : Options}

@[simp] theorem paint_plain (text : String) (role : Role) (muted : Bool) :
    paint text role false muted = text := rfl

/-- The characters of a line that is printed without colours. -/
theorem Line.toList_render (hcolor : options.color = false) {line : Line} (column : Nat)
    (h : line.isBlank = false) :
    ∃ gap, (line.render column options).toList =
      List.replicate line.indent ' ' ++ line.chars ++ commentTail gap line.comment := by
  refine ⟨line.gap column options, ?_⟩
  simp only [Line.render, h, Bool.false_eq_true, if_false, hcolor, paint_plain]
  cases line.comment with
  | none => simp [Line.chars, commentTail, String.toList_join, List.flatMap_map]
  | some text => simp [Line.chars, commentTail, String.toList_join, List.flatMap_map]

theorem ending?_commentTail (gap : Nat) {comment : Option String}
    (h : ∀ text ∈ comment, IsComment text) :
    ending? (commentTail gap comment) = some comment := by
  cases comment with
  | none => rfl
  | some text =>
      rw [commentTail, Reader.ending?_comment _ _ (fun c hc => Text.isBlank_of_mem_replicate hc),
        (h text rfl).trimmed, String.ofList_toList]

theorem unbroken_commentTail (gap : Nat) {comment : Option String}
    (h : ∀ text ∈ comment, IsComment text) : Unbroken (commentTail gap comment) := by
  cases comment with
  | none => exact Source.unbroken_nil
  | some text =>
      exact (Source.unbroken_replicate gap).append
        ((h text rfl).oneLine.cons (by decide) (by decide))

/-- It is enough to read the pieces of a line in front of any comment. -/
theorem Line.says_of_chars (hcolor : options.color = false) {line : Line} {mode : Mode}
    {item : Item} (hblank : line.isBlank = false) (hchars : Unbroken line.chars)
    (hcomment : ∀ text ∈ line.comment, IsComment text)
    (hread : ∀ gap, Item.read? mode (List.replicate line.indent ' ' ++ line.chars ++
      commentTail gap line.comment) = some item) : line.Says options mode item := by
  refine ⟨fun column => ?_, fun column => ?_⟩
  · rcases Line.toList_render hcolor column hblank with ⟨gap, hgap⟩
    rw [hgap]
    exact ((Source.unbroken_replicate _).append hchars).append (unbroken_commentTail gap hcomment)
  · rcases Line.toList_render hcolor column hblank with ⟨gap, hgap⟩
    rw [hgap]
    exact hread gap

/-- Lines of these classes mean the same in the description as outside it. -/
theorem read?_eq_structural? {mode : Mode} {text : List Char}
    (hm : ∀ indent, mode ≠ .verbatim indent)
    (hc : classify text = .blank ∨ classify text = .comment ∨ classify text = .tags ∨
      ∃ kind, classify text = .heading (.block kind)) :
    Item.read? mode text = Item.structural? text := by
  cases mode with
  | structural => rfl
  | verbatim indent => exact absurd rfl (hm indent)
  | descriptive =>
      rcases hc with h | h | h | ⟨kind, h⟩ <;> simp only [Item.read?, h]

/-- A comment on a line of its own. -/
theorem says_comment (hcolor : options.color = false) {mode : Mode}
    (hm : ∀ indent, mode ≠ .verbatim indent) (n : Nat) {text : String} (h : IsComment text) :
    (Line.single n ("#" ++ text) .comment).Says options mode (.comment text) := by
  have hchars : (Line.single n ("#" ++ text) .comment).chars = '#' :: text.toList := by
    simp [Line.chars, Line.single]
  refine Line.says_of_chars hcolor ?_ ?_ (by simp [Line.single]) (fun gap => ?_)
  · simp [Line.isBlank, Line.single]
  · rw [hchars]
    exact h.oneLine.cons (by decide) (by decide)
  -- Behind the indentation stands the sign, and the rest of the line is the comment.
  · have hskip : Text.skipBlanks (List.replicate n ' ' ++ '#' :: text.toList) =
        '#' :: text.toList := by
      rw [Text.skipBlanks_replicate, Text.skipBlanks_cons _ _ (by decide)]
    have hclass : classify (List.replicate n ' ' ++ '#' :: text.toList) = .comment :=
      Reader.classify_eq_of_content hskip rfl
    have hend := Reader.ending?_comment (List.replicate n ' ') text.toList
      (fun c hc => Text.isBlank_of_mem_replicate hc)
    rw [hchars]
    simp only [Line.single, commentTail, List.append_nil]
    rw [read?_eq_structural? hm (Or.inr (Or.inl hclass)), Item.structural?]
    simp only [hclass, hend, Option.bind_some, Option.map_some]
    rw [h.trimmed, String.ofList_toList]

/-- A line without content, indented or not. -/
theorem says_blank {line : Line} (hblank : line.isBlank = true) {mode : Mode}
    (hm : ∀ indent, mode ≠ .verbatim indent) : line.Says options mode .blank := by
  have hempty : ∀ column, line.render column options = "" := by
    intro column
    simp [Line.render, hblank]
  refine ⟨fun column => ?_, fun column => ?_⟩
  · rw [hempty]
    exact Source.unbroken_nil
  · rw [hempty, read?_eq_structural? hm (Or.inl rfl)]
    rfl

theorem tagLine_toList {tags : List String} (hne : tags ≠ []) :
    ∃ rest, (tagLine tags).toList = '@' :: rest := by
  cases tags with
  | nil => exact absurd rfl hne
  | cons tag rest =>
      cases rest with
      | nil => exact ⟨tag.toList, by simp [tagLine]⟩
      | cons next others => exact ⟨_, Reader.tagLine_cons_cons tag next others⟩

theorem unbroken_tagLine {tags : List String} (h : ∀ tag ∈ tags, IsTag tag) :
    Unbroken (tagLine tags).toList := by
  induction tags with
  | nil => exact Source.unbroken_nil
  | cons tag rest ih =>
      have hrest := ih (fun t ht => h t (List.mem_cons_of_mem tag ht))
      have htag := (h tag List.mem_cons_self).oneLine.cons (c := '@') (by decide) (by decide)
      cases rest with
      | nil => simpa [tagLine] using htag
      | cons next others =>
          rw [Reader.tagLine_cons_cons]
          simpa using Unbroken.append htag (hrest.cons (c := ' ') (by decide) (by decide))

/-- A line of tags. -/
theorem says_tags (hcolor : options.color = false) {mode : Mode}
    (hm : ∀ indent, mode ≠ .verbatim indent) (n : Nat) {tags : List String} (hne : tags ≠ [])
    (h : ∀ tag ∈ tags, IsTag tag) :
    (Line.single n (tagLine tags) .tag).Says options mode (.tags tags none) := by
  have hchars : (Line.single n (tagLine tags) .tag).chars = (tagLine tags).toList := by
    simp [Line.chars, Line.single]
  rcases tagLine_toList hne with ⟨rest, hrest⟩
  refine Line.says_of_chars hcolor ?_ ?_ (by simp [Line.single]) (fun gap => ?_)
  -- There is a tag, so the line is not empty.
  · have hsome : tagLine tags ≠ "" := by
      intro hempty
      rw [hempty] at hrest
      exact absurd hrest (by simp)
    simpa [Line.isBlank, Line.single] using hsome
  · rw [hchars]
    exact unbroken_tagLine h
  · have hskip : Text.skipBlanks (List.replicate n ' ' ++ (tagLine tags).toList) = '@' :: rest := by
      rw [Text.skipBlanks_replicate, hrest, Text.skipBlanks_cons _ _ (by decide)]
    have hclass : classify (List.replicate n ' ' ++ (tagLine tags).toList) = .tags :=
      Reader.classify_eq_of_content hskip rfl
    have hscan := Reader.scanTags_tagLine n tags
      (fun tag ht => ⟨(h tag ht).ne_empty, (h tag ht).chars⟩)
    rw [hchars]
    simp only [Line.single, commentTail, List.append_nil]
    rw [read?_eq_structural? hm (Or.inr (Or.inr (Or.inl hclass))), Item.structural?]
    simp only [hclass, hscan, Except.toOption, Option.map_some, Option.map_none]

/-- The pieces of a heading line. -/
theorem headingLine_chars (n : Nat) (heading : Heading) (title : String) (comments : Comments) :
    (headingLine options n heading title comments).chars =
      heading.text.toList ++ if title.isEmpty then [] else ' ' :: title.toList := by
  by_cases h : title.isEmpty = true <;> simp [Line.chars, headingLine, h]

theorem heading_unbroken (heading : Heading) : Unbroken heading.text.toList := by
  cases heading with
  | feature => simp [Unbroken, Heading.text]
  | examples => simp [Unbroken, Heading.text]
  | block kind => cases kind <;> simp [Unbroken, Heading.text]

theorem heading_text_ne_empty (heading : Heading) : heading.text ≠ "" := by
  cases heading with
  | feature => decide
  | examples => decide
  | block kind => cases kind <;> decide

/-- A phrase behind a keyword and a blank, in front of the end of the line. -/
theorem phrase?_title {title : String} (h : IsTitle title) (gap : Nat) {comment : Option String}
    (hc : ∀ text ∈ comment, IsComment text) :
    phrase? (Text.skipBlanks ((if title.isEmpty then [] else ' ' :: title.toList) ++
      commentTail gap comment)) = some (title.toList, comment) := by
  have hend := ending?_commentTail gap hc
  -- Without a title there is no blank to skip but the gap before the comment.
  rcases h with rfl | hphrase
  · have hskip : ending? (Text.skipBlanks (commentTail gap comment)) = some comment := by
      rw [Reader.ending?_skipBlanks, hend]
    exact @Reader.phrase?_again [] _ _ rfl hskip
  · rw [if_neg (by simpa using hphrase.ne_empty), List.cons_append]
    have hskip : Text.skipBlanks (' ' :: (title.toList ++ commentTail gap comment)) =
        title.toList ++ commentTail gap comment := by
      cases hlist : title.toList with
      | nil => exact absurd (by simpa using hlist) hphrase.ne_empty
      | cons c rest =>
          have hc := hphrase.head c (by rw [hlist]; rfl)
          exact Text.skipBlanks_cons c (rest ++ commentTail gap comment) hc
    rw [hskip]
    exact Reader.phrase?_again hphrase.scans hend

/-- A line that begins with a heading, behind any indentation. -/
theorem skipBlanks_heading (n : Nat) (heading : Heading) (rest : List Char) :
    Text.skipBlanks (List.replicate n ' ' ++ (heading.text.toList ++ rest)) =
      heading.text.toList ++ rest := by
  rw [Text.skipBlanks_replicate]
  cases heading with
  | feature => rfl
  | examples => rfl
  | block kind => cases kind <;> rfl

/-- What a heading line says, if its title can be read behind the heading. -/
theorem says_heading (hcolor : options.color = false) {mode : Mode} {item : Item} (n : Nat)
    (heading : Heading) {title : String} (htitle : IsTitle title) {comments : Comments}
    (hc : ∀ text ∈ inlineComment options comments, IsComment text)
    (hread : ∀ text rest, Text.skipBlanks text = heading.text.toList ++ rest →
      phrase? (Text.skipBlanks rest) = some (title.toList, inlineComment options comments) →
      (title.isEmpty → ending? rest = some (inlineComment options comments)) →
      Item.read? mode text = some item) :
    (headingLine options n heading title comments).Says options mode item := by
  have hchars : (headingLine options n heading title comments).chars = _ :=
    headingLine_chars n heading title comments
  refine Line.says_of_chars hcolor ?_ ?_ hc (fun gap => ?_)
  · simp [Line.isBlank, headingLine, heading_text_ne_empty]
  · rw [hchars]
    refine (heading_unbroken heading).append ?_
    by_cases hempty : title.isEmpty = true
    · rw [if_pos hempty]
      exact Source.unbroken_nil
    · rw [if_neg hempty]
      rcases htitle with rfl | hphrase
      · exact absurd rfl hempty
      · exact hphrase.oneLine.cons (by decide) (by decide)
  -- What follows the heading is its title or the end of the line.
  · rw [hchars, List.append_assoc, List.append_assoc]
    refine hread _ _ (skipBlanks_heading n heading _) (phrase?_title htitle gap hc) ?_
    intro hempty
    rw [if_pos hempty, List.nil_append]
    exact ending?_commentTail gap hc

/-- The heading of the feature. -/
theorem says_feature (hcolor : options.color = false) (n : Nat) {title : String}
    (h : IsPhrase title) {comments : Comments}
    (hc : ∀ text ∈ inlineComment options comments, IsComment text) :
    (headingLine options n .feature title comments).Says options .structural
      (.feature title (inlineComment options comments)) := by
  refine says_heading hcolor n .feature (Or.inr h) hc (fun text rest hskip hphrase _ => ?_)
  have hclass := Reader.classify_heading hskip
  have hdrop : (Heading.feature.text.toList ++ rest).drop Heading.feature.text.length = rest :=
    List.drop_left
  simp only [Item.read?, Item.structural?, hclass, hskip, hdrop, hphrase, Option.bind_some]
  rw [if_neg (by simpa using h.ne_empty), String.ofList_toList]

/-- The heading of a block. -/
theorem says_block (hcolor : options.color = false) {mode : Mode}
    (hm : ∀ indent, mode ≠ .verbatim indent) (n : Nat) (kind : BlockKind) {title : String}
    (h : IsTitle title) {comments : Comments}
    (hc : ∀ text ∈ inlineComment options comments, IsComment text) :
    (headingLine options n (.block kind) title comments).Says options mode
      (.block kind title (inlineComment options comments)) := by
  refine says_heading hcolor n (.block kind) h hc (fun text rest hskip hphrase _ => ?_)
  have hclass := Reader.classify_heading hskip
  have hdrop : ((Heading.block kind).text.toList ++ rest).drop (Heading.block kind).text.length =
      rest := List.drop_left
  rw [read?_eq_structural? hm (Or.inr (Or.inr (Or.inr ⟨kind, hclass⟩)))]
  simp only [Item.structural?, hclass, hskip, hdrop, hphrase, Option.map_some,
    String.ofList_toList]

/-- The heading of examples. -/
theorem says_examples (hcolor : options.color = false) (n : Nat) {comments : Comments}
    (hc : ∀ text ∈ inlineComment options comments, IsComment text) :
    (headingLine options n .examples "" comments).Says options .structural
      (.examples (inlineComment options comments)) := by
  refine says_heading hcolor n .examples (Or.inl rfl) hc (fun text rest hskip _ hend => ?_)
  have hclass := Reader.classify_heading hskip
  have hdrop : (Heading.examples.text.toList ++ rest).drop Heading.examples.text.length = rest :=
    List.drop_left
  simp only [Item.read?, Item.structural?, hclass, hskip, hdrop, hend rfl, Option.map_some]

/-- The line of a step. -/
theorem says_step (hcolor : options.color = false) {st : Step} (h : st.Printable)
    (hc : ∀ text ∈ inlineComment options st.comments, IsComment text) :
    (stepLine options st).Says options .structural
      (.step st.keyword st.text (inlineComment options st.comments)) := by
  have hchars : (stepLine options st).chars =
      st.keyword.text.toList ++ ' ' :: st.text.toList := by
    simp [Line.chars, stepLine]
  have hkeyword : Unbroken st.keyword.text.toList ∧ st.keyword.text ≠ "" := by
    cases st.keyword <;> simp [Unbroken, StepKeyword.text]
  refine Line.says_of_chars hcolor ?_ ?_ hc (fun gap => ?_)
  · simp [Line.isBlank, stepLine, hkeyword.2]
  · rw [hchars]
    exact hkeyword.1.append (h.text.oneLine.cons (by decide) (by decide))
  · have hphrase := phrase?_title (Or.inr h.text) gap hc
    rw [if_neg (by simpa using h.text.ne_empty)] at hphrase
    -- No keyword begins with a blank, so only the indentation is skipped.
    have hskip : Text.skipBlanks (List.replicate (stepLine options st).indent ' ' ++
        (st.keyword.text.toList ++ ' ' :: st.text.toList) ++
          commentTail gap (stepLine options st).comment) =
        st.keyword.text.toList ++ ' ' :: (st.text.toList ++
          commentTail gap (inlineComment options st.comments)) := by
      rw [List.append_assoc, Text.skipBlanks_replicate, List.append_assoc]
      cases st.keyword <;> rfl
    have hclass := Reader.classify_step h.keyword rfl hskip
    have hdrop : (st.keyword.text.toList ++ ' ' :: (st.text.toList ++
        commentTail gap (inlineComment options st.comments))).drop st.keyword.text.length =
        ' ' :: (st.text.toList ++ commentTail gap (inlineComment options st.comments)) :=
      List.drop_left
    rw [List.cons_append] at hphrase
    rw [hchars]
    simp only [Item.read?, Item.structural?, hclass, hskip, hdrop, hphrase, Option.bind_some]
    rw [if_neg (by simpa using h.text.ne_empty), String.ofList_toList]

/-- A fence, with the comment of a doc string beside it or without. -/
theorem says_fence (hcolor : options.color = false) {mode : Mode} (hm : mode ≠ .descriptive)
    {comment : Option String} (hc : ∀ text ∈ comment, IsComment text) :
    Line.Says options { Line.single argumentIndent "\"\"\"" .fence with comment } mode
      (.fence argumentIndent comment) := by
  refine Line.says_of_chars hcolor ?_ ?_ hc (fun gap => ?_)
  · simp [Line.isBlank, Line.single]
  · simp [Line.chars, Line.single, Unbroken]
  · have hend := ending?_commentTail gap hc
    -- The indentation is fixed, so the class of the line is found by computation.
    have hstruct : Item.structural? ([' ', ' ', ' ', ' ', ' ', ' ', '"', '"', '"'] ++
        commentTail gap comment) = some (.fence argumentIndent comment) := by
      have hclass : classify ([' ', ' ', ' ', ' ', ' ', ' ', '"', '"', '"'] ++
        commentTail gap comment) = .fence := rfl
      simp only [Item.structural?, hclass]
      change (ending? (commentTail gap comment)).map (Item.fence argumentIndent) = _
      rw [hend]
      rfl
    cases mode with
    | descriptive => exact absurd rfl hm
    | structural => exact hstruct
    | verbatim indent => exact hstruct

/-- A line of a doc string. One without characters is printed without
    indentation. -/
theorem says_docLine (hcolor : options.color = false) {text : String} (h : IsDocLine text) :
    (if text.isEmpty then Line.blank else Line.single argumentIndent text .plain).Says options
      (.verbatim argumentIndent) (.docLine text) := by
  by_cases hempty : text.isEmpty = true
  · rw [if_pos hempty, String.isEmpty_iff.mp hempty]
    exact ⟨fun column => Source.unbroken_nil, fun column => rfl⟩
  · rw [if_neg hempty]
    have hchars : (Line.single argumentIndent text .plain).chars = text.toList := by
      simp [Line.chars, Line.single]
    refine Line.says_of_chars hcolor ?_ ?_ (by simp [Line.single]) (fun gap => ?_)
    · simpa [Line.isBlank, Line.single] using hempty
    · rw [hchars]
      exact h.oneLine
    -- The text does not begin like a fence, so the line cannot be one.
    · have hclass : classify (List.replicate argumentIndent ' ' ++ text.toList) ≠ .fence := by
        intro hfence
        have hbegins := Reader.classify_begins (List.replicate argumentIndent ' ' ++ text.toList)
        rw [hfence, Text.skipBlanks_replicate] at hbegins
        rcases hbegins with ⟨rest, hrest⟩
        have hno := h.noFence
        rw [hrest] at hno
        exact absurd hno (by simp [Reader.fence])
      rw [hchars]
      simp only [Line.single, commentTail, List.append_nil, Item.read?]
      rw [Text.stripIndent_replicate, String.ofList_toList]

/-- A line of the description. -/
theorem says_prose (hcolor : options.color = false) (n : Nat) {text : String} (h : IsProse text) :
    (Line.single n text .plain).Says options .descriptive (.prose text none) := by
  have hchars : (Line.single n text .plain).chars = text.toList := by
    simp [Line.chars, Line.single]
  refine Line.says_of_chars hcolor ?_ ?_ (by simp [Line.single]) (fun gap => ?_)
  · simpa [Line.isBlank, Line.single] using h.ne_empty
  · rw [hchars]
    exact h.oneLine
  · rw [hchars]
    simp only [Line.single, commentTail, List.append_nil]
    have hskip : Text.skipBlanks (List.replicate n ' ' ++ text.toList) = text.toList := by
      rw [Text.skipBlanks_replicate]
      cases hlist : text.toList with
      | nil => exact absurd (by simpa using hlist) h.ne_empty
      | cons c rest => exact Text.skipBlanks_cons c rest (h.head c (by rw [hlist]; rfl))
    have hbegins := Reader.classify_begins (List.replicate n ' ' ++ text.toList)
    have hends := Reader.classify_ends_description (List.replicate n ' ' ++ text.toList)
    rw [hskip] at hbegins hends
    have hphrase : phrase? text.toList = some (text.toList, none) := by
      have hagain := @Reader.phrase?_again text.toList [] none h.scans rfl
      rwa [List.append_nil] at hagain
    -- Nothing else than tags and headings of blocks ends a description.
    have hnot : ¬ (classify (List.replicate n ' ' ++ text.toList) = .tags ∨
        ∃ kind, classify (List.replicate n ' ' ++ text.toList) = .heading (.block kind)) := by
      rw [hends]
      rintro (hat | ⟨kind, hhead⟩)
      · exact h.noTag hat
      · rw [h.noHeading kind] at hhead
        exact absurd hhead (by decide)
    simp only [Item.read?]
    split
    · rename_i hclass
      rw [hclass] at hbegins
      exact absurd (String.toList_eq_nil_iff.mp hbegins) h.ne_empty
    · rename_i hclass
      rw [hclass] at hbegins
      rcases hbegins with ⟨rest, hrest⟩
      -- a text that begins with a comment sign is scanned to nothing
      have hscan := h.scans
      rw [hrest] at hscan
      exact absurd hscan (by simp [Reader.scanText])
    · exact absurd (Or.inl (by assumption)) hnot
    · exact absurd (Or.inr ⟨_, by assumption⟩) hnot
    · simp only [Item.prose?, hskip, hphrase, Option.map_some, String.ofList_toList]

/-- A cell in its column is the cell between spaces, of which there is a single
    one on the side that the cell is pushed to. -/
theorem padded_toList (width : Nat) (cell : String) :
    ∃ left right, (padded width cell).toList =
        List.replicate left ' ' ++ cell.toList ++ List.replicate right ' ' ∧
      1 ≤ left ∧ 1 ≤ right ∧ if isNumeric cell then right = 1 else left = 1 := by
  unfold padded
  by_cases hnum : isNumeric cell = true
  · refine ⟨1 + (width - cell.length), 1, ?_, by omega, by omega, by simp [hnum]⟩
    simp [hnum, List.replicate_add]
  · refine ⟨1, (width - cell.length) + 1, ?_, by omega, by omega, by simp [hnum]⟩
    simp [hnum, List.replicate_add]

theorem unbroken_padded {width : Nat} {cell : String} (h : IsCell cell) :
    Unbroken (padded width cell).toList := by
  rcases padded_toList width cell with ⟨left, right, heq, -⟩
  rw [heq]
  exact ((Source.unbroken_replicate left).append h.oneLine).append
    (Source.unbroken_replicate right)

theorem noBar_padded {width : Nat} {cell : String} (h : IsCell cell) :
    ∀ c ∈ (padded width cell).toList, c ≠ '|' := by
  rcases padded_toList width cell with ⟨left, right, heq, -⟩
  intro c hc
  rw [heq] at hc
  rcases List.mem_append.mp hc with hc | hright
  · rcases List.mem_append.mp hc with hleft | hcell
    · rw [List.eq_of_mem_replicate hleft]
      decide
    · exact h.noBar c hcell
  · rw [List.eq_of_mem_replicate hright]
    decide

theorem trim_padded {width : Nat} {cell : String} (h : IsCell cell) :
    Text.trim Text.isBlank (padded width cell).toList = cell.toList := by
  rcases padded_toList width cell with ⟨left, right, heq, -⟩
  rw [heq]
  exact Text.trim_padded _ _ _ (fun c hc => Text.isBlank_of_mem_replicate hc)
    (fun c hc => Text.isBlank_of_mem_replicate hc) h.trimmed

theorem noBar_commentTail (gap : Nat) {comment : Option String}
    (h : ∀ text ∈ comment, ∀ c ∈ text.toList, c ≠ '|') :
    ∀ c ∈ commentTail gap comment, c ≠ '|' := by
  cases comment with
  | none => simp [commentTail]
  | some text =>
      intro c hc
      rcases List.mem_append.mp hc with hgap | hrest
      · rw [List.eq_of_mem_replicate hgap]
        decide
      · rcases List.mem_cons.mp hrest with rfl | htext
        · decide
        · exact h text rfl c htext

/-- The pieces of a row's line: a bar, then cells that each end in a bar. -/
theorem rowLine_chars (ws : List Nat) (n : Nat) (cells : List String) :
    (rowLine ws n cells).chars =
      '|' :: ((ws.zip cells).map (fun p => (padded p.1 p.2).toList)).flatMap (· ++ ['|']) := by
  have hsegments : (rowLine ws n cells).segments = ⟨"|", .border⟩ ::
      (ws.zip cells).flatMap (fun p => [⟨padded p.1 p.2, .plain⟩, ⟨"|", .border⟩]) := rfl
  have hpieces : ∀ pairs : List (Nat × String),
      (pairs.flatMap (fun p =>
        [⟨padded p.1 p.2, .plain⟩, (⟨"|", .border⟩ : Segment)])).flatMap
          (fun segment => segment.text.toList) =
        (pairs.map (fun p => (padded p.1 p.2).toList)).flatMap (· ++ ['|']) := by
    intro pairs
    induction pairs with
    | nil => rfl
    | cons pair rest ih => simp [ih]
  simp only [Line.chars, hsegments, List.flatMap_cons, hpieces]
  rfl

/-- A bar behind an indentation begins a row. -/
theorem structural?_row (n : Nat) {inside : List Char} {cells : List Reader.Cell}
    {remark : Option Reader.Remark} (h : Reader.scanRowBody inside = .ok (cells, remark)) :
    Item.structural? (List.replicate n ' ' ++ '|' :: inside) =
      some (.row (cells.map fun cell => String.ofList cell.text)
        (remark.map Reader.Remark.comment)) := by
  have hskip : Text.skipBlanks (List.replicate n ' ' ++ '|' :: inside) = '|' :: inside := by
    rw [Text.skipBlanks_replicate, Text.skipBlanks_cons _ _ (by decide)]
  have hclass : classify (List.replicate n ' ' ++ '|' :: inside) = .row :=
    Reader.classify_eq_of_content hskip rfl
  simp only [Item.structural?, hclass, hskip, List.drop_one, List.tail_cons, h, Except.toOption,
    Option.map_some]

/-- The line of a row, if every cell has a column. -/
theorem says_row (hcolor : options.color = false) {columns : Nat} {row : Row}
    (h : row.Printable columns) (hpos : 1 ≤ columns) {ws : List Nat} (hws : columns ≤ ws.length)
    (hc : ∀ text ∈ inlineComment options row.comments,
      IsComment text ∧ ∀ c ∈ text.toList, c ≠ '|') :
    Line.Says options
      { rowLine ws argumentIndent row.cells with comment := inlineComment options row.comments }
      .structural (.row row.cells (inlineComment options row.comments)) := by
  have hcomment : ∀ text ∈ inlineComment options row.comments, IsComment text :=
    fun text ht => (hc text ht).1
  have hchars := rowLine_chars ws argumentIndent row.cells
  -- Every cell has a width, so pairing widths with cells loses no cell.
  have hsnd : (ws.zip row.cells).map Prod.snd = row.cells :=
    List.map_snd_zip (by rw [h.length]; exact hws)
  have hcell : ∀ p ∈ ws.zip row.cells, IsCell p.2 := by
    intro p hp
    exact h.cells p.2 (List.of_mem_zip hp).2
  have hne : (ws.zip row.cells).map (fun p => (padded p.1 p.2).toList) ≠ [] := by
    intro hnil
    have hlength := congrArg List.length hsnd
    rw [List.map_eq_nil_iff.mp hnil, h.length] at hlength
    simp only [List.map_nil, List.length_nil] at hlength
    omega
  have hbars : ∀ piece ∈ (ws.zip row.cells).map (fun p => (padded p.1 p.2).toList),
      ∀ c ∈ piece, c ≠ '|' := by
    intro piece hpiece
    rcases List.mem_map.mp hpiece with ⟨p, hp, rfl⟩
    exact noBar_padded (hcell p hp)
  -- The blanks that pad a cell are trimmed away, and the cell is trimmed itself.
  have htrim : ((ws.zip row.cells).map (fun p => (padded p.1 p.2).toList)).map
      (Text.trim Text.isBlank) = row.cells.map String.toList := by
    rw [List.map_map]
    calc (ws.zip row.cells).map (Text.trim Text.isBlank ∘ fun p => (padded p.1 p.2).toList)
        = (ws.zip row.cells).map (String.toList ∘ Prod.snd) :=
          List.map_congr_left (fun p hp => trim_padded (hcell p hp))
      _ = row.cells.map String.toList := by rw [← List.map_map, hsnd]
  refine Line.says_of_chars hcolor ?_ ?_ hcomment (fun gap => ?_)
  · simp [Line.isBlank, rowLine]
  · change Unbroken (rowLine ws argumentIndent row.cells).chars
    rw [hchars]
    refine Unbroken.cons (by decide) (by decide) (fun c hmem => ?_)
    rcases List.mem_flatMap.mp hmem with ⟨piece, hpiece, hin⟩
    rcases List.mem_map.mp hpiece with ⟨p, hp, rfl⟩
    rcases List.mem_append.mp hin with hpad | hbar
    · exact unbroken_padded (hcell p hp) c hpad
    · rw [List.mem_singleton.mp hbar]
      decide
  · change Item.read? .structural (List.replicate argumentIndent ' ' ++
      (rowLine ws argumentIndent row.cells).chars ++
        commentTail gap (inlineComment options row.comments)) = _
    rw [hchars, List.append_assoc, List.cons_append]
    -- Cells hold no bars, nor does the comment, so the bars cut the line where it was joined.
    rcases Reader.scanRowBody_pieces _ (commentTail gap (inlineComment options row.comments)) _
      hne hbars (noBar_commentTail gap (fun text ht => (hc text ht).2))
      (ending?_commentTail gap hcomment) with ⟨cells, remark, hscan, hcells, hremark⟩
    have hread := structural?_row argumentIndent hscan
    rw [hremark] at hread
    have hnames : cells.map (fun cell => String.ofList cell.text) = row.cells := by
      have hofList := congrArg (List.map String.ofList) (hcells.trans htrim)
      simpa [Function.comp_def] using hofList
    rw [hnames] at hread
    exact hread

end Plain

end Layout

end Gherkin
