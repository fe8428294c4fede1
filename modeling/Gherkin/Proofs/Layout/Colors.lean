import Gherkin.Proofs.Layout.Reread

/-!
# Colours Are Put Around the Text

A coloured page is the plain page with control sequences put in. They can be
taken out again by whoever knows what a control sequence looks like, and
nothing else goes with them, as long as the tree itself holds no escape: then
every escape on the page begins a control sequence of the layout. What stands
next to it does not matter. Text in front of a sequence ends at the escape, and
text behind it begins after the sequence's `m`, even if it looks like another
parameter.

Where lines, comments and cells go is decided before anything is painted, so
the two pages agree in everything else.

## Main definitions

* `eraseControls`, `withoutControls`: A text without control sequences.
* `Feature.texts`: All texts that a tree holds.
* `Layout.Tinted`: A text with control sequences put in.

## Theorems

* `Layout.Tinted.erase`: Taking out what was put in.
* `Layout.tinted_render`: A coloured page is the plain page, tinted.
* `Layout.clean_featurePage`: Escapes on a page are those of its tree.
* `withoutControls_formatFeature`: Taking the colours out of a page.
-/

namespace Gherkin

/-- Whether a character can stand between the bracket and the `m` of a control
    sequence. -/
def isParameter (c : Char) : Bool :=
  c.isDigit || c == ';'

/-- What stands behind a control sequence, whose escape has been read already. -/
def behindControl? : List Char → Option (List Char)
  | '[' :: rest =>
    match rest.dropWhile isParameter with
    | 'm' :: behind => some behind
    | _ => none
  | _ => none

theorem length_behindControl? {cs behind : List Char} (h : behindControl? cs = some behind) :
    behind.length < cs.length := by
  unfold behindControl? at h
  split at h
  · rename_i rest
    have hle := (List.dropWhile_sublist isParameter (l := rest)).length_le
    split at h
    · rename_i found heq
      rw [heq, Option.some.inj h, List.length_cons] at hle
      rw [List.length_cons]
      omega
    · exact absurd h (by simp)
  · exact absurd h (by simp)

/-- A control sequence ends at its `m`, whatever text follows. -/
theorem behindControl?_parameters {parameters : List Char}
    (h : parameters.all isParameter = true) (rest : List Char) :
    behindControl? ('[' :: (parameters ++ 'm' :: rest)) = some rest := by
  have hdrop : (parameters ++ 'm' :: rest).dropWhile isParameter = 'm' :: rest := by
    rw [List.dropWhile_append_of_pos (List.all_eq_true.mp h)]
    rfl
  simp only [behindControl?, hdrop]

/-- Text without its control sequences. An escape that begins none is kept. -/
def eraseControls : List Char → List Char
  | [] => []
  | '\x1b' :: rest =>
    match h : behindControl? rest with
    | some behind =>
      have := length_behindControl? h
      eraseControls behind
    | none => '\x1b' :: eraseControls rest
  | c :: rest => c :: eraseControls rest
termination_by cs => cs.length
decreasing_by all_goals simp only [List.length_cons]; omega

theorem eraseControls_char {c : Char} (hc : c ≠ '\x1b') (rest : List Char) :
    eraseControls (c :: rest) = c :: eraseControls rest := by
  rw [eraseControls]
  exact hc

theorem eraseControls_escape {rest behind : List Char} (h : behindControl? rest = some behind) :
    eraseControls ('\x1b' :: rest) = eraseControls behind := by
  rw [eraseControls]
  split
  · rename_i found hfound
    rw [Option.some.inj (h.symm.trans hfound)]
  · rename_i hnone
    exact absurd (h.symm.trans hnone) (by simp)

/-- A text without its control sequences. -/
def withoutControls (text : String) : String :=
  String.ofList (eraseControls text.toList)

/-- Control sequences are taken out whatever stands around them, and what only
    looks like one stays. -/
example : withoutControls "1m\x1b[38;5;8m;2m[m\x1b[m0\x1b[1" = "1m;2m[m0\x1b[1" := by
  decide +kernel

section Texts

/-- The comments themselves, without their signs. -/
def Comments.texts (comments : Comments) : List String :=
  comments.inline.toList ++ comments.leading

/-- The texts of a row: its cells and its comments. -/
def Row.texts (row : Row) : List String :=
  row.cells ++ row.comments.texts

/-- The texts of all rows of a table. -/
def Table.texts (table : Table) : List String :=
  table.rows.flatMap Row.texts

/-- The texts of a doc string: its lines and its comments. -/
def DocString.texts (doc : DocString) : List String :=
  doc.lines ++ doc.comments.texts

/-- The texts of an argument, if there is one. -/
def Argument.texts : Argument → List String
  | .none => []
  | .docString doc => doc.texts
  | .table grid => grid.texts

/-- The texts of a step: its own, its tags, those of its argument and its comments. -/
def Step.texts (step : Step) : List String :=
  step.text :: step.tags ++ step.argument.texts ++ step.comments.texts

/-- The texts of a block: its title, its tags, those of its steps and its comments. -/
def Block.texts (block : Block) : List String :=
  block.title :: block.tags ++ block.steps.flatMap Step.texts ++ block.comments.texts

/-- The texts of examples: those of their table and their comments. -/
def Examples.texts (examples : Examples) : List String :=
  examples.table.texts ++ examples.comments.texts

/-- The texts of a scenario: those of its block and of its examples. -/
def Scenario.texts (scenario : Scenario) : List String :=
  scenario.block.texts ++ scenario.examples?.toList.flatMap Examples.texts

/-- All texts that a tree holds: titles, the description, tags, the texts of steps,
    cells, the lines of doc strings, and comments. -/
def Feature.texts (feature : Feature) : List String :=
  feature.title :: feature.description :: feature.tags ++
    feature.background.toList.flatMap Block.texts ++ feature.scenarios.flatMap Scenario.texts ++
    feature.comments.texts ++ feature.trailing

end Texts

namespace Layout

/-- A text with control sequences put in, and the text. The text has no escapes of
    its own. -/
inductive Tinted : List Char → List Char → Prop
  | nil : Tinted [] []
  | char {c : Char} {shown plain : List Char} (hc : c ≠ '\x1b') (h : Tinted shown plain) :
      Tinted (c :: shown) (c :: plain)
  | control {parameters : String} {shown plain : List Char}
      (hparameters : parameters.toList.all isParameter = true) (h : Tinted shown plain) :
      Tinted ((control parameters).toList ++ shown) plain

namespace Tinted

variable {shown plain shown' plain' : List Char}

theorem append (h : Tinted shown plain) (h' : Tinted shown' plain') :
    Tinted (shown ++ shown') (plain ++ plain') := by
  induction h with
  | nil => exact h'
  | char hc _ ih => exact ih.char hc
  | control hparameters _ ih =>
      rw [List.append_assoc]
      exact ih.control hparameters

/-- Text without escapes may be left as it is. -/
theorem refl {text : List Char} (h : '\x1b' ∉ text) : Tinted text text := by
  induction text with
  | nil => exact .nil
  | cons c rest ih =>
      rw [List.mem_cons, not_or] at h
      exact (ih h.2).char (Ne.symm h.1)

theorem join {α : Type} {texts : List α} {f g : α → String}
    (h : ∀ text ∈ texts, Tinted (f text).toList (g text).toList) :
    Tinted (String.join (texts.map f)).toList (String.join (texts.map g)).toList := by
  induction texts with
  | nil => exact .nil
  | cons text rest ih =>
      rw [List.forall_mem_cons] at h
      simp only [List.map_cons, String.join_cons, String.toList_append]
      exact h.1.append (ih h.2)

/-- Taking out what was put in leaves the text. -/
theorem erase (h : Tinted shown plain) : eraseControls shown = plain := by
  induction h with
  | nil => rw [eraseControls]
  | char hc _ ih => rw [eraseControls_char hc, ih]
  | @control parameters shown plain hparameters _ ih =>
      have hchars : (Layout.control parameters).toList ++ shown =
          '\x1b' :: '[' :: (parameters.toList ++ 'm' :: shown) := by
        simp [Layout.control]
      rw [hchars, eraseControls_escape (behindControl?_parameters hparameters shown), ih]

end Tinted

/-- A control sequence shows nothing. -/
theorem tinted_control {parameters : String} (h : parameters.toList.all isParameter = true) :
    Tinted (control parameters).toList [] := by
  simpa using Tinted.nil.control h

theorem tinted_colorControl (muted : Bool) {parameters : String}
    (h : parameters.toList.all isParameter = true) :
    Tinted (colorControl muted parameters).toList [] := by
  cases muted with
  | false => exact tinted_control h
  | true => exact tinted_control rfl

/-- What is put around a piece shows nothing. -/
theorem tinted_around (muted : Bool) (role : Role) :
    Tinted (role.around muted).1.toList [] ∧ Tinted (role.around muted).2.toList [] := by
  have hcolor : ∀ {parameters : String}, parameters.toList.all isParameter = true →
      Tinted (colorControl muted parameters).toList [] :=
    tinted_colorControl muted
  have hboth : ∀ {first second : String}, Tinted first.toList [] → Tinted second.toList [] →
      Tinted (first ++ second).toList [] := by
    intro first second hfirst hsecond
    rw [String.toList_append]
    exact hfirst.append hsecond
  cases role with
  | plain => exact ⟨.nil, .nil⟩
  | keyword => exact ⟨hboth (hcolor (by decide)) (tinted_control rfl), tinted_control rfl⟩
  | stepKeyword => exact ⟨hboth (hcolor (by decide)) (tinted_control rfl), tinted_control rfl⟩
  | tag => exact ⟨hcolor (by decide), hcolor (by decide)⟩
  | border => exact ⟨hcolor (by decide), hcolor (by decide)⟩
  | fence => exact ⟨hcolor (by decide), hcolor (by decide)⟩
  | comment => exact ⟨hboth (hcolor (by decide)) (tinted_control rfl), tinted_control rfl⟩

/-- Whether a text holds no escape. -/
def Clean (text : String) : Prop :=
  '\x1b' ∉ text.toList

instance : DecidablePred Clean :=
  fun text => inferInstanceAs (Decidable ('\x1b' ∉ text.toList))

theorem clean_append {first second : String} :
    Clean (first ++ second) ↔ Clean first ∧ Clean second := by
  simp [Clean, not_or]

theorem clean_spaces (count : Nat) : Clean (Text.spaces count) := by
  simp [Clean, Text.spaces]

theorem tinted_paint {text : String} (h : Clean text) (role : Role) (muted : Bool) :
    Tinted (paint text role true muted).toList (paint text role false muted).toList := by
  have htext : paint text role false muted = text := rfl
  rw [htext, paint]
  split
  · rw [String.toList_append, String.toList_append]
    have haround := tinted_around muted role
    simpa using (haround.1.append (Tinted.refl h)).append haround.2
  · exact .refl h

/-- Whether no piece of a line and no comment holds an escape. -/
structure Line.Clean (line : Line) : Prop where
  segments : ∀ segment ∈ line.segments, Layout.Clean segment.text
  comment : ∀ text ∈ line.comment, Layout.Clean text

/-- A coloured line is the plain line, tinted. Its gaps are as wide. -/
theorem tinted_line {line : Line} (h : line.Clean) (column : Nat) (options : Options) :
    Tinted (line.render column { options with color := true }).toList
      (line.render column { options with color := false }).toList := by
  unfold Line.render
  split
  · exact .nil
  · have hsegments := Tinted.join (fun s hs =>
      tinted_paint (h.segments s hs) s.role options.muted)
    simp only [String.toList_append]
    refine ((Tinted.refl (clean_spaces _)).append hsegments).append ?_
    cases hcomment : line.comment with
    | none => exact .nil
    | some text =>
        have htext : Clean ("#" ++ text) := clean_append.mpr ⟨by decide, h.comment text hcomment⟩
        simp only [String.toList_append (s := Text.spaces _)]
        exact (Tinted.refl (clean_spaces _)).append (tinted_paint htext .comment options.muted)

/-- A coloured page is the plain page, tinted. -/
theorem tinted_render {page : Page} (h : ∀ line ∈ page.lines, line.Clean) (options : Options) :
    Tinted (page.render { options with color := true }).toList
      (page.render { options with color := false }).toList := by
  refine Tinted.join fun run hrun => Tinted.join fun line hline => ?_
  have hmem : line ∈ page.lines := by
    rw [← List.flatten_splitBy (fun a b : Line => a.comment.isSome && b.comment.isSome) page.lines]
    exact List.mem_flatten_of_mem hrun hline
  simp only [String.toList_append]
  exact (tinted_line (h line hmem) _ options).append (.refl (by decide))

/-- Where lines go is decided before they are painted. -/
theorem featurePage_color (options : Options) (color : Bool) (feature : Feature) :
    featurePage { options with color } feature = featurePage options feature :=
  rfl

section Page

-- Every piece of a page is made of texts of the tree and of the layout's own signs and keywords,
-- so the only escapes on it are those of the tree.
variable (options : Options)

theorem clean_intercalate {sep : String} (hsep : Clean sep) (texts : List String) :
    Clean (sep.intercalate texts) ↔ ∀ text ∈ texts, Clean text := by
  induction texts with
  | nil => simp [Clean]
  | cons text rest ih =>
      cases rest with
      | nil => simp
      | cons next others =>
          rw [String.intercalate_cons_cons, clean_append, clean_append, ih, List.forall_mem_cons]
          simp [hsep]

theorem Line.clean_blank : Line.blank.Clean :=
  ⟨by simp [Line.blank], by simp [Line.blank]⟩

theorem Line.clean_single {text : String} (h : Layout.Clean text) (indent : Nat) (role : Role) :
    (Line.single indent text role).Clean :=
  ⟨by simpa [Line.single] using h, by simp [Line.single]⟩

theorem clean_inlineComment {comments : Comments} (h : ∀ text ∈ comments.texts, Clean text) :
    ∀ text ∈ inlineComment options comments, Clean text := by
  intro text htext
  unfold inlineComment at htext
  split at htext
  · exact absurd htext (by simp)
  · exact h text (List.mem_append_left _ (Option.mem_toList.mpr htext))

theorem clean_commentLines (indent : Nat) {texts : List String}
    (h : ∀ text ∈ texts, Clean text) :
    ∀ line ∈ commentLines options indent texts, line.Clean := by
  unfold commentLines
  split
  · simp
  · rw [List.forall_mem_map]
    intro text htext
    exact Line.clean_single (clean_append.mpr ⟨by decide, h text htext⟩) indent .comment

theorem clean_leading (indent : Nat) {comments : Comments}
    (h : ∀ text ∈ comments.texts, Clean text) :
    ∀ line ∈ commentLines options indent comments.leading, line.Clean :=
  clean_commentLines options indent (List.forall_mem_append.mp h).2

theorem clean_tagLines (indent : Nat) {tags : List String} (h : ∀ tag ∈ tags, Clean tag) :
    ∀ line ∈ tagLines indent tags, line.Clean := by
  have htags : Clean (tagLine tags) := by
    refine (clean_intercalate (by decide) _).mpr ?_
    rw [List.forall_mem_map]
    exact fun tag htag => clean_append.mpr ⟨by decide, h tag htag⟩
  unfold tagLines
  split
  · simp
  · rw [List.forall_mem_singleton]
    exact Line.clean_single htags indent .tag

theorem clean_headingLine (indent : Nat) (heading : Heading) {title : String}
    (htitle : Clean title) {comments : Comments} (h : ∀ text ∈ comments.texts, Clean text) :
    (headingLine options indent heading title comments).Clean := by
  refine ⟨?_, clean_inlineComment options h⟩
  have hheading : Clean heading.text := by
    rcases heading with _ | ⟨_ | _ | _⟩ | _ <;> decide
  simp only [headingLine, List.forall_mem_cons]
  refine ⟨hheading, ?_⟩
  split
  · simp
  · rw [List.forall_mem_singleton]
    exact clean_append.mpr ⟨by decide, htitle⟩

theorem clean_docStringLines {doc : DocString} (h : ∀ text ∈ doc.texts, Clean text) :
    ∀ line ∈ docStringLines options doc, line.Clean := by
  rcases List.forall_mem_append.mp h with ⟨hlines, hcomments⟩
  have hfence : (Line.single argumentIndent "\"\"\"" .fence).Clean :=
    Line.clean_single (by decide) _ _
  simp only [docStringLines, List.forall_mem_append, List.forall_mem_cons, List.forall_mem_map]
  refine ⟨⟨clean_leading options _ hcomments, hfence, fun text htext => ?_⟩, ?_, by simp⟩
  · split
    · exact Line.clean_blank
    · exact Line.clean_single (hlines text htext) _ _
  · exact ⟨hfence.segments, clean_inlineComment options hcomments⟩

theorem clean_padded {cell : String} (h : Clean cell) (width : Nat) :
    Clean (padded width cell) := by
  rcases padded_toList width cell with ⟨left, right, hpadded, -⟩
  rw [Clean, hpadded]
  simpa [Clean] using h

theorem clean_rowLine (ws : List Nat) (indent : Nat) {cells : List String}
    (h : ∀ cell ∈ cells, Clean cell) : (rowLine ws indent cells).Clean := by
  refine ⟨?_, by simp [rowLine]⟩
  simp only [rowLine, List.forall_mem_cons, List.forall_mem_flatMap]
  refine ⟨by decide, fun column hcolumn => ?_⟩
  have hcell := h column.2 (List.of_mem_zip hcolumn).2
  exact ⟨clean_padded hcell _, by decide, by simp⟩

theorem clean_tableLines {table : Table} (h : ∀ text ∈ table.texts, Clean text) :
    ∀ line ∈ tableLines options table, line.Clean := by
  rw [Table.texts, List.forall_mem_flatMap] at h
  simp only [tableLines, List.forall_mem_flatMap, List.forall_mem_append]
  intro row hrow
  rcases List.forall_mem_append.mp (h row hrow) with ⟨hcells, hcomments⟩
  refine ⟨clean_leading options _ hcomments, ?_⟩
  rw [List.forall_mem_singleton]
  exact ⟨(clean_rowLine (widths table) argumentIndent hcells).segments,
    clean_inlineComment options hcomments⟩

theorem clean_stepLines {step : Step} (h : ∀ text ∈ step.texts, Clean text) :
    ∀ line ∈ stepLines options step, line.Clean := by
  simp only [Step.texts, List.forall_mem_append, List.forall_mem_cons] at h
  rcases h with ⟨⟨⟨htext, htags⟩, hargument⟩, hcomments⟩
  have hkeyword : Clean step.keyword.text := by
    cases step.keyword <;> decide
  have hargumentLines : ∀ line ∈ argumentLines options step.argument, line.Clean := by
    cases hcase : step.argument with
    | none => simp [argumentLines]
    | docString doc => exact clean_docStringLines options (by rwa [hcase] at hargument)
    | table grid => exact clean_tableLines options (by rwa [hcase] at hargument)
  simp only [stepLines, List.forall_mem_append, List.forall_mem_cons]
  refine ⟨⟨clean_leading options _ hcomments, clean_tagLines _ htags⟩, ⟨?_, ?_⟩, hargumentLines⟩
  · simp only [stepLine, List.forall_mem_cons]
    exact ⟨hkeyword, clean_append.mpr ⟨by decide, htext⟩, by simp⟩
  · exact clean_inlineComment options hcomments

theorem clean_blockLines (kind : BlockKind) {block : Block}
    (h : ∀ text ∈ block.texts, Clean text) :
    ∀ line ∈ blockLines options kind block, line.Clean := by
  simp only [Block.texts, List.forall_mem_append, List.forall_mem_cons,
    List.forall_mem_flatMap] at h
  rcases h with ⟨⟨⟨htitle, htags⟩, hsteps⟩, hcomments⟩
  simp only [blockLines, List.forall_mem_append, List.forall_mem_cons, List.forall_mem_flatMap]
  exact ⟨⟨clean_leading options _ hcomments, clean_tagLines _ htags⟩,
    clean_headingLine options _ _ htitle hcomments,
    fun step hstep => clean_stepLines options (hsteps step hstep)⟩

theorem clean_examplesLines {examples : Examples} (h : ∀ text ∈ examples.texts, Clean text) :
    ∀ line ∈ examplesLines options examples, line.Clean := by
  rcases List.forall_mem_append.mp h with ⟨htable, hcomments⟩
  simp only [examplesLines, List.forall_mem_append, List.forall_mem_cons]
  exact ⟨clean_leading options _ hcomments,
    clean_headingLine options _ _ (by decide) hcomments, clean_tableLines options htable⟩

variable {page : Page} (hpage : ∀ line ∈ page.lines, line.Clean)
include hpage

theorem clean_addPart {lines : List Line} (h : ∀ line ∈ lines, line.Clean) :
    ∀ line ∈ (page.addPart lines).lines, line.Clean := by
  rcases page.addPart_lines lines with ⟨gap, hgap, hadded⟩
  rw [hadded, List.forall_mem_append, List.forall_mem_append]
  refine ⟨⟨hpage, ?_⟩, h⟩
  rcases hgap with rfl | rfl
  · simp
  · exact List.forall_mem_singleton.mpr Line.clean_blank

theorem clean_addScenario {scenario : Scenario} (h : ∀ text ∈ scenario.texts, Clean text) :
    ∀ line ∈ (page.addScenario options scenario).lines, line.Clean := by
  rcases List.forall_mem_append.mp h with ⟨hblock, hexamples⟩
  cases scenario with
  | plain block => exact clean_addPart hpage (clean_blockLines options _ hblock)
  | outline block examples =>
      have houtline := clean_addPart hpage (clean_blockLines options .outline hblock)
      cases examples with
      | none => exact houtline
      | some examples =>
          refine clean_addPart houtline (clean_examplesLines options ?_)
          simpa [Scenario.examples?] using hexamples

theorem clean_addScenarios {scenarios : List Scenario}
    (h : ∀ scenario ∈ scenarios, ∀ text ∈ scenario.texts, Clean text) :
    ∀ line ∈ (scenarios.foldl (Page.addScenario options) page).lines, line.Clean := by
  induction scenarios generalizing page with
  | nil => exact hpage
  | cons scenario rest ih =>
      rw [List.forall_mem_cons] at h
      exact ih (clean_addScenario options hpage h.1) h.2

end Page

/-- The escapes on a page are those of its tree. -/
theorem clean_featurePage (options : Options) {t : Feature} (h : ∀ text ∈ t.texts, Clean text) :
    ∀ line ∈ (featurePage options t).lines, line.Clean := by
  simp only [Feature.texts, List.forall_mem_append, List.forall_mem_cons,
    List.forall_mem_flatMap, Option.mem_toList] at h
  rcases h with ⟨⟨⟨⟨⟨htitle, hdescription, htags⟩, hbackground⟩, hscenarios⟩, hcomments⟩, htrailing⟩
  have hlines : ∀ text ∈ t.descriptionLines, Clean text := by
    have hbreak : Clean "\n" := by decide
    rw [← clean_intercalate hbreak, t.intercalate_descriptionLines]
    exact hdescription
  have hopening : ∀ line ∈ openingLines options t, line.Clean := by
    simp only [openingLines, List.forall_mem_append, List.forall_mem_cons, List.forall_mem_map]
    exact ⟨⟨clean_leading options _ hcomments, clean_tagLines _ htags⟩,
      clean_headingLine options _ _ htitle hcomments,
      fun text htext => Line.clean_single (hlines text htext) _ _⟩
  -- Scenarios and the comments at the end go below a page with the background or without it.
  have hclosing : ∀ page : Page, (∀ line ∈ page.lines, line.Clean) →
      ∀ line ∈ (if options.skipComments || t.trailing.isEmpty then page
        else page.addPart (commentLines options 0 t.trailing)).lines, line.Clean := by
    intro page hpage
    split_ifs
    · exact hpage
    · exact clean_addPart hpage (clean_commentLines options 0 htrailing)
  unfold featurePage
  cases hcase : t.background with
  | none => exact hclosing _ (clean_addScenarios options hopening hscenarios)
  | some block =>
      have hblock := clean_blockLines options .background (hbackground block hcase)
      exact hclosing _ (clean_addScenarios options (clean_addPart hopening hblock) hscenarios)

end Layout

/-- Colours only add control sequences. Taking these out of the coloured page of a
    tree that holds no escape leaves the plain page, and nothing else is lost. -/
theorem withoutControls_formatFeature (t : Feature) (options : Layout.Options)
    (h : ∀ text ∈ t.texts, '\x1b' ∉ text.toList) :
    withoutControls (formatFeature t { options with color := true }) =
      formatFeature t { options with color := false } := by
  have hpage : ∀ color : Bool, formatFeature t { options with color } =
      (Layout.featurePage options t).render { options with color } := by
    intro color
    rw [formatFeature, Layout.featurePage_color]
  have htinted := Layout.tinted_render (Layout.clean_featurePage options h) options
  rw [hpage, hpage, withoutControls, htinted.erase, String.ofList_toList]

/-- A tree whose texts look like the rest of a control sequence. -/
def sequenceSample : Feature where
  title := "[0m"
  tags := ["1m", "38;5;8"]
  scenarios := [.outline
    { steps := [{ keyword := .context, text := "3m", comments := { inline := some "[1m" } }] }
    (some { table := { rows := [{ cells := ["0m", "[", ";5"] }] } })]

/-- The coloured page of the sample differs from the plain one, which taking out
    the colours gives back. -/
theorem withoutControls_formatFeature_sample :
    (∀ text ∈ sequenceSample.texts, '\x1b' ∉ text.toList) ∧
    formatFeature sequenceSample { color := true } ≠ formatFeature sequenceSample {} ∧
    withoutControls (formatFeature sequenceSample { color := true }) =
      formatFeature sequenceSample {} := by
  have hclean : ∀ text ∈ sequenceSample.texts, '\x1b' ∉ text.toList := by decide +kernel
  refine ⟨hclean, by decide +kernel, ?_⟩
  exact withoutControls_formatFeature sequenceSample {} hclean

end Gherkin
