import Gherkin.Proofs.Layout.Parts
import Gherkin.Proofs.Reader.TreeSoFar

/-!
# Reading What Was Printed

The lines of the canonical layout, read one after the other, yield the events
of the tree they were made from. The page is built up part by part, with a
blank line before a part when something stands before it. So the invariant is
about a page: its lines yield the events of the feature so far, up to the
closers that are still to come. Blank lines between parts are reported too,
and drop out of the comparison.

## Main definitions

* `Rereads`, `RereadsBlock`: Lines that yield the events of a feature, or of a
  feature and an open block.
* `atDescription`: The reader in the description.

## Theorems

* `passes_opening`: The heading and the description.
* `Rereads.addBlock`, `RereadsBlock.addExamples`: A further part.
* `featurePage_kinds`: The whole page.
-/

namespace Gherkin

namespace Layout

open Reader (Gist Place Stage Owner Item)

section

variable {options : Options}

/-- Before a further part there is at most one blank line. -/
theorem Page.addPart_lines (page : Page) (lines : List Line) :
    ∃ gap, (gap = [] ∨ gap = [Line.blank]) ∧
      (page.addPart lines).lines = page.lines ++ gap ++ lines := by
  unfold Page.addPart Page.separate Page.append Page.push
  -- The gap depends on the last line only: there is none on an empty page or below a blank line.
  cases page.lines.getLast? with
  | none => exact ⟨[], Or.inl rfl, by simp⟩
  | some line =>
      by_cases hblank : line.isBlank = true
      · exact ⟨[], Or.inl rfl, by simp [hblank]⟩
      · exact ⟨[Line.blank], Or.inr rfl, by simp [hblank]⟩

theorem passes_gap {gap : List Line} (hgap : gap = [] ∨ gap = [Line.blank]) {g : Gist}
    (hm : ∀ indent, g.mode ≠ .verbatim indent) :
    ∃ ks, withoutBlanks ks = [] ∧ Passes options g gap [] (g.hold ks) := by
  rcases hgap with rfl | rfl
  · refine ⟨[], rfl, ?_⟩
    rw [Gist.hold_nil]
    exact .nil g
  · exact ⟨[.blankLine], rfl, .single (says_blank rfl hm) rfl⟩

/-- The lines of a page yield the events of a feature that can take further
    blocks, up to blank lines and to what is still to be closed. -/
def Rereads (options : Options) (page : Page) (f : Feature) (hasBackground hasScenario : Bool) :
    Prop :=
  ∃ kinds g, Passes options {} page.lines kinds g ∧ g.tags = none ∧
    (∀ indent, g.mode ≠ .verbatim indent) ∧ g.leave.2.phase = .body ∧
    g.hasBackground = hasBackground ∧ g.hasScenario = hasScenario ∧
    withoutBlanks (kinds ++ g.leave.1 ++ g.leave.2.trivia) = f.openKinds

/-- The lines of a page yield the events of a feature and of a block that is
    open in it. -/
def RereadsBlock (options : Options) (page : Page) (f : Feature) (kind : BlockKind)
    (ks : List EventKind) (hasBackground hasScenario : Bool) (place : Place) : Prop :=
  ∃ kinds, Passes options {} page.lines kinds (inBlock kind place hasBackground hasScenario) ∧
    Resting place ∧ withoutBlanks kinds ++ place.closers = f.openKinds ++ ks

/-- The opening of a feature with so many lines of description, and so many
    blank lines behind them. -/
def atDescription (t : Feature) (lines : List String) (blanks : Nat) : Gist :=
  { phase := .opening ⟨t.title, t.tags, t.comments.beside, lines, [],
      List.replicate blanks .blankLine⟩
    trivia := t.comments.above }

variable {page : Page} {f : Feature} {hasBackground hasScenario : Bool}

/-- The block that is open is closed by whatever comes next. -/
theorem RereadsBlock.close {place : Place} {o : OpenBlock} {ks : List EventKind}
    (hpage : RereadsBlock options page f o.kind ks hasBackground hasScenario place)
    (hks : ks ++ [.blockEnd o.kind] = o.block.kinds o.kind o.examples)
    (hroom : o.kind = .background → f.background = none ∧ f.scenarios = [])
    (hex : o.kind ≠ .outline → o.examples = none) :
    Rereads options page (Assembly.addBlock f o) hasBackground hasScenario := by
  rcases hpage with ⟨kinds, hpass, hrest, hkinds⟩
  refine ⟨kinds, _, hpass, rfl, mode_inBlock_ne hrest, rfl, rfl, rfl, ?_⟩
  -- The closers of the place and the end of the block are what leaving still has to yield.
  rw [Feature.openKinds_addBlock f o hroom hex, ← hks, ← List.append_assoc, ← hkinds]
  simp [inBlock, Gist.leave]

variable (hcolor : options.color = false)
include hcolor

/-- Lines of the description below others. Blank lines between them are part of
    it once another line follows. -/
theorem passes_prose (t : Feature) {more : List String}
    (h : ∀ line ∈ more, line ≠ "" → IsProse line) (lines : List String) (hne : lines ≠ [])
    (blanks : Nat) :
    ∃ lines' blanks', Passes options (atDescription t lines blanks)
        (more.map (fun text => Line.single blockIndent text .plain)) []
        (atDescription t lines' blanks') ∧
      lines' ++ List.replicate blanks' "" = lines ++ List.replicate blanks "" ++ more := by
  -- Blank lines are counted until a line of text shows that they stand inside.
  induction more generalizing lines blanks with
  | nil => exact ⟨lines, blanks, .nil _, by simp⟩
  | cons text rest ih =>
      have hrest := fun line hline => h line (List.mem_cons_of_mem text hline)
      by_cases hempty : text = ""
      · subst hempty
        rcases ih hrest lines hne (blanks + 1) with ⟨lines', blanks', hpass, hlines⟩
        have htake : (atDescription t lines blanks).take .blank =
            some ([], atDescription t lines (blanks + 1)) := by
          simp [atDescription, Gist.take, Gist.hold, List.replicate_succ']
        refine ⟨lines', blanks', .cons (says_blank rfl (by simp [atDescription, Gist.mode])) htake
          hpass, ?_⟩
        rw [hlines]
        simp [List.replicate_succ']
      -- The blank lines so far are now lines of the description.
      · have hprose := h text List.mem_cons_self hempty
        rcases ih hrest (lines ++ List.replicate blanks "" ++ [text]) (by simp) 0 with
          ⟨lines', blanks', hpass, hlines⟩
        have htake : (atDescription t lines blanks).take (.prose text none) =
            some ([], atDescription t (lines ++ List.replicate blanks "" ++ [text]) 0) := by
          simp [atDescription, Gist.take, Gist.Opening.addLine, hne, Reader.sideKinds]
        refine ⟨lines', blanks', .cons (says_prose hcolor blockIndent hprose) htake hpass, ?_⟩
        rw [hlines]
        simp

/-- The lines of the description. It does not end in a blank line, so nothing
    is left behind it. -/
theorem passes_description (t : Feature) {lines : List String} (h : IsDescription lines) :
    Passes options (atDescription t [] 0)
      (lines.map (fun text => Line.single blockIndent text .plain)) []
      (atDescription t lines 0) := by
  cases lines with
  | nil => exact .nil _
  | cons first rest =>
      have hfirst : first ≠ "" := fun hempty => h.first (by rw [hempty]; rfl)
      have hsaid := says_prose hcolor blockIndent (h.prose first List.mem_cons_self hfirst)
      have htake : (atDescription t [] 0).take (.prose first none) =
          some ([], atDescription t [first] 0) := rfl
      rcases passes_prose hcolor t
        (fun line hline => h.prose line (List.mem_cons_of_mem first hline)) [first] (by simp) 0 with
        ⟨lines', blanks', hpass, hlines⟩
      -- Blank lines that were still counted would be the last lines of the description.
      have hnone : blanks' = 0 := by
        cases blanks' with
        | zero => rfl
        | succ n =>
            have hlast := congrArg List.getLast? hlines
            rw [List.replicate_succ', ← List.append_assoc, List.getLast?_concat] at hlast
            exact absurd hlast.symm (by simpa using h.last)
      subst hnone
      have hsame : lines' = first :: rest := by simpa using hlines
      rw [hsame] at hpass
      exact .cons hsaid htake hpass

variable (hskip : options.skipComments = false)
include hskip

/-- The lines of a feature above its first block. -/
theorem passes_opening {t : Feature} (h : t.Printable) :
    Passes options {} (openingLines options t) [] (atDescription t t.descriptionLines 0) := by
  have hprelude := passes_beneath hcolor hskip 0 h.comments.leading h.tags {}
    (fun indent => by simp [Gist.mode])
  have hsaid := says_feature hcolor 0 h.title
    (by rw [inlineComment_eq hskip]; exact h.comments.inline)
  rw [inlineComment_eq hskip] at hsaid
  -- Nothing is open before the feature, so its tags close nothing.
  have htake : (beneath {} t.comments.leading t.tags).2.take
      (.feature t.title t.comments.inline) = some ([], atDescription t [] 0) ∧
      (beneath {} t.comments.leading t.tags).1 = [] ∧
      (beneath {} t.comments.leading t.tags).2.mode = .structural := by
    cases htags : t.tags <;>
      simp [beneath, Gist.take, Gist.hold, Gist.settle, Gist.addTags, Gist.tagNames, Gist.mode,
        atDescription, htags, Comments.above, Comments.beside, Reader.inlineKinds]
  rcases htake with ⟨htake, hnil, hmode⟩
  rw [hnil] at hprelude
  rw [← hmode] at hsaid
  exact hprelude.append (.cons hsaid htake (passes_description hcolor t h.description))

theorem rereads_opening {t : Feature} (h : t.Printable) :
    Rereads options ⟨openingLines options t⟩
      { t with background := none, scenarios := [], trailing := [] } false false := by
  refine ⟨[], _, passes_opening hcolor hskip h, rfl,
    fun indent => by simp [atDescription, Gist.mode], rfl, rfl, rfl, ?_⟩
  simp [atDescription, Gist.leave, Gist.announce, Feature.intercalate_descriptionLines,
    Feature.openKinds]

/-- A block is added to a page. -/
theorem Rereads.addBlock (hpage : Rereads options page f hasBackground hasScenario)
    (kind : BlockKind) (hadmits : kind = .background → hasBackground = false ∧ hasScenario = false)
    {b : Block} (h : b.Printable) :
    ∃ place, place.stage = .steps ∧
      RereadsBlock options (page.addPart (blockLines options kind b)) f kind
        ((b.reindented argumentIndent).openKinds kind) (hasBackground || kind == .background)
        (hasScenario || kind != .background) place := by
  rcases hpage with ⟨kinds, g, hpass, htags, hm, hbody, rfl, rfl, hkinds⟩
  -- The lines so far, then the gap, then those of the block.
  rcases Page.addPart_lines page (blockLines options kind b) with ⟨gap, hgap, hlines⟩
  rcases passes_gap hgap hm with ⟨ks, hks, hpassGap⟩
  have hheld := Gist.leave_hold g ks
  rcases Gist.hold_keeps g ks with ⟨htags', hback, hscen⟩
  have hadmits' : (g.hold ks).admits kind = true := by
    rw [Gist.admits, hback, hscen]
    cases kind <;> simp_all
  rcases passes_block hcolor hskip (g := g.hold ks) (by rw [Gist.mode_hold]; exact hm)
    (by rw [hheld]; exact hbody) (htags'.trans htags) hadmits' h with
    ⟨more, place, hpassBlock, hrest, hstage, hmore⟩
  rw [hback, hscen] at hpassBlock
  refine ⟨place, hstage, kinds ++ [] ++ more, ?_, hrest, ?_⟩
  · rw [hlines]
    exact (hpass.append hpassGap).append hpassBlock
  -- Without blank lines the gap is gone, and the rest is what was known of the two parts.
  · have hfilter := congrArg withoutBlanks hmore
    rw [hheld] at hfilter
    simp only [withoutBlanks_append, Reader.withoutBlanks_closers, hks, List.append_nil,
      Block.withoutBlanks_openKinds] at hfilter hkinds ⊢
    rw [List.append_assoc, hfilter, ← List.append_assoc, ← List.append_assoc, hkinds]

/-- Examples are added to a page behind the steps of an outline. -/
theorem RereadsBlock.addExamples {place : Place} {ks : List EventKind}
    (hpage : RereadsBlock options page f .outline ks hasBackground hasScenario place)
    (hstage : place.stage = .steps) {ex : Examples} (h : ex.Printable) :
    ∃ place', RereadsBlock options (page.addPart (examplesLines options ex)) f .outline
      (ks ++ ex.kinds) hasBackground hasScenario place' := by
  rcases hpage with ⟨kinds, hpass, hrest, hkinds⟩
  rcases Page.addPart_lines page (examplesLines options ex) with ⟨gap, hgap, hlines⟩
  -- The blank line is held back in the last step, and reported once that is closed.
  rcases passes_gap hgap (g := inBlock .outline place hasBackground hasScenario)
    (mode_inBlock_ne hrest) with ⟨blanks, hblanks, hpassGap⟩
  rcases passes_examples hcolor hskip hrest hstage blanks h with
    ⟨more, place', hpassEx, hrest', hmore⟩
  refine ⟨place', kinds ++ [] ++ more, ?_, hrest', ?_⟩
  · rw [hlines]
    exact (hpass.append hpassGap).append hpassEx
  · have hfilter := congrArg withoutBlanks hmore
    simp only [withoutBlanks_append, Reader.withoutBlanks_closers, hblanks, List.append_nil,
      Examples.withoutBlanks_kinds] at hfilter ⊢
    rw [List.append_assoc, hfilter, ← List.append_assoc, hkinds, List.append_assoc]

/-- The background of a feature is printed before its scenarios. -/
theorem rereads_background (hpage : Rereads options page f false false)
    (hnone : f.background = none) (hnil : f.scenarios = []) {b : Block} (h : b.Printable) :
    Rereads options (page.addPart (blockLines options .background b))
      { f with background := some (b.reindented argumentIndent) } true false := by
  rcases hpage.addBlock hcolor hskip .background (fun _ => ⟨rfl, rfl⟩) h with
    ⟨place, -, hblock⟩
  exact RereadsBlock.close (o := ⟨.background, b.reindented argumentIndent, none⟩) hblock
    (by simp [Block.kinds_eq]) (fun _ => ⟨hnone, hnil⟩) (fun _ => rfl)

/-- A scenario or an outline is added to a page. -/
theorem rereads_scenario (hpage : Rereads options page f hasBackground hasScenario)
    {s : Scenario} (h : s.Printable) :
    Rereads options (page.addScenario options s)
      { f with scenarios := f.scenarios ++ [s.reindented argumentIndent] } hasBackground true := by
  have hscenario : (BlockKind.scenario == .background) = false ∧
      (BlockKind.scenario != .background) = true := ⟨rfl, rfl⟩
  have houtline : (BlockKind.outline == .background) = false ∧
      (BlockKind.outline != .background) = true := ⟨rfl, rfl⟩
  cases s with
  | plain b =>
      rcases hpage.addBlock hcolor hskip .scenario (fun hk => absurd hk (by simp)) h with
        ⟨place, -, hblock⟩
      simp only [hscenario, Bool.or_false, Bool.or_true] at hblock
      exact RereadsBlock.close (o := ⟨.scenario, b.reindented argumentIndent, none⟩) hblock
        (by simp [Block.kinds_eq]) (fun hk => absurd hk (by simp)) (fun _ => rfl)
  | outline b ex =>
      rcases hpage.addBlock hcolor hskip .outline (fun hk => absurd hk (by simp)) h.1 with
        ⟨place, hstage, hblock⟩
      simp only [houtline, Bool.or_false, Bool.or_true] at hblock
      -- The examples are a part of their own on the page, but belong to the block above.
      cases ex with
      | none =>
          exact RereadsBlock.close (o := ⟨.outline, b.reindented argumentIndent, none⟩) hblock
            (by simp [Block.kinds_eq]) (fun hk => absurd hk (by simp)) (fun _ => rfl)
      | some ex =>
          rcases hblock.addExamples hcolor hskip hstage (h.2 ex rfl) with ⟨place', hexamples⟩
          exact RereadsBlock.close (o := ⟨.outline, b.reindented argumentIndent, some ex⟩) hexamples
            (by simp [Block.kinds_eq]) (fun hk => absurd hk (by simp)) (fun hk => absurd rfl hk)

theorem rereads_scenarios (hpage : Rereads options page f hasBackground hasScenario)
    {scenarios : List Scenario} (h : ∀ s ∈ scenarios, s.Printable) :
    ∃ hasScenario', Rereads options (scenarios.foldl (Page.addScenario options) page)
      { f with scenarios := f.scenarios ++ scenarios.map (Scenario.reindented argumentIndent) }
      hasBackground hasScenario' := by
  -- The page and the feature grow together, one scenario at a time.
  induction scenarios generalizing page f hasScenario with
  | nil => exact ⟨hasScenario, by simpa using hpage⟩
  | cons s rest ih =>
      have hfirst := rereads_scenario hcolor hskip hpage (h s List.mem_cons_self)
      rcases ih hfirst (fun x hx => h x (List.mem_cons_of_mem s hx)) with ⟨hasScenario', hrest⟩
      exact ⟨hasScenario', by simpa using hrest⟩

/-- The comments below everything are held back until the end. -/
theorem passes_trailing {texts : List String} (h : ∀ text ∈ texts, IsComment text)
    {kinds : List EventKind} {g : Gist} (hpass : Passes options {} page.lines kinds g)
    (hm : ∀ indent, g.mode ≠ .verbatim indent) :
    ∃ ks, withoutBlanks ks = texts.map (EventKind.comment · false) ∧
      Passes options {}
        (if texts.isEmpty then page else page.addPart (commentLines options 0 texts)).lines kinds
        (g.hold ks) := by
  by_cases hempty : texts.isEmpty = true
  · refine ⟨[], by simp [List.isEmpty_iff.mp hempty], ?_⟩
    rw [if_pos hempty, Gist.hold_nil]
    exact hpass
  -- They stand apart from the last block, so a blank line may be held back before them.
  · rcases Page.addPart_lines page (commentLines options 0 texts) with ⟨gap, hgap, hlines⟩
    rcases passes_gap hgap hm with ⟨blanks, hblanks, hpassGap⟩
    have hcomments := passes_comments hcolor hskip 0 h (g.hold blanks)
      (by rw [Gist.mode_hold]; exact hm)
    refine ⟨blanks ++ texts.map (EventKind.comment · false), ?_, ?_⟩
    · rw [withoutBlanks_append, hblanks, List.nil_append]
      exact withoutBlanks_map (by simp) texts
    · have hall := (hpass.append hpassGap).append hcomments
      rw [List.append_nil, List.append_nil, Gist.hold_hold] at hall
      rw [if_neg hempty, hlines]
      exact hall

/-- The end of a page completes the events of its feature, with the comments
    that were printed last. -/
theorem Rereads.finish (hpage : Rereads options page f hasBackground hasScenario)
    {texts : List String} (h : ∀ text ∈ texts, IsComment text) :
    ∃ kinds g before, Passes options {}
        (if texts.isEmpty then page else page.addPart (commentLines options 0 texts)).lines
        kinds g ∧
      g.finish.map (kinds ++ ·) = some (before ++ [.featureEnd]) ∧
      withoutBlanks before ++ [.featureEnd] = { f with trailing := texts }.kinds := by
  rcases hpage with ⟨kinds, g, hpass, htags, hm, hbody, -, -, hkinds⟩
  rcases passes_trailing hcolor hskip h hpass hm with ⟨ks, hks, hall⟩
  have hheld := Gist.leave_hold g ks
  -- At the end the block that is open is left, and then what was held back comes out.
  have hfinish : (g.hold ks).finish =
      some (g.leave.1 ++ (g.leave.2.trivia ++ ks) ++ [.featureEnd]) := by
    rw [Gist.finish_eq (by rw [hheld]; exact hbody) ((Gist.hold_keeps g ks).1.trans htags)
      (by rw [Gist.mode_hold]; exact hm), hheld]
  refine ⟨kinds, g.hold ks, kinds ++ g.leave.1 ++ g.leave.2.trivia ++ ks, hall, ?_, ?_⟩
  · rw [hfinish]
    simp
  · rw [withoutBlanks_append, hkinds, hks, Feature.kinds_eq]
    rfl

/-- The lines of a printable feature yield its events. -/
theorem featurePage_kinds {t : Feature} (h : t.Printable) :
    ∃ kinds g before, Passes options {} (featurePage options t).lines kinds g ∧
      g.finish.map (kinds ++ ·) = some (before ++ [.featureEnd]) ∧
      withoutBlanks before ++ [.featureEnd] = (t.reindented argumentIndent).kinds := by
  have hopening := rereads_opening hcolor hskip h
  -- The background is printed first or not at all; the rest is the same in both cases.
  have hbackground : ∃ page hasBackground, Rereads options page
      { t with background := t.background.map (Block.reindented argumentIndent),
               scenarios := [], trailing := [] } hasBackground false ∧
      featurePage options t =
        if t.trailing.isEmpty then t.scenarios.foldl (Page.addScenario options) page
        else (t.scenarios.foldl (Page.addScenario options) page).addPart
          (commentLines options 0 t.trailing) := by
    cases hb : t.background with
    | none =>
        refine ⟨⟨openingLines options t⟩, false, by simpa using hopening, ?_⟩
        simp [featurePage, hskip, hb]
    | some b =>
        refine ⟨_, true, rereads_background hcolor hskip hopening rfl rfl (h.background b hb), ?_⟩
        simp [featurePage, hskip, hb]
  rcases hbackground with ⟨page, hasBackground, hbackground, hpage⟩
  rcases rereads_scenarios hcolor hskip hbackground h.scenarios with ⟨hasScenario, hscenarios⟩
  rw [hpage]
  exact hscenarios.finish hcolor hskip h.trailing

end

end Layout

end Gherkin
