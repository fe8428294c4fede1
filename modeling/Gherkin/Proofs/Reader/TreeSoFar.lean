import Gherkin.Proofs.Reader.Simulation
import Gherkin.Proofs.Reader.Legible
import Gherkin.Proofs.Tree.Growth

/-!
# The Tree So Far

The events that the reader has reported when it stands between two lines are
those of a tree that is still open where the reader is. `Gist.Follows` says so
for every phase: which tree there is, what it may still take, and that all its
texts are printable.

What carries the argument is that every item only ever does one of four
things: it holds trivia back, it closes what is open down to some level, it
opens a part below what is open, or it extends a table or a doc string. Each
of the four has a lemma of its own, `Gist.take_follows` puts them together,
and the rest is an induction over the lines.

## Main definitions

* `IsTrivia`: Events of blank lines and of comments on lines of their own.
* `OwnerFollows`, `PlaceFollows`: The events of a block that is open.
* `Gist.Follows`: The events reported before a line are those of a tree.

## Theorems

* `PlaceFollows.close`: Closing an argument leaves a block between two steps.
* `Gist.take_follows`: Every item keeps the account.
* `readEvents_tree`: Accepted documents report the events of a printable tree,
  or trivia alone.
-/

namespace Gherkin

namespace Reader

/-- Events of blank lines and of comments on lines of their own. -/
def IsTrivia (kinds : List EventKind) : Prop :=
  ∀ kind ∈ kinds, kind = .blankLine ∨ ∃ text, kind = .comment text false ∧ IsComment text

theorem isTrivia_nil : IsTrivia [] := by
  intro kind hk
  exact absurd hk (by simp)

theorem IsTrivia.append {a b : List EventKind} (ha : IsTrivia a) (hb : IsTrivia b) :
    IsTrivia (a ++ b) := by
  intro kind hk
  rcases List.mem_append.mp hk with h | h
  · exact ha kind h
  · exact hb kind h

theorem IsTrivia.filter {kinds : List EventKind} (h : IsTrivia kinds) (p : EventKind → Bool) :
    IsTrivia (kinds.filter p) :=
  fun kind hk => h kind (List.mem_of_mem_filter hk)

theorem isTrivia_sideKinds {comment : Option String} (h : ∀ text ∈ comment, IsComment text) :
    IsTrivia (sideKinds comment) := by
  intro kind hk
  rcases List.mem_map.mp hk with ⟨text, htext, rfl⟩
  exact Or.inr ⟨text, rfl, h text (Option.mem_toList.mp htext)⟩

/-- Blank lines are trivia. -/
theorem isTrivia_of_withoutBlanks_eq_nil {kinds : List EventKind}
    (h : withoutBlanks kinds = []) : IsTrivia kinds := by
  intro kind hk
  have hnot := List.filter_eq_nil_iff.mp h kind hk
  exact Or.inl (by simpa using hnot)

/-- Trivia without its blank lines are comments above whatever comes next. -/
theorem IsTrivia.comments {kinds : List EventKind} (h : IsTrivia kinds) :
    ∃ texts : List String, withoutBlanks kinds = texts.map (EventKind.comment · false) ∧
      ∀ text ∈ texts, IsComment text := by
  induction kinds with
  | nil => exact ⟨[], rfl, by simp⟩
  | cons kind rest ih =>
      rcases ih (fun k hk => h k (List.mem_cons_of_mem kind hk)) with ⟨texts, htexts, hall⟩
      -- A blank line adds nothing, a comment its text.
      rcases h kind List.mem_cons_self with rfl | ⟨text, rfl, htext⟩
      · exact ⟨texts, htexts, hall⟩
      · refine ⟨text :: texts, ?_, ?_⟩
        · rw [List.map_cons, ← htexts]
          rfl
        · intro t ht
          rcases List.mem_cons.mp ht with rfl | hmem
          · exact htext
          · exact hall t hmem

@[simp] theorem withoutBlanks_inlineKinds (comment : Option String) :
    withoutBlanks (inlineKinds comment) = inlineKinds comment := by
  cases comment <;> rfl

@[simp] theorem withoutBlanks_closers (place : Place) :
    withoutBlanks place.closers = place.closers := by
  cases place with
  | between stage => rfl
  | argument owner => cases owner <;> rfl
  | table owner columns => cases owner <;> rfl
  | docString indent => rfl

@[simp] theorem withoutBlanks_rowKinds (cells : List String) (comment : Option String) :
    withoutBlanks (rowKinds cells comment) = rowKinds cells comment := by
  refine withoutBlanks_eq_self ?_
  cases comment <;> simp [rowKinds, inlineKinds]

/-- The part that an argument would belong to is open, and has none yet. -/
def OwnerFollows (kind : BlockKind) : Owner → List EventKind → Prop
  | .step, ks => ∃ (b : Block) (st : Step), b.Printable ∧ st.Printable ∧ st.argument = .none ∧
      ks = b.openKinds kind ++ st.openKinds
  | .examples, ks => kind = .outline ∧ ∃ (b : Block) (ex : Examples), b.Printable ∧
      ex.Printable ∧ ex.table = {} ∧ ks = b.openKinds kind ++ ex.openKinds

/-- The events of a block that is open at a place. -/
def PlaceFollows (kind : BlockKind) : Place → List EventKind → Prop
  | .between .steps, ks => ∃ b : Block, b.Printable ∧ ks = b.openKinds kind
  | .between .closed, ks => kind = .outline ∧ ∃ (b : Block) (ex : Examples), b.Printable ∧
      ex.Printable ∧ ks = b.openKinds kind ++ ex.kinds
  | .argument owner, ks => OwnerFollows kind owner ks
  | .table owner columns, ks => ∃ (before : List EventKind) (first : Row) (rest : List Row),
      OwnerFollows kind owner before ∧ 1 ≤ columns ∧
        (∀ row ∈ first :: rest, row.Printable columns) ∧
        ks = before ++ Table.openKinds first rest
  | .docString indent, ks => ∃ (before : List EventKind) (doc : DocString),
      OwnerFollows kind .step before ∧ doc.Printable ∧ doc.comments.inline = none ∧
        doc.indent = indent ∧ ks = before ++ doc.openKinds

/-- A step is closed once its argument has been read. -/
theorem OwnerFollows.closeStep {kind : BlockKind} {ks : List EventKind} (argument : Argument)
    (h : OwnerFollows kind .step ks) (harg : argument.Printable) :
    PlaceFollows kind (.between .steps) (ks ++ argument.kinds ++ [.stepEnd]) := by
  rcases h with ⟨b, st, hb, hst, hnone, rfl⟩
  -- The step joins those of its block, with the argument in place of none.
  refine ⟨{ b with steps := b.steps ++ [{ st with argument }] }, ⟨hb.title, hb.tags, ?_,
    hb.comments⟩, ?_⟩
  · intro step hstep
    rcases List.mem_append.mp hstep with hmem | hmem
    · exact hb.steps step hmem
    · rw [List.mem_singleton.mp hmem]
      exact ⟨hst.keyword, hst.text, hst.tags, harg, hst.comments⟩
  · rw [Block.openKinds_addStep, Step.kinds_eq]
    simp [Step.openKinds]

/-- Examples are closed once their table has been read. -/
theorem OwnerFollows.closeExamples {kind : BlockKind} {ks : List EventKind} (table : Table)
    (h : OwnerFollows kind .examples ks) (htable : table.Printable) :
    PlaceFollows kind (.between .closed)
      (ks ++ (if table.rows.isEmpty then [] else table.kinds) ++ [.examplesEnd]) := by
  rcases h with ⟨rfl, b, ex, hb, hex, hnone, rfl⟩
  refine ⟨rfl, b, { ex with table }, hb, ⟨htable, hex.comments⟩, ?_⟩
  simp [Examples.kinds, Examples.openKinds]

/-- Closing what is open at a place leaves the block between two steps, or
    behind its examples. -/
theorem PlaceFollows.close {kind : BlockKind} {place : Place} {ks : List EventKind}
    (h : PlaceFollows kind place ks) :
    PlaceFollows kind (.between place.stage) (ks ++ place.closers) := by
  cases place with
  | between stage => simpa only [Place.stage, Place.closers, List.append_nil] using h
  -- An argument that never came: the step has none, the examples an empty table.
  | argument owner =>
      cases owner with
      | step =>
          have hclosed := OwnerFollows.closeStep .none h trivial
          rwa [Argument.kinds, List.append_nil] at hclosed
      | examples =>
          have hclosed := OwnerFollows.closeExamples {} h ⟨1, Nat.le_refl 1, by simp⟩
          rwa [if_pos (by rfl), List.append_nil] at hclosed
  | table owner columns =>
      rcases h with ⟨before, first, rest, howner, hpos, hrows, rfl⟩
      have htable : Table.Printable ⟨first :: rest⟩ := ⟨columns, hpos, hrows⟩
      cases owner with
      | step =>
          have hclosed := howner.closeStep (.table ⟨first :: rest⟩) ⟨by simp, htable⟩
          rw [Argument.kinds, Table.kinds_eq] at hclosed
          simpa [Place.stage, Place.closers, Owner.stage, Owner.closer] using hclosed
      | examples =>
          have hclosed := howner.closeExamples ⟨first :: rest⟩ htable
          rw [if_neg (by simp), Table.kinds_eq] at hclosed
          simpa [Place.stage, Place.closers, Owner.stage, Owner.closer] using hclosed
  | docString indent =>
      -- The closing fence is still to come, so no comment stands beside it.
      rcases h with ⟨before, doc, howner, hdoc, hinline, rfl, rfl⟩
      have hclosed := howner.closeStep (.docString doc) hdoc
      rw [Argument.kinds, DocString.kinds_eq, Comments.beside, hinline] at hclosed
      simpa [Place.stage, Place.closers] using hclosed

/-- Closing a block yields the events of a whole block. -/
theorem PlaceFollows.whole {kind : BlockKind} {stage : Stage} {ks : List EventKind}
    (h : PlaceFollows kind (.between stage) ks) :
    ∃ o : OpenBlock, o.kind = kind ∧ o.block.Printable ∧ (∀ e ∈ o.examples, e.Printable) ∧
      (o.kind ≠ .outline → o.examples = none) ∧
      ks ++ [.blockEnd kind] = o.block.kinds o.kind o.examples := by
  cases stage with
  | steps =>
      rcases h with ⟨b, hb, rfl⟩
      refine ⟨⟨kind, b, none⟩, rfl, hb, by simp, fun _ => rfl, ?_⟩
      simp [Block.kinds_eq]
  -- Only outlines have examples behind their steps.
  | closed =>
      rcases h with ⟨rfl, b, ex, hb, hex, rfl⟩
      refine ⟨⟨.outline, b, some ex⟩, rfl, hb, ?_, fun hne => absurd rfl hne, ?_⟩
      · rintro e ⟨⟩
        exact hex
      · simp [Block.kinds_eq]

/-- The feature that has been read apart from a block that is open. What the
    state remembers of its blocks is right. -/
structure Grown (hasBackground hasScenario : Bool) (f : Feature) : Prop where
  printable : f.Printable
  trailing : f.trailing = []
  noBackground : hasBackground = false → f.background = none
  noScenario : hasScenario = false → f.scenarios = []

/-- The heading of the feature and the lines of its description are
    printable, and what waits is trivia. -/
structure Gist.Opening.Sound (o : Gist.Opening) : Prop where
  title : IsPhrase o.title
  tags : ∀ tag ∈ o.tags, IsTag tag
  remarks : ∃ comment : Option String, o.remarks = inlineKinds comment ∧
    ∀ text ∈ comment, IsComment text
  description : IsDescription o.description
  side : IsTrivia o.side
  pending : IsTrivia o.pending

/-- The events of the phase that the reader is in. -/
def Gist.Phase.Follows (hasBackground hasScenario : Bool) (ks : List EventKind) :
    Gist.Phase → Prop
  | .preamble => ks = [] ∧ hasBackground = false ∧ hasScenario = false
  | .opening o => ks = [] ∧ hasBackground = false ∧ hasScenario = false ∧ o.Sound
  | .body => ∃ f : Feature, Grown hasBackground hasScenario f ∧ ks = f.openKinds
  | .block kind place => ∃ (f : Feature) (before : List EventKind),
      Grown hasBackground hasScenario f ∧
      (kind = .background → hasBackground = true ∧ f.background = none ∧ f.scenarios = []) ∧
      (kind ≠ .background → hasScenario = true) ∧
      PlaceFollows kind place before ∧ ks = f.openKinds ++ before

/-- The events reported before a line are those of a tree that is open where
    the reader is, and what waits to be placed is printable too. -/
structure Gist.Follows (g : Gist) (ks : List EventKind) : Prop where
  trivia : IsTrivia g.trivia
  tags : ∀ tag ∈ g.tagNames, IsTag tag
  phase : g.phase.Follows g.hasBackground g.hasScenario ks

namespace Gist

/-- Nothing has been reported before the first line. -/
theorem follows_start : Follows {} [] where
  trivia := isTrivia_nil
  tags := by
    intro tag htag
    exact absurd htag (by simp [tagNames])
  phase := ⟨rfl, rfl, rfl⟩

variable {g : Gist} {ks : List EventKind}

/-- Trivia is held back. -/
theorem Follows.hold (h : g.Follows ks) {kinds : List EventKind} (hk : IsTrivia kinds) :
    (g.hold kinds).Follows ks := by
  rcases g with ⟨phase, trivia, tags, hasBackground, hasScenario⟩
  cases phase with
  -- Below the heading of the feature trivia may turn out to be part of the description.
  | opening o =>
      rcases h.phase with ⟨hks, hb, hs, ho⟩
      exact ⟨h.trivia, h.tags, hks, hb, hs, { ho with pending := ho.pending.append hk }⟩
  | preamble => exact ⟨h.trivia.append hk, h.tags, h.phase⟩
  | body => exact ⟨h.trivia.append hk, h.tags, h.phase⟩
  | block kind place => exact ⟨h.trivia.append hk, h.tags, h.phase⟩

/-- Tags wait with those that wait already. -/
theorem Follows.addTags (h : g.Follows ks) {names : List String}
    (hn : ∀ name ∈ names, IsTag name) : (g.addTags names).Follows ks := by
  refine ⟨h.trivia, ?_, h.phase⟩
  intro tag htag
  rcases List.mem_append.mp htag with hmem | hmem
  · exact h.tags tag hmem
  · exact hn tag hmem

/-- The feature that a sound opening announces. -/
theorem Opening.Sound.announced {o : Opening} (ho : o.Sound) {trivia : List EventKind}
    (ht : IsTrivia trivia) : ∃ f : Feature, f.Printable ∧ f.trailing = [] ∧
      f.background = none ∧ f.scenarios = [] ∧
      withoutBlanks (trivia ++
        .feature o.title ("\n".intercalate o.description) o.tags :: o.remarks) =
        f.openKinds := by
  rcases ho.remarks with ⟨comment, hremarks, hcomment⟩
  rcases ht.comments with ⟨texts, htexts, hall⟩
  refine ⟨⟨o.title, "\n".intercalate o.description, o.tags, none, [], ⟨comment, texts⟩, []⟩,
    ⟨ho.title, ?_, ho.tags, by simp, by simp, ⟨hcomment, hall⟩, by simp⟩, rfl, rfl, rfl, ?_⟩
  -- The description is kept joined; cut again, its lines are those that were read.
  · rw [Feature.descriptionLines_intercalate _ o.description ho.description rfl]
    exact ho.description
  · rw [withoutBlanks_append, htexts, hremarks, withoutBlanks_cons _ (by simp),
      withoutBlanks_inlineKinds]
    simp [Feature.openKinds, Comments.above, Comments.beside, inlineKinds]

/-- Announcing the feature. -/
theorem Follows.announce {o : Opening} (h : g.Follows ks) (hp : g.phase = .opening o) :
    (g.announce o).2.Follows (ks ++ withoutBlanks (g.announce o).1) := by
  have hphase := h.phase
  rw [hp] at hphase
  rcases hphase with ⟨rfl, hb, hs, ho⟩
  rcases ho.announced h.trivia with ⟨f, hf, htrail, hback, hscen, hkinds⟩
  refine ⟨ho.side.append ho.pending, h.tags, f, ⟨hf, htrail, fun _ => hback, fun _ => hscen⟩, ?_⟩
  rw [List.nil_append]
  exact hkinds

/-- Ending the description, or the step or examples that are open. -/
theorem Follows.settle (h : g.Follows ks) :
    g.settle.2.Follows (ks ++ withoutBlanks g.settle.1) := by
  rcases g with ⟨phase, trivia, tags, hasBackground, hasScenario⟩
  cases phase with
  | opening o => exact h.announce rfl
  | preamble => simpa [Gist.settle] using h
  | body => simpa [Gist.settle] using h
  | block kind place =>
      rcases h.phase with ⟨f, before, hf, hback, hscen, hplace, rfl⟩
      refine ⟨h.trivia, h.tags, f, before ++ place.closers, hf, hback, hscen, hplace.close, ?_⟩
      rw [← List.append_assoc]
      exact congrArg _ (withoutBlanks_closers place)

/-- A feature with a further block. -/
theorem grown_addBlock {hasBackground hasScenario : Bool} {f : Feature} {o : OpenBlock}
    (hf : Grown hasBackground hasScenario f) (hb : o.block.Printable)
    (hex : ∀ e ∈ o.examples, e.Printable)
    (hback : o.kind = .background → hasBackground = true ∧ f.background = none ∧ f.scenarios = [])
    (hscen : o.kind ≠ .background → hasScenario = true) :
    Grown hasBackground hasScenario (Assembly.addBlock f o) := by
  rcases o with ⟨kind, block, examples⟩
  have hprint := hf.printable
  have hmore : ∀ s : Scenario, s.Printable →
      ∀ scenario ∈ f.scenarios ++ [s], scenario.Printable := by
    intro s hs scenario hmem
    rcases List.mem_append.mp hmem with hold | hnew
    · exact hprint.scenarios scenario hold
    · rw [List.mem_singleton.mp hnew]
      exact hs
  cases kind with
  | background =>
      have hroom := hback rfl
      refine ⟨{ hprint with background := ?_ }, hf.trailing, ?_, hf.noScenario⟩
      · rintro b ⟨⟩
        exact hb
      · intro hno
        rw [hroom.1] at hno
        exact absurd hno (by decide)
  | scenario =>
      have htrue := hscen (by simp)
      refine ⟨{ hprint with scenarios := hmore _ hb }, hf.trailing, hf.noBackground, ?_⟩
      intro hno
      rw [htrue] at hno
      exact absurd hno (by decide)
  | outline =>
      have htrue := hscen (by simp)
      refine ⟨{ hprint with scenarios := hmore _ ⟨hb, hex⟩ }, hf.trailing, hf.noBackground, ?_⟩
      intro hno
      rw [htrue] at hno
      exact absurd hno (by decide)

/-- Ending the description, or the block that is open. -/
theorem Follows.leave (h : g.Follows ks) :
    g.leave.2.Follows (ks ++ withoutBlanks g.leave.1) := by
  rcases g with ⟨phase, trivia, tags, hasBackground, hasScenario⟩
  cases phase with
  | opening o => exact h.announce rfl
  | preamble => simpa [Gist.leave] using h
  | body => simpa [Gist.leave] using h
  | block kind place =>
      rcases h.phase with ⟨f, before, hf, hback, hscen, hplace, rfl⟩
      rcases hplace.close.whole with ⟨o, rfl, hb, hex, hnone, hkinds⟩
      refine ⟨h.trivia, h.tags, Assembly.addBlock f o, grown_addBlock hf hb hex hback hscen, ?_⟩
      rw [Feature.openKinds_addBlock f o (fun hk => (hback hk).2) hnone, ← hkinds]
      simp [Gist.leave]

/-- A further line of description. The blank lines before it now belong to the
    description, unless it is the first. -/
theorem Opening.Sound.addLine {o : Opening} (ho : o.Sound) {text : String}
    {comment : Option String} (htext : IsProse text) (hc : ∀ c ∈ comment, IsComment c) :
    (o.addLine text comment).Sound := by
  have hside := isTrivia_sideKinds hc
  unfold Opening.addLine
  cases hd : o.description with
  | nil =>
      refine { ho with description := ?_, side := ?_, pending := isTrivia_nil }
      · refine ⟨?_, ?_, ?_⟩
        · simpa using htext.ne_empty
        · simpa using htext.ne_empty
        · intro line hline _
          rw [List.mem_singleton.mp hline]
          exact htext
      · exact (ho.side.append ho.pending).append hside
  | cons first rest =>
      have hold := ho.description
      rw [hd] at hold
      simp only [List.isEmpty_cons, Bool.false_eq_true, if_false]
      refine { ho with description := ?_, side := ?_, pending := isTrivia_nil }
      · refine ⟨?_, ?_, ?_⟩
        · simpa using hold.first
        · rw [List.getLast?_append]
          simpa using htext.ne_empty
        · intro line hline hne
          rcases List.mem_append.mp hline with hmem | hmem
          · rcases List.mem_append.mp hmem with hbefore | hblank
            · exact hold.prose line hbefore hne
            · rcases List.mem_map.mp hblank with ⟨_, _, rfl⟩
              exact absurd rfl hne
          · rw [List.mem_singleton.mp hmem]
            exact htext
      · exact (ho.side.append (ho.pending.filter _)).append hside

/-- The heading of the feature. -/
theorem Follows.feature (h : g.Follows ks) (hp : g.phase = .preamble) {title : String}
    {comment : Option String} (htitle : IsPhrase title) (hc : ∀ c ∈ comment, IsComment c) :
    Follows { g with
      phase := .opening ⟨title, g.tagNames, inlineKinds comment, [], [], []⟩
      tags := none } ks := by
  have hphase := h.phase
  rw [hp] at hphase
  rcases hphase with ⟨hks, hb, hs⟩
  refine ⟨h.trivia, by simp [tagNames], hks, hb, hs, htitle, h.tags, ⟨comment, rfl, hc⟩, ?_,
    isTrivia_nil, isTrivia_nil⟩
  exact ⟨by simp, by simp, by simp⟩

/-- The comments of a part: those that waited, and the one beside it. -/
theorem Follows.comments (h : g.Follows ks) {comment : Option String}
    (hc : ∀ c ∈ comment, IsComment c) :
    ∃ cs : Comments, cs.Printable ∧ cs.inline = comment ∧
      withoutBlanks g.trivia = cs.above ∧ inlineKinds comment = cs.beside := by
  rcases h.trivia.comments with ⟨texts, htexts, hall⟩
  exact ⟨⟨comment, texts⟩, ⟨hc, hall⟩, rfl, htexts, rfl⟩

/-- A block opens in the body of the feature. -/
theorem Follows.openBlock (h : g.Follows ks) {kind : BlockKind} {title : String}
    {comment : Option String} {kinds : List EventKind} {next : Gist} (htitle : IsTitle title)
    (hc : ∀ c ∈ comment, IsComment c)
    (hopen : g.openBlock kind title comment = some (kinds, next)) :
    next.Follows (ks ++ withoutBlanks kinds) := by
  -- The heading is only taken in the body, and a background only before all others.
  unfold Gist.openBlock at hopen
  split at hopen
  · rename_i hcond
    rcases hcond with ⟨hbody, hadmits⟩
    simp only [Option.some.injEq, Prod.mk.injEq] at hopen
    rcases hopen with ⟨rfl, rfl⟩
    have hphase := h.phase
    rw [hbody] at hphase
    rcases hphase with ⟨f, hf, rfl⟩
    rcases h.comments hc with ⟨cs, hcs, -, habove, hbeside⟩
    refine ⟨isTrivia_nil, by simp [tagNames], f, _, ?_, ?_, ?_,
      ⟨⟨title, g.tagNames, [], cs⟩, ⟨htitle, h.tags, by simp, hcs⟩, rfl⟩, ?_⟩
    -- What the state remembers now covers the block that opens, not only the feature.
    · refine ⟨hf.printable, hf.trailing, ?_, ?_⟩
      · intro hno
        exact hf.noBackground (by simp only [Bool.or_eq_false_iff] at hno; exact hno.1)
      · intro hno
        exact hf.noScenario (by simp only [Bool.or_eq_false_iff] at hno; exact hno.1)
    · rintro rfl
      simp only [admits, bne_self_eq_false, Bool.false_or, Bool.and_eq_true, Bool.not_eq_true']
        at hadmits
      exact ⟨by simp, hf.noBackground hadmits.1, hf.noScenario hadmits.2⟩
    · intro hne
      simp [hne]
    · rw [withoutBlanks_append, habove, withoutBlanks_cons _ (by simp),
        withoutBlanks_inlineKinds, hbeside]
      simp [Block.openKinds]
  · exact absurd hopen (by simp only [reduceCtorEq, not_false_eq_true])

/-- A step opens in a block that takes steps. -/
theorem Follows.step (h : g.Follows ks) {kind : BlockKind} {place : Place}
    (hp : g.phase = .block kind place) (hstage : place.stage = .steps) {keyword : StepKeyword}
    {text : String} {comment : Option String} (hkeyword : keyword ≠ .or) (htext : IsPhrase text)
    (hc : ∀ c ∈ comment, IsComment c) :
    (g.opened kind (.argument .step)).Follows (ks ++ withoutBlanks
      (place.closers ++ g.trivia ++ .step keyword text g.tagNames :: inlineKinds comment)) := by
  have hphase := h.phase
  rw [hp] at hphase
  rcases hphase with ⟨f, before, hf, hback, hscen, hplace, rfl⟩
  -- The step before is closed first; what is left is a block that takes steps.
  have hclosed := hplace.close
  rw [hstage] at hclosed
  rcases hclosed with ⟨b, hb, hbefore⟩
  rcases h.comments hc with ⟨cs, hcs, -, habove, hbeside⟩
  refine ⟨isTrivia_nil, by simp [tagNames, opened], f, _, hf, hback, hscen,
    ⟨b, ⟨keyword, text, g.tagNames, .none, cs⟩, hb,
      ⟨hkeyword, htext, h.tags, trivial, hcs⟩, rfl, rfl⟩, ?_⟩
  rw [withoutBlanks_append, withoutBlanks_append, habove, withoutBlanks_cons _ (by simp),
    withoutBlanks_inlineKinds, withoutBlanks_closers, hbeside, ← hbefore]
  simp [Step.openKinds]

/-- Examples open in an outline that takes steps. -/
theorem Follows.examples (h : g.Follows ks) {place : Place}
    (hp : g.phase = .block .outline place) (hstage : place.stage = .steps)
    {comment : Option String} (hc : ∀ c ∈ comment, IsComment c) :
    (g.opened .outline (.argument .examples)).Follows (ks ++ withoutBlanks
      (place.closers ++ g.trivia ++ .examples :: inlineKinds comment)) := by
  have hphase := h.phase
  rw [hp] at hphase
  rcases hphase with ⟨f, before, hf, hback, hscen, hplace, rfl⟩
  -- As with a step, the last step of the outline is closed first.
  have hclosed := hplace.close
  rw [hstage] at hclosed
  rcases hclosed with ⟨b, hb, hbefore⟩
  rcases h.comments hc with ⟨cs, hcs, -, habove, hbeside⟩
  refine ⟨isTrivia_nil, by simp [tagNames, opened], f, _, hf, hback, hscen,
    ⟨rfl, b, ⟨{}, cs⟩, hb, ⟨⟨1, Nat.le_refl 1, by simp⟩, hcs⟩, rfl, rfl⟩, ?_⟩
  rw [withoutBlanks_append, withoutBlanks_append, habove, withoutBlanks_cons _ (by simp),
    withoutBlanks_inlineKinds, withoutBlanks_closers, hbeside, ← hbefore]
  simp [Examples.openKinds]

/-- The events of a row on a line are those of a row of a tree. -/
theorem Follows.row (h : g.Follows ks) {cells : List String} {comment : Option String}
    (hcells : ∀ cell ∈ cells, IsCell cell)
    (hc : ∀ text ∈ comment, IsComment text ∧ ∀ c ∈ text.toList, c ≠ '|') :
    ∃ row : Row, row.Printable cells.length ∧ withoutBlanks g.trivia = row.comments.above ∧
      rowKinds cells comment = row.kinds := by
  rcases h.comments (fun text ht => (hc text ht).1) with ⟨cs, hcs, hinline, habove, hbeside⟩
  refine ⟨⟨cells, cs⟩, ⟨rfl, hcells, hcs, ?_⟩, habove, ?_⟩
  · intro text ht
    rw [hinline] at ht
    exact (hc text ht).2
  · simp only [rowKinds, Row.kinds, hbeside]

/-- The first row opens a table. -/
theorem Follows.firstRow (h : g.Follows ks) {kind : BlockKind} {owner : Owner}
    (hp : g.phase = .block kind (.argument owner)) {cells : List String} {comment : Option String}
    (hne : cells ≠ []) (hcells : ∀ cell ∈ cells, IsCell cell)
    (hc : ∀ text ∈ comment, IsComment text ∧ ∀ c ∈ text.toList, c ≠ '|') :
    Follows { g with phase := .block kind (.table owner cells.length), trivia := [] }
      (ks ++ withoutBlanks (g.trivia ++ .table :: rowKinds cells comment)) := by
  have hphase := h.phase
  rw [hp] at hphase
  rcases hphase with ⟨f, before, hf, hback, hscen, howner, rfl⟩
  rcases h.row hcells hc with ⟨row, hrow, habove, hkinds⟩
  -- A row has at least one cell, so the table has at least one column.
  refine ⟨isTrivia_nil, h.tags, f, _, hf, hback, hscen,
    ⟨before, row, [], howner, List.length_pos_of_ne_nil hne, ?_, rfl⟩, ?_⟩
  · intro r hr
    rw [List.mem_singleton.mp hr]
    exact hrow
  · rw [withoutBlanks_append, habove, withoutBlanks_cons _ (by simp), withoutBlanks_rowKinds,
      hkinds]
    simp [Table.openKinds, Table.laterKinds]

/-- A further row has as many cells as the others. -/
theorem Follows.nextRow (h : g.Follows ks) {kind : BlockKind} {owner : Owner}
    {cells : List String} (hp : g.phase = .block kind (.table owner cells.length))
    {comment : Option String} (hcells : ∀ cell ∈ cells, IsCell cell)
    (hc : ∀ text ∈ comment, IsComment text ∧ ∀ c ∈ text.toList, c ≠ '|') :
    Follows { g with phase := .block kind (.table owner cells.length), trivia := [] }
      (ks ++ withoutBlanks (g.trivia ++ rowKinds cells comment)) := by
  have hphase := h.phase
  rw [hp] at hphase
  rcases hphase with ⟨f, _, hf, hback, hscen, ⟨before, first, rest, howner, hpos, hrows, rfl⟩, rfl⟩
  rcases h.row hcells hc with ⟨row, hrow, habove, hkinds⟩
  -- The comments above the row are no part of its events, but come right before them.
  refine ⟨isTrivia_nil, h.tags, f, _, hf, hback, hscen,
    ⟨before, first, rest ++ [row], howner, hpos, ?_, rfl⟩, ?_⟩
  · intro r hr
    rw [← List.cons_append] at hr
    rcases List.mem_append.mp hr with hold | hnew
    · exact hrows r hold
    · rw [List.mem_singleton.mp hnew]
      exact hrow
  · rw [withoutBlanks_append, habove, withoutBlanks_rowKinds, hkinds, Table.openKinds_addRow]
    simp

/-- A fence opens a doc string. -/
theorem Follows.openFence (h : g.Follows ks) {kind : BlockKind}
    (hp : g.phase = .block kind (.argument .step)) (indent : Nat) :
    Follows { g with phase := .block kind (.docString indent), trivia := [] }
      (ks ++ withoutBlanks (g.trivia ++ [.docString indent])) := by
  have hphase := h.phase
  rw [hp] at hphase
  rcases hphase with ⟨f, before, hf, hback, hscen, howner, rfl⟩
  rcases h.trivia.comments with ⟨texts, htexts, hall⟩
  refine ⟨isTrivia_nil, h.tags, f, _, hf, hback, hscen,
    ⟨before, ⟨indent, [], ⟨none, texts⟩⟩, howner, ⟨by simp, ⟨by simp, hall⟩⟩, rfl, rfl, rfl⟩, ?_⟩
  rw [withoutBlanks_append, htexts]
  simp [DocString.openKinds, Comments.above]

/-- A further line of a doc string. -/
theorem Follows.docLine (h : g.Follows ks) {kind : BlockKind} {indent : Nat}
    (hp : g.phase = .block kind (.docString indent)) {text : String} (htext : IsDocLine text) :
    g.Follows (ks ++ [.docLine text]) := by
  have hphase := h.phase
  rw [hp] at hphase
  rcases hphase with ⟨f, _, hf, hback, hscen,
    ⟨before, doc, howner, hdoc, hinline, hindent, rfl⟩, rfl⟩
  refine ⟨h.trivia, h.tags, ?_⟩
  rw [hp]
  refine ⟨f, _, hf, hback, hscen, ⟨before, { doc with lines := doc.lines ++ [text] }, howner,
    ⟨?_, hdoc.comments⟩, hinline, hindent, rfl⟩, ?_⟩
  · intro line hline
    rcases List.mem_append.mp hline with hold | hnew
    · exact hdoc.lines line hold
    · rw [List.mem_singleton.mp hnew]
      exact htext
  · rw [DocString.openKinds_addLine]
    simp

/-- The closing fence of a doc string, which may have a comment beside it. -/
theorem Follows.closeFence (h : g.Follows ks) {kind : BlockKind} {indent : Nat}
    (hp : g.phase = .block kind (.docString indent)) {comment : Option String}
    (hc : ∀ c ∈ comment, IsComment c) :
    Follows { g with phase := .block kind (.between .steps) }
      (ks ++ withoutBlanks (inlineKinds comment ++ [.docStringEnd, .stepEnd])) := by
  have hphase := h.phase
  rw [hp] at hphase
  rcases hphase with ⟨f, _, hf, hback, hscen,
    ⟨before, doc, howner, hdoc, hinline, hindent, rfl⟩, rfl⟩
  -- Only now is it known which comment stands beside the fence.
  have hclosed := howner.closeStep
    (.docString { doc with comments := { doc.comments with inline := comment } })
    ⟨hdoc.lines, hc, hdoc.comments.leading⟩
  refine ⟨h.trivia, h.tags, f, _, hf, hback, hscen, hclosed, ?_⟩
  rw [withoutBlanks_append, withoutBlanks_inlineKinds]
  simp [Argument.kinds, DocString.kinds, DocString.openKinds, Comments.above, Comments.beside,
    inlineKinds]

/-- Every item keeps the account. -/
theorem take_follows {item : Item} {kinds : List EventKind} {next : Gist} (h : g.Follows ks)
    (hi : item.Printable) (ht : g.take item = some (kinds, next)) :
    next.Follows (ks ++ withoutBlanks kinds) := by
  cases takes_of_take ht with
  | blank =>
      rw [withoutBlanks_nil, List.append_nil]
      exact h.hold (by intro kind hk; exact Or.inl (List.mem_singleton.mp hk))
  | comment text =>
      rw [withoutBlanks_nil, List.append_nil]
      exact h.hold (by intro kind hk; exact Or.inr ⟨text, List.mem_singleton.mp hk, hi⟩)
  -- Tags end the step above them, then wait for the part below.
  | tags names remark => exact (h.settle.addTags hi.1).hold (isTrivia_sideKinds hi.2)
  | feature title remark hp =>
      rw [withoutBlanks_nil, List.append_nil]
      exact h.feature hp hi.1 hi.2
  | prose text remark opening hp =>
      rw [withoutBlanks_nil, List.append_nil]
      have hphase := h.phase
      rw [hp] at hphase
      rcases hphase with ⟨hks, hb, hs, ho⟩
      exact ⟨h.trivia, h.tags, hks, hb, hs, ho.addLine hi.1 hi.2⟩
  | block kind title remark kinds next hopen =>
      -- The block that was open is closed first, with its own events.
      rw [withoutBlanks_append, ← List.append_assoc]
      exact h.leave.openBlock hi.1 hi.2 hopen
  | step keyword text remark kind place hp hstage =>
      exact h.step hp hstage hi.1 hi.2.1 hi.2.2
  | examples remark place hp hstage htags => exact h.examples hp hstage hi
  | firstRow cells remark kind owner hp => exact h.firstRow hp hi.1 hi.2.1 hi.2.2
  | nextRow cells remark kind owner hp => exact h.nextRow hp hi.2.1 hi.2.2
  -- A fence behind a step opens its doc string, one in a doc string closes it.
  | openFence indent kind hp => exact h.openFence hp indent
  | closeFence indent remark kind opened hp => exact h.closeFence hp hi
  | docLine text kind indent hp =>
      rw [withoutBlanks_cons _ (by simp), withoutBlanks_nil]
      exact h.docLine hp hi

/-- The end of the document completes the tree, if there is one. -/
theorem finish_follows {kinds : List EventKind} (h : g.Follows ks) (hf : g.finish = some kinds) :
    (∃ t : Feature, t.Printable ∧ ∃ before, kinds = before ++ [.featureEnd] ∧
      ks ++ withoutBlanks before ++ [.featureEnd] = t.kinds) ∨ (ks = [] ∧ IsTrivia kinds) := by
  have hleft := h.leave
  -- With a feature, the comments that wait become the trailing ones.
  have hbody : (∃ f : Feature, Grown g.leave.2.hasBackground g.leave.2.hasScenario f ∧
      ks ++ withoutBlanks g.leave.1 = f.openKinds) →
      kinds = g.leave.1 ++ g.leave.2.trivia ++ [.featureEnd] →
      ∃ t : Feature, t.Printable ∧ ∃ before, kinds = before ++ [.featureEnd] ∧
        ks ++ withoutBlanks before ++ [.featureEnd] = t.kinds := by
    rintro ⟨f, hgrown, hks⟩ hkinds
    rcases hleft.trivia.comments with ⟨texts, htexts, hall⟩
    refine ⟨{ f with trailing := texts }, { hgrown.printable with trailing := hall },
      g.leave.1 ++ g.leave.2.trivia, hkinds, ?_⟩
    rw [withoutBlanks_append, ← List.append_assoc, hks, htexts]
    rfl
  unfold finish at hf
  split at hf
  -- No feature: only trivia has been read.
  · rename_i hp
    split at hf
    · have hphase := h.phase
      rw [hp] at hphase
      simp only [Option.some.injEq] at hf
      exact Or.inr ⟨hphase.1, hf ▸ h.trivia⟩
    · exact absurd hf (by simp only [reduceCtorEq, not_false_eq_true])
  · exact absurd hf (by simp only [reduceCtorEq, not_false_eq_true])
  -- Everything else leaves for the body of the feature first.
  · rename_i hpre hdoc
    split at hf
    · refine Or.inl (hbody ?_ (by simpa using hf.symm))
      have hphase := hleft.phase
      have hleave : g.leave.2.phase = .body := by
        unfold leave
        cases hp : g.phase with
        | preamble => exact absurd hp hpre
        | opening o => rfl
        | body => exact hp
        | block kind place => rfl
      rw [hleave] at hphase
      exact hphase
    · exact absurd hf (by simp only [reduceCtorEq, not_false_eq_true])

/-- The rest of a document completes the tree, if there is one. -/
theorem run_follows {texts : List (List Char)} {kinds : List EventKind}
    (h : g.Follows ks) (hl : ∀ text ∈ texts, Source.Unbroken text) (hr : g.run texts = some kinds) :
    (∃ t : Feature, t.Printable ∧ ∃ before, kinds = before ++ [.featureEnd] ∧
      ks ++ withoutBlanks before ++ [.featureEnd] = t.kinds) ∨ (ks = [] ∧ IsTrivia kinds) := by
  -- The account so far is kept line by line; the end of the document settles it.
  induction texts generalizing g ks kinds with
  | nil => exact finish_follows h hr
  | cons text rest ih =>
      simp only [run, step, Option.bind_eq_some_iff, Option.map_eq_some_iff] at hr
      rcases hr with ⟨⟨first, next⟩, ⟨item, hitem, htake⟩, more, hmore, rfl⟩
      have hprint := Item.read?_printable (hl text List.mem_cons_self) hitem
      have hnext := take_follows h hprint htake
      rcases ih hnext (fun t ht => hl t (List.mem_cons_of_mem text ht)) hmore with
        ⟨t, ht, before, rfl, hkinds⟩ | ⟨hks, htrivia⟩
      · refine Or.inl ⟨t, ht, first ++ before, by simp, ?_⟩
        rw [← hkinds, withoutBlanks_append]
        simp
      -- No tree at the end means that this line gave blank lines at most.
      · rw [List.append_eq_nil_iff] at hks
        exact Or.inr ⟨hks.1, (isTrivia_of_withoutBlanks_eq_nil hks.2).append htrivia⟩

end Gist

/-- An accepted document reports the events of a printable tree, or trivia
    alone. -/
theorem readEvents_tree {source : String} {events : List Event}
    (h : readEvents source = .ok events) :
    (∃ t : Feature, t.Printable ∧ ∃ before, events.map Event.kind = before ++ [.featureEnd] ∧
      withoutBlanks before ++ [.featureEnd] = t.kinds) ∨ IsTrivia (events.map Event.kind) := by
  have hrun := readEvents_gist source
  rw [h] at hrun
  rcases Gist.run_follows Gist.follows_start (Source.unbroken_lines source) hrun.symm with
    ⟨t, ht, before, hkinds, htree⟩ | ⟨-, htrivia⟩
  · exact Or.inl ⟨t, ht, before, hkinds, htree⟩
  · exact Or.inr htrivia

end Reader

end Gherkin
