import Mathlib.Computability.Language
import Gherkin.Proofs.Agreement

/-!
# The Grammar of Events

Which lists of events a document can have. Blank lines and comments can stand
almost anywhere, so they are left out; what remains is a regular language but
for one thing, that the rows of a table have the same number of cells, and a
union over that number says so.

The grammar is written with the operations on languages: a product for one
thing after another, a sum for a choice, a star for repetition. Every node of
a printable tree has its events in the language of its kind, so this is an
induction over trees and needs nothing of the reader but `readEvents_tree`.

## Main definitions

* `structural`: Events without blank lines and comments.
* `EventGrammar.document`: The lists of events that documents have.
* `unclosed`: What is still open behind a list of events.

## Theorems

* `Feature.structural_mem`: The events of a printable tree.
* `Feature.unclosed_kinds`: The events of any tree are balanced.
* `readEvents_grammar`: The events of documents are in the grammar.
-/

namespace Gherkin

open scoped Computability

/-- Whether an event is a blank line or a comment. -/
def EventKind.isAside : EventKind → Bool
  | .blankLine | .comment .. => true
  | _ => false

/-- Events without blank lines and comments. -/
def structural (kinds : List EventKind) : List EventKind :=
  kinds.filter (fun kind => !kind.isAside)

namespace EventGrammar

/-- One event. -/
def event (kind : EventKind) : Language EventKind :=
  {[kind]}

/-- One event of those that a property allows. -/
def anyEvent (p : EventKind → Prop) : Language EventKind :=
  {word | ∃ kind, p kind ∧ word = [kind]}

/-- Something that may be missing. -/
def optional (part : Language EventKind) : Language EventKind :=
  1 + part

/-- A row of so many cells. -/
def row (columns : Nat) : Language EventKind :=
  event .row * anyEvent (fun kind => ∃ content, kind = .cell content) ^ columns * event .rowEnd

/-- A table: at least one row, and all rows of the same length, which is not
    zero. -/
def table : Language EventKind :=
  {kinds | ∃ columns, 1 ≤ columns ∧
    kinds ∈ event .table * (row columns * (row columns)∗) * event .tableEnd}

/-- A doc string. -/
def docString : Language EventKind :=
  anyEvent (fun kind => ∃ indent, kind = .docString indent) *
    (anyEvent (fun kind => ∃ text, kind = .docLine text))∗ * event .docStringEnd

/-- A step with at most one argument. -/
def step : Language EventKind :=
  anyEvent (fun kind => ∃ keyword text tags, kind = .step keyword text tags) *
    optional (docString + table) * event .stepEnd

/-- The examples of an outline. -/
def examples : Language EventKind :=
  event .examples * optional table * event .examplesEnd

/-- A block of a kind, and what may follow its steps. -/
def block (kind : BlockKind) (end_ : Language EventKind) : Language EventKind :=
  anyEvent (fun k => ∃ title tags, k = .block kind title tags) * step∗ * end_ *
    event (.blockEnd kind)

/-- A document: a feature with at most one background before its scenarios and
    outlines. -/
def document : Language EventKind :=
  anyEvent (fun kind => ∃ title description tags, kind = .feature title description tags) *
    optional (block .background 1) *
    (block .scenario 1 + block .outline (optional examples))∗ * event .featureEnd

end EventGrammar

open EventGrammar

@[simp] theorem structural_nil : structural [] = [] := rfl

@[simp] theorem structural_append (a b : List EventKind) :
    structural (a ++ b) = structural a ++ structural b :=
  List.filter_append a b

@[simp] theorem structural_comments (texts : List String) (inline : Bool) :
    structural (texts.map (EventKind.comment · inline)) = [] := by
  simp [structural, EventKind.isAside]

@[simp] theorem structural_above (comments : Comments) : structural comments.above = [] :=
  structural_comments comments.leading false

@[simp] theorem structural_beside (comments : Comments) : structural comments.beside = [] :=
  structural_comments comments.inline.toList true

@[simp] theorem structural_cons {kind : EventKind} (rest : List EventKind)
    (hblank : kind ≠ .blankLine) (hcomment : ∀ text inline, kind ≠ .comment text inline) :
    structural (kind :: rest) = kind :: structural rest := by
  have hkeep : kind.isAside = false := by
    cases kind with
    | blankLine => exact absurd rfl hblank
    | comment text inline => exact absurd rfl (hcomment text inline)
    | _ => rfl
  simp [structural, hkeep]

theorem structural_flatMap {α : Type} (f : α → List EventKind) (as : List α) :
    structural (as.flatMap f) = (as.map (fun a => structural (f a))).flatten := by
  induction as with
  | nil => rfl
  | cons a rest ih => simp [ih]

theorem structural_withoutBlanks (kinds : List EventKind) :
    structural (withoutBlanks kinds) = structural kinds := by
  unfold structural withoutBlanks
  rw [List.filter_filter]
  congr 1
  funext kind
  cases kind <;> rfl

/-- Parts of one language after another are in the star of the language. -/
theorem structural_flatMap_mem {α : Type} {f : α → List EventKind} {as : List α}
    {part : Language EventKind} (h : ∀ a ∈ as, structural (f a) ∈ part) :
    structural (as.flatMap f) ∈ part∗ := by
  rw [structural_flatMap]
  refine Language.mem_kstar.mpr ⟨_, rfl, ?_⟩
  intro word hword
  rcases List.mem_map.mp hword with ⟨a, ha, rfl⟩
  exact h a ha

theorem mem_event (kind : EventKind) : [kind] ∈ event kind := rfl

theorem mem_anyEvent {p : EventKind → Prop} {kind : EventKind} (h : p kind) :
    [kind] ∈ anyEvent p := ⟨kind, h, rfl⟩

/-- The cells of a row. -/
theorem cells_mem (cells : List String) :
    cells.map EventKind.cell ∈
      anyEvent (fun kind => ∃ content, kind = .cell content) ^ cells.length := by
  induction cells with
  | nil => exact Language.nil_mem_one
  | cons content rest ih =>
      rw [List.length_cons, pow_succ', List.map_cons, ← List.singleton_append]
      exact Language.append_mem_mul (mem_anyEvent ⟨content, rfl⟩) ih

theorem Row.structural_mem {columns : Nat} {row : Row} (h : row.Printable columns) :
    structural row.kinds ∈ EventGrammar.row columns := by
  -- Cells are kept, and the comment behind them is not.
  have hcells : structural (row.cells.map EventKind.cell) = row.cells.map EventKind.cell := by
    refine List.filter_eq_self.mpr (fun kind hk => ?_)
    rcases List.mem_map.mp hk with ⟨content, -, rfl⟩
    rfl
  have hkinds : structural row.kinds =
      [EventKind.row] ++ row.cells.map EventKind.cell ++ [.rowEnd] := by
    rw [Row.kinds, List.cons_append, List.cons_append, structural_cons _ (by simp) (by simp),
      structural_append, structural_append, hcells, structural_beside, List.append_nil]
    rfl
  rw [hkinds, ← h.length]
  exact Language.append_mem_mul
    (Language.append_mem_mul (mem_event _) (cells_mem row.cells)) (mem_event _)

theorem Table.structural_mem {grid : Table} (h : grid.Printable) (hne : grid.rows ≠ []) :
    structural grid.kinds ∈ EventGrammar.table := by
  rcases grid with ⟨rows⟩
  rcases h with ⟨columns, hpos, hrows⟩
  cases rows with
  | nil => exact absurd rfl hne
  | cons first rest =>
      have hkinds : structural (Table.kinds ⟨first :: rest⟩) =
          [EventKind.table] ++ (structural first.kinds ++ structural (Table.laterKinds rest)) ++
            [.tableEnd] := by
        rw [Table.kinds_eq, Table.openKinds, List.append_assoc, List.append_assoc,
          structural_append, structural_above, List.cons_append,
          structural_cons _ (by simp) (by simp), structural_append, structural_append]
        simp
      -- The comments above a later row drop out, and only the row is left.
      have hrest : structural (Table.laterKinds rest) ∈ (EventGrammar.row columns)∗ := by
        refine structural_flatMap_mem (fun row hrow => ?_)
        rw [structural_append, structural_above, List.nil_append]
        exact Row.structural_mem (hrows row (List.mem_cons_of_mem first hrow))
      rw [hkinds]
      refine ⟨columns, hpos, Language.append_mem_mul (Language.append_mem_mul (mem_event _) ?_)
        (mem_event _)⟩
      exact Language.append_mem_mul (Row.structural_mem (hrows first List.mem_cons_self)) hrest

theorem DocString.structural_mem (doc : DocString) :
    structural doc.kinds ∈ EventGrammar.docString := by
  have hlines : structural (doc.lines.map EventKind.docLine) =
      structural (doc.lines.flatMap (fun line => [EventKind.docLine line])) := by
    rw [List.map_eq_flatMap]
  have hkinds : structural doc.kinds =
      [EventKind.docString doc.indent] ++
        structural (doc.lines.flatMap (fun line => [EventKind.docLine line])) ++
        [.docStringEnd] := by
    rw [DocString.kinds, ← hlines]
    simp
  rw [hkinds]
  refine Language.append_mem_mul (Language.append_mem_mul (mem_anyEvent ⟨_, rfl⟩) ?_) (mem_event _)
  exact structural_flatMap_mem (fun line _ => mem_anyEvent ⟨line, rfl⟩)

theorem Argument.structural_mem {argument : Argument} (h : argument.Printable) :
    structural argument.kinds ∈ optional (EventGrammar.docString + EventGrammar.table) := by
  cases argument with
  | none => exact Or.inl Language.nil_mem_one
  | docString doc => exact Or.inr (Or.inl doc.structural_mem)
  | table grid => exact Or.inr (Or.inr (Table.structural_mem h.2 h.1))

theorem Step.structural_mem {st : Step} (h : st.Printable) :
    structural st.kinds ∈ EventGrammar.step := by
  have hkinds : structural st.kinds =
      [EventKind.step st.keyword st.text st.tags] ++ structural st.argument.kinds ++
        [.stepEnd] := by
    simp [Step.kinds]
  rw [hkinds]
  exact Language.append_mem_mul (Language.append_mem_mul (mem_anyEvent ⟨_, _, _, rfl⟩)
    (Argument.structural_mem h.argument)) (mem_event _)

theorem Examples.structural_mem {ex : Examples} (h : ex.Printable) :
    structural ex.kinds ∈ EventGrammar.examples := by
  have hkinds : structural ex.kinds = [EventKind.examples] ++
      structural (if ex.table.rows.isEmpty then [] else ex.table.kinds) ++ [.examplesEnd] := by
    simp [Examples.kinds]
  rw [hkinds]
  refine Language.append_mem_mul (Language.append_mem_mul (mem_event _) ?_) (mem_event _)
  -- A table without rows is reported as no table.
  by_cases hrows : ex.table.rows.isEmpty = true
  · rw [if_pos hrows]
    exact Or.inl Language.nil_mem_one
  · rw [if_neg hrows]
    exact Or.inr (Table.structural_mem h.table (by simpa using hrows))

theorem Block.structural_mem {b : Block} (h : b.Printable) (kind : BlockKind)
    {ex : Option Examples} {rest : Language EventKind}
    (hex : structural (ex.toList.flatMap Examples.kinds) ∈ rest) :
    structural (b.kinds kind ex) ∈ EventGrammar.block kind rest := by
  have hkinds : structural (b.kinds kind ex) =
      [EventKind.block kind b.title b.tags] ++ structural (b.steps.flatMap Step.kinds) ++
        structural (ex.toList.flatMap Examples.kinds) ++ [.blockEnd kind] := by
    simp [Block.kinds]
  rw [hkinds]
  refine Language.append_mem_mul (Language.append_mem_mul
    (Language.append_mem_mul (mem_anyEvent ⟨_, _, rfl⟩) ?_) hex) (mem_event _)
  exact structural_flatMap_mem (fun st hst => Step.structural_mem (h.steps st hst))

theorem Scenario.structural_mem {s : Scenario} (h : s.Printable) :
    structural s.kinds ∈
      EventGrammar.block .scenario 1 +
        EventGrammar.block .outline (optional EventGrammar.examples) := by
  cases s with
  | plain b => exact Or.inl (Block.structural_mem h _ Language.nil_mem_one)
  | outline b ex =>
      refine Or.inr (Block.structural_mem h.1 _ ?_)
      cases ex with
      | none => exact Or.inl Language.nil_mem_one
      | some ex =>
          refine Or.inr ?_
          rw [Option.toList_some, List.flatMap_cons, List.flatMap_nil, List.append_nil]
          exact Examples.structural_mem (h.2 ex rfl)

/-- The events of a printable tree are in the grammar. -/
theorem Feature.structural_mem {t : Feature} (h : t.Printable) :
    structural t.kinds ∈ document := by
  have hkinds : structural t.kinds =
      [EventKind.feature t.title t.description t.tags] ++
        structural (t.background.toList.flatMap (fun b => b.kinds .background none)) ++
        structural (t.scenarios.flatMap Scenario.kinds) ++ [.featureEnd] := by
    simp [Feature.kinds]
  rw [hkinds]
  refine Language.append_mem_mul (Language.append_mem_mul
    (Language.append_mem_mul (mem_anyEvent ⟨_, _, _, rfl⟩) ?_) ?_) (mem_event _)
  · cases hb : t.background with
    | none => exact Or.inl Language.nil_mem_one
    | some b =>
        refine Or.inr ?_
        rw [Option.toList_some, List.flatMap_cons, List.flatMap_nil, List.append_nil]
        exact Block.structural_mem (h.background b hb) _ Language.nil_mem_one
  · exact structural_flatMap_mem (fun s hs => Scenario.structural_mem (h.scenarios s hs))

/-- The closing events that are owed behind an event, when those in `owed` were
    before it; `none` when it closes something else than what was opened
    last. -/
def owedAfter (owed : List EventKind) (kind : EventKind) : Option (List EventKind) :=
  match kind.closer? with
  -- What opens owes its closer before all that was owed already.
  | some closer => some (closer :: owed)
  | none =>
    if kind.isCloser then
      match owed with
      | [] => none
      | next :: others => if kind = next then some others else none
    else some owed

/-- The closing events that are owed behind a list of events. -/
def unclosed (owed kinds : List EventKind) : Option (List EventKind) :=
  kinds.foldlM owedAfter owed

/-- Events that close exactly what they open. -/
def Balanced (kinds : List EventKind) : Prop :=
  ∀ owed, unclosed owed kinds = some owed

theorem owedAfter_leaf {kind : EventKind} (h : kind.nesting = .leaf) (owed : List EventKind) :
    owedAfter owed kind = some owed := by
  unfold EventKind.nesting at h
  unfold owedAfter
  cases hopens : kind.closer? with
  | some closer => simp [hopens] at h
  | none =>
      cases hcloses : kind.isCloser with
      | true => simp [hopens, hcloses] at h
      | false => rfl

namespace Balanced

theorem nil : Balanced [] := fun _ => rfl

theorem append {a b : List EventKind} (ha : Balanced a) (hb : Balanced b) :
    Balanced (a ++ b) := by
  intro owed
  have hfirst := ha owed
  unfold unclosed at hfirst ⊢
  rw [List.foldlM_append, hfirst]
  exact hb owed

/-- What is balanced stays so between an event and the one that closes it. -/
theorem wrap (kind : EventKind) {closer : EventKind} {inner : List EventKind}
    (h : Balanced inner) (hopens : kind.closer? = some closer) :
    Balanced (kind :: inner ++ [closer]) := by
  intro owed
  -- A closer opens nothing itself.
  have hcloser : closer.closer? = none ∧ closer.isCloser = true := by
    cases kind <;> simp_all [EventKind.closer?] <;> subst hopens <;> exact ⟨rfl, rfl⟩
  have hinner := h (closer :: owed)
  have hfirst : owedAfter owed kind = some (closer :: owed) := by simp [owedAfter, hopens]
  have hlast : owedAfter (closer :: owed) closer = some owed := by
    simp [owedAfter, hcloser]
  unfold unclosed at hinner ⊢
  rw [List.cons_append, List.foldlM_cons, hfirst]
  change (inner ++ [closer]).foldlM owedAfter (closer :: owed) = some owed
  rw [List.foldlM_append, hinner]
  simpa using hlast

/-- Events that neither open nor close anything are balanced. -/
theorem leaves {kinds : List EventKind} (h : ∀ kind ∈ kinds, kind.nesting = .leaf) :
    Balanced kinds := by
  induction kinds with
  | nil => exact nil
  | cons kind rest ih =>
      intro owed
      unfold unclosed
      rw [List.foldlM_cons, owedAfter_leaf (h kind List.mem_cons_self)]
      exact ih (fun k hk => h k (List.mem_cons_of_mem kind hk)) owed

theorem comments (texts : List String) (inline : Bool) :
    Balanced (texts.map (EventKind.comment · inline)) := by
  refine leaves (fun kind hk => ?_)
  rcases List.mem_map.mp hk with ⟨text, -, rfl⟩
  rfl

/-- A part with comments above it and beside it. -/
theorem part (comments : Comments) (kind : EventKind) {closer : EventKind}
    {inner : List EventKind} (h : Balanced inner) (hopens : kind.closer? = some closer) :
    Balanced (comments.above ++ kind :: comments.beside ++ inner ++ [closer]) := by
  have hinner := (Balanced.comments comments.inline.toList true).append h
  have hall := (Balanced.comments comments.leading false).append (hinner.wrap kind hopens)
  simpa [Comments.above, Comments.beside] using hall

theorem flatMap {α : Type} {f : α → List EventKind} (as : List α) (h : ∀ a, Balanced (f a)) :
    Balanced (as.flatMap f) := by
  induction as with
  | nil => exact nil
  | cons a rest ih => exact (h a).append ih

/-- Blank lines make no difference. -/
theorem of_withoutBlanks {kinds : List EventKind} (h : Balanced (withoutBlanks kinds)) :
    Balanced kinds := by
  -- A blank line is a leaf, so it owes nothing and closes nothing.
  have hsame : ∀ owed, unclosed owed kinds = unclosed owed (withoutBlanks kinds) := by
    clear h
    induction kinds with
    | nil => intro owed; rfl
    | cons kind rest ih =>
        intro owed
        by_cases hblank : kind = .blankLine
        · subst hblank
          exact ih owed
        · rw [withoutBlanks_cons _ hblank]
          unfold unclosed at ih ⊢
          rw [List.foldlM_cons, List.foldlM_cons]
          cases owedAfter owed kind with
          | none => rfl
          | some next => exact ih next
  intro owed
  rw [hsame owed]
  exact h owed

end Balanced

theorem Row.balanced (row : Row) : Balanced row.kinds := by
  have hcells : Balanced (row.cells.map EventKind.cell) := by
    refine Balanced.leaves (fun kind hk => ?_)
    rcases List.mem_map.mp hk with ⟨content, -, rfl⟩
    rfl
  exact (hcells.append (.comments _ true)).wrap .row rfl

theorem Table.balanced (grid : Table) : Balanced grid.kinds := by
  rcases grid with ⟨rows⟩
  cases rows with
  | nil => exact Balanced.nil.wrap .table rfl
  | cons first rest =>
      -- Below the first row, comments stand between the rows, inside the table.
      have hrest : Balanced (Table.laterKinds rest) :=
        .flatMap rest (fun row => (Balanced.comments _ false).append row.balanced)
      have hgrid := (first.balanced.append hrest).wrap .table rfl
      have hall := (Balanced.comments first.comments.leading false).append hgrid
      simpa [Table.kinds, Comments.above] using hall

theorem DocString.balanced (doc : DocString) : Balanced doc.kinds := by
  have hlines : Balanced (doc.lines.map EventKind.docLine) := by
    refine Balanced.leaves (fun kind hk => ?_)
    rcases List.mem_map.mp hk with ⟨text, -, rfl⟩
    rfl
  have hdoc := (hlines.append (.comments doc.comments.inline.toList true)).wrap
    (.docString doc.indent) rfl
  have hall := (Balanced.comments doc.comments.leading false).append hdoc
  simpa [DocString.kinds, Comments.above, Comments.beside] using hall

theorem Argument.balanced (argument : Argument) : Balanced argument.kinds := by
  cases argument with
  | none => exact Balanced.nil
  | docString doc => exact doc.balanced
  | table grid => exact grid.balanced

theorem Step.balanced (st : Step) : Balanced st.kinds :=
  .part st.comments (.step st.keyword st.text st.tags) st.argument.balanced rfl

theorem Examples.balanced (ex : Examples) : Balanced ex.kinds := by
  refine Balanced.part ex.comments .examples ?_ rfl
  by_cases hrows : ex.table.rows.isEmpty = true
  · rw [if_pos hrows]
    exact Balanced.nil
  · rw [if_neg hrows]
    exact ex.table.balanced

theorem Block.balanced (b : Block) (kind : BlockKind) (ex : Option Examples) :
    Balanced (b.kinds kind ex) := by
  have hinner := (Balanced.flatMap b.steps Step.balanced).append
    (.flatMap ex.toList Examples.balanced)
  have hall := Balanced.part b.comments (.block kind b.title b.tags) hinner rfl
  simpa [Block.kinds] using hall

/-- The events of any tree are balanced. -/
theorem Feature.balanced (t : Feature) : Balanced t.kinds := by
  have hscen : ∀ s : Scenario, Balanced s.kinds := by
    intro s
    cases s with
    | plain b => exact b.balanced .scenario none
    | outline b ex => exact b.balanced .outline ex
  have hinner := ((Balanced.flatMap t.background.toList
    (fun b => b.balanced .background none)).append
    (.flatMap t.scenarios hscen)).append (.comments t.trailing false)
  have hall := Balanced.part t.comments (.feature t.title t.description t.tags) hinner rfl
  simpa [Feature.kinds] using hall

/-- The events of a document, without blank lines and comments, are none at
    all or those of a document in the grammar, and every part that is opened
    is closed in its turn. -/
theorem readEvents_grammar {source : String} {events : List Event}
    (h : readEvents source = .ok events) :
    (structural (events.map Event.kind) = [] ∨
      structural (events.map Event.kind) ∈ EventGrammar.document) ∧
    unclosed [] (events.map Event.kind) = some [] := by
  -- Both parts are read off the tree of the document, if it has one.
  rcases readFeature_of_events h with ⟨t, ht, -, hkinds⟩ | ⟨htrivia, -⟩
  · refine ⟨Or.inr ?_, ?_⟩
    · rw [← structural_withoutBlanks, ← hkinds]
      exact Feature.structural_mem ht
    · refine Balanced.of_withoutBlanks ?_ []
      rw [← hkinds]
      exact t.balanced
  · rcases htrivia.comments with ⟨texts, htexts, -⟩
    refine ⟨Or.inl ?_, ?_⟩
    · rw [← structural_withoutBlanks, htexts, structural_comments]
    · refine Balanced.of_withoutBlanks ?_ []
      rw [htexts]
      exact .comments texts false

/-- A document with tags, comments, a doc string, tables and examples. -/
def outlineSample : String :=
  "# top\nFeature: f\n @a\n Scenario Outline: o\n  Given x # c\n   | a | b |\n" ++
    "  When y\n   \"\"\"\n   Then\n   \"\"\"\n  Examples:\n   | k |\n\n   | v |\n"

/-- The sample is accepted, and its events are in the grammar. -/
theorem readEvents_grammar_outline : ∃ events, readEvents outlineSample = .ok events ∧
    structural (events.map Event.kind) ∈ EventGrammar.document ∧
    unclosed [] (events.map Event.kind) = some [] := by
  have hsome : (readEvents outlineSample).toOption.any
      (fun events => structural (events.map Event.kind) != []) = true := by
    decide +kernel
  cases hread : readEvents outlineSample with
  | error refusal =>
      rw [hread] at hsome
      exact absurd hsome (by simp [Except.toOption])
  | ok events =>
      rw [hread] at hsome
      have hgrammar := readEvents_grammar hread
      refine ⟨events, rfl, hgrammar.1.resolve_left ?_, hgrammar.2⟩
      simpa [Except.toOption] using hsome

end Gherkin
