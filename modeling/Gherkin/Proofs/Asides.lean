import Mathlib.Data.List.Chain
import Gherkin.Proofs.Grammar.Recognised
import Gherkin.Proofs.Reader.Inversion

/-!
# Where Blank Lines and Comments Are Reported

Blank lines and comments are reported among the events of the parts they stand
between, and whoever follows the parts has to know where to expect them. There
are two rules. Trivia, that is blank lines and comments on lines of their own,
comes right before what opens a part or ends the feature. A comment at the end
of a line comes right behind the event of the line: behind the heading or the
step it stands beside, at the end of a row, or at the end of a doc string.

Trivia is held back until a part opens, so all that is ever reported is a list
of stretches which keep the rules by themselves. Two such stretches keep them
together, because none of them ends in trivia. The one exception is the comment
on a closing fence, which stands behind a line that was reported before.

## Main definitions

* `EventKind.isTrivia`: Blank lines and comments on lines of their own.
* `EventKind.MayFollow`: What may come right behind trivia.
* `Beside`: Where a comment at the end of a line may stand.
* `Orderly`: Blank lines and comments stand where they may.
* `Stretch`: Events that keep the rules by themselves.
* `Reader.Gist.Reported`: What has been reported is a stretch, and what is held
  back fits behind it.

## Theorems

* `Stretch.append`, `Stretch.released`, `Stretch.remark`: Stretches one behind
  the other, with trivia in front of them or a comment between them.
* `Reader.Gist.Reported.take`: What an item reports goes on with a stretch.
* `readEvents_orderly`: The events of a document are orderly.
-/

namespace Gherkin

open Reader

namespace EventKind

/-- Blank lines and comments on lines of their own. -/
def isTrivia : EventKind → Bool
  | .blankLine | .comment _ false => true
  | _ => false

/-- The events that a comment on their line follows at once. -/
def isHeading : EventKind → Bool
  | .feature .. | .block .. | .step .. | .examples => true
  | _ => false

/-- The events of a doc string up to its closing fence. -/
def isQuote : EventKind → Bool
  | .docString _ | .docLine _ => true
  | _ => false

/-- What may come right behind an event: trivia is followed by more of it, by
    what opens a part, or by the end of the feature. -/
def MayFollow (kind next : EventKind) : Prop :=
  kind.isTrivia = true → next.isTrivia = true ∨ next.closer?.isSome = true ∨ next = .featureEnd

end EventKind

/-- A comment at the end of a line may stand between these events: behind a
    heading or a step, behind the last cell of a row, or behind the last line
    of a doc string. -/
def Beside (before after : List EventKind) : Prop :=
  ∃ first owner, before = first ++ [owner] ∧
    (owner.isHeading = true ∨
      ((∃ content, owner = .cell content) ∧ ∃ rest, after = .rowEnd :: rest) ∨
      (owner.isQuote = true ∧ ∃ rest, after = .docStringEnd :: rest))

/-- Blank lines and comments stand where they may. -/
structure Orderly (kinds : List EventKind) : Prop where
  /-- Nothing comes right behind trivia but what may. -/
  followed : kinds.IsChain EventKind.MayFollow
  /-- All trivia that stands together is followed by what opens a part or ends
      the feature. Only where there is no feature it may end the document. -/
  runs : ∀ before run after, kinds = before ++ run ++ after → run ≠ [] →
    (∀ kind ∈ run, kind.isTrivia = true) → (∀ kind ∈ after.head?, kind.isTrivia = false) →
      (∃ next rest, after = next :: rest ∧ (next.closer?.isSome = true ∨ next = .featureEnd)) ∨
      (after = [] ∧ ∀ title description tags, .feature title description tags ∉ kinds)
  /-- A comment at the end of a line stands beside what it belongs to. -/
  inline : ∀ before text after, kinds = before ++ .comment text true :: after →
    Beside before after

/-- All trivia among the events is released. -/
structure Released (kinds : List EventKind) : Prop where
  followed : kinds.IsChain EventKind.MayFollow
  last : ∀ kind ∈ kinds.getLast?, kind.isTrivia = false

/-- Events that keep the rules by themselves: trivia among them is released,
    and comments at the end of a line have their line with them. -/
structure Stretch (kinds : List EventKind) : Prop extends Released kinds where
  inline : ∀ before text after, kinds = before ++ .comment text true :: after →
    Beside before after

theorem Released.append {a b : List EventKind} (ha : Released a) (hb : Released b) :
    Released (a ++ b) where
  followed := by
    refine List.isChain_append.mpr ⟨ha.followed, hb.followed, fun kind hkind next _ htrivia => ?_⟩
    exact absurd htrivia (by simp [ha.last kind hkind])
  last := by
    intro kind hkind
    rw [List.getLast?_append, Option.mem_def, Option.or_eq_some_iff] at hkind
    rcases hkind with hkind | ⟨_, hkind⟩
    · exact hb.last kind hkind
    · exact ha.last kind hkind

/-- More events in front and behind change nothing. -/
theorem Beside.extend {before after : List EventKind} (h : Beside before after)
    (front back : List EventKind) : Beside (front ++ before) (after ++ back) := by
  rcases h with ⟨first, owner, rfl, howner⟩
  refine ⟨front ++ first, owner, (List.append_assoc _ _ _).symm, ?_⟩
  rcases howner with hheading | ⟨hcell, rest, rfl⟩ | ⟨hquote, rest, rfl⟩
  · exact Or.inl hheading
  · exact Or.inr (Or.inl ⟨hcell, rest ++ back, rfl⟩)
  · exact Or.inr (Or.inr ⟨hquote, rest ++ back, rfl⟩)

/-- An event in one of two lists that stand one behind the other. -/
theorem append_eq_append_cons {α : Type} {a b before after : List α} {x : α}
    (h : a ++ b = before ++ x :: after) :
    (∃ rest, a = before ++ x :: rest ∧ after = rest ++ b) ∨
      ∃ rest, before = a ++ rest ∧ b = rest ++ x :: after := by
  rcases List.append_eq_append_iff.mp h with ⟨rest, hbefore, hb⟩ | ⟨rest, ha, hafter⟩
  · exact Or.inr ⟨rest, hbefore, hb⟩
  · cases rest with
    | nil => exact Or.inr ⟨[], by simpa using ha.symm, hafter.symm⟩
    | cons y rest =>
        rcases List.cons.inj hafter with ⟨rfl, rfl⟩
        exact Or.inl ⟨rest, ha, rfl⟩

namespace Stretch

variable {a b kinds trivia : List EventKind} {kind : EventKind}

/-- Events without trivia and without comments. -/
theorem of_plain (h : ∀ kind ∈ kinds, kind.isTrivia = false ∧ ∀ text, kind ≠ .comment text true) :
    Stretch kinds where
  followed := by
    refine (List.pairwise_of_forall_mem_list fun kind hkind next _ htrivia => ?_).isChain
    exact absurd htrivia (by simp [(h kind hkind).1])
  last := fun kind hkind => (h kind (List.mem_of_mem_getLast? hkind)).1
  inline := by
    rintro before text after rfl
    exact absurd rfl ((h (.comment text true) (by simp)).2 text)

theorem append (ha : Stretch a) (hb : Stretch b) : Stretch (a ++ b) where
  toReleased := ha.toReleased.append hb.toReleased
  inline := by
    intro before text after h
    rcases append_eq_append_cons h with ⟨rest, hkinds, rfl⟩ | ⟨rest, rfl, hkinds⟩
    · simpa using (ha.inline before text rest hkinds).extend [] b
    · simpa using (hb.inline rest text after hkinds).extend a []

/-- The trivia that was held back, in front of what releases it. -/
theorem released (htrivia : ∀ kind ∈ trivia, kind.isTrivia = true)
    (hnext : kind.closer?.isSome = true ∨ kind = .featureEnd) (h : Stretch (kind :: kinds)) :
    Stretch (trivia ++ kind :: kinds) where
  followed := by
    refine List.isChain_append.mpr ⟨?_, h.followed, fun _ _ next hhead _ => ?_⟩
    · exact (List.pairwise_of_forall_mem_list fun _ _ next hmem _ =>
        Or.inl (htrivia next hmem)).isChain
    · rw [List.head?_cons, Option.mem_some_iff] at hhead
      exact hhead ▸ Or.inr hnext
  last := by
    intro last hlast
    rw [List.getLast?_append_of_ne_nil _ (List.cons_ne_nil _ _)] at hlast
    exact h.last last hlast
  inline := by
    intro before text after heq
    rcases append_eq_append_cons heq with ⟨rest, hkinds, _⟩ | ⟨rest, rfl, hkinds⟩
    · exact absurd (htrivia (.comment text true) (by simp [hkinds])) (by simp [EventKind.isTrivia])
    · simpa using (h.inline rest text after hkinds).extend trivia []

/-- The comment at the end of a line, between what it stands beside. -/
theorem remark (ha : Stretch a) (hb : Stretch b) (hbeside : Beside a b) (comment : Option String) :
    Stretch (a ++ inlineKinds comment ++ b) := by
  cases comment with
  | none => simpa [inlineKinds] using ha.append hb
  | some text =>
      have hcomment : Released [EventKind.comment text true] :=
        ⟨List.isChain_singleton _, by simp [EventKind.isTrivia]⟩
      refine ⟨(ha.toReleased.append hcomment).append hb.toReleased, fun before other after h => ?_⟩
      rcases append_eq_append_cons h with ⟨rest, hkinds, rfl⟩ | ⟨rest, rfl, hkinds⟩
      · rcases append_eq_append_cons hkinds with ⟨more, hfront, rfl⟩ | ⟨more, rfl, hback⟩
        · simpa using (ha.inline before other more hfront).extend [] (inlineKinds (some text) ++ b)
        -- The comment itself: nothing of the line is left around it.
        · rcases List.singleton_eq_append_iff.mp hback with ⟨rfl, hback⟩ | ⟨_, hback⟩
          · rcases List.cons.inj hback with ⟨_, rfl⟩
            simpa using hbeside
          · exact absurd hback (List.cons_ne_nil _ _)
      · simpa using (hb.inline rest other after hkinds).extend (a ++ inlineKinds (some text)) []

/-- A heading or a step, with the comment on its line. -/
theorem of_heading (h : kind.isHeading = true) (comment : Option String) :
    Stretch (kind :: inlineKinds comment) := by
  have hkind : Stretch [kind] := by
    refine of_plain fun k hk => ?_
    rw [List.mem_singleton.mp hk]
    cases kind <;> simp_all [EventKind.isHeading, EventKind.isTrivia]
  have hbeside : Beside [kind] [] := ⟨[], kind, rfl, Or.inl h⟩
  simpa using hkind.remark (of_plain (by simp)) hbeside comment

/-- A row, with the comment behind its last cell. -/
theorem of_row {cells : List String} (h : 1 ≤ cells.length) (comment : Option String) :
    Stretch (rowKinds cells comment) := by
  have hcells : Stretch (.row :: cells.map EventKind.cell) := by
    refine of_plain fun kind hkind => ?_
    rcases List.mem_cons.mp hkind with rfl | hkind
    · simp [EventKind.isTrivia]
    · rcases List.mem_map.mp hkind with ⟨content, _, rfl⟩
      simp [EventKind.isTrivia]
  have hend : Stretch [.rowEnd] := of_plain (by simp [EventKind.isTrivia])
  refine hcells.remark hend ?_ comment
  rcases List.eq_nil_or_concat' cells with rfl | ⟨front, content, rfl⟩
  · simp at h
  · exact ⟨.row :: front.map EventKind.cell, .cell content, by simp,
      Or.inr (Or.inl ⟨⟨content, rfl⟩, [], rfl⟩)⟩

/-- What closes a place carries no trivia. -/
theorem of_closers (place : Place) : Stretch place.closers := by
  refine of_plain fun kind hkind => ?_
  have hcloser := Place.isCloser_of_mem_closers kind hkind
  cases kind <;> simp_all [EventKind.isCloser, EventKind.isTrivia]

end Stretch

/-- Released events are orderly, however trivia and comments stand in them. -/
theorem Stretch.orderly {kinds : List EventKind} (h : Stretch kinds) : Orderly kinds where
  followed := h.followed
  runs := by
    rintro before run after rfl hrun htrivia hafter
    rcases List.eq_nil_or_concat' run with rfl | ⟨front, last, rfl⟩
    · exact absurd rfl hrun
    have hlast := htrivia last (by simp)
    cases after with
    | nil => exact absurd (h.last last (by simp)) (by simp [hlast])
    | cons next rest =>
        refine Or.inl ⟨next, rest, rfl, ?_⟩
        have hsplit : before ++ (front ++ [last]) ++ next :: rest =
            before ++ front ++ last :: next :: rest := by simp
        have hmay : EventKind.MayFollow last next :=
          List.isChain_iff_forall_rel_of_append_cons_cons.mp h.followed hsplit
        rcases hmay hlast with hnext | hnext
        · exact absurd (hafter next (by simp)) (by simp [hnext])
        · exact hnext
  inline := h.inline

/-- A document with nothing but trivia. -/
theorem orderly_of_trivia {kinds : List EventKind} (h : ∀ kind ∈ kinds, kind.isTrivia = true) :
    Orderly kinds where
  followed := (List.pairwise_of_forall_mem_list fun _ _ next hmem _ =>
    Or.inl (h next hmem)).isChain
  runs := by
    rintro before run after rfl _ _ hafter
    refine Or.inr ⟨?_, fun title description tags hmem => ?_⟩
    · cases after with
      | nil => rfl
      | cons next rest => exact absurd (hafter next (by simp)) (by simp [h next (by simp)])
    · exact absurd (h _ hmem) (by simp [EventKind.isTrivia])
  inline := by
    rintro before text after rfl
    exact absurd (h (.comment text true) (by simp)) (by simp [EventKind.isTrivia])

namespace Reader.Gist

/-- What has been reported keeps the rules, and what is held back fits behind
    it. -/
structure Reported (g : Gist) (emitted : List EventKind) : Prop where
  settled : Stretch emitted
  trivia : ∀ kind ∈ g.trivia, kind.isTrivia = true
  opening : ∀ opening, g.phase = .opening opening →
    (∀ kind ∈ opening.side ++ opening.pending, kind.isTrivia = true) ∧
      ∃ comment, opening.remarks = inlineKinds comment
  /-- Within a doc string its own events are the last ones. -/
  quoting : ∀ kind indent, g.phase = .block kind (.docString indent) →
    ∃ front last, emitted = front ++ [last] ∧ last.isQuote = true
  /-- Before the feature nothing is reported. -/
  silent : g.phase = .preamble → emitted = []

theorem isTrivia_of_mem_sideKinds {comment : Option String} :
    ∀ kind ∈ sideKinds comment, kind.isTrivia = true := by
  simp [sideKinds, EventKind.isTrivia]

namespace Reported

variable {g next : Gist} {emitted kinds : List EventKind} {item : Item}

/-- The start of a document. -/
theorem initial : Reported {} [] where
  settled := .of_plain (by simp)
  trivia := by simp
  opening := by simp
  quoting := by simp
  silent := fun _ => rfl

/-- Trivia is held back. -/
theorem hold (h : Reported g emitted) (hkinds : ∀ kind ∈ kinds, kind.isTrivia = true) :
    Reported (g.hold kinds) emitted := by
  rcases g with ⟨phase, trivia, tags, hasBackground, hasScenario⟩
  cases phase with
  | opening o =>
      refine ⟨h.settled, h.trivia, ?_, by simp [Gist.hold], by simp [Gist.hold]⟩
      rintro _ ⟨⟩
      rcases h.opening o rfl with ⟨hheld, hremarks⟩
      refine ⟨fun kind hkind => ?_, hremarks⟩
      simp only [← List.append_assoc, List.mem_append] at hkind
      rcases hkind with hkind | hkind
      · exact hheld kind (List.mem_append.mpr hkind)
      · exact hkinds kind hkind
  | _ =>
      refine ⟨h.settled, ?_, by simp [Gist.hold], h.quoting, h.silent⟩
      intro kind hkind
      rcases List.mem_append.mp hkind with hkind | hkind
      · exact h.trivia kind hkind
      · exact hkinds kind hkind

/-- A stretch goes on with what has been reported. -/
theorem onward (h : Reported g emitted) (hkinds : Stretch kinds)
    (htrivia : ∀ kind ∈ next.trivia, kind.isTrivia = true)
    (hphase : next.phase = .body ∨ ∃ kind place, next.phase = .block kind place ∧
      ∀ indent, place ≠ .docString indent) : Reported next (emitted ++ kinds) where
  settled := h.settled.append hkinds
  trivia := htrivia
  opening := by
    intro opening hopening
    rcases hphase with hbody | ⟨kind, place, hblock, _⟩
    · exact absurd (hbody.symm.trans hopening) (by simp)
    · exact absurd (hblock.symm.trans hopening) (by simp)
  quoting := by
    intro kind indent hquote
    rcases hphase with hbody | ⟨_, place, hblock, hplace⟩
    · exact absurd (hbody.symm.trans hquote) (by simp)
    · rw [hblock] at hquote
      exact absurd (Phase.block.inj hquote).2 (hplace indent)
  silent := by
    intro hpreamble
    rcases hphase with hbody | ⟨_, _, hblock, _⟩
    · exact absurd (hbody.symm.trans hpreamble) (by simp)
    · exact absurd (hblock.symm.trans hpreamble) (by simp)

/-- The feature is opened, and what stood in its description is held back. -/
theorem announce (h : Reported g emitted) {opening : Opening} (hp : g.phase = .opening opening) :
    Reported (g.announce opening).2 (emitted ++ (g.announce opening).1) := by
  rcases h.opening opening hp with ⟨hheld, remark, hremarks⟩
  refine h.onward ?_ hheld (Or.inl rfl)
  simp only [Gist.announce, hremarks]
  exact .released h.trivia (Or.inl rfl) (.of_heading rfl remark)

/-- What a line of tags or of a block ends first. -/
theorem settle (h : Reported g emitted) : Reported g.settle.2 (emitted ++ g.settle.1) := by
  unfold Gist.settle
  split
  · exact h.announce (by assumption)
  · exact h.onward (.of_closers _) h.trivia (Or.inr ⟨_, _, rfl, by simp⟩)
  · simpa using h

theorem leave (h : Reported g emitted) : Reported g.leave.2 (emitted ++ g.leave.1) := by
  unfold Gist.leave
  split
  · exact h.announce (by assumption)
  · exact h.onward ((Stretch.of_closers _).append (.of_plain (by simp [EventKind.isTrivia])))
      h.trivia (Or.inl rfl)
  · simpa using h

/-- Tags wait without changing what is held back. -/
theorem addTags (h : Reported g emitted) (names : List String) :
    Reported (g.addTags names) emitted :=
  ⟨h.settled, h.trivia, h.opening, h.quoting, h.silent⟩

/-- A line of description joins the lines before it. -/
theorem addLine (h : Reported g emitted) {opening : Opening} (hp : g.phase = .opening opening)
    (text : String) (remark : Option String) :
    Reported { g with phase := .opening (opening.addLine text remark) } emitted := by
  rcases h.opening opening hp with ⟨hheld, hremarks⟩
  refine ⟨h.settled, h.trivia, ?_, by simp, by simp⟩
  rintro _ ⟨⟩
  -- Blank lines may go into the text; the rest moves from one list to the other.
  unfold Opening.addLine
  split
  · refine ⟨fun kind hkind => ?_, hremarks⟩
    rw [List.append_nil, List.mem_append] at hkind
    rcases hkind with hkind | hkind
    · exact hheld kind hkind
    · exact isTrivia_of_mem_sideKinds kind hkind
  · refine ⟨fun kind hkind => ?_, hremarks⟩
    simp only [List.append_nil, List.mem_append, List.mem_filter] at hkind
    rcases hkind with (hkind | ⟨hkind, _⟩) | hkind
    · exact hheld kind (List.mem_append_left _ hkind)
    · exact hheld kind (List.mem_append_right _ hkind)
    · exact isTrivia_of_mem_sideKinds kind hkind

/-- What an item reports goes on with what has been reported. -/
theorem take (h : Reported g emitted) (htake : Takes g item kinds next)
    (hcells : ∀ cells comment, item = .row cells comment → 1 ≤ cells.length) :
    Reported next (emitted ++ kinds) := by
  cases htake with
  | blank => simpa using h.hold (by simp [EventKind.isTrivia])
  | comment text => simpa using h.hold (by simp [EventKind.isTrivia])
  | tags names remark => exact (h.settle.addTags names).hold isTrivia_of_mem_sideKinds
  | feature title remark hp =>
      rw [List.append_nil]
      refine ⟨h.settled, h.trivia, ?_, by simp, by simp⟩
      rintro _ ⟨⟩
      exact ⟨by simp, remark, rfl⟩
  | prose text remark opening hp =>
      rw [List.append_nil]
      exact h.addLine hp text remark
  | block kind title remark opened next hopen =>
      rw [← List.append_assoc]
      simp only [openBlock, Option.ite_none_right_eq_some, Option.some.injEq,
        Prod.mk.injEq] at hopen
      rcases hopen with ⟨_, rfl, rfl⟩
      refine h.leave.onward ?_ (by simp) (Or.inr ⟨_, _, rfl, by simp⟩)
      exact .released h.leave.trivia (Or.inl rfl) (.of_heading rfl remark)
  | step keyword text remark kind place hp hstage =>
      refine h.onward ?_ (by simp [opened]) (Or.inr ⟨_, _, rfl, by simp⟩)
      rw [List.append_assoc]
      exact (Stretch.of_closers place).append
        (.released h.trivia (Or.inl rfl) (.of_heading rfl remark))
  | examples remark place hp hstage htags =>
      refine h.onward ?_ (by simp [opened]) (Or.inr ⟨_, _, rfl, by simp⟩)
      rw [List.append_assoc]
      exact (Stretch.of_closers place).append
        (.released h.trivia (Or.inl rfl) (.of_heading rfl remark))
  | firstRow cells remark kind owner hp =>
      refine h.onward ?_ (by simp) (Or.inr ⟨_, _, rfl, by simp⟩)
      have htable : Stretch [.table] := .of_plain (by simp [EventKind.isTrivia])
      exact .released h.trivia (Or.inl rfl) (htable.append (.of_row (hcells _ _ rfl) remark))
  | nextRow cells remark kind owner hp =>
      refine h.onward ?_ (by simp) (Or.inr ⟨_, _, rfl, by simp⟩)
      exact .released h.trivia (Or.inl rfl) (.of_row (hcells _ _ rfl) remark)
  | openFence indent kind hp =>
      have hfence : Stretch [.docString indent] := .of_plain (by simp [EventKind.isTrivia])
      have hemitted := h.settled.append (.released h.trivia (Or.inl rfl) hfence)
      refine ⟨hemitted, by simp, by simp, ?_, by simp⟩
      exact fun _ _ _ => ⟨emitted ++ g.trivia, .docString indent, by simp, rfl⟩
  | closeFence indent remark kind opened hp =>
      -- The comment on the fence stands behind a line that was reported before.
      rcases h.quoting kind opened hp with ⟨front, last, hemitted, hlast⟩
      have hclosers : Stretch [.docStringEnd, .stepEnd] := .of_closers (.docString opened)
      have hbeside : Beside emitted [.docStringEnd, .stepEnd] :=
        ⟨front, last, hemitted, Or.inr (Or.inr ⟨hlast, _, rfl⟩)⟩
      rw [← List.append_assoc]
      exact ⟨h.settled.remark hclosers hbeside remark, h.trivia, by simp, by simp, by simp⟩
  | docLine text kind indent hp =>
      have hline : Stretch [.docLine text] := .of_plain (by simp [EventKind.isTrivia])
      refine ⟨h.settled.append hline, h.trivia, h.opening, ?_, by simp [hp]⟩
      exact fun _ _ _ => ⟨emitted, .docLine text, rfl, rfl⟩

/-- The end of the document. -/
theorem finish (h : Reported g emitted) (hfinish : g.finish = some kinds) :
    Orderly (emitted ++ kinds) := by
  unfold Gist.finish at hfinish
  split at hfinish
  · rename_i hp
    rw [Option.ite_none_right_eq_some, Option.some.injEq] at hfinish
    rcases hfinish with ⟨_, rfl⟩
    rw [h.silent hp, List.nil_append]
    exact orderly_of_trivia h.trivia
  · exact absurd hfinish (by simp)
  · rw [Option.ite_none_right_eq_some, Option.some.injEq] at hfinish
    rcases hfinish with ⟨_, rfl⟩
    have hend : Stretch [.featureEnd] := .of_plain (by simp [EventKind.isTrivia])
    rw [List.append_assoc, ← List.append_assoc]
    exact (h.leave.settled.append (.released h.leave.trivia (Or.inr rfl) hend)).orderly

/-- The events of a document, by induction on the lines. -/
theorem run {texts : List (List Char)} (h : Reported g emitted)
    (hrun : Gist.run g texts = some kinds) : Orderly (emitted ++ kinds) := by
  induction texts generalizing g emitted kinds with
  | nil => exact h.finish hrun
  | cons text rest ih =>
      simp only [Gist.run, Gist.step, Option.bind_eq_some_iff, Option.map_eq_some_iff] at hrun
      rcases hrun with ⟨⟨reported, next⟩, ⟨item, hread, htake⟩, more, hmore, rfl⟩
      rw [← List.append_assoc]
      refine ih (h.take (takes_of_take htake) ?_) hmore
      rintro cells comment rfl
      exact LineGrammar.length_pos_of_read? hread

end Reported

end Reader.Gist

/-- Blank lines and comments are reported where they may stand. Trivia comes
    right before what opens a part or ends the feature, and a comment at the
    end of a line right behind the event of that line. -/
theorem readEvents_orderly {source : String} {events : List Event}
    (h : readEvents source = .ok events) : Orderly (events.map Event.kind) := by
  have hrun := readEvents_gist source
  rw [h] at hrun
  exact Gist.Reported.initial.run hrun.symm

/-- A document with trivia and comments before and beside parts of every kind. -/
def asidesSample : String :=
  "#a\n\n@t #b\nFeature: f #c\n#d\nw #e\n\nScenario Outline: #g\n\nGiven x #h\n\n\"\"\"\n#\n" ++
    "\"\"\" #i\n#j\nThen y\n#k\n|a|b| #l\n\nExamples: #m\n|a|\n#n"

/-- The sample is read. The comment behind its last row waits for the end of
    the feature, behind all that ends before. -/
theorem readEvents_orderly_sample : ∃ events, readEvents asidesSample = .ok events ∧
    Orderly (events.map Event.kind) ∧
    [.rowEnd, .tableEnd, .examplesEnd, .blockEnd .outline, .comment "n" false, .featureEnd] <:+
      events.map Event.kind := by
  have hread : ∃ events, readEvents asidesSample = .ok events ∧
      [.rowEnd, .tableEnd, .examplesEnd, .blockEnd .outline, .comment "n" false,
        .featureEnd].isSuffixOf (events.map Event.kind) = true :=
    exists_readEvents (by decide +kernel)
  rcases hread with ⟨events, hread, hsuffix⟩
  exact ⟨events, hread, readEvents_orderly hread, List.isSuffixOf_iff_suffix.mp hsuffix⟩

end Gherkin
