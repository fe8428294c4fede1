import Gherkin.Proofs.Reader.TreeSoFar

/-!
# Blank Lines and What They Do

A blank line is held back with the comments around it and reported in front of
what comes next, so a document reads the same with more or fewer of them, up to
the events of the blank lines themselves. The one exception is the description:
between two of its lines a blank line is part of it.

Two states that differ only in the blank lines that they hold are said to
agree. While the description is read, the blank lines since its last line
matter if more of it follows, so states agree with a view to the lines to
come: either they hold the same of those blank lines, or the description has no
line yet, or it gets no further one.

## Main definitions

* `Quiet`: Lines that add nothing to a description.
* `Gist.Agree`: States that differ in blank lines.

## Theorems

* `Gist.Agree.take`, `Gist.Agree.step`, `Gist.Agree.finish`: What agreeing
  states do with an item, with a line and at the end.
* `Gist.run_blank`, `Gist.agree_hold_blank`: A blank line.
* `Gist.Agree.run`: Agreeing states read the same, up to blank lines.
-/

namespace Gherkin

namespace Reader

/-- Lines that add nothing to a description: before the first that ends it,
    all are blank or comments. -/
def Quiet : List (List Char) → Prop
  | [] => True
  | text :: rest =>
    match classify text with
    | .tags | .heading (.block _) => True
    | .blank | .comment => Quiet rest
    | _ => False

/-- Lines that add nothing to a description are read by their class wherever
    they are no text of a doc string. -/
theorem Quiet.classify_eq {mode : Mode} {text : List Char} {rest : List (List Char)} {item : Item}
    (hquiet : Quiet (text :: rest)) (h : Item.read? mode text = some item)
    (hitem : ∀ words, item ≠ .docLine words) : classify text = item.lineClass := by
  cases mode with
  | structural => exact Item.lineClass_structural? h
  | verbatim indent =>
      simp only [Item.read?] at h
      split at h
      · exact Item.lineClass_structural? h
      · exact absurd (Option.some.inj h).symm (hitem _)
  | descriptive =>
      simp only [Item.read?] at h
      split at h
      · exact Item.lineClass_structural? h
      · exact Item.lineClass_structural? h
      · exact Item.lineClass_structural? h
      · exact Item.lineClass_structural? h
      · simp_all [Quiet]

namespace Gist

/-- States that differ in the blank lines that they hold. Those that a line of
    the description would take in are the same, unless there is no such line to
    come. -/
inductive Agree (quiet : Prop) (g : Gist) : Gist → Prop
  | held (trivia : List EventKind) (htrivia : withoutBlanks trivia = withoutBlanks g.trivia) :
      Agree quiet g { g with trivia := trivia }
  | opening (opening : Opening) (trivia side pending : List EventKind)
      (hp : g.phase = .opening opening)
      (htrivia : withoutBlanks trivia = withoutBlanks g.trivia)
      (hside : withoutBlanks side = withoutBlanks opening.side)
      (hpending : withoutBlanks pending = withoutBlanks opening.pending)
      (hblanks : opening.description = [] ∨ pending = opening.pending ∨ quiet) :
      Agree quiet g
        { g with
          phase := .opening { opening with side := side, pending := pending }
          trivia := trivia }

variable {quiet : Prop} {g other next : Gist} {kinds : List EventKind}

theorem Agree.refl (g : Gist) : Agree quiet g g :=
  .held g.trivia rfl

/-- Once the description is complete, no line can add to it. -/
theorem Agree.mono (h : Agree quiet g other) {later : Prop}
    (hlater : ∀ opening, g.phase = .opening opening → quiet → later) : Agree later g other := by
  cases h with
  | held trivia htrivia => exact .held trivia htrivia
  | opening o trivia side pending hp htrivia hside hpending hblanks =>
      exact .opening o trivia side pending hp htrivia hside hpending
        (hblanks.imp_right (Or.imp_right (hlater o hp)))

theorem Agree.mode (h : Agree quiet g other) : other.mode = g.mode := by
  cases h with
  | held trivia htrivia => rfl
  | opening o trivia side pending hp htrivia hside hpending hblanks => simp only [Gist.mode, hp]

theorem Agree.tags (h : Agree quiet g other) : other.tags = g.tags := by
  cases h <;> rfl

/-- Outside the description only the trivia differs. -/
theorem Agree.apart (h : Agree quiet g other) (hp : ∀ opening, g.phase ≠ .opening opening) :
    ∃ trivia, withoutBlanks trivia = withoutBlanks g.trivia ∧
      other = { g with trivia := trivia } := by
  cases h with
  | held trivia htrivia => exact ⟨trivia, htrivia, rfl⟩
  | opening o trivia side pending hphase => exact absurd hphase (hp o)

/-- States that agree go on to agree when both hold more. -/
theorem Agree.hold (h : Agree quiet g other) (kinds : List EventKind) :
    Agree quiet (g.hold kinds) (other.hold kinds) := by
  rcases g with ⟨phase, held, tags, hasBackground, hasScenario⟩
  cases h with
  | held trivia htrivia =>
      cases phase with
      | opening o => exact .held trivia htrivia
      | _ =>
          refine .held (trivia ++ kinds) ?_
          simp only [Gist.hold, withoutBlanks_append, htrivia]
  | opening o trivia side pending hp htrivia hside hpending hblanks =>
      cases hp
      refine .opening { o with pending := o.pending ++ kinds } trivia side (pending ++ kinds) rfl
        htrivia hside ?_ ?_
      · simp only [withoutBlanks_append, hpending]
      · exact hblanks.imp_right (Or.imp_left (congrArg (· ++ kinds)))

theorem Agree.addTags (h : Agree quiet g other) (names : List String) :
    Agree quiet (g.addTags names) (other.addTags names) := by
  cases h with
  | held trivia htrivia => exact .held trivia htrivia
  | opening o trivia side pending hp htrivia hside hpending hblanks =>
      exact .opening o trivia side pending hp htrivia hside hpending hblanks

/-- The feature opens alike: what is left of the description is trivia. -/
theorem agree_announce {opening : Opening} {trivia side pending : List EventKind}
    (htrivia : withoutBlanks trivia = withoutBlanks g.trivia)
    (hside : withoutBlanks side = withoutBlanks opening.side)
    (hpending : withoutBlanks pending = withoutBlanks opening.pending) (phase : Phase) :
    let announced := announce { g with phase := phase, trivia := trivia }
      { opening with side := side, pending := pending }
    withoutBlanks announced.1 = withoutBlanks (g.announce opening).1 ∧
      Agree quiet (g.announce opening).2 announced.2 := by
  constructor
  · simp only [announce, withoutBlanks_append, htrivia]
  · exact .held (side ++ pending) (by simp only [announce, withoutBlanks_append, hside, hpending])

theorem Agree.settle (h : Agree quiet g other) :
    withoutBlanks other.settle.1 = withoutBlanks g.settle.1 ∧
      Agree quiet g.settle.2 other.settle.2 := by
  cases h with
  | held trivia htrivia =>
      rcases g with ⟨phase, held, tags, hasBackground, hasScenario⟩
      cases phase with
      | opening o => exact agree_announce htrivia rfl rfl _
      | _ => exact ⟨rfl, .held trivia htrivia⟩
  | opening o trivia side pending hp htrivia hside hpending hblanks =>
      have hsettle : g.settle = g.announce o := by simp only [Gist.settle, hp]
      rw [hsettle]
      exact agree_announce htrivia hside hpending _

theorem Agree.leave (h : Agree quiet g other) :
    withoutBlanks other.leave.1 = withoutBlanks g.leave.1 ∧
      Agree quiet g.leave.2 other.leave.2 := by
  cases h with
  | held trivia htrivia =>
      rcases g with ⟨phase, held, tags, hasBackground, hasScenario⟩
      cases phase with
      | opening o => exact agree_announce htrivia rfl rfl _
      | _ => exact ⟨rfl, .held trivia htrivia⟩
  | opening o trivia side pending hp htrivia hside hpending hblanks =>
      have hleave : g.leave = g.announce o := by simp only [Gist.leave, hp]
      rw [hleave]
      exact agree_announce htrivia hside hpending _

/-- A blank line more or less. -/
theorem agree_hold_blank (hblanks : ∀ opening, g.phase = .opening opening →
    opening.description = [] ∨ quiet) :
    Agree quiet g (g.hold [.blankLine]) ∧ Agree quiet (g.hold [.blankLine]) g := by
  rcases g with ⟨phase, held, tags, hasBackground, hasScenario⟩
  have hblank : ∀ kinds, withoutBlanks (kinds ++ [.blankLine]) = withoutBlanks kinds := by
    intro kinds
    simp [withoutBlanks]
  cases phase with
  | opening o =>
      exact ⟨.opening o held o.side (o.pending ++ [.blankLine]) rfl rfl rfl (hblank o.pending)
          ((hblanks o rfl).imp_right Or.inr),
        .opening { o with pending := o.pending ++ [.blankLine] } held o.side o.pending rfl rfl rfl
          (hblank o.pending).symm ((hblanks o rfl).imp_right Or.inr)⟩
  | _ =>
      exact ⟨.held (held ++ [.blankLine]) (hblank held), .held held (hblank held).symm⟩

/-- A block opens behind trivia. -/
theorem Agree.openBlock (h : Agree quiet g other) {kind : BlockKind} {title : String}
    {remark : Option String} (hopen : g.openBlock kind title remark = some (kinds, next)) :
    ∃ others, other.openBlock kind title remark = some (others, next) ∧
      withoutBlanks others = withoutBlanks kinds := by
  unfold Gist.openBlock at hopen
  split at hopen
  · rename_i hroom
    cases hopen
    rcases h.apart (by simp [hroom.1]) with ⟨trivia, htrivia, rfl⟩
    refine ⟨trivia ++ .block kind title g.tagNames :: inlineKinds remark, if_pos hroom, ?_⟩
    simp only [withoutBlanks_append, htrivia]
  · exact absurd hopen (by simp only [reduceCtorEq, not_false_eq_true])

theorem Opening.pending_addLine (opening : Opening) (text : String) (remark : Option String) :
    (opening.addLine text remark).pending = [] := by
  unfold addLine
  split <;> rfl

/-- A further line of the description takes in the same blank lines. -/
theorem Opening.addLine_agree {opening : Opening} {side pending : List EventKind}
    (hside : withoutBlanks side = withoutBlanks opening.side)
    (hpending : withoutBlanks pending = withoutBlanks opening.pending)
    (hblanks : opening.description = [] ∨ pending = opening.pending) (text : String)
    (remark : Option String) :
    ∃ beside, withoutBlanks beside = withoutBlanks (opening.addLine text remark).side ∧
      addLine { opening with side := side, pending := pending } text remark =
        { opening.addLine text remark with side := beside, pending := [] } := by
  rcases opening with ⟨title, tags, remarks, description, aside, waiting⟩
  cases description with
  | nil =>
      refine ⟨side ++ pending ++ sideKinds remark, ?_, rfl⟩
      simp only [addLine, List.isEmpty_nil, if_true, withoutBlanks_append, hside, hpending]
  | cons line lines =>
      -- The blank lines in between are part of the description from now on.
      have heq : pending = waiting := hblanks.resolve_left (List.cons_ne_nil line lines)
      subst heq
      refine ⟨side ++ pending.filter (· != .blankLine) ++ sideKinds remark, ?_, rfl⟩
      simp only [addLine, List.isEmpty_cons, Bool.false_eq_true, if_false, withoutBlanks_append,
        hside]

/-- An item that releases the trivia in front of what it opens does so alike. -/
theorem Agree.release {item : Item} (h : Agree quiet g other)
    (hp : ∀ opening, g.phase ≠ .opening opening) (front back : List EventKind)
    (htake : ∀ trivia,
      take { g with trivia := trivia } item = some (front ++ trivia ++ back, next)) :
    ∃ others later, other.take item = some (others, later) ∧
      withoutBlanks others = withoutBlanks (front ++ g.trivia ++ back) ∧
      Agree quiet next later := by
  rcases h.apart hp with ⟨trivia, htrivia, rfl⟩
  refine ⟨_, next, htake trivia, ?_, .refl next⟩
  simp only [withoutBlanks_append, htrivia]

/-- What an item does to a state it also does to one that agrees with it. -/
theorem Agree.take {item : Item} (h : Agree quiet g other)
    (hprose : ∀ text remark, item = .prose text remark → ¬ quiet)
    (htake : g.take item = some (kinds, next)) :
    ∃ others later, other.take item = some (others, later) ∧
      withoutBlanks others = withoutBlanks kinds ∧ Agree quiet next later := by
  cases takes_of_take htake with
  | blank => exact ⟨[], _, rfl, rfl, h.hold _⟩
  | comment text => exact ⟨[], _, rfl, rfl, h.hold _⟩
  | tags names remark => exact ⟨_, _, rfl, h.settle.1, (h.settle.2.addTags names).hold _⟩
  | block kind title remark kinds next hopen =>
      rcases h.leave.2.openBlock hopen with ⟨others, hothers, hsame⟩
      refine ⟨other.leave.1 ++ others, next, ?_, ?_, .refl next⟩
      · rw [Gist.take, hothers, Option.map_some]
      · rw [withoutBlanks_append, withoutBlanks_append, h.leave.1, hsame]
  | prose text remark opening hp =>
      have hnot := hprose text remark rfl
      cases h with
      | held trivia htrivia =>
          exact ⟨[], _, by simp only [Gist.take, hp], rfl, .held trivia htrivia⟩
      | opening o trivia side pending hp' htrivia hside hpending hblanks =>
          rw [hp] at hp'
          cases hp'
          rcases Opening.addLine_agree hside hpending
            (hblanks.imp_right (Or.resolve_right · hnot)) text remark with ⟨beside, hbeside, hline⟩
          refine ⟨[], _, rfl, rfl, ?_⟩
          rw [hline]
          exact .opening (opening.addLine text remark) trivia beside [] rfl htrivia hbeside
            (by rw [Opening.pending_addLine]) (Or.inr (Or.inl (Opening.pending_addLine ..).symm))
  -- Elsewhere only the trivia differs, which comes in front of what the item completes.
  | feature title remark hp =>
      rcases h.apart (by simp [hp]) with ⟨trivia, htrivia, rfl⟩
      exact ⟨[], _, by simp only [Gist.take, hp]; rfl, rfl, .held trivia htrivia⟩
  | step keyword text remark kind place hp hstage =>
      refine h.release (by simp [hp]) place.closers _ (fun trivia => ?_)
      simp only [Gist.take, hp, if_pos hstage]
      rfl
  | examples remark place hp hstage htags =>
      refine h.release (by simp [hp]) place.closers _ (fun trivia => ?_)
      simp only [Gist.take, hp, if_pos (And.intro hstage htags)]
      rfl
  | firstRow cells remark kind owner hp =>
      refine h.release (by simp [hp]) [] _ (fun trivia => ?_)
      simp only [Gist.take, hp]
      rfl
  | nextRow cells remark kind owner hp =>
      refine h.release (by simp [hp]) [] _ (fun trivia => ?_)
      simp only [Gist.take, hp, if_true]
      rfl
  | openFence indent kind hp =>
      refine h.release (by simp [hp]) [] _ (fun trivia => ?_)
      simp only [Gist.take, hp, if_true]
      rfl
  | closeFence indent remark kind opened hp =>
      rcases h.apart (by simp [hp]) with ⟨trivia, htrivia, rfl⟩
      exact ⟨_, _, by simp only [Gist.take, hp], rfl, .held trivia htrivia⟩
  | docLine text kind indent hp =>
      rcases h.apart (by simp [hp]) with ⟨trivia, htrivia, rfl⟩
      exact ⟨_, _, by simp only [Gist.take, hp], rfl, .held trivia htrivia⟩

/-- Behind a line that leaves the description open, lines that add nothing to
    it still add nothing. -/
theorem quiet_of_opening {text : List Char} {rest : List (List Char)} {opening : Opening}
    (hstep : g.step text = some (kinds, next)) (hp : next.phase = .opening opening)
    (hquiet : Quiet (text :: rest)) : Quiet rest := by
  rcases Option.bind_eq_some_iff.mp hstep with ⟨item, hread, htake⟩
  have hclass := hquiet.classify_eq hread
  cases takes_of_take htake with
  | blank => simpa only [Quiet, hclass (by simp), Item.lineClass] using hquiet
  | comment text => simpa only [Quiet, hclass (by simp), Item.lineClass] using hquiet
  | feature title remark hpreamble => simp only [Quiet, hclass (by simp), Item.lineClass] at hquiet
  | prose words remark o ho => simp only [Quiet, hclass (by simp), Item.lineClass] at hquiet
  -- Tags and headings end it.
  | tags names remark =>
      have hmode := mode_settle_addTags g names
      rw [← mode_hold _ (sideKinds remark)] at hmode
      simp only [Gist.mode, hp, reduceCtorEq] at hmode
  | block kind title remark kinds next hopen =>
      unfold Gist.openBlock at hopen
      split at hopen
      · cases hopen
        exact absurd hp (by simp)
      · exact absurd hopen (by simp only [reduceCtorEq, not_false_eq_true])
  | docLine words kind indent hverbatim => rw [hverbatim] at hp; exact absurd hp (by simp)
  | _ => exact absurd hp (by simp [opened])

theorem Agree.step {text : List Char} {rest : List (List Char)}
    (h : Agree (Quiet (text :: rest)) g other) (hstep : g.step text = some (kinds, next)) :
    ∃ others later, other.step text = some (others, later) ∧
      withoutBlanks others = withoutBlanks kinds ∧ Agree (Quiet rest) next later := by
  rcases Option.bind_eq_some_iff.mp hstep with ⟨item, hread, htake⟩
  have hprose : ∀ words remark, item = .prose words remark → ¬ Quiet (text :: rest) := by
    rintro words remark rfl hquiet
    simp only [Quiet, hquiet.classify_eq hread (by simp), Item.lineClass] at hquiet
  rcases h.take hprose htake with ⟨others, later, hothers, hsame, hagree⟩
  refine ⟨others, later, ?_, hsame, hagree.mono (fun o hp => quiet_of_opening hstep hp)⟩
  rw [Gist.step, h.mode, hread, Option.bind_some, hothers]

/-- Whatever is left, the body of the feature is what it is left for. -/
theorem phase_leave (h : g.phase ≠ .preamble) : g.leave.2.phase = .body := by
  unfold Gist.leave
  cases hp : g.phase with
  | preamble => exact absurd hp h
  | opening o => rfl
  | body => exact hp
  | block kind place => rfl

theorem Agree.finish (h : Agree quiet g other) (hfinish : g.finish = some kinds) :
    ∃ others, other.finish = some others ∧ withoutBlanks others = withoutBlanks kinds := by
  unfold Gist.finish at hfinish
  split at hfinish
  · rename_i hp
    rw [Option.ite_none_right_eq_some, Option.some.injEq] at hfinish
    rcases hfinish with ⟨htags, rfl⟩
    rcases h.apart (by simp [hp]) with ⟨trivia, htrivia, rfl⟩
    exact ⟨trivia, by simp only [Gist.finish, hp, htags, if_true], htrivia⟩
  · exact absurd hfinish (by simp only [reduceCtorEq, not_false_eq_true])
  -- What waits comes behind what is left, in both.
  · rename_i hpre hdoc
    rw [Option.ite_none_right_eq_some, Option.some.injEq] at hfinish
    rcases hfinish with ⟨htags, rfl⟩
    have hbody := phase_leave hpre
    rcases h.leave with ⟨hleft, hagree⟩
    rcases hagree.apart (by simp [hbody]) with ⟨trivia, htrivia, hleave⟩
    refine ⟨_, finish_eq (by rw [hleave]; exact hbody) (h.tags.trans htags) ?_, ?_⟩
    · intro indent hmode
      rw [h.mode, Gist.mode] at hmode
      split at hmode
      · exact absurd hmode (by simp)
      · exact hdoc _ _ (by assumption)
      · exact absurd hmode (by simp)
    · rw [hleave]
      simp only [withoutBlanks_append, hleft, htrivia]

/-- A blank line is held back wherever it is no text of a doc string. -/
theorem run_blank {text : List Char} (hmode : ∀ indent, g.mode ≠ .verbatim indent)
    (hblank : classify text = .blank) (texts : List (List Char)) :
    g.run (text :: texts) = (g.hold [.blankLine]).run texts := by
  have hread : Item.read? g.mode text = some .blank := by
    cases hm : g.mode with
    | verbatim indent => exact absurd hm (hmode indent)
    | _ => simp only [Item.read?, Item.structural?, hblank]
  rw [Gist.run, Gist.step, hread]
  simp [Gist.take]

/-- Agreeing states read the same, up to blank lines. -/
theorem Agree.run {texts : List (List Char)} (h : Agree (Quiet texts) g other)
    (hrun : g.run texts = some kinds) :
    ∃ others, other.run texts = some others ∧ withoutBlanks others = withoutBlanks kinds := by
  induction texts generalizing g other kinds with
  | nil => exact h.finish hrun
  | cons text rest ih =>
      rcases Option.bind_eq_some_iff.mp hrun with ⟨⟨first, next⟩, hstep, hmap⟩
      rcases Option.map_eq_some_iff.mp hmap with ⟨more, hmore, rfl⟩
      rcases h.step hstep with ⟨others, later, hother, hfirst, hagree⟩
      rcases ih hagree hmore with ⟨behind, hbehind, hsame⟩
      refine ⟨others ++ behind, ?_, ?_⟩
      · simp only [Gist.run, hother, Option.bind_some, hbehind, Option.map_some]
      · rw [withoutBlanks_append, withoutBlanks_append, hfirst, hsame]

end Gist

end Reader

end Gherkin
