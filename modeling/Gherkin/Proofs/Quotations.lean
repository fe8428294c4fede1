import Gherkin.Proofs.Asides
import Gherkin.Proofs.Source.Rejoined

/-!
# What Is Quoted Means Nothing

Between the fences of a doc string every line is text, whatever it looks like:
a tag, a comment, a row, a heading or an empty line. The only thing that a
reader asks of it is whether it is the closing fence. So the body of a doc
string can be replaced by any lines that are no fences. The document stays
accepted, everything in front of the doc string and behind it is read as
before, and each of the new lines is reported as it stands, less the indentation
of the opening fence as far as the line has it.

That holds because of what the reader remembers. Inside a doc string it
remembers the indentation of the fence and where the doc string stands, and a
line of text changes neither.

## Main definitions

* `IsFence`: Lines that begin with three quotes.
* `quotedKind`: The event of a line in a doc string.
* `Quotation`: A doc string in a document, with the lines around it.
* `Quotation.texts`, `Quotation.replaced`: The document with another body.

## Theorems

* `Reader.Gist.run_quoted`: Lines of text inside a doc string.
* `Reader.Gist.exists_fence`: A doc string has a closing fence.
* `Reader.exists_opening`: Where a doc string begins.
* `Quotation.texts_replaced`: The lines of the document with another body.
* `readEvents_quotation`: The body of a doc string is inert.
-/

namespace Gherkin

open Reader
open Source (Line)

/-- Whether a line begins with three quotes, blanks aside. -/
def IsFence (text : List Char) : Prop :=
  fence <+: Text.skipBlanks text

instance : DecidablePred IsFence :=
  fun text => decidable_of_iff (fence.isPrefixOf (Text.skipBlanks text) = true)
    List.isPrefixOf_iff_prefix

theorem isFence_iff_classify {text : List Char} : IsFence text ↔ classify text = .fence := by
  constructor
  · rintro ⟨rest, hrest⟩
    exact classify_eq_of_content hrest.symm rfl
  · intro hclass
    rcases begins_of_class hclass with ⟨rest, hrest⟩
    exact ⟨rest, hrest.symm⟩

/-- The event of a line in a doc string whose fence has the given indentation. As
    much of it is taken from the line, as far as the line has it. -/
def quotedKind (indent : Nat) (text : List Char) : EventKind :=
  .docLine (String.ofList (text.drop (min indent (Text.indentation text))))

theorem Text.stripIndent_eq_drop (indent : Nat) (cs : List Char) :
    Text.stripIndent indent cs = cs.drop (min indent (Text.indentation cs)) := by
  fun_induction Text.stripIndent indent cs with
  | case1 indent c rest hblank ih =>
      rw [ih]
      simp [Text.indentation, hblank]
  | case2 indent c rest hblank => simp [Text.indentation, hblank]
  | case3 indent cs hnot =>
      cases indent with
      | zero => simp
      | succ indent =>
          cases cs with
          | nil => simp
          | cons c rest => exact absurd rfl (hnot indent c rest rfl)

namespace Reader.Gist

variable {g : Gist} {kind : BlockKind} {indent : Nat}

/-- A line of text inside a doc string is reported as it stands, and nothing else
    comes of it. -/
theorem step_quoted (hp : g.phase = .block kind (.docString indent)) {text : List Char}
    (htext : ¬ IsFence text) : g.step text = some ([quotedKind indent text], g) := by
  have hmode : g.mode = .verbatim indent := by simp only [mode, hp]
  have hread : Item.read? (.verbatim indent) text =
      some (.docLine (String.ofList (Text.stripIndent indent text))) := by
    rw [isFence_iff_classify] at htext
    simp only [Item.read?]
  rw [step, hmode, hread, Option.bind_some, Text.stripIndent_eq_drop]
  simp only [take, hp, quotedKind]

/-- Lines of text inside a doc string, by induction on the lines. -/
theorem run_quoted (hp : g.phase = .block kind (.docString indent)) {texts : List (List Char)}
    (htexts : ∀ text ∈ texts, ¬ IsFence text) (rest : List (List Char)) :
    g.run (texts ++ rest) = (g.run rest).map (texts.map (quotedKind indent) ++ ·) := by
  induction texts with
  | nil => simp
  | cons text more ih =>
      rw [List.forall_mem_cons] at htexts
      rw [List.cons_append, run, step_quoted hp htexts.1, Option.bind_some]
      dsimp only
      rw [ih htexts.2, Option.map_map]
      rfl

/-- The closing fence is reported as the end of the doc string and of its step,
    with the comment beside it. -/
theorem run_fence (hp : g.phase = .block kind (.docString indent)) {text : List Char}
    (htext : IsFence text) {rest : List (List Char)} {kinds : List EventKind}
    (hrun : g.run (text :: rest) = some kinds) :
    ∃ remark more, kinds = inlineKinds remark ++ .docStringEnd :: .stepEnd :: more := by
  have hmode : g.mode = .verbatim indent := by simp only [mode, hp]
  simp only [run, step, hmode, Option.bind_eq_some_iff, Option.map_eq_some_iff] at hrun
  rcases hrun with ⟨⟨reported, next⟩, ⟨item, hread, htake⟩, more, -, rfl⟩
  have hitem : Item.structural? text = some item := by
    simpa only [Item.read?, isFence_iff_classify.mp htext] using hread
  simp only [Item.structural?, isFence_iff_classify.mp htext, Option.map_eq_some_iff] at hitem
  rcases hitem with ⟨remark, -, rfl⟩
  simp only [take, hp, Option.some.injEq, Prod.mk.injEq] at htake
  rcases htake with ⟨rfl, -⟩
  exact ⟨remark, more, by simp⟩

/-- A doc string that is read has a closing fence, and up to it there is nothing
    but text. -/
theorem exists_fence (hp : g.phase = .block kind (.docString indent)) {lines : List Line}
    {kinds : List EventKind} (hrun : g.run (lines.map Line.text) = some kinds) :
    ∃ body closing below after, lines = body ++ closing :: below ∧
      (∀ line ∈ body, ¬ IsFence line.text) ∧ IsFence closing.text ∧
      g.run (closing.text :: below.map Line.text) = some after ∧
      kinds = body.map (quotedKind indent ·.text) ++ after := by
  induction lines generalizing kinds with
  -- The document must not end inside of the doc string.
  | nil => exact absurd hrun (by simp [run, finish, hp])
  | cons line rest ih =>
      by_cases hline : IsFence line.text
      · exact ⟨[], line, rest, kinds, rfl, by simp, hline, hrun, rfl⟩
      · rw [List.map_cons, run, step_quoted hp hline, Option.bind_some,
          Option.map_eq_some_iff] at hrun
        rcases hrun with ⟨more, hmore, rfl⟩
        rcases ih hmore with ⟨body, closing, below, after, rfl, hbody, hclosing, hafter, rfl⟩
        exact ⟨line :: body, closing, below, after, rfl, List.forall_mem_cons.mpr ⟨hline, hbody⟩,
          hclosing, hafter, rfl⟩

end Reader.Gist

namespace Reader.Gist.Reported

-- What is held back is trivia, so only an opening fence reports a doc string.
variable {g next : Gist} {emitted kinds : List EventKind} {item : Item} {indent : Nat}

theorem docString_notMem_trivia (h : Reported g emitted) : .docString indent ∉ g.trivia :=
  fun hmem => absurd (h.trivia _ hmem) (by simp [EventKind.isTrivia])

theorem docString_notMem_closers (place : Place) : .docString indent ∉ place.closers :=
  fun hmem => absurd (Place.isCloser_of_mem_closers _ hmem) (by simp [EventKind.isCloser])

theorem docString_notMem_announce (h : Reported g emitted) {opening : Opening}
    (hp : g.phase = .opening opening) : .docString indent ∉ (g.announce opening).1 := by
  rcases (h.opening opening hp).2 with ⟨comment, hremarks⟩
  simp [Gist.announce, hremarks, inlineKinds, h.docString_notMem_trivia]

theorem docString_notMem_settle (h : Reported g emitted) : .docString indent ∉ g.settle.1 := by
  unfold Gist.settle
  split
  · exact h.docString_notMem_announce (by assumption)
  · exact docString_notMem_closers _
  · simp

theorem docString_notMem_leave (h : Reported g emitted) : .docString indent ∉ g.leave.1 := by
  unfold Gist.leave
  split
  · exact h.docString_notMem_announce (by assumption)
  · simp [docString_notMem_closers]
  · simp

theorem docString_notMem_finish (h : Reported g emitted) (hfinish : g.finish = some kinds) :
    .docString indent ∉ kinds := by
  unfold Gist.finish at hfinish
  split at hfinish
  · rw [Option.ite_none_right_eq_some, Option.some.injEq] at hfinish
    rcases hfinish with ⟨-, rfl⟩
    exact h.docString_notMem_trivia
  · exact absurd hfinish (by simp)
  · rw [Option.ite_none_right_eq_some, Option.some.injEq] at hfinish
    rcases hfinish with ⟨-, rfl⟩
    simp [h.docString_notMem_leave, h.leave.docString_notMem_trivia]

/-- Only an opening fence reports a doc string. -/
theorem fence_of_docString (h : Reported g emitted) (htake : Takes g item kinds next)
    (hmem : .docString indent ∈ kinds) :
    item = .fence indent none ∧ ∃ kind, g.phase = .block kind (.argument .step) := by
  cases htake with
  | openFence opened kind hp =>
      have hopened : indent = opened := by
        simpa [h.docString_notMem_trivia] using hmem
      exact ⟨by rw [hopened], kind, hp⟩
  | tags names remark => exact absurd hmem h.docString_notMem_settle
  | block kind title remark opened next hopen =>
      simp only [openBlock, Option.ite_none_right_eq_some, Option.some.injEq,
        Prod.mk.injEq] at hopen
      rcases hopen with ⟨-, rfl, rfl⟩
      simp [inlineKinds, h.docString_notMem_leave, h.leave.docString_notMem_trivia] at hmem
  | _ => simp [inlineKinds, rowKinds, h.docString_notMem_trivia, docString_notMem_closers] at hmem

end Reader.Gist.Reported

namespace Reader

variable {state next : State} {line : Line} {emitted : List EventKind} {indent : Nat} {span : Span}

/-- What a line that is taken says. -/
theorem State.exists_takes {reported : List Event}
    (hstep : state.step line = .ok (reported, next)) :
    ∃ item, Item.read? state.gist.mode line.text = some item ∧
      state.gist.Takes item (reported.map Event.kind) next.gist := by
  have hgist := State.step_gist state line
  rw [hstep, Outcome.gist_ok] at hgist
  rcases Option.bind_eq_some_iff.mp hgist.symm with ⟨item, hread, htake⟩
  exact ⟨item, hread, Gist.takes_of_take htake⟩

/-- What a line reports goes on with what has been reported. -/
theorem Gist.Reported.step {reported : List Event} (h : state.gist.Reported emitted)
    (hstep : state.step line = .ok (reported, next)) :
    next.gist.Reported (emitted ++ reported.map Event.kind) := by
  rcases State.exists_takes hstep with ⟨item, hread, htakes⟩
  refine h.take htakes ?_
  rintro cells comment rfl
  exact LineGrammar.length_pos_of_read? hread

/-- A line that reports a doc string is its opening fence, and reports it last. -/
theorem State.step_docString {before after : List Event} (h : state.gist.Reported emitted)
    (hstep : state.step line = .ok (before ++ ⟨.docString indent, span⟩ :: after, next)) :
    IsFence line.text ∧ indent = Text.indentation line.text ∧
      span = ⟨line.contentStart, line.stop⟩ ∧ after = [] ∧
      ∃ kind, next.phase = .block kind (.docString indent) := by
  rcases State.exists_takes hstep with ⟨item, hread, htakes⟩
  have hmem : .docString indent ∈
      (before ++ ⟨.docString indent, span⟩ :: after).map Event.kind := by simp
  rcases h.fence_of_docString htakes hmem with ⟨rfl, kind, hphase⟩
  have hclass : classify line.text = .fence := by
    rw [Gist.mode, hphase] at hread
    exact Item.lineClass_structural? hread
  generalize hreported : before ++ ⟨.docString indent, span⟩ :: after = reported at hstep
  cases State.reads_of_step hstep with
  | openFence kind hphase hclass hend =>
      rcases append_eq_append_cons hreported.symm with ⟨rest, htrivia, -⟩ | ⟨rest, -, hlast⟩
      -- Trivia has no doc string.
      · have hheld : .docString indent ∈ state.gist.trivia := by
          simp [State.gist, htrivia]
        exact absurd hheld h.docString_notMem_trivia
      · rcases List.singleton_eq_append_iff.mp hlast with ⟨-, hlast⟩ | ⟨-, hlast⟩
        · simp only [List.cons.injEq, Event.mk.injEq, EventKind.docString.injEq] at hlast
          rcases hlast with ⟨⟨rfl, rfl⟩, rfl⟩
          exact ⟨isFence_iff_classify.mpr hclass, rfl, rfl, rfl, kind, rfl⟩
        · exact absurd hlast (List.cons_ne_nil _ _)
  | _ => simp_all [State.gist, Phase.gist]

/-- What a line reports goes before the events of the lines below it. -/
theorem State.gist_run_cons {reported : List Event}
    (hstep : state.step line = .ok (reported, next)) (texts : List (List Char)) :
    state.gist.run (line.text :: texts) =
      (next.gist.run texts).map (reported.map Event.kind ++ ·) := by
  rw [Gist.run, ← State.step_gist, hstep]
  rfl

/-- Where a doc string begins. Up to there the document is read alike, whatever
    stands below, by induction on the lines. -/
theorem exists_opening {stop : Nat} {lines : List Line} {earlier later : List Event}
    (h : state.gist.Reported emitted)
    (hrun : run stop state lines = .ok (earlier ++ ⟨.docString indent, span⟩ :: later)) :
    ∃ above opening below next kind, lines = above ++ opening :: below ∧
      IsFence opening.text ∧ indent = Text.indentation opening.text ∧
      span = ⟨opening.contentStart, opening.stop⟩ ∧
      State.phase next = .block kind (.docString indent) ∧ run stop next below = .ok later ∧
      ∀ texts, state.gist.run (above.map Line.text ++ opening.text :: texts) =
        (next.gist.run texts).map (earlier.map Event.kind ++ .docString indent :: ·) := by
  induction lines generalizing state emitted earlier with
  | nil =>
      have hfinish := State.finish_gist state stop
      rw [run] at hrun
      rw [hrun] at hfinish
      have hmem : .docString indent ∈
          (earlier ++ ⟨.docString indent, span⟩ :: later).map Event.kind := by simp
      exact absurd hmem (h.docString_notMem_finish hfinish.symm)
  | cons line rest ih =>
      rcases bind_eq_ok hrun with ⟨⟨reported, next⟩, hstep, hrun⟩
      rcases bind_eq_ok hrun with ⟨more, hmore, hevents⟩
      rcases append_eq_append_cons (Except.ok.inj hevents) with
        ⟨after, rfl, rfl⟩ | ⟨before, rfl, rfl⟩
      -- The doc string is reported by this line.
      · rcases State.step_docString h hstep with ⟨hfence, hindent, hspan, rfl, kind, hphase⟩
        refine ⟨[], line, rest, next, kind, rfl, hfence, hindent, hspan, hphase, hmore, ?_⟩
        intro texts
        rw [List.map_nil, List.nil_append, State.gist_run_cons hstep]
        simp
      -- The doc string is below this line.
      · rcases ih (h.step hstep) hmore with
          ⟨above, opening, below, last, kind, rfl, hfence, hindent, hspan, hphase, hlater, hgist⟩
        refine ⟨line :: above, opening, below, last, kind, rfl, hfence, hindent, hspan, hphase,
          hlater, ?_⟩
        intro texts
        rw [List.map_cons, List.cons_append, State.gist_run_cons hstep, hgist, Option.map_map]
        simp [Function.comp_def]

end Reader

namespace Source

/-- Lines that all end alike, in front of other characters. -/
theorem textsOf_ended {ending : Ending} (hending : ending ≠ .none) {texts : List (List Char)}
    (htexts : ∀ text ∈ texts, Unbroken text) {rest : List Char}
    (hrest : rest.head? ≠ some '\n') :
    ending.behind ((texts.map (Line.mk 0 · ending)).flatMap Line.chars ++ rest) =
        (texts.map (Line.mk 0 · ending)).flatMap Line.chars ++ rest ∧
      textsOf ((texts.map (Line.mk 0 · ending)).flatMap Line.chars ++ rest) =
        texts ++ textsOf rest := by
  induction texts with
  | nil => exact ⟨Ending.behind_of_head fun _ => hrest, rfl⟩
  | cons text more ih =>
      rw [List.forall_mem_cons] at htexts
      rcases ih htexts.2 with ⟨hbehind, hmore⟩
      have hchars : ((text :: more).map (Line.mk 0 · ending)).flatMap Line.chars ++ rest =
          text ++ ending.chars ++ ((more.map (Line.mk 0 · ending)).flatMap Line.chars ++ rest) := by
        simp [Line.chars]
      rw [hchars]
      constructor
      -- No line here begins with a line feed behind a carriage return.
      · rcases behind_line htexts.1 (Or.inr hending) ending _ with hsame | ⟨-, hreturn, hfeed, -⟩
        · exact hsame
        · exact absurd (hreturn.symm.trans hfeed) (by simp)
      · rw [textsOf_line htexts.1 hending, hbehind, hmore]
        rfl

end Source

/-- A doc string in a document: its fences, the lines between them, and the lines
    around. -/
structure Quotation (source : String) where
  above : List Line
  opening : Line
  body : List Line
  closing : Line
  below : List Line
  lines_eq : Source.lines source = above ++ opening :: (body ++ closing :: below)
  opens : IsFence opening.text
  quoted : ∀ line ∈ body, ¬ IsFence line.text
  closes : IsFence closing.text

namespace Quotation

variable {source : String} (q : Quotation source)

/-- The number of blanks in front of the opening fence. -/
def indent : Nat :=
  Text.indentation q.opening.text

/-- Where the opening fence stands. -/
def span : Span :=
  ⟨q.opening.contentStart, q.opening.stop⟩

/-- The texts of the lines of the document, with another body. -/
def texts (body : List (List Char)) : List (List Char) :=
  q.above.map Line.text ++ q.opening.text :: (body ++ q.closing.text :: q.below.map Line.text)

/-- The document with another body, whose lines end as the opening fence does. -/
def replaced (body : List (List Char)) : String :=
  Source.join (q.above ++ q.opening ::
    (body.map (Line.mk 0 · q.opening.ending) ++ q.closing :: q.below))

/-- The document with another body has the lines of that body in place of its
    own. -/
theorem texts_replaced {body : List (List Char)} (h : ∀ text ∈ body, Source.Unbroken text) :
    (Source.lines (q.replaced body)).map Line.text = q.texts body := by
  have hopening : Source.lines source = (q.above ++ [q.opening]) ++
      (q.body ++ q.closing :: q.below) := by
    rw [q.lines_eq, List.append_assoc, List.singleton_append]
  have hclosing : Source.lines source = (q.above ++ q.opening :: q.body) ++
      (q.closing :: q.below) := by
    rw [q.lines_eq, List.append_assoc, List.cons_append]
  have hended : ∀ line ∈ q.above ++ [q.opening], line.ending ≠ .none := by
    have hfollow := Line.follow_split 0 source.toList
    rw [← Source.lines, hopening] at hfollow
    exact hfollow.ended (by simp)
  -- The closing fence has a character that is no line feed in front.
  have hhead : ((q.closing :: q.below).flatMap Line.chars).head? ≠ some '\n' := by
    have hmem : q.closing ∈ Line.split 0 source.toList := by
      rw [← Source.lines, q.lines_eq]
      simp
    have hunbroken := Line.unbroken_split 0 source.toList q.closing hmem
    rw [List.flatMap_cons, Line.chars]
    cases htext : q.closing.text with
    | nil =>
        have hfence := q.closes
        rw [htext] at hfence
        exact absurd hfence (by decide)
    | cons c rest =>
        rw [htext] at hunbroken
        simpa using (hunbroken c List.mem_cons_self).1
  rcases Source.textsOf_ended (hended q.opening (by simp)) h hhead with ⟨hbehind, hbody⟩
  have hchars : (q.above ++ q.opening :: (body.map (Line.mk 0 · q.opening.ending) ++
      q.closing :: q.below)).flatMap Line.chars =
        (q.above ++ [q.opening]).flatMap Line.chars ++
          ((body.map (Line.mk 0 · q.opening.ending)).flatMap Line.chars ++
            (q.closing :: q.below).flatMap Line.chars) := by
    simp
  have hlast : Source.lastEnding (q.above ++ [q.opening]) = q.opening.ending := by
    simp [Source.lastEnding]
  rw [replaced, Source.texts_join, hchars, Source.textsOf_lines hopening hended, hlast, hbehind,
    hbody, Source.textsOf_below hclosing]
  simp [texts]

end Quotation

/-- A document is accepted if its gist is. -/
theorem exists_readEvents_of_gist {source : String} {kinds : List EventKind}
    (h : Gist.run {} ((Source.lines source).map Line.text) = some kinds) :
    ∃ events, readEvents source = .ok events ∧ events.map Event.kind = kinds := by
  rw [← readEvents_gist] at h
  cases hread : readEvents source with
  | error refusal =>
      rw [hread] at h
      exact absurd h (by simp [Except.toOption])
  | ok events =>
      rw [hread] at h
      exact ⟨events, rfl, Option.some.inj h⟩

/-- The body of a doc string is inert. Every doc string that is reported has its
    lines in the document, an opening fence where it is reported, text, and a
    closing fence. With any other lines in place of the text that are no fences,
    the document is accepted, and the events of the doc string's own lines are all
    that changes: there is one for each new line. -/
theorem readEvents_quotation {source : String} {events earlier later : List Event} {indent : Nat}
    {span : Span} (h : readEvents source = .ok events)
    (hdoc : events = earlier ++ ⟨.docString indent, span⟩ :: later) :
    ∃ (q : Quotation source) (after : List EventKind), q.indent = indent ∧ q.span = span ∧
      later.map Event.kind = q.body.map (quotedKind indent ·.text) ++ after ∧
      (∃ remark rest, after = inlineKinds remark ++ .docStringEnd :: .stepEnd :: rest) ∧
      ∀ body : List (List Char), (∀ text ∈ body, Source.Unbroken text ∧ ¬ IsFence text) →
        (Source.lines (q.replaced body)).map Line.text = q.texts body ∧
        ∀ other, (Source.lines other).map Line.text = q.texts body →
          ∃ others, readEvents other = .ok others ∧
            others.map Event.kind = earlier.map Event.kind ++
              .docString indent :: (body.map (quotedKind indent) ++ after) := by
  have hrun := readEvents_eq_ok h
  rw [hdoc] at hrun
  have hinitial : ({} : State).gist.Reported [] := Gist.Reported.initial
  rcases exists_opening hinitial hrun with
    ⟨above, opening, lines, state, kind, hlines, hopens, rfl, rfl, hphase, hlater, habove⟩
  have hquote : state.gist.phase = .block kind (.docString (Text.indentation opening.text)) := by
    simp [State.gist, Phase.gist, hphase]
  have hbelow := run_gist (Source.size source) state lines
  rw [hlater] at hbelow
  rcases Gist.exists_fence hquote hbelow.symm with
    ⟨body, closing, below, after, rfl, hquoted, hcloses, hafter, hkinds⟩
  refine ⟨⟨above, opening, body, closing, below, hlines, hopens, hquoted, hcloses⟩, after, rfl, rfl,
    hkinds, Gist.run_fence hquote hcloses hafter, fun new hnew => ⟨?_, fun other hother => ?_⟩⟩
  · exact Quotation.texts_replaced _ fun text htext => (hnew text htext).1
  · have hinit : ({} : Gist) = ({} : State).gist := rfl
    refine exists_readEvents_of_gist ?_
    rw [hother, Quotation.texts, hinit, habove,
      Gist.run_quoted hquote (fun text htext => (hnew text htext).2), hafter]
    rfl

/-- A document with a doc string, indented by two, and a comment on its closing
    fence. -/
def quotedSample : String :=
  "Feature: f\nScenario:\nGiven x\n  \"\"\"\n  y\n\"\"\" # c\n@t\nThen z"

/-- Lines that would be tags, a comment, a row, nothing and a step anywhere else,
    and one that ends within quotes. -/
def strangeBody : List (List Char) :=
  ["@t".toList, "   # c".toList, " | a".toList, [], "Given".toList, "\\\"\"".toList]

/-- The sample with the strange body is accepted, and each of its lines is
    reported less at most two blanks. -/
theorem readEvents_quotation_sample : ∃ (q : Quotation quotedSample) (before after : List EventKind)
    (others : List Event), q.indent = 2 ∧ readEvents (q.replaced strangeBody) = .ok others ∧
    others.map Event.kind = before ++ .docString 2 :: ([.docLine "@t", .docLine " # c",
      .docLine "| a", .docLine "", .docLine "Given", .docLine "\\\"\""] ++ after) := by
  have hread : ∃ events, readEvents quotedSample = .ok events ∧
      events.any (fun event => event.kind == .docString 2) = true :=
    exists_readEvents (by decide +kernel)
  have hstrange : ∀ text ∈ strangeBody, Source.Unbroken text ∧ ¬ IsFence text := by
    simp [strangeBody, Source.Unbroken, IsFence, fence, Text.skipBlanks, Text.isBlank]
  rcases hread with ⟨events, hread, hany⟩
  rcases List.any_eq_true.mp hany with ⟨⟨kind, span⟩, hevent, hkind⟩
  rcases List.append_of_mem hevent with ⟨earlier, later, hdoc⟩
  rw [show kind = .docString 2 from beq_iff_eq.mp hkind] at hdoc
  rcases readEvents_quotation hread hdoc with ⟨q, after, hindent, -, -, -, hbody⟩
  rcases hbody strangeBody hstrange with ⟨htexts, hother⟩
  rcases hother _ htexts with ⟨others, hothers, hkinds⟩
  exact ⟨q, _, after, others, hindent, hothers, hkinds⟩

end Gherkin
