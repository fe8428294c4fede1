import Gherkin.Proofs.Tree.Slots

/-!
# Which Events an Assembly Takes Out of Turn

Events that an assembly takes, and of which it makes a feature, should close
what they open in turn: the innermost part first, and every part in the end.
For features, blocks and steps they do. A doc string, a table, a row or
examples can be left open instead, because nothing that is closed around them
asks whether they are; and what is left open may even be closed later, in
another step.

So the events of a feature are in turn if and only if each of these parts is:
if it is closed by its own event, and what stands in between is in turn. Only
this half of the condition is left to whoever hands the events in.

## Main definitions

* `EventKind.opensInner`: Events that open a part which can be left open.
* `InnerClosed`: None of these parts is left open.
* `unclosedDocString`: Events that are taken although a part is left open.

## Theorems

* `owedAfter_eq_some`: What an event does to what is owed.
* `exists_closer`: In turn, every part has an event that closes it.
* `Assembly.feed_frame`: Features, blocks and steps are in turn.
* `Assembly.feed_isOpen`: While events are in turn, what is open is owed.
* `Assembly.feed_unclosed`: Events are in turn where the inner parts are.
* `assemble_unclosed_iff`: When the events of a feature are in turn.
-/

namespace Gherkin

section Unclosed

@[simp] theorem unclosed_nil (owed : List EventKind) : unclosed owed [] = some owed := rfl

@[simp] theorem unclosed_cons (owed : List EventKind) (kind : EventKind) (rest : List EventKind) :
    unclosed owed (kind :: rest) = (owedAfter owed kind).bind (unclosed · rest) := rfl

theorem unclosed_append (owed ks more : List EventKind) :
    unclosed owed (ks ++ more) = (unclosed owed ks).bind (unclosed · more) := by
  unfold unclosed
  rw [List.foldlM_append]
  rfl

theorem EventKind.closer?_of_isCloser {kind : EventKind} (h : kind.isCloser = true) :
    kind.closer? = none := by
  cases kind <;> simp_all [EventKind.closer?, EventKind.isCloser]

/-- What an event does to what is owed: it adds the event that closes its part,
    or pays what was owed first, or does neither. -/
theorem owedAfter_eq_some {owed next : List EventKind} {kind : EventKind} :
    owedAfter owed kind = some next ↔
      (∃ closer, kind.closer? = some closer ∧ next = closer :: owed) ∨
        (kind.isCloser = true ∧ owed = kind :: next) ∨
        (kind.nesting = .leaf ∧ next = owed) := by
  cases hopens : kind.closer? with
  | some closer =>
      have hcloses : kind.isCloser = false := by
        by_contra hc
        rw [EventKind.closer?_of_isCloser (by simpa using hc)] at hopens
        exact absurd hopens (by simp)
      simp [owedAfter, EventKind.nesting, hopens, hcloses, eq_comm]
  | none =>
      by_cases hcloses : kind.isCloser = true
      · cases owed with
        | nil => simp [owedAfter, EventKind.nesting, hopens, hcloses]
        | cons first rest =>
            by_cases hfirst : kind = first
            · subst hfirst
              simp [owedAfter, EventKind.nesting, hopens, hcloses]
            · simp [owedAfter, EventKind.nesting, hopens, hcloses, hfirst, Ne.symm hfirst]
      · simp [owedAfter, EventKind.nesting, hopens, hcloses, eq_comm]

/-- What is owed below makes no difference to events that never get to it. -/
theorem unclosed_extend {owed next ks : List EventKind} (below : List EventKind)
    (h : unclosed owed ks = some next) : unclosed (owed ++ below) ks = some (next ++ below) := by
  induction ks generalizing owed with
  | nil =>
      rw [unclosed_nil, Option.some.injEq] at h
      rw [h, unclosed_nil]
  | cons kind rest ih =>
      rw [unclosed_cons, Option.bind_eq_some_iff] at h
      rcases h with ⟨mid, hkind, hrest⟩
      have hbelow : owedAfter (owed ++ below) kind = some (mid ++ below) := by
        rw [owedAfter_eq_some] at hkind ⊢
        rcases hkind with ⟨closer, hopens, rfl⟩ | ⟨hcloses, rfl⟩ | ⟨hleaf, rfl⟩
        · exact Or.inl ⟨closer, hopens, rfl⟩
        · exact Or.inr (Or.inl ⟨hcloses, rfl⟩)
        · exact Or.inr (Or.inr ⟨hleaf, rfl⟩)
      rw [unclosed_cons, hbelow, Option.bind_some]
      exact ih hrest

theorem Balanced.of_unclosed {ks : List EventKind} (h : unclosed [] ks = some []) :
    Balanced ks :=
  fun owed => unclosed_extend owed h

/-- In turn, what is owed is paid: the events up to the one that closes the
    first part owed are in turn themselves. -/
theorem exists_closer {within owed rest : List EventKind} {closer : EventKind}
    (h : unclosed (within ++ closer :: owed) rest = some []) :
    ∃ inner behind, rest = inner ++ closer :: behind ∧ unclosed within inner = some [] := by
  -- `within` is what the events so far have opened above `closer`.
  induction rest generalizing within with
  | nil => simp at h
  | cons kind rest ih =>
      rw [unclosed_cons, Option.bind_eq_some_iff] at h
      rcases h with ⟨mid, hkind, hrest⟩
      have htake : ∀ next, mid = next ++ closer :: owed → owedAfter within kind = some next →
          ∃ inner behind, kind :: rest = inner ++ closer :: behind ∧
            unclosed within inner = some [] := by
        rintro next rfl hnext
        rcases ih hrest with ⟨inner, behind, rfl, hinner⟩
        exact ⟨kind :: inner, behind, rfl, by rw [unclosed_cons, hnext]; exact hinner⟩
      rcases owedAfter_eq_some.mp hkind with ⟨c, hopens, rfl⟩ | ⟨hcloses, howed⟩ | ⟨hleaf, rfl⟩
      · exact htake (c :: within) rfl (owedAfter_eq_some.mpr (Or.inl ⟨c, hopens, rfl⟩))
      · cases within with
        | nil =>
            -- Nothing is left above, so this is the event that closes the part.
            rw [List.nil_append, List.cons.injEq] at howed
            rcases howed with ⟨rfl, -⟩
            exact ⟨[], rest, rfl, rfl⟩
        | cons first others =>
            rw [List.cons_append, List.cons.injEq] at howed
            rcases howed with ⟨rfl, rfl⟩
            exact htake others rfl (owedAfter_eq_some.mpr (Or.inr (Or.inl ⟨hcloses, rfl⟩)))
      · exact htake within rfl (owedAfter_eq_some.mpr (Or.inr (Or.inr ⟨hleaf, rfl⟩)))

theorem EventKind.isFrame_of_closer? {kind closer : EventKind} (h : kind.closer? = some closer) :
    closer.isFrame = kind.isFrame := by
  cases kind <;> simp_all [EventKind.closer?, EventKind.isFrame] <;> subst h <;> rfl

/-- What is in turn stays so when only features, blocks and steps are looked
    at. -/
theorem unclosed_filter {owed next ks : List EventKind} (h : unclosed owed ks = some next) :
    unclosed (owed.filter EventKind.isFrame) (ks.filter EventKind.isFrame) =
      some (next.filter EventKind.isFrame) := by
  induction ks generalizing owed with
  | nil =>
      rw [unclosed_nil, Option.some.injEq] at h
      rw [h]
      rfl
  | cons kind rest ih =>
      rw [unclosed_cons, Option.bind_eq_some_iff] at h
      rcases h with ⟨mid, hkind, hrest⟩
      have hmid := ih hrest
      by_cases hframe : kind.isFrame = true
      · have hstep : owedAfter (owed.filter EventKind.isFrame) kind =
            some (mid.filter EventKind.isFrame) := by
          rw [owedAfter_eq_some] at hkind ⊢
          rcases hkind with ⟨closer, hopens, rfl⟩ | ⟨hcloses, rfl⟩ | ⟨hleaf, rfl⟩
          · have hcloser := (EventKind.isFrame_of_closer? hopens).trans hframe
            exact Or.inl ⟨closer, hopens, by simp [hcloser]⟩
          · exact Or.inr (Or.inl ⟨hcloses, by simp [hframe]⟩)
          · exact Or.inr (Or.inr ⟨hleaf, rfl⟩)
        rw [List.filter_cons_of_pos hframe, unclosed_cons, hstep]
        exact hmid
      · -- The event is left out, and what it adds to what is owed or pays is left out as well.
        have hsame : mid.filter EventKind.isFrame = owed.filter EventKind.isFrame := by
          rcases owedAfter_eq_some.mp hkind with
            ⟨closer, hopens, rfl⟩ | ⟨hcloses, rfl⟩ | ⟨hleaf, rfl⟩
          · have hcloser := EventKind.isFrame_of_closer? hopens
            simp [hcloser, hframe]
          · simp [hframe]
          · rfl
        rw [List.filter_cons_of_neg hframe, ← hsame]
        exact hmid

/-- If what is open is owed, then it still is after an event that is in turn. -/
theorem Slots.mem_of_opened {isOpen : EventKind → Bool} {owed next : List EventKind}
    {kind : EventKind} (hkind : owedAfter owed kind = some next)
    (howed : ∀ c, isOpen c = true → c ∈ owed) (c : EventKind)
    (hc : opened isOpen kind c = true) : c ∈ next := by
  unfold opened at hc
  rcases owedAfter_eq_some.mp hkind with ⟨closer, hopens, rfl⟩ | ⟨hcloses, rfl⟩ | ⟨hleaf, rfl⟩
  · by_cases hself : c = closer
    · exact hself ▸ List.mem_cons_self
    · simp only [hopens, Function.update_of_ne hself] at hc
      exact List.mem_cons_of_mem closer (howed c hc)
  · simp only [EventKind.closer?_of_isCloser hcloses, hcloses, if_true] at hc
    by_cases hself : c = kind
    · simp [hself] at hc
    · rw [Function.update_of_ne hself] at hc
      exact (List.mem_cons.mp (howed c hc)).resolve_left hself
  · have hneither : kind.closer? = none ∧ kind.isCloser = false := by
      unfold EventKind.nesting at hleaf
      split_ifs at hleaf with hopens hcloses
      exact ⟨by simpa using hopens, by simpa using hcloses⟩
    simp only [hneither, Bool.false_eq_true, if_false] at hc
    exact howed c hc

end Unclosed

theorem Slots.isFrame_of_mem_frame {s : Slots} {kind : EventKind} (h : kind ∈ s.frame) :
    kind.isFrame = true := by
  simp only [frame, List.mem_ite_nil_left, List.mem_append, List.mem_ite_nil_right,
    List.mem_singleton, List.mem_map] at h
  rcases h with ⟨-, (⟨-, rfl⟩ | ⟨block, -, rfl⟩) | ⟨-, rfl⟩⟩ <;> rfl

namespace Assembly

theorem feed_cons_eq_some {a b : Assembly} {kind : EventKind} {rest : List EventKind} :
    a.feed (kind :: rest) = some b ↔
      ∃ next, a.accept kind = .taken next ∧ next.feed rest = some b := by
  rw [feed]
  cases a.accept kind <;> simp

/-- Features, blocks and steps are in turn in whatever an assembly takes. -/
theorem feed_frame {a b : Assembly} {ks : List EventKind} (hfeed : a.feed ks = some b)
    (ha : a.slots.Framed) :
    unclosed a.slots.frame (ks.filter EventKind.isFrame) = some b.slots.frame ∧
      b.slots.Framed := by
  induction ks generalizing a with
  | nil =>
      rw [feed_nil, Option.some.injEq] at hfeed
      subst hfeed
      exact ⟨rfl, ha⟩
  | cons kind rest ih =>
      rcases feed_cons_eq_some.mp hfeed with ⟨next, haccept, hrest⟩
      have hafter := slots_of_accept haccept
      have hframe := Slots.frame_after ha hafter
      rcases ih hrest (ha.after hafter) with ⟨hturn, hframed⟩
      refine ⟨?_, hframed⟩
      by_cases hkind : kind.isFrame = true
      · rw [if_pos hkind] at hframe
        rw [List.filter_cons_of_pos hkind, unclosed_cons, hframe]
        exact hturn
      · rw [if_neg hkind] at hframe
        rw [List.filter_cons_of_neg hkind, ← hframe]
        exact hturn

/-- While events are in turn, what is open is owed. -/
theorem feed_isOpen {a b : Assembly} {ks owed next : List EventKind}
    (hfeed : a.feed ks = some b) (hturn : unclosed owed ks = some next)
    (ha : ∀ c, a.slots.isOpen c = true → c ∈ owed) :
    ∀ c, b.slots.isOpen c = true → c ∈ next := by
  induction ks generalizing a owed with
  | nil =>
      rw [feed_nil, Option.some.injEq] at hfeed
      rw [unclosed_nil, Option.some.injEq] at hturn
      subst hfeed hturn
      exact ha
  | cons kind rest ih =>
      rcases feed_cons_eq_some.mp hfeed with ⟨c, haccept, hrest⟩
      rw [unclosed_cons, Option.bind_eq_some_iff] at hturn
      rcases hturn with ⟨mid, hkind, hmid⟩
      refine ih hrest hmid ?_
      rw [Slots.isOpen_after (slots_of_accept haccept)]
      exact Slots.mem_of_opened hkind ha

end Assembly

/-- Whether an event opens a part that can be left open: nothing asks for it
    when what is around it is closed. -/
def EventKind.opensInner : EventKind → Bool
  | .docString _ | .table | .row | .examples => true
  | _ => false

/-- Every doc string, table, row and examples is closed by an event of its own,
    and what stands in between is in turn. -/
def InnerClosed (kinds : List EventKind) : Prop :=
  ∀ kind behind, kind :: behind <:+ kinds → kind.opensInner = true →
    ∃ closer inner after, kind.closer? = some closer ∧ behind = inner ++ closer :: after ∧
      unclosed [] inner = some []

theorem InnerClosed.suffix {kinds rest : List EventKind} (h : InnerClosed kinds)
    (hrest : rest <:+ kinds) : InnerClosed rest :=
  fun kind behind hsuffix => h kind behind (hsuffix.trans hrest)

/-- In turn, no inner part is left open. -/
theorem innerClosed_of_unclosed {kinds : List EventKind} (h : unclosed [] kinds = some []) :
    InnerClosed kinds := by
  rintro kind behind ⟨before, rfl⟩ hinner
  rw [unclosed_append, Option.bind_eq_some_iff] at h
  rcases h with ⟨owed, -, hrest⟩
  have hopens : ∃ closer, kind.closer? = some closer := by
    cases kind <;> simp_all [EventKind.opensInner, EventKind.closer?]
  rcases hopens with ⟨closer, hcloser⟩
  have hkind : owedAfter owed kind = some (closer :: owed) :=
    owedAfter_eq_some.mpr (Or.inl ⟨closer, hcloser, rfl⟩)
  rw [unclosed_cons, hkind, Option.bind_some] at hrest
  have hclosed : unclosed ([] ++ closer :: owed) behind = some [] := hrest
  rcases exists_closer hclosed with ⟨inner, after, hbehind, hturn⟩
  exact ⟨closer, inner, after, hcloser, hbehind, hturn⟩

/-- What else than a feature, a block or a step an event can be about. -/
theorem EventKind.inner_cases {kind : EventKind} (h : kind.isFrame = false) :
    kind.opensInner = true ∨ kind.isCloser = true ∨ kind.nesting = .leaf := by
  cases kind <;> simp_all [isFrame, opensInner, isCloser, nesting, closer?]

/-- Where inner parts are closed, events that an assembly takes are in turn. -/
theorem Assembly.feed_unclosed {a b : Assembly} {ks : List EventKind}
    (hfeed : a.feed ks = some b) (ha : a.slots.Framed)
    (hopen : ∀ c, a.slots.isOpen c = true → c ∈ a.slots.frame) (hks : InnerClosed ks) :
    unclosed a.slots.frame ks = some b.slots.frame := by
  -- An inner part is jumped over as a whole, so this is not an induction on single events.
  induction hlength : ks.length using Nat.strong_induction_on generalizing a ks with
  | _ length ih =>
  cases ks with
  | nil =>
      rw [feed_nil, Option.some.injEq] at hfeed
      rw [hfeed]
      rfl
  | cons kind rest =>
      rcases feed_cons_eq_some.mp hfeed with ⟨next, haccept, hrest⟩
      have hafter := slots_of_accept haccept
      have hframe := Slots.frame_after ha hafter
      have hclosed : InnerClosed rest := hks.suffix (List.suffix_cons kind rest)
      -- Where what is owed follows the frame, this is one event more.
      have hone : owedAfter a.slots.frame kind = some next.slots.frame →
          unclosed a.slots.frame (kind :: rest) = some b.slots.frame := by
        intro hkind
        rw [unclosed_cons, hkind, Option.bind_some]
        refine ih rest.length (by rw [← hlength]; simp) hrest (ha.after hafter) ?_ hclosed rfl
        rw [Slots.isOpen_after hafter]
        exact Slots.mem_of_opened hkind hopen
      by_cases hkind : kind.isFrame = true
      · rw [if_pos hkind] at hframe
        exact hone hframe
      · rw [if_neg hkind] at hframe
        rcases EventKind.inner_cases (by simpa using hkind) with hopens | hcloses | hleaf
        · rcases hks kind rest List.suffix_rfl hopens with
            ⟨closer, inner, after, hcloser, rfl, hinner⟩
          have hwhole : Balanced (kind :: inner ++ [closer]) :=
            (Balanced.of_unclosed hinner).wrap kind hcloser
          have hsplit : kind :: (inner ++ closer :: after) =
              (kind :: inner ++ [closer]) ++ after := by simp
          rw [hsplit, feed_append, Option.bind_eq_some_iff] at hfeed
          rcases hfeed with ⟨c, hpart, hlater⟩
          rcases feed_frame hpart ha with ⟨hturn, hframed⟩
          -- Nothing is left of the part where only the frame is looked at.
          have hsame : c.slots.frame = a.slots.frame := by
            have hnone := Balanced.of_unclosed (unclosed_filter (hwhole [])) a.slots.frame
            rw [hturn, Option.some.injEq] at hnone
            exact hnone
          have howed := feed_isOpen hpart (hwhole a.slots.frame) hopen
          rw [hsplit, unclosed_append, hwhole a.slots.frame, Option.bind_some, ← hsame]
          refine ih after.length ?_ hlater hframed (hsame ▸ howed) ?_ rfl
          · rw [← hlength]
            simp only [List.length_cons, List.length_append]
            omega
          · exact hks.suffix ⟨kind :: inner ++ [closer], by simp⟩
        · -- Only what is open is closed, and what is open is part of the frame here.
          have hmem := hopen kind (Slots.isOpen_of_closes hafter hcloses)
          exact absurd (Slots.isFrame_of_mem_frame hmem) hkind
        · exact hone (by rw [owedAfter_leaf hleaf, hframe])

/-- An assembly that refuses one of the events fails the delivery. -/
theorem Assembly.deliverAll_refused {a : Assembly} {events : List Event}
    (h : a.feed (events.map Event.kind) = none) :
    (deliverAll (answer : Assembly → Event → Reply Assembly Unit ProcessorError) [a]
      events).failure ≠ none := by
  induction events generalizing a with
  | nil => simp at h
  | cons event rest ih =>
      rw [List.map_cons, feed] at h
      cases htake : a.accept event.kind with
      | taken next =>
          rw [htake] at h
          simpa [deliverAll, deliver, answer, htake, Verdict.next, Verdict.reason?] using ih h
      | refused reason left =>
          simp [deliverAll, deliver, answer, htake, Verdict.reason?]

/-- Events describe a feature only if an assembly takes them all. -/
theorem feed_of_assemble {events : List Event} {t : Feature} (h : assemble events = .ok t) :
    ∃ a, Assembly.feed {} (events.map Event.kind) = some a ∧ a.feature? = some t := by
  cases hfeed : Assembly.feed {} (events.map Event.kind) with
  | none =>
      have hfails := Assembly.deliverAll_refused hfeed
      rcases Option.ne_none_iff_exists'.mp hfails with ⟨failure, hfailure⟩
      simp [assemble, hfailure] at h
  | some a =>
      rw [assemble_of_feed hfeed] at h
      cases hfeature : a.feature? with
      | none => simp [hfeature] at h
      | some t' =>
          simp only [hfeature, Option.elim_some, Except.ok.injEq] at h
          exact ⟨a, rfl, h ▸ hfeature⟩

/-- In the events of a feature, features, blocks and steps are closed in turn
    and none is left open. All events are if and only if no inner part is left
    open. -/
theorem assemble_unclosed_iff {events : List Event} {t : Feature}
    (h : assemble events = .ok t) :
    unclosed [] ((events.map Event.kind).filter EventKind.isFrame) = some [] ∧
      (unclosed [] (events.map Event.kind) = some [] ↔
        InnerClosed (events.map Event.kind)) := by
  rcases feed_of_assemble h with ⟨a, hfeed, hfeature⟩
  have hframe : a.slots.frame = [] := by
    have hfinished : a.finished = true := by
      by_contra hopen
      simp [Assembly.feature?, hopen] at hfeature
    simp [Slots.frame, Assembly.slots, hfinished]
  refine ⟨?_, innerClosed_of_unclosed, fun hclosed => ?_⟩
  · have hturn := (Assembly.feed_frame hfeed Slots.framed_initial).1
    rwa [hframe] at hturn
  · have hnone : ∀ c, Slots.isOpen {} c = true → c ∈ Slots.frame {} := by
      intro c hc
      cases c <;> simp [Slots.isOpen] at hc
    have hturn := Assembly.feed_unclosed hfeed Slots.framed_initial hnone hclosed
    rwa [hframe] at hturn

/-- A step that ends while its doc string is open. -/
def unclosedDocString : List Event :=
  [.feature "F" "" [], .block .scenario "S" [], .step .context "x" [], .docString 4, .stepEnd,
    .blockEnd .scenario, .featureEnd].map (fun kind => ⟨kind, ⟨0, 0⟩⟩)

/-- The events are taken, and the doc string is never closed. -/
theorem assemble_unclosedDocString :
    (∃ t, assemble unclosedDocString = .ok t) ∧
      unclosed [] (unclosedDocString.map Event.kind) ≠ some [] :=
  ⟨⟨_, rfl⟩, by decide⟩

/-- What is wrong with these events is the doc string and nothing around it. -/
theorem not_innerClosed_unclosedDocString :
    unclosed [] ((unclosedDocString.map Event.kind).filter EventKind.isFrame) = some [] ∧
      ¬ InnerClosed (unclosedDocString.map Event.kind) := by
  have htaken : assemble unclosedDocString = .ok
      { title := "F"
        scenarios := [.plain { title := "S", steps := [{ keyword := .context, text := "x" }] }] } :=
    rfl
  rcases assemble_unclosed_iff htaken with ⟨hframe, hinner⟩
  exact ⟨hframe, fun hclosed => absurd (hinner.mpr hclosed) (by decide)⟩

end Gherkin
