import Mathlib.Data.Set.Card
import Gherkin.Proofs.Asides
import Gherkin.Proofs.Tree.Nesting

/-!
# How Deep an Event Stands

The depth of an event is the number of parts that are open around it: those
that are opened before it and closed behind it. An event that opens or closes a
part is not inside that part, so the two stand at the same depth.

That is a statement about the whole list of events, while a depth that is kept
while going through the list only knows what came before. The two agree because
what is still open behind the first events is what will be closed in the end.
`stillOpen` is that middle term: it looks only at what came before, and as a
set of places it can be counted. An event changes it by at most one place, and
the events between those that open and close a part do not change it at all.

## Main definitions

* `Pairs`: An event closes the part that another opens.
* `around`: The parts that are open around an event.
* `stillOpen`: The parts that are still open behind a list of events.

## Theorems

* `exists_opener`: The part that is to be closed next, and where it was opened.
* `stillOpen_ncard`: As many parts are still open as closing events are owed.
* `around_eq`: What is open around an event is still open behind it.
* `depthAt_foldl`: The depth that is kept is the number of parts around.
* `exists_pairs`: What is closed was opened.
* `Pairs.around_eq`: Both events of a part stand inside the same parts.
-/

namespace Gherkin

/-- The event at `i` opens a part and the event at `j` closes it: what stands in
    between is balanced. -/
def Pairs (kinds : List EventKind) (i j : Nat) : Prop :=
  ∃ before opener inner closer behind,
    kinds = before ++ opener :: (inner ++ closer :: behind) ∧
    i = before.length ∧ j = before.length + inner.length + 1 ∧
    opener.closer? = some closer ∧ Balanced inner

/-- Where the parts begin that are open around the event at `i`: they are opened
    before it and closed behind it. -/
def around (kinds : List EventKind) (i : Nat) : Set Nat :=
  {j | ∃ k, j < i ∧ i < k ∧ Pairs kinds j k}

/-- Where the parts begin that are still open: nothing behind the event that
    opens one closes more than is opened there. -/
def stillOpen (kinds : List EventKind) : Set Nat :=
  {i | ∃ before opener behind, kinds = before ++ opener :: behind ∧ i = before.length ∧
    opener.closer?.isSome = true ∧ (unclosed [] behind).isSome = true}

theorem EventKind.nesting_opens_iff {kind : EventKind} :
    kind.nesting = .opens ↔ kind.closer?.isSome = true := by
  unfold nesting
  split_ifs with hopens hcloses <;> simp [hopens]

theorem EventKind.nesting_closes_iff {kind : EventKind} :
    kind.nesting = .closes ↔ kind.isCloser = true := by
  cases kind <;> simp [nesting, closer?, isCloser]

section Owed

variable {before behind inner kinds owed next : List EventKind} {kind closer : EventKind}

theorem Balanced.unclosed_append (h : Balanced inner) :
    unclosed owed (before ++ inner) = unclosed owed before := by
  rw [Gherkin.unclosed_append]
  cases unclosed owed before with
  | none => rfl
  | some mid => exact h mid

theorem unclosed_isSome_left (h : (unclosed owed (before ++ behind)).isSome = true) :
    (unclosed owed before).isSome = true := by
  rw [Gherkin.unclosed_append] at h
  exact Option.isSome_of_isSome_bind h

/-- Behind an event that opens a part, events that close no more than they open
    leave it open. -/
theorem unclosed_opener (hopens : kind.closer? = some closer)
    (hbehind : unclosed [] behind = some next) :
    unclosed owed (kind :: behind) = some (next ++ closer :: owed) := by
  have hkind : owedAfter owed kind = some (closer :: owed) :=
    owedAfter_eq_some.mpr (Or.inl ⟨closer, hopens, rfl⟩)
  rw [unclosed_cons, hkind, Option.bind_some]
  exact unclosed_extend (closer :: owed) hbehind

/-- What is owed before and behind an event of a list that is in turn. -/
theorem exists_owed (h : unclosed [] (before ++ kind :: behind) = some next) :
    ∃ owed left, unclosed [] before = some owed ∧ owedAfter owed kind = some left := by
  rw [unclosed_append, Option.bind_eq_some_iff] at h
  rcases h with ⟨owed, hbefore, hrest⟩
  rw [unclosed_cons, Option.bind_eq_some_iff] at hrest
  rcases hrest with ⟨left, hkind, -⟩
  exact ⟨owed, left, hbefore, hkind⟩

/-- The part that is to be closed next was opened by the last event behind which
    everything is balanced. -/
theorem exists_opener (h : unclosed [] kinds = some (closer :: owed)) :
    ∃ before opener inner, kinds = before ++ opener :: inner ∧ opener.closer? = some closer ∧
      Balanced inner ∧ unclosed [] before = some owed := by
  -- A part that was opened and closed in between is jumped over as a whole.
  induction hlength : kinds.length using Nat.strong_induction_on generalizing kinds closer owed with
  | _ length ih =>
  rcases List.eq_nil_or_concat' kinds with rfl | ⟨front, kind, rfl⟩
  · simp at h
  · rw [unclosed_append, Option.bind_eq_some_iff] at h
    rcases h with ⟨mid, hfront, hlast⟩
    rw [List.length_append, List.length_singleton] at hlength
    have hkind : owedAfter mid kind = some (closer :: owed) := by simpa using hlast
    rcases owedAfter_eq_some.mp hkind with ⟨c, hopens, heq⟩ | ⟨hcloses, rfl⟩ | ⟨hleaf, rfl⟩
    · rcases List.cons.inj heq with ⟨rfl, rfl⟩
      exact ⟨front, kind, [], rfl, hopens, Balanced.nil, hfront⟩
    · rcases ih front.length (by omega) hfront rfl with
        ⟨earlier, first, within, rfl, hfirst, hwithin, hearlier⟩
      rw [List.length_append, List.length_cons] at hlength
      rcases ih earlier.length (by omega) hearlier rfl with
        ⟨before, opener, inner, rfl, hopener, hinner, hbefore⟩
      refine ⟨before, opener, inner ++ (first :: within ++ [kind]), by simp, hopener, ?_, hbefore⟩
      exact hinner.append (hwithin.wrap first hfirst)
    · rcases ih front.length (by omega) hfront rfl with
        ⟨before, opener, inner, rfl, hopener, hinner, hbefore⟩
      refine ⟨before, opener, inner ++ [kind], by simp, hopener, hinner.append ?_, hbefore⟩
      exact Balanced.leaves (by simpa using hleaf)

end Owed

section StillOpen

variable {before behind inner kinds owed : List EventKind} {kind closer : EventKind} {i : Nat}

theorem lt_length_of_stillOpen (h : i ∈ stillOpen kinds) : i < kinds.length := by
  rcases h with ⟨before, opener, behind, rfl, rfl, -, -⟩
  simp

theorem notMem_stillOpen (h : kinds.length ≤ i) : i ∉ stillOpen kinds :=
  fun hmem => absurd (lt_length_of_stillOpen hmem) (by omega)

theorem finite_stillOpen (kinds : List EventKind) : (stillOpen kinds).Finite :=
  (Set.finite_lt_nat kinds.length).subset fun _ => lt_length_of_stillOpen

theorem stillOpen_nil : stillOpen [] = ∅ := by
  ext i
  simp [stillOpen]

/-- What is opened in balanced events is closed in them. -/
theorem Balanced.unclosed_behind (h : Balanced (before ++ kind :: behind))
    (hopens : kind.closer?.isSome = true) : unclosed [] behind = none := by
  rcases Option.isSome_iff_exists.mp hopens with ⟨closer, hcloser⟩
  cases hnext : unclosed [] behind with
  | none => rfl
  | some next =>
      have hall := h []
      rw [Gherkin.unclosed_append, Option.bind_eq_some_iff] at hall
      rcases hall with ⟨owed, -, hrest⟩
      rw [unclosed_opener hcloser hnext] at hrest
      simp at hrest

/-- Balanced events leave open what is open. -/
theorem stillOpen_balanced (h : Balanced inner) :
    stillOpen (before ++ inner) = stillOpen before := by
  ext i
  constructor
  · rintro ⟨front, opener, behind, heq, rfl, hopens, hbehind⟩
    rcases append_eq_append_cons heq with ⟨rest, rfl, rfl⟩ | ⟨rest, -, rfl⟩
    · exact ⟨front, opener, rest, rfl, rfl, hopens, unclosed_isSome_left hbehind⟩
    · rw [h.unclosed_behind hopens] at hbehind
      exact absurd hbehind (by simp)
  · rintro ⟨front, opener, behind, rfl, rfl, hopens, hbehind⟩
    refine ⟨front, opener, behind ++ inner, by simp, rfl, hopens, ?_⟩
    rwa [h.unclosed_append]

/-- An event that opens a part adds it to what is open. -/
theorem stillOpen_opener (h : kind.closer? = some closer) :
    stillOpen (before ++ [kind]) = insert before.length (stillOpen before) := by
  ext i
  rw [Set.mem_insert_iff]
  constructor
  · rintro ⟨front, opener, behind, heq, rfl, hopens, hbehind⟩
    rcases append_eq_append_cons heq with ⟨rest, rfl, rfl⟩ | ⟨rest, rfl, hrest⟩
    · exact Or.inr ⟨front, opener, rest, rfl, rfl, hopens, unclosed_isSome_left hbehind⟩
    · have hnil : rest = [] := by cases rest <;> simp_all
      exact Or.inl (by simp [hnil])
  · rintro (rfl | ⟨front, opener, behind, rfl, rfl, hopens, hbehind⟩)
    · exact ⟨before, kind, [], rfl, rfl, by simp [h], rfl⟩
    · rcases Option.isSome_iff_exists.mp hbehind with ⟨next, hnext⟩
      refine ⟨front, opener, behind ++ [kind], by simp, rfl, hopens, ?_⟩
      rw [unclosed_append, hnext, Option.bind_some, unclosed_opener h rfl]
      rfl

/-- The part that the last event opens is still open, if it opens one. -/
theorem last_mem_stillOpen (before : List EventKind) (kind : EventKind) :
    before.length ∈ stillOpen (before ++ [kind]) ↔ kind.closer?.isSome = true := by
  constructor
  · rintro ⟨front, opener, rest, heq, hlength, hopens, -⟩
    rcases List.append_inj heq hlength with ⟨rfl, hlast⟩
    rwa [(List.cons.inj hlast).1]
  · intro hopens
    exact ⟨before, kind, [], rfl, rfl, hopens, rfl⟩

/-- As many parts are still open as closing events are owed. -/
theorem stillOpen_ncard (h : unclosed [] kinds = some owed) :
    (stillOpen kinds).ncard = owed.length := by
  induction owed generalizing kinds with
  | nil =>
      have hnone : stillOpen kinds = ∅ := by
        rw [← List.nil_append kinds, stillOpen_balanced (Balanced.of_unclosed h), stillOpen_nil]
      rw [hnone, Set.ncard_empty, List.length_nil]
  | cons closer owed ih =>
      rcases exists_opener h with ⟨before, opener, inner, rfl, hopens, hinner, hbefore⟩
      have hopen : stillOpen (before ++ opener :: inner) =
          insert before.length (stillOpen before) := by
        rw [List.append_cons, stillOpen_balanced hinner, stillOpen_opener hopens]
      rw [hopen, Set.ncard_insert_of_notMem (notMem_stillOpen le_rfl) (finite_stillOpen before),
        ih hbefore, List.length_cons]

end StillOpen

section Around

variable {before behind kinds owed : List EventKind} {kind : EventKind}

/-- What is open around an event is still open behind it, the part that the
    event opens apart. -/
theorem around_eq (h : unclosed [] (before ++ kind :: behind) = some []) :
    around (before ++ kind :: behind) before.length =
      stillOpen (before ++ [kind]) \ {before.length} := by
  ext j
  constructor
  · rintro ⟨k, hj, hk, front, opener, inner, closer, after, heq, rfl, rfl, hopens, hinner⟩
    rcases append_eq_append_cons heq with ⟨rest, rfl, hrest⟩ | ⟨rest, rfl, -⟩
    · rcases append_eq_append_cons hrest with ⟨more, rfl, -⟩ | ⟨more, rfl, -⟩
      -- The event stands between the two, so what comes before it there is still in turn.
      · have hturn : (unclosed [] (rest ++ [kind] ++ more)).isSome = true := by
          rw [List.append_assoc, List.singleton_append, hinner []]
          rfl
        refine ⟨⟨front, opener, rest ++ [kind], by simp, rfl, by simp [hopens],
          unclosed_isSome_left hturn⟩, hj.ne⟩
      · simp only [List.length_append, List.length_cons] at hk
        omega
    · simp only [List.length_append] at hj
      omega
  · rintro ⟨⟨front, opener, rest, heq, rfl, hopens, hrest⟩, hne⟩
    rcases append_eq_append_cons heq with ⟨more, rfl, rfl⟩ | ⟨more, rfl, hmore⟩
    · rcases Option.isSome_iff_exists.mp hopens with ⟨closer, hcloser⟩
      rcases Option.isSome_iff_exists.mp hrest with ⟨next, hnext⟩
      have hsplit : front ++ opener :: more ++ kind :: behind =
          front ++ (opener :: (more ++ [kind]) ++ behind) := by simp
      rw [hsplit, unclosed_append, Option.bind_eq_some_iff] at h
      rcases h with ⟨owed, -, howed⟩
      rw [unclosed_append, unclosed_opener hcloser hnext, Option.bind_some] at howed
      rcases exists_closer howed with ⟨inner, after, rfl, hinner⟩
      refine ⟨front.length + (more ++ [kind] ++ inner).length + 1, by simp, by simp,
        front, opener, more ++ [kind] ++ inner, closer, after, by simp, rfl, rfl, hcloser, ?_⟩
      apply Balanced.of_unclosed
      rw [unclosed_append, hnext, Option.bind_some, hinner]
    · have hnil : more = [] := by cases more <;> simp_all
      exact absurd (by simp [hnil]) hne

/-- The events that open and close a part stand inside the same parts. -/
theorem Pairs.around_eq {i j : Nat} (h : Pairs kinds i j) (hturn : unclosed [] kinds = some []) :
    around kinds j = around kinds i := by
  rcases h with ⟨before, opener, inner, closer, behind, rfl, rfl, rfl, hopens, hinner⟩
  have hsplit : before ++ opener :: (inner ++ closer :: behind) =
      before ++ opener :: inner ++ closer :: behind := by simp
  have hplace : before.length + inner.length + 1 = (before ++ opener :: inner).length := by
    rw [List.length_append, List.length_cons]
    omega
  have hwhole : before ++ opener :: inner ++ [closer] =
      before ++ (opener :: inner ++ [closer]) := by simp
  rw [Gherkin.around_eq hturn, stillOpen_opener hopens]
  rw [hsplit] at hturn ⊢
  rw [hplace, Gherkin.around_eq hturn, hwhole, stillOpen_balanced (hinner.wrap opener hopens),
    Set.sdiff_singleton_eq_self (notMem_stillOpen (by simp)),
    Set.insert_sdiff_self_of_notMem (notMem_stillOpen le_rfl)]

/-- In turn, an event that closes a part has one that opens it. -/
theorem exists_pairs (h : unclosed [] (before ++ kind :: behind) = some [])
    (hcloses : kind.isCloser = true) : ∃ i, Pairs (before ++ kind :: behind) i before.length := by
  rcases exists_owed h with ⟨owed, next, hbefore, hkind⟩
  rcases owedAfter_eq_some.mp hkind with ⟨closer, hopens, -⟩ | ⟨-, rfl⟩ | ⟨hleaf, -⟩
  · rw [EventKind.closer?_of_isCloser hcloses] at hopens
    exact absurd hopens (by simp only [reduceCtorEq, not_false_eq_true])
  · rcases exists_opener hbefore with ⟨front, opener, inner, rfl, hopens, hinner, -⟩
    refine ⟨front.length, front, opener, inner, kind, behind, by simp, rfl, ?_, hopens, hinner⟩
    rw [List.length_append, List.length_cons, Nat.add_assoc]
  · rw [EventKind.nesting_closes_iff.mpr hcloses] at hleaf
    exact absurd hleaf (by simp only [reduceCtorEq, not_false_eq_true])

end Around

section Running

variable {owed next : List EventKind} {event : Event} {before behind : List Event}

/-- The depth that is kept is the number of closing events that are owed. -/
theorem Event.depthAfter_eq (h : owedAfter owed event.kind = some next) :
    event.depthAfter owed.length = next.length := by
  rcases owedAfter_eq_some.mp h with ⟨closer, hopens, rfl⟩ | ⟨hcloses, rfl⟩ | ⟨hleaf, rfl⟩
  · have hnesting := EventKind.nesting_opens_iff.mpr (Option.isSome_of_mem hopens)
    simp [depthAfter, hnesting]
  · simp [depthAfter, EventKind.nesting_closes_iff.mpr hcloses]
  · simp [depthAfter, hleaf]

theorem foldl_depthAfter {events : List Event}
    (h : unclosed owed (events.map Event.kind) = some next) :
    events.foldl Event.depthAfter owed.length = next.length := by
  induction events generalizing owed with
  | nil =>
      rw [List.map_nil, unclosed_nil, Option.some.injEq] at h
      rw [List.foldl_nil, h]
  | cons event rest ih =>
      rw [List.map_cons, unclosed_cons, Option.bind_eq_some_iff] at h
      rcases h with ⟨mid, hevent, hrest⟩
      rw [List.foldl_cons, Event.depthAfter_eq hevent]
      exact ih hrest

/-- In a list that is in turn, the depth that is kept is the number of parts
    around an event, and it does not go below zero. -/
theorem depthAt_foldl
    (h : unclosed [] ((before ++ event :: behind).map Event.kind) = some []) :
    event.depthAt (before.foldl Event.depthAfter 0) =
        (around ((before ++ event :: behind).map Event.kind) before.length).ncard ∧
      (event.kind.isCloser = true → 0 < before.foldl Event.depthAfter 0) := by
  rw [List.map_append, List.map_cons] at h ⊢
  have haround := around_eq h
  rw [List.length_map] at haround
  rcases exists_owed h with ⟨owed, next, hbefore, hevent⟩
  have hdepth : before.foldl Event.depthAfter 0 = owed.length := foldl_depthAfter hbefore
  have hopen : (stillOpen (before.map Event.kind ++ [event.kind])).ncard = next.length := by
    refine stillOpen_ncard ?_
    rw [unclosed_append, hbefore, Option.bind_some, unclosed_cons, hevent]
    rfl
  have hlast := last_mem_stillOpen (before.map Event.kind) event.kind
  rw [List.length_map, ← EventKind.nesting_opens_iff] at hlast
  rw [haround, hdepth, ← EventKind.nesting_closes_iff]
  rcases owedAfter_eq_some.mp hevent with ⟨closer, hopens, rfl⟩ | ⟨hcloses, rfl⟩ | ⟨hleaf, rfl⟩
  -- The part that an event opens is open behind it, but not around it.
  · have hnesting := EventKind.nesting_opens_iff.mpr (Option.isSome_of_mem hopens)
    rw [Set.ncard_sdiff_singleton_of_mem (hlast.mpr hnesting), hopen]
    simp [Event.depthAt, hnesting]
  · have hnesting := EventKind.nesting_closes_iff.mpr hcloses
    rw [Set.sdiff_singleton_eq_self (by simp [hlast, hnesting]), hopen]
    simp [Event.depthAt, hnesting]
  · rw [Set.sdiff_singleton_eq_self (by simp [hlast, hleaf]), hopen]
    simp [Event.depthAt, hleaf]

end Running

end Gherkin
