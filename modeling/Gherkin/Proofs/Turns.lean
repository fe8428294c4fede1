import Mathlib.Data.List.Range
import Gherkin.Delivery

/-!
# Whose Turn It Is

A delivery hands out turns. Event by event, the processors are called in the
order in which they were registered, and the first that fails ends it. What a
processor does at its turn depends on the events that it was given before, and
on nothing else: the processors share the moment at which the delivery ends,
and that moment is all they share.

So a delivery is told by its turns alone. If each processor had been given all
events, there would be a first turn at which one of them fails, or none. The
delivery is cut there: the processors up to the one that fails have received
its event, those behind it have not, and each of them is what it makes of the
events it received.

A session adds when a delivery takes place at all. However often a document is
read and its events are delivered, in whatever order, the events at hand are
those of the last reading, and each delivery begins with what the one before
it left of the processors.

## Main definitions

* `Turn`, `Turn.all`: A processor's turn, and all turns in order.
* `fed`: What a processor makes of events.
* `firstFailure`: The turn that ends a delivery.
* `share`, `cutShort`: What each processor receives until then, and what the
  delivery leaves.
* `Session.Call`, `Session.after`: Readings and deliveries, in any order.
* `Session.received`: The events that a processor received in all.
* `Session.Delivers`: What a session does next.

## Theorems

* `deliver_eq`, `deliverAll_eq`: One event, and many, told by their turns.
* `firstFailure_eq_none`, `firstFailure_eq_some`: Which turn is the first.
* `Session.delivers_after`: A session after any readings and deliveries.
-/

namespace Gherkin

/-- A processor's turn: the number of the event and that of the processor, both
    counted from zero. -/
structure Turn where
  event : Nat
  processor : Nat
  deriving DecidableEq, Repr

namespace Turn

/-- The turns of a delivery in order. For each event the processors have their
    turns in the order in which they were registered. -/
def all (events processors : Nat) : List Turn :=
  (List.range events).flatMap fun event => (List.range processors).map (Turn.mk event)

/-- The turns up to one, and that one. -/
def upTo (turn : Turn) (processors : Nat) : List Turn :=
  all turn.event processors ++ (List.range (turn.processor + 1)).map (Turn.mk turn.event)

/-- The same turn, one event later. -/
def later (turn : Turn) : Turn :=
  ⟨turn.event + 1, turn.processor⟩

/-- The same turn, of the next processor. -/
def beside (turn : Turn) : Turn :=
  ⟨turn.event, turn.processor + 1⟩

theorem all_succ (events processors : Nat) :
    all (events + 1) processors =
      (List.range processors).map (Turn.mk 0) ++ (all events processors).map later := by
  simp only [all, List.range_succ_eq_map, List.flatMap_cons, List.flatMap_map, List.map_flatMap,
    List.map_map]
  rfl

/-- Whether a turn comes before another: on an earlier event, or on the same
    event for a processor that was registered before. -/
def Before (turn other : Turn) : Prop :=
  turn.event < other.event ∨ turn.event = other.event ∧ turn.processor < other.processor

theorem mem_all {turn : Turn} {events processors : Nat} :
    turn ∈ all events processors ↔ turn.event < events ∧ turn.processor < processors := by
  rcases turn with ⟨event, processor⟩
  simp [all]

/-- Turns are listed in order. -/
theorem pairwise_all (events processors : Nat) : (all events processors).Pairwise Before := by
  refine List.pairwise_flatMap.mpr ⟨fun event _ => ?_, ?_⟩
  · exact List.pairwise_map.mpr (List.pairwise_lt_range.imp fun hlt => Or.inr ⟨rfl, hlt⟩)
  · refine List.pairwise_lt_range.imp fun hlt turn hturn other hother => ?_
    rcases List.mem_map.mp hturn with ⟨processor, -, rfl⟩
    rcases List.mem_map.mp hother with ⟨processor, -, rfl⟩
    exact Or.inl hlt

theorem upTo_later (turn : Turn) (processors : Nat) :
    turn.later.upTo processors =
      (List.range processors).map (Turn.mk 0) ++ (turn.upTo processors).map later := by
  simp only [upTo, later, all_succ, List.append_assoc, List.map_append, List.map_map]
  rfl

end Turn

section Turns

variable {σ ω ε : Type} (answer : σ → Event → Reply σ ω ε)

/-- What a processor makes of events that it is given one after the other. -/
def fed (p : σ) (events : List Event) : σ :=
  events.foldl (fun state event => (answer state event).state) p

@[simp] theorem fed_nil (p : σ) : fed answer p [] = p := rfl

@[simp] theorem fed_cons (p : σ) (event : Event) (rest : List Event) :
    fed answer p (event :: rest) = fed answer (answer p event).state rest := rfl

@[simp] theorem fed_append (p : σ) (first second : List Event) :
    fed answer p (first ++ second) = fed answer (fed answer p first) second :=
  List.foldl_append

variable (processors : List σ) (events : List Event)

/-- What a processor answers at its turn, having been given all events
    before. -/
def Turn.reply? (turn : Turn) : Option (Reply σ ω ε) :=
  processors[turn.processor]?.bind fun p =>
    events[turn.event]?.map fun event => answer (fed answer p (events.take turn.event)) event

/-- The notes that are left at a turn. -/
def Turn.notes (turn : Turn) : List ω :=
  ((turn.reply? answer processors events).map Reply.notes).getD []

/-- How a processor fails at its turn, if it does. -/
def Turn.failure? (turn : Turn) : Option ε :=
  (turn.reply? answer processors events).bind Reply.failure

/-- The first turn at which a processor fails, and how. -/
def firstFailure : Option (Turn × ε) :=
  (Turn.all events.length processors.length).findSome? fun turn =>
    (turn.failure? answer processors events).map (turn, ·)

/-- The events that the processor with the given number receives in a delivery
    that ends at the given failure. -/
def share (failure : Option (Turn × ε)) (number : Nat) : List Event :=
  match failure with
  | none => events
  | some (turn, _) =>
    events.take (if number ≤ turn.processor then turn.event + 1 else turn.event)

/-- The turns of a delivery that ends at the given failure. -/
def taken (failure : Option (Turn × ε)) : List Turn :=
  match failure with
  | none => Turn.all events.length processors.length
  | some (turn, _) => turn.upTo processors.length

/-- What a delivery leaves that ends at the given failure: each processor is what
    it makes of the events it receives, and notes are left turn by turn. -/
def cutShort (failure : Option (Turn × ε)) : Delivered σ ω ε where
  processors := processors.mapIdx fun number p => fed answer p (share events failure number)
  notes := (taken processors events failure).flatMap (Turn.notes answer processors events)
  failure := failure.map Prod.snd

end Turns

section Delivery

variable {σ ω ε : Type} (answer : σ → Event → Reply σ ω ε) (processors : List σ) (event : Event)
  (rest : List Event)

/-- The processors once all of them have answered an event. -/
def answered : List σ :=
  processors.map fun p => (answer p event).state

@[simp] theorem length_answered : (answered answer processors event).length = processors.length :=
  List.length_map _

/-- Processors that all stay as they are. -/
theorem mapIdx_kept {α : Type} (kept : List α) : kept.mapIdx (fun _ p => p) = kept :=
  List.ext_getElem? (by simp)

theorem Turn.reply?_first (number : Nat) :
    Turn.reply? answer processors (event :: rest) ⟨0, number⟩ =
      processors[number]?.map (answer · event) := by
  rw [Turn.reply?]
  cases processors[number]? <;> rfl

/-- A later turn is one of the rest of the events, with the processors as the
    first event leaves them. -/
theorem Turn.reply?_later (turn : Turn) :
    turn.later.reply? answer processors (event :: rest) =
      turn.reply? answer (answered answer processors event) rest := by
  simp only [Turn.reply?, Turn.later, answered, List.getElem?_map, List.getElem?_cons_succ,
    List.take_succ_cons, fed_cons, Option.bind_map]
  rfl

theorem firstFailure_one :
    firstFailure answer processors [event] =
      (List.range processors.length).findSome? fun number =>
        (processors[number]?.bind fun p => (answer p event).failure).map (⟨0, number⟩, ·) := by
  have hall : Turn.all [event].length processors.length =
      (List.range processors.length).map (Turn.mk 0) := by
    simp [Turn.all]
  rw [firstFailure, hall]
  simp only [List.findSome?_map, Turn.failure?, Turn.reply?_first, Function.comp_def,
    Option.bind_map]

/-- The first failure is one on the first event, or else one on the rest. -/
theorem firstFailure_cons :
    firstFailure answer processors (event :: rest) =
      (firstFailure answer processors [event]).or
        ((firstFailure answer (answered answer processors event) rest).map
          (Prod.map Turn.later id)) := by
  rw [firstFailure_one]
  simp only [firstFailure, List.length_cons, Turn.all_succ, List.findSome?_append,
    List.findSome?_map, List.map_findSome?, length_answered, Turn.failure?, Function.comp_def,
    Turn.reply?_first, Turn.reply?_later, Option.bind_map, Option.map_map]
  rfl

/-- The first failure on one event is that of the first processor, or else one of
    the others. -/
theorem firstFailure_one_cons (p : σ) :
    firstFailure answer (p :: processors) [event] =
      ((answer p event).failure.map (⟨0, 0⟩, ·)).or
        ((firstFailure answer processors [event]).map (Prod.map Turn.beside id)) := by
  simp only [firstFailure_one, List.length_cons, List.range_succ_eq_map, List.findSome?_cons,
    List.findSome?_map, List.map_findSome?, List.getElem?_cons_zero, List.getElem?_cons_succ,
    Option.bind_some, Function.comp_def, Option.map_map]
  cases (answer p event).failure <;> rfl

/-- A failure on one event is one on the first. -/
theorem event_of_firstFailure_one {failure : Turn × ε}
    (h : firstFailure answer processors [event] = some failure) : failure.1.event = 0 := by
  rw [firstFailure_one] at h
  rcases List.exists_of_findSome?_eq_some h with ⟨number, -, hnumber⟩
  rcases Option.map_eq_some_iff.mp hnumber with ⟨error, -, rfl⟩
  rfl

/-- How many processors have answered an event at which a delivery may fail. -/
def reached (failure : Option (Turn × ε)) : Nat :=
  match failure with
  | none => processors.length
  | some (turn, _) => turn.processor + 1

/-- One event goes to the processors up to the first that fails. -/
theorem deliver_eq :
    deliver answer processors event =
      let failure := firstFailure answer processors [event]
      { processors := processors.mapIdx fun number p => fed answer p (share [event] failure number)
        notes := (processors.take (reached processors failure)).flatMap fun p =>
          (answer p event).notes
        failure := failure.map Prod.snd } := by
  induction processors with
  | nil => rfl
  | cons p others ih =>
      rw [deliver, ih, firstFailure_one_cons]
      cases hp : (answer p event).failure with
      -- The others keep their states, as nothing is delivered to them.
      | some error =>
          simp [share, reached, List.mapIdx_cons, mapIdx_kept]
      | none =>
          cases hothers : firstFailure answer others [event] with
          | none => simp [share, reached, List.mapIdx_cons]
          | some failure =>
              have hevent := event_of_firstFailure_one answer others event hothers
              simp [share, reached, List.mapIdx_cons, Turn.beside, hevent]

/-- The notes that the first processors leave on the first event. -/
theorem notes_first (count : Nat) :
    ((List.range count).map (Turn.mk 0)).flatMap (Turn.notes answer processors (event :: rest)) =
      (processors.take count).flatMap fun p => (answer p event).notes := by
  simp only [List.flatMap_map, Turn.notes, Turn.reply?_first]
  induction processors generalizing count with
  | nil => simp
  | cons p others ih =>
      cases count with
      | zero => simp
      | succ count =>
          rw [List.range_succ_eq_map, List.flatMap_cons, List.flatMap_map, List.take_succ_cons,
            List.flatMap_cons, ← ih]
          rfl

/-- The notes that are left on the rest of the events. -/
theorem notes_later (turns : List Turn) :
    (turns.map Turn.later).flatMap (Turn.notes answer processors (event :: rest)) =
      turns.flatMap (Turn.notes answer (answered answer processors event) rest) := by
  rw [List.flatMap_map]
  congr 1
  funext turn
  rw [Turn.notes, Turn.reply?_later, Turn.notes]

theorem taken_later (failure : Option (Turn × ε)) :
    taken processors (event :: rest) (failure.map (Prod.map Turn.later id)) =
      (List.range processors.length).map (Turn.mk 0) ++
        (taken (answered answer processors event) rest failure).map Turn.later := by
  cases failure with
  | none => simp [taken, Turn.all_succ]
  | some found => simp [taken, Turn.upTo_later]

/-- What is received of events of which all processors answer the first. -/
theorem share_later (failure : Option (Turn × ε)) (number : Nat) :
    share (event :: rest) (failure.map (Prod.map Turn.later id)) number =
      event :: share rest failure number := by
  rcases failure with _ | ⟨⟨last, processor⟩, error⟩
  · rfl
  · by_cases hnumber : number ≤ processor
    · simp [share, Turn.later, hnumber]
    · simp [share, Turn.later, hnumber]

/-- A delivery is told by its turns. It ends at the first at which a processor
    fails. -/
theorem deliverAll_eq (events : List Event) :
    deliverAll answer processors events =
      cutShort answer processors events (firstFailure answer processors events) := by
  induction events generalizing processors with
  | nil =>
      simp [deliverAll, cutShort, firstFailure, share, taken, Turn.all, mapIdx_kept]
  | cons event rest ih =>
      have hcons := firstFailure_cons answer processors event rest
      cases hfirst : firstFailure answer processors [event] with
      -- The rest of the events is not delivered to anyone.
      | some failure =>
          have hevent := event_of_firstFailure_one answer processors event hfirst
          have hshare : share (event :: rest) (some failure) = share [event] (some failure) := by
            funext number
            simp only [share, hevent]
            split <;> rfl
          have htaken : taken processors (event :: rest) (some failure) =
              (List.range (reached processors (some failure))).map (Turn.mk 0) := by
            simp [taken, reached, Turn.upTo, Turn.all, hevent]
          rw [hfirst, Option.some_or] at hcons
          simp only [deliverAll, deliver_eq, hfirst, hcons, cutShort, hshare, htaken, notes_first,
            Option.map_some]
      | none =>
          have hanswered : processors.mapIdx (fun number p => fed answer p (share [event]
              (none : Option (Turn × ε)) number)) = answered answer processors event :=
            List.ext_getElem? (by simp [answered, share])
          have hlater : ∀ received : Nat → List Event,
              processors.mapIdx (fun number p => fed answer p (event :: received number)) =
                (answered answer processors event).mapIdx
                  (fun number p => fed answer p (received number)) :=
            fun received => List.ext_getElem? (by simp [answered, Function.comp_def])
          rw [hfirst, Option.none_or] at hcons
          simp only [deliverAll, deliver_eq, hfirst, hanswered, ih, hcons, cutShort, share_later,
            hlater, taken_later answer, List.flatMap_append, notes_first, notes_later,
            Option.map_none, Option.map_map]
          rfl

end Delivery

section FirstFailure

variable {σ ω ε : Type} {answer : σ → Event → Reply σ ω ε} {processors : List σ}
  {events : List Event}

/-- Only processors fail, and only on events. -/
theorem Turn.mem_all_of_failure? {turn : Turn} {error : ε}
    (h : turn.failure? answer processors events = some error) :
    turn ∈ Turn.all events.length processors.length := by
  rcases Option.bind_eq_some_iff.mp h with ⟨reply, hreply, -⟩
  rcases Option.bind_eq_some_iff.mp hreply with ⟨p, hp, hevent⟩
  rcases Option.map_eq_some_iff.mp hevent with ⟨event, hevent, -⟩
  exact Turn.mem_all.mpr
    ⟨(List.getElem?_eq_some_iff.mp hevent).1, (List.getElem?_eq_some_iff.mp hp).1⟩

theorem firstFailure_eq_none
    (h : ∀ turn : Turn, turn.failure? answer processors events = none) :
    firstFailure answer processors events = none := by
  refine List.findSome?_eq_none_iff.mpr fun turn _ => ?_
  rw [h turn, Option.map_none]

theorem firstFailure_eq_some {turn : Turn} {error : ε}
    (hturn : turn.failure? answer processors events = some error)
    (hbefore : ∀ other : Turn, other.Before turn → other.failure? answer processors events = none) :
    firstFailure answer processors events = some (turn, error) := by
  rcases List.append_of_mem (Turn.mem_all_of_failure? hturn) with ⟨front, back, hall⟩
  have horder := Turn.pairwise_all events.length processors.length
  rw [hall] at horder
  refine List.findSome?_eq_some_iff.mpr ⟨front, turn, back, hall, ?_, fun other hother => ?_⟩
  · rw [hturn, Option.map_some]
  · have hother := (List.pairwise_append.mp horder).2.2 other hother turn List.mem_cons_self
    rw [hbefore other hother, Option.map_none]

end FirstFailure

namespace Session

variable {σ ω ε : Type} (answer : σ → Event → Reply σ ω ε)

/-- What can be done with a session: its document is read, or the events at hand
    are delivered. -/
inductive Call where
  | parse
  | execute
  deriving DecidableEq, Repr

/-- The session behind a call. -/
def call (session : Session σ) : Call → Session σ
  | .parse => session.parse.1
  | .execute => (session.execute answer).1

/-- The session behind calls. -/
def after (session : Session σ) (calls : List Call) : Session σ :=
  calls.foldl (call answer) session

/-- The events that the processor with the given number receives at a call. -/
def receives (session : Session σ) (number : Nat) : Call → List Event
  | .parse => []
  | .execute =>
    match session.events with
    | none => []
    | some events => share events (firstFailure answer session.processors events) number

/-- The events that the processor with the given number receives at all calls
    together. -/
def received (number : Nat) : Session σ → List Call → List Event
  | _, [] => []
  | session, call :: rest =>
    session.receives answer number call ++ received number (session.call answer call) rest

/-- What a session is after some calls, and what it does next. -/
structure Delivers (start : Session σ) (calls : List Call) (session : Session σ) : Prop where
  /-- The events at hand are those of the document, once it has been read and if
      it was not refused. Each reading ends as the last one does. -/
  retained : ∀ events, session.events = some events ↔
    .parse ∈ calls ∧ readEvents start.source = .ok events
  /-- Without events nothing is delivered. -/
  unread : session.events = none → session.execute answer = (session, [], some .notRead)
  /-- If no processor fails, each of them receives all events, and turn by turn
      they leave their notes. -/
  whole : ∀ events, session.events = some events →
    (∀ turn : Turn, turn.failure? answer session.processors events = none) →
      session.execute answer =
        ({ session with processors := session.processors.map (fed answer · events) },
          (Turn.all events.length session.processors.length).flatMap
            (Turn.notes answer session.processors events), none)
  /-- The first failure ends the delivery: the processors behind the one that
      fails do not receive the event it fails on, nobody receives a later one, and
      the events stay at hand. -/
  cut : ∀ events (turn : Turn) error, session.events = some events →
    turn.failure? answer session.processors events = some error →
    (∀ other : Turn, other.Before turn →
      other.failure? answer session.processors events = none) →
      session.execute answer =
        ({ session with
            processors := session.processors.mapIdx (fun number p => fed answer p
              (events.take (if number ≤ turn.processor then turn.event + 1 else turn.event))) },
          (turn.upTo session.processors.length).flatMap
            (Turn.notes answer session.processors events), some (.processor error))
  /-- Each processor is what it makes of the events it received. -/
  states : session.processors =
    start.processors.mapIdx fun number p => fed answer p (received answer number start calls)

theorem execute_eq {session : Session σ} {events : List Event} (h : session.events = some events) :
    session.execute answer =
      let failure := firstFailure answer session.processors events
      ({ session with
          processors := session.processors.mapIdx
            (fun number p => fed answer p (share events failure number)) },
        (taken session.processors events failure).flatMap
          (Turn.notes answer session.processors events),
        failure.map fun found => .processor found.2) := by
  simp only [execute, h, deliverAll_eq, cutShort, Option.map_map]
  rfl

/-- Readings give a session the events of its document. -/
theorem parse_eq (session : Session σ) :
    session.parse.1 = { session with events := (readEvents session.source).toOption } := by
  rw [parse]
  cases readEvents session.source <;> rfl

/-- What a call does to the processors: each receives its share of the events. -/
theorem processors_call (session : Session σ) (call : Call) :
    (session.call answer call).processors =
      session.processors.mapIdx fun number p =>
        fed answer p (session.receives answer number call) := by
  cases call with
  | parse => simp [Session.call, parse_eq, receives, mapIdx_kept]
  | execute =>
      cases hevents : session.events with
      | none => simp [Session.call, execute, receives, hevents, mapIdx_kept]
      | some events => simp [Session.call, execute_eq answer hevents, receives, hevents]

@[simp] theorem source_call (session : Session σ) (call : Call) :
    (session.call answer call).source = session.source := by
  cases call with
  | parse => simp [Session.call, parse_eq]
  | execute =>
      rw [Session.call, execute]
      split <;> rfl

/-- A delivery keeps the events, so that it can be repeated. -/
theorem events_call (session : Session σ) (call : Call) :
    (session.call answer call).events =
      if call = .parse then (readEvents session.source).toOption else session.events := by
  cases call with
  | parse => simp [Session.call, parse_eq]
  | execute =>
      rw [Session.call, execute]
      split <;> simp [*]

/-- After calls, the events at hand are those of the document if one of the calls
    was a reading, and else those of before. -/
theorem events_after (session : Session σ) (calls : List Call) :
    (session.after answer calls).events =
      if .parse ∈ calls then (readEvents session.source).toOption else session.events := by
  induction calls generalizing session with
  | nil => simp [after]
  | cons call rest ih =>
      have hrest := ih (session.call answer call)
      rw [source_call, events_call] at hrest
      rw [after, List.foldl_cons, ← after, hrest]
      cases call <;> simp

/-- After calls, each processor is what it makes of what it received. -/
theorem processors_after (session : Session σ) (calls : List Call) :
    (session.after answer calls).processors =
      session.processors.mapIdx fun number p =>
        fed answer p (received answer number session calls) := by
  induction calls generalizing session with
  | nil => simp [after, received, mapIdx_kept]
  | cons call rest ih =>
      rw [after, List.foldl_cons, ← after, ih, processors_call]
      exact List.ext_getElem? (by simp [received, Function.comp_def])

/-- However often a document is read and its events are delivered, and in whatever
    order: a delivery needs a reading that was not refused, every processor
    receives every event in order until one of them fails, and the failure is all
    that one processor has to do with another. -/
theorem delivers_after (source : String) (processors : List σ) (calls : List Call) :
    Delivers answer { source, processors } calls
      (after answer { source, processors } calls) where
  retained events := by
    rw [events_after]
    by_cases hparse : Call.parse ∈ calls
    · cases hread : readEvents source <;> simp [hparse, Except.toOption]
    · simp [hparse]
  unread h := by rw [execute, h]
  whole events h hcalm := by
    have hmap : ∀ qs : List σ, qs.mapIdx (fun _ p => fed answer p events) =
        qs.map (fed answer · events) :=
      fun qs => List.ext_getElem? (by simp)
    rw [execute_eq answer h, firstFailure_eq_none hcalm]
    simp only [share, taken, hmap, Option.map_none]
  cut events turn error h hturn hbefore := by
    rw [execute_eq answer h, firstFailure_eq_some hturn hbefore]
    rfl
  states := processors_after answer _ calls

/-- Three processors count down. The second fails on the second event, which the
    third does not receive. When the events are delivered again, the second fails
    at once and the third receives nothing. -/
example :
    let countDown : Nat → Event → Reply Nat Nat Unit := fun count _ =>
      { state := count - 1, notes := [count], failure := if count ≤ 1 then some () else none }
    let session : Session Nat := { source := "Feature: x", processors := [5, 2, 4] }
    (session.after countDown [.parse, .execute]).processors = [3, 0, 3] ∧
      ((session.after countDown [.parse]).execute countDown).2.1 = [5, 2, 4, 4, 1] ∧
      (session.after countDown [.parse, .execute, .execute]).processors = [2, 0, 3] := by
  decide +kernel

end Session

end Gherkin
