import Gherkin.Reader.Step
import Gherkin.Tree.Assembly

/-!
# Delivering Events to Processors

A processor is a state and a way to answer events: each event may change the
state, leave notes for whoever runs the delivery, and fail. One way to answer
serves all processors of a delivery; processors of different kinds are the
cases of one state type.

An event goes to the processors in order and stops at the first that fails,
so the ones behind it never see the event, while those before it keep what
they made of it.

A `Session` pairs a document with processors: reading it and delivering what
was read are separate steps, and delivery can be repeated.

## Main definitions

* `Reply`: A processor's answer to one event.
* `deliver`, `deliverAll`: One event, or many, to all processors.
* `Session`: A document, its events once read, and the processors.
* `ProcessorError`: How processors of this library fail.
* `readFeature`: The feature that a document describes.
-/

namespace Gherkin

/-- A processor's answer to an event: its next state, the notes it leaves and
    its failure, if it fails. -/
structure Reply (σ ω ε : Type) where
  state : σ
  notes : List ω := []
  failure : Option ε := none

/-- What a delivery leaves behind: the states of all processors, the notes in
    the order in which they were left, and the failure that ended it. -/
structure Delivered (σ ω ε : Type) where
  processors : List σ
  notes : List ω := []
  failure : Option ε := none

section Deliver

variable {σ ω ε : Type} (answer : σ → Event → Reply σ ω ε)

/-- Deliver one event to the processors in order, up to the first failure. -/
def deliver : List σ → Event → Delivered σ ω ε
  | [], _ => { processors := [] }
  | p :: rest, event =>
    let reply := answer p event
    match reply.failure with
    | some failure =>
      { processors := reply.state :: rest, notes := reply.notes, failure := some failure }
    | none =>
      let others := deliver rest event
      { processors := reply.state :: others.processors
        notes := reply.notes ++ others.notes
        failure := others.failure }

/-- Deliver events one after the other, up to the first failure. -/
def deliverAll : List σ → List Event → Delivered σ ω ε
  | processors, [] => { processors := processors }
  | processors, event :: rest =>
    let first := deliver answer processors event
    match first.failure with
    | some _ => first
    | none =>
      let others := deliverAll first.processors rest
      { others with notes := first.notes ++ others.notes }

end Deliver

/-- The wording of a set of processors. -/
def describeProcessors {σ : Type} (processors : List σ) : String :=
  String.join ["EventBus \x7b processors: ", toString processors.length, " \x7d"]

/-- How a processor of this library fails: an assembly refuses an event, or a
    processor has a message of its own. -/
inductive ProcessorError where
  | misfit (kind : EventKind) (reason : Misfit)
  | custom (message : String)
  deriving DecidableEq, Repr

/-- The wording of a processor's failure. -/
def ProcessorError.describe : ProcessorError → String
  | .misfit kind reason => reason.describe kind
  | .custom message => String.join ["event processor failed: ", message]

/-- The answer of an assembly to an event. -/
def Assembly.answer {ω : Type} (a : Assembly) (event : Event) : Reply Assembly ω ProcessorError :=
  let verdict := a.accept event.kind
  { state := verdict.next, failure := verdict.reason?.map (.misfit event.kind) }

/-- The answer of a processor that keeps all events. -/
def recordAnswer {ω : Type} (events : List Event) (event : Event) :
    Reply (List Event) ω ProcessorError :=
  { state := events ++ [event] }

/-- A document, its events once it has been read, and the processors that are
    to see them. -/
structure Session (σ : Type) where
  source : String
  events : Option (List Event) := none
  processors : List σ

/-- Why a session cannot deliver. -/
inductive SessionError (ε : Type) where
  | notRead
  | processor (error : ε)

namespace Session

variable {σ ω ε : Type}

/-- What is said when events are to be delivered before there are any. -/
def notReadMessage : String :=
  "no parsed events to execute; call `parse` first"

/-- Read the document. A document that is refused leaves no events, not even
    those of an earlier reading. -/
def parse (session : Session σ) : Session σ × Option Refusal :=
  match readEvents session.source with
  | .ok events => ({ session with events := some events }, none)
  | .error refusal => ({ session with events := none }, some refusal)

/-- Deliver the events to the processors. -/
def execute (answer : σ → Event → Reply σ ω ε) (session : Session σ) :
    Session σ × List ω × Option (SessionError ε) :=
  match session.events with
  | none => (session, [], some .notRead)
  | some events =>
    let delivered := deliverAll answer session.processors events
    ({ session with processors := delivered.processors }, delivered.notes,
      delivered.failure.map .processor)

end Session

/-- Why a document yields no feature. -/
inductive FeatureError where
  | refused (refusal : Refusal)
  | processor (error : ProcessorError)
  | missing
  deriving DecidableEq, Repr

/-- The wording of an error. -/
def FeatureError.describe : FeatureError → String
  | .refused refusal => String.join ["parse error at ", refusal.describe]
  | .processor error => error.describe
  | .missing => "document does not contain a Feature"

/-- The feature that events describe. -/
def assemble (events : List Event) : Except FeatureError Feature :=
  let delivered : Delivered Assembly Unit ProcessorError :=
    deliverAll Assembly.answer [{}] events
  match delivered.failure with
  | some error => .error (.processor error)
  | none =>
    match delivered.processors.head?.bind Assembly.feature? with
    | some feature => .ok feature
    | none => .error .missing

/-- The feature that a document describes. -/
def readFeature (source : String) : Except FeatureError Feature :=
  match readEvents source with
  | .error refusal => .error (.refused refusal)
  | .ok events => assemble events

end Gherkin
