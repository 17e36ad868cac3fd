import OrderingService.Sequencer.Subscription
import OrderingService.Stream.Exchange
import OrderingService.Wire.Message

/-!
# Deliver streams

A deliver stream sends the ids of ordered transactions. Its first request subscribes; every request
is acknowledged. The stream ends with the requests, with a broken request, which is handed on, when
the sequencer has stopped and all is read, when the client has gone, and when it fell too far
behind, which it is told.

## Main definitions

* `DeliverPhase`, `DeliverStream` — a stream with the place of its handler
* `DeliverBranch` — what a subscribed handler may attend to
* `DeliverStream.attend?` — attend to one of these
-/

namespace OrderingService

/-- Where the handler of a deliver stream is. -/
inductive DeliverPhase where
  /-- It waits for the first request. -/
  | waiting
  /-- It waits for the sequencer's answer to a call. -/
  | subscribing (ticket : Nat)
  /-- It hands over an answer, and then goes on reading or ends. -/
  | answering (response : Except RpcStatus DeliverResponse) (goOn : Option Subscription)
  /-- It waits for a transaction, a request, or the client to go. -/
  | streaming (sub : Subscription)
  /-- It has returned. -/
  | ended

/-- What a subscribed handler may attend to when several are ready. -/
inductive DeliverBranch where
  | ordered
  | request
  | hangUp
  deriving DecidableEq, Repr

/-- A deliver stream. -/
structure DeliverStream where
  exchange : Exchange DeliverRequest DeliverResponse
  phase : DeliverPhase := .waiting

namespace DeliverStream

/-- Whether the handler has returned. -/
def isEnded (d : DeliverStream) : Bool :=
  match d.phase with
  | .ended => true
  | _ => false

/-- The handler returns. -/
def finish (d : DeliverStream) : DeliverStream := { d with phase := .ended }

/-- Go on to hand over an answer, then to read from a subscription. -/
def answer (d : DeliverStream) (r : DeliverResponse) (goOn : Option Subscription) :
    DeliverStream :=
  { d with phase := .answering (.ok r) goOn }

/-- Go on to hand over a status, then end. -/
def fail (d : DeliverStream) (e : RpcStatus) : DeliverStream :=
  { d with phase := .answering (.error e) none }

/-- The handler with the answer to its subscription. -/
def subscribed (d : DeliverStream) (answer : Answer) : DeliverStream :=
  match answer with
  | .ok (.subscription sub) => d.answer (.withStatus .success) (some sub)
  | _ => d.answer (.withStatus .invalid) none

/-- Hand over the answer that waits, if that can be done now. -/
def handOver? (d : DeliverStream) (r : Except RpcStatus DeliverResponse)
    (goOn : Option Subscription) : Option DeliverStream :=
  match d.exchange.push r with
  | .queued x =>
    some ⟨x, match goOn with
      | some sub => .streaming sub
      | none => .ended⟩
  | .abandoned => some d.finish
  | .blocked => none

/-- Attend to one of the things that a subscribed handler waits for, if it is ready. -/
def attend? (d : DeliverStream) (s : Sequencer) (sub : Subscription) :
    DeliverBranch → Option DeliverStream
  | .ordered =>
    match s.read sub with
    | (.transaction tx, sub) => some (d.answer (.txid tx.txid) (some sub))
    | (.lagged _, _) => some (d.answer (.withStatus .invalid) none)
    | (.closed, _) => some d.finish
    | (.empty, _) => none
  | .request =>
    match d.exchange.take? with
    | some (some (.ok _), x) =>
      some (({ d with exchange := x } : DeliverStream).answer (.withStatus .success) (some sub))
    | some (some (.error e), x) => some (({ d with exchange := x } : DeliverStream).fail e)
    | some (none, _) => some d.finish
    | none => none
  | .hangUp => if d.exchange.hungUp then some d.finish else none

end DeliverStream

end OrderingService
