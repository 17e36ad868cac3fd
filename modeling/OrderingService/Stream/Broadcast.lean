import OrderingService.Sequencer.Basic
import OrderingService.Stream.Exchange
import OrderingService.Wire.Message

/-!
# Broadcast streams

A broadcast stream orders the payloads of its requests, one after the other, and answers each. A
payload that is empty or too large is refused without asking the sequencer. The stream ends with
the requests, with an answer other than success, or with a broken request, which is handed on.

## Main definitions

* `Broadcast.refusal?` — why a request is refused at once
* `Broadcast.response` — the answer for what the sequencer said
* `BroadcastStream` — a stream with the place of its handler
-/

namespace OrderingService

namespace Broadcast

/-- Why a request is not handed to the sequencer. -/
def refusal? (limit : Nat) (r : BroadcastRequest) : Option String :=
  if r.payload = [] then some "empty payload"
  else if limit < r.payload.length then
    some ("payload of " ++ toString r.payload.length ++ " bytes exceeds limit of " ++
      toString limit ++ " bytes")
  else none

/-- The answer to a refused request. -/
def refused (info : String) : BroadcastResponse := .withStatus .invalid info

/-- The answer for what the sequencer said to a submission. -/
def response (answer : Answer) : BroadcastResponse :=
  match answer with
  | .ok (.receipt receipt) => .withStatus .success receipt.txid.toHex
  | .ok _ => refused "ordering unavailable"
  | .error e => refused ("ordering unavailable: " ++ e.message)

/-- The metrics after an answer. -/
def count (m : Metrics) (r : BroadcastResponse) : Metrics :=
  match r.meaning with
  | .success => m.recordReceived
  | .invalid => m.recordRejected

end Broadcast

/-- Where the handler of a broadcast stream is. -/
inductive BroadcastPhase where
  /-- It waits for a request. -/
  | reading
  /-- It waits for the sequencer's answer to a call. -/
  | submitted (ticket : Nat)
  /-- It hands over an answer, and then goes on or ends. -/
  | answering (response : Except RpcStatus BroadcastResponse) (goOn : Bool)
  /-- It has returned. -/
  | ended

/-- A broadcast stream. -/
structure BroadcastStream where
  exchange : Exchange BroadcastRequest BroadcastResponse
  phase : BroadcastPhase := .reading

namespace BroadcastStream

/-- Whether the handler has returned. -/
def isEnded (b : BroadcastStream) : Bool :=
  match b.phase with
  | .ended => true
  | _ => false

/-- Go on to hand over an answer; the stream goes on only after a success. -/
def answer (b : BroadcastStream) (r : BroadcastResponse) : BroadcastStream :=
  { b with phase := .answering (.ok r) (r.meaning = .success) }

/-- Hand over the answer that waits, if that can be done now. -/
def handOver? (b : BroadcastStream) (r : Except RpcStatus BroadcastResponse) (goOn : Bool) :
    Option BroadcastStream :=
  match b.exchange.push r with
  | .queued x => some ⟨x, if goOn then .reading else .ended⟩
  | .abandoned => some { b with phase := .ended }
  | .blocked => none

end BroadcastStream

end OrderingService
