import OrderingService.Stream.Broadcast
import OrderingService.Stream.Deliver

/-!
# The service

The service is one sequencer with its mailbox and any number of streams. Callers put calls into the
mailbox and find the answers under their tickets; the sequencer takes the calls in order. Everything
that can happen is an event, and an event happens only when it can.

## Main definitions

* `Service` — the whole state
* `Service.send` — put a call into the mailbox
* `Event`, `Service.step?` — what can happen, and what it does

## Implementation notes

The queues are unbounded here. A bound delays a caller, so it only takes orders of events away.
-/

namespace OrderingService

/-- The error of a call that the sequencer will not take. -/
def ServiceError.mailboxClosed : ServiceError := .concurrency "Sequencer mailbox closed"

/-- The error of a call that the sequencer left behind when it stopped. -/
def ServiceError.responseClosed : ServiceError := .concurrency "Response channel closed"

/-- The state of the service. -/
structure Service where
  /-- The time in milliseconds. -/
  now : Nat := 0
  sequencer : Sequencer
  /-- The calls not yet taken, under their tickets, oldest first. -/
  mailbox : List (Nat × Call) := []
  /-- The answers by ticket. -/
  answers : List (Nat × Answer) := []
  /-- The ticket of the next call. -/
  nextTicket : Nat := 0
  /-- Whether only streams can call any more. -/
  released : Bool := false
  /-- The longest payload that broadcast streams accept. -/
  maxPayload : Nat := 1048576
  broadcasts : List BroadcastStream := []
  delivers : List DeliverStream := []

/-- What can happen in a service. -/
inductive Event where
  /-- The sequencer takes a call. -/
  | serve
  /-- The time of the open batch is up. -/
  | expire
  /-- The sequencer notices that nobody can call any more. -/
  | close
  /-- The handler of a broadcast stream goes on. -/
  | broadcast (index : Nat)
  /-- The handler of a deliver stream goes on; when it is subscribed, by attending to this. -/
  | deliver (index : Nat) (branch : DeliverBranch)
  deriving DecidableEq, Repr

namespace Service

/-- A service whose sequencer has these settings. -/
def new (c : SequencerConfig) (maxPayload : Nat) : Service :=
  { sequencer := .new c, maxPayload }

/-- The metrics. -/
def metrics (s : Service) : Metrics := s.sequencer.metrics

/-- Change the metrics. -/
def updateMetrics (s : Service) (f : Metrics → Metrics) : Service :=
  { s with sequencer.metrics := f s.sequencer.metrics }

/-! ### Calls -/

/-- Put a call into the mailbox; also its ticket. A sequencer that has stopped takes no calls. -/
def send (s : Service) (call : Call) : Nat × Service :=
  (s.nextTicket,
    if s.sequencer.stopped then
      { s with
        nextTicket := s.nextTicket + 1
        answers := (s.nextTicket, .error .mailboxClosed) :: s.answers }
    else
      { s with
        nextTicket := s.nextTicket + 1
        mailbox := s.mailbox ++ [(s.nextTicket, call)] })

/-- The answer to a call, once it is there. -/
def answer? (s : Service) (ticket : Nat) : Option Answer := s.answers.lookup ticket

/-- The sequencer takes the next call. When it stops, the calls behind it are left behind. -/
def serve? (s : Service) : Option Service :=
  match s.mailbox with
  | [] => none
  | (ticket, call) :: rest =>
    let (answer, sequencer) := s.sequencer.handle s.now call
    let s := { s with sequencer, answers := (ticket, answer) :: s.answers }
    if sequencer.stopped then
      some { s with
        mailbox := []
        answers := rest.map (fun (ticket, _) => (ticket, .error .responseClosed)) ++ s.answers }
    else some { s with mailbox := rest }

/-- The time of the open batch is up. -/
def expire? (s : Service) : Option Service :=
  if s.sequencer.isDue s.now then some { s with sequencer := s.sequencer.expire s.now } else none

/-- The moment to come at which the time of the open batch is up. -/
def alarm? (s : Service) : Option Nat :=
  if s.sequencer.stopped then none else s.sequencer.deadline.filter (s.now < ·)

/-- Whether some stream's handler has not returned. -/
def hasStreams (s : Service) : Bool :=
  s.broadcasts.any (!·.isEnded) || s.delivers.any (!·.isEnded)

/-- Nobody can call any more. -/
def close? (s : Service) : Option Service :=
  if s.released && !s.hasStreams && s.mailbox.isEmpty && !s.sequencer.stopped then
    some { s with sequencer := s.sequencer.close s.now }
  else none

/-! ### Streams -/

/-- Replace a broadcast stream. -/
def setBroadcast (s : Service) (index : Nat) (b : BroadcastStream) : Service :=
  { s with broadcasts := s.broadcasts.set index b }

/-- Replace a deliver stream. When its handler has returned, it is no longer counted as open. -/
def setDeliver (s : Service) (index : Nat) (d : DeliverStream) : Service :=
  let s := { s with delivers := s.delivers.set index d }
  if d.isEnded then s.updateMetrics Metrics.streamClosed else s

/-- A broadcast stream answers a request. -/
def answerBroadcast (s : Service) (index : Nat) (b : BroadcastStream) (r : BroadcastResponse) :
    Service :=
  (s.updateMetrics fun m => Broadcast.count m r).setBroadcast index (b.answer r)

/-- The handler of a broadcast stream reads a request. -/
def readBroadcast? (s : Service) (index : Nat) (b : BroadcastStream) : Option Service :=
  match b.exchange.take? with
  | none => none
  | some (none, _) => some (s.setBroadcast index { b with phase := .ended })
  | some (some (.error e), x) => some (s.setBroadcast index ⟨x, .answering (.error e) false⟩)
  | some (some (.ok request), x) =>
    match Broadcast.refusal? s.maxPayload request with
    | some info => some (s.answerBroadcast index { b with exchange := x } (Broadcast.refused info))
    | none =>
      let (ticket, s) := s.send (.submit request.payload)
      some (s.setBroadcast index ⟨x, .submitted ticket⟩)

/-- The handler of a broadcast stream goes on. -/
def broadcast? (s : Service) (index : Nat) : Option Service := do
  let b ← s.broadcasts[index]?
  match b.phase with
  | .reading => s.readBroadcast? index b
  | .submitted ticket =>
    return s.answerBroadcast index b (Broadcast.response (← s.answer? ticket))
  | .answering r goOn => return s.setBroadcast index (← b.handOver? r goOn)
  | .ended => none

/-- The handler of a deliver stream reads its first request. -/
def readDeliver? (s : Service) (index : Nat) (d : DeliverStream) : Option Service :=
  match d.exchange.take? with
  | none => none
  | some (none, _) => some (s.setDeliver index d.finish)
  | some (some (.error e), x) =>
    some (s.setDeliver index (({ d with exchange := x } : DeliverStream).fail e))
  | some (some (.ok _), x) =>
    let (ticket, s) := s.send .subscribe
    some (s.setDeliver index ⟨x, .subscribing ticket⟩)

/-- The handler of a deliver stream goes on. -/
def deliver? (s : Service) (index : Nat) (branch : DeliverBranch) : Option Service := do
  let d ← s.delivers[index]?
  match d.phase with
  | .waiting => s.readDeliver? index d
  | .subscribing ticket => return s.setDeliver index (d.subscribed (← s.answer? ticket))
  | .answering r goOn => return s.setDeliver index (← d.handOver? r goOn)
  | .streaming sub => return s.setDeliver index (← d.attend? s.sequencer sub branch)
  | .ended => none

/-! ### Events -/

/-- What an event does, if it can happen. -/
def step? (s : Service) : Event → Option Service
  | .serve => s.serve?
  | .expire => s.expire?
  | .close => s.close?
  | .broadcast index => s.broadcast? index
  | .deliver index branch => s.deliver? index branch

end Service

end OrderingService
