import OrderingService.Rpc.Call

/-!
# Sessions

A session drives a service one operation at a time. After each operation everything that can happen
does happen, until nothing can: handlers go on as far as they can, then clients of remote calls
take what is there, then the sequencer takes all calls that wait and looks at the clock. Time
stands still meanwhile; it passes only when an operation says so, and stops wherever the sequencer
has something to do.

## Main definitions

* `Session` — a service with its remote calls
* `Session.settle` — let everything happen that can
* `Session.call`, `Session.calls` — call the sequencer
* `Session.advance`, `Session.release`, `Session.process`, `Session.broadcast`
* the operations on deliver streams and on remote calls
-/

namespace OrderingService

/-- A service with its remote calls. -/
structure Session where
  service : Service
  remote : List RpcCall := []

namespace Session

/-- A session on a new service. -/
def new (c : SequencerConfig) (maxPayload : Nat) : Session := { service := .new c maxPayload }

/-! ### Letting things happen -/

/-- The events of the handlers. -/
def handlerEvents (s : Service) : List Event :=
  (List.range s.broadcasts.length).map .broadcast ++
    (List.range s.delivers.length).flatMap fun index =>
      [.deliver index .ordered, .deliver index .request, .deliver index .hangUp]

/-- The events of the sequencer. -/
def sequencerEvents (_ : Service) : List Event := [.serve, .expire, .close]

/-- Let events of one kind happen while some can, `fuel` of them at most. -/
def exhaust (kind : Service → List Event) : (fuel : Nat) → Service → Service
  | 0, s => s
  | fuel + 1, s =>
    match (kind s).findSome? s.step? with
    | none => s
    | some s => exhaust kind fuel s

/-- The clients of all remote calls take what is there. -/
def pollAll : List RpcCall → Service → List RpcCall × Service
  | [], s => ([], s)
  | c :: rest, s =>
    let (c, s) := (c.poll? s).getD (c, s)
    let (rest, s) := pollAll rest s
    (c :: rest, s)

/-- A number of events that is not reached before nothing can happen. -/
def work (s : Session) : Nat :=
  let items := s.service.mailbox.length + s.service.sequencer.pending.length +
    s.service.sequencer.published.length +
    (s.service.broadcasts.flatMap fun b => b.exchange.requests).length +
    (s.service.delivers.flatMap fun d => d.exchange.requests).length
  let parties := s.service.broadcasts.length + s.service.delivers.length + s.remote.length
  (parties + 1) * (8 * items + 32)

/-- Each party takes its turn, with `fuel` events at most for each kind. -/
def turn (fuel : Nat) (s : Session) : Session :=
  let service := exhaust handlerEvents fuel s.service
  let (remote, service) := pollAll s.remote service
  { service := exhaust sequencerEvents fuel service, remote }

/-- Whether nothing can happen. -/
def isIdle (s : Session) : Bool :=
  (handlerEvents s.service ++ sequencerEvents s.service).all
    (fun e => (s.service.step? e).isNone) &&
  s.remote.all fun c => (c.poll? s.service).isNone

/-- Take turns until nothing can happen, `turns` at most. -/
def settleFor (fuel : Nat) : (turns : Nat) → Session → Session
  | 0, s => s
  | turns + 1, s => if s.isIdle then s else settleFor fuel turns (s.turn fuel)

/-- Let everything happen that can. -/
def settle (s : Session) : Session :=
  let fuel := s.work
  settleFor fuel fuel s

/-- Change the service and let everything happen that can. -/
def update (s : Session) (f : Service → Service) : Session :=
  ({ s with service := f s.service } : Session).settle

/-! ### Calls to the sequencer -/

/-- Put calls into the mailbox; also their tickets. -/
def sendAll : List Call → Service → List Nat × Service
  | [], s => ([], s)
  | c :: rest, s =>
    let (ticket, s) := s.send c
    let (tickets, s) := sendAll rest s
    (ticket :: tickets, s)

/-- Put calls into the mailbox before the sequencer runs, and wait for all answers. -/
def calls (s : Session) (cs : List Call) : List Answer × Session :=
  let (tickets, service) := sendAll cs s.service
  let s := ({ s with service } : Session).settle
  (tickets.map fun ticket => (s.service.answer? ticket).getD (.error .responseClosed), s)

/-- Call the sequencer and wait for the answer. -/
def call (s : Session) (c : Call) : Answer × Session :=
  let (answers, s) := s.calls [c]
  (answers.head?.getD (.error .responseClosed), s)

/-- Set the clock and let everything happen that can. -/
def setClock (s : Session) (moment : Nat) : Session :=
  s.update fun service => { service with now := moment }

/-- Time passes up to a moment. It stops on the way whenever the time of the open batch is up,
`fuel` times at most. -/
def passTo (moment : Nat) : (fuel : Nat) → Session → Session
  | 0, s => s.setClock moment
  | fuel + 1, s =>
    match s.service.alarm? with
    | some due => if due < moment then passTo moment fuel (s.setClock due) else s.setClock moment
    | none => s.setClock moment

/-- The longest time that passes at once, in milliseconds. -/
def longestPause : Nat := 10 ^ 12

/-- Time passes. Each stop on the way is later than the one before. -/
def advance (s : Session) (ms : Nat) : Session :=
  let pause := min ms longestPause
  s.passTo (s.service.now + pause) pause

/-- Give up all ways to call the sequencer, except those of open streams. -/
def release (s : Session) : Session := s.update fun service => { service with released := true }

/-- Go on with another strategy; what the old one was asked stays in the history. -/
def setStrategy (s : Session) (H : HashStrategy) : Session :=
  { s with service.sequencer.strategy := H }

/-- Whether the witness of a transaction leads from its payload to its root. -/
def verifies (s : Session) (tx : OrderedTransaction) : Bool × Session :=
  let q := s.service.sequencer
  let (ok, history) := tx.witness.verifyPayload tx.payload q.strategy q.history
  (ok, { s with service.sequencer.history := history })

/-- Reads of a subscriber, `bound` at most, up to the first that finds nothing; each transaction
with whether its witness verifies. -/
def readUpTo (bound : Nat) (s : Session) (sub : Subscription) :
    List (Reading × Bool) × Subscription × Session :=
  match bound with
  | 0 => ([], sub, s)
  | bound + 1 =>
    match s.service.sequencer.read sub with
    | (.transaction tx, sub) =>
      let (ok, s) := s.verifies tx
      let (rest, sub, s) := readUpTo bound s sub
      ((.transaction tx, ok) :: rest, sub, s)
    | (.lagged missed, sub) =>
      let (rest, sub, s) := readUpTo bound s sub
      ((.lagged missed, true) :: rest, sub, s)
    | (nothing, sub) => ([(nothing, true)], sub, s)

/-! ### Broadcast streams -/

/-- Open a broadcast stream; also its index. -/
def openBroadcast (s : Service) (x : Exchange BroadcastRequest BroadcastResponse) :
    Nat × Service :=
  (s.broadcasts.length, { s with broadcasts := s.broadcasts ++ [⟨x, .reading⟩] })

/-- Serve a whole broadcast stream, for a client that takes all answers at the end or has gone
before the first. -/
def broadcast (s : Session) (requests : List (Except RpcStatus BroadcastRequest))
    (hungUp : Bool) : List (Except RpcStatus BroadcastResponse) × Session :=
  let (index, service) := openBroadcast s.service
    { requests, requestsClosed := true, capacity := requests.length + 1, hungUp }
  let s := ({ s with service } : Session).settle
  ((s.service.broadcasts[index]?.map fun b => b.exchange.responses).getD [], s)

/-- Answer a single request. -/
def process (s : Session) (r : BroadcastRequest) : Option BroadcastResponse × Session :=
  let (responses, s) := s.broadcast [.ok r] false
  (responses.head?.bind Except.toOption, s)

/-! ### Deliver streams -/

/-- Open a deliver stream; also its index. -/
def openDeliver (s : Service) (capacity : Nat) : Nat × Service :=
  let stream : DeliverStream := ⟨{ capacity }, .waiting⟩
  (s.delivers.length,
    ({ s with delivers := s.delivers ++ [stream] } : Service).updateMetrics Metrics.streamOpened)

/-- Change the queues of a deliver stream and let everything happen that can. -/
def updateDeliver (s : Session) (index : Nat)
    (f : Exchange DeliverRequest DeliverResponse → Exchange DeliverRequest DeliverResponse) :
    Session :=
  s.update fun service => { service with
    delivers := service.delivers.modify index fun d => { d with exchange := f d.exchange } }

/-- Open a deliver stream whose client takes `capacity` answers in advance; also its index. -/
def deliverOpen (s : Session) (capacity : Nat) : Nat × Session :=
  let (index, service) := openDeliver s.service capacity
  (index, ({ s with service } : Session).settle)

/-- Whether the handler of a deliver stream has returned. -/
def deliverEnded (s : Session) (index : Nat) : Bool :=
  s.service.delivers[index]?.all DeliverStream.isEnded

/-- Send a request, or the status with which reading broke; also whether it was taken. -/
def deliverSend (s : Session) (index : Nat) (item : Except RpcStatus DeliverRequest) :
    Bool × Session :=
  if s.deliverEnded index ||
      s.service.delivers[index]?.any (fun d => d.exchange.requestsClosed) then (false, s)
  else (true, s.updateDeliver index fun x => x.request item)

/-- Send no more requests. -/
def deliverEof (s : Session) (index : Nat) : Session :=
  s.updateDeliver index Exchange.closeRequests

/-- Take no more answers. -/
def deliverHangUp (s : Session) (index : Nat) : Session :=
  s.updateDeliver index Exchange.hangUp

/-- What the client of a deliver stream finds. -/
inductive DeliverRead where
  | response (response : Except RpcStatus DeliverResponse)
  | waiting
  | over

/-- Take one answer, after everything happened that can. -/
def deliverTake (s : Session) (index : Nat) : DeliverRead × Session :=
  let s := s.settle
  match s.service.delivers[index]? with
  | none => (.over, s)
  | some d =>
    match d.exchange.responses with
    | [] => (if d.isEnded then .over else .waiting, s)
    | response :: rest =>
      (.response response, { s with service := { s.service with
        delivers := s.service.delivers.modify index fun d =>
          { d with exchange := { d.exchange with responses := rest } } } })

/-- Answers of a deliver stream, `bound` at most, up to the first time that none is there. -/
def deliverTakeUpTo (bound : Nat) (s : Session) (index : Nat) : List DeliverRead × Session :=
  match bound with
  | 0 => ([], s)
  | bound + 1 =>
    match s.deliverTake index with
    | (.response response, s) =>
      let (rest, s) := deliverTakeUpTo bound s index
      (.response response :: rest, s)
    | (nothing, s) => ([nothing], s)

/-! ### Remote calls -/

/-- Open a remote call with the limits on messages received and sent; also its number. -/
def remoteOpen (s : Session) (method : String) (receiveLimit sendLimit : Nat) : Nat × Session :=
  let reader : FrameReader := { limit := receiveLimit }
  let number := s.remote.length
  let opened (target : RpcTarget) (service : Service) : Session :=
    { service, remote := s.remote ++ [{ target := some target, reader, sendLimit }] }
  match method with
  | "Broadcast" =>
    let (index, service) := openBroadcast s.service { capacity := RpcCall.responseCapacity }
    (number, (opened (.broadcast index) service).settle)
  | "Deliver" =>
    let (index, service) := openDeliver s.service RpcCall.responseCapacity
    (number, (opened (.deliver index) service).settle)
  | _ =>
    (number, { s with remote := s.remote ++
      [{ target := none, reader, sendLimit, status := some ⟨.unimplemented, ""⟩ }] })

/-- Change a remote call and let everything happen that can. -/
def updateRemote (s : Session) (number : Nat) (f : RpcCall → Service → RpcCall × Service) :
    Session :=
  match s.remote[number]? with
  | none => s
  | some c =>
    let (c, service) := f c s.service
    ({ service, remote := s.remote.set number c } : Session).settle

/-- Send a piece of a request stream; also whether it was taken. -/
def remoteSend (s : Session) (number : Nat) (piece : Bytes) : Bool × Session :=
  if s.remote[number]?.any fun c => c.isOpen s.service then
    (true, s.updateRemote number fun c service => c.feed service piece)
  else (false, s)

/-- Send no more requests. -/
def remoteEof (s : Session) (number : Nat) : Session := s.updateRemote number RpcCall.finish

/-- Go away. -/
def remoteCancel (s : Session) (number : Nat) : Session := s.updateRemote number RpcCall.cancel

/-- Look at the frames that came since the last look, and at the status when it is new. -/
def remoteTake (s : Session) (number : Nat) :
    List (Bytes × RpcMessage) × Option RpcStatus × Session :=
  match s.remote[number]? with
  | none => ([], none, s)
  | some c =>
    let looked := { c with frames := [], told := c.status.isSome }
    (c.frames.reverse, if c.told then none else c.status,
      { s with remote := s.remote.set number looked })

end Session

end OrderingService
