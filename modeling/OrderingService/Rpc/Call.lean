import OrderingService.Rpc.Frame
import OrderingService.Service.Basic

/-!
# Remote calls

A remote call is a stream whose requests and answers travel in frames. The client of a call takes
answers as soon as there are some, and all that are there at once. Their frames are handed over in
chunks: a chunk is complete when it is long enough or nothing more is there. A status, or an answer
over the limit, ends the call at once, and the frames of an incomplete chunk are lost with it.

## Main definitions

* `RpcCall` — a call as its client sees it
* `RpcCall.collect` — the frames of the answers that are there
* `RpcCall.poll?` — the client takes what is there
* `RpcCall.feed` — the client sends a piece
-/

namespace OrderingService

/-- The stream behind a call. -/
inductive RpcTarget where
  | broadcast (index : Nat)
  | deliver (index : Nat)
  deriving DecidableEq, Repr

/-- An answer that travels in a frame. -/
inductive RpcMessage where
  | broadcast (response : BroadcastResponse)
  | deliver (response : DeliverResponse)
  deriving DecidableEq, Repr

/-- The bytes of an answer. -/
def RpcMessage.encode : RpcMessage → Bytes
  | broadcast response => response.encode
  | deliver response => response.encode

/-- A remote call as its client sees it. -/
structure RpcCall where
  /-- The stream, unless the method is unknown. -/
  target : Option RpcTarget
  /-- What is left of the pieces sent. -/
  reader : FrameReader
  /-- The longest answer that is sent. -/
  sendLimit : Nat
  /-- Frames that came and were not looked at, with their messages, newest first. -/
  frames : List (Bytes × RpcMessage) := []
  /-- How the call ended. -/
  status : Option RpcStatus := none
  /-- Whether the status was looked at. -/
  told : Bool := false
  /-- Whether the client has gone away. -/
  cancelled : Bool := false

namespace RpcCall

/-- The number of bytes that completes a chunk. -/
def chunkBytes : Nat := 32768

/-- The number of answers that may wait for the client of a call. -/
def responseCapacity : Nat := 64

/-- The frames of the answers that are there, and the status if one ends the call. -/
def collect (limit : Nat) (done chunk : List (Bytes × RpcMessage)) :
    List (Except RpcStatus RpcMessage) → List (Bytes × RpcMessage) × Option RpcStatus
  | [] => (done ++ chunk, none)
  | .error e :: _ => (done, some e)
  | .ok message :: rest =>
    let bytes := message.encode
    if limit < bytes.length then (done, some (Frame.tooLarge bytes.length limit))
    else
      let chunk := chunk ++ [(Frame.encode bytes, message)]
      if chunkBytes ≤ (chunk.map fun frame => frame.1.length).sum then
        collect limit (done ++ chunk) [] rest
      else collect limit done chunk rest

/-- The answers that wait in a stream, and whether its handler has returned. -/
def waiting (s : Service) : RpcTarget → Option (List (Except RpcStatus RpcMessage) × Bool)
  | .broadcast index => do
    let b ← s.broadcasts[index]?
    return (b.exchange.responses.map fun r => r.map .broadcast, b.isEnded)
  | .deliver index => do
    let d ← s.delivers[index]?
    return (d.exchange.responses.map fun r => r.map .deliver, d.isEnded)

/-- The client of a call takes what waits, and goes if the call is over. -/
def take (s : Service) (gone : Bool) : RpcTarget → Service
  | .broadcast index =>
    { s with broadcasts := s.broadcasts.modify index fun b =>
        { b with exchange := { b.exchange with responses := [], hungUp := gone } } }
  | .deliver index =>
    { s with delivers := s.delivers.modify index fun d =>
        { d with exchange := { d.exchange with responses := [], hungUp := gone } } }

/-- The client takes what is there, unless it has gone, the call is over or nothing is there. -/
def poll? (c : RpcCall) (s : Service) : Option (RpcCall × Service) := do
  guard (c.status.isNone && !c.cancelled)
  let target ← c.target
  let (responses, ended) ← waiting s target
  if responses.isEmpty then
    if ended then some ({ c with status := some ⟨.ok, ""⟩ }, s) else none
  else
    let (frames, status) := collect c.sendLimit [] [] responses
    some ({ c with frames := frames.reverse ++ c.frames, status }, take s status.isSome target)

/-- Whether the handler behind a call still takes requests. -/
def isOpen (c : RpcCall) (s : Service) : Bool :=
  match c.target with
  | none => false
  | some (.broadcast index) => s.broadcasts[index]?.any fun b => !b.isEnded
  | some (.deliver index) => s.delivers[index]?.any fun d => !d.isEnded

/-- Read messages; the first that cannot be read breaks the stream. -/
def decodeAll {α : Type} (decode? : Bytes → Option α) :
    List (Except RpcStatus Bytes) → List (Except RpcStatus α) × Bool
  | [] => ([], false)
  | .error e :: _ => ([.error e], true)
  | .ok bytes :: rest =>
    match decode? bytes with
    | none => ([.error Frame.undecodable], true)
    | some message =>
      let (messages, broken) := decodeAll decode? rest
      (.ok message :: messages, broken)

/-- Queue what was read for the handler of a call; also whether the stream is broken. -/
def request (s : Service) (items : List (Except RpcStatus Bytes)) (last : Bool) :
    RpcTarget → Bool × Service
  | .broadcast index =>
    let (messages, broken) := decodeAll BroadcastRequest.decode? items
    (broken, { s with broadcasts := s.broadcasts.modify index fun b =>
      { b with exchange := { b.exchange with
          requests := b.exchange.requests ++ messages
          requestsClosed := b.exchange.requestsClosed || last } } })
  | .deliver index =>
    let (messages, broken) := decodeAll DeliverRequest.decode? items
    (broken, { s with delivers := s.delivers.modify index fun d =>
      { d with exchange := { d.exchange with
          requests := d.exchange.requests ++ messages
          requestsClosed := d.exchange.requestsClosed || last } } })

/-- The client sends a piece. -/
def feed (c : RpcCall) (s : Service) (piece : Bytes) : RpcCall × Service :=
  match c.target with
  | none => (c, s)
  | some target =>
    let (items, reader) := c.reader.feed piece
    let (broken, s) := request s items false target
    ({ c with reader := { reader with broken := reader.broken || broken } }, s)

/-- The client sends no more. -/
def finish (c : RpcCall) (s : Service) : RpcCall × Service :=
  match c.target with
  | none => (c, s)
  | some target => ({ c with reader.broken := true }, (request s c.reader.finish true target).2)

/-- The client goes away: it takes no more, but what it sends still arrives, and what came before
can still be looked at. -/
def cancel (c : RpcCall) (s : Service) : RpcCall × Service :=
  ({ c with cancelled := true }, c.target.elim s (take s true))

end RpcCall

end OrderingService
