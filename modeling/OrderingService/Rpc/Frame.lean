import OrderingService.Bytes
import OrderingService.PowerOfTwo
import OrderingService.Rpc.Status

/-!
# Frames

A message travels in a frame: a flag byte, the length in four bytes, highest first, and the bytes
of the message. Frames come in pieces of any size. The flag and the length are looked at as soon as
all five bytes are there; a flag other than zero and a message that is too long break the stream.

## Main definitions

* `Frame.encode` — the frame of a message
* `FrameReader` — what is left of the pieces that came
* `FrameReader.feed`, `FrameReader.finish` — take a piece, and the end
-/

namespace OrderingService

namespace Frame

/-- The frame of a message. -/
def encode (message : Bytes) : Bytes :=
  let n := message.length
  [0, UInt8.ofNat (n / 2 ^ 24), UInt8.ofNat (n / 2 ^ 16), UInt8.ofNat (n / 2 ^ 8),
   UInt8.ofNat n] ++ message

/-- The status for a message over the limit. -/
def tooLarge (found limit : Nat) : RpcStatus :=
  ⟨.outOfRange, "Error, message length too large: found " ++ toString found ++
    " bytes, the limit is: " ++ toString limit ++ " bytes"⟩

/-- The status for a flag other than zero. -/
def wrongFlag (flag : UInt8) : RpcStatus :=
  ⟨.internal,
    if flag = 1 then
      "protocol error: received message with compressed-flag but no grpc-encoding was specified"
    else
      "protocol error: received message with invalid compression flag: " ++
        toString flag.toNat ++ " (valid flags are 0 and 1), while sending request"⟩

/-- The status for an end inside a frame. -/
def unexpectedEnd : RpcStatus := ⟨.internal, "Unexpected EOF decoding stream."⟩

/-- The status for bytes that are no message. -/
def undecodable : RpcStatus := ⟨.internal, "failed to decode Protobuf message"⟩

end Frame

/-- What is left of the pieces that came. -/
structure FrameReader where
  /-- The longest message accepted. -/
  limit : Nat
  /-- The bytes that belong to no finished frame. -/
  buffer : Bytes := []
  /-- The length of the message whose header was read. -/
  awaited : Option Nat := none
  /-- Whether the stream is broken; all that follows is dropped. -/
  broken : Bool := false
  deriving DecidableEq, Repr

namespace FrameReader

/-- Read a header, if its five bytes are there. -/
def header (r : FrameReader) : Option (Except RpcStatus FrameReader) :=
  match r.buffer with
  | flag :: a :: b :: c :: d :: rest =>
    let n := ((a.toNat * 256 + b.toNat) * 256 + c.toNat) * 256 + d.toNat
    some <|
      if flag ≠ 0 then .error (Frame.wrongFlag flag)
      else if r.limit < n then .error (Frame.tooLarge n r.limit)
      else .ok { r with buffer := rest, awaited := some n }
  | _ => none

/-- Read the messages that are complete, `fuel` steps at most. -/
def drain : (fuel : Nat) → FrameReader → List (Except RpcStatus Bytes) × FrameReader
  | 0, r => ([], r)
  | fuel + 1, r =>
    match r.awaited with
    | none =>
      match r.header with
      | none => ([], r)
      | some (.error e) => ([.error e], { r with buffer := [], broken := true })
      | some (.ok r) => drain fuel r
    | some n =>
      let message := r.buffer.take n
      if message.length < n then ([], r)
      else
        let (items, r') := drain fuel { r with buffer := r.buffer.drop n, awaited := none }
        (.ok message :: items, r')

/-- Take a piece: the messages that it completes, and the error that breaks the stream. -/
def feed (r : FrameReader) (piece : Bytes) : List (Except RpcStatus Bytes) × FrameReader :=
  if r.broken then ([], r)
  else drain (2 * (r.buffer.length + piece.length) + 2) { r with buffer := r.buffer ++ piece }

/-- Take the end. Bytes that belong to no finished frame are an error; a header alone is not. -/
def finish (r : FrameReader) : List (Except RpcStatus Bytes) :=
  if r.broken ∨ r.buffer = [] then [] else [.error Frame.unexpectedEnd]

end FrameReader

end OrderingService
