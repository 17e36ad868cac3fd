import OrderingService.Bytes
import OrderingService.Merkle.Error
import OrderingService.Text.Quoted

/-!
# Hash strategies

A hash strategy makes accumulators. A digest starts from a fresh accumulator, takes one or more
writes, and is finished; a write may be refused. Whether it is, and what the digest is, may depend
on everything the strategy was asked before, so a strategy is a pure function of that history and
hashing is a computation that extends the history.

Tree digests are tagged: a leaf digest starts with the byte 0, an interior digest with the byte 1,
and the tag is part of what the parent hashes.

## Main definitions

* `HashCall`, `History` — what a strategy was asked, latest first
* `HashStrategy` — which writes are refused, and what an accumulator finishes with
* `Hashing` — computations that may ask a strategy, and may fail
* `HashStrategy.digestOf` — one accumulator, its writes in order, its digest
* `HashStrategy.hash`, `HashStrategy.leafHash`, `HashStrategy.interiorHash`

## Implementation notes

An accumulator needs no type of its own: it is the history at which it was made together with the
chunks written to it. `HashStrategy.digest` is given both.
-/

namespace OrderingService

/-- One thing asked of a hash strategy. -/
inductive HashCall where
  /-- A fresh accumulator. -/
  | accumulator
  /-- A write to the latest accumulator. -/
  | write (bytes : Bytes)
  deriving DecidableEq, Repr

/-- Everything a strategy was asked, latest first, refused writes included. -/
abbrev History := List HashCall

namespace History

/-- How many accumulators were made. -/
def accumulators (h : History) : Nat := h.countP (· matches .accumulator)

/-- How many writes were tried. -/
def writes (h : History) : Nat := h.countP (· matches .write _)

end History

/-- A named maker of accumulators. -/
structure HashStrategy where
  /-- The name. -/
  name : String
  /-- The text of the error with which a write is refused at a history, or `none` when the write
  is accepted. -/
  refusal : History → Bytes → Option String
  /-- What an accumulator made at a history finishes with once these chunks were written. -/
  digest : History → List Bytes → Bytes

/-- A computation that may ask a hash strategy: it extends the history, and may fail. The history
is kept when it fails. -/
abbrev Hashing := EStateM MerkleError History

namespace HashStrategy

/-- The name of a strategy in its printed form. -/
def describe (H : HashStrategy) : String :=
  "HashStrategy \x7b name: " ++ Text.quoted H.name ++ ", .. \x7d"

/-- Try to write one chunk. -/
def write (H : HashStrategy) (bytes : Bytes) : Hashing Unit := fun h =>
  match H.refusal h bytes with
  | some text => .error (.hashWriteFailed text) (.write bytes :: h)
  | none => .ok () (.write bytes :: h)

/-- Write chunks in order, up to the first refused one. -/
def writeAll (H : HashStrategy) : List Bytes → Hashing Unit
  | [] => pure ()
  | chunk :: rest => do
    H.write chunk
    H.writeAll rest

/-- The digest of one accumulator to which these chunks are written in order. -/
def digestOf (H : HashStrategy) (chunks : List Bytes) : Hashing Bytes := do
  let made ← get
  set (HashCall.accumulator :: made)
  H.writeAll chunks
  return H.digest made chunks

/-- The first byte of a leaf digest. -/
def leafTag : UInt8 := 0

/-- The first byte of an interior digest. -/
def interiorTag : UInt8 := 1

/-- The untagged digest of some data: one accumulator and one write. -/
def hash (H : HashStrategy) (data : Bytes) : Hashing Bytes :=
  H.digestOf [data]

/-- The leaf digest of a payload. -/
def leafHash (H : HashStrategy) (payload : Bytes) : Hashing Bytes := do
  return leafTag :: (← H.hash payload)

/-- The interior digest over two child digests: one accumulator and two writes. -/
def interiorHash (H : HashStrategy) (left right : Bytes) : Hashing Bytes := do
  return interiorTag :: (← H.digestOf [left, right])

end HashStrategy

end OrderingService
