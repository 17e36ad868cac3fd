import OrderingService.Config.Basic
import OrderingService.Merkle.Prove
import OrderingService.Metrics.Basic

/-!
# The sequencer

The sequencer gives every payload a number, gathers payloads in an open batch, and cuts the batch:
a tree is built over it and each transaction is published with its witness. A batch is cut when it
is full, when its time is up, and when somebody asks for it. A batch that cannot be committed stays
open and is tried again.

Times are milliseconds on a clock that the caller reads.

## Main definitions

* `SequencerConfig`, `SequencerConfig.ofOrdering`
* `Sequencer` — the whole state, with everything published so far
* `Sequencer.enqueue` — append a payload to the open batch
* `Sequencer.cut` — commit and publish the open batch
* `Call`, `Sequencer.handle` — what can be asked of it

## Implementation notes

The strategy is asked only here and in checks of witnesses, so the history of what it was asked is
part of the state. So are the metrics, which the streams share.
-/

namespace OrderingService

/-- Settings of a sequencer. -/
structure SequencerConfig where
  /-- A batch is full with this many transactions. -/
  maxBatchSize : Nat := 100
  /-- A batch is open this long at most. -/
  batchTimeoutMs : Nat := 200
  /-- The capacity of the mailbox. -/
  mailboxCapacity : Nat := 1000
  /-- The number of published transactions kept for slow subscribers. -/
  subscriberBuffer : Nat := 1024
  /-- The strategy of the batch trees. -/
  strategy : HashStrategy := .sha256

namespace SequencerConfig

/-- The settings from the section on batching. -/
def ofOrdering (c : OrderingConfig) : Except ServiceError SequencerConfig := do
  return {
    maxBatchSize := c.maxBatchSize
    batchTimeoutMs := c.batchTimeoutMs
    mailboxCapacity := c.mailboxCapacity
    subscriberBuffer := c.subscriberBuffer
    strategy := ← c.hashStrategy }

/-- The bytes that an open batch sets aside for each transaction: its number, and an address, a
capacity and a length for each of its two byte strings. -/
def transactionBytes : Nat := 56

/-- Whether the memory that is set aside at the start can be addressed: the open batch in bytes,
the mailbox and the fan-out in places. -/
def Addressable (c : SequencerConfig) : Prop :=
  c.maxBatchSize * transactionBytes ≤ 2 ^ 63 - 1 ∧
    max 1 c.mailboxCapacity ≤ (2 ^ 64 - 1) / 2 ^ 3 ∧
    max 1 c.subscriberBuffer ≤ (2 ^ 64 - 1) / 2 ^ 1

instance (c : SequencerConfig) : Decidable c.Addressable :=
  inferInstanceAs (Decidable (_ ∧ _ ∧ _))

end SequencerConfig

/-- A transaction of the open batch. -/
structure PendingTransaction where
  sequence : Nat
  payload : Bytes
  txid : Bytes
  deriving DecidableEq, Repr

/-- A published transaction. -/
structure OrderedTransaction where
  /-- The number among all transactions. -/
  sequence : Nat
  /-- The number of the batch. -/
  batch : Nat
  /-- The position in the batch. -/
  leafIndex : Nat
  payload : Bytes
  /-- The leaf digest of the payload. -/
  txid : Bytes
  /-- The witness against the root of the batch. -/
  witness : Witness
  deriving DecidableEq, Repr

/-- The answer to a submission. -/
structure Receipt where
  sequence : Nat
  txid : Bytes
  deriving DecidableEq, Repr

/-- What is said of a batch that was cut. -/
structure BatchSummary where
  batch : Nat
  root : Bytes
  /-- The number of transactions, padding not counted. -/
  size : Nat
  deriving DecidableEq, Repr

/-- The place of a reader in what is published: how many transactions lie behind it. -/
structure Subscription where
  next : Nat
  deriving DecidableEq, Repr

/-- The state of a sequencer. -/
structure Sequencer where
  /-- A batch with this many transactions is full. -/
  batchLimit : Nat
  /-- How long a batch stays open. -/
  batchTimeout : Nat
  /-- How many published transactions are kept for subscribers. -/
  kept : Nat
  /-- The strategy of the batch trees. -/
  strategy : HashStrategy
  /-- What the strategy was asked so far. -/
  history : History := []
  /-- The open batch. -/
  pending : List PendingTransaction := []
  /-- When the open batch has to be cut. -/
  deadline : Option Nat := none
  nextSequence : Nat := 0
  nextBatch : Nat := 0
  /-- Everything published, oldest first. -/
  published : List OrderedTransaction := []
  /-- The metrics, shared with the streams. -/
  metrics : Metrics := {}
  /-- Whether it has stopped. -/
  stopped : Bool := false

/-- What can be asked of a sequencer. -/
inductive Call where
  /-- Order a payload. -/
  | submit (payload : Bytes)
  /-- Read what is published from now on. -/
  | subscribe
  /-- Cut the open batch. -/
  | flush
  /-- Cut the open batch and stop. -/
  | shutdown
  deriving DecidableEq, Repr

/-- What a sequencer answers. -/
inductive Reply where
  | receipt (receipt : Receipt)
  | subscription (subscription : Subscription)
  | summary (summary : Option BatchSummary)
  deriving DecidableEq, Repr

/-- The answer to a call. -/
abbrev Answer := Except ServiceError Reply

namespace Sequencer

/-- A fresh sequencer. A limit of zero counts as one, and the fan-out keeps a power of two. -/
def new (c : SequencerConfig) : Sequencer where
  batchLimit := max 1 c.maxBatchSize
  batchTimeout := c.batchTimeoutMs
  kept := ceilPowerOfTwo (max 1 c.subscriberBuffer)
  strategy := c.strategy

/-- A fresh sequencer, if what it sets aside can be addressed. -/
def new? (c : SequencerConfig) : Option Sequencer :=
  if c.Addressable then some (new c) else none

/-- Append a payload to the open batch. Its digest is taken first; when that fails nothing else
happens. -/
def enqueue (s : Sequencer) (now : Nat) (payload : Bytes) :
    Except MerkleError Receipt × Sequencer :=
  match (s.strategy.leafHash payload).outcome s.history with
  | (.error e, h) => (.error e, { s with history := h })
  | (.ok txid, h) =>
    (.ok ⟨s.nextSequence, txid⟩,
      { s with
        history := h
        nextSequence := s.nextSequence + 1
        deadline := if s.pending.isEmpty then some (now + s.batchTimeout) else s.deadline
        pending := s.pending ++ [⟨s.nextSequence, payload, txid⟩] })

/-- The witnesses for some positions of a tree. -/
def witnesses (t : MerkleTree) (H : HashStrategy) : List Nat → Hashing (List Witness)
  | [] => return []
  | index :: rest => do
    let w ← t.proveIndex H index
    return w :: (← witnesses t H rest)

/-- The tree over the open batch, and a witness for each transaction. -/
def commit (s : Sequencer) : Hashing (MerkleTree × List Witness) := do
  let t ← MerkleTree.build s.strategy (s.pending.map (·.payload))
  return (t, ← witnesses t s.strategy (List.range s.pending.length))

/-- The transactions of a batch with their witnesses. -/
def ordered (batch : Nat) (pending : List PendingTransaction) (ws : List Witness) :
    List OrderedTransaction :=
  (pending.zipIdx.zip ws).map fun ((tx, index), w) =>
    ⟨tx.sequence, batch, index, tx.payload, tx.txid, w⟩

/-- The open batch taken out under the next batch number. -/
def closeBatch (s : Sequencer) (h : History) : Sequencer :=
  { s with history := h, deadline := none, pending := [], nextBatch := s.nextBatch + 1 }

/-- Commit the open batch and publish it. An empty batch is no batch. When the batch cannot be
committed it stays open, for a full timeout from now. -/
def cut (s : Sequencer) (now : Nat) : Except MerkleError (Option BatchSummary) × Sequencer :=
  if s.pending.isEmpty then (.ok none, { s with deadline := none })
  else
    match s.commit.outcome s.history with
    | (.error e, h) => (.error e, { s with history := h, deadline := some (now + s.batchTimeout) })
    | (.ok (t, ws), h) =>
      match (t.root s.strategy).outcome h with
      | (.error e, h) => (.error e, s.closeBatch h)
      | (.ok root, h) =>
        let closed := s.closeBatch h
        (.ok (some ⟨s.nextBatch, root, s.pending.length⟩),
          { closed with
            published := s.published ++ ordered s.nextBatch s.pending ws
            metrics := s.metrics.recordBatch s.pending.length 0 })

/-- Order a payload; if that fills the batch, cut it. The answer does not wait for the cut. -/
def submit (s : Sequencer) (now : Nat) (payload : Bytes) : Except MerkleError Receipt × Sequencer :=
  match s.enqueue now payload with
  | (.error e, s) => (.error e, s)
  | (.ok receipt, s) =>
    if s.batchLimit ≤ s.pending.length then (.ok receipt, (s.cut now).2) else (.ok receipt, s)

/-- Handle a call. -/
def handle (s : Sequencer) (now : Nat) : Call → Answer × Sequencer
  | .submit payload =>
    let (result, s) := s.submit now payload
    ((result.map Reply.receipt).mapError .merkle, s)
  | .subscribe => (.ok (.subscription ⟨s.published.length⟩), s)
  | .flush =>
    let (result, s) := s.cut now
    ((result.map Reply.summary).mapError .merkle, s)
  | .shutdown =>
    let (result, s) := s.cut now
    ((result.map Reply.summary).mapError .merkle, { s with stopped := true })

/-- The time of the open batch is up. -/
def expire (s : Sequencer) (now : Nat) : Sequencer := (s.cut now).2

/-- Nobody can call any more: cut the open batch and stop. -/
def close (s : Sequencer) (now : Nat) : Sequencer := { (s.cut now).2 with stopped := true }

/-- Whether the time of the open batch is up. -/
def isDue (s : Sequencer) (now : Nat) : Bool := !s.stopped && s.deadline.any (· ≤ now)

end Sequencer

end OrderingService
