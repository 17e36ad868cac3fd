import Mathlib.Data.List.Forall2
import OrderingService.Proofs.Sequencer.Run

/-!
# Which batches are to be cut

Four things close a batch: the submission that fills it, its timer, somebody who asks, and the end.
The sequencer keeps one deadline for all batches, sets it when a batch opens and clears it when one
closes. What it should do is said here without any of that, batch by batch: a batch opens with the
first submission that finds none open, its deadline is fixed at that moment, and it takes what comes
until the earliest of the four.

The requests alone do not determine the batches. A request that is handled exactly when the time of
the open batch is up can come before the timer or after it. So the reference is a relation, between
requests and the ways in which they can fall into batches.

## Main definitions

* `Segmentation` — batches in the order in which they close, and which of them was asked for
* `Gathers`, `Segments` — how one batch goes on, and how requests fall into batches
* `Sequencer.happenings` — what each action of a run answers and publishes
* `Sequencer.onTime` — the clock does not go back and the timer is never late
* `Shows` — what happened shows batches as a segmentation has them

## Main results

* `Shows.closed_after`, `Shows.asked_after` — one more batch is shown by the action that publishes it
-/

namespace OrderingService

open Sequencer (Action Entry)

/-! ### The reference -/

/-- A batch that was closed. -/
structure ClosedBatch where
  number : Nat
  /-- When it was closed. -/
  time : Nat
  payloads : List Bytes

/-- How requests fall into batches. -/
structure Segmentation where
  /-- The batches in the order in which they close. -/
  closed : List ClosedBatch := []
  /-- What each flush and each stop closes. -/
  asked : List (Option ClosedBatch) := []
  /-- The payloads of the batch that is open at the end. -/
  left : List Bytes := []

/-- How an open batch ends. -/
inductive Ending where
  /-- It is full or its time is up. -/
  | closed (time : Nat)
  /-- Somebody asks for it. -/
  | asked (time : Nat)
  /-- It does not. -/
  | left

/-- A batch, and then what comes after it. -/
def Segmentation.after (o : Segmentation) (number : Nat) (payloads : List Bytes) :
    Ending → Segmentation
  | .closed time => { o with closed := ⟨number, time, payloads⟩ :: o.closed }
  | .asked time =>
    { o with
      closed := ⟨number, time, payloads⟩ :: o.closed
      asked := some ⟨number, time, payloads⟩ :: o.asked }
  | .left => { o with left := payloads }

/-- When the next request is handled, if not at the end. -/
def nextTime (horizon : Nat) : List (Nat × Action) → Nat
  | [] => horizon
  | (t, _) :: _ => t

/-- How a batch goes on that is open until `deadline`, has room for `room` more payloads and got its
last one at the time `now`: which payloads it gets, how it ends, and which requests come later. -/
inductive Gathers (deadline horizon : Nat) :
    (now room : Nat) → List (Nat × Action) → List Bytes → Ending → List (Nat × Action) → Prop
  /-- It is full. -/
  | full (now : Nat) (rest : List (Nat × Action)) :
    Gathers deadline horizon now 0 rest [] (.closed now) rest
  /-- It takes another payload. -/
  | submit {now room t : Nat} {payload : Bytes} {requests rest : List (Nat × Action)}
      {payloads : List Bytes} {ending : Ending} (intime : t ≤ deadline)
      (more : Gathers deadline horizon t room requests payloads ending rest) :
    Gathers deadline horizon now (room + 1) ((t, .call (.submit payload)) :: requests)
      (payload :: payloads) ending rest
  | subscribe {now room t : Nat} {requests rest : List (Nat × Action)} {payloads : List Bytes}
      {ending : Ending} (intime : t ≤ deadline)
      (more : Gathers deadline horizon now (room + 1) requests payloads ending rest) :
    Gathers deadline horizon now (room + 1) ((t, .call .subscribe) :: requests) payloads ending rest
  /-- Its time is up. -/
  | expired {now room : Nat} {rest : List (Nat × Action)} (due : deadline ≤ nextTime horizon rest) :
    Gathers deadline horizon now (room + 1) rest [] (.closed deadline) rest
  | flushed {now room t : Nat} {rest : List (Nat × Action)} (intime : t ≤ deadline) :
    Gathers deadline horizon now (room + 1) ((t, .call .flush) :: rest) [] (.asked t) rest
  /-- Nothing comes after the end. -/
  | stopped {now room t : Nat} {action : Action} (intime : t ≤ deadline)
      (last : action = .call .shutdown ∨ action = .close) :
    Gathers deadline horizon now (room + 1) [(t, action)] [] (.asked t) []
  | left {now room : Nat} (early : horizon ≤ deadline) :
    Gathers deadline horizon now (room + 1) [] [] .left []

/-- How requests fall into batches of at most `limit` payloads that are open for at most `timeout`,
where no batch is open and the next one has the number `number`. -/
inductive Segments (limit timeout horizon : Nat) :
    (number : Nat) → List (Nat × Action) → Segmentation → Prop
  | nil (number : Nat) : Segments limit timeout horizon number [] {}
  | subscribe {number t : Nat} {requests : List (Nat × Action)} {o : Segmentation}
      (more : Segments limit timeout horizon number requests o) :
    Segments limit timeout horizon number ((t, .call .subscribe) :: requests) o
  /-- There is nothing to flush. -/
  | flushed {number t : Nat} {requests : List (Nat × Action)} {o : Segmentation}
      (more : Segments limit timeout horizon number requests o) :
    Segments limit timeout horizon number ((t, .call .flush) :: requests)
      { o with asked := none :: o.asked }
  | stopped {number t : Nat} {action : Action}
      (last : action = .call .shutdown ∨ action = .close) :
    Segments limit timeout horizon number [(t, action)] { asked := [none] }
  /-- A submission opens a batch, and fixes until when it is open. -/
  | batch {number t : Nat} {payload : Bytes} {requests rest : List (Nat × Action)}
      {payloads : List Bytes} {ending : Ending} {o : Segmentation}
      (gathers : Gathers (t + timeout) horizon t (limit - 1) requests payloads ending rest)
      (more : Segments limit timeout horizon (number + 1) rest o) :
    Segments limit timeout horizon number ((t, .call (.submit payload)) :: requests)
      (o.after number (payload :: payloads) ending)

/-- Requests in the order of their times, from `since` on and up to `horizon`. -/
def Timed (since horizon : Nat) : List (Nat × Action) → Prop
  | [] => since ≤ horizon
  | (t, _) :: rest => since ≤ t ∧ Timed t horizon rest

theorem Timed.le_nextTime {since horizon : Nat} {requests : List (Nat × Action)}
    (h : Timed since horizon requests) : since ≤ nextTime horizon requests := by
  cases requests with
  | nil => exact h
  | cons request rest => exact h.1

theorem Timed.from {since since' horizon : Nat} {requests : List (Nat × Action)}
    (h : Timed since horizon requests) (hle : since' ≤ nextTime horizon requests) :
    Timed since' horizon requests := by
  cases requests with
  | nil => exact hle
  | cons request rest => exact ⟨hle, h.2⟩

namespace Sequencer

/-! ### What a run shows -/

/-- What was requested in some steps: the timer is none of it. -/
def requests (steps : List (Nat × Action)) : List (Nat × Action) :=
  steps.filter (·.2 ≠ .expire)

/-- Whether the answer to a request tells which batch was closed. -/
def Action.asks : Action → Bool
  | .call .flush | .call .shutdown | .close => true
  | _ => false

/-- What each action of a run answers, and what it publishes. -/
def happenings (s : Sequencer) : List (Nat × Action) → List (Entry × List OrderedTransaction)
  | [] => []
  | (now, action) :: rest =>
    match s.act? now action with
    | some (answer, next) =>
      (⟨now, action, answer⟩, next.published.drop s.published.length) :: next.happenings rest
    | none => []

/-- Whether some steps are in the order of their times, and none comes later than the time at which
the open batch has to be cut. -/
def onTime (s : Sequencer) (since horizon : Nat) : List (Nat × Action) → Bool
  | [] => decide (since ≤ horizon) && s.deadline.all (horizon ≤ ·)
  | (t, action) :: rest =>
    decide (since ≤ t) && s.deadline.all (t ≤ ·) &&
      (s.act? t action).all fun (_, next) => next.onTime t horizon rest

end Sequencer

/-- The place of a published transaction, and its payload. -/
def OrderedTransaction.placed (tx : OrderedTransaction) : Nat × Nat × Bytes :=
  (tx.batch, tx.leafIndex, tx.payload)

/-- The places of the payloads of a batch. -/
def placedIn (number : Nat) (payloads : List Bytes) : List (Nat × Nat × Bytes) :=
  payloads.zipIdx.map fun (payload, index) => (number, index, payload)

/-- Transactions are those of a batch, and their witnesses lead to one root. -/
structure Publishes (number : Nat) (payloads : List Bytes) (root : Bytes)
    (txs : List OrderedTransaction) : Prop where
  placed_eq : txs.map OrderedTransaction.placed = placedIn number payloads
  root_eq : ∀ tx ∈ txs, tx.witness.root = root

/-- An action published a batch, at its time. -/
def ClosedBatch.PublishedBy (b : ClosedBatch) (x : Entry × List OrderedTransaction) : Prop :=
  x.1.now = b.time ∧ x.2.map OrderedTransaction.placed = placedIn b.number b.payloads

/-- The answer to a flush or a stop: the summary of the batch that it published, or nothing. -/
def ToldBy : Option ClosedBatch → Entry × List OrderedTransaction → Prop
  | none, x => x.1.answer = .ok (.summary none) ∧ x.2 = []
  | some b, x => b.PublishedBy x ∧ ∃ root,
    x.1.answer = .ok (.summary (some ⟨b.number, root, b.payloads.length⟩)) ∧
      ∀ tx ∈ x.2, tx.witness.root = root

/-- What happened, and the state after it, show batches as a segmentation has them. -/
structure Shows (o : Segmentation) (happened : List (Entry × List OrderedTransaction))
    (s : Sequencer) : Prop where
  closed : List.Forall₂ ClosedBatch.PublishedBy o.closed (happened.filter (!·.2.isEmpty))
  asked : List.Forall₂ ToldBy o.asked (happened.filter (·.1.action.asks))
  left_eq : s.pending.map (·.payload) = o.left

namespace Shows

variable {o : Segmentation} {happened : List (Entry × List OrderedTransaction)} {s : Sequencer}
  {t number : Nat} {action : Action} {answer : Answer} {txs : List OrderedTransaction}
  {payloads : List Bytes} {root : Bytes}

theorem quiet (h : Shows o happened s) (hasks : action.asks = false) :
    Shows o ((⟨t, action, answer⟩, []) :: happened) s where
  closed := by
    rw [List.filter_cons_of_neg (by simp)]
    exact h.closed
  asked := by
    rw [List.filter_cons_of_neg (by simp [hasks])]
    exact h.asked
  left_eq := h.left_eq

theorem none_asked (h : Shows o happened s) (hasks : action.asks = true) :
    Shows { o with asked := none :: o.asked }
      ((⟨t, action, .ok (.summary none)⟩, []) :: happened) s where
  closed := by
    rw [List.filter_cons_of_neg (by simp)]
    exact h.closed
  asked := by
    rw [List.filter_cons_of_pos (by exact hasks)]
    exact .cons ⟨rfl, rfl⟩ h.asked
  left_eq := h.left_eq

theorem filter_published {entry : Entry} (hp : Publishes number payloads root txs)
    (hne : payloads ≠ []) : ((entry, txs) :: happened).filter (!·.2.isEmpty)
      = (entry, txs) :: happened.filter (!·.2.isEmpty) := by
  refine List.filter_cons_of_pos ?_
  cases txs with
  | nil => exact absurd hp.placed_eq.symm (by simpa [placedIn] using hne)
  | cons tx rest => rfl

theorem closed_after (h : Shows o happened s) (hasks : action.asks = false)
    (hp : Publishes number payloads root txs) (hne : payloads ≠ []) :
    Shows (o.after number payloads (.closed t)) ((⟨t, action, answer⟩, txs) :: happened) s where
  closed := by
    rw [filter_published hp hne]
    exact .cons ⟨rfl, hp.placed_eq⟩ h.closed
  asked := by
    rw [List.filter_cons_of_neg (by simp [hasks])]
    exact h.asked
  left_eq := h.left_eq

theorem asked_after (h : Shows o happened s) (hasks : action.asks = true)
    (hp : Publishes number payloads root txs) (hne : payloads ≠ []) :
    Shows (o.after number payloads (.asked t))
      ((⟨t, action, .ok (.summary (some ⟨number, root, payloads.length⟩))⟩, txs) :: happened) s where
  closed := by
    rw [filter_published hp hne]
    exact .cons ⟨rfl, hp.placed_eq⟩ h.closed
  asked := by
    rw [List.filter_cons_of_pos (by exact hasks)]
    exact .cons ⟨⟨rfl, hp.placed_eq⟩, root, rfl, hp.root_eq⟩ h.asked
  left_eq := h.left_eq

end Shows

end OrderingService
