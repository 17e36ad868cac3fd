import OrderingService.Hashing.Algorithm
import OrderingService.Proofs.Sequencer.Run

/-!
# Dense order without loss

A sequencer numbers the submissions that it accepts, publishes each of them once and in order, and
keeps the others in its open batch. This holds after every run, whatever is refused on the way: a
submission whose digest cannot be taken uses no number, and a batch that cannot be committed stays
as it is.

## Main definitions

* `Batched` — published transactions fall into batches, numbered like their positions
* `Sequencer.DenselyOrdered` — the state of a sequencer against the submissions it accepted

## Main results

* `Sequencer.DenselyOrdered.effect` — one action keeps the order
* `Sequencer.run?_denselyOrdered` — the order after every run, and after the last cut of one
-/

namespace OrderingService

/-! ### Batches -/

/-- Transactions fall into `count` batches, none empty: each names its batch and its position in
the batch. -/
def Batched (txs : List OrderedTransaction) (count : Nat) : Prop :=
  ∃ batches : List (List OrderedTransaction), batches.flatten = txs ∧ batches.length = count ∧
    ∀ (k : Nat) (batch : List OrderedTransaction), batches[k]? = some batch → batch ≠ [] ∧
      ∀ (j : Nat) (tx : OrderedTransaction), batch[j]? = some tx → tx.batch = k ∧ tx.leafIndex = j

theorem batched_nil : Batched [] 0 := ⟨[], rfl, rfl, fun _ _ h => by simp at h⟩

theorem Batched.append {txs batch : List OrderedTransaction} {count : Nat} (h : Batched txs count)
    (hne : batch ≠ []) (hb : ∀ (j : Nat) (tx : OrderedTransaction), batch[j]? = some tx →
      tx.batch = count ∧ tx.leafIndex = j) :
    Batched (txs ++ batch) (count + 1) := by
  obtain ⟨batches, rfl, rfl, hall⟩ := h
  refine ⟨batches ++ [batch], by simp, by simp, fun k b hk => ?_⟩
  rcases Nat.lt_or_ge k batches.length with hlt | hge
  · rw [List.getElem?_append_left hlt] at hk
    exact hall k b hk
  · rw [List.getElem?_append_right hge, List.getElem?_singleton] at hk
    split at hk
    next hzero =>
      obtain rfl := Option.some.inj hk
      have hk : k = batches.length := by omega
      exact ⟨hne, fun j tx hj => hk ▸ hb j tx hj⟩
    next => cases hk

namespace Sequencer

/-! ### The transactions of one batch -/

/-- Each position of a batch joins the transaction and the witness at that position. -/
theorem getElem?_ordered_eq_some {batch : Nat} {pending : List PendingTransaction}
    {ws : List Witness} {j : Nat} {tx : OrderedTransaction} :
    (ordered batch pending ws)[j]? = some tx ↔ ∃ p w, pending[j]? = some p ∧ ws[j]? = some w ∧
      tx = ⟨p.sequence, batch, j, p.payload, p.txid, w⟩ := by
  rw [ordered, List.getElem?_map, Option.map_eq_some_iff]
  constructor
  · rintro ⟨⟨⟨p, i⟩, w⟩, hzip, rfl⟩
    obtain ⟨hp, hw⟩ := List.getElem?_zip_eq_some.mp hzip
    rw [List.getElem?_zipIdx, Option.map_eq_some_iff] at hp
    obtain ⟨_, hp, heq⟩ := hp
    cases heq
    exact ⟨p, w, hp, hw, by simp⟩
  · rintro ⟨p, w, hp, hw, rfl⟩
    refine ⟨((p, j), w), List.getElem?_zip_eq_some.mpr ⟨?_, hw⟩, rfl⟩
    rw [List.getElem?_zipIdx, hp]
    simp

/-- With a witness for each transaction none is cut off. -/
theorem map_accepted_ordered {pending : List PendingTransaction} {ws : List Witness}
    (hlen : ws.length = pending.length) (batch : Nat) :
    (ordered batch pending ws).map OrderedTransaction.accepted
      = pending.map PendingTransaction.accepted := by
  have hfst : ((pending.zipIdx.zip ws).map Prod.fst).map Prod.fst = pending := by
    rw [List.map_fst_zip (by simp [hlen]), List.zipIdx_map_fst]
  calc (ordered batch pending ws).map OrderedTransaction.accepted
      = (((pending.zipIdx.zip ws).map Prod.fst).map Prod.fst).map
          PendingTransaction.accepted := by simp only [ordered, List.map_map]; rfl
    _ = pending.map PendingTransaction.accepted := by rw [hfst]

/-! ### The order -/

/-- The state of a sequencer that has accepted the submissions `A`, in this order. -/
structure DenselyOrdered (s : Sequencer) (A : List Accepted) : Prop where
  /-- The numbers given out are `0, 1, 2, …`. -/
  sequence_eq : ∀ (i : Nat) (a : Accepted), A[i]? = some a → a.receipt.sequence = i
  nextSequence_eq : s.nextSequence = A.length
  /-- What is published and then what is pending is what was accepted. -/
  ledger_eq : s.published.map OrderedTransaction.accepted ++
    s.pending.map PendingTransaction.accepted = A
  batched : Batched s.published s.nextBatch

namespace DenselyOrdered

variable {s : Sequencer} {A : List Accepted}

theorem new (c : SequencerConfig) : (Sequencer.new c).DenselyOrdered [] where
  sequence_eq := fun _ _ h => by simp at h
  nextSequence_eq := rfl
  ledger_eq := rfl
  batched := batched_nil

/-- Published and pending transactions together carry each number once. -/
theorem sequences_eq (ho : s.DenselyOrdered A) :
    s.published.map (·.sequence) ++ s.pending.map (·.sequence) = List.range A.length := by
  have hA : A.map (·.receipt.sequence) = List.range A.length := by
    refine List.ext_getElem (by simp) fun i hi _ => ?_
    rw [List.getElem_map, List.getElem_range]
    exact ho.sequence_eq i _ (List.getElem?_eq_getElem _)
  rw [← hA, ← ho.ledger_eq, List.map_append, List.map_map, List.map_map]
  rfl

theorem append (ho : s.DenselyOrdered A) (now : Nat) (payload txid : Bytes) (h : History) :
    (s.append now payload txid h).DenselyOrdered (A ++ [⟨payload, s.nextSequence, txid⟩]) where
  sequence_eq := fun i a hi => by
    rcases Nat.lt_or_ge i A.length with hlt | hge
    · rw [List.getElem?_append_left hlt] at hi
      exact ho.sequence_eq i a hi
    · rw [List.getElem?_append_right hge, List.getElem?_singleton] at hi
      split at hi
      next hzero =>
        obtain rfl := Option.some.inj hi
        show s.nextSequence = i
        have := ho.nextSequence_eq
        omega
      next => cases hi
  nextSequence_eq := by
    show s.nextSequence + 1 = _
    rw [List.length_append, ho.nextSequence_eq]
    rfl
  ledger_eq := by
    show s.published.map _ ++ (s.pending ++ [_]).map PendingTransaction.accepted = _
    rw [List.map_append, ← List.append_assoc, ho.ledger_eq]
    rfl
  batched := ho.batched

theorem publish (ho : s.DenselyOrdered A) (hne : s.pending ≠ []) {ws : List Witness}
    (hlen : ws.length = s.pending.length) (h : History) : (s.publish ws h).DenselyOrdered A where
  sequence_eq := ho.sequence_eq
  nextSequence_eq := ho.nextSequence_eq
  ledger_eq := by
    show (s.published ++ ordered s.nextBatch s.pending ws).map _ ++ [] = A
    rw [List.map_append, map_accepted_ordered hlen, List.append_nil, ho.ledger_eq]
  batched := by
    refine ho.batched.append (fun hnil => hne ?_) fun j tx hj => ?_
    · have := map_accepted_ordered hlen s.nextBatch
      rw [hnil] at this
      exact List.map_eq_nil_iff.mp this.symm
    · obtain ⟨p, w, -, -, rfl⟩ := getElem?_ordered_eq_some.mp hj
      exact ⟨rfl, rfl⟩

theorem cut (ho : s.DenselyOrdered A) (now : Nat) : (s.cut now).2.DenselyOrdered A := by
  rcases cut_cases s now with ⟨-, heq⟩ | ⟨-, e, h, heq⟩ | ⟨hne, t, ws, root, h, -, -, hlen, heq⟩
  · rw [heq]
    exact { ho with }
  · rw [heq]
    exact { ho with }
  · rw [heq]
    exact ho.publish hne hlen h

/-- **One action keeps the order.** -/
theorem effect {now : Nat} {action : Action} {answer : Answer} {s' : Sequencer}
    (ho : s.DenselyOrdered A) (he : Effect s now action answer s') :
    s'.DenselyOrdered (A ++ (Entry.accepted? ⟨now, action, answer⟩).toList) := by
  cases he with
  | refused payload e h => exact (List.append_nil A).symm ▸ { ho with }
  | appended payload txid h => exact ho.append now payload txid h
  | filled payload txid h => exact (ho.append now payload txid h).cut now
  | subscribed => exact (List.append_nil A).symm ▸ ho
  | flushed => exact (List.append_nil A).symm ▸ ho.cut now
  | expired => exact (List.append_nil A).symm ▸ ho.cut now
  | stopped action last =>
    have hstop : ({ (s.cut now).2 with stopped := true } : Sequencer).DenselyOrdered A :=
      { ho.cut now with }
    rcases last with rfl | rfl
    · exact (List.append_nil A).symm ▸ hstop
    · exact (List.append_nil A).symm ▸ hstop

end DenselyOrdered

/-! ### Runs -/

/-- **A run keeps the order.** -/
theorem run?_ordered {c : SequencerConfig} {steps : List (Nat × Action)} {log : List Entry}
    {s : Sequencer} (hrun : (new c).run? steps = some (log, s)) :
    s.DenselyOrdered (accepted log) := by
  refine run?_keeps (P := fun s log => s.DenselyOrdered (accepted log)) (fun _ ho he => ?_)
    (DenselyOrdered.new c) hrun
  rw [accepted_concat]
  exact ho.effect he

/-- **After every run** the accepted submissions are numbered `0, 1, 2, …` in the order in which
they were taken; what is published and then what is pending is exactly what was accepted, so each
number occurs once; and what is published falls into numbered batches. When the run ends with a
last cut that succeeds, everything accepted is published. -/
theorem run?_denselyOrdered (c : SequencerConfig) {steps : List (Nat × Action)} {log : List Entry}
    {s : Sequencer} (hrun : (new c).run? steps = some (log, s)) :
    s.DenselyOrdered (accepted log) ∧
      s.published.map (·.sequence) ++ s.pending.map (·.sequence)
        = List.range (accepted log).length ∧
      (s.stopped = true → ∀ last reply, log.getLast? = some last → last.answer = .ok reply →
        s.published.map OrderedTransaction.accepted = accepted log) := by
  have ho := run?_ordered hrun
  refine ⟨ho, ho.sequences_eq, fun hstop last reply hlast hok => ?_⟩
  have hledger := ho.ledger_eq
  rwa [run?_pending_of_stopped hrun rfl hstop last reply hlast hok, List.map_nil,
    List.append_nil] at hledger

/-- Batches of two; one write is refused, when the first batch is committed for the first time. -/
def retrying : SequencerConfig where
  maxBatchSize := 2
  batchTimeoutMs := 5
  strategy := (HashStrategy.concatenation "concat").refusing "offline" fun h _ => h.writes = 3

/-- A full batch that fails and is published when its time is up, one that is flushed, and one that
is cut at the end. -/
def retryingSteps : List (Nat × Action) :=
  [(0, .call (.submit [1])), (1, .call .subscribe), (2, .call (.submit [2])), (7, .expire),
    (8, .call (.submit [3])), (9, .call .flush), (9, .call (.submit [])), (10, .close)]

theorem run?_denselyOrdered_retrying :
    ∃ log s, (new retrying).run? retryingSteps = some (log, s) ∧ s.stopped = true ∧
      (accepted log).length = 4 ∧ s.DenselyOrdered (accepted log) ∧
      s.published.map OrderedTransaction.accepted = accepted log := by
  have hfacts : ((new retrying).run? retryingSteps).map (fun x =>
      (x.2.stopped, (accepted x.1).length, x.1.getLast?.map (·.answer.isOk)))
        = some (true, 4, some true) := by decide +kernel
  obtain ⟨⟨log, s⟩, hrun, heq⟩ := Option.map_eq_some_iff.mp hfacts
  obtain ⟨hstop, heq⟩ := Prod.mk.inj heq
  obtain ⟨hlen, heq⟩ := Prod.mk.inj heq
  obtain ⟨⟨now, action, answer⟩, hlast, hok⟩ := Option.map_eq_some_iff.mp heq
  obtain ⟨ho, -, hpublished⟩ := run?_denselyOrdered retrying hrun
  refine ⟨log, s, hrun, hstop, hlen, ho, ?_⟩
  cases answer with
  | ok reply => exact hpublished hstop _ reply hlast rfl
  | error e => cases hok

end Sequencer

end OrderingService
