import OrderingService.Proofs.Sequencer.DenseOrder

/-!
# All or nothing

A submission or a cut either does all of its work or none of it, whichever write the strategy
refuses. What a failed step leaves behind is a longer history of what the strategy was asked and,
after a cut, a new deadline; so the next cut finds the same batch under the same number.

The one step that could break this is the root that a cut asks for after the batch was closed. It
is read from the arena of a tree that was just built, and such a tree has a root.

## Main definitions

* `Sequencer.Published` — a cut did all of its work

## Main results

* `Sequencer.eq_of_enqueue_eq_error`, `Sequencer.handle_submit_of_enqueue_eq_error`
* `Sequencer.eq_of_cut_eq_error`, `Sequencer.published_of_cut_eq_ok`
* `Sequencer.enqueue_cut_atomic` — a step does all of its work or none of it
-/

namespace OrderingService

namespace Sequencer

variable {s s' : Sequencer} {now : Nat} {payload : Bytes} {e : MerkleError}

/-! ### Submissions -/

/-- A submission that fails leaves everything but the history as it was. -/
theorem eq_of_enqueue_eq_error (h : s.enqueue now payload = (.error e, s')) :
    s' = { s with history := s'.history } := by
  rcases enqueue_cases s now payload with ⟨e', h', heq⟩ | ⟨txid, h', -, heq⟩
  · rw [heq] at h
    cases h
    rfl
  · rw [heq] at h
    cases h

/-- A submission that fails is answered with its error, and cuts no batch, full or not. -/
theorem handle_submit_of_enqueue_eq_error (h : s.enqueue now payload = (.error e, s')) :
    s.handle now (.submit payload) = (.error (.merkle e), s') := by
  rw [handle, submit, h]
  rfl

/-! ### Cuts -/

/-- A cut that fails leaves the batch open for a full timeout, and everything else but the history
as it was. -/
theorem eq_of_cut_eq_error (h : s.cut now = (.error e, s')) :
    s' = { s with history := s'.history, deadline := some (now + s.batchTimeout) } := by
  rcases cut_cases s now with ⟨-, heq⟩ | ⟨-, e', h', heq⟩ | ⟨-, t, ws, root, h', -, -, -, heq⟩
  · rw [heq] at h
    cases h
  · rw [heq] at h
    cases h
    rfl
  · rw [heq] at h
    cases h

/-- A cut without a summary found no batch. -/
theorem pending_of_cut_eq_none (h : s.cut now = (.ok none, s')) :
    s.pending = [] ∧ s' = { s with deadline := none } := by
  rcases cut_cases s now with ⟨hnil, heq⟩ | ⟨-, e', h', heq⟩ | ⟨-, t, ws, root, h', -, -, -, heq⟩
  · rw [heq] at h
    cases h
    exact ⟨hnil, rfl⟩
  · rw [heq] at h
    cases h
  · rw [heq] at h
    cases h

/-- The batch that was open in `s` is published in `s'`, as the summary says. -/
structure Published (s : Sequencer) (summary : BatchSummary) (s' : Sequencer) : Prop where
  batch_eq : summary.batch = s.nextBatch
  size_eq : summary.size = s.pending.length
  nextBatch_eq : s'.nextBatch = s.nextBatch + 1
  nextSequence_eq : s'.nextSequence = s.nextSequence
  pending_eq : s'.pending = []
  deadline_eq : s'.deadline = none
  /-- Behind what was published before stand the transactions of the batch, in order. -/
  published_eq : ∃ txs, s'.published = s.published ++ txs ∧
    txs.map OrderedTransaction.accepted = s.pending.map PendingTransaction.accepted ∧
    ∀ (j : Nat) (tx : OrderedTransaction), txs[j]? = some tx →
      tx.batch = s.nextBatch ∧ tx.leafIndex = j

theorem published_of_cut_eq_ok {summary : BatchSummary}
    (h : s.cut now = (.ok (some summary), s')) : s.Published summary s' := by
  rcases cut_cases s now with ⟨-, heq⟩ | ⟨-, e', h', heq⟩ | ⟨-, t, ws, root, h', -, -, hlen, heq⟩
  · rw [heq] at h
    cases h
  · rw [heq] at h
    cases h
  · rw [heq] at h
    cases h
    refine ⟨rfl, rfl, rfl, rfl, rfl, rfl, ordered s.nextBatch s.pending ws, rfl,
      map_accepted_ordered hlen s.nextBatch, fun j tx hj => ?_⟩
    obtain ⟨p, w, -, -, rfl⟩ := getElem?_ordered_eq_some.mp hj
    exact ⟨rfl, rfl⟩

/-! ### Together -/

/-- **A step does all of its work or none of it.** This holds in every state and under every
strategy, whichever writes it refuses. A submission that fails changes nothing but the history, and
no cut follows; a cut that fails also sets the deadline, a timeout from now. A cut that succeeds
without a summary found no batch; with a summary, it published the batch that the summary
describes. And once a batch is committed, its root can always be had, and asks the strategy
nothing. -/
theorem enqueue_cut_atomic (s : Sequencer) (now : Nat) :
    (∀ payload e s', s.enqueue now payload = (.error e, s') →
      s' = { s with history := s'.history } ∧
        s.handle now (.submit payload) = (.error (.merkle e), s')) ∧
    (∀ e s', s.cut now = (.error e, s') →
      s' = { s with history := s'.history, deadline := some (now + s.batchTimeout) }) ∧
    (∀ s', s.cut now = (.ok none, s') → s.pending = [] ∧ s' = { s with deadline := none }) ∧
    (∀ summary s', s.cut now = (.ok (some summary), s') → s.Published summary s') ∧
    (∀ t ws h h', s.commit h = .ok (t, ws) h' →
      ∃ root, ∀ g, (t.root s.strategy).outcome g = (.ok root, g)) := by
  refine ⟨fun payload e s' h => ?_, fun e s' h => ?_, fun s' h => ?_, fun summary s' h => ?_,
    fun t ws h h' hc => ?_⟩
  · exact ⟨eq_of_enqueue_eq_error h, handle_submit_of_enqueue_eq_error h⟩
  · exact eq_of_cut_eq_error h
  · exact pending_of_cut_eq_none h
  · exact published_of_cut_eq_ok h
  · obtain ⟨-, r, hr⟩ := of_commit_eq_ok hc
    exact ⟨t.hashAt r, fun g => Hashing.outcome_eq_ok.mpr (MerkleTree.root_of_rootIndex hr _ g)⟩

/-- Two transactions in a batch that is open. -/
def opened : Sequencer := (((new retrying).enqueue 0 [1]).2.enqueue 1 [2]).2

/-- The fourth write is refused: the fourth submission comes to nothing, and so does a cut that
takes its place, until it is tried again. -/
theorem enqueue_cut_atomic_retrying :
    ∃ e full refused kept summary closed,
      opened.enqueue 2 [3] = (.ok ⟨2, [0, 3]⟩, full) ∧ full.enqueue 3 [4] = (.error e, refused) ∧
      refused = { full with history := refused.history } ∧
      opened.cut 2 = (.error e, kept) ∧ kept.pending = opened.pending ∧ kept.deadline = some 7 ∧
      kept.cut 7 = (.ok (some summary), closed) ∧ kept.Published summary closed ∧
      summary.size = 2 ∧ closed.cut 8 = (.ok none, closed) ∧ closed.pending = [] ∧
      ∃ t ws h root, kept.commit kept.history = .ok (t, ws) h ∧
        ∀ g, (t.root kept.strategy).outcome g = (.ok root, g) := by
  have hrefused : (opened.enqueue 2 [3]).2.enqueue 3 [4]
      = (.error (.hashWriteFailed "offline"), ((opened.enqueue 2 [3]).2.enqueue 3 [4]).2) := rfl
  have hkept : opened.cut 2 = (.error (.hashWriteFailed "offline"), (opened.cut 2).2) := rfl
  have hclosed : (opened.cut 2).2.cut 7
      = (.ok (some ⟨0, [1, 0, 1, 0, 2], 2⟩), ((opened.cut 2).2.cut 7).2) := rfl
  have hnone : ((opened.cut 2).2.cut 7).2.cut 8 = (.ok none, ((opened.cut 2).2.cut 7).2) := rfl
  obtain ⟨hsubmit, -, -, -, -⟩ := enqueue_cut_atomic (opened.enqueue 2 [3]).2 3
  obtain ⟨-, hcut, -, -, -⟩ := enqueue_cut_atomic opened 2
  obtain ⟨t, ws, h, hcommit⟩ : ∃ t ws h,
      (opened.cut 2).2.commit (opened.cut 2).2.history = .ok (t, ws) h := ⟨_, _, _, rfl⟩
  obtain ⟨-, -, -, hpublished, hroot⟩ := enqueue_cut_atomic (opened.cut 2).2 7
  obtain ⟨-, -, hempty, -, -⟩ := enqueue_cut_atomic ((opened.cut 2).2.cut 7).2 8
  obtain ⟨root, hroot⟩ := hroot _ _ _ _ hcommit
  have hopen := hcut _ _ hkept
  refine ⟨_, _, _, _, _, _, rfl, hrefused, (hsubmit _ _ _ hrefused).1, hkept, ?_, ?_, hclosed,
    hpublished _ _ hclosed, rfl, hnone, (hempty _ hnone).1, t, ws, h, root, hcommit, hroot⟩
  · rw [hopen]
  · rw [hopen]
    rfl

end Sequencer

end OrderingService
