import OrderingService.Proofs.Hashing.Outcome
import OrderingService.Sequencer.Basic

/-!
# What the operations of a sequencer can do

Each operation is taken apart once, into the ways in which it can end, with everything it does to
the state in each of them. Nothing is assumed of the strategy: any write may be refused, so every
operation can fail wherever it hashes. Facts about runs are proved from these lemmas and unfold no
operation again.

## Main results

* `Sequencer.enqueue_cases` — a payload is appended under the next number, or nothing changes
* `Sequencer.cut_cases` — the three ways in which a cut ends; there is no fourth one, in which the
  batch is closed and its root cannot be had
-/

namespace OrderingService

namespace MerkleTree

variable {H : HashStrategy} {h h' : History}

/-- Every tree that is built has a root. -/
theorem exists_rootIndex_of_build {payloads : List Bytes} {t : MerkleTree}
    (hb : build H payloads h = .ok t h') : ∃ r, t.rootIndex = some r := by
  rw [build] at hb
  split at hb
  next =>
    obtain ⟨_, _, hthrow, -⟩ := Hashing.bind_eq_ok.mp hb
    exact absurd hthrow Hashing.throw_ne_ok
  next =>
    obtain ⟨leaves, _, -, hb⟩ := Hashing.bind_eq_ok.mp hb
    obtain ⟨interior, _, -, hb⟩ := Hashing.bind_eq_ok.mp hb
    obtain ⟨rfl, -⟩ := Hashing.pure_eq_ok.mp hb
    exact ⟨_, rfl⟩

/-- The root digest of a tree with a root is read from the arena, so nothing can go wrong. -/
theorem root_of_rootIndex {t : MerkleTree} {r : Nat} (hr : t.rootIndex = some r) (H : HashStrategy)
    (h : History) : t.root H h = .ok (t.hashAt r) h := by
  rw [root, hr]
  rfl

end MerkleTree

namespace Sequencer

variable {s : Sequencer} {h h' : History}

/-! ### Committing -/

theorem length_witnesses {t : MerkleTree} {H : HashStrategy} :
    ∀ {indices : List Nat} {ws : List Witness} {h h' : History},
      witnesses t H indices h = .ok ws h' → ws.length = indices.length := by
  intro indices
  induction indices with
  | nil =>
    intro ws h h' hw
    obtain ⟨rfl, -⟩ := Hashing.pure_eq_ok.mp hw
    rfl
  | cons index rest ih =>
    intro ws h h' hw
    obtain ⟨w, _, -, hw⟩ := Hashing.bind_eq_ok.mp hw
    obtain ⟨ws', _, hrest, hw⟩ := Hashing.bind_eq_ok.mp hw
    obtain ⟨rfl, -⟩ := Hashing.pure_eq_ok.mp hw
    rw [List.length_cons, List.length_cons, ih hrest]

/-- A committed batch has a witness for each transaction, and a tree with a root. -/
theorem of_commit_eq_ok {t : MerkleTree} {ws : List Witness} (hc : s.commit h = .ok (t, ws) h') :
    ws.length = s.pending.length ∧ ∃ r, t.rootIndex = some r := by
  obtain ⟨t', m, hbuild, hc⟩ := Hashing.bind_eq_ok.mp hc
  obtain ⟨ws', m', hws, hc⟩ := Hashing.bind_eq_ok.mp hc
  obtain ⟨heq, -⟩ := Hashing.pure_eq_ok.mp hc
  obtain ⟨rfl, rfl⟩ := Prod.mk.inj heq
  refine ⟨?_, MerkleTree.exists_rootIndex_of_build hbuild⟩
  rw [length_witnesses hws, List.length_range]

/-! ### Appending -/

/-- The state with one more transaction in the open batch. -/
def append (s : Sequencer) (now : Nat) (payload txid : Bytes) (h : History) : Sequencer :=
  { s with
    history := h
    nextSequence := s.nextSequence + 1
    deadline := if s.pending.isEmpty then some (now + s.batchTimeout) else s.deadline
    pending := s.pending ++ [⟨s.nextSequence, payload, txid⟩] }

theorem enqueue_cases (s : Sequencer) (now : Nat) (payload : Bytes) :
    (∃ e h, s.enqueue now payload = (.error e, { s with history := h })) ∨
      ∃ txid h, s.strategy.leafHash payload s.history = .ok txid h ∧
        s.enqueue now payload = (.ok ⟨s.nextSequence, txid⟩, s.append now payload txid h) := by
  rcases Hashing.outcome_cases (s.strategy.leafHash payload) s.history with
    ⟨txid, h, ho, hx⟩ | ⟨e, h, ho⟩
  · exact Or.inr ⟨txid, h, hx, by rw [enqueue, ho]; rfl⟩
  · exact Or.inl ⟨e, h, by rw [enqueue, ho]⟩

/-! ### Cutting -/

/-- The state after the open batch was published. -/
def publish (s : Sequencer) (ws : List Witness) (h : History) : Sequencer :=
  { s.closeBatch h with
    published := s.published ++ ordered s.nextBatch s.pending ws
    metrics := s.metrics.recordBatch s.pending.length 0 }

/-- A cut finds no open batch, or cannot commit it and leaves it open, or publishes it. The root
that is asked for after the batch was closed is always there. -/
theorem cut_cases (s : Sequencer) (now : Nat) :
    (s.pending = [] ∧ s.cut now = (.ok none, { s with deadline := none })) ∨
      (s.pending ≠ [] ∧ ∃ e h, s.cut now =
        (.error e, { s with history := h, deadline := some (now + s.batchTimeout) })) ∨
      (s.pending ≠ [] ∧ ∃ t ws root h, s.commit s.history = .ok (t, ws) h ∧
        t.root s.strategy h = .ok root h ∧ ws.length = s.pending.length ∧
        s.cut now = (.ok (some ⟨s.nextBatch, root, s.pending.length⟩), s.publish ws h)) := by
  by_cases hne : s.pending = []
  · exact Or.inl ⟨hne, by rw [cut, hne]; rfl⟩
  · have hempty : s.pending.isEmpty = false := by simpa using hne
    rcases Hashing.outcome_cases s.commit s.history with ⟨⟨t, ws⟩, h, ho, hx⟩ | ⟨e, h, ho⟩
    · obtain ⟨hlen, r, hr⟩ := of_commit_eq_ok hx
      have hroot := MerkleTree.root_of_rootIndex hr s.strategy h
      refine Or.inr (Or.inr ⟨hne, t, ws, t.hashAt r, h, hx, hroot, hlen, ?_⟩)
      rw [cut, hempty, ho, if_neg Bool.false_ne_true]
      simp only [Hashing.outcome_eq_ok.mpr hroot]
      rfl
    · refine Or.inr (Or.inl ⟨hne, e, h, ?_⟩)
      rw [cut, hempty, ho, if_neg Bool.false_ne_true]

/-- A cut fails only because the open batch cannot be committed. -/
theorem outcome_of_cut_eq_error {now : Nat} {e : MerkleError} {s' : Sequencer}
    (hc : s.cut now = (.error e, s')) : s.commit.outcome s.history = (.error e, s'.history) := by
  rw [cut] at hc
  split at hc
  next => cases hc
  next =>
    rcases Hashing.outcome_cases s.commit s.history with ⟨⟨t, ws⟩, h, ho, hx⟩ | ⟨e', h, ho⟩
    · obtain ⟨-, r, hr⟩ := of_commit_eq_ok hx
      rw [ho] at hc
      simp only [Hashing.outcome_eq_ok.mpr (MerkleTree.root_of_rootIndex hr s.strategy h)] at hc
      cases hc
    · rw [ho] at hc ⊢
      cases hc
      rfl

@[simp] theorem stopped_cut (s : Sequencer) (now : Nat) : (s.cut now).2.stopped = s.stopped := by
  rcases cut_cases s now with ⟨-, heq⟩ | ⟨-, e, h, heq⟩ | ⟨-, t, ws, root, h, -, -, -, heq⟩
  · rw [heq]
  · rw [heq]
  · rw [heq]
    rfl

/-- A cut that succeeds leaves no batch open. -/
theorem pending_of_cut_eq_ok {now : Nat} {summary : Option BatchSummary}
    (hc : (s.cut now).1 = .ok summary) : (s.cut now).2.pending = [] := by
  rcases cut_cases s now with ⟨hnil, heq⟩ | ⟨-, e, h, heq⟩ | ⟨-, t, ws, root, h, -, -, -, heq⟩
  · rw [heq]
    exact hnil
  · rw [heq] at hc
    cases hc
  · rw [heq]
    rfl

end Sequencer

end OrderingService
