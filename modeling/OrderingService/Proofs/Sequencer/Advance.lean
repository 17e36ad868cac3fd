import OrderingService.Proofs.Sequencer.DenseOrder

/-!
# A sequencer only goes forward

Nothing that a sequencer has published changes, what is pending is published next, and a sequencer
that has stopped stays so. An earlier and a later state are compared by what the later one can still
be seen to have in common with the earlier one.

## Main definitions

* `Sequencer.ledger` — what is published and then what is pending
* `Sequencer.Advances` — one state may come after another
* `Sequencer.Ordered` — the state is densely ordered against some accepted submissions

## Main results

* `Sequencer.Effect.ledger_eq` — one action adds what it accepts
* `Sequencer.Effect.advances`, `Sequencer.Effect.ordered` — one action
* `Sequencer.Advances.accepted_drop` — what is published next begins with what was pending
* `Sequencer.Ordered.sequence_published` — published transactions are numbered by their positions
-/

namespace OrderingService

namespace Sequencer

variable {s s' q r : Sequencer} {now : Nat} {action : Action} {answer : Answer}

/-- What is published and then what is pending, as the submissions these came from. -/
def ledger (s : Sequencer) : List Accepted :=
  s.published.map OrderedTransaction.accepted ++ s.pending.map PendingTransaction.accepted

/-- The state `r` may come after the state `q`. -/
structure Advances (q r : Sequencer) : Prop where
  kept_eq : r.kept = q.kept
  stopped : q.stopped = true → r.stopped = true
  published : q.published <+: r.published
  ledger : q.ledger <+: r.ledger

namespace Advances

theorem refl (s : Sequencer) : s.Advances s := ⟨rfl, id, List.prefix_rfl, List.prefix_rfl⟩

theorem trans (h : q.Advances r) (h' : r.Advances s) : q.Advances s where
  kept_eq := h'.kept_eq.trans h.kept_eq
  stopped := h'.stopped ∘ h.stopped
  published := h.published.trans h'.published
  ledger := h.ledger.trans h'.ledger

/-- What is published after the state `q` begins with what was pending then. -/
theorem accepted_drop (h : q.Advances r) : q.pending.map PendingTransaction.accepted <+:
    (r.published.drop q.published.length).map OrderedTransaction.accepted ++
      r.pending.map PendingTransaction.accepted := by
  obtain ⟨published, hpublished⟩ := h.published
  have hledger := h.ledger
  rw [Sequencer.ledger, Sequencer.ledger, ← hpublished, List.map_append, List.append_assoc,
    List.prefix_append_right_inj] at hledger
  rwa [← hpublished, List.drop_left]

end Advances

/-- An appended transaction comes last. -/
theorem ledger_append (s : Sequencer) (now : Nat) (payload txid : Bytes) (h : History) :
    (s.append now payload txid h).ledger = s.ledger ++ [⟨payload, s.nextSequence, txid⟩] := by
  rw [ledger, ledger, append, List.map_append, ← List.append_assoc]
  rfl

/-- A cut moves transactions and leaves their order alone. -/
theorem ledger_cut (s : Sequencer) (now : Nat) : (s.cut now).2.ledger = s.ledger := by
  rcases cut_cases s now with ⟨-, heq⟩ | ⟨-, e, h, heq⟩ | ⟨-, t, ws, root, h, -, -, hlen, heq⟩
  · rw [heq]
    rfl
  · rw [heq]
    rfl
  · rw [heq]
    show (s.publish ws h).published.map _ ++ [] = s.ledger
    rw [publish, List.map_append, map_accepted_ordered hlen, List.append_nil]
    rfl

/-- **One action adds to the ledger the submission that it accepts,** and nothing else. -/
theorem Effect.ledger_eq (he : Effect s now action answer s') :
    s'.ledger = s.ledger ++ (Entry.accepted? ⟨now, action, answer⟩).toList := by
  cases he with
  | refused payload e h => exact (List.append_nil _).symm
  | appended payload txid h => exact ledger_append s now payload txid h
  | filled payload txid h => exact (ledger_cut _ now).trans (ledger_append s now payload txid h)
  | subscribed => exact (List.append_nil _).symm
  | flushed => exact (ledger_cut s now).trans (List.append_nil _).symm
  | expired => exact (ledger_cut s now).trans (List.append_nil _).symm
  | stopped action last =>
    have hcut : ({ (s.cut now).2 with stopped := true } : Sequencer).ledger = s.ledger :=
      ledger_cut s now
    rcases last with rfl | rfl
    · exact hcut.trans (List.append_nil _).symm
    · exact hcut.trans (List.append_nil _).symm

theorem advances_append (s : Sequencer) (now : Nat) (payload txid : Bytes) (h : History) :
    s.Advances (s.append now payload txid h) where
  kept_eq := rfl
  stopped := id
  published := List.prefix_rfl
  ledger := ledger_append s now payload txid h ▸ List.prefix_append _ _

theorem advances_cut (s : Sequencer) (now : Nat) : s.Advances (s.cut now).2 := by
  have hledger : s.ledger <+: (s.cut now).2.ledger := ledger_cut s now ▸ List.prefix_rfl
  rcases cut_cases s now with ⟨-, heq⟩ | ⟨-, e, h, heq⟩ | ⟨-, t, ws, root, h, -, -, -, heq⟩
  · rw [heq]
    exact { Advances.refl s with }
  · rw [heq]
    exact { Advances.refl s with }
  · rw [heq] at hledger ⊢
    exact ⟨rfl, id, List.prefix_append _ _, hledger⟩

/-- **One action takes the sequencer forward.** -/
theorem Effect.advances (he : Effect s now action answer s') : s.Advances s' := by
  cases he with
  | refused payload e h => exact { Advances.refl s with }
  | appended payload txid h => exact advances_append s now payload txid h
  | filled payload txid h => exact (advances_append s now payload txid h).trans (advances_cut _ now)
  | subscribed => exact Advances.refl s
  | flushed => exact advances_cut s now
  | expired => exact advances_cut s now
  | stopped action last => exact { advances_cut s now with stopped := fun _ => rfl }

/-! ### Numbers of published transactions -/

/-- The state is densely ordered against some accepted submissions. -/
def Ordered (s : Sequencer) : Prop := ∃ A, s.DenselyOrdered A

theorem Ordered.new (c : SequencerConfig) : (Sequencer.new c).Ordered := ⟨[], .new c⟩

theorem Effect.ordered (he : Effect s now action answer s') (ho : s.Ordered) : s'.Ordered := by
  obtain ⟨A, ho⟩ := ho
  exact ⟨_, ho.effect he⟩

/-- The metrics have no part in the order. -/
theorem Ordered.updateMetrics (ho : s.Ordered) (m : Metrics) : Ordered { s with metrics := m } := by
  obtain ⟨A, ho⟩ := ho
  exact ⟨A, { ho with }⟩

/-- The numbers that were given out are those of what is in the ledger. -/
theorem Ordered.sequence_ledger (ho : s.Ordered) :
    s.ledger.map (·.receipt.sequence) = List.range s.nextSequence := by
  obtain ⟨A, ho⟩ := ho
  rw [ho.nextSequence_eq, ← ho.sequences_eq, ledger, List.map_append, List.map_map, List.map_map]
  rfl

/-- Published transactions are numbered by their positions. -/
theorem Ordered.sequence_published (ho : s.Ordered) :
    s.published.map (·.sequence) = List.range s.published.length := by
  obtain ⟨A, ho⟩ := ho
  have hprefix : s.published.map (·.sequence) <+: List.range A.length :=
    ho.sequences_eq ▸ List.prefix_append _ _
  rw [List.prefix_iff_eq_take.mp hprefix, List.length_map, List.take_range]
  have hle := hprefix.length_le
  rw [List.length_map, List.length_range] at hle
  rw [Nat.min_eq_left hle]

end Sequencer

end OrderingService
