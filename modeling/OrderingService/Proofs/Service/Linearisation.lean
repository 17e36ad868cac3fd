import Mathlib.Data.List.Count
import OrderingService.Proofs.Sequencer.DenseOrder
import OrderingService.Proofs.Service.Clients

/-!
# Concurrent submitters are linearised

Whatever the clients of a sequencer, the sequencer itself, its timeouts and everybody else do in
between, the submissions of all clients are accepted one after the other: the mailbox keeps them in
the order in which they were sent, and those that are accepted are numbered in this order. So the
numbers of receipts are distinct and without a gap, a client sees its own numbers increase, and an
answer that was returned before a submission was sent has the smaller number.

## Main definitions

* `Crowd.receipts` — the receipts that were returned
* `Crowd.successes` — the submissions that were accepted
* `Crowd.Linearised` — what is promised to the clients

## Main results

* `Crowd.run?_linearised` — after every run, the promise is kept
-/

namespace OrderingService

namespace Service.AllSubmitted

variable {s : Service} {trace : List Moment} {subs : List Submitted}

/-- Receipts are numbered in the order of the tickets. -/
theorem sequence_lt (ha : s.AllSubmitted trace subs) {sub sub' : Submitted} {a a' : Accepted}
    (hsub : sub ∈ subs) (hsub' : sub' ∈ subs) (haccepted : s.accepted? sub = some a)
    (haccepted' : s.accepted? sub' = some a') (hlt : sub.ticket < sub'.ticket) :
    a.receipt.sequence < a'.receipt.sequence := by
  have hmem : ∀ {sub a}, sub ∈ subs → s.accepted? sub = some a →
      (sub.ticket, a) ∈ orders trace := by
    intro sub a hsub haccepted
    rw [mem_orders]
    exact ((ha.submission sub hsub).accepted?_eq_some_iff ha.tickets).mp haccepted
  have hnumber : ∀ (i : Nat) (hi : i < (orders trace).length),
      (orders trace)[i].2.receipt.sequence = i := by
    intro i hi
    have hledger := ha.ordered.sequence_ledger
    rw [← ha.queued.ledger_eq, List.map_map] at hledger
    have hlength := congrArg List.length hledger
    rw [List.length_map, List.length_range] at hlength
    have hat := List.getElem_of_eq hledger (i := i) (by rwa [List.length_map])
    rwa [List.getElem_map, List.getElem_range] at hat
  obtain ⟨i, hi, heq⟩ := List.mem_iff_getElem.mp (hmem hsub haccepted)
  obtain ⟨j, hj, heq'⟩ := List.mem_iff_getElem.mp (hmem hsub' haccepted')
  have hincreasing := (List.pairwise_append.mp ha.queued.increasing).1
  rw [List.pairwise_map] at hincreasing
  have hij : i < j := by
    refine Nat.lt_of_not_le fun hji => ?_
    rcases Nat.lt_or_eq_of_le hji with hji | rfl
    · have hgt := List.pairwise_iff_getElem.mp hincreasing j i hj hi hji
      rw [heq, heq'] at hgt
      exact absurd hlt (Nat.lt_asymm hgt)
    · rw [heq] at heq'
      exact absurd hlt ((Prod.mk.inj heq').1 ▸ Nat.lt_irrefl _)
  calc a.receipt.sequence = (orders trace)[i].2.receipt.sequence := by rw [heq]
    _ = i := hnumber i hi
    _ < j := hij
    _ = (orders trace)[j].2.receipt.sequence := (hnumber j hj).symm
    _ = a'.receipt.sequence := by rw [heq']

end Service.AllSubmitted

namespace Crowd

/-- The receipt that is returned, with its submission. -/
def Happening.receipt? : Happening → Option (Submitted × Receipt)
  | .returned sub (.ok (.receipt receipt)) => some (sub, receipt)
  | _ => none

/-- The receipts that were returned, with their submissions, in this order. -/
def receipts (trace : List Moment) : List (Submitted × Receipt) :=
  (history trace).filterMap Happening.receipt?

/-- The submissions that were accepted, in the order in which they were sent. Their receipts were
returned or wait for their clients. -/
def successes (trace : List Moment) (s : Crowd) : List Accepted :=
  (submissions trace).filterMap s.service.accepted?

/-- What is promised to the clients after a run with these moments. -/
structure Linearised (trace : List Moment) (s : Crowd) : Prop where
  /-- The accepted submissions are numbered in the order in which they were sent. -/
  sequence_successes : (successes trace s).map (·.receipt.sequence)
    = List.range (successes trace s).length
  /-- Every receipt is that of a submission that was sent and accepted. -/
  mem_successes : ∀ sub receipt, (sub, receipt) ∈ receipts trace →
    sub ∈ submissions trace ∧ ⟨sub.payload, receipt⟩ ∈ successes trace s
  /-- No two receipts have the same number. -/
  nodup : ((receipts trace).map (·.2.sequence)).Nodup
  /-- When all clients have their answers, the receipts have all the numbers up to their count. -/
  perm : (∀ client, s.waiting? client = none) →
    ((receipts trace).map (·.2.sequence)).Perm (List.range (receipts trace).length)
  /-- The receipts of one client have increasing numbers. -/
  own : ∀ client, (((receipts trace).filter (·.1.client = client)).map (·.2.sequence)).Pairwise
    (· < ·)
  /-- What is sent after a receipt was returned gets a larger number. -/
  later : ∀ (i j : Nat) (sub sub' : Submitted) (receipt receipt' : Receipt), i < j →
    (history trace)[i]? = some (.returned sub (.ok (.receipt receipt))) →
      (history trace)[j]? = some (.sent sub') →
        s.service.receipt? sub'.ticket = some receipt' → receipt.sequence < receipt'.sequence
  /-- Published transactions come in the order of their numbers. -/
  sequence_published : s.service.sequencer.published.map (·.sequence)
    = List.range s.service.sequencer.published.length
  published_prefix :
    s.service.sequencer.published.map OrderedTransaction.accepted <+: successes trace s
  /-- Under the number of a receipt the payload of its submission is published. -/
  published_eq : ∀ sub receipt, (sub, receipt) ∈ receipts trace →
    ∀ tx ∈ s.service.sequencer.published, tx.sequence = receipt.sequence →
      tx.payload = sub.payload ∧ tx.txid = receipt.txid

variable {s : Crowd} {trace : List Moment}

namespace Kept

theorem receipts_eq (hk : s.Kept trace) : receipts trace
    = (returned trace).filterMap fun sub => (s.service.receipt? sub.ticket).map (sub, ·) := by
  rw [receipts, returned, List.filterMap_filterMap]
  refine List.filterMap_congr fun h hmem => ?_
  cases h with
  | sent sub => rfl
  | returned sub answer =>
    show Happening.receipt? _ = (s.service.receipt? sub.ticket).map _
    rw [Service.receipt?, hk.answered sub answer hmem]
    rcases answer with e | (receipt | sub | summary)
    · rfl
    · rfl
    · rfl
    · rfl

theorem nodup_returned (hk : s.Kept trace) : (returned trace).Nodup := by
  have hnodup : (submissions trace).Nodup :=
    hk.allSubmitted.increasing.imp fun hlt heq => Nat.ne_of_lt hlt (congrArg Submitted.ticket heq)
  refine List.nodup_iff_count_le_one.mpr fun sub => ?_
  calc (returned trace).count sub
      = ((returned trace).filter (·.client = sub.client)).count sub :=
        (List.count_filter (by simp)).symm
    _ ≤ ((submissions trace).filter (·.client = sub.client)).count sub := by
        rw [hk.one_by_one]
        exact (List.sublist_append_left _ _).count_le sub
    _ = (submissions trace).count sub := List.count_filter (by simp)
    _ ≤ 1 := List.nodup_iff_count_le_one.mp hnodup sub

/-- The numbers of receipts are those of the accepted submissions, here of some of the clients. -/
theorem sequence_receipts (hk : s.Kept trace) (p : Submitted → Bool) :
    ((receipts trace).filter (p ·.1)).map (·.2.sequence)
      = (((returned trace).filter p).filterMap s.service.accepted?).map (·.receipt.sequence) := by
  rw [hk.receipts_eq]
  induction returned trace with
  | nil => rfl
  | cons sub rest ih =>
    cases hreceipt : s.service.receipt? sub.ticket <;> cases hp : p sub <;>
      simp [Service.accepted?, hreceipt, hp, ih]

theorem sequence_successes (hk : s.Kept trace) : (successes trace s).map (·.receipt.sequence)
    = List.range (successes trace s).length := by
  have hsequence := hk.allSubmitted.ordered.sequence_ledger
  rw [← hk.allSubmitted.ledger_eq] at hsequence
  have hlength := congrArg List.length hsequence
  rw [List.length_map, List.length_range] at hlength
  rw [successes, hsequence, hlength]

theorem mem_successes (hk : s.Kept trace) {sub : Submitted} {receipt : Receipt}
    (hmem : (sub, receipt) ∈ receipts trace) :
    sub ∈ submissions trace ∧ ⟨sub.payload, receipt⟩ ∈ successes trace s := by
  rw [hk.receipts_eq] at hmem
  obtain ⟨sub', hsub, heq⟩ := List.mem_filterMap.mp hmem
  obtain ⟨receipt', hreceipt, heq⟩ := Option.map_eq_some_iff.mp heq
  cases heq
  refine ⟨hk.mem_submissions hsub, List.mem_filterMap.mpr ⟨sub, hk.mem_submissions hsub, ?_⟩⟩
  rw [Service.accepted?, hreceipt]
  rfl

/-- Some of the submissions, in the order in which they were sent, were given increasing numbers. -/
theorem increasing_of_sublist (hk : s.Kept trace) {subs : List Submitted}
    (hsub : List.Sublist subs (submissions trace)) :
    ((subs.filterMap s.service.accepted?).map (·.receipt.sequence)).Pairwise (· < ·) := by
  have hsublist := (hsub.filterMap s.service.accepted?).map (·.receipt.sequence)
  rw [← successes, hk.sequence_successes] at hsublist
  exact List.pairwise_lt_range.sublist hsublist

theorem sequence_receipts_all (hk : s.Kept trace) : (receipts trace).map (·.2.sequence)
    = ((returned trace).filterMap s.service.accepted?).map (·.receipt.sequence) := by
  simpa using hk.sequence_receipts fun _ => true

theorem nodup_receipts (hk : s.Kept trace) : ((receipts trace).map (·.2.sequence)).Nodup := by
  obtain ⟨subs, hperm, hsub⟩ :=
    List.subperm_of_subset hk.nodup_returned fun sub => hk.mem_submissions
  rw [hk.sequence_receipts_all, ← ((hperm.filterMap _).map _).nodup_iff]
  exact (hk.increasing_of_sublist hsub).imp Nat.ne_of_lt

/-- When all clients have their answers, all submissions were answered. -/
theorem perm_returned (hk : s.Kept trace) (hfree : ∀ client, s.waiting? client = none) :
    (returned trace).Perm (submissions trace) := by
  refine List.perm_iff_count.mpr fun sub => ?_
  have hsame := hk.one_by_one sub.client
  rw [hfree, Option.toList_none, List.append_nil] at hsame
  rw [← List.count_filter (p := (·.client = sub.client)) (by simp), ← hsame,
    List.count_filter (by simp)]

theorem perm_receipts (hk : s.Kept trace) (hfree : ∀ client, s.waiting? client = none) :
    ((receipts trace).map (·.2.sequence)).Perm (List.range (receipts trace).length) := by
  have hperm := ((hk.perm_returned hfree).filterMap s.service.accepted?).map (·.receipt.sequence)
  rw [← hk.sequence_receipts_all, ← successes, hk.sequence_successes] at hperm
  have hlength := hperm.length_eq
  rw [List.length_map, List.length_range] at hlength
  rwa [hlength]

theorem sequence_lt_of_later (hk : s.Kept trace) {i j : Nat} {sub sub' : Submitted}
    {receipt receipt' : Receipt} (hlt : i < j)
    (hi : (history trace)[i]? = some (.returned sub (.ok (.receipt receipt))))
    (hj : (history trace)[j]? = some (.sent sub'))
    (hreceipt' : s.service.receipt? sub'.ticket = some receipt') :
    receipt.sequence < receipt'.sequence := by
  obtain ⟨hi, heq⟩ := List.getElem?_eq_some_iff.mp hi
  obtain ⟨hj, heq'⟩ := List.getElem?_eq_some_iff.mp hj
  have hticket := List.pairwise_iff_getElem.mp hk.later i j hi hj hlt sub _ sub' heq heq'
  have hmem : .returned sub (.ok (.receipt receipt)) ∈ history trace := heq ▸ List.getElem_mem hi
  have hsub := hk.mem_submissions (List.mem_filterMap.mpr ⟨_, hmem, rfl⟩)
  have hsub' : sub' ∈ submissions trace :=
    List.mem_filterMap.mpr ⟨_, heq' ▸ List.getElem_mem hj, rfl⟩
  have haccepted : s.service.accepted? sub = some ⟨sub.payload, receipt⟩ := by
    rw [Service.accepted?, Service.receipt?, hk.answered sub _ hmem]
    rfl
  have haccepted' : s.service.accepted? sub' = some ⟨sub'.payload, receipt'⟩ := by
    rw [Service.accepted?, hreceipt']
    rfl
  exact hk.allSubmitted.sequence_lt hsub hsub' haccepted haccepted' hticket

theorem accepted_published (hk : s.Kept trace) {a : Accepted} (ha : a ∈ successes trace s)
    {tx : OrderedTransaction} (htx : tx ∈ s.service.sequencer.published)
    (heq : tx.sequence = a.receipt.sequence) : tx.accepted = a := by
  have hsequence := hk.allSubmitted.ordered.sequence_ledger
  rw [successes, hk.allSubmitted.ledger_eq] at ha
  refine List.inj_on_of_nodup_map (hsequence ▸ List.nodup_range) ?_ ha heq
  exact List.mem_append_left _ (List.mem_map_of_mem htx)

theorem linearised (hk : s.Kept trace) : Linearised trace s where
  sequence_successes := hk.sequence_successes
  mem_successes := fun sub receipt hmem => hk.mem_successes hmem
  nodup := hk.nodup_receipts
  perm := hk.perm_receipts
  own := fun client => by
    have hsub : List.Sublist ((returned trace).filter (·.client = client)) (submissions trace) := by
      refine List.Sublist.trans ?_ (List.filter_sublist (p := (·.client = client)))
      rw [hk.one_by_one client]
      exact List.sublist_append_left _ _
    exact hk.sequence_receipts (·.client = client) ▸ hk.increasing_of_sublist hsub
  later := fun i j sub sub' receipt receipt' hlt hi hj => hk.sequence_lt_of_later hlt hi hj
  sequence_published := hk.allSubmitted.ordered.sequence_published
  published_prefix := by
    rw [successes, hk.allSubmitted.ledger_eq]
    exact List.prefix_append _ _
  published_eq := fun sub receipt hmem tx htx heq => by
    have haccepted := hk.accepted_published (hk.mem_successes hmem).2 htx heq
    exact ⟨congrArg Accepted.payload haccepted, congrArg (·.receipt.txid) haccepted⟩

end Kept

/-- **Concurrent submitters are linearised.** After every run, with any number of clients and a
mailbox of any capacity, the promise is kept. -/
theorem run?_linearised {c : SequencerConfig} {maxPayload clients : Nat} {acts : List CrowdAct}
    (hrun : (Crowd.new c maxPayload clients).run? acts = some (trace, s)) : Linearised trace s :=
  (run?_kept hrun).linearised

/-- Two clients and a mailbox for one call. The second client takes its answer before the first one
does, and the batch that the two fill cannot be committed until the first one submits again. -/
def sharingActs : List CrowdAct :=
  [.submit 0 [1], .elsewhere (.event .serve), .submit 1 [2], .elsewhere (.event .serve),
    .receive 1, .receive 0, .submit 0 [3], .elsewhere (.event .serve), .receive 0]

theorem run?_linearised_sharing :
    ∃ trace s, (Crowd.new { Sequencer.retrying with mailboxCapacity := 0 } 16 2).run? sharingActs
        = some (trace, s) ∧
      (receipts trace).map (fun p => (p.1.client, p.1.payload, p.2.sequence))
        = [(1, [2], 1), (0, [1], 0), (0, [3], 2)] ∧
      s.service.sequencer.published.map (·.payload) = [[1], [2], [3]] ∧ Linearised trace s := by
  have hfacts : ((Crowd.new { Sequencer.retrying with mailboxCapacity := 0 } 16 2).run?
      sharingActs).map (fun x =>
        ((receipts x.1).map fun p => (p.1.client, p.1.payload, p.2.sequence),
          x.2.service.sequencer.published.map (·.payload)))
        = some ([(1, [2], 1), (0, [1], 0), (0, [3], 2)], [[1], [2], [3]]) := by
    decide +kernel
  obtain ⟨⟨trace, s⟩, hrun, heq⟩ := Option.map_eq_some_iff.mp hfacts
  obtain ⟨hreceipts, hpublished⟩ := Prod.mk.inj heq
  exact ⟨trace, s, hrun, hreceipts, hpublished, run?_linearised hrun⟩

end Crowd

end OrderingService
