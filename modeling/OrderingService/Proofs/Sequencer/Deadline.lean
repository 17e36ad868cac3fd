import OrderingService.Proofs.Sequencer.Advance
import OrderingService.Proofs.Sequencer.BatchSizes

/-!
# The deadline of the open batch

The timer of a sequencer is set and cleared in many places: by the submission that opens a batch, by
a cut that publishes it, by a cut that fails, and by a cut that finds nothing open. What all of this
comes to is that a deadline is set just while transactions are pending, and that it names the moment
at which the oldest of them has waited for the whole timeout, counted again from each failed cut. So
the timer never fires for nothing, no submission puts it off, and nothing that is pending is without
it.

When a transaction was accepted is read off the log. When a cut failed is not told there, since a
submission is answered before the cut that it causes, so failed cuts are collected from the states.
The open batch has the number of the next one, and a cut that fails does not use it up.

## Main definitions

* `Sequencer.acceptedAt?` — when a transaction was accepted
* `Sequencer.failedCuts`, `Sequencer.failedAt?` — the failed cuts of a run, and the last one of a
  batch
* `Sequencer.Tracked` — the deadline against the log and the failed cuts

## Main results

* `Sequencer.Tracked.act` — one action keeps the deadline
* `Sequencer.run?_deadline` — the deadline after every run
-/

namespace OrderingService

namespace Sequencer

/-! ### What the deadline is compared with -/

/-- When the transaction with some number was accepted. -/
def acceptedAt? (log : List Entry) (sequence : Nat) : Option Nat :=
  (log.find? fun entry => entry.accepted?.any (·.receipt.sequence = sequence)).map (·.now)

/-- A cut that failed. -/
structure FailedCut where
  time : Nat
  /-- The number of the batch, which stays open. -/
  batch : Nat

/-- The failed cut of a batch, if its result is a failure. -/
def failedCut? (time batch : Nat) : CutResult → Option FailedCut
  | .error _ => some ⟨time, batch⟩
  | .ok _ => none

/-- The failed cuts among those that some actions make in turn. -/
def failedCuts (s : Sequencer) : List (Nat × Action) → List FailedCut
  | [] => []
  | (now, action) :: rest =>
    match s.act? now action with
    | some (_, next) =>
      ((s.cutOf? now action).bind (failedCut? now s.nextBatch)).toList ++ next.failedCuts rest
    | none => []

/-- When the last cut of a batch failed. -/
def failedAt? (failed : List FailedCut) (batch : Nat) : Option Nat :=
  (failed.filter (·.batch = batch)).getLast?.map (·.time)

/-- The later of a moment and another one, if there is another one. -/
def laterOf (opened : Nat) (failed? : Option Nat) : Nat := failed?.elim opened (max opened)

variable {s s' : Sequencer} {now timeout : Nat} {action : Action} {answer : Answer}
  {log : List Entry} {failed : List FailedCut} {entry : Entry}

/-- What was accepted stays so. -/
theorem acceptedAt?_concat_of_some {sequence opened : Nat}
    (h : acceptedAt? log sequence = some opened) (entry : Entry) :
    acceptedAt? (log ++ [entry]) sequence = some opened := by
  rw [acceptedAt?, Option.map_eq_some_iff] at h ⊢
  obtain ⟨first, hfirst, hopened⟩ := h
  exact ⟨first, by rw [List.find?_append, hfirst, Option.some_or], hopened⟩

/-- A number that was not given out yet is accepted now. -/
theorem acceptedAt?_concat_of_new {accepted : Accepted}
    (hnew : ∀ earlier ∈ log, ∀ a ∈ earlier.accepted?,
      a.receipt.sequence < accepted.receipt.sequence)
    (hentry : entry.accepted? = some accepted) :
    acceptedAt? (log ++ [entry]) accepted.receipt.sequence = some entry.now := by
  have hnone : log.find? (fun entry =>
      entry.accepted?.any (·.receipt.sequence = accepted.receipt.sequence)) = none := by
    refine List.find?_eq_none.mpr fun earlier hmem => ?_
    simp only [Option.any_eq_true, decide_eq_true_eq, not_exists, not_and]
    exact fun a ha => Nat.ne_of_lt (hnew earlier hmem a ha)
  rw [acceptedAt?, List.find?_append, hnone, Option.none_or]
  simp [hentry]

theorem le_of_acceptedAt? {sequence opened : Nat} (hclock : ∀ entry ∈ log, entry.now ≤ now)
    (h : acceptedAt? log sequence = some opened) : opened ≤ now := by
  obtain ⟨entry, hentry, rfl⟩ := Option.map_eq_some_iff.mp h
  exact hclock entry (List.mem_of_find?_eq_some hentry)

theorem failedAt?_concat_self (failed : List FailedCut) (time batch : Nat) :
    failedAt? (failed ++ [⟨time, batch⟩]) batch = some time := by
  simp [failedAt?]

theorem failedAt?_eq_none {batch : Nat} (h : ∀ cut ∈ failed, cut.batch ≠ batch) :
    failedAt? failed batch = none := by
  have hnil : failed.filter (·.batch = batch) = [] :=
    List.filter_eq_nil_iff.mpr fun cut hcut => by simpa using h cut hcut
  rw [failedAt?, hnil]
  rfl

/-! ### What keeps the deadline -/

/-- The deadline of `s`, against the log and the failed cuts so far. -/
structure Tracked (s : Sequencer) (timeout : Nat) (log : List Entry) (failed : List FailedCut) :
    Prop where
  batchTimeout_eq : s.batchTimeout = timeout
  lt_nextSequence : ∀ entry ∈ log, ∀ a ∈ entry.accepted?, a.receipt.sequence < s.nextSequence
  le_nextBatch : ∀ cut ∈ failed, cut.batch ≤ s.nextBatch
  /-- A batch that is not open has no deadline, and no cut of it has failed. -/
  idle : s.pending = [] → s.deadline = none ∧ ∀ cut ∈ failed, cut.batch ≠ s.nextBatch
  /-- A batch that is open has one since its first transaction was accepted. -/
  deadline_eq : ∀ tx, s.pending.head? = some tx → ∃ opened,
    acceptedAt? log tx.sequence = some opened ∧
      s.deadline = some (laterOf opened (failedAt? failed s.nextBatch) + timeout)

namespace Tracked

theorem new (c : SequencerConfig) : (Sequencer.new c).Tracked c.batchTimeoutMs [] [] where
  batchTimeout_eq := rfl
  lt_nextSequence := nofun
  le_nextBatch := nofun
  idle := fun _ => ⟨rfl, nofun⟩
  deadline_eq := nofun

/-- Nothing is accepted. -/
theorem concat (ht : s.Tracked timeout log failed) (hentry : entry.accepted? = none) :
    s.Tracked timeout (log ++ [entry]) failed where
  batchTimeout_eq := ht.batchTimeout_eq
  lt_nextSequence := List.forall_mem_append.mpr ⟨ht.lt_nextSequence,
    List.forall_mem_singleton.mpr (by rw [hentry]; exact nofun)⟩
  le_nextBatch := ht.le_nextBatch
  idle := ht.idle
  deadline_eq := fun tx htx => by
    obtain ⟨opened, hopened, hdeadline⟩ := ht.deadline_eq tx htx
    exact ⟨opened, acceptedAt?_concat_of_some hopened entry, hdeadline⟩

/-- A transaction is accepted: it opens a batch, or the deadline of the open one stays. -/
theorem append (ht : s.Tracked timeout log failed) (payload txid : Bytes) (h : History)
    (hentry : entry.accepted? = some ⟨payload, s.nextSequence, txid⟩) :
    (s.append entry.now payload txid h).Tracked timeout (log ++ [entry]) failed where
  batchTimeout_eq := ht.batchTimeout_eq
  lt_nextSequence := by
    refine List.forall_mem_append.mpr ⟨fun e he a ha => ?_,
      List.forall_mem_singleton.mpr fun a ha => ?_⟩
    · exact Nat.lt_succ_of_lt (ht.lt_nextSequence e he a ha)
    · rw [hentry] at ha
      obtain rfl := Option.some.inj ha
      exact Nat.lt_succ_self _
  le_nextBatch := ht.le_nextBatch
  idle := fun hnil => absurd hnil (List.append_ne_nil_of_right_ne_nil _ (List.cons_ne_nil _ _))
  deadline_eq := fun tx htx => by
    have hdeadline : (s.append entry.now payload txid h).deadline
        = if s.pending.isEmpty then some (entry.now + s.batchTimeout) else s.deadline := rfl
    have hpending : (s.append entry.now payload txid h).pending
        = s.pending ++ [⟨s.nextSequence, payload, txid⟩] := rfl
    rw [hpending] at htx
    rw [hdeadline]
    show ∃ opened, _ ∧ _ = some (laterOf opened (failedAt? failed s.nextBatch) + timeout)
    cases hopen : s.pending with
    | nil =>
      rw [hopen] at htx
      obtain rfl := Option.some.inj htx
      refine ⟨entry.now, acceptedAt?_concat_of_new ht.lt_nextSequence hentry, ?_⟩
      rw [failedAt?_eq_none (ht.idle hopen).2, ht.batchTimeout_eq]
      rfl
    | cons first rest =>
      rw [hopen] at htx
      obtain rfl := Option.some.inj htx
      obtain ⟨opened, hopened, hdeadline⟩ := ht.deadline_eq first (by rw [hopen]; rfl)
      exact ⟨opened, acceptedAt?_concat_of_some hopened entry, hdeadline⟩

/-- **A cut keeps the deadline.** One that fails comes after the batch was opened, since the clock
does not go back. -/
theorem cut (ht : s.Tracked timeout log failed) (hclock : ∀ entry ∈ log, entry.now ≤ now) :
    (s.cut now).2.Tracked timeout log
      (failed ++ (failedCut? now s.nextBatch (s.cut now).1).toList) := by
  rcases cut_cases s now with ⟨hnil, heq⟩ | ⟨hne, e, h, heq⟩ | ⟨-, t, ws, root, h, -, -, -, heq⟩
  · rw [heq, failedCut?, Option.toList_none, List.append_nil]
    exact { ht with
      idle := fun _ => ⟨rfl, (ht.idle hnil).2⟩
      deadline_eq := fun tx htx => by rw [hnil] at htx; cases htx }
  · rw [heq, failedCut?, Option.toList_some]
    refine { ht with
      le_nextBatch := List.forall_mem_append.mpr ⟨ht.le_nextBatch,
        List.forall_mem_singleton.mpr (Nat.le_refl _)⟩
      idle := fun hnil => absurd hnil hne
      deadline_eq := fun tx htx => ?_ }
    obtain ⟨opened, hopened, -⟩ := ht.deadline_eq tx htx
    refine ⟨opened, hopened, ?_⟩
    rw [failedAt?_concat_self, laterOf, Option.elim_some,
      Nat.max_eq_right (le_of_acceptedAt? hclock hopened), ht.batchTimeout_eq]
  · rw [heq, failedCut?, Option.toList_none, List.append_nil]
    exact {
      batchTimeout_eq := ht.batchTimeout_eq
      lt_nextSequence := ht.lt_nextSequence
      le_nextBatch := fun cut hcut => Nat.le_succ_of_le (ht.le_nextBatch cut hcut)
      idle := fun _ => ⟨rfl, fun cut hcut =>
        Nat.ne_of_lt (Nat.lt_succ_of_le (ht.le_nextBatch cut hcut))⟩
      deadline_eq := nofun }

/-- **One action keeps the deadline.** What it accepts is what the ledger gains. -/
theorem act (ht : s.Tracked timeout log failed) (hclock : ∀ entry ∈ log, entry.now ≤ now)
    (ha : s.act? now action = some (answer, s')) :
    s'.Tracked timeout (log ++ [⟨now, action, answer⟩])
      (failed ++ ((s.cutOf? now action).bind (failedCut? now s.nextBatch)).toList) := by
  have hledger := (act?_effect ha).2.ledger_eq
  have hb := act?_batching ha
  have hnone : s'.ledger = s.ledger → Entry.accepted? ⟨now, action, answer⟩ = none := by
    intro hsame
    rw [hsame, List.self_eq_append_right, Option.toList_eq_nil_iff] at hledger
    exact hledger
  have hsome : ∀ {a : Accepted}, s'.ledger = s.ledger ++ [a] →
      Entry.accepted? ⟨now, action, answer⟩ = some a := by
    intro a hsame
    rw [hsame, List.append_cancel_left_eq] at hledger
    exact Option.toList_eq_singleton_iff.mp hledger.symm
  generalize s.cutOf? now action = cut? at hb ⊢
  cases hb with
  | kept h =>
    rw [Option.bind_none, Option.toList_none, List.append_nil]
    exact { ht.concat (hnone rfl) with }
  | grown payload txid h room =>
    rw [Option.bind_none, Option.toList_none, List.append_nil]
    exact ht.append payload txid h (hsome (ledger_append s now payload txid h))
  | filled payload txid h =>
    have happended : (s.append now payload txid h).Tracked timeout
        (log ++ [⟨now, action, answer⟩]) failed :=
      ht.append payload txid h (hsome ((ledger_cut _ now).trans (ledger_append s now payload txid h)))
    exact happended.cut (List.forall_mem_append.mpr ⟨hclock,
      List.forall_mem_singleton.mpr (Nat.le_refl _)⟩)
  | cut stopped => exact { (ht.cut hclock).concat (hnone (ledger_cut s now)) with }

end Tracked

/-! ### Runs -/

/-- **What the deadline is compared with, every run keeps,** here from any log before it. -/
theorem run?_tracked {steps : List (Nat × Action)} {earlier : List Entry}
    (ht : s.Tracked timeout earlier failed)
    (hsince : ∀ entry ∈ earlier, ∀ step ∈ steps, entry.now ≤ step.1)
    (clock : (steps.map Prod.fst).Pairwise (· ≤ ·)) (hrun : s.run? steps = some (log, s')) :
    s'.Tracked timeout (earlier ++ log) (failed ++ s.failedCuts steps) := by
  induction steps generalizing s earlier failed log with
  | nil =>
    cases hrun
    rwa [List.append_nil, failedCuts, List.append_nil]
  | cons step rest ih =>
    obtain ⟨now, action⟩ := step
    simp only [run?, Option.bind_eq_bind, Option.bind_eq_some_iff] at hrun
    obtain ⟨⟨answer, next⟩, hact, ⟨log₁, last⟩, hrest, heq⟩ := hrun
    cases heq
    rw [List.map_cons, List.pairwise_cons] at clock
    have hnext := ht.act (fun entry hentry => hsince entry hentry _ List.mem_cons_self) hact
    have hlater : ∀ entry ∈ earlier ++ [⟨now, action, answer⟩], ∀ step ∈ rest,
        entry.now ≤ step.1 := List.forall_mem_append.mpr
      ⟨fun entry hentry step hstep => hsince entry hentry step (List.mem_cons_of_mem _ hstep),
        List.forall_mem_singleton.mpr fun step hstep =>
          clock.1 step.1 (List.mem_map_of_mem hstep)⟩
    have hlast := ih hnext hlater clock.2 hrest
    rw [List.append_assoc, List.append_assoc] at hlast
    rwa [failedCuts, hact]

/-- A submission that causes no cut puts off no deadline. -/
theorem deadline_eq_of_cutOf?_eq_none (ha : s.act? now action = some (answer, s'))
    (hcut : s.cutOf? now action = none) (hne : s.pending ≠ []) : s'.deadline = s.deadline := by
  have hb := act?_batching ha
  rw [hcut] at hb
  cases hb with
  | kept h => rfl
  | grown payload txid h room => exact if_neg (by simpa using hne)

/-- The timer fires at a deadline. -/
theorem deadline_isSome_of_expire (h : (s.act? now .expire).isSome) : s.deadline.isSome := by
  rw [act?] at h
  split at h
  case isTrue hdue =>
    obtain ⟨due, hsome, -⟩ := (Option.any_eq_true _ _).mp (Bool.and_eq_true_iff.mp hdue).2
    exact Option.isSome_iff_exists.mpr ⟨due, hsome⟩
  case isFalse => cases h

/-- **The deadline tracks the open batch.** After every run on a clock that does not go back, a
deadline is set just if transactions are pending. It comes by the timeout after the later of two
moments: when the oldest of them was accepted, and when the last cut of their batch failed. So the
timer fires only for a batch that is open, an action that causes no cut does not put it off, and a
batch that is open has it as long as the sequencer runs. -/
theorem run?_deadline (c : SequencerConfig) {steps : List (Nat × Action)} {log : List Entry}
    (clock : (steps.map Prod.fst).Pairwise (· ≤ ·)) (hrun : (new c).run? steps = some (log, s)) :
    (s.deadline.isSome ↔ s.pending ≠ []) ∧
      (∀ tx, s.pending.head? = some tx → ∃ opened, acceptedAt? log tx.sequence = some opened ∧
        s.deadline = some (laterOf opened (failedAt? ((new c).failedCuts steps) s.nextBatch)
          + c.batchTimeoutMs)) ∧
      (∀ now, (s.act? now .expire).isSome → s.pending ≠ []) ∧
      (∀ now action answer s', s.act? now action = some (answer, s') →
        s.cutOf? now action = none → s.pending ≠ [] → s'.deadline = s.deadline) ∧
      (s.stopped = false → s.pending ≠ [] →
        ∃ due, s.deadline = some due ∧ ∀ now, due ≤ now → (s.act? now .expire).isSome) := by
  have ht : s.Tracked c.batchTimeoutMs log ((new c).failedCuts steps) :=
    run?_tracked (.new c) nofun clock hrun
  have hset : s.pending ≠ [] → ∃ due, s.deadline = some due := by
    intro hne
    obtain ⟨tx, rest, hpending⟩ := List.exists_cons_of_ne_nil hne
    obtain ⟨opened, -, hdeadline⟩ := ht.deadline_eq tx (by rw [hpending]; rfl)
    exact ⟨_, hdeadline⟩
  have hopen : s.deadline.isSome → s.pending ≠ [] := by
    intro hsome hnil
    rw [(ht.idle hnil).1] at hsome
    cases hsome
  refine ⟨⟨hopen, fun hne => ?_⟩, ht.deadline_eq, fun now hfires => ?_,
    fun now action answer s' => deadline_eq_of_cutOf?_eq_none, fun hrunning hne => ?_⟩
  · exact Option.isSome_iff_exists.mpr (hset hne)
  · exact hopen (deadline_isSome_of_expire hfires)
  · obtain ⟨due, hdue⟩ := hset hne
    refine ⟨due, hdue, fun now hle => ?_⟩
    rw [act?, isDue, hrunning, hdue]
    simp [hle]

/-- Batches of four; one write is refused, when a batch is committed for the first time. -/
def overdue : SequencerConfig := { retrying with maxBatchSize := 4 }

/-- A flush that fails, between the second transaction of a batch and the third one. -/
def overdueSteps : List (Nat × Action) :=
  [(0, .call (.submit [1])), (1, .call (.submit [2])), (2, .call .flush), (3, .call (.submit [3]))]

/-- The batch was opened at zero and its time was up at five. The flush that fails puts that off,
and the third submission does not. -/
theorem run?_deadline_overdue :
    (overdueSteps.map Prod.fst).Pairwise (· ≤ ·) ∧
      ∃ log s, (new overdue).run? overdueSteps = some (log, s) ∧ s.pending.length = 3 ∧
        acceptedAt? log 0 = some 0 ∧
        failedAt? ((new overdue).failedCuts overdueSteps) s.nextBatch = some 2 ∧
        s.deadline = some (max 0 2 + 5) ∧ (s.act? 6 .expire).isSome = false ∧
        ∀ now, 7 ≤ now → (s.act? now .expire).isSome = true := by
  have clock : (overdueSteps.map Prod.fst).Pairwise (· ≤ ·) := by decide
  have hfacts : ((new overdue).run? overdueSteps).map (fun x =>
      (x.2.pending.length, x.2.pending.head?.map (·.sequence), acceptedAt? x.1 0,
        failedAt? ((new overdue).failedCuts overdueSteps) x.2.nextBatch, x.2.stopped,
        (x.2.act? 6 .expire).isSome))
      = some (3, some 0, some 0, some 2, false, false) := by decide +kernel
  obtain ⟨⟨log, s⟩, hrun, heq⟩ := Option.map_eq_some_iff.mp hfacts
  simp only [Prod.mk.injEq] at heq
  obtain ⟨hlen, hhead, hopened, hfailed, hrunning, hearly⟩ := heq
  obtain ⟨-, hvalue, -, -, hdue⟩ := run?_deadline overdue clock hrun
  obtain ⟨tx, htx, hsequence⟩ := Option.map_eq_some_iff.mp hhead
  obtain ⟨opened, haccepted, hdeadline⟩ := hvalue tx htx
  rw [hsequence, hopened] at haccepted
  obtain rfl := Option.some.inj haccepted
  rw [hfailed] at hdeadline
  have hne : s.pending ≠ [] := fun hnil => by rw [hnil] at hlen; cases hlen
  obtain ⟨due, hsome, hfires⟩ := hdue hrunning hne
  rw [hdeadline] at hsome
  obtain rfl := Option.some.inj hsome
  exact ⟨clock, log, s, hrun, hlen, hopened, hfailed, hdeadline, hearly, hfires⟩

end Sequencer

end OrderingService
