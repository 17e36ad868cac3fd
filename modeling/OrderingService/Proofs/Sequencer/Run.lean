import OrderingService.Proofs.Sequencer.Steps

/-!
# Runs of a sequencer

A sequencer that runs takes calls, cuts its batch when the time is up, and closes when nobody can
call any more. A run is any finite sequence of these, at any times. After a shutdown or a close the
sequencer has stopped, and nothing more happens.

## Main definitions

* `Sequencer.Action`, `Sequencer.act?` — what can happen, and what it does
* `Sequencer.run?` — a run, with a log of the actions and their answers
* `Accepted`, `Sequencer.accepted` — the submissions of a run that were answered with a receipt
* `Sequencer.Effect` — the ways in which an action ends

## Main results

* `Sequencer.handle_effect`, `Sequencer.act?_effect` — whatever happens has one of these effects
* `Sequencer.run?_keeps` — what every effect keeps, every run keeps
* `Sequencer.run?_pending_of_stopped` — a run that ends with a good last cut leaves nothing pending
-/

namespace OrderingService

/-- The result of a cut as an answer. -/
def Answer.ofCut (result : Except MerkleError (Option BatchSummary)) : Answer :=
  (result.map Reply.summary).mapError .merkle

/-- A submission that was answered with a receipt. -/
structure Accepted where
  payload : Bytes
  receipt : Receipt
  deriving DecidableEq, Repr

/-- A transaction of the open batch as the submission it came from. -/
def PendingTransaction.accepted (tx : PendingTransaction) : Accepted :=
  ⟨tx.payload, tx.sequence, tx.txid⟩

/-- A published transaction as the submission it came from. -/
def OrderedTransaction.accepted (tx : OrderedTransaction) : Accepted :=
  ⟨tx.payload, tx.sequence, tx.txid⟩

/-- What is found in a log with one more entry. -/
theorem filterMap_concat {α β : Type} (f : α → Option β) (as : List α) (a : α) :
    (as ++ [a]).filterMap f = as.filterMap f ++ (f a).toList := by
  rw [List.filterMap_append]
  cases h : f a <;> simp [h]

namespace Sequencer

/-- What can happen to a sequencer. -/
inductive Action where
  /-- It takes a call. -/
  | call (c : Call)
  /-- The time of the open batch is up. -/
  | expire
  /-- Nobody can call any more. -/
  | close
  deriving DecidableEq, Repr

/-- What an action does, if it can happen: the answer, and the state after. The result of a cut
that nobody called for stands as the answer to it. -/
def act? (s : Sequencer) (now : Nat) : Action → Option (Answer × Sequencer)
  | .call c => if s.stopped then none else some (s.handle now c)
  | .expire => if s.isDue now then some (.ofCut (s.cut now).1, s.expire now) else none
  | .close => if s.stopped then none else some (.ofCut (s.cut now).1, s.close now)

/-- One entry of the log of a run. -/
structure Entry where
  now : Nat
  action : Action
  answer : Answer

/-- Act in turn, each action at its time: the log, and the state after. -/
def run? (s : Sequencer) : List (Nat × Action) → Option (List Entry × Sequencer)
  | [] => some ([], s)
  | (now, action) :: rest => do
    let (answer, s) ← s.act? now action
    let (log, s) ← s.run? rest
    return (⟨now, action, answer⟩ :: log, s)

/-- The submission that an entry shows to be accepted. -/
def Entry.accepted? (entry : Entry) : Option Accepted :=
  match entry.action, entry.answer with
  | .call (.submit payload), .ok (.receipt receipt) => some ⟨payload, receipt⟩
  | _, _ => none

/-- The accepted submissions of a run, in the order in which they were taken. -/
def accepted (log : List Entry) : List Accepted := log.filterMap Entry.accepted?

theorem accepted_concat (log : List Entry) (entry : Entry) :
    accepted (log ++ [entry]) = accepted log ++ entry.accepted?.toList :=
  filterMap_concat _ _ _

/-! ### What an action does -/

/-- The ways in which an action ends, with the answer and the state after. -/
inductive Effect (s : Sequencer) (now : Nat) : Action → Answer → Sequencer → Prop where
  /-- A submission whose digest could not be taken. -/
  | refused (payload : Bytes) (e : MerkleError) (h : History) :
    Effect s now (.call (.submit payload)) (.error (.merkle e)) { s with history := h }
  /-- A submission that leaves the batch open. -/
  | appended (payload txid : Bytes) (h : History)
      (hashed : s.strategy.leafHash payload s.history = .ok txid h)
      (room : s.pending.length + 1 < s.batchLimit) :
    Effect s now (.call (.submit payload)) (.ok (.receipt ⟨s.nextSequence, txid⟩))
      (s.append now payload txid h)
  /-- A submission that fills the batch. -/
  | filled (payload txid : Bytes) (h : History)
      (hashed : s.strategy.leafHash payload s.history = .ok txid h)
      (full : s.batchLimit ≤ s.pending.length + 1) :
    Effect s now (.call (.submit payload)) (.ok (.receipt ⟨s.nextSequence, txid⟩))
      ((s.append now payload txid h).cut now).2
  | subscribed :
    Effect s now (.call .subscribe) (.ok (.subscription ⟨s.published.length⟩)) s
  | flushed :
    Effect s now (.call .flush) (.ofCut (s.cut now).1) (s.cut now).2
  | expired (due : s.isDue now = true) :
    Effect s now .expire (.ofCut (s.cut now).1) (s.cut now).2
  /-- A last cut, whether somebody called for it or nobody can call any more. -/
  | stopped (action : Action) (last : action = .call .shutdown ∨ action = .close) :
    Effect s now action (.ofCut (s.cut now).1) { (s.cut now).2 with stopped := true }

variable {s s' : Sequencer} {now : Nat} {action : Action} {answer : Answer}

theorem submit_effect (s : Sequencer) (now : Nat) (payload : Bytes) :
    Effect s now (.call (.submit payload)) (s.handle now (.submit payload)).1
      (s.handle now (.submit payload)).2 := by
  rcases enqueue_cases s now payload with ⟨e, h, heq⟩ | ⟨txid, h, hhash, heq⟩
  · rw [handle, submit, heq]
    exact .refused payload e h
  · rw [handle, submit, heq]
    have hlen : (s.append now payload txid h).pending.length = s.pending.length + 1 :=
      List.length_append
    simp only [show (s.append now payload txid h).batchLimit = s.batchLimit from rfl, hlen]
    split
    next hfull => exact .filled payload txid h hhash hfull
    next hroom => exact .appended payload txid h hhash (Nat.lt_of_not_le hroom)

/-- A call has one of these effects, whether or not the sequencer still runs. -/
theorem handle_effect (s : Sequencer) (now : Nat) (c : Call) :
    Effect s now (.call c) (s.handle now c).1 (s.handle now c).2 := by
  cases c with
  | submit payload => exact submit_effect s now payload
  | subscribe => exact .subscribed
  | flush => exact .flushed
  | shutdown => exact .stopped _ (Or.inl rfl)

/-- Whatever happens has one of these effects, and happens only while the sequencer runs. -/
theorem act?_effect (ha : s.act? now action = some (answer, s')) :
    s.stopped = false ∧ Effect s now action answer s' := by
  cases action with
  | call c =>
    simp only [act?] at ha
    split at ha
    next => cases ha
    next hrun =>
      refine ⟨by simpa using hrun, ?_⟩
      have heq : s.handle now c = (answer, s') := by simpa using ha
      simpa only [heq] using handle_effect s now c
  | expire =>
    simp only [act?] at ha
    split at ha
    next hdue =>
      cases ha
      have hrun : (!s.stopped) = true := (Bool.and_eq_true_iff.mp hdue).1
      exact ⟨by simpa using hrun, .expired hdue⟩
    next => cases ha
  | close =>
    simp only [act?] at ha
    split at ha
    next => cases ha
    next hrun =>
      cases ha
      exact ⟨by simpa using hrun, .stopped _ (Or.inr rfl)⟩

/-- When a sequencer stops and its last cut succeeds, nothing is left pending. -/
theorem Effect.pending_of_stopped (he : Effect s now action answer s') (hrun : s.stopped = false)
    (hstop : s'.stopped = true) {reply : Reply} (hok : answer = .ok reply) : s'.pending = [] := by
  cases he with
  | refused payload e h => cases hok
  | appended payload txid h => exact absurd (hrun.symm.trans hstop) Bool.false_ne_true
  | filled payload txid h =>
    rw [stopped_cut] at hstop
    exact absurd (hrun.symm.trans hstop) Bool.false_ne_true
  | subscribed => exact absurd (hrun.symm.trans hstop) Bool.false_ne_true
  | flushed =>
    rw [stopped_cut] at hstop
    exact absurd (hrun.symm.trans hstop) Bool.false_ne_true
  | expired =>
    rw [stopped_cut] at hstop
    exact absurd (hrun.symm.trans hstop) Bool.false_ne_true
  | stopped action last =>
    cases hcut : (s.cut now).1 with
    | ok summary => exact pending_of_cut_eq_ok hcut
    | error e =>
      rw [hcut] at hok
      cases hok

variable {P : Sequencer → List Entry → Prop}

/-- What every effect keeps, every run keeps, here from any log before it. -/
theorem run?_keeps_from (keep : ∀ {s now action answer s' log}, s.stopped = false → P s log →
      Effect s now action answer s' → P s' (log ++ [⟨now, action, answer⟩])) :
    ∀ {steps : List (Nat × Action)} {s s' : Sequencer} {before log : List Entry},
      P s before → s.run? steps = some (log, s') → P s' (before ++ log) := by
  intro steps
  induction steps with
  | nil =>
    intro s s' before log hP hrun
    cases hrun
    rwa [List.append_nil]
  | cons step rest ih =>
    obtain ⟨now, action⟩ := step
    intro s s' before log hP hrun
    simp only [run?, Option.bind_eq_bind, Option.bind_eq_some_iff] at hrun
    obtain ⟨⟨answer, s₁⟩, hact, ⟨log₁, s₂⟩, hrest, heq⟩ := hrun
    cases heq
    obtain ⟨hrunning, heffect⟩ := act?_effect hact
    have hnext := ih (keep hrunning hP heffect) hrest
    rwa [List.append_assoc] at hnext

/-- **What every effect keeps, every run keeps.** The property may speak of the log so far. -/
theorem run?_keeps (keep : ∀ {s now action answer s' log}, s.stopped = false → P s log →
      Effect s now action answer s' → P s' (log ++ [⟨now, action, answer⟩]))
    (init : P s []) {steps : List (Nat × Action)} {log : List Entry}
    (hrun : s.run? steps = some (log, s')) : P s' log :=
  run?_keeps_from keep init hrun

/-- When a run ends with a last cut that succeeds, nothing is left pending. -/
theorem run?_pending_of_stopped {steps : List (Nat × Action)} {log : List Entry}
    (hrun : s.run? steps = some (log, s')) (hs : s.stopped = false) :
    s'.stopped = true → ∀ last reply, log.getLast? = some last → last.answer = .ok reply →
      s'.pending = [] := by
  refine run?_keeps (P := fun s log => s.stopped = true → ∀ last reply,
    log.getLast? = some last → last.answer = .ok reply → s.pending = [])
    (fun hr _ he hstop last reply hlast hok => ?_)
    (fun hstop => absurd (hs.symm.trans hstop) Bool.false_ne_true) hrun
  rw [List.getLast?_concat] at hlast
  obtain rfl := Option.some.inj hlast
  exact he.pending_of_stopped hr hstop hok

end Sequencer

end OrderingService
