import OrderingService.Proofs.Sequencer.BatchSizes
import OrderingService.Proofs.Sequencer.Segments

/-!
# Where a sequencer stands

While nothing is refused, few things matter for what is cut next: the number of the next batch, what
the open batch has got, and until when it is open. All that a step does is told in these terms, and
what it publishes.

## Main definitions

* `Sequencer.Stands` — where a sequencer stands that refuses nothing
* `Sequencer.RunsTo` — a run that is on time

## Main results

* `Sequencer.Stands.cut` — a cut publishes the open batch, whose witnesses lead to one root
* `Sequencer.Stands.submit` — a submission leaves the batch open or has it published
* `Sequencer.RunsTo.cons_iff` — a run that is on time takes one step after the other
-/

namespace OrderingService

open Sequencer (Action Entry)

/-! ### Where a sequencer stands -/

namespace Sequencer

/-- Where a sequencer stands that refuses nothing: the number of the next batch, and what the open
batch has got, and until when it is open. -/
structure Stands (s : Sequencer) (limit timeout number : Nat) (payloads : List Bytes)
    (deadline : Option Nat) : Prop where
  accepts : s.strategy.Accepts
  running : s.stopped = false
  batchLimit_eq : s.batchLimit = limit
  batchTimeout_eq : s.batchTimeout = timeout
  nextBatch_eq : s.nextBatch = number
  payloads_eq : s.pending.map (·.payload) = payloads
  deadline_eq : s.deadline = deadline

variable {s s' : Sequencer} {now limit timeout number horizon since : Nat} {payloads : List Bytes}
  {deadline : Option Nat} {log : List Entry} {steps : List (Nat × Action)}

theorem Stands.new {c : SequencerConfig} (hc : c.strategy.Accepts) :
    (Sequencer.new c).Stands (max 1 c.maxBatchSize) c.batchTimeoutMs 0 [] none :=
  ⟨hc, rfl, rfl, rfl, rfl, rfl, rfl⟩

/-- No time comes too late for a batch that is not open. -/
theorem Stands.le_of_idle (hs : s.Stands limit timeout number payloads none) :
    ∀ d, s.deadline = some d → now ≤ d := fun d hd => by cases hs.deadline_eq.symm.trans hd

theorem Stands.le_of_deadline {d : Nat} (hs : s.Stands limit timeout number payloads (some d))
    (hle : now ≤ d) : ∀ d', s.deadline = some d' → now ≤ d' := fun d' hd' => by
  cases hs.deadline_eq.symm.trans hd'
  exact hle

theorem map_placed_ordered {pending : List PendingTransaction} {ws : List Witness}
    (hlen : ws.length = pending.length) (number : Nat) :
    (ordered number pending ws).map OrderedTransaction.placed
      = placedIn number (pending.map (·.payload)) := by
  have hfst : (pending.zipIdx.zip ws).map Prod.fst = pending.zipIdx :=
    List.map_fst_zip (by simp [hlen])
  rw [placedIn, List.zipIdx_map, List.map_map, ← hfst, List.map_map, ordered, List.map_map]
  rfl

/-- All witnesses of one tree name its root. -/
theorem root_of_mem_witnesses {t : MerkleTree} {root : Nat} (hroot : t.rootIndex = some root)
    {H : HashStrategy} {indices : List Nat} {ws : List Witness} {h h' : History}
    (hws : witnesses t H indices h = .ok ws h') : ∀ w ∈ ws, w.root = t.hashAt root := by
  induction indices generalizing ws h h' with
  | nil =>
    obtain ⟨rfl, -⟩ := Hashing.pure_eq_ok.mp hws
    exact fun w hw => absurd hw List.not_mem_nil
  | cons index rest ih =>
    obtain ⟨w, m, hw, hws⟩ := Hashing.bind_eq_ok.mp hws
    obtain ⟨ws', m', hrest, hws⟩ := Hashing.bind_eq_ok.mp hws
    obtain ⟨rfl, -⟩ := Hashing.pure_eq_ok.mp hws
    refine List.forall_mem_cons.mpr ⟨?_, ih hrest⟩
    rw [MerkleTree.proveIndex] at hw
    split at hw
    next =>
      obtain ⟨_, _, hthrow, -⟩ := Hashing.bind_eq_ok.mp hw
      exact absurd hthrow Hashing.throw_ne_ok
    next =>
      obtain ⟨digest, m, hdigest, hw⟩ := Hashing.bind_eq_ok.mp hw
      obtain ⟨rfl, -⟩ := Hashing.pure_eq_ok.mp hw
      rw [MerkleTree.root_of_rootIndex hroot] at hdigest
      cases hdigest
      rfl

/-- Where no batch is open, a cut does nothing. -/
theorem Stands.cut_none (hs : s.Stands limit timeout number [] none) (now : Nat) :
    s.cut now = (.ok none, s) := by
  have hnil : s.pending = [] := List.map_eq_nil_iff.mp hs.payloads_eq
  rcases cut_cases s now with ⟨-, heq⟩ | ⟨hne, -⟩ | ⟨hne, -⟩
  · rw [heq, ← hs.deadline_eq]
  · exact absurd hnil hne
  · exact absurd hnil hne

/-- **Where a batch is open, a cut publishes it** and leaves none open. -/
theorem Stands.cut (hs : s.Stands limit timeout number payloads deadline) (hne : payloads ≠ [])
    (now : Nat) : ∃ root txs next,
      s.cut now = (.ok (some ⟨number, root, payloads.length⟩), next) ∧
      next.published = s.published ++ txs ∧ Publishes number payloads root txs ∧
      next.Stands limit timeout (number + 1) [] none := by
  have hlength : payloads.length = s.pending.length := by rw [← hs.payloads_eq, List.length_map]
  have hpending : s.pending ≠ [] := fun hnil => hne (by rw [← hs.payloads_eq, hnil]; rfl)
  rcases cut_cases s now with ⟨hnil, -⟩ | ⟨-, e, h, heq⟩ | ⟨-, t, ws, root, h, hc, hr, hlen, heq⟩
  · exact absurd hnil hpending
  · obtain ⟨_, _, hok, -⟩ := (commit_succeeds hs.accepts hpending).outcome s.history
    cases hok.symm.trans (outcome_of_cut_eq_error heq)
  · refine ⟨root, ordered s.nextBatch s.pending ws, s.publish ws h, ?_, rfl, ⟨?_, ?_⟩,
      ⟨hs.accepts, hs.running, hs.batchLimit_eq, hs.batchTimeout_eq,
        congrArg (· + 1) hs.nextBatch_eq, rfl, rfl⟩⟩
    · rw [heq, hs.nextBatch_eq, hlength]
    · rw [map_placed_ordered hlen, hs.nextBatch_eq, hs.payloads_eq]
    · intro tx htx
      obtain ⟨j, hj⟩ := List.mem_iff_getElem?.mp htx
      obtain ⟨p, w, -, hw, rfl⟩ := getElem?_ordered_eq_some.mp hj
      obtain ⟨-, index, hindex⟩ := of_commit_eq_ok hc
      obtain ⟨t', m, -, hc⟩ := Hashing.bind_eq_ok.mp hc
      obtain ⟨ws', m', hws, hc⟩ := Hashing.bind_eq_ok.mp hc
      obtain ⟨heq, -⟩ := Hashing.pure_eq_ok.mp hc
      obtain ⟨rfl, rfl⟩ := Prod.mk.inj heq
      rw [MerkleTree.root_of_rootIndex hindex] at hr
      cases hr
      exact root_of_mem_witnesses hindex hws w (List.mem_of_getElem? hw)

/-- The state after a submission was taken, before it is seen whether the batch is full. -/
theorem Stands.append (hs : s.Stands limit timeout number payloads deadline) (now : Nat)
    (payload txid : Bytes) (h : History) :
    (s.append now payload txid h).Stands limit timeout number (payloads ++ [payload])
      (if payloads = [] then some (now + timeout) else deadline) where
  accepts := hs.accepts
  running := hs.running
  batchLimit_eq := hs.batchLimit_eq
  batchTimeout_eq := hs.batchTimeout_eq
  nextBatch_eq := hs.nextBatch_eq
  payloads_eq := by
    rw [← hs.payloads_eq]
    exact List.map_append
  deadline_eq := by
    rw [← hs.payloads_eq, ← hs.batchTimeout_eq, ← hs.deadline_eq]
    show (if s.pending.isEmpty then some (now + s.batchTimeout) else s.deadline) = _
    simp only [List.isEmpty_iff, List.map_eq_nil_iff]

/-- **A submission** leaves the batch open that it went to, or fills it and has it published. -/
theorem Stands.submit (hs : s.Stands limit timeout number payloads deadline) (now : Nat)
    (payload : Bytes) : ∃ answer next, s.act? now (.call (.submit payload)) = some (answer, next) ∧
      ((payloads.length + 1 < limit ∧ next.published = s.published ∧
        next.Stands limit timeout number (payloads ++ [payload])
          (if payloads = [] then some (now + timeout) else deadline)) ∨
      (limit ≤ payloads.length + 1 ∧ ∃ root txs, next.published = s.published ++ txs ∧
        Publishes number (payloads ++ [payload]) root txs ∧
        next.Stands limit timeout (number + 1) [] none)) := by
  obtain ⟨txid, h, hhash, -⟩ :=
    (HashStrategy.leafHash_succeeds hs.accepts payload).outcome s.history
  have henqueue : s.enqueue now payload = (.ok ⟨s.nextSequence, txid⟩, s.append now payload txid h) := by
    rw [enqueue, hhash]
    rfl
  have hact : s.act? now (.call (.submit payload)) = some (.ok (.receipt ⟨s.nextSequence, txid⟩),
      if s.batchLimit ≤ s.pending.length + 1 then ((s.append now payload txid h).cut now).2
      else s.append now payload txid h) := by
    have hlength : (s.append now payload txid h).pending.length = s.pending.length + 1 :=
      List.length_append
    rw [act?, hs.running, if_neg Bool.false_ne_true, handle, Sequencer.submit, henqueue]
    simp only [show (s.append now payload txid h).batchLimit = s.batchLimit from rfl, hlength]
    split
    · rfl
    · rfl
  have hlength : s.pending.length = payloads.length := by rw [← hs.payloads_eq, List.length_map]
  rw [hs.batchLimit_eq, hlength] at hact
  refine ⟨_, _, hact, ?_⟩
  have happended := hs.append now payload txid h
  split
  next hfull =>
    obtain ⟨root, txs, next, hcut, hpublished, hpublishes, hnext⟩ := happended.cut (by simp) now
    refine Or.inr ⟨hfull, root, txs, ?_⟩
    rw [hcut]
    exact ⟨hpublished, hpublishes, hnext⟩
  next hroom => exact Or.inl ⟨Nat.lt_of_not_le hroom, rfl, happended⟩

theorem Stands.act?_subscribe (hs : s.Stands limit timeout number payloads deadline) (now : Nat) :
    s.act? now (.call .subscribe) = some (.ok (.subscription ⟨s.published.length⟩), s) := by
  rw [act?, hs.running, if_neg Bool.false_ne_true]
  rfl

theorem Stands.act?_flush (hs : s.Stands limit timeout number payloads deadline) (now : Nat) :
    s.act? now (.call .flush) = some (.ofCut (s.cut now).1, (s.cut now).2) := by
  rw [act?, hs.running, if_neg Bool.false_ne_true]
  rfl

theorem Stands.act?_last (hs : s.Stands limit timeout number payloads deadline) (now : Nat)
    {action : Action} (last : action = .call .shutdown ∨ action = .close) :
    s.act? now action = some (.ofCut (s.cut now).1, { (s.cut now).2 with stopped := true }) := by
  rcases last with rfl | rfl
  · rw [act?, hs.running, if_neg Bool.false_ne_true]
    rfl
  · rw [act?, hs.running, if_neg Bool.false_ne_true]
    rfl

/-- The timer fires when the time of the open batch is up, and never when none is open. -/
theorem Stands.act?_expire (hs : s.Stands limit timeout number payloads deadline) (now : Nat) :
    s.act? now .expire = if deadline.any (· ≤ now) then some (.ofCut (s.cut now).1, (s.cut now).2)
      else none := by
  rw [act?, isDue, hs.running, hs.deadline_eq]
  rfl

/-! ### Runs that are on time -/

theorem act?_of_stopped (hs : s.stopped = true) (now : Nat) (action : Action) :
    s.act? now action = none := by
  cases action with
  | call c => rw [act?, hs, if_pos rfl]
  | expire =>
    rw [act?, isDue, hs]
    rfl
  | close => rw [act?, hs, if_pos rfl]

/-- A run that is on time. -/
structure RunsTo (s : Sequencer) (since horizon : Nat) (steps : List (Nat × Action))
    (log : List Entry) (s' : Sequencer) : Prop where
  run?_eq : s.run? steps = some (log, s')
  onTime_eq : s.onTime since horizon steps = true

theorem all_le_iff {t : Nat} {deadline : Option Nat} :
    deadline.all (t ≤ ·) = true ↔ ∀ d, deadline = some d → t ≤ d := by
  cases deadline <;> simp

theorem RunsTo.nil_iff : s.RunsTo since horizon [] log s' ↔
    log = [] ∧ s' = s ∧ since ≤ horizon ∧ ∀ d, s.deadline = some d → horizon ≤ d := by
  constructor
  · rintro ⟨hrun, hon⟩
    cases hrun
    rw [onTime, Bool.and_eq_true, decide_eq_true_eq, all_le_iff] at hon
    exact ⟨rfl, rfl, hon⟩
  · rintro ⟨rfl, rfl, hon⟩
    refine ⟨rfl, ?_⟩
    rwa [onTime, Bool.and_eq_true, decide_eq_true_eq, all_le_iff]

/-- A run that is on time takes one step after the other. -/
theorem RunsTo.cons_iff {t : Nat} {action : Action} :
    s.RunsTo since horizon ((t, action) :: steps) log s' ↔
      ∃ answer next rest, s.act? t action = some (answer, next) ∧ since ≤ t ∧
        (∀ d, s.deadline = some d → t ≤ d) ∧ next.RunsTo t horizon steps rest s' ∧
        log = ⟨t, action, answer⟩ :: rest := by
  constructor
  · rintro ⟨hrun, hon⟩
    simp only [run?, Option.bind_eq_bind, Option.bind_eq_some_iff] at hrun
    obtain ⟨⟨answer, next⟩, hact, ⟨rest, last⟩, hrest, heq⟩ := hrun
    cases heq
    simp only [onTime, hact, Option.all_some, Bool.and_eq_true, decide_eq_true_eq, all_le_iff] at hon
    obtain ⟨⟨hsince, hdeadline⟩, hon⟩ := hon
    exact ⟨answer, next, rest, hact, hsince, hdeadline, ⟨hrest, hon⟩, rfl⟩
  · rintro ⟨answer, next, rest, hact, hsince, hdeadline, ⟨hrest, hon⟩, rfl⟩
    refine ⟨by simp [run?, hact, hrest], ?_⟩
    simp only [onTime, hact, Option.all_some, Bool.and_eq_true, decide_eq_true_eq, all_le_iff]
    exact ⟨⟨hsince, hdeadline⟩, hon⟩

theorem happenings_cons {t : Nat} {action : Action} {answer : Answer} {next : Sequencer}
    {txs : List OrderedTransaction} (hact : s.act? t action = some (answer, next))
    (hpublished : next.published = s.published ++ txs) (steps : List (Nat × Action)) :
    s.happenings ((t, action) :: steps) = (⟨t, action, answer⟩, txs) :: next.happenings steps := by
  simp only [happenings, hact, hpublished, List.drop_left]

theorem RunsTo.of_stopped (hs : s.stopped = true) (h : s.RunsTo since horizon steps log s') :
    steps = [] ∧ s' = s := by
  cases steps with
  | nil => exact ⟨rfl, (RunsTo.nil_iff.mp h).2.1⟩
  | cons step rest =>
    obtain ⟨answer, next, log', hact, -⟩ := RunsTo.cons_iff.mp h
    cases (act?_of_stopped hs _ _).symm.trans hact

theorem RunsTo.timed (h : s.RunsTo since horizon steps log s') :
    Timed since horizon (requests steps) := by
  induction steps generalizing s since log with
  | nil => exact (RunsTo.nil_iff.mp h).2.2.1
  | cons step rest ih =>
    obtain ⟨t, action⟩ := step
    obtain ⟨answer, next, log', -, hsince, -, hnext, -⟩ := RunsTo.cons_iff.mp h
    have htimed := ih hnext
    rw [requests, List.filter_cons]
    split
    next => exact ⟨hsince, htimed⟩
    next => exact htimed.from (Nat.le_trans hsince htimed.le_nextTime)

theorem requests_last {t : Nat} {action : Action} (last : action = .call .shutdown ∨ action = .close) :
    action.asks = true ∧ requests [(t, action)] = [(t, action)] := by
  rcases last with rfl | rfl
  · exact ⟨rfl, rfl⟩
  · exact ⟨rfl, rfl⟩

end Sequencer

end OrderingService
