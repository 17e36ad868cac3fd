import OrderingService.Proofs.Hashing.Acceptance
import OrderingService.Proofs.Sequencer.Certificates

/-!
# How large batches get

A submission that fills the open batch has it cut. When it can be committed, the next submission
finds a new batch, so no batch gets larger than the limit. When it cannot, the batch stays open, and
submissions are still accepted: each of them makes it larger by one and has it cut again. So a batch
outgrows the limit by at most the number of times that it could not be committed, and one that is
published at once keeps it.

The result of a cut is not always told: a submission is answered before the cut that it causes. So
the cuts of a run are collected from its states, and not from its log.

## Main definitions

* `Sequencer.cutOf?`, `Sequencer.cuts` — the results of all cuts of a run
* `failures` — how often the open batch could not be committed
* `Sequencer.Batching` — what an action does to batches
* `Sequencer.Sized` — the sizes of published batches against the cuts so far
* `Sequencer.Roomy` — nothing is refused, and the open batch has room

## Main results

* `Sequencer.run?_batch_length_le` — how large batches get, in every run
* `Sequencer.batch_length_gt_limit` — a batch that is larger than the limit
* `Sequencer.Roomy.effect` — while nothing is refused, a batch that stays open has room
-/

namespace OrderingService

/-- The result of a cut. -/
abbrev CutResult := Except MerkleError (Option BatchSummary)

/-- How often the batch that is open after these cuts could not be committed. -/
def failures (cuts : List CutResult) : Nat := (cuts.reverse.takeWhile (!·.isOk)).length

section

variable {cuts : List CutResult}

theorem failures_concat_ok (summary : Option BatchSummary) :
    failures (cuts ++ [.ok summary]) = 0 := by
  rw [failures, List.reverse_append]
  rfl

theorem failures_concat_error (e : MerkleError) :
    failures (cuts ++ [.error e]) = failures cuts + 1 := by
  rw [failures, List.reverse_append]
  rfl

theorem failures_eq_zero (h : ∀ result ∈ cuts, result.isOk) : failures cuts = 0 := by
  have hrev : ∀ result ∈ cuts.reverse, result.isOk := fun result hmem =>
    h result (List.mem_reverse.mp hmem)
  rw [failures]
  cases hcuts : cuts.reverse with
  | nil => rfl
  | cons last earlier =>
    rw [hcuts] at hrev
    rw [List.takeWhile_cons, hrev last List.mem_cons_self]
    rfl

end

namespace Sequencer

/-- The result of the cut that an action makes, if it makes one. -/
def cutOf? (s : Sequencer) (now : Nat) : Action → Option CutResult
  | .call (.submit payload) =>
    match s.enqueue now payload with
    | (.ok _, s) => if s.batchLimit ≤ s.pending.length then some (s.cut now).1 else none
    | (.error _, _) => none
  | .call .subscribe => none
  | .call .flush | .call .shutdown | .expire | .close => some (s.cut now).1

/-- The results of the cuts that some actions make in turn. -/
def cuts (s : Sequencer) : List (Nat × Action) → List CutResult
  | [] => []
  | (now, action) :: rest =>
    match s.act? now action with
    | some (_, next) => (s.cutOf? now action).toList ++ next.cuts rest
    | none => []

/-! ### What an action does to batches -/

/-- What an action does to batches, with the result of the cut that it makes, if it makes one. -/
inductive Batching (s : Sequencer) (now : Nat) : Option CutResult → Sequencer → Prop
  /-- Batches stay as they are. -/
  | kept (h : History) : Batching s now none { s with history := h }
  /-- The open batch gets larger and has room for more. -/
  | grown (payload txid : Bytes) (h : History) (room : s.pending.length + 1 < s.batchLimit) :
    Batching s now none (s.append now payload txid h)
  /-- The open batch gets larger and is cut because it is full. -/
  | filled (payload txid : Bytes) (h : History) :
    Batching s now (some ((s.append now payload txid h).cut now).1)
      ((s.append now payload txid h).cut now).2
  /-- The open batch is cut as it is. -/
  | cut (stopped : Bool) :
    Batching s now (some (s.cut now).1) { (s.cut now).2 with stopped := stopped }

variable {s s' : Sequencer} {now : Nat} {action : Action} {answer : Answer} {cuts : List CutResult}

theorem handle_submit_batching (s : Sequencer) (now : Nat) (payload : Bytes) :
    Batching s now (s.cutOf? now (.call (.submit payload)))
      (s.handle now (.submit payload)).2 := by
  rcases enqueue_cases s now payload with ⟨e, h, heq⟩ | ⟨txid, h, -, heq⟩
  · rw [cutOf?, handle, submit, heq]
    exact .kept h
  · rw [cutOf?, handle, submit, heq]
    have hlen : (s.append now payload txid h).pending.length = s.pending.length + 1 :=
      List.length_append
    by_cases hfull : (s.append now payload txid h).batchLimit
        ≤ (s.append now payload txid h).pending.length
    · simp only [if_pos hfull]
      exact .filled payload txid h
    · simp only [if_neg hfull]
      rw [hlen] at hfull
      exact .grown payload txid h (Nat.lt_of_not_le hfull)

/-- **What an action does to batches.** -/
theorem act?_batching (ha : s.act? now action = some (answer, s')) :
    Batching s now (s.cutOf? now action) s' := by
  cases action with
  | call c =>
    simp only [act?] at ha
    split at ha
    next => cases ha
    next =>
      have hs : (s.handle now c).2 = s' := congrArg Prod.snd (Option.some.inj ha)
      rw [← hs]
      cases c with
      | submit payload => exact handle_submit_batching s now payload
      | subscribe => exact .kept s.history
      | flush => exact .cut (s.cut now).2.stopped
      | shutdown => exact .cut true
  | expire =>
    simp only [act?] at ha
    split at ha
    next => cases ha; exact .cut (s.cut now).2.stopped
    next => cases ha
  | close =>
    simp only [act?] at ha
    split at ha
    next => cases ha
    next => cases ha; exact .cut true

/-- A summary that is told is that of a cut. -/
theorem cutOf?_of_answer (ha : s.act? now action = some (answer, s')) {summary : BatchSummary}
    (hanswer : answer = .ok (.summary (some summary))) :
    s.cutOf? now action = some (.ok (some summary)) := by
  obtain ⟨-, he⟩ := act?_effect ha
  cases he with
  | refused | appended | filled | subscribed => cases hanswer
  | flushed | expired => exact congrArg some (ofCut_eq_summary hanswer)
  | stopped action last =>
    rcases last with rfl | rfl
    · exact congrArg some (ofCut_eq_summary hanswer)
    · exact congrArg some (ofCut_eq_summary hanswer)

@[simp] theorem batchLimit_cut (s : Sequencer) (now : Nat) :
    (s.cut now).2.batchLimit = s.batchLimit := by
  rcases cut_cases s now with ⟨-, heq⟩ | ⟨-, e, h, heq⟩ | ⟨-, t, ws, root, h, -, -, -, heq⟩
  · rw [heq]
  · rw [heq]
  · rw [heq]
    rfl

theorem Batching.batchLimit_eq {cut? : Option CutResult} (hb : Batching s now cut? s') :
    s'.batchLimit = s.batchLimit := by
  cases hb with
  | kept h => rfl
  | grown payload txid h room => rfl
  | filled payload txid h => exact batchLimit_cut _ now
  | cut stopped => exact batchLimit_cut s now

/-! ### Sizes -/

/-- The sizes of what `s` has published, against the cuts so far. -/
structure Sized (s : Sequencer) (cuts : List CutResult) : Prop where
  limit_pos : 0 < s.batchLimit
  /-- A batch outgrows the limit by at most the number of times that it could not be committed. -/
  size_le : ∀ (i : Nat) (summary : BatchSummary), cuts[i]? = some (.ok (some summary)) →
    summary.size ≤ s.batchLimit + failures (cuts.take i)
  length_eq : ∀ summary : BatchSummary, .ok (some summary) ∈ cuts →
    summary.batch < s.nextBatch ∧ (s.batch summary.batch).length = summary.size
  covered : ∀ tx ∈ s.published, ∃ summary : BatchSummary,
    .ok (some summary) ∈ cuts ∧ summary.batch = tx.batch

theorem Sized.new (c : SequencerConfig) : (Sequencer.new c).Sized [] where
  limit_pos := Nat.lt_of_lt_of_le Nat.zero_lt_one (Nat.le_max_left 1 c.maxBatchSize)
  size_le := fun _ _ h => by simp at h
  length_eq := fun _ h => absurd h List.not_mem_nil
  covered := fun _ h => absurd h List.not_mem_nil

/-- A cut that publishes nothing. -/
theorem Sized.concat (hs : s.Sized cuts) {result : CutResult}
    (hresult : ∀ summary : BatchSummary, result ≠ .ok (some summary)) :
    s.Sized (cuts ++ [result]) where
  limit_pos := hs.limit_pos
  size_le := fun i summary hi => by
    rcases Nat.lt_or_ge i cuts.length with hlt | hge
    · rw [List.getElem?_append_left hlt] at hi
      rw [List.take_append_of_le_length (Nat.le_of_lt hlt)]
      exact hs.size_le i summary hi
    · have hmem := List.mem_of_getElem? ((List.getElem?_append_right hge).symm.trans hi)
      exact absurd (List.mem_singleton.mp hmem).symm (hresult summary)
  length_eq := fun summary hmem => by
    rcases List.mem_append.mp hmem with hmem | hmem
    · exact hs.length_eq summary hmem
    · exact absurd (List.mem_singleton.mp hmem).symm (hresult summary)
  covered := fun tx htx => by
    obtain ⟨summary, hmem, hbatch⟩ := hs.covered tx htx
    exact ⟨summary, List.mem_append_left _ hmem, hbatch⟩

/-- A cut that publishes the open batch, which is not too large. -/
theorem Sized.publish (hs : s.Sized cuts)
    (hle : s.pending.length ≤ s.batchLimit + failures cuts) {ws : List Witness}
    (hlen : ws.length = s.pending.length) (root : Bytes) (h : History) :
    (s.publish ws h).Sized (cuts ++ [.ok (some ⟨s.nextBatch, root, s.pending.length⟩)]) := by
  have hnew : s.batch s.nextBatch = [] := by
    rw [batch, List.filter_eq_nil_iff]
    intro tx htx
    obtain ⟨summary, hmem, hbatch⟩ := hs.covered tx htx
    simpa [← hbatch] using Nat.ne_of_lt (hs.length_eq summary hmem).1
  refine ⟨hs.limit_pos, fun i summary hi => ?_, fun summary hmem => ?_, fun tx htx => ?_⟩
  · rcases Nat.lt_or_ge i cuts.length with hlt | hge
    · rw [List.getElem?_append_left hlt] at hi
      rw [List.take_append_of_le_length (Nat.le_of_lt hlt)]
      exact hs.size_le i summary hi
    · rw [List.getElem?_append_right hge, List.getElem?_singleton] at hi
      split at hi
      next hzero =>
        cases hi
        rw [show i = cuts.length by omega, List.take_left]
        exact hle
      next => cases hi
  · rw [batch_publish]
    rcases List.mem_append.mp hmem with hmem | hmem
    · obtain ⟨hlt, hlength⟩ := hs.length_eq summary hmem
      rw [if_neg (Nat.ne_of_lt hlt), List.append_nil]
      exact ⟨Nat.lt_succ_of_lt hlt, hlength⟩
    · cases List.mem_singleton.mp hmem
      refine ⟨Nat.lt_succ_self _, ?_⟩
      rw [if_pos rfl, hnew, List.nil_append]
      simpa using congrArg List.length (map_accepted_ordered hlen s.nextBatch)
  · rcases List.mem_append.mp htx with htx | htx
    · obtain ⟨summary, hmem, hbatch⟩ := hs.covered tx htx
      exact ⟨summary, List.mem_append_left _ hmem, hbatch⟩
    · exact ⟨_, List.mem_append_right _ List.mem_cons_self, (batch_of_mem_ordered htx).symm⟩

/-- **A cut keeps sizes**, and what stays open has outgrown the limit by no more than the number of
failures. -/
theorem Sized.cut (hs : s.Sized cuts) (hle : s.pending.length ≤ s.batchLimit + failures cuts)
    (now : Nat) : (s.cut now).2.Sized (cuts ++ [(s.cut now).1]) ∧
      (s.cut now).2.pending.length
        < (s.cut now).2.batchLimit + failures (cuts ++ [(s.cut now).1]) := by
  rcases cut_cases s now with ⟨hnil, heq⟩ | ⟨-, e, h, heq⟩ | ⟨-, t, ws, root, h, -, -, hlen, heq⟩
  · rw [heq, failures_concat_ok]
    refine ⟨{ hs.concat (fun _ heq => by cases heq) with }, ?_⟩
    rw [hnil]
    exact hs.limit_pos
  · rw [heq, failures_concat_error]
    exact ⟨{ hs.concat (fun _ heq => by cases heq) with }, Nat.lt_succ_of_le hle⟩
  · rw [heq, failures_concat_ok]
    exact ⟨hs.publish hle hlen root h, hs.limit_pos⟩

/-- **One action keeps sizes.** -/
theorem Sized.batching {cut? : Option CutResult} (hs : s.Sized cuts)
    (hlt : s.pending.length < s.batchLimit + failures cuts) (hb : Batching s now cut? s') :
    s'.Sized (cuts ++ cut?.toList) ∧
      s'.pending.length < s'.batchLimit + failures (cuts ++ cut?.toList) := by
  cases hb with
  | kept h =>
    rw [Option.toList_none, List.append_nil]
    exact ⟨{ hs with }, hlt⟩
  | grown payload txid h room =>
    rw [Option.toList_none, List.append_nil]
    refine ⟨{ hs with }, ?_⟩
    show (s.pending ++ [_]).length < s.batchLimit + _
    rw [List.length_append, List.length_singleton]
    omega
  | filled payload txid h =>
    refine Sized.cut (s := s.append now payload txid h) { hs with } ?_ now
    show (s.pending ++ [_]).length ≤ s.batchLimit + _
    rw [List.length_append, List.length_singleton]
    exact hlt
  | cut stopped =>
    obtain ⟨hsized, hpending⟩ := hs.cut (Nat.le_of_lt hlt) now
    exact ⟨{ hsized with }, hpending⟩

/-! ### Runs -/

theorem run?_sized {steps : List (Nat × Action)} {log : List Entry} (hs : s.Sized cuts)
    (hlt : s.pending.length < s.batchLimit + failures cuts)
    (hrun : s.run? steps = some (log, s')) :
    s'.Sized (cuts ++ s.cuts steps) ∧ s'.batchLimit = s.batchLimit ∧
      ∀ entry ∈ log, ∀ summary : BatchSummary, entry.answer = .ok (.summary (some summary)) →
        .ok (some summary) ∈ s.cuts steps := by
  induction steps generalizing s cuts log with
  | nil =>
    cases hrun
    rw [Sequencer.cuts, List.append_nil]
    exact ⟨hs, rfl, fun _ h => absurd h List.not_mem_nil⟩
  | cons step rest ih =>
    obtain ⟨now, action⟩ := step
    simp only [run?, Option.bind_eq_bind, Option.bind_eq_some_iff] at hrun
    obtain ⟨⟨answer, next⟩, hact, ⟨log₁, last⟩, hrest, heq⟩ := hrun
    cases heq
    obtain ⟨hsized, hpending⟩ := hs.batching hlt (act?_batching hact)
    obtain ⟨hsized, hlimit, hlog⟩ := ih hsized hpending hrest
    rw [Sequencer.cuts, hact]
    refine ⟨by rwa [List.append_assoc] at hsized, hlimit.trans ?_, fun entry hentry summary h => ?_⟩
    · exact (act?_batching hact).batchLimit_eq
    · rcases List.mem_cons.mp hentry with rfl | hentry
      · refine List.mem_append_left _ ?_
        rw [cutOf?_of_answer hact h]
        exact List.mem_singleton_self _
      · exact List.mem_append_right _ (hlog entry hentry summary h)

/-- **How large batches get.** In every run, whatever is refused, a published batch has the size
that the cut which published it has named, to whomever, and it outgrows the limit by at most the
number of times that it could not be committed before. When every cut succeeds, all batches keep the
limit. -/
theorem run?_batch_length_le (c : SequencerConfig) {steps : List (Nat × Action)} {log : List Entry}
    (hrun : (new c).run? steps = some (log, s)) :
    (∀ (i : Nat) (summary : BatchSummary),
      ((new c).cuts steps)[i]? = some (.ok (some summary)) →
        (s.batch summary.batch).length = summary.size ∧
        summary.size ≤ max 1 c.maxBatchSize + failures (((new c).cuts steps).take i)) ∧
    (∀ tx ∈ s.published, ∃ summary : BatchSummary,
      .ok (some summary) ∈ (new c).cuts steps ∧ summary.batch = tx.batch) ∧
    (∀ entry ∈ log, ∀ summary : BatchSummary, entry.answer = .ok (.summary (some summary)) →
      .ok (some summary) ∈ (new c).cuts steps) ∧
    ((∀ result ∈ (new c).cuts steps, result.isOk) →
      ∀ tx ∈ s.published, (s.batch tx.batch).length ≤ max 1 c.maxBatchSize) := by
  have hlt : (new c).pending.length < (new c).batchLimit + failures [] :=
    (Sized.new c).limit_pos
  obtain ⟨hs, hlimit, hlog⟩ := run?_sized (Sized.new c) hlt hrun
  rw [List.nil_append] at hs
  have hsize : ∀ (i : Nat) (summary : BatchSummary),
      ((new c).cuts steps)[i]? = some (.ok (some summary)) →
        (s.batch summary.batch).length = summary.size ∧
        summary.size ≤ max 1 c.maxBatchSize + failures (((new c).cuts steps).take i) := by
    intro i summary hi
    have hle := hs.size_le i summary hi
    rw [hlimit] at hle
    exact ⟨(hs.length_eq summary (List.mem_of_getElem? hi)).2, hle⟩
  refine ⟨hsize, hs.covered, hlog, fun hok tx htx => ?_⟩
  obtain ⟨summary, hmem, hbatch⟩ := hs.covered tx htx
  obtain ⟨i, hi⟩ := List.mem_iff_getElem?.mp hmem
  obtain ⟨hlength, hle⟩ := hsize i summary hi
  rw [failures_eq_zero fun result hresult => hok result (List.mem_of_mem_take hresult)] at hle
  rw [← hbatch, hlength]
  exact hle

/-- Two submissions fill a batch that cannot be committed, and the third one is let in. -/
def outgrowingSteps : List (Nat × Action) :=
  [(0, .call (.submit [1])), (1, .call (.submit [2])), (2, .call (.submit [3]))]

/-- The batch that is published has failed once and is larger by one than the limit. -/
theorem run?_batch_length_le_outgrowing :
    ∃ log s, (new retrying).run? outgrowingSteps = some (log, s) ∧
      ∃ summary : BatchSummary,
        ((new retrying).cuts outgrowingSteps)[1]? = some (.ok (some summary)) ∧
        (s.batch summary.batch).length = summary.size ∧ summary.size = 3 ∧
        summary.size ≤ max 1 retrying.maxBatchSize +
          failures (((new retrying).cuts outgrowingSteps).take 1) := by
  obtain ⟨log, s, hrun⟩ : ∃ log s, (new retrying).run? outgrowingSteps = some (log, s) :=
    ⟨_, _, rfl⟩
  obtain ⟨hsize, -, -, -⟩ := run?_batch_length_le retrying hrun
  have hcut : ((new retrying).cuts outgrowingSteps)[1]? = some (.ok (some
      ⟨0, [1, 1, 0, 1, 0, 2, 1, 0, 3, 0], 3⟩)) := by rfl
  obtain ⟨hlength, hle⟩ := hsize 1 _ hcut
  exact ⟨log, s, hrun, _, hcut, hlength, rfl, hle⟩

/-- **A batch can be larger than the limit,** when hashing fails once and then recovers. -/
theorem batch_length_gt_limit :
    ∃ log s, (new retrying).run? outgrowingSteps = some (log, s) ∧
      s.published.map (·.batch) = [0, 0, 0] ∧ max 1 retrying.maxBatchSize = 2 := by
  have hfacts : ((new retrying).run? outgrowingSteps).map (fun x => x.2.published.map (·.batch))
      = some [0, 0, 0] := by decide +kernel
  obtain ⟨⟨log, s⟩, hrun, hbatches⟩ := Option.map_eq_some_iff.mp hfacts
  exact ⟨log, s, hrun, hbatches, rfl⟩

/-! ### When nothing is refused -/

theorem commit_succeeds (hH : s.strategy.Accepts) (hne : s.pending ≠ []) :
    s.commit.Succeeds fun _ => True := by
  have hwitnesses : ∀ {t : MerkleTree} {root : Nat} {indices : List Nat},
      t.rootIndex = some root → (∀ i ∈ indices, i < t.leafCount) →
        (witnesses t s.strategy indices).Succeeds fun _ => True := by
    intro t root indices hroot hin
    induction indices with
    | nil => exact Hashing.succeeds_pure trivial
    | cons i rest ih =>
      refine (MerkleTree.proveIndex_succeeds hroot (hin i List.mem_cons_self) _).bind fun _ _ => ?_
      exact (ih fun j hj => hin j (List.mem_cons_of_mem i hj)).bind_pure fun _ _ => trivial
  refine (MerkleTree.build_succeeds hH (by simpa using hne)).bind fun t ht => ?_
  obtain ⟨hcount, root, hroot⟩ := ht
  refine (hwitnesses hroot fun i hi => ?_).bind_pure fun _ _ => trivial
  rw [hcount, List.length_map]
  exact Nat.lt_of_lt_of_le (List.mem_range.mp hi) (le_ceilPowerOfTwo _)

/-- Every cut leaves no batch open, and publishes what was open. -/
theorem cut_of_accepts (hH : s.strategy.Accepts) (now : Nat) :
    (s.cut now).2.pending = [] ∧
      (s.cut now).2.published.length = s.published.length + s.pending.length := by
  rcases cut_cases s now with ⟨hnil, heq⟩ | ⟨hne, e, h, heq⟩ | ⟨-, t, ws, root, h, -, -, hlen, heq⟩
  · rw [heq]
    exact ⟨hnil, by rw [hnil]; rfl⟩
  · obtain ⟨_, _, hok, -⟩ := (commit_succeeds hH hne).outcome s.history
    cases hok.symm.trans (outcome_of_cut_eq_error heq)
  · rw [heq]
    refine ⟨rfl, ?_⟩
    show (s.published ++ ordered s.nextBatch s.pending ws).length = _
    have hordered := congrArg List.length (map_accepted_ordered hlen s.nextBatch)
    rw [List.length_map, List.length_map] at hordered
    rw [List.length_append, hordered]

/-- Nothing is refused, and the open batch has room. -/
structure Roomy (s : Sequencer) : Prop where
  accepts : s.strategy.Accepts
  pending_lt : s.pending.length < s.batchLimit

theorem Roomy.new {c : SequencerConfig} (hc : c.strategy.Accepts) : (Sequencer.new c).Roomy :=
  ⟨hc, (Sized.new c).limit_pos⟩

/-- A cut leaves room, and publishes no more than was open. -/
theorem Roomy.cut (hH : s.strategy.Accepts) (hlimit : 0 < s.batchLimit) (now : Nat) :
    (s.cut now).2.Roomy ∧ (s.cut now).2.batchLimit = s.batchLimit ∧
      (s.cut now).2.published.length = s.published.length + s.pending.length := by
  obtain ⟨hpending, hlength⟩ := cut_of_accepts hH now
  refine ⟨⟨by rwa [strategy_cut], ?_⟩, batchLimit_cut s now, hlength⟩
  rw [hpending, batchLimit_cut]
  exact hlimit

/-- **While nothing is refused, a batch that stays open has room,** and no action publishes more
than the limit. -/
theorem Roomy.effect (hr : s.Roomy) (he : Effect s now action answer s') :
    s'.Roomy ∧ s'.batchLimit = s.batchLimit ∧
      s'.published.length ≤ s.published.length + s.batchLimit := by
  have hlimit : 0 < s.batchLimit := Nat.lt_of_le_of_lt (Nat.zero_le _) hr.pending_lt
  have hcut : (s.cut now).2.Roomy ∧ (s.cut now).2.batchLimit = s.batchLimit ∧
      (s.cut now).2.published.length ≤ s.published.length + s.batchLimit := by
    obtain ⟨hroomy, hsame, hlength⟩ := Roomy.cut hr.accepts hlimit now
    have := hr.pending_lt
    exact ⟨hroomy, hsame, by omega⟩
  cases he with
  | refused payload e h => exact ⟨{ hr with }, rfl, Nat.le_add_right _ _⟩
  | appended payload txid h _ room =>
    refine ⟨⟨hr.accepts, ?_⟩, rfl, Nat.le_add_right _ _⟩
    show (s.pending ++ [_]).length < s.batchLimit
    rwa [List.length_append, List.length_singleton]
  | filled payload txid h =>
    obtain ⟨hroomy, hsame, hlength⟩ :=
      Roomy.cut (s := s.append now payload txid h) hr.accepts hlimit now
    refine ⟨hroomy, hsame, ?_⟩
    rw [hlength]
    show s.published.length + (s.pending ++ [_]).length ≤ _
    have := hr.pending_lt
    rw [List.length_append, List.length_singleton]
    omega
  | subscribed => exact ⟨hr, rfl, Nat.le_add_right _ _⟩
  | flushed => exact hcut
  | expired => exact hcut
  | stopped action last =>
    obtain ⟨hroomy, hsame, hlength⟩ := hcut
    exact ⟨{ hroomy with }, hsame, hlength⟩

end Sequencer

end OrderingService
