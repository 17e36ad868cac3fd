import OrderingService.Proofs.Hashing.Refusals
import OrderingService.Proofs.Merkle.Commitment
import OrderingService.Proofs.Merkle.Verification
import OrderingService.Proofs.Sequencer.DenseOrder

/-!
# Published transactions prove themselves

A transaction gets its id when it is accepted, and its witness when its batch is cut, which may be
much later and after any number of failed cuts. Both are nevertheless what one strategy without
refusals would have given: a refused write stops a step, and what a step computed before it stopped
is not kept.

So every published transaction is certified by the batch that it belongs to. The batch is read off
what is published, by the number that its transactions carry.

## Main definitions

* `Certificate` — what a transaction proves, given the whole of its batch
* `Sequencer.batch` — the published transactions of a batch
* `Sequencer.Certified` — each batch is what a strategy without refusals gives for it

## Main results

* `Sequencer.of_commit_eq_ok_of_relaxes` — what a batch is committed to, whatever is refused
* `Sequencer.Certified.effect` — one action keeps batches certified
* `Sequencer.run?_certificate` — after every run each published transaction has its certificate
-/

namespace OrderingService

open HashStrategy (leafTag)
open MerkleTree (digestAt pad witnessAt CommitsTo)

/-- A transaction `tx` stands in its batch and is proved to do so: its id is the leaf digest of its
payload, and its witness leads from there to the root of the tree over the batch. -/
structure Certificate (H : HashStrategy) (f : Bytes → Bytes) (batch : List OrderedTransaction)
    (tx : OrderedTransaction) : Prop where
  /-- It stands at its place, so it is none of the padding. -/
  place : batch[tx.leafIndex]? = some tx
  txid_eq : tx.txid = leafTag :: f tx.payload
  leaf_eq : tx.witness.leaf = tx.txid
  leafIndex_eq : tx.witness.leafIndex = tx.leafIndex
  leafCount_eq : tx.witness.leafCount = ceilPowerOfTwo batch.length
  verifies : ∀ h, (tx.witness.verifyPayload tx.payload H h).1 = true
  /-- All transactions of the batch have one root. -/
  root_eq : ∀ other ∈ batch, other.witness.root = tx.witness.root
  /-- The root is that of a tree over exactly the payloads of the batch, in order. -/
  commitsTo : ∀ h, ∃ after, CommitsTo H (batch.map (·.payload)) h tx.witness.root after

namespace Sequencer

variable {f : Bytes → Bytes} {H : HashStrategy} {s s' : Sequencer} {h h' : History}

/-! ### What a batch is committed to -/

/-- The root digest of a batch of payloads. -/
def rootOf (f : Bytes → Bytes) (payloads : List Bytes) : Bytes :=
  digestAt f (pad payloads) (ceilLog2 payloads.length) 0

/-- The witnesses for the payloads of a batch. -/
def witnessesOf (f : Bytes → Bytes) (payloads : List Bytes) : List Witness :=
  (List.range payloads.length).map (witnessAt f (pad payloads) (ceilLog2 payloads.length))

theorem witnesses_arena {padded : List Bytes} {height : Nat} {G : HashStrategy}
    {ws : List Witness} {indices : List Nat} (hin : ∀ i ∈ indices, i < 2 ^ height)
    (hws : witnesses (MerkleTree.arena f padded height) G indices h = .ok ws h') :
    ws = indices.map (witnessAt f padded height) := by
  induction indices generalizing ws h with
  | nil =>
    obtain ⟨rfl, -⟩ := Hashing.pure_eq_ok.mp hws
    rfl
  | cons i rest ih =>
    obtain ⟨w, m, hw, hws⟩ := Hashing.bind_eq_ok.mp hws
    obtain ⟨ws', m', hrest, hws⟩ := Hashing.bind_eq_ok.mp hws
    obtain ⟨rfl, rfl⟩ := Hashing.pure_eq_ok.mp hws
    rw [MerkleTree.proveIndex_arena (hin i List.mem_cons_self)] at hw
    obtain ⟨rfl, -⟩ := Hashing.pure_eq_ok.mp hw
    rw [List.map_cons, ih (fun j hj => hin j (List.mem_cons_of_mem i hj)) hrest]

/-- **What a batch is committed to, whatever is refused.** -/
theorem of_commit_eq_ok_of_relaxes (hH : H.Computes f) (hr : H.Relaxes s.strategy)
    (hne : s.pending ≠ []) {t : MerkleTree} {ws : List Witness}
    (hc : s.commit h = .ok (t, ws) h') :
    (∀ G g, (t.root G).outcome g = (.ok (rootOf f (s.pending.map (·.payload))), g)) ∧
      ws = witnessesOf f (s.pending.map (·.payload)) := by
  obtain ⟨t', m, hbuild, hc⟩ := Hashing.bind_eq_ok.mp hc
  obtain ⟨ws', m', hws, hc⟩ := Hashing.bind_eq_ok.mp hc
  obtain ⟨heq, -⟩ := Hashing.pure_eq_ok.mp hc
  obtain ⟨rfl, rfl⟩ := Prod.mk.inj heq
  obtain rfl := (MerkleTree.build_within hr _).eq_of_yields
    (MerkleTree.build_yields hH (by simpa using hne)) hbuild
  constructor
  · intro G g
    rw [MerkleTree.root_arena, Hashing.outcome_pure, rootOf]
  · have hheld := le_ceilPowerOfTwo (s.pending.map (·.payload)).length
    rw [List.length_map] at hheld
    rw [witnesses_arena (fun i hi => ?_) hws, witnessesOf, List.length_map]
    rw [List.length_map]
    exact Nat.lt_of_lt_of_le (List.mem_range.mp hi) hheld

/-! ### Certified batches -/

/-- The published transactions of a batch, in order. -/
def batch (s : Sequencer) (k : Nat) : List OrderedTransaction :=
  s.published.filter (·.batch = k)

/-- Transactions as they are published in batch `k`. -/
def certified (f : Bytes → Bytes) (k : Nat) (pending : List PendingTransaction) :
    List OrderedTransaction :=
  ordered k pending (witnessesOf f (pending.map (·.payload)))

/-- What was accepted has the leaf digest of its payload for its id. -/
def Identified (f : Bytes → Bytes) (pending : List PendingTransaction) : Prop :=
  ∀ p ∈ pending, p.txid = leafTag :: f p.payload

theorem getElem?_certified_eq_some {k j : Nat} {pending : List PendingTransaction}
    {tx : OrderedTransaction} :
    (certified f k pending)[j]? = some tx ↔ ∃ p, pending[j]? = some p ∧
      tx = ⟨p.sequence, k, j, p.payload, p.txid,
        witnessAt f (pad (pending.map (·.payload))) (ceilLog2 pending.length) j⟩ := by
  rw [certified, getElem?_ordered_eq_some]
  constructor
  · rintro ⟨p, w, hp, hw, rfl⟩
    refine ⟨p, hp, ?_⟩
    rw [witnessesOf, List.length_map, List.getElem?_map, Option.map_eq_some_iff] at hw
    obtain ⟨i, hi, rfl⟩ := hw
    obtain rfl : j = i := by
      have := List.getElem?_eq_some_iff.mp hi
      simpa using this.2
    rfl
  · rintro ⟨p, hp, rfl⟩
    refine ⟨p, _, hp, ?_, rfl⟩
    have hj : j < pending.length := (List.getElem?_eq_some_iff.mp hp).1
    rw [witnessesOf, List.length_map, List.getElem?_map, List.getElem?_range hj, Option.map_some]

theorem map_accepted_certified (k : Nat) (pending : List PendingTransaction) :
    (certified f k pending).map OrderedTransaction.accepted
      = pending.map PendingTransaction.accepted :=
  map_accepted_ordered (by rw [witnessesOf, List.length_map, List.length_range, List.length_map]) k

theorem length_certified (k : Nat) (pending : List PendingTransaction) :
    (certified f k pending).length = pending.length := by
  simpa using congrArg List.length (map_accepted_certified (f := f) k pending)

theorem map_payload_certified (k : Nat) (pending : List PendingTransaction) :
    (certified f k pending).map (·.payload) = pending.map (·.payload) := by
  have hpayload := congrArg (List.map Accepted.payload) (map_accepted_certified (f := f) k pending)
  rwa [List.map_map, List.map_map] at hpayload

theorem root_of_mem_certified {k : Nat} {pending : List PendingTransaction}
    {tx : OrderedTransaction} (htx : tx ∈ certified f k pending) :
    tx.witness.root = digestAt f (pad (pending.map (·.payload))) (ceilLog2 pending.length) 0 := by
  obtain ⟨j, hj⟩ := List.mem_iff_getElem?.mp htx
  obtain ⟨p, -, rfl⟩ := getElem?_certified_eq_some.mp hj
  rfl

/-- **A transaction of a batch has its certificate.** -/
theorem certificate_of_mem_certified (hH : H.Computes f) {k : Nat}
    {pending : List PendingTransaction} (hid : Identified f pending) {tx : OrderedTransaction}
    (htx : tx ∈ certified f k pending) : Certificate H f (certified f k pending) tx := by
  obtain ⟨j, hj⟩ := List.mem_iff_getElem?.mp htx
  obtain ⟨p, hp, rfl⟩ := getElem?_certified_eq_some.mp hj
  have hlt : j < pending.length := (List.getElem?_eq_some_iff.mp hp).1
  have hin : j < 2 ^ ceilLog2 pending.length := Nat.lt_of_lt_of_le hlt (le_ceilPowerOfTwo _)
  have hleaf : leafTag :: f p.payload = digestAt f (pad (pending.map (·.payload))) 0 j := by
    rw [digestAt, MerkleTree.getD_pad, List.getD_eq_getElem?_getD, List.getElem?_map, hp]
    rfl
  have htxid := hid p (List.mem_of_getElem? hp)
  refine ⟨hj, htxid, (htxid.trans hleaf).symm, rfl, ?_, fun h => ?_, fun other hother => ?_,
    fun h => ?_⟩
  · rw [length_certified]
    rfl
  · exact (Witness.verifyPayload_eq_true_iff hH).mpr ⟨hleaf.symm,
      MerkleTree.wellFormed_witnessAt hin, MerkleTree.climbed_witnessAt hin⟩
  · exact root_of_mem_certified hother
  · have hne : (certified f k pending).map (·.payload) ≠ [] := by
      rw [map_payload_certified]
      exact fun hnil => by simp [List.map_eq_nil_iff.mp hnil] at hlt
    obtain ⟨after, hcommits, -⟩ := MerkleTree.exists_commitsTo hH hne h
    refine ⟨after, ?_⟩
    rw [map_payload_certified] at hcommits ⊢
    rwa [List.length_map] at hcommits

/-- Every batch of `s` is what it is published as without refusals, and what is pending can be
published so. -/
structure Certified (f : Bytes → Bytes) (s : Sequencer) : Prop where
  identified : Identified f s.pending
  batch_lt : ∀ tx ∈ s.published, tx.batch < s.nextBatch
  batch_eq : ∀ k, ∃ pending, Identified f pending ∧ s.batch k = certified f k pending

/-- The batches of `s` are those of `s'` with the same numbers. -/
structure KeepsBatches (s s' : Sequencer) : Prop where
  nextBatch_le : s.nextBatch ≤ s'.nextBatch
  batch_eq : ∀ k < s.nextBatch, s'.batch k = s.batch k

/-- A summary is that of a published batch. -/
structure Describes (f : Bytes → Bytes) (s : Sequencer) (summary : BatchSummary) : Prop where
  batch_lt : summary.batch < s.nextBatch
  size_eq : summary.size = (s.batch summary.batch).length
  root_eq : ∀ tx ∈ s.batch summary.batch, tx.witness.root = summary.root

theorem Describes.mono {summary : BatchSummary} (hd : Describes f s summary)
    (hk : KeepsBatches s s') : Describes f s' summary where
  batch_lt := Nat.lt_of_lt_of_le hd.batch_lt hk.nextBatch_le
  size_eq := by rw [hk.batch_eq _ hd.batch_lt, hd.size_eq]
  root_eq := by rw [hk.batch_eq _ hd.batch_lt]; exact hd.root_eq

/-- All that is published in one cut carries its number. -/
theorem batch_of_mem_ordered {k : Nat} {pending : List PendingTransaction} {ws : List Witness}
    {tx : OrderedTransaction} (htx : tx ∈ ordered k pending ws) : tx.batch = k := by
  obtain ⟨j, hj⟩ := List.mem_iff_getElem?.mp htx
  obtain ⟨p, w, -, -, rfl⟩ := getElem?_ordered_eq_some.mp hj
  rfl

theorem batch_publish (s : Sequencer) (ws : List Witness) (h : History) (k : Nat) :
    (s.publish ws h).batch k
      = s.batch k ++ if k = s.nextBatch then ordered s.nextBatch s.pending ws else [] := by
  show (s.published ++ ordered s.nextBatch s.pending ws).filter _ = _
  rw [List.filter_append, batch]
  congr 1
  split
  next hk =>
    refine List.filter_eq_self.mpr fun tx htx => ?_
    simpa [hk] using batch_of_mem_ordered htx
  next hk =>
    refine List.filter_eq_nil_iff.mpr fun tx htx => ?_
    simpa [batch_of_mem_ordered htx] using Ne.symm hk

namespace Certified

theorem new (c : SequencerConfig) : (Sequencer.new c).Certified f where
  identified := fun _ hp => absurd hp List.not_mem_nil
  batch_lt := fun _ htx => absurd htx List.not_mem_nil
  batch_eq := fun _ => ⟨[], (fun _ hp => absurd hp List.not_mem_nil), rfl⟩

theorem batch_nextBatch (hc : s.Certified f) : s.batch s.nextBatch = [] := by
  rw [batch, List.filter_eq_nil_iff]
  intro tx htx
  simpa using Nat.ne_of_lt (hc.batch_lt tx htx)

theorem append (hc : s.Certified f) (now : Nat) {payload txid : Bytes} (h : History)
    (htxid : txid = leafTag :: f payload) : (s.append now payload txid h).Certified f :=
  { hc with
    identified := fun p hp => by
      rcases List.mem_append.mp hp with hp | hp
      · exact hc.identified p hp
      · obtain rfl := List.mem_singleton.mp hp
        exact htxid }

/-- What is published, and how the number of batches grows, when the open batch is published. -/
theorem publish (hc : s.Certified f) {ws : List Witness}
    (hws : ws = witnessesOf f (s.pending.map (·.payload))) (h : History) :
    (s.publish ws h).Certified f ∧ KeepsBatches s (s.publish ws h) ∧
      (s.publish ws h).batch s.nextBatch = certified f s.nextBatch s.pending := by
  subst hws
  have hnew : (s.publish (witnessesOf f (s.pending.map (·.payload))) h).batch s.nextBatch
      = certified f s.nextBatch s.pending := by
    rw [batch_publish, if_pos rfl, hc.batch_nextBatch, List.nil_append, certified]
  have hold : ∀ k, k ≠ s.nextBatch →
      (s.publish (witnessesOf f (s.pending.map (·.payload))) h).batch k = s.batch k := by
    intro k hk
    rw [batch_publish, if_neg hk, List.append_nil]
  refine ⟨⟨fun _ hp => absurd hp List.not_mem_nil, fun tx htx => ?_, fun k => ?_⟩,
    ⟨Nat.le_succ _, fun k hk => hold k (Nat.ne_of_lt hk)⟩, hnew⟩
  · show tx.batch < s.nextBatch + 1
    rcases List.mem_append.mp htx with htx | htx
    · exact Nat.lt_succ_of_lt (hc.batch_lt tx htx)
    · rw [batch_of_mem_ordered htx]
      exact Nat.lt_succ_self _
  · by_cases hk : k = s.nextBatch
    · subst hk
      exact ⟨s.pending, hc.identified, hnew⟩
    · rw [hold k hk]
      exact hc.batch_eq k

end Certified

/-- **A cut keeps batches certified**, and a summary is that of the batch it published. -/
theorem certified_cut (hH : H.Computes f) (hr : H.Relaxes s.strategy) (hc : s.Certified f)
    (now : Nat) :
    (s.cut now).2.Certified f ∧ KeepsBatches s (s.cut now).2 ∧
      ∀ summary, (s.cut now).1 = .ok (some summary) → Describes f (s.cut now).2 summary := by
  rcases cut_cases s now with ⟨-, heq⟩ | ⟨-, e, h, heq⟩ |
    ⟨hne, t, ws, root, h, hcommit, hroot, -, heq⟩
  · rw [heq]
    exact ⟨{ hc with }, ⟨Nat.le_refl _, fun _ _ => rfl⟩, fun _ hok => by cases hok⟩
  · rw [heq]
    exact ⟨{ hc with }, ⟨Nat.le_refl _, fun _ _ => rfl⟩, fun _ hok => by cases hok⟩
  · obtain ⟨hrootOf, hws⟩ := of_commit_eq_ok_of_relaxes hH hr hne hcommit
    obtain ⟨hpublished, hkeeps, hbatch⟩ := hc.publish hws h
    rw [heq]
    refine ⟨hpublished, hkeeps, fun summary hok => ?_⟩
    cases hok
    refine ⟨Nat.lt_succ_self _, ?_, fun tx htx => ?_⟩
    · rw [hbatch, length_certified]
    · rw [hbatch] at htx
      have hsame := (hrootOf s.strategy h).symm.trans (Hashing.outcome_eq_ok.mpr hroot)
      have hroot := Except.ok.inj (Prod.mk.inj hsame).1
      rw [root_of_mem_certified htx, ← hroot, rootOf, List.length_map]

@[simp] theorem strategy_cut (s : Sequencer) (now : Nat) :
    (s.cut now).2.strategy = s.strategy := by
  rcases cut_cases s now with ⟨-, heq⟩ | ⟨-, e, h, heq⟩ | ⟨-, t, ws, root, h, -, -, -, heq⟩
  · rw [heq]
  · rw [heq]
  · rw [heq]
    rfl

theorem ofCut_eq_summary {result : Except MerkleError (Option BatchSummary)}
    {summary : BatchSummary} (h : Answer.ofCut result = .ok (.summary (some summary))) :
    result = .ok (some summary) := by
  cases result with
  | ok found =>
    cases h
    rfl
  | error e => cases h

/-- **One action keeps batches certified**, under the same strategy. -/
theorem Certified.effect {now : Nat} {action : Action} {answer : Answer} (hH : H.Computes f)
    (hr : H.Relaxes s.strategy) (hc : s.Certified f) (he : Effect s now action answer s') :
    s'.strategy = s.strategy ∧ s'.Certified f ∧ KeepsBatches s s' ∧
      ∀ summary, answer = .ok (.summary (some summary)) → Describes f s' summary := by
  have hsame : KeepsBatches s s := ⟨Nat.le_refl _, fun _ _ => rfl⟩
  have hid : ∀ {payload txid h}, s.strategy.leafHash payload s.history = .ok txid h →
      txid = leafTag :: f payload := fun hhash =>
    (HashStrategy.leafHash_within hr _).eq_of_yields (HashStrategy.leafHash_yields hH _) hhash
  cases he with
  | refused payload e h => exact ⟨rfl, { hc with }, { hsame with }, fun _ hs => by cases hs⟩
  | appended payload txid h hhash =>
    exact ⟨rfl, hc.append now h (hid hhash), { hsame with }, fun _ hs => by cases hs⟩
  | filled payload txid h hhash =>
    have hr : H.Relaxes (s.append now payload txid h).strategy := hr
    obtain ⟨hcut, hkeeps, -⟩ := certified_cut hH hr (hc.append now h (hid hhash)) now
    exact ⟨strategy_cut _ now, hcut, { hkeeps with }, fun _ hs => by cases hs⟩
  | subscribed => exact ⟨rfl, hc, hsame, fun _ hs => by cases hs⟩
  | flushed =>
    obtain ⟨hcut, hkeeps, hd⟩ := certified_cut hH hr hc now
    exact ⟨strategy_cut s now, hcut, hkeeps, fun _ hs => hd _ (ofCut_eq_summary hs)⟩
  | expired =>
    obtain ⟨hcut, hkeeps, hd⟩ := certified_cut hH hr hc now
    exact ⟨strategy_cut s now, hcut, hkeeps, fun _ hs => hd _ (ofCut_eq_summary hs)⟩
  | stopped action last =>
    obtain ⟨hcut, hkeeps, hd⟩ := certified_cut hH hr hc now
    exact ⟨strategy_cut s now, { hcut with }, { hkeeps with },
      fun _ hs => { hd _ (ofCut_eq_summary hs) with }⟩

/-! ### Runs -/

variable {c : SequencerConfig} {steps : List (Nat × Action)} {log : List Entry}

/-- After every run all batches are certified, and all summaries are those of published batches. -/
theorem run?_certified (hH : H.Computes f) (hr : H.Relaxes c.strategy)
    (hrun : (new c).run? steps = some (log, s)) :
    s.Certified f ∧ ∀ entry ∈ log, ∀ summary,
      entry.answer = .ok (.summary (some summary)) → Describes f s summary := by
  have hall := run?_keeps (P := fun s log => H.Relaxes s.strategy ∧ s.Certified f ∧
      ∀ entry ∈ log, ∀ summary, entry.answer = .ok (.summary (some summary)) →
        Describes f s summary)
    (fun _ ⟨hr, hc, hlog⟩ he => by
      obtain ⟨hstrategy, hc, hkeeps, hd⟩ := hc.effect hH hr he
      refine ⟨hstrategy ▸ hr, hc, fun entry hentry summary hanswer => ?_⟩
      rcases List.mem_append.mp hentry with hentry | hentry
      · exact (hlog entry hentry summary hanswer).mono hkeeps
      · obtain rfl := List.mem_singleton.mp hentry
        exact hd summary hanswer)
    ⟨hr, Certified.new c, fun _ hentry => absurd hentry List.not_mem_nil⟩ hrun
  exact hall.2

/-- A published transaction is the submission that got its number, and no other one did. -/
theorem accepted_mem_of_published {A : List Accepted} (ho : s.DenselyOrdered A)
    {tx : OrderedTransaction} (htx : tx ∈ s.published) :
    tx.accepted ∈ A ∧ ∀ a ∈ A, a.receipt.sequence = tx.sequence → a = tx.accepted := by
  have hmem : tx.accepted ∈ A := by
    rw [← ho.ledger_eq]
    exact List.mem_append_left _ (List.mem_map_of_mem htx)
  refine ⟨hmem, fun a ha hsequence => ?_⟩
  obtain ⟨i, hi⟩ := List.mem_iff_getElem?.mp hmem
  obtain ⟨j, hj⟩ := List.mem_iff_getElem?.mp ha
  have hi' : tx.sequence = i := ho.sequence_eq i _ hi
  have hj' : a.receipt.sequence = j := ho.sequence_eq j _ hj
  rw [hj', hi'] at hsequence
  rw [hsequence, hi] at hj
  exact (Option.some.inj hj).symm

/-- **Published transactions prove themselves.** The strategy may refuse any writes, but it digests
like one that refuses none. After every run, each published transaction is a submission that was
accepted, with the number and the id in its receipt, and it has its certificate in its batch: the id
is the leaf digest of the payload, and the witness leads from it, at its place, to the root of the
tree over the batch. A summary that was given for a batch names its size and its root. -/
theorem run?_certificate (hH : H.Computes f) (hr : H.Relaxes c.strategy)
    (hrun : (new c).run? steps = some (log, s)) :
    (∀ tx ∈ s.published, Certificate H f (s.batch tx.batch) tx ∧ tx.accepted ∈ accepted log ∧
      ∀ a ∈ accepted log, a.receipt.sequence = tx.sequence → a = tx.accepted) ∧
    ∀ entry ∈ log, ∀ summary, entry.answer = .ok (.summary (some summary)) →
      summary.size = (s.batch summary.batch).length ∧
      ∀ tx ∈ s.batch summary.batch, tx.witness.root = summary.root := by
  obtain ⟨hc, hlog⟩ := run?_certified hH hr hrun
  refine ⟨fun tx htx => ⟨?_, accepted_mem_of_published (run?_ordered hrun) htx⟩,
    fun entry hentry summary hanswer => ?_⟩
  · obtain ⟨pending, hid, hbatch⟩ := hc.batch_eq tx.batch
    have hmem : tx ∈ s.batch tx.batch := List.mem_filter.mpr ⟨htx, by simp⟩
    rw [hbatch] at hmem ⊢
    exact certificate_of_mem_certified hH hid hmem
  · have hd := hlog entry hentry summary hanswer
    exact ⟨hd.size_eq, hd.root_eq⟩

/-- One write of the first cut is refused, and the batch is published later. The second batch is
flushed. All four transactions have the certificates of a strategy that refuses nothing. -/
theorem run?_certificate_retrying :
    ∃ log s, (new retrying).run? retryingSteps = some (log, s) ∧ s.published.length = 4 ∧
      (∀ tx ∈ s.published,
        Certificate (HashStrategy.concatenation "concat") id (s.batch tx.batch) tx) ∧
      ∃ entry ∈ log, ∃ summary, entry.action = .call .flush ∧
        entry.answer = .ok (.summary (some summary)) ∧ summary.batch = 1 ∧
        ∀ tx ∈ s.batch 1, tx.witness.root = summary.root := by
  have hfacts : ((new retrying).run? retryingSteps).map (fun x =>
      (x.2.published.length, x.1[5]?.map fun entry => (entry.action, entry.answer.toOption)))
        = some (4, some (.call .flush, some (.summary (some ⟨1, [0, 3], 1⟩)))) := by
    decide +kernel
  obtain ⟨⟨log, s⟩, hrun, heq⟩ := Option.map_eq_some_iff.mp hfacts
  obtain ⟨hlen, heq⟩ := Prod.mk.inj heq
  obtain ⟨⟨now, action, answer⟩, hentry, heq⟩ := Option.map_eq_some_iff.mp heq
  obtain ⟨haction, hanswer⟩ := Prod.mk.inj heq
  have hr : (HashStrategy.concatenation "concat").Relaxes retrying.strategy :=
    HashStrategy.relaxes_refusing _ "offline" _
  obtain ⟨hcertificate, hsummary⟩ :=
    run?_certificate (HashStrategy.computes_ofDigest "concat" id) hr hrun
  have hmem := List.mem_of_getElem? hentry
  cases answer with
  | error e => cases hanswer
  | ok reply =>
    obtain rfl := Option.some.inj hanswer
    exact ⟨log, s, hrun, hlen, fun tx htx => (hcertificate tx htx).1, _, hmem, _, haction, rfl,
      rfl, (hsummary _ hmem _ rfl).2⟩

end Sequencer

end OrderingService
