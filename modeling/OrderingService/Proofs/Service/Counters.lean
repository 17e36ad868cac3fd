import Mathlib.Data.List.Nodup
import Mathlib.Data.List.Perm.Subperm
import OrderingService.Proofs.Stream.Truthfulness

/-!
# Counters

The metrics are counted in two places and never in one step with what they count: the handler of a
broadcast stream counts when it comes to an answer, long after the sequencer gave the number out,
and the sequencer counts a batch after it was published. So the counters are compared with what can
be seen of the service, and not with the calls that set them.

All answers count, of whichever stream and in whichever order the streams come to them. The answers
are lined up stream by stream, and one more answer only changes the line by a permutation.

A transaction that was accepted has a number, but an answer may still be on its way. So the counter
of accepted transactions is at most the number of numbers given out: the tickets of the requests
that were answered with a success are all different, and on behalf of each a transaction stands in
the ledger.

## Main definitions

* `Sequencer.Recorded` — what is recorded of batches against what is published
* `Service.allResponses` — the answers of all broadcast streams
* `Service.Counted` — the counters against what happened

## Main results

* `Sequencer.Recorded.effect` — one action keeps the records
* `Service.length_tickets` — each success has a ticket
* `Service.run?_counted` — the counters after every run
-/

namespace OrderingService

/-! ### Records of batches -/

namespace Sequencer

variable {s s' : Sequencer} {now : Nat} {action : Action} {answer : Answer}

/-- What is recorded of batches is what was published. -/
structure Recorded (s : Sequencer) : Prop where
  batches_eq : s.metrics.batches = s.nextBatch
  length_batchSizes : s.metrics.batchSizes.length = s.nextBatch
  length_buildSeconds : s.metrics.buildSeconds.length = s.nextBatch
  sum_batchSizes : s.metrics.batchSizes.foldl (· + ·) 0 = s.published.length

theorem Recorded.new (c : SequencerConfig) : (Sequencer.new c).Recorded := ⟨rfl, rfl, rfl, rfl⟩

/-- A cut that publishes a batch records it once. -/
theorem Recorded.cut (hr : s.Recorded) (now : Nat) : (s.cut now).2.Recorded := by
  rcases cut_cases s now with ⟨-, heq⟩ | ⟨-, e, h, heq⟩ | ⟨-, t, ws, root, h, -, -, hlen, heq⟩
  · rw [heq]
    exact { hr with }
  · rw [heq]
    exact { hr with }
  · rw [heq]
    have hordered := congrArg List.length (map_accepted_ordered hlen s.nextBatch)
    rw [List.length_map, List.length_map] at hordered
    refine ⟨congrArg (· + 1) hr.batches_eq, ?_, ?_, ?_⟩
    · show (s.metrics.batchSizes ++ [_]).length = s.nextBatch + 1
      rw [List.length_append, hr.length_batchSizes, List.length_singleton]
    · show (s.metrics.buildSeconds ++ [_]).length = s.nextBatch + 1
      rw [List.length_append, hr.length_buildSeconds, List.length_singleton]
    · show (s.metrics.batchSizes ++ [_]).foldl (· + ·) 0 = (s.published ++ _).length
      rw [List.foldl_append, hr.sum_batchSizes, List.length_append, hordered]
      rfl

/-- **One action keeps the records.** -/
theorem Recorded.effect (hr : s.Recorded) (he : Effect s now action answer s') : s'.Recorded := by
  have happend : ∀ payload txid h, (s.append now payload txid h).Recorded :=
    fun payload txid h => { hr with }
  cases he with
  | refused payload e h => exact { hr with }
  | appended payload txid h => exact happend payload txid h
  | filled payload txid h => exact (happend payload txid h).cut now
  | subscribed => exact hr
  | flushed => exact hr.cut now
  | expired => exact hr.cut now
  | stopped action last => exact { hr.cut now with }

/-- A cut counts batches and nothing else. -/
theorem exists_metrics_cut (s : Sequencer) (now : Nat) :
    ∃ batches batchSizes buildSeconds,
      (s.cut now).2.metrics = { s.metrics with batches, batchSizes, buildSeconds } := by
  rcases cut_cases s now with ⟨-, heq⟩ | ⟨-, e, h, heq⟩ | ⟨-, t, ws, root, h, -, -, -, heq⟩
  · rw [heq]
    exact ⟨_, _, _, rfl⟩
  · rw [heq]
    exact ⟨_, _, _, rfl⟩
  · rw [heq]
    exact ⟨_, _, _, rfl⟩

/-- The sequencer counts batches and nothing else, whatever it does. -/
theorem Effect.exists_metrics (he : Effect s now action answer s') :
    ∃ batches batchSizes buildSeconds,
      s'.metrics = { s.metrics with batches, batchSizes, buildSeconds } := by
  cases he with
  | filled payload txid h => exact exists_metrics_cut (s.append now payload txid h) now
  | flushed => exact exists_metrics_cut s now
  | expired => exact exists_metrics_cut s now
  | stopped action last => exact exists_metrics_cut s now
  | _ => exact ⟨_, _, _, rfl⟩

/-- It counts no answers. -/
theorem Effect.answers_metrics (he : Effect s now action answer s') :
    s'.metrics.received = s.metrics.received ∧ s'.metrics.rejected = s.metrics.rejected := by
  obtain ⟨_, _, _, heq⟩ := he.exists_metrics
  rw [heq]
  exact ⟨rfl, rfl⟩

/-- The numbers given out are those of published and of pending transactions. -/
theorem Ordered.nextSequence_eq (ho : s.Ordered) :
    s.nextSequence = s.published.length + s.pending.length := by
  have hlength := congrArg List.length ho.sequence_ledger
  rw [List.length_map, List.length_range, ledger, List.length_append, List.length_map,
    List.length_map] at hlength
  exact hlength.symm

end Sequencer

namespace Service

variable {s s' : Service} {m : Move} {trace : List Moment} {index : Nat}

/-! ### What a move counts -/

/-- The answer that the handler of a broadcast stream comes to at a moment. -/
def Moment.comesTo? (now : Moment) (index : Nat) : Option BroadcastResponse :=
  now.ofBroadcast? index BroadcastStream.comesTo?

/-- The handler of a broadcast stream counts the answer that it comes to, and nothing else. -/
theorem sequencer_of_broadcast? (h : s.broadcast? index = some s') :
    s'.sequencer = { s.sequencer with
      metrics := ((⟨s, .event (.broadcast index)⟩ : Moment).comesTo? index).elim
        s.sequencer.metrics (Broadcast.count s.sequencer.metrics) } := by
  have hmove : s.move? (.event (.broadcast index)) = some s' := h
  obtain ⟨b, t, b', hb, hgoes, rfl⟩ := broadcast?_cases h
  rw [Moment.comesTo?, Moment.ofBroadcast?_eq _ hmove hb (getElem?_setBroadcast hb hgoes)]
  cases hgoes with
  | submitted => exact sequencer_send s _
  | _ => rfl

/-- A move that is neither the sequencer's nor that of such a handler counts a stream that is opened
or closed, at most. -/
theorem streams_of_move? (h : s.move? m = some s') (hserve : m ≠ .event .serve)
    (hexpire : m ≠ .event .expire) (hclose : m ≠ .event .close)
    (hm : ∀ i, m ≠ .event (.broadcast i)) :
    ∃ n, s'.sequencer = { s.sequencer with metrics.streams := n } := by
  have hsame : s'.sequencer = s.sequencer →
      ∃ n, s'.sequencer = { s.sequencer with metrics.streams := n } :=
    fun heq => ⟨s.sequencer.metrics.streams, heq⟩
  cases m with
  | event e =>
    cases e with
    | serve => exact absurd rfl hserve
    | expire => exact absurd rfl hexpire
    | close => exact absurd rfl hclose
    | broadcast i => exact absurd rfl (hm i)
    | deliver i branch =>
      obtain ⟨d, read, sent, t, d', -, hgoes, -, -, rfl⟩ := deliver?_cases h
      have ht : t.sequencer = s.sequencer := by
        cases hgoes with
        | asked => exact sequencer_send s _
        | _ => rfl
      rw [setDeliver]
      split
      · exact ⟨t.sequencer.metrics.streams - 1, by rw [← ht]; rfl⟩
      · exact ⟨t.sequencer.metrics.streams, by rw [← ht]⟩
  | call c => cases h; exact hsame (sequencer_send s c)
  | openDeliver capacity => cases h; exact ⟨_, rfl⟩
  | _ => cases h; exact hsame rfl

/-- Any other move counts a stream that is opened or closed, or it is an action of the sequencer. -/
theorem sequencer_of_move? (h : s.move? m = some s') (hm : ∀ i, m ≠ .event (.broadcast i)) :
    (∃ n, s'.sequencer = { s.sequencer with metrics.streams := n }) ∨
      ∃ action answer, Sequencer.Effect s.sequencer s.now action answer s'.sequencer := by
  by_cases hserve : m = .event .serve
  · subst hserve
    obtain ⟨ticket, call, behind, hserves⟩ := serve?_cases h
    rw [hserves.sequencer_eq]
    exact Or.inr ⟨_, _, Sequencer.handle_effect s.sequencer s.now call⟩
  by_cases hexpire : m = .event .expire
  · subst hexpire
    obtain ⟨hdue, rfl⟩ := expire?_eq_some h
    exact Or.inr ⟨_, _, .expired hdue⟩
  by_cases hclose : m = .event .close
  · subst hclose
    obtain ⟨-, -, rfl⟩ := close?_eq_some h
    exact Or.inr ⟨_, _, .stopped .close (Or.inr rfl)⟩
  exact Or.inl (streams_of_move? h hserve hexpire hclose hm)

/-! ### The answers of all streams -/

/-- The answers of all broadcast streams, stream by stream. -/
def allResponses (trace : List Moment) (s : Service) : List BroadcastResponse :=
  (List.range s.broadcasts.length).flatMap (responses trace)

/-- When one of some lists gets longer, then so does what they make up together. -/
theorem perm_flatMap_of_append {α β : Type} {f g : α → List β} {l : List α} {a : α} {added : List β}
    (hnodup : l.Nodup) (ha : a ∈ l) (hadded : g a = f a ++ added)
    (hsame : ∀ b ∈ l, b ≠ a → g b = f b) : (l.flatMap g).Perm (l.flatMap f ++ added) := by
  induction l with
  | nil => cases ha
  | cons b rest ih =>
    rw [List.nodup_cons] at hnodup
    rw [List.flatMap_cons, List.flatMap_cons, List.append_assoc]
    by_cases hb : b = a
    · subst hb
      have hrest : rest.flatMap g = rest.flatMap f := by
        refine List.flatMap_congr fun c hc => hsame c (List.mem_cons_of_mem _ hc) ?_
        rintro rfl
        exact hnodup.1 hc
      rw [hadded, hrest, List.append_assoc]
      exact (List.Perm.refl _).append List.perm_append_comm
    · have hmem : a ∈ rest := (List.mem_cons.mp ha).resolve_left (Ne.symm hb)
      rw [hsame b List.mem_cons_self hb]
      exact (List.Perm.refl _).append
        (ih hnodup.2 hmem fun c hc => hsame c (List.mem_cons_of_mem _ hc))

/-- A stream that is not there has come to no answer. -/
def Unopened (trace : List Moment) (s : Service) : Prop :=
  ∀ i, s.broadcasts.length ≤ i → responses trace i = []

/-- No stream goes away. -/
theorem length_broadcasts_le (h : s.move? m = some s') :
    s.broadcasts.length ≤ s'.broadcasts.length := by
  refine Nat.le_of_not_lt fun hlt => ?_
  have hnone : s'.broadcasts[s'.broadcasts.length]? = none := List.getElem?_eq_none (Nat.le_refl _)
  by_cases hm : m = .event (.broadcast s'.broadcasts.length)
  · obtain ⟨b, t, b', hb, hgoes, heq⟩ := broadcast?_cases (hm ▸ h)
    have hb' := getElem?_setBroadcast hb hgoes
    rw [← heq] at hb'
    cases hnone.symm.trans hb'
  · rcases getElem?_broadcasts_of_move? h hm with ⟨hbefore, -⟩ | ⟨x, x', phase, -, hafter⟩
    · rw [List.getElem?_eq_none_iff] at hbefore
      omega
    · cases hnone.symm.trans hafter

/-- Only the handler of a stream comes to an answer on it. -/
theorem comesTo?_of_ne (h : s.move? m = some s') (hm : m ≠ .event (.broadcast index)) :
    (⟨s, m⟩ : Moment).comesTo? index = none :=
  Moment.ofBroadcast?_of_ne BroadcastStream.comesTo?_of_phase_eq h hm

theorem Unopened.move (hu : Unopened trace s) (h : s.move? m = some s') :
    Unopened (trace ++ [⟨s, m⟩]) s' := by
  intro i hi
  have hle := length_broadcasts_le h
  have hnone : (⟨s, m⟩ : Moment).comesTo? i = none := by
    by_cases hm : m = .event (.broadcast i)
    · subst hm
      obtain ⟨b, t, b', hb, -, -⟩ := broadcast?_cases h
      have := (List.getElem?_eq_some_iff.mp hb).1
      omega
    · exact comesTo?_of_ne h hm
  rw [responses_concat, hu i (Nat.le_trans hle hi)]
  exact congrArg Option.toList hnone

/-- Where no handler comes to an answer, there are the same answers as before. -/
theorem allResponses_of_ne (hu : Unopened trace s) (h : s.move? m = some s')
    (hm : ∀ i, m ≠ .event (.broadcast i)) :
    allResponses (trace ++ [⟨s, m⟩]) s' = allResponses trace s := by
  have hsame : responses (trace ++ [⟨s, m⟩]) = responses trace := by
    funext i
    rw [responses_concat, show (⟨s, m⟩ : Moment).ofBroadcast? i _ = none from
      comesTo?_of_ne h (hm i), Option.toList_none, List.append_nil]
  obtain ⟨k, hk⟩ := Nat.exists_eq_add_of_le (length_broadcasts_le h)
  have hnew : (List.range k).flatMap (fun i => responses trace (s.broadcasts.length + i)) = [] :=
    List.flatMap_eq_nil_iff.mpr fun i _ => hu _ (Nat.le_add_right _ _)
  rw [allResponses, allResponses, hsame, hk, List.range_add, List.flatMap_append, List.flatMap_map,
    hnew, List.append_nil]

/-- Where a handler comes to an answer, there is this one more. -/
theorem perm_allResponses (h : s.move? (.event (.broadcast index)) = some s') :
    (allResponses (trace ++ [⟨s, .event (.broadcast index)⟩]) s').Perm (allResponses trace s ++
      ((⟨s, .event (.broadcast index)⟩ : Moment).comesTo? index).toList) := by
  obtain ⟨b, t, b', hb, hgoes, rfl⟩ := broadcast?_cases h
  have hlength : (t.setBroadcast index b').broadcasts.length = s.broadcasts.length := by
    rw [← broadcasts_of_goes hgoes]
    exact List.length_set
  rw [allResponses, allResponses, hlength]
  refine perm_flatMap_of_append List.nodup_range
    (List.mem_range.mpr (List.getElem?_eq_some_iff.mp hb).1) (responses_concat trace _ index)
    fun i _ hi => ?_
  have hne : Move.event (.broadcast index) ≠ .event (.broadcast i) := fun heq => by
    cases heq
    exact hi rfl
  rw [responses_concat, show Moment.ofBroadcast? _ i _ = none from comesTo?_of_ne h hne,
    Option.toList_none, List.append_nil]

/-- How many of some answers have a meaning. -/
def countOf (status : ReplyStatus) (rs : List BroadcastResponse) : Nat :=
  rs.countP (·.meaning = status)

/-- Counting an answer, if there is one, counts it by its meaning. -/
theorem count_elim (counted : Metrics) (r? : Option BroadcastResponse) :
    (r?.elim counted (Broadcast.count counted)).received
        = counted.received + countOf .success r?.toList ∧
      (r?.elim counted (Broadcast.count counted)).rejected
        = counted.rejected + countOf .invalid r?.toList := by
  cases r? with
  | none => exact ⟨rfl, rfl⟩
  | some r =>
    rw [Option.elim_some, Broadcast.count]
    cases hr : r.meaning with
    | success => simp [countOf, hr, Metrics.recordReceived]
    | invalid => simp [countOf, hr, Metrics.recordRejected]

/-- The answers are counted by their meaning. -/
structure Answered (trace : List Moment) (s : Service) : Prop where
  received_eq : s.metrics.received = countOf .success (allResponses trace s)
  rejected_eq : s.metrics.rejected = countOf .invalid (allResponses trace s)

theorem Answered.congr (ha : Answered trace s) {trace' : List Moment}
    (hmetrics : s'.metrics.received = s.metrics.received ∧
      s'.metrics.rejected = s.metrics.rejected)
    (hall : allResponses trace' s' = allResponses trace s) : Answered trace' s' :=
  ⟨by rw [hall, hmetrics.1, ha.received_eq], by rw [hall, hmetrics.2, ha.rejected_eq]⟩

/-- **Every move keeps count of the answers.** -/
theorem Answered.move (ha : Answered trace s) (hu : Unopened trace s) (h : s.move? m = some s') :
    Answered (trace ++ [⟨s, m⟩]) s' := by
  by_cases hm : ∃ i, m = .event (.broadcast i)
  · obtain ⟨i, rfl⟩ := hm
    have hperm : (allResponses (trace ++ [⟨s, .event (.broadcast i)⟩]) s').Perm
        (allResponses trace s ++ ((⟨s, .event (.broadcast i)⟩ : Moment).comesTo? i).toList) :=
      perm_allResponses h
    have hsequencer := sequencer_of_broadcast? h
    have hcount : ∀ status, countOf status (allResponses (trace ++ [⟨s, .event (.broadcast i)⟩]) s')
        = countOf status (allResponses trace s)
          + countOf status ((⟨s, .event (.broadcast i)⟩ : Moment).comesTo? i).toList :=
      fun status => (hperm.countP_eq _).trans List.countP_append
    obtain ⟨hreceived, hrejected⟩ := count_elim s.metrics
      ((⟨s, .event (.broadcast i)⟩ : Moment).comesTo? i)
    constructor
    · rw [hcount, ← ha.received_eq, metrics, hsequencer]
      exact hreceived
    · rw [hcount, ← ha.rejected_eq, metrics, hsequencer]
      exact hrejected
  · have hm : ∀ i, m ≠ .event (.broadcast i) := fun i heq => hm ⟨i, heq⟩
    refine ha.congr ?_ (allResponses_of_ne hu h hm)
    rw [metrics, metrics]
    rcases sequencer_of_move? h hm with ⟨n, heq⟩ | ⟨action, answer, heffect⟩
    · rw [heq]
      exact ⟨rfl, rfl⟩
    · exact heffect.answers_metrics

/-- **Every move keeps the records of batches.** -/
theorem recorded_move (hr : s.sequencer.Recorded) (h : s.move? m = some s') :
    s'.sequencer.Recorded := by
  by_cases hm : ∃ i, m = .event (.broadcast i)
  · obtain ⟨i, rfl⟩ := hm
    rw [sequencer_of_broadcast? h]
    cases (⟨s, .event (.broadcast i)⟩ : Moment).comesTo? i with
    | none => exact hr
    | some r =>
      rw [Option.elim_some, Broadcast.count]
      split
      · exact { hr with }
      · exact { hr with }
  · rcases sequencer_of_move? h fun i heq => hm ⟨i, heq⟩ with ⟨n, heq⟩ | ⟨action, answer, heffect⟩
    · rw [heq]
      exact { hr with }
    · exact hr.effect heffect

/-! ### Tickets of successes -/

/-- The tickets of the requests that were answered with a success, where requests and answers stand
side by side. -/
def successTickets (requests : List (BroadcastRequest × Option Nat))
    (answers : List BroadcastResponse) : List Nat :=
  (requests.zip answers).filterMap fun (p, r) => if r.meaning = .success then p.2 else none

theorem mem_successTickets {requests : List (BroadcastRequest × Option Nat)}
    {answers : List BroadcastResponse} {ticket : Nat} (h : ticket ∈ successTickets requests answers) :
    ∃ (k : Nat) (request : BroadcastRequest) (r : BroadcastResponse),
      requests[k]? = some (request, some ticket) ∧ answers[k]? = some r ∧ r.meaning = .success := by
  obtain ⟨⟨⟨request, ticket?⟩, r⟩, hmem, hticket⟩ := List.mem_filterMap.mp h
  obtain ⟨k, hk⟩ := List.mem_iff_getElem?.mp hmem
  obtain ⟨hrequest, hanswer⟩ := List.getElem?_zip_eq_some.mp hk
  dsimp only at hticket hrequest hanswer
  split at hticket
  next hsuccess => exact ⟨k, request, r, hticket ▸ hrequest, hanswer, hsuccess⟩
  next => cases hticket

/-- Each success has a ticket. -/
theorem length_tickets {requests : List (BroadcastRequest × Option Nat)}
    {answers : List BroadcastResponse} {phase? : Option BroadcastPhase}
    (ha : s.Account trace requests answers phase?) :
    (successTickets requests answers).length = countOf .success answers := by
  have hsettled : ∀ {requests answers}, List.Forall₂ (s.Settled trace) requests answers →
      (successTickets requests answers).length = countOf .success answers := by
    intro requests answers hall
    induction hall with
    | nil => rfl
    | @cons p r requests answers hone _ ih =>
      rw [successTickets, List.zip_cons_cons, List.filterMap_cons, countOf, List.countP_cons,
        ← countOf, ← ih, ← successTickets]
      cases hone with
      | refused request info =>
        rw [Broadcast.refused, BroadcastResponse.meaning_withStatus]
        rfl
      | answered request ticket answer submission answered =>
        by_cases hmeaning : (Broadcast.response answer).meaning = .success
        · simp [hmeaning]
        · simp [hmeaning]
  cases ha with
  | settled all free => exact hsettled all
  | waiting all request ticket submission =>
    rw [← hsettled all, successTickets, successTickets, ← List.append_nil answers,
      List.zip_append all.length_eq, List.append_nil]
    simp

/-- The tickets of all requests that were answered with a success. -/
def allTickets (trace : List Moment) (s : Service) : List Nat :=
  (List.range s.broadcasts.length).flatMap fun i =>
    successTickets (processed trace i) (responses trace i)

/-- They are all different. -/
theorem Distinct.nodup_allTickets (hd : s.Distinct trace) : (allTickets trace s).Nodup := by
  refine List.nodup_flatMap.mpr ⟨fun i _ => ?_, ?_⟩
  · refine List.pairwise_filterMap.mpr (List.pairwise_iff_getElem.mpr fun k l hk hl hkl => ?_)
    rintro t ht u hu rfl
    have hrequest : ∀ {k} (hk : k < ((processed trace i).zip (responses trace i)).length),
        (if (((processed trace i).zip (responses trace i))[k]).2.meaning = .success then
          (((processed trace i).zip (responses trace i))[k]).1.2 else none) = some t →
        ∃ request, (processed trace i)[k]? = some (request, some t) := by
      intro k hk heq
      obtain ⟨hp, -⟩ := List.getElem?_zip_eq_some.mp (List.getElem?_eq_getElem hk)
      split at heq
      next => exact ⟨_, hp.trans (congrArg some (Prod.ext rfl heq))⟩
      next => cases heq
    obtain ⟨request, hk⟩ := hrequest hk ht
    obtain ⟨request', hl⟩ := hrequest hl hu
    exact absurd (hd.eq_of_ticket_eq i i k l request request' t hk hl).2 (Nat.ne_of_lt hkl)
  · refine List.nodup_range.imp fun {i j} hij => List.disjoint_left.mpr fun ticket hi hj => ?_
    obtain ⟨k, request, -, hk, -⟩ := mem_successTickets hi
    obtain ⟨l, request', -, hl, -⟩ := mem_successTickets hj
    exact hij (hd.eq_of_ticket_eq i j k l request request' ticket hk hl).1

/-! ### The counters -/

/-- The counters of a service after a run with these moments. -/
structure Counted (trace : List Moment) (s : Service) : Prop where
  /-- One for each answer, over all streams, that was a success. -/
  received_eq : s.metrics.received = countOf .success (allResponses trace s)
  rejected_eq : s.metrics.rejected = countOf .invalid (allResponses trace s)
  completed_eq : s.metrics.received + s.metrics.rejected = (allResponses trace s).length
  received_le : s.metrics.received ≤ s.sequencer.nextSequence
  /-- One for each batch, also in the two histograms. -/
  batches_eq : s.metrics.batches = s.sequencer.nextBatch
  length_batchSizes : s.metrics.batchSizes.length = s.sequencer.nextBatch
  length_buildSeconds : s.metrics.buildSeconds.length = s.sequencer.nextBatch
  /-- The sizes add up to everything that was accepted and is not pending. -/
  sum_batchSizes : s.metrics.batchSizes.foldl (· + ·) 0 + s.sequencer.pending.length
    = s.sequencer.nextSequence
  sum_batchSizes_eq : s.metrics.batchSizes.foldl (· + ·) 0 = s.sequencer.published.length

/-- No more transactions are counted than numbers were given out. -/
theorem Answered.received_le (ha : Answered trace s) (hq : s.Queued trace)
    (ho : s.sequencer.Ordered) (hd : s.Distinct trace)
    (haccount : ∀ index, s.Account trace (processed trace index) (responses trace index)
      (s.broadcasts[index]?.map (·.phase)))
    (htruthful : ∀ index, Truthfulness trace s index) :
    s.metrics.received ≤ s.sequencer.nextSequence := by
  have hlength : (allTickets trace s).length = s.metrics.received := by
    rw [ha.received_eq, allTickets, List.length_flatMap, countOf, allResponses, List.countP_flatMap]
    congr 1
    exact List.map_congr_left fun i _ => length_tickets (haccount i)
  have hsubset : allTickets trace s ⊆ (orders trace).map Prod.fst := by
    intro ticket hticket
    obtain ⟨i, -, hticket⟩ := List.mem_flatMap.mp hticket
    obtain ⟨k, request, r, hrequest, hr, hsuccess⟩ := mem_successTickets hticket
    have htrue := (htruthful i).truthful k request (some ticket) r hrequest hr
    obtain ⟨receipt, happended⟩ := htrue.success_iff.mp hsuccess
    have hmem : (ticket, (⟨request.payload, receipt⟩ : Accepted)) ∈ orders trace := by
      refine mem_orders.mpr ?_
      rw [show appendedFor trace ticket = _ from happended]
      exact List.mem_singleton_self _
    exact List.mem_map_of_mem (f := Prod.fst) hmem
  have hle := (List.subperm_of_subset hd.nodup_allTickets hsubset).length_le
  have hledger := congrArg List.length ho.sequence_ledger
  rw [List.length_map, List.length_range, ← hq.ledger_eq, List.length_map] at hledger
  rwa [hlength, List.length_map, hledger] at hle

/-- Every answer is a success or invalid. -/
theorem countOf_add_countOf (rs : List BroadcastResponse) :
    countOf .success rs + countOf .invalid rs = rs.length := by
  induction rs with
  | nil => rfl
  | cons r rest ih =>
    simp only [countOf] at ih ⊢
    cases hr : r.meaning <;> simp [hr] <;> omega

/-- **The counters after every run** agree with what happened, however the handlers, the sequencer
and all clients take turns, and whatever the strategy refuses. -/
theorem run?_counted {c : SequencerConfig} {maxPayload : Nat} {moves : List Move}
    (hrun : (Service.new c maxPayload).run? moves = some (trace, s)) : Counted trace s := by
  obtain ⟨ha, -, hr⟩ : Answered trace s ∧ Unopened trace s ∧ s.sequencer.Recorded := by
    refine run?_keeps (P := fun s trace => Answered trace s ∧ Unopened trace s ∧
      s.sequencer.Recorded) ?_ ?_ hrun
    · rintro s m s' trace ⟨ha, hu, hr⟩ hmove
      exact ⟨ha.move hu hmove, hu.move hmove, recorded_move hr hmove⟩
    · exact ⟨⟨rfl, rfl⟩, fun _ _ => rfl, .new c⟩
  obtain ⟨-, hq, ho, hd, haccount⟩ := run?_account hrun
  have hnext := ho.nextSequence_eq
  exact {
    received_eq := ha.received_eq
    rejected_eq := ha.rejected_eq
    completed_eq := by rw [ha.received_eq, ha.rejected_eq, countOf_add_countOf]
    received_le := ha.received_le hq ho hd haccount (truthfulness_of_run? hrun)
    batches_eq := hr.batches_eq
    length_batchSizes := hr.length_batchSizes
    length_buildSeconds := hr.length_buildSeconds
    sum_batchSizes := by rw [hnext, ← hr.sum_batchSizes]; rfl
    sum_batchSizes_eq := hr.sum_batchSizes }

/-- Three streams on which one transaction is accepted, and three others are not: the strategy
refuses it, it is too long, or the sequencer has stopped. -/
theorem run?_counted_answering :
    ∃ trace s, (Service.new refusingSeven 4).run? (answeringMoves [9]) = some (trace, s) ∧
      Counted trace s ∧ s.metrics.received = 1 ∧ s.metrics.rejected = 3 := by
  have hfacts : ((Service.new refusingSeven 4).run? (answeringMoves [9])).map (fun x =>
      (x.2.metrics.received, x.2.metrics.rejected)) = some (1, 3) := by
    decide +kernel
  obtain ⟨⟨trace, s⟩, hrun, heq⟩ := Option.map_eq_some_iff.mp hfacts
  obtain ⟨hreceived, hrejected⟩ := Prod.mk.inj heq
  exact ⟨trace, s, hrun, run?_counted hrun, hreceived, hrejected⟩

end Service

end OrderingService
