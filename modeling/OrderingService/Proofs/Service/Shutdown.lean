import OrderingService.Proofs.Service.Counters

/-!
# After a shutdown

A shutdown waits in the mailbox like any other call. The calls behind it were accepted by the
mailbox and would have been answered by a sequencer that goes on; the calls that come later are not
even accepted. Neither are taken, so they are told errors with different texts, and all that is left
of the sequencer is what it published. Its subscribers are not called off: each reads on from its
own place, whenever it likes, and learns that nothing will come only when nothing is left.

The service goes on after the sequencer has stopped. Handlers still come to answers, so those are
still counted, and streams are still opened and closed.

## Main definitions

* `Sequencer.left` — what a subscriber is still given by a sequencer that has stopped
* `Sequencer.Still` — nothing changes but the counters of the streams
* `Service.watch?` — a run with the reads of a subscriber
* `Service.Subscribed` — a place that a subscriber can have
* `Service.AfterShutdown` — a service after a shutdown

## Main results

* `Service.Closed.move`, `Service.sequencer_of_stopped` — what every move keeps after a shutdown
* `Service.prefix_left_of_watch?` — what a subscriber reads after a shutdown
* `Service.run?_shutdown_final` — every run with a shutdown
-/

namespace OrderingService

/-! ### Reading on -/

namespace Sequencer

/-- What a subscriber is still given by a sequencer that has stopped: everything that it has not
read, or how much it missed and then everything that is kept. -/
def left (q : Sequencer) (sub : Subscription) : List Reading :=
  if q.kept < q.unread sub then
    .lagged (q.unread sub - q.kept) ::
      (q.published.drop (q.published.length - q.kept)).map .transaction
  else (q.published.drop sub.next).map .transaction

variable {q q' : Sequencer} {sub : Subscription}

theorem left_of_unread_le (h : q.unread sub ≤ q.kept) :
    q.left sub = (q.published.drop sub.next).map .transaction := if_neg (Nat.not_lt.mpr h)

/-- A reader does not get ahead of what is published. -/
theorem next_le_of_read (h : sub.next ≤ q.published.length) :
    (q.read sub).2.next ≤ q.published.length := by
  rw [read]
  split
  · exact Nat.sub_le _ _
  · cases hnext : q.published[sub.next]? with
    | some tx => exact (List.getElem?_eq_some_iff.mp hnext).1
    | none => exact h

/-- A read takes the first of what is left. When nothing is left, it says so. -/
theorem left_eq_cons_or_read_eq_closed (hstop : q.stopped = true) (sub : Subscription) :
    q.left sub = (q.read sub).1 :: q.left (q.read sub).2 ∨
      q.left sub = [] ∧ q.read sub = (.closed, sub) := by
  by_cases hlag : q.kept < q.unread sub
  · have hread : q.read sub
        = (.lagged (q.unread sub - q.kept), ⟨q.published.length - q.kept⟩) := if_pos hlag
    have hnear : q.unread ⟨q.published.length - q.kept⟩ ≤ q.kept := by
      show q.published.length - (q.published.length - q.kept) ≤ q.kept
      omega
    rw [hread, left, if_pos hlag, left_of_unread_le hnear]
    exact Or.inl rfl
  · rw [left_of_unread_le (Nat.le_of_not_lt hlag), read, if_neg hlag]
    cases hnext : q.published[sub.next]? with
    | some tx =>
      obtain ⟨hlt, rfl⟩ := List.getElem?_eq_some_iff.mp hnext
      have hnear : q.unread ⟨sub.next + 1⟩ ≤ q.kept :=
        Nat.le_trans (Nat.sub_le_sub_left (Nat.le_succ _) _) (Nat.le_of_not_lt hlag)
      rw [left_of_unread_le hnear, List.drop_eq_getElem_cons hlt]
      exact Or.inl rfl
    | none =>
      rw [List.drop_of_length_le (List.getElem?_eq_none_iff.mp hnext), if_pos hstop]
      exact Or.inr ⟨rfl, rfl⟩

/-- Nothing happened to a sequencer but that the streams counted answers and themselves. -/
def Still (q q' : Sequencer) : Prop :=
  ∃ received rejected streams,
    q' = { q with metrics := { q.metrics with received, rejected, streams } }

namespace Still

theorem refl (q : Sequencer) : q.Still q := ⟨_, _, _, rfl⟩

theorem trans {r : Sequencer} (h : q.Still q') (h' : q'.Still r) : q.Still r := by
  obtain ⟨_, _, _, rfl⟩ := h
  obtain ⟨received, rejected, streams, rfl⟩ := h'
  exact ⟨received, rejected, streams, rfl⟩

theorem left_eq (h : q.Still q') (sub : Subscription) : q'.left sub = q.left sub := by
  obtain ⟨_, _, _, rfl⟩ := h
  rfl

theorem stopped_eq (h : q.Still q') : q'.stopped = q.stopped := by
  obtain ⟨_, _, _, rfl⟩ := h
  rfl

/-- Counting an answer is nothing else. -/
theorem count (q : Sequencer) (r : BroadcastResponse) :
    q.Still { q with metrics := Broadcast.count q.metrics r } := by
  rw [Broadcast.count]
  cases r.meaning with
  | success => exact ⟨q.metrics.received + 1, q.metrics.rejected, q.metrics.streams, rfl⟩
  | invalid => exact ⟨q.metrics.received, q.metrics.rejected + 1, q.metrics.streams, rfl⟩

end Still

/-- A last cut publishes the open batch, or nothing if the batch cannot be committed. -/
theorem exists_published_cut (s : Sequencer) (now : Nat) :
    ∃ final, (s.cut now).2.published = s.published ++ final ∧
      final.map OrderedTransaction.accepted =
        if (s.cut now).1.isOk then s.pending.map PendingTransaction.accepted else [] := by
  rcases cut_cases s now with ⟨hnil, heq⟩ | ⟨-, e, h, heq⟩ | ⟨-, t, ws, root, h, -, -, hlen, heq⟩
  · rw [heq, hnil]
    exact ⟨[], (List.append_nil _).symm, rfl⟩
  · rw [heq]
    exact ⟨[], (List.append_nil _).symm, rfl⟩
  · rw [heq]
    exact ⟨ordered s.nextBatch s.pending ws, rfl, map_accepted_ordered hlen s.nextBatch⟩

end Sequencer

namespace Service

variable {s s' : Service} {m : Move} {trace : List Moment} {sub sub' : Subscription}
  {readings : List Reading}

/-! ### Subscribers -/

/-- A run in which a subscriber reads now and then, at `none`: what it is given, the place it
reaches, and the state after. -/
def watch? (s : Service) (sub : Subscription) :
    List (Option Move) → Option (List Reading × Subscription × Service)
  | [] => some ([], sub, s)
  | none :: rest => do
    let (reading, sub) := s.sequencer.read sub
    let (readings, last) ← s.watch? sub rest
    return (reading :: readings, last)
  | some m :: rest => do
    let s ← s.move? m
    s.watch? sub rest

/-- A subscriber can have this place: it was granted one in a run, and it may have read on since. -/
def Subscribed (c : SequencerConfig) (maxPayload : Nat) (s : Service) (sub : Subscription) : Prop :=
  ∃ moves trace mid ticket granted steps readings,
    (Service.new c maxPayload).run? moves = some (trace, mid) ∧
      mid.answer? ticket = some (.ok (.subscription granted)) ∧
      mid.watch? granted steps = some (readings, sub, s)

/-- No place that is granted is ahead of what is published. -/
def Granted (s : Service) : Prop :=
  ∀ ticket sub, s.answer? ticket = some (.ok (.subscription sub)) →
    sub.next ≤ s.sequencer.published.length

theorem Granted.send (hg : s.Granted) (c : Call) : (s.send c).2.Granted := by
  intro ticket sub h
  rw [sequencer_send]
  rw [Service.send] at h
  split at h
  · by_cases ht : ticket = s.nextTicket
    · rw [answer?, ht, List.lookup_cons_self] at h
      cases h
    · rw [answer?, lookup_cons_of_ne ht] at h
      exact hg ticket sub h
  · exact hg ticket sub h

/-- The sequencer grants the place that it has reached, and grants one only to who asks. -/
theorem next_eq_of_handle {q : Sequencer} {now : Nat} {call : Call}
    (h : (q.handle now call).1 = .ok (.subscription sub)) : sub.next = q.published.length := by
  have he := Sequencer.handle_effect q now call
  rw [h] at he
  generalize (q.handle now call).2 = next at he
  generalize haction : Sequencer.Action.call call = action at he
  generalize hanswer : Except.ok (Reply.subscription sub) = answer at he
  cases he with
  | subscribed => cases hanswer; rfl
  | refused | appended | filled => cases hanswer
  | flushed | expired | stopped =>
    cases hcut : (q.cut now).1 <;> rw [hcut] at hanswer <;> cases hanswer

/-- **Every move keeps granted places behind** what is published. -/
theorem Granted.concerns (hg : s.Granted) (hc : s.Concerns m s') : s'.Granted := by
  intro ticket sub h
  have hold : s.answer? ticket = some (.ok (.subscription sub)) →
      sub.next ≤ s'.sequencer.published.length :=
    fun hold => Nat.le_trans (hg ticket sub hold) hc.advances.published.length_le
  cases hc with
  | nothing _ quiet => exact hold (answer?_congr quiet.answers_eq ticket ▸ h)
  | called _ c quiet =>
    have hle := hg.send c ticket sub (answer?_congr quiet.answers_eq ticket ▸ h)
    exact Nat.le_trans hle quiet.advances.published.length_le
  | served serves =>
    obtain ⟨t, call, behind, hserves⟩ := serve?_cases serves
    rw [answer?_of_serves hserves] at h
    split at h
    · cases h
    · split at h
      · rw [next_eq_of_handle (Option.some.inj h)]
        exact (Concerns.served serves).advances.published.length_le
      · exact hold h
  | acted _ _ _ hanswers => exact hold (answer?_congr hanswers ticket ▸ h)

/-- **A subscriber stays behind** what is published, whatever happens. -/
theorem next_le_of_watch? {steps : List (Option Move)}
    (hle : sub.next ≤ s.sequencer.published.length)
    (h : s.watch? sub steps = some (readings, sub', s')) :
    sub'.next ≤ s'.sequencer.published.length := by
  induction steps generalizing s sub readings with
  | nil =>
    cases h
    exact hle
  | cons step rest ih =>
    cases step with
    | none =>
      simp only [watch?, Option.bind_eq_bind, Option.bind_eq_some_iff] at h
      obtain ⟨⟨readings₁, last⟩, hrest, heq⟩ := h
      cases heq
      exact ih (Sequencer.next_le_of_read hle) hrest
    | some m =>
      simp only [watch?, Option.bind_eq_bind, Option.bind_eq_some_iff] at h
      obtain ⟨next, hmove, hrest⟩ := h
      exact ih (Nat.le_trans hle (move?_concerns hmove).advances.published.length_le) hrest

theorem Subscribed.next_le {c : SequencerConfig} {maxPayload : Nat}
    (h : Subscribed c maxPayload s sub) : sub.next ≤ s.sequencer.published.length := by
  obtain ⟨moves, trace, mid, ticket, granted, steps, readings, hrun, hanswer, hwatch⟩ := h
  have hg : mid.Granted := run?_keeps (P := fun s _ => s.Granted)
    (fun hg hmove => hg.concerns (move?_concerns hmove)) (fun ticket sub h => by cases h) hrun
  exact next_le_of_watch? (hg ticket granted hanswer) hwatch

/-! ### What every move keeps -/

/-- The sequencer has stopped. No call waits, and calls since some ticket are not accepted. -/
structure Closed (s : Service) (since : Nat) : Prop where
  tickets : s.Tickets
  stopped : s.sequencer.stopped = true
  mailbox_eq : s.mailbox = []
  later : ∀ ticket, since ≤ ticket → ticket < s.nextTicket →
    s.answer? ticket = some (.error .mailboxClosed)

/-- A sequencer that has stopped takes no call, has no timer, and is not told to stop. -/
theorem ne_of_stopped (hstop : s.sequencer.stopped = true) (hempty : s.mailbox = [])
    (h : s.move? m = some s') :
    m ≠ .event .serve ∧ m ≠ .event .expire ∧ m ≠ .event .close := by
  refine ⟨?_, ?_, ?_⟩
  · rintro rfl
    obtain ⟨ticket, call, behind, hserves⟩ := serve?_cases h
    cases hempty.symm.trans hserves.mailbox_eq
  · rintro rfl
    have hdue := (expire?_eq_some h).1
    rw [Sequencer.isDue, hstop] at hdue
    cases hdue
  · rintro rfl
    cases hstop.symm.trans (close?_eq_some h).2.1

/-- **A sequencer that has stopped does nothing more,** whatever happens. -/
theorem sequencer_of_stopped (hstop : s.sequencer.stopped = true) (hempty : s.mailbox = [])
    (h : s.move? m = some s') : s.sequencer.Still s'.sequencer := by
  by_cases hbroadcast : ∃ i, m = .event (.broadcast i)
  · obtain ⟨i, rfl⟩ := hbroadcast
    rw [sequencer_of_broadcast? h]
    cases (⟨s, .event (.broadcast i)⟩ : Moment).comesTo? i with
    | none => exact .refl _
    | some r => exact .count _ r
  · obtain ⟨hserve, hexpire, hclose⟩ := ne_of_stopped hstop hempty h
    obtain ⟨n, heq⟩ := streams_of_move? h hserve hexpire hclose fun i hi => hbroadcast ⟨i, hi⟩
    rw [heq]
    exact ⟨_, _, n, rfl⟩

/-- **Every move keeps a service closed.** A call is refused at once. -/
theorem Closed.move {since : Nat} (hc : s.Closed since) (h : s.move? m = some s') :
    s'.Closed since := by
  have hconcerns := move?_concerns h
  have hstill := sequencer_of_stopped hc.stopped hc.mailbox_eq h
  have hold : ∀ ticket, since ≤ ticket → ticket < s.nextTicket →
      s'.answer? ticket = some (.error .mailboxClosed) := fun ticket hsince hlt =>
    hc.tickets.answer?_concerns hconcerns (hc.later ticket hsince hlt)
  refine ⟨hc.tickets.concerns hconcerns, hstill.stopped_eq.trans hc.stopped, ?_,
    fun ticket hsince hlt => ?_⟩
  · exact Drained.concerns (fun _ => hc.mailbox_eq) hconcerns (hstill.stopped_eq.trans hc.stopped)
  · cases hconcerns with
    | nothing _ quiet => exact hold ticket hsince (quiet.nextTicket_eq ▸ hlt)
    | called _ c quiet =>
      rw [quiet.nextTicket_eq, nextTicket_send] at hlt
      rcases Nat.lt_succ_iff_lt_or_eq.mp hlt with hlt | rfl
      · exact hold ticket hsince hlt
      · rw [answer?_congr quiet.answers_eq, answer?, send, if_pos hc.stopped]
        exact List.lookup_cons_self
    | served serves =>
      obtain ⟨t, call, behind, hserves⟩ := serve?_cases serves
      cases hc.mailbox_eq.symm.trans hserves.mailbox_eq
    | acted _ _ _ _ _ _ running => cases running.symm.trans hc.stopped

/-- Whether a move is one of a stream or of its client. -/
def Move.ofStream : Move → Bool
  | .event (.broadcast _) | .event (.deliver _ _) => true
  | .openBroadcast _ | .openDeliver _ | .broadcastClient _ _ | .deliverClient _ _ => true
  | .event _ | .call _ | .wait _ | .release => false

/-- A call counts nothing. -/
theorem sequencer_eq_of_stopped (hstop : s.sequencer.stopped = true) (hempty : s.mailbox = [])
    (h : s.move? m = some s') (hm : m.ofStream = false) : s'.sequencer = s.sequencer := by
  obtain ⟨hserve, hexpire, hclose⟩ := ne_of_stopped hstop hempty h
  cases m with
  | event e =>
    cases e with
    | serve => exact absurd rfl hserve
    | expire => exact absurd rfl hexpire
    | close => exact absurd rfl hclose
    | broadcast | deliver => cases hm
  | call c => cases h; exact sequencer_send s c
  | wait | release => cases h; rfl
  | openBroadcast | openDeliver | broadcastClient | deliverClient => cases hm

/-- **What a subscriber reads after a shutdown** is what is left, and then that nothing will come,
whenever it reads. -/
theorem prefix_left_of_watch? {since n : Nat} {steps : List (Option Move)} (hc : s.Closed since)
    (h : s.watch? sub steps = some (readings, sub', s')) (hn : readings.length ≤ n) :
    readings <+: s.sequencer.left sub ++ List.replicate n .closed := by
  induction steps generalizing s sub readings n with
  | nil =>
    cases h
    exact List.nil_prefix
  | cons step rest ih =>
    cases step with
    | none =>
      simp only [watch?, Option.bind_eq_bind, Option.bind_eq_some_iff] at h
      obtain ⟨⟨readings₁, last⟩, hrest, heq⟩ := h
      cases heq
      rw [List.length_cons] at hn
      rcases Sequencer.left_eq_cons_or_read_eq_closed hc.stopped sub with hcons | ⟨hnil, hclosed⟩
      · rw [hcons, List.cons_append]
        exact List.cons_prefix_cons.mpr ⟨rfl, ih hc hrest (Nat.le_of_succ_le hn)⟩
      · rw [hclosed] at hrest
        obtain ⟨k, rfl⟩ : ∃ k, n = k + 1 := ⟨n - 1, by omega⟩
        have hlast := ih hc hrest (Nat.le_of_succ_le_succ hn)
        rw [hnil, List.nil_append] at hlast ⊢
        rw [hclosed, List.replicate_succ]
        exact List.cons_prefix_cons.mpr ⟨rfl, hlast⟩
    | some m =>
      simp only [watch?, Option.bind_eq_bind, Option.bind_eq_some_iff] at h
      obtain ⟨next, hmove, hrest⟩ := h
      rw [← (sequencer_of_stopped hc.stopped hc.mailbox_eq hmove).left_eq sub]
      exact ih (hc.move hmove) hrest hn

/-! ### Every run with a shutdown -/

/-- A service after a shutdown, which the sequencer took in the state `s` under a ticket, with other
calls behind it, and after a run from where it then was. -/
structure AfterShutdown (s : Service) (ticket : Nat) (behind : List (Nat × Call))
    (stopped : Sequencer) (trace : List Moment) (s' : Service) : Prop where
  answered : s'.answer? ticket = some (.ofCut (s.sequencer.cut s.now).1)
  /-- The calls that waited behind it. -/
  behind : ∀ p ∈ behind, s'.answer? p.1 = some (.error .responseClosed)
  /-- The calls that came later. -/
  later : ∀ t, s.nextTicket ≤ t → t < s'.nextTicket → s'.answer? t = some (.error .mailboxClosed)
  mailbox_eq : s'.mailbox = []
  /-- No number is given out, nothing is published, and no batch is counted. -/
  still : stopped.Still s'.sequencer
  /-- Calls are not counted at all. -/
  sequencer_eq : (∀ now ∈ trace, now.move.ofStream = false) → s'.sequencer = stopped

/-- The sequencer takes a shutdown: it cuts once and stops, and the calls behind are refused. -/
theorem exists_closed_of_shutdown {ticket : Nat} {behind : List (Nat × Call)} (ht : s.Tickets)
    (hmailbox : s.mailbox = (ticket, .shutdown) :: behind) :
    ∃ s₁, s.serve? = some s₁ ∧
      s₁.sequencer = { (s.sequencer.cut s.now).2 with stopped := true } ∧
      s₁.Closed s.nextTicket ∧ s.AfterShutdown ticket behind s₁.sequencer [] s₁ := by
  have hne : s.mailbox ≠ [] := by
    rw [hmailbox]
    exact List.cons_ne_nil _ _
  obtain ⟨s₁, hserve⟩ := Submission.exists_serve? hne
  obtain ⟨t, call, left, hserves⟩ := serve?_cases hserve
  have hmail := hserves.mailbox_eq
  rw [hmailbox, List.cons.injEq, Prod.mk.injEq] at hmail
  obtain ⟨⟨rfl, rfl⟩, hbehind⟩ := hmail
  have hsequencer : s₁.sequencer = { (s.sequencer.cut s.now).2 with stopped := true } :=
    hserves.sequencer_eq
  have hstop : s₁.sequencer.stopped = true := by rw [hsequencer]
  have hempty := hserves.mailbox_of_stopped hstop
  rw [hempty, List.nil_append] at hbehind
  subst hbehind
  have hnone : ∀ t, s.nextTicket ≤ t → ¬ t < s₁.nextTicket := fun t hle hlt =>
    Nat.not_lt.mpr hle (hserves.nextTicket_eq ▸ hlt)
  obtain ⟨hticket, -⟩ := ht.nodup_of_serves hserves
  rw [hempty, List.nil_append] at hticket
  refine ⟨s₁, hserve, hsequencer, ⟨ht.serves hserves, hstop, hempty,
    fun t hle hlt => absurd hlt (hnone t hle)⟩, ?_, fun p hp => ?_,
    fun t hle hlt => absurd hlt (hnone t hle), hempty, .refl _, fun _ => rfl⟩
  · rw [answer?_of_serves hserves, if_neg hticket, if_pos rfl]
    rfl
  · rw [answer?_of_serves hserves, if_pos (List.mem_map_of_mem (f := Prod.fst) hp)]

/-- **Every run from there keeps what a shutdown did.** -/
theorem AfterShutdown.run {ticket : Nat} {behind : List (Nat × Call)} {s₁ : Service}
    {moves : List Move} (hc : s₁.Closed s.nextTicket)
    (ha : s.AfterShutdown ticket behind s₁.sequencer [] s₁)
    (hrun : s₁.run? moves = some (trace, s')) :
    s.AfterShutdown ticket behind s₁.sequencer trace s' := by
  refine (run?_keeps (P := fun s' trace => s'.Closed s.nextTicket ∧
    s.AfterShutdown ticket behind s₁.sequencer trace s') ?_ ⟨hc, ha⟩ hrun).2
  rintro t m t' trace ⟨hc, ha⟩ hmove
  have hc' := hc.move hmove
  have hstay : ∀ {ticket answer}, t.answer? ticket = some answer →
      t'.answer? ticket = some answer := hc.tickets.answer?_concerns (move?_concerns hmove)
  refine ⟨hc', hstay ha.answered, fun p hp => hstay (ha.behind p hp), hc'.later, hc'.mailbox_eq,
    ha.still.trans (sequencer_of_stopped hc.stopped hc.mailbox_eq hmove), fun hcalls => ?_⟩
  have hlast : m.ofStream = false := hcalls ⟨t, m⟩ (List.mem_append_right _ List.mem_cons_self)
  rw [sequencer_eq_of_stopped hc.stopped hc.mailbox_eq hmove hlast]
  exact ha.sequencer_eq fun now hnow => hcalls now (List.mem_append_left _ hnow)

/-- **A shutdown is final.** In every run in which the sequencer takes one, it cuts once and stops,
and the answer is the result of that cut. The calls behind it and the calls that come later, in
whatever order, are refused: no number is given out for them, nothing is published, and nothing is
counted. And whoever had subscribed reads all that is left, the last batch included, before it
learns that nothing will come; only if it fell too far behind does it miss the oldest of it. -/
theorem run?_shutdown_final {c : SequencerConfig} {maxPayload : Nat} {before : List Move}
    {ticket : Nat} {behind : List (Nat × Call)}
    (hrun : (Service.new c maxPayload).run? before = some (trace, s))
    (hmailbox : s.mailbox = (ticket, .shutdown) :: behind) :
    ∃ s₁ final, s.serve? = some s₁ ∧
      s₁.sequencer = { (s.sequencer.cut s.now).2 with stopped := true } ∧
      s₁.sequencer.published = s.sequencer.published ++ final ∧
      (final.map OrderedTransaction.accepted = if (s.sequencer.cut s.now).1.isOk
        then s.sequencer.pending.map PendingTransaction.accepted else []) ∧
      (∀ after trace' s', s₁.run? after = some (trace', s') →
        s.AfterShutdown ticket behind s₁.sequencer trace' s') ∧
      ∀ sub, Subscribed c maxPayload s sub → ∀ steps readings sub' s',
        s₁.watch? sub steps = some (readings, sub', s') →
        (s₁.sequencer.unread sub ≤ s₁.sequencer.kept →
          readings <+: (s.sequencer.published.drop sub.next ++ final).map .transaction ++
            List.replicate readings.length .closed) ∧
        (s₁.sequencer.kept < s₁.sequencer.unread sub →
          readings <+: .lagged (s₁.sequencer.unread sub - s₁.sequencer.kept) ::
            (s₁.sequencer.published.drop
              (s₁.sequencer.published.length - s₁.sequencer.kept)).map .transaction ++
            List.replicate readings.length .closed) := by
  have ht : s.Tickets := run?_keeps (P := fun s _ => s.Tickets)
    (fun ht hmove => ht.concerns (move?_concerns hmove)) (.new c maxPayload) hrun
  obtain ⟨s₁, hserve, hsequencer, hclosed, hafter⟩ := exists_closed_of_shutdown ht hmailbox
  obtain ⟨final, hpublished, hfinal⟩ := s.sequencer.exists_published_cut s.now
  have hpublished₁ : s₁.sequencer.published = s.sequencer.published ++ final := by
    rw [hsequencer]
    exact hpublished
  refine ⟨s₁, final, hserve, hsequencer, hpublished₁, hfinal,
    fun after trace' s' hrun' => hafter.run hclosed hrun',
    fun sub hsub steps readings sub' s' hwatch => ?_⟩
  have hprefix := prefix_left_of_watch? hclosed hwatch (Nat.le_refl _)
  refine ⟨fun hnear => ?_, fun hlag => ?_⟩
  · rwa [Sequencer.left_of_unread_le hnear, hpublished₁,
      List.drop_append_of_le_length hsub.next_le] at hprefix
  · rwa [Sequencer.left, if_pos hlag] at hprefix

/-- Two transactions are kept. -/
def keepingPair : SequencerConfig where
  subscriberBuffer := 2
  strategy := .concatenation "concat"

/-- The calls behind a shutdown. -/
def leftBehind : List (Nat × Call) :=
  [(7, .submit [4]), (8, .subscribe), (9, .flush), (10, .shutdown)]

/-- The first subscription is before the first batch and the second one after it. The shutdown finds
two transactions in the open batch, and more calls come before it is taken. -/
def shutdownMoves : List Move :=
  [.call .subscribe, .event .serve, .call (.submit [1]), .event .serve, .call .flush, .event .serve,
    .call .subscribe, .event .serve, .call (.submit [2]), .event .serve, .call (.submit [3]),
    .event .serve, .call .shutdown] ++ leftBehind.map fun p => .call p.2

/-- The second subscriber reads the last batch, and the first one is told that it missed one
transaction. Both go on to the end while calls are refused. -/
theorem run?_shutdown_final_lagging :
    ∃ trace s s₁, ∃ final : List OrderedTransaction,
      (Service.new keepingPair 16).run? shutdownMoves = some (trace, s) ∧
      s.mailbox = (6, .shutdown) :: leftBehind ∧ s.serve? = some s₁ ∧
      final.map (·.payload) = [[2], [3]] ∧
      (∃ trace' s', s₁.run? [.call (.submit [5]), .call .flush] = some (trace', s') ∧
        s.AfterShutdown 6 leftBehind s₁.sequencer trace' s') ∧
      (∃ readings sub s', s₁.watch? ⟨1⟩ [none, some (.call .flush), none, none]
          = some (readings, sub, s') ∧ readings.length = 3 ∧
        readings <+: final.map .transaction ++ List.replicate 3 .closed) ∧
      ∃ readings sub s', s₁.watch? ⟨0⟩ [none, none, some (.call .shutdown), none, none]
          = some (readings, sub, s') ∧ readings.length = 4 ∧
        readings <+: .lagged 1 :: final.map .transaction ++ List.replicate 4 .closed := by
  have hfacts : ((Service.new keepingPair 16).run? shutdownMoves).map (fun x =>
      (x.2.mailbox, (x.2.answer? 0).bind Except.toOption, (x.2.answer? 3).bind Except.toOption))
      = some ((6, .shutdown) :: leftBehind, some (.subscription ⟨0⟩),
          some (.subscription ⟨1⟩)) := by
    decide +kernel
  have hbatches : ((Service.new keepingPair 16).run? shutdownMoves).map (fun x =>
      (x.2.sequencer.published.length, x.2.sequencer.pending.map (·.payload),
        (x.2.sequencer.cut x.2.now).1.isOk,
        x.2.serve?.map fun s₁ => (s₁.sequencer.kept, s₁.sequencer.published.length)))
      = some (1, [[2], [3]], true, some (2, 3)) := by
    decide +kernel
  obtain ⟨⟨trace, s⟩, hrun, heq⟩ := Option.map_eq_some_iff.mp hfacts
  rw [hrun, Option.map_some] at hbatches
  simp only [Option.some.injEq, Prod.mk.injEq] at heq hbatches
  obtain ⟨hmailbox, hfirst, hsecond⟩ := heq
  obtain ⟨hlength, hpending, hok, hstopped⟩ := hbatches
  obtain ⟨s₁, final, hserve, -, hpublished, hfinal, hafter, hreads⟩ :=
    run?_shutdown_final hrun hmailbox
  have hsubscribed : ∀ {ticket granted},
      (s.answer? ticket).bind Except.toOption = some (.subscription granted) →
      Subscribed keepingPair 16 s granted := by
    intro ticket granted h
    obtain ⟨answer, hanswer, hgranted⟩ := Option.bind_eq_some_iff.mp h
    cases answer with
    | error e => cases hgranted
    | ok reply =>
      cases hgranted
      exact ⟨_, trace, s, ticket, granted, [], [], hrun, hanswer, rfl⟩
  rw [hserve, Option.map_some, Option.some.injEq, Prod.mk.injEq] at hstopped
  obtain ⟨hkept, hlast⟩ := hstopped
  have hpayloads : final.map (·.payload) = [[2], [3]] := by
    have hmap := congrArg (List.map Accepted.payload) hfinal
    rwa [if_pos hok, List.map_map, List.map_map, show Accepted.payload ∘
      PendingTransaction.accepted = (·.payload) from rfl, hpending] at hmap
  have hkeeps : s₁.sequencer.published.drop (3 - 2) = final := by
    rw [hpublished, show 3 - 2 = s.sequencer.published.length from hlength.symm, List.drop_left]
  obtain ⟨near, sub, s', hnear, hthree⟩ : ∃ readings sub s',
      s₁.watch? ⟨1⟩ [none, some (.call .flush), none, none] = some (readings, sub, s') ∧
        readings.length = 3 := ⟨_, _, _, rfl, rfl⟩
  obtain ⟨lagging, sub', s'', hlag, hfour⟩ : ∃ readings sub s',
      s₁.watch? ⟨0⟩ [none, none, some (.call .shutdown), none, none] = some (readings, sub, s') ∧
        readings.length = 4 := ⟨_, _, _, rfl, rfl⟩
  have hread := (hreads ⟨1⟩ (hsubscribed hsecond) _ _ _ _ hnear).1
  have hmissed := (hreads ⟨0⟩ (hsubscribed hfirst) _ _ _ _ hlag).2
  rw [Sequencer.unread, hkept, hlast] at hread hmissed
  rw [show (⟨1⟩ : Subscription).next = s.sequencer.published.length from hlength.symm,
    List.drop_length, List.nil_append, hthree, hlength] at hread
  rw [hkeeps, hfour] at hmissed
  obtain ⟨trace', s₂, hrun'⟩ : ∃ trace' s', s₁.run? [.call (.submit [5]), .call .flush]
      = some (trace', s') := ⟨_, _, rfl⟩
  exact ⟨trace, s, s₁, final, hrun, hmailbox, hserve, hpayloads,
    ⟨trace', s₂, hrun', hafter _ _ _ hrun'⟩, ⟨near, sub, s', hnear, hthree, hread (by decide)⟩,
    ⟨lagging, sub', s'', hlag, hfour, hmissed (by decide)⟩⟩

end Service

end OrderingService
