import OrderingService.Proofs.Service.Run

/-!
# Calls and their tickets

A call waits in the mailbox under a ticket, and its answer is found under the same ticket. No two
calls share one, and an answer, once there, stays. So whoever waits for an answer gets the one to
its own call: a handler that asked for a subscription is given the place that the sequencer had
reached when it took the call, or learns that the sequencer has stopped.

## Main definitions

* `Service.Tickets` — each call has its own ticket
* `Service.Drained` — when the sequencer has stopped, no call waits
* `Service.Asked` — what became of a call for a subscription
* `Service.Moment.granted?` — the sequencer as it takes such a call

## Main results

* `Service.Tickets.concerns` — every move keeps tickets apart
* `Service.Tickets.answer?_concerns` — an answer that is there stays
* `Service.Asked.concerns` — every move keeps account of a call for a subscription
-/

namespace OrderingService

namespace Service

variable {s s' : Service} {m : Move}

/-! ### Tickets -/

/-- Each call has its own ticket, and no answer before it is taken. -/
structure Tickets (s : Service) : Prop where
  lt_of_mem : ∀ p ∈ s.mailbox, p.1 < s.nextTicket
  nodup : (s.mailbox.map Prod.fst).Nodup
  answer?_of_mem : ∀ p ∈ s.mailbox, s.answer? p.1 = none
  answer?_of_le : ∀ ticket, s.nextTicket ≤ ticket → s.answer? ticket = none

theorem answer?_congr (h : s'.answers = s.answers) (ticket : Nat) :
    s'.answer? ticket = s.answer? ticket := by
  rw [answer?, answer?, h]

theorem lookup_cons_of_ne {ticket other : Nat} (hne : ticket ≠ other) (a : Answer)
    (answers : List (Nat × Answer)) :
    ((other, a) :: answers).lookup ticket = answers.lookup ticket := by
  rw [List.lookup_cons, beq_false_of_ne hne]

theorem lookup_leftBehind (behind : List (Nat × Call)) (e : Answer) (ticket : Nat) :
    (behind.map fun p => (p.1, e)).lookup ticket
      = if ticket ∈ behind.map Prod.fst then some e else none := by
  induction behind with
  | nil => rfl
  | cons p rest ih =>
    by_cases hp : ticket = p.1
    · simp [hp]
    · rw [List.map_cons, List.map_cons, lookup_cons_of_ne hp, ih]
      simp only [List.mem_cons, hp, false_or]

theorem answer?_of_serves {ticket : Nat} {call : Call} {behind : List (Nat × Call)}
    (hs : s.Serves ticket call behind s') (t : Nat) :
    s'.answer? t = if t ∈ behind.map Prod.fst then some (.error .responseClosed)
      else if t = ticket then some (s.sequencer.handle s.now call).1 else s.answer? t := by
  rw [answer?, hs.answers_eq, List.lookup_append, lookup_leftBehind]
  split
  · rfl
  · by_cases ht : t = ticket
    · rw [if_pos ht, ht, List.lookup_cons_self, Option.none_or]
    · rw [if_neg ht, lookup_cons_of_ne ht, Option.none_or, answer?]

theorem answer?_send_of_ne (s : Service) (c : Call) {ticket : Nat} (hne : ticket ≠ s.nextTicket) :
    (s.send c).2.answer? ticket = s.answer? ticket := by
  rw [send]
  split
  · exact lookup_cons_of_ne hne _ _
  · rfl

namespace Tickets

theorem new (c : SequencerConfig) (maxPayload : Nat) : (Service.new c maxPayload).Tickets where
  lt_of_mem := fun _ h => absurd h List.not_mem_nil
  nodup := List.nodup_nil
  answer?_of_mem := fun _ h => absurd h List.not_mem_nil
  answer?_of_le := fun _ _ => rfl

theorem congr (ht : s.Tickets) (hmailbox : s'.mailbox = s.mailbox)
    (hanswers : s'.answers = s.answers) (hnext : s'.nextTicket = s.nextTicket) : s'.Tickets where
  lt_of_mem := by rw [hmailbox, hnext]; exact ht.lt_of_mem
  nodup := by rw [hmailbox]; exact ht.nodup
  answer?_of_mem := fun p hp => by
    rw [answer?_congr hanswers]
    exact ht.answer?_of_mem p (hmailbox ▸ hp)
  answer?_of_le := fun t hle => by
    rw [answer?_congr hanswers]
    exact ht.answer?_of_le t (hnext ▸ hle)

theorem send (ht : s.Tickets) (c : Call) : (s.send c).2.Tickets := by
  have hne : ∀ p ∈ s.mailbox, p.1 ≠ s.nextTicket := fun p hp => Nat.ne_of_lt (ht.lt_of_mem p hp)
  have hle : ∀ t, s.nextTicket + 1 ≤ t → (s.send c).2.answer? t = none := fun t hle => by
    rw [answer?_send_of_ne s c (by omega)]
    exact ht.answer?_of_le t (by omega)
  have hmem : ∀ p ∈ s.mailbox, (s.send c).2.answer? p.1 = none := fun p hp => by
    rw [answer?_send_of_ne s c (hne p hp)]
    exact ht.answer?_of_mem p hp
  have hnew : (s.send c).2.mailbox = s.mailbox ∨
      (s.send c).2.answer? s.nextTicket = none ∧
        (s.send c).2.mailbox = s.mailbox ++ [(s.nextTicket, c)] := by
    rw [Service.send]
    split
    · exact Or.inl rfl
    · exact Or.inr ⟨ht.answer?_of_le _ (Nat.le_refl _), rfl⟩
  have hnext := nextTicket_send s c
  rcases hnew with hmailbox | ⟨hanswer, hmailbox⟩
  · refine ⟨?_, by rw [hmailbox]; exact ht.nodup, by rwa [hmailbox], by rwa [hnext]⟩
    rw [hmailbox, hnext]
    exact fun p hp => Nat.lt_succ_of_lt (ht.lt_of_mem p hp)
  · refine ⟨?_, ?_, ?_, by rwa [hnext]⟩
    · rw [hmailbox, hnext]
      intro p hp
      rcases List.mem_append.mp hp with hp | hp
      · exact Nat.lt_succ_of_lt (ht.lt_of_mem p hp)
      · rw [List.mem_singleton.mp hp]
        exact Nat.lt_succ_self _
    · rw [hmailbox, List.map_append]
      refine List.nodup_append.mpr ⟨ht.nodup, by simp, ?_⟩
      rintro a ha b hb rfl
      obtain ⟨p, hp, rfl⟩ := List.mem_map.mp ha
      exact hne p hp (by simpa using hb)
    · rw [hmailbox]
      intro p hp
      rcases List.mem_append.mp hp with hp | hp
      · exact hmem p hp
      · rwa [List.mem_singleton.mp hp]

/-- The ticket of a call that is taken is that of no call behind it. -/
theorem nodup_of_serves (ht : s.Tickets) {ticket : Nat} {call : Call} {behind : List (Nat × Call)}
    (hs : s.Serves ticket call behind s') :
    ticket ∉ (s'.mailbox ++ behind).map Prod.fst ∧
      (s'.mailbox.map Prod.fst ++ behind.map Prod.fst).Nodup := by
  have hnodup := ht.nodup
  rw [hs.mailbox_eq, List.map_cons, List.nodup_cons] at hnodup
  exact ⟨hnodup.1, List.map_append ▸ hnodup.2⟩

theorem serves (ht : s.Tickets) {ticket : Nat} {call : Call} {behind : List (Nat × Call)}
    (hs : s.Serves ticket call behind s') : s'.Tickets := by
  obtain ⟨hticket, hnodup⟩ := ht.nodup_of_serves hs
  have hold : ∀ p ∈ s'.mailbox ++ behind, p ∈ s.mailbox := fun p hp => by
    rw [hs.mailbox_eq]
    exact List.mem_cons_of_mem _ hp
  have hin : (ticket, call) ∈ s.mailbox := by
    rw [hs.mailbox_eq]
    exact List.mem_cons_self
  refine ⟨fun p hp => ?_, (List.nodup_append.mp hnodup).1, fun p hp => ?_, fun t hle => ?_⟩
  · rw [hs.nextTicket_eq]
    exact ht.lt_of_mem p (hold p (List.mem_append_left _ hp))
  · have hbehind : p.1 ∉ behind.map Prod.fst := fun hmem =>
      (List.nodup_append.mp hnodup).2.2 _ (List.mem_map_of_mem hp) _ hmem rfl
    have hne : p.1 ≠ ticket := fun heq =>
      hticket (heq ▸ List.mem_map_of_mem (List.mem_append_left _ hp))
    rw [answer?_of_serves hs, if_neg hbehind, if_neg hne]
    exact ht.answer?_of_mem p (hold p (List.mem_append_left _ hp))
  · rw [hs.nextTicket_eq] at hle
    have hbehind : t ∉ behind.map Prod.fst := fun hmem => by
      obtain ⟨p, hp, rfl⟩ := List.mem_map.mp hmem
      exact absurd (ht.lt_of_mem p (hold p (List.mem_append_right _ hp))) (by omega)
    have hne : t ≠ ticket := fun heq => absurd (ht.lt_of_mem _ hin) (by simp only; omega)
    rw [answer?_of_serves hs, if_neg hbehind, if_neg hne]
    exact ht.answer?_of_le t hle

/-- An answer that is there stays. -/
theorem answer?_serves (ht : s.Tickets) {t ticket : Nat} {call : Call}
    {behind : List (Nat × Call)} (hs : s.Serves t call behind s') {a : Answer}
    (h : s.answer? ticket = some a) : ticket ≠ t ∧ s'.answer? ticket = some a := by
  have hout : ∀ p ∈ s.mailbox, p.1 ≠ ticket := by
    rintro p hp rfl
    cases (ht.answer?_of_mem p hp).symm.trans h
  rw [hs.mailbox_eq] at hout
  have hne : ticket ≠ t := Ne.symm (hout _ List.mem_cons_self)
  refine ⟨hne, ?_⟩
  rw [answer?_of_serves hs, if_neg, if_neg hne]
  · exact h
  · intro hmem
    obtain ⟨p, hp, heq⟩ := List.mem_map.mp hmem
    exact hout p (List.mem_cons_of_mem _ (List.mem_append_right _ hp)) heq

/-- **Every move keeps tickets apart.** -/
theorem concerns (ht : s.Tickets) (hc : s.Concerns m s') : s'.Tickets := by
  cases hc with
  | nothing _ quiet => exact ht.congr quiet.mailbox_eq quiet.answers_eq quiet.nextTicket_eq
  | called _ c quiet =>
    exact (ht.send c).congr quiet.mailbox_eq quiet.answers_eq quiet.nextTicket_eq
  | served serves =>
    obtain ⟨ticket, call, behind, hserves⟩ := serve?_cases serves
    exact ht.serves hserves
  | acted _ _ hmailbox hanswers hnext => exact ht.congr hmailbox hanswers hnext

/-- **An answer that is there stays,** whatever happens. -/
theorem answer?_concerns (ht : s.Tickets) (hc : s.Concerns m s') {ticket : Nat} {a : Answer}
    (h : s.answer? ticket = some a) : s'.answer? ticket = some a := by
  cases hc with
  | nothing _ quiet => rwa [answer?_congr quiet.answers_eq]
  | called _ c quiet =>
    rw [answer?_congr quiet.answers_eq, answer?_send_of_ne]
    · exact h
    · rintro rfl
      cases (ht.answer?_of_le _ (Nat.le_refl _)).symm.trans h
  | served serves =>
    obtain ⟨t, call, behind, hserves⟩ := serve?_cases serves
    exact (ht.answer?_serves hserves h).2
  | acted _ _ _ hanswers => rwa [answer?_congr hanswers]

end Tickets

/-- No ticket is given out again. -/
theorem Concerns.nextTicket_le (hc : s.Concerns m s') : s.nextTicket ≤ s'.nextTicket := by
  cases hc with
  | nothing _ quiet => exact Nat.le_of_eq quiet.nextTicket_eq.symm
  | called _ c quiet =>
    rw [quiet.nextTicket_eq, nextTicket_send]
    exact Nat.le_succ _
  | served serves =>
    obtain ⟨ticket, call, behind, hserves⟩ := serve?_cases serves
    exact Nat.le_of_eq hserves.nextTicket_eq.symm
  | acted _ _ _ _ hnext => exact Nat.le_of_eq hnext.symm

theorem mem_mailbox_send {p : Nat × Call} (c : Call) (hp : p ∈ s.mailbox) :
    p ∈ (s.send c).2.mailbox := by
  rw [send]
  split
  · exact hp
  · exact List.mem_append_left _ hp

theorem mem_mailbox_of_send {p : Nat × Call} {c : Call} (hp : p ∈ (s.send c).2.mailbox) :
    p ∈ s.mailbox ∨ p = (s.nextTicket, c) := by
  rw [send] at hp
  split at hp
  · exact Or.inl hp
  · exact (List.mem_append.mp hp).imp_right List.mem_singleton.mp

/-- A call stays in the mailbox while the sequencer takes none. -/
theorem Concerns.mem_mailbox (hc : s.Concerns m s') (hm : m ≠ .event .serve) {p : Nat × Call}
    (hp : p ∈ s.mailbox) : p ∈ s'.mailbox := by
  cases hc with
  | nothing _ quiet => exact quiet.mailbox_eq ▸ hp
  | called _ c quiet => exact quiet.mailbox_eq ▸ mem_mailbox_send c hp
  | served => exact absurd rfl hm
  | acted _ _ hmailbox => exact hmailbox ▸ hp

theorem Concerns.exists_serves (hc : s.Concerns (.event .serve) s') :
    ∃ ticket call behind, s.Serves ticket call behind s' := by
  cases hc with
  | served serves => exact serve?_cases serves
  | nothing other | called other | acted other => exact absurd rfl other

/-! ### Calls that are left behind -/

/-- When the sequencer has stopped, no call waits. -/
def Drained (s : Service) : Prop := s.sequencer.stopped = true → s.mailbox = []

theorem Quiet.stopped_eq (hq : s.Quiet s') : s'.sequencer.stopped = s.sequencer.stopped := by
  obtain ⟨metrics, heq⟩ := hq.sequencer_eq
  rw [heq]

theorem Drained.send (hd : s.Drained) (c : Call) : (s.send c).2.Drained := by
  intro hstop
  rw [sequencer_send] at hstop
  rw [Service.send, if_pos hstop]
  exact hd hstop

/-- **Every move leaves no call waiting** for a sequencer that has stopped. -/
theorem Drained.concerns (hd : s.Drained) (hc : s.Concerns m s') : s'.Drained := by
  cases hc with
  | nothing _ quiet => exact fun hstop => quiet.mailbox_eq ▸ hd (quiet.stopped_eq ▸ hstop)
  | called _ c quiet =>
    exact fun hstop => quiet.mailbox_eq ▸ hd.send c (quiet.stopped_eq ▸ hstop)
  | served serves =>
    obtain ⟨ticket, call, behind, hserves⟩ := serve?_cases serves
    exact hserves.mailbox_of_stopped
  | acted _ _ hmailbox _ _ _ _ hempty => exact fun hstop => hmailbox ▸ hempty hstop

/-! ### Calls for a subscription -/

/-- The sequencer as it takes the call for a subscription under a ticket, if it does so now. -/
def Moment.granted? (now : Moment) (ticket : Nat) : Option Sequencer :=
  match now.move, now.before.mailbox with
  | .event .serve, (t, .subscribe) :: _ => if t = ticket then some now.before.sequencer else none
  | _, _ => none

/-- The same for the handler of a stream in some phase. -/
def Moment.grantedTo? (now : Moment) (phase : DeliverPhase) : Option Sequencer :=
  match phase with
  | .subscribing ticket => now.granted? ticket
  | _ => none

theorem Moment.granted?_of_ne {now : Moment} (hm : now.move ≠ .event .serve) (ticket : Nat) :
    now.granted? ticket = none := by
  rw [granted?]
  split
  next heq _ => exact absurd heq hm
  next => rfl

theorem Moment.grantedTo?_of_ne {now : Moment} (hm : now.move ≠ .event .serve)
    (phase : DeliverPhase) : now.grantedTo? phase = none := by
  cases phase with
  | subscribing ticket => exact granted?_of_ne hm ticket
  | _ => rfl

/-- What became of the call for a subscription under a ticket: it waits, it was taken in the state
`q` and answered with the place reached there, or it cannot be taken any more. -/
inductive Asked (s : Service) (ticket : Nat) : Option Sequencer → Prop
  | waiting (mem : (ticket, Call.subscribe) ∈ s.mailbox) : Asked s ticket none
  | granted (q : Sequencer)
    (answered : s.answer? ticket = some (.ok (.subscription ⟨q.published.length⟩)))
    (advances : q.Advances s.sequencer) : Asked s ticket (some q)
  | denied (e : ServiceError) (answered : s.answer? ticket = some (.error e))
    (stopped : s.sequencer.stopped = true) : Asked s ticket none

theorem asked_send (s : Service) : (s.send .subscribe).2.Asked s.nextTicket none := by
  by_cases hstop : s.sequencer.stopped = true
  · refine .denied .mailboxClosed ?_ ((sequencer_send s _).symm ▸ hstop)
    rw [send, if_pos hstop]
    exact List.lookup_cons_self
  · refine .waiting ?_
    rw [send, if_neg hstop]
    exact List.mem_append_right _ List.mem_cons_self

namespace Asked

variable {ticket : Nat} {place : Option Sequencer}

/-- Another service has the same calls and answers, and a sequencer that went forward. -/
theorem congr (ha : s.Asked ticket place) (hmailbox : ∀ p ∈ s.mailbox, p ∈ s'.mailbox)
    (hanswer : ∀ a, s.answer? ticket = some a → s'.answer? ticket = some a)
    (hadvances : s.sequencer.Advances s'.sequencer) : s'.Asked ticket place := by
  cases ha with
  | waiting mem => exact .waiting (hmailbox _ mem)
  | granted q answered advances =>
    exact .granted q (hanswer _ answered) (advances.trans hadvances)
  | denied e answered stopped => exact .denied e (hanswer _ answered) (hadvances.stopped stopped)

theorem granted?_of_serves_ne {t : Nat} {call : Call} {behind : List (Nat × Call)}
    (hs : s.Serves t call behind s') (hne : ticket ≠ t) :
    (⟨s, .event .serve⟩ : Moment).granted? ticket = none := by
  simp only [Moment.granted?, hs.mailbox_eq]
  split
  next heq => cases heq; exact if_neg (Ne.symm hne)
  next => rfl

/-- The sequencer takes some call, maybe the one under the ticket. -/
theorem serves (ha : s.Asked ticket place) (ht : s.Tickets) {t : Nat} {call : Call}
    {behind : List (Nat × Call)} (hs : s.Serves t call behind s')
    (hadvances : s.sequencer.Advances s'.sequencer) :
    s'.Asked ticket (place.or ((⟨s, .event .serve⟩ : Moment).granted? ticket)) := by
  obtain ⟨hfirst, -⟩ := ht.nodup_of_serves hs
  cases ha with
  | waiting mem =>
    rw [hs.mailbox_eq, List.mem_cons, List.mem_append] at mem
    rcases mem with heq | hmem | hmem
    · cases heq
      have hgranted : (⟨s, .event .serve⟩ : Moment).granted? ticket = some s.sequencer := by
        simp only [Moment.granted?, hs.mailbox_eq, if_true]
      rw [hgranted]
      refine .granted s.sequencer ?_ hadvances
      rw [answer?_of_serves hs, if_neg, if_pos rfl]
      · rfl
      · exact fun hmem => hfirst (List.map_append ▸ List.mem_append_right _ hmem)
    · have hmem' := List.mem_map_of_mem (f := Prod.fst) (List.mem_append_left behind hmem)
      rw [granted?_of_serves_ne hs (fun heq => hfirst (heq ▸ hmem'))]
      exact .waiting hmem
    · have hmem' := List.mem_map_of_mem (f := Prod.fst) (List.mem_append_right s'.mailbox hmem)
      rw [granted?_of_serves_ne hs (fun heq => hfirst (heq ▸ hmem'))]
      refine .denied .responseClosed ?_ (hs.stopped (List.ne_nil_of_mem hmem))
      rw [answer?_of_serves hs, if_pos (List.mem_map_of_mem (f := Prod.fst) hmem)]
  | granted q answered advances =>
    exact .granted q (ht.answer?_serves hs answered).2 (advances.trans hadvances)
  | denied e answered stopped =>
    obtain ⟨hne, hanswer⟩ := ht.answer?_serves hs answered
    rw [granted?_of_serves_ne hs hne]
    exact .denied e hanswer (hadvances.stopped stopped)

/-- **Every move keeps account of a call for a subscription.** -/
theorem concerns (ha : s.Asked ticket place) (ht : s.Tickets) (hc : s.Concerns m s') :
    s'.Asked ticket (place.or ((⟨s, m⟩ : Moment).granted? ticket)) := by
  by_cases hm : m = .event .serve
  · subst hm
    obtain ⟨t, call, behind, hserves⟩ := hc.exists_serves
    exact ha.serves ht hserves hc.advances
  · rw [Moment.granted?_of_ne hm, Option.or_none]
    exact ha.congr (fun p => hc.mem_mailbox hm) (fun a => ht.answer?_concerns hc) hc.advances

/-- Who gets a subscription is given the place that was reached when the call was taken. -/
theorem of_granted (ha : s.Asked ticket place) (ht : s.Tickets) {sub : Subscription}
    (h : s.answer? ticket = some (.ok (.subscription sub))) :
    ∃ q, place = some q ∧ q.Advances s.sequencer ∧ sub = ⟨q.published.length⟩ := by
  cases ha with
  | waiting mem => cases (ht.answer?_of_mem _ mem).symm.trans h
  | granted q answered advances =>
    cases answered.symm.trans h
    exact ⟨q, rfl, advances, rfl⟩
  | denied e answered stopped => cases answered.symm.trans h

/-- Who gets none is told so because the sequencer has stopped. -/
theorem of_denied (ha : s.Asked ticket place) (ht : s.Tickets) {a : Answer}
    (h : s.answer? ticket = some a) (hnone : ∀ sub, a ≠ .ok (.subscription sub)) :
    place = none ∧ s.sequencer.stopped = true := by
  cases ha with
  | waiting mem => cases (ht.answer?_of_mem _ mem).symm.trans h
  | granted q answered advances =>
    cases answered.symm.trans h
    exact absurd rfl (hnone _)
  | denied e answered stopped => exact ⟨rfl, stopped⟩

end Asked

end Service

end OrderingService
