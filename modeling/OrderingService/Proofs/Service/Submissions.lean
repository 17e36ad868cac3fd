import OrderingService.Proofs.Service.Tickets

/-!
# Submissions and what comes of them

A submission is a call that waits in the mailbox under its ticket. The sequencer takes calls in the
order of their tickets, and what it then adds to its ledger it adds on behalf of that ticket: the
transaction of the submission, once, if it answers with a receipt, and nothing if it answers with an
error. Nothing is added at any other moment.

What is added is read off the states before and after a moment, not off the answer, so that the two
can be compared.

## Main definitions

* `Service.Moment.appended` — what is added to the ledger at a moment
* `Service.appendedFor` — what is added on behalf of a ticket
* `Service.orders` — everything that is added, with the tickets
* `Service.Queued` — the ledger and the mailbox are in the order of the tickets
* `Service.Submission` — what became of a submission

## Main results

* `Service.Queued.move` — every move keeps the order of the tickets
* `Service.Submission.move` — every move keeps account of a submission
* `Service.Submission.exists_answered` — a submission that waits can be taken
-/

namespace OrderingService

namespace Service

variable {s s' : Service} {m : Move} {trace : List Moment} {now : Moment} {ticket : Nat}
  {payload : Bytes}

/-! ### What is added, and for whom -/

namespace Moment

variable (now : Moment)

/-- The state after a moment. -/
def after : Service := (now.before.move? now.move).getD now.before

/-- What is added to the ledger. -/
def appended : List Accepted :=
  now.after.sequencer.ledger.drop now.before.sequencer.ledger.length

/-- The ticket of the call that the sequencer takes, if it takes one. -/
def taking? : Option Nat :=
  match now.move, now.before.mailbox with
  | .event .serve, (ticket, _) :: _ => some ticket
  | _, _ => none

/-- What is added to the ledger on behalf of a ticket. -/
def appendedFor (ticket : Nat) : List Accepted :=
  if now.taking? = some ticket then now.appended else []

/-- What is added to the ledger, with the ticket on behalf of which it is added. -/
def orders : List (Nat × Accepted) :=
  match now.taking? with
  | some ticket => now.appended.map (ticket, ·)
  | none => []

end Moment

/-- What is added to the ledger on behalf of a ticket. -/
def appendedFor (trace : List Moment) (ticket : Nat) : List Accepted :=
  trace.flatMap (·.appendedFor ticket)

/-- What is added to the ledger, with the tickets on behalf of which it is added. -/
def orders (trace : List Moment) : List (Nat × Accepted) := trace.flatMap (·.orders)

theorem appendedFor_concat (trace : List Moment) (now : Moment) (ticket : Nat) :
    appendedFor (trace ++ [now]) ticket = appendedFor trace ticket ++ now.appendedFor ticket := by
  rw [appendedFor, List.flatMap_append, List.flatMap_singleton]
  rfl

theorem orders_concat (trace : List Moment) (now : Moment) :
    orders (trace ++ [now]) = orders trace ++ now.orders := by
  rw [orders, List.flatMap_append, List.flatMap_singleton]
  rfl

theorem mem_orders {a : Accepted} :
    (ticket, a) ∈ orders trace ↔ a ∈ appendedFor trace ticket := by
  have hmoment : ∀ now : Moment, (ticket, a) ∈ now.orders ↔ a ∈ now.appendedFor ticket := by
    intro now
    rw [Moment.orders, Moment.appendedFor]
    cases now.taking? with
    | none => simp
    | some t => by_cases ht : t = ticket <;> simp [ht]
  rw [orders, appendedFor, List.mem_flatMap, List.mem_flatMap]
  simp only [hmoment]

namespace Moment

theorem after_eq (h : s.move? m = some s') : (⟨s, m⟩ : Moment).after = s' := by
  rw [after, h]
  rfl

theorem taking?_of_ne (hm : now.move ≠ .event .serve) : now.taking? = none := by
  rw [taking?]
  split
  next heq _ => exact absurd heq hm
  next => rfl

theorem orders_of_ne (hm : now.move ≠ .event .serve) : now.orders = [] := by
  rw [orders, taking?_of_ne hm]

theorem appendedFor_of_ne (hm : now.move ≠ .event .serve) (ticket : Nat) :
    now.appendedFor ticket = [] := by
  rw [appendedFor, taking?_of_ne hm, if_neg nofun]

theorem taking?_of_serves {call : Call} {behind : List (Nat × Call)}
    (hs : s.Serves ticket call behind s') :
    (⟨s, .event .serve⟩ : Moment).taking? = some ticket := by
  rw [taking?, hs.mailbox_eq]

theorem appended_of_ledger_eq {added : List Accepted} (h : s.move? m = some s')
    (hledger : s'.sequencer.ledger = s.sequencer.ledger ++ added) :
    (⟨s, m⟩ : Moment).appended = added := by
  rw [appended, after_eq h, hledger, List.drop_left]

end Moment

theorem Quiet.ledger_eq (hq : s.Quiet s') : s'.sequencer.ledger = s.sequencer.ledger := by
  obtain ⟨metrics, heq⟩ := hq.sequencer_eq
  rw [heq]
  rfl

/-- Unless it takes a call, the sequencer adds nothing to its ledger. -/
theorem Concerns.ledger_eq (hc : s.Concerns m s') (hm : m ≠ .event .serve) :
    s'.sequencer.ledger = s.sequencer.ledger := by
  cases hc with
  | nothing _ quiet => exact quiet.ledger_eq
  | called _ c quiet => exact sequencer_send s c ▸ quiet.ledger_eq
  | served => exact absurd rfl hm
  | @acted m s' action answer _ effect _ _ _ uncalled =>
    have hnone : Sequencer.Entry.accepted? ⟨s.now, action, answer⟩ = none := by
      rw [Sequencer.Entry.accepted?]
      split
      next heq _ => exact absurd heq (uncalled _)
      next => rfl
    rw [effect.ledger_eq, hnone, Option.toList_none, List.append_nil]

/-- A call that is taken adds to the ledger the submission that is accepted, and nothing else. -/
theorem Serves.ledger_eq {call : Call} {behind : List (Nat × Call)}
    (hs : s.Serves ticket call behind s') : s'.sequencer.ledger = s.sequencer.ledger ++
      (Sequencer.Entry.accepted?
        ⟨s.now, .call call, (s.sequencer.handle s.now call).1⟩).toList := by
  rw [hs.sequencer_eq]
  exact (Sequencer.handle_effect s.sequencer s.now call).ledger_eq

/-! ### The order of tickets -/

/-- What is in the ledger and then what is in the mailbox is in the order of the tickets. -/
structure Queued (s : Service) (trace : List Moment) : Prop where
  /-- Everything in the ledger was added on behalf of some ticket. -/
  ledger_eq : (orders trace).map Prod.snd = s.sequencer.ledger
  increasing : ((orders trace).map Prod.fst ++ s.mailbox.map Prod.fst).Pairwise (· < ·)
  lt_nextTicket : ∀ t ∈ (orders trace).map Prod.fst ++ s.mailbox.map Prod.fst, t < s.nextTicket

namespace Queued

theorem new (c : SequencerConfig) (maxPayload : Nat) : (Service.new c maxPayload).Queued [] where
  ledger_eq := rfl
  increasing := .nil
  lt_nextTicket := nofun

theorem congr (hq : s.Queued trace) (hledger : s'.sequencer.ledger = s.sequencer.ledger)
    (hmailbox : s'.mailbox = s.mailbox) (hnext : s'.nextTicket = s.nextTicket) :
    s'.Queued trace where
  ledger_eq := hledger ▸ hq.ledger_eq
  increasing := hmailbox ▸ hq.increasing
  lt_nextTicket := hmailbox ▸ hnext ▸ hq.lt_nextTicket

theorem send (hq : s.Queued trace) (c : Call) : (s.send c).2.Queued trace := by
  have hlt : ∀ t ∈ (orders trace).map Prod.fst ++ s.mailbox.map Prod.fst, t < s.nextTicket + 1 :=
    fun t ht => Nat.lt_succ_of_lt (hq.lt_nextTicket t ht)
  rw [Service.send]
  split
  · exact ⟨hq.ledger_eq, hq.increasing, hlt⟩
  · refine ⟨hq.ledger_eq, ?_, fun t ht => ?_⟩
    · rw [List.map_append, ← List.append_assoc, List.pairwise_append]
      refine ⟨hq.increasing, List.pairwise_singleton _ _, fun t ht next hnext => ?_⟩
      rw [List.mem_singleton.mp hnext]
      exact hq.lt_nextTicket t ht
    · rw [List.map_append, ← List.append_assoc, List.mem_append] at ht
      rcases ht with ht | ht
      · exact hlt t ht
      · rw [List.mem_singleton.mp ht]
        exact Nat.lt_succ_self _

theorem serves (hq : s.Queued trace) {call : Call} {behind : List (Nat × Call)}
    (hs : s.Serves ticket call behind s') (h : s.move? (.event .serve) = some s') :
    s'.Queued (trace ++ [⟨s, .event .serve⟩]) := by
  have hledger := hs.ledger_eq
  have hnew := Moment.appended_of_ledger_eq h hledger
  generalize Sequencer.Entry.accepted? _ = accepted? at hledger hnew
  have horders : orders (trace ++ [⟨s, .event .serve⟩])
      = orders trace ++ accepted?.toList.map (ticket, ·) := by
    rw [orders_concat, Moment.orders, Moment.taking?_of_serves hs, hnew]
  -- The tickets lose only those that were left behind, and the one taken if it is refused.
  have hsublist : List.Sublist
      ((orders (trace ++ [⟨s, .event .serve⟩])).map Prod.fst ++ s'.mailbox.map Prod.fst)
      ((orders trace).map Prod.fst ++ s.mailbox.map Prod.fst) := by
    rw [horders, hs.mailbox_eq, List.map_append, List.append_assoc, List.map_cons, List.map_append]
    refine List.Sublist.append_left ?_ _
    cases accepted? with
    | none => exact (List.sublist_append_left _ _).cons _
    | some a => exact (List.sublist_append_left _ _).cons_cons _
  refine ⟨?_, hq.increasing.sublist hsublist, fun t ht => ?_⟩
  · rw [horders, hledger, List.map_append, hq.ledger_eq]
    cases accepted? <;> rfl
  · rw [hs.nextTicket_eq]
    exact hq.lt_nextTicket t (hsublist.subset ht)

/-- **Every move keeps the order of the tickets.** -/
theorem move (hq : s.Queued trace) (h : s.move? m = some s') :
    s'.Queued (trace ++ [⟨s, m⟩]) := by
  have hc := move?_concerns h
  have hledger := hc.ledger_eq
  have hold : m ≠ .event .serve → s'.Queued trace → s'.Queued (trace ++ [⟨s, m⟩]) := by
    intro hm hq'
    have horders : orders (trace ++ [⟨s, m⟩]) = orders trace := by
      rw [orders_concat, Moment.orders_of_ne hm, List.append_nil]
    exact ⟨horders ▸ hq'.ledger_eq, horders ▸ hq'.increasing, horders ▸ hq'.lt_nextTicket⟩
  cases hc with
  | nothing other quiet =>
    exact hold other (hq.congr (hledger other) quiet.mailbox_eq quiet.nextTicket_eq)
  | called other c quiet =>
    exact hold other ((hq.send c).congr quiet.ledger_eq quiet.mailbox_eq quiet.nextTicket_eq)
  | served serves =>
    obtain ⟨ticket, call, behind, hserves⟩ := serve?_cases serves
    exact hq.serves hserves h
  | acted other _ hmailbox _ hnext =>
    exact hold other (hq.congr (hledger other) hmailbox hnext)

end Queued

/-! ### Submissions -/

/-- What became of the submission of a payload under a ticket: it waits, it was answered with a
receipt and added to the ledger, or it was answered with an error and nothing was added. -/
inductive Submission (s : Service) (trace : List Moment) (ticket : Nat) (payload : Bytes) : Prop
  | waiting (mem : (ticket, Call.submit payload) ∈ s.mailbox)
    (nothing : appendedFor trace ticket = [])
  | accepted (receipt : Receipt) (answered : s.answer? ticket = some (.ok (.receipt receipt)))
    (appended : appendedFor trace ticket = [⟨payload, receipt⟩])
  | refused (e : ServiceError) (answered : s.answer? ticket = some (.error e))
    (nothing : appendedFor trace ticket = [])

/-- Before a ticket is given out, nothing is added on behalf of it. -/
theorem Queued.appendedFor_eq_nil (hq : s.Queued trace) (hm : m ≠ .event .serve) :
    appendedFor (trace ++ [⟨s, m⟩]) s.nextTicket = [] := by
  rw [appendedFor_concat, Moment.appendedFor_of_ne hm, List.append_nil]
  refine List.eq_nil_iff_forall_not_mem.mpr fun a ha => ?_
  have hmem := List.mem_map_of_mem (f := Prod.fst) (mem_orders.mpr ha)
  exact absurd (hq.lt_nextTicket _ (List.mem_append_left _ hmem)) (Nat.lt_irrefl _)

/-- A new submission, on behalf of which nothing was added yet. -/
theorem submission_send (s : Service) (payload : Bytes)
    (hnew : appendedFor trace s.nextTicket = []) :
    (s.send (.submit payload)).2.Submission trace s.nextTicket payload := by
  by_cases hstop : s.sequencer.stopped = true
  · refine .refused .mailboxClosed ?_ hnew
    rw [send, if_pos hstop]
    exact List.lookup_cons_self
  · refine .waiting ?_ hnew
    rw [send, if_neg hstop]
    exact List.mem_append_right _ List.mem_cons_self

namespace Submission

/-- Another service has the same calls and answers, and nothing was added meanwhile. -/
theorem congr (hs : s.Submission trace ticket payload) {trace' : List Moment}
    (hmailbox : ∀ p ∈ s.mailbox, p ∈ s'.mailbox)
    (hanswer : ∀ a, s.answer? ticket = some a → s'.answer? ticket = some a)
    (happended : appendedFor trace' ticket = appendedFor trace ticket) :
    s'.Submission trace' ticket payload := by
  cases hs with
  | waiting mem nothing => exact .waiting (hmailbox _ mem) (happended.trans nothing)
  | accepted receipt answered appended =>
    exact .accepted receipt (hanswer _ answered) (happended.trans appended)
  | refused e answered nothing => exact .refused e (hanswer _ answered) (happended.trans nothing)

/-- A submission is answered with a receipt or with an error. -/
theorem answer_cases (q : Sequencer) (time : Nat) (payload : Bytes) :
    (∃ receipt, (q.handle time (.submit payload)).1 = .ok (.receipt receipt)) ∨
      ∃ e, (q.handle time (.submit payload)).1 = .error e := by
  have he := Sequencer.handle_effect q time (.submit payload)
  generalize (q.handle time (.submit payload)).1 = answer at he
  generalize (q.handle time (.submit payload)).2 = next at he
  cases he with
  | refused => exact Or.inr ⟨_, rfl⟩
  | appended | filled => exact Or.inl ⟨_, rfl⟩
  | stopped _ last => rcases last with heq | heq <;> cases heq

/-- The sequencer takes some call, maybe the submission. -/
theorem serves (hs : s.Submission trace ticket payload) (ht : s.Tickets) {t : Nat} {call : Call}
    {behind : List (Nat × Call)} (hserves : s.Serves t call behind s')
    (h : s.move? (.event .serve) = some s') :
    s'.Submission (trace ++ [⟨s, .event .serve⟩]) ticket payload := by
  obtain ⟨hfirst, -⟩ := ht.nodup_of_serves hserves
  have hother : ticket ≠ t → appendedFor (trace ++ [⟨s, .event .serve⟩]) ticket
      = appendedFor trace ticket := by
    intro hne
    rw [appendedFor_concat, Moment.appendedFor, Moment.taking?_of_serves hserves,
      if_neg fun heq => hne (Option.some.inj heq).symm, List.append_nil]
  have hlate : ∀ {call'}, (ticket, call') ∈ s'.mailbox ++ behind → ticket ≠ t := by
    rintro call' hmem rfl
    exact hfirst (List.mem_map_of_mem (f := Prod.fst) hmem)
  cases hs with
  | waiting mem nothing =>
    rw [hserves.mailbox_eq, List.mem_cons, List.mem_append] at mem
    rcases mem with heq | hmem | hmem
    · cases heq
      have hadded := Moment.appended_of_ledger_eq h hserves.ledger_eq
      have hanswer : s'.answer? ticket
          = some (s.sequencer.handle s.now (.submit payload)).1 := by
        rw [answer?_of_serves hserves, if_neg, if_pos rfl]
        exact fun hmem => hfirst (List.map_append ▸ List.mem_append_right _ hmem)
      have happended : appendedFor (trace ++ [⟨s, .event .serve⟩]) ticket
          = (⟨s, .event .serve⟩ : Moment).appended := by
        rw [appendedFor_concat, nothing, List.nil_append, Moment.appendedFor,
          Moment.taking?_of_serves hserves, if_pos rfl]
      rcases answer_cases s.sequencer s.now payload with ⟨receipt, heq⟩ | ⟨e, heq⟩
      · rw [heq] at hadded hanswer
        exact .accepted receipt hanswer (happended.trans hadded)
      · rw [heq] at hadded hanswer
        exact .refused e hanswer (happended.trans hadded)
    · have hne := hlate (List.mem_append_left _ hmem)
      exact .waiting hmem ((hother hne).trans nothing)
    · have hne := hlate (List.mem_append_right _ hmem)
      refine .refused .responseClosed ?_ ((hother hne).trans nothing)
      rw [answer?_of_serves hserves, if_pos (List.mem_map_of_mem (f := Prod.fst) hmem)]
  | accepted receipt answered appended =>
    obtain ⟨hne, hanswer⟩ := ht.answer?_serves hserves answered
    exact .accepted receipt hanswer ((hother hne).trans appended)
  | refused e answered nothing =>
    obtain ⟨hne, hanswer⟩ := ht.answer?_serves hserves answered
    exact .refused e hanswer ((hother hne).trans nothing)

/-- **Every move keeps account of a submission.** -/
theorem move (hs : s.Submission trace ticket payload) (ht : s.Tickets)
    (h : s.move? m = some s') : s'.Submission (trace ++ [⟨s, m⟩]) ticket payload := by
  have hc := move?_concerns h
  by_cases hm : m = .event .serve
  · subst hm
    obtain ⟨t, call, behind, hserves⟩ := hc.exists_serves
    exact hs.serves ht hserves h
  · refine hs.congr (fun p => hc.mem_mailbox hm) (fun a => ht.answer?_concerns hc) ?_
    rw [appendedFor_concat, Moment.appendedFor_of_ne hm, List.append_nil]

theorem exists_serve? (hne : s.mailbox ≠ []) : ∃ s', s.serve? = some s' := by
  rw [serve?]
  split
  next hempty => exact absurd hempty hne
  next =>
    simp only
    split
    · exact ⟨_, rfl⟩
    · exact ⟨_, rfl⟩

/-- What was added on behalf of a submission is what its answer says. -/
theorem appendedFor_eq (hs : s.Submission trace ticket payload) (ht : s.Tickets) {answer : Answer}
    (h : s.answer? ticket = some answer) :
    (∃ receipt, answer = .ok (.receipt receipt) ∧
        appendedFor trace ticket = [⟨payload, receipt⟩]) ∨
      ∃ e, answer = .error e ∧ appendedFor trace ticket = [] := by
  cases hs with
  | waiting mem => cases (ht.answer?_of_mem _ mem).symm.trans h
  | accepted receipt answered appended =>
    cases answered.symm.trans h
    exact Or.inl ⟨receipt, rfl, appended⟩
  | refused e answered nothing =>
    cases answered.symm.trans h
    exact Or.inr ⟨e, rfl, nothing⟩

/-- **A submission that waits can be taken:** the sequencer only has to go on with its mailbox. -/
theorem exists_answered (hs : s.Submission trace ticket payload) (ht : s.Tickets) :
    ∃ n trace' s' answer, s.run? (List.replicate n (.event .serve)) = some (trace', s') ∧
      s'.answer? ticket = some answer ∧ s'.broadcasts = s.broadcasts := by
  generalize hlength : s.mailbox.length = length
  induction length using Nat.strongRecOn generalizing s trace with
  | ind length ih =>
    cases hs with
    | accepted receipt answered => exact ⟨0, [], s, _, rfl, answered, rfl⟩
    | refused e answered => exact ⟨0, [], s, _, rfl, answered, rfl⟩
    | waiting mem nothing =>
      obtain ⟨next, hserve⟩ := exists_serve? (List.ne_nil_of_mem mem)
      obtain ⟨t, call, behind, hserves⟩ := serve?_cases hserve
      have hmove : s.move? (.event .serve) = some next := hserve
      have hlt : next.mailbox.length < length := by
        rw [← hlength, hserves.mailbox_eq, List.length_cons, List.length_append]
        omega
      obtain ⟨n, trace', s', answer, hrun, hanswer, hsame⟩ :=
        ih _ hlt ((Submission.waiting mem nothing).move ht hmove)
          (ht.concerns (move?_concerns hmove)) rfl
      exact ⟨n + 1, _, s', answer, run?_cons hmove hrun, hanswer,
        hsame.trans hserves.broadcasts_eq⟩

end Submission

end Service

end OrderingService
