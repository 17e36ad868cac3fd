import Mathlib.Data.List.Nodup
import OrderingService.Proofs.Service.Submissions

/-!
# Clients of a sequencer

Any number of clients share one sequencer. Each submits payloads one after the other: it puts a
submission into the mailbox, waits for the answer, and takes it. The mailbox has a bound, and a
client that finds it full does not get its submission in. In between, anything else may happen to
the service, except that nobody else submits.

What the clients can see is the history of the run: which submission was sent, and which answer was
returned, in this order. A submission counts as sent when it is in the mailbox, which is not before
its client began to submit.

## Main definitions

* `Crowd`, `Crowd.act?` — a service with its clients, and what can happen
* `Crowd.run?` — a run, with its moments
* `Crowd.history` — what the clients can see of it
* `Crowd.Kept` — what every run keeps

## Main results

* `Crowd.run?_kept` — every submission is accounted for, under increasing tickets
-/

namespace OrderingService

/-- A submission that a client has sent. -/
structure Submitted where
  client : Nat
  /-- The ticket under which the answer is found. -/
  ticket : Nat
  payload : Bytes
  deriving DecidableEq

/-- Whether a move puts a submission into the mailbox, or may do so. -/
def Service.Move.submits : Service.Move → Bool
  | .call (.submit _) => true
  | .event (.broadcast _) => true
  | _ => false

/-- A service with clients. -/
structure Crowd where
  service : Service
  /-- The ticket and the payload of the submission that a client waits for, if it waits. -/
  clients : List (Option (Nat × Bytes))
  /-- How many calls the mailbox holds. -/
  capacity : Nat

/-- What can happen to a service with clients. -/
inductive CrowdAct where
  /-- A client that is free submits a payload. -/
  | submit (client : Nat) (payload : Bytes)
  /-- A client that waits takes its answer. -/
  | receive (client : Nat)
  /-- Something else happens. -/
  | elsewhere (m : Service.Move)

namespace Crowd

/-- A number of clients, all free, with a service whose sequencer has these settings. -/
def new (c : SequencerConfig) (maxPayload clients : Nat) : Crowd where
  service := .new c maxPayload
  clients := List.replicate clients none
  capacity := max 1 c.mailboxCapacity

/-- The submission that a client waits for. -/
def waiting? (s : Crowd) (client : Nat) : Option Submitted :=
  s.clients[client]?.join.map fun p => ⟨client, p.1, p.2⟩

/-- What a move does, if it can happen and the mailbox has room. -/
def move? (s : Crowd) (m : Service.Move) : Option Service :=
  (s.service.move? m).filter (·.mailbox.length ≤ s.capacity)

/-- What an act does, if it can happen. -/
def act? (s : Crowd) : CrowdAct → Option Crowd
  | .submit client payload =>
    if s.clients[client]? = some none then do
      let service ← s.move? (.call (.submit payload))
      return { s with
        service, clients := s.clients.set client (some (s.service.nextTicket, payload)) }
    else none
  | .receive client => do
    let sub ← s.waiting? client
    let _ ← s.service.answer? sub.ticket
    return { s with clients := s.clients.set client none }
  | .elsewhere m =>
    if m.submits then none
    else do
      let service ← s.move? m
      return { s with service }

/-- One moment of a run. -/
structure Moment where
  before : Crowd
  act : CrowdAct

/-- Act in turn: the moments, and the state after. -/
def run? (s : Crowd) : List CrowdAct → Option (List Moment × Crowd)
  | [] => some ([], s)
  | a :: rest => do
    let next ← s.act? a
    let (trace, last) ← next.run? rest
    return (⟨s, a⟩ :: trace, last)

/-! ### What is seen of a run -/

/-- What the clients can see. -/
inductive Happening where
  | sent (sub : Submitted)
  | returned (sub : Submitted) (answer : Answer)

/-- The submission that is sent. -/
def Happening.sent? : Happening → Option Submitted
  | .sent sub => some sub
  | .returned _ _ => none

/-- The submission whose answer is returned. -/
def Happening.returned? : Happening → Option Submitted
  | .sent _ => none
  | .returned sub _ => some sub

namespace Moment

/-- What the clients can see at a moment. -/
def happening? (now : Moment) : Option Happening :=
  match now.act with
  | .submit client payload => some (.sent ⟨client, now.before.service.nextTicket, payload⟩)
  | .receive client => do
    let sub ← now.before.waiting? client
    return .returned sub (← now.before.service.answer? sub.ticket)
  | .elsewhere _ => none

/-- The moment of the service, unless nothing happens to it. -/
def inService? (now : Moment) : Option Service.Moment :=
  match now.act with
  | .submit _ payload => some ⟨now.before.service, .call (.submit payload)⟩
  | .receive _ => none
  | .elsewhere m => some ⟨now.before.service, m⟩

end Moment

/-- What the clients can see of a run. -/
def history (trace : List Moment) : List Happening := trace.filterMap Moment.happening?

/-- What happens to the service in a run. -/
def inService (trace : List Moment) : List Service.Moment := trace.filterMap Moment.inService?

/-- All submissions, in the order in which they were sent. -/
def submissions (trace : List Moment) : List Submitted := (history trace).filterMap Happening.sent?

/-- The submissions whose answers were returned, in this order. -/
def returned (trace : List Moment) : List Submitted :=
  (history trace).filterMap Happening.returned?

end Crowd

/-! ### All submissions to a service -/

namespace Service

variable {s s' : Service} {m : Move} {trace : List Moment} {subs : List Submitted}

/-- A move that is no submission puts none into the mailbox. -/
theorem mem_mailbox_of_move? (h : s.move? m = some s') (hm : m.submits = false) {ticket : Nat}
    {payload : Bytes} (hmem : (ticket, Call.submit payload) ∈ s'.mailbox) :
    (ticket, Call.submit payload) ∈ s.mailbox := by
  have hsend : ∀ c, c ≠ .submit payload → (ticket, Call.submit payload) ∈ (s.send c).2.mailbox →
      (ticket, Call.submit payload) ∈ s.mailbox := by
    intro c hc hmem
    rcases mem_mailbox_of_send hmem with hmem | heq
    · exact hmem
    · cases heq
      exact absurd rfl hc
  cases m with
  | event e =>
    cases e with
    | serve =>
      obtain ⟨t, call, behind, hserves⟩ := serve?_cases h
      rw [hserves.mailbox_eq]
      exact List.mem_cons_of_mem _ (List.mem_append_left _ hmem)
    | expire => rwa [(expire?_eq_some h).2] at hmem
    | close => rwa [(close?_eq_some h).2.2] at hmem
    | broadcast j => cases hm
    | deliver j branch =>
      obtain ⟨d, read, sent, t, d', -, hgoes, -, -, rfl⟩ := deliver?_cases h
      rw [(quiet_setDeliver t j d').mailbox_eq] at hmem
      cases hgoes with
      | asked => exact hsend .subscribe nofun hmem
      | _ => exact hmem
  | call c =>
    cases h
    refine hsend c ?_ hmem
    rintro rfl
    cases hm
  | _ => cases h; exact hmem

/-- What is added to the ledger at a moment was submitted. -/
theorem exists_submit_of_mem_orders (h : s.move? m = some s') {ticket : Nat} {a : Accepted}
    (hmem : (ticket, a) ∈ (⟨s, m⟩ : Moment).orders) :
    ∃ payload, (ticket, Call.submit payload) ∈ s.mailbox := by
  by_cases hm : m = .event .serve
  · subst hm
    obtain ⟨t, call, behind, hserves⟩ := serve?_cases h
    rw [Moment.orders, Moment.taking?_of_serves hserves,
      Moment.appended_of_ledger_eq h hserves.ledger_eq] at hmem
    simp only [List.mem_map, Option.mem_toList] at hmem
    obtain ⟨a', haccepted, heq⟩ := hmem
    cases heq
    rw [Sequencer.Entry.accepted?] at haccepted
    split at haccepted
    next payload receipt hcall hanswer =>
      cases hcall
      exact ⟨payload, by rw [hserves.mailbox_eq]; exact List.mem_cons_self⟩
    next => cases haccepted
  · rw [Moment.orders_of_ne hm] at hmem
    cases hmem

/-- The receipt that was given under a ticket. -/
def receipt? (s : Service) (ticket : Nat) : Option Receipt :=
  match s.answer? ticket with
  | some (.ok (.receipt receipt)) => some receipt
  | _ => none

/-- The submission with its receipt, if it was accepted. -/
def accepted? (s : Service) (sub : Submitted) : Option Accepted :=
  (s.receipt? sub.ticket).map fun receipt => ⟨sub.payload, receipt⟩

theorem Submission.accepted?_eq_some_iff {sub : Submitted} {a : Accepted}
    (hs : s.Submission trace sub.ticket sub.payload) (ht : s.Tickets) :
    s.accepted? sub = some a ↔ a ∈ appendedFor trace sub.ticket := by
  rw [accepted?, receipt?]
  cases hs with
  | waiting mem nothing =>
    rw [ht.answer?_of_mem _ mem, nothing]
    exact ⟨nofun, nofun⟩
  | accepted receipt answered appended =>
    rw [answered, appended, List.mem_singleton]
    exact ⟨fun heq => (Option.some.inj heq).symm, fun heq => heq ▸ rfl⟩
  | refused e answered nothing =>
    rw [answered, nothing]
    exact ⟨nofun, nofun⟩

/-- The submissions `subs` are all that were put into the mailbox so far, in this order. -/
structure AllSubmitted (s : Service) (trace : List Moment) (subs : List Submitted) : Prop where
  tickets : s.Tickets
  queued : s.Queued trace
  ordered : s.sequencer.Ordered
  submission : ∀ sub ∈ subs, s.Submission trace sub.ticket sub.payload
  increasing : subs.Pairwise (·.ticket < ·.ticket)
  lt_nextTicket : ∀ sub ∈ subs, sub.ticket < s.nextTicket
  of_mailbox : ∀ ticket payload, (ticket, Call.submit payload) ∈ s.mailbox →
    ∃ sub ∈ subs, sub.ticket = ticket
  of_orders : ∀ ticket a, (ticket, a) ∈ orders trace → ∃ sub ∈ subs, sub.ticket = ticket

namespace AllSubmitted

theorem new (c : SequencerConfig) (maxPayload : Nat) :
    (Service.new c maxPayload).AllSubmitted [] [] where
  tickets := .new c maxPayload
  queued := .new c maxPayload
  ordered := .new c
  submission := nofun
  increasing := .nil
  lt_nextTicket := nofun
  of_mailbox := nofun
  of_orders := nofun

theorem of_orders_concat (ha : s.AllSubmitted trace subs) (h : s.move? m = some s') (ticket : Nat)
    (a : Accepted) (hmem : (ticket, a) ∈ orders (trace ++ [⟨s, m⟩])) :
    ∃ sub ∈ subs, sub.ticket = ticket := by
  rw [orders_concat, List.mem_append] at hmem
  rcases hmem with hold | hnew
  · exact ha.of_orders ticket a hold
  · obtain ⟨payload, hmail⟩ := exists_submit_of_mem_orders h hnew
    exact ha.of_mailbox ticket payload hmail

/-- Something else happens. -/
theorem other (ha : s.AllSubmitted trace subs) (h : s.move? m = some s')
    (hm : m.submits = false) : s'.AllSubmitted (trace ++ [⟨s, m⟩]) subs where
  tickets := ha.tickets.concerns (move?_concerns h)
  queued := ha.queued.move h
  ordered := (move?_concerns h).ordered ha.ordered
  submission := fun sub hsub => (ha.submission sub hsub).move ha.tickets h
  increasing := ha.increasing
  lt_nextTicket := fun sub hsub =>
    Nat.lt_of_lt_of_le (ha.lt_nextTicket sub hsub) (move?_concerns h).nextTicket_le
  of_mailbox := fun ticket payload hmem =>
    ha.of_mailbox ticket payload (mem_mailbox_of_move? h hm hmem)
  of_orders := ha.of_orders_concat h

/-- One more submission is put into the mailbox. -/
theorem submit (ha : s.AllSubmitted trace subs) (client : Nat) {payload : Bytes}
    (h : s.move? (.call (.submit payload)) = some s') :
    s'.AllSubmitted (trace ++ [⟨s, .call (.submit payload)⟩])
      (subs ++ [⟨client, s.nextTicket, payload⟩]) := by
  have hserve : Move.call (.submit payload) ≠ .event .serve := nofun
  have hnew := submission_send s payload (ha.queued.appendedFor_eq_nil hserve)
  have hold := (move?_concerns h).nextTicket_le
  have hnext : s'.nextTicket = s.nextTicket + 1 := by
    cases h
    exact nextTicket_send s _
  have hin : ∀ ticket, (∃ sub ∈ subs, sub.ticket = ticket) →
      ∃ sub ∈ subs ++ [⟨client, s.nextTicket, payload⟩], sub.ticket = ticket :=
    fun ticket ⟨sub, hsub, heq⟩ => ⟨sub, List.mem_append_left _ hsub, heq⟩
  refine ⟨ha.tickets.concerns (move?_concerns h), ha.queued.move h,
    (move?_concerns h).ordered ha.ordered, fun sub hsub => ?_, ?_, fun sub hsub => ?_,
    fun ticket payload' hmem => ?_,
    fun ticket a hmem => hin ticket (ha.of_orders_concat h ticket a hmem)⟩
  · rcases List.mem_append.mp hsub with hsub | hsub
    · exact (ha.submission sub hsub).move ha.tickets h
    · rw [List.mem_singleton.mp hsub]
      cases h
      exact hnew
  · refine List.pairwise_append.mpr ⟨ha.increasing, List.pairwise_singleton _ _, ?_⟩
    intro sub hsub next hnext
    rw [List.mem_singleton.mp hnext]
    exact ha.lt_nextTicket sub hsub
  · rcases List.mem_append.mp hsub with hsub | hsub
    · exact Nat.lt_of_lt_of_le (ha.lt_nextTicket sub hsub) hold
    · rw [List.mem_singleton.mp hsub, hnext]
      exact Nat.lt_succ_self _
  · cases h
    rcases mem_mailbox_of_send hmem with hmem | heq
    · exact hin ticket (ha.of_mailbox ticket payload' hmem)
    · cases heq
      exact ⟨_, List.mem_append_right _ List.mem_cons_self, rfl⟩

/-- **What was accepted is what was sent, in this order,** apart from what was not accepted. -/
theorem orders_eq (ha : s.AllSubmitted trace subs) :
    (subs.filterMap fun sub => (s.accepted? sub).map (sub.ticket, ·)) = orders trace := by
  have hincreasing : (subs.filterMap fun sub => (s.accepted? sub).map (sub.ticket, ·)).Pairwise
      (·.1 < ·.1) := by
    refine ha.increasing.filterMap _ fun sub sub' hlt p hp p' hp' => ?_
    obtain ⟨a, -, rfl⟩ := Option.map_eq_some_iff.mp hp
    obtain ⟨a', -, rfl⟩ := Option.map_eq_some_iff.mp hp'
    exact hlt
  have horders : (orders trace).Pairwise (·.1 < ·.1) :=
    List.pairwise_map.mp (List.pairwise_append.mp ha.queued.increasing).1
  have hnodup : ∀ {l : List (Nat × Accepted)}, l.Pairwise (·.1 < ·.1) → l.Nodup :=
    fun hl => List.Pairwise.imp (fun hlt heq => Nat.ne_of_lt hlt (congrArg Prod.fst heq)) hl
  refine List.Perm.eq_of_pairwise (fun p p' _ _ hlt hlt' => ?_) hincreasing horders ?_
  · exact absurd (Nat.lt_trans hlt hlt') (Nat.lt_irrefl _)
  · refine (List.perm_ext_iff_of_nodup (hnodup hincreasing) (hnodup horders)).mpr ?_
    rintro ⟨ticket, a⟩
    rw [List.mem_filterMap, mem_orders]
    constructor
    · rintro ⟨sub, hsub, heq⟩
      obtain ⟨a', ha', heq⟩ := Option.map_eq_some_iff.mp heq
      cases heq
      exact ((ha.submission sub hsub).accepted?_eq_some_iff ha.tickets).mp ha'
    · intro hmem
      obtain ⟨sub, hsub, rfl⟩ := ha.of_orders ticket a (mem_orders.mpr hmem)
      refine ⟨sub, hsub, ?_⟩
      rw [((ha.submission sub hsub).accepted?_eq_some_iff ha.tickets).mpr hmem]
      rfl

theorem ledger_eq (ha : s.AllSubmitted trace subs) :
    subs.filterMap s.accepted? = s.sequencer.ledger := by
  rw [← ha.queued.ledger_eq, ← ha.orders_eq, List.map_filterMap]
  congr 1
  funext sub
  cases s.accepted? sub <;> rfl

end AllSubmitted

end Service

/-! ### What every run keeps -/

namespace Crowd

variable {s s' : Crowd} {a : CrowdAct} {trace : List Moment}

/-- The ways in which something happens. -/
inductive Acts (s : Crowd) : CrowdAct → Crowd → Prop
  | submit {client : Nat} {payload : Bytes} {service : Service}
    (free : s.clients[client]? = some none)
    (moves : s.service.move? (.call (.submit payload)) = some service) :
    Acts s (.submit client payload) { s with
      service, clients := s.clients.set client (some (s.service.nextTicket, payload)) }
  | receive {client : Nat} {sub : Submitted} {answer : Answer}
    (waits : s.waiting? client = some sub)
    (answered : s.service.answer? sub.ticket = some answer) :
    Acts s (.receive client) { s with clients := s.clients.set client none }
  | elsewhere {m : Service.Move} {service : Service} (other : m.submits = false)
    (moves : s.service.move? m = some service) : Acts s (.elsewhere m) { s with service }

theorem act?_acts (h : s.act? a = some s') : s.Acts a s' := by
  cases a with
  | submit client payload =>
    simp only [act?] at h
    split at h
    next hfree =>
      obtain ⟨service, hmove, heq⟩ := Option.bind_eq_some_iff.mp h
      cases heq
      exact .submit hfree (Option.filter_eq_some_iff.mp hmove).1
    next => cases h
  | receive client =>
    obtain ⟨sub, hwaits, h⟩ := Option.bind_eq_some_iff.mp h
    obtain ⟨answer, hanswer, heq⟩ := Option.bind_eq_some_iff.mp h
    cases heq
    exact .receive hwaits hanswer
  | elsewhere m =>
    simp only [act?] at h
    split at h
    next => cases h
    next hother =>
      obtain ⟨service, hmove, heq⟩ := Option.bind_eq_some_iff.mp h
      cases heq
      exact .elsewhere (by simpa using hother) (Option.filter_eq_some_iff.mp hmove).1

theorem waiting?_set {service : Service} {client other : Nat} {p : Option (Nat × Bytes)}
    (hlt : client < s.clients.length) :
    ({ s with service, clients := s.clients.set client p } : Crowd).waiting? other
      = if client = other then p.map fun p => ⟨client, p.1, p.2⟩ else s.waiting? other := by
  rw [waiting?]
  split
  next heq => subst heq; rw [List.getElem?_set_self hlt]; rfl
  next hne => rw [List.getElem?_set_ne hne]; rfl

theorem of_waiting?_eq_some {client : Nat} {sub : Submitted} (h : s.waiting? client = some sub) :
    client < s.clients.length ∧ sub.client = client := by
  obtain ⟨p, hp, rfl⟩ := Option.map_eq_some_iff.mp h
  exact ⟨(List.getElem?_eq_some_iff.mp (Option.join_eq_some_iff.mp hp)).1, rfl⟩

/-! ### One more moment -/

variable (trace) (now : Moment)

theorem history_concat : history (trace ++ [now]) = history trace ++ now.happening?.toList :=
  filterMap_concat _ _ _

theorem inService_concat :
    inService (trace ++ [now]) = inService trace ++ now.inService?.toList :=
  filterMap_concat _ _ _

theorem submissions_concat : submissions (trace ++ [now])
    = submissions trace ++ now.happening?.toList.filterMap Happening.sent? := by
  rw [submissions, history_concat, List.filterMap_append]
  rfl

theorem returned_concat : returned (trace ++ [now])
    = returned trace ++ now.happening?.toList.filterMap Happening.returned? := by
  rw [returned, history_concat, List.filterMap_append]
  rfl

variable {trace}

/-- What every run keeps. -/
structure Kept (s : Crowd) (trace : List Moment) : Prop where
  allSubmitted : s.service.AllSubmitted (inService trace) (submissions trace)
  /-- Answers that were returned stay. -/
  answered : ∀ sub answer, .returned sub answer ∈ history trace →
    s.service.answer? sub.ticket = some answer
  /-- Each client has the answers to all its submissions, but for the one that it waits for. -/
  one_by_one : ∀ client, (submissions trace).filter (·.client = client)
    = (returned trace).filter (·.client = client) ++ (s.waiting? client).toList
  /-- What is sent after an answer was returned has a later ticket. -/
  later : (history trace).Pairwise fun a b => ∀ sub answer sub',
    a = .returned sub answer → b = .sent sub' → sub.ticket < sub'.ticket

namespace Kept

theorem new (c : SequencerConfig) (maxPayload clients : Nat) :
    (Crowd.new c maxPayload clients).Kept [] where
  allSubmitted := .new c maxPayload
  answered := nofun
  one_by_one := fun client => by
    have hfree : (Crowd.new c maxPayload clients).waiting? client = none := by
      rw [waiting?, Crowd.new, List.getElem?_replicate]
      split
      · rfl
      · rfl
    rw [hfree]
    rfl
  later := .nil

theorem mem_submissions (hk : s.Kept trace) {sub : Submitted} (hsub : sub ∈ returned trace) :
    sub ∈ submissions trace := by
  have hmem : sub ∈ (submissions trace).filter (·.client = sub.client) := by
    rw [hk.one_by_one]
    exact List.mem_append_left _ (List.mem_filter.mpr ⟨hsub, by simp⟩)
  exact (List.mem_filter.mp hmem).1

/-- A client submits. -/
theorem submit (hk : s.Kept trace) {client : Nat} {payload : Bytes} {service : Service}
    (hfree : s.clients[client]? = some none)
    (hmove : s.service.move? (.call (.submit payload)) = some service) :
    ({ s with service, clients := s.clients.set client (some (s.service.nextTicket, payload)) }
      : Crowd).Kept (trace ++ [⟨s, .submit client payload⟩]) := by
  have hconcerns := Service.move?_concerns hmove
  refine ⟨?_, fun sub answer hmem => ?_, fun other => ?_, ?_⟩
  · rw [inService_concat, submissions_concat]
    exact hk.allSubmitted.submit client hmove
  · rw [history_concat, List.mem_append] at hmem
    rcases hmem with hmem | hmem
    · exact hk.allSubmitted.tickets.answer?_concerns hconcerns (hk.answered sub answer hmem)
    · cases List.mem_singleton.mp hmem
  · rw [submissions_concat, returned_concat, List.filter_append, List.filter_append,
      hk.one_by_one, waiting?_set (List.getElem?_eq_some_iff.mp hfree).1]
    by_cases hother : client = other
    · subst hother
      simp [Moment.happening?, Happening.sent?, Happening.returned?, waiting?, hfree]
    · simp [Moment.happening?, Happening.sent?, Happening.returned?, hother]
  · rw [history_concat, List.pairwise_append]
    refine ⟨hk.later, List.pairwise_singleton _ _, fun earlier hearlier next hnext => ?_⟩
    rintro sub answer sub' rfl rfl
    cases List.mem_singleton.mp hnext
    have hreturned : sub ∈ returned trace := List.mem_filterMap.mpr ⟨_, hearlier, rfl⟩
    exact hk.allSubmitted.lt_nextTicket sub (hk.mem_submissions hreturned)

/-- A client takes its answer. -/
theorem receive (hk : s.Kept trace) {client : Nat} {sub : Submitted} {answer : Answer}
    (hwaits : s.waiting? client = some sub) (hanswer : s.service.answer? sub.ticket = some answer) :
    ({ s with clients := s.clients.set client none } : Crowd).Kept
      (trace ++ [⟨s, .receive client⟩]) := by
  have hhappening : (⟨s, .receive client⟩ : Moment).happening? = some (.returned sub answer) := by
    simp [Moment.happening?, hwaits, hanswer]
  refine ⟨?_, fun sub' answer' hmem => ?_, fun other => ?_, ?_⟩
  · rw [inService_concat, submissions_concat, hhappening]
    simpa [Moment.inService?, List.filterMap_cons, Happening.sent?] using hk.allSubmitted
  · rw [history_concat, hhappening, List.mem_append] at hmem
    rcases hmem with hmem | hmem
    · exact hk.answered sub' answer' hmem
    · cases List.mem_singleton.mp hmem
      exact hanswer
  · obtain ⟨hlt, hclient⟩ := of_waiting?_eq_some hwaits
    rw [submissions_concat, returned_concat, hhappening, List.filter_append, List.filter_append,
      hk.one_by_one, waiting?_set hlt]
    by_cases hother : client = other
    · subst hother
      simp [Happening.sent?, Happening.returned?, hwaits, hclient]
    · simp [Happening.sent?, Happening.returned?, hother, hclient]
  · rw [history_concat, hhappening, List.pairwise_append]
    refine ⟨hk.later, List.pairwise_singleton _ _, fun earlier hearlier next hnext => ?_⟩
    rintro sub₁ answer₁ sub₂ - rfl
    cases List.mem_singleton.mp hnext

/-- Something else happens. -/
theorem elsewhere (hk : s.Kept trace) {m : Service.Move} {service : Service}
    (hother : m.submits = false) (hmove : s.service.move? m = some service) :
    ({ s with service } : Crowd).Kept (trace ++ [⟨s, .elsewhere m⟩]) := by
  have hhistory : history (trace ++ [⟨s, .elsewhere m⟩]) = history trace := by
    rw [history_concat]
    exact List.append_nil _
  refine ⟨?_, fun sub answer hmem => ?_, fun client => ?_, ?_⟩
  · rw [inService_concat, submissions, hhistory]
    exact hk.allSubmitted.other hmove hother
  · rw [hhistory] at hmem
    exact hk.allSubmitted.tickets.answer?_concerns (Service.move?_concerns hmove)
      (hk.answered sub answer hmem)
  · rw [submissions, returned, hhistory]
    exact hk.one_by_one client
  · rw [hhistory]
    exact hk.later

/-- **Every act keeps this.** -/
theorem act (hk : s.Kept trace) (ha : s.act? a = some s') : s'.Kept (trace ++ [⟨s, a⟩]) := by
  cases act?_acts ha with
  | submit free moves => exact hk.submit free moves
  | receive waits answered => exact hk.receive waits answered
  | elsewhere other moves => exact hk.elsewhere other moves

end Kept

theorem run?_kept_from {acts : List CrowdAct} {earlier : List Moment} (hk : s.Kept earlier)
    (hrun : s.run? acts = some (trace, s')) : s'.Kept (earlier ++ trace) := by
  induction acts generalizing s earlier trace with
  | nil =>
    cases hrun
    rwa [List.append_nil]
  | cons a rest ih =>
    simp only [run?, Option.bind_eq_bind, Option.bind_eq_some_iff] at hrun
    obtain ⟨next, hact, ⟨trace₁, last⟩, hrest, heq⟩ := hrun
    cases heq
    have hlast := ih (hk.act hact) hrest
    rwa [List.append_assoc] at hlast

/-- **Every run keeps this.** -/
theorem run?_kept {c : SequencerConfig} {maxPayload clients : Nat} {acts : List CrowdAct}
    (hrun : (Crowd.new c maxPayload clients).run? acts = some (trace, s)) : s.Kept trace :=
  run?_kept_from (.new c maxPayload clients) hrun

end Crowd

end OrderingService
