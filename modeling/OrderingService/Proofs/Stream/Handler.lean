import OrderingService.Service.Basic

/-!
# What the handler of a deliver stream can do

The handler of a deliver stream is taken apart once, into all the ways in which it can go on. Each
names what it needs, what it reads, what it hands over, and where the handler is afterwards. Facts
about streams are proved from these ways and look at the handler no more.

## Main definitions

* `DeliverStream.reads?`, `DeliverStream.handsOver?` — what goes through the queues as it goes on
* `DeliverStream.Goes` — the ways in which it goes on

## Main results

* `Service.deliver?_cases` — there are no other ways, and nothing else happens to the service
-/

namespace OrderingService

namespace DeliverStream

/-- What a handler reads: a request, or the status with which reading broke. -/
abbrev Incoming := Except RpcStatus DeliverRequest

/-- What a handler hands over: an answer, or the status that ends the stream. -/
abbrev Outgoing := Except RpcStatus DeliverResponse

/-- What the handler reads as it goes on: the first request, or a later one when it attends to
them. -/
def reads? (d : DeliverStream) (branch : DeliverBranch) : Option Incoming :=
  match d.phase with
  | .waiting => d.exchange.take?.bind Prod.fst
  | .streaming _ => if branch = .request then d.exchange.take?.bind Prod.fst else none
  | _ => none

/-- What the handler hands over as it goes on. -/
def handsOver? (d : DeliverStream) : Option Outgoing :=
  match d.phase with
  | .answering r _ =>
    match d.exchange.push r with
    | .queued _ => some r
    | .abandoned | .blocked => none
  | _ => none

variable (s : Service)

/-- The ways in which the handler of a stream goes on, attending to a branch if it is subscribed:
what it reads, what it hands over, the service with the call that it makes, if any, and the stream
afterwards. -/
inductive Goes : DeliverStream → DeliverBranch → Option Incoming → Option Outgoing → Service →
    DeliverStream → Prop
  /-- No request comes at all. -/
  | unasked {x x' branch} (taken : x.take? = some (none, x')) :
    Goes ⟨x, .waiting⟩ branch none none s ⟨x, .ended⟩
  /-- Reading the first request fails. -/
  | unreadable {x x' branch e} (taken : x.take? = some (some (.error e), x')) :
    Goes ⟨x, .waiting⟩ branch (some (.error e)) none s ⟨x', .answering (.error e) none⟩
  /-- The first request asks for a subscription. -/
  | asked {x x' branch r} (taken : x.take? = some (some (.ok r), x')) :
    Goes ⟨x, .waiting⟩ branch (some (.ok r)) none (s.send .subscribe).2
      ⟨x', .subscribing s.nextTicket⟩
  /-- The sequencer gave a subscription. -/
  | granted {x branch ticket sub}
    (answered : s.answer? ticket = some (.ok (.subscription sub))) :
    Goes ⟨x, .subscribing ticket⟩ branch none none s
      ⟨x, .answering (.ok (.withStatus .success)) (some sub)⟩
  /-- The sequencer gave no subscription. -/
  | denied {x branch ticket answer} (answered : s.answer? ticket = some answer)
    (none_given : ∀ sub, answer ≠ .ok (.subscription sub)) :
    Goes ⟨x, .subscribing ticket⟩ branch none none s
      ⟨x, .answering (.ok (.withStatus .invalid)) none⟩
  /-- An answer is handed over. -/
  | handedOver {x x' branch r goOn} (queued : x.push r = .queued x') :
    Goes ⟨x, .answering r goOn⟩ branch none (some r) s ⟨x', goOn.elim .ended .streaming⟩
  /-- There is nobody to hand an answer over to. -/
  | abandoned {x branch r goOn} (gone : x.push r = .abandoned) :
    Goes ⟨x, .answering r goOn⟩ branch none none s ⟨x, .ended⟩
  /-- The next transaction is there. -/
  | ordered {x sub sub' tx} (read : s.sequencer.read sub = (.transaction tx, sub')) :
    Goes ⟨x, .streaming sub⟩ .ordered none none s ⟨x, .answering (.ok (.txid tx.txid)) (some sub')⟩
  /-- The next transaction is no longer kept. -/
  | lagged {x sub sub' missed} (read : s.sequencer.read sub = (.lagged missed, sub')) :
    Goes ⟨x, .streaming sub⟩ .ordered none none s
      ⟨x, .answering (.ok (.withStatus .invalid)) none⟩
  /-- All is read, and the sequencer has stopped. -/
  | closed {x sub sub'} (read : s.sequencer.read sub = (.closed, sub')) :
    Goes ⟨x, .streaming sub⟩ .ordered none none s ⟨x, .ended⟩
  /-- One more request comes. -/
  | asksAgain {x x' sub r} (taken : x.take? = some (some (.ok r), x')) :
    Goes ⟨x, .streaming sub⟩ .request (some (.ok r)) none s
      ⟨x', .answering (.ok (.withStatus .success)) (some sub)⟩
  /-- Reading one more request fails. -/
  | breaks {x x' sub e} (taken : x.take? = some (some (.error e), x')) :
    Goes ⟨x, .streaming sub⟩ .request (some (.error e)) none s ⟨x', .answering (.error e) none⟩
  /-- No more requests come. -/
  | finished {x x' sub} (taken : x.take? = some (none, x')) :
    Goes ⟨x, .streaming sub⟩ .request none none s ⟨x, .ended⟩
  /-- The client has gone. -/
  | hungUp {x sub} (gone : x.hungUp = true) :
    Goes ⟨x, .streaming sub⟩ .hangUp none none s ⟨x, .ended⟩

variable {s} {d d' : DeliverStream} {branch : DeliverBranch}

theorem goes_of_handOver? {x : Exchange DeliverRequest DeliverResponse} {r : Outgoing}
    {goOn : Option Subscription}
    (h : (⟨x, .answering r goOn⟩ : DeliverStream).handOver? r goOn = some d') :
    Goes s ⟨x, .answering r goOn⟩ branch none
      (handsOver? ⟨x, .answering r goOn⟩) s d' := by
  cases hpush : x.push r with
  | queued x' =>
    simp only [handOver?, hpush] at h
    simp only [handsOver?, hpush]
    cases h
    cases goOn with
    | none => exact .handedOver hpush
    | some sub => exact .handedOver hpush
  | abandoned =>
    simp only [handOver?, hpush] at h
    simp only [handsOver?, hpush]
    cases h
    exact .abandoned hpush
  | blocked =>
    simp only [handOver?, hpush] at h
    cases h

theorem goes_of_attend? {x : Exchange DeliverRequest DeliverResponse} {sub : Subscription}
    (h : (⟨x, .streaming sub⟩ : DeliverStream).attend? s.sequencer sub branch = some d') :
    Goes s ⟨x, .streaming sub⟩ branch (reads? ⟨x, .streaming sub⟩ branch) none s d' := by
  cases branch with
  | ordered =>
    rw [attend?] at h
    split at h
    next tx sub' hread => cases h; exact .ordered hread
    next missed sub' hread => cases h; exact .lagged hread
    next sub' hread => cases h; exact .closed hread
    next => cases h
  | request =>
    simp only [attend?] at h
    simp only [reads?, if_true]
    split at h
    next r x' htake => cases h; rw [htake]; exact .asksAgain htake
    next e x' htake => cases h; rw [htake]; exact .breaks htake
    next x' htake => cases h; rw [htake]; exact .finished htake
    next => cases h
  | hangUp =>
    rw [attend?] at h
    split at h
    next hgone => cases h; exact .hungUp hgone
    next => cases h

end DeliverStream

namespace Service

variable {s s' : Service} {index : Nat} {branch : DeliverBranch}

open DeliverStream (Goes)

theorem goes_of_readDeliver? {x : Exchange DeliverRequest DeliverResponse}
    (h : s.readDeliver? index ⟨x, .waiting⟩ = some s') :
    ∃ t d', Goes s ⟨x, .waiting⟩ branch (DeliverStream.reads? ⟨x, .waiting⟩ branch) none t d' ∧
      s' = t.setDeliver index d' := by
  simp only [readDeliver?] at h
  simp only [DeliverStream.reads?]
  split at h
  next => cases h
  next x' htake => cases h; rw [htake]; exact ⟨_, _, .unasked htake, rfl⟩
  next e x' htake => cases h; rw [htake]; exact ⟨_, _, .unreadable htake, rfl⟩
  next r x' htake => cases h; rw [htake]; exact ⟨_, _, .asked htake, rfl⟩

theorem goes_of_subscribed {x : Exchange DeliverRequest DeliverResponse} {ticket : Nat}
    {answer : Answer} (h : s.answer? ticket = some answer) :
    Goes s ⟨x, .subscribing ticket⟩ branch none none s
      ((⟨x, .subscribing ticket⟩ : DeliverStream).subscribed answer) := by
  cases answer with
  | error e => exact .denied h (fun _ heq => by cases heq)
  | ok reply =>
    cases reply with
    | subscription sub => exact .granted h
    | receipt receipt => exact .denied h (fun _ heq => by cases heq)
    | summary summary => exact .denied h (fun _ heq => by cases heq)

/-- **There are no other ways in which the handler of a deliver stream goes on.** -/
theorem deliver?_cases (h : s.deliver? index branch = some s') :
    ∃ d read sent t d', s.delivers[index]? = some d ∧ Goes s d branch read sent t d' ∧
      d.reads? branch = read ∧ d.handsOver? = sent ∧ s' = t.setDeliver index d' := by
  simp only [deliver?, Option.bind_eq_bind, Option.bind_eq_some_iff] at h
  obtain ⟨⟨x, phase⟩, hd, h⟩ := h
  cases phase with
  | waiting =>
    obtain ⟨t, d', hgoes, heq⟩ := goes_of_readDeliver? h
    exact ⟨_, _, _, t, d', hd, hgoes, rfl, rfl, heq⟩
  | subscribing ticket =>
    obtain ⟨answer, hanswer, h⟩ := Option.bind_eq_some_iff.mp h
    cases h
    exact ⟨_, _, _, s, _, hd, goes_of_subscribed hanswer, rfl, rfl, rfl⟩
  | answering r goOn =>
    obtain ⟨d', hover, h⟩ := Option.bind_eq_some_iff.mp h
    cases h
    exact ⟨_, _, _, s, d', hd, DeliverStream.goes_of_handOver? hover, rfl, rfl, rfl⟩
  | streaming sub =>
    obtain ⟨d', hattend, h⟩ := Option.bind_eq_some_iff.mp h
    cases h
    exact ⟨_, _, _, s, d', hd, DeliverStream.goes_of_attend? hattend, rfl, rfl, rfl⟩
  | ended => cases h

end Service

end OrderingService
