import OrderingService.Proofs.Stream.Delivery

/-!
# Where a deliver stream is in what is published

A stream has a place from the moment at which the sequencer grants it a subscription, which may be
before its handler knows, until the handler is done with reading. The handler moves the place by one
for each transaction that it reads. Nothing else moves it, and only a few things make the handler
give it up.

## Main definitions

* `Service.place?` — the place of a stream
* `Service.Leaves` — why a handler gives up its place
* `Exchange.isOver` — the client has gone or sends no more

## Main results

* `DeliverStream.Goes.exists_placeOf?` — the handler of a stream never moves its place back
* `DeliverStream.Goes.leaves` — the handler gives up its place for one of these reasons
* `Service.of_placeOf?_concerns` — nothing else moves it, and a new place is at the end
-/

namespace OrderingService

open DeliverStream (Incoming Outgoing Goes Standing)

namespace Service

variable {s s' t : Service} {m : Move} {phase : DeliverPhase} {sub : Subscription} {ticket : Nat}

/-- The place from which a handler in some phase goes on reading, if it does. -/
def placeOf? (s : Service) : DeliverPhase → Option Subscription
  | .subscribing ticket =>
    match s.answer? ticket with
    | some (.ok (.subscription sub)) => some sub
    | _ => none
  | .answering _ goOn => goOn
  | .streaming sub => some sub
  | .waiting | .ended => none

/-- The place of a stream in what is published. -/
def place? (s : Service) (index : Nat) : Option Subscription :=
  s.delivers[index]?.bind fun d => s.placeOf? d.phase

theorem placeOf?_subscribing : s.placeOf? (.subscribing ticket) = some sub ↔
    s.answer? ticket = some (.ok (.subscription sub)) := by
  rw [placeOf?]
  split
  next sub' heq =>
    rw [heq]
    exact ⟨fun h => Option.some.inj h ▸ rfl, fun h => by cases h; rfl⟩
  next hnone => exact ⟨nofun, fun h => absurd h (hnone sub)⟩

theorem placeOf?_congr (h : s'.answers = s.answers) (phase : DeliverPhase) :
    s'.placeOf? phase = s.placeOf? phase := by
  cases phase with
  | subscribing ticket => rw [placeOf?, placeOf?, answer?_congr h]
  | _ => rfl

/-! ### Another move than the handler's -/

/-- The sequencer as it grants a subscription, which leaves it alone. -/
theorem of_granted?_eq_some {q : Sequencer} (hc : s.Concerns m s')
    (h : (⟨s, m⟩ : Moment).granted? ticket = some q) :
    q = s.sequencer ∧ s'.sequencer = s.sequencer := by
  have hm : m = .event .serve := by
    by_contra hne
    cases h.symm.trans (Moment.granted?_of_ne hne ticket)
  subst hm
  obtain ⟨t, call, behind, hserves⟩ := hc.exists_serves
  simp only [Moment.granted?, hserves.mailbox_eq] at h
  split at h
  next heq =>
    cases heq
    split at h
    next => exact ⟨(Option.some.inj h).symm, hserves.sequencer_eq⟩
    next => cases h
  next => cases h

/-- A place that is there stays, unless the handler goes on. -/
theorem placeOf?_concerns (ht : s.Tickets) (hc : s.Concerns m s')
    (h : s.placeOf? phase = some sub) : s'.placeOf? phase = some sub := by
  cases phase with
  | subscribing ticket =>
    exact placeOf?_subscribing.mpr (ht.answer?_concerns hc (placeOf?_subscribing.mp h))
  | _ => exact h

/-- **Unless the handler goes on, its place does not move.** One that is new is at the end of what
is published. -/
theorem of_placeOf?_concerns {place : Option Sequencer} {reads : List Incoming}
    {sent : List Outgoing} (hs : Standing s place reads sent phase) (ht : s.Tickets)
    (hc : s.Concerns m s') (h : s'.placeOf? phase = some sub) :
    s.placeOf? phase = some sub ∨ s'.sequencer.unread sub = 0 := by
  cases hs with
  | subscribing request asked =>
    obtain ⟨q, hq, -, rfl⟩ :=
      (asked.concerns ht hc).of_granted (ht.concerns hc) (placeOf?_subscribing.mp h)
    cases asked with
    | granted q' answered advances =>
      obtain rfl := Option.some.inj hq
      exact Or.inl (placeOf?_subscribing.mpr answered)
    | waiting | denied =>
      rw [Option.none_or] at hq
      obtain ⟨rfl, hsame⟩ := of_granted?_eq_some hc hq
      rw [Sequencer.unread, hsame]
      exact Or.inr (Nat.sub_self _)
  | _ => exact Or.inl h

/-- A handler that got a subscription and has no place will have none again. -/
theorem of_placeOf?_eq_none {q : Sequencer} {reads : List Incoming} {sent : List Outgoing}
    (hs : Standing s (some q) reads sent phase) (h : s.placeOf? phase = none) :
    (∀ t : Service, t.placeOf? phase = none) ∧ ∀ now : Moment, now.grantedTo? phase = none := by
  cases hs with
  | subscribing request asked =>
    cases asked with
    | granted q answered advances => cases (placeOf?_subscribing.mpr answered).symm.trans h
  | answering | streaming => cases h
  | concluding | ended => exact ⟨fun _ => rfl, fun _ => rfl⟩

/-- No place lies behind the end of what is published. -/
theorem next_le_of_placeOf?_eq_some {place : Option Sequencer} {reads : List Incoming}
    {sent : List Outgoing} (hs : Standing s place reads sent phase) (ht : s.Tickets)
    (h : s.placeOf? phase = some sub) : sub.next ≤ s.sequencer.published.length := by
  cases hs with
  | waiting | concluding | ended => cases h
  | subscribing request asked =>
    obtain ⟨q, -, hadvances, rfl⟩ := asked.of_granted ht (placeOf?_subscribing.mp h)
    exact hadvances.published.length_le
  | answering heard | streaming heard =>
    cases h
    have hle := heard.prefix_drop.length_le
    have hbefore := heard.advances.published.length_le
    rw [List.length_drop] at hle
    show _ + _ ≤ _
    omega

/-- Before its handler knows of the subscription, a stream is told nothing. -/
theorem sent_eq_nil_of_subscribing {place : Option Sequencer} {reads : List Incoming}
    {sent : List Outgoing} (hs : Standing s place reads sent (.subscribing ticket)) :
    sent = [] := by
  cases hs with
  | subscribing request asked => rfl

/-! ### The handler -/

end Service

/-- Whether the client of a stream has gone or sends no more. -/
def Exchange.isOver {Request Response : Type} (x : Exchange Request Response) : Bool :=
  x.hungUp || x.requestsClosed

namespace Service

/-- Why the handler of a stream gives up its place, given what it reads meanwhile. -/
inductive Leaves (s : Service) (d : DeliverStream) (sub : Subscription) : Option Incoming → Prop
  | left (isOver : d.exchange.isOver = true) : Leaves s d sub none
  | broken (e : RpcStatus) : Leaves s d sub (some (.error e))
  /-- All is read, and the sequencer has stopped. -/
  | closed (reading : d.phase = .streaming sub) (stopped : s.sequencer.stopped = true)
    (all : s.sequencer.unread sub = 0) : Leaves s d sub none
  /-- It fell too far behind. -/
  | lagged (missed : s.sequencer.kept < s.sequencer.unread sub) : Leaves s d sub none

end Service

namespace Exchange

variable {x x' : Exchange DeliverRequest DeliverResponse} {item : Option Incoming}

theorem isOver_of_take?_eq_some (h : x.take? = some (item, x')) : x'.isOver = x.isOver := by
  rw [take?] at h
  split at h
  next => cases h; rfl
  next => split at h <;> cases h; rfl

theorem isOver_of_take?_eq_none (h : x.take? = some (none, x')) : x.isOver = true := by
  rw [isOver, (of_take?_eq_none h).2, Bool.or_true]

theorem isOver_after (h : x.isOver = true) (act : ClientAct DeliverRequest) :
    (x.after act).isOver = true := by
  cases act with
  | request item => exact h
  | closeRequests => exact Bool.or_true _
  | take => exact h
  | hangUp => exact Bool.true_or _

end Exchange

namespace DeliverStream

variable {s t : Service} {d d' : DeliverStream} {branch : DeliverBranch} {read : Option Incoming}
  {out : Option Outgoing} {sub : Subscription}

/-- The handler of a stream leaves the sequencer alone. -/
theorem Goes.sequencer_eq (hg : Goes s d branch read out t d') : t.sequencer = s.sequencer := by
  cases hg with
  | asked => exact Service.sequencer_send s _
  | _ => rfl

/-- It does not make its client go or close. -/
theorem Goes.isOver_eq (hg : Goes s d branch read out t d') :
    d'.exchange.isOver = d.exchange.isOver := by
  cases hg with
  | unreadable taken | asked taken | asksAgain taken | breaks taken =>
    exact Exchange.isOver_of_take?_eq_some taken
  | handedOver queued =>
    obtain ⟨-, rfl⟩ := Exchange.of_push_eq_queued queued
    rfl
  | _ => rfl

theorem unread_eq_zero_of_read_eq_closed {q : Sequencer} {sub sub' : Subscription}
    (h : q.read sub = (.closed, sub')) : q.stopped = true ∧ q.unread sub = 0 := by
  rw [Sequencer.read] at h
  split at h
  next => cases h
  next =>
    split at h
    next => cases h
    next hnone =>
      split at h
      next hstop => exact ⟨hstop, Nat.sub_eq_zero_of_le (List.getElem?_eq_none_iff.mp hnone)⟩
      next => cases h

/-- **The handler of a stream never moves its place back.** -/
theorem Goes.exists_placeOf? (hg : Goes s d branch read out t d') (ht : s.Tickets)
    (h : t.placeOf? d'.phase = some sub) :
    ∃ sub', s.placeOf? d.phase = some sub' ∧ sub'.next ≤ sub.next := by
  cases hg with
  | unasked | unreadable | denied | abandoned | lagged | closed | breaks | finished | hungUp =>
    cases h
  | asked =>
    obtain ⟨q, hq, -⟩ :=
      (Service.asked_send s).of_granted (ht.send _) (Service.placeOf?_subscribing.mp h)
    cases hq
  | granted answered =>
    exact ⟨sub, (Service.placeOf?_subscribing.mpr answered).trans h, Nat.le_refl _⟩
  | @handedOver x x' branch r goOn queued =>
    cases goOn with
    | none => cases h
    | some sub' => exact ⟨sub, h, Nat.le_refl _⟩
  | ordered read =>
    obtain ⟨-, rfl⟩ := of_read_eq_transaction read
    cases h
    exact ⟨_, rfl, Nat.le_succ _⟩
  | asksAgain => exact ⟨sub, h, Nat.le_refl _⟩

/-- **The handler of a stream gives up its place for one of few reasons.** -/
theorem Goes.leaves (hg : Goes s d branch read out t d') (h : s.placeOf? d.phase = some sub)
    (h' : t.placeOf? d'.phase = none) : s.Leaves d sub read := by
  cases hg with
  | unasked | unreadable | asked => cases h
  | granted | ordered | asksAgain => cases h'
  | denied answered none_given =>
    cases answered.symm.trans (Service.placeOf?_subscribing.mp h)
    exact absurd rfl (none_given sub)
  | @handedOver x x' branch r goOn queued =>
    cases goOn with
    | none => cases h
    | some sub' => cases h'
  | abandoned gone =>
    refine .left ?_
    rw [Exchange.isOver, Exchange.hungUp_of_push_eq_abandoned gone, Bool.true_or]
  | lagged read =>
    cases h
    exact .lagged (of_read_eq_lagged read)
  | closed read =>
    cases h
    obtain ⟨hstop, hall⟩ := unread_eq_zero_of_read_eq_closed read
    exact .closed rfl hstop hall
  | breaks => exact .broken _
  | finished taken => exact .left (Exchange.isOver_of_take?_eq_none taken)
  | hungUp gone =>
    refine .left ?_
    rw [Exchange.isOver, gone, Bool.true_or]

/-- What a handler hands over, it was about to. -/
theorem Goes.exists_answering {r : Outgoing} (hg : Goes s d branch read out t d')
    (hout : out = some r) : ∃ goOn, d.phase = .answering r goOn := by
  cases hg with
  | handedOver queued =>
    obtain rfl := Option.some.inj hout
    exact ⟨_, rfl⟩
  | _ => cases hout

/-- A handler that got a subscription and is about to tell that it fell behind did so. -/
theorem Goes.of_answering_invalid {q : Sequencer} {reads : List Incoming} {told : List Outgoing}
    {goOn : Option Subscription} (hg : Goes s d branch read out t d') (ht : s.Tickets)
    (hs : Standing s (some q) reads told d.phase)
    (h : d'.phase = .answering (.ok (.withStatus .invalid)) goOn) :
    ∃ sub, s.placeOf? d.phase = some sub ∧ s.sequencer.kept < s.sequencer.unread sub := by
  cases hg with
  | lagged read => exact ⟨_, rfl, of_read_eq_lagged read⟩
  | denied answered none_given =>
    cases hs with
    | subscribing request asked => cases (asked.of_denied ht answered none_given).1
  | @handedOver x x' branch r goOn queued =>
    cases goOn with
    | none => cases h
    | some sub => cases h
  | _ => cases h

end DeliverStream

end OrderingService
