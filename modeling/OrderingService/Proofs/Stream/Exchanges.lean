import OrderingService.Proofs.Stream.Queues
import OrderingService.Proofs.Stream.Truthfulness

/-!
# What goes through a broadcast stream

The client of a broadcast stream gives items, each a request or the status with which reading broke,
and gets answers. The handler reads one item, comes to its answer, hands it over, and only then
reads on, and it reads on only after a success. So the answers that were handed over stand beside
the items that were read, with one item more at most, and only the last answer is no success.

An item that was read has no answer in the queue while the handler is at work on it, or for good if
the client went away meanwhile. Its transaction may be ordered all the same, and this is the only
one that can be ordered without its answer being handed over.

## Main definitions

* `Service.itemsGiven`, `Service.itemsRead` — what the client gave and what the handler read
* `Service.emitted`, `Service.collected` — what the handler handed over and what the client took
* `Service.orderedOn` — the transactions that were ordered for a stream
* `Service.Replies` — the answer to an item
* `Service.Served` — the answers against the items, wherever the handler is
* `Service.Conversing`, `Service.Conversed` — the account of a stream

## Main results

* `Service.Served.goes` — the handler goes on
* `Service.Conversed.move` — every move keeps account of every stream
* `Service.Served.length_orderedFor` — the transactions against the answers
-/

namespace OrderingService

namespace BroadcastStream

/-- What the client of a stream gives: a request, or the status with which reading breaks. -/
abbrev Incoming := Except RpcStatus BroadcastRequest

/-- What a handler hands over: an answer, or the status that ends the stream. -/
abbrev Outgoing := Except RpcStatus BroadcastResponse

/-- What a handler has read, with the ticket of a request that was handed to the sequencer. -/
abbrev Item := Except RpcStatus (BroadcastRequest × Option Nat)

end BroadcastStream

open BroadcastStream (Incoming Outgoing Item)

/-- Whether an answer is a success. -/
def Broadcast.isSuccess : Outgoing → Bool
  | .ok r => r.meaning = .success
  | .error _ => false

open Broadcast (isSuccess)

/-- The item that a client gives. -/
def ClientAct.item? {Request : Type} : ClientAct Request → Option (Except RpcStatus Request)
  | .request item => some item
  | .closeRequests | .take | .hangUp => none

namespace Exchange

variable {Request Response : Type} (x : Exchange Request Response) (act : ClientAct Request)

theorem requests_after : (x.after act).requests = x.requests ++ act.item?.toList := by
  cases act with
  | request item => rfl
  | closeRequests | take | hangUp => exact (List.append_nil _).symm

theorem requestsClosed_after (h : x.requestsClosed = true) :
    (x.after act).requestsClosed = true := by
  cases act with
  | closeRequests => rfl
  | request | take | hangUp => exact h

theorem hungUp_after (h : x.hungUp = true) : (x.after act).hungUp = true := by
  cases act with
  | hangUp => rfl
  | request | closeRequests | take => exact h

end Exchange

namespace BroadcastStream

/-- The item that a handler reads on its way from `b` to `b'`, with the ticket under which a request
is handed to the sequencer, if it is. -/
def reads? (b b' : BroadcastStream) : Option Item :=
  match b.phase, b'.phase, b.exchange.requests with
  | .reading, .submitted ticket, .ok request :: _ => some (.ok (request, some ticket))
  | .reading, .answering _ _, .ok request :: _ => some (.ok (request, none))
  | .reading, .answering _ _, .error e :: _ => some (.error e)
  | _, _, _ => none

/-- The answer that a handler hands over on its way from `b` to `b'`. -/
def handsOver? (b b' : BroadcastStream) : Option Outgoing :=
  match b.phase, b'.phase with
  | .answering r _, .reading | .answering r _, .ended => if b.exchange.hungUp then none else some r
  | _, _ => none

variable {b b' : BroadcastStream}

theorem reads?_of_phase_eq (h : b'.phase = b.phase) : b.reads? b' = none := by
  rw [reads?, h]
  split
  next hphase hphase' _ => cases hphase.symm.trans hphase'
  next hphase hphase' _ => cases hphase.symm.trans hphase'
  next hphase hphase' _ => cases hphase.symm.trans hphase'
  next => rfl

theorem handsOver?_of_phase_eq (h : b'.phase = b.phase) : b.handsOver? b' = none := by
  rw [handsOver?, h]
  split
  next hphase hphase' => cases hphase.symm.trans hphase'
  next hphase hphase' => cases hphase.symm.trans hphase'
  next => rfl

theorem reads?_of_answering (x : Exchange BroadcastRequest BroadcastResponse)
    (r : Outgoing) (goOn : Bool) (b' : BroadcastStream) :
    reads? ⟨x, .answering r goOn⟩ b' = none := by
  rw [reads?]

theorem handsOver?_of_here {x x' : Exchange BroadcastRequest BroadcastResponse}
    {r : Outgoing} {goOn : Bool} (h : x.hungUp = false) :
    handsOver? ⟨x, .answering r goOn⟩ ⟨x', if goOn then .reading else .ended⟩ = some r := by
  cases goOn <;> simp [handsOver?, h]

/-- What is read and is a request is taken on. -/
theorem takesOn?_eq_bind (b b' : BroadcastStream) :
    b.takesOn? b' = (b.reads? b').bind Except.toOption := by
  rw [takesOn?, reads?]
  cases b.phase <;> cases b'.phase <;> first | rfl | skip
  all_goals
    cases b.exchange.requests with
    | nil => rfl
    | cons item rest => cases item <;> rfl

end BroadcastStream

namespace Service

/-! ### What is seen of a stream -/

namespace Moment

variable (now : Moment) (index : Nat)

/-- What the client of a stream gives at a moment. -/
def gives? : Option Incoming :=
  match now.move with
  | .broadcastClient j act =>
    if j = index then now.before.broadcasts[j]?.bind fun _ => act.item? else none
  | _ => none

/-- What it takes. -/
def collects? : Option Outgoing :=
  match now.move with
  | .broadcastClient j act =>
    if j = index then now.before.broadcasts[j]?.bind (·.exchange.taken? act) else none
  | _ => none

variable {now : Moment} {index : Nat}

theorem gives?_of_ne (h : ∀ act, now.move ≠ .broadcastClient index act) :
    now.gives? index = none := by
  rw [gives?]
  split
  next j act heq => exact if_neg fun (hj : j = index) => h act (hj ▸ heq)
  next => rfl

theorem collects?_of_ne (h : ∀ act, now.move ≠ .broadcastClient index act) :
    now.collects? index = none := by
  rw [collects?]
  split
  next j act heq => exact if_neg fun (hj : j = index) => h act (hj ▸ heq)
  next => rfl

/-- To a stream that was not opened nothing is given, and nothing is taken from it. -/
theorem gives?_of_none (h : now.before.broadcasts[index]? = none) :
    now.gives? index = none ∧ now.collects? index = none := by
  rw [gives?, collects?]
  cases now.move with
  | broadcastClient j act => by_cases hj : j = index <;> simp [hj, h]
  | _ => exact ⟨rfl, rfl⟩

end Moment

/-- What the client of a stream has given, in order. -/
def itemsGiven (trace : List Moment) (index : Nat) : List Incoming :=
  trace.filterMap (·.gives? index)

/-- What the handler of a stream has read, in order, with the tickets of the requests that it has
handed to the sequencer. -/
def itemsRead (trace : List Moment) (index : Nat) : List Item :=
  trace.filterMap (·.ofBroadcast? index BroadcastStream.reads?)

/-- What the handler of a stream has handed over, in order. -/
def emitted (trace : List Moment) (index : Nat) : List Outgoing :=
  trace.filterMap (·.ofBroadcast? index BroadcastStream.handsOver?)

/-- What the client of a stream has taken, in order. -/
def collected (trace : List Moment) (index : Nat) : List Outgoing :=
  trace.filterMap (·.collects? index)

/-- The transactions that were ordered for a stream. -/
def orderedOn (trace : List Moment) (index : Nat) : List Accepted :=
  (processed trace index).flatMap fun p => appendedOn trace p.2

variable {s s' : Service} {m : Move} {trace : List Moment} {limit index : Nat}
  {items : List Item} {answers : List Outgoing} {item : Item} {r : Outgoing}

theorem itemsGiven_concat (trace : List Moment) (now : Moment) (index : Nat) :
    itemsGiven (trace ++ [now]) index = itemsGiven trace index ++ (now.gives? index).toList :=
  filterMap_concat _ _ _

theorem itemsRead_concat (trace : List Moment) (now : Moment) (index : Nat) :
    itemsRead (trace ++ [now]) index
      = itemsRead trace index ++ (now.ofBroadcast? index BroadcastStream.reads?).toList :=
  filterMap_concat _ _ _

theorem emitted_concat (trace : List Moment) (now : Moment) (index : Nat) :
    emitted (trace ++ [now]) index
      = emitted trace index ++ (now.ofBroadcast? index BroadcastStream.handsOver?).toList :=
  filterMap_concat _ _ _

theorem collected_concat (trace : List Moment) (now : Moment) (index : Nat) :
    collected (trace ++ [now]) index = collected trace index ++ (now.collects? index).toList :=
  filterMap_concat _ _ _

/-- The requests among the items are those that were taken on. -/
theorem processed_eq_filterMap (trace : List Moment) (index : Nat) :
    processed trace index = (itemsRead trace index).filterMap Except.toOption := by
  rw [processed, itemsRead, List.filterMap_filterMap]
  refine List.filterMap_congr fun now _ => ?_
  simp only [Moment.ofBroadcast?, BroadcastStream.takesOn?_eq_bind, Option.bind_eq_bind,
    Option.bind_assoc]

/-! ### Items and answers -/

/-- An item, with the ticket of a request that was handed to the sequencer, and its answer. -/
inductive Replies (s : Service) (trace : List Moment) (limit : Nat) :
    Item → Outgoing → Prop
  /-- The status with which reading broke is handed on. -/
  | unreadable (e : RpcStatus) : Replies s trace limit (.error e) (.error e)
  /-- A request is refused at once. -/
  | refused (request : BroadcastRequest) (info : String)
    (refusal : Broadcast.refusal? limit request = some info) :
    Replies s trace limit (.ok (request, none)) (.ok (Broadcast.refused info))
  /-- A request is answered with what the sequencer said. -/
  | answered (request : BroadcastRequest) (ticket : Nat) (answer : Answer)
    (fit : Broadcast.refusal? limit request = none)
    (submission : s.Submission trace ticket request.payload)
    (answered : s.answer? ticket = some answer) :
    Replies s trace limit (.ok (request, some ticket)) (.ok (Broadcast.response answer))

theorem Replies.move (hr : s.Replies trace limit item r) (ht : s.Tickets)
    (h : s.move? m = some s') : s'.Replies (trace ++ [⟨s, m⟩]) limit item r := by
  cases hr with
  | unreadable e => exact .unreadable e
  | refused request info refusal => exact .refused request info refusal
  | answered request ticket answer fit submission answered =>
    exact .answered request ticket answer fit (submission.move ht h)
      (ht.answer?_concerns (move?_concerns h) answered)

/-- Items that were all answered with a success. -/
structure Successes (s : Service) (trace : List Moment) (limit : Nat)
    (items : List Item) (answers : List Outgoing) : Prop where
  all : List.Forall₂ (s.Replies trace limit) items answers
  good : ∀ r ∈ answers, isSuccess r = true

theorem Successes.move (hs : s.Successes trace limit items answers) (ht : s.Tickets)
    (h : s.move? m = some s') : s'.Successes (trace ++ [⟨s, m⟩]) limit items answers :=
  ⟨hs.all.imp fun _ _ hr => hr.move ht h, hs.good⟩

theorem Successes.all_concat (hs : s.Successes trace limit items answers)
    (hr : s.Replies trace limit item r) :
    List.Forall₂ (s.Replies trace limit) (items ++ [item]) (answers ++ [r]) :=
  List.rel_append hs.all (.cons hr .nil)

theorem Successes.concat (hs : s.Successes trace limit items answers)
    (hr : s.Replies trace limit item r) (good : isSuccess r = true) :
    s.Successes trace limit (items ++ [item]) (answers ++ [r]) where
  all := hs.all_concat hr
  good := List.forall_mem_append.mpr ⟨hs.good, List.forall_mem_singleton.mpr good⟩

/-! ### The handler -/

/-- The items that a handler has read and the answers that it has handed over, wherever it is. -/
inductive Served (s : Service) (trace : List Moment) (limit : Nat) :
    List Item → List Outgoing → BroadcastStream → Prop
  | reading {items answers x} (before : s.Successes trace limit items answers) :
    Served s trace limit items answers ⟨x, .reading⟩
  | submitted {items answers x} (before : s.Successes trace limit items answers)
    (request : BroadcastRequest) (ticket : Nat)
    (fit : Broadcast.refusal? limit request = none)
    (submission : s.Submission trace ticket request.payload) :
    Served s trace limit (items ++ [.ok (request, some ticket)]) answers ⟨x, .submitted ticket⟩
  | answering {items answers x item r} (before : s.Successes trace limit items answers)
    (reply : s.Replies trace limit item r) :
    Served s trace limit (items ++ [item]) answers ⟨x, .answering r (isSuccess r)⟩
  /-- No more items came. -/
  | finished {items answers x} (before : s.Successes trace limit items answers)
    (closed : x.requestsClosed = true) : Served s trace limit items answers ⟨x, .ended⟩
  /-- An answer was no success. -/
  | failed {items answers x item r} (before : s.Successes trace limit items answers)
    (reply : s.Replies trace limit item r) (bad : isSuccess r = false) :
    Served s trace limit (items ++ [item]) (answers ++ [r]) ⟨x, .ended⟩
  /-- An answer could not be handed over. -/
  | abandoned {items answers x item r} (before : s.Successes trace limit items answers)
    (reply : s.Replies trace limit item r) (gone : x.hungUp = true) :
    Served s trace limit (items ++ [item]) answers ⟨x, .ended⟩

namespace Served

variable {x x' : Exchange BroadcastRequest BroadcastResponse} {phase : BroadcastPhase}

/-- The handler stays where it is. -/
theorem mono (hs : s.Served trace limit items answers ⟨x, phase⟩) (ht : s.Tickets)
    (h : s.move? m = some s') (hclosed : x.requestsClosed = true → x'.requestsClosed = true)
    (hgone : x.hungUp = true → x'.hungUp = true) :
    s'.Served (trace ++ [⟨s, m⟩]) limit items answers ⟨x', phase⟩ := by
  cases hs with
  | reading before => exact .reading (before.move ht h)
  | submitted before request ticket fit submission =>
    exact .submitted (before.move ht h) request ticket fit (submission.move ht h)
  | answering before reply => exact .answering (before.move ht h) (reply.move ht h)
  | finished before closed => exact .finished (before.move ht h) (hclosed closed)
  | failed before reply bad => exact .failed (before.move ht h) (reply.move ht h) bad
  | abandoned before reply gone =>
    exact .abandoned (before.move ht h) (reply.move ht h) (hgone gone)

/-- After a success that was handed over the handler reads on, and otherwise it returns. -/
theorem handed (before : s.Successes trace limit items answers)
    (reply : s.Replies trace limit item r) :
    s.Served trace limit (items ++ [item]) (answers ++ [r])
      ⟨x, if isSuccess r then .reading else .ended⟩ := by
  cases hgood : isSuccess r with
  | true => exact .reading (before.concat reply hgood)
  | false => exact .failed before reply hgood

/-- **The handler goes on.** -/
theorem goes {b t b'} (hs : s.Served trace limit items answers b) (hlimit : s.maxPayload = limit)
    (ht : s.Tickets) (hq : s.Queued trace) (hg : BroadcastStream.Goes s b t b')
    (h : s.move? (.event (.broadcast index)) = some (t.setBroadcast index b')) :
    (t.setBroadcast index b').Served (trace ++ [⟨s, .event (.broadcast index)⟩]) limit
      (items ++ (b.reads? b').toList) (answers ++ (b.handsOver? b').toList) b' := by
  have hs : (t.setBroadcast index b').Served _ limit items answers ⟨b.exchange, b.phase⟩ :=
    hs.mono ht h id id
  cases hg with
  | @finished x x' taken =>
    cases hs with
    | reading before =>
      rw [BroadcastStream.reads?, BroadcastStream.handsOver?]
      simp only [Option.toList_none, List.append_nil]
      exact .finished before (Exchange.of_take?_eq_none taken).2
  | @unreadable x x' e taken =>
    cases hs with
    | reading before =>
      rw [BroadcastStream.reads?, BroadcastStream.handsOver?, Exchange.requests_of_take? taken]
      simp only [Option.toList_none, List.append_nil]
      exact .answering before (.unreadable e)
  | @refused x x' request info taken refusal =>
    cases hs with
    | reading before =>
      rw [BroadcastStream.reads?, BroadcastStream.handsOver?, Exchange.requests_of_take? taken]
      simp only [Option.toList_none, List.append_nil]
      exact .answering before (.refused request info (hlimit ▸ refusal))
  | @submitted x x' request taken fit =>
    cases hs with
    | reading before =>
      rw [BroadcastStream.reads?, BroadcastStream.handsOver?, Exchange.requests_of_take? taken]
      simp only [Option.toList_none, List.append_nil]
      have hserve : Move.event (.broadcast index) ≠ .event .serve := nofun
      have hnew := hq.appendedFor_eq_nil hserve
      exact .submitted before request s.nextTicket (hlimit ▸ fit)
        ((submission_send s request.payload hnew).congr (fun _ => id) (fun _ => id) rfl)
  | @answered x ticket answer answered =>
    have hanswer := ht.answer?_concerns (move?_concerns h) answered
    cases hs with
    | submitted before request ticket fit submission =>
      rw [BroadcastStream.reads?, BroadcastStream.handsOver?]
      simp only [Option.toList_none, List.append_nil]
      exact .answering before (.answered request ticket answer fit submission hanswer)
  | @handedOver x x' r goOn queued =>
    obtain ⟨hhere, rfl⟩ := Exchange.of_push_eq_queued queued
    cases hs with
    | answering before reply =>
      rw [BroadcastStream.reads?_of_answering, BroadcastStream.handsOver?_of_here hhere]
      simp only [Option.toList_none, List.append_nil]
      exact .handed before reply
  | @abandoned x r goOn gone =>
    have hgone := Exchange.hungUp_of_push_eq_abandoned gone
    cases hs with
    | answering before reply =>
      simp only [BroadcastStream.reads?, BroadcastStream.handsOver?, hgone, if_true,
        Option.toList_none, List.append_nil]
      exact .abandoned before reply hgone

end Served

/-! ### The queues -/

/-- A move is one of the client of a stream, or it leaves the queues alone. -/
theorem Move.onBroadcast_cases (m : Move) (index : Nat)
    (x : Exchange BroadcastRequest BroadcastResponse) :
    (∃ act, m = .broadcastClient index act ∧ m.onBroadcast index x = x.after act) ∨
      (∀ act, m ≠ .broadcastClient index act) ∧ m.onBroadcast index x = x := by
  cases m with
  | broadcastClient j act =>
    by_cases hj : j = index
    · subst hj
      exact Or.inl ⟨act, rfl, if_pos rfl⟩
    · exact Or.inr ⟨fun act' heq => hj (by cases heq; rfl), if_neg hj⟩
  | _ => exact Or.inr ⟨fun act heq => (by cases heq), rfl⟩

/-- The handler takes from the front of the queue what it reads. -/
theorem requests_of_goes {b t b'} (hg : BroadcastStream.Goes s b t b') :
    (b.reads? b').toList.map (Except.map Prod.fst) ++ b'.exchange.requests
      = b.exchange.requests := by
  cases hg with
  | unreadable taken | refused taken | submitted taken =>
    simp only [BroadcastStream.reads?, BroadcastStream.answer, Exchange.requests_of_take? taken]
    rfl
  | handedOver queued =>
    obtain ⟨-, rfl⟩ := Exchange.of_push_eq_queued queued
    rw [BroadcastStream.reads?_of_answering]
    rfl
  | abandoned =>
    rw [BroadcastStream.reads?_of_answering]
    rfl
  | finished | answered =>
    rw [BroadcastStream.reads?]
    rfl

/-- The handler puts at the end of the queue what it hands over. -/
theorem handed_of_goes {taken sent : List Outgoing} {b t b'}
    (hh : Handed taken sent b.exchange) (hg : BroadcastStream.Goes s b t b') :
    Handed taken (sent ++ (b.handsOver? b').toList) b'.exchange := by
  cases hg with
  | unreadable taken | refused taken | submitted taken =>
    obtain ⟨hresponses, hgone⟩ := Exchange.of_take?_eq_some taken
    rw [BroadcastStream.handsOver?, Option.toList_none, List.append_nil]
    exact hh.congr hresponses hgone
  | @handedOver x x' r goOn queued =>
    obtain ⟨hhere, rfl⟩ := Exchange.of_push_eq_queued queued
    have hall : taken ++ (x.responses ++ [r]) = sent ++ [r] := by
      rw [← hh.eq_of_here hhere, List.append_assoc]
    rw [BroadcastStream.handsOver?_of_here hhere]
    exact ⟨hall ▸ List.prefix_rfl, fun _ => hall⟩
  | @abandoned x r goOn gone =>
    simp only [BroadcastStream.handsOver?, Exchange.hungUp_of_push_eq_abandoned gone, if_true,
      Option.toList_none, List.append_nil]
    exact hh
  | finished | answered =>
    rw [BroadcastStream.handsOver?, Option.toList_none, List.append_nil]
    exact hh

/-- The settings of the service stay. -/
theorem maxPayload_of_move? (h : s.move? m = some s') : s'.maxPayload = s.maxPayload := by
  have hsend : ∀ c, (s.send c).2.maxPayload = s.maxPayload := fun c => by
    rw [send]
    split <;> rfl
  cases m with
  | event e =>
    cases e with
    | serve =>
      change s.serve? = some s' at h
      rw [serve?] at h
      split at h
      · cases h
      · simp only at h
        split at h <;> cases h <;> rfl
    | expire => rw [(expire?_eq_some h).2]
    | close => rw [(close?_eq_some h).2.2]
    | broadcast j =>
      obtain ⟨b, t, b', -, hgoes, rfl⟩ := broadcast?_cases h
      cases hgoes with
      | submitted => exact hsend _
      | _ => rfl
    | deliver j branch =>
      obtain ⟨d, read, sent, t, d', -, hgoes, -, -, rfl⟩ := deliver?_cases h
      have ht : t.maxPayload = s.maxPayload := by
        cases hgoes with
        | asked => exact hsend _
        | _ => rfl
      rw [setDeliver, ← ht]
      split <;> rfl
  | call c => cases h; exact hsend c
  | _ => cases h; rfl

/-! ### Account of a stream -/

/-- The account of a stream that was opened: its answers stand beside its items, and the queues hold
what was not taken yet. -/
structure Conversing (s : Service) (trace : List Moment) (limit index : Nat) (b : BroadcastStream) :
    Prop where
  served : s.Served trace limit (itemsRead trace index) (emitted trace index) b
  given_eq : (itemsRead trace index).map (Except.map Prod.fst) ++ b.exchange.requests
    = itemsGiven trace index
  handed : Handed (collected trace index) (emitted trace index) b.exchange

/-- The account of any stream. -/
inductive Conversed (s : Service) (trace : List Moment) (limit index : Nat) : Prop
  | unopened (none : s.broadcasts[index]? = none) (given : itemsGiven trace index = [])
    (read : itemsRead trace index = []) (emits : emitted trace index = [])
    (collects : collected trace index = [])
  | opened {b : BroadcastStream} (there : s.broadcasts[index]? = some b)
    (account : s.Conversing trace limit index b)

/-- Where the handler does not go on, nothing is read and nothing is handed over. -/
theorem itemsRead_emitted_of_ne (h : s.move? m = some s') (hm : m ≠ .event (.broadcast index))
    (trace : List Moment) : itemsRead (trace ++ [⟨s, m⟩]) index = itemsRead trace index ∧
      emitted (trace ++ [⟨s, m⟩]) index = emitted trace index := by
  rw [itemsRead_concat, emitted_concat,
    Moment.ofBroadcast?_of_ne BroadcastStream.reads?_of_phase_eq h hm,
    Moment.ofBroadcast?_of_ne BroadcastStream.handsOver?_of_phase_eq h hm]
  simp only [Option.toList_none, List.append_nil, and_self]

namespace Conversing

/-- The handler goes on. -/
theorem goes {b t b'} (hc : s.Conversing trace limit index b) (hlimit : s.maxPayload = limit)
    (ht : s.Tickets) (hq : s.Queued trace) (hb : s.broadcasts[index]? = some b)
    (hg : BroadcastStream.Goes s b t b')
    (h : s.move? (.event (.broadcast index)) = some (t.setBroadcast index b')) :
    (t.setBroadcast index b').Conversing (trace ++ [⟨s, .event (.broadcast index)⟩]) limit index
      b' := by
  have hb' := getElem?_setBroadcast hb hg
  have hread := itemsRead_concat trace ⟨s, .event (.broadcast index)⟩ index
  have hemit := emitted_concat trace ⟨s, .event (.broadcast index)⟩ index
  rw [Moment.ofBroadcast?_eq _ h hb hb'] at hread hemit
  have hne : ∀ act, Move.event (.broadcast index) ≠ .broadcastClient index act := nofun
  constructor
  · rw [hread, hemit]
    exact hc.served.goes hlimit ht hq hg h
  · rw [hread, List.map_append, List.append_assoc, requests_of_goes hg, hc.given_eq,
      itemsGiven_concat, Moment.gives?_of_ne hne, Option.toList_none, List.append_nil]
  · rw [hemit, collected_concat, Moment.collects?_of_ne hne, Option.toList_none, List.append_nil]
    exact handed_of_goes hc.handed hg

/-- The client does something, or nothing happens to the stream. -/
theorem onBroadcast {x : Exchange BroadcastRequest BroadcastResponse} {phase : BroadcastPhase}
    (hc : s.Conversing trace limit index ⟨x, phase⟩) (ht : s.Tickets)
    (hb : s.broadcasts[index]? = some ⟨x, phase⟩) (h : s.move? m = some s')
    (hm : m ≠ .event (.broadcast index)) :
    s'.Conversing (trace ++ [⟨s, m⟩]) limit index ⟨m.onBroadcast index x, phase⟩ := by
  obtain ⟨hread, hemit⟩ := itemsRead_emitted_of_ne h hm trace
  have hgiven := itemsGiven_concat trace ⟨s, m⟩ index
  have hcollects := collected_concat trace ⟨s, m⟩ index
  rcases m.onBroadcast_cases index x with ⟨act, rfl, hx⟩ | ⟨hne, hx⟩
  · have hgives : (⟨s, .broadcastClient index act⟩ : Moment).gives? index = act.item? := by
      simp [Moment.gives?, hb]
    have htakes : (⟨s, .broadcastClient index act⟩ : Moment).collects? index = x.taken? act := by
      simp [Moment.collects?, hb]
    rw [hx]
    constructor
    · rw [hread, hemit]
      exact hc.served.mono ht h (x.requestsClosed_after act) (x.hungUp_after act)
    · rw [hread, hgiven, hgives, ← hc.given_eq, x.requests_after act, List.append_assoc]
    · rw [hcollects, htakes, hemit]
      exact hc.handed.after act
  · rw [hx]
    constructor
    · rw [hread, hemit]
      exact hc.served.mono ht h id id
    · rw [hread, hgiven, Moment.gives?_of_ne hne, Option.toList_none, List.append_nil]
      exact hc.given_eq
    · rw [hcollects, Moment.collects?_of_ne hne, Option.toList_none, List.append_nil, hemit]
      exact hc.handed

end Conversing

/-- **Every move keeps account of every stream.** -/
theorem Conversed.move (hc : s.Conversed trace limit index) (hlimit : s.maxPayload = limit)
    (ht : s.Tickets) (hq : s.Queued trace) (h : s.move? m = some s') :
    s'.Conversed (trace ++ [⟨s, m⟩]) limit index := by
  by_cases hm : m = .event (.broadcast index)
  · subst hm
    obtain ⟨b, t, b', hb, hgoes, rfl⟩ := broadcast?_cases h
    cases hc with
    | unopened hnone => cases hnone.symm.trans hb
    | opened there account =>
      obtain rfl := Option.some.inj (hb.symm.trans there)
      exact .opened (getElem?_setBroadcast hb hgoes) (account.goes hlimit ht hq hb hgoes h)
  · rcases exists_onBroadcast_of_move? h hm with ⟨hnone, hnew⟩ | ⟨x, phase, hb, hb'⟩
    · cases hc with
      | opened there => cases hnone.symm.trans there
      | unopened _ given read emits collects =>
        obtain ⟨hread, hemit⟩ := itemsRead_emitted_of_ne h hm trace
        have hnow : (⟨s, m⟩ : Moment).before.broadcasts[index]? = none := hnone
        obtain ⟨hgives, htakes⟩ := Moment.gives?_of_none hnow
        have hgiven := itemsGiven_concat trace ⟨s, m⟩ index
        have hcollects := collected_concat trace ⟨s, m⟩ index
        rw [hgives, given] at hgiven
        rw [htakes, collects] at hcollects
        rw [read] at hread
        rw [emits] at hemit
        cases hb' : s'.broadcasts[index]? with
        | none => exact .unopened hb' hgiven hread hemit hcollects
        | some b =>
          obtain ⟨capacity, rfl⟩ := hnew b hb'
          refine .opened hb' ⟨?_, by rw [hread, hgiven]; rfl, ?_⟩
          · rw [hread, hemit]
            exact .reading ⟨.nil, nofun⟩
          · rw [hcollects, hemit]
            exact ⟨List.prefix_rfl, fun _ => rfl⟩
    · cases hc with
      | unopened hnone => cases hnone.symm.trans hb
      | opened there account =>
        obtain rfl := Option.some.inj (hb.symm.trans there)
        exact .opened hb' (account.onBroadcast ht hb h hm)

/-- After every run every broadcast stream is accounted for. -/
theorem run?_conversed {c : SequencerConfig} {maxPayload : Nat} {moves : List Move}
    (hrun : (Service.new c maxPayload).run? moves = some (trace, s)) (index : Nat) :
    s.Tickets ∧ s.Conversed trace maxPayload index := by
  have hkept : s.Tickets ∧ s.Queued trace ∧ s.maxPayload = maxPayload ∧
      s.Conversed trace maxPayload index := by
    refine run?_keeps (P := fun s trace => s.Tickets ∧ s.Queued trace ∧
      s.maxPayload = maxPayload ∧ s.Conversed trace maxPayload index) ?_ ?_ hrun
    · rintro s m s' trace ⟨ht, hq, hlimit, hc⟩ hmove
      exact ⟨ht.concerns (move?_concerns hmove), hq.move hmove,
        (maxPayload_of_move? hmove).trans hlimit, hc.move hlimit ht hq hmove⟩
    · exact ⟨.new c maxPayload, .new c maxPayload, rfl, .unopened rfl rfl rfl rfl rfl⟩
  exact ⟨hkept.1, hkept.2.2.2⟩

theorem conversing_of_run? {c : SequencerConfig} {maxPayload : Nat} {moves : List Move}
    {b : BroadcastStream} (hrun : (Service.new c maxPayload).run? moves = some (trace, s))
    (hb : s.broadcasts[index]? = some b) : s.Conversing trace maxPayload index b := by
  cases (run?_conversed hrun index).2 with
  | unopened hnone => cases hnone.symm.trans hb
  | opened there account =>
    obtain rfl := Option.some.inj (hb.symm.trans there)
    exact account

/-! ### Transactions against answers -/

/-- The transactions that were ordered for an item. -/
def orderedFor (trace : List Moment) (item : Item) : List Accepted :=
  item.toOption.elim [] fun p => appendedOn trace p.2

theorem orderedOn_eq_flatMap (trace : List Moment) (index : Nat) :
    orderedOn trace index = (itemsRead trace index).flatMap (orderedFor trace) := by
  rw [orderedOn, processed_eq_filterMap]
  induction itemsRead trace index with
  | nil => rfl
  | cons item rest ih =>
    rw [List.flatMap_cons, ← ih]
    cases item with
    | error e => rfl
    | ok p => rfl

theorem isSuccess_refused (info : String) : isSuccess (.ok (Broadcast.refused info)) = false := by
  rw [isSuccess, Broadcast.refused, BroadcastResponse.meaning_withStatus]
  rfl

theorem isSuccess_response_receipt (receipt : Receipt) :
    isSuccess (.ok (Broadcast.response (.ok (.receipt receipt)))) = true := by
  rw [isSuccess, Broadcast.response, BroadcastResponse.meaning_withStatus]
  rfl

/-- For an item that was answered with a success there is one transaction, and for any other one
there is none. -/
theorem Replies.length_orderedFor (hr : s.Replies trace limit item r) (ht : s.Tickets) :
    (orderedFor trace item).length = if isSuccess r then 1 else 0 := by
  cases hr with
  | unreadable e => rfl
  | refused request info refusal => rw [isSuccess_refused]; rfl
  | answered request ticket answer fit submission answered =>
    show (appendedFor trace ticket).length = _
    rcases submission.appendedFor_eq ht answered with ⟨receipt, rfl, happended⟩ | ⟨e, rfl, hnone⟩
    · rw [happended, isSuccess_response_receipt]
      rfl
    · rw [hnone, Broadcast.response, isSuccess_refused]
      rfl

theorem length_orderedFor_of_all (hall : List.Forall₂ (s.Replies trace limit) items answers)
    (ht : s.Tickets) :
    (items.flatMap (orderedFor trace)).length = answers.countP isSuccess := by
  induction hall with
  | nil => rfl
  | cons hr _ ih =>
    rw [List.flatMap_cons, List.length_append, ih, hr.length_orderedFor ht, List.countP_cons,
      Nat.add_comm]

/-- **A transaction was ordered for each success that was handed over,** and for one more item at
most. -/
theorem Served.length_orderedFor {b : BroadcastStream} (hs : s.Served trace limit items answers b)
    (ht : s.Tickets) :
    answers.countP isSuccess ≤ (items.flatMap (orderedFor trace)).length ∧
      (items.flatMap (orderedFor trace)).length ≤ answers.countP isSuccess + 1 := by
  have hlast : ∀ {items answers item} {n : Nat}, s.Successes trace limit items answers →
      (orderedFor trace item).length = n → n ≤ 1 →
      answers.countP isSuccess ≤ ((items ++ [item]).flatMap (orderedFor trace)).length ∧
        ((items ++ [item]).flatMap (orderedFor trace)).length ≤ answers.countP isSuccess + 1 := by
    intro items answers item n before hn hle
    rw [List.flatMap_append, List.flatMap_singleton, List.length_append,
      length_orderedFor_of_all before.all ht, hn]
    omega
  have hreply : ∀ {item r}, s.Replies trace limit item r → (orderedFor trace item).length ≤ 1 := by
    intro item r hr
    rw [hr.length_orderedFor ht]
    split <;> omega
  cases hs with
  | reading before | finished before _ =>
    rw [length_orderedFor_of_all before.all ht]
    omega
  | submitted before request ticket fit submission =>
    refine hlast before rfl ?_
    show (appendedFor trace ticket).length ≤ 1
    cases submission with
    | waiting _ nothing | refused _ _ nothing => simp [nothing]
    | accepted receipt _ appended => simp [appended]
  | answering before reply | abandoned before reply _ => exact hlast before rfl (hreply reply)
  | failed before reply bad =>
    rw [length_orderedFor_of_all (before.all_concat reply) ht]
    omega

end Service

end OrderingService
