import OrderingService.Proofs.Stream.Places

/-!
# A deliver stream catches up

A stream that has a place in what is published, and has not fallen too far behind, can read all that
is there and have its client take every answer, while the rest of the service stands still. Only its
handler and its client have to move, and no other branch of the handler has to be attended to.

The service is kept fixed but for the state of the stream, so that moves lead from one state of the
stream to another.

## Main definitions

* `Service.Move.Follows` — the moves by which a stream catches up
* `Service.Leads` — such moves lead from one state of a stream to another

## Main results

* `Service.leads_streaming` — a stream that has a place goes on reading from there
* `Service.exists_leads_unread_eq_zero` — a stream catches up
-/

namespace OrderingService

open DeliverStream (Incoming Outgoing)

namespace Service

variable {s : Service} {index : Nat} {d d' d'' : DeliverStream} {phase : DeliverPhase}
  {sub : Subscription} {x : Exchange DeliverRequest DeliverResponse}

/-- The client of a stream takes an answer, or its handler attends to what is published. -/
def Move.Follows (index : Nat) (m : Move) : Prop :=
  m = .deliverClient index .take ∨ m = .event (.deliver index .ordered)

/-- The service with another state of a stream. -/
def withDeliver (s : Service) (index : Nat) (d : DeliverStream) : Service :=
  { s with delivers := s.delivers.set index d }

/-- Moves of a stream and its client lead from one state of the stream to another, and nothing else
changes. -/
def Leads (s : Service) (index : Nat) (d d' : DeliverStream) : Prop :=
  ∃ moves trace, (∀ m ∈ moves, m.Follows index) ∧
    (s.withDeliver index d).run? moves = some (trace, s.withDeliver index d')

theorem withDeliver_of_getElem? (h : s.delivers[index]? = some d) : s.withDeliver index d = s := by
  obtain ⟨hlt, rfl⟩ := List.getElem?_eq_some_iff.mp h
  rw [withDeliver, List.set_getElem_self]

namespace Leads

theorem refl (s : Service) (index : Nat) (d : DeliverStream) : s.Leads index d d :=
  ⟨[], [], fun _ h => absurd h List.not_mem_nil, rfl⟩

theorem trans (h : s.Leads index d d') (h' : s.Leads index d' d'') : s.Leads index d d'' := by
  obtain ⟨moves, trace, hmoves, hrun⟩ := h
  obtain ⟨moves', trace', hmoves', hrun'⟩ := h'
  refine ⟨moves ++ moves', trace ++ trace', fun m hm => ?_, run?_append hrun hrun'⟩
  exact (List.mem_append.mp hm).elim (hmoves m) (hmoves' m)

/-- One move. -/
theorem single {m : Move} (hm : m.Follows index)
    (h : (s.withDeliver index d).move? m = some (s.withDeliver index d')) :
    s.Leads index d d' :=
  ⟨[m], _, fun _ hmem => List.mem_singleton.mp hmem ▸ hm, run?_cons h rfl⟩

theorem take (s : Service) (index : Nat) (x : Exchange DeliverRequest DeliverResponse)
    (phase : DeliverPhase) :
    s.Leads index ⟨x, phase⟩ ⟨{ x with responses := x.responses.tail }, phase⟩ := by
  refine single (Or.inl rfl) ?_
  rw [move?, withDeliver, withDeliver]
  refine congrArg some (congrArg (fun delivers => { s with delivers }) ?_)
  refine List.ext_getElem? fun j => ?_
  rw [List.getElem?_modify, List.getElem?_set, List.getElem?_set]
  by_cases hj : index = j
  · simp [hj, Exchange.after]
  · simp [hj]

/-- The client takes every answer. -/
theorem takeAll (s : Service) (index : Nat) (x : Exchange DeliverRequest DeliverResponse)
    (phase : DeliverPhase) :
    s.Leads index ⟨x, phase⟩ ⟨{ x with responses := [] }, phase⟩ := by
  generalize hn : x.responses.length = n
  induction n generalizing x with
  | zero =>
    rw [← List.eq_nil_of_length_eq_zero hn]
    exact refl s index _
  | succ n ih =>
    refine (take s index x phase).trans (ih { x with responses := x.responses.tail } ?_)
    rw [List.length_tail, hn]
    rfl

/-- The handler attends to what is published. -/
theorem deliver (hd : d'.isEnded = false)
    (h : (s.withDeliver index d).deliver? index .ordered
      = some ((s.withDeliver index d).setDeliver index d')) : s.Leads index d d' := by
  refine single (Or.inr rfl) ?_
  show (s.withDeliver index d).deliver? index .ordered = _
  rw [h, setDeliver, hd, withDeliver, withDeliver, if_neg Bool.false_ne_true]
  exact congrArg (fun delivers => some { s with delivers }) (List.set_set ..)

theorem getElem?_withDeliver (hlt : index < s.delivers.length) (d : DeliverStream) :
    (s.withDeliver index d).delivers[index]? = some d := List.getElem?_set_self hlt

theorem granted (hlt : index < s.delivers.length) {ticket : Nat}
    (h : s.answer? ticket = some (.ok (.subscription sub))) :
    s.Leads index ⟨x, .subscribing ticket⟩
      ⟨x, .answering (.ok (.withStatus .success)) (some sub)⟩ := by
  refine deliver rfl ?_
  have hanswer : (s.withDeliver index ⟨x, .subscribing ticket⟩).answer? ticket
      = some (.ok (.subscription sub)) := h
  simp only [deliver?, getElem?_withDeliver hlt, Option.bind_eq_bind, Option.bind_some, hanswer]
  rfl

theorem handedOver (hlt : index < s.delivers.length) (hhere : x.hungUp = false)
    (hroom : x.responses.length < x.capacity) (r : Outgoing) (sub : Subscription) :
    s.Leads index ⟨x, .answering r (some sub)⟩
      ⟨{ x with responses := x.responses ++ [r] }, .streaming sub⟩ := by
  refine deliver rfl ?_
  simp only [deliver?, getElem?_withDeliver hlt, Option.bind_eq_bind, Option.bind_some,
    DeliverStream.handOver?, Exchange.push, hhere, if_pos hroom]
  rfl

theorem ordered (hlt : index < s.delivers.length) {tx : OrderedTransaction} {sub' : Subscription}
    (h : s.sequencer.read sub = (.transaction tx, sub')) :
    s.Leads index ⟨x, .streaming sub⟩ ⟨x, .answering (.ok (.txid tx.txid)) (some sub')⟩ := by
  refine deliver rfl ?_
  have hread : (s.withDeliver index ⟨x, .streaming sub⟩).sequencer.read sub
      = (.transaction tx, sub') := h
  simp only [deliver?, getElem?_withDeliver hlt, Option.bind_eq_bind, Option.bind_some,
    DeliverStream.attend?, hread]
  rfl

end Leads

/-- A stream that has a place goes on reading from there, and its client takes what is told. -/
theorem leads_streaming (hlt : index < s.delivers.length) (hhere : x.hungUp = false)
    (hroom : 0 < x.capacity) (h : s.placeOf? phase = some sub) :
    s.Leads index ⟨x, phase⟩ ⟨{ x with responses := [] }, .streaming sub⟩ := by
  have hanswering : ∀ (x : Exchange DeliverRequest DeliverResponse) (r : Outgoing),
      x.hungUp = false → 0 < x.capacity →
        s.Leads index ⟨x, .answering r (some sub)⟩
          ⟨{ x with responses := [] }, .streaming sub⟩ := by
    intro x r hhere hroom
    refine (Leads.takeAll s index x _).trans ?_
    exact (Leads.handedOver (x := { x with responses := [] }) hlt hhere hroom r sub).trans
      (Leads.takeAll s index _ _)
  cases phase with
  | waiting | ended => cases h
  | subscribing ticket =>
    exact (Leads.granted hlt (placeOf?_subscribing.mp h)).trans (hanswering x _ hhere hroom)
  | answering r goOn =>
    cases h
    exact hanswering x r hhere hroom
  | streaming sub' =>
    cases h
    exact Leads.takeAll s index x _

/-- What is there is read when it is still kept. -/
theorem exists_read_eq_transaction {q : Sequencer} (hpos : 0 < q.unread sub)
    (hkept : q.unread sub ≤ q.kept) :
    ∃ tx, q.read sub = (.transaction tx, ⟨sub.next + 1⟩) := by
  have hlt : sub.next < q.published.length := Nat.lt_of_sub_pos hpos
  refine ⟨q.published[sub.next], ?_⟩
  rw [Sequencer.read, if_neg (Nat.not_lt.mpr hkept), List.getElem?_eq_getElem hlt]

/-- **A stream catches up.** The induction is on what it has not read. -/
theorem exists_leads_unread_eq_zero (hlt : index < s.delivers.length) (hhere : x.hungUp = false)
    (hroom : 0 < x.capacity) (h : s.placeOf? phase = some sub)
    (hkept : s.sequencer.unread sub ≤ s.sequencer.kept) :
    ∃ sub', s.sequencer.unread sub' = 0 ∧
      s.Leads index ⟨x, phase⟩ ⟨{ x with responses := [] }, .streaming sub'⟩ := by
  generalize hn : s.sequencer.unread sub = n at hkept
  induction n generalizing sub phase x with
  | zero => exact ⟨sub, hn, leads_streaming hlt hhere hroom h⟩
  | succ n ih =>
    obtain ⟨tx, hread⟩ := exists_read_eq_transaction (hn ▸ Nat.succ_pos n) (hn ▸ hkept)
    have hnext : s.sequencer.published.length - (sub.next + 1) = n := by
      rw [Sequencer.unread] at hn
      omega
    have hanswering : s.placeOf? (.answering (.ok (.txid tx.txid)) (some ⟨sub.next + 1⟩))
        = some ⟨sub.next + 1⟩ := rfl
    obtain ⟨sub', hall, hleads⟩ := ih (x := { x with responses := [] }) hhere hroom hanswering hnext
      (Nat.le_of_succ_le hkept)
    have hstreaming := leads_streaming hlt hhere hroom h
    exact ⟨sub', hall, hstreaming.trans ((Leads.ordered hlt hread).trans hleads)⟩

end Service

end OrderingService
