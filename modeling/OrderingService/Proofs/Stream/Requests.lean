import Mathlib.Data.List.Forall2
import OrderingService.Proofs.Service.Submissions

/-!
# Requests of a broadcast stream and what comes of them

The handler of a broadcast stream takes requests on one by one. It comes to an answer at once, or
hands the payload to the sequencer and waits under a ticket. So there is an answer for each request
that was taken on, apart from the last one while the handler waits, and every answer that rests on a
ticket rests on an answer of the sequencer, which stays.

Requests and answers are read off the streams before and after each moment.

## Main definitions

* `Service.processed` — the requests that a stream has taken on, with their tickets
* `Service.responses` — the answers that it has come to
* `Service.Settled` — a request and its answer
* `Service.Account` — all requests and answers of a stream

## Main results

* `Service.Account.move` — every move keeps account of every stream
* `Service.Submission.exists_responded` — a request that waits for its answer can be answered
-/

namespace OrderingService

namespace BroadcastStream

/-- The request that is taken on by a handler on its way from `b` to `b'`, with the ticket under
which it then waits, if it does. -/
def takesOn? (b b' : BroadcastStream) : Option (BroadcastRequest × Option Nat) :=
  match b.phase, b'.phase, b.exchange.requests with
  | .reading, .submitted ticket, .ok request :: _ => some (request, some ticket)
  | .reading, .answering _ _, .ok request :: _ => some (request, none)
  | _, _, _ => none

/-- The answer that a handler comes to on its way from `b` to `b'`. -/
def comesTo? (b b' : BroadcastStream) : Option BroadcastResponse :=
  match b.phase, b'.phase with
  | .answering _ _, _ => none
  | _, .answering (.ok r) _ => some r
  | _, _ => none

variable {b b' : BroadcastStream}

theorem takesOn?_of_phase_eq (h : b'.phase = b.phase) : b.takesOn? b' = none := by
  rw [takesOn?, h]
  split
  next hphase hphase' _ => cases hphase.symm.trans hphase'
  next hphase hphase' _ => cases hphase.symm.trans hphase'
  next => rfl

theorem comesTo?_of_phase_eq (h : b'.phase = b.phase) : b.comesTo? b' = none := by
  rw [comesTo?, h]
  cases b.phase with
  | _ => rfl

end BroadcastStream

theorem Exchange.requests_of_take? {Request Response : Type} {x x' : Exchange Request Response}
    {item : Except RpcStatus Request} (h : x.take? = some (some item, x')) :
    x.requests = item :: x'.requests := by
  rw [take?] at h
  split at h
  next hrequests => cases h; exact hrequests
  next => split at h <;> cases h

namespace Service

/-! ### What is seen of a stream -/

/-- What is seen of a broadcast stream at a moment. -/
def Moment.ofBroadcast? {α : Type} (now : Moment) (index : Nat)
    (f : BroadcastStream → BroadcastStream → Option α) : Option α := do
  f (← now.before.broadcasts[index]?) (← now.after.broadcasts[index]?)

/-- The requests that a stream has taken on, with the tickets of those that were handed to the
sequencer. -/
def processed (trace : List Moment) (index : Nat) : List (BroadcastRequest × Option Nat) :=
  trace.filterMap (·.ofBroadcast? index BroadcastStream.takesOn?)

/-- The answers that a stream has come to. -/
def responses (trace : List Moment) (index : Nat) : List BroadcastResponse :=
  trace.filterMap (·.ofBroadcast? index BroadcastStream.comesTo?)

/-- What was added to the ledger on behalf of a request, by its ticket. -/
def appendedOn (trace : List Moment) (ticket? : Option Nat) : List Accepted :=
  ticket?.elim [] (appendedFor trace)

variable {s s' : Service} {m : Move} {trace : List Moment} {index : Nat}

theorem Moment.ofBroadcast?_eq {α : Type} (f : BroadcastStream → BroadcastStream → Option α)
    {b b' : BroadcastStream} (h : s.move? m = some s') (hb : s.broadcasts[index]? = some b)
    (hb' : s'.broadcasts[index]? = some b') :
    (⟨s, m⟩ : Moment).ofBroadcast? index f = f b b' := by
  rw [ofBroadcast?, after_eq h, hb, hb']
  rfl

/-- Where the handler does not go on, nothing is seen of it. -/
theorem Moment.ofBroadcast?_of_ne {α : Type} {f : BroadcastStream → BroadcastStream → Option α}
    (hf : ∀ {b b'}, b'.phase = b.phase → f b b' = none) (h : s.move? m = some s')
    (hm : m ≠ .event (.broadcast index)) : (⟨s, m⟩ : Moment).ofBroadcast? index f = none := by
  rcases getElem?_broadcasts_of_move? h hm with ⟨hnone, -⟩ | ⟨x, x', phase, hb, hb'⟩
  · rw [ofBroadcast?, hnone]
    rfl
  · rw [ofBroadcast?_eq f h hb hb']
    exact hf rfl

theorem getElem?_setBroadcast {t : Service} {b b' : BroadcastStream}
    (hb : s.broadcasts[index]? = some b) (hg : BroadcastStream.Goes s b t b') :
    (t.setBroadcast index b').broadcasts[index]? = some b' := by
  have hlt := (List.getElem?_eq_some_iff.mp hb).1
  rw [← broadcasts_of_goes hg] at hlt
  exact List.getElem?_set_self hlt

theorem processed_concat (trace : List Moment) (now : Moment) (index : Nat) :
    processed (trace ++ [now]) index
      = processed trace index ++ (now.ofBroadcast? index BroadcastStream.takesOn?).toList :=
  filterMap_concat _ _ _

theorem responses_concat (trace : List Moment) (now : Moment) (index : Nat) :
    responses (trace ++ [now]) index
      = responses trace index ++ (now.ofBroadcast? index BroadcastStream.comesTo?).toList :=
  filterMap_concat _ _ _

/-! ### Account of a stream -/

/-- A request, with its ticket if it has one, and its answer: it was refused at once, or it was
submitted and the answer is the one for what the sequencer said. -/
inductive Settled (s : Service) (trace : List Moment) :
    BroadcastRequest × Option Nat → BroadcastResponse → Prop
  | refused (request : BroadcastRequest) (info : String) :
    Settled s trace (request, none) (Broadcast.refused info)
  | answered (request : BroadcastRequest) (ticket : Nat) (answer : Answer)
    (submission : s.Submission trace ticket request.payload)
    (answered : s.answer? ticket = some answer) :
    Settled s trace (request, some ticket) (Broadcast.response answer)

/-- The requests that a stream has taken on and the answers that it has come to: each request is
settled, except for the last one while its handler waits. -/
inductive Account (s : Service) (trace : List Moment) :
    List (BroadcastRequest × Option Nat) → List BroadcastResponse → Option BroadcastPhase → Prop
  | settled {requests answers phase?} (all : List.Forall₂ (Settled s trace) requests answers)
    (free : ∀ ticket, phase? ≠ some (.submitted ticket)) : Account s trace requests answers phase?
  | waiting {requests answers} (all : List.Forall₂ (Settled s trace) requests answers)
    (request : BroadcastRequest) (ticket : Nat)
    (submission : s.Submission trace ticket request.payload) :
    Account s trace (requests ++ [(request, some ticket)]) answers (some (.submitted ticket))

variable {requests : List (BroadcastRequest × Option Nat)} {answers : List BroadcastResponse}

theorem Settled.move {p : BroadcastRequest × Option Nat} {r : BroadcastResponse}
    (hs : s.Settled trace p r) (ht : s.Tickets) (h : s.move? m = some s') :
    s'.Settled (trace ++ [⟨s, m⟩]) p r := by
  cases hs with
  | refused request info => exact .refused request info
  | answered request ticket answer submission answered =>
    exact .answered request ticket answer (submission.move ht h)
      (ht.answer?_concerns (move?_concerns h) answered)

namespace Account

/-- The handler stays where it is. -/
theorem mono {phase? : Option BroadcastPhase} (ha : s.Account trace requests answers phase?)
    (ht : s.Tickets) (h : s.move? m = some s') :
    s'.Account (trace ++ [⟨s, m⟩]) requests answers phase? := by
  have hall : ∀ {requests answers}, List.Forall₂ (s.Settled trace) requests answers →
      List.Forall₂ (s'.Settled (trace ++ [⟨s, m⟩])) requests answers :=
    fun hall => hall.imp fun _ _ hs => hs.move ht h
  cases ha with
  | settled all free => exact .settled (hall all) free
  | waiting all request ticket submission =>
    exact .waiting (hall all) request ticket (submission.move ht h)

/-- **The handler goes on.** -/
theorem goes {b t b'} (ha : s.Account trace requests answers (some b.phase)) (ht : s.Tickets)
    (hq : s.Queued trace) (hg : BroadcastStream.Goes s b t b')
    (h : s.move? (.event (.broadcast index)) = some (t.setBroadcast index b')) :
    (t.setBroadcast index b').Account (trace ++ [⟨s, .event (.broadcast index)⟩])
      (requests ++ (b.takesOn? b').toList) (answers ++ (b.comesTo? b').toList)
      (some b'.phase) := by
  have ha := ha.mono ht h
  cases hg with
  | finished _ | abandoned _ =>
    cases ha with
    | settled all free =>
      rw [BroadcastStream.takesOn?, BroadcastStream.comesTo?]
      simp only [Option.toList_none, List.append_nil]
      exact .settled all nofun
  | unreadable taken =>
    cases ha with
    | settled all free =>
      rw [BroadcastStream.takesOn?, BroadcastStream.comesTo?, Exchange.requests_of_take? taken]
      simp only [Option.toList_none, List.append_nil]
      exact .settled all nofun
  | @refused x x' request info taken refusal =>
    cases ha with
    | settled all free =>
      rw [BroadcastStream.takesOn?, BroadcastStream.comesTo?, Exchange.requests_of_take? taken]
      exact .settled (List.rel_append all (.cons (.refused request info) .nil)) nofun
  | @submitted x x' request taken fit =>
    cases ha with
    | settled all free =>
      rw [BroadcastStream.takesOn?, BroadcastStream.comesTo?, Exchange.requests_of_take? taken]
      simp only [Option.toList_none, List.append_nil]
      have hserve : Move.event (.broadcast index) ≠ .event .serve := nofun
      have hnew := hq.appendedFor_eq_nil hserve
      exact .waiting all request s.nextTicket
        ((submission_send s request.payload hnew).congr (fun _ => id) (fun _ => id) rfl)
  | @answered x ticket answer answered =>
    have hanswer := ht.answer?_concerns (move?_concerns h) answered
    cases ha with
    | settled all free => exact absurd rfl (free ticket)
    | waiting all request ticket submission =>
      rw [BroadcastStream.takesOn?, BroadcastStream.comesTo?]
      simp only [Option.toList_none, List.append_nil]
      exact .settled (List.rel_append all
        (.cons (.answered request ticket answer submission hanswer) .nil)) nofun
  | handedOver queued =>
    cases ha with
    | settled all free =>
      rw [BroadcastStream.takesOn?, BroadcastStream.comesTo?]
      simp only [Option.toList_none, List.append_nil]
      exact .settled all (by split <;> nofun)

/-- **Every move keeps account of every stream.** -/
theorem move (ha : s.Account trace (processed trace index) (responses trace index)
      (s.broadcasts[index]?.map (·.phase))) (ht : s.Tickets) (hq : s.Queued trace)
    (h : s.move? m = some s') :
    s'.Account (trace ++ [⟨s, m⟩]) (processed (trace ++ [⟨s, m⟩]) index)
      (responses (trace ++ [⟨s, m⟩]) index) (s'.broadcasts[index]?.map (·.phase)) := by
  rw [processed_concat, responses_concat]
  by_cases hm : m = .event (.broadcast index)
  · subst hm
    obtain ⟨b, t, b', hb, hgoes, rfl⟩ := broadcast?_cases h
    have hb' := getElem?_setBroadcast hb hgoes
    rw [Moment.ofBroadcast?_eq _ h hb hb', Moment.ofBroadcast?_eq _ h hb hb', hb']
    rw [hb] at ha
    exact ha.goes ht hq hgoes h
  · have ha := ha.mono ht h
    rw [Moment.ofBroadcast?_of_ne BroadcastStream.takesOn?_of_phase_eq h hm,
      Moment.ofBroadcast?_of_ne BroadcastStream.comesTo?_of_phase_eq h hm,
      Option.toList_none, List.append_nil, Option.toList_none, List.append_nil]
    rcases getElem?_broadcasts_of_move? h hm with ⟨hnone, hnew⟩ | ⟨x, x', phase, hb, hb'⟩
    · rw [hnone] at ha
      generalize processed trace index = requests at ha ⊢
      cases ha with
      | settled all free =>
        refine .settled all fun ticket heq => ?_
        obtain ⟨b, hb, hphase⟩ := Option.map_eq_some_iff.mp heq
        cases (hnew b hb).symm.trans hphase
    · rw [hb] at ha
      rwa [hb']

end Account

/-- **A request that waits for its answer can be answered:** the sequencer only has to go on with
its mailbox, and then the handler. -/
theorem Submission.exists_responded {ticket : Nat} {payload : Bytes}
    (hs : s.Submission trace ticket payload) (ht : s.Tickets)
    (hphase : s.broadcasts[index]?.map (·.phase) = some (.submitted ticket)) :
    ∃ n trace' s', s.run? (List.replicate n (.event .serve) ++ [.event (.broadcast index)])
        = some (trace', s') ∧
      ∀ t, s'.broadcasts[index]?.map (·.phase) ≠ some (.submitted t) := by
  obtain ⟨n, trace', s₁, answer, hrun, hanswer, hsame⟩ := hs.exists_answered ht
  obtain ⟨⟨x, phase⟩, hb, rfl⟩ := Option.map_eq_some_iff.mp hphase
  rw [← hsame] at hb
  have hmove : s₁.move? (.event (.broadcast index)) = some
      (s₁.answerBroadcast index ⟨x, .submitted ticket⟩ (Broadcast.response answer)) := by
    simp [move?, step?, broadcast?, hb, hanswer]
  refine ⟨n, _, _, run?_append hrun (run?_cons hmove rfl), fun t heq => ?_⟩
  have hlt := (List.getElem?_eq_some_iff.mp hb).1
  rw [answerBroadcast, setBroadcast, List.getElem?_set_self (by exact hlt)] at heq
  cases heq

/-! ### Tickets of requests -/

/-- What is at a position of a log that may have one more entry. -/
theorem getElem?_append_toList {α : Type} {l : List α} {o : Option α} {k : Nat} {a : α}
    (h : (l ++ o.toList)[k]? = some a) : l[k]? = some a ∨ (k = l.length ∧ o = some a) := by
  rcases Nat.lt_or_ge k l.length with hlt | hge
  · rw [List.getElem?_append_left hlt] at h
    exact Or.inl h
  · rw [List.getElem?_append_right hge] at h
    cases o with
    | none => cases h
    | some b =>
      rw [Option.toList_some, List.getElem?_singleton] at h
      split at h
      next hzero => exact Or.inr ⟨by omega, h⟩
      next => cases h

/-- A ticket under which a request waits is a new one. -/
theorem nextTicket_of_takesOn? (h : s.move? m = some s') {request : BroadcastRequest} {ticket : Nat}
    (htakes : (⟨s, m⟩ : Moment).ofBroadcast? index BroadcastStream.takesOn?
      = some (request, some ticket)) :
    m = .event (.broadcast index) ∧ ticket = s.nextTicket ∧ s'.nextTicket = s.nextTicket + 1 := by
  by_cases hm : m = .event (.broadcast index)
  · subst hm
    obtain ⟨b, t, b', hb, hgoes, rfl⟩ := broadcast?_cases h
    rw [Moment.ofBroadcast?_eq _ h hb (getElem?_setBroadcast hb hgoes),
      BroadcastStream.takesOn?] at htakes
    cases hgoes with
    | submitted taken =>
      rw [Exchange.requests_of_take? taken] at htakes
      cases htakes
      exact ⟨rfl, rfl, nextTicket_send s _⟩
    | refused taken => rw [Exchange.requests_of_take? taken] at htakes; cases htakes
    | unreadable taken => rw [Exchange.requests_of_take? taken] at htakes; cases htakes
    | _ => cases htakes
  · cases (Moment.ofBroadcast?_of_ne BroadcastStream.takesOn?_of_phase_eq h hm).symm.trans htakes

/-- Each request that was handed to the sequencer has its own ticket. -/
structure Distinct (s : Service) (trace : List Moment) : Prop where
  lt_nextTicket : ∀ i request ticket, (request, some ticket) ∈ processed trace i →
    ticket < s.nextTicket
  eq_of_ticket_eq : ∀ (i j k l : Nat) (request request' : BroadcastRequest) (ticket : Nat),
    (processed trace i)[k]? = some (request, some ticket) →
      (processed trace j)[l]? = some (request', some ticket) → i = j ∧ k = l

theorem Distinct.move (hd : s.Distinct trace) (h : s.move? m = some s') :
    s'.Distinct (trace ++ [⟨s, m⟩]) := by
  have hle := (move?_concerns h).nextTicket_le
  refine ⟨fun i request ticket hmem => ?_, fun i j k l request request' ticket hi hj => ?_⟩
  · rw [processed_concat, List.mem_append, Option.mem_toList] at hmem
    rcases hmem with hmem | hnew
    · exact Nat.lt_of_lt_of_le (hd.lt_nextTicket i request ticket hmem) hle
    · obtain ⟨-, rfl, hnext⟩ := nextTicket_of_takesOn? h hnew
      omega
  · rw [processed_concat] at hi hj
    rcases getElem?_append_toList hi with hold | ⟨rfl, hnew⟩
    · rcases getElem?_append_toList hj with hold' | ⟨rfl, hnew'⟩
      · exact hd.eq_of_ticket_eq i j k l request request' ticket hold hold'
      · obtain ⟨-, rfl, -⟩ := nextTicket_of_takesOn? h hnew'
        exact absurd (hd.lt_nextTicket i _ _ (List.mem_of_getElem? hold)) (Nat.lt_irrefl _)
    · obtain ⟨rfl, rfl, -⟩ := nextTicket_of_takesOn? h hnew
      rcases getElem?_append_toList hj with hold' | ⟨rfl, hnew'⟩
      · exact absurd (hd.lt_nextTicket j _ _ (List.mem_of_getElem? hold')) (Nat.lt_irrefl _)
      · obtain ⟨heq, -, -⟩ := nextTicket_of_takesOn? h hnew'
        cases heq
        exact ⟨rfl, rfl⟩

end Service

end OrderingService
