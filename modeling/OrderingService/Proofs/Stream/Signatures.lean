import OrderingService.Proofs.Stream.Requests

/-!
# Signatures have no influence

A broadcast request carries a signature that nothing looks at. Two runs whose requests differ only
in their signatures are compared through the run in which all signatures are empty: emptying the
signatures before a move or after it makes no difference.

## Main definitions

* `Service.unsigned`, `Service.Move.unsigned` — with every signature emptied

## Main results

* `Service.move?_unsigned`, `Service.run?_unsigned` — emptying the signatures first or last
* `Service.run?_of_unsigned_eq` — a run with other signatures
-/

namespace OrderingService

/-- The request without its signature. -/
def BroadcastRequest.unsigned (r : BroadcastRequest) : BroadcastRequest :=
  { r with signature := [] }

/-- The stream with requests without signatures. -/
def BroadcastStream.unsigned (b : BroadcastStream) : BroadcastStream :=
  { b with exchange.requests := b.exchange.requests.map (Except.map BroadcastRequest.unsigned) }

/-- The same for what a client may do. -/
def ClientAct.unsigned : ClientAct BroadcastRequest → ClientAct BroadcastRequest
  | .request item => .request (item.map BroadcastRequest.unsigned)
  | .closeRequests => .closeRequests
  | .take => .take
  | .hangUp => .hangUp

namespace Service

/-- The service with requests without signatures. -/
def unsigned (s : Service) : Service :=
  { s with broadcasts := s.broadcasts.map BroadcastStream.unsigned }

/-- The same for a move. -/
def Move.unsigned : Move → Move
  | .broadcastClient index act => .broadcastClient index act.unsigned
  | m => m

/-- The same for a moment. -/
def Moment.unsigned (now : Moment) : Moment := ⟨now.before.unsigned, now.move.unsigned⟩

variable {s s' : Service} {m : Move} {trace : List Moment} {index : Nat}

/-! ### One move -/

theorem unsigned_after (b : BroadcastStream) (act : ClientAct BroadcastRequest) :
    ({ b with exchange := b.exchange.after act } : BroadcastStream).unsigned
      = { b.unsigned with exchange := b.unsigned.exchange.after act.unsigned } := by
  cases act with
  | request item =>
    simp [BroadcastStream.unsigned, ClientAct.unsigned, Exchange.after, Exchange.request]
  | closeRequests => rfl
  | take => rfl
  | hangUp => rfl

theorem send_unsigned (s : Service) (c : Call) :
    s.unsigned.send c = ((s.send c).1, (s.send c).2.unsigned) := by
  cases s with
  | mk now sequencer mailbox answers nextTicket released maxPayload broadcasts delivers =>
    by_cases hstop : sequencer.stopped = true <;> simp [send, unsigned, hstop]

theorem unsigned_setDeliver (s : Service) (index : Nat) (d : DeliverStream) :
    (s.setDeliver index d).unsigned = s.unsigned.setDeliver index d := by
  rw [setDeliver, setDeliver]
  split
  · rfl
  · rfl

theorem unsigned_setBroadcast (s : Service) (index : Nat) (b : BroadcastStream) :
    (s.setBroadcast index b).unsigned = s.unsigned.setBroadcast index b.unsigned := by
  rw [setBroadcast, unsigned, List.map_set]
  rfl

theorem serve?_unsigned (s : Service) : s.unsigned.serve? = s.serve?.map unsigned := by
  cases s with
  | mk now sequencer mailbox answers nextTicket released maxPayload broadcasts delivers =>
    cases mailbox with
    | nil => rfl
    | cons p rest =>
      by_cases hstop : (sequencer.handle now p.2).2.stopped = true <;>
        simp [serve?, unsigned, hstop]

theorem expire?_unsigned (s : Service) : s.unsigned.expire? = s.expire?.map unsigned := by
  cases s with
  | mk now sequencer mailbox answers nextTicket released maxPayload broadcasts delivers =>
    by_cases hdue : sequencer.isDue now = true <;> simp [expire?, unsigned, hdue]

theorem hasStreams_unsigned (s : Service) : s.unsigned.hasStreams = s.hasStreams := by
  rw [hasStreams, unsigned, List.any_map]
  rfl

theorem close?_unsigned (s : Service) : s.unsigned.close? = s.close?.map unsigned := by
  have hcond : (s.unsigned.released && !s.unsigned.hasStreams && s.unsigned.mailbox.isEmpty &&
      !s.unsigned.sequencer.stopped) = (s.released && !s.hasStreams && s.mailbox.isEmpty &&
      !s.sequencer.stopped) := by
    rw [hasStreams_unsigned]
    rfl
  rw [close?, hcond, close?]
  split
  · rfl
  · rfl

theorem take?_unsigned (b : BroadcastStream) :
    b.unsigned.exchange.take? = b.exchange.take?.map fun p =>
      (p.1.map (Except.map BroadcastRequest.unsigned),
        { p.2 with requests := p.2.requests.map (Except.map BroadcastRequest.unsigned) }) := by
  cases b with
  | mk exchange phase =>
    cases exchange with
    | mk requests requestsClosed responses capacity hungUp =>
      cases requests with
      | cons item rest => rfl
      | nil =>
        simp only [BroadcastStream.unsigned, Exchange.take?, List.map_nil]
        split
        · rfl
        · rfl

theorem handOver?_unsigned (b : BroadcastStream) (r : Except RpcStatus BroadcastResponse)
    (goOn : Bool) :
    b.unsigned.handOver? r goOn = (b.handOver? r goOn).map BroadcastStream.unsigned := by
  simp only [BroadcastStream.handOver?, BroadcastStream.unsigned, Exchange.push]
  by_cases hgone : b.exchange.hungUp = true
  · simp [hgone, BroadcastStream.unsigned]
  · by_cases hroom : b.exchange.responses.length < b.exchange.capacity
    · simp [hgone, hroom, BroadcastStream.unsigned]
    · simp [hgone, hroom]

theorem unsigned_answerBroadcast (s : Service) (index : Nat) (b : BroadcastStream)
    (r : BroadcastResponse) :
    (s.answerBroadcast index b r).unsigned = s.unsigned.answerBroadcast index b.unsigned r :=
  unsigned_setBroadcast _ index _

theorem readBroadcast?_unsigned (s : Service) (index : Nat) (b : BroadcastStream) :
    s.unsigned.readBroadcast? index b.unsigned = (s.readBroadcast? index b).map unsigned := by
  rw [readBroadcast?, take?_unsigned, readBroadcast?]
  cases htake : b.exchange.take? with
  | none => rfl
  | some p =>
    rcases p with ⟨_ | (e | request), x'⟩
    · exact congrArg some (unsigned_setBroadcast s index { b with phase := .ended }).symm
    · exact congrArg some (unsigned_setBroadcast s index ⟨x', .answering (.error e) false⟩).symm
    · have hsame : Broadcast.refusal? s.unsigned.maxPayload request.unsigned
          = Broadcast.refusal? s.maxPayload request := rfl
      simp only [Option.map_some, Except.map, hsame]
      cases hrefusal : Broadcast.refusal? s.maxPayload request with
      | some info =>
        simp only [Option.map_some]
        exact congrArg some (unsigned_answerBroadcast s index { b with exchange := x' } _).symm
      | none =>
        simp only [Option.map_some, send_unsigned]
        exact congrArg some (unsigned_setBroadcast _ index ⟨x', .submitted _⟩).symm

theorem broadcast?_unsigned (s : Service) (index : Nat) :
    s.unsigned.broadcast? index = (s.broadcast? index).map unsigned := by
  have hb : s.unsigned.broadcasts[index]? = s.broadcasts[index]?.map BroadcastStream.unsigned :=
    List.getElem?_map
  simp only [broadcast?, Option.bind_eq_bind, hb]
  cases s.broadcasts[index]? with
  | none => rfl
  | some b =>
    obtain ⟨x, phase⟩ := b
    cases phase with
    | reading => exact readBroadcast?_unsigned s index ⟨x, .reading⟩
    | submitted ticket =>
      show (s.answer? ticket).bind _ = ((s.answer? ticket).bind _).map unsigned
      cases s.answer? ticket with
      | none => rfl
      | some answer => exact congrArg some (unsigned_answerBroadcast _ _ _ _).symm
    | answering r goOn =>
      show (BroadcastStream.handOver? _ r goOn).bind
        (fun b' => some (s.unsigned.setBroadcast index b')) = _
      rw [handOver?_unsigned]
      show _ = ((BroadcastStream.handOver? _ r goOn).bind fun b' =>
        some (s.setBroadcast index b')).map unsigned
      cases (⟨x, .answering r goOn⟩ : BroadcastStream).handOver? r goOn with
      | none => rfl
      | some b' => exact congrArg some (unsigned_setBroadcast _ _ _).symm
    | ended => rfl

theorem readDeliver?_unsigned (s : Service) (index : Nat) (d : DeliverStream) :
    s.unsigned.readDeliver? index d = (s.readDeliver? index d).map unsigned := by
  rw [readDeliver?, readDeliver?]
  split
  · rfl
  · rw [Option.map_some, unsigned_setDeliver]
  · rw [Option.map_some, unsigned_setDeliver]
  · simp only [send_unsigned, Option.map_some, unsigned_setDeliver]

theorem deliver?_unsigned (s : Service) (index : Nat) (branch : DeliverBranch) :
    s.unsigned.deliver? index branch = (s.deliver? index branch).map unsigned := by
  simp only [deliver?, Option.bind_eq_bind]
  show (s.delivers[index]?.bind _) = _
  cases s.delivers[index]? with
  | none => rfl
  | some d =>
    simp only [Option.bind_some]
    cases hphase : d.phase with
    | waiting => exact readDeliver?_unsigned s index d
    | subscribing ticket =>
      simp only
      show (s.answer? ticket).bind _ = _
      cases s.answer? ticket with
      | none => rfl
      | some answer => exact congrArg some (unsigned_setDeliver _ _ _).symm
    | answering r goOn =>
      simp only
      cases d.handOver? r goOn with
      | none => rfl
      | some d' => exact congrArg some (unsigned_setDeliver _ _ _).symm
    | streaming sub =>
      simp only
      show (d.attend? s.sequencer sub branch).bind _ = _
      cases d.attend? s.sequencer sub branch with
      | none => rfl
      | some d' => exact congrArg some (unsigned_setDeliver _ _ _).symm
    | ended => rfl

/-- **Emptying the signatures before a move or after it** makes no difference. -/
theorem move?_unsigned (s : Service) (m : Move) :
    s.unsigned.move? m.unsigned = (s.move? m).map unsigned := by
  cases m with
  | event e =>
    cases e with
    | serve => exact serve?_unsigned s
    | expire => exact expire?_unsigned s
    | close => exact close?_unsigned s
    | broadcast j => exact broadcast?_unsigned s j
    | deliver j branch => exact deliver?_unsigned s j branch
  | call c => exact congrArg (some ·.2) (send_unsigned s c)
  | wait ms => rfl
  | release => rfl
  | openBroadcast capacity =>
    simp only [Move.unsigned, move?, Session.openBroadcast, unsigned, Option.map_some,
      List.map_append]
    rfl
  | openDeliver capacity => rfl
  | broadcastClient j act =>
    simp only [Move.unsigned, move?, unsigned, Option.map_some]
    congr 2
    refine List.ext_getElem? fun i => ?_
    simp only [List.getElem?_modify, List.getElem?_map]
    cases s.broadcasts[i]? with
    | none => rfl
    | some b =>
      by_cases hi : j = i
      · simp [hi, unsigned_after]
      · simp [hi]
  | deliverClient j act => rfl

/-! ### Runs -/

theorem run?_unsigned (s : Service) (moves : List Move) :
    s.unsigned.run? (moves.map Move.unsigned)
      = (s.run? moves).map fun x => (x.1.map Moment.unsigned, x.2.unsigned) := by
  induction moves generalizing s with
  | nil => rfl
  | cons m rest ih =>
    rw [List.map_cons, run?, move?_unsigned, run?]
    cases s.move? m with
    | none => rfl
    | some next =>
      simp only [Option.map_some, Option.bind_eq_bind, Option.bind_some, ih]
      cases next.run? rest with
      | none => rfl
      | some x => rfl

/-- **A run with other signatures:** it can happen just as well, and it is the same run up to the
signatures. -/
theorem run?_of_unsigned_eq {moves moves' : List Move} (hrun : s.run? moves = some (trace, s'))
    (hmoves : moves'.map Move.unsigned = moves.map Move.unsigned) :
    ∃ trace' t, s.run? moves' = some (trace', t) ∧
      trace'.map Moment.unsigned = trace.map Moment.unsigned ∧ t.unsigned = s'.unsigned := by
  have hsame := run?_unsigned s moves'
  rw [hmoves, run?_unsigned, hrun] at hsame
  obtain ⟨⟨trace', t⟩, hrun', heq⟩ := Option.map_eq_some_iff.mp hsame.symm
  obtain ⟨htrace, ht⟩ := Prod.mk.inj heq
  exact ⟨trace', t, hrun', htrace, ht⟩

/-! ### What is seen of a run -/

namespace Moment

variable (now : Moment)

theorem after_unsigned : now.unsigned.after = now.after.unsigned := by
  rw [after, unsigned, move?_unsigned, after]
  cases now.before.move? now.move with
  | none => rfl
  | some s => rfl

theorem taking?_unsigned : now.unsigned.taking? = now.taking? := by
  cases now with
  | mk before move =>
    cases move with
    | event e => rfl
    | _ => rfl

theorem appendedFor_unsigned (ticket : Nat) :
    now.unsigned.appendedFor ticket = now.appendedFor ticket := by
  rw [appendedFor, taking?_unsigned, appended, after_unsigned]
  rfl

theorem ofBroadcast?_unsigned {α : Type} {f : BroadcastStream → BroadcastStream → Option α}
    {g : α → α} (hf : ∀ b b', f b.unsigned b'.unsigned = (f b b').map g) (index : Nat) :
    now.unsigned.ofBroadcast? index f = (now.ofBroadcast? index f).map g := by
  rw [ofBroadcast?, after_unsigned]
  simp only [unsigned, Service.unsigned, List.getElem?_map, ofBroadcast?, Option.bind_eq_bind]
  cases now.before.broadcasts[index]? with
  | none => rfl
  | some b =>
    cases now.after.broadcasts[index]? with
    | none => rfl
    | some b' => exact hf b b'

end Moment

theorem appendedFor_map_unsigned (trace : List Moment) (ticket : Nat) :
    appendedFor (trace.map Moment.unsigned) ticket = appendedFor trace ticket := by
  rw [appendedFor, List.flatMap_map]
  simp only [Moment.appendedFor_unsigned]
  rfl

theorem takesOn?_unsigned (b b' : BroadcastStream) : b.unsigned.takesOn? b'.unsigned
    = (b.takesOn? b').map fun p => (p.1.unsigned, p.2) := by
  cases b with
  | mk exchange phase =>
    cases b' with
    | mk exchange' phase' =>
      cases phase with
      | reading =>
        cases hrequests : exchange.requests with
        | nil =>
          cases phase' <;> simp [BroadcastStream.takesOn?, BroadcastStream.unsigned, hrequests]
        | cons item rest =>
          cases item <;> cases phase' <;>
            simp [BroadcastStream.takesOn?, BroadcastStream.unsigned, hrequests, Except.map]
      | _ => rfl

theorem processed_map_unsigned (trace : List Moment) (index : Nat) :
    processed (trace.map Moment.unsigned) index
      = (processed trace index).map fun p => (p.1.unsigned, p.2) := by
  rw [processed, List.filterMap_map, processed, List.map_filterMap]
  congr 1
  funext now
  exact now.ofBroadcast?_unsigned takesOn?_unsigned index

theorem responses_map_unsigned (trace : List Moment) (index : Nat) :
    responses (trace.map Moment.unsigned) index = responses trace index := by
  rw [responses, List.filterMap_map]
  congr 1
  funext now
  exact (now.ofBroadcast?_unsigned (fun _ _ => Option.map_id_apply.symm) index).trans
    Option.map_id_apply

end Service

end OrderingService
