import OrderingService.Proofs.Stream.Exchanges

/-!
# One answer for each item, up to the first failure

A client that takes its answers gets one for each item that it gave, in order, until one of them is
no success. That is the last one, and nothing that was given after it is read. A client that goes
away is not answered any more, and its handler is at work on one item at most.

That answers come is more than that those which come are right. Whatever state a stream is in, the
sequencer, the handler and the client can go on, by themselves, until everything is answered that
will be. The induction is on the items that wait; between two of them the handler comes back to
where it reads.

## Main definitions

* `Service.Conversation` — what is promised of a broadcast stream
* `Service.Concluded` — what is promised of it when its handler has returned
* `Service.Attended` — the sequencer, the handler of a stream and its client go on

## Main results

* `Service.Served.replies`, `Service.Served.good` — the answers that were handed over
* `Service.concluded_of_ended`, `Service.length_le_of_hungUp` — what happens to a stream no more
* `Service.completes` — every stream is served to the end
* `Service.run?_conversation` — every stream of every run
-/

namespace OrderingService

open Broadcast (isSuccess)
open BroadcastStream (Incoming Outgoing Item)

theorem BroadcastStream.isEnded_iff {b : BroadcastStream} :
    b.isEnded = true ↔ b.phase = .ended := by
  cases b with
  | mk x phase => cases phase <;> simp [isEnded]

namespace Service

variable {s s' : Service} {m : Move} {trace trace' : List Moment} {limit index : Nat}
  {x x' : Exchange BroadcastRequest BroadcastResponse} {phase : BroadcastPhase}
  {items : List Item} {answers : List Outgoing} {item : Item} {r : Outgoing}

/-! ### Answers that were handed over -/

namespace Served

variable {b : BroadcastStream}

/-- Each answer is the one to the item at its position. -/
theorem replies (hs : s.Served trace limit items answers b) :
    List.Forall₂ (s.Replies trace limit) (items.take answers.length) answers := by
  have htake : ∀ {items answers} (more), s.Successes trace limit items answers →
      List.Forall₂ (s.Replies trace limit) ((items ++ more).take answers.length) answers := by
    intro items answers more before
    rw [← before.all.length_eq, List.take_left]
    exact before.all
  cases hs with
  | reading before | finished before _ => exact List.append_nil items ▸ htake [] before
  | submitted before | answering before _ | abandoned before _ _ => exact htake _ before
  | failed before reply _ =>
    have hall := before.all_concat reply
    rw [← hall.length_eq, List.take_length]
    exact hall

/-- One item at most has no answer. -/
theorem length_le (hs : s.Served trace limit items answers b) :
    answers.length ≤ items.length ∧ items.length ≤ answers.length + 1 := by
  cases hs with
  | reading before | finished before _ => have := before.all.length_eq; omega
  | submitted before | answering before _ | abandoned before _ _ | failed before _ _ =>
    have := before.all.length_eq
    simp only [List.length_append, List.length_singleton]
    omega

/-- For a client that is there every item has its answer while the handler is not at work. -/
theorem all_of_here (hs : s.Served trace limit items answers b) (hhere : b.exchange.hungUp = false)
    (hphase : b.phase = .reading ∨ b.phase = .ended) :
    List.Forall₂ (s.Replies trace limit) items answers := by
  cases hs with
  | reading before | finished before _ => exact before.all
  | submitted | answering => rcases hphase with h | h <;> cases h
  | failed before reply _ => exact before.all_concat reply
  | abandoned _ _ gone => cases hhere.symm.trans gone

/-- When the handler has returned there is an answer to every item, handed over or not. -/
theorem exists_all_of_ended (hs : s.Served trace limit items answers b) (hend : b.phase = .ended) :
    ∃ answers', List.Forall₂ (s.Replies trace limit) items answers' := by
  cases hs with
  | reading | submitted | answering => cases hend
  | finished before _ => exact ⟨_, before.all⟩
  | failed before reply _ | abandoned before reply _ => exact ⟨_, before.all_concat reply⟩

/-- Only the last answer may be no success. -/
theorem good (hs : s.Served trace limit items answers b) :
    ∀ r ∈ answers.dropLast, isSuccess r = true := by
  cases hs with
  | reading before | finished before _ | submitted before | answering before _
  | abandoned before _ _ => exact fun r hr => before.good r (List.dropLast_subset _ hr)
  | failed before _ _ =>
    rw [List.dropLast_concat]
    exact before.good

/-- After an answer that is no success the handler has returned, and nothing more was read. -/
theorem failed_eq (hs : s.Served trace limit items answers b)
    (hr : r ∈ answers) (hbad : isSuccess r = false) :
    b.phase = .ended ∧ items.length = answers.length := by
  have hnone : ∀ {items answers}, s.Successes trace limit items answers → r ∉ answers :=
    fun before hmem => nomatch hbad.symm.trans (before.good r hmem)
  cases hs with
  | reading before | finished before _ | submitted before | answering before _
  | abandoned before _ _ => exact absurd hr (hnone before)
  | failed before reply _ => exact ⟨rfl, (before.all_concat reply).length_eq⟩

/-- The handler returns after an answer that is no success, or because the client gives no more or
has gone. -/
theorem of_ended (hs : s.Served trace limit items answers b) (hend : b.phase = .ended) :
    (∃ r ∈ answers, isSuccess r = false) ∨ b.exchange.requestsClosed = true ∨
      b.exchange.hungUp = true := by
  cases hs with
  | reading | submitted | answering => cases hend
  | finished _ closed => exact Or.inr (Or.inl closed)
  | failed _ _ bad => exact Or.inl ⟨_, List.mem_append_right _ List.mem_cons_self, bad⟩
  | abandoned _ _ gone => exact Or.inr (Or.inr gone)

theorem goOn_eq {goOn : Bool}
    (hs : s.Served trace limit items answers ⟨x, .answering r goOn⟩) : goOn = isSuccess r := by
  cases hs
  rfl

end Served

/-- What is promised of a broadcast stream, where it is now. -/
structure Conversation (s : Service) (trace : List Moment) (limit index : Nat)
    (b : BroadcastStream) : Prop where
  /-- Items are read in the order in which they were given. -/
  given_eq : (itemsRead trace index).map (Except.map Prod.fst) ++ b.exchange.requests
    = itemsGiven trace index
  /-- Answers are taken in the order in which they were handed over. -/
  handed : Handed (collected trace index) (emitted trace index) b.exchange
  replies : List.Forall₂ (s.Replies trace limit)
    ((itemsRead trace index).take (emitted trace index).length) (emitted trace index)
  length_le : (emitted trace index).length ≤ (itemsRead trace index).length ∧
    (itemsRead trace index).length ≤ (emitted trace index).length + 1
  /-- While the handler is not at work nothing else was read, and nothing else was ordered. -/
  length_eq : b.exchange.hungUp = false → b.phase = .reading ∨ b.phase = .ended →
    (itemsRead trace index).length = (emitted trace index).length ∧
      (orderedOn trace index).length = (emitted trace index).countP isSuccess
  good : ∀ r ∈ (emitted trace index).dropLast, isSuccess r = true
  /-- Nothing is read after an answer that is no success. -/
  failed : ∀ r ∈ emitted trace index, isSuccess r = false →
    b.phase = .ended ∧ (itemsRead trace index).length = (emitted trace index).length
  ended : b.phase = .ended → (∃ r ∈ emitted trace index, isSuccess r = false) ∨
    b.exchange.requestsClosed = true ∨ b.exchange.hungUp = true
  /-- A transaction was ordered for each success that was handed over, and one more at most. -/
  ordered : (emitted trace index).countP isSuccess ≤ (orderedOn trace index).length ∧
    (orderedOn trace index).length ≤ (emitted trace index).countP isSuccess + 1

/-- What is promised of a stream whose handler has returned, `trace'` later: what its client still
does reaches neither the sequencer with its counters nor the mailbox, and nothing more is read,
answered or ordered. -/
structure Concluded (s : Service) (trace trace' : List Moment) (index : Nat) : Prop where
  broadcast?_eq : s.broadcast? index = none
  client : ∀ (act : ClientAct BroadcastRequest) (t : Service),
    s.move? (.broadcastClient index act) = some t →
      t.sequencer = s.sequencer ∧ t.mailbox = s.mailbox
  read_eq : itemsRead (trace ++ trace') index = itemsRead trace index
  emitted_eq : emitted (trace ++ trace') index = emitted trace index
  responses_eq : responses (trace ++ trace') index = responses trace index
  ordered_eq : orderedOn (trace ++ trace') index = orderedOn trace index

theorem Conversing.conversation {b : BroadcastStream} (hc : s.Conversing trace limit index b)
    (ht : s.Tickets) : s.Conversation trace limit index b where
  given_eq := hc.given_eq
  handed := hc.handed
  replies := hc.served.replies
  length_le := hc.served.length_le
  length_eq := fun hhere hphase => by
    have hall := hc.served.all_of_here hhere hphase
    exact ⟨hall.length_eq, orderedOn_eq_flatMap trace index ▸ length_orderedFor_of_all hall ht⟩
  good := hc.served.good
  failed := fun _ => hc.served.failed_eq
  ended := hc.served.of_ended
  ordered := orderedOn_eq_flatMap trace index ▸ hc.served.length_orderedFor ht

/-! ### What happens no more -/

theorem broadcast?_of_ended (hb : s.broadcasts[index]? = some ⟨x, .ended⟩) :
    s.broadcast? index = none := by
  simp [broadcast?, hb]

/-- A handler that has returned does nothing more, whatever is looked at. -/
theorem quiet_of_ended {after : List Move} (hb : s.broadcasts[index]? = some ⟨x, .ended⟩)
    (hrun : s.run? after = some (trace', s')) :
    (∃ x', s'.broadcasts[index]? = some ⟨x', .ended⟩) ∧
      ∀ {α : Type} {f : BroadcastStream → BroadcastStream → Option α},
        (∀ {b b'}, b'.phase = b.phase → f b b' = none) →
          trace'.filterMap (·.ofBroadcast? index f) = [] := by
  refine run?_keeps (P := fun s' trace' => (∃ x', s'.broadcasts[index]? = some ⟨x', .ended⟩) ∧
    ∀ {α : Type} {f : BroadcastStream → BroadcastStream → Option α},
      (∀ {b b'}, b'.phase = b.phase → f b b' = none) →
        trace'.filterMap (·.ofBroadcast? index f) = []) ?_ ⟨⟨x, hb⟩, fun _ => rfl⟩ hrun
  rintro t m t' trace ⟨⟨y, hy⟩, hquiet⟩ hmove
  have hm : m ≠ .event (.broadcast index) := by
    rintro rfl
    cases (broadcast?_of_ended hy).symm.trans hmove
  refine ⟨?_, fun hf => ?_⟩
  · rcases getElem?_broadcasts_of_move? hmove hm with ⟨hnone, -⟩ | ⟨_, y', _, hb, hb'⟩
    · cases hnone.symm.trans hy
    · cases hy.symm.trans hb
      exact ⟨y', hb'⟩
  · rw [filterMap_concat, hquiet hf, Moment.ofBroadcast?_of_ne hf hmove hm]
    rfl

/-- What was answered stays answered, with the same. -/
theorem Replies.run? {after : List Move} (hr : s.Replies trace limit item r) (ht : s.Tickets)
    (hrun : s.run? after = some (trace', s')) :
    s'.Tickets ∧ s'.Replies (trace ++ trace') limit item r :=
  run?_keeps_from (P := fun s trace => s.Tickets ∧ s.Replies trace limit item r)
    (fun hP hmove => ⟨hP.1.concerns (move?_concerns hmove), hP.2.move hP.1 hmove⟩) ⟨ht, hr⟩ hrun

theorem isPrefix_orderedFor (trace trace' : List Moment) (item : Item) :
    orderedFor trace item <+: orderedFor (trace ++ trace') item := by
  rcases item with e | ⟨request, _ | ticket⟩
  · exact List.prefix_rfl
  · exact List.prefix_rfl
  · show appendedFor trace ticket <+: appendedFor (trace ++ trace') ticket
    rw [appendedFor, appendedFor, List.flatMap_append]
    exact List.prefix_append _ _

/-- For what was answered nothing more is ordered. -/
theorem Replies.orderedFor_append {after : List Move} (hr : s.Replies trace limit item r)
    (ht : s.Tickets) (hrun : s.run? after = some (trace', s')) :
    orderedFor (trace ++ trace') item = orderedFor trace item := by
  obtain ⟨ht', hr'⟩ := hr.run? ht hrun
  refine ((isPrefix_orderedFor trace trace' item).eq_of_length ?_).symm
  rw [hr.length_orderedFor ht, hr'.length_orderedFor ht']

theorem flatMap_orderedFor_append {after : List Move}
    (hall : List.Forall₂ (s.Replies trace limit) items answers) (ht : s.Tickets)
    (hrun : s.run? after = some (trace', s')) :
    items.flatMap (orderedFor (trace ++ trace')) = items.flatMap (orderedFor trace) := by
  induction hall with
  | nil => rfl
  | cons hr _ ih => rw [List.flatMap_cons, List.flatMap_cons, ih, hr.orderedFor_append ht hrun]

theorem handsOver?_of_hungUp {b b' : BroadcastStream} (h : b.exchange.hungUp = true) :
    b.handsOver? b' = none := by
  rw [BroadcastStream.handsOver?]
  split
  next => exact if_pos h
  next => exact if_pos h
  next => rfl

theorem hungUp_of_goes {b t b'} (hg : BroadcastStream.Goes s b t b')
    (h : b.exchange.hungUp = true) : b'.exchange.hungUp = true := by
  cases hg with
  | unreadable taken | refused taken | submitted taken =>
    exact (Exchange.of_take?_eq_some taken).2.trans h
  | handedOver queued => cases h.symm.trans (Exchange.of_push_eq_queued queued).1
  | finished | answered | abandoned => exact h

/-- To a client that has gone nothing more is handed over. -/
theorem emitted_of_hungUp {after : List Move} {b : BroadcastStream}
    (hb : s.broadcasts[index]? = some b) (hgone : b.exchange.hungUp = true)
    (hrun : s.run? after = some (trace', s')) :
    (∃ b', s'.broadcasts[index]? = some b' ∧ b'.exchange.hungUp = true) ∧
      emitted trace' index = [] := by
  refine run?_keeps (P := fun s' trace' => (∃ b', s'.broadcasts[index]? = some b' ∧
    b'.exchange.hungUp = true) ∧ emitted trace' index = []) ?_ ⟨⟨b, hb, hgone⟩, rfl⟩ hrun
  rintro t m t' trace ⟨⟨c, hc, hgone⟩, hnone⟩ hmove
  rw [emitted_concat, hnone, List.nil_append]
  by_cases hm : m = .event (.broadcast index)
  · subst hm
    obtain ⟨c₀, u, c', hc₀, hgoes, rfl⟩ := broadcast?_cases hmove
    obtain rfl := Option.some.inj (hc.symm.trans hc₀)
    have hc' := getElem?_setBroadcast hc hgoes
    rw [Moment.ofBroadcast?_eq _ hmove hc hc', handsOver?_of_hungUp hgone]
    exact ⟨⟨c', hc', hungUp_of_goes hgoes hgone⟩, rfl⟩
  · rw [Moment.ofBroadcast?_of_ne BroadcastStream.handsOver?_of_phase_eq hmove hm]
    refine ⟨?_, rfl⟩
    rcases exists_onBroadcast_of_move? hmove hm with ⟨hnone, -⟩ | ⟨y, phase, hy, hy'⟩
    · cases hnone.symm.trans hc
    · obtain rfl := Option.some.inj (hc.symm.trans hy)
      refine ⟨_, hy', ?_⟩
      rcases m.onBroadcast_cases index y with ⟨act, -, hx⟩ | ⟨-, hx⟩
      · rw [hx]
        exact y.hungUp_after act hgone
      · rw [hx]
        exact hgone

theorem mem_emitted_append (h : r ∈ emitted trace' index) :
    r ∈ emitted (trace ++ trace') index := by
  rw [emitted, List.filterMap_append]
  exact List.mem_append_right _ h

section

variable {c : SequencerConfig} {maxPayload : Nat} {moves after : List Move} {b : BroadcastStream}

/-- **After the end of a stream nothing more is read, handed over or ordered for it.** -/
theorem concluded_of_ended (hrun : (Service.new c maxPayload).run? moves = some (trace, s))
    (hb : s.broadcasts[index]? = some b) (hend : b.phase = .ended)
    (hafter : s.run? after = some (trace', s')) : s'.Concluded trace trace' index := by
  obtain ⟨x, phase⟩ := b
  cases hend
  obtain ⟨⟨x', hb'⟩, hquiet⟩ := quiet_of_ended hb hafter
  have hsame : ∀ {α : Type} {f : BroadcastStream → BroadcastStream → Option α},
      (∀ {b b'}, b'.phase = b.phase → f b b' = none) →
        (trace ++ trace').filterMap (·.ofBroadcast? index f)
          = trace.filterMap (·.ofBroadcast? index f) := by
    intro α f hf
    rw [List.filterMap_append, hquiet hf, List.append_nil]
  have hread : itemsRead (trace ++ trace') index = itemsRead trace index :=
    hsame BroadcastStream.reads?_of_phase_eq
  refine ⟨broadcast?_of_ended hb', fun act t h => by cases h; exact ⟨rfl, rfl⟩, hread,
    hsame BroadcastStream.handsOver?_of_phase_eq, hsame BroadcastStream.comesTo?_of_phase_eq, ?_⟩
  obtain ⟨answers, hall⟩ := (conversing_of_run? hrun hb).served.exists_all_of_ended rfl
  rw [orderedOn_eq_flatMap, orderedOn_eq_flatMap, hread]
  exact flatMap_orderedFor_append hall (run?_conversed hrun index).1 hafter

/-- **For a client that has gone at most one item more is at work,** and for nothing else is
anything ordered without its answer being handed over. -/
theorem length_le_of_hungUp (hrun : (Service.new c maxPayload).run? moves = some (trace, s))
    (hb : s.broadcasts[index]? = some b) (hgone : b.exchange.hungUp = true)
    (hafter : s.run? after = some (trace', s')) :
    emitted (trace ++ trace') index = emitted trace index ∧
      (itemsRead (trace ++ trace') index).length ≤ (emitted trace index).length + 1 ∧
      (orderedOn (trace ++ trace') index).length
        ≤ (emitted trace index).countP isSuccess + 1 := by
  obtain ⟨⟨b', hb', -⟩, hnone⟩ := emitted_of_hungUp hb hgone hafter
  have hemit : emitted (trace ++ trace') index = emitted trace index := by
    rw [emitted, List.filterMap_append, ← emitted, ← emitted, hnone, List.append_nil]
  have hboth := run?_append hrun hafter
  have hc := (conversing_of_run? hboth hb').conversation (run?_conversed hboth index).1
  exact ⟨hemit, hemit ▸ hc.length_le.2, hemit ▸ hc.ordered.2⟩

end

/-! ### What can still happen -/

/-- The sequencer takes a call, the handler of a stream goes on, or its client takes an answer. -/
def Move.Attends (index : Nat) (m : Move) : Prop :=
  m = .event .serve ∨ m = .event (.broadcast index) ∨ m = .broadcastClient index .take

/-- Such moves lead from one state of the service to another. -/
def Attended (s : Service) (index : Nat) (trace : List Moment) (s' : Service) : Prop :=
  ∃ moves, (∀ m ∈ moves, m.Attends index) ∧ s.run? moves = some (trace, s')

namespace Attended

theorem refl (s : Service) (index : Nat) : s.Attended index [] s :=
  ⟨[], fun _ h => absurd h List.not_mem_nil, rfl⟩

theorem trans {mid : Service} (h : s.Attended index trace mid)
    (h' : mid.Attended index trace' s') : s.Attended index (trace ++ trace') s' := by
  obtain ⟨moves, hmoves, hrun⟩ := h
  obtain ⟨moves', hmoves', hrun'⟩ := h'
  refine ⟨moves ++ moves', fun m hm => ?_, run?_append hrun hrun'⟩
  exact (List.mem_append.mp hm).elim (hmoves m) (hmoves' m)

theorem single (hm : m.Attends index) (h : s.move? m = some s') :
    s.Attended index [⟨s, m⟩] s' :=
  ⟨[m], fun _ hmem => List.mem_singleton.mp hmem ▸ hm, run?_cons h rfl⟩

/-- The client gives nothing meanwhile. -/
theorem itemsGiven_eq (h : s.Attended index trace' s') : itemsGiven trace' index = [] := by
  obtain ⟨moves, hmoves, hrun⟩ := h
  refine List.filterMap_eq_nil_iff.mpr fun now hnow => ?_
  have hattends := hmoves now.move (map_move_of_run? hrun ▸ List.mem_map_of_mem hnow)
  rcases hattends with hmove | hmove | hmove
  · rw [Moment.gives?, hmove]
  · rw [Moment.gives?, hmove]
  · simp [Moment.gives?, hmove, ClientAct.item?]

/-- The handler goes on. -/
theorem handler (h : s.broadcast? index = some s') :
    s.Attended index [⟨s, .event (.broadcast index)⟩] s' :=
  single (Or.inr (Or.inl rfl)) h

end Attended

/-- The client takes every answer. -/
theorem exists_attended_emptied (hb : s.broadcasts[index]? = some ⟨x, phase⟩) :
    ∃ trace' s', s.Attended index trace' s' ∧
      s'.broadcasts[index]? = some ⟨{ x with responses := [] }, phase⟩ := by
  generalize hn : x.responses = answers
  induction answers generalizing s x with
  | nil =>
    rw [← hn]
    exact ⟨[], s, .refl s index, hb⟩
  | cons r rest ih =>
    let taken := { x with responses := x.responses.tail }
    let m : Move := .broadcastClient index .take
    obtain ⟨next, hmove⟩ : ∃ next, s.move? m = some next := ⟨_, rfl⟩
    have hnext : next.broadcasts[index]? = some ⟨taken, phase⟩ := by
      rcases exists_onBroadcast_of_move? hmove nofun with ⟨hnone, -⟩ | ⟨y, phase', hy, hy'⟩
      · cases hnone.symm.trans hb
      · cases hb.symm.trans hy
        rw [hy', show m.onBroadcast index x = taken from if_pos rfl]
    obtain ⟨trace', s', hattended, hs'⟩ := ih hnext (congrArg List.tail hn)
    exact ⟨_, s', (Attended.single (Or.inr (Or.inr rfl)) hmove).trans hattended, hs'⟩

/-- An answer is handed over to a client that takes its answers. -/
theorem exists_attended_handed {goOn : Bool}
    (hb : s.broadcasts[index]? = some ⟨x, .answering r goOn⟩) (hhere : x.hungUp = false)
    (hroom : 0 < x.capacity) :
    ∃ trace' s', s.Attended index trace' s' ∧ r ∈ emitted trace' index ∧
      s'.broadcasts[index]? = some
        ⟨{ x with responses := [r] }, if goOn then .reading else .ended⟩ := by
  obtain ⟨trace₁, s₁, hempty, hb₁⟩ := exists_attended_emptied hb
  let b' : BroadcastStream := ⟨{ x with responses := [r] }, if goOn then .reading else .ended⟩
  have hpush : ({ x with responses := [] } : Exchange BroadcastRequest BroadcastResponse).push r
      = .queued { x with responses := [r] } := by
    simp [Exchange.push, hhere, hroom]
  have hgoes : s₁.broadcast? index = some (s₁.setBroadcast index b') := by
    simp [broadcast?, hb₁, BroadcastStream.handOver?, hpush, b']
  have hmove : s₁.move? (.event (.broadcast index)) = some (s₁.setBroadcast index b') := hgoes
  have hb' : (s₁.setBroadcast index b').broadcasts[index]? = some b' :=
    getElem?_setBroadcast hb₁ (.handedOver hpush)
  have hhands : BroadcastStream.handsOver? ⟨{ x with responses := [] }, .answering r goOn⟩ b'
      = some r := BroadcastStream.handsOver?_of_here hhere
  refine ⟨_, _, hempty.trans (.handler hgoes), ?_, hb'⟩
  rw [emitted_concat, Moment.ofBroadcast?_eq _ hmove hb₁ hb', hhands]
  exact List.mem_append_right _ List.mem_cons_self

/-- A request that waits for its answer gets it. -/
theorem exists_attended_answering {ticket : Nat} {payload : Bytes} (ht : s.Tickets)
    (hs : s.Submission trace ticket payload)
    (hb : s.broadcasts[index]? = some ⟨x, .submitted ticket⟩) :
    ∃ trace' s' r goOn, s.Attended index trace' s' ∧
      s'.broadcasts[index]? = some ⟨x, .answering r goOn⟩ := by
  obtain ⟨n, trace', s₁, answer, hrun, hanswer, hsame⟩ := hs.exists_answered ht
  have hserves : s.Attended index trace' s₁ :=
    ⟨_, fun m hm => Or.inl (List.eq_of_mem_replicate hm), hrun⟩
  rw [← hsame] at hb
  have hgoes : s₁.broadcast? index = some
      (s₁.answerBroadcast index ⟨x, .submitted ticket⟩ (Broadcast.response answer)) := by
    simp [broadcast?, hb, hanswer]
  exact ⟨_, _, _, _, hserves.trans (.handler hgoes), getElem?_setBroadcast hb (.answered hanswer)⟩

/-- An item that waits is read. -/
theorem exists_read {item : Incoming} {rest : List Incoming}
    (hb : s.broadcasts[index]? = some ⟨x, .reading⟩) (hitem : x.requests = item :: rest) :
    ∃ s' phase, s.broadcast? index = some s' ∧
      s'.broadcasts[index]? = some ⟨{ x with requests := rest }, phase⟩ ∧
      ((∃ r goOn, phase = .answering r goOn) ∨ ∃ ticket, phase = .submitted ticket) := by
  have htake : x.take? = some (some item, { x with requests := rest }) := by
    rw [Exchange.take?, hitem]
  cases item with
  | error e =>
    refine ⟨_, _, ?_, getElem?_setBroadcast hb (.unreadable htake), Or.inl ⟨_, _, rfl⟩⟩
    simp [broadcast?, hb, readBroadcast?, htake]
  | ok request =>
    cases hrefusal : Broadcast.refusal? s.maxPayload request with
    | some info =>
      refine ⟨_, _, ?_, getElem?_setBroadcast hb (.refused htake hrefusal), Or.inl ⟨_, _, rfl⟩⟩
      simp only [broadcast?, hb, readBroadcast?, htake, hrefusal, Option.bind_eq_bind,
        Option.bind_some]
      rfl
    | none =>
      refine ⟨_, _, ?_, getElem?_setBroadcast hb (.submitted htake hrefusal), Or.inr ⟨_, rfl⟩⟩
      simp [broadcast?, hb, readBroadcast?, htake, hrefusal, send]

section

variable {c : SequencerConfig} {maxPayload : Nat} {moves : List Move}

theorem Attended.run? {s₀ : Service} (h : s.Attended index trace' s')
    (hrun : s₀.run? moves = some (trace, s)) :
    ∃ moves', s₀.run? moves' = some (trace ++ trace', s') := by
  obtain ⟨moves', -, hrun'⟩ := h
  exact ⟨moves ++ moves', run?_append hrun hrun'⟩

/-- An item that the handler is at work on gets its answer. -/
theorem exists_attended_answered (hrun : (Service.new c maxPayload).run? moves = some (trace, s))
    (hb : s.broadcasts[index]? = some ⟨x, phase⟩)
    (hwork : (∃ r goOn, phase = .answering r goOn) ∨ ∃ ticket, phase = .submitted ticket)
    (hhere : x.hungUp = false) (hroom : 0 < x.capacity) :
    ∃ trace' s' responses phase', s.Attended index trace' s' ∧
      s'.broadcasts[index]? = some ⟨{ x with responses }, phase'⟩ ∧
      (phase' = .reading ∨
        phase' = .ended ∧ ∃ r ∈ emitted trace' index, isSuccess r = false) := by
  rcases hwork with ⟨r, goOn, rfl⟩ | ⟨ticket, rfl⟩
  · obtain ⟨trace', s', hattended, hmem, hs'⟩ := exists_attended_handed hb hhere hroom
    refine ⟨trace', s', _, _, hattended, hs', ?_⟩
    cases goOn with
    | true => exact Or.inl rfl
    | false =>
      exact Or.inr ⟨rfl, r, hmem, (conversing_of_run? hrun hb).served.goOn_eq.symm⟩
  · have hserved := (conversing_of_run? hrun hb).served
    generalize itemsRead trace index = items, emitted trace index = answers at hserved
    cases hserved with
    | submitted before request ticket fit submission =>
      obtain ⟨trace₁, s₁, r, goOn, hfirst, hb₁⟩ :=
        exists_attended_answering (run?_conversed hrun index).1 submission hb
      obtain ⟨moves₁, hrun₁⟩ := hfirst.run? hrun
      obtain ⟨trace', s', hattended, hmem, hs'⟩ := exists_attended_handed hb₁ hhere hroom
      refine ⟨trace₁ ++ trace', s', _, _, hfirst.trans hattended, hs', ?_⟩
      cases goOn with
      | true => exact Or.inl rfl
      | false =>
        have hbad := (conversing_of_run? hrun₁ hb₁).served.goOn_eq.symm
        exact Or.inr ⟨rfl, r, mem_emitted_append hmem, hbad⟩

/-- A stream with these queues is served to the end: until no item waits, or an answer is no
success. -/
def Completes (s : Service) (index : Nat) (x : Exchange BroadcastRequest BroadcastResponse) :
    Prop :=
  ∃ trace' s' requests responses phase', s.Attended index trace' s' ∧
    s'.broadcasts[index]? = some ⟨{ x with requests, responses }, phase'⟩ ∧
    (phase' = .reading ∧ requests = [] ∨
      phase' = .ended ∧ ∃ r ∈ emitted trace' index, isSuccess r = false)

theorem Completes.after {requests : List Incoming} {responses : List Outgoing}
    (h : s.Attended index trace s')
    (hs : s'.Completes index { x with requests, responses }) : s.Completes index x := by
  obtain ⟨trace', last, requests', responses', phase', hattended, hlast, hstop⟩ := hs
  refine ⟨_, last, requests', responses', phase', h.trans hattended, hlast, ?_⟩
  exact hstop.imp id fun ⟨hphase, r, hmem, hbad⟩ => ⟨hphase, r, mem_emitted_append hmem, hbad⟩

/-- The induction is on the items that wait. -/
theorem completes_of_reading (hrun : (Service.new c maxPayload).run? moves = some (trace, s))
    (hb : s.broadcasts[index]? = some ⟨x, .reading⟩) (hhere : x.hungUp = false)
    (hroom : 0 < x.capacity) : s.Completes index x := by
  generalize hn : x.requests = requests
  induction requests generalizing s trace moves x with
  | nil => exact ⟨[], s, x.requests, x.responses, _, .refl s index, hb, Or.inl ⟨rfl, hn⟩⟩
  | cons item rest ih =>
    obtain ⟨s₁, phase₁, hread, hb₁, hwork⟩ := exists_read hb hn
    have hfirst := Attended.handler hread
    obtain ⟨moves₁, hrun₁⟩ := hfirst.run? hrun
    have hrest : s₁.Completes index { x with requests := rest } := by
      obtain ⟨trace₂, s₂, responses, phase₂, hsecond, hb₂, rfl | hstop⟩ :=
        exists_attended_answered hrun₁ hb₁ hwork hhere hroom
      · obtain ⟨moves₂, hrun₂⟩ := hsecond.run? hrun₁
        exact (ih hrun₂ hb₂ hhere hroom rfl).after hsecond
      · exact ⟨trace₂, s₂, rest, responses, phase₂, hsecond, hb₂, Or.inr hstop⟩
    exact hrest.after hfirst

/-- **Every stream is served to the end,** wherever its handler is at work. -/
theorem completes (hrun : (Service.new c maxPayload).run? moves = some (trace, s))
    (hb : s.broadcasts[index]? = some ⟨x, phase⟩) (hphase : phase ≠ .ended)
    (hhere : x.hungUp = false) (hroom : 0 < x.capacity) : s.Completes index x := by
  have hworking : (∃ r goOn, phase = .answering r goOn) ∨ (∃ ticket, phase = .submitted ticket) →
      s.Completes index x := by
    intro hwork
    obtain ⟨trace', s', responses, phase', hattended, hb', rfl | hstop⟩ :=
      exists_attended_answered hrun hb hwork hhere hroom
    · obtain ⟨moves', hrun'⟩ := hattended.run? hrun
      exact (completes_of_reading hrun' hb' hhere hroom).after hattended
    · exact ⟨trace', s', x.requests, responses, phase', hattended, hb', Or.inr hstop⟩
  cases phase with
  | reading => exact completes_of_reading hrun hb hhere hroom
  | submitted ticket => exact hworking (Or.inr ⟨ticket, rfl⟩)
  | answering r goOn => exact hworking (Or.inl ⟨r, goOn, rfl⟩)
  | ended => exact absurd rfl hphase

/-- When no more items come the handler returns. -/
theorem broadcast?_of_finished (hb : s.broadcasts[index]? = some ⟨x, .reading⟩)
    (hnone : x.requests = []) (hclosed : x.requestsClosed = true) :
    s.broadcast? index = some (s.setBroadcast index ⟨x, .ended⟩) ∧
      (s.setBroadcast index ⟨x, .ended⟩).broadcasts[index]? = some ⟨x, .ended⟩ := by
  have htake : x.take? = some (none, x) := by
    simp [Exchange.take?, hnone, hclosed]
  refine ⟨?_, getElem?_setBroadcast hb (.finished htake)⟩
  simp [broadcast?, hb, readBroadcast?, htake]

/-- Where the handler reads on or has returned, what it has read is answered. -/
theorem Attended.answered (h : s.Attended index trace' s')
    (hrun : (Service.new c maxPayload).run? moves = some (trace, s)) {b' : BroadcastStream}
    (hb' : s'.broadcasts[index]? = some b') (hhere : b'.exchange.hungUp = false)
    (hphase : b'.phase = .reading ∨ b'.phase = .ended) :
    (itemsRead (trace ++ trace') index).length = (emitted (trace ++ trace') index).length ∧
      (b'.exchange.requests = [] → (itemsRead (trace ++ trace') index).map (Except.map Prod.fst)
        = itemsGiven trace index) := by
  obtain ⟨moves', hrun'⟩ := h.run? hrun
  have hc := conversing_of_run? hrun' hb'
  have hgiven : itemsGiven (trace ++ trace') index = itemsGiven trace index := by
    rw [itemsGiven, List.filterMap_append, ← itemsGiven, ← itemsGiven, h.itemsGiven_eq,
      List.append_nil]
  refine ⟨(hc.served.all_of_here hhere hphase).length_eq, fun hnone => ?_⟩
  rw [← hgiven, ← hc.given_eq, hnone, List.append_nil]

/-- Then every item that was given has its answer, unless an answer was no success. -/
theorem exists_attended_through (hrun : (Service.new c maxPayload).run? moves = some (trace, s))
    {b : BroadcastStream} (hb : s.broadcasts[index]? = some b) (hphase : b.phase ≠ .ended)
    (hhere : b.exchange.hungUp = false) (hroom : 0 < b.exchange.capacity) :
    ∃ trace' s' b', s.Attended index trace' s' ∧ s'.broadcasts[index]? = some b' ∧
      (itemsRead (trace ++ trace') index).length = (emitted (trace ++ trace') index).length ∧
      ((∃ r ∈ emitted (trace ++ trace') index, isSuccess r = false) ∨
        (itemsRead (trace ++ trace') index).map (Except.map Prod.fst) = itemsGiven trace index) ∧
      (b.exchange.requestsClosed = true → b'.phase = .ended) := by
  obtain ⟨x, phase⟩ := b
  obtain ⟨trace', s', requests, responses, phase', hattended, hb', hstop⟩ :=
    completes hrun hb hphase hhere hroom
  rcases hstop with ⟨rfl, rfl⟩ | ⟨rfl, r, hmem, hbad⟩
  · cases hclosed : x.requestsClosed with
    | false =>
      obtain ⟨hlength, hall⟩ := hattended.answered hrun hb' hhere (Or.inl rfl)
      exact ⟨trace', s', _, hattended, hb', hlength, Or.inr (hall rfl), nofun⟩
    | true =>
      obtain ⟨hreturns, hb''⟩ := broadcast?_of_finished hb' rfl hclosed
      have hreturned := hattended.trans (.handler hreturns)
      obtain ⟨hlength, hall⟩ := hreturned.answered hrun hb'' hhere (Or.inr rfl)
      exact ⟨_, _, _, hreturned, hb'', hlength, Or.inr (hall rfl), fun _ => rfl⟩
  · obtain ⟨hlength, -⟩ := hattended.answered hrun hb' hhere (Or.inr rfl)
    exact ⟨trace', s', _, hattended, hb', hlength, Or.inl ⟨r, mem_emitted_append hmem, hbad⟩,
      fun _ => rfl⟩

/-- **One answer for each item, and the first failure ends the stream.** After every run the promise
is kept to every broadcast stream. When its handler has returned, nothing that is given to it is
read, whatever happens. When its client has gone, one item more at most is at work. And wherever
the handler of a client that is there may be at work, answers come for everything that was given, up
to the first one that is no success. -/
theorem run?_conversation (hrun : (Service.new c maxPayload).run? moves = some (trace, s))
    {b : BroadcastStream} (hb : s.broadcasts[index]? = some b) :
    s.Conversation trace maxPayload index b ∧
      (∀ (after : List Move) (trace' : List Moment) (s' : Service),
        s.run? after = some (trace', s') →
          (b.phase = .ended → s'.Concluded trace trace' index) ∧
          (b.exchange.hungUp = true →
            emitted (trace ++ trace') index = emitted trace index ∧
            (itemsRead (trace ++ trace') index).length ≤ (emitted trace index).length + 1 ∧
            (orderedOn (trace ++ trace') index).length
              ≤ (emitted trace index).countP isSuccess + 1)) ∧
      (b.phase ≠ .ended → b.exchange.hungUp = false → 0 < b.exchange.capacity →
        ∃ trace' s' b', s.Attended index trace' s' ∧ s'.broadcasts[index]? = some b' ∧
          (itemsRead (trace ++ trace') index).length = (emitted (trace ++ trace') index).length ∧
          ((∃ r ∈ emitted (trace ++ trace') index, isSuccess r = false) ∨
            (itemsRead (trace ++ trace') index).map (Except.map Prod.fst)
              = itemsGiven trace index) ∧
          (b.exchange.requestsClosed = true → b'.phase = .ended)) := by
  refine ⟨(conversing_of_run? hrun hb).conversation (run?_conversed hrun index).1, ?_,
    exists_attended_through hrun hb⟩
  intro after trace' s' hafter
  exact ⟨fun hend => concluded_of_ended hrun hb hend hafter,
    fun hgone => length_le_of_hungUp hrun hb hgone hafter⟩

end

/-- The first stream asks for a transaction whose digest cannot be taken, and then for another one;
the client of the second one goes away before its answer is there; the third one has a request that
nobody has looked at. -/
def stoppingMoves : List Move :=
  [.openBroadcast 8, .openBroadcast 8, .openBroadcast 1,
    .broadcastClient 0 (.request (.ok ⟨[1], []⟩)), .broadcastClient 0 (.request (.ok ⟨[7], []⟩)),
    .broadcastClient 0 (.request (.ok ⟨[2], []⟩)), .event (.broadcast 0), .event .serve,
    .event (.broadcast 0), .event (.broadcast 0), .event (.broadcast 0), .event .serve,
    .event (.broadcast 0), .event (.broadcast 0),
    .broadcastClient 1 (.request (.ok ⟨[3], []⟩)), .event (.broadcast 1),
    .broadcastClient 1 .hangUp, .event .serve,
    .broadcastClient 2 (.request (.ok ⟨[4], []⟩)), .broadcastClient 2 .closeRequests]

theorem run?_conversation_stopping :
    ∃ trace s, (Service.new refusingSeven 4).run? stoppingMoves = some (trace, s) ∧
      (emitted trace 0).map Except.toOption = [some (.withStatus .success "0001"),
        some (.withStatus .invalid "ordering unavailable: Merkle error: offline")] ∧
      (itemsGiven trace 0).length = 3 ∧ (itemsRead trace 0).length = 2 ∧
      (∀ after trace' s', s.run? after = some (trace', s') → s'.Concluded trace trace' 0) ∧
      orderedOn trace 1 = [⟨[3], 1, [0, 3]⟩] ∧ (emitted trace 1).length = 0 ∧
      (∀ after trace' s', s.run? after = some (trace', s') →
        (orderedOn (trace ++ trace') 1).length ≤ (emitted trace 1).countP isSuccess + 1) ∧
      ∃ trace' s' b', s.Attended 2 trace' s' ∧ s'.broadcasts[2]? = some b' ∧ b'.phase = .ended ∧
        (itemsRead (trace ++ trace') 2).length = (emitted (trace ++ trace') 2).length := by
  have hfailed : ((Service.new refusingSeven 4).run? stoppingMoves).map (fun x =>
      (x.2.broadcasts[0]?.map (·.isEnded), (emitted x.1 0).map Except.toOption,
        (itemsGiven x.1 0).length, (itemsRead x.1 0).length)) = some (some true,
          [some (.withStatus .success "0001"),
            some (.withStatus .invalid "ordering unavailable: Merkle error: offline")], 3, 2) := by
    decide +kernel
  have hgone : ((Service.new refusingSeven 4).run? stoppingMoves).map (fun x =>
      (x.2.broadcasts[1]?.map (·.exchange.hungUp), orderedOn x.1 1, (emitted x.1 1).length))
        = some (some true, [⟨[3], 1, [0, 3]⟩], 0) := by
    decide +kernel
  have hwaits : ((Service.new refusingSeven 4).run? stoppingMoves).map (fun x =>
      x.2.broadcasts[2]?.map fun b =>
        (b.isEnded, b.exchange.hungUp, b.exchange.capacity, b.exchange.requestsClosed))
        = some (some (false, false, 1, true)) := by
    decide +kernel
  obtain ⟨⟨trace, s⟩, hrun, hfailed⟩ := Option.map_eq_some_iff.mp hfailed
  rw [hrun] at hgone hwaits
  obtain ⟨hended, hfailed⟩ := Prod.mk.inj hfailed
  obtain ⟨hanswers, hfailed⟩ := Prod.mk.inj hfailed
  obtain ⟨hgiven, hread⟩ := Prod.mk.inj hfailed
  obtain ⟨hgone, hordered⟩ := Prod.mk.inj (Option.some.inj hgone)
  obtain ⟨hordered, hnone⟩ := Prod.mk.inj hordered
  obtain ⟨b₀, hb₀, hended⟩ := Option.map_eq_some_iff.mp hended
  obtain ⟨b₁, hb₁, hgone⟩ := Option.map_eq_some_iff.mp hgone
  obtain ⟨b₂, hb₂, hwaits⟩ := Option.map_eq_some_iff.mp (Option.some.inj hwaits)
  obtain ⟨hwork, hwaits⟩ := Prod.mk.inj hwaits
  obtain ⟨hhere, hwaits⟩ := Prod.mk.inj hwaits
  obtain ⟨hroom, hclosed⟩ := Prod.mk.inj hwaits
  obtain ⟨-, hover, -⟩ := run?_conversation hrun hb₀
  obtain ⟨-, hleft, -⟩ := run?_conversation hrun hb₁
  obtain ⟨-, -, hserved⟩ := run?_conversation hrun hb₂
  have hphase : b₂.phase ≠ .ended := fun heq =>
    nomatch hwork.symm.trans (BroadcastStream.isEnded_iff.mpr heq)
  obtain ⟨trace', s', b', hattended, hb', hlength, -, hreturns⟩ :=
    hserved hphase hhere (by rw [hroom]; exact Nat.one_pos)
  refine ⟨trace, s, hrun, hanswers, hgiven, hread, fun after trace' s' hafter => ?_, hordered,
    hnone, fun after trace' s' hafter => ?_, trace', s', b', hattended, hb', hreturns hclosed,
    hlength⟩
  · exact (hover after trace' s' hafter).1 (BroadcastStream.isEnded_iff.mp hended)
  · exact ((hleft after trace' s' hafter).2 hgone).2.2

end Service

end OrderingService
