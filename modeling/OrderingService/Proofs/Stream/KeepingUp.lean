import Mathlib.Data.List.TakeDrop
import OrderingService.Proofs.Config.Validation
import OrderingService.Proofs.Sequencer.BatchSizes
import OrderingService.Proofs.Service.Submissions
import OrderingService.Proofs.Stream.CatchingUp

/-!
# A deliver stream that keeps up is not cut off

A batch is published in one step. A stream that had nothing left to read when that happened has the
whole batch before it, so it has not fallen too far behind if as many transactions are kept as the
batch has, whatever else happens before it goes on. If fewer are kept, it is told that it fell
behind although it had read everything.

## Main definitions

* `Service.Moment.batch` — what is published at a moment
* `Service.KeepsUp` — a stream has nothing left to read when a batch is published
* `Service.Fits` — no batch that is published while a stream has a place is too large
* `Service.Over` — why a stream that got a subscription is told no more
* `Service.Course` — how a stream stands that keeps up with batches that fit
* `Service.KeptUp` — what is promised of such a stream

## Main results

* `Service.run?_length_batch_le` — while nothing is refused, batches keep the limit
* `Service.Course.move` — one move keeps such a stream on its course
* `Service.run?_keptUp` — with a valid configuration, after every run, the promise is kept
* `Service.read_eq_lagged`, `Service.keepsUp_lagged` — a batch that does not fit cuts a stream off
-/

namespace OrderingService

open DeliverStream (Incoming Outgoing Goes Standing Answers Heard Live txid?)

namespace Service

variable {s s' : Service} {m : Move} {trace : List Moment} {now : Moment} {index : Nat}
  {q : Sequencer} {d d' : DeliverStream}

/-! ### Batches -/

/-- What is published at a moment. -/
def Moment.batch (now : Moment) : List OrderedTransaction :=
  now.after.sequencer.published.drop now.before.sequencer.published.length

theorem published_eq_of_move? (h : s.move? m = some s') :
    s'.sequencer.published = s.sequencer.published ++ (⟨s, m⟩ : Moment).batch := by
  obtain ⟨batch, hbatch⟩ := (move?_concerns h).advances.published
  rw [Moment.batch, Moment.after_eq h, ← hbatch, List.drop_left]

/-- While nothing is refused, no move publishes more than the limit. -/
theorem Concerns.roomy (hc : s.Concerns m s') (hr : s.sequencer.Roomy) :
    s'.sequencer.Roomy ∧ s'.sequencer.batchLimit = s.sequencer.batchLimit ∧
      s'.sequencer.published.length
        ≤ s.sequencer.published.length + s.sequencer.batchLimit := by
  rcases hc.sequencer_cases with ⟨metrics, heq⟩ | ⟨action, answer, heffect⟩
  · rw [heq]
    exact ⟨{ hr with }, rfl, Nat.le_add_right _ _⟩
  · exact hr.effect heffect

/-- **While nothing is refused, batches keep the limit.** -/
theorem run?_length_batch_le {c : SequencerConfig} (hc : c.strategy.Accepts) {maxPayload : Nat}
    {moves : List Move} (hrun : (Service.new c maxPayload).run? moves = some (trace, s)) :
    ∀ now ∈ trace, now.batch.length ≤ max 1 c.maxBatchSize := by
  refine (run?_keeps (P := fun s trace => s.sequencer.Roomy ∧
    s.sequencer.batchLimit = max 1 c.maxBatchSize ∧
      ∀ now ∈ trace, now.batch.length ≤ max 1 c.maxBatchSize) ?_ ?_ hrun).2.2
  · rintro s m s' trace ⟨hroomy, hlimit, hall⟩ hmove
    obtain ⟨hroomy', hsame, hle⟩ := (move?_concerns hmove).roomy hroomy
    refine ⟨hroomy', hsame.trans hlimit, fun now hmem => ?_⟩
    rcases List.mem_append.mp hmem with hmem | hmem
    · exact hall now hmem
    · cases List.mem_singleton.mp hmem
      rw [published_eq_of_move? hmove, List.length_append] at hle
      omega
  · exact ⟨.new hc, rfl, fun _ hmem => absurd hmem List.not_mem_nil⟩

/-- A sequencer that has stopped publishes nothing. -/
theorem Concerns.published_eq_of_stopped (hc : s.Concerns m s') (hd : s.Drained)
    (hstop : s.sequencer.stopped = true) :
    s'.sequencer.published = s.sequencer.published := by
  cases hc with
  | nothing _ quiet =>
    obtain ⟨metrics, heq⟩ := quiet.sequencer_eq
    rw [heq]
  | called _ c quiet =>
    obtain ⟨metrics, heq⟩ := quiet.sequencer_eq
    rw [heq, sequencer_send]
  | served serves =>
    obtain ⟨ticket, call, behind, hserves⟩ := serve?_cases serves
    cases (hd hstop).symm.trans hserves.mailbox_eq
  | acted _ _ _ _ _ _ running => cases running.symm.trans hstop

/-! ### A stream that keeps up -/

/-- A stream has nothing left to read whenever a batch is published. What it read last it may still
have to hand over, so this asks for less than that it was told everything. -/
def KeepsUp (trace : List Moment) (index : Nat) : Prop :=
  ∀ now ∈ trace, now.batch ≠ [] →
    ∀ sub ∈ now.before.place? index, now.before.sequencer.unread sub = 0

/-- No batch that is published while a stream has a place has more than `room` transactions. -/
def Fits (trace : List Moment) (index room : Nat) : Prop :=
  ∀ now ∈ trace, (now.before.place? index).isSome → now.batch.length ≤ room

instance (trace : List Moment) (index : Nat) : Decidable (KeepsUp trace index) :=
  inferInstanceAs (Decidable (∀ now ∈ trace, now.batch ≠ [] → ∀ sub ∈ _, _))

/-- Why a stream that got its subscription in the state `q` is told no more. -/
inductive Over (s : Service) (trace : List Moment) (index : Nat) (q : Sequencer) : Prop
  /-- Its client has gone or sends no more. -/
  | client (d : DeliverStream) (opened : s.delivers[index]? = some d)
    (isOver : d.exchange.isOver = true)
  /-- A request could not be read. -/
  | broken (e : RpcStatus) (read : .error e ∈ requestsRead trace index)
  /-- It was told everything, and the sequencer has stopped. -/
  | told (stopped : s.sequencer.stopped = true)
    (all : delivered trace s index = s.sequencer.published.drop q.published.length)

/-- A stream was not told that it fell behind, and is not about to be. -/
structure Spared (s : Service) (trace : List Moment) (index : Nat) : Prop where
  not_sent : .ok (.withStatus .invalid) ∉ sent trace index
  not_answering : ∀ d goOn, s.delivers[index]? = some d →
    d.phase ≠ .answering (.ok (.withStatus .invalid)) goOn

/-- How a stream stands that keeps up with batches that fit. -/
structure Course (s : Service) (trace : List Moment) (index : Nat) : Prop where
  near : ∀ sub, s.place? index = some sub → s.sequencer.unread sub ≤ s.sequencer.kept
  spared : ∀ q, subscribedAt trace index = some q → s.Spared trace index
  ends : ∀ q, subscribedAt trace index = some q → s.place? index = none → s.Over trace index q

/-- A stream was told everything when it was told as much as was published. -/
theorem delivered_eq_drop_iff (hq : subscribedAt trace index = some q) :
    delivered trace s index = s.sequencer.published.drop q.published.length ↔
      s.sequencer.published.length
        ≤ q.published.length + ((sent trace index).filterMap txid?).length := by
  simp only [delivered, hq, List.take_eq_self_iff, List.length_drop]
  omega

/-! ### One move -/

theorem place?_of_getElem? (h : s.delivers[index]? = some d) :
    s.place? index = s.placeOf? d.phase := by
  rw [place?, h, Option.bind_some]

/-- A client that has gone or sends no more does not come back. -/
theorem Turn.isOver (ht : s.Turn trace m s' index d d') (h : d.exchange.isOver = true) :
    d'.exchange.isOver = true := by
  cases ht with
  | handler goes => rwa [goes.isOver_eq]
  | other _ _ _ _ client =>
    rcases client with ⟨hexchange, -⟩ | ⟨act, hexchange, -⟩
    · rwa [hexchange]
    · rw [hexchange]
      exact Exchange.isOver_after h act

theorem Traced.standing (hs : s.Traced trace index) (hd : s.delivers[index]? = some d) :
    Standing s (subscribedAt trace index) (requestsRead trace index) (sent trace index)
      d.phase := by
  cases hs with
  | unopened unopened => cases unopened.symm.trans hd
  | opened d₀ opened standing => exact Option.some.inj (hd.symm.trans opened) ▸ standing

/-- A stream whose handler has read all was told all. -/
theorem Traced.delivered_of_streaming (hs : s.Traced trace index)
    (hq : subscribedAt trace index = some q) (hd : s.delivers[index]? = some d)
    {sub : Subscription} (hphase : d.phase = .streaming sub) (hall : s.sequencer.unread sub = 0) :
    delivered trace s index = s.sequencer.published.drop q.published.length := by
  have hstanding := hs.standing hd
  rw [hq, hphase] at hstanding
  rw [delivered_eq_drop_iff hq]
  generalize requestsRead trace index = reads, sent trace index = told at hstanding ⊢
  cases hstanding with
  | streaming heard live =>
    rw [live.txids_eq, List.length_map]
    rw [Sequencer.unread] at hall
    exact Nat.le_of_sub_eq_zero hall

theorem Moment.exists_subscribing {phase : DeliverPhase} (h : now.grantedTo? phase = some q) :
    ∃ ticket, phase = .subscribing ticket := by
  cases phase with
  | subscribing ticket => exact ⟨ticket, rfl⟩
  | _ => cases h

/-- A stream that got a subscription was opened before. -/
theorem Traced.exists_opened (hs : s.Traced trace index)
    (hq : subscribedAt (trace ++ [⟨s, m⟩]) index = some q) :
    ∃ d, s.delivers[index]? = some d := by
  cases hs with
  | unopened unopened place =>
    rw [subscribedAt_concat, place, Moment.subscribed?, unopened] at hq
    cases hq
  | opened d opened => exact ⟨d, opened⟩

/-- A stream that has a place after a move had none that was further on before, or the place is
new. -/
theorem exists_place?_of_move? (ht : s.Tickets) (htraced : s.Traced trace index)
    (h : s.move? m = some s') {sub : Subscription} (hplace : s'.place? index = some sub) :
    (∃ sub', s.place? index = some sub' ∧ sub'.next ≤ sub.next) ∨
      s'.sequencer.unread sub = 0 := by
  cases hd : s.delivers[index]? with
  | none =>
    rcases getElem?_delivers_of_unopened h hd with hnone | ⟨x, -, hnew⟩
    · rw [place?, hnone] at hplace
      cases hplace
    · cases (place?_of_getElem? hnew).symm.trans hplace
  | some d =>
    obtain ⟨d', hd', hturn⟩ := exists_turn trace h hd
    rw [place?_of_getElem? hd'] at hplace
    rw [place?_of_getElem? hd]
    cases hturn with
    | handler goes quiet =>
      rw [placeOf?_congr quiet.answers_eq] at hplace
      exact Or.inl (goes.exists_placeOf? ht hplace)
    | other phase_eq =>
      rw [phase_eq] at hplace
      have hc := move?_concerns h
      refine (of_placeOf?_concerns (htraced.standing hd) ht hc hplace).imp_left fun hsame => ?_
      exact ⟨sub, hsame, Nat.le_refl _⟩

namespace Course

/-- A stream stays near enough. What is published at once it has to read from the first
transaction on, and it fits. -/
theorem near_move (hs : s.Course trace index) (ht : s.Tickets) (htraced : s.Traced trace index)
    (h : s.move? m = some s')
    (hkeeps : (⟨s, m⟩ : Moment).batch ≠ [] →
      ∀ sub ∈ s.place? index, s.sequencer.unread sub = 0)
    (hfits : (s.place? index).isSome → (⟨s, m⟩ : Moment).batch.length ≤ s.sequencer.kept) :
    ∀ sub, s'.place? index = some sub → s'.sequencer.unread sub ≤ s'.sequencer.kept := by
  intro sub hplace
  rw [(move?_concerns h).advances.kept_eq]
  rcases exists_place?_of_move? ht htraced h hplace with ⟨sub', hold, hle⟩ | hzero
  · have hlength := congrArg List.length (published_eq_of_move? h)
    rw [List.length_append] at hlength
    have hnear := hs.near sub' hold
    have hfit := hfits (hold ▸ rfl)
    rw [Sequencer.unread] at hnear ⊢
    by_cases hbatch : (⟨s, m⟩ : Moment).batch = []
    · rw [hbatch, List.length_nil] at hlength
      omega
    · have hall : s.sequencer.published.length - sub'.next = 0 := hkeeps hbatch sub' hold
      omega
  · rw [hzero]
    exact Nat.zero_le _

/-- A stream that got a subscription is not told that it fell behind. -/
theorem spared_move (hs : s.Course trace index) (ht : s.Tickets) (htraced : s.Traced trace index)
    (h : s.move? m = some s') (hq : subscribedAt (trace ++ [⟨s, m⟩]) index = some q) :
    s'.Spared (trace ++ [⟨s, m⟩]) index := by
  obtain ⟨d, hd⟩ := htraced.exists_opened hq
  obtain ⟨d', hd', hturn⟩ := exists_turn trace h hd
  have hstanding := htraced.standing hd
  cases hturn with
  | handler goes _ subscribedAt_eq _ sent_eq =>
    rw [subscribedAt_eq] at hq
    have hspared := hs.spared q hq
    refine ⟨?_, fun d₀ goOn hd₀ hphase => ?_⟩
    · rw [sent_eq, List.mem_append, Option.mem_toList]
      rintro (hmem | hout)
      · exact hspared.not_sent hmem
      · obtain ⟨goOn, hphase⟩ := goes.exists_answering hout
        exact hspared.not_answering d goOn hd hphase
    · obtain rfl := Option.some.inj (hd'.symm.trans hd₀)
      rw [hq] at hstanding
      obtain ⟨sub, hplace, hlt⟩ := goes.of_answering_invalid ht hstanding hphase
      exact absurd hlt (Nat.not_lt.mpr (hs.near sub ((place?_of_getElem? hd).trans hplace)))
  | other phase_eq subscribedAt_eq _ sent_eq =>
    cases hold : subscribedAt trace index with
    | some q₀ =>
      have hspared := hs.spared q₀ hold
      refine ⟨sent_eq ▸ hspared.not_sent, fun d₀ goOn hd₀ hphase => ?_⟩
      obtain rfl := Option.some.inj (hd'.symm.trans hd₀)
      exact hspared.not_answering d goOn hd (phase_eq ▸ hphase)
    | none =>
      -- The subscription is granted now, when nothing was handed over yet.
      rw [subscribedAt_eq, hold, Option.none_or] at hq
      obtain ⟨ticket, hphase⟩ := Moment.exists_subscribing hq
      rw [hphase] at hstanding phase_eq
      refine ⟨?_, fun d₀ goOn hd₀ hanswering => ?_⟩
      · rw [sent_eq, sent_eq_nil_of_subscribing hstanding]
        exact List.not_mem_nil
      · obtain rfl := Option.some.inj (hd'.symm.trans hd₀)
        cases phase_eq.symm.trans hanswering

end Course

/-- A reason for which a stream is told no more stays one. -/
theorem Over.move (ho : s.Over trace index q) (hq : subscribedAt trace index = some q)
    (hd : s.Drained) (h : s.move? m = some s') : s'.Over (trace ++ [⟨s, m⟩]) index q := by
  have hc := move?_concerns h
  cases ho with
  | client d opened isOver =>
    obtain ⟨d', hd', hturn⟩ := exists_turn trace h opened
    exact .client d' hd' (hturn.isOver isOver)
  | broken e read =>
    refine .broken e ?_
    rw [requestsRead_concat]
    exact List.mem_append_left _ read
  | told stopped all =>
    refine .told (hc.advances.stopped stopped) ?_
    have hq' : subscribedAt (trace ++ [⟨s, m⟩]) index = some q := by
      rw [subscribedAt_concat, hq, Option.some_or]
    rw [delivered_eq_drop_iff hq] at all
    rw [delivered_eq_drop_iff hq', hc.published_eq_of_stopped hd stopped, sent_concat,
      List.filterMap_append, List.length_append]
    omega

namespace Course

/-- A stream is told no more only for one of few reasons. -/
theorem over_move (hs : s.Course trace index) (ht : s.Tickets) (hdrained : s.Drained)
    (htraced : s.Traced trace index) (h : s.move? m = some s')
    (hq : subscribedAt (trace ++ [⟨s, m⟩]) index = some q) (hplace : s'.place? index = none) :
    s'.Over (trace ++ [⟨s, m⟩]) index q := by
  obtain ⟨d, hd⟩ := htraced.exists_opened hq
  obtain ⟨d', hd', hturn⟩ := exists_turn trace h hd
  have htraced' := htraced.move ht h
  rw [place?_of_getElem? hd'] at hplace
  cases hturn with
  | handler goes quiet subscribedAt_eq requestsRead_eq =>
    have hq₀ := subscribedAt_eq.symm.trans hq
    rw [placeOf?_congr quiet.answers_eq] at hplace
    cases hold : s.place? index with
    | none => exact (hs.ends q hq₀ hold).move hq₀ hdrained h
    | some sub =>
      cases goes.leaves ((place?_of_getElem? hd).symm.trans hold) hplace with
      | left isOver => exact .client d' hd' (goes.isOver_eq.trans isOver)
      | broken e =>
        refine .broken e ?_
        rw [requestsRead_eq]
        exact List.mem_append_right _ List.mem_cons_self
      | closed reading stopped all =>
        exact (Over.told stopped (htraced.delivered_of_streaming hq₀ hd reading all)).move hq₀
          hdrained h
      | lagged missed => exact absurd missed (Nat.not_lt.mpr (hs.near sub hold))
  | other phase_eq subscribedAt_eq =>
    have hstanding' := htraced'.standing hd'
    rw [hq] at hstanding'
    obtain ⟨hnone, hungranted⟩ := of_placeOf?_eq_none hstanding' hplace
    rw [phase_eq] at hnone hungranted
    rw [subscribedAt_eq, hungranted, Option.or_none] at hq
    exact (hs.ends q hq ((place?_of_getElem? hd).trans (hnone s))).move hq hdrained h

/-- **One move keeps a stream on its course,** if it keeps up with a batch that fits. -/
theorem move (hs : s.Course trace index) (ht : s.Tickets) (hdrained : s.Drained)
    (htraced : s.Traced trace index) (h : s.move? m = some s')
    (hkeeps : (⟨s, m⟩ : Moment).batch ≠ [] →
      ∀ sub ∈ s.place? index, s.sequencer.unread sub = 0)
    (hfits : (s.place? index).isSome → (⟨s, m⟩ : Moment).batch.length ≤ s.sequencer.kept) :
    s'.Course (trace ++ [⟨s, m⟩]) index where
  near := hs.near_move ht htraced h hkeeps hfits
  spared := fun _ hq => hs.spared_move ht htraced h hq
  ends := fun _ hq hplace => hs.over_move ht hdrained htraced h hq hplace

end Course

/-! ### The promise -/

/-- What is promised of a stream that got its subscription in the state `q` and keeps up. -/
structure KeptUp (trace : List Moment) (s : Service) (index : Nat) (q : Sequencer) : Prop where
  /-- It is never told that it fell behind. -/
  not_invalid : .ok (.withStatus .invalid) ∉ sent trace index
  /-- It is told no more only for one of few reasons. -/
  ends : s.place? index = none → s.Over trace index q
  /-- Until then its client, if it is there, can get everything published since the subscription,
  even if nothing else happens. -/
  catches_up : ∀ d, s.delivers[index]? = some d → d.exchange.hungUp = false →
    0 < d.exchange.capacity → (s.place? index).isSome →
      ∃ moves later s', (∀ m ∈ moves, m.Follows index) ∧ s.run? moves = some (later, s') ∧
        s'.sequencer = s.sequencer ∧
        (taken (trace ++ later) index).filterMap txid?
          = (s.sequencer.published.drop q.published.length).map (·.txid)

/-- The ids that a stream was told are those of the transactions that it was told of. -/
theorem Traced.txids_eq (hs : s.Traced trace index) :
    (sent trace index).filterMap txid? = (delivered trace s index).map (·.txid) := by
  obtain ⟨txs, heard, answers, -⟩ := hs.exists_answers
  rw [← eq_delivered heard answers]
  exact answers.txids_eq

/-- A client that has taken all that a stream has read has got everything. -/
theorem Traced.taken_of_streaming (hs : s.Traced trace index)
    (hq : subscribedAt trace index = some q) {x : Exchange DeliverRequest DeliverResponse}
    {sub : Subscription} (hd : s.delivers[index]? = some ⟨x, .streaming sub⟩)
    (hhere : x.hungUp = false) (hresponses : x.responses = [])
    (hall : s.sequencer.unread sub = 0) :
    (taken trace index).filterMap txid?
      = (s.sequencer.published.drop q.published.length).map (·.txid) := by
  rw [← hs.delivered_of_streaming hq hd rfl hall, ← hs.txids_eq]
  cases hs with
  | unopened unopened => cases unopened.symm.trans hd
  | opened d opened standing handed =>
    cases opened.symm.trans hd
    have htaken := handed.eq_of_here hhere
    rw [hresponses, List.append_nil] at htaken
    rw [htaken]

theorem Course.keptUp (hs : s.Course trace index) (ht : s.Tickets) (htraced : s.Traced trace index)
    (hq : subscribedAt trace index = some q) : KeptUp trace s index q where
  not_invalid := (hs.spared q hq).not_sent
  ends := hs.ends q hq
  catches_up := by
    rintro ⟨x, phase⟩ hd hhere hroom hplace
    obtain ⟨sub, hplace⟩ := Option.isSome_iff_exists.mp hplace
    have hlt := (List.getElem?_eq_some_iff.mp hd).1
    obtain ⟨sub', hall, moves, later, hfollows, hrun⟩ := exists_leads_unread_eq_zero hlt hhere hroom
      ((place?_of_getElem? hd).symm.trans hplace) (hs.near sub hplace)
    rw [withDeliver_of_getElem? hd] at hrun
    refine ⟨moves, later, _, hfollows, hrun, rfl, ?_⟩
    obtain ⟨-, htraced'⟩ := run?_keeps_from
      (P := fun s trace => s.Tickets ∧ s.Traced trace index)
      (fun ⟨ht, htraced⟩ hmove => ⟨ht.concerns (move?_concerns hmove), htraced.move ht hmove⟩)
      ⟨ht, htraced⟩ hrun
    have hq' : subscribedAt (trace ++ later) index = some q := by
      rw [subscribedAt, List.findSome?_append, ← subscribedAt, hq, Option.some_or]
    exact htraced'.taken_of_streaming hq' (Leads.getElem?_withDeliver hlt _) hhere rfl hall

/-- Every run keeps streams on their course that keep up with batches that fit. -/
theorem run?_course (index : Nat) {c : SequencerConfig} {maxPayload : Nat} {moves : List Move}
    (hrun : (Service.new c maxPayload).run? moves = some (trace, s)) :
    s.Tickets ∧ s.Traced trace index ∧
      (KeepsUp trace index → Fits trace index (ceilPowerOfTwo (max 1 c.subscriberBuffer)) →
        s.Course trace index) := by
  suffices h : s.Tickets ∧ s.Traced trace index ∧ s.Drained ∧
      s.sequencer.kept = ceilPowerOfTwo (max 1 c.subscriberBuffer) ∧
      (KeepsUp trace index → Fits trace index (ceilPowerOfTwo (max 1 c.subscriberBuffer)) →
        s.Course trace index) from ⟨h.1, h.2.1, h.2.2.2.2⟩
  refine run?_keeps (P := fun s trace => s.Tickets ∧ s.Traced trace index ∧ s.Drained ∧
    s.sequencer.kept = ceilPowerOfTwo (max 1 c.subscriberBuffer) ∧
    (KeepsUp trace index → Fits trace index (ceilPowerOfTwo (max 1 c.subscriberBuffer)) →
      s.Course trace index)) ?_ ?_ hrun
  · rintro s m s' trace ⟨ht, htraced, hdrained, hkept, hcourse⟩ hmove
    have hc := move?_concerns hmove
    refine ⟨ht.concerns hc, htraced.move ht hmove, hdrained.concerns hc,
      hc.advances.kept_eq.trans hkept, fun hkeeps hfits => ?_⟩
    have hbefore := hcourse (fun now hmem => hkeeps now (List.mem_append_left _ hmem))
      fun now hmem => hfits now (List.mem_append_left _ hmem)
    have hnow : (⟨s, m⟩ : Moment) ∈ trace ++ [⟨s, m⟩] := List.mem_append_right _ List.mem_cons_self
    exact hbefore.move ht hdrained htraced hmove (hkeeps _ hnow) (hkept ▸ hfits _ hnow)
  · exact ⟨.new c maxPayload, .nil _ rfl, nofun, rfl, fun _ _ => ⟨nofun, nofun, nofun⟩⟩

/-- **A stream that keeps up is not cut off** as long as the batches fit. Their sizes and what is
kept come from one configuration, and that it is valid does not relate them; where as many
transactions are kept as a batch can have, every batch fits. Nothing else is needed: the strategy
may be any that refuses nothing, and anything may happen in between. -/
theorem run?_keptUp {c : Config} (hc : c.validate = .ok ()) :
    ∃ config, SequencerConfig.ofOrdering c.ordering = .ok config ∧ config.strategy.Accepts ∧
      ∀ H : HashStrategy, H.Accepts → ∀ maxPayload moves trace s,
        (Service.new { config with strategy := H } maxPayload).run? moves = some (trace, s) →
          (c.ordering.maxBatchSize ≤ ceilPowerOfTwo c.ordering.subscriberBuffer →
            ∀ index, Fits trace index (ceilPowerOfTwo c.ordering.subscriberBuffer)) ∧
          ∀ index q, subscribedAt trace index = some q → KeepsUp trace index →
            Fits trace index (ceilPowerOfTwo c.ordering.subscriberBuffer) →
              KeptUp trace s index q := by
  have hvalid := Config.validate_eq_ok_iff.mp hc
  obtain ⟨a, hconfig⟩ := hvalid.exists_ofOrdering
  refine ⟨_, hconfig, HashStrategy.accepts_ofAlgorithm a, ?_⟩
  intro H hH maxPayload moves trace s hrun
  refine ⟨fun hle index now hmem _ => ?_, fun index q hq hkeeps hfits => ?_⟩
  · have hlength := run?_length_batch_le hH hrun now hmem
    rw [Nat.max_eq_right hvalid.maxBatchSize_pos] at hlength
    exact Nat.le_trans hlength hle
  · obtain ⟨ht, htraced, hcourse⟩ := run?_course index hrun
    rw [Nat.max_eq_right hvalid.subscriberBuffer_pos] at hcourse
    exact (hcourse hkeeps hfits).keptUp ht htraced hq

/-- **A batch that does not fit cuts a stream off,** although it kept up: its place stays where it
is, and reading from there tells how much was missed. -/
theorem read_eq_lagged (ht : s.Tickets) (htraced : s.Traced trace index)
    (h : s.move? m = some s') {sub : Subscription} (hplace : s.place? index = some sub)
    (hall : s.sequencer.unread sub = 0)
    (hlarge : s.sequencer.kept < (⟨s, m⟩ : Moment).batch.length) :
    s'.place? index = some sub ∧ (s'.sequencer.read sub).1
      = .lagged ((⟨s, m⟩ : Moment).batch.length - s.sequencer.kept) := by
  obtain ⟨d, hd, hphase⟩ := Option.bind_eq_some_iff.mp hplace
  have hc := move?_concerns h
  have hpublished := congrArg List.length (published_eq_of_move? h)
  rw [List.length_append] at hpublished
  obtain ⟨d', hd', hturn⟩ := exists_turn trace h hd
  cases hturn with
  | handler goes quiet =>
    obtain ⟨metrics, heq⟩ := quiet.sequencer_eq
    rw [heq, goes.sequencer_eq] at hpublished
    exact absurd hlarge (by simp only at hpublished; omega)
  | other phase_eq =>
    rw [place?_of_getElem? hd', phase_eq]
    refine ⟨placeOf?_concerns ht hc hphase, ?_⟩
    have hle := next_le_of_placeOf?_eq_some (htraced.standing hd) ht hphase
    have hunread : s'.sequencer.unread sub = (⟨s, m⟩ : Moment).batch.length := by
      rw [Sequencer.unread] at hall ⊢
      omega
    rw [Sequencer.read, hc.advances.kept_eq, hunread, if_pos hlarge]

/-- A full batch has two transactions, and only one is kept. -/
def cramped : Config where
  ordering := { maxBatchSize := 2, subscriberBuffer := 1 }

/-- A full batch has two transactions, and both are kept. -/
def ample : Config where
  ordering := { maxBatchSize := 2, subscriberBuffer := 2 }

/-- The settings that an ordering section gives, with a strategy for whose digests nothing has to be
computed. -/
def concatenating (c : OrderingConfig) : SequencerConfig where
  maxBatchSize := c.maxBatchSize
  batchTimeoutMs := c.batchTimeoutMs
  mailboxCapacity := c.mailboxCapacity
  subscriberBuffer := c.subscriberBuffer
  strategy := .concatenation "concat"

/-- A stream subscribes and its client takes what it is told. Two submissions fill a batch, the
stream goes on, and its client takes what it is told then. -/
def keepingUpMoves : List Move :=
  subscribing 0 ++ [.deliverClient 0 .take] ++ calling (.submit [1]) ++ calling (.submit [2]) ++
    attending 0 .ordered ++ [.deliverClient 0 .take]

theorem run?_keptUp_ample :
    ample.validate = .ok () ∧ ∃ config,
      SequencerConfig.ofOrdering ample.ordering = .ok config ∧ ∃ trace s q,
        (Service.new { config with strategy := .concatenation "concat" } 16).run? keepingUpMoves
          = some (trace, s) ∧ subscribedAt trace 0 = some q ∧ KeepsUp trace 0 ∧
        ample.ordering.maxBatchSize ≤ ceilPowerOfTwo ample.ordering.subscriberBuffer ∧
        (s.place? 0).map s.sequencer.unread = some 1 ∧
        (taken trace 0).map Except.toOption = [some (.withStatus .success), some (.txid [0, 1])] ∧
        KeptUp trace s 0 q := by
  have hvalid : ample.validate = .ok () := by rfl
  have hle : ample.ordering.maxBatchSize ≤ ceilPowerOfTwo ample.ordering.subscriberBuffer := by
    decide
  obtain ⟨config, hconfig, -, hall⟩ := run?_keptUp hvalid
  have hsettings : { config with strategy := .concatenation "concat" }
      = concatenating ample.ordering := by
    obtain ⟨a, ha⟩ := (Config.validate_eq_ok_iff.mp hvalid).exists_ofOrdering
    cases hconfig.symm.trans ha
    rfl
  have hfacts : ((Service.new (concatenating ample.ordering) 16).run? keepingUpMoves).map (fun x =>
      ((subscribedAt x.1 0).isSome, decide (KeepsUp x.1 0), (x.2.place? 0).map x.2.sequencer.unread,
        (taken x.1 0).map Except.toOption))
        = some (true, true, some 1,
          [some (.withStatus .success), some (.txid [0, 1])]) := by
    decide +kernel
  obtain ⟨⟨trace, s⟩, hrun, heq⟩ := Option.map_eq_some_iff.mp hfacts
  simp only [Prod.mk.injEq, decide_eq_true_eq] at heq
  obtain ⟨hsubscribed, hkeeps, hplace, htaken⟩ := heq
  obtain ⟨q, hq⟩ := Option.isSome_iff_exists.mp hsubscribed
  rw [← hsettings] at hrun
  obtain ⟨hfits, hkept⟩ := hall (.concatenation "concat") (fun _ _ => rfl) 16 _ trace s hrun
  exact ⟨hvalid, config, hconfig, trace, s, q, hrun, hq, hkeeps, hle, hplace, htaken,
    hkept 0 q hq hkeeps (hfits hle 0)⟩

/-- **A stream that keeps up can be cut off,** with a valid configuration and nothing refused. -/
theorem keepsUp_lagged :
    cramped.validate = .ok () ∧ ∃ config,
      SequencerConfig.ofOrdering cramped.ordering = .ok config ∧ ∃ H : HashStrategy, H.Accepts ∧
        ∃ trace s, (Service.new { config with strategy := H } 16).run? keepingUpMoves
            = some (trace, s) ∧ (subscribedAt trace 0).isSome ∧ KeepsUp trace 0 ∧
          s.sequencer.stopped = false ∧ (taken trace 0).map Except.toOption
            = [some (.withStatus .success), some (.withStatus .invalid)] := by
  have hvalid : cramped.validate = .ok () := by rfl
  obtain ⟨a, hconfig⟩ := (Config.validate_eq_ok_iff.mp hvalid).exists_ofOrdering
  refine ⟨hvalid, _, hconfig, .concatenation "concat", fun _ _ => rfl, ?_⟩
  have hfacts : ((Service.new (concatenating cramped.ordering) 16).run? keepingUpMoves).map
      (fun x => ((subscribedAt x.1 0).isSome, decide (KeepsUp x.1 0), x.2.sequencer.stopped,
        (taken x.1 0).map Except.toOption))
        = some (true, true, false, [some (.withStatus .success), some (.withStatus .invalid)]) := by
    decide +kernel
  obtain ⟨⟨trace, s⟩, hrun, heq⟩ := Option.map_eq_some_iff.mp hfacts
  simp only [Prod.mk.injEq, decide_eq_true_eq] at heq
  obtain ⟨hsubscribed, hkeeps, hrunning, htaken⟩ := heq
  exact ⟨trace, s, hrun, hsubscribed, hkeeps, hrunning, htaken⟩

end Service

end OrderingService
