import Mathlib.Data.List.Nodup
import Mathlib.Data.List.Perm.Basic
import OrderingService.Hashing.Algorithm
import OrderingService.Proofs.Stream.Answers
import OrderingService.Proofs.Stream.Queues

/-!
# Deliver streams never skip, repeat or reorder

Any number of deliver streams are served at once, by handlers that go on in any order, for clients
that are fast or slow, break off or go away, while the sequencer publishes or stops. Whatever the
order of all this is, a stream is told of an unbroken stretch of what is published, from the first
transaction after its subscription on. One that falls too far behind is told so, and nothing after
that: no transaction is told of behind a gap.

What happened to a stream is read off the moments of a run.

## Main definitions

* `Service.requestsRead`, `Service.sent`, `Service.taken` — what went through the queues of a stream
* `Service.subscribedAt` — the sequencer as it gave a stream its subscription
* `Service.delivered` — the transactions that a stream was told of
* `Service.Turn` — what a move is to a stream that was opened, in its moments
* `Service.Delivery` — what is promised of a stream

## Main results

* `Service.exists_turn` — the handler of a stream goes on, or stays where it is
* `Service.Traced.move` — one move keeps account of every stream
* `Service.run?_delivery` — after every run, the promise is kept, and streams agree on the order
-/

namespace OrderingService

open DeliverStream (Incoming Outgoing Goes Standing Answers Heard txid?)

namespace Service

/-! ### What is seen of a stream -/

namespace Moment

variable (now : Moment) (index : Nat)

/-- What the handler of a stream reads at a moment. -/
def read? : Option Incoming :=
  match now.move with
  | .event (.deliver j branch) =>
    if j = index then now.before.delivers[j]?.bind (·.reads? branch) else none
  | _ => none

/-- What it hands over. -/
def sent? : Option Outgoing :=
  match now.move with
  | .event (.deliver j _) =>
    if j = index then now.before.delivers[j]?.bind (·.handsOver?) else none
  | _ => none

/-- What the client of the stream takes. -/
def taken? : Option Outgoing :=
  match now.move with
  | .deliverClient j act =>
    if j = index then now.before.delivers[j]?.bind (·.exchange.taken? act) else none
  | _ => none

/-- The sequencer as it gives the stream a subscription. -/
def subscribed? : Option Sequencer :=
  now.before.delivers[index]?.bind fun d => now.grantedTo? d.phase

end Moment

/-- What the handler of a stream has read, in order. -/
def requestsRead (trace : List Moment) (index : Nat) : List Incoming :=
  trace.filterMap (·.read? index)

/-- What the handler of a stream has handed over, in order. -/
def sent (trace : List Moment) (index : Nat) : List Outgoing := trace.filterMap (·.sent? index)

/-- What the client of a stream has taken, in order. -/
def taken (trace : List Moment) (index : Nat) : List Outgoing := trace.filterMap (·.taken? index)

/-- The sequencer as it gave a stream its subscription. -/
def subscribedAt (trace : List Moment) (index : Nat) : Option Sequencer :=
  trace.findSome? (·.subscribed? index)

/-- The transactions that a stream was told of: as many as it was told ids, from the first one
published after its subscription on. -/
def delivered (trace : List Moment) (s : Service) (index : Nat) : List OrderedTransaction :=
  match subscribedAt trace index with
  | none => []
  | some q => (s.sequencer.published.drop q.published.length).take
      ((sent trace index).filterMap txid?).length

namespace Moment

variable {now : Moment} {index : Nat}

theorem read?_of_ne (h : ∀ branch, now.move ≠ .event (.deliver index branch)) :
    now.read? index = none := by
  rw [read?]
  split
  next j branch heq => exact if_neg fun (hj : j = index) => h branch (hj ▸ heq)
  next => rfl

theorem sent?_of_ne (h : ∀ branch, now.move ≠ .event (.deliver index branch)) :
    now.sent? index = none := by
  rw [sent?]
  split
  next j branch heq => exact if_neg fun (hj : j = index) => h branch (hj ▸ heq)
  next => rfl

theorem taken?_of_ne (h : ∀ act, now.move ≠ .deliverClient index act) :
    now.taken? index = none := by
  rw [taken?]
  split
  next j act heq => exact if_neg fun (hj : j = index) => h act (hj ▸ heq)
  next => rfl

/-- From a stream that was not opened nothing is taken. -/
theorem taken?_of_none (h : now.before.delivers[index]? = none) : now.taken? index = none := by
  rw [taken?]
  split
  next j act heq =>
    split
    next hj => rw [hj, h, Option.bind_none]
    next => rfl
  next => rfl

end Moment

section

variable {trace : List Moment} {now : Moment} {index : Nat}

theorem requestsRead_concat : requestsRead (trace ++ [now]) index
    = requestsRead trace index ++ (now.read? index).toList := filterMap_concat _ _ _

theorem sent_concat : sent (trace ++ [now]) index
    = sent trace index ++ (now.sent? index).toList := filterMap_concat _ _ _

theorem taken_concat : taken (trace ++ [now]) index
    = taken trace index ++ (now.taken? index).toList := filterMap_concat _ _ _

theorem subscribedAt_concat : subscribedAt (trace ++ [now]) index
    = (subscribedAt trace index).or (now.subscribed? index) := by
  rw [subscribedAt, subscribedAt, List.findSome?_append, List.findSome?_singleton]

end

/-! ### What a move is to a stream, in its moments -/

/-- What a move is to a stream that was opened: its handler goes on, or stays where it is. -/
inductive Turn (s : Service) (trace : List Moment) (m : Move) (s' : Service) (index : Nat)
    (d d' : DeliverStream) : Prop
  | handler {branch : DeliverBranch} {read : Option Incoming} {out : Option Outgoing} {t : Service}
    (goes : Goes s d branch read out t d') (quiet : t.Quiet s')
    (subscribedAt_eq : subscribedAt (trace ++ [⟨s, m⟩]) index = subscribedAt trace index)
    (requestsRead_eq : requestsRead (trace ++ [⟨s, m⟩]) index
      = requestsRead trace index ++ read.toList)
    (sent_eq : sent (trace ++ [⟨s, m⟩]) index = sent trace index ++ out.toList)
    (taken_eq : taken (trace ++ [⟨s, m⟩]) index = taken trace index)
  | other (phase_eq : d'.phase = d.phase)
    (subscribedAt_eq : subscribedAt (trace ++ [⟨s, m⟩]) index
      = (subscribedAt trace index).or ((⟨s, m⟩ : Moment).grantedTo? d.phase))
    (requestsRead_eq : requestsRead (trace ++ [⟨s, m⟩]) index = requestsRead trace index)
    (sent_eq : sent (trace ++ [⟨s, m⟩]) index = sent trace index)
    (client : d'.exchange = d.exchange ∧ taken (trace ++ [⟨s, m⟩]) index = taken trace index ∨
      ∃ act, d'.exchange = d.exchange.after act ∧ taken (trace ++ [⟨s, m⟩]) index
        = taken trace index ++ (d.exchange.taken? act).toList)

theorem exists_turn {s s' : Service} {m : Move} {index : Nat} {d : DeliverStream}
    (trace : List Moment) (h : s.move? m = some s') (hd : s.delivers[index]? = some d) :
    ∃ d', s'.delivers[index]? = some d' ∧ s.Turn trace m s' index d d' := by
  by_cases hm : ∃ branch, m = .event (.deliver index branch)
  · obtain ⟨branch, rfl⟩ := hm
    obtain ⟨d₀, read, out, t, d', hd₀, hgoes, hread, hout, rfl⟩ := deliver?_cases h
    obtain rfl := Option.some.inj (hd.symm.trans hd₀)
    have hlt : index < t.delivers.length := by
      rw [delivers_of_goes hgoes]
      exact (List.getElem?_eq_some_iff.mp hd).1
    have hserve : Move.event (.deliver index branch) ≠ .event .serve := nofun
    refine ⟨d', by rw [delivers_setDeliver, List.getElem?_set_self hlt], ?_⟩
    refine .handler hgoes (quiet_setDeliver t index d') ?_ ?_ ?_ ?_
    · rw [subscribedAt_concat, Moment.subscribed?, hd, Option.bind_some,
        Moment.grantedTo?_of_ne hserve, Option.or_none]
    · rw [requestsRead_concat]
      simp only [Moment.read?, if_true, hd, Option.bind_some, hread]
    · rw [sent_concat]
      simp only [Moment.sent?, if_true, hd, Option.bind_some, hout]
    · rw [taken_concat, Moment.taken?_of_ne (fun _ heq => by cases heq), Option.toList_none,
        List.append_nil]
  · have hne : ∀ branch, m ≠ .event (.deliver index branch) := fun branch heq => hm ⟨branch, heq⟩
    have hplace : subscribedAt (trace ++ [⟨s, m⟩]) index
        = (subscribedAt trace index).or ((⟨s, m⟩ : Moment).grantedTo? d.phase) := by
      rw [subscribedAt_concat, Moment.subscribed?, hd]
      rfl
    have hreads : requestsRead (trace ++ [⟨s, m⟩]) index = requestsRead trace index := by
      rw [requestsRead_concat, Moment.read?_of_ne hne, Option.toList_none, List.append_nil]
    have hsends : sent (trace ++ [⟨s, m⟩]) index = sent trace index := by
      rw [sent_concat, Moment.sent?_of_ne hne, Option.toList_none, List.append_nil]
    rcases getElem?_delivers_of_move? h hne with
      ⟨hclient, hsame⟩ | ⟨hnone, -⟩ | ⟨x, phase, act, rfl, hold, hnew⟩
    · have hact : ∀ act, m ≠ .deliverClient index act := fun act heq => by
        cases (hclient act heq).symm.trans hd
      refine ⟨d, hsame.trans hd, .other rfl hplace hreads hsends (Or.inl ⟨rfl, ?_⟩)⟩
      rw [taken_concat, Moment.taken?_of_ne hact, Option.toList_none, List.append_nil]
    · cases hnone.symm.trans hd
    · obtain rfl := Option.some.inj (hd.symm.trans hold)
      refine ⟨_, hnew, .other rfl hplace hreads hsends (Or.inr ⟨act, rfl, ?_⟩)⟩
      rw [taken_concat]
      simp only [Moment.taken?, if_true, hd, Option.bind_some]

section

variable {s s' : Service} {m : Move} {index : Nat}

/-- A stream that was not opened has no handler. -/
theorem ne_deliver_of_unopened (h : s.move? m = some s') (hnone : s.delivers[index]? = none)
    (branch : DeliverBranch) : m ≠ .event (.deliver index branch) := by
  rintro rfl
  obtain ⟨d, read, out, t, d', hd, -⟩ := deliver?_cases h
  cases hnone.symm.trans hd

/-- It is unopened still after a move, or it is opened and waits. -/
theorem getElem?_delivers_of_unopened (h : s.move? m = some s')
    (hnone : s.delivers[index]? = none) :
    s'.delivers[index]? = none ∨ ∃ x : Exchange DeliverRequest DeliverResponse,
      x.responses = [] ∧ s'.delivers[index]? = some ⟨x, .waiting⟩ := by
  rcases getElem?_delivers_of_move? h (ne_deliver_of_unopened h hnone) with
    ⟨-, hsame⟩ | ⟨-, hopened⟩ | ⟨x, phase, act, -, hd, -⟩
  · exact Or.inl (hsame.trans hnone)
  · exact Or.inr hopened
  · cases hnone.symm.trans hd

end

/-! ### Account of a stream -/

/-- The account of a stream after some moments: it was not opened, or its handler stands somewhere
and its client has got what was handed over. -/
inductive Traced (s : Service) (trace : List Moment) (index : Nat) : Prop
  | unopened (unopened : s.delivers[index]? = none) (place : subscribedAt trace index = none)
    (reads : requestsRead trace index = []) (sends : sent trace index = [])
    (takes : taken trace index = [])
  | opened (d : DeliverStream) (opened : s.delivers[index]? = some d)
    (standing : Standing s (subscribedAt trace index) (requestsRead trace index) (sent trace index)
      d.phase)
    (handed : Handed (taken trace index) (sent trace index) d.exchange)

namespace Traced

variable {s s' : Service} {trace : List Moment} {index : Nat} {m : Move}

theorem nil (s : Service) (h : s.delivers = []) : s.Traced [] index :=
  .unopened (by rw [h]; rfl) rfl rfl rfl rfl

/-- **One move keeps account of every stream.** -/
theorem move (hs : s.Traced trace index) (ht : s.Tickets) (h : s.move? m = some s') :
    s'.Traced (trace ++ [⟨s, m⟩]) index := by
  cases hs with
  | unopened unopened place reads sends takes =>
    have hne := ne_deliver_of_unopened h unopened
    have hplace : subscribedAt (trace ++ [⟨s, m⟩]) index = none := by
      rw [subscribedAt_concat, place, Moment.subscribed?, unopened]
      rfl
    have hreads : requestsRead (trace ++ [⟨s, m⟩]) index = [] := by
      rw [requestsRead_concat, reads, Moment.read?_of_ne hne]
      rfl
    have hsends : sent (trace ++ [⟨s, m⟩]) index = [] := by
      rw [sent_concat, sends, Moment.sent?_of_ne hne]
      rfl
    have htakes : taken (trace ++ [⟨s, m⟩]) index = [] := by
      rw [taken_concat, takes, Moment.taken?_of_none unopened]
      rfl
    rcases getElem?_delivers_of_unopened h unopened with hnone | ⟨x, hempty, hnew⟩
    · exact .unopened hnone hplace hreads hsends htakes
    · refine .opened _ hnew ?_ ?_
      · rw [hplace, hreads, hsends]
        exact .waiting
      · rw [htakes, hsends]
        exact ⟨by rw [hempty]; exact List.prefix_rfl, fun _ => by rw [hempty]; rfl⟩
  | opened d opened standing handed =>
    obtain ⟨d', hd', hturn⟩ := exists_turn trace h opened
    refine .opened d' hd' ?_ ?_
    · cases hturn with
      | handler goes quiet subscribedAt_eq requestsRead_eq sent_eq =>
        rw [subscribedAt_eq, requestsRead_eq, sent_eq]
        exact (standing.goes ht goes).quiet quiet
      | other phase_eq subscribedAt_eq requestsRead_eq sent_eq =>
        rw [phase_eq, subscribedAt_eq, requestsRead_eq, sent_eq]
        exact standing.concerns ht (move?_concerns h)
    · cases hturn with
      | handler goes _ _ _ sent_eq taken_eq =>
        rw [taken_eq, sent_eq]
        exact handed.goes goes
      | other _ _ _ sent_eq client =>
        rw [sent_eq]
        rcases client with ⟨hexchange, htaken⟩ | ⟨act, hexchange, htaken⟩
        · rw [hexchange, htaken]
          exact handed
        · rw [hexchange, htaken]
          exact handed.after act

end Traced

/-! ### The promise -/

/-- What is promised of a deliver stream after a run with these moments. -/
structure Delivery (trace : List Moment) (s : Service) (index : Nat) : Prop where
  answers : Answers s.sequencer (subscribedAt trace index) (requestsRead trace index)
    (delivered trace s index) (sent trace index)
  txids_eq : (sent trace index).filterMap txid? = (delivered trace s index).map (·.txid)
  /-- The client gets the answers in order. -/
  taken_prefix : taken trace index <+: sent trace index
  /-- What was published before the subscription is not told of, and then nothing is left out. -/
  sequence_eq : ∀ q, subscribedAt trace index = some q → q.published <+: s.sequencer.published ∧
    (delivered trace s index).map (·.sequence)
      = List.range' q.published.length (delivered trace s index).length
  /-- What was pending at the subscription is published first after it. -/
  pending_prefix : ∀ q, subscribedAt trace index = some q →
    q.pending.map PendingTransaction.accepted <+:
      (s.sequencer.published.drop q.published.length).map OrderedTransaction.accepted ++
        s.sequencer.pending.map PendingTransaction.accepted

variable {s : Service} {trace : List Moment} {index : Nat}

theorem Traced.exists_answers (hs : s.Traced trace index) :
    ∃ txs, (∀ q, subscribedAt trace index = some q → Heard q s.sequencer txs) ∧
      Answers s.sequencer (subscribedAt trace index) (requestsRead trace index) txs
        (sent trace index) ∧ taken trace index <+: sent trace index := by
  cases hs with
  | unopened unopened place reads sends takes =>
    rw [place, reads, sends, takes]
    exact ⟨[], nofun, .nothing (Nat.zero_le _), List.prefix_rfl⟩
  | opened d opened standing handed =>
    obtain ⟨txs, heard, answers⟩ := standing.exists_answers
    exact ⟨txs, heard, answers, (List.prefix_append _ _).trans handed.isPrefix⟩

/-- The transactions that a stream was told of are given by their number. -/
theorem eq_delivered {txs : List OrderedTransaction}
    (heard : ∀ q, subscribedAt trace index = some q → Heard q s.sequencer txs)
    (answers : Answers s.sequencer (subscribedAt trace index) (requestsRead trace index) txs
      (sent trace index)) : txs = delivered trace s index := by
  rw [delivered]
  split
  next hplace =>
    rw [hplace] at answers
    exact answers.eq_nil
  next q hplace =>
    rw [answers.txids_eq, List.length_map]
    exact (heard q hplace).eq_take

theorem Traced.delivery (hs : s.Traced trace index) (ho : s.sequencer.Ordered) :
    Delivery trace s index := by
  obtain ⟨txs, heard, answers, htaken⟩ := hs.exists_answers
  obtain rfl := eq_delivered heard answers
  refine ⟨answers, answers.txids_eq, htaken, fun q hq => ?_, fun q hq => ?_⟩
  · exact ⟨(heard q hq).advances.published, (heard q hq).sequence_eq ho⟩
  · exact (heard q hq).advances.accepted_drop

theorem delivered_sublist (trace : List Moment) (s : Service) (index : Nat) :
    List.Sublist (delivered trace s index) s.sequencer.published := by
  rw [delivered]
  split
  · exact List.nil_sublist _
  · exact (List.take_sublist _ _).trans (List.drop_sublist _ _)

/-- What two parts of one order have in common is in the same order in both. -/
theorem filter_mem_comm {l a b : List OrderedTransaction} (hl : l.Nodup) (ha : List.Sublist a l)
    (hb : List.Sublist b l) : a.filter (· ∈ b) = b.filter (· ∈ a) := by
  refine (hl.perm_iff_eq_of_sublist (List.filter_sublist.trans ha)
    (List.filter_sublist.trans hb)).mp ?_
  refine (List.perm_ext_iff_of_nodup ((ha.nodup hl).filter _) ((hb.nodup hl).filter _)).mpr ?_
  intro tx
  rw [List.mem_filter, List.mem_filter, decide_eq_true_iff, decide_eq_true_iff]
  exact and_comm

/-- **Deliver streams never skip, repeat or reorder.** After every run the promise is kept to every
stream, and any two streams agree on the order of the transactions that both were told of. -/
theorem run?_delivery {c : SequencerConfig} {maxPayload : Nat} {moves : List Move}
    (hrun : (Service.new c maxPayload).run? moves = some (trace, s)) :
    (∀ index, Delivery trace s index) ∧
      ∀ i j, (delivered trace s i).filter (· ∈ delivered trace s j)
        = (delivered trace s j).filter (· ∈ delivered trace s i) := by
  obtain ⟨-, ho, htraced⟩ : s.Tickets ∧ s.sequencer.Ordered ∧ ∀ index, s.Traced trace index := by
    refine run?_keeps (P := fun s trace =>
      s.Tickets ∧ s.sequencer.Ordered ∧ ∀ index, s.Traced trace index) ?_ ?_ hrun
    · rintro s m s' trace ⟨ht, ho, htraced⟩ hmove
      have hc := move?_concerns hmove
      exact ⟨ht.concerns hc, hc.ordered ho, fun index => (htraced index).move ht hmove⟩
    · exact ⟨.new c maxPayload, .new c, fun index => .nil _ rfl⟩
  refine ⟨fun index => (htraced index).delivery ho, fun i j => ?_⟩
  have hnodup : s.sequencer.published.Nodup := by
    refine List.Nodup.of_map (·.sequence) ?_
    rw [ho.sequence_published]
    exact List.nodup_range
  exact filter_mem_comm hnodup (delivered_sublist _ _ _) (delivered_sublist _ _ _)

/-- Batches of two, and as many transactions are kept. -/
def keepingTwo : SequencerConfig where
  maxBatchSize := 2
  subscriberBuffer := 2
  strategy := .concatenation "concat"

/-- A new stream gets its subscription. -/
def subscribing (index : Nat) : List Move :=
  [.openDeliver 8, .deliverClient index (.request (.ok {})), .event (.deliver index .request),
    .event .serve, .event (.deliver index .request), .event (.deliver index .request)]

/-- The sequencer takes a call. -/
def calling (c : Call) : List Move := [.call c, .event .serve]

/-- A stream attends to a branch and hands an answer over. -/
def attending (index : Nat) (branch : DeliverBranch) : List Move :=
  [.event (.deliver index branch), .event (.deliver index branch)]

/-- The second stream subscribes with a transaction pending, sends one more request and keeps up.
The first one reads once, and then again when three more transactions have been published. -/
def laggingMoves : List Move :=
  subscribing 0 ++ calling (.submit [1]) ++ subscribing 1 ++ calling (.submit [2]) ++
    attending 0 .ordered ++ attending 1 .ordered ++ attending 1 .ordered ++
    [.deliverClient 1 (.request (.ok {}))] ++ attending 1 .request ++
    calling (.submit [3]) ++ calling .flush ++ attending 1 .ordered ++
    calling (.submit [4]) ++ calling .flush ++ attending 1 .ordered ++ attending 0 .ordered

theorem run?_delivery_lagging :
    ∃ trace s, (Service.new keepingTwo 16).run? laggingMoves = some (trace, s) ∧
      (sent trace 0).map Except.toOption
        = [some (.withStatus .success), some (.txid [0, 1]), some (.withStatus .invalid)] ∧
      (sent trace 1).map Except.toOption
        = [some (.withStatus .success), some (.txid [0, 1]), some (.txid [0, 2]),
          some (.withStatus .success), some (.txid [0, 3]), some (.txid [0, 4])] ∧
      (∀ index, Delivery trace s index) ∧
      (delivered trace s 0).filter (· ∈ delivered trace s 1)
        = (delivered trace s 1).filter (· ∈ delivered trace s 0) := by
  have hfacts : ((Service.new keepingTwo 16).run? laggingMoves).map (fun x =>
      ((sent x.1 0).map Except.toOption, (sent x.1 1).map Except.toOption))
        = some ([some (.withStatus .success), some (.txid [0, 1]), some (.withStatus .invalid)],
          [some (.withStatus .success), some (.txid [0, 1]), some (.txid [0, 2]),
            some (.withStatus .success), some (.txid [0, 3]), some (.txid [0, 4])]) := by
    decide +kernel
  obtain ⟨⟨trace, s⟩, hrun, heq⟩ := Option.map_eq_some_iff.mp hfacts
  obtain ⟨hfirst, hsecond⟩ := Prod.mk.inj heq
  obtain ⟨hall, hagree⟩ := run?_delivery hrun
  exact ⟨trace, s, hrun, hfirst, hsecond, hall, hagree 0 1⟩

end Service

end OrderingService
