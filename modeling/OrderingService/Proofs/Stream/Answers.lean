import OrderingService.Proofs.Service.Tickets
import OrderingService.Proofs.Stream.Handler

/-!
# What a deliver stream answers

A deliver stream that gets a subscription answers with one success, then with the ids of what is
published next and with one more success for each further request, mixed in any way, and ends with
one status at most. Its handler is never more than one answer ahead of what it has handed over, so
one that is not heard any more has told nothing out of turn. And nothing that was answered becomes
wrong when the sequencer goes on.

## Main definitions

* `DeliverStream.Live` — requests, transactions and answers of a stream that goes on
* `DeliverStream.LastAnswer` — an answer after which nothing comes
* `DeliverStream.Answers` — requests, transactions and answers of any stream
* `DeliverStream.Heard` — transactions that were published after a place
* `DeliverStream.Standing` — where the handler stands, with what it has read and handed over

## Main results

* `DeliverStream.Standing.goes` — the handler goes on to where it stands next
* `DeliverStream.Standing.concerns` — whatever else happens, it stays where it is
* `DeliverStream.Standing.exists_answers` — what the answers are wherever the handler stands
-/

namespace OrderingService

namespace DeliverStream

/-! ### Answers -/

/-- The answers of a stream that has a subscription, with the requests that it has read and the
transactions that it was told of: a success for each request, and an id for each transaction. -/
inductive Live : List Incoming → List OrderedTransaction → List Outgoing → Prop
  | subscribed (request : DeliverRequest) :
    Live [.ok request] [] [.ok (.withStatus .success)]
  | ordered {reads txs sent} (live : Live reads txs sent) (tx : OrderedTransaction) :
    Live reads (txs ++ [tx]) (sent ++ [.ok (.txid tx.txid)])
  | acknowledged {reads txs sent} (live : Live reads txs sent) (request : DeliverRequest) :
    Live (reads ++ [.ok request]) txs (sent ++ [.ok (.withStatus .success)])

/-- An answer that ends a stream, after the answers `sent`. The sequencer is in the state `s` now,
and it was in the state `place` when it gave the subscription. -/
inductive LastAnswer (s : Sequencer) : Option Sequencer → List Incoming → List OrderedTransaction →
    List Outgoing → Outgoing → Prop
  /-- The first request could not be read, and the reason is handed on. -/
  | unreadable (e : RpcStatus) : LastAnswer s none [.error e] [] [] (.error e)
  /-- There is no subscription any more. -/
  | denied (request : DeliverRequest) (stopped : s.stopped = true) :
    LastAnswer s none [.ok request] [] [] (.ok (.withStatus .invalid))
  /-- More transactions than are kept were published and not read. -/
  | lagged {q reads txs sent} (live : Live reads txs sent)
    (missed : s.kept < s.published.length - (q.published.length + txs.length)) :
    LastAnswer s (some q) reads txs sent (.ok (.withStatus .invalid))
  /-- A further request could not be read, and the reason is handed on. -/
  | broken {q reads txs sent} (live : Live reads txs sent) (e : RpcStatus) :
    LastAnswer s (some q) (reads ++ [.error e]) txs sent (.error e)

/-- The answers of a stream, with the requests that it has read and the transactions that it was
told of. -/
inductive Answers (s : Sequencer) : Option Sequencer → List Incoming → List OrderedTransaction →
    List Outgoing → Prop
  | nothing {place reads} (short : reads.length ≤ 1) : Answers s place reads [] []
  | live {q reads txs sent} (live : Live reads txs sent) : Answers s (some q) reads txs sent
  /-- What was read last has no answer, or none yet. -/
  | unanswered {q reads txs sent} (live : Live reads txs sent)
    (item : Incoming) : Answers s (some q) (reads ++ [item]) txs sent
  | ended {place reads txs sent r} (last : LastAnswer s place reads txs sent r) :
    Answers s place reads txs (sent ++ [r])

/-- The id that an answer tells. -/
def txid? (r : Outgoing) : Option Bytes :=
  match r with
  | .ok (.txid id) => some id
  | _ => none

section

variable {reads : List Incoming} {txs : List OrderedTransaction} {sent : List Outgoing}
  {r : Outgoing} {place : Option Sequencer} {q s s' : Sequencer}

/-- The ids that are told are those of the transactions, in order. -/
theorem Live.txids_eq (hl : Live reads txs sent) : sent.filterMap txid? = txs.map (·.txid) := by
  induction hl with
  | subscribed request => rfl
  | ordered live tx ih => rw [List.filterMap_append, ih, List.map_append]; rfl
  | acknowledged live request ih => rw [List.filterMap_append, ih]; exact List.append_nil _

theorem LastAnswer.txid?_eq (hl : LastAnswer s place reads txs sent r) : txid? r = none := by
  cases hl <;> rfl

theorem LastAnswer.txids_eq (hl : LastAnswer s place reads txs sent r) :
    sent.filterMap txid? = txs.map (·.txid) := by
  cases hl with
  | unreadable e => rfl
  | denied request stopped => rfl
  | lagged live missed => exact live.txids_eq
  | broken live e => exact live.txids_eq

/-- The ids that are told are those of the transactions, in order, and nothing else is told of
transactions. -/
theorem Answers.txids_eq (ha : Answers s place reads txs sent) :
    sent.filterMap txid? = txs.map (·.txid) := by
  cases ha with
  | nothing short => rfl
  | live live => exact live.txids_eq
  | unanswered live item => exact live.txids_eq
  | ended last =>
    rw [List.filterMap_append, last.txids_eq, List.filterMap_cons_none last.txid?_eq]
    exact List.append_nil _

/-- Without a subscription no transaction is told of. -/
theorem Answers.eq_nil (ha : Answers s none reads txs sent) : txs = [] := by
  cases ha with
  | nothing short => rfl
  | ended last =>
    cases last with
    | unreadable e => rfl
    | denied request stopped => rfl

/-! ### Answers as the sequencer goes on -/

theorem LastAnswer.mono (hl : LastAnswer s place reads txs sent r) (ha : s.Advances s') :
    LastAnswer s' place reads txs sent r := by
  cases hl with
  | unreadable e => exact .unreadable e
  | denied request stopped => exact .denied request (ha.stopped stopped)
  | lagged live missed =>
    refine .lagged live ?_
    have hle := ha.published.length_le
    rw [ha.kept_eq]
    omega
  | broken live e => exact .broken live e

theorem Answers.mono (ha : Answers s place reads txs sent) (hs : s.Advances s') :
    Answers s' place reads txs sent := by
  cases ha with
  | nothing short => exact .nothing short
  | live live => exact .live live
  | unanswered live item => exact .unanswered live item
  | ended last => exact .ended (last.mono hs)

/-! ### Answers that were not handed over -/

/-- Before its last answer a stream was as if it had not got that far. -/
theorem Live.answers_of_concat (hl : Live reads txs (sent ++ [r])) :
    ∃ txs', txs' <+: txs ∧ Answers s (some q) reads txs' sent := by
  generalize heq : sent ++ [r] = all at hl
  cases hl with
  | subscribed request =>
    obtain rfl : sent = [] := List.append_inj_left' heq rfl
    exact ⟨[], List.prefix_rfl, .nothing (Nat.le_refl _)⟩
  | ordered live tx =>
    obtain rfl := List.append_inj_left' heq rfl
    exact ⟨_, List.prefix_append _ _, .live live⟩
  | acknowledged live request =>
    obtain rfl := List.append_inj_left' heq rfl
    exact ⟨_, List.prefix_rfl, .unanswered live _⟩

theorem LastAnswer.answers (hl : LastAnswer s place reads txs sent r) :
    Answers s place reads txs sent := by
  cases hl with
  | unreadable e => exact .nothing (Nat.le_refl _)
  | denied request stopped => exact .nothing (Nat.le_refl _)
  | lagged live missed => exact .live live
  | broken live e => exact .unanswered live _

/-! ### Transactions after a place -/

/-- The transactions `txs` are the first ones published after the state `q`. -/
structure Heard (q s : Sequencer) (txs : List OrderedTransaction) : Prop where
  advances : q.Advances s
  prefix_drop : txs <+: s.published.drop q.published.length

namespace Heard

theorem nil (ha : q.Advances s) : Heard q s [] := ⟨ha, List.nil_prefix⟩

theorem mono (hh : Heard q s txs) (ha : s.Advances s') : Heard q s' txs where
  advances := hh.advances.trans ha
  prefix_drop := by
    obtain ⟨later, hlater⟩ := ha.published
    rw [← hlater, List.drop_append]
    exact hh.prefix_drop.trans (List.prefix_append _ _)

theorem of_prefix {txs' : List OrderedTransaction} (hh : Heard q s txs) (hp : txs' <+: txs) :
    Heard q s txs' := ⟨hh.advances, hp.trans hh.prefix_drop⟩

theorem concat {tx : OrderedTransaction} (hh : Heard q s txs)
    (htx : s.published[q.published.length + txs.length]? = some tx) :
    Heard q s (txs ++ [tx]) := by
  refine ⟨hh.advances, ?_⟩
  obtain ⟨rest, hrest⟩ := hh.prefix_drop
  rw [← List.getElem?_drop, ← hrest, List.getElem?_append_right (Nat.le_refl _),
    Nat.sub_self] at htx
  cases rest with
  | nil => cases htx
  | cons tx' rest =>
    cases htx
    exact ⟨rest, by rw [List.append_assoc]; exact hrest⟩

/-- What was heard is given by how much it is. -/
theorem eq_take (hh : Heard q s txs) :
    txs = (s.published.drop q.published.length).take txs.length :=
  List.prefix_iff_eq_take.mp hh.prefix_drop

/-- What was heard is numbered without a gap, from the number of what was published before. -/
theorem sequence_eq (hh : Heard q s txs) (ho : s.Ordered) :
    txs.map (·.sequence) = List.range' q.published.length txs.length := by
  have hle := hh.prefix_drop.length_le
  rw [List.length_drop] at hle
  have hsequence := congrArg (List.map (·.sequence)) hh.eq_take
  rw [List.map_take, List.map_drop, ho.sequence_published] at hsequence
  rw [hsequence]
  refine List.ext_getElem ?_ fun i hi _ => ?_
  · simpa using Nat.min_eq_left hle
  · simp

end Heard

/-! ### Reading -/

theorem of_read_eq_transaction {sub sub' : Subscription} {tx : OrderedTransaction}
    (h : s.read sub = (.transaction tx, sub')) :
    s.published[sub.next]? = some tx ∧ sub' = ⟨sub.next + 1⟩ := by
  rw [Sequencer.read] at h
  split at h
  next => cases h
  next =>
    split at h
    next tx' htx => cases h; exact ⟨htx, rfl⟩
    next => split at h <;> cases h

theorem of_read_eq_lagged {sub sub' : Subscription} {missed : Nat}
    (h : s.read sub = (.lagged missed, sub')) : s.kept < s.published.length - sub.next := by
  rw [Sequencer.read] at h
  split at h
  next hlt => exact hlt
  next =>
    split at h
    next => cases h
    next => split at h <;> cases h

end

/-! ### Where the handler stands -/

/-- Where the handler of a stream stands in the service `s`, with the place at which it got its
subscription, what it has read and what it has handed over. The answer that it is about to hand over
counts as given, so that a handler which is not heard any more stands where it stood before. -/
inductive Standing (s : Service) : Option Sequencer → List Incoming → List Outgoing → DeliverPhase →
    Prop
  | waiting : Standing s none [] [] .waiting
  | subscribing {place ticket} (request : DeliverRequest) (asked : s.Asked ticket place) :
    Standing s place [.ok request] [] (.subscribing ticket)
  | answering {q reads txs sent r} (heard : Heard q s.sequencer txs)
    (live : Live reads txs (sent ++ [r])) :
    Standing s (some q) reads sent (.answering r (some ⟨q.published.length + txs.length⟩))
  | streaming {q reads txs sent} (heard : Heard q s.sequencer txs) (live : Live reads txs sent) :
    Standing s (some q) reads sent (.streaming ⟨q.published.length + txs.length⟩)
  | concluding {place reads txs sent r} (heard : ∀ q, place = some q → Heard q s.sequencer txs)
    (last : LastAnswer s.sequencer place reads txs sent r) :
    Standing s place reads sent (.answering r none)
  | ended {place reads txs sent} (heard : ∀ q, place = some q → Heard q s.sequencer txs)
    (answers : Answers s.sequencer place reads txs sent) : Standing s place reads sent .ended

namespace Standing

variable {s s' t : Service} {place : Option Sequencer} {reads : List Incoming}
  {sent : List Outgoing} {phase : DeliverPhase}

/-- **What the answers are wherever the handler stands.** -/
theorem exists_answers (hs : Standing s place reads sent phase) :
    ∃ txs, (∀ q, place = some q → Heard q s.sequencer txs) ∧
      Answers s.sequencer place reads txs sent := by
  cases hs with
  | waiting => exact ⟨[], nofun, .nothing (Nat.zero_le _)⟩
  | subscribing request asked =>
    refine ⟨[], fun q hq => ?_, .nothing (Nat.le_refl _)⟩
    cases asked with
    | waiting => cases hq
    | granted q' answered advances => cases hq; exact Heard.nil advances
    | denied => cases hq
  | answering heard live =>
    obtain ⟨txs', hprefix, hanswers⟩ := live.answers_of_concat
    exact ⟨txs', fun q hq => Option.some.inj hq ▸ heard.of_prefix hprefix, hanswers⟩
  | streaming heard live => exact ⟨_, fun q hq => Option.some.inj hq ▸ heard, .live live⟩
  | concluding heard last => exact ⟨_, heard, last.answers⟩
  | ended heard answers => exact ⟨_, heard, answers⟩

/-- The handler stands where it stood when the sequencer went forward, as far as its own call is
where it was. -/
theorem mono (hs : Standing s place reads sent phase) (ha : s.sequencer.Advances s'.sequencer)
    (hasked : ∀ ticket, phase = .subscribing ticket → s.Asked ticket place →
      s'.Asked ticket place) : Standing s' place reads sent phase := by
  cases hs with
  | waiting => exact .waiting
  | subscribing request asked => exact .subscribing request (hasked _ rfl asked)
  | answering heard live => exact .answering (heard.mono ha) live
  | streaming heard live => exact .streaming (heard.mono ha) live
  | concluding heard last =>
    exact .concluding (fun q hq => (heard q hq).mono ha) (last.mono ha)
  | ended heard answers => exact .ended (fun q hq => (heard q hq).mono ha) (answers.mono ha)

/-- **Whatever else happens,** the handler stays where it is. Only the call for its subscription may
be taken meanwhile. -/
theorem concerns {m : Service.Move} (hs : Standing s place reads sent phase) (ht : s.Tickets)
    (hc : s.Concerns m s') :
    Standing s' (place.or ((⟨s, m⟩ : Service.Moment).grantedTo? phase)) reads sent phase := by
  cases phase with
  | subscribing ticket =>
    cases hs with
    | subscribing request asked => exact .subscribing request (asked.concerns ht hc)
  | _ =>
    simp only [Service.Moment.grantedTo?, Option.or_none]
    exact hs.mono hc.advances nofun

/-- Where nobody calls, the handler stays where it is. -/
theorem quiet (hs : Standing s place reads sent phase) (hq : s.Quiet s') :
    Standing s' place reads sent phase := by
  refine hs.mono hq.advances fun ticket _ asked => ?_
  refine asked.congr (fun p hp => hq.mailbox_eq ▸ hp) (fun a h => ?_) hq.advances
  rwa [Service.answer?_congr hq.answers_eq]

/-- **The handler goes on to where it stands next.** -/
theorem goes {d d' : DeliverStream} {branch : DeliverBranch} {read : Option Incoming}
    {out : Option Outgoing} (hs : Standing s place reads sent d.phase) (ht : s.Tickets)
    (hg : Goes s d branch read out t d') :
    Standing t place (reads ++ read.toList) (sent ++ out.toList) d'.phase := by
  cases hg with
  | unasked taken =>
    cases hs
    exact .ended nofun (.nothing (Nat.zero_le _))
  | unreadable taken =>
    cases hs
    exact .concluding nofun (.unreadable _)
  | asked taken =>
    cases hs
    exact .subscribing _ (Service.asked_send s)
  | granted answered =>
    simp only [Option.toList_none, List.append_nil]
    cases hs with
    | subscribing request asked =>
      obtain ⟨q, rfl, hadvances, rfl⟩ := asked.of_granted ht answered
      exact .answering (Heard.nil hadvances) (.subscribed request)
  | denied answered none_given =>
    simp only [Option.toList_none, List.append_nil]
    cases hs with
    | subscribing request asked =>
      obtain ⟨rfl, hstop⟩ := asked.of_denied ht answered none_given
      exact .concluding nofun (.denied request hstop)
  | handedOver queued =>
    rw [Option.toList_none, List.append_nil]
    cases hs with
    | answering heard live => exact .streaming heard live
    | concluding heard last => exact .ended heard (.ended last)
  | ordered read =>
    simp only [Option.toList_none, List.append_nil]
    obtain ⟨htx, rfl⟩ := of_read_eq_transaction read
    cases hs with
    | streaming heard live =>
      have hanswering := Standing.answering (heard.concat htx) (live.ordered _)
      rwa [List.length_append] at hanswering
  | lagged read =>
    simp only [Option.toList_none, List.append_nil]
    have hmissed := of_read_eq_lagged read
    cases hs with
    | streaming heard live =>
      exact .concluding (fun q hq => Option.some.inj hq ▸ heard) (.lagged live hmissed)
  | asksAgain taken =>
    rw [Option.toList_none, List.append_nil]
    cases hs with
    | streaming heard live => exact .answering heard (live.acknowledged _)
  | breaks taken =>
    rw [Option.toList_none, List.append_nil]
    cases hs with
    | streaming heard live =>
      exact .concluding (fun q hq => Option.some.inj hq ▸ heard) (.broken live _)
  | abandoned _ | closed _ | finished _ | hungUp _ =>
    simp only [Option.toList_none, List.append_nil]
    obtain ⟨txs, heard, answers⟩ := hs.exists_answers
    exact .ended heard answers

end Standing

end DeliverStream

end OrderingService
