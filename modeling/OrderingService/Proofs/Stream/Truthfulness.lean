import OrderingService.Hashing.Algorithm
import OrderingService.Proofs.Stream.Signatures

/-!
# Broadcast answers tell the truth

A request of a broadcast stream is refused because its payload is empty or too large, because the
sequencer has stopped or stops before it gets to it, or because its digest cannot be taken. In all
these cases nothing was added to the ledger on its behalf, nor will be. In the remaining case one
transaction was added, with the payload of the request, and the answer tells its id. The sequencer
comes to its answer in the step in which it adds the transaction, so this holds however the
handlers, the sequencer and all clients take turns.

## Main definitions

* `BroadcastResponse.Truthful` — an answer against what was added on behalf of the request
* `Service.Truthfulness` — what is promised of a broadcast stream

## Main results

* `Service.run?_truthfulness` — after every run, the promise is kept to every stream
-/

namespace OrderingService

/-- The answer tells the truth of a request on behalf of which these transactions were added: it is
a success if there is just one, with the payload of the request, and it is invalid if there is
none. -/
structure BroadcastResponse.Truthful (r : BroadcastResponse) (request : BroadcastRequest)
    (appended : List Accepted) : Prop where
  success_iff : r.meaning = .success ↔ ∃ receipt, appended = [⟨request.payload, receipt⟩]
  /-- With a success the id of the transaction is told. -/
  eq_withStatus : ∀ receipt, appended = [⟨request.payload, receipt⟩] →
    r = .withStatus .success receipt.txid.toHex
  invalid_iff : r.meaning = .invalid ↔ appended = []

namespace BroadcastResponse

theorem meaning_withStatus (status : ReplyStatus) (info : String) :
    (withStatus status info).meaning = status := by
  cases status <;> rfl

theorem Truthful.success (request : BroadcastRequest) (receipt : Receipt) :
    (withStatus .success receipt.txid.toHex).Truthful request [⟨request.payload, receipt⟩] where
  success_iff := ⟨fun _ => ⟨receipt, rfl⟩, fun _ => meaning_withStatus _ _⟩
  eq_withStatus := fun receipt' heq => by cases heq; rfl
  invalid_iff := ⟨fun h => absurd ((meaning_withStatus _ _).symm.trans h) nofun, nofun⟩

theorem Truthful.refused (request : BroadcastRequest) (info : String) :
    (Broadcast.refused info).Truthful request [] where
  success_iff := ⟨fun h => absurd ((meaning_withStatus _ _).symm.trans h) nofun, nofun⟩
  eq_withStatus := nofun
  invalid_iff := ⟨fun _ => rfl, fun _ => meaning_withStatus _ _⟩

end BroadcastResponse

namespace Service

variable {s s' : Service} {trace : List Moment} {index : Nat}

theorem Settled.truthful {p : BroadcastRequest × Option Nat} {r : BroadcastResponse}
    (hs : s.Settled trace p r) (ht : s.Tickets) : r.Truthful p.1 (appendedOn trace p.2) := by
  cases hs with
  | refused request info => exact .refused request info
  | answered request ticket answer submission answered =>
    show (Broadcast.response answer).Truthful request (appendedFor trace ticket)
    rcases submission.appendedFor_eq ht answered with ⟨receipt, rfl, happended⟩ | ⟨e, rfl, hnone⟩
    · rw [happended]
      exact .success request receipt
    · rw [hnone]
      exact .refused request _

/-- What is promised of a broadcast stream after a run with these moments. -/
structure Truthfulness (trace : List Moment) (s : Service) (index : Nat) : Prop where
  /-- The answer to each request tells the truth. -/
  truthful : ∀ (k : Nat) (request : BroadcastRequest) (ticket? : Option Nat)
    (r : BroadcastResponse), (processed trace index)[k]? = some (request, ticket?) →
      (responses trace index)[k]? = some r → r.Truthful request (appendedOn trace ticket?)
  /-- One request at most has no answer yet. -/
  length_le : (responses trace index).length ≤ (processed trace index).length ∧
    (processed trace index).length ≤ (responses trace index).length + 1
  /-- It can be answered as soon as the sequencer gets to it. -/
  answerable : (responses trace index).length < (processed trace index).length →
    ∃ n trace' s', s.run? (List.replicate n (.event .serve) ++ [.event (.broadcast index)])
        = some (trace', s') ∧
      (responses (trace ++ trace') index).length = (processed (trace ++ trace') index).length

/-- After every run every broadcast stream is accounted for. -/
theorem run?_account {c : SequencerConfig} {maxPayload : Nat} {moves : List Move}
    (hrun : (Service.new c maxPayload).run? moves = some (trace, s)) :
    s.Tickets ∧ s.Queued trace ∧ s.sequencer.Ordered ∧ s.Distinct trace ∧
      ∀ index, s.Account trace (processed trace index) (responses trace index)
        (s.broadcasts[index]?.map (·.phase)) := by
  refine run?_keeps (P := fun s trace => s.Tickets ∧ s.Queued trace ∧ s.sequencer.Ordered ∧
    s.Distinct trace ∧ ∀ index, s.Account trace (processed trace index) (responses trace index)
      (s.broadcasts[index]?.map (·.phase))) ?_ ?_ hrun
  · rintro s m s' trace ⟨ht, hq, ho, hd, ha⟩ hmove
    have hc := move?_concerns hmove
    exact ⟨ht.concerns hc, hq.move hmove, hc.ordered ho, hd.move hmove,
      fun index => (ha index).move ht hq hmove⟩
  · exact ⟨.new c maxPayload, .new c maxPayload, .new c, ⟨nofun, nofun⟩,
      fun index => .settled .nil nofun⟩

namespace Account

variable {requests : List (BroadcastRequest × Option Nat)} {answers : List BroadcastResponse}
  {phase? : Option BroadcastPhase}

theorem length_le (ha : s.Account trace requests answers phase?) :
    answers.length ≤ requests.length ∧ requests.length ≤ answers.length + 1 := by
  cases ha with
  | settled all free => have := all.length_eq; omega
  | waiting all request ticket submission =>
    have := all.length_eq
    rw [List.length_append, List.length_singleton]
    omega

/-- While the handler does not wait, every request has its answer. -/
theorem length_eq (ha : s.Account trace requests answers phase?)
    (hfree : ∀ ticket, phase? ≠ some (.submitted ticket)) : answers.length = requests.length := by
  cases ha with
  | settled all free => exact all.length_eq.symm
  | waiting all request ticket submission => exact absurd rfl (hfree ticket)

theorem truthful (ha : s.Account trace requests answers phase?) (ht : s.Tickets) {k : Nat}
    {p : BroadcastRequest × Option Nat} {r : BroadcastResponse} (hp : requests[k]? = some p)
    (hr : answers[k]? = some r) : r.Truthful p.1 (appendedOn trace p.2) := by
  have hsettled : ∀ {done}, List.Forall₂ (s.Settled trace) done answers → done[k]? = some p →
      r.Truthful p.1 (appendedOn trace p.2) := by
    intro done hall hp
    obtain ⟨hk, rfl⟩ := List.getElem?_eq_some_iff.mp hp
    obtain ⟨hk', rfl⟩ := List.getElem?_eq_some_iff.mp hr
    exact ((List.forall₂_iff_get.mp hall).2 k hk hk').truthful ht
  cases ha with
  | settled all free => exact hsettled all hp
  | waiting all request ticket submission =>
    have hlt := (List.getElem?_eq_some_iff.mp hr).1
    rw [List.getElem?_append_left (all.length_eq ▸ hlt)] at hp
    exact hsettled all hp

end Account

/-- After every run the promise is kept to every broadcast stream. -/
theorem truthfulness_of_run? {c : SequencerConfig} {maxPayload : Nat} {moves : List Move}
    (hrun : (Service.new c maxPayload).run? moves = some (trace, s)) (index : Nat) :
    Truthfulness trace s index := by
  obtain ⟨ht, -, -, -, ha⟩ := run?_account hrun
  refine ⟨fun k request ticket? r hp hr => (ha index).truthful ht hp hr, (ha index).length_le,
    fun hlt => ?_⟩
  have haccount := ha index
  generalize hphase : s.broadcasts[index]?.map (·.phase) = phase? at haccount
  generalize processed trace index = requests at haccount hlt
  cases haccount with
  | settled all free => exact absurd all.length_eq (Nat.ne_of_gt hlt)
  | waiting all request ticket submission =>
    obtain ⟨n, trace', s', hrun', hfree⟩ := submission.exists_responded ht hphase
    obtain ⟨-, -, -, -, ha'⟩ := run?_account (run?_append hrun hrun')
    exact ⟨n, trace', s', hrun', (ha' index).length_eq hfree⟩

/-- **Broadcast answers tell the truth.** After every run the promise is kept to every broadcast
stream, and nothing was added on behalf of two requests at once. What is in the ledger was added on
behalf of some ticket, and no other numbers were given out. With other signatures the same could
have happened, to the ledger and to the streams. -/
theorem run?_truthfulness {c : SequencerConfig} {maxPayload : Nat} {moves : List Move}
    (hrun : (Service.new c maxPayload).run? moves = some (trace, s)) :
    (∀ index, Truthfulness trace s index) ∧
      (∀ (i j k l : Nat) (request request' : BroadcastRequest) (ticket : Nat),
        (processed trace i)[k]? = some (request, some ticket) →
          (processed trace j)[l]? = some (request', some ticket) → i = j ∧ k = l) ∧
      ((orders trace).map Prod.snd = s.sequencer.ledger ∧
        s.sequencer.ledger.map (·.receipt.sequence) = List.range s.sequencer.nextSequence) ∧
      ∀ moves' : List Move, moves'.map Move.unsigned = moves.map Move.unsigned →
        ∃ trace' s', (Service.new c maxPayload).run? moves' = some (trace', s') ∧
          s'.sequencer = s.sequencer ∧
          (∀ ticket, appendedFor trace' ticket = appendedFor trace ticket) ∧
          ∀ index, responses trace' index = responses trace index ∧
            (processed trace' index).map (fun p => (p.1.payload, p.2))
              = (processed trace index).map fun p => (p.1.payload, p.2) := by
  obtain ⟨-, hq, ho, hd, -⟩ := run?_account hrun
  refine ⟨truthfulness_of_run? hrun, hd.eq_of_ticket_eq, ⟨hq.ledger_eq, ho.sequence_ledger⟩,
    fun moves' hmoves => ?_⟩
  obtain ⟨trace', s', hrun', htrace, hs⟩ := run?_of_unsigned_eq hrun hmoves
  have hsequencer : s'.unsigned.sequencer = s.unsigned.sequencer := by rw [hs]
  refine ⟨trace', s', hrun', hsequencer, fun ticket => ?_, fun index => ⟨?_, ?_⟩⟩
  · rw [← appendedFor_map_unsigned, htrace, appendedFor_map_unsigned]
  · rw [← responses_map_unsigned, htrace, responses_map_unsigned]
  · have hprocessed := congrArg (List.map fun p => (p.1.payload, p.2))
      (congrArg (processed · index) htrace)
    rw [processed_map_unsigned, processed_map_unsigned, List.map_map, List.map_map] at hprocessed
    exact hprocessed

/-- Batches of two, and a payload whose digest cannot be taken. -/
def refusingSeven : SequencerConfig where
  maxBatchSize := 2
  strategy := (HashStrategy.concatenation "concat").refusing "offline" fun _ bytes => bytes = [7]

/-- The first stream has a transaction ordered and then asks for one whose digest cannot be taken;
the second one asks for one that is too large; the third one is left behind by a sequencer that
stops. -/
def answeringMoves (signature : Bytes) : List Move :=
  [.openBroadcast 8, .openBroadcast 8, .openBroadcast 8,
    .broadcastClient 0 (.request (.ok ⟨[1], signature⟩)), .event (.broadcast 0), .event .serve,
    .event (.broadcast 0), .event (.broadcast 0),
    .broadcastClient 0 (.request (.ok ⟨[7], signature⟩)), .event (.broadcast 0), .event .serve,
    .event (.broadcast 0),
    .broadcastClient 1 (.request (.ok ⟨[1, 2, 3, 4, 5], []⟩)), .event (.broadcast 1),
    .broadcastClient 2 (.request (.ok ⟨[2], []⟩)), .call .shutdown, .event (.broadcast 2),
    .event .serve, .event (.broadcast 2)]

theorem run?_truthfulness_answering :
    ∃ trace s, (Service.new refusingSeven 4).run? (answeringMoves [9]) = some (trace, s) ∧
      responses trace 0 = [.withStatus .success "0001",
        .withStatus .invalid "ordering unavailable: Merkle error: offline"] ∧
      responses trace 1
        = [.withStatus .invalid "payload of 5 bytes exceeds limit of 4 bytes"] ∧
      responses trace 2 = [.withStatus .invalid
        "ordering unavailable: Concurrency error: Response channel closed"] ∧
      orders trace = [(0, ⟨[1], 0, [0, 1]⟩)] ∧ (∀ index, Truthfulness trace s index) ∧
      (orders trace).map Prod.snd = s.sequencer.ledger ∧
      ∃ trace' s', (Service.new refusingSeven 4).run? (answeringMoves []) = some (trace', s') ∧
        s'.sequencer = s.sequencer ∧ responses trace' 0 = responses trace 0 := by
  have hfacts : ((Service.new refusingSeven 4).run? (answeringMoves [9])).map (fun x =>
      ((responses x.1 0, responses x.1 1, responses x.1 2), orders x.1))
        = some (([.withStatus .success "0001",
            .withStatus .invalid "ordering unavailable: Merkle error: offline"],
          [.withStatus .invalid "payload of 5 bytes exceeds limit of 4 bytes"],
          [.withStatus .invalid
            "ordering unavailable: Concurrency error: Response channel closed"]),
          [(0, ⟨[1], 0, [0, 1]⟩)]) := by
    decide +kernel
  obtain ⟨⟨trace, s⟩, hrun, heq⟩ := Option.map_eq_some_iff.mp hfacts
  obtain ⟨hanswers, horders⟩ := Prod.mk.inj heq
  obtain ⟨hfirst, hanswers⟩ := Prod.mk.inj hanswers
  obtain ⟨hsecond, hthird⟩ := Prod.mk.inj hanswers
  obtain ⟨hall, -, ⟨hledger, -⟩, hsigned⟩ := run?_truthfulness hrun
  obtain ⟨trace', s', hrun', hsequencer, -, hstreams⟩ := hsigned (answeringMoves []) rfl
  exact ⟨trace, s, hrun, hfirst, hsecond, hthird, horders, hall, hledger, trace', s', hrun',
    hsequencer, (hstreams 0).1⟩

end Service

end OrderingService
