import OrderingService.Service.Basic

/-!
# What the handler of a broadcast stream can do

The handler of a broadcast stream is taken apart once, into all the ways in which it can go on. Each
names what it needs, the service with the call that it makes or the answer that it counts, and where
the handler is afterwards.

## Main definitions

* `BroadcastStream.Goes` — the ways in which the handler goes on

## Main results

* `Service.broadcast?_cases` — there are no other ways, and nothing else happens to the service
-/

namespace OrderingService

namespace BroadcastStream

variable (s : Service)

/-- The ways in which the handler of a stream goes on: the service with the call that it makes or
the answer that it counts, if any, and the stream afterwards. -/
inductive Goes : BroadcastStream → Service → BroadcastStream → Prop
  /-- No more requests come. -/
  | finished {x x'} (taken : x.take? = some (none, x')) : Goes ⟨x, .reading⟩ s ⟨x, .ended⟩
  /-- Reading a request fails. -/
  | unreadable {x x' e} (taken : x.take? = some (some (.error e), x')) :
    Goes ⟨x, .reading⟩ s ⟨x', .answering (.error e) false⟩
  /-- A request is refused at once. -/
  | refused {x x' request info} (taken : x.take? = some (some (.ok request), x'))
    (refusal : Broadcast.refusal? s.maxPayload request = some info) :
    Goes ⟨x, .reading⟩ (s.updateMetrics fun m => Broadcast.count m (Broadcast.refused info))
      ((⟨x', .reading⟩ : BroadcastStream).answer (Broadcast.refused info))
  /-- A request is handed to the sequencer. -/
  | submitted {x x' request} (taken : x.take? = some (some (.ok request), x'))
    (fit : Broadcast.refusal? s.maxPayload request = none) :
    Goes ⟨x, .reading⟩ (s.send (.submit request.payload)).2 ⟨x', .submitted s.nextTicket⟩
  /-- The sequencer has answered. -/
  | answered {x ticket answer} (answered : s.answer? ticket = some answer) :
    Goes ⟨x, .submitted ticket⟩
      (s.updateMetrics fun m => Broadcast.count m (Broadcast.response answer))
      ((⟨x, .submitted ticket⟩ : BroadcastStream).answer (Broadcast.response answer))
  /-- An answer is handed over. -/
  | handedOver {x x' r goOn} (queued : x.push r = .queued x') :
    Goes ⟨x, .answering r goOn⟩ s ⟨x', if goOn then .reading else .ended⟩
  /-- There is nobody to hand an answer over to. -/
  | abandoned {x r goOn} (gone : x.push r = .abandoned) :
    Goes ⟨x, .answering r goOn⟩ s ⟨x, .ended⟩

variable {s} {b' : BroadcastStream}

theorem goes_of_handOver? {x : Exchange BroadcastRequest BroadcastResponse}
    {r : Except RpcStatus BroadcastResponse} {goOn : Bool}
    (h : (⟨x, .answering r goOn⟩ : BroadcastStream).handOver? r goOn = some b') :
    Goes s ⟨x, .answering r goOn⟩ s b' := by
  rw [handOver?] at h
  split at h
  next x' hpush => cases h; exact .handedOver hpush
  next hpush => cases h; exact .abandoned hpush
  next => cases h

end BroadcastStream

namespace Service

variable {s s' : Service} {index : Nat}

open BroadcastStream (Goes)

theorem goes_of_readBroadcast? {x : Exchange BroadcastRequest BroadcastResponse}
    (h : s.readBroadcast? index ⟨x, .reading⟩ = some s') :
    ∃ t b', Goes s ⟨x, .reading⟩ t b' ∧ s' = t.setBroadcast index b' := by
  rw [readBroadcast?] at h
  split at h
  next => cases h
  next x' htake => cases h; exact ⟨_, _, .finished htake, rfl⟩
  next e x' htake => cases h; exact ⟨_, _, .unreadable htake, rfl⟩
  next request x' htake =>
    split at h
    next info hrefusal => cases h; exact ⟨_, _, .refused htake hrefusal, rfl⟩
    next hfit => cases h; exact ⟨_, _, .submitted htake hfit, rfl⟩

/-- **There are no other ways in which the handler of a broadcast stream goes on.** -/
theorem broadcast?_cases (h : s.broadcast? index = some s') :
    ∃ b t b', s.broadcasts[index]? = some b ∧ Goes s b t b' ∧ s' = t.setBroadcast index b' := by
  simp only [broadcast?, Option.bind_eq_bind, Option.bind_eq_some_iff] at h
  obtain ⟨⟨x, phase⟩, hb, h⟩ := h
  cases phase with
  | reading =>
    obtain ⟨t, b', hgoes, heq⟩ := goes_of_readBroadcast? h
    exact ⟨_, t, b', hb, hgoes, heq⟩
  | submitted ticket =>
    obtain ⟨answer, hanswer, h⟩ := Option.bind_eq_some_iff.mp h
    cases h
    exact ⟨_, _, _, hb, .answered hanswer, rfl⟩
  | answering r goOn =>
    obtain ⟨b', hover, h⟩ := Option.bind_eq_some_iff.mp h
    cases h
    exact ⟨_, _, _, hb, BroadcastStream.goes_of_handOver? hover, rfl⟩
  | ended => cases h

end Service

end OrderingService
