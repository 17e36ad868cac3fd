import OrderingService.Proofs.Service.Run
import OrderingService.Proofs.Stream.Handler

/-!
# What the client of a stream gets

Answers go through a queue from the handler of a stream to its client. The handler only adds to its
end and the client only takes from its front, so the client gets what was handed over, in order.
When it goes away the queue is lost, and nothing is handed over any more.

## Main definitions

* `Handed` — what was taken and what waits, against what was handed over

## Main results

* `Handed.goes` — the handler goes on
* `Handed.after` — the client does something
-/

namespace OrderingService

open DeliverStream (Incoming Outgoing Goes)

variable {Request Response : Type}

/-- What a client has taken and what waits for it is what was handed over, unless it has gone. -/
structure Handed (taken sent : List (Except RpcStatus Response)) (x : Exchange Request Response) :
    Prop where
  isPrefix : taken ++ x.responses <+: sent
  eq_of_here : x.hungUp = false → taken ++ x.responses = sent

/-- The answer that a client takes. -/
def Exchange.taken? (x : Exchange Request Response) :
    ClientAct Request → Option (Except RpcStatus Response)
  | .take => x.responses.head?
  | .request _ | .closeRequests | .hangUp => none

variable {taken sent : List (Except RpcStatus Response)} {x x' : Exchange Request Response}

theorem Exchange.of_take?_eq_some {item : Option (Except RpcStatus Request)}
    (h : x.take? = some (item, x')) :
    x'.responses = x.responses ∧ x'.hungUp = x.hungUp := by
  rw [take?] at h
  split at h
  next => cases h; exact ⟨rfl, rfl⟩
  next =>
    split at h
    next => cases h; exact ⟨rfl, rfl⟩
    next => cases h

/-- No request is left when none is taken. -/
theorem Exchange.of_take?_eq_none (h : x.take? = some (none, x')) :
    x.requests = [] ∧ x.requestsClosed = true := by
  rw [take?] at h
  split at h
  next => cases h
  next hnil =>
    split at h
    next hclosed => exact ⟨hnil, hclosed⟩
    next => cases h

theorem Exchange.of_push_eq_queued {r : Except RpcStatus Response} (h : x.push r = .queued x') :
    x.hungUp = false ∧ x' = { x with responses := x.responses ++ [r] } := by
  rw [push] at h
  split at h
  next => cases h
  next hhere =>
    split at h
    next => cases h; exact ⟨by simpa using hhere, rfl⟩
    next => cases h

theorem Exchange.hungUp_of_push_eq_abandoned {r : Except RpcStatus Response}
    (h : x.push r = .abandoned) : x.hungUp = true := by
  rw [push] at h
  split at h
  next hgone => exact hgone
  next => split at h <;> cases h

theorem Handed.congr (hh : Handed taken sent x) (hresponses : x'.responses = x.responses)
    (hgone : x'.hungUp = x.hungUp) : Handed taken sent x' where
  isPrefix := by rw [hresponses]; exact hh.isPrefix
  eq_of_here := by rw [hresponses, hgone]; exact hh.eq_of_here

/-- What the handler hands over waits for the client. -/
theorem Handed.goes {s t : Service} {taken sent : List Outgoing} {d d' : DeliverStream}
    {branch : DeliverBranch} {read : Option Incoming} {out : Option Outgoing}
    (hh : Handed taken sent d.exchange) (hg : Goes s d branch read out t d') :
    Handed taken (sent ++ out.toList) d'.exchange := by
  cases hg with
  | @handedOver x x' branch r goOn queued =>
    obtain ⟨hhere, rfl⟩ := Exchange.of_push_eq_queued queued
    have heq := hh.eq_of_here hhere
    have hall : taken ++ (x.responses ++ [r]) = sent ++ [r] := by
      rw [← heq, List.append_assoc]
    exact ⟨hall ▸ List.prefix_rfl, fun _ => hall⟩
  | unreadable taken | asked taken | asksAgain taken | breaks taken =>
    obtain ⟨hresponses, hgone⟩ := Exchange.of_take?_eq_some taken
    rw [Option.toList_none, List.append_nil]
    exact hh.congr hresponses hgone
  | _ =>
    rw [Option.toList_none, List.append_nil]
    exact hh

/-- Whatever a client does, it takes answers in the order in which they were handed over. -/
theorem Handed.after (hh : Handed taken sent x) (act : ClientAct Request) :
    Handed (taken ++ (x.taken? act).toList) sent (x.after act) := by
  cases act with
  | request item =>
    rw [Exchange.taken?, Option.toList_none, List.append_nil]
    exact hh.congr rfl rfl
  | closeRequests =>
    rw [Exchange.taken?, Option.toList_none, List.append_nil]
    exact hh.congr rfl rfl
  | take =>
    have hsame : taken ++ x.responses.head?.toList ++ x.responses.tail = taken ++ x.responses := by
      cases x.responses with
      | nil => simp
      | cons r rest => simp
    exact ⟨hsame ▸ hh.isPrefix, fun hhere => hsame ▸ hh.eq_of_here hhere⟩
  | hangUp =>
    rw [Exchange.taken?, Option.toList_none, List.append_nil]
    refine ⟨?_, nofun⟩
    rw [Exchange.after, Exchange.hangUp, List.append_nil]
    exact (List.prefix_append _ _).trans hh.isPrefix

end OrderingService
