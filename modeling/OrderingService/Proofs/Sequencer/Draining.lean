import OrderingService.Proofs.Sequencer.Standing

/-!
# Batches of submissions alone

When neither a flush nor the timer comes between submissions, only the size of the open batch
decides, and the end closes what is left. So all batches are of full size but possibly the last
one, and there are as few as can hold what was submitted. The times of the submissions do not
matter, and nothing is asked of them here.

## Main definitions

* `Sequencer.evenSizes` — full batches, and one more for what is left over
* `Sequencer.Drains` — the sizes of the batches when all of them are published

## Main results

* `Sequencer.length_evenSizes` — there are as many as are needed
* `Sequencer.Stands.drains` — submissions and then the end, from wherever a sequencer stands
-/

namespace OrderingService

open Sequencer (Action Entry)

namespace Sequencer

variable {s next : Sequencer} {limit timeout number t : Nat} {payloads : List Bytes}
  {deadline : Option Nat} {steps : List (Nat × Action)} {answer : Answer}

/-- The sizes of the batches that are published. -/
def publishedSizes (happened : List (Entry × List OrderedTransaction)) : List Nat :=
  (happened.map (·.2.length)).filter (0 < ·)

/-- Batches of full size, and one more for what is left over. -/
def evenSizes (limit count : Nat) : List Nat :=
  List.replicate (count / limit) limit ++ if count % limit = 0 then [] else [count % limit]

/-- How many payloads are submitted. -/
def submissions (steps : List (Nat × Action)) : Nat :=
  steps.countP fun step => match step.2 with
    | .call (.submit _) => true
    | _ => false

theorem evenSizes_add (hlimit : 0 < limit) (count : Nat) :
    evenSizes limit (limit + count) = limit :: evenSizes limit count := by
  rw [evenSizes, Nat.add_div_left _ hlimit, Nat.add_mod_left, List.replicate_succ, evenSizes]
  rfl

theorem evenSizes_of_lt {count : Nat} (hlt : count < limit) :
    evenSizes limit count = if count = 0 then [] else [count] := by
  rw [evenSizes, Nat.div_eq_of_lt hlt, Nat.mod_eq_of_lt hlt]
  rfl

/-- There are as many batches as are needed. -/
theorem length_evenSizes (hlimit : 0 < limit) (count : Nat) :
    (evenSizes limit count).length = (count + limit - 1) / limit := by
  have hcount := Nat.div_add_mod count limit
  have hlt := Nat.mod_lt count hlimit
  rw [evenSizes, List.length_append, List.length_replicate]
  split
  next hzero =>
    rw [show count + limit - 1 = limit * (count / limit) + (limit - 1) by omega,
      Nat.mul_add_div hlimit, Nat.div_eq_of_lt (Nat.sub_lt hlimit Nat.zero_lt_one)]
    rfl
  next hne =>
    rw [show count + limit - 1 = limit * (count / limit + 1) + (count % limit - 1) by
        rw [Nat.mul_succ]; omega,
      Nat.mul_add_div hlimit, Nat.div_eq_of_lt (Nat.lt_of_le_of_lt (Nat.sub_le _ _) hlt)]
    rfl

/-- Some steps can be taken, leave nothing pending, and publish batches of these sizes. -/
def Drains (s : Sequencer) (steps : List (Nat × Action)) (sizes : List Nat) : Prop :=
  ∃ log s', s.run? steps = some (log, s') ∧ s'.pending = [] ∧
    publishedSizes (s.happenings steps) = sizes

theorem Drains.cons {action : Action} {txs : List OrderedTransaction} {sizes : List Nat}
    (h : next.Drains steps sizes) (hact : s.act? t action = some (answer, next))
    (hpublished : next.published = s.published ++ txs) :
    s.Drains ((t, action) :: steps) ([txs.length].filter (0 < ·) ++ sizes) := by
  obtain ⟨log, s', hrun, hpending, rfl⟩ := h
  refine ⟨⟨t, action, answer⟩ :: log, s', by simp [run?, hact, hrun], hpending, ?_⟩
  rw [happenings_cons hact hpublished, publishedSizes, List.map_cons, ← List.singleton_append,
    List.filter_append, publishedSizes]

theorem drains_nil (hs : s.pending.map (·.payload) = []) : s.Drains [] [] :=
  ⟨[], s, rfl, List.map_eq_nil_iff.mp hs, rfl⟩

theorem filter_length {root : Bytes} {txs : List OrderedTransaction}
    (h : Publishes number payloads root txs) (hne : payloads ≠ []) :
    [txs.length].filter (0 < ·) = [payloads.length] := by
  have hlength : txs.length = payloads.length := by
    simpa [placedIn] using congrArg List.length h.placed_eq
  rw [hlength, List.filter_cons_of_pos (by simpa using List.length_pos_iff.mpr hne),
    List.filter_nil]

/-- A last step, which closes what is open. -/
theorem Stands.drains_last {action : Action}
    (last : action = .call .shutdown ∨ action = .close)
    (hs : s.Stands limit timeout number payloads deadline)
    (hdeadline : payloads = [] → deadline = none) (hlt : payloads.length < limit) (t : Nat) :
    s.Drains [(t, action)] (evenSizes limit payloads.length) := by
  have hact := hs.act?_last t last
  rw [evenSizes_of_lt hlt]
  by_cases hnil : payloads = []
  · obtain rfl := hnil
    obtain rfl := hdeadline rfl
    rw [hs.cut_none] at hact
    have hend : Drains { s with stopped := true } [] [] := drains_nil hs.payloads_eq
    exact hend.cons hact (List.append_nil _).symm
  · obtain ⟨root, txs, next, hcut, hpublished, hpublishes, hnext⟩ := hs.cut hnil t
    rw [hcut] at hact
    have hend : Drains { next with stopped := true } [] [] := drains_nil hnext.payloads_eq
    have hdrains := hend.cons hact hpublished
    rw [filter_length hpublishes hnil] at hdrains
    rwa [if_neg (by simpa using hnil)]

/-- **Submissions that nothing interrupts** fill batches of full size, all but the last one. -/
theorem Stands.drains {action : Action} (last : action = .call .shutdown ∨ action = .close)
    (hsteps : ∀ step ∈ steps,
      step.2 = .call .subscribe ∨ ∃ payload, step.2 = .call (.submit payload))
    (hs : s.Stands limit timeout number payloads deadline)
    (hdeadline : payloads = [] → deadline = none) (hlt : payloads.length < limit) (t : Nat) :
    s.Drains (steps ++ [(t, action)]) (evenSizes limit (payloads.length + submissions steps)) := by
  induction steps generalizing s number payloads deadline with
  | nil => exact hs.drains_last last hdeadline hlt t
  | cons step rest ih =>
    obtain ⟨hstep, hrest⟩ := List.forall_mem_cons.mp hsteps
    obtain ⟨now, act⟩ := step
    rcases hstep with rfl | ⟨payload, rfl⟩
    · exact (ih hrest hs hdeadline hlt).cons (hs.act?_subscribe now) (List.append_nil _).symm
    · have hcount : submissions ((now, .call (.submit payload)) :: rest) = submissions rest + 1 :=
        List.countP_cons_of_pos rfl
      obtain ⟨answer, next, hact, hcase⟩ := hs.submit now payload
      rcases hcase with ⟨hroom, hpublished, hnext⟩ |
        ⟨hfull, root, txs, hpublished, hpublishes, hnext⟩
      · have hdrains := ih hrest hnext (by simp) (by simpa using hroom)
        rw [List.length_append, List.length_singleton] at hdrains
        rw [hcount, ← Nat.add_assoc, Nat.add_right_comm]
        exact hdrains.cons hact (by rw [hpublished, List.append_nil])
      · have hdrains := (ih hrest hnext (fun _ => rfl) (Nat.lt_of_le_of_lt (Nat.zero_le _) hlt)).cons
          hact hpublished
        rw [filter_length hpublishes (by simp), List.length_append, List.length_singleton,
          List.length_nil, Nat.zero_add] at hdrains
        rw [hcount, show payloads.length + (submissions rest + 1) = limit + submissions rest by omega,
          evenSizes_add (Nat.lt_of_le_of_lt (Nat.zero_le _) hlt)]
        rwa [show payloads.length + 1 = limit by omega] at hdrains

end Sequencer

end OrderingService
