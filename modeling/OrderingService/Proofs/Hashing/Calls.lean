import OrderingService.Proofs.Hashing.Outcome

/-!
# What a computation asks for

A strategy may refuse any write, and may refuse it because of everything it was asked before. So
what a computation asks for cannot be read off its value: two computations with the same digests may
differ in when they stop. What can be said is which calls a computation is set to make, in which
order, and that it makes them up to the first refused write and none after it.

The calls are known before anything is asked, although later ones may hand on earlier digests. What
an accumulator finishes with is a function of the history at which it was made and of the chunks,
and a refused write ends everything, so the digests are those of a run in which nothing is refused.

## Main definitions

* `HashCall.hashing`, `HashCall.hashingAll` — the calls of one accumulator, and of several
* `HashStrategy.Admits` — no write among some calls is refused
* `HashStrategy.digests` — what accumulators made one after the other finish with
* `Hashing.Follows` — a computation makes some calls, up to the first refused write

## Main results

* `Hashing.Follows.bind` — one computation after another
* `Hashing.Follows.of_eq_ok` — a computation that succeeds has made all of its calls
* `HashStrategy.leafHash_follows`, `HashStrategy.interiorHash_follows` — the two tagged digests
-/

namespace OrderingService

/-! ### Calls -/

namespace HashCall

/-- The calls of one accumulator: it is made, and the chunks are written to it. -/
def hashing (chunks : List Bytes) : List HashCall := .accumulator :: chunks.map .write

/-- The calls of one accumulator after the other. -/
def hashingAll (work : List (List Bytes)) : List HashCall := work.flatMap hashing

@[simp] theorem hashingAll_cons (chunks : List Bytes) (work : List (List Bytes)) :
    hashingAll (chunks :: work) = hashing chunks ++ hashingAll work := List.flatMap_cons

@[simp] theorem hashingAll_append (work work' : List (List Bytes)) :
    hashingAll (work ++ work') = hashingAll work ++ hashingAll work' := List.flatMap_append

end HashCall

namespace History

/-- The history after some more calls. -/
def extend (h : History) (calls : List HashCall) : History := calls.reverse ++ h

@[simp] theorem extend_nil (h : History) : h.extend [] = h := rfl

@[simp] theorem extend_cons (h : History) (call : HashCall) (calls : List HashCall) :
    h.extend (call :: calls) = extend (call :: h) calls := by simp [extend]

@[simp] theorem extend_append (h : History) (calls calls' : List HashCall) :
    h.extend (calls ++ calls') = (h.extend calls).extend calls' := by simp [extend]

/-- Each accumulator counts once. -/
theorem accumulators_extend_hashingAll (h : History) (work : List (List Bytes)) :
    (h.extend (HashCall.hashingAll work)).accumulators = h.accumulators + work.length := by
  induction work generalizing h with
  | nil => rfl
  | cons chunks work ih =>
    have hone : (h.extend (HashCall.hashing chunks)).accumulators = h.accumulators + 1 := by
      simp [extend, HashCall.hashing, accumulators, List.countP_map, Function.comp_def,
        Nat.add_comm]
    rw [HashCall.hashingAll_cons, extend_append, ih, hone, List.length_cons]
    omega

/-- Each chunk counts once. -/
theorem writes_extend_hashingAll (h : History) (work : List (List Bytes)) :
    (h.extend (HashCall.hashingAll work)).writes = h.writes + work.flatten.length := by
  induction work generalizing h with
  | nil => rfl
  | cons chunks work ih =>
    have hone : (h.extend (HashCall.hashing chunks)).writes = h.writes + chunks.length := by
      simp [extend, HashCall.hashing, writes, List.countP_map, Function.comp_def, Nat.add_comm]
    rw [HashCall.hashingAll_cons, extend_append, ih, hone, List.flatten_cons, List.length_append]
    omega

end History

namespace HashStrategy

variable {H : HashStrategy} {h : History}

/-- From a history on, no write among the calls is refused in its turn. -/
def Admits (H : HashStrategy) : History → List HashCall → Prop
  | _, [] => True
  | h, .accumulator :: calls => H.Admits (.accumulator :: h) calls
  | h, .write bytes :: calls => H.refusal h bytes = none ∧ H.Admits (.write bytes :: h) calls

/-- What accumulators with these chunks finish with, if they are made one after the other from a
history on. -/
def digests (H : HashStrategy) : History → List (List Bytes) → List Bytes
  | _, [] => []
  | h, chunks :: work => H.digest h chunks :: H.digests (h.extend (HashCall.hashing chunks)) work

theorem admits_append {calls calls' : List HashCall} :
    H.Admits h (calls ++ calls') ↔ H.Admits h calls ∧ H.Admits (h.extend calls) calls' := by
  induction calls generalizing h with
  | nil => simp [Admits]
  | cons call calls ih =>
    cases call with
    | accumulator => simpa [Admits] using ih
    | write bytes => simp [Admits, ih, and_assoc]

/-- Calls that are not all admitted have a first refused write. -/
theorem exists_refused_of_not_admits {calls : List HashCall} (hnot : ¬ H.Admits h calls) :
    ∃ before bytes rest text, calls = before ++ .write bytes :: rest ∧ H.Admits h before ∧
      H.refusal (h.extend before) bytes = some text := by
  induction calls generalizing h with
  | nil => exact absurd trivial hnot
  | cons call calls ih =>
    cases call with
    | accumulator =>
      obtain ⟨before, bytes, rest, text, rfl, hbefore, htext⟩ := ih hnot
      exact ⟨.accumulator :: before, bytes, rest, text, rfl, hbefore, by simpa using htext⟩
    | write bytes =>
      cases hr : H.refusal h bytes with
      | some text => exact ⟨[], bytes, calls, text, rfl, trivial, hr⟩
      | none =>
        have hlater : ¬ H.Admits (.write bytes :: h) calls := fun hall => hnot ⟨hr, hall⟩
        obtain ⟨before, other, rest, text, rfl, hbefore, htext⟩ := ih hlater
        exact ⟨.write bytes :: before, other, rest, text, rfl, ⟨hr, hbefore⟩, by simpa using htext⟩

@[simp] theorem length_digests (h : History) (work : List (List Bytes)) :
    (H.digests h work).length = work.length := by
  induction work generalizing h with
  | nil => rfl
  | cons chunks work ih => simp [digests, ih]

theorem digests_append (h : History) (work work' : List (List Bytes)) :
    H.digests h (work ++ work')
      = H.digests h work ++ H.digests (h.extend (HashCall.hashingAll work)) work' := by
  induction work generalizing h with
  | nil => rfl
  | cons chunks work ih => simp [digests, ih]

end HashStrategy

/-! ### Computations -/

namespace Hashing

open HashStrategy (admits_append)

variable {α β : Type} {H : HashStrategy} {x : Hashing α} {f : α → Hashing β} {a b : α} {c : β}
  {h h' : History} {calls calls' : List HashCall}

/-- From the history `h`, a computation makes the calls one after the other and gives `a`. The first
write that is refused ends it: it fails with the text of the refusal, and makes no further call. -/
structure Follows (x : Hashing α) (H : HashStrategy) (h : History) (calls : List HashCall) (a : α) :
    Prop where
  admitted : H.Admits h calls → x h = .ok a (h.extend calls)
  refused : ∀ before bytes rest text, calls = before ++ .write bytes :: rest →
    H.Admits h before → H.refusal (h.extend before) bytes = some text →
      x h = .error (.hashWriteFailed text) (h.extend (before ++ [.write bytes]))

theorem follows_pure (a : α) : Follows (pure a) H h [] a where
  admitted _ := rfl
  refused before bytes rest text heq _ _ := by simp at heq

/-- **One computation after another.** The first refused write of both is among the calls of the one
or, if these are all admitted, of the other. -/
theorem Follows.bind (hx : x.Follows H h calls a) (hf : (f a).Follows H (h.extend calls) calls' c) :
    Follows (x >>= f) H h (calls ++ calls') c where
  admitted hall := by
    obtain ⟨hfirst, hsecond⟩ := admits_append.mp hall
    rw [History.extend_append]
    exact bind_eq_ok.mpr ⟨a, h.extend calls, hx.admitted hfirst, hf.admitted hsecond⟩
  refused before bytes rest text heq hbefore htext := by
    rcases List.append_eq_append_iff.mp heq with ⟨more, rfl, hrest⟩ | ⟨more, hfirst, hrest⟩
    · obtain ⟨hcalls, hmore⟩ := admits_append.mp hbefore
      rw [History.extend_append] at htext
      have herror := hf.refused more bytes rest text hrest hmore htext
      show EStateM.bind x f h = _
      rw [EStateM.bind, hx.admitted hcalls, List.append_assoc, History.extend_append]
      exact herror
    · cases more with
      | nil =>
        obtain rfl : calls = before := by simpa using hfirst
        have herror := hf.refused [] bytes rest text hrest.symm trivial htext
        show EStateM.bind x f h = _
        rw [EStateM.bind, hx.admitted hbefore, History.extend_append]
        exact herror
      | cons call more =>
        obtain ⟨rfl, -⟩ : HashCall.write bytes = call ∧ rest = more ++ calls' := by
          simpa using hrest
        have herror := hx.refused before bytes more text hfirst hbefore htext
        show EStateM.bind x f h = _
        rw [EStateM.bind, herror]

/-- A last step that asks nothing. -/
theorem Follows.bind_pure (hx : x.Follows H h calls a) (g : α → β) :
    Follows (x >>= fun a => pure (g a)) H h calls (g a) := by
  have hg : Follows (x >>= fun a => pure (g a)) H h (calls ++ []) (g a) :=
    hx.bind (follows_pure (g a))
  rwa [List.append_nil] at hg

/-- **A computation that succeeds has made all of its calls.** -/
theorem Follows.of_eq_ok (hx : x.Follows H h calls a) (hok : x h = .ok b h') :
    b = a ∧ h' = h.extend calls ∧ H.Admits h calls := by
  by_cases hall : H.Admits h calls
  · have hsame := hok.symm.trans (hx.admitted hall)
    cases hsame
    exact ⟨rfl, rfl, hall⟩
  · obtain ⟨before, bytes, rest, text, heq, hbefore, htext⟩ :=
      HashStrategy.exists_refused_of_not_admits hall
    have hfails := hok.symm.trans (hx.refused before bytes rest text heq hbefore htext)
    cases hfails

end Hashing

namespace HashStrategy

open Hashing (Follows)

variable {H : HashStrategy}

/-! ### Digests -/

theorem write_follows (h : History) (bytes : Bytes) :
    (H.write bytes).Follows H h [.write bytes] () where
  admitted hall := by
    rw [write, hall.1]
    rfl
  refused before other rest text heq _ htext := by
    cases before with
    | nil =>
      obtain ⟨rfl, -⟩ : bytes = other ∧ [] = rest := by simpa using heq
      rw [write, show H.refusal h bytes = some text from htext]
      rfl
    | cons call before => simp at heq

theorem writeAll_follows (h : History) (chunks : List Bytes) :
    (H.writeAll chunks).Follows H h (chunks.map .write) () := by
  induction chunks generalizing h with
  | nil => exact Hashing.follows_pure ()
  | cons chunk rest ih => exact (write_follows h chunk).bind (ih _)

/-- The accumulator is made first, and nothing can refuse it. -/
theorem digestOf_follows (h : History) (chunks : List Bytes) :
    (H.digestOf chunks).Follows H h (HashCall.hashing chunks) (H.digest h chunks) := by
  have hwrites : (H.writeAll chunks >>= fun _ => pure (H.digest h chunks)).Follows H
      (.accumulator :: h) (chunks.map .write) (H.digest h chunks) :=
    (writeAll_follows _ chunks).bind_pure fun _ => H.digest h chunks
  refine ⟨fun hall => ?_, fun before bytes rest text heq hbefore htext => ?_⟩
  · rw [HashCall.hashing, History.extend_cons]
    exact hwrites.admitted hall
  · cases before with
    | nil => simp [HashCall.hashing] at heq
    | cons call before =>
      obtain ⟨rfl, hrest⟩ : HashCall.accumulator = call ∧
          chunks.map .write = before ++ .write bytes :: rest := by
        simpa [HashCall.hashing] using heq
      rw [History.extend_cons] at htext
      rw [List.cons_append, History.extend_cons]
      exact hwrites.refused before bytes rest text hrest hbefore htext

theorem leafHash_follows (h : History) (payload : Bytes) :
    (H.leafHash payload).Follows H h (HashCall.hashing [payload])
      (leafTag :: H.digest h [payload]) :=
  (digestOf_follows h [payload]).bind_pure (leafTag :: ·)

theorem interiorHash_follows (h : History) (left right : Bytes) :
    (H.interiorHash left right).Follows H h (HashCall.hashing [left, right])
      (interiorTag :: H.digest h [left, right]) :=
  (digestOf_follows h [left, right]).bind_pure (interiorTag :: ·)

end HashStrategy

end OrderingService
