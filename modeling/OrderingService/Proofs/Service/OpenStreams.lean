import OrderingService.Proofs.Service.Counters
import OrderingService.Proofs.Stream.Delivery

/-!
# The gauge of open streams

The handler of a deliver stream counts itself as open before it reads anything, and no longer counts
itself when it returns. It returns from many places: before it asked for a subscription, when it was
denied one, while it hands over an answer, and from each of the things that it attends to. Whichever
it is, the count goes down in the very step with which the handler returns, so the gauge is compared
with the calls of the handler, not with what they do.

A call is known by the index of its stream. Which calls start and which return is read off the
states before and after a moment, and so are the calls that are open; the gauge is a number that only
the moves change. Nothing is assumed of the service at first: any service keeps the difference
between its gauge and its open calls.

## Main definitions

* `Service.openCalls` — the calls of the handler that have not returned
* `Service.started`, `Service.returned` — the calls that start in a run, and those that return
* `Service.CallStep` — the ways in which a move changes the open calls and the gauge
* `Service.Balanced` — the calls of a run, and the gauge

## Main results

* `Service.callStep` — there are no other ways
* `Service.balanced_of_run?` — the balance of every run, from any service
* `Service.run?_gauge` — the gauge of a service is the number of its open calls
-/

namespace OrderingService

/-- The sequencer counts no streams. -/
theorem Sequencer.Effect.streams_eq {s s' : Sequencer} {now : Nat} {action : Action} {answer : Answer}
    (he : Effect s now action answer s') : s'.metrics.streams = s.metrics.streams := by
  obtain ⟨_, _, _, heq⟩ := he.exists_metrics
  rw [heq]

namespace Service

variable {s s' : Service} {m : Move} {trace : List Moment} {index : Nat}

/-! ### Open calls -/

/-- Whether a call of the handler has not returned. -/
def isOpen (s : Service) (index : Nat) : Bool := s.delivers[index]?.any (!·.isEnded)

/-- The calls of the handler that have not returned. -/
def openCalls (s : Service) : List Nat := (List.range s.delivers.length).filter s.isOpen

theorem lt_of_isOpen (h : s.isOpen index = true) : index < s.delivers.length := by
  by_contra hge
  rw [isOpen, List.getElem?_eq_none (Nat.le_of_not_lt hge)] at h
  cases h

@[simp] theorem mem_openCalls : index ∈ s.openCalls ↔ s.isOpen index = true := by
  rw [openCalls, List.mem_filter, List.mem_range]
  exact and_iff_right_of_imp lt_of_isOpen

theorem nodup_openCalls (s : Service) : s.openCalls.Nodup := List.nodup_range.filter _

/-- Where the same handlers have returned, the same calls are open. -/
theorem openCalls_congr (hlength : s'.delivers.length = s.delivers.length)
    (h : ∀ i, s'.isOpen i = s.isOpen i) : s'.openCalls = s.openCalls := by
  rw [openCalls, openCalls, hlength, funext h]

/-- One more stream is one more open call. -/
theorem openCalls_openDeliver (s : Service) (capacity : Nat) :
    (Session.openDeliver s capacity).2.openCalls = s.openCalls ++ [s.delivers.length] := by
  have hopened : (Session.openDeliver s capacity).2.delivers
      = s.delivers ++ [⟨{ capacity }, .waiting⟩] := rfl
  have hold : ∀ i ∈ List.range s.delivers.length,
      (Session.openDeliver s capacity).2.isOpen i = s.isOpen i := by
    intro i hi
    rw [isOpen, hopened, List.getElem?_append_left (List.mem_range.mp hi), isOpen]
  have hnew : (Session.openDeliver s capacity).2.isOpen s.delivers.length = true := by
    rw [isOpen, hopened, List.getElem?_concat_length]
    rfl
  rw [openCalls, hopened, List.length_append, List.length_singleton, List.range_succ,
    List.filter_append, List.filter_congr hold, List.filter_singleton, hnew]
  rfl

/-- When a handler goes on, its call is open for as long as it has not returned. -/
theorem isOpen_setDeliver {t : Service} {d : DeliverStream} (hlt : index < t.delivers.length)
    (i : Nat) : (t.setDeliver index d).isOpen i = if i = index then !d.isEnded else t.isOpen i := by
  rw [isOpen, delivers_setDeliver]
  split
  next heq =>
    rw [heq, List.getElem?_set_self hlt]
    rfl
  next hne =>
    rw [List.getElem?_set_ne (Ne.symm hne)]
    rfl

/-! ### What a move does to them -/

/-- The ways in which a move changes the open calls and the gauge, with the call that starts and the
call that returns. -/
inductive CallStep (s s' : Service) : Option Nat → Option Nat → Prop
  | starts (length_eq : s'.delivers.length = s.delivers.length + 1)
    (open_eq : s'.openCalls = s.openCalls ++ [s.delivers.length])
    (streams_eq : s'.metrics.streams = s.metrics.streams + 1) :
    CallStep s s' (some s.delivers.length) none
  | returns {index : Nat} (mem : index ∈ s.openCalls)
    (length_eq : s'.delivers.length = s.delivers.length)
    (open_eq : s'.openCalls = s.openCalls.erase index)
    (streams_eq : s'.metrics.streams = s.metrics.streams - 1) : CallStep s s' none (some index)
  | goesOn (length_eq : s'.delivers.length = s.delivers.length)
    (open_eq : s'.openCalls = s.openCalls) (streams_eq : s'.metrics.streams = s.metrics.streams) :
    CallStep s s' none none

namespace Moment

variable (now : Moment)

/-- The call of the handler that starts at a moment. -/
def starts? : Option Nat :=
  match now.move with
  | .openDeliver _ => some now.before.delivers.length
  | _ => none

/-- The call of the handler that returns at a moment. -/
def returns? : Option Nat :=
  match now.move with
  | .event (.deliver index _) =>
    if now.before.isOpen index && !now.after.isOpen index then some index else none
  | _ => none

end Moment

/-- A handler that goes on has not returned. -/
theorem isEnded_of_goes {t : Service} {d d' : DeliverStream} {branch : DeliverBranch}
    {read : Option DeliverStream.Incoming} {sent : Option DeliverStream.Outgoing}
    (hg : DeliverStream.Goes s d branch read sent t d') : d.isEnded = false := by
  cases hg with
  | _ => rfl

theorem metrics_of_goes {t : Service} {d d' : DeliverStream} {branch : DeliverBranch}
    {read : Option DeliverStream.Incoming} {sent : Option DeliverStream.Outgoing}
    (hg : DeliverStream.Goes s d branch read sent t d') : t.metrics = s.metrics := by
  cases hg with
  | asked => exact congrArg Sequencer.metrics (sequencer_send s _)
  | _ => rfl

/-- From whichever place the handler returns, its call is no longer open and no longer counted. -/
theorem callStep_of_deliver? {branch : DeliverBranch} (h : s.deliver? index branch = some s') :
    CallStep s s' none (⟨s, .event (.deliver index branch)⟩ : Moment).returns? := by
  have hafter := Moment.after_eq (m := .event (.deliver index branch)) h
  obtain ⟨d, read, sent, t, d', hd, hgoes, -, -, rfl⟩ := deliver?_cases h
  have hdelivers := delivers_of_goes hgoes
  have hlt : index < t.delivers.length := hdelivers ▸ (List.getElem?_eq_some_iff.mp hd).1
  have hlength : (t.setDeliver index d').delivers.length = s.delivers.length := by
    rw [delivers_setDeliver, List.length_set, hdelivers]
  have hbefore : s.isOpen index = true := by
    rw [isOpen, hd, Option.any_some, isEnded_of_goes hgoes]
    rfl
  have hopen : ∀ i, (t.setDeliver index d').isOpen i
      = if i = index then !d'.isEnded else s.isOpen i := by
    intro i
    rw [isOpen_setDeliver hlt, isOpen, hdelivers, ← isOpen]
  have hreturns : (⟨s, .event (.deliver index branch)⟩ : Moment).returns?
      = if d'.isEnded then some index else none := by
    show (if s.isOpen index && !(Moment.after _).isOpen index then some index else none) = _
    rw [hafter, hbefore, hopen, if_pos rfl, Bool.true_and, Bool.not_not]
  rw [hreturns]
  cases hended : d'.isEnded with
  | true =>
    refine .returns (mem_openCalls.mpr hbefore) hlength ?_ ?_
    · rw [(nodup_openCalls s).erase_eq_filter, openCalls, hlength, openCalls, List.filter_filter]
      refine List.filter_congr fun i _ => ?_
      rw [hopen, hended]
      by_cases hi : i = index <;> simp [hi]
    · rw [setDeliver, if_pos hended, ← metrics_of_goes hgoes]
      rfl
  | false =>
    refine .goesOn hlength (openCalls_congr hlength fun i => ?_) ?_
    · rw [hopen]
      split
      next hi => rw [hended, hi, hbefore]; rfl
      next => rfl
    · rw [setDeliver, hended, if_neg Bool.false_ne_true, ← metrics_of_goes hgoes]
      rfl

theorem callStep_goesOn (hdelivers : s'.delivers = s.delivers)
    (hstreams : s'.metrics.streams = s.metrics.streams) : CallStep s s' none none := by
  refine .goesOn (congrArg List.length hdelivers) ?_ hstreams
  exact openCalls_congr (congrArg List.length hdelivers) fun i => by rw [isOpen, hdelivers, isOpen]

/-- A client does not make the handler return. -/
theorem callStep_of_client {f : DeliverStream → DeliverStream} (hf : ∀ d, (f d).isEnded = d.isEnded) :
    CallStep s { s with delivers := s.delivers.modify index f } none none := by
  have hlength : (s.delivers.modify index f).length = s.delivers.length := List.length_modify ..
  refine .goesOn hlength (openCalls_congr hlength fun i => ?_) rfl
  rw [isOpen, isOpen, List.getElem?_modify]
  cases s.delivers[i]? with
  | none => rfl
  | some d => by_cases hi : index = i <;> simp [hi, hf]

/-- **There are no other ways in which a move changes the open calls and the gauge.** -/
theorem callStep (h : s.move? m = some s') :
    CallStep s s' (⟨s, m⟩ : Moment).starts? (⟨s, m⟩ : Moment).returns? := by
  cases m with
  | event e =>
    cases e with
    | serve =>
      obtain ⟨ticket, call, behind, hserves⟩ := serve?_cases h
      refine callStep_goesOn hserves.delivers_eq ?_
      rw [metrics, hserves.sequencer_eq]
      exact (Sequencer.handle_effect s.sequencer s.now call).streams_eq
    | expire =>
      obtain ⟨hdue, rfl⟩ := expire?_eq_some h
      exact callStep_goesOn rfl (Sequencer.Effect.expired hdue).streams_eq
    | close =>
      obtain ⟨-, -, rfl⟩ := close?_eq_some h
      exact callStep_goesOn rfl (Sequencer.Effect.stopped .close (Or.inr rfl)).streams_eq
    | broadcast i =>
      refine callStep_goesOn (broadcast?_quiet h).2 ?_
      rw [metrics, sequencer_of_broadcast? h]
      cases (⟨s, .event (.broadcast i)⟩ : Moment).comesTo? i with
      | none => rfl
      | some r =>
        rw [Option.elim_some, Broadcast.count]
        split
        · rfl
        · rfl
    | deliver i branch => exact callStep_of_deliver? h
  | call c =>
    cases h
    exact callStep_goesOn (delivers_send s c) (by rw [metrics, sequencer_send]; rfl)
  | openDeliver capacity =>
    cases h
    exact .starts List.length_append (openCalls_openDeliver s capacity) rfl
  | deliverClient i act => cases h; exact callStep_of_client fun _ => rfl
  | _ => cases h; exact callStep_goesOn rfl rfl

/-! ### The calls of a run -/

/-- The calls that start in a run. -/
def started (trace : List Moment) : List Nat := trace.filterMap (·.starts?)

/-- The calls that return in a run. -/
def returned (trace : List Moment) : List Nat := trace.filterMap (·.returns?)

theorem started_concat (trace : List Moment) (now : Moment) :
    started (trace ++ [now]) = started trace ++ now.starts?.toList :=
  filterMap_concat _ _ _

theorem returned_concat (trace : List Moment) (now : Moment) :
    returned (trace ++ [now]) = returned trace ++ now.returns?.toList :=
  filterMap_concat _ _ _

/-- The calls of a run from one service to another, and the gauge. -/
structure Balanced (before : Service) (trace : List Moment) (s : Service) : Prop where
  /-- What is open was open before or started, and did not return. -/
  perm_calls : (before.openCalls ++ started trace).Perm (s.openCalls ++ returned trace)
  /-- No call starts twice, or was there before. -/
  nodup_calls : (before.openCalls ++ started trace).Nodup
  calls_lt : ∀ i ∈ before.openCalls ++ started trace, i < s.delivers.length
  gauge_eq : s.metrics.streams - s.openCalls.length
    = before.metrics.streams - before.openCalls.length

namespace Balanced

variable {before : Service}

theorem refl (s : Service) : Balanced s [] s where
  perm_calls := List.Perm.refl _
  nodup_calls := by simpa [started] using nodup_openCalls s
  calls_lt := by simpa [started] using fun _ => lt_of_isOpen
  gauge_eq := rfl

/-- **Every move keeps the balance.** -/
theorem move (hb : Balanced before trace s) (h : s.move? m = some s') :
    Balanced before (trace ++ [⟨s, m⟩]) s' := by
  have hstep := callStep h
  have hstarted := started_concat trace ⟨s, m⟩
  have hreturned := returned_concat trace ⟨s, m⟩
  generalize (⟨s, m⟩ : Moment).starts? = starts at hstep hstarted
  generalize (⟨s, m⟩ : Moment).returns? = returns at hstep hreturned
  cases hstep with
  | starts length_eq open_eq streams_eq =>
    simp only [Option.toList_some, Option.toList_none, List.append_nil] at hstarted hreturned
    have hnew : s.delivers.length ∉ before.openCalls ++ started trace :=
      fun hmem => Nat.lt_irrefl _ (hb.calls_lt _ hmem)
    refine ⟨?_, ?_, ?_, ?_⟩
    · rw [hstarted, hreturned, open_eq, ← List.append_assoc]
      refine (hb.perm_calls.append_right [s.delivers.length]).trans ?_
      rw [List.append_assoc, List.append_assoc]
      exact List.perm_append_comm.append_left s.openCalls
    · rw [hstarted, ← List.append_assoc]
      exact List.concat_eq_append ▸ hb.nodup_calls.concat hnew
    · rw [hstarted, ← List.append_assoc, length_eq]
      intro i hi
      rcases List.mem_append.mp hi with hold | hi
      · exact Nat.lt_succ_of_lt (hb.calls_lt i hold)
      · rw [List.mem_singleton.mp hi]
        exact Nat.lt_succ_self _
    · have := hb.gauge_eq
      rw [open_eq, streams_eq, List.length_append, List.length_singleton]
      omega
  | @returns index mem length_eq open_eq streams_eq =>
    simp only [Option.toList_some, Option.toList_none, List.append_nil] at hstarted hreturned
    refine ⟨?_, ?_, ?_, ?_⟩
    · rw [hstarted, hreturned, open_eq]
      refine hb.perm_calls.trans (((List.perm_cons_erase mem).append_right _).trans ?_)
      refine List.perm_middle.symm.trans ?_
      exact (List.perm_append_singleton index (returned trace)).symm.append_left _
    · rw [hstarted]
      exact hb.nodup_calls
    · rw [hstarted, length_eq]
      exact hb.calls_lt
    · have := hb.gauge_eq
      have := List.length_pos_of_mem mem
      rw [open_eq, streams_eq, List.length_erase_of_mem mem]
      omega
  | goesOn length_eq open_eq streams_eq =>
    simp only [Option.toList_none, List.append_nil] at hstarted hreturned
    exact ⟨by rw [hstarted, hreturned, open_eq]; exact hb.perm_calls,
      by rw [hstarted]; exact hb.nodup_calls, by rw [hstarted, length_eq]; exact hb.calls_lt,
      by rw [open_eq, streams_eq]; exact hb.gauge_eq⟩

/-- A call that returned is not open and did not return before. -/
theorem nodup_open_returned (hb : Balanced before trace s) :
    (s.openCalls ++ returned trace).Nodup :=
  hb.perm_calls.nodup_iff.mp hb.nodup_calls

/-- Where the calls that return are those that started, the gauge is what it was. -/
theorem streams_eq_of_perm (hb : Balanced before trace s)
    (hall : (returned trace).Perm (started trace)) :
    s.metrics.streams = before.metrics.streams := by
  have hlength := hb.perm_calls.length_eq
  have hgauge := hb.gauge_eq
  rw [List.length_append, List.length_append, hall.length_eq] at hlength
  omega

end Balanced

/-- **The balance of every run,** from any service. -/
theorem balanced_of_run? {before : Service} {moves : List Move}
    (hrun : before.run? moves = some (trace, s)) : Balanced before trace s :=
  run?_keeps (P := fun s trace => Balanced before trace s) Balanced.move (.refl before) hrun

/-! ### The gauge -/

/-- The calls of a run that started and have not returned. -/
def unreturned (trace : List Moment) : List Nat :=
  (started trace).filter (· ∉ returned trace)

/-- The gauge after a run of a new service. -/
structure Gauged (trace : List Moment) (s : Service) : Prop where
  gauge_eq : s.metrics.streams = (unreturned trace).length
  /-- The calls that have not returned are those whose handlers stand anywhere but at the end. -/
  mem_unreturned : ∀ i, i ∈ unreturned trace ↔ s.isOpen i
  /-- Each call starts once and returns at most once. -/
  nodup_started : (started trace).Nodup
  nodup_returned : (returned trace).Nodup
  returned_subset : returned trace ⊆ started trace
  /-- Whatever happens next, as soon as the calls that started since have returned and no others,
  the gauge is what it was. -/
  restored : ∀ {moves trace' s'}, s.run? moves = some (trace', s') →
    (∀ i, i ∈ returned trace' ↔ i ∈ started trace') → s'.metrics.streams = s.metrics.streams

/-- **The gauge of open streams is balanced.** However the handlers, the sequencer and all clients
take turns, and from wherever the handlers return, it is the number of calls of the handler that
started and have not returned. -/
theorem run?_gauge {c : SequencerConfig} {maxPayload : Nat} {moves : List Move}
    (hrun : (Service.new c maxPayload).run? moves = some (trace, s)) : Gauged trace s := by
  have hb := balanced_of_run? hrun
  have hperm : (started trace).Perm (s.openCalls ++ returned trace) := hb.perm_calls
  have hstarted : (started trace).Nodup := hb.nodup_calls
  have hnodup := hb.nodup_open_returned
  rw [List.nodup_append'] at hnodup
  obtain ⟨-, hreturned, hdisjoint⟩ := hnodup
  have hmem : ∀ i, i ∈ unreturned trace ↔ s.isOpen i := by
    intro i
    rw [unreturned, List.mem_filter, hperm.mem_iff, List.mem_append, mem_openCalls,
      decide_eq_true_iff]
    constructor
    · rintro ⟨hopen | hmem, hnot⟩
      · exact hopen
      · exact absurd hmem hnot
    · intro hopen
      exact ⟨Or.inl hopen, List.disjoint_left.mp hdisjoint (mem_openCalls.mpr hopen)⟩
  have hunreturned : (unreturned trace).Perm s.openCalls :=
    (List.perm_ext_iff_of_nodup (hstarted.filter _) (nodup_openCalls s)).mpr fun i =>
      (hmem i).trans mem_openCalls.symm
  refine ⟨?_, hmem, hstarted, hreturned, fun i hi => hperm.mem_iff.mpr (List.mem_append_right _ hi),
    fun hrun' hall => ?_⟩
  · have hgauge : s.metrics.streams - s.openCalls.length = 0 := hb.gauge_eq
    rw [hunreturned.length_eq]
    omega
  · have hb' := balanced_of_run? hrun'
    refine hb'.streams_eq_of_perm ((List.perm_ext_iff_of_nodup ?_ ?_).mpr hall)
    · exact (List.nodup_append'.mp hb'.nodup_open_returned).2.1
    · exact (List.nodup_append'.mp hb'.nodup_calls).2.1

/-- The first of four streams ends with its requests, the second is left by its client, reading from
the last one fails, and the third goes on. -/
def endingMoves : List Move :=
  [.openDeliver 8, .deliverClient 0 .closeRequests] ++ subscribing 1 ++ subscribing 2 ++
    [.event (.deliver 0 .request), .deliverClient 1 .hangUp, .event (.deliver 1 .hangUp),
      .openDeliver 8, .deliverClient 3 (.request (.error ⟨.internal, "reset"⟩))] ++
    attending 3 .request

/-- The sequencer stops, and one more stream is denied its subscription. -/
def deniedMoves : List Move :=
  [.openDeliver 8, .deliverClient 4 (.request (.ok {}))] ++ calling .shutdown ++
    [.event (.deliver 4 .request)] ++ attending 4 .request

theorem run?_gauge_ending :
    ∃ trace s trace' s', (Service.new keepingTwo 16).run? endingMoves = some (trace, s) ∧
      started trace = [0, 1, 2, 3] ∧ returned trace = [0, 1, 3] ∧ Gauged trace s ∧
      s.run? deniedMoves = some (trace', s') ∧ started trace' = [4] ∧ returned trace' = [4] ∧
      s'.metrics.streams = s.metrics.streams := by
  have hfacts : ((Service.new keepingTwo 16).run? endingMoves).bind (fun x =>
      (x.2.run? deniedMoves).map fun y =>
        ((started x.1, returned x.1), started y.1, returned y.1))
      = some (([0, 1, 2, 3], [0, 1, 3]), [4], [4]) := by
    decide +kernel
  obtain ⟨⟨trace, s⟩, hrun, hrest⟩ := Option.bind_eq_some_iff.mp hfacts
  obtain ⟨⟨trace', s'⟩, hrun', heq⟩ := Option.map_eq_some_iff.mp hrest
  obtain ⟨hends, hdenied⟩ := Prod.mk.inj heq
  obtain ⟨hstarted, hreturned⟩ := Prod.mk.inj hends
  obtain ⟨hstarted', hreturned'⟩ := Prod.mk.inj hdenied
  have hgauge := run?_gauge hrun
  refine ⟨trace, s, trace', s', hrun, hstarted, hreturned, hgauge, hrun', hstarted', hreturned',
    hgauge.restored hrun' fun i => ?_⟩
  rw [hstarted', hreturned']

end Service

end OrderingService
