import OrderingService.Proofs.Sequencer.Advance
import OrderingService.Proofs.Sequencer.Draining

/-!
# Which batches are cut

Whether the sequencer cuts batches as it should is asked in both directions, and the two meet at
`Segments`: every run that is on time cuts the batches of a segmentation of its requests, and each
segmentation of requests in order is cut by some run. So no run does what the reference forbids,
with whatever deadline a batch before left behind, and the reference allows nothing that no run does.

## Main definitions

* `Sequencer.Segmented` — what is cut in some steps is a segmentation
* `Sequencer.Cuts` — some run shows a segmentation

## Main results

* `Sequencer.RunsTo.segmented` — what is cut from some state on is a segmentation
* `Sequencer.cutsLater_of_segments` — whatever the reference allows is what some run does
* `Sequencer.run?_segments` — both from the start, and what comes of submissions alone
-/

namespace OrderingService

open Sequencer (Action Entry)

namespace Sequencer

variable {s s' : Sequencer} {now limit timeout number horizon since : Nat} {payloads : List Bytes}
  {deadline : Option Nat} {log : List Entry} {steps : List (Nat × Action)}

/-! ### Every run is a segmentation -/

/-- How requests go on from where a batch is open that has `payloads`. -/
def Resumes (limit timeout horizon number : Nat) (payloads : List Bytes) (deadline now : Nat)
    (requests : List (Nat × Action)) (o : Segmentation) : Prop :=
  ∃ more ending rest later,
    Gathers deadline horizon now (limit - payloads.length) requests more ending rest ∧
    Segments limit timeout horizon (number + 1) rest later ∧
    o = later.after number (payloads ++ more) ending

variable {t d : Nat} {payload : Bytes} {o : Segmentation} {answer : Answer} {next : Sequencer}
  {happened : List (Entry × List OrderedTransaction)} {later : List (Nat × Action)}

theorem Resumes.submit (hintime : t ≤ d) (hlt : payloads.length < limit)
    (h : Resumes limit timeout horizon number (payloads ++ [payload]) d t later o) :
    Resumes limit timeout horizon number payloads d now ((t, .call (.submit payload)) :: later)
      o := by
  obtain ⟨more, ending, rest, after, hgathers, hsegments, rfl⟩ := h
  have hroom : limit - payloads.length = limit - (payloads ++ [payload]).length + 1 := by
    rw [List.length_append, List.length_singleton]
    omega
  refine ⟨payload :: more, ending, rest, after, hroom ▸ .submit hintime hgathers, hsegments, ?_⟩
  rw [List.append_assoc, List.singleton_append]

theorem Resumes.full (hfull : limit ≤ payloads.length)
    (h : Segments limit timeout horizon (number + 1) later o) :
    Resumes limit timeout horizon number payloads d now later
      (o.after number payloads (.closed now)) := by
  refine ⟨[], .closed now, later, o, ?_, h, ?_⟩
  · rw [Nat.sub_eq_zero_of_le hfull]
    exact .full now later
  · rw [List.append_nil]

theorem Resumes.subscribe (hintime : t ≤ d) (hlt : payloads.length < limit)
    (h : Resumes limit timeout horizon number payloads d now later o) :
    Resumes limit timeout horizon number payloads d now ((t, .call .subscribe) :: later) o := by
  obtain ⟨more, ending, rest, after, hgathers, hsegments, rfl⟩ := h
  obtain ⟨room, hroom⟩ := Nat.exists_eq_add_of_lt hlt
  rw [show limit - payloads.length = room + 1 by omega] at hgathers
  refine ⟨more, ending, rest, after, ?_, hsegments, rfl⟩
  rw [show limit - payloads.length = room + 1 by omega]
  exact .subscribe hintime hgathers

/-- The batch ends before it is full. -/
theorem Resumes.ending {ending : Ending} {rest : List (Nat × Action)}
    (hlt : payloads.length < limit)
    (hgathers : ∀ {room}, Gathers d horizon now (room + 1) later [] ending rest)
    (h : Segments limit timeout horizon (number + 1) rest o) :
    Resumes limit timeout horizon number payloads d now later (o.after number payloads ending) := by
  obtain ⟨room, hroom⟩ := Nat.exists_eq_add_of_lt hlt
  refine ⟨[], ending, rest, o, ?_, h, ?_⟩
  · rw [show limit - payloads.length = room + 1 by omega]
    exact hgathers
  · rw [List.append_nil]

theorem Resumes.batch
    (h : Resumes limit timeout horizon number [payload] (t + timeout) t later o) :
    Segments limit timeout horizon number ((t, .call (.submit payload)) :: later) o := by
  obtain ⟨more, ending, rest, after, hgathers, hsegments, rfl⟩ := h
  exact .batch hgathers hsegments

/-- What is cut in some steps is a segmentation, whether or not a batch is open before them. -/
structure Segmented (limit timeout horizon : Nat) (s : Sequencer) (steps : List (Nat × Action))
    (s' : Sequencer) : Prop where
  idle : ∀ number, s.Stands limit timeout number [] none → ∃ o,
    Segments limit timeout horizon number (requests steps) o ∧ Shows o (s.happenings steps) s'
  gathering : ∀ number payloads d now, s.Stands limit timeout number payloads (some d) →
    payloads ≠ [] → payloads.length < limit → ∃ o,
      Resumes limit timeout horizon number payloads d now (requests steps) o ∧
      Shows o (s.happenings steps) s'

/-- A submission, to the batch that it opens or that is open. -/
theorem exists_resumes_of_submit (h : next.Segmented limit timeout horizon steps s')
    (hs : s.Stands limit timeout number payloads deadline)
    (hd : (if payloads = [] then some (t + timeout) else deadline) = some d)
    (hact : s.act? t (.call (.submit payload)) = some (answer, next)) : ∃ o,
      Resumes limit timeout horizon number (payloads ++ [payload]) d t (requests steps) o ∧
      Shows o (s.happenings ((t, .call (.submit payload)) :: steps)) s' := by
  have hne : payloads ++ [payload] ≠ [] := by simp
  obtain ⟨answer', next', hact', hcase⟩ := hs.submit t payload
  cases hact.symm.trans hact'
  rcases hcase with ⟨hroom, hpublished, hstands⟩ |
    ⟨hfull, root, txs, hpublished, hpublishes, hstands⟩
  · rw [hd] at hstands
    obtain ⟨o, hresumes, hshows⟩ := h.gathering number _ d t hstands hne (by simpa using hroom)
    refine ⟨o, hresumes, ?_⟩
    rw [happenings_cons hact (by rw [hpublished, List.append_nil])]
    exact hshows.quiet rfl
  · obtain ⟨o, hsegments, hshows⟩ := h.idle _ hstands
    refine ⟨_, .full (by simpa using hfull) hsegments, ?_⟩
    rw [happenings_cons hact hpublished]
    exact hshows.closed_after rfl hpublishes hne

/-- The end, where no batch is open. -/
theorem exists_segments_last {action : Action} (last : action = .call .shutdown ∨ action = .close)
    (hlast : next.stopped = true → steps = [] ∧ s' = next)
    (hs : s.Stands limit timeout number [] none) (hact : s.act? t action = some (answer, next)) :
    ∃ o, Segments limit timeout horizon number (requests ((t, action) :: steps)) o ∧
      Shows o (s.happenings ((t, action) :: steps)) s' := by
  have heq := hs.act?_last t last
  rw [hs.cut_none] at heq
  cases hact.symm.trans heq
  obtain ⟨rfl, rfl⟩ := hlast rfl
  obtain ⟨hasks, hrequests⟩ := requests_last (t := t) last
  have hshows : Shows {} ([] : List (Entry × List OrderedTransaction)) { s with stopped := true } :=
    ⟨.nil, .nil, hs.payloads_eq⟩
  rw [hrequests, happenings_cons hact (List.append_nil _).symm]
  exact ⟨_, .stopped last, hshows.none_asked hasks⟩

/-- A step where no batch is open. -/
theorem Segmented.idle_cons {action : Action} (h : next.Segmented limit timeout horizon steps s')
    (hlast : next.stopped = true → steps = [] ∧ s' = next)
    (hs : s.Stands limit timeout number [] none) (hact : s.act? t action = some (answer, next)) :
    ∃ o, Segments limit timeout horizon number (requests ((t, action) :: steps)) o ∧
      Shows o (s.happenings ((t, action) :: steps)) s' := by
  have hkept : s.published = s.published ++ [] := (List.append_nil _).symm
  cases action with
  | call c =>
    cases c with
    | submit payload =>
      obtain ⟨o, hresumes, hshows⟩ := exists_resumes_of_submit h hs (if_pos rfl) hact
      exact ⟨o, hresumes.batch, hshows⟩
    | subscribe =>
      cases hact.symm.trans (hs.act?_subscribe t)
      obtain ⟨o, hsegments, hshows⟩ := h.idle number hs
      refine ⟨o, .subscribe hsegments, ?_⟩
      rw [happenings_cons hact hkept]
      exact hshows.quiet rfl
    | flush =>
      have heq := hs.act?_flush t
      rw [hs.cut_none] at heq
      cases hact.symm.trans heq
      obtain ⟨o, hsegments, hshows⟩ := h.idle number hs
      refine ⟨_, .flushed hsegments, ?_⟩
      rw [happenings_cons hact hkept]
      exact hshows.none_asked rfl
    | shutdown => exact exists_segments_last (Or.inl rfl) hlast hs hact
  | expire =>
    rw [hs.act?_expire] at hact
    cases hact
  | close => exact exists_segments_last (Or.inr rfl) hlast hs hact

/-- The end, where a batch is open. -/
theorem exists_resumes_last {action : Action} (last : action = .call .shutdown ∨ action = .close)
    (hlast : next.stopped = true → steps = [] ∧ s' = next)
    (hs : s.Stands limit timeout number payloads (some d)) (hne : payloads ≠ [])
    (hlt : payloads.length < limit) (hintime : t ≤ d)
    (hact : s.act? t action = some (answer, next)) : ∃ o,
      Resumes limit timeout horizon number payloads d now (requests ((t, action) :: steps)) o ∧
      Shows o (s.happenings ((t, action) :: steps)) s' := by
  obtain ⟨root, txs, after, hcut, hpublished, hpublishes, hafter⟩ := hs.cut hne t
  have heq := hs.act?_last t last
  rw [hcut] at heq
  cases hact.symm.trans heq
  obtain ⟨rfl, rfl⟩ := hlast rfl
  obtain ⟨hasks, hrequests⟩ := requests_last (t := t) last
  have hshows : Shows {} ([] : List (Entry × List OrderedTransaction))
      { after with stopped := true } := ⟨.nil, .nil, hafter.payloads_eq⟩
  rw [hrequests, happenings_cons hact hpublished]
  exact ⟨_, .ending hlt (.stopped hintime last) (.nil _), hshows.asked_after hasks hpublishes hne⟩

/-- A step where a batch is open. -/
theorem Segmented.gathering_cons {action : Action}
    (h : next.Segmented limit timeout horizon steps s')
    (hlast : next.stopped = true → steps = [] ∧ s' = next)
    (hs : s.Stands limit timeout number payloads (some d)) (hne : payloads ≠ [])
    (hlt : payloads.length < limit) (hintime : t ≤ d) (htimed : Timed t horizon (requests steps))
    (hact : s.act? t action = some (answer, next)) : ∃ o,
      Resumes limit timeout horizon number payloads d now (requests ((t, action) :: steps)) o ∧
      Shows o (s.happenings ((t, action) :: steps)) s' := by
  obtain ⟨root, txs, after, hcut, hpublished, hpublishes, hafter⟩ := hs.cut hne t
  cases action with
  | call c =>
    cases c with
    | submit payload =>
      obtain ⟨o, hresumes, hshows⟩ := exists_resumes_of_submit h hs (if_neg hne) hact
      exact ⟨o, hresumes.submit hintime hlt, hshows⟩
    | subscribe =>
      cases hact.symm.trans (hs.act?_subscribe t)
      obtain ⟨o, hresumes, hshows⟩ := h.gathering number payloads d now hs hne hlt
      refine ⟨o, hresumes.subscribe hintime hlt, ?_⟩
      rw [happenings_cons hact (List.append_nil _).symm]
      exact hshows.quiet rfl
    | flush =>
      have heq := hs.act?_flush t
      rw [hcut] at heq
      cases hact.symm.trans heq
      obtain ⟨o, hsegments, hshows⟩ := h.idle _ hafter
      refine ⟨_, .ending hlt (.flushed hintime) hsegments, ?_⟩
      rw [happenings_cons hact hpublished]
      exact hshows.asked_after rfl hpublishes hne
    | shutdown => exact exists_resumes_last (Or.inl rfl) hlast hs hne hlt hintime hact
  | expire =>
    have heq := hs.act?_expire t
    rw [hact] at heq
    split at heq
    next hdue =>
      have hd : d = t := Nat.le_antisymm (by simpa using hdue) hintime
      subst hd
      rw [hcut] at heq
      cases heq
      obtain ⟨o, hsegments, hshows⟩ := h.idle _ hafter
      refine ⟨_, .ending hlt (.expired htimed.le_nextTime) hsegments, ?_⟩
      rw [happenings_cons hact hpublished]
      exact hshows.closed_after rfl hpublishes hne
    next => cases heq
  | close => exact exists_resumes_last (Or.inr rfl) hlast hs hne hlt hintime hact

/-- **What is cut from some state on is a segmentation.** -/
theorem RunsTo.segmented (h : s.RunsTo since horizon steps log s') :
    s.Segmented limit timeout horizon steps s' := by
  induction steps generalizing s since log with
  | nil =>
    obtain ⟨-, rfl, -, hdeadline⟩ := RunsTo.nil_iff.mp h
    refine ⟨fun number hs => ⟨{}, .nil number, .nil, .nil, hs.payloads_eq⟩,
      fun number payloads d now hs _ hlt => ?_⟩
    exact ⟨_, .ending hlt (.left (hdeadline d hs.deadline_eq)) (.nil _), .nil, .nil, hs.payloads_eq⟩
  | cons step rest ih =>
    obtain ⟨t, action⟩ := step
    obtain ⟨answer, next, log', hact, -, hdeadline, hnext, -⟩ := RunsTo.cons_iff.mp h
    exact ⟨fun number hs => (ih hnext).idle_cons hnext.of_stopped hs hact,
      fun number payloads d now hs hne hlt => (ih hnext).gathering_cons hnext.of_stopped hs hne hlt
        (hdeadline d hs.deadline_eq) hnext.timed hact⟩

/-! ### Every segmentation is that of a run -/

/-- Some run on time handles these requests, and shows batches as a segmentation has them. -/
def Cuts (s : Sequencer) (since horizon : Nat) (later : List (Nat × Action)) (o : Segmentation) :
    Prop :=
  ∃ steps log s', s.RunsTo since horizon steps log s' ∧ requests steps = later ∧
    Shows o (s.happenings steps) s'

/-- How requests are handled from where a batch was just closed. -/
def CutsLater (limit timeout horizon number : Nat) (later : List (Nat × Action))
    (o : Segmentation) : Prop :=
  ∀ {next : Sequencer} {since : Nat}, next.Stands limit timeout number [] none →
    Timed since horizon later → next.Cuts since horizon later o

/-- A run takes one more step. -/
theorem Cuts.cons {action : Action} {txs : List OrderedTransaction} {o' : Segmentation}
    (h : next.Cuts t horizon later o) (hact : s.act? t action = some (answer, next))
    (hpublished : next.published = s.published ++ txs) (hsince : since ≤ t)
    (hdeadline : ∀ d, s.deadline = some d → t ≤ d)
    (hshows : ∀ {happened s'}, Shows o happened s' →
      Shows o' ((⟨t, action, answer⟩, txs) :: happened) s') :
    s.Cuts since horizon (requests [(t, action)] ++ later) o' := by
  obtain ⟨steps, log, s', hrun, rfl, hshown⟩ := h
  refine ⟨(t, action) :: steps, _, s',
    RunsTo.cons_iff.mpr ⟨_, _, _, hact, hsince, hdeadline, hrun, rfl⟩, ?_, ?_⟩
  · exact List.filter_append [(t, action)] steps
  · rw [happenings_cons hact hpublished]
    exact hshows hshown

variable {room : Nat} {more : List Bytes} {ending : Ending} {rest : List (Nat × Action)}

/-- A submission that goes to the batch that it opens or that is open. -/
theorem Stands.cuts_submit (hs : s.Stands limit timeout number payloads deadline)
    (hd : (if payloads = [] then some (t + timeout) else deadline) = some d)
    (hsince : since ≤ t) (hdeadline : ∀ d, deadline = some d → t ≤ d)
    (htimed : Timed t horizon later) (hroom : payloads.length + 1 + room = limit)
    (hgathers : Gathers d horizon t room later more ending rest)
    (hlater : CutsLater limit timeout horizon (number + 1) rest o)
    (hopen : 0 < room → ∀ {next : Sequencer},
      next.Stands limit timeout number (payloads ++ [payload]) (some d) →
      next.Cuts t horizon later (o.after number (payloads ++ [payload] ++ more) ending)) :
    s.Cuts since horizon ((t, .call (.submit payload)) :: later)
      (o.after number (payloads ++ payload :: more) ending) := by
  obtain ⟨answer, next, hact, hcase⟩ := hs.submit t payload
  rw [← hs.deadline_eq] at hdeadline
  rcases hcase with ⟨hlt, hpublished, hstands⟩ |
    ⟨hfull, root, txs, hpublished, hpublishes, hstands⟩
  · rw [hd] at hstands
    rw [← List.append_nil s.published] at hpublished
    rw [List.append_cons]
    exact (hopen (by omega) hstands).cons hact hpublished hsince hdeadline fun hshows =>
      hshows.quiet rfl
  · obtain rfl : room = 0 := by omega
    cases hgathers
    exact (hlater hstands htimed).cons hact hpublished hsince hdeadline fun hshows =>
      hshows.closed_after rfl hpublishes (by simp)

theorem eq_of_segments_nil (h : Segments limit timeout horizon number [] o) : o = {} := by
  cases h
  rfl

/-- A run that ends here. -/
theorem cuts_nil (hpayloads : s.pending.map (·.payload) = payloads) (hsince : since ≤ horizon)
    (hdeadline : ∀ d, s.deadline = some d → horizon ≤ d) :
    s.Cuts since horizon [] { left := payloads } :=
  ⟨[], [], s, RunsTo.nil_iff.mpr ⟨rfl, rfl, hsince, hdeadline⟩, rfl, .nil, .nil, hpayloads⟩

/-- A run whose last step stops the sequencer. -/
theorem Stands.cuts_last {action : Action} {txs : List OrderedTransaction} {result : CutResult}
    {after : Nat} (last : action = .call .shutdown ∨ action = .close)
    (hs : s.Stands limit timeout number payloads deadline) (hcut : s.cut t = (result, next))
    (hpublished : next.published = s.published ++ txs)
    (hnext : next.Stands limit timeout after [] none) (hsince : since ≤ t) (hle : t ≤ horizon)
    (hdeadline : ∀ d, s.deadline = some d → t ≤ d)
    (hshows : ∀ {happened s'}, Shows {} happened s' →
      Shows o ((⟨t, action, .ofCut result⟩, txs) :: happened) s') :
    s.Cuts since horizon [(t, action)] o := by
  have hact := hs.act?_last t last
  rw [hcut] at hact
  have hend : Cuts { next with stopped := true } t horizon [] {} :=
    cuts_nil hnext.payloads_eq hle hnext.le_of_idle
  rw [← (requests_last (t := t) last).2, ← List.append_nil (requests _)]
  exact hend.cons hact hpublished hsince hdeadline hshows

/-- A batch is cut as it gathers. -/
theorem Stands.cuts_of_gathers (hgathers : Gathers d horizon now room later more ending rest)
    (hsegments : Segments limit timeout horizon (number + 1) rest o)
    (hlater : CutsLater limit timeout horizon (number + 1) rest o)
    (hs : s.Stands limit timeout number payloads (some d)) (hne : payloads ≠ [])
    (hroom : payloads.length + room = limit) (hpos : 0 < room) (hsince : since ≤ d)
    (htimed : Timed since horizon later) :
    s.Cuts since horizon later (o.after number (payloads ++ more) ending) := by
  induction hgathers generalizing s payloads since with
  | full now rest => exact absurd hpos (Nat.lt_irrefl 0)
  | @submit now room t payload later rest more ending hintime hgathers ih =>
    refine hs.cuts_submit (if_neg hne) htimed.1 (fun d' hd' => ?_) htimed.2 (by omega) hgathers
      hlater fun hpos next hnext => ?_
    · cases hd'
      exact hintime
    · refine ih hsegments hlater hnext (by simp) ?_ hpos hintime htimed.2
      rw [List.length_append, List.length_singleton]
      omega
  | @subscribe now room t later rest more ending hintime hgathers ih =>
    exact (ih hsegments hlater hs hne hroom hpos hintime htimed.2).cons (hs.act?_subscribe t)
      (List.append_nil _).symm htimed.1 (hs.le_of_deadline hintime) fun hshows => hshows.quiet rfl
  | @expired now room rest hdue =>
    obtain ⟨root, txs, next, hcut, hpublished, hpublishes, hnext⟩ := hs.cut hne d
    have hact := hs.act?_expire d
    rw [hcut, if_pos (by simp)] at hact
    rw [List.append_nil]
    exact (hlater hnext (htimed.from hdue)).cons hact hpublished hsince
      (hs.le_of_deadline (Nat.le_refl d)) fun hshows => hshows.closed_after rfl hpublishes hne
  | @flushed now room t rest hintime =>
    obtain ⟨root, txs, next, hcut, hpublished, hpublishes, hnext⟩ := hs.cut hne t
    have hact := hs.act?_flush t
    rw [hcut] at hact
    rw [List.append_nil]
    exact (hlater hnext htimed.2).cons hact hpublished htimed.1
      (hs.le_of_deadline hintime) fun hshows => hshows.asked_after rfl hpublishes hne
  | @stopped now room t action hintime last =>
    obtain ⟨root, txs, next, hcut, hpublished, hpublishes, hnext⟩ := hs.cut hne t
    obtain rfl := eq_of_segments_nil hsegments
    rw [List.append_nil]
    exact hs.cuts_last last hcut hpublished hnext htimed.1 htimed.2 (hs.le_of_deadline hintime)
      fun hshows => hshows.asked_after (requests_last (t := t) last).1 hpublishes hne
  | @left now room hearly =>
    obtain rfl := eq_of_segments_nil hsegments
    rw [List.append_nil]
    exact cuts_nil hs.payloads_eq htimed (hs.le_of_deadline hearly)

/-- **Whatever the reference allows is what some run does.** -/
theorem cutsLater_of_segments (hlimit : 0 < limit)
    (h : Segments limit timeout horizon number later o) :
    CutsLater limit timeout horizon number later o := by
  induction h with
  | nil number =>
    intro s since hs htimed
    exact cuts_nil hs.payloads_eq htimed hs.le_of_idle
  | @subscribe number t later o _ ih =>
    intro s since hs htimed
    exact (ih hs htimed.2).cons (hs.act?_subscribe t) (List.append_nil _).symm htimed.1
      hs.le_of_idle fun hshows => hshows.quiet rfl
  | @flushed number t later o _ ih =>
    intro s since hs htimed
    have hact := hs.act?_flush t
    rw [hs.cut_none] at hact
    exact (ih hs htimed.2).cons hact (List.append_nil _).symm htimed.1
      hs.le_of_idle fun hshows => hshows.none_asked rfl
  | @stopped number t action last =>
    intro s since hs htimed
    exact hs.cuts_last last (hs.cut_none t) (List.append_nil _).symm hs htimed.1 htimed.2
      hs.le_of_idle
      fun hshows => hshows.none_asked (requests_last (t := t) last).1
  | @batch number t payload later rest more ending o hgathers hsegments ih =>
    intro s since hs htimed
    refine hs.cuts_submit (if_pos rfl) htimed.1 (fun d hd => by cases hd) htimed.2 ?_ hgathers ih
      fun hpos next hnext => ?_
    · rw [List.length_nil]
      omega
    · refine hnext.cuts_of_gathers hgathers hsegments ih (by simp) ?_ hpos (Nat.le_add_right _ _)
        htimed.2
      rw [List.nil_append, List.length_singleton]
      omega

/-! ### Runs from the start -/

/-- Everything that was published, step by step. -/
theorem published_of_run? (hrun : s.run? steps = some (log, s')) :
    s'.published = s.published ++ (s.happenings steps).flatMap Prod.snd := by
  induction steps generalizing s log with
  | nil =>
    cases hrun
    exact (List.append_nil _).symm
  | cons step rest ih =>
    obtain ⟨now, action⟩ := step
    simp only [run?, Option.bind_eq_bind, Option.bind_eq_some_iff] at hrun
    obtain ⟨⟨answer, next⟩, hact, ⟨log', last⟩, hrest, heq⟩ := hrun
    cases heq
    obtain ⟨txs, htxs⟩ := (act?_effect hact).2.advances.published
    rw [ih hrest, happenings_cons hact htxs.symm, List.flatMap_cons, ← List.append_assoc, htxs]

/-- **Which batches are cut.** Under a strategy that refuses nothing, whatever its limit and its
timeout, every run on time publishes the batches of a segmentation of its requests, at the times at
which they close, and answers each flush and each stop with the summary of the batch that this
closes, if there is one. Conversely, whatever segmentation there is of requests in order, some run on
time handles them so. And submissions that neither a flush nor the timer interrupts before the end
make as few batches as can hold them, all of full size but possibly the last one. -/
theorem run?_segments {c : SequencerConfig} (hc : c.strategy.Accepts) (horizon : Nat) :
    (∀ {steps log s}, (new c).RunsTo 0 horizon steps log s →
      s.published = ((new c).happenings steps).flatMap Prod.snd ∧
      Timed 0 horizon (requests steps) ∧ ∃ o,
        Segments (max 1 c.maxBatchSize) c.batchTimeoutMs horizon 0 (requests steps) o ∧
        Shows o ((new c).happenings steps) s) ∧
    (∀ {later o}, Timed 0 horizon later →
      Segments (max 1 c.maxBatchSize) c.batchTimeoutMs horizon 0 later o →
      (new c).Cuts 0 horizon later o) ∧
    (∀ (steps : List (Nat × Action)) (last : Action) (t : Nat),
      (∀ step ∈ steps, step.2 = .call .subscribe ∨ ∃ payload, step.2 = .call (.submit payload)) →
      last = .call .shutdown ∨ last = .close →
      (new c).Drains (steps ++ [(t, last)]) (evenSizes (max 1 c.maxBatchSize) (submissions steps)) ∧
      (evenSizes (max 1 c.maxBatchSize) (submissions steps)).length
        = (submissions steps + max 1 c.maxBatchSize - 1) / max 1 c.maxBatchSize) := by
  have hstands := Stands.new hc
  have hlimit : 0 < max 1 c.maxBatchSize := (Sized.new c).limit_pos
  refine ⟨fun hrun => ⟨published_of_run? hrun.run?_eq, hrun.timed, ?_⟩, fun htimed hsegments => ?_,
    fun steps _ t hsteps last => ⟨?_, length_evenSizes hlimit _⟩⟩
  · exact hrun.segmented.idle 0 hstands
  · exact cutsLater_of_segments hlimit hsegments hstands htimed
  · have hdrains := hstands.drains last hsteps (fun _ => rfl) hlimit t
    rwa [List.length_nil, Nat.zero_add] at hdrains

/-- Batches of two payloads that are open for ten milliseconds. -/
def pairing : SequencerConfig where
  maxBatchSize := 2
  batchTimeoutMs := 10
  strategy := .concatenation "concat"

/-- The second submission comes exactly when the time of the batch is up. -/
def pairingSteps : List (Nat × Action) := [(0, .call (.submit [1])), (10, .call (.submit [2]))]

/-- The submission can come first, and fills the batch, or the timer, and it opens another one. And
three submissions make two batches. -/
theorem run?_segments_pairing :
    (∃ log s, (new pairing).RunsTo 0 10 pairingSteps log s ∧
      ∃ o, Segments 2 10 10 0 pairingSteps o ∧ Shows o ((new pairing).happenings pairingSteps) s ∧
        s.published.map OrderedTransaction.placed = [(0, 0, [1]), (0, 1, [2])]) ∧
    (new pairing).Cuts 0 10 pairingSteps { closed := [⟨0, 10, [[1]]⟩], left := [[2]] } ∧
    (new pairing).Drains [(0, .call (.submit [1])), (1, .call (.submit [2])),
      (2, .call (.submit [3])), (3, .call .shutdown)] [2, 1] := by
  have hc : pairing.strategy.Accepts := fun _ _ => rfl
  obtain ⟨hruns, hcuts, hdrains⟩ := run?_segments hc 10
  refine ⟨?_, hcuts ⟨by decide, by decide, Nat.le_refl 10⟩ ?_, ?_⟩
  · have hfacts : ((new pairing).run? pairingSteps).map (fun x =>
        x.2.published.map OrderedTransaction.placed) = some [(0, 0, [1]), (0, 1, [2])] := by
      decide +kernel
    obtain ⟨⟨log, s⟩, hrun, hplaced⟩ := Option.map_eq_some_iff.mp hfacts
    have hrunsTo : (new pairing).RunsTo 0 10 pairingSteps log s := ⟨hrun, by decide +kernel⟩
    obtain ⟨-, -, o, hsegments, hshows⟩ := hruns hrunsTo
    exact ⟨log, s, hrunsTo, o, hsegments, hshows, hplaced⟩
  · have hfirst : Gathers (0 + 10) 10 0 (2 - 1) [(10, .call (.submit [2]))] [] (.closed 10)
        [(10, .call (.submit [2]))] := .expired (Nat.le_refl 10)
    have hsecond : Gathers (10 + 10) 10 10 (2 - 1) [] [] .left [] := .left (Nat.le_add_right 10 10)
    exact .batch hfirst (.batch hsecond (.nil 2))
  · exact (hdrains [(0, .call (.submit [1])), (1, .call (.submit [2])), (2, .call (.submit [3]))]
      (.call .shutdown) 3 (by simp) (Or.inl rfl)).1

end Sequencer

end OrderingService
