import OrderingService.Proofs.Sequencer.Advance
import OrderingService.Proofs.Stream.BroadcastHandler
import OrderingService.Proofs.Stream.Handler
import OrderingService.Service.Session

/-!
# Runs of a service

A service moves by its own events, and because somebody calls the sequencer, opens a stream or is
the client of one, or because time passes. A run is any finite sequence of moves that can happen, so
it stands for any interleaving of the sequencer with all handlers and all clients.

What a move does is said in two ways. For the sequencer, most moves are nothing, some put a call
into the mailbox, and some make it act. For a deliver stream, most moves are nothing, and the others
are its handler's or its client's.

## Main definitions

* `Service.Move`, `Service.move?` — what can happen, from inside and from outside
* `Service.run?` — a run, with its moments
* `Service.Concerns` — what a move is to the sequencer

## Main results

* `Service.run?_keeps` — what every move keeps, every run keeps
* `Service.move?_concerns` — what a move is to the sequencer
* `Service.Concerns.advances` — whatever happens, the sequencer goes forward
* `Service.exists_onBroadcast_of_move?`, `Service.getElem?_delivers_of_move?` — what it is to a
  stream, other than its handler's
-/

namespace OrderingService

/-- What the client of a stream may do. -/
inductive ClientAct (Request : Type) where
  | request (item : Except RpcStatus Request)
  /-- It sends no more. -/
  | closeRequests
  /-- It takes the oldest answer, if there is one. -/
  | take
  | hangUp

/-- The queues after the client did something. -/
def Exchange.after {Request Response : Type} (x : Exchange Request Response) :
    ClientAct Request → Exchange Request Response
  | .request item => x.request item
  | .closeRequests => x.closeRequests
  | .take => { x with responses := x.responses.tail }
  | .hangUp => x.hangUp

namespace Service

/-- What can happen to a service. -/
inductive Move where
  | event (e : Event)
  /-- Somebody calls the sequencer. -/
  | call (c : Call)
  /-- Time passes. -/
  | wait (ms : Nat)
  /-- Everybody but the streams gives up calling. -/
  | release
  | openBroadcast (capacity : Nat)
  | openDeliver (capacity : Nat)
  | broadcastClient (index : Nat) (act : ClientAct BroadcastRequest)
  | deliverClient (index : Nat) (act : ClientAct DeliverRequest)

/-- What a move does, if it can happen. -/
def move? (s : Service) : Move → Option Service
  | .event e => s.step? e
  | .call c => some (s.send c).2
  | .wait ms => some { s with now := s.now + ms }
  | .release => some { s with released := true }
  | .openBroadcast capacity => some (Session.openBroadcast s { capacity }).2
  | .openDeliver capacity => some (Session.openDeliver s capacity).2
  | .broadcastClient index act => some { s with
      broadcasts := s.broadcasts.modify index fun b => { b with exchange := b.exchange.after act } }
  | .deliverClient index act => some { s with
      delivers := s.delivers.modify index fun d => { d with exchange := d.exchange.after act } }

/-- One moment of a run. -/
structure Moment where
  before : Service
  move : Move

/-- Move in turn: the moments, and the state after. -/
def run? (s : Service) : List Move → Option (List Moment × Service)
  | [] => some ([], s)
  | m :: rest => do
    let next ← s.move? m
    let (trace, last) ← next.run? rest
    return (⟨s, m⟩ :: trace, last)

variable {s s' : Service} {m : Move}

/-! ### Runs -/

section

variable {P : Service → List Moment → Prop}

theorem run?_keeps_from (keep : ∀ {s m s' trace}, P s trace → s.move? m = some s' →
      P s' (trace ++ [⟨s, m⟩])) :
    ∀ {moves : List Move} {s s' : Service} {earlier trace : List Moment},
      P s earlier → s.run? moves = some (trace, s') → P s' (earlier ++ trace) := by
  intro moves
  induction moves with
  | nil =>
    intro s s' earlier trace hP hrun
    cases hrun
    rwa [List.append_nil]
  | cons m rest ih =>
    intro s s' earlier trace hP hrun
    simp only [run?, Option.bind_eq_bind, Option.bind_eq_some_iff] at hrun
    obtain ⟨next, hmove, ⟨trace₁, last⟩, hrest, heq⟩ := hrun
    cases heq
    have hlast := ih (keep hP hmove) hrest
    rwa [List.append_assoc] at hlast

/-- **What every move keeps, every run keeps.** The property may speak of the moments so far. -/
theorem run?_keeps (keep : ∀ {s m s' trace}, P s trace → s.move? m = some s' →
      P s' (trace ++ [⟨s, m⟩])) (init : P s []) {moves : List Move} {trace : List Moment}
    (hrun : s.run? moves = some (trace, s')) : P s' trace :=
  run?_keeps_from keep init hrun

end

theorem run?_cons {next : Service} {rest : List Move} {trace : List Moment}
    (h : s.move? m = some next) (hrest : next.run? rest = some (trace, s')) :
    s.run? (m :: rest) = some (⟨s, m⟩ :: trace, s') := by
  rw [run?, h, Option.bind_eq_bind, Option.bind_some, hrest]
  rfl

theorem map_move_of_run? {moves : List Move} {trace : List Moment}
    (h : s.run? moves = some (trace, s')) : trace.map Moment.move = moves := by
  induction moves generalizing s trace with
  | nil =>
    cases h
    rfl
  | cons m rest ih =>
    simp only [run?, Option.bind_eq_bind, Option.bind_eq_some_iff] at h
    obtain ⟨next, -, ⟨trace₁, last⟩, hrest, heq⟩ := h
    cases heq
    exact congrArg (m :: ·) (ih hrest)

/-- A run and then another one. -/
theorem run?_append {moves moves' : List Move} {trace trace' : List Moment} {mid : Service}
    (h : s.run? moves = some (trace, mid)) (h' : mid.run? moves' = some (trace', s')) :
    s.run? (moves ++ moves') = some (trace ++ trace', s') := by
  induction moves generalizing s trace with
  | nil =>
    cases h
    exact h'
  | cons m rest ih =>
    simp only [run?, Option.bind_eq_bind, Option.bind_eq_some_iff] at h
    obtain ⟨next, hmove, ⟨trace₁, last⟩, hrest, heq⟩ := h
    cases heq
    exact run?_cons hmove (ih hrest)

/-! ### What a move is to the sequencer -/

/-- Nobody called the sequencer and it did nothing; only metrics may have been counted. -/
structure Quiet (s s' : Service) : Prop where
  mailbox_eq : s'.mailbox = s.mailbox
  answers_eq : s'.answers = s.answers
  nextTicket_eq : s'.nextTicket = s.nextTicket
  sequencer_eq : ∃ metrics, s'.sequencer = { s.sequencer with metrics }

theorem Quiet.refl (s : Service) : s.Quiet s := ⟨rfl, rfl, rfl, s.sequencer.metrics, rfl⟩

@[simp] theorem delivers_send (s : Service) (c : Call) : (s.send c).2.delivers = s.delivers := by
  rw [send]
  split
  · rfl
  · rfl

@[simp] theorem broadcasts_send (s : Service) (c : Call) :
    (s.send c).2.broadcasts = s.broadcasts := by
  rw [send]
  split
  · rfl
  · rfl

@[simp] theorem delivers_setDeliver (s : Service) (index : Nat) (d : DeliverStream) :
    (s.setDeliver index d).delivers = s.delivers.set index d := by
  rw [setDeliver]
  split
  · rfl
  · rfl

@[simp] theorem broadcasts_setDeliver (s : Service) (index : Nat) (d : DeliverStream) :
    (s.setDeliver index d).broadcasts = s.broadcasts := by
  rw [setDeliver]
  split
  · rfl
  · rfl

theorem nextTicket_send (s : Service) (c : Call) : (s.send c).2.nextTicket = s.nextTicket + 1 := by
  rw [send]
  split
  · rfl
  · rfl

@[simp] theorem sequencer_send (s : Service) (c : Call) :
    (s.send c).2.sequencer = s.sequencer := by
  rw [send]
  split
  · rfl
  · rfl

theorem quiet_setDeliver (s : Service) (index : Nat) (d : DeliverStream) :
    s.Quiet (s.setDeliver index d) := by
  rw [setDeliver]
  split
  · exact ⟨rfl, rfl, rfl, _, rfl⟩
  · exact ⟨rfl, rfl, rfl, _, rfl⟩

theorem quiet_setBroadcast (s : Service) (index : Nat) (b : BroadcastStream) :
    s.Quiet (s.setBroadcast index b) := ⟨rfl, rfl, rfl, _, rfl⟩

theorem expire?_eq_some (h : s.expire? = some s') : s.sequencer.isDue s.now = true ∧
    s' = { s with sequencer := s.sequencer.expire s.now } := by
  rw [expire?] at h
  split at h
  next hdue => cases h; exact ⟨hdue, rfl⟩
  next => cases h

theorem close?_eq_some (h : s.close? = some s') : s.mailbox = [] ∧ s.sequencer.stopped = false ∧
    s' = { s with sequencer := s.sequencer.close s.now } := by
  rw [close?] at h
  split at h
  next hcond =>
    cases h
    simp only [Bool.and_eq_true, List.isEmpty_iff, Bool.not_eq_true'] at hcond
    exact ⟨hcond.1.2, hcond.2, rfl⟩
  next => cases h

/-- The ways in which a move concerns the sequencer. -/
inductive Concerns (s : Service) : Move → Service → Prop
  | nothing {m : Move} {s' : Service} (other : m ≠ .event .serve) (quiet : s.Quiet s') :
    Concerns s m s'
  /-- Somebody calls. -/
  | called {m : Move} {s' : Service} (other : m ≠ .event .serve) (c : Call)
    (quiet : (s.send c).2.Quiet s') : Concerns s m s'
  /-- The sequencer takes a call. -/
  | served {s' : Service} (serves : s.serve? = some s') : Concerns s (.event .serve) s'
  /-- The sequencer acts without a call. -/
  | acted {m : Move} {s' : Service} {action : Sequencer.Action} {answer : Answer}
    (other : m ≠ .event .serve)
    (effect : Sequencer.Effect s.sequencer s.now action answer s'.sequencer)
    (mailbox_eq : s'.mailbox = s.mailbox) (answers_eq : s'.answers = s.answers)
    (nextTicket_eq : s'.nextTicket = s.nextTicket) (uncalled : ∀ c, action ≠ .call c)
    (running : s.sequencer.stopped = false)
    (mailbox_of_stopped : s'.sequencer.stopped = true → s.mailbox = []) : Concerns s m s'

/-- The handler of a broadcast stream makes a call, or none, and leaves deliver streams alone. -/
theorem broadcast?_quiet {index : Nat} (h : s.broadcast? index = some s') :
    (s.Quiet s' ∨ ∃ c, (s.send c).2.Quiet s') ∧ s'.delivers = s.delivers := by
  obtain ⟨b, t, b', -, hgoes, rfl⟩ := broadcast?_cases h
  cases hgoes with
  | submitted => exact ⟨Or.inr ⟨_, quiet_setBroadcast _ _ _⟩, delivers_send s _⟩
  | refused | answered => exact ⟨Or.inl ⟨rfl, rfl, rfl, _, rfl⟩, rfl⟩
  | _ => exact ⟨Or.inl (quiet_setBroadcast _ _ _), rfl⟩

theorem broadcasts_of_goes {t : Service} {b b' : BroadcastStream}
    (hg : BroadcastStream.Goes s b t b') : t.broadcasts = s.broadcasts := by
  cases hg with
  | submitted => exact broadcasts_send s _
  | _ => rfl

theorem delivers_of_goes {t : Service} {d d' : DeliverStream} {branch : DeliverBranch}
    {read : Option DeliverStream.Incoming} {sent : Option DeliverStream.Outgoing}
    (hg : DeliverStream.Goes s d branch read sent t d') : t.delivers = s.delivers := by
  cases hg with
  | asked => exact delivers_send s _
  | _ => rfl

/-- The handler of a deliver stream makes a call, or none. -/
theorem deliver?_quiet {index : Nat} {branch : DeliverBranch}
    (h : s.deliver? index branch = some s') : s.Quiet s' ∨ ∃ c, (s.send c).2.Quiet s' := by
  obtain ⟨d, read, sent, t, d', -, hgoes, -, -, rfl⟩ := deliver?_cases h
  cases hgoes with
  | asked => exact Or.inr ⟨_, quiet_setDeliver _ _ _⟩
  | _ => exact Or.inl (quiet_setDeliver _ _ _)

/-- **What a move is to the sequencer.** -/
theorem move?_concerns (h : s.move? m = some s') : s.Concerns m s' := by
  have hdeal : ∀ {m}, m ≠ .event .serve → (s.Quiet s' ∨ ∃ c, (s.send c).2.Quiet s') →
      s.Concerns m s' := by
    rintro m hm (hquiet | ⟨c, hquiet⟩)
    · exact .nothing hm hquiet
    · exact .called hm c hquiet
  cases m with
  | event e =>
    cases e with
    | serve => exact .served h
    | expire =>
      obtain ⟨hdue, rfl⟩ := expire?_eq_some h
      have hrunning : s.sequencer.stopped = false := by
        simpa using (Bool.and_eq_true_iff.mp hdue).1
      refine .acted nofun (.expired hdue) rfl rfl rfl nofun hrunning fun hstop => ?_
      cases (Sequencer.stopped_cut _ _ ▸ hrunning).symm.trans hstop
    | close =>
      obtain ⟨hempty, hrunning, rfl⟩ := close?_eq_some h
      exact .acted nofun (.stopped .close (Or.inr rfl)) rfl rfl rfl nofun hrunning fun _ => hempty
    | broadcast index => exact hdeal nofun (broadcast?_quiet h).1
    | deliver index branch => exact hdeal nofun (deliver?_quiet h)
  | call c => cases h; exact .called nofun c (Quiet.refl _)
  | wait ms => cases h; exact .nothing nofun ⟨rfl, rfl, rfl, _, rfl⟩
  | release => cases h; exact .nothing nofun ⟨rfl, rfl, rfl, _, rfl⟩
  | openBroadcast capacity => cases h; exact .nothing nofun ⟨rfl, rfl, rfl, _, rfl⟩
  | openDeliver capacity => cases h; exact .nothing nofun ⟨rfl, rfl, rfl, _, rfl⟩
  | broadcastClient index act => cases h; exact .nothing nofun ⟨rfl, rfl, rfl, _, rfl⟩
  | deliverClient index act => cases h; exact .nothing nofun ⟨rfl, rfl, rfl, _, rfl⟩

/-- The sequencer took the oldest call. The calls `behind`, if any, were left behind because it
stopped. -/
structure Serves (s : Service) (ticket : Nat) (call : Call) (behind : List (Nat × Call))
    (s' : Service) : Prop where
  mailbox_eq : s.mailbox = (ticket, call) :: (s'.mailbox ++ behind)
  answers_eq : s'.answers = behind.map (fun p => (p.1, .error .responseClosed)) ++
    (ticket, (s.sequencer.handle s.now call).1) :: s.answers
  sequencer_eq : s'.sequencer = (s.sequencer.handle s.now call).2
  stopped : behind ≠ [] → s'.sequencer.stopped = true
  mailbox_of_stopped : s'.sequencer.stopped = true → s'.mailbox = []
  nextTicket_eq : s'.nextTicket = s.nextTicket
  delivers_eq : s'.delivers = s.delivers
  broadcasts_eq : s'.broadcasts = s.broadcasts

theorem serve?_cases (h : s.serve? = some s') : ∃ ticket call behind,
    s.Serves ticket call behind s' := by
  rw [serve?] at h
  split at h
  next => cases h
  next ticket call rest hmail =>
    simp only at h
    split at h
    next hstop =>
      cases h
      exact ⟨ticket, call, rest, by simpa using hmail, rfl, rfl, fun _ => hstop, fun _ => rfl, rfl,
        rfl, rfl⟩
    next hrun =>
      cases h
      exact ⟨ticket, call, [], by simpa using hmail, rfl, rfl, fun hne => absurd rfl hne,
        fun hstop => absurd hstop hrun, rfl, rfl, rfl⟩

/-- Whatever happens, the sequencer counts metrics at most, or it acts. -/
theorem Concerns.sequencer_cases (hc : s.Concerns m s') :
    (∃ metrics, s'.sequencer = { s.sequencer with metrics }) ∨
      ∃ action answer, Sequencer.Effect s.sequencer s.now action answer s'.sequencer := by
  cases hc with
  | nothing _ quiet => exact Or.inl quiet.sequencer_eq
  | called _ c quiet => exact Or.inl (sequencer_send s c ▸ quiet.sequencer_eq)
  | served serves =>
    obtain ⟨ticket, call, behind, hserves⟩ := serve?_cases serves
    rw [hserves.sequencer_eq]
    exact Or.inr ⟨_, _, Sequencer.handle_effect s.sequencer s.now call⟩
  | acted _ effect => exact Or.inr ⟨_, _, effect⟩

/-- Whatever happens, the sequencer goes forward. -/
theorem Concerns.advances (hc : s.Concerns m s') : s.sequencer.Advances s'.sequencer := by
  rcases hc.sequencer_cases with ⟨metrics, heq⟩ | ⟨action, answer, heffect⟩
  · rw [heq]
    exact { Sequencer.Advances.refl s.sequencer with }
  · exact heffect.advances

theorem Quiet.advances (hq : s.Quiet s') : s.sequencer.Advances s'.sequencer := by
  obtain ⟨metrics, heq⟩ := hq.sequencer_eq
  rw [heq]
  exact { Sequencer.Advances.refl s.sequencer with }

/-- Whatever happens, published transactions stay densely ordered. -/
theorem Concerns.ordered (hc : s.Concerns m s') (ho : s.sequencer.Ordered) :
    s'.sequencer.Ordered := by
  rcases hc.sequencer_cases with ⟨metrics, heq⟩ | ⟨action, answer, heffect⟩
  · rw [heq]
    exact ho.updateMetrics metrics
  · exact heffect.ordered ho

/-! ### What a move is to a broadcast stream -/

/-- What a move does to the queues of a broadcast stream, if it is its client's. -/
def Move.onBroadcast (m : Move) (index : Nat) (x : Exchange BroadcastRequest BroadcastResponse) :
    Exchange BroadcastRequest BroadcastResponse :=
  match m with
  | .broadcastClient j act => if j = index then x.after act else x
  | _ => x

/-- **What a move is to a broadcast stream,** if it is not its handler's: it opens the stream, or it
is its client's, or it is nothing. -/
theorem exists_onBroadcast_of_move? (h : s.move? m = some s') {index : Nat}
    (hm : m ≠ .event (.broadcast index)) :
    (s.broadcasts[index]? = none ∧ ∀ b, s'.broadcasts[index]? = some b →
        ∃ capacity, b = ⟨{ capacity }, .reading⟩) ∨
      ∃ x phase, s.broadcasts[index]? = some ⟨x, phase⟩ ∧
        s'.broadcasts[index]? = some ⟨m.onBroadcast index x, phase⟩ := by
  have hsame : (∀ x, m.onBroadcast index x = x) → s'.broadcasts[index]? = s.broadcasts[index]? →
      (s.broadcasts[index]? = none ∧ ∀ b, s'.broadcasts[index]? = some b →
          ∃ capacity, b = ⟨{ capacity }, .reading⟩) ∨
        ∃ x phase, s.broadcasts[index]? = some ⟨x, phase⟩ ∧
          s'.broadcasts[index]? = some ⟨m.onBroadcast index x, phase⟩ := by
    intro hid heq
    rw [heq]
    cases s.broadcasts[index]? with
    | none => exact Or.inl ⟨rfl, nofun⟩
    | some b => exact Or.inr ⟨b.exchange, b.phase, rfl, by rw [hid]⟩
  cases m with
  | event e =>
    refine hsame (fun _ => rfl) ?_
    cases e with
    | serve =>
      obtain ⟨ticket, call, behind, hserves⟩ := serve?_cases h
      rw [hserves.broadcasts_eq]
    | expire => rw [(expire?_eq_some h).2]
    | close => rw [(close?_eq_some h).2.2]
    | broadcast j =>
      obtain ⟨b, t, b', -, hgoes, rfl⟩ := broadcast?_cases h
      have hne : j ≠ index := fun heq => hm (heq ▸ rfl)
      rw [setBroadcast, List.getElem?_set_ne hne, broadcasts_of_goes hgoes]
    | deliver j branch =>
      obtain ⟨d, read, sent, t, d', -, hgoes, -, -, rfl⟩ := deliver?_cases h
      rw [broadcasts_setDeliver]
      cases hgoes with
      | asked => rw [broadcasts_send]
      | _ => rfl
  | call c => cases h; exact hsame (fun _ => rfl) (by rw [broadcasts_send])
  | wait ms => cases h; exact hsame (fun _ => rfl) rfl
  | release => cases h; exact hsame (fun _ => rfl) rfl
  | openBroadcast capacity =>
    cases h
    have hopened : (Session.openBroadcast s { capacity }).2.broadcasts
        = s.broadcasts ++ [⟨{ capacity }, .reading⟩] := rfl
    rcases Nat.lt_or_ge index s.broadcasts.length with hlt | hge
    · exact hsame (fun _ => rfl) (hopened ▸ List.getElem?_append_left hlt)
    · refine Or.inl ⟨List.getElem?_eq_none hge, fun b hb => ⟨capacity, ?_⟩⟩
      rw [hopened, List.getElem?_append_right hge] at hb
      exact List.mem_singleton.mp (List.mem_of_getElem? hb)
  | openDeliver capacity => cases h; exact hsame (fun _ => rfl) rfl
  | broadcastClient j act =>
    cases h
    simp only [List.getElem?_modify]
    cases hb : s.broadcasts[index]? with
    | none => exact Or.inl ⟨rfl, nofun⟩
    | some b =>
      refine Or.inr ⟨b.exchange, b.phase, rfl, ?_⟩
      by_cases hj : j = index <;> simp [Move.onBroadcast, hj]
  | deliverClient j act => cases h; exact hsame (fun _ => rfl) rfl

/-- A move that is not its handler's leaves the handler of a broadcast stream where it is. -/
theorem getElem?_broadcasts_of_move? (h : s.move? m = some s') {index : Nat}
    (hm : m ≠ .event (.broadcast index)) :
    (s.broadcasts[index]? = none ∧ ∀ b, s'.broadcasts[index]? = some b → b.phase = .reading) ∨
      ∃ x x' phase, s.broadcasts[index]? = some ⟨x, phase⟩ ∧
        s'.broadcasts[index]? = some ⟨x', phase⟩ := by
  rcases exists_onBroadcast_of_move? h hm with ⟨hnone, hnew⟩ | ⟨x, phase, hb, hb'⟩
  · refine Or.inl ⟨hnone, fun b hb => ?_⟩
    obtain ⟨capacity, rfl⟩ := hnew b hb
    rfl
  · exact Or.inr ⟨x, _, phase, hb, hb'⟩

/-! ### What a move is to a deliver stream -/

/-- **What a move is to a deliver stream,** if it is not its handler's: nothing, or it opens the
stream, or it is its client's. -/
theorem getElem?_delivers_of_move? (h : s.move? m = some s') {index : Nat}
    (hm : ∀ branch, m ≠ .event (.deliver index branch)) :
    ((∀ act, m = .deliverClient index act → s.delivers[index]? = none) ∧
        s'.delivers[index]? = s.delivers[index]?) ∨
      (s.delivers[index]? = none ∧ ∃ x : Exchange DeliverRequest DeliverResponse,
        x.responses = [] ∧ s'.delivers[index]? = some ⟨x, .waiting⟩) ∨
      ∃ x phase act, m = .deliverClient index act ∧ s.delivers[index]? = some ⟨x, phase⟩ ∧
        s'.delivers[index]? = some ⟨x.after act, phase⟩ := by
  cases m with
  | event e =>
    refine Or.inl ⟨nofun, ?_⟩
    cases e with
    | serve =>
      obtain ⟨ticket, call, behind, hserves⟩ := serve?_cases h
      rw [hserves.delivers_eq]
    | expire => rw [(expire?_eq_some h).2]
    | close => rw [(close?_eq_some h).2.2]
    | broadcast j => rw [(broadcast?_quiet h).2]
    | deliver j branch =>
      obtain ⟨d, read, sent, t, d', -, hgoes, -, -, rfl⟩ := deliver?_cases h
      have hne : j ≠ index := fun heq => hm branch (heq ▸ rfl)
      rw [delivers_setDeliver, List.getElem?_set_ne hne, delivers_of_goes hgoes]
  | call c => cases h; exact Or.inl ⟨nofun, by rw [delivers_send]⟩
  | wait ms => cases h; exact Or.inl ⟨nofun, rfl⟩
  | release => cases h; exact Or.inl ⟨nofun, rfl⟩
  | openBroadcast capacity => cases h; exact Or.inl ⟨nofun, rfl⟩
  | openDeliver capacity =>
    cases h
    have hopened : (Session.openDeliver s capacity).2.delivers
        = s.delivers ++ [⟨{ capacity }, .waiting⟩] := rfl
    rw [hopened]
    rcases Nat.lt_trichotomy index s.delivers.length with hlt | heq | hgt
    · exact Or.inl ⟨nofun, List.getElem?_append_left hlt⟩
    · subst heq
      exact Or.inr (Or.inl ⟨List.getElem?_eq_none (Nat.le_refl _), _, rfl,
        List.getElem?_concat_length⟩)
    · refine Or.inl ⟨nofun, ?_⟩
      rw [List.getElem?_eq_none (Nat.le_of_lt hgt), List.getElem?_eq_none]
      rw [List.length_append, List.length_singleton]
      exact hgt
  | broadcastClient j act => cases h; exact Or.inl ⟨nofun, rfl⟩
  | deliverClient j act =>
    cases h
    simp only [List.getElem?_modify]
    by_cases hj : j = index
    · subst hj
      cases hd : s.delivers[j]? with
      | none => exact Or.inl ⟨fun _ _ => rfl, rfl⟩
      | some d => exact Or.inr (Or.inr ⟨d.exchange, d.phase, act, rfl, rfl, by simp⟩)
    · refine Or.inl ⟨fun act' heq => ?_, by simp [hj]⟩
      cases heq
      exact absurd rfl hj

end Service

end OrderingService
