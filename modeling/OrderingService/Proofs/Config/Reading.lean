import OrderingService.CommandLine

/-!
# Hosts that are only read

Loading the configuration looks at the machine and changes nothing. Which machine that is does not
matter: any host will do whose reads leave it as it is. What a path holds then depends on the
machine alone and not on what was read before, so it can be spoken of without an order of reads.

## Main definitions

* `OnlyReads`, `Host.Reads` — an action that leaves the machine as it is, and a host with such reads
* `Host.content`, `Host.finds` — what a path holds, and whether it names a file

## Main results

* `CommandLine.onlyReads_load` — loading the configuration leaves the machine as it is
-/

namespace OrderingService

variable {σ : Type}

/-- An action that leaves the machine as it is. -/
def OnlyReads {α : Type} (x : StateM σ α) : Prop := ∀ w, (x.run w).2 = w

namespace OnlyReads

variable {α β : Type}

theorem pure (a : α) : OnlyReads (Pure.pure a : StateM σ α) := fun _ => rfl

theorem bind {x : StateM σ α} {f : α → StateM σ β} (hx : OnlyReads x) (hf : ∀ a, OnlyReads (f a)) :
    OnlyReads (x >>= f) := by
  intro w
  have hfirst := hx w
  rw [StateT.run_bind]
  show ((f (x.run w).1).run (x.run w).2).2 = w
  rw [hfirst]
  exact hf _ w

/-- What an action that only reads gives, with the machine after it. -/
theorem run_eq {x : StateM σ α} (hx : OnlyReads x) (w : σ) : x.run w = ((x.run w).1, w) :=
  Prod.ext rfl (hx w)

end OnlyReads

namespace Host

/-- A host whose reads leave the machine as it is. -/
structure Reads (host : Host (StateM σ)) : Prop where
  readFile : ∀ path, OnlyReads (host.readFile path)
  isFile : ∀ path, OnlyReads (host.isFile path)

/-- What a path holds on a machine. -/
def content (host : Host (StateM σ)) (w : σ) (path : Path) : Except SystemError Bytes :=
  ((host.readFile path).run w).1

/-- Whether a path names a file on a machine. -/
def finds (host : Host (StateM σ)) (w : σ) (path : Path) : Bool := ((host.isFile path).run w).1

variable {host : Host (StateM σ)}

theorem Reads.run_readFile (hr : host.Reads) (w : σ) (path : Path) :
    (host.readFile path).run w = (host.content w path, w) :=
  (hr.readFile path).run_eq w

theorem Reads.run_isFile (hr : host.Reads) (w : σ) (path : Path) :
    (host.isFile path).run w = (host.finds w path, w) :=
  (hr.isFile path).run_eq w

end Host

theorem Machine.reads_host (user : UserDirectories := {}) : (Machine.host user).Reads :=
  ⟨fun _ _ => rfl, fun _ _ => rfl⟩

variable {host : Host (StateM σ)} {env : Environment}

namespace Config

theorem onlyReads_firstFile? (hr : host.Reads) (paths : List Path) :
    OnlyReads (firstFile? host paths) := by
  induction paths with
  | nil => exact .pure none
  | cons path rest ih =>
    refine .bind (hr.isFile path) fun found => ?_
    cases found with
    | true => exact .pure (some path)
    | false => exact ih

theorem onlyReads_ofFile (hr : host.Reads) (path : Path) : OnlyReads (ofFile host path) := by
  refine .bind (hr.readFile path) fun result => ?_
  cases result with
  | ok content => exact .pure _
  | error e => exact .pure _

theorem onlyReads_load (hr : host.Reads) (explicit : Option Path) :
    OnlyReads (load host env explicit) := by
  cases explicit
  case' some path => refine .bind (.pure _) fun path => ?_
  case' none => refine .bind (onlyReads_firstFile? hr _) fun path => ?_
  all_goals
    cases path with
    | some path => exact .bind (onlyReads_ofFile hr path) fun _ => .pure _
    | none => exact .pure _

end Config

/-- Loading the configuration leaves the machine as it is. -/
theorem CommandLine.onlyReads_load (hr : host.Reads) (env : Environment) (l : CommandLine) :
    OnlyReads (l.load host env) :=
  .bind (Config.onlyReads_load hr _) fun _ => .pure _

end OrderingService
