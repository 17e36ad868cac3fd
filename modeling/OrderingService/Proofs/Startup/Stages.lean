import OrderingService.Proofs.Config.Settings
import OrderingService.Startup

/-!
# How the process ends

The stages of a start are taken apart once, into all the ways in which the process can end. Each
names the stage that fails, what failed in it, and the machine at that moment, so the machine on
which the data directory is made is the one on which the process was started. What follows from the
order of the stages is read off these ways.

The machine is any host whose reads leave it as it is. Nothing is assumed of what the reads give, of
what making a directory or listening does, or of which key pairs make an identity.

## Main definitions

* `Tls.Fails` — the ways in which a whole key pair cannot be used
* `Startup.Configured`, `Startup.Ready` — the stages before the first change of the machine succeed
* `Startup.Ends` — the ways in which the process ends

## Main results

* `Startup.ends_of_run` — there are no other ways in which the process ends
-/

namespace OrderingService

variable {σ : Type}

variable {host : Host (StateM σ)} {env : Environment} {arguments : List Bytes} {w w' : σ}

section

variable {ε α β : Type} {x : ExceptT ε (StateM σ) α} {f : α → ExceptT ε (StateM σ) β}

/-- A step that succeeds, and then the others. -/
theorem run_bind_of_ok {a : α} (h : (x.run).run w = (.ok a, w')) :
    ((x >>= f).run).run w = ((f a).run).run w' := by
  rw [ExceptT.run_bind, StateT.run_bind, h]
  rfl

/-- A step that fails is the last one. -/
theorem run_bind_of_error {e : ε} (h : (x.run).run w = (.error e, w')) :
    ((x >>= f).run).run w = (.error e, w') := by
  rw [ExceptT.run_bind, StateT.run_bind, h]
  rfl

end

/-! ### Key pairs -/

namespace Tls

/-- The ways in which a whole key pair cannot be used: one of its files cannot be read, or there is
no identity of what they hold. -/
inductive Fails (host : Host (StateM σ)) (w : σ) : TlsConfig → ServiceError → Prop
  | certificate {certFile keyFile : Path} {e : SystemError}
    (read : (host.readFile certFile).run w = (.error e, w)) :
    Fails host w ⟨some certFile, some keyFile⟩
      (.config ("Failed to read " ++ certFile.display ++ ": " ++ e.message))
  | key {certFile keyFile : Path} {cert : Bytes} {e : SystemError}
    (certificate : (host.readFile certFile).run w = (.ok cert, w))
    (read : (host.readFile keyFile).run w = (.error e, w)) :
    Fails host w ⟨some certFile, some keyFile⟩
      (.config ("Failed to read " ++ keyFile.display ++ ": " ++ e.message))
  | identity {certFile keyFile : Path} {cert key : Bytes} {causes : List String}
    (certificate : (host.readFile certFile).run w = (.ok cert, w))
    (read : (host.readFile keyFile).run w = (.ok key, w))
    (refused : host.identity cert key = .error causes) :
    Fails host w ⟨some certFile, some keyFile⟩ (.transport causes)

variable {certFile keyFile path : Path}

theorem run_readFile_ok {content : Bytes} (h : (host.readFile path).run w = (.ok content, w')) :
    (readFile host path).run w = (.ok content, w') := by
  rw [readFile, StateT.run_bind, h]
  rfl

theorem run_readFile_error {e : SystemError} (h : (host.readFile path).run w = (.error e, w')) :
    (readFile host path).run w
      = (.error (.config ("Failed to read " ++ path.display ++ ": " ++ e.message)), w') := by
  rw [readFile, StateT.run_bind, h]
  rfl

theorem run_load_of_certificate {e : ServiceError}
    (h : (readFile host certFile).run w = (.error e, w')) :
    (load host ⟨some certFile, some keyFile⟩).run w = (.error e, w') := by
  rw [load]
  exact run_bind_of_error h

theorem run_load_of_key {cert : Bytes} {e : ServiceError} {w₁ : σ}
    (hcert : (readFile host certFile).run w = (.ok cert, w₁))
    (h : (readFile host keyFile).run w₁ = (.error e, w')) :
    (load host ⟨some certFile, some keyFile⟩).run w = (.error e, w') := by
  rw [load]
  exact (run_bind_of_ok hcert).trans (run_bind_of_error h)

theorem run_load_of_pair {cert key : Bytes} {w₁ : σ}
    (hcert : (readFile host certFile).run w = (.ok cert, w₁))
    (h : (readFile host keyFile).run w₁ = (.ok key, w')) :
    (load host ⟨some certFile, some keyFile⟩).run w = (.ok (some (cert, key)), w') := by
  rw [load]
  exact (run_bind_of_ok hcert).trans (run_bind_of_ok h)

/-- What is loaded of no key pair or a whole one: nothing, both contents, or the refusal to read one
of the files. -/
theorem load_cases (hr : host.Reads) {c : TlsConfig}
    (hpaired : c.certFile.isSome = c.keyFile.isSome) (w : σ) :
    (load host c).run w = (.ok none, w) ∨
      (∃ cert key, (load host c).run w = (.ok (some (cert, key)), w) ∧
        ∀ causes, host.identity cert key = .error causes → Fails host w c (.transport causes)) ∨
      ∃ path e, (load host c).run w
          = (.error (.config ("Failed to read " ++ Path.display path ++ ": "
              ++ SystemError.message e)), w) ∧
        Fails host w c (.config ("Failed to read " ++ path.display ++ ": " ++ e.message)) := by
  obtain ⟨certFile?, keyFile?⟩ := c
  cases certFile? with
  | none =>
    cases keyFile? with
    | none => exact Or.inl rfl
    | some keyFile => cases hpaired
  | some certFile =>
    cases keyFile? with
    | none => cases hpaired
    | some keyFile =>
      have hcert := hr.run_readFile w certFile
      have hkey := hr.run_readFile w keyFile
      cases hread : host.content w certFile with
      | error e =>
        rw [hread] at hcert
        exact Or.inr (Or.inr
          ⟨certFile, e, run_load_of_certificate (run_readFile_error hcert), .certificate hcert⟩)
      | ok cert =>
        rw [hread] at hcert
        cases hread' : host.content w keyFile with
        | error e =>
          rw [hread'] at hkey
          exact Or.inr (Or.inr ⟨keyFile, e,
            run_load_of_key (run_readFile_ok hcert) (run_readFile_error hkey), .key hcert hkey⟩)
        | ok key =>
          rw [hread'] at hkey
          exact Or.inr (Or.inl ⟨cert, key,
            run_load_of_pair (run_readFile_ok hcert) (run_readFile_ok hkey),
            fun _ hrefused => .identity hcert hkey hrefused⟩)

/-- Encryption is set up, or there is a way in which the key pair cannot be used. -/
theorem prepare_cases (hr : host.Reads) {c : TlsConfig}
    (hpaired : c.certFile.isSome = c.keyFile.isSome) (w : σ) :
    (prepare host c).run w = (.ok (), w) ∨
      ∃ e, (prepare host c).run w = (.error e, w) ∧ Fails host w c e := by
  rw [prepare, StateT.run_bind]
  rcases load_cases hr hpaired w with hload | ⟨cert, key, hload, hfails⟩ | ⟨path, e, hload, hfails⟩
  · rw [hload]
    exact Or.inl rfl
  · rw [hload]
    show (((host.identity cert key).mapError ServiceError.transport, w) = _) ∨
      ∃ e, ((host.identity cert key).mapError ServiceError.transport, w) = _ ∧ _
    cases hidentity : host.identity cert key with
    | error causes => exact Or.inr ⟨_, rfl, hfails causes hidentity⟩
    | ok u => exact Or.inl rfl
  · rw [hload]
    exact Or.inr ⟨_, rfl, hfails⟩

end Tls

namespace Startup

/-! ### The stages -/

section

variable {α β ε : Type} {E : Outcome → σ → Prop} {P : α → σ → Prop} {Q : β → σ → Prop}

/-- From a machine, steps give what they are expected to, or the process ends in a way that is
expected. -/
def Proceeds (E : Outcome → σ → Prop) (x : ExceptT Outcome (StateM σ) α) (w : σ)
    (P : α → σ → Prop) : Prop :=
  match (x.run).run w with
  | (.ok a, w') => P a w'
  | (.error outcome, w') => E outcome w'

theorem Proceeds.bind {x : ExceptT Outcome (StateM σ) α} {f : α → ExceptT Outcome (StateM σ) β}
    (hx : Proceeds E x w P) (hf : ∀ a w', P a w' → Proceeds E (f a) w' Q) :
    Proceeds E (x >>= f) w Q := by
  rw [Proceeds] at hx ⊢
  split at hx
  next a w' hrun =>
    rw [run_bind_of_ok hrun]
    exact hf a w' hx
  next outcome w' hrun =>
    rw [run_bind_of_error hrun]
    exact hx

/-- A step either succeeds or ends the process with its stage. -/
theorem proceeds_step {stage : Stage} {cause : ε → StageCause} {x : StateM σ (Except ε α)}
    (hok : ∀ a w', x.run w = (.ok a, w') → P a w')
    (herror : ∀ e w', x.run w = (.error e, w') → E (.failed ⟨stage, cause e⟩) w') :
    Proceeds E (step stage cause x) w P := by
  have hstep : ((step stage cause x).run).run w
      = ((x.run w).1.mapError fun e => .failed ⟨stage, cause e⟩, (x.run w).2) := rfl
  rw [Proceeds, hstep]
  cases hresult : x.run w with
  | mk result w' =>
    cases result with
    | ok a => exact hok a w' hresult
    | error e => exact herror e w' hresult

theorem proceeds_pureStep {stage : Stage} {x : Except ServiceError α} (hok : ∀ a, x = .ok a → P a w)
    (herror : ∀ e, x = .error e → E (.failed ⟨stage, .service e⟩) w) :
    Proceeds E (pureStep stage x) w P := by
  refine proceeds_step (fun a w' h => ?_) fun e w' h => ?_
  · obtain ⟨rfl, rfl⟩ := Prod.mk.inj h
    exact hok a rfl
  · obtain ⟨rfl, rfl⟩ := Prod.mk.inj h
    exact herror e rfl

/-- A step that asks nothing of the machine and cannot fail. -/
theorem proceeds_pureStep_of_ok {stage : Stage} {x : Except ServiceError α} {a : α}
    (h : x = .ok a) : Proceeds E (pureStep stage x) w fun b w' => w = w' ∧ b = a := by
  refine proceeds_pureStep (fun b hb => ⟨rfl, ?_⟩) fun e he => ?_
  · cases hb.symm.trans h
    rfl
  · cases he.symm.trans h

theorem proceeds_sequencer {sc : SequencerConfig} {P : Sequencer → σ → Prop}
    (hok : sc.Addressable → P (.new sc) w) (hcrash : ¬ sc.Addressable → E .crashed w) :
    Proceeds E (sequencer sc) w P := by
  by_cases h : sc.Addressable
  · have hnew : Sequencer.new? sc = some (.new sc) := if_pos h
    rw [sequencer, hnew]
    exact hok h
  · have hnew : Sequencer.new? sc = none := if_neg h
    rw [sequencer, hnew]
    exact hcrash h

end

/-- The command line can be read and the configuration is loaded, on the machine as it was. -/
def Configured (host : Host (StateM σ)) (env : Environment) (arguments : List Bytes) (w : σ)
    (c : Config) : Prop :=
  ∃ l path, CommandLine.parse arguments = .ok l ∧ (l.load host env).run w = (.ok (c, path), w)

/-- The configuration is loaded and the log is set up as it says. -/
structure Ready (host : Host (StateM σ)) (env : Environment) (arguments : List Bytes) (w : σ)
    (c : Config) : Prop where
  configured : Configured host env arguments w c
  logger : LogFilter.check (env "RUST_LOG") c.logging = .ok ()

/-- The data directory is made, and the sequencer, which leaves this machine. -/
structure Made (host : Host (StateM σ)) (env : Environment) (arguments : List Bytes) (w : σ)
    (c : Config) (w' : σ) : Prop where
  ready : Ready host env arguments w c
  directory : (host.createDirAll c.ledger.dataDir).run w = (.ok (), w')
  sequencer : ∃ sc, SequencerConfig.ofOrdering c.ordering = .ok sc ∧ sc.Addressable

/-- The ways in which the process ends, with the machine that it leaves: in each, the stages before
have succeeded. -/
inductive Ends (host : Host (StateM σ)) (env : Environment) (arguments : List Bytes) (w : σ) :
    Outcome → σ → Prop
  | usage {e : UsageError} (failed : CommandLine.parse arguments = .error e) :
    Ends host env arguments w (.usage e) w
  | configuration {l : CommandLine} {e : ServiceError}
    (parsed : CommandLine.parse arguments = .ok l)
    (failed : (l.load host env).run w = (.error e, w)) :
    Ends host env arguments w (.failed ⟨.configuration, .service e⟩) w
  | logger {c : Config} {e : ServiceError} (configured : Configured host env arguments w c)
    (failed : LogFilter.check (env "RUST_LOG") c.logging = .error e) :
    Ends host env arguments w (.failed ⟨.logger, .service e⟩) w
  /-- The data directory cannot be made; directories above it may have been. -/
  | dataDirectory {c : Config} {e : SystemError} {w' : σ} (ready : Ready host env arguments w c)
    (failed : (host.createDirAll c.ledger.dataDir).run w = (.error e, w')) :
    Ends host env arguments w (.failed ⟨.creation, .dataDirectory c.ledger.dataDir e⟩) w'
  /-- The sequencer asks for more memory than can be addressed. -/
  | crashed {c : Config} {sc : SequencerConfig} {w' : σ} (ready : Ready host env arguments w c)
    (directory : (host.createDirAll c.ledger.dataDir).run w = (.ok (), w'))
    (settings : SequencerConfig.ofOrdering c.ordering = .ok sc) (large : ¬ sc.Addressable) :
    Ends host env arguments w .crashed w'
  | tls {c : Config} {e : ServiceError} {w' : σ} (made : Made host env arguments w c w')
    (failed : Tls.Fails host w' c.server.tls e) :
    Ends host env arguments w (.failed ⟨.creation, .service e⟩) w'
  | serving {c : Config} {address : SocketAddress} {e : SystemError} {w₁ w' : σ}
    (made : Made host env arguments w c w₁)
    (secured : (Tls.prepare host c.server.tls).run w₁ = (.ok (), w₁))
    (read : c.server.socketAddress = .ok address)
    (failed : (host.serve address).run w₁ = (.error e, w')) :
    Ends host env arguments w (.failed ⟨.serving, .listener e⟩) w'
  /-- The service was told to stop. -/
  | stopped {c : Config} {address : SocketAddress} {w₁ w' : σ}
    (made : Made host env arguments w c w₁)
    (secured : (Tls.prepare host c.server.tls).run w₁ = (.ok (), w₁))
    (read : c.server.socketAddress = .ok address)
    (served : (host.serve address).run w₁ = (.ok (), w')) :
    Ends host env arguments w .stopped w'

/-- What is loaded has passed validation, and the machine is as it was. -/
theorem valid_of_load (hr : host.Reads) {l : CommandLine} {c : Config} {path : Option Path}
    (h : (l.load host env).run w = (.ok (c, path), w')) : c.Valid ∧ w = w' := by
  have hkept : w = w' := (CommandLine.onlyReads_load hr env l w).symm.trans (congrArg Prod.snd h)
  refine ⟨?_, hkept⟩
  rw [CommandLine.load, StateT.run_bind] at h
  obtain ⟨⟨c', path'⟩, -, h⟩ := bind_eq_ok_iff.mp (congrArg Prod.fst h)
  obtain ⟨_, hvalid, heq⟩ := bind_eq_ok_iff.mp h
  cases heq
  exact Config.validate_eq_ok_iff.mp hvalid

/-- A fresh sequencer can be stopped. -/
theorem handle_shutdown_new (sc : SequencerConfig) (now : Nat) :
    ((Sequencer.new sc).handle now .shutdown).1 = .ok (.summary none) := rfl

theorem proceeds_load (hr : host.Reads) {l : CommandLine}
    (hparse : CommandLine.parse arguments = .ok l) :
    Proceeds (Ends host env arguments w) (step .configuration .service (l.load host env)) w
      fun loaded w' => w = w' ∧ loaded.1.Valid ∧ Configured host env arguments w loaded.1 := by
  refine proceeds_step ?_ ?_
  · rintro ⟨c, path⟩ w' hrun
    obtain ⟨hvalid, rfl⟩ := valid_of_load hr hrun
    exact ⟨rfl, hvalid, l, path, hparse, hrun⟩
  · intro e w' hrun
    obtain rfl : w = w' :=
      (CommandLine.onlyReads_load hr env l w).symm.trans (congrArg Prod.snd hrun)
    exact .configuration hparse hrun

theorem proceeds_tls (hr : host.Reads) {c : Config} (hc : c.Valid)
    (hmade : Made host env arguments w c w') :
    Proceeds (Ends host env arguments w)
      (step .creation .service (Tls.prepare host c.server.tls)) w' fun _ w₂ =>
        w' = w₂ ∧ (Tls.prepare host c.server.tls).run w' = (.ok (), w') := by
  refine proceeds_step ?_ ?_
  · intro _ w₂ hrun
    rcases Tls.prepare_cases hr hc.paired w' with hok | ⟨e, herror, -⟩
    · exact ⟨congrArg Prod.snd (hok.symm.trans hrun), hok⟩
    · cases herror.symm.trans hrun
  · intro e w₂ hrun
    rcases Tls.prepare_cases hr hc.paired w' with hok | ⟨e', herror, hfails⟩
    · cases hok.symm.trans hrun
    · cases herror.symm.trans hrun
      exact .tls hmade hfails

/-- The stages end the process in one of these ways, or it goes on until it is told to stop. -/
theorem proceeds_stages (hr : host.Reads) {l : CommandLine}
    (hparse : CommandLine.parse arguments = .ok l) :
    Proceeds (Ends host env arguments w) (stages host env l) w
      fun _ w' => Ends host env arguments w .stopped w' := by
  refine (proceeds_load hr hparse).bind ?_
  rintro ⟨c, path⟩ _ ⟨rfl, hvalid, hconfigured⟩
  dsimp only at hvalid hconfigured ⊢
  refine .bind (P := fun _ w₁ => w = w₁ ∧ Ready host env arguments w c)
    (proceeds_pureStep (fun _ h => ⟨rfl, hconfigured, h⟩) fun _ h => .logger hconfigured h) ?_
  rintro _ _ ⟨rfl, hready⟩
  refine .bind (P := fun _ w₁ => (host.createDirAll c.ledger.dataDir).run w = (.ok (), w₁))
    (proceeds_step (fun _ _ h => h) fun _ _ h => .dataDirectory hready h) ?_
  intro _ w₁ hdirectory
  -- From here on, what validation has looked for cannot fail.
  obtain ⟨a, hsettings⟩ := hvalid.exists_ofOrdering
  obtain ⟨address, haddress⟩ := hvalid.address
  refine (proceeds_pureStep_of_ok hsettings).bind ?_
  rintro sc _ ⟨rfl, rfl⟩
  refine .bind (P := fun sequencer w₂ => w₁ = w₂ ∧
      Made host env arguments w c w₁ ∧ ∃ sc, sequencer = .new sc)
    (proceeds_sequencer (fun h => ⟨rfl, ⟨hready, hdirectory, _, hsettings, h⟩, _, rfl⟩)
      fun h => .crashed hready hdirectory hsettings h) ?_
  rintro _ _ ⟨rfl, hmade, sc, rfl⟩
  refine (proceeds_pureStep_of_ok haddress).bind ?_
  rintro _ _ ⟨rfl, rfl⟩
  refine (proceeds_tls hr hvalid hmade).bind ?_
  rintro _ _ ⟨rfl, hsecured⟩
  refine .bind (P := fun _ w₂ => (host.serve _).run w₁ = (.ok (), w₂))
    (proceeds_step (fun _ _ h => h) fun _ _ h => .serving hmade hsecured haddress h) ?_
  intro _ w₂ hserved
  refine (proceeds_pureStep_of_ok (handle_shutdown_new sc 0)).bind ?_
  rintro _ _ ⟨rfl, -⟩
  exact .stopped hmade hsecured haddress hserved

/-- **There are no other ways in which the process ends.** -/
theorem ends_of_run (hr : host.Reads) (w : σ) :
    Ends host env arguments w ((run host env arguments).run w).1
      ((run host env arguments).run w).2 := by
  rw [run]
  cases hparse : CommandLine.parse arguments with
  | error e => exact .usage hparse
  | ok l =>
    have hstages : Proceeds (Ends host env arguments w) (stages host env l) w _ :=
      proceeds_stages hr hparse
    rw [Proceeds] at hstages
    dsimp only
    rw [StateT.run_bind]
    split at hstages
    next u w' hrun =>
      rw [hrun]
      exact hstages
    next outcome w' hrun =>
      rw [hrun]
      exact hstages

end Startup

end OrderingService
