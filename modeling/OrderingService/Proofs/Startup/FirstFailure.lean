import OrderingService.Proofs.Startup.Stages

/-!
# Starting in order

What a failed start leaves behind depends on the stage that failed. Before the data directory is
made the machine is only looked at, so whoever is told that the arguments, the configuration or the
log are wrong finds everything as it was. After that, nothing fails that has been checked:
validation looks for what the sequencer, the listen address and the key pair need, and the lower
bounds that the sequencer puts on its settings are not above what validation lets through. What can
still go wrong in the making of the service lies outside the configuration.

## Main definitions

* `Config.Usable` — what the later stages make of a configuration
* `Startup.InOrder` — the promise of a start

## Main results

* `Config.Valid.usable` — a valid configuration can be used by all later stages
* `Startup.run_inOrder` — the promise holds for every command line, environment and machine
-/

namespace OrderingService

variable {σ : Type} {host : Host (StateM σ)} {env : Environment} {arguments : List Bytes}
  {w w' : σ} {c : Config}

/-- What the later stages make of a configuration. -/
structure Config.Usable (c : Config) : Prop where
  /-- There are settings of a sequencer, and a lower bound of one changes none of them. -/
  settings : ∃ sc, SequencerConfig.ofOrdering c.ordering = .ok sc ∧
    (Sequencer.new sc).batchLimit = c.ordering.maxBatchSize ∧
    (Sequencer.new sc).kept = ceilPowerOfTwo c.ordering.subscriberBuffer ∧
    max 1 sc.subscriberBuffer = c.ordering.subscriberBuffer ∧
    max 1 sc.mailboxCapacity = c.ordering.mailboxCapacity
  address : ∃ address, c.server.socketAddress = .ok address
  /-- Half a key pair is never found, on whatever machine. -/
  paired : ∀ {σ : Type} {host : Host (StateM σ)}, host.Reads → ∀ w,
    ((Tls.load host c.server.tls).run w).1 ≠ .error (.config TlsConfig.unpairedText)

/-- A file that cannot be read is told apart from half a key pair. -/
theorem Tls.readText_ne_unpairedText (path message : String) :
    "Failed to read " ++ path ++ ": " ++ message ≠ TlsConfig.unpairedText := by
  intro h
  have hhead := congrArg (fun text => text.toList.head?) h
  simp [TlsConfig.unpairedText] at hhead

/-- **A valid configuration can be used by all later stages.** -/
theorem Config.Valid.usable (hc : c.Valid) : c.Usable where
  settings := by
    obtain ⟨a, hsettings⟩ := hc.exists_ofOrdering
    have hbuffer : max 1 c.ordering.subscriberBuffer = c.ordering.subscriberBuffer :=
      Nat.max_eq_right hc.subscriberBuffer_pos
    exact ⟨_, hsettings, Nat.max_eq_right hc.maxBatchSize_pos, congrArg ceilPowerOfTwo hbuffer,
      hbuffer, Nat.max_eq_right hc.mailboxCapacity_pos⟩
  address := hc.address
  paired := by
    intro σ host hr w
    rcases Tls.load_cases hr hc.paired w with hload | ⟨cert, key, hload, -⟩ | ⟨path, e, hload, -⟩
    · rw [hload]
      nofun
    · rw [hload]
      nofun
    · rw [hload]
      intro h
      injection h with h
      injection h with h
      exact Tls.readText_ne_unpairedText path.display e.message h

namespace Startup

/-- The promise of a start that ended with an outcome and left a machine. -/
structure InOrder (host : Host (StateM σ)) (env : Environment) (arguments : List Bytes) (w : σ)
    (outcome : Outcome) (w' : σ) : Prop where
  /-- The stage that ends the process is the first one that fails. -/
  first : Ends host env arguments w outcome w'
  /-- Whoever is told of wrong arguments, a wrong configuration or a wrong log finds the machine as
  it was. -/
  unchanged : outcome.exitCode ∈ [2, 3, 4] → w' = w
  /-- Nothing is done to the machine before the configuration and the log are ready. Then the data
  directory is made, and then there is only listening. -/
  directory : w' = w ∨ ∃ c made w₁, Ready host env arguments w c ∧
    (host.createDirAll c.ledger.dataDir).run w = (made, w₁) ∧
      (w' = w₁ ∨ ∃ address served, (host.serve address).run w₁ = (served, w'))
  /-- Whatever was loaded can be used by all later stages. -/
  usable : ∀ {l : CommandLine} {c path w₁}, (l.load host env).run w = (.ok (c, path), w₁) → c.Usable
  /-- When the making of the service fails, it is because of the data directory or the key pair. -/
  creation : outcome.exitCode = 6 → ∃ c, Ready host env arguments w c ∧
    ((∃ e, (host.createDirAll c.ledger.dataDir).run w = (.error e, w') ∧
        outcome = .failed ⟨.creation, .dataDirectory c.ledger.dataDir e⟩) ∨
      ∃ e, (host.createDirAll c.ledger.dataDir).run w = (.ok (), w') ∧
        Tls.Fails host w' c.server.tls e ∧ outcome = .failed ⟨.creation, .service e⟩)

variable {outcome : Outcome}

theorem Ends.eq_of_exitCode (h : Ends host env arguments w outcome w')
    (hcode : outcome.exitCode ∈ [2, 3, 4]) : w' = w := by
  cases h with
  | usage | configuration | logger => rfl
  | _ => simp [Outcome.exitCode, Stage.code] at hcode

theorem Ends.directory (h : Ends host env arguments w outcome w') :
    w' = w ∨ ∃ c made w₁, Ready host env arguments w c ∧
      (host.createDirAll c.ledger.dataDir).run w = (made, w₁) ∧
        (w' = w₁ ∨ ∃ address served, (host.serve address).run w₁ = (served, w')) := by
  cases h with
  | usage | configuration | logger => exact Or.inl rfl
  | dataDirectory ready failed => exact Or.inr ⟨_, _, _, ready, failed, Or.inl rfl⟩
  | crashed ready directory => exact Or.inr ⟨_, _, _, ready, directory, Or.inl rfl⟩
  | tls made => exact Or.inr ⟨_, _, _, made.ready, made.directory, Or.inl rfl⟩
  | serving made secured read failed =>
    exact Or.inr ⟨_, _, _, made.ready, made.directory, Or.inr ⟨_, _, failed⟩⟩
  | stopped made secured read served =>
    exact Or.inr ⟨_, _, _, made.ready, made.directory, Or.inr ⟨_, _, served⟩⟩

theorem Ends.creation (h : Ends host env arguments w outcome w') (hcode : outcome.exitCode = 6) :
    ∃ c, Ready host env arguments w c ∧
      ((∃ e, (host.createDirAll c.ledger.dataDir).run w = (.error e, w') ∧
          outcome = .failed ⟨.creation, .dataDirectory c.ledger.dataDir e⟩) ∨
        ∃ e, (host.createDirAll c.ledger.dataDir).run w = (.ok (), w') ∧
          Tls.Fails host w' c.server.tls e ∧ outcome = .failed ⟨.creation, .service e⟩) := by
  cases h with
  | @usage e failed => cases e <;> cases hcode
  | dataDirectory ready failed => exact ⟨_, ready, Or.inl ⟨_, failed, rfl⟩⟩
  | tls made failed => exact ⟨_, made.ready, Or.inr ⟨_, made.directory, failed, rfl⟩⟩
  | _ => cases hcode

/-- **The service starts in order:** for every command line, environment and machine, and whatever
reading, making a directory, making an identity and listening come to. -/
theorem run_inOrder (hr : host.Reads) (env : Environment) (arguments : List Bytes) (w : σ) :
    InOrder host env arguments w ((run host env arguments).run w).1
      ((run host env arguments).run w).2 := by
  have hends : Ends host env arguments w _ _ := ends_of_run hr w
  exact {
    first := hends
    unchanged := hends.eq_of_exitCode
    directory := hends.directory
    usable := fun hload => (valid_of_load hr hload).1.usable
    creation := hends.creation }

/-- A machine with a certificate and no key. -/
def keyless : Machine := { files := ({} : FileTree).writeFile (.ofText "cert.pem") [45] }

/-- The missing key is noticed after the data directory is made, and a wrong log before. -/
theorem run_inOrder_keyless :
    let pair :=
      ["--tls-cert-file", "cert.pem", "--tls-private-key-file", "key.pem"].map Bytes.ofText
    let wrong := Bytes.ofText "--log-level=a=b" :: pair
    ∃ outcome after, (run Machine.host (fun _ => none) pair).run keyless = (outcome, after) ∧
      InOrder Machine.host (fun _ => none) pair keyless outcome after ∧
      outcome = .failed ⟨.creation, .service
        (.config "Failed to read key.pem: No such file or directory (os error 2)")⟩ ∧
      after.files.isDir (.ofText "data") = true ∧
      ∃ outcome, (run Machine.host (fun _ => none) wrong).run keyless = (outcome, keyless) ∧
        InOrder Machine.host (fun _ => none) wrong keyless outcome keyless ∧
        outcome.exitCode = 4 := by
  intro pair wrong
  have hpair := run_inOrder (Machine.reads_host {}) (fun _ => none) pair keyless
  have hlog := run_inOrder (Machine.reads_host {}) (fun _ => none) wrong keyless
  have hcode : ((run Machine.host (fun _ => none) wrong).run keyless).1.exitCode = 4 := by
    decide +kernel
  have hafter := hlog.unchanged (by rw [hcode]; decide)
  rw [hafter] at hlog
  exact ⟨_, _, rfl, hpair, by decide +kernel, by decide +kernel,
    _, Prod.ext rfl hafter, hlog, hcode⟩

end Startup

end OrderingService
