import OrderingService.Proofs.Startup.Stages

/-!
# What a sequencer sets aside

A sequencer sets memory aside before it takes its first call: room for a full batch, the places of
the mailbox, and those of the fan-out. Each of the three has a greatest size that can be asked for
at all, and asking for more ends the process. Validation refuses sizes of zero and no others, so a
configuration that it accepts may still be one with which no sequencer can be made. The three limits
are also all that validation misses: below them a sequencer is made of every valid configuration.

The room for a batch is set aside at once and not as the batch grows, so a batch size that is meant
as no limit at all is too large.

## Main definitions

* `OrderingConfig.Addressable` — sizes that can be asked for

## Main results

* `Startup.crashed_iff` — when a start crashes
* `Config.isSome_new?_iff` — the valid configurations of which a sequencer is made
* `Config.crashes_of_validate` — a valid configuration of which none is made
-/

namespace OrderingService

/-- Sizes that can be asked for: the open batch in bytes, the mailbox and the fan-out in places. -/
structure OrderingConfig.Addressable (c : OrderingConfig) : Prop where
  batch : c.maxBatchSize * SequencerConfig.transactionBytes ≤ 2 ^ 63 - 1
  mailbox : c.mailboxCapacity ≤ (2 ^ 64 - 1) / 2 ^ 3
  fanOut : c.subscriberBuffer ≤ (2 ^ 64 - 1) / 2 ^ 1

variable {σ : Type} {host : Host (StateM σ)} {env : Environment} {arguments : List Bytes}
  {w w' : σ} {c c' : Config}

/-- The lower bounds of a sequencer make no difference to what it asks for. -/
theorem addressable_iff {sc : SequencerConfig} (hc : c.Valid)
    (h : SequencerConfig.ofOrdering c.ordering = .ok sc) :
    sc.Addressable ↔ c.ordering.Addressable := by
  obtain ⟨a, hsettings⟩ := hc.exists_ofOrdering
  cases h.symm.trans hsettings
  rw [SequencerConfig.Addressable, Nat.max_eq_right hc.mailboxCapacity_pos,
    Nat.max_eq_right hc.subscriberBuffer_pos]
  exact ⟨fun ⟨hbatch, hmailbox, hfanOut⟩ => ⟨hbatch, hmailbox, hfanOut⟩,
    fun ⟨hbatch, hmailbox, hfanOut⟩ => ⟨hbatch, hmailbox, hfanOut⟩⟩

namespace Startup

/-- A start loads one configuration. -/
theorem Configured.unique (h : Configured host env arguments w c)
    (h' : Configured host env arguments w c') : c = c' := by
  obtain ⟨l, path, hparse, hload⟩ := h
  obtain ⟨l', path', hparse', hload'⟩ := h'
  cases hparse.symm.trans hparse'
  cases hload.symm.trans hload'
  rfl

/-- Once the data directory is made, the process crashes exactly when the sequencer asks for too
much. -/
theorem crashed_iff (hr : host.Reads) (hready : Ready host env arguments w c)
    (hdirectory : (host.createDirAll c.ledger.dataDir).run w = (.ok (), w')) :
    ((run host env arguments).run w).1 = .crashed ↔ ¬ c.ordering.Addressable := by
  obtain ⟨l, path, hparse, hload⟩ := hready.configured
  have hvalid := (valid_of_load hr hload).1
  have hends : Ends host env arguments w _ _ := ends_of_run hr w
  generalize ((run host env arguments).run w).1 = outcome at hends
  generalize ((run host env arguments).run w).2 = after at hends
  have hmade : ∀ {c₁ w₁}, Made host env arguments w c₁ w₁ → c.ordering.Addressable := by
    rintro c₁ w₁ ⟨ready, -, sc, hsettings, hsmall⟩
    obtain rfl := hready.configured.unique ready.configured
    exact (addressable_iff hvalid hsettings).mp hsmall
  cases hends with
  | usage failed => cases hparse.symm.trans failed
  | configuration parsed failed =>
    cases hparse.symm.trans parsed
    cases hload.symm.trans failed
  | logger configured failed =>
    obtain rfl := hready.configured.unique configured
    cases hready.logger.symm.trans failed
  | dataDirectory ready failed =>
    obtain rfl := hready.configured.unique ready.configured
    cases hdirectory.symm.trans failed
  | crashed ready directory settings large =>
    obtain rfl := hready.configured.unique ready.configured
    exact iff_of_true rfl fun h => large ((addressable_iff hvalid settings).mpr h)
  | tls made | serving made | stopped made => exact iff_of_false nofun (not_not_intro (hmade made))

end Startup

namespace Config

/-- **A sequencer is made of a valid configuration exactly when its sizes can be asked for.** A
start with it, when it gets that far, crashes exactly when they cannot. -/
theorem isSome_new?_iff (h : c.validate = .ok ()) :
    (∃ sc, SequencerConfig.ofOrdering c.ordering = .ok sc ∧
        ((Sequencer.new? sc).isSome ↔ c.ordering.Addressable)) ∧
      ∀ {σ : Type} {host : Host (StateM σ)} {env arguments} {w w' : σ}, host.Reads →
        Startup.Ready host env arguments w c →
        (host.createDirAll c.ledger.dataDir).run w = (.ok (), w') →
        (((Startup.run host env arguments).run w).1 = .crashed ↔ ¬ c.ordering.Addressable) := by
  have hvalid := validate_eq_ok_iff.mp h
  obtain ⟨a, hsettings⟩ := hvalid.exists_ofOrdering
  refine ⟨⟨_, hsettings, ?_⟩, fun hr hready hdirectory => Startup.crashed_iff hr hready hdirectory⟩
  rw [← addressable_iff hvalid hsettings, Sequencer.new?]
  split
  next hsmall => exact iff_of_true rfl hsmall
  next hlarge => exact iff_of_false nofun hlarge

/-- A batch size that is meant as no limit. -/
def boundless : Environment := fun name =>
  [("ORDERER_MAX_BATCH_SIZE", "18446744073709551615")].lookup name

/-- The arguments of a start on any free port. -/
def onAnyPort : List Bytes := ["--listen-address", "127.0.0.1:0"].map Bytes.ofText

/-- A sequencer is made of the defaults, and a start without a limit of batches crashes. -/
theorem isSome_new?_iff_boundless :
    (∃ sc, SequencerConfig.ofOrdering ({} : Config).ordering = .ok sc ∧
        (Sequencer.new? sc).isSome = true) ∧
      ((Startup.run Machine.host boundless onAnyPort).run {}).1 = .crashed := by
  constructor
  · obtain ⟨⟨sc, hsettings, hiff⟩, -⟩ := isSome_new?_iff (c := {}) rfl
    exact ⟨sc, hsettings, hiff.mpr ⟨by decide, by decide, by decide⟩⟩
  · have hload : (CommandLine.load Machine.host boundless
        { listenAddress := some "127.0.0.1:0" }).run {}
          = (.ok ({ server.listenAddress := "127.0.0.1:0"
                    ordering.maxBatchSize := 2 ^ 64 - 1 }, none), {}) := by rfl
    have hvalid := validate_eq_ok_iff.mpr (Startup.valid_of_load (Machine.reads_host {}) hload).1
    have hready : Startup.Ready Machine.host boundless onAnyPort {} _ :=
      ⟨⟨_, none, rfl, hload⟩, if_pos (by decide +kernel)⟩
    have hdirectory : (Machine.host.createDirAll (.ofText "data")).run {}
        = (.ok (), { files := ⟨.directory [(Bytes.ofText "data", .empty)]⟩ }) := by rfl
    refine ((isSome_new?_iff hvalid).2 (Machine.reads_host {}) hready hdirectory).mpr fun h => ?_
    exact absurd h.batch (by decide)

/-- The largest batch size that a variable can set is valid. No sequencer is made of it, however
little room a transaction takes, and a start with it crashes. -/
theorem crashes_of_validate :
    let c : Config := { ordering.maxBatchSize := 2 ^ 64 - 1 }
    c.validate = .ok () ∧ (∀ size, 0 < size → 2 ^ 63 - 1 < c.ordering.maxBatchSize * size) ∧
      (∃ sc, SequencerConfig.ofOrdering c.ordering = .ok sc ∧ Sequencer.new? sc = none) ∧
      ((Startup.run Machine.host boundless onAnyPort).run {}).1 = .crashed := by
  refine ⟨rfl, ?_, ⟨_, rfl, if_neg fun h => absurd h.1 (by decide)⟩, by decide +kernel⟩
  intro size hsize
  show 2 ^ 63 - 1 < (2 ^ 64 - 1) * size
  omega

end Config

end OrderingService
