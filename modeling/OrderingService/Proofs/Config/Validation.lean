import OrderingService.Sequencer.Basic

/-!
# What validation establishes

A configuration that passes validation has a listen address and a hash algorithm that can be read,
and none of its limits is zero. The settings of a sequencer are read from it without an error, and
its strategy is that of a built-in algorithm.

## Main definitions

* `Config.Valid` — what the checks look for

## Main results

* `Config.validate_eq_ok_iff` — the checks look for this, and for nothing else
* `Config.Valid.exists_ofOrdering` — the settings of a sequencer
-/

namespace OrderingService

namespace Config

/-- What the checks on a configuration look for. -/
structure Valid (c : Config) : Prop where
  address : ∃ address, c.server.socketAddress = .ok address
  algorithm : ∃ H, c.ordering.hashStrategy = .ok H
  maxBatchSize_pos : 0 < c.ordering.maxBatchSize
  batchTimeoutMs_pos : 0 < c.ordering.batchTimeoutMs
  mailboxCapacity_pos : 0 < c.ordering.mailboxCapacity
  subscriberBuffer_pos : 0 < c.ordering.subscriberBuffer
  paired : c.server.tls.certFile.isSome = c.server.tls.keyFile.isSome

variable {c : Config}

/-- A check that stands before the `rest`. -/
theorem check_eq_ok_iff {p : Prop} [Decidable p] {e : ServiceError}
    {rest : Unit → Except ServiceError Unit} :
    (if p then (do let r ← throw e; rest r) else rest ()) = .ok () ↔ ¬ p ∧ rest () = .ok () := by
  by_cases hp : p
  · rw [if_pos hp]
    exact ⟨nofun, fun h => absurd hp h.1⟩
  · rw [if_neg hp]
    exact ⟨fun h => ⟨hp, h⟩, fun h => h.2⟩

theorem last_check_eq_ok_iff {p : Prop} [Decidable p] {e : ServiceError} :
    (if p then throw e else pure () : Except ServiceError Unit) = .ok () ↔ ¬ p := by
  by_cases hp : p
  · rw [if_pos hp]
    exact ⟨nofun, fun h => absurd hp h⟩
  · rw [if_neg hp]
    exact ⟨fun _ => hp, fun _ => rfl⟩

/-- A value that is read before the `rest`. -/
theorem read_eq_ok_iff {α : Type} {read : Except ServiceError α}
    {rest : α → Except ServiceError Unit} :
    (do let a ← read; rest a) = .ok () ↔ ∃ a, read = .ok a ∧ rest a = .ok () := by
  cases read with
  | error e => exact ⟨nofun, nofun⟩
  | ok a => exact ⟨fun h => ⟨a, rfl, h⟩, fun ⟨_, heq, h⟩ => by cases heq; exact h⟩

/-- **A configuration is accepted exactly when the checks find what they look for.** -/
theorem validate_eq_ok_iff : c.validate = .ok () ↔ c.Valid := by
  simp only [validate, read_eq_ok_iff, check_eq_ok_iff, last_check_eq_ok_iff, not_or, ne_eq,
    Decidable.not_not, ← Nat.pos_iff_ne_zero]
  constructor
  · rintro ⟨address, haddress, H, hH, hbatch, htimeout, ⟨hmailbox, hbuffer⟩, hpaired⟩
    exact ⟨⟨address, haddress⟩, ⟨H, hH⟩, hbatch, htimeout, hmailbox, hbuffer, hpaired⟩
  · rintro ⟨⟨address, haddress⟩, ⟨H, hH⟩, hbatch, htimeout, hmailbox, hbuffer, hpaired⟩
    exact ⟨address, haddress, H, hH, hbatch, htimeout, ⟨hmailbox, hbuffer⟩, hpaired⟩

/-- **The settings of a sequencer are those of the configuration,** and its strategy is that of a
built-in algorithm. -/
theorem Valid.exists_ofOrdering (hc : c.Valid) :
    ∃ a : Algorithm, SequencerConfig.ofOrdering c.ordering = .ok
      { maxBatchSize := c.ordering.maxBatchSize
        batchTimeoutMs := c.ordering.batchTimeoutMs
        mailboxCapacity := c.ordering.mailboxCapacity
        subscriberBuffer := c.ordering.subscriberBuffer
        strategy := .ofAlgorithm a } := by
  obtain ⟨H, hH⟩ := hc.algorithm
  have hname := hH
  rw [OrderingConfig.hashStrategy, HashStrategy.ofName] at hname
  split at hname
  next a _ =>
    cases hname
    exact ⟨a, by rw [SequencerConfig.ofOrdering, hH]; rfl⟩
  next => cases hname

end Config

end OrderingService
