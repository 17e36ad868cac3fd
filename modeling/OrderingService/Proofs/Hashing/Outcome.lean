import OrderingService.Merkle.Witness

/-!
# How a hashing computation ends

A computation that asks a strategy ends with a value or with an error, and in either case at a
later history. The lemmas here take a computation apart at its binds, so that a fact about a whole
computation is proved from facts about its parts. Nothing is assumed of the strategy: any write may
be refused.

## Main results

* `Hashing.bind_eq_ok` — a sequence succeeds exactly when each part does, in turn
* `Hashing.outcome_eq_ok`, `Hashing.outcome_cases` — reading an outcome
-/

namespace OrderingService

namespace Hashing

variable {α β : Type} {x : Hashing α} {f : α → Hashing β} {h h' : History}

theorem bind_eq_ok {b : β} : (x >>= f) h = .ok b h' ↔ ∃ a m, x h = .ok a m ∧ f a m = .ok b h' := by
  show EStateM.bind x f h = _ ↔ _
  rw [EStateM.bind]
  cases x h with
  | ok a m =>
    simp only [EStateM.Result.ok.injEq]
    exact ⟨fun hf => ⟨a, m, ⟨rfl, rfl⟩, hf⟩, fun ⟨_, _, ⟨ha, hm⟩, hf⟩ => ha ▸ hm ▸ hf⟩
  | error e m => simp

theorem pure_eq_ok {a b : α} : (pure a : Hashing α) h = .ok b h' ↔ a = b ∧ h = h' := by
  show EStateM.pure a h = _ ↔ _
  simp [EStateM.pure]

theorem throw_ne_ok {e : MerkleError} {a : α} : (throw e : Hashing α) h ≠ .ok a h' := by
  show EStateM.Result.error e h ≠ _
  exact nofun

theorem outcome_eq_ok {a : α} : x.outcome h = (.ok a, h') ↔ x h = .ok a h' := by
  rw [outcome]
  cases x h with
  | ok b m => simp
  | error e m => simp

/-- An outcome is one or the other. -/
theorem outcome_cases (x : Hashing α) (h : History) :
    (∃ a m, x.outcome h = (.ok a, m) ∧ x h = .ok a m) ∨ ∃ e m, x.outcome h = (.error e, m) := by
  rw [outcome]
  cases x h with
  | ok a m => exact Or.inl ⟨a, m, rfl, rfl⟩
  | error e m => exact Or.inr ⟨e, m, rfl⟩

end Hashing

end OrderingService
