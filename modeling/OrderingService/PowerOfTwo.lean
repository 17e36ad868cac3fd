/-!
# Rounding up to a power of two

A tree has as many leaves as the least power of two that holds its batch, and the fan-out keeps as
many transactions as the least power of two that holds the number asked for.

## Main definitions

* `ceilLog2` — the least exponent of two that reaches a number
* `ceilPowerOfTwo` — the least power of two that is not below a number

## Implementation notes

A power is the one of the standard library here, also where algebra is imported, so `2 ^ n` means
the same in the program and in its theory.
-/

namespace OrderingService

attribute [instance (high), default_instance 20000] instPowNat

/-- The least exponent `k` with `n ≤ 2 ^ k`. -/
def ceilLog2 (n : Nat) : Nat := if n ≤ 1 then 0 else (n - 1).log2 + 1

/-- The least power of two that is not below `n`. -/
def ceilPowerOfTwo (n : Nat) : Nat := 2 ^ ceilLog2 n

/-- What makes `ceilLog2` the least exponent: it is below another one exactly when that one
reaches the number. -/
theorem ceilLog2_le_iff {n k : Nat} : ceilLog2 n ≤ k ↔ n ≤ 2 ^ k := by
  rw [ceilLog2]
  split
  next h => exact ⟨fun _ => Nat.le_trans h Nat.one_le_two_pow, fun _ => Nat.zero_le k⟩
  next h =>
    have hlog : (n - 1).log2 < k ↔ n - 1 < 2 ^ k := Nat.log2_lt (by omega)
    omega

theorem le_ceilPowerOfTwo (n : Nat) : n ≤ ceilPowerOfTwo n :=
  ceilLog2_le_iff.mp (Nat.le_refl _)

theorem ceilPowerOfTwo_le {n k : Nat} (h : n ≤ 2 ^ k) : ceilPowerOfTwo n ≤ 2 ^ k :=
  Nat.pow_le_pow_right (by omega) (ceilLog2_le_iff.mpr h)

/-- Numbers between another one and its power of two are rounded up to the same. -/
theorem ceilPowerOfTwo_eq_of_le {m n : Nat} (hmn : m ≤ n) (hn : n ≤ ceilPowerOfTwo m) :
    ceilPowerOfTwo n = ceilPowerOfTwo m :=
  Nat.le_antisymm (ceilPowerOfTwo_le hn)
    (ceilPowerOfTwo_le (Nat.le_trans hmn (le_ceilPowerOfTwo n)))

end OrderingService
