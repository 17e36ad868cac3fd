import OrderingService.Bytes
import OrderingService.PowerOfTwo

/-!
# Variable-length numbers

A number is written in groups of seven bits, lowest group first; the top bit of a byte says that
another one follows. A reader takes at most ten bytes and only numbers below `2 ^ 64`.

## Main definitions

* `Varint.encode`, `Varint.decode?`

## Main statements

* `Varint.decode?_encode_append` — reading gives back what was written, and what follows it
-/

namespace OrderingService

namespace Varint

/-- The bytes of a number, in as few as possible. -/
def encode (n : Nat) : Bytes :=
  if n < 128 then [UInt8.ofNat n] else UInt8.ofNat (n % 128 + 128) :: encode (n / 128)

/-- The number at the start of some bytes, in at most `room` groups, and what follows it. -/
def groups? : (room : Nat) → Bytes → Option (Nat × Bytes)
  | 0, _ => none
  | _, [] => none
  | room + 1, b :: rest =>
    if b < 128 then some (b.toNat, rest)
    else (groups? room rest).map fun r => (b.toNat % 128 + 128 * r.1, r.2)

/-- The number at the start of some bytes, and what follows it. -/
def decode? (bs : Bytes) : Option (Nat × Bytes) :=
  (groups? 10 bs).filter fun r => r.1 < 2 ^ 64

theorem groups?_encode_append (room n : Nat) (rest : Bytes) (h : n < 128 ^ (room + 1)) :
    groups? (room + 1) (encode n ++ rest) = some (n, rest) := by
  induction room generalizing n with
  | zero =>
    have small : n < 128 := by simpa using h
    have : UInt8.ofNat n < 128 := by rw [UInt8.lt_iff_toNat_lt]; simp; omega
    rw [encode, if_pos small]
    simp [groups?, this]; omega
  | succ room ih =>
    rw [encode]
    split
    · have : UInt8.ofNat n < 128 := by rw [UInt8.lt_iff_toNat_lt]; simp; omega
      simp [groups?, this]; omega
    · have : ¬ UInt8.ofNat (n % 128 + 128) < 128 := by rw [UInt8.lt_iff_toNat_lt]; simp; omega
      have bound : n / 128 < 128 ^ (room + 1) := by
        rw [Nat.div_lt_iff_lt_mul (by decide)]; rwa [Nat.pow_succ] at h
      rw [List.cons_append, groups?, if_neg this, ih _ bound]
      simp; omega

/-- Reading gives back what was written, and what follows it. -/
theorem decode?_encode_append (n : Nat) (rest : Bytes) (h : n < 2 ^ 64) :
    decode? (encode n ++ rest) = some (n, rest) := by
  have bound : n < 128 ^ 10 := by omega
  rw [decode?, groups?_encode_append 9 n rest bound]
  exact if_pos (decide_eq_true h)

end Varint

end OrderingService
