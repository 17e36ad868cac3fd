import OrderingService.Hashing.Strategy
import OrderingService.PowerOfTwo

/-!
# Inclusion witnesses

A witness lists the sibling digest at each level above a leaf, leaf level first. Bit `k` of the
leaf's position says on which side the running digest stands at level `k`. Checking a witness
climbs from the leaf to the root with these siblings; it never fails, a malformed witness or a
refused write is answered `false`.

## Main definitions

* `Witness` — root, leaf, siblings, position and padded leaf count
* `Witness.WellFormed` — the shape that is checked before anything is hashed
* `HashStrategy.climb` — from a leaf digest to a root digest
* `Witness.verify`, `Witness.verifyPayload`
-/

namespace OrderingService

/-- Run a hashing computation at a history: what came of it, and the history after. -/
def Hashing.outcome {α : Type} (x : Hashing α) (h : History) : Except MerkleError α × History :=
  match x h with
  | .ok a h' => (.ok a, h')
  | .error e h' => (.error e, h')

/-- The proof that a leaf digest is committed to by a root. -/
structure Witness where
  /-- The root digest. -/
  root : Bytes
  /-- The digest of the proven leaf. -/
  leaf : Bytes
  /-- The sibling digests, leaf level first. -/
  path : List Bytes
  /-- The position of the leaf among the padded leaves. -/
  leafIndex : Nat
  /-- The number of padded leaves. -/
  leafCount : Nat
  deriving DecidableEq, Repr

namespace HashStrategy

/-- Climb from a digest at a position along sibling digests. -/
def climb (H : HashStrategy) : List Bytes → Nat → Bytes → Hashing Bytes
  | [], _, digest => return digest
  | sibling :: path, position, digest => do
    let parent ←
      if position % 2 = 0 then H.interiorHash digest sibling
      else H.interiorHash sibling digest
    H.climb path (position / 2) parent

end HashStrategy

namespace Witness

/-- The root is not empty, the leaf count is a power of two above the position, and there is one
sibling per level. -/
def WellFormed (w : Witness) : Prop :=
  w.root ≠ [] ∧ w.leafCount = 2 ^ w.leafCount.log2 ∧ w.leafIndex < w.leafCount ∧
    w.path.length = w.leafCount.log2

instance (w : Witness) : Decidable w.WellFormed :=
  inferInstanceAs (Decidable (_ ∧ _ ∧ _ ∧ _))

/-- Whether the witness leads from its leaf to its own root. -/
def verify (w : Witness) (H : HashStrategy) (h : History) : Bool × History :=
  if w.WellFormed then
    match (H.climb w.path w.leafIndex w.leaf).outcome h with
    | (.ok digest, h') => (digest == w.root, h')
    | (.error _, h') => (false, h')
  else (false, h)

/-- Whether `payload` is the proven leaf and the witness verifies. The payload is hashed first. -/
def verifyPayload (w : Witness) (payload : Bytes) (H : HashStrategy) (h : History) :
    Bool × History :=
  match (H.leafHash payload).outcome h with
  | (.ok leaf, h') => if leaf == w.leaf then w.verify H h' else (false, h')
  | (.error _, h') => (false, h')

end Witness

end OrderingService
