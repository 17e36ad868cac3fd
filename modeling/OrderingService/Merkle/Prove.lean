import OrderingService.Merkle.Tree

/-!
# Issuing witnesses

A witness for the leaf at a position holds the digest of the sibling at each level. The level
`k` above the leaves of a tree of depth `d` has `2 ^ (d - k)` nodes, so the arena index of a
level's first node is the sum of the widths below it, and siblings differ in the last bit of their
position.

## Main definitions

* `MerkleTree.siblingIndices` — the arena indices of the siblings on the way up
* `MerkleTree.proveIndex` — the witness for a position
* `MerkleTree.prove` — the witness for the last leaf with a digest
-/

namespace OrderingService

namespace MerkleTree

/-- The arena indices of the siblings met when climbing `depth` levels from a position of a level
whose first node has arena index `start`. -/
def siblingIndices : (depth start position : Nat) → List Nat
  | 0, _, _ => []
  | depth + 1, start, position =>
    (start + (position ^^^ 1)) :: siblingIndices depth (start + 2 ^ (depth + 1)) (position / 2)

/-- The sibling digests on the way from the leaf at a position to the root. -/
def siblingPath (t : MerkleTree) (index : Nat) : List Bytes :=
  (siblingIndices t.depth 0 index).map t.hashAt

/-- The witness for the leaf at a position, padding leaves included. -/
def proveIndex (t : MerkleTree) (H : HashStrategy) (index : Nat) : Hashing Witness := do
  if t.leafCount ≤ index then throw (.leafIndexOutOfRange index t.leafCount)
  return {
    root := ← t.root H
    leaf := t.hashAt index
    path := t.siblingPath index
    leafIndex := index
    leafCount := t.leafCount }

/-- The position of the last leaf with a digest. -/
def lastLeaf? (t : MerkleTree) (digest : Bytes) : Option Nat :=
  (List.range t.leafCount).reverse.find? fun i => t.hashAt i == digest

/-- The witness for the last leaf with a digest. -/
def prove (t : MerkleTree) (H : HashStrategy) (leaf : Bytes) : Hashing Witness :=
  match t.lastLeaf? leaf with
  | some index => t.proveIndex H index
  | none => throw .leafNotFound

end MerkleTree

end OrderingService
