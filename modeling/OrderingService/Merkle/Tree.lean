import OrderingService.Merkle.Witness
import OrderingService.PowerOfTwo

/-!
# Merkle trees over ordered batches

A tree is perfectly balanced: the payloads are padded with empty payloads to a power of two. Its
nodes lie level by level in one arena, the leaves first and the root last, and an interior node
names its children by their arena indices. A tree is never changed once built.

The empty tree has no nodes. Its root digest is the untagged digest of the empty byte string.

## Main definitions

* `MerkleTree.Node`, `MerkleTree` — the arena
* `MerkleTree.pad` — the payloads of a tree, padding included
* `MerkleTree.build` — the tree of a non-empty batch
* `MerkleTree.root`, `MerkleTree.verifyIntegrity` — the queries that may ask the strategy

## Implementation notes

The builder works on the list of digests of one level at a time and recurses on the depth, so no
arena index is read while the arena grows. A level with an odd number of nodes stops it; no level
of a padded batch has one.
-/

namespace OrderingService

/-- A node of a tree: its digest, and the arena indices of its two children unless it is a
leaf. -/
structure MerkleTree.Node where
  /-- The tagged digest. -/
  hash : Bytes
  /-- The arena indices of the children. -/
  children : Option (Nat × Nat)
  deriving DecidableEq, Repr

/-- A Merkle tree. -/
structure MerkleTree where
  /-- The nodes level by level, leaves first. -/
  nodes : Array MerkleTree.Node
  /-- The number of leaves, padding included. -/
  leafCount : Nat
  /-- The arena index of the root, if the tree has one. -/
  rootIndex : Option Nat
  deriving DecidableEq, Repr

namespace MerkleTree

namespace Node

/-- A leaf with a digest. -/
def leaf (hash : Bytes) : Node := ⟨hash, none⟩

/-- Whether a node has no children. -/
def isLeaf (n : Node) : Bool := n.children.isNone

end Node

/-! ### Building -/

/-- A batch with empty payloads added up to the next power of two. -/
def pad (payloads : List Bytes) : List Bytes :=
  payloads ++ List.replicate (ceilPowerOfTwo payloads.length - payloads.length) []

/-- The leaf digests of payloads, in order. -/
def leafHashes (H : HashStrategy) : List Bytes → Hashing (List Bytes)
  | [] => return []
  | payload :: rest => do
    let digest ← H.leafHash payload
    return digest :: (← leafHashes H rest)

/-- The parents of a level whose first node has arena index `start`: each pair of neighbours gets
one. -/
def parents (H : HashStrategy) (start : Nat) : List Bytes → Hashing (List Node)
  | left :: right :: rest => do
    let digest ← H.interiorHash left right
    return ⟨digest, some (start, start + 1)⟩ :: (← parents H (start + 2) rest)
  | _ => return []

/-- The nodes of `depth` levels above one with these digests, whose first node has arena index
`start` and which is level number `level` above the leaves; and the arena index of the first node
of the topmost of these levels. -/
def levelsAbove (H : HashStrategy) :
    (depth start level : Nat) → List Bytes → Hashing (List Node × Nat)
  | 0, start, _, _ => return ([], start)
  | depth + 1, start, level, digests => do
    if digests.length % 2 ≠ 0 then
      throw (.structuralViolation level digests.length)
    let row ← parents H start digests
    let above ← levelsAbove H depth (start + digests.length) (level + 1) (row.map Node.hash)
    return (row ++ above.1, above.2)

/-- The tree of a non-empty batch. All leaves are hashed first, then the interior nodes level by
level, from left to right; the topmost level starts with the root. -/
def build (H : HashStrategy) (payloads : List Bytes) : Hashing MerkleTree := do
  if payloads.isEmpty then throw .emptyLeaves
  let leaves ← leafHashes H (pad payloads)
  let interior ← levelsAbove H leaves.length.log2 0 0 leaves
  return ⟨(leaves.map Node.leaf ++ interior.1).toArray, leaves.length, some interior.2⟩

/-- The tree without leaves. -/
def empty : MerkleTree := ⟨#[], 0, none⟩

/-! ### Queries -/

/-- The digest of a node by arena index; empty outside the arena. -/
def hashAt (t : MerkleTree) (index : Nat) : Bytes :=
  (t.nodes[index]?.map Node.hash).getD []

/-- The leaves in order, padding included. -/
def leaves (t : MerkleTree) : List Node := t.nodes.toList.take t.leafCount

/-- The distance from any leaf to the root. -/
def depth (t : MerkleTree) : Nat := t.leafCount.log2

/-- Whether the tree has no leaves. -/
def isEmpty (t : MerkleTree) : Bool := t.leafCount == 0

/-- The root node, if there is one. -/
def rootNode? (t : MerkleTree) : Option Node := t.rootIndex.bind fun i => t.nodes[i]?

/-- The root digest. Only the empty tree asks the strategy for it. -/
def root (t : MerkleTree) (H : HashStrategy) : Hashing Bytes :=
  match t.rootIndex with
  | some index => return t.hashAt index
  | none => H.hash []

/-- Whether each interior digest among these nodes of the tree is that of its children, up to the
first that is not. -/
def verifyNodes (t : MerkleTree) (H : HashStrategy) : List Node → Hashing Bool
  | [] => return true
  | node :: rest =>
    match node.children with
    | none => t.verifyNodes H rest
    | some (left, right) => do
      let digest ← H.interiorHash (t.hashAt left) (t.hashAt right)
      if digest == node.hash then t.verifyNodes H rest else return false

/-- Whether every interior digest is that of its children, recomputed in arena order. -/
def verifyIntegrity (t : MerkleTree) (H : HashStrategy) : Hashing Bool :=
  t.verifyNodes H t.nodes.toList

end MerkleTree

end OrderingService
