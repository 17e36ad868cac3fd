import OrderingService.Merkle.Tree

/-!
# Pictures of a tree

The short form is the hexadecimal root digest. The long form has one line per node, in pre-order
from the root, drawn with branches:

```
root: 01f068c7...
 ├─ node: 014b2aab...
 │   ├─ leaf: 003df262...
 │   └─ leaf: 00b7686a...
 └─ node: 01c74baf...
     ├─ leaf: 000ec29b...
     └─ leaf: 00e3b0c4...
```

## Main definitions

* `MerkleTree.dumpBelow` — the lines of a subtree below the root
* `MerkleTree.dump`, `MerkleTree.display` — the long and the short form
-/

namespace OrderingService

namespace MerkleTree

/-- The branch of a child's own line: a corner for a right child, a tee for a left one. -/
def branch (isRight : Bool) : String := if isRight then " └─" else " ├─"

/-- What a child leaves before the lines of its descendants: blank for a right child, a bar for a
left one. -/
def trunk (isRight : Bool) : String := if isRight then "    " else " │  "

/-- The label of a node below the root. -/
def Node.kind (n : Node) : String := if n.isLeaf then "leaf" else "node"

/-- The lines of the subtree at an arena index, `depth` levels deep at most, in pre-order. Each
starts with `margin`. -/
def dumpBelow (t : MerkleTree) : (depth index : Nat) → (margin : String) → (isRight : Bool) →
    List String
  | depth, index, margin, isRight =>
    match t.nodes[index]? with
    | none => []
    | some node =>
      (margin ++ branch isRight ++ " " ++ node.kind ++ ": " ++ node.hash.toHex) ::
        match depth, node.children with
        | depth + 1, some (left, right) =>
          t.dumpBelow depth left (margin ++ trunk isRight) false ++
            t.dumpBelow depth right (margin ++ trunk isRight) true
        | _, _ => []

/-- The lines of the picture of a tree with a root. -/
def dumpLines (t : MerkleTree) (root : Node) : List String :=
  ("root: " ++ root.hash.toHex) ::
    match root.children with
    | some (left, right) => t.dumpBelow t.depth left "" false ++ t.dumpBelow t.depth right "" true
    | none => []

/-- The long form, each line ended. -/
def dump (t : MerkleTree) (H : HashStrategy) : Hashing String :=
  match t.rootNode? with
  | some node => return String.join ((t.dumpLines node).map (· ++ "\n"))
  | none => return "empty: " ++ (← t.root H).toHex ++ "\n"

/-- The short form, or the long one if `alternate`. -/
def display (t : MerkleTree) (H : HashStrategy) (alternate : Bool) : Hashing String :=
  if alternate then t.dump H else return (← t.root H).toHex

end MerkleTree

end OrderingService
