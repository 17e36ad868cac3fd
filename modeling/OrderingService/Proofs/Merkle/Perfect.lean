import OrderingService.Proofs.Merkle.Construction
import OrderingService.Proofs.Merkle.Verification

/-!
# Perfect trees

What a tree looks like does not depend on how it came about. Whatever the strategy refuses, and
whatever its digests are, a tree that gets built has its leaves in front, its root at the end, and
the interior node number `j` over the nodes at `2 * j` and `2 * j + 1`. Nothing is said here about
the digests.

The shape alone is enough to answer every question that hashes nothing: the places that are read lie
inside the arena, and the root is one of them.

## Main definitions

* `MerkleTree.Perfect` — the shape of a tree that is built

## Main results

* `MerkleTree.grows_of_build` — a tree that is built is the one that its digests make
* `MerkleTree.Perfect.of_build` — every tree that is built is perfect
* `MerkleTree.Perfect.issues` — a perfect tree has a witness for each of its positions
-/

namespace OrderingService

namespace MerkleTree

open HashCall (hashingAll)

variable {H : HashStrategy} {h h' : History} {payloads : List Bytes} {t : MerkleTree}

/-- The shape of a tree that is built. -/
structure Perfect (t : MerkleTree) : Prop where
  leafCount_eq : t.leafCount = 2 ^ t.depth
  /-- There are as many interior nodes as leaves, less one. -/
  size_eq : t.nodes.size + 1 = 2 * t.leafCount
  /-- The leaves stand first. -/
  leaf : ∀ i < t.leafCount, t.nodes[i]? = some (.leaf (t.hashAt i))
  /-- The interior node number `j` is over the nodes at `2 * j` and `2 * j + 1`. -/
  interior : ∀ j, j + 1 < t.leafCount → t.nodes[t.leafCount + j]?
    = some ⟨t.hashAt (t.leafCount + j), some (2 * j, 2 * j + 1)⟩
  /-- The root stands last. -/
  rootIndex_eq : t.rootIndex = some (t.nodes.size - 1)

/-! ### Trees that are built -/

theorem hashAt_eq_of_getElem? {i : Nat} {node : Node} (hnode : t.nodes[i]? = some node) :
    t.hashAt i = node.hash := by simp [hashAt, hnode]

theorem perfect_ofDigests {leaves above : List Bytes} {depth : Nat}
    (hcount : leaves.length = 2 ^ depth) (hlen : above.length + 1 = leaves.length) :
    (ofDigests leaves above).Perfect where
  leafCount_eq := by
    show leaves.length = 2 ^ leaves.length.log2
    rw [hcount, Nat.log2_two_pow]
  size_eq := by
    rw [size_ofDigests]
    show _ = 2 * leaves.length
    omega
  leaf := fun i hi => by
    have hnode : (ofDigests leaves above).nodes[i]? = _ := getElem?_ofDigests_leaf hi
    rw [hashAt_eq_of_getElem? hnode]
    exact hnode
  interior := fun j hj => by
    have hj : j + 1 < leaves.length := hj
    have hnode : (ofDigests leaves above).nodes[leaves.length + j]? = _ :=
      getElem?_ofDigests_interior (show j < above.length by omega)
    show (ofDigests leaves above).nodes[leaves.length + j]? = some ⟨_, _⟩
    rw [show (ofDigests leaves above).leafCount = leaves.length from rfl,
      hashAt_eq_of_getElem? hnode]
    exact hnode
  rootIndex_eq := by
    rw [size_ofDigests]
    show some (2 * above.length) = _
    congr 1
    omega

/-- **A tree that is built is the one that its digests make.** -/
theorem grows_of_build (hb : build H payloads h = .ok t h') :
    ∃ leaves above, Grows H h (pad payloads) leaves above ∧ t = ofDigests leaves above := by
  by_cases hne : payloads = []
  · subst hne
    cases hb
  · obtain ⟨leaves, above, hg, hfollows⟩ := build_follows H hne h
    obtain ⟨rfl, -, -⟩ := hfollows.of_eq_ok hb
    exact ⟨leaves, above, hg, rfl⟩

theorem length_siblingIndices (depth start position : Nat) :
    (siblingIndices depth start position).length = depth := by
  induction depth generalizing start position with
  | zero => rfl
  | succ depth ih => simp [siblingIndices, ih]

namespace Perfect

variable {G : HashStrategy} {i : Nat}

/-- **Every tree that is built is perfect.** -/
theorem of_build (hb : build H payloads h = .ok t h') : t.Perfect := by
  obtain ⟨leaves, above, hg, rfl⟩ := grows_of_build hb
  exact perfect_ofDigests (hg.length_leaves.trans (length_pad payloads)) hg.length_above

/-! ### What is in a perfect tree -/

theorem leafCount_pos (ht : t.Perfect) : 0 < t.leafCount := by
  rw [ht.leafCount_eq]
  exact Nat.two_pow_pos t.depth

/-- The tree has a root node, and its digest is the root digest. -/
theorem exists_root (ht : t.Perfect) (G : HashStrategy) :
    ∃ node, t.rootNode? = some node ∧ t.root G = pure node.hash := by
  have hpos := ht.leafCount_pos
  have hsize := ht.size_eq
  have hlast : t.nodes.size - 1 < t.nodes.size := by omega
  refine ⟨t.nodes[t.nodes.size - 1], ?_, ?_⟩
  · simp [rootNode?, ht.rootIndex_eq, hlast]
  · simp [root, ht.rootIndex_eq, hashAt, hlast]

theorem length_leaves (ht : t.Perfect) : t.leaves.length = t.leafCount := by
  have hpos := ht.leafCount_pos
  have hsize := ht.size_eq
  simp [leaves]
  omega

theorem getElem?_leaves (ht : t.Perfect) (hi : i < t.leafCount) :
    t.leaves[i]? = some (.leaf (t.hashAt i)) := by
  rw [leaves, List.getElem?_take_of_lt hi, Array.getElem?_toList, ht.leaf i hi]

/-- The children of a node stand further in front. -/
theorem child_lt (ht : t.Perfect) {node : Node} {left right : Nat} (hnode : t.nodes[i]? = some node)
    (hchildren : node.children = some (left, right)) : left < i ∧ right < i := by
  have hsize := ht.size_eq
  have hin : i < t.nodes.size := (Array.getElem?_eq_some_iff.mp hnode).1
  rcases Nat.lt_or_ge i t.leafCount with hlt | hge
  · rw [ht.leaf i hlt] at hnode
    cases hnode
    cases hchildren
  · obtain ⟨j, rfl⟩ : ∃ j, i = t.leafCount + j := ⟨i - t.leafCount, by omega⟩
    rw [ht.interior j (by omega)] at hnode
    cases hnode
    cases hchildren
    omega

/-- **A perfect tree has a witness for each of its positions**, and asks nothing for it. -/
theorem issues (ht : t.Perfect) (G : HashStrategy) (hi : i < t.leafCount) :
    t.Issues G i ⟨t.hashAt (t.nodes.size - 1), t.hashAt i, t.siblingPath i, i, t.leafCount⟩ := by
  have hsize := ht.size_eq
  have hroot : t.root G = pure (t.hashAt (t.nodes.size - 1)) := by simp [root, ht.rootIndex_eq]
  have hdepth : 2 ^ (t.depth + 1) = 2 * t.leafCount := by rw [Nat.pow_succ', ← ht.leafCount_eq]
  exact {
    issued := fun g => by
      rw [proveIndex, if_neg (Nat.not_le.mpr hi), hroot]
      rfl
    root_eq := fun g => by
      rw [hroot]
      rfl
    leaf_lt_size := by omega
    root_lt_size := fun r hr => by
      rw [ht.rootIndex_eq, Option.some.injEq] at hr
      omega
    sibling_lt_size := fun p hp => by
      have hlt := lt_of_mem_siblingIndices (by rwa [← ht.leafCount_eq]) hp
      omega
    length_path := by rw [siblingPath, List.length_map, length_siblingIndices]
    leafIndex_eq := rfl
    leafCount_eq := rfl }

end Perfect

end MerkleTree

end OrderingService
