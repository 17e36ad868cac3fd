import OrderingService.Hashing.Algorithm
import OrderingService.Proofs.Merkle.Verification

/-!
# What a leaf digest proves

A witness can be checked without its payload, and then the leaf digest is whatever the witness says
it is. A check compares where the climb ends with the root and asks nothing of the digests on the
way. So an interior digest passes as the leaf of a smaller tree, and a leaf digest and its sibling,
which are hashed joined, may be cut at another place.

These are the only liberties. A leaf digest that is as long as a tagged digest is that of a node of
the tree, on the level that the leaf count gives; and if its tag is that of a leaf too, then the
witness is the one that the tree gives for the position.

## Main results

* `MerkleTree.hashAt_arena_node` — where the digests of a level stand in the arena
* `MerkleTree.exists_node_of_climbed` — a leaf digest of the right width is one of a node
* `MerkleTree.build_issues_of_verify` — with the tag of a leaf it is one of a leaf
* `MerkleTree.verify_of_shortened_or_shifted` — the width and the tag are both needed
-/

namespace OrderingService

namespace MerkleTree

open HashStrategy (leafTag interiorTag)

variable {f : Bytes → Bytes} {H : HashStrategy} {padded : List Bytes}

/-! ### Nodes of the arena -/

/-- Below the level on which `2 ^ d` nodes stand lie twice as many nodes as it has fewer than the
leaf level. -/
theorem getElem?_levels {height d j k l : Nat} (hk : k + d = height) (hj : j < 2 ^ d) :
    (levels f padded height l)[2 * (2 ^ height - 2 ^ d) + j]?
      = some (digestAt f padded (l + k) j) := by
  induction k generalizing height l with
  | zero =>
    obtain rfl : d = height := by omega
    rw [Nat.sub_self, Nat.mul_zero, Nat.zero_add, Nat.add_zero]
    cases d with
    | zero => exact getElem?_row hj l
    | succ d =>
      rw [levels, List.getElem?_append_left (by rwa [length_row])]
      exact getElem?_row hj l
  | succ k ih =>
    obtain ⟨height, rfl⟩ : ∃ m, height = m + 1 := ⟨k + d, by omega⟩
    have hle : 2 ^ d ≤ 2 ^ height := Nat.pow_le_pow_right (by decide) (by omega)
    have hindex : 2 * (2 ^ (height + 1) - 2 ^ d) + j
        = 2 ^ (height + 1) + (2 * (2 ^ height - 2 ^ d) + j) := by
      rw [Nat.pow_succ]
      omega
    rw [levels, List.getElem?_append_right (by rw [length_row]; omega), length_row, hindex,
      Nat.add_sub_cancel_left, ih (by omega), ← Nat.add_assoc, Nat.add_right_comm l k 1]

/-- Each digest of a tree stands in its arena. -/
theorem hashAt_arena_node {height d j k : Nat} (hk : k + d = height) (hj : j < 2 ^ d) :
    (arena f padded height).hashAt (2 * (2 ^ height - 2 ^ d) + j) = digestAt f padded k j := by
  rw [hashAt_arena, List.getD_eq_getElem?_getD, getElem?_levels hk hj, Nat.zero_add,
    Option.getD_some]

/-! ### Where a climb to the root starts -/

/-- **A leaf digest of the right width is one of a node.** A well-formed witness that climbs to the
root of a tree starts at the node that its leaf count and its position name, and meets the siblings
of the tree, unless something collides. -/
theorem exists_node_of_climbed {width height : Nat} {ms : List Bytes} {w : Witness}
    (hwidth : ∀ m, (f m).length = width) (hms : ¬ Collides f ms)
    (htree : MessagesIn f padded height ms)
    (hclimb : climbMessages f w.path w.leafIndex w.leaf ⊆ ms)
    (hlen : w.leaf.length = width + 1) (hw : w.WellFormed)
    (hclimbed : climbed f w.path w.leafIndex w.leaf = digestAt f padded height 0) :
    ∃ k d, k + d = height ∧ w.leafCount = 2 ^ d ∧ w.leafIndex < 2 ^ d ∧
      w.leaf = digestAt f padded k w.leafIndex ∧ w.path = siblings f padded d k w.leafIndex := by
  obtain ⟨-, hcount, hindex, hlength⟩ := hw
  obtain ⟨k, hheight, hnode, hpath⟩ :=
    eq_siblings_of_climbed hwidth hms htree hlen hclimb hclimbed
  rw [hlength] at hheight hnode hpath
  rw [hcount] at hindex
  rw [Nat.mod_eq_of_lt hindex] at hnode hpath
  exact ⟨k, _, hheight, hcount, hindex, hnode, hpath⟩

/-- With the tag of a leaf the node is a leaf, and the witness is the tree's own. -/
theorem eq_witnessAt_of_leafTag {height k d : Nat} {w : Witness} {m : Bytes}
    (hk : k + d = height) (hcount : w.leafCount = 2 ^ d)
    (hleaf : w.leaf = digestAt f padded k w.leafIndex)
    (hpath : w.path = siblings f padded d k w.leafIndex)
    (hroot : w.root = digestAt f padded height 0) (htag : w.leaf = leafTag :: m) :
    w = witnessAt f padded height w.leafIndex := by
  obtain rfl : k = 0 := level_eq_zero_of_leafTag (htag.symm.trans hleaf)
  obtain rfl : d = height := by omega
  obtain ⟨root, leaf, path, leafIndex, leafCount⟩ := w
  dsimp only at *
  rw [witnessAt, ← hroot, ← hleaf, ← hpath, ← hcount]

/-- What is hashed to accept a witness. -/
theorem messagesSince_verify (hH : H.Computes f) {w : Witness} {h : History}
    (hv : (w.verify H h).1 = true) :
    h.messagesSince (w.verify H h).2 = climbMessages f w.path w.leafIndex w.leaf := by
  obtain ⟨hw, -⟩ := (Witness.verify_eq_true_iff hH).mp hv
  obtain ⟨h', hverify, hms⟩ := Witness.verify_of_wellFormed hH hw h
  rw [hverify]
  exact History.messagesSince_eq hms

/-- **A leaf digest with the form of one proves a leaf.** Whatever the witness, if it has the root
of the tree and verifies, and its leaf digest is as long as a tagged digest, then this is the digest
of the node at its position on the level that has as many nodes as the witness counts leaves. If the
digest has the tag of a leaf too, then the leaf counts agree, it is the digest of the payload at the
position, and the witness is the one that the tree gives for the position. Otherwise two different
messages among those hashed for the tree and for verifying have the same digest. -/
theorem build_issues_of_verify (hH : H.Computes f) {width : Nat}
    (hwidth : ∀ m, (f m).length = width) {payloads : List Bytes} (hne : payloads ≠ [])
    (h : History) :
    ∃ t after, (build H payloads).outcome h = (.ok t, after) ∧
      ∀ (w : Witness) (h' : History),
        (∃ g g', (t.root H).outcome g = (.ok w.root, g')) → (w.verify H h').1 = true →
        w.leaf.length = width + 1 →
        ((∃ k, 2 ^ k * w.leafCount = t.leafCount) ∧
            t.hashAt (2 * (t.leafCount - w.leafCount) + w.leafIndex) = w.leaf ∧
            (w.leaf.head? = some leafTag →
              w.leafCount = t.leafCount ∧ w.leafIndex < t.leafCount ∧
              (∃ payload, (pad payloads)[w.leafIndex]? = some payload ∧
                w.leaf = leafTag :: f payload) ∧
              t.Issues H w.leafIndex w)) ∨
          Collides f (h.messagesSince after ++ h'.messagesSince (w.verify H h').2) := by
  obtain ⟨after, hbuild, hms⟩ := (build_yields hH hne).outcome h
  refine ⟨_, after, hbuild, fun w h' hroot hv hlen => ?_⟩
  obtain ⟨g, g', hroot⟩ := hroot
  rw [root_arena, Hashing.outcome_pure] at hroot
  have hroot := (Except.ok.inj (Prod.mk.inj hroot).1).symm
  obtain ⟨hw, hclimbed⟩ := (Witness.verify_eq_true_iff hH).mp hv
  rw [History.messagesSince_eq hms, messagesSince_verify hH hv]
  refine Classical.or_iff_not_imp_right.mpr fun hcollides => ?_
  obtain ⟨k, d, hk, hcount, hindex, hleaf, hpath⟩ := exists_node_of_climbed hwidth hcollides
    ((messagesIn_treeMessages (length_pad payloads)).mono (List.subset_append_left _ _))
    (List.subset_append_right _ _) hlen hw (hclimbed.trans hroot)
  refine ⟨⟨k, ?_⟩, ?_, fun htag => ?_⟩
  · rw [hcount, ← Nat.pow_add, hk]
    rfl
  · rw [hleaf, hcount]
    exact hashAt_arena_node hk hindex
  · obtain ⟨m, htag⟩ : ∃ m, w.leaf = leafTag :: m := List.head?_eq_some_iff.mp htag
    have hwitness := eq_witnessAt_of_leafTag hk hcount hleaf hpath hroot htag
    have hcount' : w.leafCount = 2 ^ ceilLog2 payloads.length := by rw [hwitness]; rfl
    have hindex' : w.leafIndex < 2 ^ ceilLog2 payloads.length := by rwa [← hcount', hcount]
    refine ⟨hcount', hindex', ⟨(pad payloads).getD w.leafIndex [], ?_, ?_⟩, ?_⟩
    · rw [List.getD_eq_getElem _ _ (by rwa [length_pad]),
        List.getElem?_eq_getElem (by rwa [length_pad])]
    · rw [hwitness]
      rfl
    · rw [hwitness]
      exact issues_arena hindex' H

/-- The witness for the last of three payloads, checked without the payload. -/
theorem build_issues_of_verify_mixed :
    ∃ t after w, (build (.ofDigest "mixed" mixed) [[1], [2], [3]]).outcome [] = (.ok t, after) ∧
      (w.verify (.ofDigest "mixed" mixed) after).1 = true ∧ w.leaf.length = 2 ∧
      w.leaf.head? = some leafTag ∧ w.leafIndex = 2 ∧ w.leafCount = t.leafCount ∧
      t.Issues (.ofDigest "mixed" mixed) 2 w := by
  have hH := HashStrategy.computes_ofDigest "mixed" mixed
  have hne : [[1], [2], [3]] ≠ ([] : List Bytes) := by decide
  obtain ⟨t, after, hbuild, hall⟩ := build_issues_of_verify hH (fun _ => rfl) hne []
  obtain ⟨after', hbuild', hms⟩ := (build_yields hH hne).outcome []
  obtain ⟨ht, rfl⟩ := Prod.mk.inj (hbuild.symm.trans hbuild')
  obtain rfl := Except.ok.inj ht
  have hv : ((witnessAt mixed (pad [[1], [2], [3]]) 2 2).verify
      (.ofDigest "mixed" mixed) after).1 = true := by
    refine (Witness.verify_eq_true_iff hH).mpr ⟨?_, ?_⟩
    · exact wellFormed_witnessAt (by decide)
    · exact climbed_witnessAt (by decide)
  rcases hall _ after ⟨[], [], by rw [root_arena]; rfl⟩ hv rfl with ⟨-, -, hleaf⟩ | hcollides
  · obtain ⟨hcount, -, -, hissues⟩ := hleaf rfl
    exact ⟨_, after, _, hbuild, hv, rfl, rfl, rfl, hcount, hissues⟩
  · rw [History.messagesSince_eq hms, messagesSince_verify hH hv] at hcollides
    exact absurd hcollides (by decide +kernel)

/-! ### The liberties -/

/-- The root of a tree over two payloads as the leaf of a tree with one. -/
def shortened : Witness := ⟨[1, 208], [1, 208], [], 0, 1⟩

/-- The witness for the first of two payloads, with the first byte of the sibling moved to the
leaf. -/
def shifted : Witness := ⟨[1, 208], [0, 39, 0], [[40]], 0, 2⟩

/-- **The width and the tag are both needed.** Two witnesses verify against the root of one tree,
where nothing collides: one has an interior digest for its leaf, and another leaf count than the
tree; the other has the tag of a leaf, and its leaf is no digest of the tree. -/
theorem verify_of_shortened_or_shifted :
    ∃ t after, (build (.ofDigest "mixed" mixed) [[1], [2]]).outcome [] = (.ok t, after) ∧
      (∀ g, (t.root (.ofDigest "mixed" mixed)).outcome g = (.ok [1, 208], g)) ∧
      t.leafCount = 2 ∧ t.nodes.toList.map Node.hash = [[0, 39], [0, 40], [1, 208]] ∧
      (shortened.verify (.ofDigest "mixed" mixed) after).1 = true ∧
      shortened.leafCount ≠ t.leafCount ∧
      ¬ Collides mixed (History.messagesSince [] after ++
        after.messagesSince (shortened.verify (.ofDigest "mixed" mixed) after).2) ∧
      (shifted.verify (.ofDigest "mixed" mixed) after).1 = true ∧
      shifted.leaf ≠ t.hashAt shifted.leafIndex ∧
      ¬ Collides mixed (History.messagesSince [] after ++
        after.messagesSince (shifted.verify (.ofDigest "mixed" mixed) after).2) := by
  refine ⟨_, _, rfl, fun g => rfl, rfl, ?_, ?_, ?_, ?_, ?_, ?_, ?_⟩
  all_goals decide +kernel

end MerkleTree

end OrderingService
