import OrderingService.Hashing.Algorithm
import OrderingService.Proofs.Hashing.Calls
import OrderingService.Proofs.Merkle.Arena

/-!
# Building under any strategy

Nothing is assumed of the strategy here: it may refuse any write, and its digests may depend on what
it was asked before. Still it is known which calls a build makes. They are those of a single pass
over the arena: a payload is written for each leaf, and for each interior node the digests of two
nodes that stand further in front. The levels need not be told apart for this. They lie one behind
the other and all but the topmost have an even number of nodes, so the children of the interior
nodes are the nodes of the arena two by two, as far as there are pairs.

The digests above the leaves are thus described by an equation with themselves on both sides; it is
no circle, since each of them is over digests in front of it. Where a write is refused, the equation
still says what was to be written from there on.

## Main definitions

* `MerkleTree.pairs` — the digests of an arena, two by two
* `MerkleTree.nodesOver`, `MerkleTree.ofDigests` — interior nodes by their number, and the tree
* `MerkleTree.Grows` — the digests that come about from a history on
* `MerkleTree.levelStart`, `MerkleTree.digestOn` — the levels inside an arena

## Main results

* `MerkleTree.build_follows` — the calls of a build, in one pass over the arena
* `MerkleTree.pairs_eq_levels` — the same pass level by level
* `MerkleTree.build_stops_at_refusal` — a build stops at the first refused write
-/

namespace OrderingService

namespace MerkleTree

open HashCall (hashing hashingAll)
open HashStrategy (leafTag interiorTag)

variable {H : HashStrategy} {h : History} {leaves above : List Bytes}

/-! ### Pairs -/

/-- Digests two by two; a last one that is alone is left out. -/
def pairs : List Bytes → List (List Bytes)
  | [] => []
  | [_] => []
  | left :: right :: rest => [left, right] :: pairs rest

/-- The pairs of two rows one behind the other, if the first has no digest left over. -/
theorem pairs_append {row : List Bytes} (heven : row.length % 2 = 0) (rest : List Bytes) :
    pairs (row ++ rest) = pairs row ++ pairs rest := by
  induction row using pairs.induct with
  | case1 => rfl
  | case2 digest => simp at heven
  | case3 left right row ih =>
    have htwo : row.length % 2 = 0 := by simp at heven; omega
    simp [pairs, ih htwo]

theorem pairs_eq_map_range (digests : List Bytes) :
    pairs digests = (List.range (digests.length / 2)).map fun j =>
      [digests.getD (2 * j) [], digests.getD (2 * j + 1) []] := by
  induction digests using pairs.induct with
  | case1 => rfl
  | case2 digest => simp [pairs]
  | case3 left right rest ih =>
    have hhalf : (left :: right :: rest).length / 2 = rest.length / 2 + 1 := by simp; omega
    rw [pairs, ih, hhalf, List.range_succ_eq_map, List.map_cons, List.map_map]
    rfl

@[simp] theorem length_pairs (digests : List Bytes) :
    (pairs digests).length = digests.length / 2 := by simp [pairs_eq_map_range]

theorem length_flatten_pairs (digests : List Bytes) :
    (pairs digests).flatten.length = 2 * (digests.length / 2) := by
  induction digests using pairs.induct with
  | case1 => rfl
  | case2 digest => simp [pairs]
  | case3 left right rest ih => simp [pairs, ih]; omega

/-! ### The loops of a build -/

/-- Interior nodes with these digests. The first stands over the nodes at `start` and `start + 1`,
and each of the others over the two behind those of the one before. -/
def nodesOver (start : Nat) (digests : List Bytes) : List Node :=
  digests.mapIdx fun j digest => ⟨digest, some (start + 2 * j, start + 2 * j + 1)⟩

@[simp] theorem length_nodesOver (start : Nat) (digests : List Bytes) :
    (nodesOver start digests).length = digests.length := List.length_mapIdx

@[simp] theorem map_hash_nodesOver (start : Nat) (digests : List Bytes) :
    (nodesOver start digests).map Node.hash = digests := by
  refine List.ext_getElem (by simp) fun j _ _ => ?_
  simp [nodesOver]

theorem nodesOver_cons (start : Nat) (digest : Bytes) (rest : List Bytes) :
    nodesOver start (digest :: rest)
      = ⟨digest, some (start, start + 1)⟩ :: nodesOver (start + 2) rest := by
  have hshift : ∀ j, start + 2 * (j + 1) = start + 2 + 2 * j := by intro j; omega
  simp [nodesOver, List.mapIdx_cons, hshift]

theorem nodesOver_append (start : Nat) (row rest : List Bytes) :
    nodesOver start (row ++ rest)
      = nodesOver start row ++ nodesOver (start + 2 * row.length) rest := by
  have hshift : ∀ j, start + 2 * (j + row.length) = start + 2 * row.length + 2 * j := by
    intro j
    omega
  simp [nodesOver, List.mapIdx_append, hshift]

theorem leafHashes_follows (h : History) (payloads : List Bytes) :
    (leafHashes H payloads).Follows H h (hashingAll (payloads.map fun payload => [payload]))
      ((H.digests h (payloads.map fun payload => [payload])).map (leafTag :: ·)) := by
  induction payloads generalizing h with
  | nil => exact Hashing.follows_pure []
  | cons payload rest ih =>
    rw [List.map_cons, HashCall.hashingAll_cons]
    exact (HashStrategy.leafHash_follows h payload).bind ((ih _).bind_pure _)

/-- Two digests make one parent, so the induction takes two off the level. -/
theorem parents_follows (h : History) (start : Nat) (digests : List Bytes) :
    (parents H start digests).Follows H h (hashingAll (pairs digests))
      (nodesOver start ((H.digests h (pairs digests)).map (interiorTag :: ·))) := by
  induction start, digests using parents.induct generalizing h with
  | case1 start left right rest ih =>
    rw [pairs, HashCall.hashingAll_cons, HashStrategy.digests, List.map_cons, nodesOver_cons]
    exact (HashStrategy.interiorHash_follows h left right).bind ((ih _).bind_pure _)
  | case2 digests start hshort =>
    rcases digests with _ | ⟨left, _ | ⟨right, rest⟩⟩
    · exact Hashing.follows_pure []
    · exact Hashing.follows_pure []
    · exact absurd rfl (hshort left right rest)

/-- The levels above a row are one pass over the row and everything above it. The induction is on
the number of levels; a level is even as long as there is one above it, so no pair has one digest
from each of two levels. -/
theorem levelsAbove_follows (h : History) (depth start level : Nat) {digests : List Bytes}
    (hlen : digests.length = 2 ^ depth) :
    ∃ above, above.length + 1 = digests.length ∧
      above = (H.digests h (pairs (digests ++ above))).map (interiorTag :: ·) ∧
      (levelsAbove H depth start level digests).Follows H h (hashingAll (pairs (digests ++ above)))
        (nodesOver start above, start + 2 * above.length) := by
  induction depth generalizing h start level digests with
  | zero =>
    have hnone : pairs digests = [] := by simp [pairs_eq_map_range, hlen]
    refine ⟨[], by simp [hlen], ?_, ?_⟩
    · simp [hnone, HashStrategy.digests]
    · rw [List.append_nil, hnone]
      exact Hashing.follows_pure _
  | succ depth ih =>
    have heven : digests.length % 2 = 0 := by rw [hlen, Nat.pow_succ, Nat.mul_mod_left]
    have hhalf : digests.length / 2 = 2 ^ depth := by
      rw [hlen, Nat.pow_succ, Nat.mul_div_cancel _ (by decide)]
    have hparents := parents_follows (H := H) h start digests
    generalize hrow : (H.digests h (pairs digests)).map (interiorTag :: ·) = row at hparents
    have hcount : row.length = 2 ^ depth := by simp [← hrow, hhalf]
    obtain ⟨above, habove, heq, hfollows⟩ :=
      ih (h.extend (hashingAll (pairs digests))) (start + digests.length) (level + 1) hcount
    have hdouble : start + 2 * row.length = start + digests.length := by omega
    have htop : start + digests.length + 2 * above.length = start + 2 * (row ++ above).length := by
      rw [List.length_append]
      omega
    refine ⟨row ++ above, by simp; omega, ?_, ?_⟩
    · rw [pairs_append heven, HashStrategy.digests_append, List.map_append, hrow, ← heq]
    · rw [pairs_append heven, HashCall.hashingAll_append, nodesOver_append, hdouble, ← htop,
        levelsAbove, if_neg (not_not_intro heven)]
      refine hparents.bind ?_
      rw [map_hash_nodesOver]
      exact hfollows.bind_pure fun rest => (nodesOver start row ++ rest.1, rest.2)

/-! ### The whole build -/

/-- The tree with these leaf digests and these digests above them. -/
def ofDigests (leaves above : List Bytes) : MerkleTree :=
  ⟨(leaves.map Node.leaf ++ nodesOver 0 above).toArray, leaves.length, some (2 * above.length)⟩

/-- Over padded payloads, these leaf digests and these digests above them come about from a history
on. -/
structure Grows (H : HashStrategy) (h : History) (padded leaves above : List Bytes) : Prop where
  leaves_eq : leaves = (H.digests h (padded.map fun payload => [payload])).map (leafTag :: ·)
  length_above : above.length + 1 = leaves.length
  above_eq : above = (H.digests (h.extend (hashingAll (padded.map fun payload => [payload])))
    (pairs (leaves ++ above))).map (interiorTag :: ·)

theorem Grows.length_leaves {padded : List Bytes} (hg : Grows H h padded leaves above) :
    leaves.length = padded.length := by simp [hg.leaves_eq]

/-- **The calls of a build, in one pass over the arena.** -/
theorem build_follows (H : HashStrategy) {payloads : List Bytes} (hne : payloads ≠ [])
    (h : History) :
    ∃ leaves above, Grows H h (pad payloads) leaves above ∧
      (build H payloads).Follows H h
        (hashingAll ((pad payloads).map (fun payload => [payload]) ++ pairs (leaves ++ above)))
        (ofDigests leaves above) := by
  have hleaves := leafHashes_follows (H := H) h (pad payloads)
  generalize hdigests : (H.digests h ((pad payloads).map fun payload => [payload])).map
    (leafTag :: ·) = leaves at hleaves
  have hcount : leaves.length = 2 ^ ceilLog2 payloads.length := by
    simp [← hdigests, length_pad]
  obtain ⟨above, habove, heq, hfollows⟩ := levelsAbove_follows
    (h.extend (hashingAll ((pad payloads).map fun payload => [payload]))) _ 0 0 hcount
  rw [Nat.zero_add] at hfollows
  refine ⟨leaves, above, ⟨hdigests.symm, habove, heq⟩, ?_⟩
  rw [build, if_neg (by rwa [List.isEmpty_iff]), HashCall.hashingAll_append]
  refine hleaves.bind ?_
  rw [hcount, Nat.log2_two_pow, ← hcount]
  exact hfollows.bind_pure fun interior =>
    MerkleTree.mk (leaves.map Node.leaf ++ interior.1).toArray leaves.length (some interior.2)

/-! ### The arena -/

theorem map_hash_ofDigests (leaves above : List Bytes) :
    (ofDigests leaves above).nodes.toList.map Node.hash = leaves ++ above := by
  simp [ofDigests, Function.comp_def, Node.leaf]

@[simp] theorem size_ofDigests (leaves above : List Bytes) :
    (ofDigests leaves above).nodes.size = leaves.length + above.length := by simp [ofDigests]

theorem hashAt_ofDigests (leaves above : List Bytes) (i : Nat) :
    (ofDigests leaves above).hashAt i = (leaves ++ above).getD i [] := by
  rw [← map_hash_ofDigests, hashAt, List.getD_eq_getElem?_getD, List.getElem?_map,
    Array.getElem?_toList]

theorem getElem?_ofDigests_leaf {i : Nat} (hi : i < leaves.length) :
    (ofDigests leaves above).nodes[i]? = some (.leaf leaves[i]) := by
  simp [ofDigests, List.getElem?_append_left, hi]

theorem getElem?_ofDigests_interior {j : Nat} (hj : j < above.length) :
    (ofDigests leaves above).nodes[leaves.length + j]?
      = some ⟨above[j], some (2 * j, 2 * j + 1)⟩ := by
  simp [ofDigests, nodesOver, hj]

/-! ### Levels -/

/-- The arena index of the first node of a level: the widths of the levels below it, added up. -/
def levelStart (depth : Nat) : (level : Nat) → Nat
  | 0 => 0
  | level + 1 => levelStart depth level + 2 ^ (depth - level)

/-- The digest at a position of a level. -/
def digestOn (t : MerkleTree) (level position : Nat) : Bytes :=
  t.hashAt (levelStart t.depth level + position)

/-- A level is twice as wide as the one above it. -/
theorem two_pow_sub_eq {depth level : Nat} (hlt : level < depth) :
    2 ^ (depth - level) = 2 * 2 ^ (depth - (level + 1)) := by
  rw [show depth - level = depth - (level + 1) + 1 by omega, Nat.pow_succ']

theorem levelStart_eq {depth level : Nat} (hle : level ≤ depth) :
    levelStart depth level = 2 * (2 ^ depth - 2 ^ (depth - level)) := by
  induction level with
  | zero => simp [levelStart]
  | succ level ih =>
    have hwidth := two_pow_sub_eq (show level < depth by omega)
    have hmost : 2 ^ (depth - level) ≤ 2 ^ depth := Nat.pow_le_pow_right (by decide) (by omega)
    rw [levelStart, ih (by omega)]
    omega

/-- Counting through the arena two by two is counting through its levels. -/
theorem map_range_levelStart {α : Type} (g : Nat → α) {depth level : Nat} (hle : level ≤ depth) :
    (List.range (levelStart depth level / 2)).map g
      = (List.range level).flatMap fun k =>
          (List.range (2 ^ (depth - (k + 1)))).map fun j => g (levelStart depth k / 2 + j) := by
  induction level with
  | zero => simp [levelStart]
  | succ level ih =>
    have hstart := levelStart_eq (show level ≤ depth by omega)
    have hwidth := two_pow_sub_eq (show level < depth by omega)
    have hhalf : levelStart depth (level + 1) / 2
        = levelStart depth level / 2 + 2 ^ (depth - (level + 1)) := by
      rw [levelStart]
      omega
    rw [hhalf, List.range_add, List.map_append, List.map_map, ih (by omega), List.range_succ,
      List.flatMap_append, List.flatMap_singleton]
    rfl

/-- **One pass over the arena goes level by level**, and over each level from left to right. -/
theorem pairs_eq_levels {digests : List Bytes} {depth : Nat}
    (hlen : digests.length + 1 = 2 ^ depth + 2 ^ depth) :
    pairs digests = (List.range depth).flatMap fun k =>
      (List.range (2 ^ (depth - (k + 1)))).map fun j =>
        [digests.getD (levelStart depth k + 2 * j) [],
          digests.getD (levelStart depth k + 2 * j + 1) []] := by
  have hpos := Nat.two_pow_pos depth
  have htop : digests.length / 2 = levelStart depth depth / 2 := by
    rw [levelStart_eq (Nat.le_refl depth), Nat.sub_self, Nat.pow_zero]
    omega
  rw [pairs_eq_map_range, htop, map_range_levelStart _ (Nat.le_refl depth)]
  refine congrArg List.flatten (List.map_congr_left fun k hk => List.map_congr_left fun j _ => ?_)
  have hstart := levelStart_eq (Nat.le_of_lt (List.mem_range.mp hk))
  rw [show 2 * (levelStart depth k / 2 + j) = levelStart depth k + 2 * j by omega]

/-- The node at a position of a level stands over two of the level below. -/
theorem getElem?_ofDigests_levelStart {depth k j : Nat} (hcount : leaves.length = 2 ^ depth)
    (hlen : above.length + 1 = leaves.length) (hk : k < depth) (hj : j < 2 ^ (depth - (k + 1))) :
    ∃ digest, (ofDigests leaves above).nodes[levelStart depth (k + 1) + j]?
      = some ⟨digest, some (levelStart depth k + 2 * j, levelStart depth k + 2 * j + 1)⟩ := by
  have hstart := levelStart_eq (Nat.le_of_lt hk)
  have hmost : 2 ^ (depth - k) ≤ 2 ^ depth := Nat.pow_le_pow_right (by decide) (by omega)
  have hwidth := two_pow_sub_eq hk
  have hindex : levelStart depth (k + 1) + j = leaves.length + (levelStart depth k / 2 + j) := by
    rw [levelStart]
    omega
  have hin : levelStart depth k / 2 + j < above.length := by omega
  have hchild : 2 * (levelStart depth k / 2 + j) = levelStart depth k + 2 * j := by omega
  exact ⟨_, by rw [hindex, getElem?_ofDigests_interior hin, hchild]⟩

/-! ### Counts -/

/-- The digests of a tree are those of the accumulators, in arena order, each behind its tag. -/
theorem Grows.append_eq {padded : List Bytes} (hg : Grows H h padded leaves above) :
    leaves ++ above = (H.digests h (padded.map (fun payload => [payload]) ++
      pairs (leaves ++ above))).mapIdx fun i digest =>
        (if i < leaves.length then leafTag else interiorTag) :: digest := by
  have hcount := hg.length_leaves
  have hleaves : ∀ digests : List Bytes, digests.length = leaves.length →
      digests.mapIdx (fun i digest =>
          (if i < leaves.length then leafTag else interiorTag) :: digest)
        = digests.map (leafTag :: ·) := by
    intro digests hlen
    refine List.ext_getElem (by simp) fun i hi _ => ?_
    have hlt : i < leaves.length := by simpa [hlen] using hi
    simp [hlt]
  rw [HashStrategy.digests_append, List.mapIdx_append, hleaves _ (by simp [hcount]), ← hg.leaves_eq]
  refine congrArg (leaves ++ ·) (hg.above_eq.trans ?_)
  refine List.ext_getElem (by simp) fun i _ _ => ?_
  have hbehind : ¬ i + (H.digests h (padded.map fun payload => [payload])).length
      < leaves.length := by
    rw [HashStrategy.length_digests, List.length_map, hcount]
    omega
  rw [List.getElem_map, List.getElem_mapIdx, if_neg hbehind]

/-- **A build stops at the first refused write.** Without payloads nothing is asked. Otherwise the
build is set to make one accumulator for each payload and each empty payload of the padding, to
which it is written, and then one for each interior node, level by level and from left to right, to
which the digests of the two children are written. The digests are what the accumulators finish
with, behind their tags. If no write is refused, then all of this is done and the tree is given; if
one is refused, then the first refused write is the last thing that is asked, and its text is the
error. -/
theorem build_stops_at_refusal (H : HashStrategy) (payloads : List Bytes) (h : History) :
    (payloads = [] → build H payloads h = .error .emptyLeaves h) ∧
    (payloads ≠ [] → ∃ t work,
      (build H payloads).Follows H h (hashingAll work) t ∧
      t.leafCount = 2 ^ t.depth ∧ payloads.length ≤ t.leafCount ∧
      (∀ k, payloads.length ≤ 2 ^ k → t.leafCount ≤ 2 ^ k) ∧
      work = payloads.map (fun payload => [payload]) ++
        List.replicate (t.leafCount - payloads.length) [[]] ++
        (List.range t.depth).flatMap (fun k => (List.range (2 ^ (t.depth - (k + 1)))).map fun j =>
          [t.digestOn k (2 * j), t.digestOn k (2 * j + 1)]) ∧
      (∀ k < t.depth, ∀ j < 2 ^ (t.depth - (k + 1)), ∃ digest,
        t.nodes[levelStart t.depth (k + 1) + j]? = some ⟨digest,
          some (levelStart t.depth k + 2 * j, levelStart t.depth k + 2 * j + 1)⟩) ∧
      t.nodes.toList.map Node.hash = (H.digests h work).mapIdx (fun i digest =>
        (if i < t.leafCount then leafTag else interiorTag) :: digest) ∧
      (h.extend (hashingAll work)).accumulators = h.accumulators + (2 * t.leafCount - 1) ∧
      (h.extend (hashingAll work)).writes = h.writes + (3 * t.leafCount - 2)) := by
  refine ⟨?_, fun hne => ?_⟩
  · rintro rfl
    rfl
  · obtain ⟨leaves, above, hg, hfollows⟩ := build_follows H hne h
    have hcount : leaves.length = 2 ^ ceilLog2 payloads.length :=
      hg.length_leaves.trans (length_pad payloads)
    have hlen := hg.length_above
    have hdepth : (ofDigests leaves above).depth = ceilLog2 payloads.length := by
      show leaves.length.log2 = _
      rw [hcount, Nat.log2_two_pow]
    have hsize : (ofDigests leaves above).leafCount = leaves.length := rfl
    have hleaves : (ofDigests leaves above).leafCount = ceilPowerOfTwo payloads.length := hcount
    refine ⟨_, _, hfollows, ?_, ?_, ?_, ?_, ?_, ?_, ?_, ?_⟩
    · rw [hdepth]
      exact hcount
    · rw [hleaves]
      exact le_ceilPowerOfTwo payloads.length
    · intro k hk
      rw [hleaves]
      exact ceilPowerOfTwo_le hk
    · have hnodes : (leaves ++ above).length + 1
          = 2 ^ ceilLog2 payloads.length + 2 ^ ceilLog2 payloads.length := by
        rw [List.length_append]
        omega
      rw [pairs_eq_levels hnodes, pad,
        List.map_append, List.map_replicate, hdepth]
      simp only [digestOn, hashAt_ofDigests, hdepth, hleaves, Nat.add_assoc]
    · rw [hdepth]
      intro k hk j hj
      exact getElem?_ofDigests_levelStart hcount hlen hk hj
    · rw [map_hash_ofDigests]
      exact hg.append_eq
    · rw [History.accumulators_extend_hashingAll, List.length_append, List.length_map, length_pairs,
        List.length_append, ← hg.length_leaves, hsize]
      omega
    · rw [History.writes_extend_hashingAll, List.flatten_append, List.length_append,
        length_flatten_pairs, List.length_append, ← List.flatMap_def, List.flatMap_singleton',
        ← hg.length_leaves, hsize]
      omega

/-- The third write is refused: three accumulators were made, and nothing came after. -/
theorem build_stops_at_refusal_third :
    build ((HashStrategy.concatenation "concat").refusing "offline" fun h _ => h.writes = 2)
        [[1], [2], [3]] []
      = .error (.hashWriteFailed "offline")
          [.write [3], .accumulator, .write [2], .accumulator, .write [1], .accumulator] := by
  obtain ⟨t, work, hfollows, -, -, -, hwork, -⟩ := (build_stops_at_refusal
    ((HashStrategy.concatenation "concat").refusing "offline" fun h _ => h.writes = 2)
    [[1], [2], [3]] []).2 (by decide)
  rw [hwork] at hfollows
  exact hfollows.refused [.accumulator, .write [1], .accumulator, .write [2], .accumulator] [3] _ _
    rfl ⟨rfl, rfl, trivial⟩ rfl

end MerkleTree

end OrderingService
