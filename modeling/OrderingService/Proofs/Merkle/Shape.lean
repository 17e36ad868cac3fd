import Mathlib.Logic.ExistsUnique
import OrderingService.Hashing.Algorithm
import OrderingService.Proofs.Merkle.LeafDigests

/-!
# The shape of a tree that is built

The textbook tree over a padded batch is defined by halves: the digest of one payload is its leaf
digest, and the digest of more is the interior digest over those of the two halves. The builder goes
the other way, level by level from the leaves, with places in one arena instead of lists of
payloads. The two meet in `MerkleTree.digestAt`, where a node is named by its level and its position:
below the node at position `j` of level `k` stands the block number `j` of `2 ^ k` payloads.

In the arena the nodes above the leaves need no levels at all. The levels lie one behind the other
and each is half as wide as the one below, so the interior node number `j`, counted over all levels,
is the parent of the nodes number `2 * j` and `2 * j + 1`, counted from the first leaf.

## Main definitions

* `MerkleTree.halved` — the digest of a list of payloads, by halves
* `MerkleTree.IsChild`, `MerkleTree.Rises` — from a node to its parent, and some steps further
* `MerkleTree.Shaped` — what a tree looks like

## Main results

* `MerkleTree.halved_yields` — the digest of each block of payloads stands in the tree
* `MerkleTree.getElem?_nodesAbove` — the interior nodes by their number
* `MerkleTree.rises_arena_iff` — how far it is from a node to the root
* `MerkleTree.build_shaped` — the shape of every tree that is built
-/

namespace OrderingService

namespace MerkleTree

open HashStrategy (leafTag interiorTag)

variable {f : Bytes → Bytes} {padded : List Bytes} {H : HashStrategy}

/-! ### By halves -/

/-- The digest of a list of payloads: of one payload its leaf digest, of more the interior digest
over those of the two halves. -/
def halved (H : HashStrategy) (payloads : List Bytes) : Hashing Bytes :=
  if payloads.length ≤ 1 then H.leafHash (payloads.headD [])
  else do
    let left ← halved H (payloads.take (payloads.length / 2))
    let right ← halved H (payloads.drop (payloads.length / 2))
    H.interiorHash left right
termination_by payloads.length
decreasing_by
  · rw [List.length_take]
    omega
  · rw [List.length_drop]
    omega

/-- The block number `position` of `2 ^ level` payloads. -/
def block (padded : List Bytes) (level position : Nat) : List Bytes :=
  (padded.drop (2 ^ level * position)).take (2 ^ level)

theorem length_block {d j k : Nat} (hlen : padded.length = 2 ^ (k + d)) (hj : j < 2 ^ d) :
    (block padded k j).length = 2 ^ k := by
  have hle : 2 ^ k * (j + 1) ≤ padded.length := by
    rw [hlen, Nat.pow_add]
    exact Nat.mul_le_mul_left _ hj
  rw [Nat.mul_succ] at hle
  rw [block, List.length_take, List.length_drop]
  omega

/-- The halves of a block are the two blocks of the level below. -/
theorem take_block (k j : Nat) :
    (block padded (k + 1) j).take (2 ^ k) = block padded k (2 * j) := by
  have hstart : 2 ^ (k + 1) * j = 2 ^ k * (2 * j) := by rw [Nat.pow_succ, Nat.mul_assoc]
  have hle : 2 ^ k ≤ 2 ^ (k + 1) := Nat.pow_le_pow_right (by decide) (Nat.le_succ k)
  rw [block, block, List.take_take, Nat.min_eq_left hle, hstart]

theorem drop_block (k j : Nat) :
    (block padded (k + 1) j).drop (2 ^ k) = block padded k (2 * j + 1) := by
  have hstart : 2 ^ (k + 1) * j + 2 ^ k = 2 ^ k * (2 * j + 1) := by
    rw [Nat.pow_succ, Nat.mul_assoc, Nat.mul_succ]
  have hrest : 2 ^ (k + 1) - 2 ^ k = 2 ^ k := by
    rw [Nat.pow_succ]
    omega
  rw [block, block, List.drop_take, List.drop_drop, hstart, hrest]

/-- **The digest of each block of payloads stands in the tree**, on the level that its size gives.
The induction goes down from the level of the block, whose halves are blocks again. -/
theorem halved_yields (hH : H.Computes f) {d j k : Nat} (hlen : padded.length = 2 ^ (k + d))
    (hj : j < 2 ^ d) : ∃ ms, (halved H (block padded k j)).Yields (digestAt f padded k j) ms := by
  induction k generalizing d j with
  | zero =>
    have hpayload : (block padded 0 j).headD [] = padded.getD j [] := by
      rw [block, Nat.pow_zero, Nat.one_mul, List.headD_eq_head?_getD,
        List.head?_take, if_neg Nat.one_ne_zero, List.head?_drop, List.getD_eq_getElem?_getD]
    rw [halved, if_pos (Nat.le_of_eq (length_block hlen hj)), hpayload, digestAt]
    exact ⟨_, HashStrategy.leafHash_yields hH _⟩
  | succ k ih =>
    have hsize : (block padded (k + 1) j).length = 2 ^ (k + 1) := length_block hlen hj
    have hpos := Nat.two_pow_pos k
    have hhalf : (block padded (k + 1) j).length / 2 = 2 ^ k := by
      rw [hsize, Nat.pow_succ, Nat.mul_div_cancel _ (by decide)]
    have hlen' : padded.length = 2 ^ (k + (d + 1)) := by
      rw [hlen, Nat.add_right_comm, Nat.add_assoc]
    have hj' : 2 * j + 1 < 2 ^ (d + 1) := by
      rw [Nat.pow_succ]
      omega
    obtain ⟨ms, hleft⟩ := ih hlen' (j := 2 * j) (by omega)
    obtain ⟨ns, hright⟩ := ih hlen' hj'
    rw [halved, if_neg (by rw [hsize, Nat.pow_succ]; omega), hhalf, take_block, drop_block]
    exact ⟨_, hleft.bind (hright.bind (HashStrategy.interiorHash_yields hH _ _))⟩

/-! ### The nodes by their number -/

/-- **The interior nodes by their number.** The node number `q` above a row stands over the digests
number `2 * q` and `2 * q + 1`, counted from the start of the row and through all levels. -/
theorem getElem?_nodesAbove {height q : Nat} (start k : Nat) (hq : q < 2 ^ height - 1) :
    (nodesAbove f padded height start k)[q]? = some
      ⟨interiorTag :: f ((levels f padded height k).getD (2 * q) [] ++
          (levels f padded height k).getD (2 * q + 1) []),
        some (start + 2 * q, start + 2 * q + 1)⟩ := by
  induction height generalizing start k q with
  | zero => omega
  | succ height ih =>
    have hwidth : 2 ^ (height + 1) = 2 ^ height + 2 ^ height := by
      rw [Nat.pow_succ]
      omega
    rw [nodesAbove, levels]
    rcases Nat.lt_or_ge q (2 ^ height) with hlt | hge
    · have hrow : ∀ i < 2 ^ (height + 1), (row f padded (2 ^ (height + 1)) k
          ++ levels f padded height (k + 1)).getD i [] = digestAt f padded k i := fun i hi => by
        rw [List.getD_append _ _ _ _ (by rwa [length_row]), List.getD_eq_getElem?_getD,
          getElem?_row hi, Option.getD_some]
      rw [List.getElem?_append_left (by rwa [List.length_map, List.length_range]),
        List.getElem?_map, List.getElem?_range hlt, hrow _ (by omega), hrow _ (by omega)]
      rfl
    · obtain ⟨r, rfl⟩ : ∃ r, q = 2 ^ height + r := ⟨q - 2 ^ height, by omega⟩
      have hrest : ∀ i, (row f padded (2 ^ (height + 1)) k
          ++ levels f padded height (k + 1)).getD (2 ^ (height + 1) + i) []
            = (levels f padded height (k + 1)).getD i [] := fun i => by
        rw [List.getD_append_right _ _ _ _ (by rw [length_row]; omega), length_row,
          Nat.add_sub_cancel_left]
      have hdouble : 2 * (2 ^ height + r) = 2 ^ (height + 1) + 2 * r := by omega
      rw [List.getElem?_append_right (by rw [List.length_map, List.length_range]; omega),
        List.length_map, List.length_range, Nat.add_sub_cancel_left, ih _ _ (by omega), hdouble,
        Nat.add_assoc (2 ^ (height + 1)), hrest, hrest, Nat.add_assoc start, Nat.add_assoc start]

/-- The leaves stand first. -/
theorem getElem?_nodes_leaf {height i : Nat} (hi : i < 2 ^ height) :
    (arena f padded height).nodes[i]? = some (.leaf (leafTag :: f (padded.getD i []))) := by
  rw [arena, List.getElem?_toArray,
    List.getElem?_append_left (by rwa [List.length_map, length_row]), List.getElem?_map,
    getElem?_row hi]
  rfl

/-- The interior nodes stand behind them. -/
theorem getElem?_nodes_interior {height j : Nat} (hj : j < 2 ^ height - 1) :
    (arena f padded height).nodes[2 ^ height + j]? = some
      ⟨interiorTag :: f ((arena f padded height).hashAt (2 * j) ++
        (arena f padded height).hashAt (2 * j + 1)), some (2 * j, 2 * j + 1)⟩ := by
  have hnode : (nodesAbove f padded height 0 0)[j]? = _ := getElem?_nodesAbove 0 0 hj
  rw [Nat.zero_add] at hnode
  rw [hashAt_arena, hashAt_arena, ← hnode, arena, List.getElem?_toArray,
    List.getElem?_append_right (by rw [List.length_map, length_row]; omega), List.length_map,
    length_row, Nat.add_sub_cancel_left]

/-! ### Parents -/

/-- The node at `i` is a child of the node at `p`. -/
def IsChild (t : MerkleTree) (i p : Nat) : Prop :=
  ∃ node left right, t.nodes[p]? = some node ∧ node.children = some (left, right) ∧
    (i = left ∨ i = right)

/-- Some steps from a node to its parent lead from `i` to `j`. -/
def Rises (t : MerkleTree) : (steps i j : Nat) → Prop
  | 0, i, j => i = j
  | steps + 1, i, j => ∃ p, t.IsChild i p ∧ t.Rises steps p j

/-- Every node but the last has one parent. -/
theorem isChild_arena_iff {height i p : Nat} : (arena f padded height).IsChild i p ↔
    i < 2 * (2 ^ height - 1) ∧ p = 2 ^ height + i / 2 := by
  have hpos := Nat.two_pow_pos height
  constructor
  · rintro ⟨node, left, right, hnode, hchildren, hside⟩
    have hsize : p < 2 ^ (height + 1) - 1 :=
      size_arena height ▸ (Array.getElem?_eq_some_iff.mp hnode).1
    rw [Nat.pow_succ] at hsize
    rcases Nat.lt_or_ge p (2 ^ height) with hlt | hge
    · rw [getElem?_nodes_leaf hlt] at hnode
      cases hnode
      cases hchildren
    · obtain ⟨j, rfl⟩ : ∃ j, p = 2 ^ height + j := ⟨p - 2 ^ height, by omega⟩
      rw [getElem?_nodes_interior (by omega)] at hnode
      cases hnode
      cases hchildren
      omega
  · rintro ⟨hi, rfl⟩
    have hj : i / 2 < 2 ^ height - 1 := by omega
    exact ⟨_, _, _, getElem?_nodes_interior hj, rfl, by omega⟩

/-- **How far it is to the root.** From a node of the level on which `2 ^ d` nodes stand it is `d`
steps, and the root is reached after no other number of them. -/
theorem rises_arena_iff {height d j steps : Nat} (hd : d ≤ height) (hj : j < 2 ^ d) :
    (arena f padded height).Rises steps (2 * (2 ^ height - 2 ^ d) + j) (2 * (2 ^ height - 1)) ↔
      steps = d := by
  have hpos := Nat.two_pow_pos height
  induction steps generalizing d j with
  | zero =>
    cases d with
    | zero => rw [Rises]; omega
    | succ d =>
      have hle : 2 ^ (d + 1) ≤ 2 ^ height := Nat.pow_le_pow_right (by decide) hd
      have := Nat.two_pow_pos d
      rw [Rises]
      rw [Nat.pow_succ] at hle hj ⊢
      omega
  | succ steps ih =>
    simp only [Rises, isChild_arena_iff]
    cases d with
    | zero =>
      rw [Nat.pow_zero] at hj ⊢
      constructor
      · rintro ⟨p, ⟨hlt, -⟩, -⟩
        omega
      · intro hsteps
        cases hsteps
    | succ d =>
      have hle : 2 ^ (d + 1) ≤ 2 ^ height := Nat.pow_le_pow_right (by decide) hd
      rw [Nat.pow_succ] at hle hj ⊢
      have hparent : 2 ^ height + (2 * (2 ^ height - 2 ^ d * 2) + j) / 2
          = 2 * (2 ^ height - 2 ^ d) + j / 2 := by omega
      have habove := ih (d := d) (j := j / 2) (by omega) (by omega)
      have := Nat.two_pow_pos d
      constructor
      · rintro ⟨p, ⟨-, rfl⟩, hrises⟩
        rw [hparent] at hrises
        rw [habove.mp hrises]
      · intro hsteps
        refine ⟨_, ⟨by omega, rfl⟩, ?_⟩
        rw [hparent]
        exact habove.mpr (Nat.succ.inj hsteps)

/-! ### Integrity -/

/-- Nodes whose digests are those of their children are found to be so. -/
theorem verifyNodes_yields (hH : H.Computes f) (t : MerkleTree) (nodes : List Node)
    (hnodes : ∀ node ∈ nodes, ∀ left right, node.children = some (left, right) →
      node.hash = interiorTag :: f (t.hashAt left ++ t.hashAt right)) :
    ∃ ms, (t.verifyNodes H nodes).Yields true ms := by
  induction nodes with
  | nil => exact ⟨[], Hashing.yields_pure true⟩
  | cons node rest ih =>
    obtain ⟨ms, hrest⟩ := ih fun other hother => hnodes other (List.mem_cons_of_mem node hother)
    rw [verifyNodes]
    split
    next => exact ⟨ms, hrest⟩
    next left right hchildren =>
      have hhash := hnodes node List.mem_cons_self left right hchildren
      refine ⟨ms ++ [t.hashAt left ++ t.hashAt right],
        (HashStrategy.interiorHash_yields hH _ _).bind ?_⟩
      rw [hhash, if_pos (beq_self_eq_true _)]
      exact hrest

theorem verifyIntegrity_arena (hH : H.Computes f) (padded : List Bytes) (height : Nat) :
    ∃ ms, ((arena f padded height).verifyIntegrity H).Yields true ms := by
  refine verifyNodes_yields hH _ _ fun node hnode left right hchildren => ?_
  obtain ⟨p, hp⟩ := Array.mem_iff_getElem?.mp (Array.mem_toList_iff.mp hnode)
  have hsize : p < 2 ^ (height + 1) - 1 :=
    size_arena height ▸ (Array.getElem?_eq_some_iff.mp hp).1
  rw [Nat.pow_succ] at hsize
  rcases Nat.lt_or_ge p (2 ^ height) with hlt | hge
  · rw [getElem?_nodes_leaf hlt] at hp
    cases hp
    cases hchildren
  · obtain ⟨j, rfl⟩ : ∃ j, p = 2 ^ height + j := ⟨p - 2 ^ height, by omega⟩
    rw [getElem?_nodes_interior (by omega)] at hp
    cases hp
    cases hchildren
    rfl

/-! ### Every tree that is built -/

/-- A tree over a batch looks as it should. -/
structure Shaped (H : HashStrategy) (payloads : List Bytes) (t : MerkleTree) : Prop where
  /-- The leaf count is the least power of two that holds the batch. -/
  leafCount_eq : t.leafCount = 2 ^ t.depth
  length_le : payloads.length ≤ t.leafCount
  leafCount_le : ∀ k, payloads.length ≤ 2 ^ k → t.leafCount ≤ 2 ^ k
  /-- There are as many interior nodes as leaves, less one. -/
  size_eq : t.nodes.size = 2 * t.leafCount - 1
  /-- The leaves stand first and hold the leaf digests of the padded payloads, in order. -/
  length_pad_eq : (pad payloads).length = t.leafCount
  leaf : ∀ (i : Nat) (payload : Bytes), (pad payloads)[i]? = some payload →
    ∃ digest, (H.leafHash payload).Yields digest [payload] ∧ t.nodes[i]? = some (.leaf digest)
  /-- The interior node number `j` is over the nodes at `2 * j` and `2 * j + 1`. -/
  interior : ∀ j < t.leafCount - 1, ∃ left right digest,
    t.nodes[2 * j]? = some left ∧ t.nodes[2 * j + 1]? = some right ∧
      (H.interiorHash left.hash right.hash).Yields digest [left.hash ++ right.hash] ∧
      t.nodes[t.leafCount + j]? = some ⟨digest, some (2 * j, 2 * j + 1)⟩
  /-- Every node but the last has just one parent. -/
  parent : ∀ i, i + 1 < t.nodes.size → ∃! p, t.IsChild i p
  /-- The last node is the root, and has none. -/
  rootIndex_eq : t.rootIndex = some (t.nodes.size - 1)
  orphan : ∀ p, ¬ t.IsChild (t.nodes.size - 1) p
  /-- From each leaf it is as far to the root as the tree is deep. -/
  rises_iff : ∀ i < t.leafCount, ∀ steps, t.Rises steps i (t.nodes.size - 1) ↔ steps = t.depth
  /-- The root digest is that of the padded payloads by halves. -/
  root_eq : ∃ root ms, (∀ g, (t.root H).outcome g = (.ok root, g)) ∧
    (halved H (pad payloads)).Yields root ms
  verifyIntegrity_eq : ∃ ms, (t.verifyIntegrity H).Yields true ms

theorem shaped_arena (hH : H.Computes f) (payloads : List Bytes) :
    (arena f (pad payloads) (ceilLog2 payloads.length)).Shaped H payloads := by
  have hlen := length_pad payloads
  generalize hheight : ceilLog2 payloads.length = height at hlen ⊢
  have hpos := Nat.two_pow_pos height
  have hsize : (arena f (pad payloads) height).nodes.size = 2 * 2 ^ height - 1 := by
    rw [size_arena, Nat.pow_succ, Nat.mul_comm]
  have hlast : (arena f (pad payloads) height).nodes.size - 1 = 2 * (2 ^ height - 1) := by omega
  refine {
    leafCount_eq := by rw [depth_arena]; rfl
    length_le := hheight ▸ le_ceilPowerOfTwo _
    leafCount_le := fun k hk => hheight ▸ ceilPowerOfTwo_le hk
    size_eq := hsize
    length_pad_eq := hlen
    leaf := fun i payload hi => ?_
    interior := fun j hj => ?_
    parent := fun i hi => ?_
    rootIndex_eq := congrArg some hlast.symm
    orphan := fun p hp => ?_
    rises_iff := fun i hi steps => ?_
    root_eq := ?_
    verifyIntegrity_eq := verifyIntegrity_arena hH _ _ }
  · have hlt : i < 2 ^ height := hlen ▸ (List.getElem?_eq_some_iff.mp hi).1
    refine ⟨_, HashStrategy.leafHash_yields hH payload, ?_⟩
    rw [getElem?_nodes_leaf hlt, List.getD_eq_getElem?_getD, hi, Option.getD_some]
  · have hj : j < 2 ^ height - 1 := hj
    have hread : ∀ i < 2 * (2 ^ height - 1), ∃ node,
        (arena f (pad payloads) height).nodes[i]? = some node ∧
          (arena f (pad payloads) height).hashAt i = node.hash := fun i hi => by
      refine ⟨_, Array.getElem?_eq_getElem (by omega), ?_⟩
      rw [hashAt, Array.getElem?_eq_getElem (by omega)]
      rfl
    obtain ⟨left, hleft, hlefthash⟩ := hread (2 * j) (by omega)
    obtain ⟨right, hright, hrighthash⟩ := hread (2 * j + 1) (by omega)
    refine ⟨left, right, _, hleft, hright, HashStrategy.interiorHash_yields hH _ _, ?_⟩
    rw [← hlefthash, ← hrighthash]
    exact getElem?_nodes_interior hj
  · refine ⟨_, isChild_arena_iff.mpr ⟨by omega, rfl⟩, fun p hp => ?_⟩
    exact (isChild_arena_iff.mp hp).2
  · rw [hlast] at hp
    exact Nat.lt_irrefl _ (isChild_arena_iff.mp hp).1
  · have hrises : (arena f (pad payloads) height).Rises steps (2 * (2 ^ height - 2 ^ height) + i)
        (2 * (2 ^ height - 1)) ↔ steps = height := rises_arena_iff (Nat.le_refl height) hi
    rw [Nat.sub_self, Nat.mul_zero, Nat.zero_add] at hrises
    rw [hlast, depth_arena]
    exact hrises
  · obtain ⟨ms, hhalved⟩ : ∃ ms, (halved H (block (pad payloads) height 0)).Yields
        (digestAt f (pad payloads) height 0) ms := halved_yields hH hlen (Nat.two_pow_pos 0)
    rw [block, Nat.mul_zero, List.drop_zero, List.take_of_length_le (Nat.le_of_eq hlen)] at hhalved
    exact ⟨_, ms, fun g => by rw [root_arena, Hashing.outcome_pure], hhalved⟩

/-- **The shape of every tree that is built.** Under a strategy that refuses nothing, a batch that
is not empty gets a tree, so no level is ever found to be odd, and the tree has the shape of the
textbook tree over the padded batch. -/
theorem build_shaped (hH : H.Computes f) {payloads : List Bytes} (hne : payloads ≠ [])
    (h : History) :
    ∃ t after, (build H payloads).outcome h = (.ok t, after) ∧ t.Shaped H payloads := by
  obtain ⟨after, hbuild, -⟩ := (build_yields hH hne).outcome h
  exact ⟨_, after, hbuild, shaped_arena hH payloads⟩

/-- Three payloads, under a strategy whose digests are as long as their messages. -/
theorem build_shaped_three :
    ∃ t after, (build (.concatenation "concat") [[1], [2], [3]]).outcome [] = (.ok t, after) ∧
      t.Shaped (.concatenation "concat") [[1], [2], [3]] ∧ t.leafCount = 4 ∧ t.Rises 2 2 6 := by
  obtain ⟨t, after, hbuild, hshaped⟩ := build_shaped (HashStrategy.computes_ofDigest "concat" id)
    (by decide : [[1], [2], [3]] ≠ ([] : List Bytes)) []
  have hcount : t.leafCount = 4 := hshaped.length_pad_eq.symm
  have hsize : t.nodes.size = 7 := by rw [hshaped.size_eq, hcount]
  have hdepth : t.depth = 2 := by
    rw [depth, hcount]
    decide
  refine ⟨t, after, hbuild, hshaped, hcount, ?_⟩
  have hrises := (hshaped.rises_iff 2 (by rw [hcount]; decide) 2).mpr hdepth.symm
  rwa [hsize] at hrises

end MerkleTree

end OrderingService
