import OrderingService.Merkle.Prove
import OrderingService.Proofs.Merkle.Digests

/-!
# The arena of a tree that is built

Under a strategy that refuses nothing, building a batch gives one tree, known in advance: its nodes
are the digests of `MerkleTree.digestAt`, level after level. The builder, which goes through the
levels with a running arena index, and the prover, which finds the levels again by adding up their
widths, are both compared with this list, each by an induction on the number of levels above.

## Main definitions

* `MerkleTree.levels` — the digests from one level upwards, level by level
* `MerkleTree.nodesAbove`, `MerkleTree.arena` — the nodes, and the tree
* `MerkleTree.messagesAbove`, `MerkleTree.treeMessages` — what is hashed on the way
* `MerkleTree.witnessAt` — the witness for a position

## Main results

* `MerkleTree.build_yields` — a batch is built to its arena
* `MerkleTree.messagesIn_treeMessages` — the message of each digest is hashed
* `MerkleTree.proveIndex_arena` — a position's witness holds the siblings of the tree, and only
  places inside the arena are read for it
-/

namespace OrderingService

namespace MerkleTree

open HashStrategy (leafTag interiorTag)

variable {f : Bytes → Bytes} {padded : List Bytes} {H : HashStrategy}

/-! ### Rows and levels -/

/-- The first digests of a level. -/
def row (f : Bytes → Bytes) (padded : List Bytes) (width level : Nat) : List Bytes :=
  (List.range width).map (digestAt f padded level)

/-- The digests of a tree of some height that stands on a level, level by level. -/
def levels (f : Bytes → Bytes) (padded : List Bytes) : (height level : Nat) → List Bytes
  | 0, k => row f padded (2 ^ 0) k
  | height + 1, k => row f padded (2 ^ (height + 1)) k ++ levels f padded height (k + 1)

/-- The nodes above a row of `2 ^ height` digests whose first node has arena index `start`. -/
def nodesAbove (f : Bytes → Bytes) (padded : List Bytes) : (height start level : Nat) → List Node
  | 0, _, _ => []
  | height + 1, start, k =>
    (List.range (2 ^ height)).map (fun j =>
        ⟨digestAt f padded (k + 1) j, some (start + 2 * j, start + 2 * j + 1)⟩)
      ++ nodesAbove f padded height (start + 2 ^ (height + 1)) (k + 1)

/-- What is hashed for the nodes above a row of `2 ^ height` digests, latest first. -/
def messagesAbove (f : Bytes → Bytes) (padded : List Bytes) : (height level : Nat) → List Bytes
  | 0, _ => []
  | height + 1, k =>
    messagesAbove f padded height (k + 1)
      ++ ((List.range (2 ^ height)).map (messageAt f padded (k + 1))).reverse

/-- The tree over `2 ^ height` payloads. -/
def arena (f : Bytes → Bytes) (padded : List Bytes) (height : Nat) : MerkleTree :=
  let nodes := (row f padded (2 ^ height) 0).map Node.leaf ++ nodesAbove f padded height 0 0
  ⟨nodes.toArray, 2 ^ height, some (2 * (2 ^ height - 1))⟩

/-- What is hashed for the tree over `2 ^ height` payloads, latest first. -/
def treeMessages (f : Bytes → Bytes) (padded : List Bytes) (height : Nat) : List Bytes :=
  messagesAbove f padded height 0 ++ padded.reverse

@[simp] theorem length_row (width k : Nat) : (row f padded width k).length = width := by
  rw [row, List.length_map, List.length_range]

theorem getElem?_row {width j : Nat} (h : j < width) (k : Nat) :
    (row f padded width k)[j]? = some (digestAt f padded k j) := by
  rw [row, List.getElem?_map, List.getElem?_range h, Option.map_some]

/-- One node on top, and twice as many on each level below. -/
theorem length_levels (height k : Nat) :
    (levels f padded height k).length = 2 ^ (height + 1) - 1 := by
  induction height generalizing k with
  | zero => exact length_row _ k
  | succ height ih =>
    rw [levels, List.length_append, length_row, ih, Nat.pow_succ 2 (height + 1)]
    have := Nat.two_pow_pos (height + 1)
    omega

/-- The root comes last. -/
theorem getLast?_levels (height k : Nat) :
    (levels f padded height k).getLast? = some (digestAt f padded (k + height) 0) := by
  induction height generalizing k with
  | zero => rfl
  | succ height ih =>
    rw [levels, List.getLast?_append, ih, Option.some_or, Nat.add_right_comm, Nat.add_assoc]

/-- The digests of the arena, from one level upwards, are those of the tree. -/
theorem row_append_map_hash (height start k : Nat) :
    row f padded (2 ^ height) k ++ (nodesAbove f padded height start k).map Node.hash
      = levels f padded height k := by
  induction height generalizing start k with
  | zero => rw [nodesAbove, List.map_nil, List.append_nil, levels]
  | succ height ih =>
    rw [nodesAbove, List.map_append, List.map_map, levels, ← ih (start + 2 ^ (height + 1)) (k + 1)]
    rfl

theorem length_nodes (height : Nat) :
    ((row f padded (2 ^ height) 0).map Node.leaf ++ nodesAbove f padded height 0 0).length
      = 2 ^ (height + 1) - 1 := by
  have hdigests : (levels f padded height 0).length = _ := length_levels height 0
  rw [← row_append_map_hash height 0 0, List.length_append, List.length_map] at hdigests
  rw [List.length_append, List.length_map, hdigests]

/-! ### Padding -/

theorem length_pad (payloads : List Bytes) :
    (pad payloads).length = 2 ^ ceilLog2 payloads.length := by
  have := le_ceilPowerOfTwo payloads.length
  rw [pad, List.length_append, List.length_replicate, Nat.add_sub_cancel' this]
  rfl

/-- Padding only adds empty payloads behind. -/
theorem getD_pad (payloads : List Bytes) (i : Nat) :
    (pad payloads).getD i [] = payloads.getD i [] := by
  rcases Nat.lt_or_ge i payloads.length with hlt | hge
  · rw [pad, List.getD_append _ _ _ _ hlt]
  · rw [pad, List.getD_append_right _ _ _ _ hge, List.getD_eq_default _ _ hge,
      List.getD_eq_getElem?_getD, List.getElem?_getD_replicate_default_eq]

/-! ### Building -/

theorem leafHashes_yields (hH : H.Computes f) (payloads : List Bytes) :
    (leafHashes H payloads).Yields (payloads.map fun p => leafTag :: f p) payloads.reverse := by
  induction payloads with
  | nil => exact Hashing.yields_pure []
  | cons payload rest ih =>
    rw [List.map_cons, List.reverse_cons]
    exact (HashStrategy.leafHash_yields hH payload).bind (ih.bind_pure _)

/-- The leaf row of a batch that is padded already. -/
theorem map_leaf_eq_row {height : Nat} (hlen : padded.length = 2 ^ height) :
    padded.map (fun p => leafTag :: f p) = row f padded (2 ^ height) 0 := by
  refine List.ext_getElem? fun j => ?_
  rcases Nat.lt_or_ge j (2 ^ height) with hlt | hge
  · rw [getElem?_row hlt, List.getElem?_map, List.getElem?_eq_getElem (by omega), digestAt,
      List.getD_eq_getElem?_getD, List.getElem?_eq_getElem (by omega)]
    rfl
  · rw [List.getElem?_eq_none (by rw [List.length_map]; omega),
      List.getElem?_eq_none (by rw [length_row]; exact hge)]

/-- The parents of a row. The digests are taken from any function, so that the induction can shift
it by the pair that is done. -/
theorem parents_yields (hH : H.Computes f) (g : Nat → Bytes) (n start : Nat) :
    (parents H start ((List.range (2 * n)).map g)).Yields
      ((List.range n).map fun j =>
        ⟨interiorTag :: f (g (2 * j) ++ g (2 * j + 1)), some (start + 2 * j, start + 2 * j + 1)⟩)
      ((List.range n).map fun j => g (2 * j) ++ g (2 * j + 1)).reverse := by
  induction n generalizing g start with
  | zero => exact Hashing.yields_pure []
  | succ n ih =>
    have hrest := ih (fun j => g (j + 2)) (start + 2)
    have hlist : (List.range (2 * (n + 1))).map g
        = g 0 :: g 1 :: (List.range (2 * n)).map fun j => g (j + 2) := by
      rw [Nat.mul_succ, List.range_succ_eq_map, List.range_succ_eq_map]
      simp only [List.map_cons, List.map_map]
      rfl
    have hnodes : (fun j => (⟨interiorTag :: f (g (2 * j + 2) ++ g (2 * j + 1 + 2)),
          some (start + 2 + 2 * j, start + 2 + 2 * j + 1)⟩ : Node))
        = (fun j => ⟨interiorTag :: f (g (2 * j) ++ g (2 * j + 1)),
            some (start + 2 * j, start + 2 * j + 1)⟩) ∘ Nat.succ := by
      funext j
      rw [Function.comp_apply, Nat.succ_eq_add_one, Nat.mul_add, Nat.add_right_comm start 2,
        ← Nat.add_assoc start]
    rw [hlist, List.range_succ_eq_map, List.map_cons, List.map_cons, List.map_map, List.map_map,
      List.reverse_cons, ← hnodes]
    exact (HashStrategy.interiorHash_yields hH (g 0) (g 1)).bind (hrest.bind_pure _)

/-- The topmost level starts behind as many nodes as the levels below it have, and there are twice
as many of them as interior nodes. -/
theorem levelsAbove_yields (hH : H.Computes f) (height start level k : Nat) :
    (levelsAbove H height start level (row f padded (2 ^ height) k)).Yields
      (nodesAbove f padded height start k, start + 2 * (2 ^ height - 1))
      (messagesAbove f padded height k) := by
  induction height generalizing start level k with
  | zero => exact Hashing.yields_pure ([], start)
  | succ height ih =>
    have heven : ¬ (2 ^ (height + 1) % 2 ≠ 0) := by
      rw [Nat.pow_succ, Nat.mul_mod_left]
      exact fun h => h rfl
    have hparents := parents_yields hH (digestAt f padded k) (2 ^ height) start
    rw [← Nat.pow_succ'] at hparents
    have habove := ih (start + 2 ^ (height + 1)) (level + 1) (k + 1)
    have htop : start + 2 ^ (height + 1) + 2 * (2 ^ height - 1)
        = start + 2 * (2 ^ (height + 1) - 1) := by
      have := Nat.two_pow_pos height
      rw [Nat.pow_succ]
      omega
    rw [levelsAbove, length_row, if_neg heven, nodesAbove, ← htop]
    refine hparents.bind (Hashing.Yields.bind_pure (a := (_, _)) ?_ _)
    rw [List.map_map]
    exact habove

/-- **A batch is built to its arena.** -/
theorem build_yields (hH : H.Computes f) {payloads : List Bytes} (hne : payloads ≠ []) :
    (build H payloads).Yields (arena f (pad payloads) (ceilLog2 payloads.length))
      (treeMessages f (pad payloads) (ceilLog2 payloads.length)) := by
  have hlen := length_pad payloads
  have hleaves := leafHashes_yields hH (pad payloads)
  rw [map_leaf_eq_row hlen] at hleaves
  rw [build, if_neg (by rwa [List.isEmpty_iff])]
  refine hleaves.bind ?_
  rw [length_row, Nat.log2_two_pow]
  have hinterior : (levelsAbove H _ 0 0 (row f (pad payloads) _ 0)).Yields _ _ :=
    levelsAbove_yields hH (ceilLog2 payloads.length) 0 0 0
  rw [Nat.zero_add] at hinterior
  exact hinterior.bind_pure _

/-! ### What is hashed -/

theorem messageAt_mem_messagesAbove {height d j k l : Nat} (hl : l + 1 + d = height)
    (hj : j < 2 ^ d) :
    messageAt f padded (k + l + 1) j ∈ messagesAbove f padded height k := by
  induction l generalizing height k with
  | zero =>
    obtain rfl : height = d + 1 := by omega
    rw [messagesAbove, List.mem_append, List.mem_reverse, List.mem_map]
    exact Or.inr ⟨j, List.mem_range.mpr hj, rfl⟩
  | succ l ih =>
    obtain ⟨height, rfl⟩ : ∃ m, height = m + 1 := ⟨l + 1 + d, by omega⟩
    rw [messagesAbove, List.mem_append, ← Nat.add_assoc, Nat.add_right_comm k l 1]
    exact Or.inl (ih (by omega))

/-- **The message of each digest of a tree is hashed.** -/
theorem messagesIn_treeMessages {height : Nat} (hlen : padded.length = 2 ^ height) :
    MessagesIn f padded height (treeMessages f padded height) := by
  intro k d j hk hj
  rw [treeMessages, List.mem_append]
  cases k with
  | zero =>
    obtain rfl : d = height := by omega
    rw [List.mem_reverse, messageAt, List.getD_eq_getElem _ _ (by omega)]
    exact Or.inr (List.getElem_mem _)
  | succ k =>
    refine Or.inl ?_
    rw [← Nat.zero_add k]
    exact messageAt_mem_messagesAbove hk hj

/-! ### Proving -/

/-- The digests of the arena are those of the tree. -/
theorem hashAt_arena (height i : Nat) :
    (arena f padded height).hashAt i = (levels f padded height 0).getD i [] := by
  rw [← row_append_map_hash height 0 0, List.getD_eq_getElem?_getD, hashAt, arena,
    List.getElem?_toArray, ← List.getElem?_map, List.map_append, List.map_map,
    show Node.hash ∘ Node.leaf = id from rfl, List.map_id]

theorem size_arena (height : Nat) :
    (arena f padded height).nodes.size = 2 ^ (height + 1) - 1 := by
  rw [arena, List.size_toArray, length_nodes]

theorem rootIndex_arena (height : Nat) :
    (arena f padded height).rootIndex = some (2 ^ (height + 1) - 2) := by
  rw [arena, Nat.pow_succ', Nat.mul_sub]

theorem depth_arena (height : Nat) : (arena f padded height).depth = height := Nat.log2_two_pow

/-- The prover adds up the widths of the levels and finds the siblings of the tree. Before the
level on which it stands lie the digests `before`. -/
theorem map_siblingIndices (before : List Bytes) {height k j : Nat} (hj : j < 2 ^ height) :
    (siblingIndices height before.length j).map
        (fun i => (before ++ levels f padded height k).getD i [])
      = siblings f padded height k j := by
  induction height generalizing before k j with
  | zero => rfl
  | succ height ih =>
    have hsibling : (before ++ levels f padded (height + 1) k).getD (before.length + (j ^^^ 1)) []
        = digestAt f padded k (j ^^^ 1) := by
      rw [List.getD_append_right _ _ _ _ (by omega), Nat.add_sub_cancel_left, levels,
        List.getD_append _ _ _ _ (by rw [length_row]; exact xor_one_lt hj),
        List.getD_eq_getElem?_getD, getElem?_row (xor_one_lt hj), Option.getD_some]
    have habove := ih (before ++ row f padded (2 ^ (height + 1)) k) (k := k + 1) (j := j / 2)
      (by rw [Nat.pow_succ] at hj; omega)
    rw [List.length_append, length_row, List.append_assoc] at habove
    rw [siblingIndices, siblings, List.map_cons, hsibling, levels, habove]

/-- The prover stays inside the arena. -/
theorem lt_of_mem_siblingIndices {height start j i : Nat} (hj : j < 2 ^ height)
    (hi : i ∈ siblingIndices height start j) : i < start + (2 ^ (height + 1) - 1) := by
  induction height generalizing start j with
  | zero => cases hi
  | succ height ih =>
    have htwo := Nat.two_pow_pos (height + 1)
    rw [siblingIndices, List.mem_cons] at hi
    rw [Nat.pow_succ 2 (height + 1)]
    rcases hi with rfl | hi
    · have := xor_one_lt hj
      omega
    · have := ih (by rw [Nat.pow_succ] at hj; omega) hi
      omega

theorem siblingPath_arena {height j : Nat} (hj : j < 2 ^ height) :
    (arena f padded height).siblingPath j = siblings f padded height 0 j := by
  rw [siblingPath, depth_arena, ← map_siblingIndices [] hj]
  refine List.map_congr_left fun i _ => ?_
  rw [hashAt_arena, List.nil_append]

theorem hashAt_arena_leaf {height j : Nat} (hj : j < 2 ^ height) :
    (arena f padded height).hashAt j = digestAt f padded 0 j := by
  rw [hashAt_arena, ← row_append_map_hash height 0 0,
    List.getD_append _ _ _ _ (by rw [length_row]; exact hj), List.getD_eq_getElem?_getD,
    getElem?_row hj, Option.getD_some]

/-- The root digest is the topmost one. -/
theorem root_arena (height : Nat) (H : HashStrategy) :
    (arena f padded height).root H = pure (digestAt f padded height 0) := by
  have hlast : (levels f padded height 0)[2 ^ (height + 1) - 2]?
      = some (digestAt f padded height 0) := by
    rw [← Nat.zero_add height, ← getLast?_levels, List.getLast?_eq_getElem?, length_levels,
      Nat.sub_sub, Nat.zero_add]
  rw [root, rootIndex_arena]
  show pure ((arena f padded height).hashAt (2 ^ (height + 1) - 2)) = _
  rw [hashAt_arena, List.getD_eq_getElem?_getD, hlast, Option.getD_some]

/-- The witness for a position, from the tree. -/
def witnessAt (f : Bytes → Bytes) (padded : List Bytes) (height position : Nat) : Witness where
  root := digestAt f padded height 0
  leaf := digestAt f padded 0 position
  path := siblings f padded height 0 position
  leafIndex := position
  leafCount := 2 ^ height

/-- **A position's witness holds the siblings of the tree**, and asks the strategy nothing. -/
theorem proveIndex_arena {height j : Nat} (hj : j < 2 ^ height) (H : HashStrategy) :
    (arena f padded height).proveIndex H j = pure (witnessAt f padded height j) := by
  have hin : ¬ (arena f padded height).leafCount ≤ j := Nat.not_le.mpr hj
  rw [proveIndex, if_neg hin, root_arena, hashAt_arena_leaf hj, siblingPath_arena hj]
  rfl

end MerkleTree

end OrderingService
