import OrderingService.Proofs.Merkle.Shape
import OrderingService.Proofs.Merkle.Tampering

/-!
# What is in a path

The prover walks up with a running arena index, a width and a position, and reads one digest a
level. What it reads has a meaning without any of the three: at level `k` it is the digest, by
halves, of the block of `2 ^ k` payloads beside the one in which the proven payload lies. Blocks are
counted from the left, so their numbers are the bits of the position from `k` on, and the block
beside one has the number whose last bit is the other one.

So a path says nothing of the lowest bits of its position from a level on, and positions in one
block share their paths above it.

## Main results

* `MerkleTree.getElem?_siblings` — the siblings by their level
* `MerkleTree.drop_siblings` — positions below one node have the same siblings above it
* `MerkleTree.siblings_yield_halved` — a sibling is the digest of a block
* `MerkleTree.build_path_halved` — a path lists the digests of the blocks beside its position
-/

namespace OrderingService

namespace MerkleTree

variable {f : Bytes → Bytes} {H : HashStrategy} {padded : List Bytes} {height level i j k : Nat}

/-- The siblings by their level. -/
theorem getElem?_siblings (hk : k < height) : (siblings f padded height level j)[k]?
    = some (digestAt f padded (level + k) ((j / 2 ^ k) ^^^ 1)) := by
  induction k generalizing height level j with
  | zero =>
    obtain ⟨height, rfl⟩ : ∃ n, height = n + 1 := ⟨height - 1, by omega⟩
    simp [siblings]
  | succ k ih =>
    obtain ⟨height, rfl⟩ : ∃ n, height = n + 1 := ⟨height - 1, by omega⟩
    rw [siblings, List.getElem?_cons_succ, ih (by omega), Nat.div_div_eq_div_mul, Nat.pow_succ',
      Nat.add_right_comm, Nat.add_assoc]

/-- Positions below one node have the same siblings above it. -/
theorem drop_siblings (hij : i / 2 ^ k = j / 2 ^ k) :
    (siblings f padded height level i).drop k = (siblings f padded height level j).drop k := by
  induction k generalizing height level i j with
  | zero =>
    obtain rfl : i = j := by simpa using hij
    rfl
  | succ k ih =>
    rw [Nat.pow_succ', ← Nat.div_div_eq_div_mul, ← Nat.div_div_eq_div_mul] at hij
    cases height with
    | zero => rfl
    | succ height =>
      rw [siblings, siblings, List.drop_succ_cons, List.drop_succ_cons]
      exact ih hij

/-- The sibling at a level is the digest, by halves, of the block beside the one of the position. -/
theorem siblings_yield_halved (hH : H.Computes f) (hlen : padded.length = 2 ^ height)
    (hi : i < 2 ^ height) (hk : k < height) :
    (block padded k ((i >>> k) ^^^ 1)).length = 2 ^ k ∧ ∃ digest ms,
      (siblings f padded height 0 i)[k]? = some digest ∧
        (halved H (block padded k ((i >>> k) ^^^ 1))).Yields digest ms := by
  obtain ⟨d, rfl⟩ : ∃ d, height = k + (d + 1) := ⟨height - k - 1, by omega⟩
  have hnumber : (i >>> k) ^^^ 1 < 2 ^ (d + 1) := by
    refine xor_one_lt ?_
    rw [Nat.shiftRight_eq_div_pow, Nat.div_lt_iff_lt_mul (Nat.two_pow_pos k), ← Nat.pow_add,
      Nat.add_comm]
    exact hi
  obtain ⟨ms, hhalved⟩ := halved_yields hH hlen hnumber
  refine ⟨length_block hlen hnumber, _, ms, ?_, hhalved⟩
  rw [getElem?_siblings hk, Nat.zero_add, Nat.shiftRight_eq_div_pow]

/-- **A path lists the digests of the blocks beside its position.** In a tree that is built over a
batch, the entry for level `k` in the path of each position is the digest, by halves, of a block of
`2 ^ k` payloads, padding included. It is the block beside the one in which the position lies. So
the paths of a position and of its neighbour differ in their first entry only, and the paths of two
positions in one block of `2 ^ k` are the same from entry `k` on. -/
theorem build_path_halved (hH : H.Computes f) {payloads : List Bytes} (hne : payloads ≠ [])
    (h : History) :
    ∃ t after, (build H payloads).outcome h = (.ok t, after) ∧ t.leafCount = 2 ^ t.depth ∧
      ∀ i < t.leafCount, ∃ w, t.Issues H i w ∧
        (∀ k < t.depth, (block (pad payloads) k ((i >>> k) ^^^ 1)).length = 2 ^ k ∧
          ∃ digest ms, w.path[k]? = some digest ∧
            (halved H (block (pad payloads) k ((i >>> k) ^^^ 1))).Yields digest ms) ∧
        (1 < t.leafCount → ∃ w', t.Issues H (i ^^^ 1) w' ∧ w.path.drop 1 = w'.path.drop 1) ∧
        ∀ j < t.leafCount, ∀ w', t.Issues H j w' → ∀ k, i >>> k = j >>> k →
          w.path.drop k = w'.path.drop k := by
  obtain ⟨after, hbuild, -⟩ := (build_yields hH hne).outcome h
  have hlen := length_pad payloads
  generalize ceilLog2 payloads.length = height at hbuild hlen
  refine ⟨_, after, hbuild, by rw [depth_arena]; rfl, fun i hi => ?_⟩
  have hi : i < 2 ^ height := hi
  refine ⟨_, issues_arena hi H, ?_, ?_, ?_⟩
  · intro k hk
    rw [depth_arena] at hk
    exact siblings_yield_halved hH hlen hi hk
  · intro hone
    have hone : 1 < 2 ^ height := hone
    obtain ⟨d, rfl⟩ : ∃ d, height = d + 1 :=
      Nat.exists_eq_succ_of_ne_zero fun hzero => by simp [hzero] at hone
    refine ⟨_, issues_arena (xor_one_lt hi) H, drop_siblings ?_⟩
    rw [Nat.pow_one, Nat.xor_div_two, Nat.div_eq_of_lt (by decide : 1 < 2), Nat.xor_zero]
  · intro j hj w' hw' k hblock
    rw [hw'.eq (issues_arena hj H)]
    rw [Nat.shiftRight_eq_div_pow, Nat.shiftRight_eq_div_pow] at hblock
    exact drop_siblings hblock

/-- Five payloads, of which the fourth has the block of the third beside it, then that of the first
two, then the other half of the batch with its padding. -/
theorem build_path_halved_five :
    ∃ t after w, (build (.concatenation "concat") [[1], [2], [3], [4], [5]]).outcome []
        = (.ok t, after) ∧ t.Issues (.concatenation "concat") 3 w ∧
      (∃ digest ms, w.path[2]? = some digest ∧
        (halved (.concatenation "concat") [[5], [], [], []]).Yields digest ms) ∧
      ∃ w', t.Issues (.concatenation "concat") 2 w' ∧ w.path.drop 1 = w'.path.drop 1 := by
  obtain ⟨t, after, hbuild, hdepth, hall⟩ := build_path_halved
    (HashStrategy.computes_ofDigest "concat" id)
    (by decide : [[1], [2], [3], [4], [5]] ≠ ([] : List Bytes)) []
  obtain ⟨t', after', hbuild', hcount⟩ : ∃ t after, (build (.concatenation "concat")
      [[1], [2], [3], [4], [5]]).outcome [] = (.ok t, after) ∧ t.leafCount = 8 := ⟨_, _, rfl, rfl⟩
  obtain rfl : t = t' := Except.ok.inj (Prod.mk.inj (hbuild.symm.trans hbuild')).1
  rw [hcount] at hall hdepth
  have hthree : t.depth = 3 := (Nat.pow_right_inj (by decide)).mp hdepth.symm
  obtain ⟨w, hw, hpath, hneighbour, -⟩ := hall 3 (by decide)
  exact ⟨t, after, w, hbuild, hw, (hpath 2 (by rw [hthree]; decide)).2, hneighbour (by decide)⟩

end MerkleTree

end OrderingService
