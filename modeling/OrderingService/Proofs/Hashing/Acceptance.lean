import OrderingService.Hashing.Algorithm
import OrderingService.Merkle.Prove
import OrderingService.Proofs.Hashing.Outcome

/-!
# Strategies that refuse nothing

Under a strategy that accepts every write nothing that hashes can fail for that reason. What is left
to fail is the shape of a tree and the range of a position, and these depend on numbers of digests
alone: however digests are made, even if they depend on what was asked before, a batch that is not
empty gets a tree, and each of its payloads a witness.

## Main definitions

* `HashStrategy.Accepts` — the strategy refuses nothing
* `Hashing.Succeeds` — a computation succeeds from every history, with a value of some kind

## Main results

* `Hashing.Succeeds.bind` — one computation after another
* `MerkleTree.build_succeeds` — a batch that is not empty gets a tree with a leaf for each payload
-/

namespace OrderingService

/-- The strategy refuses nothing. -/
def HashStrategy.Accepts (H : HashStrategy) : Prop := ∀ h bytes, H.refusal h bytes = none

theorem HashStrategy.accepts_ofAlgorithm (a : Algorithm) : (HashStrategy.ofAlgorithm a).Accepts :=
  fun _ _ => rfl

namespace Hashing

variable {α β : Type} {x : Hashing α} {P : α → Prop} {Q : β → Prop}

/-- From every history, the computation succeeds with a value that has the property. -/
def Succeeds (x : Hashing α) (P : α → Prop) : Prop := ∀ h, ∃ a h', x h = .ok a h' ∧ P a

theorem succeeds_pure {a : α} (ha : P a) : Succeeds (pure a) P := fun h => ⟨a, h, rfl, ha⟩

theorem Succeeds.bind {f : α → Hashing β} (hx : x.Succeeds P)
    (hf : ∀ a, P a → (f a).Succeeds Q) : Succeeds (x >>= f) Q := by
  intro h
  obtain ⟨a, m, ha, hP⟩ := hx h
  obtain ⟨b, h', hb, hQ⟩ := hf a hP m
  exact ⟨b, h', bind_eq_ok.mpr ⟨a, m, ha, hb⟩, hQ⟩

/-- A last step that asks nothing. -/
theorem Succeeds.bind_pure {f : α → β} (hx : x.Succeeds P) (hf : ∀ a, P a → Q (f a)) :
    Succeeds (x >>= fun a => pure (f a)) Q :=
  hx.bind fun a ha => succeeds_pure (hf a ha)

theorem Succeeds.outcome (hx : x.Succeeds P) (h : History) :
    ∃ a h', x.outcome h = (.ok a, h') ∧ P a := by
  obtain ⟨a, h', ha, hP⟩ := hx h
  exact ⟨a, h', outcome_eq_ok.mpr ha, hP⟩

end Hashing

open Hashing (Succeeds)

namespace HashStrategy

variable {H : HashStrategy}

/-! ### Digests -/

theorem write_succeeds (hH : H.Accepts) (bytes : Bytes) : (H.write bytes).Succeeds fun _ => True :=
  fun h => ⟨(), _, by rw [write, hH], trivial⟩

theorem writeAll_succeeds (hH : H.Accepts) (chunks : List Bytes) :
    (H.writeAll chunks).Succeeds fun _ => True := by
  induction chunks with
  | nil => exact Hashing.succeeds_pure trivial
  | cons chunk rest ih => exact (write_succeeds hH chunk).bind fun _ _ => ih

theorem digestOf_succeeds (hH : H.Accepts) (chunks : List Bytes) :
    (H.digestOf chunks).Succeeds fun _ => True := by
  have hget : Succeeds (get : Hashing History) fun _ => True := fun h => ⟨h, h, rfl, trivial⟩
  have hset : ∀ m : History, Succeeds (set m : Hashing PUnit) fun _ => True :=
    fun m h => ⟨⟨⟩, m, rfl, trivial⟩
  rw [digestOf]
  exact hget.bind fun made _ => (hset _).bind fun _ _ =>
    (writeAll_succeeds hH chunks).bind_pure fun _ _ => trivial

theorem leafHash_succeeds (hH : H.Accepts) (payload : Bytes) :
    (H.leafHash payload).Succeeds fun _ => True :=
  (digestOf_succeeds hH [payload]).bind_pure fun _ _ => trivial

theorem interiorHash_succeeds (hH : H.Accepts) (left right : Bytes) :
    (H.interiorHash left right).Succeeds fun _ => True :=
  (digestOf_succeeds hH [left, right]).bind_pure fun _ _ => trivial

end HashStrategy

namespace MerkleTree

variable {H : HashStrategy}

/-! ### Trees -/

theorem leafHashes_succeeds (hH : H.Accepts) (payloads : List Bytes) :
    (leafHashes H payloads).Succeeds fun digests => digests.length = payloads.length := by
  induction payloads with
  | nil => exact Hashing.succeeds_pure rfl
  | cons payload rest ih =>
    exact (HashStrategy.leafHash_succeeds hH payload).bind fun digest _ =>
      ih.bind_pure fun digests hlen => congrArg (· + 1) hlen

/-- Two digests make one parent, so the induction takes two off the level. -/
theorem parents_succeeds (hH : H.Accepts) (start : Nat) (digests : List Bytes) :
    (parents H start digests).Succeeds fun row => row.length = digests.length / 2 := by
  induction start, digests using parents.induct with
  | case1 start left right rest ih =>
    refine (HashStrategy.interiorHash_succeeds hH left right).bind fun digest _ =>
      ih.bind_pure fun row hlen => ?_
    rw [List.length_cons, List.length_cons, List.length_cons, hlen]
    omega
  | case2 digests start hshort =>
    have hlen : digests.length / 2 = 0 := by
      rcases digests with _ | ⟨left, _ | ⟨right, rest⟩⟩
      · rfl
      · exact Nat.div_eq_of_lt (by simp)
      · exact absurd rfl (hshort left right rest)
    rw [parents]
    · exact Hashing.succeeds_pure hlen.symm
    · exact hshort

/-- No level of a power of two of leaves is odd, except the topmost, which has nothing above. -/
theorem levelsAbove_succeeds (hH : H.Accepts) (depth start level : Nat) (digests : List Bytes)
    (hlen : digests.length = 2 ^ depth) :
    (levelsAbove H depth start level digests).Succeeds fun _ => True := by
  induction depth generalizing start level digests with
  | zero => exact Hashing.succeeds_pure trivial
  | succ depth ih =>
    have heven : ¬ (digests.length % 2 ≠ 0) := by
      rw [hlen, Nat.pow_succ, Nat.mul_mod_left]
      exact fun h => h rfl
    rw [levelsAbove, if_neg heven]
    refine (parents_succeeds hH start digests).bind fun row hrow => ?_
    refine (ih _ _ _ ?_).bind_pure fun _ _ => trivial
    rw [List.length_map, hrow, hlen, Nat.pow_succ, Nat.mul_div_cancel _ (by decide)]

/-- **A batch that is not empty gets a tree**, with a leaf for each payload, padding included. -/
theorem build_succeeds (hH : H.Accepts) {payloads : List Bytes} (hne : payloads ≠ []) :
    (build H payloads).Succeeds fun t =>
      t.leafCount = ceilPowerOfTwo payloads.length ∧ ∃ root, t.rootIndex = some root := by
  have hpad : (pad payloads).length = ceilPowerOfTwo payloads.length := by
    have := le_ceilPowerOfTwo payloads.length
    rw [pad, List.length_append, List.length_replicate]
    omega
  rw [build, if_neg (by rwa [List.isEmpty_iff])]
  refine (leafHashes_succeeds hH (pad payloads)).bind fun leaves hleaves => ?_
  have hcount : leaves.length = 2 ^ ceilLog2 payloads.length := hleaves.trans hpad
  refine (levelsAbove_succeeds hH _ 0 0 leaves ?_).bind_pure fun _ _ => ?_
  · rw [hcount, Nat.log2_two_pow]
  · exact ⟨hleaves.trans hpad, _, rfl⟩

/-- **A position of a tree with a root gets its witness**, whatever is refused. -/
theorem proveIndex_succeeds {t : MerkleTree} {root index : Nat} (hr : t.rootIndex = some root)
    (hlt : index < t.leafCount) (H : HashStrategy) :
    (t.proveIndex H index).Succeeds fun _ => True := by
  have hroot : (t.root H).Succeeds fun _ => True := fun h => by
    rw [MerkleTree.root, hr]
    exact ⟨_, h, rfl, trivial⟩
  rw [proveIndex, if_neg (Nat.not_le.mpr hlt)]
  exact hroot.bind_pure fun _ _ => trivial

end MerkleTree

end OrderingService
