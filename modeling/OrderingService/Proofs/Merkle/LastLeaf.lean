import OrderingService.Proofs.Merkle.Queries
import OrderingService.Proofs.Merkle.Tampering

/-!
# Proving by a digest

A digest does not say where it stands: a payload may occur twice, and an empty payload has the
digest of the padding. The last leaf with the digest is taken. That it is the last one matters for
the padding: whoever asks for an empty payload in a batch that was padded is given the last position
of the tree, whether or not there are empty payloads in front.

Which position is taken depends on the digests alone and holds for every tree. That the witness
verifies is another matter, since a check hashes again: for it a strategy has to refuse nothing and
to digest as it did when the tree was built. It need not be a function of the bytes joined.

## Main definitions

* `MerkleTree.Made` — a tree that is built, or the one without leaves
* `MerkleTree.ProvesLast` — what proving by a digest gives
* `MerkleTree.Digested` — the digests of a tree under a strategy that does not change

## Main results

* `MerkleTree.lastLeaf?_eq_some` — the search finds the greatest position
* `MerkleTree.Digested.climb_succeeds` — the siblings in the arena lead from each node to the root
* `MerkleTree.Digested.verifyPayload_eq_true` — a witness verifies each payload with the digest of its
  leaf
* `MerkleTree.prove_last` — proving by a digest finds the last leaf
-/

namespace OrderingService

open HashStrategy (leafTag interiorTag)

variable {G H : HashStrategy}

namespace HashStrategy

open Hashing (Follows Succeeds)

/-! ### Strategies that do not change -/

theorem Accepts.succeeds_of_follows {α : Type} (hH : H.Accepts) {x : Hashing α}
    {calls : History → List HashCall} {a : α} (hx : ∀ h, x.Follows H h (calls h) a) :
    x.Succeeds (· = a) :=
  fun h => ⟨a, _, (hx h).admitted (hH.admits h _), rfl⟩

theorem leafHash_succeeds_eq (hH : H.Accepts) (hfresh : H.Fresh) (payload : Bytes) :
    (H.leafHash payload).Succeeds (· = leafTag :: H.digest [] [payload]) :=
  hH.succeeds_of_follows fun h => by
    rw [hfresh [] h]
    exact leafHash_follows h payload

theorem interiorHash_succeeds_eq (hH : H.Accepts) (hfresh : H.Fresh) (left right : Bytes) :
    (H.interiorHash left right).Succeeds (· = interiorTag :: H.digest [] [left, right]) :=
  hH.succeeds_of_follows fun h => by
    rw [hfresh [] h]
    exact interiorHash_follows h left right

end HashStrategy

namespace MerkleTree

variable {t : MerkleTree} {payloads padded : List Bytes} {payload digest : Bytes} {h h' : History}
  {i : Nat}

/-! ### The last leaf -/

/-- What is found from behind is the greatest number. -/
theorem le_of_find?_reverse_range {p : Nat → Bool} {n j : Nat}
    (hfind : (List.range n).reverse.find? p = some i) (hj : j < n) (hp : p j = true) : j ≤ i := by
  induction n with
  | zero => omega
  | succ n ih =>
    rw [List.range_succ, List.reverse_append, List.reverse_singleton, List.singleton_append,
      List.find?_cons] at hfind
    by_cases hlast : p n = true
    · rw [hlast, Option.some.injEq] at hfind
      omega
    · have hne : j ≠ n := by
        rintro rfl
        exact hlast hp
      rw [Bool.eq_false_iff.mpr hlast] at hfind
      exact ih hfind (by omega)

theorem lastLeaf?_eq_some (hlast : t.lastLeaf? digest = some i) :
    i < t.leafCount ∧ t.hashAt i = digest ∧ ∀ j < t.leafCount, t.hashAt j = digest → j ≤ i := by
  refine ⟨lt_of_lastLeaf? hlast, by simpa using List.find?_some hlast, fun j hj hdigest => ?_⟩
  exact le_of_find?_reverse_range hlast hj (by simpa using hdigest)

theorem lastLeaf?_eq_none (hlast : t.lastLeaf? digest = none) :
    ∀ j < t.leafCount, t.hashAt j ≠ digest := by
  simpa [lastLeaf?] using hlast

/-- A tree that a strategy has built, or the one without leaves. -/
def Made (t : MerkleTree) : Prop :=
  t = empty ∨ ∃ H payloads h after, (build H payloads).outcome h = (.ok t, after)

theorem Made.getElem?_leaves_eq_some_iff (ht : t.Made) :
    t.leaves[i]?.map Node.hash = some digest ↔ i < t.leafCount ∧ t.hashAt i = digest := by
  rcases ht with rfl | ⟨H, payloads, h, after, hb⟩
  · simp [leaves, empty]
  · have hperfect := Perfect.of_build (Hashing.outcome_eq_ok.mp hb)
    by_cases hi : i < t.leafCount
    · simp [hperfect.getElem?_leaves hi, hi, Node.leaf]
    · rw [List.getElem?_eq_none (by rw [hperfect.length_leaves]; omega)]
      simp [hi]

theorem Made.mem_leaves_iff (ht : t.Made) :
    (∃ leaf ∈ t.leaves, leaf.hash = digest) ↔ ∃ j < t.leafCount, t.hashAt j = digest := by
  rw [← List.mem_map, List.mem_iff_getElem?]
  simp only [List.getElem?_map, ht.getElem?_leaves_eq_some_iff]

theorem Made.issues (ht : t.Made) (G : HashStrategy) (hi : i < t.leafCount) :
    ∃ w, t.Issues G i w := by
  rcases ht with rfl | ⟨H, payloads, h, after, hb⟩
  · exact absurd hi (Nat.not_lt_zero i)
  · exact ⟨_, (Perfect.of_build (Hashing.outcome_eq_ok.mp hb)).issues G hi⟩

/-- What proving by a digest gives, whatever the strategy has become. -/
structure ProvesLast (t : MerkleTree) (G : HashStrategy) (digest : Bytes) : Prop where
  leafNotFound_iff : ∀ g, (∃ g', (t.prove G digest).outcome g = (.error .leafNotFound, g')) ↔
    ∀ leaf ∈ t.leaves, leaf.hash ≠ digest
  /-- The witness is the one for the greatest position at which a leaf has the digest. -/
  proveIndex : (∃ leaf ∈ t.leaves, leaf.hash = digest) → ∃ i w,
    t.leaves[i]?.map Node.hash = some digest ∧
    (∀ j, t.leaves[j]?.map Node.hash = some digest → j ≤ i) ∧
    t.prove G digest = t.proveIndex G i ∧ t.Issues G i w

theorem Made.provesLast (ht : t.Made) (G : HashStrategy) (digest : Bytes) :
    t.ProvesLast G digest := by
  have hleaves : (∀ leaf ∈ t.leaves, leaf.hash ≠ digest) ↔
      ¬ ∃ j < t.leafCount, t.hashAt j = digest := by
    rw [← ht.mem_leaves_iff]
    simp
  cases hlast : t.lastLeaf? digest with
  | none =>
    have hnone := lastLeaf?_eq_none hlast
    have hprove : t.prove G digest = throw .leafNotFound := by rw [MerkleTree.prove, hlast]
    refine ⟨fun g => ?_, fun hfound => ?_⟩
    · rw [hleaves, hprove]
      constructor
      · rintro - ⟨j, hj, hdigest⟩
        exact hnone j hj hdigest
      · intro _
        exact ⟨g, rfl⟩
    · obtain ⟨j, hj, hdigest⟩ := ht.mem_leaves_iff.mp hfound
      exact absurd hdigest (hnone j hj)
  | some i =>
    obtain ⟨hi, hdigest, hgreatest⟩ := lastLeaf?_eq_some hlast
    obtain ⟨w, hw⟩ := ht.issues G hi
    have hprove : t.prove G digest = t.proveIndex G i := by rw [MerkleTree.prove, hlast]
    refine ⟨fun g => ?_, fun _ => ⟨i, w, ?_, fun j hj => ?_, hprove, hw⟩⟩
    · rw [hleaves, hprove, hw.issued g]
      constructor
      · rintro ⟨g', hfails⟩
        cases hfails
      · intro hnone
        exact absurd ⟨i, hi, hdigest⟩ hnone
    · exact ht.getElem?_leaves_eq_some_iff.mpr ⟨hi, hdigest⟩
    · obtain ⟨hj, hsame⟩ := ht.getElem?_leaves_eq_some_iff.mp hj
      exact hgreatest j hj hsame

/-! ### Climbing in the arena -/

/-- The digests of a tree over padded payloads under a strategy that does not change. -/
structure Digested (t : MerkleTree) (H : HashStrategy) (padded : List Bytes) : Prop where
  perfect : t.Perfect
  length_eq : padded.length = t.leafCount
  leaf : ∀ i < t.leafCount, t.hashAt i = leafTag :: H.digest [] [padded.getD i []]
  interior : ∀ j, j + 1 < t.leafCount → t.hashAt (t.leafCount + j)
    = interiorTag :: H.digest [] [t.hashAt (2 * j), t.hashAt (2 * j + 1)]

theorem digested_of_build (hfresh : H.Fresh) (hb : build H payloads h = .ok t h') :
    t.Digested H (pad payloads) := by
  have hperfect := Perfect.of_build hb
  obtain ⟨leaves, above, hg, rfl⟩ := grows_of_build hb
  have hlen := hg.length_above
  refine ⟨hperfect, hg.length_leaves.symm, fun i hi => ?_, fun j hj => ?_⟩
  · have hi : i < leaves.length := hi
    have hpayload : i < (pad payloads).length := by rwa [← hg.length_leaves]
    have hleaf := congrArg (·[i]?) hg.leaves_eq
    rw [hfresh.digests_eq _ []] at hleaf
    rw [hashAt_ofDigests, List.getD_append _ _ _ _ hi, List.getD_eq_getElem?_getD]
    simp [hleaf, hpayload]
  · have hj : j + 1 < leaves.length := hj
    have hdigest := congrArg (·[j]?) hg.above_eq
    have hpair : j < (leaves ++ above).length / 2 := by
      rw [List.length_append]
      omega
    rw [hfresh.digests_eq _ [], pairs_eq_map_range, List.map_map, List.map_map, List.getElem?_map,
      List.getElem?_range hpair] at hdigest
    simp only [hashAt_ofDigests]
    show (leaves ++ above).getD (leaves.length + j) [] = _
    rw [List.getD_append_right _ _ _ _ (Nat.le_add_right _ _), Nat.add_sub_cancel_left,
      List.getD_eq_getElem?_getD, hdigest]
    rfl

namespace Digested

open Hashing (Succeeds)

/-- The digest of an interior node is hashed again from those below it. -/
theorem interiorHash_succeeds (ht : t.Digested H padded) (hH : H.Accepts) (hfresh : H.Fresh)
    {j : Nat} (hj : j + 1 < t.leafCount) :
    (H.interiorHash (t.hashAt (2 * j)) (t.hashAt (2 * j + 1))).Succeeds
      (· = t.hashAt (t.leafCount + j)) := by
  rw [ht.interior j hj]
  exact HashStrategy.interiorHash_succeeds_eq hH hfresh _ _

/-- **The siblings in the arena lead from each node to the root.** The node stands on the level with
`2 ^ height` nodes, and the induction is on the levels above it. -/
theorem climb_succeeds (ht : t.Digested H padded) (hH : H.Accepts) (hfresh : H.Fresh)
    {height start position : Nat} (hstart : start + 2 * 2 ^ height = 2 * t.leafCount)
    (hposition : position < 2 ^ height) :
    (H.climb ((siblingIndices height start position).map t.hashAt) position
      (t.hashAt (start + position))).Succeeds (· = t.hashAt (t.nodes.size - 1)) := by
  have hsize := ht.perfect.size_eq
  induction height generalizing start position with
  | zero =>
    rw [show t.nodes.size - 1 = start + position by omega]
    exact Hashing.succeeds_pure rfl
  | succ height ih =>
    have hpos := Nat.two_pow_pos height
    rw [Nat.pow_succ] at hstart hposition
    have hnext : start + 2 ^ (height + 1) + 2 * 2 ^ height = 2 * t.leafCount := by
      rw [Nat.pow_succ]
      omega
    have hhalf : position / 2 < 2 ^ height := by omega
    have habove := ih hnext hhalf
    -- the node and its sibling are the two below the interior node number `j`
    obtain ⟨j, hj⟩ : ∃ j, start + 2 * (position / 2) = 2 * j := ⟨start / 2 + position / 2, by omega⟩
    have hindex : start + 2 ^ (height + 1) + position / 2 = t.leafCount + j := by
      rw [Nat.pow_succ]
      omega
    have hparent := ht.interiorHash_succeeds hH hfresh (j := j) (by omega)
    rw [hindex] at habove
    rw [siblingIndices, List.map_cons, HashStrategy.climb]
    rcases left_or_right position with ⟨q, rfl | rfl⟩
    · rw [if_pos (by omega), two_mul_xor_one, show start + 2 * q = 2 * j by omega,
        show start + (2 * q + 1) = 2 * j + 1 by omega]
      exact hparent.bind fun parent heq => heq ▸ habove
    · rw [if_neg (by omega), two_mul_add_one_xor_one, show start + 2 * q = 2 * j by omega,
        show start + (2 * q + 1) = 2 * j + 1 by omega]
      exact hparent.bind fun parent heq => heq ▸ habove

theorem hashAt_ne_nil (ht : t.Digested H padded) (hi : i < t.nodes.size) : t.hashAt i ≠ [] := by
  have hsize := ht.perfect.size_eq
  rcases Nat.lt_or_ge i t.leafCount with hlt | hge
  · rw [ht.leaf i hlt]
    exact List.cons_ne_nil _ _
  · obtain ⟨j, rfl⟩ : ∃ j, i = t.leafCount + j := ⟨i - t.leafCount, by omega⟩
    rw [ht.interior j (by omega)]
    exact List.cons_ne_nil _ _

theorem verify_eq_true (ht : t.Digested H padded) (hH : H.Accepts) (hfresh : H.Fresh)
    (hi : i < t.leafCount) {w : Witness} (hw : t.Issues G i w) (g : History) :
    (w.verify H g).1 = true := by
  have hsize := ht.perfect.size_eq
  have hcount := ht.perfect.leafCount_eq
  obtain rfl := hw.eq (ht.perfect.issues G hi)
  have hstart : 0 + 2 * 2 ^ t.depth = 2 * t.leafCount := by rw [← hcount, Nat.zero_add]
  have hposition : i < 2 ^ t.depth := by rwa [← hcount]
  have hclimb := ht.climb_succeeds hH hfresh hstart hposition
  rw [Nat.zero_add] at hclimb
  obtain ⟨_, g', hroot, rfl⟩ := hclimb.outcome g
  rw [Witness.verify, if_pos ⟨ht.hashAt_ne_nil (by omega), hcount, hi, hw.length_path⟩,
    MerkleTree.siblingPath, hroot]
  exact beq_self_eq_true _

/-- **A witness verifies each payload with the digest of its leaf**, which may be another one than
stands there. -/
theorem verifyPayload_eq_true (ht : t.Digested H padded) (hH : H.Accepts) (hfresh : H.Fresh)
    (hi : i < t.leafCount) (hleaf : t.hashAt i = leafTag :: H.digest [] [payload]) {w : Witness}
    (hw : t.Issues G i w) (g : History) : (w.verifyPayload payload H g).1 = true := by
  have hsame : w.leaf = leafTag :: H.digest [] [payload] := by
    rw [hw.eq (ht.perfect.issues G hi), hleaf]
  obtain ⟨_, g', hhash, rfl⟩ := (HashStrategy.leafHash_succeeds_eq hH hfresh payload).outcome g
  rw [Witness.verifyPayload, hhash, hsame]
  simp only [beq_self_eq_true, if_true]
  exact ht.verify_eq_true hH hfresh hi hw g'

/-- The leaf at a position has the digest of the payload there. -/
theorem hashAt_eq_of_getElem? (ht : t.Digested H padded) (hi : padded[i]? = some payload) :
    i < t.leafCount ∧ t.hashAt i = leafTag :: H.digest [] [payload] := by
  have hlt : i < t.leafCount := by
    rw [← ht.length_eq]
    exact (List.getElem?_eq_some_iff.mp hi).1
  rw [ht.leaf i hlt, List.getD_eq_getElem?_getD, hi, Option.getD_some]
  exact ⟨hlt, rfl⟩

/-- The digest of a payload gets a witness for the payload, which is not in front of it. -/
theorem exists_prove_eq (ht : t.Digested H padded) (hH : H.Accepts) (hfresh : H.Fresh)
    (hmem : payload ∈ padded) :
    ∃ i w, t.prove H (leafTag :: H.digest [] [payload]) = t.proveIndex H i ∧ t.Issues H i w ∧
      i < t.leafCount ∧ (∀ j, padded[j]? = some payload → j ≤ i) ∧
      ∀ g, (w.verifyPayload payload H g).1 = true := by
  cases hlast : t.lastLeaf? (leafTag :: H.digest [] [payload]) with
  | none =>
    obtain ⟨j, hj⟩ := List.mem_iff_getElem?.mp hmem
    obtain ⟨hlt, hdigest⟩ := ht.hashAt_eq_of_getElem? hj
    exact absurd hdigest (lastLeaf?_eq_none hlast j hlt)
  | some i =>
    obtain ⟨hi, hleaf, hgreatest⟩ := lastLeaf?_eq_some hlast
    have hw := ht.perfect.issues H hi
    refine ⟨i, _, by rw [MerkleTree.prove, hlast], hw, hi, fun j hj => ?_, fun g => ?_⟩
    · obtain ⟨hlt, hdigest⟩ := ht.hashAt_eq_of_getElem? hj
      exact hgreatest j hlt hdigest
    · exact ht.verifyPayload_eq_true hH hfresh hi hleaf hw g

end Digested

/-! ### Proving -/

/-- Behind the payloads of a batch, the padded batch has empty ones. -/
theorem getElem?_pad_of_length_le (hle : payloads.length ≤ i) (hi : i < (pad payloads).length) :
    (pad payloads)[i]? = some [] := by
  have hempty : (pad payloads).getD i [] = [] := by
    rw [getD_pad, List.getD_eq_default _ _ hle]
  rw [List.getElem?_eq_getElem hi, ← List.getD_eq_getElem _ [] hi, hempty]

/-- **Proving by a digest finds the last leaf.** Whatever tree it is, the one without leaves or one
that some strategy has built, and whatever its strategy has become: if no leaf has the digest, the
padding included, then this is the error, and if there are such leaves, then the witness is the one
for the greatest of their positions. So under a strategy that refuses nothing and whose accumulators
start in their initial state every time, the leaf digest of each payload of a padded batch gets a
witness, against which the payload verifies. Its position is not below any at which the payload
stands, which makes it the last one of the tree for an empty payload in a batch that was padded. -/
theorem prove_last :
    (∀ t : MerkleTree, t.Made → ∀ G digest, t.ProvesLast G digest) ∧
    ∀ H : HashStrategy, H.Accepts → H.Fresh → ∀ payloads : List Bytes, payloads ≠ [] → ∀ h,
      ∃ t after, (build H payloads).outcome h = (.ok t, after) ∧
        ∀ payload ∈ pad payloads, ∀ g, ∃ digest g' w,
          (H.leafHash payload).outcome g = (.ok digest, g') ∧
          (t.prove H digest).outcome g' = (.ok w, g') ∧
          (∀ i, (pad payloads)[i]? = some payload → i ≤ w.leafIndex) ∧
          (∀ h', (w.verifyPayload payload H h').1 = true) ∧
          (payload = [] → payloads.length < t.leafCount → w.leafIndex = t.leafCount - 1) := by
  refine ⟨fun t ht G digest => ht.provesLast G digest, fun H hH hfresh payloads hne h => ?_⟩
  obtain ⟨t, after, hb, -⟩ := build_succeeds hH hne h
  have ht := digested_of_build hfresh hb
  refine ⟨t, after, Hashing.outcome_eq_ok.mpr hb, fun payload hmem g => ?_⟩
  obtain ⟨_, g', hhash, rfl⟩ := (HashStrategy.leafHash_succeeds_eq hH hfresh payload).outcome g
  obtain ⟨i, w, hprove, hw, hi, hbelow, hverify⟩ := ht.exists_prove_eq hH hfresh hmem
  rw [← hw.leafIndex_eq] at hi hbelow
  refine ⟨_, g', w, hhash, by rw [hprove, hw.issued], hbelow, hverify, ?_⟩
  rintro rfl hshort
  have hlen := ht.length_eq
  have hend := hbelow (t.leafCount - 1) (getElem?_pad_of_length_le (by omega) (by omega))
  omega

/-- The padding behind three payloads has the digest of the two empty ones among them, and is found.
In the tree without leaves nothing is. -/
theorem prove_last_padding :
    (∃ g, (empty.prove (.concatenation "concat") [0]).outcome [] = (.error .leafNotFound, g)) ∧
    ∃ t after digest g w, (build (.concatenation "concat") [[], [1], []]).outcome []
        = (.ok t, after) ∧
      ((HashStrategy.concatenation "concat").leafHash []).outcome after = (.ok digest, g) ∧
      (t.prove (.concatenation "concat") digest).outcome g = (.ok w, g) ∧ w.leafIndex = 3 ∧
      (w.verifyPayload [] (.concatenation "concat") g).1 = true := by
  have hempty := prove_last.1 empty (Or.inl rfl) (.concatenation "concat") [0]
  refine ⟨(hempty.leafNotFound_iff []).mpr fun leaf hmem => (List.not_mem_nil hmem).elim, ?_⟩
  obtain ⟨t, after, hb, hall⟩ := prove_last.2 (.concatenation "concat") (fun _ _ => rfl)
    (fun _ _ _ => rfl) [[], [1], []] (by decide) []
  obtain ⟨t', after', hb', hcount⟩ : ∃ t after, (build (.concatenation "concat")
      [[], [1], []]).outcome [] = (.ok t, after) ∧ t.leafCount = 4 := ⟨_, _, rfl, rfl⟩
  obtain rfl : t = t' := Except.ok.inj (Prod.mk.inj (hb.symm.trans hb')).1
  obtain ⟨digest, g, w, hhash, hprove, -, hverify, hend⟩ := hall [] (by decide) after
  rw [hcount] at hend
  exact ⟨t, after, digest, g, w, hb, hhash, hprove, hend rfl (by decide), hverify g⟩

end MerkleTree

end OrderingService
