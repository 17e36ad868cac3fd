import OrderingService.Proofs.Merkle.Arena

/-!
# Issued and accepted witnesses

Every position of a tree has a witness, which verifies. And nothing else does: a witness with the
root of the tree may have any position, any leaf count and any siblings, and siblings of any length,
but if a payload verifies against it then it is the tree's own witness for its position and the
payload is the one at this position, or else two of the messages hashed on the way collide.

## Main definitions

* `MerkleTree.Issues` — a tree gives a witness for a position

## Main results

* `Witness.verify_eq_true_iff`, `Witness.verifyPayload_eq_true_iff` — verifying is a climb
* `MerkleTree.build_issues` — each position of a tree has a witness that verifies
* `MerkleTree.build_issues_of_verifyPayload` — a payload that verifies is at its position
-/

namespace OrderingService

open HashStrategy (leafTag)

variable {f : Bytes → Bytes} {H : HashStrategy}

/-! ### Verifying -/

/-- Climbing hashes one message a sibling. -/
theorem HashStrategy.climb_yields (hH : H.Computes f) (path : List Bytes) (j : Nat)
    (digest : Bytes) :
    (H.climb path j digest).Yields (MerkleTree.climbed f path j digest)
      (MerkleTree.climbMessages f path j digest) := by
  induction path generalizing j digest with
  | nil => exact Hashing.yields_pure digest
  | cons sibling path ih =>
    rw [climb, MerkleTree.climbed, MerkleTree.climbMessages]
    by_cases hj : j % 2 = 0
    · simp only [MerkleTree.joined, if_pos hj]
      exact (interiorHash_yields hH digest sibling).bind (ih (j / 2) _)
    · simp only [MerkleTree.joined, if_neg hj]
      exact (interiorHash_yields hH sibling digest).bind (ih (j / 2) _)

namespace Witness

/-- A well-formed witness is climbed; others are refused before anything is hashed. -/
theorem verify_of_wellFormed (hH : H.Computes f) {w : Witness} (hw : w.WellFormed) (h : History) :
    ∃ h', w.verify H h = (MerkleTree.climbed f w.path w.leafIndex w.leaf == w.root, h') ∧
      h'.messages = MerkleTree.climbMessages f w.path w.leafIndex w.leaf ++ h.messages := by
  obtain ⟨h', hclimb, hms⟩ := (HashStrategy.climb_yields hH w.path w.leafIndex w.leaf).outcome h
  exact ⟨h', by rw [verify, if_pos hw, hclimb], hms⟩

/-- **Verifying is a climb to the root.** -/
theorem verify_eq_true_iff (hH : H.Computes f) {w : Witness} {h : History} :
    (w.verify H h).1 = true ↔
      w.WellFormed ∧ MerkleTree.climbed f w.path w.leafIndex w.leaf = w.root := by
  by_cases hw : w.WellFormed
  · obtain ⟨h', hverify, -⟩ := verify_of_wellFormed hH hw h
    rw [hverify, beq_iff_eq]
    exact ⟨fun hroot => ⟨hw, hroot⟩, And.right⟩
  · rw [verify, if_neg hw]
    exact ⟨fun hfalse => absurd hfalse Bool.false_ne_true, fun hwf => absurd hwf.1 hw⟩

/-- The payload is hashed first, and compared with the leaf of the witness. -/
theorem verifyPayload_cases (hH : H.Computes f) (w : Witness) (payload : Bytes) (h : History) :
    ∃ h', h'.messages = payload :: h.messages ∧
      w.verifyPayload payload H h
        = if leafTag :: f payload = w.leaf then w.verify H h' else (false, h') := by
  obtain ⟨h', hleaf, hms⟩ := (HashStrategy.leafHash_yields hH payload).outcome h
  refine ⟨h', hms, ?_⟩
  rw [verifyPayload, hleaf]
  simp only [beq_iff_eq]

theorem verifyPayload_eq_true_iff (hH : H.Computes f) {w : Witness} {payload : Bytes}
    {h : History} :
    (w.verifyPayload payload H h).1 = true ↔ w.leaf = leafTag :: f payload ∧ w.WellFormed ∧
      MerkleTree.climbed f w.path w.leafIndex w.leaf = w.root := by
  obtain ⟨h', -, heq⟩ := verifyPayload_cases hH w payload h
  rw [heq]
  by_cases hleaf : leafTag :: f payload = w.leaf
  · rw [if_pos hleaf, verify_eq_true_iff hH]
    exact ⟨fun hwf => ⟨hleaf.symm, hwf⟩, And.right⟩
  · rw [if_neg hleaf]
    exact ⟨fun hfalse => absurd hfalse Bool.false_ne_true, fun hall => absurd hall.1.symm hleaf⟩

/-- What is hashed to accept a payload. -/
theorem messagesSince_verifyPayload (hH : H.Computes f) {w : Witness} {payload : Bytes}
    {h : History} (hv : (w.verifyPayload payload H h).1 = true) :
    h.messagesSince (w.verifyPayload payload H h).2
      = MerkleTree.climbMessages f w.path w.leafIndex w.leaf ++ [payload] := by
  obtain ⟨hleaf, hw, -⟩ := (verifyPayload_eq_true_iff hH).mp hv
  obtain ⟨h₁, hpayload, heq⟩ := verifyPayload_cases hH w payload h
  obtain ⟨h₂, hverify, hclimb⟩ := verify_of_wellFormed hH hw h₁
  refine History.messagesSince_eq ?_
  rw [heq, if_pos hleaf.symm, hverify, hclimb, hpayload, List.append_assoc, List.singleton_append]

end Witness

namespace MerkleTree

/-! ### Issuing -/

/-- A tree gives the witness `w` for a position. This asks the strategy nothing and reads only
inside the arena, so it goes the same way from every history. -/
structure Issues (t : MerkleTree) (H : HashStrategy) (index : Nat) (w : Witness) : Prop where
  issued : ∀ h, (t.proveIndex H index).outcome h = (.ok w, h)
  root_eq : ∀ h, (t.root H).outcome h = (.ok w.root, h)
  leaf_lt_size : index < t.nodes.size
  root_lt_size : ∀ r, t.rootIndex = some r → r < t.nodes.size
  sibling_lt_size : ∀ i ∈ siblingIndices t.depth 0 index, i < t.nodes.size
  length_path : w.path.length = t.depth
  leafIndex_eq : w.leafIndex = index
  leafCount_eq : w.leafCount = t.leafCount

variable {padded : List Bytes}

theorem issues_arena {height j : Nat} (hj : j < 2 ^ height) (H : HashStrategy) :
    (arena f padded height).Issues H j (witnessAt f padded height j) where
  issued := fun h => by rw [proveIndex_arena hj, Hashing.outcome_pure]
  root_eq := fun h => by
    rw [root_arena, Hashing.outcome_pure]
    rfl
  leaf_lt_size := by
    rw [size_arena, Nat.pow_succ]
    omega
  root_lt_size := fun r hr => by
    rw [rootIndex_arena, Option.some.injEq] at hr
    rw [← hr, size_arena, Nat.pow_succ]
    have := Nat.two_pow_pos height
    omega
  sibling_lt_size := fun i hi => by
    rw [depth_arena] at hi
    rw [size_arena]
    have := lt_of_mem_siblingIndices hj hi
    omega
  length_path := by rw [depth_arena, witnessAt, length_siblings]
  leafIndex_eq := rfl
  leafCount_eq := rfl

theorem wellFormed_witnessAt {height j : Nat} (hj : j < 2 ^ height) :
    (witnessAt f padded height j).WellFormed := by
  refine ⟨digestAt_ne_nil height 0, ?_, hj, ?_⟩
  · rw [witnessAt, Nat.log2_two_pow]
  · rw [witnessAt, length_siblings, Nat.log2_two_pow]

/-- The witness for a position leads to the root, which is the only node on its level. -/
theorem climbed_witnessAt {P : List Bytes} {height j : Nat} (hj : j < 2 ^ height) :
    climbed f (siblings f P height 0 j) j (digestAt f P 0 j) = digestAt f P height 0 := by
  rw [climbed_siblings, Nat.zero_add, Nat.div_eq_of_lt hj]

/-- **Every issued witness verifies.** A batch is built to a tree whose leaf count is the least
power of two that holds it. The tree gives a witness for each position, reading only inside its
arena; the witness verifies, and so does the payload at its position, which is empty in the
padding. -/
theorem build_issues (hH : H.Computes f) {payloads : List Bytes} (hne : payloads ≠ [])
    (h : History) :
    ∃ t after, (build H payloads).outcome h = (.ok t, after) ∧ t.leafCount = 2 ^ t.depth ∧
      payloads.length ≤ t.leafCount ∧ (∀ k, payloads.length ≤ 2 ^ k → t.leafCount ≤ 2 ^ k) ∧
      ∀ i < t.leafCount, ∃ w, t.Issues H i w ∧ ∀ h',
        (w.verify H h').1 = true ∧
        (∀ payload, payloads[i]? = some payload → (w.verifyPayload payload H h').1 = true) ∧
        (payloads.length ≤ i → (w.verifyPayload [] H h').1 = true) := by
  obtain ⟨after, hbuild, -⟩ := (build_yields hH hne).outcome h
  refine ⟨_, after, hbuild, by rw [depth_arena]; rfl, le_ceilPowerOfTwo _,
    fun k => ceilPowerOfTwo_le, fun i hi => ?_⟩
  have hw : (witnessAt f (pad payloads) (ceilLog2 payloads.length) i).WellFormed :=
    wellFormed_witnessAt hi
  have hclimbed := climbed_witnessAt (f := f) (P := pad payloads) hi
  refine ⟨_, issues_arena hi H, fun h' => ⟨?_, ?_, ?_⟩⟩
  · exact (Witness.verify_eq_true_iff hH).mpr ⟨hw, hclimbed⟩
  · intro payload hpayload
    refine (Witness.verifyPayload_eq_true_iff hH).mpr ⟨?_, hw, hclimbed⟩
    rw [witnessAt, digestAt, getD_pad, List.getD_eq_getElem?_getD, hpayload, Option.getD_some]
  · intro hi
    refine (Witness.verifyPayload_eq_true_iff hH).mpr ⟨?_, hw, hclimbed⟩
    rw [witnessAt, digestAt, getD_pad, List.getD_eq_default _ _ hi]

/-- The padding of three payloads, under a strategy whose digests are as long as their messages. -/
theorem build_issues_padding :
    ∃ t after w, (build (.concatenation "concat") [[1], [2], [3]]).outcome [] = (.ok t, after) ∧
      t.leafCount = 4 ∧ t.Issues (.concatenation "concat") 3 w ∧
      (w.verifyPayload [] (.concatenation "concat") after).1 = true := by
  obtain ⟨t, after, hbuild, hpower, hheld, hleast, hall⟩ := build_issues
    (HashStrategy.computes_ofDigest "concat" id) (by decide : [[1], [2], [3]] ≠ ([] : List Bytes))
    []
  have hcount : t.leafCount = 4 := by
    have hfour : ((build (.concatenation "concat") [[1], [2], [3]]).outcome []).1.toOption.map
        leafCount = some 4 := by decide +kernel
    have hsame : ((build (.concatenation "concat") [[1], [2], [3]]).outcome []).1 = .ok t :=
      congrArg Prod.fst hbuild
    rw [hsame] at hfour
    exact Option.some.inj hfour
  obtain ⟨w, hissues, hverify⟩ := hall 3 (by rw [hcount]; decide)
  exact ⟨t, after, w, hbuild, hcount, hissues, (hverify after).2.2 (by decide)⟩

/-! ### Accepting -/

/-- A well-formed witness with the root of a tree, for whose leaf a payload was accepted, is the
tree's own, unless something collides. -/
theorem eq_witnessAt_of_climbed {width height : Nat} {ms : List Bytes} {w : Witness}
    {payload : Bytes} (hwidth : ∀ m, (f m).length = width) (hms : ¬ Collides f ms)
    (htree : MessagesIn f padded height ms) (hpayload : payload ∈ ms)
    (hclimb : climbMessages f w.path w.leafIndex w.leaf ⊆ ms)
    (hleaf : w.leaf = leafTag :: f payload) (hw : w.WellFormed)
    (hroot : w.root = digestAt f padded height 0)
    (hclimbed : climbed f w.path w.leafIndex w.leaf = w.root) :
    w.leafIndex < 2 ^ height ∧ payload = padded.getD w.leafIndex [] ∧
      w = witnessAt f padded height w.leafIndex := by
  obtain ⟨root, leaf, path, leafIndex, leafCount⟩ := w
  obtain ⟨-, hcount, hindex, hlength⟩ := hw
  dsimp only at *
  have hlen : leaf.length = width + 1 := by rw [hleaf, List.length_cons, hwidth]
  obtain ⟨k, hheight, hnode, hpath⟩ :=
    eq_siblings_of_climbed hwidth hms htree hlen hclimb (hclimbed.trans hroot)
  obtain rfl : k = 0 := level_eq_zero_of_leafTag (hleaf.symm.trans hnode)
  rw [Nat.zero_add, hlength] at hheight
  subst hheight
  rw [hlength, ← hcount, Nat.mod_eq_of_lt hindex] at hnode hpath
  have hmessage : payload = messageAt f padded 0 leafIndex :=
    eq_of_not_collides hms hpayload
      (htree 0 _ leafIndex (Nat.zero_add _) (by rwa [← hcount]))
      (List.cons.inj (hleaf.symm.trans hnode)).2
  refine ⟨by rwa [← hcount], hmessage, ?_⟩
  rw [witnessAt, ← hroot, ← hnode, ← hpath, ← hcount]

/-- **A payload that verifies is at its position.** Whatever the witness, if it has the root of the
tree and a payload verifies against it, then the payload is the one at its position and the witness
is the one that the tree gives for this position, or two different messages among those hashed for
the tree and for verifying have the same digest. -/
theorem build_issues_of_verifyPayload (hH : H.Computes f) {width : Nat}
    (hwidth : ∀ m, (f m).length = width) {payloads : List Bytes} (hne : payloads ≠ [])
    (h : History) :
    ∃ t after, (build H payloads).outcome h = (.ok t, after) ∧
      ∀ (w : Witness) (payload : Bytes) (h' : History),
        (∃ g g', (t.root H).outcome g = (.ok w.root, g')) →
        (w.verifyPayload payload H h').1 = true →
        (w.leafCount = t.leafCount ∧ w.leafIndex < t.leafCount ∧
            (pad payloads)[w.leafIndex]? = some payload ∧ t.Issues H w.leafIndex w) ∨
          Collides f (h.messagesSince after ++
            h'.messagesSince (w.verifyPayload payload H h').2) := by
  obtain ⟨after, hbuild, hms⟩ := (build_yields hH hne).outcome h
  refine ⟨_, after, hbuild, fun w payload h' hroot hv => ?_⟩
  obtain ⟨g, g', hroot⟩ := hroot
  rw [root_arena, Hashing.outcome_pure] at hroot
  obtain ⟨hleaf, hw, hclimbed⟩ := (Witness.verifyPayload_eq_true_iff hH).mp hv
  rw [History.messagesSince_eq hms, Witness.messagesSince_verifyPayload hH hv]
  refine Classical.or_iff_not_imp_right.mpr fun hcollides => ?_
  obtain ⟨hindex, hpayload, hwitness⟩ := eq_witnessAt_of_climbed hwidth hcollides
    ((messagesIn_treeMessages (length_pad payloads)).mono (List.subset_append_left _ _))
    (by simp) (fun m hm => by simp [hm]) hleaf hw
    (Except.ok.inj (Prod.mk.inj hroot).1).symm hclimbed
  refine ⟨by rw [hwitness]; rfl, hindex, ?_, ?_⟩
  · rw [List.getElem?_eq_getElem (by rw [length_pad]; exact hindex), hpayload,
      List.getD_eq_getElem]
  · rw [hwitness]
    exact issues_arena hindex H

/-- The last of three payloads, with the witness that is made for it, where nothing collides. -/
theorem build_issues_of_verifyPayload_mixed :
    ∃ t after w, (build (.ofDigest "mixed" mixed) [[1], [2], [3]]).outcome [] = (.ok t, after) ∧
      (w.verifyPayload [3] (.ofDigest "mixed" mixed) after).1 = true ∧
      w.leafIndex = 2 ∧ t.Issues (.ofDigest "mixed" mixed) 2 w := by
  have hH := HashStrategy.computes_ofDigest "mixed" mixed
  have hne : [[1], [2], [3]] ≠ ([] : List Bytes) := by decide
  obtain ⟨t, after, hbuild, hall⟩ := build_issues_of_verifyPayload hH (fun _ => rfl) hne []
  obtain ⟨after', hbuild', hms⟩ := (build_yields hH hne).outcome []
  obtain ⟨ht, rfl⟩ := Prod.mk.inj (hbuild.symm.trans hbuild')
  obtain rfl := Except.ok.inj ht
  have hv : ((witnessAt mixed (pad [[1], [2], [3]]) 2 2).verifyPayload [3]
      (.ofDigest "mixed" mixed) after).1 = true := by
    refine (Witness.verifyPayload_eq_true_iff hH).mpr ⟨by decide, ?_, ?_⟩
    · exact wellFormed_witnessAt (by decide)
    · exact climbed_witnessAt (by decide)
  refine ⟨_, after, _, hbuild, hv, rfl, ?_⟩
  rcases hall _ _ after ⟨[], [], by rw [root_arena]; rfl⟩ hv with hright | hcollides
  · exact hright.2.2.2
  · rw [History.messagesSince_eq hms, Witness.messagesSince_verifyPayload hH hv] at hcollides
    exact absurd hcollides (by decide +kernel)

end MerkleTree

end OrderingService
