import OrderingService.Merkle.Tamper
import OrderingService.Proofs.Merkle.LeafDigests

/-!
# Tampered witnesses

Whoever holds a witness can write other bytes over its leaf digest and its siblings, and claim
another position. That this is always found out is not true: where a payload occurs twice, the
witness for one place can be the witness for the other as soon as the position is changed. What is
true is that nothing else gets through. The rewritten witnesses that verify are those that the tree
gives itself, each for the position that it claims.

A root is compared with where the climb ends, so a witness with another root is refused, whatever
collides.

## Main definitions

* `Witness.Rewrites` — other bytes where there were bytes, and any position

## Main results

* `MerkleTree.Issues.eq` — a tree gives one witness for a position
* `MerkleTree.build_issues_iff_of_rewrites` — which rewritten witnesses verify
-/

namespace OrderingService

namespace Witness

variable {w w' w'' : Witness}

/-- The witness `w'` comes from `w` by writing bytes over the bytes of the leaf digest and of the
siblings, and by claiming any position. -/
structure Rewrites (w w' : Witness) : Prop where
  root_eq : w'.root = w.root
  leafCount_eq : w'.leafCount = w.leafCount
  length_leaf : w'.leaf.length = w.leaf.length
  length_siblings : w'.path.map List.length = w.path.map List.length

namespace Rewrites

theorem trans (h : w.Rewrites w') (h' : w'.Rewrites w'') : w.Rewrites w'' where
  root_eq := h'.root_eq.trans h.root_eq
  leafCount_eq := h'.leafCount_eq.trans h.leafCount_eq
  length_leaf := h'.length_leaf.trans h.length_leaf
  length_siblings := h'.length_siblings.trans h.length_siblings

theorem setLeafIndex (w : Witness) (value : Nat) : w.Rewrites (w.edit (.setLeafIndex value)) :=
  ⟨rfl, rfl, rfl, rfl⟩

/-- Flipped bits are rewritten bytes. -/
theorem flip (w : Witness) {part : WitnessPart} (hpart : part ≠ .root) (byte bit : Nat) :
    w.Rewrites (w.edit (.flip part byte bit)) := by
  have hlength : ∀ b : Bytes, (Bytes.flipBit b byte bit).length = b.length :=
    fun b => List.length_modify _ b byte
  cases part with
  | root => exact absurd rfl hpart
  | leaf => exact ⟨rfl, rfl, hlength w.leaf, rfl⟩
  | sibling level =>
    refine ⟨rfl, rfl, rfl, ?_⟩
    show (w.path.modify level _).map List.length = _
    refine List.ext_getElem (by simp) fun k hk _ => ?_
    rw [List.getElem_map, List.getElem_map, List.getElem_modify]
    split
    · exact hlength _
    · rfl

end Rewrites

end Witness

namespace MerkleTree

variable {f : Bytes → Bytes} {H : HashStrategy} {padded : List Bytes} {t : MerkleTree}
  {w w' : Witness} {h : History} {height i j : Nat}

/-- A tree gives one witness for a position. -/
theorem Issues.eq (hw : t.Issues H j w) (hw' : t.Issues H j w') : w = w' := by
  cases (hw.issued []).symm.trans (hw'.issued [])
  rfl

/-- A witness that leads to its root leads to no other one. -/
theorem verify_with_root_eq_false (hH : H.Computes f)
    (hclimbed : climbed f w.path w.leafIndex w.leaf = w.root) {root : Bytes}
    (hroot : root ≠ w.root) : ({ w with root }.verify H h).1 = false := by
  rw [Bool.eq_false_iff]
  intro hv
  obtain ⟨-, hother⟩ := (Witness.verify_eq_true_iff hH).mp hv
  exact hroot (hother.symm.trans hclimbed)

/-- A rewritten witness that leads to the root is the tree's own for the position that it claims,
unless something collides. Its leaf count has not changed, so the climb starts on the leaf level. -/
theorem eq_witnessAt_of_rewrites {width : Nat} {ms : List Bytes}
    (hwidth : ∀ m, (f m).length = width) (hms : ¬ Collides f ms)
    (htree : MessagesIn f padded height ms)
    (hclimb : climbMessages f w.path w.leafIndex w.leaf ⊆ ms)
    (hr : (witnessAt f padded height i).Rewrites w) (hw : w.WellFormed)
    (hclimbed : climbed f w.path w.leafIndex w.leaf = w.root) :
    w.leafIndex < 2 ^ height ∧ w = witnessAt f padded height w.leafIndex := by
  have hlength : w.leaf.length = width + 1 := hr.length_leaf.trans (length_digestAt hwidth 0 i)
  have hroot : w.root = digestAt f padded height 0 := hr.root_eq
  obtain ⟨k, d, hk, hcount, hindex, hleaf, hpath⟩ := exists_node_of_climbed hwidth hms htree hclimb
    hlength hw (hclimbed.trans hroot)
  have hheight : 2 ^ d = 2 ^ height := hcount.symm.trans hr.leafCount_eq
  obtain rfl : d = height := (Nat.pow_right_inj (by decide)).mp hheight
  obtain rfl : k = 0 := by omega
  have htag := hleaf.trans (digestAt_zero _)
  exact ⟨hindex, eq_witnessAt_of_leafTag hk hcount hleaf hpath hroot htag⟩

/-- **Tampering with an issued witness is detected.** Take the witness that a tree gives for any of
its positions. With another root it does not verify. When bytes of its leaf digest and of its
siblings are written over, as many as there are, and any position is claimed, then it verifies just
if it is the witness that the tree gives for the claimed position, or else two different messages
among those hashed for the tree and for verifying have the same digest. -/
theorem build_issues_iff_of_rewrites (hH : H.Computes f) {width : Nat}
    (hwidth : ∀ m, (f m).length = width) {payloads : List Bytes} (hne : payloads ≠ [])
    (h : History) :
    ∃ t after, (build H payloads).outcome h = (.ok t, after) ∧
      ∀ i < t.leafCount, ∃ w, t.Issues H i w ∧
        (∀ (root : Bytes) (h' : History), root ≠ w.root →
          ({ w with root }.verify H h').1 = false) ∧
        ∀ (w' : Witness) (h' : History), w.Rewrites w' →
          ((w'.verify H h').1 = true ↔ w'.leafIndex < t.leafCount ∧ t.Issues H w'.leafIndex w') ∨
            Collides f (h.messagesSince after ++ h'.messagesSince (w'.verify H h').2) := by
  obtain ⟨after, hbuild, hms⟩ := (build_yields hH hne).outcome h
  refine ⟨_, after, hbuild, fun i hi => ⟨_, issues_arena hi H, fun root h' hroot => ?_,
    fun w' h' hr => ?_⟩⟩
  · exact verify_with_root_eq_false hH (climbed_witnessAt hi) hroot
  · refine Classical.or_iff_not_imp_right.mpr fun hcollides => ⟨fun hv => ?_, ?_⟩
    · obtain ⟨hw, hclimbed⟩ := (Witness.verify_eq_true_iff hH).mp hv
      rw [History.messagesSince_eq hms, messagesSince_verify hH hv] at hcollides
      obtain ⟨hindex, hwitness⟩ := eq_witnessAt_of_rewrites hwidth hcollides
        ((messagesIn_treeMessages (length_pad payloads)).mono (List.subset_append_left _ _))
        (List.subset_append_right _ _) hr hw hclimbed
      refine ⟨hindex, ?_⟩
      rw [hwitness]
      exact issues_arena hindex H
    · rintro ⟨hindex, hissues⟩
      rw [hissues.eq (issues_arena hindex H)]
      exact (Witness.verify_eq_true_iff hH).mpr
        ⟨wellFormed_witnessAt hindex, climbed_witnessAt hindex⟩

/-- A payload that occurs twice: the witness for the first place is good for the second one, but not
with a flipped bit in its sibling. -/
theorem build_issues_iff_of_rewrites_twice :
    ∃ t after w, (build (.ofDigest "mixed" mixed) [[1], [1]]).outcome [] = (.ok t, after) ∧
      t.Issues (.ofDigest "mixed" mixed) 0 w ∧
      ({ w with root := [] }.verify (.ofDigest "mixed" mixed) after).1 = false ∧
      t.Issues (.ofDigest "mixed" mixed) 1 (w.edit (.setLeafIndex 1)) ∧
      (((w.edit (.setLeafIndex 1)).edit (.flip (.sibling 0) 1 3)).verify
        (.ofDigest "mixed" mixed) after).1 = false := by
  have hH := HashStrategy.computes_ofDigest "mixed" mixed
  have hne : [[1], [1]] ≠ ([] : List Bytes) := by decide
  obtain ⟨t, after, hbuild, hall⟩ := build_issues_iff_of_rewrites hH (fun _ => rfl) hne []
  obtain ⟨after', hbuild', hms⟩ := (build_yields hH hne).outcome []
  obtain ⟨ht, rfl⟩ := Prod.mk.inj (hbuild.symm.trans hbuild')
  obtain rfl := Except.ok.inj ht
  obtain ⟨w, hissues, hroot, hrewrites⟩ := hall 0 (by decide)
  obtain rfl : w = witnessAt mixed (pad [[1], [1]]) 1 0 :=
    hissues.eq (issues_arena (by decide) _)
  have hmoved := Witness.Rewrites.setLeafIndex (witnessAt mixed (pad [[1], [1]]) 1 0) 1
  have hflipped := hmoved.trans (.flip _ (by decide : WitnessPart.sibling 0 ≠ .root) 1 3)
  have hsecond : (arena mixed (pad [[1], [1]]) 1).Issues (.ofDigest "mixed" mixed) 1
      ((witnessAt mixed (pad [[1], [1]]) 1 0).edit (.setLeafIndex 1)) := by
    have hv : (((witnessAt mixed (pad [[1], [1]]) 1 0).edit (.setLeafIndex 1)).verify
        (.ofDigest "mixed" mixed) after).1 = true :=
      (Witness.verify_eq_true_iff hH).mpr ⟨by decide, by decide⟩
    rcases hrewrites _ after hmoved with hiff | hcollides
    · exact (hiff.mp hv).2
    · rw [History.messagesSince_eq hms, messagesSince_verify hH hv] at hcollides
      exact absurd hcollides (by decide +kernel)
  refine ⟨_, after, _, hbuild, hissues, hroot _ after (by decide), hsecond, ?_⟩
  rw [Bool.eq_false_iff]
  intro hv
  rcases hrewrites _ after hflipped with hiff | hcollides
  · exact absurd (hsecond.eq (hiff.mp hv).2) (by decide)
  · rw [History.messagesSince_eq hms, messagesSince_verify hH hv] at hcollides
    exact absurd hcollides (by decide +kernel)

end MerkleTree

end OrderingService
