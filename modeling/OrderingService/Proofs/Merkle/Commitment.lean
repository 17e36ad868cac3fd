import OrderingService.Proofs.Merkle.Arena

/-!
# What a root commits to

The roots of two batches are equal exactly when the padded batches are, unless two of the messages
that are hashed for them collide. Nothing relates the sizes of the batches beforehand: trees of
different heights cannot share a root, since a leaf digest would have to be an interior one.

## Main definitions

* `MerkleTree.CommitsTo` — a batch is built to a tree with this root

## Main results

* `MerkleTree.pad_append_replicate` — empty payloads within the padding are no difference
* `MerkleTree.commitsTo_eq_iff_pad_eq` — a root determines the padded batch
-/

namespace OrderingService

namespace MerkleTree

variable {f : Bytes → Bytes} {H : HashStrategy} {P Q : List Bytes}

/-- From the history `h`, a batch is built to a tree with the root digest `root`, and the history
`after` is left. -/
def CommitsTo (H : HashStrategy) (payloads : List Bytes) (h : History) (root : Bytes)
    (after : History) : Prop :=
  ∃ t, (build H payloads).outcome h = (.ok t, after) ∧ ∀ g, (t.root H).outcome g = (.ok root, g)

/-- Under a strategy that refuses nothing, every batch has a root. -/
theorem exists_commitsTo (hH : H.Computes f) (hP : P ≠ []) (h : History) :
    ∃ after, CommitsTo H P h (digestAt f (pad P) (ceilLog2 P.length) 0) after ∧
      h.messagesSince after = treeMessages f (pad P) (ceilLog2 P.length) := by
  obtain ⟨after, hbuild, hms⟩ := (build_yields hH hP).outcome h
  refine ⟨after, ⟨_, hbuild, fun g => ?_⟩, History.messagesSince_eq hms⟩
  rw [root_arena, Hashing.outcome_pure]

/-! ### Equal paddings -/

/-- Padded batches have the same height. -/
theorem ceilLog2_eq_of_pad_eq (h : pad P = pad Q) : ceilLog2 P.length = ceilLog2 Q.length := by
  have hlen := congrArg List.length h
  rw [length_pad, length_pad] at hlen
  exact (Nat.pow_right_inj (by decide)).mp hlen

/-- Empty payloads within the padding are no difference. -/
theorem pad_append_replicate {k : Nat} (hk : P.length + k ≤ ceilPowerOfTwo P.length) :
    pad (P ++ List.replicate k []) = pad P := by
  rw [pad, pad, List.length_append, List.length_replicate,
    ceilPowerOfTwo_eq_of_le (Nat.le_add_right _ k) hk, List.append_assoc,
    List.replicate_append_replicate]
  congr 2
  omega

/-- Two different payloads of a batch cannot change places unnoticed. -/
theorem pad_swap_ne {i j : Nat} {a b : Bytes} (hi : P[i]? = some a) (hj : P[j]? = some b)
    (hab : a ≠ b) : pad P ≠ pad ((P.set i b).set j a) := by
  intro h
  have hne : j ≠ i := by
    rintro rfl
    exact hab (Option.some.inj (hi.symm.trans hj))
  have hpayload := congrArg (fun padded => padded.getD i []) h
  simp only [getD_pad] at hpayload
  obtain ⟨hlt, -⟩ := List.getElem?_eq_some_iff.mp hi
  rw [List.getD_eq_getElem?_getD, List.getD_eq_getElem?_getD, hi, List.getElem?_set_ne hne,
    List.getElem?_set_self hlt] at hpayload
  exact hab hpayload

/-! ### Equal roots -/

/-- Equal roots are of equal padded batches, unless something collides. -/
theorem pad_eq_of_digestAt_eq {width : Nat} {ms : List Bytes} (hwidth : ∀ m, (f m).length = width)
    (hms : ¬ Collides f ms) (hP : MessagesIn f (pad P) (ceilLog2 P.length) ms)
    (hQ : MessagesIn f (pad Q) (ceilLog2 Q.length) ms)
    (h : digestAt f (pad P) (ceilLog2 P.length) 0 = digestAt f (pad Q) (ceilLog2 Q.length) 0) :
    pad P = pad Q := by
  obtain ⟨hheight, hleaves⟩ := eq_of_digestAt_eq hwidth hms hP hQ (Nat.add_zero _)
    (Nat.two_pow_pos 0) (Nat.add_zero _) (Nat.two_pow_pos 0) h
  refine List.ext_getElem (by rw [length_pad, length_pad, hheight]) fun r hr hr' => ?_
  have hleaf := hleaves r (by rwa [length_pad] at hr)
  rwa [Nat.mul_zero, Nat.zero_add, List.getD_eq_getElem _ _ hr, List.getD_eq_getElem _ _ hr']
    at hleaf

/-- **A root commits to the padded batch, in order.** Two batches have equal roots if and only if
they are equal once padded, where the one direction holds unless two different messages among those
hashed for the two trees have the same digest. So empty payloads within the padding make no
difference; two different payloads that change places do; and a smaller tree has another root,
whatever its payloads are, interior digests of the larger tree among them. -/
theorem commitsTo_eq_iff_pad_eq (hH : H.Computes f) {width : Nat}
    (hwidth : ∀ m, (f m).length = width) (hP : P ≠ []) (hQ : Q ≠ []) (h h' : History) :
    ∃ r s after after', CommitsTo H P h r after ∧ CommitsTo H Q h' s after' ∧
      (pad P = pad Q → r = s) ∧
      (r = s → pad P = pad Q ∨
        Collides f (h.messagesSince after ++ h'.messagesSince after')) ∧
      (∀ k, P.length + k ≤ ceilPowerOfTwo P.length → Q = P ++ List.replicate k [] → r = s) ∧
      (∀ i j a b, P[i]? = some a → P[j]? = some b → a ≠ b → Q = (P.set i b).set j a →
        r ≠ s ∨ Collides f (h.messagesSince after ++ h'.messagesSince after')) ∧
      (ceilPowerOfTwo Q.length < ceilPowerOfTwo P.length →
        r ≠ s ∨ Collides f (h.messagesSince after ++ h'.messagesSince after')) := by
  obtain ⟨after, hr, hms⟩ := exists_commitsTo hH hP h
  obtain ⟨after', hs, hms'⟩ := exists_commitsTo hH hQ h'
  have hif : pad P = pad Q → digestAt f (pad P) (ceilLog2 P.length) 0
      = digestAt f (pad Q) (ceilLog2 Q.length) 0 := by
    intro hpad
    rw [ceilLog2_eq_of_pad_eq hpad, hpad]
  have honly : digestAt f (pad P) (ceilLog2 P.length) 0
      = digestAt f (pad Q) (ceilLog2 Q.length) 0 →
        pad P = pad Q ∨ Collides f (h.messagesSince after ++ h'.messagesSince after') := by
    intro hroot
    rw [hms, hms']
    refine Classical.or_iff_not_imp_right.mpr fun hcollides => ?_
    exact pad_eq_of_digestAt_eq hwidth hcollides
      ((messagesIn_treeMessages (length_pad P)).mono (List.subset_append_left _ _))
      ((messagesIn_treeMessages (length_pad Q)).mono (List.subset_append_right _ _)) hroot
  have hdiffer : pad P ≠ pad Q → _ ≠ _ ∨ Collides f _ := fun hne =>
    Classical.or_iff_not_imp_left.mpr fun heq =>
      (honly (Classical.not_not.mp heq)).resolve_left hne
  refine ⟨_, _, after, after', hr, hs, hif, honly, ?_, ?_, ?_⟩
  · rintro k hk rfl
    exact hif (pad_append_replicate hk).symm
  · rintro i j a b hi hj hab rfl
    exact hdiffer (pad_swap_ne hi hj hab)
  · intro hlt
    refine hdiffer fun hpad => ?_
    rw [ceilPowerOfTwo, ceilPowerOfTwo, ceilLog2_eq_of_pad_eq hpad] at hlt
    exact Nat.lt_irrefl _ hlt

/-- Three payloads, and the same with the first two in each other's place, where nothing
collides. -/
theorem commitsTo_eq_iff_pad_eq_swap :
    ∃ r s after after',
      CommitsTo (.ofDigest "mixed" mixed) [[1], [2], [3]] [] r after ∧
        CommitsTo (.ofDigest "mixed" mixed) [[2], [1], [3]] after s after' ∧ r ≠ s := by
  have hH := HashStrategy.computes_ofDigest "mixed" mixed
  have hP : [[1], [2], [3]] ≠ ([] : List Bytes) := by decide
  have hQ : [[2], [1], [3]] ≠ ([] : List Bytes) := by decide
  obtain ⟨after, ⟨t, hbuild, -⟩, hms⟩ := exists_commitsTo hH hP []
  obtain ⟨after', ⟨u, hbuild', -⟩, hms'⟩ := exists_commitsTo hH hQ after
  obtain ⟨r, s, m, m', hr, hs, -, -, -, hswap, -⟩ :=
    commitsTo_eq_iff_pad_eq hH (fun _ => rfl) hP hQ [] after
  obtain rfl : after = m := by
    obtain ⟨t', heq, -⟩ := hr
    exact (Prod.mk.inj (hbuild.symm.trans heq)).2
  obtain rfl : after' = m' := by
    obtain ⟨u', heq, -⟩ := hs
    exact (Prod.mk.inj (hbuild'.symm.trans heq)).2
  refine ⟨r, s, after, after', hr, hs, ?_⟩
  rcases hswap 0 1 [1] [2] rfl rfl (by decide) rfl with hne | hcollides
  · exact hne
  · rw [hms, hms'] at hcollides
    exact absurd hcollides (by decide +kernel)

end MerkleTree

end OrderingService
