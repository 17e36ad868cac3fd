import OrderingService.Merkle.Tree
import OrderingService.Proofs.Hashing.Messages

/-!
# Refusals change nothing but success

A strategy that refuses some writes may stop a computation anywhere, but it cannot change what the
computation gives. It is compared with a strategy that digests alike and refuses less: whatever
succeeds under the one succeeds under the other, with the same value and the same history. So what
is known of trees under a strategy that refuses nothing holds of every tree that gets built.

## Main definitions

* `HashStrategy.Relaxes` — a strategy digests like another one and refuses less
* `Hashing.Within` — whatever one computation succeeds with, another one does

## Main results

* `Hashing.Within.bind` — one computation after another
* `Hashing.Within.eq_of_yields` — what a computation gives is what the other one yields
* `MerkleTree.build_within` — building a tree
-/

namespace OrderingService

/-- `G` digests like `H`, and accepts every write that `H` accepts. -/
structure HashStrategy.Relaxes (G H : HashStrategy) : Prop where
  accepts : ∀ h bytes, H.refusal h bytes = none → G.refusal h bytes = none
  digest_eq : ∀ h chunks, G.digest h chunks = H.digest h chunks

theorem HashStrategy.relaxes_refusing (H : HashStrategy) (text : String)
    (refuses : History → Bytes → Bool) : H.Relaxes (H.refusing text refuses) where
  accepts := fun h bytes hnone => by
    change (if refuses h bytes then some text else H.refusal h bytes) = none at hnone
    split at hnone
    · cases hnone
    · exact hnone
  digest_eq := fun _ _ => rfl

namespace Hashing

variable {α β : Type} {x y : Hashing α}

/-- Whatever `x` succeeds with, `y` succeeds with, and leaves the same history. -/
def Within (x y : Hashing α) : Prop := ∀ h a h', x h = .ok a h' → y h = .ok a h'

theorem Within.refl (x : Hashing α) : x.Within x := fun _ _ _ h => h

theorem Within.bind {f g : α → Hashing β} (hx : x.Within y) (hf : ∀ a, (f a).Within (g a)) :
    (x >>= f).Within (y >>= g) := by
  intro h b h' hb
  obtain ⟨a, m, ha, hb⟩ := bind_eq_ok.mp hb
  exact bind_eq_ok.mpr ⟨a, m, hx h a m ha, hf a m b h' hb⟩

/-- A computation that stays within one that always gives `a` gives nothing else. -/
theorem Within.eq_of_yields {a b : α} {ms : List Bytes} {h h' : History} (hx : x.Within y)
    (hy : y.Yields a ms) (hb : x h = .ok b h') : b = a := by
  obtain ⟨m, ha, -⟩ := hy h
  have hb := (hx h b h' hb).symm.trans ha
  cases hb
  rfl

end Hashing

namespace HashStrategy

open Hashing (Within)

variable {G H : HashStrategy}

/-! ### Digests -/

theorem write_within (hG : G.Relaxes H) (bytes : Bytes) :
    (H.write bytes).Within (G.write bytes) := by
  intro h a h' hok
  rw [write] at hok ⊢
  cases hr : H.refusal h bytes with
  | none =>
    rw [hr] at hok
    rw [hG.accepts h bytes hr]
    exact hok
  | some text =>
    rw [hr] at hok
    cases hok

theorem writeAll_within (hG : G.Relaxes H) (chunks : List Bytes) :
    (H.writeAll chunks).Within (G.writeAll chunks) := by
  induction chunks with
  | nil => exact Within.refl _
  | cons chunk rest ih => exact (write_within hG chunk).bind fun _ => ih

theorem digestOf_within (hG : G.Relaxes H) (chunks : List Bytes) :
    (H.digestOf chunks).Within (G.digestOf chunks) := by
  rw [digestOf, digestOf]
  refine (Within.refl _).bind fun made => (Within.refl _).bind fun _ =>
    (writeAll_within hG chunks).bind fun _ => ?_
  rw [hG.digest_eq]
  exact Within.refl _

theorem leafHash_within (hG : G.Relaxes H) (payload : Bytes) :
    (H.leafHash payload).Within (G.leafHash payload) :=
  (digestOf_within hG [payload]).bind fun _ => Within.refl _

theorem interiorHash_within (hG : G.Relaxes H) (left right : Bytes) :
    (H.interiorHash left right).Within (G.interiorHash left right) :=
  (digestOf_within hG [left, right]).bind fun _ => Within.refl _

end HashStrategy

namespace MerkleTree

open Hashing (Within)

variable {G H : HashStrategy}

/-! ### Trees -/

theorem leafHashes_within (hG : G.Relaxes H) (payloads : List Bytes) :
    (leafHashes H payloads).Within (leafHashes G payloads) := by
  induction payloads with
  | nil => exact Within.refl _
  | cons payload rest ih =>
    exact (HashStrategy.leafHash_within hG payload).bind fun _ => ih.bind fun _ => Within.refl _

/-- Parents are made from two digests at a time, so the induction takes two off the level. -/
theorem parents_within (hG : G.Relaxes H) (start : Nat) (digests : List Bytes) :
    (parents H start digests).Within (parents G start digests) := by
  induction start, digests using parents.induct with
  | case1 start left right rest ih =>
    exact (HashStrategy.interiorHash_within hG left right).bind fun _ =>
      ih.bind fun _ => Within.refl _
  | case2 start digests hshort =>
    rw [parents, parents]
    · exact Within.refl _
    · exact hshort
    · exact hshort

theorem levelsAbove_within (hG : G.Relaxes H) (depth start level : Nat) (digests : List Bytes) :
    (levelsAbove H depth start level digests).Within (levelsAbove G depth start level digests) := by
  induction depth generalizing start level digests with
  | zero => exact Within.refl _
  | succ depth ih =>
    rw [levelsAbove, levelsAbove]
    split
    · exact (Within.refl _).bind fun _ => (parents_within hG start digests).bind fun row =>
        (ih _ _ _).bind fun _ => Within.refl _
    · exact (parents_within hG start digests).bind fun row =>
        (ih _ _ _).bind fun _ => Within.refl _

/-- **Refusals change no tree.** -/
theorem build_within (hG : G.Relaxes H) (payloads : List Bytes) :
    (build H payloads).Within (build G payloads) := by
  rw [build, build]
  split
  · exact (Within.refl _).bind fun _ => (leafHashes_within hG _).bind fun leaves =>
      (levelsAbove_within hG _ _ _ _).bind fun _ => Within.refl _
  · exact (leafHashes_within hG _).bind fun leaves =>
      (levelsAbove_within hG _ _ _ _).bind fun _ => Within.refl _

end MerkleTree

end OrderingService
