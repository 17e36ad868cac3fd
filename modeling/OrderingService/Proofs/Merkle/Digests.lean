import Mathlib.Data.List.GetD
import OrderingService.Merkle.Tree
import OrderingService.Proofs.Hashing.Messages

/-!
# Digests by level and position

Levels are numbered from the leaves upwards and the nodes of a level from the left. The digest at a
level and a position is then a function of the padded batch, without any arena: the children of
position `j` of level `k + 1` are the positions `2 * j` and `2 * j + 1` of level `k`.

Two arguments go down from a root, and neither of them bounds the other side. A climb with free
siblings that ends in the root of a tree is compared with the tree, and two trees of unrelated
heights are compared with each other. At each level the digests agree, so the messages do, as long
as nothing collides; the tag says whether both sides are leaves or both are interior, and the fixed
width of a digest says where the left child ends.

## Main definitions

* `MerkleTree.digestAt`, `MerkleTree.messageAt` — the digest at a level and a position, and what is
  hashed for it
* `MerkleTree.siblings` — the sibling digests above a position
* `MerkleTree.climbed`, `MerkleTree.climbMessages` — where a climb ends, and what it hashes
* `MerkleTree.MessagesIn` — a list of messages has all that are hashed for a tree

## Main results

* `MerkleTree.climbed_siblings` — a tree's own siblings lead from each node to its ancestors
* `MerkleTree.eq_siblings_of_climbed` — only they lead to its root
* `MerkleTree.eq_of_digestAt_eq` — equal digests are of equal leaves
-/

namespace OrderingService

namespace MerkleTree

open HashStrategy (leafTag interiorTag)

variable {f : Bytes → Bytes} {padded : List Bytes}

/-! ### The tree -/

/-- The digest at a level and a position. -/
def digestAt (f : Bytes → Bytes) (padded : List Bytes) : (level position : Nat) → Bytes
  | 0, j => leafTag :: f (padded.getD j [])
  | k + 1, j =>
    interiorTag :: f (digestAt f padded k (2 * j) ++ digestAt f padded k (2 * j + 1))

/-- What is hashed for the digest at a level and a position. -/
def messageAt (f : Bytes → Bytes) (padded : List Bytes) : (level position : Nat) → Bytes
  | 0, j => padded.getD j []
  | k + 1, j => digestAt f padded k (2 * j) ++ digestAt f padded k (2 * j + 1)

theorem digestAt_zero (j : Nat) : digestAt f padded 0 j = leafTag :: f (messageAt f padded 0 j) :=
  rfl

theorem digestAt_succ (k j : Nat) :
    digestAt f padded (k + 1) j = interiorTag :: f (messageAt f padded (k + 1) j) := rfl

theorem digestAt_ne_nil (k j : Nat) : digestAt f padded k j ≠ [] := by
  cases k with
  | zero => exact List.cons_ne_nil _ _
  | succ k => exact List.cons_ne_nil _ _

theorem length_digestAt {width : Nat} (hwidth : ∀ m, (f m).length = width) (k j : Nat) :
    (digestAt f padded k j).length = width + 1 := by
  cases k with
  | zero => rw [digestAt_zero, List.length_cons, hwidth]
  | succ k => rw [digestAt_succ, List.length_cons, hwidth]

/-- A leaf digest is found on the leaf level only. -/
theorem level_eq_zero_of_leafTag {a : Bytes} {k j : Nat}
    (h : leafTag :: a = digestAt f padded k j) : k = 0 := by
  cases k with
  | zero => rfl
  | succ k =>
    rw [digestAt_succ] at h
    exact absurd (List.cons.inj h).1 (by decide)

/-- An interior digest is found above the leaf level only, and below the tag is that of a
message. -/
theorem exists_level_of_interiorTag {a : Bytes} {k j : Nat}
    (h : interiorTag :: a = digestAt f padded k j) :
    ∃ l, k = l + 1 ∧ a = f (messageAt f padded (l + 1) j) := by
  cases k with
  | zero =>
    rw [digestAt_zero] at h
    exact absurd (List.cons.inj h).1 (by decide)
  | succ k => exact ⟨k, rfl, (List.cons.inj h).2⟩

/-! ### Siblings -/

/-- A position is that of a left child or of a right child. -/
theorem left_or_right (j : Nat) : ∃ q, j = 2 * q ∨ j = 2 * q + 1 := ⟨j / 2, by omega⟩

theorem two_mul_xor_one (q : Nat) : (2 * q) ^^^ 1 = 2 * q + 1 := by
  have hparent : ((2 * q) ^^^ 1) / 2 = q := by
    rw [Nat.xor_div_two, Nat.mul_div_cancel_left q (by decide), Nat.div_eq_of_lt (by decide),
      Nat.xor_zero]
  have hside : ((2 * q) ^^^ 1) % 2 = 1 := by
    rw [Nat.xor_mod_two_eq_one]
    omega
  omega

theorem two_mul_add_one_xor_one (q : Nat) : (2 * q + 1) ^^^ 1 = 2 * q := by
  rw [← two_mul_xor_one, Nat.xor_assoc, Nat.xor_self, Nat.xor_zero]

/-- The sibling of a position stands on the same level. -/
theorem xor_one_lt {d p : Nat} (hp : p < 2 ^ (d + 1)) : p ^^^ 1 < 2 ^ (d + 1) := by
  rw [Nat.pow_succ] at hp ⊢
  rcases left_or_right p with ⟨q, rfl | rfl⟩
  · rw [two_mul_xor_one]
    omega
  · rw [two_mul_add_one_xor_one]
    omega

/-- The sibling digests met when climbing `height` levels from a level and a position. -/
def siblings (f : Bytes → Bytes) (padded : List Bytes) : (height level position : Nat) → List Bytes
  | 0, _, _ => []
  | height + 1, k, j =>
    digestAt f padded k (j ^^^ 1) :: siblings f padded height (k + 1) (j / 2)

@[simp] theorem length_siblings (height k j : Nat) :
    (siblings f padded height k j).length = height := by
  induction height generalizing k j with
  | zero => rfl
  | succ height ih => rw [siblings, List.length_cons, ih]

/-! ### Climbing -/

/-- What one step of a climb hashes: at an even position the sibling stands on the right. -/
def joined (position : Nat) (digest sibling : Bytes) : Bytes :=
  if position % 2 = 0 then digest ++ sibling else sibling ++ digest

theorem joined_two_mul (q : Nat) (digest sibling : Bytes) :
    joined (2 * q) digest sibling = digest ++ sibling := if_pos (by omega)

theorem joined_two_mul_add_one (q : Nat) (digest sibling : Bytes) :
    joined (2 * q + 1) digest sibling = sibling ++ digest := if_neg (by omega)

/-- Where a climb along sibling digests ends. -/
def climbed (f : Bytes → Bytes) : List Bytes → (position : Nat) → Bytes → Bytes
  | [], _, digest => digest
  | sibling :: path, j, digest =>
    climbed f path (j / 2) (interiorTag :: f (joined j digest sibling))

/-- What a climb along sibling digests hashes, latest first. -/
def climbMessages (f : Bytes → Bytes) : List Bytes → (position : Nat) → Bytes → List Bytes
  | [], _, _ => []
  | sibling :: path, j, digest =>
    climbMessages f path (j / 2) (interiorTag :: f (joined j digest sibling))
      ++ [joined j digest sibling]

/-- A node and its sibling give the message of their parent. -/
theorem joined_digestAt (k j : Nat) :
    joined j (digestAt f padded k j) (digestAt f padded k (j ^^^ 1))
      = messageAt f padded (k + 1) (j / 2) := by
  rcases left_or_right j with ⟨q, rfl | rfl⟩
  · rw [joined_two_mul, two_mul_xor_one, Nat.mul_div_cancel_left q (by omega)]
    rfl
  · rw [joined_two_mul_add_one, two_mul_add_one_xor_one, show (2 * q + 1) / 2 = q by omega]
    rfl

/-- **A tree's own siblings lead up in the tree.** -/
theorem climbed_siblings (height k j : Nat) :
    climbed f (siblings f padded height k j) j (digestAt f padded k j)
      = digestAt f padded (k + height) (j / 2 ^ height) := by
  induction height generalizing k j with
  | zero => rw [siblings, climbed, Nat.pow_zero, Nat.div_one, Nat.add_zero]
  | succ height ih =>
    rw [siblings, climbed, joined_digestAt, ← digestAt_succ, ih, Nat.div_div_eq_div_mul,
      Nat.pow_succ', Nat.add_right_comm, Nat.add_assoc]

/-! ### Going down from a root -/

/-- All messages hashed for a tree of some height are among these. -/
def MessagesIn (f : Bytes → Bytes) (padded : List Bytes) (height : Nat) (ms : List Bytes) : Prop :=
  ∀ k d j, k + d = height → j < 2 ^ d → messageAt f padded k j ∈ ms

theorem MessagesIn.mono {height : Nat} {ms ns : List Bytes} (h : MessagesIn f padded height ms)
    (hsub : ms ⊆ ns) : MessagesIn f padded height ns := fun k d j hk hj => hsub (h k d j hk hj)

/-- The position of the child, on a level of a tree, that a climb came from. -/
theorem mod_two_pow_succ (j d : Nat) : j % 2 ^ (d + 1) = 2 * (j / 2 % 2 ^ d) + j % 2 := by
  rw [Nat.pow_succ', Nat.mod_mul]
  omega

/-- The message of a parent tells its children apart: the two sides have the same width. -/
theorem eq_of_joined_eq {width : Nat} (hwidth : ∀ m, (f m).length = width) {j k q : Nat}
    {digest sibling : Bytes} (hlen : digest.length = width + 1)
    (h : joined j digest sibling = messageAt f padded (k + 1) q) :
    digest = digestAt f padded k (2 * q + j % 2) ∧
      sibling = digestAt f padded k ((2 * q + j % 2) ^^^ 1) := by
  rw [messageAt] at h
  rcases left_or_right j with ⟨p, rfl | rfl⟩
  · rw [joined_two_mul] at h
    obtain ⟨hdigest, hsibling⟩ := List.append_inj h (by rw [hlen, length_digestAt hwidth])
    rw [Nat.mul_mod_right, Nat.add_zero, two_mul_xor_one]
    exact ⟨hdigest, hsibling⟩
  · rw [joined_two_mul_add_one] at h
    obtain ⟨hsibling, hdigest⟩ := List.append_inj' h (by rw [hlen, length_digestAt hwidth])
    rw [Nat.mul_add_mod, Nat.mod_eq_of_lt (by decide : 1 < 2), two_mul_add_one_xor_one]
    exact ⟨hdigest, hsibling⟩

/-- **Only a tree's own siblings lead to its root.** A climb that ends in the root of a tree starts
at a node of the tree, on the level that its length gives, and meets the siblings of the tree,
unless something collides. The climb may start anywhere and its siblings may have any length; the
induction is on them, so the level above is known when a sibling is compared. -/
theorem eq_siblings_of_climbed {width height : Nat} {ms : List Bytes}
    (hwidth : ∀ m, (f m).length = width) (hms : ¬ Collides f ms)
    (htree : MessagesIn f padded height ms) {path : List Bytes} {j : Nat} {digest : Bytes}
    (hlen : digest.length = width + 1) (hclimb : climbMessages f path j digest ⊆ ms)
    (hroot : climbed f path j digest = digestAt f padded height 0) :
    ∃ k, k + path.length = height ∧ digest = digestAt f padded k (j % 2 ^ path.length) ∧
      path = siblings f padded path.length k (j % 2 ^ path.length) := by
  induction path generalizing j digest with
  | nil => exact ⟨height, rfl, by rwa [List.length_nil, Nat.pow_zero, Nat.mod_one], rfl⟩
  | cons sibling path ih =>
    rw [climbMessages, List.append_subset] at hclimb
    obtain ⟨hrest, hstep⟩ := hclimb
    obtain ⟨l, hheight, hparent, hpath⟩ := ih (by rw [List.length_cons, hwidth]) hrest hroot
    -- the parent is interior, so its level is not the lowest one
    obtain ⟨k, rfl, hdigest⟩ := exists_level_of_interiorTag hparent
    have hmessage : joined j digest sibling
        = messageAt f padded (k + 1) (j / 2 % 2 ^ path.length) :=
      eq_of_not_collides hms (hstep List.mem_cons_self)
        (htree _ _ _ hheight (Nat.mod_lt _ (Nat.two_pow_pos _))) hdigest
    obtain ⟨hchild, hsibling⟩ := eq_of_joined_eq hwidth hlen hmessage
    rw [← mod_two_pow_succ] at hchild hsibling
    refine ⟨k, by rw [List.length_cons, ← hheight]; omega, hchild, ?_⟩
    have habove : j % 2 ^ (path.length + 1) / 2 = j / 2 % 2 ^ path.length := by
      rw [mod_two_pow_succ]
      omega
    rw [List.length_cons, siblings, habove, ← hpath, ← hsibling]

/-- **Equal digests are of equal leaves.** Two nodes of two trees, of which nothing else is known,
have the same height and the same leaves below them if their digests agree, unless something
collides. -/
theorem eq_of_digestAt_eq {P Q : List Bytes} {width m n : Nat} {ms : List Bytes}
    (hwidth : ∀ m, (f m).length = width) (hms : ¬ Collides f ms) (hP : MessagesIn f P m ms)
    (hQ : MessagesIn f Q n ms) {k l d e i j : Nat} (hk : k + d = m) (hi : i < 2 ^ d)
    (hl : l + e = n) (hj : j < 2 ^ e) (h : digestAt f P k i = digestAt f Q l j) :
    k = l ∧ ∀ r < 2 ^ k, P.getD (2 ^ k * i + r) [] = Q.getD (2 ^ k * j + r) [] := by
  induction k generalizing l d e i j with
  | zero =>
    obtain rfl := level_eq_zero_of_leafTag h
    have hmessage := eq_of_not_collides hms (hP 0 d i hk hi) (hQ 0 e j hl hj) (List.cons.inj h).2
    refine ⟨rfl, fun r hr => ?_⟩
    obtain rfl : r = 0 := by omega
    rw [Nat.pow_zero, Nat.one_mul, Nat.one_mul]
    exact hmessage
  | succ k ih =>
    obtain ⟨l, rfl, hdigest⟩ := exists_level_of_interiorTag h
    have hmessage := eq_of_not_collides hms (hP (k + 1) d i hk hi) (hQ (l + 1) e j hl hj) hdigest
    obtain ⟨hleft, hright⟩ := List.append_inj hmessage
      (by rw [length_digestAt hwidth, length_digestAt hwidth])
    have hi' : 2 * i + 1 < 2 ^ (d + 1) := by rw [Nat.pow_succ]; omega
    have hj' : 2 * j + 1 < 2 ^ (e + 1) := by rw [Nat.pow_succ]; omega
    obtain ⟨rfl, hlow⟩ := ih (by omega : k + (d + 1) = m) (by omega)
      (by omega : l + (e + 1) = n) (by omega) hleft
    obtain ⟨-, hhigh⟩ := ih (by omega : k + (d + 1) = m) hi' (by omega : k + (e + 1) = n) hj' hright
    refine ⟨rfl, fun r hr => ?_⟩
    rw [Nat.pow_succ, Nat.mul_assoc, Nat.mul_assoc]
    rcases Nat.lt_or_ge r (2 ^ k) with hlt | hge
    · exact hlow r hlt
    · have hrest := hhigh (r - 2 ^ k) (by rw [Nat.pow_succ] at hr; omega)
      rw [Nat.mul_add, Nat.mul_add, Nat.mul_one, Nat.add_assoc, Nat.add_assoc,
        Nat.add_sub_cancel' hge] at hrest
      exact hrest

end MerkleTree

end OrderingService
