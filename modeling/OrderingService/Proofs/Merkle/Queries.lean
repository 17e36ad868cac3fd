import OrderingService.Merkle.Dump
import OrderingService.Proofs.Hashing.Acceptance
import OrderingService.Proofs.Merkle.Perfect

/-!
# Asking a tree

A tree keeps all of its digests, so it answers without hashing anything; the strategy matters only
for the empty tree, whose root digest is not kept. This is what lets a batch be committed in one
step: once its tree is built, nothing that follows can be refused.

Only the check of its own integrity hashes. It goes through the interior nodes in the order of the
arena and stops at the first refused write, and also at the first digest that has changed, which is
none as long as accumulators start in their initial state every time.

## Main definitions

* `HashStrategy.Fresh` — accumulators start in their initial state every time
* `MerkleTree.childHashes`, `MerkleTree.interiorHashes` — what a check of integrity hashes, and
  with which digests it compares
* `MerkleTree.SelfContained` — how a tree answers without asking the strategy

## Main results

* `MerkleTree.Perfect.dumpBelow_eq` — the bound on the depth of a picture cuts nothing off
* `MerkleTree.verifyNodes_follows` — how far a check of integrity goes
* `MerkleTree.build_asks_nothing` — a tree that is built answers without hashing
-/

namespace OrderingService

namespace HashStrategy

variable {G H : HashStrategy}

/-- Accumulators start in their initial state every time: what one finishes with does not depend on
what the strategy was asked before it was made. Whoever supplies a strategy has to see to this; what
it refuses is another matter and may still depend on anything. -/
def Fresh (H : HashStrategy) : Prop := ∀ g h chunks, H.digest g chunks = H.digest h chunks

/-- Then each accumulator finishes with a function of its own chunks. -/
theorem Fresh.digests_eq (hH : H.Fresh) (g h : History) (work : List (List Bytes)) :
    H.digests g work = work.map (H.digest h) := by
  induction work generalizing g with
  | nil => rfl
  | cons chunks work ih => rw [digests, ih, hH g h, List.map_cons]

theorem digests_congr (hG : G.digest = H.digest) {h : History} {work : List (List Bytes)} :
    G.digests h work = H.digests h work := by
  induction work generalizing h with
  | nil => rfl
  | cons chunks work ih => rw [digests, digests, hG, ih]

/-- A strategy that refuses nothing admits all calls. -/
theorem Accepts.admits (hH : H.Accepts) (h : History) (calls : List HashCall) :
    H.Admits h calls := by
  induction calls generalizing h with
  | nil => trivial
  | cons call calls ih =>
    cases call with
    | accumulator => exact ih _
    | write bytes => exact ⟨hH h bytes, ih _⟩

end HashStrategy

namespace MerkleTree

open HashCall (hashing hashingAll)
open HashStrategy (interiorTag)

variable {G H : HashStrategy} {g h after : History} {payloads leaves above : List Bytes}
  {t : MerkleTree} {i : Nat} {node : Node} {margin : String} {isRight : Bool}

/-! ### Pictures -/

/-- The line of a node below the root. -/
def Node.line (n : Node) (margin : String) (isRight : Bool) : String :=
  margin ++ branch isRight ++ " " ++ n.kind ++ ": " ++ n.hash.toHex

theorem dumpBelow_leaf (hnode : t.nodes[i]? = some node) (hchildren : node.children = none)
    (bound : Nat) : t.dumpBelow bound i margin isRight = [node.line margin isRight] := by
  cases bound with
  | zero => simp [dumpBelow, hnode, Node.line]
  | succ bound => simp [dumpBelow, hnode, hchildren, Node.line]

theorem dumpBelow_interior {left right : Nat} (hnode : t.nodes[i]? = some node)
    (hchildren : node.children = some (left, right)) (bound : Nat) :
    t.dumpBelow (bound + 1) i margin isRight = node.line margin isRight ::
      (t.dumpBelow bound left (margin ++ trunk isRight) false ++
        t.dumpBelow bound right (margin ++ trunk isRight) true) := by
  obtain ⟨hash, children⟩ := node
  cases hchildren
  rw [dumpBelow, hnode]
  rfl

/-- **The bound cuts nothing off.** Below a node there are as many levels as its own is above the
leaves, so every larger bound gives the same picture. The induction is on the level: the children of
a node in front of the end of one level stand in front of the end of the level below. -/
theorem Perfect.dumpBelow_eq (ht : t.Perfect) {level bound : Nat} (hle : level ≤ bound)
    (hlevel : level ≤ t.depth) (hi : i < levelStart t.depth (level + 1)) :
    t.dumpBelow bound i margin isRight = t.dumpBelow level i margin isRight := by
  have hleaf : i < t.leafCount → t.dumpBelow bound i margin isRight
      = t.dumpBelow level i margin isRight := fun hlt => by
    rw [dumpBelow_leaf (ht.leaf i hlt) rfl, dumpBelow_leaf (ht.leaf i hlt) rfl]
  induction level generalizing i bound margin isRight with
  | zero =>
    refine hleaf ?_
    rw [ht.leafCount_eq]
    simpa [levelStart] using hi
  | succ level ih =>
    rcases Nat.lt_or_ge i t.leafCount with hlt | hge
    · exact hleaf hlt
    · obtain ⟨j, rfl⟩ : ∃ j, i = t.leafCount + j := ⟨i - t.leafCount, by omega⟩
      obtain ⟨bound, rfl⟩ : ∃ n, bound = n + 1 := ⟨bound - 1, by omega⟩
      have hstart := levelStart_eq hlevel
      have hpos := Nat.two_pow_pos (t.depth - (level + 1))
      have hmost : 2 ^ (t.depth - (level + 1)) ≤ 2 ^ t.depth :=
        Nat.pow_le_pow_right (by decide) (Nat.sub_le _ _)
      rw [levelStart, ht.leafCount_eq] at hi
      have hin : j + 1 < t.leafCount := by
        rw [ht.leafCount_eq]
        omega
      have hright : 2 * j + 1 < levelStart t.depth (level + 1) := by omega
      have hbelow : ∀ p < levelStart t.depth (level + 1), ∀ margin isRight,
          t.dumpBelow bound p margin isRight = t.dumpBelow level p margin isRight := by
        intro p hp margin isRight
        refine ih (by omega) (by omega) hp fun hlt => ?_
        rw [dumpBelow_leaf (ht.leaf p hlt) rfl, dumpBelow_leaf (ht.leaf p hlt) rfl]
      rw [dumpBelow_interior (ht.interior j hin) rfl, dumpBelow_interior (ht.interior j hin) rfl,
        hbelow _ (by omega), hbelow _ hright]

/-! ### Integrity -/

/-- What is hashed to check these nodes of a tree: for each interior one the digests of its
children. -/
def childHashes (t : MerkleTree) (nodes : List Node) : List (List Bytes) :=
  nodes.filterMap fun node => node.children.map fun (left, right) => [t.hashAt left, t.hashAt right]

/-- The digests of the interior ones among some nodes. -/
def interiorHashes (nodes : List Node) : List Bytes :=
  nodes.filterMap fun node => node.children.map fun _ => node.hash

/-- **How far a check of integrity goes.** It hashes for one interior node after the other, through
all of them unless a digest has changed. -/
theorem verifyNodes_follows (t : MerkleTree) (G : HashStrategy) (g : History) (nodes : List Node) :
    ∃ count answer, count ≤ (t.childHashes nodes).length ∧
      (t.verifyNodes G nodes).Follows G g (hashingAll ((t.childHashes nodes).take count)) answer ∧
      ((answer = true ∧ count = (t.childHashes nodes).length) ∨
        (answer = false ∧
          (G.digests g (t.childHashes nodes)).map (interiorTag :: ·) ≠ interiorHashes nodes)) := by
  induction nodes generalizing g with
  | nil => exact ⟨0, true, Nat.le_refl 0, Hashing.follows_pure true, Or.inl ⟨rfl, rfl⟩⟩
  | cons node nodes ih =>
    obtain ⟨hash, _ | ⟨left, right⟩⟩ := node
    · exact ih g
    · have hfirst := HashStrategy.interiorHash_follows (H := G) g (t.hashAt left) (t.hashAt right)
      generalize hchunks : [t.hashAt left, t.hashAt right] = chunks at hfirst
      have hwork : t.childHashes (⟨hash, some (left, right)⟩ :: nodes)
          = chunks :: t.childHashes nodes := by
        simp [childHashes, hchunks]
      have hhashes : interiorHashes (⟨hash, some (left, right)⟩ :: nodes)
          = hash :: interiorHashes nodes := by simp [interiorHashes]
      obtain ⟨count, answer, hcount, hrest, hanswer⟩ := ih (g.extend (hashing chunks))
      rw [hwork, hhashes]
      by_cases hsame : interiorTag :: G.digest g chunks = hash
      · refine ⟨count + 1, answer, by simpa using hcount, ?_, ?_⟩
        · rw [List.take_succ_cons, HashCall.hashingAll_cons, verifyNodes]
          refine hfirst.bind ?_
          rw [hsame, if_pos (beq_self_eq_true hash)]
          exact hrest
        · simpa [HashStrategy.digests, hsame] using hanswer
      · refine ⟨1, false, by simp, ?_, Or.inr ⟨rfl, ?_⟩⟩
        · rw [List.take_succ_cons, List.take_zero, HashCall.hashingAll_cons, verifyNodes]
          refine hfirst.bind ?_
          rw [if_neg (by simpa using hsame)]
          exact Hashing.follows_pure false
        · simp [HashStrategy.digests, hsame]

/-- What is read off the interior nodes of an arena, in order. -/
theorem filterMap_nodes_ofDigests {α : Type} (read : Bytes → Nat × Nat → α) :
    (ofDigests leaves above).nodes.toList.filterMap
        (fun node => node.children.map fun children => read node.hash children)
      = above.mapIdx fun j digest => read digest (2 * j, 2 * j + 1) := by
  have hover : ∀ start, (nodesOver start above).filterMap
        (fun node => node.children.map fun children => read node.hash children)
      = above.mapIdx fun j digest => read digest (start + 2 * j, start + 2 * j + 1) := by
    induction above with
    | nil => intro start; rfl
    | cons digest above ih =>
      intro start
      have hshift : ∀ j, start + 2 + 2 * j = start + 2 * (j + 1) := by intro j; omega
      simp [nodesOver_cons, ih, List.mapIdx_cons, hshift]
  have hleaves : (leaves.map Node.leaf).filterMap
      (fun node => node.children.map fun children => read node.hash children) = [] := by
    simp [Node.leaf]
  simp only [ofDigests, List.filterMap_append, hleaves, hover, List.nil_append, Nat.zero_add]

/-- In the arena the children of the interior nodes are the nodes two by two. -/
theorem childHashes_ofDigests (hlen : above.length + 1 = leaves.length) :
    (ofDigests leaves above).childHashes (ofDigests leaves above).nodes.toList
      = pairs (leaves ++ above) := by
  have hhalf : (leaves ++ above).length / 2 = above.length := by
    rw [List.length_append]
    omega
  rw [pairs_eq_map_range, hhalf]
  refine Eq.trans (filterMap_nodes_ofDigests fun _ children =>
    [(ofDigests leaves above).hashAt children.1, (ofDigests leaves above).hashAt children.2]) ?_
  refine List.ext_getElem (by simp) fun j _ _ => ?_
  simp [hashAt_ofDigests]

theorem interiorHashes_ofDigests :
    interiorHashes (ofDigests leaves above).nodes.toList = above := by
  refine (filterMap_nodes_ofDigests fun digest _ => digest).trans ?_
  refine List.ext_getElem (by simp) fun j _ _ => ?_
  simp

/-- Strategies that digest alike, with accumulators that start in their initial state every time,
find that nothing has changed. -/
theorem Grows.digests_eq {padded : List Bytes} (hg : Grows H h padded leaves above)
    (hfresh : H.Fresh) (hG : G.digest = H.digest) (g : History) :
    (G.digests g (pairs (leaves ++ above))).map (interiorTag :: ·) = above := by
  rw [HashStrategy.digests_congr hG, hfresh.digests_eq g h, ← hfresh.digests_eq _ h]
  exact hg.above_eq.symm

/-! ### Asking -/

theorem lt_of_lastLeaf? {digest : Bytes} (hlast : t.lastLeaf? digest = some i) :
    i < t.leafCount := by
  have hmem := List.mem_of_find?_eq_some hlast
  simpa using hmem

/-- Whatever the strategy has become and whatever it was asked, a tree answers without asking it.
The only errors are that no leaf has a digest and that a position is past the last leaf. -/
structure SelfContained (t : MerkleTree) (G : HashStrategy) (g : History) : Prop where
  root : ∃ node, t.rootNode? = some node ∧ (t.root G).outcome g = (.ok node.hash, g)
  length_leaves : t.leaves.length = t.leafCount
  /-- For a witness only places inside the arena are read. -/
  proveIndex_of_lt : ∀ i < t.leafCount, ∃ w, t.Issues G i w
  proveIndex_of_le : ∀ i, t.leafCount ≤ i →
    (t.proveIndex G i).outcome g = (.error (.leafIndexOutOfRange i t.leafCount), g)
  prove : ∀ digest, (t.prove G digest).outcome g = (.error .leafNotFound, g) ∨
    ∃ i w, t.Issues G i w ∧ (t.prove G digest).outcome g = (.ok w, g)
  dump : ∃ text, (t.dump G).outcome g = (.ok text, g) ∧ (t.display G true).outcome g = (.ok text, g)
  display : ∃ text, (t.display G false).outcome g = (.ok text, g)
  /-- The children of a node stand in front of it, so each walk down stays inside the arena. -/
  child_lt : ∀ (i : Nat) (node : Node) (left right : Nat), t.nodes[i]? = some node →
    node.children = some (left, right) → left < i ∧ right < i
  /-- The walk that draws the picture is not cut off by its bound. -/
  dumpBelow_eq : ∀ bound i margin isRight, t.depth ≤ bound → i < t.nodes.size →
    t.dumpBelow bound i margin isRight = t.dumpBelow t.depth i margin isRight

theorem Perfect.selfContained (ht : t.Perfect) (G : HashStrategy) (g : History) :
    t.SelfContained G g := by
  obtain ⟨node, hnode, hroot⟩ := ht.exists_root G
  exact {
    root := ⟨node, hnode, by rw [hroot, Hashing.outcome_pure]⟩
    length_leaves := ht.length_leaves
    proveIndex_of_lt := fun i hi => ⟨_, ht.issues G hi⟩
    proveIndex_of_le := fun i hi => by
      rw [proveIndex, if_pos hi]
      rfl
    prove := fun digest => by
      rw [MerkleTree.prove]
      cases hlast : t.lastLeaf? digest with
      | none => exact Or.inl rfl
      | some i =>
        have hissues := ht.issues G (lt_of_lastLeaf? hlast)
        exact Or.inr ⟨i, _, hissues, hissues.issued g⟩
    dump := by
      refine ⟨String.join ((t.dumpLines node).map (· ++ "\n")), ?_, ?_⟩
      · rw [MerkleTree.dump, hnode]
        rfl
      · rw [MerkleTree.display, if_pos rfl, MerkleTree.dump, hnode]
        rfl
    display := ⟨node.hash.toHex, by rw [MerkleTree.display, if_neg (by decide), hroot]; rfl⟩
    child_lt := fun i node left right => ht.child_lt
    dumpBelow_eq := fun bound i margin isRight hbound hi => by
      refine ht.dumpBelow_eq hbound (Nat.le_refl _) ?_
      have hsize := ht.size_eq
      rw [levelStart, levelStart_eq (Nat.le_refl _), ← ht.leafCount_eq, Nat.sub_self, Nat.pow_zero]
      omega }

/-- **A tree that is built answers without hashing.** Afterwards the strategy may have changed into
any other, one that refuses every write included, and may have been asked anything. Only a check of
integrity hashes: the digests of the children of the interior nodes, in arena order, for all of them
unless a write is refused, which is the last one then, or a digest is no longer the one that it was.
If accumulators digest as they did for the tree and start in their initial state every time, then no
digest has changed. -/
theorem build_asks_nothing (hb : (build H payloads).outcome h = (.ok t, after)) (G : HashStrategy)
    (g : History) :
    t.SelfContained G g ∧
    t.childHashes t.nodes.toList = (List.range (t.leafCount - 1)).map (fun j =>
      [t.hashAt (2 * j), t.hashAt (2 * j + 1)]) ∧
    (∃ count answer, count ≤ t.leafCount - 1 ∧ (t.verifyIntegrity G).Follows G g
        (hashingAll ((t.childHashes t.nodes.toList).take count)) answer ∧
      ((answer = true ∧ count = t.leafCount - 1) ∨
        (answer = false ∧ (G.digests g (t.childHashes t.nodes.toList)).map (interiorTag :: ·)
          ≠ interiorHashes t.nodes.toList))) ∧
    (H.Fresh → G.digest = H.digest → (t.verifyIntegrity G).Follows G g
      (hashingAll (t.childHashes t.nodes.toList)) true) := by
  have hb := Hashing.outcome_eq_ok.mp hb
  have hperfect := Perfect.of_build hb
  obtain ⟨leaves, above, hg, rfl⟩ := grows_of_build hb
  have hlen := hg.length_above
  have hwork := childHashes_ofDigests hlen
  have hcount : (pairs (leaves ++ above)).length = (ofDigests leaves above).leafCount - 1 := by
    show _ = leaves.length - 1
    rw [length_pairs, List.length_append]
    omega
  obtain ⟨count, answer, hle, hfollows, hanswer⟩ := verifyNodes_follows (ofDigests leaves above) G g
    (ofDigests leaves above).nodes.toList
  refine ⟨hperfect.selfContained G g, ?_, ⟨count, answer, ?_, hfollows, ?_⟩, fun hfresh hG => ?_⟩
  · rw [hwork, ← hcount, length_pairs, pairs_eq_map_range]
    simp only [hashAt_ofDigests]
  · rwa [hwork, hcount] at hle
  · rwa [hwork, hcount, ← hwork] at hanswer
  · rcases hanswer with ⟨rfl, rfl⟩ | ⟨-, hchanged⟩
    · rwa [List.take_length] at hfollows
    · rw [hwork, interiorHashes_ofDigests] at hchanged
      exact absurd (hg.digests_eq hfresh hG g) hchanged

/-- The strategy goes offline once a tree over three payloads is built. The tree still has its root,
its picture and a witness for the padding, while a check of integrity stops at the first of the
three digests. Had the strategy stayed as it was, then all three would have been found unchanged. -/
theorem build_asks_nothing_offline :
    ∃ t after, (build (.concatenation "concat") [[1], [2], [3]]).outcome [] = (.ok t, after) ∧
      t.SelfContained ((HashStrategy.concatenation "concat").refusing "offline" fun _ _ => true)
        after ∧
      (∃ w, t.Issues ((HashStrategy.concatenation "concat").refusing "offline" fun _ _ => true)
        3 w) ∧
      t.verifyIntegrity ((HashStrategy.concatenation "concat").refusing "offline" fun _ _ => true)
        after = .error (.hashWriteFailed "offline")
          (.write (t.hashAt 0) :: .accumulator :: after) ∧
      t.verifyIntegrity (.concatenation "concat") after
        = .ok true (after.extend (hashingAll (t.childHashes t.nodes.toList))) := by
  obtain ⟨t, after, hb, hcount⟩ : ∃ t after, (build (.concatenation "concat")
      [[1], [2], [3]]).outcome [] = (.ok t, after) ∧ t.leafCount = 4 := ⟨_, _, rfl, rfl⟩
  obtain ⟨hself, hwork, -, hoffline⟩ := build_asks_nothing hb
    ((HashStrategy.concatenation "concat").refusing "offline" fun _ _ => true) after
  obtain ⟨-, -, -, honline⟩ := build_asks_nothing hb (.concatenation "concat") after
  rw [hcount] at hwork
  have hrefused := hoffline (fun _ _ _ => rfl) rfl
  rw [hwork] at hrefused
  refine ⟨t, after, hb, hself, hself.proveIndex_of_lt 3 (by rw [hcount]; decide), ?_, ?_⟩
  · exact hrefused.refused [.accumulator] _ _ "offline" rfl trivial rfl
  · have haccepts : (HashStrategy.concatenation "concat").Accepts := fun _ _ => rfl
    exact (honline (fun _ _ _ => rfl) rfl).admitted (haccepts.admits _ _)

end MerkleTree

end OrderingService
