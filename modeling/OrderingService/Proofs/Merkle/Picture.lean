import Mathlib.Data.List.Nodup
import Mathlib.Data.List.Perm.Subperm
import OrderingService.Proofs.Merkle.Queries

/-!
# What a picture shows

The picture of a tree has one line for each node, in pre-order from the root. A line does not say
where its node stands in the arena; it says how to get there from the root. In front of its label
stand as many blocks as there are nodes between the root and the node, and each of them tells
whether that ancestor is a left or a right child, as the glyph behind them tells of the node itself.
So a picture is a list of digests on known ways down, and the ways depend on the depth alone.

That is also why nothing is lost in a picture. The number of lines gives the depth, the depth gives
the way of each line, and every place in the arena is at the end of one way.

## Main definitions

* `MerkleTree.ways` — the ways down a tree of some depth, in pre-order
* `MerkleTree.place` — where a way from the root ends
* `MerkleTree.lead`, `MerkleTree.label` — what the line at the end of a way starts with
* `MerkleTree.Pictured` — what the lines of a picture show of a tree

## Main results

* `MerkleTree.Perfect.place_eq` — on which level a way ends
* `MerkleTree.Perfect.exists_place` — each place in the arena is at the end of some way
* `MerkleTree.Perfect.dumpLines_eq` — the lines of a picture way by way
* `MerkleTree.build_pictured` — the picture of every tree that is built, and what it determines
-/

namespace OrderingService

namespace MerkleTree

variable {t t' : MerkleTree} {H : HashStrategy} {h after : History} {payloads : List Bytes}

/-! ### Ways down -/

/-- The ways down a perfect tree of some depth, in pre-order: to the node itself, then to the nodes
below its left child, then to those below its right child. A step to the right is `true`. -/
def ways : Nat → List (List Bool)
  | 0 => [[]]
  | depth + 1 => [] :: ((ways depth).map (false :: ·) ++ (ways depth).map (true :: ·))

/-- Where a way down from a node ends, from child to child. -/
def down (t : MerkleTree) : (index : Nat) → List Bool → Option Nat
  | index, [] => some index
  | index, right :: way => do
    let (left, other) ← t.nodes[index]?.bind Node.children
    t.down (if right then other else left) way

/-- Where a way down from the root ends. -/
def place (t : MerkleTree) (way : List Bool) : Option Nat :=
  t.rootIndex.bind fun root => t.down root way

theorem mem_ways {depth : Nat} {way : List Bool} : way ∈ ways depth ↔ way.length ≤ depth := by
  induction depth generalizing way with
  | zero => simp [ways]
  | succ depth ih =>
    cases way with
    | nil => simp [ways]
    | cons right way => cases right <;> simp [ways, ih]

theorem length_ways (depth : Nat) : (ways depth).length = 2 * 2 ^ depth - 1 := by
  induction depth with
  | zero => rfl
  | succ depth ih =>
    have hpos := Nat.two_pow_pos depth
    simp only [ways, List.length_cons, List.length_append, List.length_map, ih, Nat.pow_succ]
    omega

theorem down_append (t : MerkleTree) (i : Nat) (way rest : List Bool) :
    t.down i (way ++ rest) = (t.down i way).bind fun j => t.down j rest := by
  induction way generalizing i with
  | nil => rfl
  | cons right way ih =>
    simp only [List.cons_append, down, Option.bind_eq_bind, Option.bind_assoc, ih]

namespace Perfect

/-- The children of a node by its place. -/
theorem children_eq (ht : t.Perfect) (i : Nat) : t.nodes[i]?.bind Node.children
    = if t.leafCount ≤ i ∧ i + 1 < 2 * t.leafCount
      then some (2 * (i - t.leafCount), 2 * (i - t.leafCount) + 1) else none := by
  have hsize := ht.size_eq
  split
  next hi =>
    obtain ⟨j, rfl⟩ : ∃ j, i = t.leafCount + j := ⟨i - t.leafCount, by omega⟩
    rw [ht.interior j (by omega), Nat.add_sub_cancel_left]
    rfl
  next hi =>
    rcases Nat.lt_or_ge i t.leafCount with hlt | hge
    · rw [ht.leaf i hlt]
      rfl
    · rw [Array.getElem?_eq_none (by omega)]
      rfl

/-- Trees of the same size are linked alike. -/
theorem down_congr (ht : t.Perfect) (ht' : t'.Perfect) (hcount : t'.leafCount = t.leafCount)
    (i : Nat) (way : List Bool) : t'.down i way = t.down i way := by
  induction way generalizing i with
  | nil => rfl
  | cons right way ih => simp only [down, ht.children_eq, ht'.children_eq, hcount, ih]

/-- The children of a node on a level stand next to each other on the level below. -/
theorem children_levelStart (ht : t.Perfect) (level j : Nat) (hlevel : level < t.depth)
    (hj : j < 2 ^ (t.depth - (level + 1))) :
    t.nodes[levelStart t.depth (level + 1) + j]?.bind Node.children
      = some (levelStart t.depth level + 2 * j, levelStart t.depth level + (2 * j + 1)) := by
  have hcount := ht.leafCount_eq
  have hstart := levelStart_eq (Nat.le_of_lt hlevel)
  have hwidth := two_pow_sub_eq hlevel
  have hmost : 2 ^ (t.depth - level) ≤ 2 ^ t.depth := Nat.pow_le_pow_right (by decide) (by omega)
  rw [ht.children_eq, levelStart, if_pos (by omega)]
  congr 2 <;> omega

/-- **A way goes down one level at a step.** -/
theorem down_levelStart (ht : t.Perfect) {level j : Nat} {way : List Bool}
    (hlevel : level ≤ t.depth) (hj : j < 2 ^ (t.depth - level)) (hway : way.length ≤ level) :
    ∃ p < 2 ^ (t.depth - (level - way.length)),
      t.down (levelStart t.depth level + j) way
        = some (levelStart t.depth (level - way.length) + p) := by
  induction way generalizing level j with
  | nil => exact ⟨j, hj, rfl⟩
  | cons right way ih =>
    obtain ⟨level, rfl⟩ : ∃ n, level = n + 1 := ⟨level - 1, by simp at hway; omega⟩
    have hwidth := two_pow_sub_eq (show level < t.depth by omega)
    have hchild : (if right then 2 * j + 1 else 2 * j) < 2 ^ (t.depth - level) := by
      split <;> omega
    obtain ⟨p, hp, hdown⟩ := ih (by omega) hchild (by simpa using hway)
    refine ⟨p, by simpa using hp, ?_⟩
    rw [down, ht.children_levelStart level j (by omega) hj, Option.bind_eq_bind, Option.bind_some]
    simpa [apply_ite] using hdown

theorem rootIndex_eq_levelStart (ht : t.Perfect) :
    t.rootIndex = some (levelStart t.depth t.depth) := by
  have hsize := ht.size_eq
  rw [ht.rootIndex_eq, levelStart_eq (Nat.le_refl _), ← ht.leafCount_eq, Nat.sub_self, Nat.pow_zero]
  congr 1
  omega

/-- **A way from the root ends on the level that its length gives.** -/
theorem place_eq (ht : t.Perfect) {way : List Bool} (hway : way.length ≤ t.depth) :
    ∃ p < 2 ^ way.length, t.place way = some (levelStart t.depth (t.depth - way.length) + p) := by
  obtain ⟨p, hp, hdown⟩ := ht.down_levelStart (Nat.le_refl t.depth) (j := 0)
    (Nat.two_pow_pos _) hway
  rw [Nat.sub_sub_self hway] at hp
  refine ⟨p, hp, ?_⟩
  rw [place, ht.rootIndex_eq_levelStart, Option.bind_some]
  exact hdown

theorem place_lt_size (ht : t.Perfect) {way : List Bool} (hway : way.length ≤ t.depth) :
    ∃ i < t.nodes.size, t.place way = some i := by
  obtain ⟨p, hp, hplace⟩ := ht.place_eq hway
  have hsize := ht.size_eq
  have hcount := ht.leafCount_eq
  have hstart := levelStart_eq (Nat.sub_le t.depth way.length)
  have hmost : 2 ^ way.length ≤ 2 ^ t.depth := Nat.pow_le_pow_right (by decide) hway
  rw [Nat.sub_sub_self hway] at hstart
  have := Nat.two_pow_pos way.length
  exact ⟨_, by omega, hplace⟩

/-- **Each place in the arena is at the end of some way.** The induction goes from the root to the
front: the parent of a node stands further behind, and the way to the node is one step longer. -/
theorem exists_place (ht : t.Perfect) {i : Nat} (hi : i < t.nodes.size) :
    ∃ way, way.length ≤ t.depth ∧ t.place way = some i := by
  have hsize := ht.size_eq
  have hpos := ht.leafCount_pos
  generalize hbehind : t.nodes.size - i = behind
  induction behind using Nat.strongRecOn generalizing i with
  | ind behind ih =>
    rcases Nat.lt_or_ge (i + 1) t.nodes.size with hlt | hge
    · obtain ⟨way, hway, hplace⟩ := ih (t.nodes.size - (t.leafCount + i / 2)) (by omega)
        (i := t.leafCount + i / 2) (by omega) rfl
      have hshort : way.length < t.depth := by
        refine Nat.lt_of_le_of_ne hway fun hlen => ?_
        obtain ⟨p, hp, hplace'⟩ := ht.place_eq hway
        rw [hplace, hlen, Nat.sub_self, levelStart, Option.some.injEq] at hplace'
        rw [hlen, ← ht.leafCount_eq] at hp
        omega
      refine ⟨way ++ [decide (i % 2 = 1)], by rwa [List.length_append], ?_⟩
      rw [place] at hplace ⊢
      rw [ht.rootIndex_eq, Option.bind_some] at hplace ⊢
      rw [down_append, hplace, Option.bind_some, down, ht.children_eq, if_pos (by omega)]
      simp only [Option.bind_eq_bind, Option.bind_some, down, decide_eq_true_eq,
        Option.some.injEq]
      split <;> omega
    · refine ⟨[], Nat.zero_le _, ?_⟩
      rw [place, ht.rootIndex_eq, Option.bind_some, down]
      congr 1
      omega

/-- **The ways in pre-order lead to each place in the arena once.** -/
theorem perm_map_place (ht : t.Perfect) :
    ((ways t.depth).map t.place).Perm ((List.range t.nodes.size).map some) := by
  have hsize := ht.size_eq
  have hcount := ht.leafCount_eq
  have hnodup : ((List.range t.nodes.size).map some).Nodup :=
    List.nodup_range.map fun _ _ => Option.some.inj
  refine ((List.subperm_of_subset hnodup fun place hplace => ?_).perm_of_length_le ?_).symm
  · obtain ⟨i, hi, rfl⟩ := List.mem_map.mp hplace
    obtain ⟨way, hway, hend⟩ := ht.exists_place (List.mem_range.mp hi)
    exact List.mem_map.mpr ⟨way, mem_ways.mpr hway, hend⟩
  · rw [List.length_map, List.length_map, List.length_range, length_ways]
    omega

end Perfect

/-! ### Lines -/

/-- What the line at the end of a way starts with: a trunk for each node passed on the way, and the
branch of the node itself. -/
def lead : List Bool → String
  | [] => ""
  | [isRight] => branch isRight ++ " "
  | isRight :: way => trunk isRight ++ lead way

/-- The label of the node at the end of a way. -/
def label (depth : Nat) (way : List Bool) : String :=
  if way = [] then "root" else if way.length = depth then "leaf" else "node"

/-- The digest at a place; empty when there is none. -/
def hashOf (t : MerkleTree) (place : Option Nat) : Bytes := place.elim [] t.hashAt

/-- The line at the end of a way. -/
def lineAt (t : MerkleTree) (way : List Bool) : String :=
  lead way ++ label t.depth way ++ ": " ++ (t.hashOf (t.place way)).toHex

theorem lineAt_eq {way : List Bool} {i : Nat} {node : Node} (hplace : t.place way = some i)
    (hnode : t.nodes[i]? = some node) :
    t.lineAt way = lead way ++ label t.depth way ++ ": " ++ node.hash.toHex := by
  have hhash : t.hashOf (some i) = node.hash := hashAt_eq_of_getElem? hnode
  rw [lineAt, hplace, hhash]

theorem lead_concat (way : List Bool) (isRight : Bool) :
    lead (way ++ [isRight]) = String.join (way.map trunk) ++ branch isRight ++ " " := by
  induction way with
  | nil => simp [lead, String.join]
  | cons step way ih =>
    rw [List.cons_append, lead, ih]
    · simp [String.append_assoc]
    · simp

theorem length_join_trunk (way : List Bool) :
    (String.join (way.map trunk)).length = 4 * way.length := by
  induction way with
  | nil => rfl
  | cons step way ih =>
    have hblock : (trunk step).length = 4 := by cases step <;> decide
    simp [String.length_append, ih, hblock]
    omega

theorem Node.line_eq (n : Node) (margin : String) (isRight : Bool) :
    n.line margin isRight = margin ++ lead [isRight] ++ n.kind ++ ": " ++ n.hash.toHex := by
  simp only [Node.line, lead, String.append_assoc]

namespace Perfect

/-- The lines below a node other than the root, way by way. -/
theorem dumpBelow_eq_map (ht : t.Perfect) {level j : Nat} {margin : String} {isRight : Bool}
    (hlevel : level < t.depth) (hj : j < 2 ^ (t.depth - level)) :
    t.dumpBelow level (levelStart t.depth level + j) margin isRight
      = (ways level).map fun way => margin ++ lead (isRight :: way) ++
          (if way.length = level then "leaf" else "node") ++ ": " ++
          (t.hashOf (t.down (levelStart t.depth level + j) way)).toHex := by
  induction level generalizing j margin isRight with
  | zero =>
    have hlt : levelStart t.depth 0 + j < t.leafCount := by
      rw [ht.leafCount_eq]
      simpa [levelStart] using hj
    rw [dumpBelow_leaf (ht.leaf _ hlt) rfl, Node.line_eq]
    rfl
  | succ level ih =>
    have hwidth := two_pow_sub_eq (show level < t.depth by omega)
    have hlinks := ht.children_levelStart level j (by omega) hj
    obtain ⟨node, hnode, hchildren⟩ := Option.bind_eq_some_iff.mp hlinks
    have hdown : ∀ right way, t.down (levelStart t.depth (level + 1) + j) (right :: way)
        = t.down (levelStart t.depth level + (if right then 2 * j + 1 else 2 * j)) way := by
      intro right way
      rw [down, hlinks]
      cases right <;> rfl
    have hkind : node.kind = "node" := by simp [Node.kind, Node.isLeaf, hchildren]
    have hlead : ∀ right way, lead (isRight :: right :: way)
        = trunk isRight ++ lead (right :: way) := fun _ _ => rfl
    have hhash : t.hashOf (t.down (levelStart t.depth (level + 1) + j) []) = node.hash :=
      hashAt_eq_of_getElem? hnode
    rw [dumpBelow_interior hnode hchildren, ih (by omega) (by omega), ih (by omega) (by omega),
      ways, List.map_cons, List.map_append, List.map_map, List.map_map, Node.line_eq, hhash, hkind]
    simp only [Function.comp_def, hdown, hlead, String.append_assoc, List.length_nil,
      List.length_cons, Nat.add_right_cancel_iff]
    rfl

/-- A way that starts with a step goes on below a child of the root. -/
theorem place_cons (ht : t.Perfect) {level : Nat} (hlevel : t.depth = level + 1) (right : Bool)
    (way : List Bool) : t.place (right :: way)
      = t.down (levelStart t.depth level + (if right then 1 else 0)) way := by
  have hlinks := ht.children_levelStart level 0 (by omega) (Nat.two_pow_pos _)
  rw [← hlevel, Nat.add_zero, Nat.mul_zero, Nat.zero_add] at hlinks
  rw [place, ht.rootIndex_eq_levelStart, Option.bind_some, down, hlinks]
  cases right <;> rfl

/-- The lines below the root, on the side of one of its children. -/
theorem dumpBelow_root (ht : t.Perfect) {level : Nat} (hlevel : t.depth = level + 1)
    (isRight : Bool) :
    t.dumpBelow t.depth (levelStart t.depth level + (if isRight then 1 else 0)) "" isRight
      = (ways level).map fun way => t.lineAt (isRight :: way) := by
  have hwidth : 2 ^ (t.depth - level) = 2 := by rw [hlevel, Nat.add_sub_cancel_left, Nat.pow_one]
  have hj : (if isRight then 1 else 0) < 2 ^ (t.depth - level) := by
    rw [hwidth]
    split <;> decide
  have hbelow : level < t.depth := by omega
  rw [ht.dumpBelow_eq (Nat.le_of_lt hbelow) (Nat.le_of_lt hbelow) (by rw [levelStart]; omega),
    ht.dumpBelow_eq_map hbelow hj]
  refine List.map_congr_left fun way _ => ?_
  rw [lineAt, ht.place_cons hlevel, label, if_neg (List.cons_ne_nil isRight way), hlevel]
  simp only [List.length_cons, Nat.add_right_cancel_iff, String.empty_append]

/-- **The lines of a picture, way by way.** -/
theorem dumpLines_eq (ht : t.Perfect) {node : Node} (hroot : t.rootNode? = some node) :
    t.dumpLines node = (ways t.depth).map t.lineAt := by
  have hindex := ht.rootIndex_eq_levelStart
  have hnode : t.nodes[levelStart t.depth t.depth]? = some node := by
    rw [← hroot, rootNode?, hindex, Option.bind_some]
  have htop : t.lineAt [] = "root: " ++ node.hash.toHex :=
    lineAt_eq (by rw [place, hindex, Option.bind_some, down]) hnode
  rcases Nat.eq_zero_or_pos t.depth with hzero | hpos
  · have hcount : t.leafCount = 1 := by rw [ht.leafCount_eq, hzero, Nat.pow_zero]
    have hleaf : node.children = none := by
      have hlinks := ht.children_eq (levelStart t.depth t.depth)
      rwa [hnode, hcount, if_neg (by omega)] at hlinks
    rw [dumpLines, hleaf, hzero, ways, List.map_singleton, htop]
  · obtain ⟨level, hlevel⟩ : ∃ level, t.depth = level + 1 := ⟨t.depth - 1, by omega⟩
    have hlinks := ht.children_levelStart level 0 (by omega) (Nat.two_pow_pos _)
    rw [← hlevel, Nat.add_zero, hnode, Option.bind_some, Nat.mul_zero, Nat.zero_add] at hlinks
    have hleft := ht.dumpBelow_root hlevel false
    have hright := ht.dumpBelow_root hlevel true
    have hways : ways t.depth
        = [] :: ((ways level).map (false :: ·) ++ (ways level).map (true :: ·)) := by
      rw [hlevel, ways]
    rw [if_neg Bool.false_ne_true] at hleft
    rw [if_pos rfl] at hright
    rw [dumpLines, hlinks, hways, List.map_cons, htop, List.map_append, List.map_map, List.map_map]
    exact congrArg _ (congrArg₂ _ hleft hright)

end Perfect

/-! ### One text -/

theorem newline_notMem_lead (way : List Bool) : '\n' ∉ (lead way).toList := by
  have hbranch : ∀ isRight, '\n' ∉ (branch isRight).toList := by decide
  have htrunk : ∀ isRight, '\n' ∉ (trunk isRight).toList := by decide
  induction way with
  | nil => decide
  | cons step way ih =>
    cases way with
    | nil => simp [lead, hbranch]
    | cons next way => simpa [lead, htrunk] using ih

theorem newline_notMem_toHex (b : Bytes) : '\n' ∉ b.toHex.toList := by
  have hdigit : ∀ n : UInt8, n < 16 → '\n' ≠ Bytes.hexDigit n := fun n hn h => by
    have hcode := congrArg Char.toNat h
    rw [Bytes.toNat_hexDigit hn] at hcode
    change 10 = _ at hcode
    split at hcode <;> omega
  intro hmem
  rw [Bytes.toHex, String.toList_ofList, List.mem_flatMap] at hmem
  obtain ⟨x, -, hx⟩ := hmem
  have hhigh := hdigit (x / 16) (Bytes.div_sixteen_lt x)
  have hlow := hdigit (x % 16) (Bytes.mod_sixteen_lt x)
  simp [hhigh, hlow] at hx

/-- A line has no end inside. -/
theorem newline_notMem_lineAt (t : MerkleTree) (way : List Bool) :
    '\n' ∉ (t.lineAt way).toList := by
  have hlabel : '\n' ∉ (label t.depth way).toList := by
    rw [label]
    split
    · decide
    · split <;> decide
  simp [lineAt, newline_notMem_lead, newline_notMem_toHex, hlabel]

/-- What stands before the first end of a line is the first line. -/
theorem eq_of_append_newline {a b as bs : List Char} (ha : '\n' ∉ a) (hb : '\n' ∉ b)
    (h : a ++ '\n' :: as = b ++ '\n' :: bs) : a = b ∧ as = bs := by
  rcases List.append_eq_append_iff.mp h with ⟨c, rfl, hc⟩ | ⟨c, rfl, hc⟩
  · cases c with
    | nil => simpa using hc
    | cons x c =>
      obtain ⟨rfl, -⟩ := List.cons.inj hc
      simp at hb
  · cases c with
    | nil => simpa [eq_comm] using hc
    | cons x c =>
      obtain ⟨rfl, -⟩ := List.cons.inj hc
      simp at ha

/-- **The lines can be read off the text.** -/
theorem eq_of_join_eq {lines lines' : List String} (hlines : ∀ line ∈ lines, '\n' ∉ line.toList)
    (hlines' : ∀ line ∈ lines', '\n' ∉ line.toList)
    (h : String.join (lines.map (· ++ "\n")) = String.join (lines'.map (· ++ "\n"))) :
    lines = lines' := by
  replace h := congrArg String.toList h
  simp only [String.toList_join, List.flatMap_map, String.toList_append] at h
  induction lines generalizing lines' with
  | nil =>
    cases lines' with
    | nil => rfl
    | cons line' lines' => simp at h
  | cons line lines ih =>
    cases lines' with
    | nil => simp at h
    | cons line' lines' =>
      rw [List.forall_mem_cons] at hlines hlines'
      simp only [List.flatMap_cons, List.append_assoc] at h
      obtain ⟨hline, hrest⟩ := eq_of_append_newline hlines.1 hlines'.1 h
      rw [String.toList_inj.mp hline, ih hlines.2 hlines'.2 hrest]

/-- Trees of the same size that differ in no digest are the same. -/
theorem Perfect.eq_of_hashAt_eq (ht : t.Perfect) (ht' : t'.Perfect)
    (hcount : t'.leafCount = t.leafCount)
    (hhash : ∀ i < t.nodes.size, t'.hashAt i = t.hashAt i) : t' = t := by
  have hsize := ht.size_eq
  have hsize' := ht'.size_eq
  have hpos := ht.leafCount_pos
  have hroot : t'.rootIndex = t.rootIndex := by
    rw [ht.rootIndex_eq, ht'.rootIndex_eq]
    congr 1
    omega
  have hnodes : t'.nodes = t.nodes := by
    refine Array.ext_getElem? fun i => ?_
    rcases Nat.lt_or_ge i t.leafCount with hlt | hge
    · rw [ht.leaf i hlt, ht'.leaf i (by omega), hhash i (by omega)]
    · obtain ⟨j, rfl⟩ : ∃ j, i = t.leafCount + j := ⟨i - t.leafCount, by omega⟩
      rcases Nat.lt_or_ge (j + 1) t.leafCount with hin | hout
      · have hinterior := ht'.interior j (by omega)
        rw [hcount] at hinterior
        rw [ht.interior j hin, hinterior, hhash _ (by omega)]
      · rw [Array.getElem?_eq_none (by omega), Array.getElem?_eq_none (by omega)]
  obtain ⟨nodes, leafCount, rootIndex⟩ := t
  obtain ⟨nodes', leafCount', rootIndex'⟩ := t'
  cases hnodes
  cases hcount
  cases hroot
  rfl

/-- **A picture determines its tree.** The number of lines gives the size, and in trees of the same
size a way leads to the same place. -/
theorem Perfect.eq_of_lines_eq (ht : t.Perfect) (ht' : t'.Perfect)
    (h : (ways t'.depth).map t'.lineAt = (ways t.depth).map t.lineAt) : t' = t := by
  have hcount : t'.leafCount = t.leafCount := by
    have hlength := congrArg List.length h
    rw [List.length_map, List.length_map, length_ways, length_ways, ← ht.leafCount_eq,
      ← ht'.leafCount_eq] at hlength
    have hpos := ht.leafCount_pos
    have hpos' := ht'.leafCount_pos
    omega
  have hdepth : t'.depth = t.depth := by rw [depth, depth, hcount]
  have hplace : ∀ way, t'.place way = t.place way := by
    intro way
    rw [place, place, ht.rootIndex_eq_levelStart, ht'.rootIndex_eq_levelStart, hdepth]
    exact congrArg _ (funext fun root => ht.down_congr ht' hcount root way)
  refine ht.eq_of_hashAt_eq ht' hcount fun i hi => ?_
  obtain ⟨way, hway, hend⟩ := ht.exists_place hi
  rw [hdepth] at h
  have hline := List.map_inj_left.mp h way (mem_ways.mpr hway)
  rw [lineAt, lineAt, hdepth, String.append_right_inj, hplace, hend] at hline
  exact Bytes.toHex_inj hline

/-! ### Every tree that is built -/

/-- What the lines of a picture show of a tree. -/
structure Pictured (t : MerkleTree) (lines : List String) : Prop where
  length_eq : lines.length = 2 * t.leafCount - 1
  /-- A line is one line. -/
  newline_notMem : ∀ line ∈ lines, '\n' ∉ line.toList
  /-- The ways in pre-order lead to each node of the arena once. -/
  perm_place : ((ways t.depth).map t.place).Perm ((List.range t.nodes.size).map some)
  /-- The first line is that of the root. -/
  root : ∃ i node, t.place [] = some i ∧ t.rootIndex = some i ∧ t.nodes[i]? = some node ∧
    lines[0]? = some ("root: " ++ node.hash.toHex)
  /-- The line at the end of a longer way starts with four characters for each node between the
  root and its own: a blank if that is a right child, a bar if it is a left one. A corner or a tee
  follows for its own node. -/
  below : ∀ (k : Nat) (way : List Bool) (isRight : Bool),
    (ways t.depth)[k]? = some (way ++ [isRight]) →
    ∃ i node margin, t.place (way ++ [isRight]) = some i ∧ t.nodes[i]? = some node ∧
      margin = String.join (way.map fun right => if right then "    " else " │  ") ∧
      margin.length = 4 * way.length ∧
      lines[k]? = some (margin ++ (if isRight then " └─" else " ├─") ++ " " ++
        (if way.length + 1 = t.depth then "leaf" else "node") ++ ": " ++ node.hash.toHex)

theorem Perfect.pictured (ht : t.Perfect) : t.Pictured ((ways t.depth).map t.lineAt) where
  length_eq := by rw [List.length_map, length_ways, ← ht.leafCount_eq]
  newline_notMem := fun line hline => by
    obtain ⟨way, -, rfl⟩ := List.mem_map.mp hline
    exact t.newline_notMem_lineAt way
  perm_place := ht.perm_map_place
  root := by
    obtain ⟨i, hi, hplace⟩ := ht.place_lt_size (show [].length ≤ t.depth from Nat.zero_le _)
    have hnode := Array.getElem?_eq_getElem hi
    have hroot : t.rootIndex = some i := by simpa [place, down] using hplace
    have hfirst : (ways t.depth)[0]? = some [] := by cases t.depth <;> rfl
    refine ⟨i, _, hplace, hroot, hnode, ?_⟩
    rw [List.getElem?_map, hfirst, Option.map_some, lineAt_eq hplace hnode]
    rfl
  below := fun k way isRight hway => by
    have hlength := mem_ways.mp (List.mem_of_getElem? hway)
    obtain ⟨i, hi, hplace⟩ := ht.place_lt_size hlength
    have hnode := Array.getElem?_eq_getElem hi
    refine ⟨i, _, _, hplace, hnode, rfl, length_join_trunk way, ?_⟩
    rw [List.getElem?_map, hway, Option.map_some, lineAt_eq hplace hnode, lead_concat, label,
      if_neg (by simp), List.length_append, List.length_singleton]
    rfl

/-- The text of a picture. No strategy is asked for it. -/
theorem Perfect.outcome_dump (ht : t.Perfect) (G : HashStrategy) (g : History) :
    (t.dump G).outcome g
      = (.ok (String.join (((ways t.depth).map t.lineAt).map (· ++ "\n"))), g) := by
  obtain ⟨node, hroot, -⟩ := ht.exists_root G
  rw [dump, hroot]
  dsimp only
  rw [ht.dumpLines_eq hroot, Hashing.outcome_pure]

/-- **A picture shows the whole tree.** It is written without asking the strategy, and two trees
that are built, from whatever payloads and with whatever strategies, have the same picture only if
they are the same. -/
theorem build_pictured (hb : (build H payloads).outcome h = (.ok t, after)) :
    ∃ lines, t.Pictured lines ∧
      (∀ G g, (t.dump G).outcome g = (.ok (String.join (lines.map (· ++ "\n"))), g)) ∧
      ∀ H' payloads' h' t' after', (build H' payloads').outcome h' = (.ok t', after') →
        ∀ G g G' g', ((t'.dump G').outcome g').1 = ((t.dump G).outcome g).1 → t' = t := by
  have ht := Perfect.of_build (Hashing.outcome_eq_ok.mp hb)
  refine ⟨_, ht.pictured, ht.outcome_dump, ?_⟩
  intro H' payloads' h' t' after' hb' G g G' g' hsame
  have ht' := Perfect.of_build (Hashing.outcome_eq_ok.mp hb')
  rw [ht.outcome_dump, ht'.outcome_dump] at hsame
  exact ht.eq_of_lines_eq ht' (eq_of_join_eq ht'.pictured.newline_notMem ht.pictured.newline_notMem
    (Except.ok.inj hsame))

/-- Three payloads, and the same with their padding written out: the pictures agree, so the trees
do. The sixth of the seven lines is that of the third payload, a left child below a right one. -/
theorem build_pictured_padding :
    ∃ t t' after after',
      (build (.concatenation "concat") [[1], [2], [3]]).outcome [] = (.ok t, after) ∧
      (build (.concatenation "concat") [[1], [2], [3], []]).outcome [] = (.ok t', after') ∧
      (∃ lines, t.Pictured lines ∧ lines.length = 7 ∧
        lines[5]? = some ("     ├─ leaf: " ++ (t.hashAt 2).toHex)) ∧
      (∀ G g, ((t'.dump G).outcome g).1 = ((t.dump G).outcome g).1) ∧ t' = t := by
  obtain ⟨t, t', after, after', hb, hb', hcount, hplace, hsame⟩ : ∃ t t' after after',
      (build (.concatenation "concat") [[1], [2], [3]]).outcome [] = (.ok t, after) ∧
      (build (.concatenation "concat") [[1], [2], [3], []]).outcome [] = (.ok t', after') ∧
      t.leafCount = 4 ∧ t.place [true, false] = some 2 ∧
      ∀ G g G' g', ((t'.dump G').outcome g').1 = ((t.dump G).outcome g).1 :=
    ⟨_, _, _, _, rfl, rfl, rfl, rfl, fun _ _ _ _ => rfl⟩
  obtain ⟨lines, hlines, -, hdetermines⟩ := build_pictured hb
  have hdepth : t.depth = 2 := by rw [depth, hcount]; rfl
  refine ⟨t, t', after, after', hb, hb', ⟨lines, hlines, ?_, ?_⟩, fun G g => hsame G g G g,
    hdetermines _ _ _ _ _ hb' (.concatenation "concat") [] (.concatenation "concat") []
      (hsame _ _ _ _)⟩
  · rw [hlines.length_eq, hcount]
  · obtain ⟨i, node, margin, hend, hnode, rfl, -, hline⟩ :=
      hlines.below 5 [true] false (by rw [hdepth]; rfl)
    obtain rfl : i = 2 := Option.some.inj (hend.symm.trans hplace)
    rw [hline, hashAt_eq_of_getElem? hnode, hdepth]
    simp

end MerkleTree

end OrderingService
