import Mathlib.Analysis.SpecialFunctions.Trigonometric.Basic
import Ranger.Amcl.Laser
import Ranger.Lib.Number

/-!
# 粒子の位置の kd 木（`pf_kdtree.c`）

位置を升目に丸めた鍵で分ける木への挿入を書く。節は配列 `nodes` から順にとられ、`id` はその添字である。`assert` の失敗は `none` である。
鍵の `int` の計算は、その結果を `int` に収める関数を引数 `int` とし、正確な算術では恒等写像、機械の算術では `int32` を渡す。
-/

namespace Ranger.Amcl

/-! ## 木 -/

abbrev Key := Fin 3 → Int

/-- 節。`branch` の子は、鍵の `pivotDim` の成分が `pivotValue` より小さいとき `child0`、そうでないとき `child1` である。 -/
inductive KdNode
  | leaf (id : Nat) (key : Key) (value : ℝ)
  | branch (id : Nat) (pivotDim : Fin 3) (pivotValue : ℚ) (child0 child1 : KdNode)

/-- `node_count` と `leaf_count`。 -/
structure Counts where
  nodeCount : Nat
  leafCount : Nat

structure KdTree where
  root : Option KdNode
  counts : Counts

/-- `pf_kdtree_clear`。 -/
def KdTree.clear : KdTree := ⟨none, ⟨0, 0⟩⟩

noncomputable def kdKey (pose : PfVector) : Key :=
  ![⌊pose.v0 / 0.5⌋, ⌊pose.v1 / 0.5⌋, ⌊pose.v2 / (10.0 * Real.pi / 180.0)⌋]

/-- どの成分も `int` に収まる。 -/
def Fits (int : ℤ → ℤ) (key : Key) : Prop := ∀ i, int (key i) = key i

instance (int : ℤ → ℤ) (key : Key) : Decidable (Fits int key) := inferInstanceAs (Decidable (∀ _, _))

/-- `int` の鍵。収まらない成分の変換は定まらない。 -/
noncomputable def intKey (int : ℤ → ℤ) (pose : PfVector) : Option Key :=
  if Fits int (kdKey pose) then some (kdKey pose) else none

/-- 新しい葉。配列が一杯のとき、`assert` に失敗する。 -/
def newLeaf (nodeMaxCount : Nat) (key : Key) (value : ℝ) (c : Counts) : Option (KdNode × Counts) :=
  if c.nodeCount < nodeMaxCount then some (.leaf c.nodeCount key value, ⟨c.nodeCount + 1, c.leafCount + 1⟩) else none

/-- 二つの鍵の成分の差が最も大きい次元。どの差も正でなければ `none` である。 -/
def pivotDim (int : ℤ → ℤ) (key nodeKey : Key) : Option (Fin 3) :=
  ([0, 1, 2].foldl (fun (best : ℤ × Option (Fin 3)) i =>
    let split := int |int (key i - nodeKey i)|
    if best.1 < split then (split, some i) else best) (0, none)).2

def splitLeaf (nodeMaxCount id : Nat) (dim : Fin 3) (pivotValue : ℚ) (first second : Key × ℝ) (c : Counts) :
    Option (KdNode × Counts) := do
  let (child0, c) ← newLeaf nodeMaxCount first.1 first.2 c
  let (child1, c) ← newLeaf nodeMaxCount second.1 second.2 c
  return (.branch id dim pivotValue child0 child1, { c with leafCount := c.leafCount - 1 })

/-- `pf_kdtree_insert_node` の、節のある場合。 -/
noncomputable def insertNode (int : ℤ → ℤ) (nodeMaxCount : Nat) (key : Key) (value : ℝ) :
    KdNode → Counts → Option (KdNode × Counts)
  | .leaf id nodeKey nodeValue, c =>
    if key = nodeKey then some (.leaf id nodeKey (nodeValue + value), c)
    else do
      let dim ← pivotDim int key nodeKey
      let pivotValue := (int (key dim + nodeKey dim) : ℚ) / 2
      if (key dim : ℚ) < pivotValue then
        splitLeaf nodeMaxCount id dim pivotValue (key, value) (nodeKey, nodeValue) c
      else splitLeaf nodeMaxCount id dim pivotValue (nodeKey, nodeValue) (key, value) c
  | .branch id dim pivotValue child0 child1, c =>
    if (key dim : ℚ) < pivotValue then do
      let (child0, c) ← insertNode int nodeMaxCount key value child0 c
      return (.branch id dim pivotValue child0 child1, c)
    else do
      let (child1, c) ← insertNode int nodeMaxCount key value child1 c
      return (.branch id dim pivotValue child0 child1, c)

/-- `pf_kdtree_insert`。 -/
noncomputable def KdTree.insert (int : ℤ → ℤ) (nodeMaxCount : Nat) (pose : PfVector) (value : ℝ) (t : KdTree) :
    Option KdTree := do
  let key ← intKey int pose
  let (root, counts) ← match t.root with
    | none => newLeaf nodeMaxCount key value t.counts
    | some node => insertNode int nodeMaxCount key value node t.counts
  return ⟨some root, counts⟩

/-! ## 探索と番号づけ -/

structure Leaf where
  id : Nat
  key : Key
  value : ℝ

def KdNode.leaves : KdNode → List Leaf
  | .leaf id key value => [⟨id, key, value⟩]
  | .branch _ _ _ child0 child1 => child0.leaves ++ child1.leaves

/-- `pf_kdtree_find_node`。見つけた葉の添字を返す。 -/
def KdNode.findNode : KdNode → Key → Option Nat
  | .leaf id nodeKey _, key => if key = nodeKey then some id else none
  | .branch _ dim pivotValue child0 child1, key =>
    if (key dim : ℚ) < pivotValue then child0.findNode key else child1.findNode key

/-- 配列の `id` 番目の節が葉であるときの、その鍵。 -/
def KdNode.leafKey (root : KdNode) (id : Nat) : Option Key := (root.leaves.find? fun l => l.id = id).map Leaf.key

def neighborKeys (int : ℤ → ℤ) (key : Key) : List Key :=
  (List.range 27).map fun i =>
    ![int (int (key 0 + (i / 9 : Nat)) - 1), int (int (key 1 + (i % 9 / 3 : Nat)) - 1),
      int (int (key 2 + (i % 9 % 3 : Nat)) - 1)]

/-- `pf_kdtree_cluster_node`。`cluster` は、葉の添字ごとの番号である。 -/
def clusterNode (int : ℤ → ℤ) (root : KdNode) : Nat → Nat → (Nat → Int) → Option (Nat → Int)
  | 0, _, _ => none
  | fuel + 1, id, cluster => do
    let key ← root.leafKey id
    (neighborKeys int key).foldlM (fun cluster nkey =>
      match root.findNode nkey with
      | none => some cluster
      | some nid =>
        if 0 ≤ cluster nid then if cluster nid = cluster id then some cluster else none
        else clusterNode int root fuel nid (Function.update cluster nid (cluster id))) cluster

/-- 葉を並べる列に、`i` 番目の節が葉であれば加え、番号を消す。 -/
def queueLeaf (root : KdNode) (nodeCount : Nat) (s : (Nat → Int) × List Nat) (i : Nat) :
    Option ((Nat → Int) × List Nat) :=
  match root.leafKey i with
  | none => some s
  | some key =>
    if s.2.length < nodeCount ∧ root.findNode key = some i then some (Function.update s.1 i (-1), s.2 ++ [i]) else none

def queueLeaves (root : KdNode) (nodeCount : Nat) (cluster : Nat → Int) : Option ((Nat → Int) × List Nat) :=
  (List.range nodeCount).foldlM (queueLeaf root nodeCount) (cluster, [])

/-- `pf_kdtree_cluster`。番号と、その数を返す。 -/
def KdTree.cluster (int : ℤ → ℤ) (fuel : Nat) (t : KdTree) (cluster : Nat → Int) : Option ((Nat → Int) × Nat) :=
  match t.root with
  | none => some (cluster, 0)
  | some root => do
    let (cluster, queue) ← queueLeaves root t.counts.nodeCount cluster
    queue.reverse.foldlM (fun s id =>
      if 0 ≤ s.1 id then some s
      else (clusterNode int root fuel id (Function.update s.1 id s.2)).map fun cluster => (cluster, s.2 + 1)) (cluster, 0)

/-- `pf_kdtree_get_cluster`。鍵は範囲のない整数である。根のない木では、探索が空の参照をたどる。 -/
noncomputable def KdTree.getCluster (t : KdTree) (label : Nat → Int) (pose : PfVector) : Option Int :=
  t.root.map fun root => ((root.findNode (kdKey pose)).map label).getD (-1)

/-! ## 挿入の全域性 -/

@[simp] theorem intKey_id (pose : PfVector) : intKey id pose = some (kdKey pose) := if_pos fun _ => rfl

/-- 正確な算術では、異なる鍵の差の最も大きい次元がある。 -/
theorem pivotDim_eq_none {key nodeKey : Key} (h : pivotDim id key nodeKey = none) : key = nodeKey := by
  by_contra hne
  have hdiff : 0 < |key 0 - nodeKey 0| ∨ 0 < |key 1 - nodeKey 1| ∨ 0 < |key 2 - nodeKey 2| := by
    by_contra hall
    simp only [not_or, abs_pos, not_not, sub_eq_zero] at hall
    refine hne (funext fun i => ?_)
    fin_cases i
    · exact hall.1
    · exact hall.2.1
    · exact hall.2.2
  simp only [pivotDim, id_eq, List.foldl_cons, List.foldl_nil] at h
  split_ifs at h
  omega

section Total

variable {nodeMaxCount : Nat} {c : Counts}

theorem newLeaf_of_lt {key : Key} {value : ℝ} (h : c.nodeCount < nodeMaxCount) :
    newLeaf nodeMaxCount key value c = some (.leaf c.nodeCount key value, ⟨c.nodeCount + 1, c.leafCount + 1⟩) :=
  if_pos h

theorem splitLeaf_of_le (id : Nat) (dim : Fin 3) (pivotValue : ℚ) (first second : Key × ℝ)
    (h : c.nodeCount + 2 ≤ nodeMaxCount) :
    splitLeaf nodeMaxCount id dim pivotValue first second c =
      some (.branch id dim pivotValue (.leaf c.nodeCount first.1 first.2) (.leaf (c.nodeCount + 1) second.1 second.2),
        ⟨c.nodeCount + 2, c.leafCount + 1⟩) := by
  have h0 : c.nodeCount < nodeMaxCount := by omega
  have h1 : (⟨c.nodeCount + 1, c.leafCount + 1⟩ : Counts).nodeCount < nodeMaxCount := h
  simp only [splitLeaf, newLeaf_of_lt h0, newLeaf_of_lt h1, Option.bind_eq_bind, Option.bind_some]
  rfl

/-- 挿入は、節を多くとも二つ加える。 -/
theorem insertNode_total (key : Key) (value : ℝ) (node : KdNode) (h : c.nodeCount + 2 ≤ nodeMaxCount) :
    ∃ node' c', insertNode id nodeMaxCount key value node c = some (node', c') ∧ c'.nodeCount ≤ c.nodeCount + 2 := by
  induction node with
  | leaf nodeId nodeKey nodeValue =>
      by_cases hkey : key = nodeKey
      · exact ⟨_, _, by rw [insertNode, if_pos hkey], Nat.le_add_right _ _⟩
      · cases hdim : pivotDim id key nodeKey with
        | none => exact absurd (pivotDim_eq_none hdim) hkey
        | some dim =>
            simp only [insertNode, if_neg hkey, hdim, Option.bind_eq_bind, Option.bind_some]
            split
            · exact ⟨_, _, splitLeaf_of_le nodeId dim _ (key, value) (nodeKey, nodeValue) h, Nat.le_refl _⟩
            · exact ⟨_, _, splitLeaf_of_le nodeId dim _ (nodeKey, nodeValue) (key, value) h, Nat.le_refl _⟩
  | branch nodeId dim pivotValue child0 child1 ih0 ih1 =>
      by_cases hlt : (key dim : ℚ) < pivotValue
      · obtain ⟨node', c', hrun, hle⟩ := ih0
        exact ⟨_, c', by simp only [insertNode, if_pos hlt, hrun]; rfl, hle⟩
      · obtain ⟨node', c', hrun, hle⟩ := ih1
        exact ⟨_, c', by simp only [insertNode, if_neg hlt, hrun]; rfl, hle⟩

theorem KdTree.insert_total {t : KdTree} (pose : PfVector) (value : ℝ) (h : t.counts.nodeCount + 2 ≤ nodeMaxCount) :
    ∃ t', t.insert id nodeMaxCount pose value = some t' ∧ t'.counts.nodeCount ≤ t.counts.nodeCount + 2 := by
  cases hroot : t.root with
  | none =>
      have hlt : t.counts.nodeCount < nodeMaxCount := by omega
      refine ⟨⟨some (.leaf t.counts.nodeCount (kdKey pose) value), ⟨t.counts.nodeCount + 1, t.counts.leafCount + 1⟩⟩, ?_,
        Nat.le_succ _⟩
      simp only [KdTree.insert, intKey_id, hroot, newLeaf_of_lt hlt, Option.bind_eq_bind, Option.bind_some]
      rfl
  | some node =>
      obtain ⟨node', c', hrun, hle⟩ := insertNode_total (kdKey pose) value node h
      refine ⟨⟨some node', c'⟩, ?_, hle⟩
      simp only [KdTree.insert, intKey_id, hroot, hrun, Option.bind_eq_bind, Option.bind_some]
      rfl

end Total

end Ranger.Amcl
