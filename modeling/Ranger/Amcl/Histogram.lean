import Mathlib.Algebra.BigOperators.Group.List.Basic
import Mathlib.Data.List.Nodup
import Ranger.Amcl.KdTree

/-!
# 鍵ごとの重みの和

木の葉の鍵は互いに異なり、葉の値は、その鍵で挿入した値の和である。枝の下の鍵は、枝の分け方に従う。
-/

namespace Ranger.Amcl

open Lib

/-! ## `int` の計算 -/

/-- `int` に収める関数の性質。`halfway` は、収まらない和の半分が二つの数を分けないことである。 -/
structure Wrapping (int : ℤ → ℤ) : Prop where
  zero : int 0 = 0
  add : ∀ a b, int (int a + b) = int (a + b)
  halfway : ∀ a b, int a = a → int b = b → int (a + b) ≠ a + b →
    ((a : ℚ) < (int (a + b) : ℚ) / 2 ↔ (b : ℚ) < (int (a + b) : ℚ) / 2)

theorem Wrapping.exact : Wrapping id := ⟨rfl, fun _ _ => rfl, fun _ _ _ _ h => absurd rfl h⟩

theorem Wrapping.machine : Wrapping int32 where
  zero := rfl
  add := int32_int32_add
  halfway a b ha hb hne := by
    rw [int32_eq_self_iff] at ha hb
    rw [lt_div_iff₀ two_pos, lt_div_iff₀ two_pos]
    norm_cast
    unfold int32 at hne ⊢
    split_ifs at hne ⊢ <;> omega

namespace KdNode

variable {node node' : KdNode} {key k : Key} {value : ℝ} {nodeMaxCount : Nat} {c c' : Counts} {int : ℤ → ℤ}

def keys (node : KdNode) : List Key := node.leaves.map Leaf.key

def ids : KdNode → List Nat
  | .leaf id _ _ => [id]
  | .branch id _ _ child0 child1 => id :: (child0.ids ++ child1.ids)

noncomputable def mass (node : KdNode) (k : Key) : ℝ := ((node.leaves.filter fun l => l.key = k).map Leaf.value).sum

/-- 鍵 `key` の探索が着く葉の鍵。 -/
def route : KdNode → Key → Key
  | .leaf _ nodeKey _, _ => nodeKey
  | .branch _ dim pivotValue child0 child1, key =>
    if (key dim : ℚ) < pivotValue then child0.route key else child1.route key

/-- 二つの鍵の、差の最も大きい次元の和が `int` に収まる。 -/
def Parts (int : ℤ → ℤ) (key nodeKey : Key) : Prop :=
  ∃ dim, pivotDim int key nodeKey = some dim ∧ int (key dim + nodeKey dim) = key dim + nodeKey dim

/-- 枝の下の鍵は、枝の分け方に従う。 -/
def Sorted : KdNode → Prop
  | .leaf _ _ _ => True
  | .branch _ dim pivotValue child0 child1 =>
    (∀ key ∈ child0.keys, (key dim : ℚ) < pivotValue) ∧ (∀ key ∈ child1.keys, ¬ (key dim : ℚ) < pivotValue) ∧
      child0.Sorted ∧ child1.Sorted

/-- 鍵 `key` の値 `value` を加えた後の木。 -/
structure Inserted (key : Key) (value : ℝ) (node node' : KdNode) (c c' : Counts) : Prop where
  sorted : node'.Sorted
  mass : ∀ k, node'.mass k = node.mass k + if k = key then value else 0
  old : key ∈ node.keys → node'.keys.Perm node.keys ∧ node'.ids.Perm node.ids ∧ c' = c
  new : key ∉ node.keys → node'.keys.Perm (key :: node.keys) ∧
    node'.ids.Perm (c.nodeCount :: (c.nodeCount + 1) :: node.ids) ∧ c' = ⟨c.nodeCount + 2, c.leafCount + 1⟩

theorem keys_branch (id : Nat) (dim : Fin 3) (pivotValue : ℚ) (child0 child1 : KdNode) :
    (branch id dim pivotValue child0 child1).keys = child0.keys ++ child1.keys := List.map_append

theorem mass_leaf (id : Nat) (key k : Key) (value : ℝ) : (leaf id key value).mass k = if k = key then value else 0 := by
  unfold mass leaves
  by_cases h : k = key
  · simp [h]
  · have hne : key ≠ k := fun heq => h heq.symm
    simp [h, hne]

theorem mass_branch (id : Nat) (dim : Fin 3) (pivotValue : ℚ) (child0 child1 : KdNode) (k : Key) :
    (branch id dim pivotValue child0 child1).mass k = child0.mass k + child1.mass k := by
  unfold mass
  rw [leaves, List.filter_append, List.map_append, List.sum_append]

theorem splitLeaf_inserted (c : Counts) (id : Nat) {dim : Fin 3} {pivotValue : ℚ} (first second : Key × ℝ)
    (hfirst : (first.1 dim : ℚ) < pivotValue) (hsecond : ¬ (second.1 dim : ℚ) < pivotValue) :
    (branch id dim pivotValue (.leaf c.nodeCount first.1 first.2) (.leaf (c.nodeCount + 1) second.1 second.2)).Sorted ∧
    ∀ k, (branch id dim pivotValue (.leaf c.nodeCount first.1 first.2)
      (.leaf (c.nodeCount + 1) second.1 second.2)).mass k =
        (if k = first.1 then first.2 else 0) + if k = second.1 then second.2 else 0 := by
  constructor
  · refine ⟨fun key hkey => ?_, fun key hkey => ?_, trivial, trivial⟩
    · rwa [List.mem_singleton.mp hkey]
    · rwa [List.mem_singleton.mp hkey]
  · intro k
    rw [mass_branch, mass_leaf, mass_leaf]

/-- 差の最も大きい次元では、二つの鍵は異なる。 -/
theorem pivotDim_ne (hint : Wrapping int) {nodeKey : Key} {dim : Fin 3} (h : pivotDim int key nodeKey = some dim) :
    key dim ≠ nodeKey dim := by
  have hfold (dims : List (Fin 3)) (best : ℤ × Option (Fin 3)) (hpos : 0 ≤ best.1)
      (hbest : ∀ i, best.2 = some i → key i ≠ nodeKey i)
      (hlast : (dims.foldl (fun (best : ℤ × Option (Fin 3)) i =>
        if best.1 < int |int (key i - nodeKey i)| then (int |int (key i - nodeKey i)|, some i) else best) best).2 =
          some dim) :
      key dim ≠ nodeKey dim := by
    induction dims generalizing best with
    | nil => exact hbest dim hlast
    | cons i dims ih =>
        refine ih _ ?_ (fun j hj => ?_) hlast
        · dsimp only
          split_ifs with hlarger
          · exact hpos.trans hlarger.le
          · exact hpos
        · dsimp only at hj
          split_ifs at hj with hlarger
          · obtain rfl := Option.some.inj hj
            rintro heq
            rw [heq, sub_self, hint.zero, abs_zero, hint.zero] at hlarger
            exact absurd hlarger (not_lt.mpr hpos)
          · exact hbest j hj
  exact hfold [0, 1, 2] (0, none) (le_refl 0) (fun i hi => by cases hi) h

theorem parts_id {nodeKey : Key} (hne : key ≠ nodeKey) : Parts id key nodeKey := by
  cases hdim : pivotDim id key nodeKey with
  | none => exact absurd (pivotDim_eq_none hdim) hne
  | some dim => exact ⟨dim, hdim, rfl⟩

/-- 成分が 2 の 30 乗より小さい鍵どうしの計算は、`int` に収まる。 -/
theorem parts_int32 {nodeKey : Key} (hkey : ∀ i, |key i| < 1073741824) (hnodeKey : ∀ i, |nodeKey i| < 1073741824)
    (hne : key ≠ nodeKey) : Parts int32 key nodeKey := by
  have hsplit (i : Fin 3) : int32 |int32 (key i - nodeKey i)| = id |id (key i - nodeKey i)| := by
    have h := abs_lt.mp (hkey i)
    have h' := abs_lt.mp (hnodeKey i)
    have hdiff : int32 (key i - nodeKey i) = key i - nodeKey i := int32_eq_self_iff.mpr (by omega)
    have habs := abs_lt.mpr ⟨show -2147483648 < key i - nodeKey i by omega, show key i - nodeKey i < 2147483648 by omega⟩
    rw [hdiff]
    exact int32_eq_self_iff.mpr ⟨(by norm_num : (-2147483648 : ℤ) ≤ 0).trans (abs_nonneg _), habs⟩
  have hdims : pivotDim int32 key nodeKey = pivotDim id key nodeKey := by
    unfold pivotDim
    simp only [hsplit]
  obtain ⟨dim, hdim, -⟩ := parts_id hne
  have h := abs_lt.mp (hkey dim)
  have h' := abs_lt.mp (hnodeKey dim)
  exact ⟨dim, hdims.trans hdim, int32_eq_self_iff.mpr (by omega)⟩

theorem route_mem (node : KdNode) (key : Key) : node.route key ∈ node.keys := by
  induction node with
  | leaf id nodeKey nodeValue => exact List.mem_singleton.mpr rfl
  | branch id dim pivotValue child0 child1 ih0 ih1 =>
      rw [route, keys_branch, List.mem_append]
      split_ifs
      · exact Or.inl ih0
      · exact Or.inr ih1

/-- 収まる和の半分は、二つの成分の中点である。 -/
theorem pivot_eq {nodeKey : Key} {dim : Fin 3} (h : int (key dim + nodeKey dim) = key dim + nodeKey dim) :
    (int (key dim + nodeKey dim) : ℚ) / 2 = ((key dim : ℚ) + nodeKey dim) / 2 := by
  rw [h]
  push_cast
  rfl

theorem leaf_inserted (hint : Wrapping int) (id : Nat) (nodeKey : Key) (nodeValue : ℝ)
    (h : nodeKey = key ∨ Parts int key nodeKey ∧ c.nodeCount + 2 ≤ nodeMaxCount) :
    ∃ node' c', insertNode int nodeMaxCount key value (.leaf id nodeKey nodeValue) c = some (node', c') ∧
      Inserted key value (.leaf id nodeKey nodeValue) node' c c' := by
  by_cases hkey : key = nodeKey
  · refine ⟨.leaf id nodeKey (nodeValue + value), c, by rw [insertNode, if_pos hkey], ⟨trivial, fun k => ?_,
      fun _ => ⟨List.Perm.refl _, List.Perm.refl _, rfl⟩, fun hnew => absurd (List.mem_singleton.mpr hkey) hnew⟩⟩
    rw [mass_leaf, mass_leaf, hkey]
    split_ifs
    · rfl
    · rw [add_zero]
  · have hold : key ∉ (leaf id nodeKey nodeValue).keys := fun hmem => hkey (List.mem_singleton.mp hmem)
    obtain ⟨⟨dim, hdim, hsum⟩, hroom⟩ := h.resolve_left fun heq => hkey heq.symm
    have hne : (key dim : ℚ) ≠ nodeKey dim := fun heq => pivotDim_ne hint hdim (by exact_mod_cast heq)
    have hpivot := pivot_eq hsum
    have hids : ([id] ++ [c.nodeCount, c.nodeCount + 1]).Perm ([c.nodeCount, c.nodeCount + 1] ++ [id]) :=
      List.perm_append_comm
    simp only [Amcl.insertNode, if_neg hkey, hdim, Option.bind_eq_bind, Option.bind_some]
    split
    · rename_i hlt
      have hge : ¬ (nodeKey dim : ℚ) < (int (key dim + nodeKey dim) : ℚ) / 2 := by
        rw [hpivot] at hlt ⊢
        linarith
      obtain ⟨hsorted, hmass⟩ := splitLeaf_inserted c id (key, value) (nodeKey, nodeValue) hlt hge
      refine ⟨_, _, splitLeaf_of_le id dim _ (key, value) (nodeKey, nodeValue) hroom, ⟨hsorted, fun k => ?_,
        fun hmem => absurd hmem hold, fun _ => ⟨List.Perm.refl _, hids, rfl⟩⟩⟩
      rw [hmass, mass_leaf, add_comm]
    · rename_i hge
      have hlt : (nodeKey dim : ℚ) < (int (key dim + nodeKey dim) : ℚ) / 2 := by
        rw [hpivot] at hge ⊢
        rcases lt_or_gt_of_ne hne with hless | hmore
        · linarith
        · linarith
      obtain ⟨hsorted, hmass⟩ := splitLeaf_inserted c id (nodeKey, nodeValue) (key, value) hlt hge
      refine ⟨_, _, splitLeaf_of_le id dim _ (nodeKey, nodeValue) (key, value) hroom, ⟨hsorted, fun k => ?_,
        fun hmem => absurd hmem hold, fun _ => ⟨List.Perm.swap _ _ _, hids, rfl⟩⟩⟩
      rw [hmass, mass_leaf]

theorem Inserted.keys_subset (h : Inserted key value node node' c c') : ∀ k ∈ node'.keys, k = key ∨ k ∈ node.keys := by
  intro k hk
  by_cases hmem : key ∈ node.keys
  · exact Or.inr ((h.old hmem).1.mem_iff.mp hk)
  · exact List.mem_cons.mp ((h.new hmem).1.mem_iff.mp hk)

theorem perm_rotate (id n : Nat) (rest : List Nat) : (id :: n :: (n + 1) :: rest).Perm (n :: (n + 1) :: id :: rest) :=
  (List.Perm.swap _ _ _).trans ((List.Perm.swap _ _ _).cons _)

section Branch

variable {id : Nat} {dim : Fin 3} {pivotValue : ℚ} {child0 child1 : KdNode}

theorem Inserted.branch0 (hnode : (branch id dim pivotValue child0 child1).Sorted) (hlt : (key dim : ℚ) < pivotValue)
    (h : Inserted key value child0 node' c c') :
    Inserted key value (branch id dim pivotValue child0 child1) (branch id dim pivotValue node' child1) c c' := by
  obtain ⟨hbelow, habove, -, hsorted1⟩ := hnode
  have hnot : key ∉ child1.keys := fun hmem => habove key hmem hlt
  refine ⟨⟨fun k hk => ?_, habove, h.sorted, hsorted1⟩, fun k => ?_, fun hmem => ?_, fun hmem => ?_⟩
  · rcases h.keys_subset k hk with rfl | hk
    · exact hlt
    · exact hbelow k hk
  · rw [mass_branch, mass_branch, h.mass]
    ring
  · rw [keys_branch, List.mem_append] at hmem
    obtain ⟨hkeys, hids, hc⟩ := h.old (hmem.resolve_right hnot)
    rw [keys_branch, keys_branch]
    exact ⟨hkeys.append_right _, (hids.append_right _).cons _, hc⟩
  · rw [keys_branch, List.mem_append, not_or] at hmem
    obtain ⟨hkeys, hids, hc⟩ := h.new hmem.1
    rw [keys_branch, keys_branch]
    exact ⟨hkeys.append_right _, ((hids.append_right _).cons _).trans (perm_rotate _ _ _), hc⟩

theorem Inserted.branch1 (hnode : (branch id dim pivotValue child0 child1).Sorted) (hge : ¬ (key dim : ℚ) < pivotValue)
    (h : Inserted key value child1 node' c c') :
    Inserted key value (branch id dim pivotValue child0 child1) (branch id dim pivotValue child0 node') c c' := by
  obtain ⟨hbelow, habove, hsorted0, -⟩ := hnode
  have hnot : key ∉ child0.keys := fun hmem => hge (hbelow key hmem)
  refine ⟨⟨hbelow, fun k hk => ?_, hsorted0, h.sorted⟩, fun k => ?_, fun hmem => ?_, fun hmem => ?_⟩
  · rcases h.keys_subset k hk with rfl | hk
    · exact hge
    · exact habove k hk
  · rw [mass_branch, mass_branch, h.mass]
    ring
  · rw [keys_branch, List.mem_append] at hmem
    obtain ⟨hkeys, hids, hc⟩ := h.old (hmem.resolve_left hnot)
    rw [keys_branch, keys_branch]
    exact ⟨hkeys.append_left _, (hids.append_left _).cons _, hc⟩
  · rw [keys_branch, List.mem_append, not_or] at hmem
    obtain ⟨hkeys, hids, hc⟩ := h.new hmem.2
    have hfront := (hids.append_left child0.ids).trans (List.perm_middle.trans (List.perm_middle.cons _))
    rw [keys_branch, keys_branch]
    exact ⟨(hkeys.append_left _).trans List.perm_middle, (hfront.cons _).trans (perm_rotate _ _ _), hc⟩

end Branch

/-- 挿入は、鍵がなければ葉を一つ加え、あればその値に加える。 -/
theorem Sorted.insertNode (hint : Wrapping int) (hnode : node.Sorted) (value : ℝ)
    (h : node.route key = key ∨ Parts int key (node.route key) ∧ c.nodeCount + 2 ≤ nodeMaxCount) :
    ∃ node' c', insertNode int nodeMaxCount key value node c = some (node', c') ∧ Inserted key value node node' c c' := by
  induction node with
  | leaf id nodeKey nodeValue => exact leaf_inserted hint id nodeKey nodeValue h
  | branch id dim pivotValue child0 child1 ih0 ih1 =>
      rw [route] at h
      by_cases hlt : (key dim : ℚ) < pivotValue
      · rw [if_pos hlt] at h
        obtain ⟨node', c', hrun, hins⟩ := ih0 hnode.2.2.1 h
        refine ⟨.branch id dim pivotValue node' child1, c', ?_, hins.branch0 hnode hlt⟩
        simp only [Amcl.insertNode, if_pos hlt, hrun]
        rfl
      · rw [if_neg hlt] at h
        obtain ⟨node', c', hrun, hins⟩ := ih1 hnode.2.2.2 h
        refine ⟨.branch id dim pivotValue child0 node', c', ?_, hins.branch1 hnode hlt⟩
        simp only [Amcl.insertNode, if_neg hlt, hrun]
        rfl

/-! ## 分け方の逆 -/

theorem splitLeaf_eq_some {id : Nat} {dim : Fin 3} {pivotValue : ℚ} {first second : Key × ℝ}
    (h : splitLeaf nodeMaxCount id dim pivotValue first second c = some (node', c')) :
    c.nodeCount + 2 ≤ nodeMaxCount ∧
      node' = .branch id dim pivotValue (.leaf c.nodeCount first.1 first.2) (.leaf (c.nodeCount + 1) second.1 second.2) := by
  by_cases hroom : c.nodeCount + 2 ≤ nodeMaxCount
  · rw [splitLeaf_of_le id dim pivotValue first second hroom] at h
    cases h
    exact ⟨hroom, rfl⟩
  · have hfull : ¬ (⟨c.nodeCount + 1, c.leafCount + 1⟩ : Counts).nodeCount < nodeMaxCount := by
      dsimp only
      omega
    unfold splitLeaf newLeaf at h
    by_cases hlt : c.nodeCount < nodeMaxCount
    · simp [hlt, hfull] at h
    · simp [hlt] at h

/-- 異なる鍵の葉への挿入は、二つの葉の枝を作る。 -/
theorem insertNode_leaf {id : Nat} {nodeKey : Key} {nodeValue : ℝ} (hne : key ≠ nodeKey)
    (h : insertNode int nodeMaxCount key value (.leaf id nodeKey nodeValue) c = some (node', c')) :
    ∃ dim first second, pivotDim int key nodeKey = some dim ∧ c.nodeCount + 2 ≤ nodeMaxCount ∧
      node' = .branch id dim ((int (key dim + nodeKey dim) : ℚ) / 2) (.leaf c.nodeCount first.1 first.2)
        (.leaf (c.nodeCount + 1) second.1 second.2) ∧
      (first = (key, value) ∧ second = (nodeKey, nodeValue) ∧ (key dim : ℚ) < (int (key dim + nodeKey dim) : ℚ) / 2 ∨
        first = (nodeKey, nodeValue) ∧ second = (key, value) ∧
          ¬ (key dim : ℚ) < (int (key dim + nodeKey dim) : ℚ) / 2) := by
  rw [insertNode, if_neg hne] at h
  obtain ⟨dim, hdim, h⟩ := Option.bind_eq_some_iff.mp h
  dsimp only at h
  split_ifs at h with hlt
  · obtain ⟨hroom, rfl⟩ := splitLeaf_eq_some h
    exact ⟨dim, _, _, hdim, hroom, rfl, Or.inl ⟨rfl, rfl, hlt⟩⟩
  · obtain ⟨hroom, rfl⟩ := splitLeaf_eq_some h
    exact ⟨dim, _, _, hdim, hroom, rfl, Or.inr ⟨rfl, rfl, hlt⟩⟩

/-- 枝への挿入は、探索の進む側の子への挿入である。 -/
theorem insertNode_branch {id : Nat} {dim : Fin 3} {pivotValue : ℚ} {child0 child1 : KdNode}
    (h : insertNode int nodeMaxCount key value (.branch id dim pivotValue child0 child1) c = some (node', c')) :
    ((key dim : ℚ) < pivotValue ∧ ∃ child, insertNode int nodeMaxCount key value child0 c = some (child, c') ∧
        node' = .branch id dim pivotValue child child1) ∨
      (¬ (key dim : ℚ) < pivotValue ∧ ∃ child, insertNode int nodeMaxCount key value child1 c = some (child, c') ∧
        node' = .branch id dim pivotValue child0 child) := by
  rw [insertNode] at h
  split_ifs at h with hlt
  · obtain ⟨⟨child, c₁⟩, hchild, hnode⟩ := Option.bind_eq_some_iff.mp h
    cases hnode
    exact Or.inl ⟨hlt, child, hchild, rfl⟩
  · obtain ⟨⟨child, c₁⟩, hchild, hnode⟩ := Option.bind_eq_some_iff.mp h
    cases hnode
    exact Or.inr ⟨hlt, child, hchild, rfl⟩

theorem keys_subset_of_insertNode (h : insertNode int nodeMaxCount key value node c = some (node', c')) :
    ∀ k ∈ node.keys, k ∈ node'.keys := by
  induction node generalizing node' with
  | leaf id nodeKey nodeValue =>
      intro k hk
      obtain rfl := List.mem_singleton.mp hk
      by_cases hne : key = k
      · rw [insertNode, if_pos hne] at h
        cases h
        exact hk
      · obtain ⟨dim, first, second, -, -, rfl, hends⟩ := insertNode_leaf hne h
        rw [keys_branch]
        rcases hends with ⟨-, rfl, -⟩ | ⟨rfl, -, -⟩
        · exact List.mem_append_right _ (List.mem_singleton.mpr rfl)
        · exact List.mem_append_left _ (List.mem_singleton.mpr rfl)
  | branch id dim pivotValue child0 child1 ih0 ih1 =>
      intro k hk
      rw [keys_branch, List.mem_append] at hk
      rcases insertNode_branch h with ⟨-, child, hchild, rfl⟩ | ⟨-, child, hchild, rfl⟩
      · rw [keys_branch, List.mem_append]
        exact hk.imp_left (ih0 hchild k)
      · rw [keys_branch, List.mem_append]
        exact hk.imp_right (ih1 hchild k)

/-- 分け方に従わない木は、挿入の後も従わない。 -/
theorem sorted_of_insertNode (h : insertNode int nodeMaxCount key value node c = some (node', c'))
    (hsorted : node'.Sorted) : node.Sorted := by
  induction node generalizing node' with
  | leaf id nodeKey nodeValue => exact trivial
  | branch id dim pivotValue child0 child1 ih0 ih1 =>
      rcases insertNode_branch h with ⟨-, child, hchild, rfl⟩ | ⟨-, child, hchild, rfl⟩
      · obtain ⟨hbelow, habove, hsorted0, hsorted1⟩ := hsorted
        exact ⟨fun k hk => hbelow k (keys_subset_of_insertNode hchild k hk), habove, ih0 hchild hsorted0, hsorted1⟩
      · obtain ⟨hbelow, habove, hsorted0, hsorted1⟩ := hsorted
        exact ⟨hbelow, fun k hk => habove k (keys_subset_of_insertNode hchild k hk), hsorted0, ih1 hchild hsorted1⟩

/-- 挿入の後の木が分け方に従えば、着いた葉は、鍵の等しい葉か、分けられた葉である。 -/
theorem parts_of_insertNode (hint : Wrapping int) (hkey : Fits int key) (hkeys : ∀ k ∈ node.keys, Fits int k)
    (h : insertNode int nodeMaxCount key value node c = some (node', c')) (hsorted : node'.Sorted) :
    node.route key = key ∨ Parts int key (node.route key) ∧ c.nodeCount + 2 ≤ nodeMaxCount := by
  induction node generalizing node' with
  | leaf id nodeKey nodeValue =>
      refine or_iff_not_imp_left.mpr fun hne => ?_
      rw [route] at hne ⊢
      obtain ⟨dim, first, second, hdim, hroom, rfl, hends⟩ := insertNode_leaf (fun heq => hne heq.symm) h
      refine ⟨⟨dim, hdim, ?_⟩, hroom⟩
      by_contra hsum
      have hsame := hint.halfway (key dim) (nodeKey dim) (hkey dim) (hkeys nodeKey (List.mem_singleton.mpr rfl) dim) hsum
      obtain ⟨hbelow, habove, -, -⟩ := hsorted
      rcases hends with ⟨-, rfl, hlt⟩ | ⟨rfl, -, hge⟩
      · exact habove nodeKey (List.mem_singleton.mpr rfl) (hsame.mp hlt)
      · exact hge (hsame.mpr (hbelow nodeKey (List.mem_singleton.mpr rfl)))
  | branch id dim pivotValue child0 child1 ih0 ih1 =>
      have hkeys0 (k : Key) (hk : k ∈ child0.keys) : Fits int k :=
        hkeys k ((keys_branch ..).symm ▸ List.mem_append_left _ hk)
      have hkeys1 (k : Key) (hk : k ∈ child1.keys) : Fits int k :=
        hkeys k ((keys_branch ..).symm ▸ List.mem_append_right _ hk)
      rw [route]
      rcases insertNode_branch h with ⟨hlt, child, hchild, rfl⟩ | ⟨hge, child, hchild, rfl⟩
      · rw [if_pos hlt]
        exact ih0 hkeys0 hchild hsorted.2.2.1
      · rw [if_neg hge]
        exact ih1 hkeys1 hchild hsorted.2.2.2

/-! ## 探索 -/

theorem mem_of_findNode {id : Nat} (h : node.findNode key = some id) : ∃ l ∈ node.leaves, l.key = key ∧ l.id = id := by
  induction node with
  | leaf id' nodeKey nodeValue =>
      rw [findNode] at h
      split_ifs at h with hkey
      exact ⟨_, List.mem_singleton.mpr rfl, hkey.symm, Option.some.inj h⟩
  | branch id' dim pivotValue child0 child1 ih0 ih1 =>
      rw [findNode] at h
      split_ifs at h
      · obtain ⟨l, hl, hfound⟩ := ih0 h
        exact ⟨l, List.mem_append_left _ hl, hfound⟩
      · obtain ⟨l, hl, hfound⟩ := ih1 h
        exact ⟨l, List.mem_append_right _ hl, hfound⟩

/-- 分け方に従う木では、どの鍵も見つかる。 -/
theorem Sorted.findNode (hnode : node.Sorted) (hkey : key ∈ node.keys) : ∃ id, node.findNode key = some id := by
  induction node with
  | leaf id nodeKey nodeValue => exact ⟨id, if_pos (List.mem_singleton.mp hkey)⟩
  | branch id dim pivotValue child0 child1 ih0 ih1 =>
      obtain ⟨hbelow, habove, hsorted0, hsorted1⟩ := hnode
      rw [keys_branch, List.mem_append] at hkey
      rw [KdNode.findNode]
      split_ifs with hlt
      · exact ih0 hsorted0 (hkey.resolve_right fun hmem => habove key hmem hlt)
      · exact ih1 hsorted1 (hkey.resolve_left fun hmem => hlt (hbelow key hmem))

/-- 鍵が互いに異なれば、探索は、その鍵の葉を見つける。 -/
theorem Sorted.findNode_iff (hnode : node.Sorted) (hnodup : node.keys.Nodup) {id : Nat} :
    node.findNode key = some id ↔ ∃ l ∈ node.leaves, l.key = key ∧ l.id = id := by
  refine ⟨mem_of_findNode, ?_⟩
  rintro ⟨l, hl, hkey, hid⟩
  obtain ⟨id', hfound⟩ := hnode.findNode (List.mem_map.mpr ⟨l, hl, hkey⟩)
  obtain ⟨l', hl', hkey', hid'⟩ := mem_of_findNode hfound
  have hsame : l = l' := List.inj_on_of_nodup_map hnodup hl hl' (hkey.trans hkey'.symm)
  rw [hfound, ← hid', ← hsame, hid]

/-- 鍵が互いに異なり、どの鍵も見つかる木は、分け方に従う。 -/
theorem sorted_of_findNode (hnodup : node.keys.Nodup) (hfind : ∀ k ∈ node.keys, ∃ id, node.findNode k = some id) :
    node.Sorted := by
  induction node with
  | leaf id nodeKey nodeValue => exact trivial
  | branch id dim pivotValue child0 child1 ih0 ih1 =>
      rw [keys_branch, List.nodup_append] at hnodup
      obtain ⟨hnodup0, hnodup1, hdisjoint⟩ := hnodup
      have hside (k : Key) (hk : k ∈ child0.keys ∨ k ∈ child1.keys) : ∃ id,
          (if (k dim : ℚ) < pivotValue then child0.findNode k else child1.findNode k) = some id :=
        hfind k ((keys_branch ..).symm ▸ List.mem_append.mpr hk)
      have hfound (child : KdNode) {k : Key} {id : Nat} (h : child.findNode k = some id) : k ∈ child.keys := by
        obtain ⟨l, hl, hkey, -⟩ := mem_of_findNode h
        exact hkey ▸ List.mem_map_of_mem hl
      have hbelow (k : Key) (hk : k ∈ child0.keys) : (k dim : ℚ) < pivotValue := by
        by_contra hge
        obtain ⟨id, hid⟩ := hside k (Or.inl hk)
        rw [if_neg hge] at hid
        exact hdisjoint k hk k (hfound child1 hid) rfl
      have habove (k : Key) (hk : k ∈ child1.keys) : ¬ (k dim : ℚ) < pivotValue := by
        intro hlt
        obtain ⟨id, hid⟩ := hside k (Or.inr hk)
        rw [if_pos hlt] at hid
        exact hdisjoint k (hfound child0 hid) k hk rfl
      refine ⟨hbelow, habove, ih0 hnodup0 fun k hk => ?_, ih1 hnodup1 fun k hk => ?_⟩
      · obtain ⟨id, hid⟩ := hside k (Or.inl hk)
        rw [if_pos (hbelow k hk)] at hid
        exact ⟨id, hid⟩
      · obtain ⟨id, hid⟩ := hside k (Or.inr hk)
        rw [if_neg (habove k hk)] at hid
        exact ⟨id, hid⟩

theorem filter_key_eq {ls : List Leaf} (hnodup : (ls.map Leaf.key).Nodup) {l : Leaf} (hl : l ∈ ls) :
    ls.filter (fun l' => l'.key = l.key) = [l] := by
  induction ls with
  | nil => exact absurd hl List.not_mem_nil
  | cons a ls ih =>
      rw [List.map_cons, List.nodup_cons] at hnodup
      rcases List.mem_cons.mp hl with rfl | hl
      · rw [List.filter_cons_of_pos (by simp), List.filter_eq_nil_iff.mpr]
        intro b hb hkey
        exact hnodup.1 (List.mem_map.mpr ⟨b, hb, of_decide_eq_true hkey⟩)
      · have hne : a.key ≠ l.key := fun heq => hnodup.1 (heq ▸ List.mem_map_of_mem hl)
        rw [List.filter_cons_of_neg (by simpa using hne)]
        exact ih hnodup.2 hl

/-- 鍵が互いに異なれば、葉の値は、その鍵の値の和である。 -/
theorem mass_eq_value (hnodup : node.keys.Nodup) {l : Leaf} (hl : l ∈ node.leaves) : node.mass l.key = l.value := by
  rw [mass, filter_key_eq hnodup hl, List.map_singleton, List.sum_singleton]

end KdNode

namespace KdTree

variable {t t' : KdTree} {nodeMaxCount : Nat} {done : List (Key × ℝ)} {int : ℤ → ℤ} {pose : PfVector} {value : ℝ}

def leaves (t : KdTree) : List Leaf := t.root.elim [] KdNode.leaves

/-- 鍵 `k` で挿入した値の和。 -/
noncomputable def inserted (done : List (Key × ℝ)) (k : Key) : ℝ := ((done.filter fun p => p.1 = k).map Prod.snd).sum

noncomputable def insertAll (int : ℤ → ℤ) (nodeMaxCount : Nat) (poses : List (PfVector × ℝ)) (t : KdTree) :
    Option KdTree :=
  poses.foldlM (fun t p => t.insert int nodeMaxCount p.1 p.2) t

/-- 鍵が `int` に収まり、着いた葉から分けられ、配列に空きがある。 -/
def Admits (int : ℤ → ℤ) (nodeMaxCount : Nat) (t : KdTree) (pose : PfVector) : Prop :=
  Fits int (kdKey pose) ∧
    match t.root with
    | none => t.counts.nodeCount < nodeMaxCount
    | some node => node.route (kdKey pose) = kdKey pose ∨
        KdNode.Parts int (kdKey pose) (node.route (kdKey pose)) ∧ t.counts.nodeCount + 2 ≤ nodeMaxCount

/-- どの挿入も、その前の木が受け入れる。 -/
def AdmitsAll (int : ℤ → ℤ) (nodeMaxCount : Nat) : List (PfVector × ℝ) → KdTree → Prop
  | [], _ => True
  | p :: poses, t => Admits int nodeMaxCount t p.1 ∧
      ∀ t', t.insert int nodeMaxCount p.1 p.2 = some t' → AdmitsAll int nodeMaxCount poses t'

/-- 根のある木が、鍵と値の列 `done` を数えた木である。 -/
structure Counted (node : KdNode) (counts : Counts) (done : List (Key × ℝ)) : Prop where
  sorted : node.Sorted
  nodup : node.keys.Nodup
  mem_keys : ∀ k, k ∈ node.keys ↔ k ∈ done.map Prod.fst
  mass : ∀ k, node.mass k = inserted done k
  ids : node.ids.Perm (List.range counts.nodeCount)
  leafCount : counts.leafCount = node.keys.length
  nodeCount : counts.nodeCount + 1 ≤ 2 * done.length

/-- 木が、鍵と値の列 `done` を数えた木である。 -/
def Histogram (t : KdTree) (done : List (Key × ℝ)) : Prop :=
  match t.root with
  | none => done = [] ∧ t.counts = ⟨0, 0⟩
  | some node => Counted node t.counts done

theorem inserted_concat (done : List (Key × ℝ)) (key k : Key) (value : ℝ) :
    inserted (done ++ [(key, value)]) k = inserted done k + if k = key then value else 0 := by
  unfold inserted
  rw [List.filter_append, List.map_append, List.sum_append]
  by_cases h : k = key
  · simp [h]
  · have hne : key ≠ k := fun heq => h heq.symm
    simp [h, hne]

theorem Counted.insert {node node' : KdNode} {c c' : Counts} {key : Key} {value : ℝ} (h : Counted node c done)
    (hins : KdNode.Inserted key value node node' c c') : Counted node' c' (done ++ [(key, value)]) := by
  have hmass (k : Key) : node'.mass k = inserted (done ++ [(key, value)]) k := by
    rw [hins.mass, h.mass, inserted_concat]
  have hkeys (k : Key) : k ∈ (done ++ [(key, value)]).map Prod.fst ↔ k = key ∨ k ∈ node.keys := by
    rw [List.map_append, List.mem_append, ← h.mem_keys k, or_comm]
    exact or_congr List.mem_singleton Iff.rfl
  have hlength : (done ++ [(key, value)]).length = done.length + 1 := List.length_append
  have hcount := h.nodeCount
  by_cases hmem : key ∈ node.keys
  · obtain ⟨hperm, hids, rfl⟩ := hins.old hmem
    refine ⟨hins.sorted, hperm.nodup_iff.mpr h.nodup, fun k => ?_, hmass, hids.trans h.ids, ?_, by omega⟩
    · rw [hkeys, hperm.mem_iff]
      refine ⟨Or.inr, ?_⟩
      rintro (rfl | hk)
      · exact hmem
      · exact hk
    · rw [h.leafCount, hperm.length_eq]
  · obtain ⟨hperm, hids, rfl⟩ := hins.new hmem
    refine ⟨hins.sorted, hperm.nodup_iff.mpr (List.nodup_cons.mpr ⟨hmem, h.nodup⟩), fun k => ?_, hmass, ?_, ?_, ?_⟩
    · rw [hkeys, hperm.mem_iff, List.mem_cons]
    · rw [List.range_succ, List.range_succ, List.append_assoc]
      exact hids.trans ((h.ids.append_left [c.nodeCount, c.nodeCount + 1]).trans List.perm_append_comm)
    · rw [hperm.length_eq, List.length_cons, h.leafCount]
    · dsimp only
      omega

/-- 一つの挿入で、数えた木は、列に一つ加えて数えた木になる。 -/
theorem Histogram.insert (hint : Wrapping int) (h : t.Histogram done) (value : ℝ)
    (hadmits : Admits int nodeMaxCount t pose) :
    ∃ t', t.insert int nodeMaxCount pose value = some t' ∧ t'.Histogram (done ++ [(kdKey pose, value)]) := by
  obtain ⟨hfits, hroom⟩ := hadmits
  have hkey : intKey int pose = some (kdKey pose) := if_pos hfits
  unfold Histogram at h
  cases hroot : t.root with
  | none =>
      rw [hroot] at h hroom
      obtain ⟨rfl, hcounts⟩ := h
      refine ⟨⟨some (.leaf 0 (kdKey pose) value), ⟨1, 1⟩⟩, ?_, ⟨trivial, List.nodup_singleton _, fun k => Iff.rfl,
        fun k => ?_, List.Perm.refl _, rfl, Nat.le_refl _⟩⟩
      · simp only [KdTree.insert, hkey, hroot, newLeaf_of_lt hroom, Option.bind_eq_bind, Option.bind_some]
        rw [hcounts]
        rfl
      · rw [KdNode.mass_leaf, inserted_concat]
        exact (zero_add _).symm
  | some node =>
      rw [hroot] at h hroom
      obtain ⟨node', c', hrun, hins⟩ := h.sorted.insertNode hint value hroom
      refine ⟨⟨some node', c'⟩, ?_, h.insert hins⟩
      simp only [KdTree.insert, hkey, hroot, hrun, Option.bind_eq_bind, Option.bind_some]
      rfl

theorem Histogram.insertAll (hint : Wrapping int) (poses : List (PfVector × ℝ)) (h : t.Histogram done)
    (hadmits : AdmitsAll int nodeMaxCount poses t) :
    ∃ t', insertAll int nodeMaxCount poses t = some t' ∧
      t'.Histogram (done ++ poses.map fun p => (kdKey p.1, p.2)) := by
  induction poses generalizing t done with
  | nil => exact ⟨t, rfl, by rwa [List.map_nil, List.append_nil]⟩
  | cons p poses ih =>
      obtain ⟨t₁, hrun₁, h₁⟩ := h.insert hint p.2 hadmits.1
      obtain ⟨t', hrun, h'⟩ := ih h₁ (hadmits.2 t₁ hrun₁)
      refine ⟨t', ?_, ?_⟩
      · rw [KdTree.insertAll, List.foldlM_cons, hrun₁]
        exact hrun
      · rwa [List.append_assoc] at h'

/-- どの二つの鍵も分けられるとき、配列の空きだけで足りる。 -/
theorem Histogram.admitsAll (hint : Wrapping int) {S : Key → Prop} (hfits : ∀ key, S key → Fits int key)
    (hparts : ∀ key nodeKey, S key → S nodeKey → key ≠ nodeKey → KdNode.Parts int key nodeKey)
    (poses : List (PfVector × ℝ)) (h : t.Histogram done) (hdone : ∀ p ∈ done, S p.1) (hposes : ∀ p ∈ poses, S (kdKey p.1))
    (hroom : 2 * (done.length + poses.length) ≤ nodeMaxCount + 1) : AdmitsAll int nodeMaxCount poses t := by
  induction poses generalizing t done with
  | nil => trivial
  | cons p poses ih =>
      rw [List.length_cons] at hroom
      have hkey := hposes p List.mem_cons_self
      have hadmits : Admits int nodeMaxCount t p.1 := by
        refine ⟨hfits _ hkey, ?_⟩
        unfold Histogram at h
        cases hroot : t.root with
        | none =>
            rw [hroot] at h
            have hempty : t.counts.nodeCount = 0 := by rw [h.2]
            dsimp only
            omega
        | some node =>
            rw [hroot] at h
            have hcount := h.nodeCount
            refine or_iff_not_imp_left.mpr fun hne => ⟨hparts _ _ hkey ?_ fun heq => hne heq.symm, by omega⟩
            obtain ⟨q, hq, heq⟩ := List.mem_map.mp ((h.mem_keys _).mp (node.route_mem (kdKey p.1)))
            exact heq ▸ hdone q hq
      refine ⟨hadmits, fun t₁ hrun => ?_⟩
      obtain ⟨t₂, hrun₂, h₁⟩ := h.insert hint p.2 hadmits
      obtain rfl := Option.some.inj (hrun.symm.trans hrun₂)
      refine ih h₁ (fun q hq => ?_) (fun q hq => hposes q (List.mem_cons_of_mem p hq)) ?_
      · rcases List.mem_append.mp hq with hq | hq
        · exact hdone q hq
        · exact List.mem_singleton.mp hq ▸ hkey
      · rw [List.length_append, List.length_singleton]
        omega

/-- 正確な算術での挿入の列。 -/
theorem Histogram.insertAll_exact (poses : List (PfVector × ℝ)) (h : t.Histogram done)
    (hroom : 2 * (done.length + poses.length) ≤ nodeMaxCount + 1) :
    ∃ t', KdTree.insertAll id nodeMaxCount poses t = some t' ∧
      t'.Histogram (done ++ poses.map fun p => (kdKey p.1, p.2)) :=
  h.insertAll Wrapping.exact poses (h.admitsAll (S := fun _ => True) Wrapping.exact (fun _ _ _ => rfl)
    (fun _ _ _ _ hne => KdNode.parts_id hne) poses (fun _ _ => trivial) (fun _ _ => trivial) hroom)

/-! ## 受け入れの逆 -/

def Sorted (t : KdTree) : Prop := ∀ root, t.root = some root → root.Sorted

theorem insert_eq_some (h : t.insert int nodeMaxCount pose value = some t') :
    Fits int (kdKey pose) ∧ ∃ root, t'.root = some root ∧
      (t.root = none ∧ t.counts.nodeCount < nodeMaxCount ∨ ∃ node, t.root = some node ∧
        insertNode int nodeMaxCount (kdKey pose) value node t.counts = some (root, t'.counts)) := by
  obtain ⟨key, hkey, h⟩ := Option.bind_eq_some_iff.mp h
  unfold intKey at hkey
  split_ifs at hkey with hfits
  obtain rfl := Option.some.inj hkey
  refine ⟨hfits, ?_⟩
  cases hroot : t.root with
  | none =>
      rw [hroot] at h
      obtain ⟨⟨root, counts⟩, hstep, hout⟩ := Option.bind_eq_some_iff.mp h
      obtain rfl := Option.some.inj hout
      unfold newLeaf at hstep
      split_ifs at hstep with hlt
      exact ⟨root, rfl, Or.inl ⟨rfl, hlt⟩⟩
  | some node =>
      rw [hroot] at h
      obtain ⟨⟨root, counts⟩, hstep, hout⟩ := Option.bind_eq_some_iff.mp h
      obtain rfl := Option.some.inj hout
      exact ⟨root, rfl, Or.inr ⟨node, rfl, hstep⟩⟩

theorem sorted_of_insert (h : t.insert int nodeMaxCount pose value = some t') (hsorted : t'.Sorted) : t.Sorted := by
  obtain ⟨-, root, hroot', hstep⟩ := insert_eq_some h
  intro node hnode
  rcases hstep with ⟨hroot, -⟩ | ⟨node', hroot, hrun⟩
  · rw [hroot] at hnode
    cases hnode
  · obtain rfl := Option.some.inj (hnode.symm.trans hroot)
    exact KdNode.sorted_of_insertNode hrun (hsorted root hroot')

theorem sorted_of_insertAll {poses : List (PfVector × ℝ)} (h : insertAll int nodeMaxCount poses t = some t')
    (hsorted : t'.Sorted) : t.Sorted := by
  induction poses generalizing t with
  | nil =>
      obtain rfl := Option.some.inj h
      exact hsorted
  | cons p poses ih =>
      rw [insertAll, List.foldlM_cons] at h
      obtain ⟨t₁, hrun, hrest⟩ := Option.bind_eq_some_iff.mp h
      exact sorted_of_insert hrun (ih hrest)

/-- 挿入の後の木が分け方に従えば、挿入の前の木は鍵を受け入れた。 -/
theorem Histogram.admits (hint : Wrapping int) (h : t.Histogram done) (hdone : ∀ p ∈ done, Fits int p.1)
    (hrun : t.insert int nodeMaxCount pose value = some t') (hsorted : t'.Sorted) : Admits int nodeMaxCount t pose := by
  obtain ⟨hfits, root, hroot', hstep⟩ := insert_eq_some hrun
  refine ⟨hfits, ?_⟩
  unfold Histogram at h
  rcases hstep with ⟨hroot, hlt⟩ | ⟨node, hroot, hrun⟩
  · rw [hroot]
    exact hlt
  · rw [hroot] at h ⊢
    refine KdNode.parts_of_insertNode hint hfits (fun k hk => ?_) hrun (hsorted root hroot')
    obtain ⟨p, hp, rfl⟩ := List.mem_map.mp ((h.mem_keys k).mp hk)
    exact hdone p hp

theorem Histogram.admitsAll_of_insertAll (hint : Wrapping int) {poses : List (PfVector × ℝ)} (h : t.Histogram done)
    (hdone : ∀ p ∈ done, Fits int p.1) (hrun : KdTree.insertAll int nodeMaxCount poses t = some t') (hsorted : t'.Sorted) :
    AdmitsAll int nodeMaxCount poses t := by
  induction poses generalizing t done with
  | nil => trivial
  | cons p poses ih =>
      rw [KdTree.insertAll, List.foldlM_cons] at hrun
      obtain ⟨t₁, hrun₁, hrest⟩ := Option.bind_eq_some_iff.mp hrun
      have hadmits := h.admits hint hdone hrun₁ (sorted_of_insertAll hrest hsorted)
      refine ⟨hadmits, fun t₂ hrun₂ => ?_⟩
      obtain rfl := Option.some.inj (hrun₁.symm.trans hrun₂)
      obtain ⟨t₂, hrun₂, h₁⟩ := h.insert hint p.2 hadmits
      obtain rfl := Option.some.inj (hrun₁.symm.trans hrun₂)
      refine ih h₁ (fun q hq => ?_) hrest
      rcases List.mem_append.mp hq with hq | hq
      · exact hdone q hq
      · rw [List.mem_singleton.mp hq]
        exact hadmits.1

end KdTree

end Ranger.Amcl
