import Ranger.Lib.Labelling
import Ranger.Denoise.Components

/-!
# 仮の番号の木の操作

`EquivalenceLabelTrees` の操作が、根の合併と番号づけであることを示す。
-/

namespace Ranger.Denoise.EquivalenceLabelTrees

open Ranger.Lib (Forest root Rerooted Merged rank root_of_lt root_of_le root_of_eq root_le)

variable {trees trees' : EquivalenceLabelTrees} {labels : Table ℕ} {fuel i j r k n : ℕ}

/-! ## 根 -/

theorem findRootLoop_eq {d : ℕ → ℕ} (h : i ≤ fuel) : findRootLoop d fuel i = root d i := by
  induction fuel generalizing i with
  | zero =>
      obtain rfl := Nat.le_zero.mp h
      exact (root_of_le (Nat.zero_le _)).symm
  | succ fuel ih =>
      rw [findRootLoop]
      split_ifs with hlt
      · rw [root_of_lt hlt]
        exact ih (by omega)
      · exact (root_of_le (not_lt.mp hlt)).symm

theorem findRoot_eq (trees : EquivalenceLabelTrees) (i : ℕ) : trees.findRoot i = root trees.labels.data i :=
  findRootLoop_eq le_rfl

/-- 道に沿って親を書き換えた表は、`i` の木の根だけを `r` に変える。 -/
theorem setRootLoop_rerooted (hfuel : i ≤ fuel) (hd : Forest labels.data) (hr : r ≤ root labels.data i)
    (hroot : labels.data r = r) :
    Forest (setRootLoop r fuel labels i).data ∧ Rerooted labels.data (setRootLoop r fuel labels i).data i r ∧
      (setRootLoop r fuel labels i).size = labels.size := by
  have hle : r ≤ i := hr.trans (root_le _ i)
  induction fuel generalizing labels i with
  | zero =>
      obtain rfl := Nat.le_zero.mp hfuel
      exact ⟨hd.update hle, hd.rerooted_root hle hroot (Nat.le_zero.mp (hd 0)), rfl⟩
  | succ fuel ih =>
      rw [setRootLoop]
      split_ifs with hlt
      · have hbelow : root (labels.set i r).data (labels.data i) = root labels.data i := by
          rw [Table.data_set, Lib.root_update_of_lt hlt, hd.root_parent]
        have hparent : r ≤ labels.data i := by
          rw [root_of_lt hlt] at hr
          exact hr.trans (root_le _ _)
        have hkeep : (labels.set i r).data r = r := by
          rw [Table.data_set, Function.update_apply]
          split_ifs
          · rfl
          · exact hroot
        obtain ⟨hforest, hrerooted, hsize⟩ :=
          ih (by omega) (hd.update hle) (by rwa [hbelow]) hkeep hparent
        exact ⟨hforest, hd.rerooted_parent hle hroot hlt hrerooted, hsize⟩
      · have hself : labels.data i = i := (hd i).antisymm (not_lt.mp hlt)
        exact ⟨hd.update hle, hd.rerooted_root hle hroot hself, rfl⟩

/-- `i` と `j` の木を合併した結果。 -/
structure United (trees trees' : EquivalenceLabelTrees) (i j r : ℕ) : Prop where
  forest : Forest trees'.labels.data
  merged : Merged trees.labels.data trees'.labels.data i j
  value : r = min (root trees.labels.data i) (root trees.labels.data j)
  size : trees'.labels.size = trees.labels.size
  labelsSize : trees'.labelsSize = trees.labelsSize
  nextFree : trees'.nextFree = trees.nextFree

theorem unionTrees_united (hd : Forest trees.labels.data) (i j : ℕ) :
    United trees (trees.unionTrees i j).2 i j (trees.unionTrees i j).1 := by
  have hmin : trees.labels.data (min (root trees.labels.data i) (root trees.labels.data j)) =
      min (root trees.labels.data i) (root trees.labels.data j) := by
    rcases min_choice (root trees.labels.data i) (root trees.labels.data j) with h | h
    · rw [h, hd.parent_root]
    · rw [h, hd.parent_root]
  rw [unionTrees, findRoot_eq, findRoot_eq]
  split_ifs with hij
  · obtain ⟨hforest₁, hrerooted₁, hsize₁⟩ := setRootLoop_rerooted le_rfl hd (min_le_right _ _) hmin
    have hroot₁ := hrerooted₁ i
    have hfix₁ := hrerooted₁ (min (root trees.labels.data i) (root trees.labels.data j))
    rw [root_of_eq hmin] at hfix₁
    have hle : min (root trees.labels.data i) (root trees.labels.data j) ≤
        root (setRootLoop (min (root trees.labels.data i) (root trees.labels.data j)) j trees.labels j).data i := by
      rw [hroot₁]
      split_ifs
      · exact le_rfl
      · exact min_le_left _ _
    have hkeep := hforest₁.root_eq_self_iff.mp (hfix₁.trans (ite_self _))
    obtain ⟨hforest₂, hrerooted₂, hsize₂⟩ := setRootLoop_rerooted le_rfl hforest₁ hle hkeep
    exact ⟨hforest₂, hrerooted₁.merged hrerooted₂, rfl, hsize₂.trans hsize₁, rfl, rfl⟩
  · obtain rfl := not_not.mp hij
    obtain ⟨hforest, hrerooted, hsize⟩ := setRootLoop_rerooted le_rfl hd le_rfl (hd.parent_root i)
    exact ⟨hforest, hrerooted.merged_self, (min_self _).symm, hsize, rfl, rfl⟩

/-! ## 最後の番号 -/

/-- 番号 `i` の手前まで、最後の番号に書き換わった表と、次の最後の番号。 -/
structure Flattened (d : ℕ → ℕ) (i : ℕ) (s : Table ℕ × ℕ) : Prop where
  done : ∀ x < i, s.1.data x = rank d (root d x)
  todo : ∀ x, i ≤ x → s.1.data x = d x
  count : s.2 = rank d i

theorem Flattened.step {d : ℕ → ℕ} {s : Table ℕ × ℕ} (hd : Forest d) (h : Flattened d i s) :
    Flattened d (i + 1) (flattenLabel s i) := by
  have hi := h.todo i le_rfl
  have hnext {x v : ℕ} (hx : i + 1 ≤ x) : (s.1.set i v).data x = d x := by
    rw [Table.data_set, Function.update_of_ne (by omega)]
    exact h.todo x (by omega)
  have hprev {x v : ℕ} (hx : x < i + 1) (hv : v = rank d (root d i)) : (s.1.set i v).data x = rank d (root d x) := by
    rw [Table.data_set]
    rcases Nat.lt_succ_iff_lt_or_eq.mp hx with hlt | rfl
    · rw [Function.update_of_ne hlt.ne]
      exact h.done x hlt
    · rw [Function.update_self, hv]
  unfold flattenLabel
  rw [hi]
  split_ifs with hlt
  · have hval : s.1.data (d i) = rank d (root d i) := by rw [h.done (d i) hlt, hd.root_parent]
    exact ⟨fun x hx => hprev hx hval, fun x hx => hnext hx, by rw [h.count, Lib.rank_succ_of_ne hlt.ne]⟩
  · have hself : d i = i := (hd i).antisymm (not_lt.mp hlt)
    have hval : s.2 = rank d (root d i) := by rw [h.count, root_of_eq hself]
    exact ⟨fun x hx => hprev hx hval, fun x hx => hnext hx, by rw [h.count, Lib.rank_succ_of_eq hself]⟩

theorem Flattened.foldl {d : ℕ → ℕ} {s : Table ℕ × ℕ} (hd : Forest d) (h : Flattened d i s) (n : ℕ) :
    Flattened d (i + n) ((List.range' i n).foldl flattenLabel s) := by
  induction n generalizing i s with
  | zero => exact h
  | succ n ih =>
      rw [List.range'_succ, List.foldl_cons, Nat.add_comm n 1, ← Nat.add_assoc]
      exact ih (h.step hd)

/-- 表の大きさは根の数で、仮の番号の最後の番号は、根の順番である。 -/
theorem getLabels_spec (hd : Forest trees.labels.data) (hnext : 0 < trees.nextFree) :
    trees.getLabels.size = rank trees.labels.data trees.nextFree ∧
      ∀ x < trees.nextFree, trees.getLabels.data x = rank trees.labels.data (root trees.labels.data x) := by
  have hzero : trees.labels.data 0 = 0 := Nat.le_zero.mp (hd 0)
  have hstart : Flattened trees.labels.data 1 (trees.labels, 1) := by
    refine ⟨fun x hx => ?_, fun _ _ => rfl, hd.rank_one.symm⟩
    obtain rfl := Nat.lt_one_iff.mp hx
    rw [root_of_eq hzero, Lib.rank_zero, hzero]
  have h := hstart.foldl hd (trees.nextFree - 1)
  rw [Nat.add_sub_cancel' hnext] at h
  exact ⟨h.count, h.done⟩

end Ranger.Denoise.EquivalenceLabelTrees
