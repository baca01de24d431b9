import Mathlib.Analysis.Real.Sqrt
import Mathlib.Data.EReal.Operations
import Ranger.Amcl.Clusters

/-!
# 集団の統計（`pf_cluster_stats`）

標本を、木の番号ごとの集団に分け、集団ごとと全体の重み、平均、共分散を求める。正規化の式は、集団ごとと全体とで同じである。
-/

namespace Ranger.Amcl

open KdTree

/-! ## 統計 -/

/-- 和をとる作業領域。`weight`、`m`、`c` である。 -/
structure Moments where
  weight : ℝ
  m : Fin 4 → ℝ
  c : Fin 2 → Fin 2 → ℝ

def Moments.zero : Moments := ⟨0, fun _ => 0, fun _ _ => 0⟩

/-- 標本の位置と、向きの余弦と正弦。 -/
noncomputable def Sample.terms (s : Sample) : Fin 4 → ℝ :=
  ![s.pose.v0, s.pose.v1, Real.cos s.pose.v2, Real.sin s.pose.v2]

def Sample.linear (s : Sample) : Fin 2 → ℝ := ![s.pose.v0, s.pose.v1]

noncomputable def Moments.add (a : Moments) (s : Sample) : Moments where
  weight := a.weight + s.weight
  m i := a.m i + s.weight * s.terms i
  c j k := a.c j k + s.weight * s.linear j * s.linear k

/-- `mean` と `cov`。 -/
structure Stats where
  mean : PfVector
  cov : Fin 3 → Fin 3 → EReal

noncomputable def Stats.zero : Stats := ⟨⟨0, 0, 0⟩, fun _ _ => 0⟩

/-- `log`。`log 0` は負の無限大である。 -/
noncomputable def log (x : ℝ) : EReal := if x = 0 then ⊥ else (Real.log x : ℝ)

noncomputable def angularVariance (m2 m3 : ℝ) : EReal := ((-2.0 : ℝ) : EReal) * log √(m2 * m2 + m3 * m3)

def axisX : Fin 2 := ⟨0, Nat.two_pos⟩

def axisY : Fin 2 := ⟨1, Nat.one_lt_two⟩

noncomputable def Moments.normalize (a : Moments) : Stats :=
  let mean : Fin 2 → ℝ := ![a.m 0 / a.weight, a.m 1 / a.weight]
  let linear (j k : Fin 2) : EReal := ((a.c j k / a.weight - mean j * mean k : ℝ) : EReal)
  { mean := ⟨mean axisX, mean axisY, atan2 (a.m 3) (a.m 2)⟩
    cov := ![![linear axisX axisX, linear axisX axisY, 0], ![linear axisY axisX, linear axisY axisY, 0],
      ![0, 0, angularVariance (a.m 2) (a.m 3)]] }

structure Sums where
  clusterCount : Nat
  clusters : Nat → Moments
  overall : Moments

/-- 一つの標本を、その番号の集団と全体に加える。 -/
noncomputable def Sums.add (clusterMaxCount : Nat) (getCluster : PfVector → Option Int) (sums : Sums) (s : Sample) :
    Option Sums :=
  match getCluster s.pose with
  | none => none
  | some cidx =>
    if cidx < 0 then none
    else if clusterMaxCount ≤ cidx then some sums
    else some {
      clusterCount := if sums.clusterCount < cidx.toNat + 1 then cidx.toNat + 1 else sums.clusterCount
      clusters := Function.update sums.clusters cidx.toNat ((sums.clusters cidx.toNat).add s)
      overall := sums.overall.add s }

/-- `pf_cluster_stats` の結果。`label` は、木の葉に残る番号である。 -/
structure SetStats where
  label : Nat → Int
  clusterCount : Nat
  weight : Nat → ℝ
  clusters : Nat → Stats
  overall : Stats

noncomputable def pfClusterStats (fuel clusterMaxCount : Nat) (t : KdTree) (old : Nat → Int) (samples : List Sample) :
    Option SetStats := do
  let (label, _) ← t.cluster id fuel old
  let sums ← samples.foldlM (Sums.add clusterMaxCount (t.getCluster label)) ⟨0, fun _ => .zero, .zero⟩
  return {
    label := label
    clusterCount := sums.clusterCount
    weight := fun i => (sums.clusters i).weight
    clusters := fun i => if i < sums.clusterCount then (sums.clusters i).normalize else .zero
    overall := sums.overall.normalize }

/-! ## 和 -/

section Sums

variable {samples : List Sample} {clusterMaxCount : Nat} {getCluster : PfVector → Option Int}

noncomputable def momentsOf (samples : List Sample) : Moments := samples.foldl Moments.add .zero

theorem foldl_add (samples : List Sample) (a : Moments) :
    (samples.foldl Moments.add a).weight = a.weight + (samples.map Sample.weight).sum ∧
    (∀ i, (samples.foldl Moments.add a).m i = a.m i + (samples.map fun s => s.weight * s.terms i).sum) ∧
    ∀ j k, (samples.foldl Moments.add a).c j k =
      a.c j k + (samples.map fun s => s.weight * s.linear j * s.linear k).sum := by
  induction samples generalizing a with
  | nil => simp
  | cons s samples ih =>
      obtain ⟨hweight, hm, hc⟩ := ih (a.add s)
      refine ⟨?_, fun i => ?_, fun j k => ?_⟩
      · rw [List.foldl_cons, hweight, List.map_cons, List.sum_cons, ← add_assoc]
        rfl
      · rw [List.foldl_cons, hm, List.map_cons, List.sum_cons, ← add_assoc]
        rfl
      · rw [List.foldl_cons, hc, List.map_cons, List.sum_cons, ← add_assoc]
        rfl

theorem momentsOf_weight (samples : List Sample) : (momentsOf samples).weight = (samples.map Sample.weight).sum :=
  (foldl_add samples .zero).1.trans (zero_add _)

theorem momentsOf_m (samples : List Sample) (i : Fin 4) :
    (momentsOf samples).m i = (samples.map fun s => s.weight * s.terms i).sum :=
  ((foldl_add samples .zero).2.1 i).trans (zero_add _)

theorem momentsOf_c (samples : List Sample) (j k : Fin 2) :
    (momentsOf samples).c j k = (samples.map fun s => s.weight * s.linear j * s.linear k).sum :=
  ((foldl_add samples .zero).2.2 j k).trans (zero_add _)

def inCluster (getCluster : PfVector → Option Int) (i : Nat) (samples : List Sample) : List Sample :=
  samples.filter fun s => getCluster s.pose = some (i : Int)

/-- どの標本の番号も `bound` より小さく、集団の数の上限も超えなければ、和は、集団ごとの和と全体の和である。 -/
theorem foldlM_add {bound : Nat} (hbound : bound ≤ clusterMaxCount) (sums : Sums)
    (h : ∀ s ∈ samples, ∃ i < bound, getCluster s.pose = some (i : Int)) :
    ∃ sums', samples.foldlM (Sums.add clusterMaxCount getCluster) sums = some sums' ∧
      (∀ i, sums'.clusters i = (inCluster getCluster i samples).foldl Moments.add (sums.clusters i)) ∧
      sums'.overall = samples.foldl Moments.add sums.overall ∧ sums.clusterCount ≤ sums'.clusterCount ∧
      (sums.clusterCount ≤ bound → sums'.clusterCount ≤ bound) ∧
      ∀ s ∈ samples, ∀ i : Nat, getCluster s.pose = some (i : Int) → i < sums'.clusterCount := by
  induction samples generalizing sums with
  | nil =>
      exact ⟨sums, rfl, fun _ => rfl, rfl, Nat.le_refl _, id, fun s hs => absurd hs List.not_mem_nil⟩
  | cons s samples ih =>
      obtain ⟨i, hi, hlabel⟩ := h s List.mem_cons_self
      have hnot : ¬ (clusterMaxCount : Int) ≤ i := by omega
      have hstep : Sums.add clusterMaxCount getCluster sums s = some
          { clusterCount := if sums.clusterCount < i + 1 then i + 1 else sums.clusterCount
            clusters := Function.update sums.clusters i ((sums.clusters i).add s)
            overall := sums.overall.add s } := by
        simp only [Sums.add, hlabel, if_neg (not_lt.mpr (Int.natCast_nonneg i)), if_neg hnot, Int.toNat_natCast]
      obtain ⟨sums', hrun, hclusters, hoverall, hcount, hle, hmem⟩ :=
        ih { clusterCount := if sums.clusterCount < i + 1 then i + 1 else sums.clusterCount
             clusters := Function.update sums.clusters i ((sums.clusters i).add s)
             overall := sums.overall.add s } fun s hs => h s (List.mem_cons_of_mem _ hs)
      refine ⟨sums', ?_, fun j => ?_, hoverall, ?_, fun hsums => hle ?_, fun s' hs' j hj => ?_⟩
      · rw [List.foldlM_cons, hstep]
        exact hrun
      · rw [hclusters, inCluster, inCluster]
        dsimp only
        by_cases hj : j = i
        · subst hj
          rw [Function.update_self, List.filter_cons_of_pos (by simpa using hlabel), List.foldl_cons]
        · have hne : getCluster s.pose ≠ some (j : Int) := by
            rw [hlabel]
            intro heq
            exact hj (Int.ofNat.inj (Option.some.inj heq).symm)
          rw [Function.update_of_ne hj, List.filter_cons_of_neg (by simpa using hne)]
      · refine le_trans ?_ hcount
        dsimp only
        split_ifs <;> omega
      · dsimp only
        split_ifs <;> omega
      · rcases List.mem_cons.mp hs' with rfl | hs'
        · obtain rfl : i = j := Int.ofNat.inj (Option.some.inj (hlabel.symm.trans hj))
          refine lt_of_lt_of_le ?_ hcount
          dsimp only
          split_ifs <;> omega
        · exact hmem s' hs' j hj

/-- 集団ごとの和を合わせると、全体の和になる。 -/
theorem sum_inCluster {bound : Nat} (f : Sample → ℝ)
    (h : ∀ s ∈ samples, ∃ i < bound, getCluster s.pose = some (i : Int)) :
    ∑ i ∈ Finset.range bound, ((inCluster getCluster i samples).map f).sum = (samples.map f).sum := by
  induction samples with
  | nil => exact Finset.sum_const_zero
  | cons s samples ih =>
      obtain ⟨i, hi, hlabel⟩ := h s List.mem_cons_self
      have hsplit (j : Nat) : ((inCluster getCluster j (s :: samples)).map f).sum =
          (if i = j then f s else 0) + ((inCluster getCluster j samples).map f).sum := by
        unfold inCluster
        by_cases hj : i = j
        · subst hj
          rw [List.filter_cons_of_pos (by simpa using hlabel), if_pos rfl, List.map_cons, List.sum_cons]
        · have hne : getCluster s.pose ≠ some (j : Int) := by
            rw [hlabel]
            intro heq
            exact hj (Int.ofNat.inj (Option.some.inj heq))
          rw [List.filter_cons_of_neg (by simpa using hne), if_neg hj, zero_add]
      rw [Finset.sum_congr rfl fun j _ => hsplit j, Finset.sum_add_distrib, Finset.sum_ite_eq,
        if_pos (Finset.mem_range.mpr hi), ih fun s hs => h s (List.mem_cons_of_mem _ hs), List.map_cons, List.sum_cons]

end Sums

/-! ## 重みの比例 -/

section Rescale

variable {samples : List Sample} {W : ℝ}

/-- 重みを、和で割る。 -/
noncomputable def rescale (samples : List Sample) : List Sample :=
  samples.map fun s => { s with weight := s.weight / (samples.map Sample.weight).sum }

theorem sum_map_div (f : Sample → ℝ) (samples : List Sample) (W : ℝ) :
    (samples.map fun s => f s / W).sum = (samples.map f).sum / W := by
  induction samples with
  | nil => simp
  | cons s samples ih => rw [List.map_cons, List.sum_cons, ih, List.map_cons, List.sum_cons, add_div]

/-- 重みを比例させると、和も比例する。 -/
theorem momentsOf_rescale (samples : List Sample) :
    (momentsOf (rescale samples)).weight = (momentsOf samples).weight / (momentsOf samples).weight ∧
    (∀ i, (momentsOf (rescale samples)).m i = (momentsOf samples).m i / (momentsOf samples).weight) ∧
    ∀ j k, (momentsOf (rescale samples)).c j k = (momentsOf samples).c j k / (momentsOf samples).weight := by
  refine ⟨?_, fun i => ?_, fun j k => ?_⟩
  · rw [momentsOf_weight, momentsOf_weight, rescale, List.map_map]
    exact sum_map_div _ _ _
  · rw [momentsOf_m, momentsOf_m, momentsOf_weight, rescale, List.map_map, ← sum_map_div]
    congr 1
    refine List.map_congr_left fun s _ => ?_
    exact div_mul_eq_mul_div _ _ _
  · rw [momentsOf_c, momentsOf_c, momentsOf_weight, rescale, List.map_map, ← sum_map_div]
    congr 1
    refine List.map_congr_left fun s _ => ?_
    change s.weight / _ * s.linear j * s.linear k = _
    ring

theorem atan2_div (hW : 0 < W) (y x : ℝ) : atan2 (y / W) (x / W) = atan2 y x := by
  have hscale : (⟨x / W, y / W⟩ : ℂ) = ((W⁻¹ : ℝ) : ℂ) * ⟨x, y⟩ := by
    apply Complex.ext
    · rw [Complex.re_ofReal_mul]
      exact div_eq_inv_mul x W
    · rw [Complex.im_ofReal_mul]
      exact div_eq_inv_mul y W
  rw [atan2, atan2, hscale, Complex.arg_real_mul _ (inv_pos.mpr hW)]

/-- 重みの和で割っても向きの分散が変わらないのは、和が `1` であるか、向きの和が消えるときに限る。 -/
theorem angularVariance_div (hW : 0 < W) (m2 m3 : ℝ) :
    angularVariance m2 m3 = angularVariance (m2 / W) (m3 / W) ↔ W = 1 ∨ m2 = 0 ∧ m3 = 0 := by
  have hroot : √(m2 / W * (m2 / W) + m3 / W * (m3 / W)) = √(m2 * m2 + m3 * m3) / W := by
    have hsquare : m2 / W * (m2 / W) + m3 / W * (m3 / W) = (m2 * m2 + m3 * m3) / (W * W) := by
      rw [div_mul_div_comm, div_mul_div_comm, ← add_div]
    rw [hsquare, Real.sqrt_div' _ (by positivity), Real.sqrt_mul_self hW.le]
  have hzero : √(m2 * m2 + m3 * m3) = 0 ↔ m2 = 0 ∧ m3 = 0 := by
    rw [Real.sqrt_eq_zero (add_nonneg (mul_self_nonneg m2) (mul_self_nonneg m3)), mul_self_add_mul_self_eq_zero]
  unfold angularVariance
  rw [hroot, log, log]
  by_cases h : √(m2 * m2 + m3 * m3) = 0
  · rw [h, zero_div]
    exact ⟨fun _ => Or.inr (hzero.mp h), fun _ => rfl⟩
  · have hdiv : √(m2 * m2 + m3 * m3) / W ≠ 0 := div_ne_zero h hW.ne'
    have hnot : ¬ (m2 = 0 ∧ m3 = 0) := fun hboth => h (hzero.mpr hboth)
    rw [if_neg h, if_neg hdiv, or_iff_left hnot, ← EReal.coe_mul, ← EReal.coe_mul, EReal.coe_eq_coe_iff,
      Real.log_div h hW.ne']
    constructor
    · intro heq
      have hlog : Real.log W = 0 := by linarith
      exact Real.eq_one_of_pos_of_log_eq_zero hW hlog
    · rintro rfl
      rw [Real.log_one, sub_zero]

end Rescale

end Ranger.Amcl
