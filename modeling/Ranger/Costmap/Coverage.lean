import Ranger.Costmap.Inflation

/-!
# 障害物の周りの費用

膨張の後、障害物の半径の中にある升目の費用が、障害物からの距離の費用より小さくならないことを調べる。升目が受け取る障害物は、隣の
升目が受け取ったものに限られるので、最も近い障害物が、隣の升目にとっては最も近くないとき、その障害物は升目に届かない。
升目の費用が足りるのは、障害物からの道筋のうち勝ち残るものが、費用に足りる障害物から来るときである。
-/

namespace Ranger.Costmap
open Ranger.Lib

/-! ## 実数の設定 -/

structure InflationLayer where
  enabled : Bool
  inflateUnknown : Bool
  inflateAroundUnknown : Bool
  inflationRadius : ℝ
  inscribedRadius : ℝ
  costScalingFactor : ℝ
  resolution : ℝ
  resolution_pos : 0 < resolution

namespace InflationLayer

/-- 障害物から `distance` 升離れた升目の費用。 -/
noncomputable def computeCost (l : InflationLayer) (distance : ℝ) : Nat :=
  if distance = 0 then lethalObstacle
  else if distance * l.resolution ≤ l.inscribedRadius then inscribedInflatedObstacle
  else
    -- 費用は距離とともに減る。
    let factor := Real.exp (-1 * l.costScalingFactor * (distance * l.resolution - l.inscribedRadius))
    ⌊((inscribedInflatedObstacle - 1 : Nat) : ℝ) * factor⌋₊

noncomputable def hypot (i j : Nat) : ℝ := √((i ^ 2 + j ^ 2 : Nat) : ℝ)

/-- `Costmap2D::cellDistance`。商は実数であり、`double` の商の丸めで一升小さくなること (0.55 / 0.05) は扱わない。 -/
noncomputable def cellDistance (l : InflationLayer) (worldDist : ℝ) : Nat := ⌈worldDist / l.resolution⌉₊

noncomputable def computeCaches (l : InflationLayer) : Inflation where
  enabled := l.enabled
  inflateUnknown := l.inflateUnknown
  inflateAroundUnknown := l.inflateAroundUnknown
  cellInflationRadius := l.cellDistance l.inflationRadius
  cachedCosts := fun i j => l.computeCost (hypot i j)

noncomputable def distance (c s : Cell) : ℝ := hypot (axisDistance c.1 s.1) (axisDistance c.2 s.2)

variable {l : InflationLayer} {g : Costmap2D} {w : Window} {c s : Cell}

theorem distance_eq (c s : Cell) : distance c s = √(distanceSq c s : ℝ) := rfl

theorem distance_le_iff {n : Nat} : distance c s ≤ n ↔ distanceSq c s ≤ n * n := by
  rw [distance_eq, Real.sqrt_le_left (Nat.cast_nonneg n), pow_two, ← Nat.cast_mul, Nat.cast_le]

/-! ## 費用の大きさ -/

/-- 内接する半径の外の費用。 -/
noncomputable def decay (l : InflationLayer) (d : ℝ) : Nat :=
  ⌊((inscribedInflatedObstacle - 1 : Nat) : ℝ) *
    Real.exp (-1 * l.costScalingFactor * (d * l.resolution - l.inscribedRadius))⌋₊

theorem computeCost_eq (l : InflationLayer) (d : ℝ) :
    l.computeCost d = if d = 0 then lethalObstacle else
      if d * l.resolution ≤ l.inscribedRadius then inscribedInflatedObstacle else l.decay d := rfl

theorem decay_lt (hscale : 0 ≤ l.costScalingFactor) {d : ℝ} (h : l.inscribedRadius ≤ d * l.resolution) :
    l.decay d < inscribedInflatedObstacle := by
  have hfactor := mul_nonneg hscale (sub_nonneg.mpr h)
  have hexp : Real.exp (-1 * l.costScalingFactor * (d * l.resolution - l.inscribedRadius)) ≤ 1 :=
    Real.exp_le_one_iff.mpr (by linarith)
  have hle := mul_le_mul_of_nonneg_left hexp (Nat.cast_nonneg (inscribedInflatedObstacle - 1))
  rw [mul_one] at hle
  have hfloor := Nat.floor_le_floor hle
  rw [Nat.floor_natCast] at hfloor
  exact Nat.lt_of_le_of_lt hfloor (Nat.lt_succ_self 252)

theorem inscribed_le_computeCost {d : ℝ} (h : d * l.resolution ≤ l.inscribedRadius) :
    inscribedInflatedObstacle ≤ l.computeCost d := by
  rw [computeCost_eq, if_pos h]
  split_ifs
  · exact Nat.le_succ 253
  · exact Nat.le_refl _

/-! ## 届く障害物 -/

/-- 半径の中の障害物の費用にまだ足りない窓の升目は、勝ち残る道筋で、その費用に足りる障害物を受け取る。 -/
def Carried (l : InflationLayer) (g : Costmap2D) (w : Window) : Prop :=
  ∀ c, g.Contains c → w.Contains c → g.cost c ≠ noInformation →
    ∀ s, g.Contains s → g.cost s = lethalObstacle → distance c s ≤ l.computeCaches.cellInflationRadius →
      g.cost c < l.computeCost (distance c s) → l.enabled = true ∧
        ∃ s', Spread.Given (l.computeCaches.spread g) (l.computeCaches.sources g w) c s' ∧
          l.computeCost (distance c s) ≤ l.computeCost (distance c s')

/-- 膨張の後の地図が満たすべき条件。 -/
structure Covered (l : InflationLayer) (g g' : Costmap2D) (w : Window) : Prop where
  near : ∀ c, g.Contains c → w.Contains c → g.cost c ≠ noInformation → ∀ s, g.Contains s →
    g.cost s = lethalObstacle → distance c s ≤ l.computeCaches.cellInflationRadius →
    l.computeCost (distance c s) ≤ g'.cost c
  inscribed : ∀ c, g.Contains c → w.Contains c → g.cost c ≠ noInformation → ∀ s, g.Contains s →
    g.cost s = lethalObstacle → distance c s * l.resolution ≤ l.inscribedRadius →
    inscribedInflatedObstacle ≤ g'.cost c

/-- 内接する半径の中の升目は、膨張の半径の中にある。 -/
theorem distance_le_of_inscribed (hr : l.inscribedRadius ≤ l.inflationRadius)
    (h : distance c s * l.resolution ≤ l.inscribedRadius) : distance c s ≤ l.computeCaches.cellInflationRadius := by
  have hle : distance c s ≤ l.inflationRadius / l.resolution :=
    (le_div_iff₀ l.resolution_pos).mpr (h.trans hr)
  exact hle.trans (Nat.le_ceil _)

theorem covered_of_near (hr : l.inscribedRadius ≤ l.inflationRadius) {g' : Costmap2D}
    (h : ∀ c, g.Contains c → w.Contains c → g.cost c ≠ noInformation → ∀ s, g.Contains s →
      g.cost s = lethalObstacle → distance c s ≤ l.computeCaches.cellInflationRadius →
      l.computeCost (distance c s) ≤ g'.cost c) : Covered l g g' w :=
  ⟨h, fun c hc hw hknown s hs hlethal hins =>
    (inscribed_le_computeCost hins).trans (h c hc hw hknown s hs hlethal (distance_le_of_inscribed hr hins))⟩

/-- 半径が 0 であれば、半径の中の障害物は、升目そのものである。 -/
theorem not_lt_of_radius_zero (hradius : l.computeCaches.cellInflationRadius = 0) (hlethal : g.cost s = lethalObstacle)
    (hdist : distance c s ≤ l.computeCaches.cellInflationRadius) : l.computeCost (distance c s) ≤ g.cost c := by
  rw [distance_le_iff, hradius, Nat.zero_mul, Nat.le_zero] at hdist
  rw [distance_eq, hdist, distanceSq_eq_zero.mp hdist, hlethal, computeCost_eq, Nat.cast_zero, Real.sqrt_zero, if_pos rfl]

/-- 源を受け取る既知の升目の費用は、元の費用と、源からの距離の費用の大きい方である。 -/
theorem cost_of_given {g' : Costmap2D} (h : Inflation.Updated l.computeCaches g w g') (hw : w.Contains c)
    (hknown : g.cost c ≠ noInformation) (hgiven : Spread.Given (l.computeCaches.spread g) (l.computeCaches.sources g w) c s) :
    g'.cost c = max (g.cost c) (l.computeCost (distance c s)) :=
  (h.given c s hgiven).trans (Inflation.assign_of_known hw hknown s)

theorem covered_iff_of_updated (hr : l.inscribedRadius ≤ l.inflationRadius) {g' : Costmap2D} (hon : l.enabled = true)
    (h : Inflation.Updated l.computeCaches g w g') : Covered l g g' w ↔ Carried l g w := by
  constructor
  · intro hcovered c hc hw hknown s hs hlethal hdist hlt
    have hle := hcovered.near c hc hw hknown s hs hlethal hdist
    have hchanged : ¬ ∀ s', ¬ Spread.Given (l.computeCaches.spread g) (l.computeCaches.sources g w) c s' := by
      intro hnone
      rw [h.kept c hnone] at hle
      exact absurd hlt (Nat.not_lt.mpr hle)
    push Not at hchanged
    obtain ⟨s', hgiven⟩ := hchanged
    rw [cost_of_given h hw hknown hgiven, le_max_iff] at hle
    exact ⟨hon, s', hgiven, hle.resolve_left (Nat.not_le.mpr hlt)⟩
  · refine fun hcarried => covered_of_near hr fun c hc hw hknown s hs hlethal hdist => ?_
    by_cases hlt : g.cost c < l.computeCost (distance c s)
    · obtain ⟨-, s', hgiven, hle⟩ := hcarried c hc hw hknown s hs hlethal hdist hlt
      rw [cost_of_given h hw hknown hgiven]
      exact hle.trans (Nat.le_max_right _ _)
    · exact (not_lt.mp hlt).trans (h.le hknown)

/-- 膨張しない層では、足りない費用は足りないままである。 -/
theorem covered_iff_of_not_active (hr : l.inscribedRadius ≤ l.inflationRadius) (h : ¬ l.computeCaches.Active) :
    Covered l g g w ↔ Carried l g w := by
  constructor
  · intro hcovered c hc hw hknown s hs hlethal hdist hlt
    exact absurd hlt (Nat.not_lt.mpr (hcovered.near c hc hw hknown s hs hlethal hdist))
  · refine fun hcarried => covered_of_near hr fun c hc hw hknown s hs hlethal hdist => ?_
    by_contra hlt
    obtain ⟨hon, -⟩ := hcarried c hc hw hknown s hs hlethal hdist (not_le.mp hlt)
    exact h ⟨hon, fun hradius => hlt (not_lt_of_radius_zero hradius hlethal hdist)⟩

/-- 内接する半径が 2.9 升、膨張の半径が 3 升の層。 -/
noncomputable def threeCells : InflationLayer where
  enabled := true
  inflateUnknown := false
  inflateAroundUnknown := false
  inflationRadius := 3.0
  inscribedRadius := 2.9
  costScalingFactor := 0
  resolution := 1
  resolution_pos := one_pos

/-- `threeCells` の表。 -/
def threeCellsCaches : Inflation where
  enabled := true
  inflateUnknown := false
  inflateAroundUnknown := false
  cellInflationRadius := 3
  cachedCosts := fun i j => if i ^ 2 + j ^ 2 = 0 then 254 else if i ^ 2 + j ^ 2 ≤ 8 then 253 else 252

/-- 費用が距離とともに減らない層では、費用は内接する半径の中と外で二つに分かれる。 -/
theorem computeCost_flat (hscale : l.costScalingFactor = 0) (hres : l.resolution = 1) (hr : 0 ≤ l.inscribedRadius) {k : Nat}
    (hk : k ≤ l.inscribedRadius ^ 2) (hlt : l.inscribedRadius ^ 2 < k + 1) (n : Nat) :
    l.computeCost √(n : ℝ) = if n = 0 then 254 else if n ≤ k then 253 else 252 := by
  have hzero : √(n : ℝ) = 0 ↔ n = 0 := by rw [Real.sqrt_eq_zero (Nat.cast_nonneg n), Nat.cast_eq_zero]
  have hins : √(n : ℝ) * l.resolution ≤ l.inscribedRadius ↔ n ≤ k := by
    rw [hres, mul_one, Real.sqrt_le_left hr]
    constructor
    · intro h
      exact Nat.le_of_lt_succ (Nat.cast_lt.mp ((h.trans_lt hlt).trans_eq (Nat.cast_succ k).symm))
    · exact fun h => (Nat.cast_le.mpr h).trans hk
  have hdecay : l.decay √(n : ℝ) = 252 := by
    simp only [decay, hscale, mul_zero, zero_mul, Real.exp_zero, mul_one, Nat.floor_natCast]
    rfl
  rw [computeCost_eq, hdecay]
  simp only [hzero, hins]
  rfl

theorem threeCells_computeCost (n : Nat) :
    threeCells.computeCost √(n : ℝ) = if n = 0 then 254 else if n ≤ 8 then 253 else 252 := by
  refine computeCost_flat rfl rfl ?_ ?_ ?_ n <;>
    (simp only [threeCells]; norm_num)

theorem threeCells_computeCaches : threeCells.computeCaches = threeCellsCaches := by
  have hradius : threeCells.cellDistance threeCells.inflationRadius = 3 := by
    simp only [cellDistance, threeCells]
    norm_num
  simp only [computeCaches, hradius, hypot, threeCells_computeCost]
  rfl

def threeObstacles : Costmap2D where
  sizeX := 4
  sizeY := 4
  cost := fun c => if c = (0, 0) ∨ c = (1, 2) ∨ c = (3, 3) then lethalObstacle else freeSpace

/-- 内接する半径が 1.5 升の層。 -/
noncomputable def narrow : InflationLayer := { threeCells with inscribedRadius := 1.5 }

/-- `narrow` の表。 -/
def narrowCaches : Inflation :=
  { threeCellsCaches with cachedCosts := fun i j => if i ^ 2 + j ^ 2 = 0 then 254 else if i ^ 2 + j ^ 2 ≤ 2 then 253 else 252 }

theorem narrow_computeCost (n : Nat) :
    narrow.computeCost √(n : ℝ) = if n = 0 then 254 else if n ≤ 2 then 253 else 252 := by
  refine computeCost_flat rfl rfl ?_ ?_ ?_ n <;>
    (simp only [narrow]; norm_num)

theorem narrow_computeCaches : narrow.computeCaches = narrowCaches := by
  have hradius : narrow.cellDistance narrow.inflationRadius = 3 := by
    simp only [cellDistance, narrow, threeCells]
    norm_num
  simp only [computeCaches, hradius, hypot, narrow_computeCost]
  rfl

/-- 対角線の三つの障害物。 -/
def diagonal : Costmap2D where
  sizeX := 3
  sizeY := 3
  cost := fun c => if c = (0, 0) ∨ c = (1, 1) ∨ c = (2, 2) then lethalObstacle else freeSpace

/-- どの升目の費用も、どの障害物からの距離の費用より小さくない。 -/
def diagonalCovered (g' : Costmap2D) : Bool :=
  decide (∀ c ∈ Finset.range 3 ×ˢ Finset.range 3, ∀ s ∈ Finset.range 3 ×ˢ Finset.range 3, diagonal.cost s = 254 →
    (if distanceSq c s = 0 then 254 else if distanceSq c s ≤ 2 then 253 else 252) ≤ g'.cost c)

theorem mem_cells_of_contains {c : Cell} (hc : diagonal.Contains c) : c ∈ Finset.range 3 ×ˢ Finset.range 3 :=
  Finset.mem_product.mpr ⟨Finset.mem_range.mpr hc.1, Finset.mem_range.mpr hc.2⟩

end InflationLayer

end Ranger.Costmap
