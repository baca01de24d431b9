import Ranger.Grid.Conversions

/-!
# 計画器の座標の変換

`NavfnPlanner` は、`Costmap2D` とは別に、升目の角を節とする変換を持つ。同じ姿勢に両方の変換が使われる。
-/

namespace Ranger.Navfn
open Ranger.Grid

variable {K : Type} [Field K] [LinearOrder K] [FloorRing K]

/-- `std::round`。半分は 0 から遠い方に丸める。 -/
def roundAway (v : K) : ℤ := if v < 0 then ⌈v - 0.5⌉ else ⌊v + 0.5⌋

def worldToMap (g : Costmap2D K) (wx wy : K) : Option (Option MapLocation) :=
  if wx < g.originX ∨ wy < g.originY then some none
  else do
    let mx ← toInt (roundAway ((wx - g.originX) / g.resolution))
    let my ← toInt (roundAway ((wy - g.originY) / g.resolution))
    pure (if asUnsigned mx < g.sizeX ∧ asUnsigned my < g.sizeY then some ⟨asUnsigned mx, asUnsigned my⟩ else none)

omit [LinearOrder K] [FloorRing K] in
def mapToWorld (g : Costmap2D K) (mx my : K) : K × K :=
  (g.originX + mx * g.resolution, g.originY + my * g.resolution)

def clearRobotCell (g : Costmap2D K) (c : MapLocation) : Costmap2D K :=
  { g with costmap := g.costmap.set (g.getIndex c.x c.y) 0 }

/-- `makePlan` が計画に使う地図。始まりの点が地図の外であれば、内側の `none` である。 -/
def startMap (g : Costmap2D K) (wx wy : K) : Option (Option (Costmap2D K)) :=
  (worldToMap g wx wy).map fun r => r.map (clearRobotCell g)

/-- `getPointPotential` が返す値。`outside` は、地図の外の点に返す `double` の最大値である。 -/
def getPointPotential (g : Costmap2D K) (potarr : List K) (outside wx wy : K) : Option K :=
  (worldToMap g wx wy).bind fun r =>
    match r with
    | none => some outside
    | some c => potarr[wrap (c.y * g.sizeX + c.x)]?

/-- `createPlan` が、始まりと終わりが同じ点のときに調べる升目の費用。 -/
def startCost (g : Costmap2D K) (wx wy : K) : Option UInt8 :=
  (g.worldToMap wx wy).bind fun r => r.bind g.getCost

/-! ## 性質と条件 -/

/-- 計画に使う升目が、ロボットと目標のある升目である。 -/
structure Locates (g : Costmap2D K) (start goal : K × K) : Prop where
  start_agrees : worldToMap g start.1 start.2 = g.worldToMap start.1 start.2
  goal_agrees : worldToMap g goal.1 goal.2 = g.worldToMap goal.1 goal.2
  cleared : ∀ c, g.InCell c start.1 start.2 → startMap g start.1 start.2 = some (some (clearRobotCell g c))
  potential : ∀ potarr outside c, g.InCell c goal.1 goal.2 →
    getPointPotential g potarr outside goal.1 goal.2 = potarr[c.y * g.sizeX + c.x]?
  tested : ∀ c, g.InCell c start.1 start.2 → startCost g start.1 start.2 = g.getCost c

/-- 点は、軸の升目の手前の半分にある。 -/
def AxisLower (resolution origin w : K) : Prop :=
  Int.fract ((w - origin) / resolution) < 0.5 ∧ ⌊(w - origin) / resolution⌋ < 2147483648

def LowerHalf (g : Costmap2D K) (p : K × K) : Prop :=
  AxisLower g.resolution g.originX p.1 ∧ AxisLower g.resolution g.originY p.2

variable [IsStrictOrderedRing K]

/-! ## 一つの軸 -/

theorem floor_add_half_iff {v : K} : ⌊v + 0.5⌋ = ⌊v⌋ ↔ Int.fract v < 0.5 := by
  have hhalf : (0.5 : K) = 1 / 2 := by norm_num
  have hfract := Int.self_sub_floor v
  have hle := Int.floor_le v
  rw [Int.floor_eq_iff, hhalf]
  constructor
  · rintro ⟨-, hlt⟩
    linarith
  · intro hlt
    constructor
    · linarith
    · linarith

/-- 丸めた番号が升目の番号であるのは、点が升目の手前の半分にあるとき、そのときに限る。 -/
theorem axis_round_iff {resolution origin w : K} {i : ℕ} (hr : 0 < resolution) (h : AxisCell resolution origin i w) :
    toInt (roundAway ((w - origin) / resolution)) = some (i : ℤ) ↔ AxisLower resolution origin w := by
  have hfloor := (axisCell_iff hr).mp h
  have hround : roundAway ((w - origin) / resolution) = ⌊(w - origin) / resolution + 0.5⌋ :=
    if_neg (not_lt.mpr (cells_nonneg hr (axisCell_origin_le hr h)))
  rw [hround, toInt_eq_some, AxisLower, ← floor_add_half_iff, hfloor]
  constructor
  · rintro ⟨heq, -, hlt⟩
    exact ⟨heq, heq ▸ hlt⟩
  · rintro ⟨heq, hlt⟩
    rw [heq]
    exact ⟨rfl, by omega, hlt⟩

theorem asUnsigned_round {resolution origin w : K} {m : ℤ} (hr : 0 < resolution) (h : origin ≤ w)
    (hm : toInt (roundAway ((w - origin) / resolution)) = some m) : (asUnsigned m : ℤ) = m := by
  have hv := cells_nonneg hr h
  have hhalf : (0 : K) < 0.5 := by norm_num
  obtain ⟨heq, -, hlt⟩ := toInt_eq_some.mp hm
  have hnonneg : 0 ≤ m := by
    rw [← heq, roundAway, if_neg (not_lt.mpr hv)]
    exact Int.floor_nonneg.mpr (by linarith)
  rw [asUnsigned_of_nonneg hnonneg (by omega), Int.toNat_of_nonneg hnonneg]

/-! ## 点の升目 -/

variable {g : Costmap2D K} {wx wy : K} {c : MapLocation}

theorem costmap_worldToMap (hg : g.Valid) (h : g.InCell c wx wy) : g.worldToMap wx wy = some (some c) :=
  Costmap2D.worldToMap_of_inCell hg.resolution hg.sizeX.le hg.sizeY.le h

omit [FloorRing K] [IsStrictOrderedRing K] in
theorem asUnsigned_cell (hg : g.Valid) (hc : g.Contains c) : asUnsigned (c.x : ℤ) = c.x ∧ asUnsigned (c.y : ℤ) = c.y := by
  have hx := hc.1.trans hg.sizeX
  have hy := hc.2.trans hg.sizeY
  constructor
  · rw [asUnsigned_of_nonneg (Int.natCast_nonneg c.x) (by exact_mod_cast hx), Int.toNat_natCast]
  · rw [asUnsigned_of_nonneg (Int.natCast_nonneg c.y) (by exact_mod_cast hy), Int.toNat_natCast]

/-- 計画器の変換が点のある升目を返すのは、点が両方の軸で手前の半分にあるとき、そのときに限る。 -/
theorem worldToMap_eq_iff (hg : g.Valid) (h : g.InCell c wx wy) :
    worldToMap g wx wy = some (some c) ↔ LowerHalf g (wx, wy) := by
  have hr := hg.resolution
  obtain ⟨hc, hx, hy⟩ := h
  have hbefore : ¬ (wx < g.originX ∨ wy < g.originY) :=
    not_or.mpr ⟨not_lt.mpr (axisCell_origin_le hr hx), not_lt.mpr (axisCell_origin_le hr hy)⟩
  obtain ⟨hcx, hcy⟩ := asUnsigned_cell hg hc
  rw [LowerHalf, ← axis_round_iff hr hx, ← axis_round_iff hr hy, worldToMap, if_neg hbefore]
  constructor
  · intro hmap
    obtain ⟨mx, hmx, hmap⟩ := Option.bind_eq_some_iff.mp hmap
    obtain ⟨my, hmy, hmap⟩ := Option.bind_eq_some_iff.mp hmap
    have hinside := Option.some.inj hmap
    split_ifs at hinside
    cases Option.some.inj hinside
    rw [asUnsigned_round hr (axisCell_origin_le hr hx) hmx, asUnsigned_round hr (axisCell_origin_le hr hy) hmy]
    exact ⟨hmx, hmy⟩
  · rintro ⟨hmx, hmy⟩
    simp [hmx, hmy, hcx, hcy, hc.1, hc.2]

/-- 升目の角は、その升目にある。 -/
theorem axisCell_corner {resolution : K} (origin : K) (hr : 0 < resolution) (i : ℕ) (hlt : i < 2147483648) :
    AxisCell resolution origin i (origin + i * resolution) ∧ AxisLower resolution origin (origin + i * resolution) := by
  have hcells : (origin + i * resolution - origin) / resolution = (i : ℤ) := by
    rw [add_sub_cancel_left, mul_div_cancel_right₀ _ hr.ne', Int.cast_natCast]
  refine ⟨(axisCell_iff hr).mpr (by rw [hcells, Int.floor_intCast]), ?_⟩
  rw [AxisLower, hcells, Int.fract_intCast, Int.floor_intCast]
  exact ⟨by norm_num, by exact_mod_cast hlt⟩

/-- 計画器の二つの変換は、互いに逆である。 -/
theorem worldToMap_mapToWorld (hg : g.Valid) (hc : g.Contains c) (hx : c.x < 2147483648) (hy : c.y < 2147483648) :
    worldToMap g (mapToWorld g c.x c.y).1 (mapToWorld g c.x c.y).2 = some (some c) := by
  obtain ⟨hcellx, hlowx⟩ := axisCell_corner g.originX hg.resolution c.x hx
  obtain ⟨hcelly, hlowy⟩ := axisCell_corner g.originY hg.resolution c.y hy
  exact (worldToMap_eq_iff hg ⟨hc, hcellx, hcelly⟩).mpr ⟨hlowx, hlowy⟩

theorem locates_of_lowerHalf (hg : g.Valid) {start goal : K × K} {d : MapLocation}
    (hstart : g.InCell c start.1 start.2) (hgoal : g.InCell d goal.1 goal.2) (hs : LowerHalf g start)
    (hl : LowerHalf g goal) : Locates g start goal where
  start_agrees := by rw [(worldToMap_eq_iff hg hstart).mpr hs, costmap_worldToMap hg hstart]
  goal_agrees := by rw [(worldToMap_eq_iff hg hgoal).mpr hl, costmap_worldToMap hg hgoal]
  cleared c hc := by
    rw [startMap, (worldToMap_eq_iff hg hc).mpr hs]
    rfl
  potential potarr outside c hc := by
    have harea := (Lib.index_lt hc.1.1 hc.1.2).trans hg.area
    rw [getPointPotential, (worldToMap_eq_iff hg hc).mpr hl, Option.bind_some]
    dsimp only
    rw [wrap_of_lt harea]
  tested c hc := by
    rw [startCost, costmap_worldToMap hg hc]
    rfl

/-- 地図の中の始まりと終わりについて、計画に使う升目が正しいのは、どちらの点も升目の手前の半分にあるとき、そのときに限る。 -/
theorem locates_iff (g : Costmap2D K) (hg : g.Valid) (start goal : K × K) (hstart : ∃ c, g.InCell c start.1 start.2)
    (hgoal : ∃ d, g.InCell d goal.1 goal.2) : Locates g start goal ↔ LowerHalf g start ∧ LowerHalf g goal := by
  obtain ⟨c, hc⟩ := hstart
  obtain ⟨d, hd⟩ := hgoal
  constructor
  · intro h
    have hs := h.start_agrees
    have hl := h.goal_agrees
    rw [costmap_worldToMap hg hc] at hs
    rw [costmap_worldToMap hg hd] at hl
    exact ⟨(worldToMap_eq_iff hg hc).mp hs, (worldToMap_eq_iff hg hd).mp hl⟩
  · rintro ⟨hs, hl⟩
    exact locates_of_lowerHalf hg hc hd hs hl

-- 始まりも終わりも、升目の手前の半分にある。
theorem locates_iff_lower :
    tenByTen.Valid ∧ (∃ c, tenByTen.InCell c 2.25 3) ∧ (∃ d, tenByTen.InCell d 7 8.25) ∧
      LowerHalf tenByTen (2.25, 3) ∧ LowerHalf tenByTen (7, 8.25) ∧ Locates tenByTen (2.25, 3) (7, 8.25) := by
  have hstart : tenByTen.InCell ⟨2, 3⟩ 2.25 3 := by
    refine ⟨by decide, ?_, ?_⟩ <;> unfold AxisCell <;> decide +kernel
  have hgoal : tenByTen.InCell ⟨7, 8⟩ 7 8.25 := by
    refine ⟨by decide, ?_, ?_⟩ <;> unfold AxisCell <;> decide +kernel
  have hs : LowerHalf tenByTen (2.25, 3) := by
    constructor <;> unfold AxisLower <;> decide +kernel
  have hl : LowerHalf tenByTen (7, 8.25) := by
    constructor <;> unfold AxisLower <;> decide +kernel
  exact ⟨Costmap2D.valid_tenByTen, ⟨_, hstart⟩, ⟨_, hgoal⟩, hs, hl,
    (locates_iff tenByTen Costmap2D.valid_tenByTen (2.25, 3) (7, 8.25) ⟨_, hstart⟩ ⟨_, hgoal⟩).mpr ⟨hs, hl⟩⟩

-- 升目 2 の奥の半分にある点は、升目 3 になる。
theorem locates_fails :
    ¬ ∀ g : Costmap2D ℚ, g.Valid → ∀ start goal : ℚ × ℚ, (∃ c, g.InCell c start.1 start.2) →
      (∃ d, g.InCell d goal.1 goal.2) → Locates g start goal := by
  intro h
  have hstart : tenByTen.InCell ⟨2, 3⟩ 2.75 3 := by
    refine ⟨by decide, ?_, ?_⟩ <;> unfold AxisCell <;> decide +kernel
  have hagrees := (h tenByTen Costmap2D.valid_tenByTen (2.75, 3) (2.75, 3) ⟨_, hstart⟩ ⟨_, hstart⟩).start_agrees
  rw [costmap_worldToMap Costmap2D.valid_tenByTen hstart] at hagrees
  have hround : worldToMap tenByTen 2.75 3 = some (some ⟨3, 3⟩) := by decide +kernel
  rw [hround] at hagrees
  cases hagrees

end Ranger.Navfn
