import Ranger.Voxel.Theorems

/-!
# 立体の障害物の層

`VoxelLayer` の、立体の格子と費用の地図の書き換え。窓は動かず、範囲の報告は扱わない。座標は正確な算術の値である。
-/

namespace Ranger.Voxel
open Ranger.Lib Ranger.Grid

/-- 設定。`unknownThreshold` は、使わない高さの数を足す前の値である。高さの数は 16 まで、番号は `int` に収まり、升目の大きさは正で
ある。 -/
structure Settings where
  enabled : Bool
  trackUnknownSpace : Bool
  originX : ℝ
  originY : ℝ
  originZ : ℝ
  resolution : ℝ
  zResolution : ℝ
  sizeX : ℕ
  sizeY : ℕ
  sizeZ : ℕ
  maxObstacleHeight : ℝ
  unknownThreshold : ℕ
  markThreshold : ℕ
  height : sizeZ ≤ 16
  area : sizeX * sizeY < 2147483648
  resolution_pos : 0 < resolution
  zResolution_pos : 0 < zResolution

structure Vector where
  x : ℝ
  y : ℝ
  z : ℝ

/-- 観測。点は世界の座標である。 -/
structure Observation where
  origin : Vector
  cloud : List Vector
  obstacleMaxRange : ℝ
  obstacleMinRange : ℝ
  raytraceMaxRange : ℝ
  raytraceMinRange : ℝ

structure VoxelLayer where
  grid : VoxelGrid
  costmap : List UInt8

namespace Settings

variable (p : Settings)

def defaultValue : UInt8 := if p.trackUnknownSpace then 255 else 0

/-- `unknown_threshold_ += VOXEL_BITS - size_z_` の後の値。 -/
def unknownBitsThreshold : ℕ := p.unknownThreshold + (16 - p.sizeZ)

/-! ## 座標の変換 -/

noncomputable def worldToMap3DFloat (w : Vector) : Option Point :=
  if h : w.x < p.originX ∨ w.y < p.originY ∨ w.z < p.originZ then none
  else
    let v : Point :=
      { x := (w.x - p.originX) / p.resolution
        y := (w.y - p.originY) / p.resolution
        z := (w.z - p.originZ) / p.zResolution
        nonneg := by
          simp only [not_or, not_lt] at h
          exact ⟨div_nonneg (sub_nonneg.mpr h.1) p.resolution_pos.le,
            div_nonneg (sub_nonneg.mpr h.2.1) p.resolution_pos.le,
            div_nonneg (sub_nonneg.mpr h.2.2) p.zResolution_pos.le⟩ }
    if v.x < p.sizeX ∧ v.y < p.sizeY ∧ v.z < p.sizeZ then some v else none

noncomputable def worldToMap3D (w : Vector) : Option Location :=
  if w.x < p.originX ∨ w.y < p.originY ∨ w.z < p.originZ then none
  else
    let v : Location :=
      { x := ⌊(w.x - p.originX) / p.resolution⌋₊
        y := ⌊(w.y - p.originY) / p.resolution⌋₊
        z := ⌊(w.z - p.originZ) / p.zResolution⌋₊ }
    if v.x < p.sizeX ∧ v.y < p.sizeY ∧ v.z < p.sizeZ then some v else none

noncomputable def cellDistance (worldDist : ℝ) : ℕ := (max 0 ⌈worldDist / p.resolution⌉).toNat

/-! ## 観測の扱い -/

noncomputable def distanceSq (v w : Vector) : ℝ :=
  (w.x - v.x) * (w.x - v.x) + (w.y - v.y) * (w.y - v.y) + (w.z - v.z) * (w.z - v.z)

/-- 印を付ける升目。底より低い点は、底の高さの点として扱う。 -/
noncomputable def markedLocation (obs : Observation) (w : Vector) : Option Location :=
  if p.maxObstacleHeight < w.z then none
  else
    let sqDist := distanceSq obs.origin w
    if obs.obstacleMaxRange * obs.obstacleMaxRange ≤ sqDist then none
    else if sqDist < obs.obstacleMinRange * obs.obstacleMinRange then none
    else if w.z < p.originZ then p.worldToMap3D { w with z := p.originZ } else p.worldToMap3D w

/-- 一つの端までの比。動きのない軸では、比は無限大になり、点は地図に入らない。 -/
noncomputable def clip (beyond : Prop) [Decidable beyond] (stop origin delta : ℝ) (t : Option ℝ) : Option ℝ :=
  if beyond then if delta = 0 then none else t.map fun t => min t ((stop - origin) / delta) else t

/-- 消去の走査が終わる点。二升分だけ手前に縮め、地図の端で切り詰める。 -/
noncomputable def clearingEnd (o w : Vector) : Option Vector :=
  let distance := Real.sqrt (distanceSq o w)
  let scalingFact := max (min 1 ((distance - 2.0 * p.resolution) / distance)) 0
  let wpx := scalingFact * (w.x - o.x) + o.x
  let wpy := scalingFact * (w.y - o.y) + o.y
  let wpz := scalingFact * (w.z - o.z) + o.z
  let a := wpx - o.x
  let b := wpy - o.y
  let c := wpz - o.z
  let mapEndX := p.originX + (p.sizeX - 1 + 0.5) * p.resolution
  let mapEndY := p.originY + (p.sizeY - 1 + 0.5) * p.resolution
  let mapEndZ := p.originZ + (p.sizeZ - 1 + 0.5) * p.zResolution
  let t : ℝ :=
    if mapEndZ < wpz then max 0 (min 1 ((mapEndZ - 0.01 - o.z) / c))
    else if wpz < p.originZ then min 1 ((p.originZ - o.z) / c)
    else 1
  let t := clip (wpx < p.originX) p.originX o.x a (some t)
  let t := clip (wpy < p.originY) p.originY o.y b t
  let t := clip (mapEndX < wpx) mapEndX o.x a t
  let t := clip (mapEndY < wpy) mapEndY o.y b t
  t.map fun t => ⟨o.x + a * t, o.y + b * t, o.z + c * t⟩

/-- 消去の線分の両端。 -/
noncomputable def clearingLine (obs : Observation) (w : Vector) : Option (Point × Point) := do
  let sensor ← p.worldToMap3DFloat obs.origin
  let stop ← p.clearingEnd obs.origin w
  let point ← p.worldToMap3DFloat stop
  pure (sensor, point)

end Settings

/-! ## 層の動き -/

/-- `ClearVoxelInMap`。 -/
def clearVoxelInMap (unknownClearThreshold markedClearThreshold : ℕ) (freeCost unknownCost : UInt8)
    (layer : VoxelLayer) (c : Cursor) : VoxelLayer :=
  let grid := layer.grid.clear c.offset c.zMask
  let col := (grid.data[c.offset]?).getD 0
  if bitsBelowThreshold (markedBits col) markedClearThreshold then
    if bitsBelowThreshold (unknownBits col) unknownClearThreshold then
      { grid := grid, costmap := layer.costmap.set c.offset freeCost }
    else { grid := grid, costmap := layer.costmap.set c.offset unknownCost }
  else { grid := grid, costmap := layer.costmap }

noncomputable def clearVoxelLineInMap (layer : VoxelLayer) (v w : Point) (unknownThreshold markThreshold : ℕ)
    (freeCost unknownCost : UInt8) (maxLength minLength : ℕ) : VoxelLayer :=
  if layer.grid.Beyond v ∨ layer.grid.Beyond w then layer
  else (raytraceLine3D layer.grid.sizeX v w maxLength minLength).foldl
    (clearVoxelInMap unknownThreshold markThreshold freeCost unknownCost) layer

/-- 層に起こること。`footprint` は、足跡の升目を空きにする。 -/
inductive LayerEvent where
  | update (clearing marking : List Observation)
  | footprint (cells : List MapLocation)
  | reset

namespace Settings

variable (p : Settings)

def create : VoxelLayer where
  grid := .create p.sizeX p.sizeY p.sizeZ
  costmap := List.replicate (wrap (p.sizeX * p.sizeY)) p.defaultValue

def resetMaps (layer : VoxelLayer) : VoxelLayer where
  grid := layer.grid.reset
  costmap := List.replicate (wrap (p.sizeX * p.sizeY)) p.defaultValue

def getIndex (x y : ℕ) : ℕ := wrap (y * p.sizeX + x)

noncomputable def clearPoint (obs : Observation) (layer : VoxelLayer) (w : Vector) : VoxelLayer :=
  match p.clearingLine obs w with
  | none => layer
  | some (sensor, point) =>
      clearVoxelLineInMap layer sensor point p.unknownBitsThreshold p.markThreshold 0 255
        (p.cellDistance obs.raytraceMaxRange) (p.cellDistance obs.raytraceMinRange)

noncomputable def raytraceFreespace (layer : VoxelLayer) (obs : Observation) : VoxelLayer :=
  obs.cloud.foldl (p.clearPoint obs) layer

noncomputable def markPoint (obs : Observation) (layer : VoxelLayer) (w : Vector) : VoxelLayer :=
  match p.markedLocation obs w with
  | none => layer
  | some v =>
      let r := layer.grid.markVoxelInMap v p.markThreshold
      if r.2 then { grid := r.1, costmap := layer.costmap.set (p.getIndex v.x v.y) 254 }
      else { layer with grid := r.1 }

noncomputable def updateBounds (layer : VoxelLayer) (clearing marking : List Observation) : VoxelLayer :=
  if p.enabled then
    marking.foldl (fun layer obs => obs.cloud.foldl (p.markPoint obs) layer) (clearing.foldl p.raytraceFreespace layer)
  else layer

def clearFootprint (layer : VoxelLayer) (cells : List MapLocation) : VoxelLayer :=
  { layer with costmap := cells.foldl (fun costmap c => costmap.set (p.getIndex c.x c.y) 0) layer.costmap }

noncomputable def step (layer : VoxelLayer) : LayerEvent → VoxelLayer
  | .update clearing marking => p.updateBounds layer clearing marking
  | .footprint cells => p.clearFootprint layer cells
  | .reset => p.resetMaps layer

/-! ## 観測が空間に残すもの -/

def space : Space := .create p.sizeX p.sizeY p.sizeZ

noncomputable def observeFree (obs : Observation) (s : Space) (w : Vector) : Space :=
  match p.clearingLine obs w with
  | none => s
  | some (sensor, point) =>
      s.setAll (lineVoxels sensor point (p.cellDistance obs.raytraceMaxRange) (p.cellDistance obs.raytraceMinRange)) .free

noncomputable def observeMarked (obs : Observation) (s : Space) (w : Vector) : Space :=
  match p.markedLocation obs w with
  | none => s
  | some v => s.set v .marked

noncomputable def observe (s : Space) : LayerEvent → Space
  | .update clearing marking =>
      if p.enabled then
        marking.foldl (fun s obs => obs.cloud.foldl (p.observeMarked obs) s)
          (clearing.foldl (fun s obs => obs.cloud.foldl (p.observeFree obs) s) s)
      else s
  | .footprint _ => s
  | .reset => p.space

end Settings

/-! ## 数の変わり方 -/

namespace Space

variable {s : Space} {v : Location} {st st' : VoxelStatus} {x y : ℕ}

theorem set_status (hv : s.Contains v) : (s.set v st).status = Function.update s.status v st := if_pos hv

theorem count_set_of_ne (hxy : ¬ (x = v.x ∧ y = v.y)) : (s.set v st).count x y st' = s.count x y st' := by
  by_cases hv : s.Contains v
  · rw [count, count, set_status hv]
    have hne (z : ℕ) : (⟨x, y, z⟩ : Location) ≠ v :=
      fun heq => hxy ⟨congrArg Location.x heq, congrArg Location.y heq⟩
    simp only [Function.update_of_ne (hne _)]
    rfl
  · rw [set_of_not hv]

theorem le_count_set : s.count x y st ≤ (s.set v st).count x y st := by
  by_cases hv : s.Contains v
  · apply Finset.card_le_card
    intro z hz
    obtain ⟨hrange, hst⟩ := Finset.mem_filter.mp hz
    refine Finset.mem_filter.mpr ⟨hrange, ?_⟩
    rw [set_status hv]
    by_cases heq : (⟨x, y, z⟩ : Location) = v
    · rw [heq, Function.update_self]
    · rw [Function.update_of_ne heq, hst]
  · rw [set_of_not hv]

theorem count_set_le (hne : st ≠ st') : (s.set v st).count x y st' ≤ s.count x y st' := by
  by_cases hv : s.Contains v
  · apply Finset.card_le_card
    intro z hz
    obtain ⟨hrange, hst⟩ := Finset.mem_filter.mp hz
    refine Finset.mem_filter.mpr ⟨hrange, ?_⟩
    rw [set_status hv] at hst
    by_cases heq : (⟨x, y, z⟩ : Location) = v
    · rw [heq, Function.update_self] at hst
      exact absurd hst hne
    · rwa [Function.update_of_ne heq] at hst
  · rw [set_of_not hv]

end Space

/-! ## 費用と空間の対応 -/

/-- 一つの柱の費用。`exact` は、足跡の升目を空きにしていないことを表す。 -/
structure Settings.Cell (p : Settings) (exact : Prop) (s : Space) (x y : ℕ) (cost : UInt8) : Prop where
  lethal : cost = 254 → p.markThreshold < s.count x y .marked
  marked : exact → p.markThreshold < s.count x y .marked → cost = 254
  free : exact → p.trackUnknownSpace = true → cost = 0 → s.count x y .unknown ≤ p.unknownThreshold

/-- 層の格子は空間を表し、費用は柱の印の数に合う。 -/
structure Settings.Agrees (p : Settings) (exact : Prop) (layer : VoxelLayer) (s : Space) : Prop where
  shows : Shows layer.grid s
  sizeX : s.sizeX = p.sizeX
  sizeY : s.sizeY = p.sizeY
  sizeZ : s.sizeZ = p.sizeZ
  cells : ∀ x y, x < p.sizeX → y < p.sizeY →
    ∃ cost, layer.costmap[p.getIndex x y]? = some cost ∧ p.Cell exact s x y cost

section Agrees

variable {p : Settings} {exact : Prop} {layer : VoxelLayer} {s : Space} {v : Location} {st : VoxelStatus}

theorem Settings.Agrees.gridX (h : p.Agrees exact layer s) : layer.grid.sizeX = p.sizeX := h.shows.sizeX.trans h.sizeX

theorem Settings.Agrees.gridY (h : p.Agrees exact layer s) : layer.grid.sizeY = p.sizeY := h.shows.sizeY.trans h.sizeY

theorem Settings.Agrees.index (h : p.Agrees exact layer s) (x y : ℕ) : layer.grid.index x y = p.getIndex x y := by
  rw [VoxelGrid.index, Settings.getIndex, h.gridX]

/-- 一つの升目と、その柱の費用を書き換えた後。 -/
theorem Settings.Agrees.touch (h : p.Agrees exact layer s) (hv : s.Contains v) {grid : VoxelGrid}
    (hshows : Shows grid (s.set v st)) (cost : Option UInt8)
    (hcell : ∀ c, p.Cell exact s v.x v.y c → p.Cell exact (s.set v st) v.x v.y (cost.getD c)) :
    p.Agrees exact { grid := grid, costmap := match cost with
      | none => layer.costmap
      | some c => layer.costmap.set (p.getIndex v.x v.y) c } (s.set v st) := by
  have hvx : v.x < p.sizeX := h.sizeX ▸ hv.1
  have hvy : v.y < p.sizeY := h.sizeY ▸ hv.2.1
  refine ⟨hshows, h.sizeX, h.sizeY, h.sizeZ, fun x y hx hy => ?_⟩
  obtain ⟨old, hold, hcellOld⟩ := h.cells x y hx hy
  by_cases hxy : x = v.x ∧ y = v.y
  · obtain ⟨rfl, rfl⟩ := hxy
    refine ⟨cost.getD old, ?_, hcell old hcellOld⟩
    cases cost with
    | none => exact hold
    | some c =>
        have hlt := (List.getElem?_eq_some_iff.mp hold).1
        simp [hlt]
  · have hne : p.getIndex v.x v.y ≠ p.getIndex x y := by
      rw [← h.index, ← h.index]
      intro heq
      rw [← h.gridX] at hx hvx
      rw [← h.gridY] at hy hvy
      exact hxy (h.shows.valid.index_inj hx hy hvx hvy heq.symm)
    refine ⟨old, ?_, ?_⟩
    · cases cost with
      | none => exact hold
      | some c => simp [List.getElem?_set_ne hne, hold]
    · exact ⟨by rw [Space.count_set_of_ne hxy]; exact hcellOld.lethal,
        by rw [Space.count_set_of_ne hxy]; exact hcellOld.marked,
        by rw [Space.count_set_of_ne hxy]; exact hcellOld.free⟩

/-- 消去の一つの升目。 -/
theorem Settings.Agrees.clearVoxelInMap (h : p.Agrees exact layer s) (hv : s.Contains v) :
    p.Agrees exact (clearVoxelInMap p.unknownBitsThreshold p.markThreshold 0 255 layer (cursor p.sizeX v))
      (s.set v .free) := by
  obtain ⟨hvx, hvy, -⟩ := h.shows.contains_iff.mpr hv
  have hcursor : cursor p.sizeX v = ⟨p.getIndex v.x v.y, fullMask v.z⟩ := by
    rw [cursor, ← h.index, (h.shows.valid.index hvx hvy).1, h.gridX]
  have hclear := h.shows.clear hv
  rw [h.index] at hclear
  have hcol : ((layer.grid.clear (p.getIndex v.x v.y) (fullMask v.z)).data[p.getIndex v.x v.y]?).getD 0 =
      (layer.grid.clear (p.getIndex v.x v.y) (fullMask v.z)).col v.x v.y := by
    rw [← h.index]
    rfl
  have hmarked := hclear.card_marked (x := v.x) (y := v.y) hvx hvy
  have hunknown := hclear.card_unknown (x := v.x) (y := v.y) hvx hvy
  have hfewer : (s.set v .free).count v.x v.y .marked ≤ s.count v.x v.y .marked := Space.count_set_le (by decide)
  have hless : (s.set v .free).count v.x v.y .unknown ≤ s.count v.x v.y .unknown := Space.count_set_le (by decide)
  have hheight : (s.set v .free).sizeZ = p.sizeZ := h.sizeZ
  rw [Voxel.clearVoxelInMap, hcursor]
  simp only [hcol, bitsBelowThreshold_eq, hmarked, hunknown, decide_eq_true_eq]
  split_ifs with hfew hknown
  · apply h.touch hv hclear (some 0)
    intro c hc
    rw [hheight, Settings.unknownBitsThreshold] at hknown
    refine ⟨fun hcost => absurd hcost (by simp), fun _ hmany => absurd hfew (by omega), fun _ _ _ => by omega⟩
  · apply h.touch hv hclear (some 255)
    intro c hc
    refine ⟨fun hcost => absurd hcost (by simp), fun _ hmany => absurd hfew (by omega),
      fun _ _ hcost => absurd hcost (by simp)⟩
  · apply h.touch hv hclear none
    intro c hc
    refine ⟨fun _ => by omega, fun hexact _ => hc.marked hexact (by omega), fun hexact htrack hcost => ?_⟩
    have hfree := hc.free hexact htrack hcost
    omega

/-- 印を付ける一つの升目。 -/
theorem Settings.Agrees.markPoint (h : p.Agrees exact layer s) (obs : Observation) (w : Vector) :
    p.Agrees exact (p.markPoint obs layer w) (p.observeMarked obs s w) := by
  rw [Settings.markPoint, Settings.observeMarked]
  cases p.markedLocation obs w with
  | none => exact h
  | some v =>
      obtain ⟨hmark, hreached⟩ := h.shows.markVoxelInMap v p.markThreshold
      simp only [hreached, decide_eq_true_eq]
      by_cases hv : s.Contains v
      · have hmore : s.count v.x v.y .marked ≤ (s.set v .marked).count v.x v.y .marked := Space.le_count_set
        have hless : (s.set v .marked).count v.x v.y .unknown ≤ s.count v.x v.y .unknown :=
          Space.count_set_le (by decide)
        split_ifs with hmany
        · apply h.touch hv hmark (some 254)
          intro c hc
          exact ⟨fun _ => hmany.2, fun _ _ => rfl, fun _ _ hcost => absurd hcost (by simp)⟩
        · apply h.touch hv hmark none
          intro c hc
          have hfew : ¬ p.markThreshold < (s.set v .marked).count v.x v.y .marked := fun hlt => hmany ⟨hv, hlt⟩
          refine ⟨fun hcost => absurd (hc.lethal hcost) (by omega), fun _ hlt => absurd hlt hfew,
            fun hexact htrack hcost => ?_⟩
          have hfree := hc.free hexact htrack hcost
          exact hless.trans hfree
      · rw [if_neg fun hin => hv hin.1]
        have hgrid : (layer.grid.markVoxelInMap v p.markThreshold).1 = layer.grid := by
          rw [VoxelGrid.markVoxelInMap, if_neg (mt h.shows.contains_iff.mp hv)]
        rw [hgrid, Space.set_of_not hv]
        exact h

theorem Settings.worldToMap3DFloat_inside {w : Vector} {v : Point} (h : p.worldToMap3DFloat w = some v) :
    v.x < p.sizeX ∧ v.y < p.sizeY ∧ v.z < p.sizeZ := by
  unfold Settings.worldToMap3DFloat at h
  split_ifs at h
  obtain ⟨hin, heq⟩ := Option.ite_none_right_eq_some.mp h
  cases heq
  exact hin

theorem Settings.inside_of_clearingLine {obs : Observation} {w : Vector} {v u : Point}
    (h : p.clearingLine obs w = some (v, u)) :
    (v.x < p.sizeX ∧ v.y < p.sizeY ∧ v.z < p.sizeZ) ∧ u.x < p.sizeX ∧ u.y < p.sizeY ∧ u.z < p.sizeZ := by
  obtain ⟨sensor, hsensor, h⟩ := Option.bind_eq_some_iff.mp h
  obtain ⟨stop, -, h⟩ := Option.bind_eq_some_iff.mp h
  obtain ⟨point, hpoint, h⟩ := Option.bind_eq_some_iff.mp h
  cases h
  exact ⟨worldToMap3DFloat_inside hsensor, worldToMap3DFloat_inside hpoint⟩

/-- 消去の一つの点。 -/
theorem Settings.Agrees.clearPoint (h : p.Agrees exact layer s) (obs : Observation) (w : Vector) :
    p.Agrees exact (p.clearPoint obs layer w) (p.observeFree obs s w) := by
  rw [Settings.clearPoint, Settings.observeFree]
  cases hline : p.clearingLine obs w with
  | none => exact h
  | some ends =>
      obtain ⟨sensor, point⟩ := ends
      have hinside := inside_of_clearingLine hline
      have hbeyond (v : Point) (hv : v.x < p.sizeX ∧ v.y < p.sizeY ∧ v.z < p.sizeZ) : ¬ layer.grid.Beyond v := by
        rw [VoxelGrid.Beyond, h.gridX, h.gridY, h.shows.sizeZ, h.sizeZ, not_or, not_or, not_le, not_le, not_le]
        exact hv
      have hp := hbeyond sensor hinside.1
      have hq := hbeyond point hinside.2
      simp only [clearVoxelLineInMap, if_neg (not_or.mpr ⟨hp, hq⟩)]
      rw [raytraceLine3D_eq h.shows.valid hp hq, h.gridX, List.foldl_map, Space.setAll]
      have hvoxels (v : Location) (hv : v ∈ lineVoxels sensor point (p.cellDistance obs.raytraceMaxRange)
          (p.cellDistance obs.raytraceMinRange)) : layer.grid.Contains v := lineVoxels_inside hp hq hv
      have hcontains : ∀ v ∈ lineVoxels sensor point (p.cellDistance obs.raytraceMaxRange)
          (p.cellDistance obs.raytraceMinRange), v.x < p.sizeX ∧ v.y < p.sizeY ∧ v.z < p.sizeZ := by
        intro v hv
        have hin := hvoxels v hv
        rwa [VoxelGrid.Contains, h.gridX, h.gridY, h.shows.sizeZ, h.sizeZ] at hin
      apply List.foldl_rel h
      intro v hv layer s h
      apply h.clearVoxelInMap
      rw [Space.Contains, h.sizeX, h.sizeY, h.sizeZ]
      exact hcontains v hv

/-- 初めの費用。 -/
theorem Settings.agrees_fresh (p : Settings) (exact : Prop) {grid : VoxelGrid} (h : Shows grid p.space) :
    p.Agrees exact { grid := grid, costmap := List.replicate (wrap (p.sizeX * p.sizeY)) p.defaultValue } p.space := by
  have harea := p.area
  refine ⟨h, rfl, rfl, Nat.min_eq_left p.height, fun x y hx hy => ⟨p.defaultValue, ?_, ?_⟩⟩
  · have hlt := index_lt hx hy
    have hindex : p.getIndex x y = y * p.sizeX + x := wrap_of_lt (by omega)
    rw [hindex, List.getElem?_replicate, wrap_of_lt (by omega), if_pos hlt]
  · have hmarked : p.space.count x y .marked = 0 := by simp [Settings.space, Space.create, Space.count]
    refine ⟨fun hcost => ?_, fun _ hlt => by omega, fun _ htrack hcost => ?_⟩
    · rw [Settings.defaultValue] at hcost
      split_ifs at hcost
      · exact absurd hcost (by decide)
      · exact absurd hcost (by decide)
    · rw [Settings.defaultValue, if_pos htrack] at hcost
      cases hcost

theorem Settings.Agrees.resetMaps (h : p.Agrees exact layer s) : p.Agrees exact (p.resetMaps layer) p.space := by
  have hreset := h.shows.reset
  rw [h.sizeX, h.sizeY, h.sizeZ] at hreset
  exact p.agrees_fresh exact hreset

theorem clearFootprint_cell (cells : List MapLocation) {costmap : List UInt8} {k : ℕ} {old : UInt8}
    (hold : costmap[k]? = some old) :
    ∃ cost, (cells.foldl (fun costmap c => costmap.set (p.getIndex c.x c.y) 0) costmap)[k]? = some cost ∧
      (cost = old ∨ cost = 0) := by
  induction cells generalizing costmap old with
  | nil => exact ⟨old, hold, Or.inl rfl⟩
  | cons c cells ih =>
      by_cases hk : p.getIndex c.x c.y = k
      · have hnext : (costmap.set (p.getIndex c.x c.y) 0)[k]? = some 0 := by
          have hlt := (List.getElem?_eq_some_iff.mp hold).1
          simp [hk, hlt]
        obtain ⟨cost, hcost, hvalue⟩ := ih hnext
        exact ⟨cost, hcost, Or.inr (hvalue.elim id id)⟩
      · exact ih ((List.getElem?_set_ne hk).trans hold)

/-- 足跡の升目を空きにしても、致命的な費用の升目には印がある。 -/
theorem Settings.Agrees.clearFootprint (h : p.Agrees False layer s) (cells : List MapLocation) :
    p.Agrees False (p.clearFootprint layer cells) s := by
  refine ⟨h.shows, h.sizeX, h.sizeY, h.sizeZ, fun x y hx hy => ?_⟩
  obtain ⟨old, hold, hcell⟩ := h.cells x y hx hy
  obtain ⟨cost, hcost, hvalue⟩ := clearFootprint_cell cells hold
  refine ⟨cost, hcost, fun hlethal => ?_, False.elim, False.elim⟩
  rcases hvalue with rfl | rfl
  · exact hcell.lethal hlethal
  · cases hlethal

theorem Settings.Agrees.step (h : p.Agrees exact layer s) (e : LayerEvent)
    (hexact : exact → ∀ cells, e ≠ .footprint cells) : p.Agrees exact (p.step layer e) (p.observe s e) := by
  cases e with
  | update clearing marking =>
      simp only [Settings.step, Settings.updateBounds, Settings.observe]
      split_ifs
      · apply List.foldl_rel
        · apply List.foldl_rel h
          intro obs _ layer s h
          exact List.foldl_rel h fun w _ _ _ h => h.clearPoint obs w
        · intro obs _ layer s h
          exact List.foldl_rel h fun w _ _ _ h => h.markPoint obs w
      · exact h
  | footprint cells =>
      have hno : exact = False := propext ⟨fun he => hexact he cells rfl, False.elim⟩
      subst hno
      exact h.clearFootprint cells
  | reset => exact h.resetMaps

end Agrees

/-- どの出来事の列でも、格子は観測の通りの状態を表し、致命的な費用の升目の柱には閾値を超える数の印がある。足跡を空きにしない列では、
逆も成り立ち、未知を扱う地図で空きの費用の升目の柱には、閾値を超える数の未知の升目はない。 -/
theorem voxelLayer_run (p : Settings) (events : List LayerEvent) :
    (∀ v, (events.foldl p.step p.create).grid.getVoxel v = (events.foldl p.observe p.space).status v) ∧
      ∀ x y, x < p.sizeX → y < p.sizeY → ∃ cost, (events.foldl p.step p.create).costmap[p.getIndex x y]? = some cost ∧
        (cost = 254 → p.markThreshold < (events.foldl p.observe p.space).count x y .marked) ∧
        ((∀ cells, .footprint cells ∉ events) →
          (p.markThreshold < (events.foldl p.observe p.space).count x y .marked → cost = 254) ∧
            (p.trackUnknownSpace = true → cost = 0 →
              (events.foldl p.observe p.space).count x y .unknown ≤ p.unknownThreshold)) := by
  have hrun : p.Agrees (∀ cells, .footprint cells ∉ events) (events.foldl p.step p.create)
      (events.foldl p.observe p.space) := by
    apply List.foldl_rel (p.agrees_fresh _ (shows_create p.sizeZ p.area))
    intro e he layer s h
    exact h.step e fun hexact cells heq => hexact cells (heq ▸ he)
  refine ⟨fun v => hrun.shows.getVoxel v, fun x y hx hy => ?_⟩
  obtain ⟨cost, hcost, hcell⟩ := hrun.cells x y hx hy
  exact ⟨cost, hcost, hcell.lethal, fun hexact => ⟨hcell.marked hexact, hcell.free hexact⟩⟩

end Ranger.Voxel
