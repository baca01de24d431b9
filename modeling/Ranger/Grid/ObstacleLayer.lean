import Ranger.Costmap.Layered
import Ranger.Grid.Raytrace

/-!
# 障害物の層

`ObstacleLayer::updateBounds` と、それが呼ぶ `raytraceFreespace`、`updateRaytraceBounds`、`updateFootprint`。升目を書き換え、書き換えた
ところを含むように範囲を広げる。座標は実数とし、`int` と `unsigned int` への変換と、升目の番号の差は、範囲を限らない整数で計算する。
-/

namespace Ranger.Grid
open Ranger.Costmap (Bounds Window)

/-- 観測。点は世界の座標である。 -/
structure Observation where
  originX : ℝ
  originY : ℝ
  cloud : List (ℝ × ℝ × ℝ)
  obstacleMaxRange : ℝ
  obstacleMinRange : ℝ
  raytraceMaxRange : ℝ
  raytraceMinRange : ℝ

structure ObstacleLayer where
  enabled : Bool
  minObstacleHeight : ℝ
  maxObstacleHeight : ℝ
  extraBounds : Option Bounds
  footprintClearingEnabled : Bool

noncomputable def touch (b : Bounds) (p : ℝ × ℝ) : Bounds where
  minX := min (p.1 : EReal) b.minX
  minY := min (p.2 : EReal) b.minY
  maxX := max (p.1 : EReal) b.maxX
  maxY := max (p.2 : EReal) b.maxY

noncomputable def useExtraBounds (extra : Option Bounds) (b : Bounds) : Bounds :=
  match extra with
  | none => b
  | some e => ⟨min e.minX b.minX, min e.minY b.minY, max e.maxX b.maxX, max e.maxY b.maxY⟩

/-- `updateRaytraceBounds` が範囲に加える点。長さが 0 のときは、縮尺によらず原点である。 -/
noncomputable def raytracePoint (ox oy wx wy maxRange minRange : ℝ) : Option (ℝ × ℝ) :=
  let dx := wx - ox
  let dy := wy - oy
  let fullDistance := hypot dx dy
  if fullDistance < minRange then none
  else
    let scale := min 1 (maxRange / fullDistance)
    some (ox + dx * scale, oy + dy * scale)

noncomputable def updateRaytraceBounds (ox oy wx wy maxRange minRange : ℝ) (b : Bounds) : Bounds :=
  match raytracePoint ox oy wx wy maxRange minRange with
  | none => b
  | some p => touch b p

namespace Costmap2D

variable (g : Costmap2D ℝ)

/-- 正確な算術での `worldToMap`。`unsigned int` に収まらない番号は、地図の外とみなす。 -/
noncomputable def cellOf (wx wy : ℝ) : Option MapLocation := (g.worldToMap wx wy).getD none

/-- `unsigned int` の範囲を限らない、実数の商の切り上げ。 -/
noncomputable def cellDistance (worldDist : ℝ) : ℕ := (max 0 ⌈worldDist / g.resolution⌉).toNat

/-- 地図の端で切り詰めた、線の終わりの点。 -/
noncomputable def clipRay (ox oy wx wy : ℝ) : ℝ × ℝ :=
  let mapEndX := g.originX + g.sizeX * g.resolution
  let mapEndY := g.originY + g.sizeY * g.resolution
  let a := wx - ox
  let b := wy - oy
  let p := if wx < g.originX then (g.originX, oy + b * ((g.originX - ox) / a)) else (wx, wy)
  let p := if p.2 < g.originY then (ox + a * ((g.originY - oy) / b), g.originY) else p
  let p := if mapEndX < p.1 then (mapEndX - 0.001, oy + b * ((mapEndX - ox) / a)) else p
  if mapEndY < p.2 then (ox + a * ((mapEndY - oy) / b), mapEndY - 0.001) else p

/-- `MarkCell`。 -/
def markCells (value : UInt8) (cells : List UInt8) (offsets : List ℕ) : List UInt8 :=
  offsets.foldl (fun cells offset => cells.set offset value) cells

/-- `raytraceFreespace` の一つの点。 -/
noncomputable def traceRay (obs : Observation) (start : MapLocation) (s : List UInt8 × Bounds)
    (point : ℝ × ℝ × ℝ) : List UInt8 × Bounds :=
  let w := g.clipRay obs.originX obs.originY point.1 point.2.1
  match g.cellOf w.1 w.2 with
  | none => s
  | some stop =>
      (markCells 0 s.1 (raytraceLine id g.sizeX start.x start.y stop.x stop.y (g.cellDistance obs.raytraceMaxRange)
          (g.cellDistance obs.raytraceMinRange)),
        updateRaytraceBounds obs.originX obs.originY w.1 w.2 obs.raytraceMaxRange obs.raytraceMinRange s.2)

noncomputable def raytraceFreespace (s : List UInt8 × Bounds) (obs : Observation) : List UInt8 × Bounds :=
  match g.cellOf obs.originX obs.originY with
  | none => s
  | some start => obs.cloud.foldl (g.traceRay obs start) (s.1, touch s.2 (obs.originX, obs.originY))

noncomputable def obstacleCell (layer : ObstacleLayer) (obs : Observation) (start : MapLocation)
    (point : ℝ × ℝ × ℝ) : Option MapLocation :=
  if point.2.2 < layer.minObstacleHeight then none
  else if layer.maxObstacleHeight < point.2.2 then none
  else
    match g.cellOf point.1 point.2.1 with
    | none => none
    | some c =>
        let dist := ⌊hypot ((c.x : ℝ) - start.x) ((c.y : ℝ) - start.y)⌋₊
        if g.cellDistance obs.obstacleMaxRange < dist then none
        else if dist < g.cellDistance obs.obstacleMinRange then none
        else some c

noncomputable def markPoint (layer : ObstacleLayer) (obs : Observation) (start : MapLocation)
    (s : List UInt8 × Bounds) (point : ℝ × ℝ × ℝ) : List UInt8 × Bounds :=
  match g.obstacleCell layer obs start point with
  | none => s
  | some c => (s.1.set (g.getIndex c.x c.y) 254, touch s.2 (point.1, point.2.1))

noncomputable def markObservation (layer : ObstacleLayer) (s : List UInt8 × Bounds) (obs : Observation) :
    List UInt8 × Bounds :=
  match g.cellOf obs.originX obs.originY with
  | none => s
  | some start => obs.cloud.foldl (g.markPoint layer obs start) s

/-- `updateBounds`。観測と、足跡の角を受け取る。 -/
noncomputable def updateBounds (layer : ObstacleLayer) (clearing marking : List Observation)
    (transformedFootprint : List (ℝ × ℝ)) (b : Bounds) : Costmap2D ℝ × Bounds :=
  if layer.enabled then
    let s := clearing.foldl g.raytraceFreespace (g.costmap, useExtraBounds layer.extraBounds b)
    let s := marking.foldl (g.markObservation layer) s
    ({ g with costmap := s.1 }, if layer.footprintClearingEnabled then transformedFootprint.foldl touch s.2 else s.2)
  else (g, b)

/-- `LayeredCostmap::updateMap` が範囲から決める窓。`int` の範囲を限らない。 -/
noncomputable def boundsWindow (b : Bounds) : Window where
  minI := max 0 (Costmap.worldToMapEnforceBounds g.resolution g.originX g.sizeX b.minX)
  minJ := max 0 (Costmap.worldToMapEnforceBounds g.resolution g.originY g.sizeY b.minY)
  maxI := min g.sizeX (Costmap.worldToMapEnforceBounds g.resolution g.originX g.sizeX b.maxX + 1)
  maxJ := min g.sizeY (Costmap.worldToMapEnforceBounds g.resolution g.originY g.sizeY b.maxY + 1)

/-! ## 書き換える升目と、範囲に加える点 -/

noncomputable def rayWrites (obs : Observation) (start : MapLocation) (point : ℝ × ℝ × ℝ) : List (ℕ × UInt8) :=
  let w := g.clipRay obs.originX obs.originY point.1 point.2.1
  match g.cellOf w.1 w.2 with
  | none => []
  | some stop =>
      (raytraceLine id g.sizeX start.x start.y stop.x stop.y (g.cellDistance obs.raytraceMaxRange)
        (g.cellDistance obs.raytraceMinRange)).map fun offset => (offset, 0)

noncomputable def rayTouches (obs : Observation) (point : ℝ × ℝ × ℝ) : List (ℝ × ℝ) :=
  let w := g.clipRay obs.originX obs.originY point.1 point.2.1
  match g.cellOf w.1 w.2 with
  | none => []
  | some _ => (raytracePoint obs.originX obs.originY w.1 w.2 obs.raytraceMaxRange obs.raytraceMinRange).toList

noncomputable def clearWrites (obs : Observation) : List (ℕ × UInt8) :=
  match g.cellOf obs.originX obs.originY with
  | none => []
  | some start => obs.cloud.flatMap (g.rayWrites obs start)

noncomputable def clearTouches (obs : Observation) : List (ℝ × ℝ) :=
  match g.cellOf obs.originX obs.originY with
  | none => []
  | some _ => (obs.originX, obs.originY) :: obs.cloud.flatMap (g.rayTouches obs)

noncomputable def pointWrites (layer : ObstacleLayer) (obs : Observation) (start : MapLocation)
    (point : ℝ × ℝ × ℝ) : List (ℕ × UInt8) :=
  match g.obstacleCell layer obs start point with
  | none => []
  | some c => [(g.getIndex c.x c.y, 254)]

noncomputable def pointTouches (layer : ObstacleLayer) (obs : Observation) (start : MapLocation)
    (point : ℝ × ℝ × ℝ) : List (ℝ × ℝ) :=
  match g.obstacleCell layer obs start point with
  | none => []
  | some _ => [(point.1, point.2.1)]

noncomputable def markWrites (layer : ObstacleLayer) (obs : Observation) : List (ℕ × UInt8) :=
  match g.cellOf obs.originX obs.originY with
  | none => []
  | some start => obs.cloud.flatMap (g.pointWrites layer obs start)

noncomputable def markTouches (layer : ObstacleLayer) (obs : Observation) : List (ℝ × ℝ) :=
  match g.cellOf obs.originX obs.originY with
  | none => []
  | some start => obs.cloud.flatMap (g.pointTouches layer obs start)

noncomputable def writtenCells (layer : ObstacleLayer) (clearing marking : List Observation) : List (ℕ × UInt8) :=
  clearing.flatMap g.clearWrites ++ marking.flatMap (g.markWrites layer)

noncomputable def touchedPoints (layer : ObstacleLayer) (clearing marking : List Observation)
    (transformedFootprint : List (ℝ × ℝ)) : List (ℝ × ℝ) :=
  clearing.flatMap g.clearTouches ++ marking.flatMap (g.markTouches layer) ++
    if layer.footprintClearingEnabled then transformedFootprint else []

end Costmap2D

def put (cells : List UInt8) (w : ℕ × UInt8) : List UInt8 := cells.set w.1 w.2

/-- 一つの要素の効果を列の効果として述べた畳み込みの、全体の効果。 -/
theorem foldl_effects {σ τ γ α β : Type*} {step : σ × τ → γ → σ × τ} {p : σ → α → σ} {q : τ → β → τ} {f : γ → List α}
    {h : γ → List β} (hstep : ∀ s x, step s x = ((f x).foldl p s.1, (h x).foldl q s.2)) (l : List γ) (s : σ × τ) :
    l.foldl step s = ((l.flatMap f).foldl p s.1, (l.flatMap h).foldl q s.2) := by
  induction l generalizing s with
  | nil => rfl
  | cons x l ih => rw [List.foldl_cons, hstep, ih, List.flatMap_cons, List.flatMap_cons, List.foldl_append,
      List.foldl_append]

theorem length_foldl_put (ws : List (ℕ × UInt8)) (cells : List UInt8) : (ws.foldl put cells).length = cells.length := by
  induction ws generalizing cells with
  | nil => rfl
  | cons w ws ih => rw [List.foldl_cons, ih, put, List.length_set]

theorem foldl_put_of_not_mem {ws : List (ℕ × UInt8)} {i : ℕ} (h : ∀ w ∈ ws, w.1 ≠ i) (cells : List UInt8) :
    (ws.foldl put cells)[i]? = cells[i]? := by
  induction ws generalizing cells with
  | nil => rfl
  | cons w ws ih =>
      rw [List.foldl_cons, ih fun v hv => h v (List.mem_cons_of_mem w hv), put,
        List.getElem?_set_ne (h w List.mem_cons_self)]

/-- 書いた升目には、そこに書いた値のどれかが残る。 -/
theorem foldl_put_of_mem {ws : List (ℕ × UInt8)} {cells : List UInt8} {w : ℕ × UInt8} (hw : w ∈ ws)
    (hlt : w.1 < cells.length) : ∃ v, (w.1, v) ∈ ws ∧ (ws.foldl put cells)[w.1]? = some v := by
  induction ws using List.reverseRecOn with
  | nil => exact absurd hw List.not_mem_nil
  | append_singleton ws l ih =>
      rw [List.foldl_concat, put]
      have hlt' : w.1 < (ws.foldl put cells).length := by
        rw [length_foldl_put]
        exact hlt
      by_cases hl : l.1 = w.1
      · rw [hl, List.getElem?_set_self hlt']
        exact ⟨l.2, List.mem_append_right ws (by rw [← hl]; exact List.mem_singleton.mpr rfl), rfl⟩
      · rw [List.getElem?_set_ne hl]
        rcases List.mem_append.mp hw with hw | hw
        · obtain ⟨v, hv, hget⟩ := ih hw
          exact ⟨v, List.mem_append_left _ hv, hget⟩
        · exact absurd (List.mem_singleton.mp hw ▸ rfl) hl

namespace Costmap2D

variable (g : Costmap2D ℝ) {layer : ObstacleLayer} {obs : Observation} {start : MapLocation}

theorem markCells_eq (value : UInt8) (cells : List UInt8) (offsets : List ℕ) :
    markCells value cells offsets = (offsets.map fun offset => (offset, value)).foldl put cells := by
  rw [markCells, List.foldl_map]
  rfl

theorem traceRay_eq (s : List UInt8 × Bounds) (point : ℝ × ℝ × ℝ) :
    g.traceRay obs start s point =
      ((g.rayWrites obs start point).foldl put s.1, (g.rayTouches obs point).foldl touch s.2) := by
  unfold traceRay rayWrites rayTouches
  dsimp only
  cases g.cellOf (g.clipRay obs.originX obs.originY point.1 point.2.1).1
      (g.clipRay obs.originX obs.originY point.1 point.2.1).2 with
  | none => rfl
  | some stop =>
      dsimp only
      rw [markCells_eq, updateRaytraceBounds]
      cases raytracePoint obs.originX obs.originY (g.clipRay obs.originX obs.originY point.1 point.2.1).1
          (g.clipRay obs.originX obs.originY point.1 point.2.1).2 obs.raytraceMaxRange obs.raytraceMinRange with
      | none => rfl
      | some p => rfl

theorem raytraceFreespace_eq (s : List UInt8 × Bounds) (obs : Observation) :
    g.raytraceFreespace s obs = ((g.clearWrites obs).foldl put s.1, (g.clearTouches obs).foldl touch s.2) := by
  unfold raytraceFreespace clearWrites clearTouches
  cases g.cellOf obs.originX obs.originY with
  | none => rfl
  | some start => exact foldl_effects g.traceRay_eq obs.cloud _

theorem markPoint_eq (s : List UInt8 × Bounds) (point : ℝ × ℝ × ℝ) :
    g.markPoint layer obs start s point =
      ((g.pointWrites layer obs start point).foldl put s.1, (g.pointTouches layer obs start point).foldl touch s.2) := by
  unfold markPoint pointWrites pointTouches
  cases g.obstacleCell layer obs start point with
  | none => rfl
  | some c => rfl

theorem markObservation_eq (s : List UInt8 × Bounds) (obs : Observation) :
    g.markObservation layer s obs =
      ((g.markWrites layer obs).foldl put s.1, (g.markTouches layer obs).foldl touch s.2) := by
  unfold markObservation markWrites markTouches
  cases g.cellOf obs.originX obs.originY with
  | none => rfl
  | some start => exact foldl_effects g.markPoint_eq obs.cloud s

theorem updateBounds_eq (henabled : layer.enabled = true) (clearing marking : List Observation)
    (transformedFootprint : List (ℝ × ℝ)) (b : Bounds) :
    g.updateBounds layer clearing marking transformedFootprint b =
      ({ g with costmap := (g.writtenCells layer clearing marking).foldl put g.costmap },
        (g.touchedPoints layer clearing marking transformedFootprint).foldl touch
          (useExtraBounds layer.extraBounds b)) := by
  unfold updateBounds writtenCells touchedPoints
  rw [if_pos henabled, foldl_effects g.raytraceFreespace_eq]
  dsimp only
  rw [foldl_effects g.markObservation_eq, List.foldl_append, List.foldl_append, List.foldl_append]
  split_ifs
  · rfl
  · rfl

end Costmap2D

end Ranger.Grid
