import Mathlib.Data.EReal.Operations
import Ranger.Costmap.Coverage
import Ranger.Lib.Run

/-!
# 層を重ねた費用の地図

`LayeredCostmap::updateMap` を、`ObstacleLayer`（`Maximum` で重ね、足跡を消さない）と `InflationLayer` の二つの層について定める。
更新する窓は、障害物の層が報せた範囲を、膨張の層が前回の範囲と合わせて広げて決める。範囲は世界の座標で、`double` の両端は拡張実数の
両端で表す。
-/

namespace Ranger.Costmap
open Ranger.Lib

/-! ## 範囲と窓 -/

structure Bounds where
  minX : EReal
  minY : EReal
  maxX : EReal
  maxY : EReal

noncomputable def Bounds.empty : Bounds := ⟨⊤, ⊤, ⊥, ⊥⟩

noncomputable def Bounds.everything : Bounds := ⟨⊥, ⊥, ⊤, ⊤⟩

structure Setup where
  inflation : InflationLayer
  obstacleEnabled : Bool
  defaultValue : Nat
  originX : ℝ
  originY : ℝ

/-- 重ねた地図、障害物の層の地図、膨張の層が覚えている前回の範囲。 -/
structure Layered where
  combined : Costmap2D
  obstacle : Cell → Nat
  last : Bounds
  needReinflation : Bool

/-- `updateMap` の一回の呼び出し。`obstacle` と `bounds` は、障害物の層の `updateBounds` の後の地図と範囲である。 -/
structure Call where
  obstacle : Cell → Nat
  bounds : Bounds

/-- `worldToMapEnforceBounds` の一つの軸。 -/
noncomputable def worldToMapEnforceBounds (resolution origin : ℝ) (size : Nat) (wx : EReal) : Int :=
  if wx < origin then 0
  else if ((resolution * size + origin : ℝ) : EReal) < wx then size - 1
  else ⌊(wx.toReal - origin) / resolution⌋

def whole (g : Costmap2D) : Window := ⟨0, 0, g.sizeX, g.sizeY⟩

/-- 範囲に掛かる升目の窓。 -/
noncomputable def windowOf (p : Setup) (g : Costmap2D) (b : Bounds) : Window where
  minI := max 0 (worldToMapEnforceBounds p.inflation.resolution p.originX g.sizeX b.minX)
  minJ := max 0 (worldToMapEnforceBounds p.inflation.resolution p.originY g.sizeY b.minY)
  maxI := min g.sizeX (worldToMapEnforceBounds p.inflation.resolution p.originX g.sizeX b.maxX + 1)
  maxJ := min g.sizeY (worldToMapEnforceBounds p.inflation.resolution p.originY g.sizeY b.maxY + 1)

/-! ## 層の操作 -/

/-- `InflationLayer::updateBounds` が広げた範囲。 -/
noncomputable def inflateBounds (p : Setup) (s : Layered) (b : Bounds) : Bounds :=
  if s.needReinflation then Bounds.everything
  else
    { minX := min s.last.minX b.minX - (p.inflation.inflationRadius : EReal)
      minY := min s.last.minY b.minY - (p.inflation.inflationRadius : EReal)
      maxX := max s.last.maxX b.maxX + (p.inflation.inflationRadius : EReal)
      maxY := max s.last.maxY b.maxY + (p.inflation.inflationRadius : EReal) }

def resetMap (g : Costmap2D) (w : Window) (value : Nat) : Costmap2D :=
  { g with cost := fun c => if w.Contains c then value else g.cost c }

/-- `updateWithMax` が一つの升目に書く費用。 -/
def mergeMax (oldCost layerCost : Nat) : Nat :=
  if layerCost = noInformation then oldCost
  else if oldCost = noInformation ∨ oldCost < layerCost then layerCost else oldCost

def updateWithMax (enabled : Bool) (layer : Cell → Nat) (g : Costmap2D) (w : Window) : Costmap2D :=
  if enabled then { g with cost := fun c => if w.Contains c then mergeMax (g.cost c) (layer c) else g.cost c } else g

/-- 窓を初期の値に戻し、障害物の層を重ねた地図。 -/
def mergeLayers (p : Setup) (g : Costmap2D) (layer : Cell → Nat) (w : Window) : Costmap2D :=
  updateWithMax p.obstacleEnabled layer (resetMap g w p.defaultValue) w

/-- 窓を初期の値に戻し、二つの層の `updateCosts` を順に行う。 -/
noncomputable def updateWindow (p : Setup) (g : Costmap2D) (layer : Cell → Nat) (w : Window) : Option Costmap2D :=
  p.inflation.computeCaches.updateCosts (mergeLayers p g layer w) w

noncomputable def callWindow (p : Setup) (s : Layered) (call : Call) : Window :=
  windowOf p s.combined (inflateBounds p s call.bounds)

noncomputable def updateMap (p : Setup) (s : Layered) (call : Call) : Option Layered :=
  let w := callWindow p s call
  let s := { s with obstacle := call.obstacle, last := call.bounds, needReinflation := false }
  -- 範囲が空のとき、地図は変わらない。
  if w.maxI < w.minI ∨ w.maxJ < w.minJ then some s
  else (updateWindow p s.combined call.obstacle w).map fun g => { s with combined := g }

/-- 地図の全体を初期の値に戻し、二つの層を全体で行った地図。 -/
noncomputable def fullMap (p : Setup) (g : Costmap2D) (layer : Cell → Nat) : Option Costmap2D :=
  updateWindow p g layer (whole g)

end Ranger.Costmap
