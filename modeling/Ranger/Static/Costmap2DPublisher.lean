import Ranger.Grid.Costmap2D

/-!
# 地図の配信

`Costmap2DPublisher`。地図の全体か、変わった矩形を、占有の値に訳して送る。`float` への丸めは関数 `narrow` として受け取る。
-/

namespace Ranger.Static
open Ranger.Grid Ranger.Lib

-- 数字 `2` が、どのモジュールでも同じ項になるように、名前のついたインスタンスにする。
local instance atLeastTwo : Nat.AtLeastTwo 2 := ⟨Nat.le_refl 2⟩

structure MapInfo (K : Type*) where
  width : ℕ
  height : ℕ
  resolution : K
  originX : K
  originY : K
  deriving DecidableEq

structure OccupancyGrid (K : Type*) where
  frameId : String
  info : MapInfo K
  data : List UInt8

structure OccupancyGridUpdate where
  frameId : String
  x : ℤ
  y : ℤ
  width : ℕ
  height : ℕ
  data : List UInt8

inductive Message (K : Type*) where
  | grid (m : OccupancyGrid K)
  | update (m : OccupancyGridUpdate)

/-- `cost_translation_table_`。-1 は 255 と読まれる。 -/
def costTranslation (cost : UInt8) : UInt8 :=
  if cost = 0 then 0
  else if cost = 253 then 99
  else if cost = 254 then 100
  else if cost = 255 then 255
  else UInt8.ofNat (1 + 97 * (cost.toNat - 1) / 251)

/-- 変わった矩形。 -/
structure Window where
  x0 : ℕ
  xn : ℕ
  y0 : ℕ
  yn : ℕ
  x_le : x0 ≤ xn
  y_le : y0 ≤ yn

def Window.Contains (w : Window) (c : MapLocation) : Prop := (w.x0 ≤ c.x ∧ c.x < w.xn) ∧ w.y0 ≤ c.y ∧ c.y < w.yn

structure Costmap2DPublisher (K : Type*) where
  globalFrame : String
  x0 : ℕ
  xn : ℕ
  y0 : ℕ
  yn : ℕ
  savedOriginX : K
  savedOriginY : K
  alwaysSendFullCostmap : Bool
  gridResolution : K
  gridWidth : ℕ
  gridHeight : ℕ

namespace Costmap2DPublisher

variable {K : Type*} (narrow : K → K)

def updateBounds (p : Costmap2DPublisher K) (w : Window) : Costmap2DPublisher K :=
  { p with x0 := min w.x0 p.x0, xn := max w.xn p.xn, y0 := min w.y0 p.y0, yn := max w.yn p.yn }

/-- 前に全体を送ったときと、大きさと場所が同じである。 -/
def unchanged [DecidableEq K] (p : Costmap2DPublisher K) (g : Costmap2D K) : Bool :=
  p.gridResolution = narrow g.resolution && p.gridWidth = g.sizeX && p.gridHeight = g.sizeY &&
    p.savedOriginX = g.originX && p.savedOriginY = g.originY

def prepareGrid [Field K] (p : Costmap2DPublisher K) (g : Costmap2D K) : OccupancyGrid K where
  frameId := p.globalFrame
  info :=
    { width := g.sizeX
      height := g.sizeY
      resolution := narrow g.resolution
      originX := (g.mapToWorld ⟨0, 0⟩).1 - narrow g.resolution / 2
      originY := (g.mapToWorld ⟨0, 0⟩).2 - narrow g.resolution / 2 }
  data := (g.costmap.take (wrap (g.sizeX * g.sizeY))).map costTranslation

def save (p : Costmap2DPublisher K) (g : Costmap2D K) : Costmap2DPublisher K :=
  { p with
    gridResolution := narrow g.resolution
    gridWidth := g.sizeX
    gridHeight := g.sizeY
    savedOriginX := g.originX
    savedOriginY := g.originY }

/-- 矩形の値を、行ごとに並べる。配列の外に触れるとき `none`。 -/
def prepareUpdate (p : Costmap2DPublisher K) (g : Costmap2D K) : Option OccupancyGridUpdate :=
  let width := p.xn - p.x0
  let height := p.yn - p.y0
  (Costmap2D.copyMapRegion (g.costmap.map costTranslation) p.x0 p.y0 g.sizeX (List.replicate (wrap (width * height)) 0) 0 0
    width width height).map fun data => ⟨p.globalFrame, p.x0, p.y0, width, height, data⟩

def clearBounds (p : Costmap2DPublisher K) (g : Costmap2D K) : Costmap2DPublisher K :=
  { p with xn := 0, yn := 0, x0 := g.sizeX, y0 := g.sizeY }

/-- `publishCostmap` の送るもの。全体と矩形の受け手が、それぞれいるかどうかを受け取る。 -/
def publishCostmap [DecidableEq K] [Field K] (p : Costmap2DPublisher K) (g : Costmap2D K) (gridListens updateListens : Bool) :
    Option (Costmap2DPublisher K × Option (Message K)) :=
  if p.alwaysSendFullCostmap || !p.unchanged narrow g then
    if gridListens then some ((p.save narrow g).clearBounds g, some (.grid (p.prepareGrid narrow g)))
    else some (p.clearBounds g, none)
  else if p.x0 < p.xn && updateListens then (p.prepareUpdate g).map fun m => (p.clearBounds g, some (.update m))
  else some (p.clearBounds g, none)

end Costmap2DPublisher

end Ranger.Static
