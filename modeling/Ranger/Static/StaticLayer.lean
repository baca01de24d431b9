import Ranger.Static.Costmap2DPublisher

/-!
# 静的な層

`StaticLayer`。地図の全体を受け取ると、初めのものはすぐに、後のものは次の更新で取り込む。矩形は、届いたときに書く。値を縮める実数の
計算は関数 `scaled` として受け取る。
-/

namespace Ranger.Static
open Ranger.Grid Ranger.Lib

structure StaticLayer (K : Type*) where
  grid : Costmap2D K
  rolling : Bool
  sizeLocked : Bool
  master : MapInfo K
  x : ℕ
  y : ℕ
  width : ℕ
  height : ℕ
  mapFrame : String
  mapReceived : Bool
  mapReceivedInUpdateBounds : Bool
  hasUpdatedData : Bool
  current : Bool
  mapBuffer : Option (OccupancyGrid K)
  trackUnknownSpace : Bool
  trinaryCostmap : Bool
  unknownCostValue : UInt8
  lethalThreshold : UInt8

/-- `validateMsg`。座標と時刻は正しいものとする。 -/
def validateMsg {K : Type*} (m : OccupancyGrid K) : Bool :=
  m.frameId ≠ "" && m.info.height ≠ 0 && m.info.width ≠ 0 && m.data.length = wrap (m.info.width * m.info.height)

namespace StaticLayer

variable {K : Type*} (scaled : UInt8 → UInt8 → UInt8)

def interpretValue (l : StaticLayer K) (value : UInt8) : UInt8 :=
  if l.trackUnknownSpace && value = l.unknownCostValue then 255
  else if !l.trackUnknownSpace && value = l.unknownCostValue then 0
  else if l.lethalThreshold ≤ value then 254
  else if l.trinaryCostmap then 0
  else scaled value l.lethalThreshold

def info (g : Costmap2D K) : MapInfo K := ⟨g.sizeX, g.sizeY, g.resolution, g.originX, g.originY⟩

/-- `Costmap2D::resizeMap`。 -/
def resizeMap (g : Costmap2D K) (i : MapInfo K) : Costmap2D K where
  sizeX := i.width
  sizeY := i.height
  resolution := i.resolution
  originX := i.originX
  originY := i.originY
  costmap := List.replicate (wrap (i.width * i.height)) g.defaultValue
  defaultValue := g.defaultValue

/-- 受け取った地図に大きさを合わせる。転がる地図でなければ、層の全体の大きさも変える。 -/
def fit [DecidableEq K] (l : StaticLayer K) (i : MapInfo K) : StaticLayer K :=
  if !l.rolling && (l.master ≠ i || !l.sizeLocked) then
    { l with master := i, sizeLocked := true, grid := resizeMap l.grid i }
  else if info l.grid ≠ i then { l with grid := resizeMap l.grid i }
  else l

/-- 配列の外に触れるとき `none`。 -/
def processMap [DecidableEq K] (l : StaticLayer K) (m : OccupancyGrid K) : Option (StaticLayer K) :=
  let n := m.info.width * m.info.height
  let l := l.fit m.info
  if n ≤ m.data.length ∧ n ≤ l.grid.costmap.length then
    some { l with
      grid := { l.grid with costmap := (m.data.take n).map (l.interpretValue scaled) ++ l.grid.costmap.drop n }
      mapFrame := m.frameId
      x := 0
      y := 0
      width := l.grid.sizeX
      height := l.grid.sizeY
      hasUpdatedData := true
      current := true }
  else none

def incomingMap [DecidableEq K] (l : StaticLayer K) (m : OccupancyGrid K) : Option (StaticLayer K) :=
  if !validateMsg m then some l
  else if !l.mapReceived then (l.processMap scaled m).map fun l => { l with mapReceived := true }
  else some { l with mapBuffer := some m }

/-- 符号なしの和で範囲を調べ、行ごとに書く。 -/
def incomingUpdate (l : StaticLayer K) (m : OccupancyGridUpdate) : Option (StaticLayer K) :=
  if m.y < l.y ∨ wrap (l.y + l.height) < asUnsigned (m.y + m.height) ∨ m.x < l.x ∨
      wrap (l.x + l.width) < asUnsigned (m.x + m.width) then some l
  else if m.frameId ≠ l.mapFrame then some l
  else
    (Costmap2D.copyMapRegion (m.data.map (l.interpretValue scaled)) 0 0 m.width l.grid.costmap m.x.toNat m.y.toNat
      l.grid.sizeX m.width m.height).map fun costmap =>
        { l with grid := { l.grid with costmap := costmap }, hasUpdatedData := true }

/-- 届いている地図を取り込む。 -/
def loadBuffer [DecidableEq K] (l : StaticLayer K) : Option (StaticLayer K) :=
  match l.mapBuffer with
  | none => some l
  | some m => (l.processMap scaled m).map fun l => { l with mapBuffer := none }

/-- 広げる範囲の角。変わっていなければ広げない。 -/
def reportBounds [Field K] (l : StaticLayer K) : StaticLayer K × Option ((K × K) × K × K) :=
  if !l.rolling && !l.hasUpdatedData then (l, none)
  else
    ({ l with hasUpdatedData := false },
      some (l.grid.mapToWorld ⟨l.x, l.y⟩, l.grid.mapToWorld ⟨l.x + l.width, l.y + l.height⟩))

def updateBounds [DecidableEq K] [Field K] (l : StaticLayer K) : Option (StaticLayer K × Option ((K × K) × K × K)) :=
  if !l.mapReceived then some ({ l with mapReceivedInUpdateBounds := false }, none)
  else ({ l with mapReceivedInUpdateBounds := true }.loadBuffer scaled).map reportBounds

/-- `updateCosts` のうち、層自身を変える分。`footprint_clearing_enabled` が偽のとき、層の地図には書かない。 -/
def updateCosts (enabled : Bool) (l : StaticLayer K) : StaticLayer K :=
  if enabled && l.mapReceivedInUpdateBounds then { l with current := true } else l

end StaticLayer

end Ranger.Static
