import Ranger.Lib.Loop
import Ranger.Lib.Number

/-!
# 地図の保存と読み込み（`map_io.cpp`）

占有格子を画像と YAML に書く `tryWriteMapToFile` と、それらを読む `loadMapFromFile` を書く。画像のライブラリが返す明るさ `store` と、
YAML に書いて読んだ数 `emit` は引数である。ファイルの名前と画像の形式は省く。
-/

namespace Ranger.MapServer
open Ranger.Lib

/-! ## 占有格子、画像と引数 -/

inductive MapMode
  | trinary
  | scale
  | raw
  deriving DecidableEq, Repr

/-- 格子の大きさ、解像度と原点。向きは `yaw` で表す。 -/
structure MapInfo where
  width : Nat
  height : Nat
  resolution : ℚ
  originX : ℚ
  originY : ℚ
  yaw : ℚ

structure OccupancyGrid where
  info : MapInfo
  data : List Int
  size_eq : data.length = info.width * info.height

def occGridUnknown : Int := -1

def occGridFree : Int := 0

def occGridOccupied : Int := 100

/-- 画素。`shade` は `0` から `1` までの明るさである。 -/
structure Pixel where
  shade : ℚ
  transparent : Bool := false

structure Image where
  width : Nat
  height : Nat
  matte : Bool
  pixelColor : Nat → Nat → Pixel

structure SaveParameters where
  mode : MapMode
  freeThresh : ℚ
  occupiedThresh : ℚ

/-- YAML に書かれる引数。 -/
structure LoadParameters where
  mode : MapMode
  resolution : ℚ
  originX : ℚ
  originY : ℚ
  yaw : ℚ
  negate : Bool
  freeThresh : ℚ
  occupiedThresh : ℚ

/-- `std::rint`。 -/
def rint (q : ℚ) : Int := if q < 0 then -roundHalfEven (-q) else roundHalfEven q

/-! ## 保存 -/

/-- `checkSaveParameters` の、閾値の検査。`0` は指定のない閾値である。 -/
def checkSaveParameters (p : SaveParameters) : Except String SaveParameters :=
  let p := if p.occupiedThresh = 0 then { p with occupiedThresh := 13 / 20 } else p
  let p := if p.freeThresh = 0 then { p with freeThresh := 1 / 4 } else p
  if 1 < p.occupiedThresh then .error "Incorrect thresholds"
  else if p.freeThresh < 0 then .error "Incorrect thresholds"
  else if p.occupiedThresh ≤ p.freeThresh then .error "Incorrect thresholds"
  else .ok p

/-- 百分率に丸めた閾値 `free_thresh_int`。 -/
def SaveParameters.freeThreshInt (p : SaveParameters) : Int := rint (p.freeThresh * 100)

/-- 百分率に丸めた閾値 `occupied_thresh_int`。 -/
def SaveParameters.occupiedThreshInt (p : SaveParameters) : Int := rint (p.occupiedThresh * 100)

def savePixel (p : SaveParameters) (cell : Int) : Pixel :=
  match p.mode with
  | .trinary =>
    if cell < 0 ∨ 100 < cell then { shade := 205 / 255 }
    else if cell ≤ p.freeThreshInt then { shade := 254 / 255 }
    else if p.occupiedThreshInt ≤ cell then { shade := 0 / 255 }
    else { shade := 205 / 255 }
  | .scale => if cell < 0 ∨ 100 < cell then ⟨1 / 2, true⟩ else { shade := (100 - cell) / 100 }
  | .raw => if cell < 0 ∨ 100 < cell then { shade := 1 } else { shade := cell / 255 }

/-- 画像の升目 `(x, y)` に当たる `data` の添字。画像の行は上から数える。 -/
def cellIndex (width height x y : Nat) : Nat := width * (height - y - 1) + x

def tryWriteMapToFile (store emit : ℚ → ℚ) (p : SaveParameters) (map : OccupancyGrid) : Image × LoadParameters :=
  ({ width := map.info.width
     height := map.info.height
     matte := p.mode == .scale
     pixelColor x y :=
       let pixel := savePixel p ((map.data[cellIndex map.info.width map.info.height x y]?).getD 0)
       { pixel with shade := store pixel.shade } },
   { mode := p.mode
     resolution := emit map.info.resolution
     originX := emit map.info.originX
     originY := emit map.info.originY
     yaw := emit map.info.yaw
     negate := false
     freeThresh := emit p.freeThresh
     occupiedThresh := emit p.occupiedThresh })

/-! ## 読み込み -/

/-- 画素の明るさ。三値の画像では、不透明度も平均に入れる。 -/
def pixelShade (mode : MapMode) (matte : Bool) (pixel : Pixel) : ℚ :=
  let channels := [pixel.shade, pixel.shade, pixel.shade] ++
    if mode = .trinary ∧ matte then [if pixel.transparent then 0 else 1] else []
  channels.sum / channels.length

def loadCell (p : LoadParameters) (matte : Bool) (pixel : Pixel) : Int :=
  let shade := pixelShade p.mode matte pixel
  let occ := if p.negate then shade else 1 - shade
  match p.mode with
  | .trinary =>
    if p.occupiedThresh < occ then occGridOccupied else if occ < p.freeThresh then occGridFree else occGridUnknown
  | .scale =>
    if pixel.transparent then occGridUnknown
    else if p.occupiedThresh < occ then occGridOccupied
    else if occ < p.freeThresh then occGridFree
    else rint ((occ - p.freeThresh) / (p.occupiedThresh - p.freeThresh) * 100)
  | .raw =>
    let occPercent := ⌊shade * 255 + 1 / 2⌋
    if occGridFree ≤ occPercent ∧ occPercent ≤ occGridOccupied then occPercent else occGridUnknown

def pixels (width height : Nat) : List (Nat × Nat) :=
  (List.range height).flatMap fun y => (List.range width).map fun x => (x, y)

def loadMapFromFile (p : LoadParameters) (img : Image) : OccupancyGrid where
  info := ⟨img.width, img.height, p.resolution, p.originX, p.originY, p.yaw⟩
  data := writes (fun k => cellIndex img.width img.height k.1 k.2) (fun k => loadCell p img.matte (img.pixelColor k.1 k.2))
    (pixels img.width img.height) (List.replicate (img.width * img.height) 0)
  size_eq := by rw [length_writes, List.length_replicate]

/-- 保存して読み込んだ格子。 -/
def reload (store emit : ℚ → ℚ) (p : SaveParameters) (map : OccupancyGrid) : OccupancyGrid :=
  let (img, lp) := tryWriteMapToFile store emit p map
  loadMapFromFile lp img

end Ranger.MapServer
