import Mathlib.Analysis.SpecialFunctions.Complex.Arg
import Ranger.Lib.Records
import Ranger.Scan.Merger

/-!
# 点群と公開するメッセージ

点群のバイト列から点を読み、範囲の中の点を二つのメッセージに加える `appendFilteredPoints` と、`publishMessages` の後半を書く。
距離と向きは実数で表し、`float` への丸めは引数 `r` である。時刻と座標系の名前は、`Merge` の側にある。
-/

namespace Ranger.Scan
open Ranger.Lib

noncomputable section

/-! ## `float` の値 -/

/-- 有限の `float`。符号、仮数、指数からなり、負のゼロを区別する。 -/
structure Single where
  signbit : Bool
  significand : ℕ
  exponent : ℤ

def Single.value (f : Single) : ℝ :=
  let magnitude := f.significand * (2.0 : ℝ) ^ f.exponent
  if f.signbit then -magnitude else magnitude

/-- 四つのバイトの表す `float`。無限大と非数では `none`。 -/
def decodeFloat : List UInt8 → Option Single
  | [b0, b1, b2, b3] =>
      let negative : Bool := 128 ≤ b3.toNat
      let exponent := b3.toNat % 128 * 2 + b2.toNat / 128
      let mantissa := b2.toNat % 128 * 65536 + b1.toNat * 256 + b0.toNat
      if exponent = 255 then none
      else if exponent = 0 then some ⟨negative, mantissa, -149⟩
      else some ⟨negative, 8388608 + mantissa, exponent - 150⟩
  | _ => none

def atan2 (y x : Single) : ℝ :=
  if y.significand = 0 then
    if x.signbit then if y.signbit then -Real.pi else Real.pi else 0
  else Complex.arg ⟨x.value, y.value⟩

/-! ## 点 -/

/-- 点の `x` と `y` のバイト列。 -/
@[ext] structure Words where
  x : List UInt8
  y : List UInt8

structure Point where
  x : Single
  y : Single

def Words.point (w : Words) : Option Point :=
  (decodeFloat w.x).bind fun x => (decodeFloat w.y).map fun y => ⟨x, y⟩

def Point.range (q : Point) : ℝ := √(q.x.value ^ 2 + q.y.value ^ 2)

def Point.direction (q : Point) : ℝ := atan2 q.y q.x

/-! ## 点群 -/

structure PointField where
  name : String
  offset : ℕ

structure PointCloud2 where
  height : ℕ
  width : ℕ
  fields : List PointField
  pointStep : ℕ
  rowStep : ℕ
  data : List UInt8

/-- 記録の長さと、その中の `x` と `y` の位置。 -/
structure Layout where
  pointStep : ℕ
  x : ℕ
  y : ℕ

def Layout.words (l : Layout) (data : List UInt8) (i : ℕ) : Words where
  x := (data.drop (i * l.pointStep + l.x)).take 4
  y := (data.drop (i * l.pointStep + l.y)).take 4

namespace PointCloud2

variable (c : PointCloud2)

def numberOfPoints : ℕ := c.height * c.width

/-- 欄の位置。欄がないと反復子は例外を投げるが、`LaserCloud` には欄がある。 -/
def fieldOffset (name : String) : ℕ := ((c.fields.find? fun f => f.name = name).map PointField.offset).getD 0

def layout : Layout := ⟨c.pointStep, c.fieldOffset "x", c.fieldOffset "y"⟩

/-- 反復子 `iter_x` と `iter_y` の読む、`i` 番目の点。 -/
def words (i : ℕ) : Words := c.layout.words c.data i

def record (i : ℕ) : List UInt8 := block c.pointStep c.data i

end PointCloud2

/-- `projectLaser` と `doTransform` の作る点群。一行で、`x` と `y` の欄が記録に収まり、点の数だけの記録がある。 -/
structure LaserCloud extends PointCloud2 where
  height_eq : height = 1
  has_x : ∃ f ∈ fields, f.name = "x"
  has_y : ∃ f ∈ fields, f.name = "y"
  x_fits : toPointCloud2.fieldOffset "x" + 4 ≤ pointStep
  y_fits : toPointCloud2.fieldOffset "y" + 4 ≤ pointStep
  size_eq : data.length = height * width * pointStep

/-! ## 引数 -/

structure OutputParams where
  publishScan : Bool := false
  publishPcl : Bool := true
  rangesNum : ℕ := 1000
  minScannerRange : ℝ := 0.05
  maxScannerRange : ℝ := 10.0
  minXRange : ℝ := -10.0
  maxXRange : ℝ := 10.0
  minYRange : ℝ := -10.0
  maxYRange : ℝ := 10.0
  filterRobotBody : Bool := false
  bodyMinX : ℝ := -0.5
  bodyMaxX : ℝ := 0.5
  bodyMinY : ℝ := -0.35
  bodyMaxY : ℝ := 0.35

/-! ## 点の追加 -/

variable (p : OutputParams) (r : WithTop ℝ → WithTop ℝ)

def InsideOutputBounds (pointX pointY range : ℝ) : Prop :=
  pointX > p.minXRange ∧ pointX < p.maxXRange ∧ pointY > p.minYRange ∧ pointY < p.maxYRange ∧
    range > p.minScannerRange ∧ range < p.maxScannerRange

def InsideRobotBody (pointX pointY : ℝ) : Prop :=
  pointX > p.bodyMinX ∧ pointX < p.bodyMaxX ∧ pointY > p.bodyMinY ∧ pointY < p.bodyMaxY

def PointPassesFilters (pointX pointY range : ℝ) : Prop :=
  InsideOutputBounds p pointX pointY range ∧ (p.filterRobotBody = true → ¬ InsideRobotBody p pointX pointY)

/-- 向き `angle` の点の番号。`num` は `ranges_num`、`size` は `ranges` の長さである。 -/
def sectorIndex (num size : ℕ) (angle : ℝ) : ℕ :=
  let idx := ⌊num * (angle + Real.pi) / (2.0 * Real.pi)⌋₊
  if idx ≥ size then size - 1 else idx

/-- `ranges` への距離の書き込み。`ranges` の値は、初めの無限大か丸めた距離で、非数にはならない。 -/
def recordRange (q : Point) (ranges : List (WithTop ℝ)) : List (WithTop ℝ) :=
  let idx := sectorIndex p.rangesNum ranges.length q.direction
  match ranges[idx]? with
  | none => ranges
  | some stored => if (q.range : WithTop ℝ) < stored then ranges.set idx (r q.range) else ranges

/-- `appendFilteredPoints` の二つの出力。`none` は `nullptr` である。 -/
structure Outputs where
  ranges : Option (List (WithTop ℝ))
  filteredPoints : Option (List UInt8)

open Classical in
/-- 一つの点の追加。無限大や非数は、どの範囲にも入らない。 -/
def appendPoint (input : PointCloud2) (out : Outputs) (i : ℕ) : Outputs :=
  match (input.words i).point with
  | none => out
  | some q =>
      if PointPassesFilters p q.x.value q.y.value q.range then
        { ranges := out.ranges.map (recordRange p r q)
          filteredPoints := out.filteredPoints.map fun points => points ++ input.record i }
      else out

def appendFilteredPoints (input : PointCloud2) (out : Outputs) : Outputs :=
  (List.range input.numberOfPoints).foldl (appendPoint p r input) out

section Append

variable {p r} {input : PointCloud2} {i : ℕ}

def Point.Passes (p : OutputParams) (q : Point) : Prop := PointPassesFilters p q.x.value q.y.value q.range

/-- `i` 番目の点は、範囲に入る。 -/
def PointCloud2.PassesAt (p : OutputParams) (c : PointCloud2) (i : ℕ) : Prop :=
  ∃ q, (c.words i).point = some q ∧ q.Passes p

theorem appendPoint_of_passes {q : Point} (hq : (input.words i).point = some q) (hpass : q.Passes p) (out : Outputs) :
    appendPoint p r input out i =
      { ranges := out.ranges.map (recordRange p r q)
        filteredPoints := out.filteredPoints.map fun points => points ++ input.record i } := by
  simp only [appendPoint, hq]
  exact if_pos hpass

theorem appendPoint_of_not (hpass : ¬ input.PassesAt p i) (out : Outputs) : appendPoint p r input out i = out := by
  unfold appendPoint
  cases hq : (input.words i).point with
  | none => rfl
  | some q => exact if_neg fun h => hpass ⟨q, hq, h⟩

end Append

/-! ## 公開 -/

/-- 片側の点群を、`ranges` と `merged_points` に加える。 -/
def appendPart (part : Option LaserCloud) (out : List (WithTop ℝ) × List UInt8) : List (WithTop ℝ) × List UInt8 :=
  match part with
  | none => out
  | some cloud =>
      let o := appendFilteredPoints p r cloud.toPointCloud2
        ⟨if p.publishScan then some out.1 else none, if p.publishPcl then some out.2 else none⟩
      (o.ranges.getD out.1, o.filteredPoints.getD out.2)

/-- `publishMessages` の `ranges` と `merged_points`。 -/
def collect (part : Side → Option LaserCloud) : List (WithTop ℝ) × List UInt8 :=
  appendPart p r (part .rear) (appendPart p r (part .front) (List.replicate p.rangesNum ⊤, []))

structure LaserScan where
  angleMin : ℝ
  angleMax : ℝ
  angleIncrement : ℝ
  timeIncrement : ℝ
  scanTime : ℝ
  rangeMin : ℝ
  rangeMax : ℝ
  ranges : List (WithTop ℝ)

def scanMsg (part : Side → Option LaserCloud) : Option LaserScan :=
  if p.publishScan then
    some
      { angleMin := -Real.pi
        angleMax := Real.pi
        angleIncrement := 2.0 * Real.pi / (p.rangesNum - 1)
        timeIncrement := 0.0
        scanTime := 0.1
        rangeMin := p.minScannerRange
        rangeMax := p.maxScannerRange
        ranges := (collect p r part).1 }
  else none

/-- 公開する点群の欄の元になる点群。両側とも加えないことはない。 -/
def pclHeader (part : Side → Option LaserCloud) : PointCloud2 :=
  match part .front, part .rear with
  | some front, _ => front.toPointCloud2
  | none, some rear => rear.toPointCloud2
  | none, none => ⟨0, 0, [], 0, 0, []⟩

def pclMsg (part : Side → Option LaserCloud) : Option PointCloud2 :=
  if p.publishPcl then
    let pcl := pclHeader part
    let mergedPoints := (collect p r part).2
    let width := mergedPoints.length / pcl.pointStep
    some { pcl with height := 1, width, rowStep := width * pcl.pointStep, data := mergedPoints }
  else none

end

end Ranger.Scan
