import Mathlib.Analysis.SpecialFunctions.Trigonometric.Basic
import Ranger.Lib.Lines
import Ranger.Lib.Number

/-!
# 経由点のファイル

`WaypointRunner` と `DoosanWaypointFollow` の `loadCSV` を書く。二つは、使われない行番号を除いて同じである。ファイルは文字の並びで、
一文字が一バイトを表す。空の行、短い行、数に読めない行は、飛ばされる。
-/

namespace Ranger.Waypoint
open Ranger.Lib

structure CsvRow where
  x : Number
  y : Number
  yaw : Number
  deriving DecidableEq

/-! ## 行 -/

/-- 一行の読み取り。`none` は `continue` である。 -/
def parseLine (line : List Char) : Option CsvRow :=
  if line = [] then none
  else do
    let (sx, ss) ← getline ',' line
    let (sy, ss) ← getline ',' ss
    let syaw :=
      match getline ',' ss with
      | some (syaw, _) => syaw
      | none => "0.0".toList
    let x ← stod sx
    let y ← stod sy
    let yaw ← stod syaw
    some { x, y, yaw }

def readWaypoints (content : List Char) : List CsvRow := (getlines '\n' content).filterMap parseLine

/-! ## 姿勢 -/

noncomputable section

/-- `PoseStamped` の、0 でない成分。回転の成分の `none` は、非数である。 -/
structure PoseStamped where
  frameId : String
  positionX : Number
  positionY : Number
  orientationZ : Option ℝ
  orientationW : Option ℝ

/-- 角度の半分の三角関数の値。無限大と非数では、非数である。 -/
def halfAngle (f : ℝ → ℝ) : Number → Option ℝ
  | .finite yaw => some (f (yaw * 0.5))
  | _ => none

def CsvRow.pose (w : CsvRow) : PoseStamped where
  frameId := "map"
  positionX := w.x
  positionY := w.y
  orientationZ := halfAngle Real.sin w.yaw
  orientationW := halfAngle Real.cos w.yaw

/-- `loadCSV`。`file` は、開けないとき `none` である。 -/
def loadCSV (path : String) (file : Option (List Char)) : Except String (List PoseStamped) :=
  match file with
  | none => .error ("cannot open file: " ++ path)
  | some content => .ok ((readWaypoints content).map CsvRow.pose)

end

/-! ## 追記 -/

/-- 改行で終わる内容に続けると、経由点も続く。 -/
theorem readWaypoints_append {content : List Char} (h : content = [] ∨ content.getLast? = some '\n')
    (more : List Char) : readWaypoints (content ++ more) = readWaypoints content ++ readWaypoints more := by
  rw [readWaypoints, getlines_append h, List.filterMap_append]
  rfl

theorem readWaypoints_line {line : List Char} (h : '\n' ∉ line) {w : CsvRow} (hw : parseLine line = some w)
    (more : List Char) : readWaypoints (line ++ '\n' :: more) = w :: readWaypoints more := by
  rw [readWaypoints, getlines_line h, List.filterMap_cons_some hw]
  rfl

/-- 三つの欄の行は、それぞれの欄の数を読む。 -/
theorem parseLine_fields {sx sy syaw : List Char} (hsx : ',' ∉ sx) (hsy : ',' ∉ sy) (hsyaw : ',' ∉ syaw)
    (hne : syaw ≠ []) {x y yaw : Number} (hx : stod sx = some x) (hy : stod sy = some y)
    (hyaw : stod syaw = some yaw) : parseLine (sx ++ ',' :: (sy ++ ',' :: syaw)) = some ⟨x, y, yaw⟩ := by
  have hline : sx ++ ',' :: (sy ++ ',' :: syaw) ≠ [] := by simp
  rw [parseLine, if_neg hline, getline_line hsx]
  simp only [Option.bind_eq_bind, Option.bind_some, getline_line hsy, getline_last hsyaw hne, hx, hy, hyaw]

end Ranger.Waypoint
