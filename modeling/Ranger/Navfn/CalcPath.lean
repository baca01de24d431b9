import Ranger.Grid.Raytrace
import Ranger.Navfn.NavFn
import Ranger.Navfn.WorldToMap

/-!
# 経路の抽出

`NavFn::calcPath` と `gradCell`。配列の外を読むとき `none` である。
-/

namespace Ranger.Navfn
open Ranger.Grid

/-- 歩みの状態。`stc` は今の升目の番号で、`dx` と `dy` は升目からのずれである。 -/
structure Walk where
  stc : ℤ
  dx : ℝ
  dy : ℝ
  path : List (ℝ × ℝ)
  gradx : ℕ → ℝ
  grady : ℕ → ℝ

/-- 一回の繰り返しの結果。`stop` は、書いた点の列と、返す長さを持つ。 -/
inductive Outcome
  | move (w : Walk)
  | stop (path : List (ℝ × ℝ)) (length : ℕ)

noncomputable def pathStep : ℝ := 0.5

/-- `int` への変換。範囲の外の値は `INT_MIN` になる。 -/
noncomputable def intOf (v : ℝ) : ℤ := (toInt (truncate v)).getD (-2147483648)

/-- 一つの軸のずれが升目の大きさを超えるとき、番号を `step` だけ移す。 -/
noncomputable def wrapAxis (step stc : ℤ) (d : ℝ) : ℤ × ℝ :=
  let (stc, d) := if 1 < d then (stc + step, d - 1) else (stc, d)
  if d < -1 then (stc - step, d + 1) else (stc, d)

namespace NavFn

def read (s : NavFn ℝ) (a : ℕ → ℝ) (i : ℤ) : Option ℝ :=
  if 0 ≤ i ∧ i < s.ns then some (a i.toNat) else none

/-! ## 傾き -/

/-- 障害物の升目の、一つの軸の傾き。 -/
noncomputable def obstacleSlope (s : NavFn ℝ) (before after : ℤ) : Option ℝ := do
  if (← s.read s.potarr before) < potHigh then pure (-(costObs.toNat : ℝ))
  else if (← s.read s.potarr after) < potHigh then pure (costObs.toNat : ℝ)
  else pure 0

/-- 障害物でない升目の、一つの軸の傾き。 -/
noncomputable def openSlope (s : NavFn ℝ) (cv : ℝ) (before after : ℤ) : Option ℝ := do
  let p ← s.read s.potarr before
  let q ← s.read s.potarr after
  pure ((if p < potHigh then p - cv else 0) + if q < potHigh then cv - q else 0)

noncomputable def gradCell (s : NavFn ℝ) (n : ℤ) (w : Walk) : Option Walk := do
  let gx ← s.read w.gradx n
  let gy ← s.read w.grady n
  if 0 < gx + gy ∨ n < s.nx ∨ (s.ns : ℤ) - s.nx < n then pure w
  else do
    let cv ← s.read s.potarr n
    let dx ← if potHigh ≤ cv then s.obstacleSlope (n - 1) (n + 1) else s.openSlope cv (n - 1) (n + 1)
    let dy ← if potHigh ≤ cv then s.obstacleSlope (n - s.nx) (n + s.nx) else s.openSlope cv (n - s.nx) (n + s.nx)
    let norm := hypot dx dy
    if 0 < norm then
      pure { w with
        gradx := Function.update w.gradx n.toNat (1 / norm * dx)
        grady := Function.update w.grady n.toNat (1 / norm * dy) }
    else pure w

/-! ## 歩み -/

noncomputable def nearestPoint (s : NavFn ℝ) (w : Walk) : ℤ :=
  max 0 (min ((s.nx : ℤ) * s.ny - 1) (w.stc + roundAway w.dx + s.nx * roundAway w.dy))

/-- 値を調べる九つの升目。 -/
def checked (s : NavFn ℝ) (stc : ℤ) : List ℤ :=
  let stcnx := stc + s.nx
  let stcpx := stc - s.nx
  [stc, stc + 1, stc - 1, stcnx, stcnx + 1, stcnx - 1, stcpx, stcpx + 1, stcpx - 1]

/-- どれかの升目の値が `POT_HIGH` 以上か。見つかれば、残りは読まない。 -/
noncomputable def anyHigh (s : NavFn ℝ) : List ℤ → Option Bool
  | [] => some false
  | i :: is => do if potHigh ≤ (← s.read s.potarr i) then pure true else s.anyHigh is

/-- 最も低い値を探す、八つの隣の升目。 -/
def eightNeighbors (s : NavFn ℝ) (stc : ℤ) : List ℤ :=
  let stcnx := stc + s.nx
  let stcpx := stc - s.nx
  [stcpx - 1, stcpx, stcpx + 1, stc - 1, stc + 1, stcnx - 1, stcnx, stcnx + 1]

/-- より低い値の升目に移る。比べる値 `minp` は整数である。 -/
noncomputable def lower (s : NavFn ℝ) (m : ℤ × ℤ) (st : ℤ) : Option (ℤ × ℤ) := do
  let p ← s.read s.potarr st
  pure (if p < (m.2 : ℝ) then (st, intOf p) else m)

noncomputable def followGrid (s : NavFn ℝ) (w : Walk) : Option Outcome := do
  let p ← s.read s.potarr w.stc
  let m ← (s.eightNeighbors w.stc).foldlM s.lower (w.stc, intOf p)
  let q ← s.read s.potarr m.1
  if potHigh ≤ q then pure (.stop w.path 0) else pure (.move { w with stc := m.1, dx := 0, dy := 0 })

/-- 四つの升目の値の補間。 -/
noncomputable def interpolate (s : NavFn ℝ) (g : ℕ → ℝ) (w : Walk) : Option ℝ := do
  let a ← s.read g w.stc
  let b ← s.read g (w.stc + 1)
  let c ← s.read g (w.stc + s.nx)
  let d ← s.read g (w.stc + s.nx + 1)
  let x1 := (1 - w.dx) * a + w.dx * b
  let x2 := (1 - w.dx) * c + w.dx * d
  pure ((1 - w.dy) * x1 + w.dy * x2)

noncomputable def followGradient (s : NavFn ℝ) (w : Walk) : Option Outcome := do
  let w ← s.gradCell w.stc w
  let w ← s.gradCell (w.stc + 1) w
  let w ← s.gradCell (w.stc + s.nx) w
  let w ← s.gradCell (w.stc + s.nx + 1) w
  let x ← s.interpolate w.gradx w
  let y ← s.interpolate w.grady w
  if x = 0 ∧ y = 0 then pure (.stop w.path 0)
  else
    let ss := pathStep / hypot x y
    let (stc, dx) := wrapAxis 1 w.stc (w.dx + x * ss)
    let (stc, dy) := wrapAxis s.nx stc (w.dy + y * ss)
    pure (.move { w with stc := stc, dx := dx, dy := dy })

/-- 書いた点が、二つ前の点に戻っている。 -/
def Oscillates (path : List (ℝ × ℝ)) : Prop :=
  2 < path.length ∧ path[path.length - 1]? = path[path.length - 3]?

noncomputable def position (s : NavFn ℝ) (w : Walk) : ℝ × ℝ := ((w.stc % s.nx : ℤ) + w.dx, (w.stc / s.nx : ℤ) + w.dy)

open Classical in
noncomputable def pathCycle (s : NavFn ℝ) (w : Walk) : Option Outcome := do
  if (← s.read s.potarr (s.nearestPoint w)) < (costNeutral : ℝ) then
    pure (.stop (w.path ++ [((s.goal.1 : ℝ), (s.goal.2 : ℝ))]) (w.path.length + 1))
  else if w.stc < s.nx ∨ (s.ns : ℤ) - s.nx < w.stc then pure (.stop w.path 0)
  else do
    let w := { w with path := w.path ++ [s.position w] }
    if (← s.anyHigh (s.checked w.stc)) = true ∨ Oscillates w.path then s.followGrid w else s.followGradient w

noncomputable def followPath (s : NavFn ℝ) : ℕ → Walk → Option (List (ℝ × ℝ) × ℕ)
  | 0, w => some (w.path, 0)
  | n + 1, w => do
      match ← s.pathCycle w with
      | .move w => s.followPath n w
      | .stop path length => pure (path, length)

def firstWalk (s : NavFn ℝ) : Walk := ⟨s.startCell, 0, 0, [], s.gradx, s.grady⟩

/-- 書いた点の列と、返す長さ。 -/
noncomputable def calcPath (n : ℕ) (s : NavFn ℝ) : Option (List (ℝ × ℝ) × ℕ) := s.followPath n s.firstWalk

/-- 繰り返しの初めの状態の列。 -/
noncomputable def walks (s : NavFn ℝ) : ℕ → Walk → List Walk
  | 0, w => [w]
  | n + 1, w =>
      w ::
        match s.pathCycle w with
        | some (.move w) => s.walks n w
        | _ => []

end NavFn

end Ranger.Navfn
