import Mathlib.Algebra.Order.Floor.Ring
import Mathlib.Data.Rat.Floor
import Mathlib.Tactic.FieldSimp
import Mathlib.Tactic.Linarith
import Mathlib.Tactic.NormNum
import Mathlib.Tactic.Ring
import Ranger.Lib.Region

/-!
# 費用の地図

`nav2_costmap_2d` の `Costmap2D` と、世界の座標との変換。座標は正確な算術の値で、`int` と `unsigned int` に収まらない変換は
定まらないものとして `none` で表す。
-/

namespace Ranger.Grid
open Ranger.Lib

/-! ## 整数 -/

def toInt (v : ℤ) : Option ℤ := if -2147483648 ≤ v ∧ v < 2147483648 then some v else none

def toUnsigned (v : ℤ) : Option ℕ := if 0 ≤ v ∧ v < 4294967296 then some v.toNat else none

/-- `unsigned int` の演算の値。 -/
def wrap (v : ℕ) : ℕ := v % 4294967296

/-- `int` の値を `unsigned int` として読む。 -/
def asUnsigned (v : ℤ) : ℕ := (v % 4294967296).toNat

theorem toInt_eq_some {v w : ℤ} : toInt v = some w ↔ v = w ∧ -2147483648 ≤ v ∧ v < 2147483648 := by
  unfold toInt
  split_ifs with h
  · simp [h]
  · simp only [false_iff, not_and]
    exact fun _ => fun hlo hhi => h ⟨hlo, hhi⟩

theorem toUnsigned_eq_some {v : ℤ} {n : ℕ} : toUnsigned v = some n ↔ v = n ∧ v < 4294967296 := by
  unfold toUnsigned
  split_ifs with h
  · simp only [Option.some.injEq]
    omega
  · simp only [false_iff, not_and]
    omega

theorem wrap_of_lt {v : ℕ} (h : v < 4294967296) : wrap v = v := Nat.mod_eq_of_lt h

theorem asUnsigned_of_nonneg {v : ℤ} (h : 0 ≤ v) (hlt : v < 4294967296) : asUnsigned v = v.toNat := by
  rw [asUnsigned, Int.emod_eq_of_lt h hlt]

section Truncate

variable {K : Type*} [Field K] [LinearOrder K] [FloorRing K]

/-- 整数への変換は、0 に向けて切り捨てる。 -/
def truncate (v : K) : ℤ := if v < 0 then ⌈v⌉ else ⌊v⌋

theorem truncate_of_nonneg {v : K} (h : 0 ≤ v) : truncate v = ⌊v⌋ := by
  rw [truncate, if_neg (not_lt.mpr h)]

end Truncate

/-! ## 地図 -/

structure MapLocation where
  x : ℕ
  y : ℕ
  deriving DecidableEq

/-- `costmap` は `costmap_` の指す配列で、消された後は空である。 -/
structure Costmap2D (K : Type*) where
  sizeX : ℕ
  sizeY : ℕ
  resolution : K
  originX : K
  originY : K
  costmap : List UInt8
  defaultValue : UInt8

namespace Costmap2D

variable {K : Type*} [Field K]

def Contains (g : Costmap2D K) (c : MapLocation) : Prop := c.x < g.sizeX ∧ c.y < g.sizeY

instance (g : Costmap2D K) (c : MapLocation) : Decidable (g.Contains c) := inferInstanceAs (Decidable (_ ∧ _))

def getIndex (g : Costmap2D K) (mx my : ℕ) : ℕ := wrap (my * g.sizeX + mx)

def indexToCells (g : Costmap2D K) (index : ℕ) : MapLocation := ⟨index - index / g.sizeX * g.sizeX, index / g.sizeX⟩

theorem indexToCells_index {K : Type*} {g : Costmap2D K} {c : MapLocation} (hx : c.x < g.sizeX) :
    g.indexToCells (c.y * g.sizeX + c.x) = c := by
  have hrow : (c.y * g.sizeX + c.x) / g.sizeX = c.y := by
    rw [Nat.mul_comm, Nat.mul_add_div (Nat.zero_lt_of_lt hx), Nat.div_eq_of_lt hx, Nat.add_zero]
  rw [indexToCells, hrow, Nat.add_sub_cancel_left]

def getCost (g : Costmap2D K) (c : MapLocation) : Option UInt8 := g.costmap[g.getIndex c.x c.y]?

/-- 大きさの通りの配列を持ち、解像度は正である。 -/
structure Valid [LinearOrder K] (g : Costmap2D K) : Prop where
  resolution : 0 < g.resolution
  sizeX : g.sizeX < 4294967296
  sizeY : g.sizeY < 4294967296
  area : g.sizeX * g.sizeY < 4294967296
  costmap : g.costmap.length = g.sizeX * g.sizeY

theorem getCost_eq [LinearOrder K] {g : Costmap2D K} (hg : g.Valid) {c : MapLocation} (hc : g.Contains c) :
    g.getCost c = g.costmap[c.y * g.sizeX + c.x]? := by
  have hindex := index_lt hc.1 hc.2
  have harea := hg.area
  rw [getCost, getIndex, wrap_of_lt (by omega)]

def resetMaps (g : Costmap2D K) : Costmap2D K :=
  { g with costmap := List.replicate (wrap (g.sizeX * g.sizeY)) g.defaultValue }

/-- `copyMapRegion`。`none` は、配列の外に触れることを表す。 -/
def copyMapRegion (sourceMap : List UInt8) (smLowerLeftX smLowerLeftY smSizeX : ℕ) (destMap : List UInt8)
    (dmLowerLeftX dmLowerLeftY dmSizeX regionSizeX regionSizeY : ℕ) : Option (List UInt8) :=
  copyRegion sourceMap smSizeX dmSizeX regionSizeX regionSizeY (wrap (smLowerLeftY * smSizeX + smLowerLeftX))
    (wrap (dmLowerLeftY * dmSizeX + dmLowerLeftX)) destMap

/-! ## 座標の変換 -/

def mapToWorld (g : Costmap2D K) (c : MapLocation) : K × K :=
  (g.originX + (c.x + 0.5) * g.resolution, g.originY + (c.y + 0.5) * g.resolution)

variable [LinearOrder K] [FloorRing K]

/-- 外側の `none` は、変換が定まらないことを表す。 -/
def worldToMap (g : Costmap2D K) (wx wy : K) : Option (Option MapLocation) :=
  if wx < g.originX ∨ wy < g.originY then some none
  else do
    let mx ← toUnsigned (truncate ((wx - g.originX) / g.resolution))
    let my ← toUnsigned (truncate ((wy - g.originY) / g.resolution))
    pure (if mx < g.sizeX ∧ my < g.sizeY then some ⟨mx, my⟩ else none)

def worldToMapNoBounds (g : Costmap2D K) (wx wy : K) : Option (ℤ × ℤ) := do
  let mx ← toInt (truncate ((wx - g.originX) / g.resolution))
  let my ← toInt (truncate ((wy - g.originY) / g.resolution))
  pure (mx, my)

/-- `worldToMapEnforceBounds` の一つの軸。 -/
def enforceAxis (resolution origin : K) (size : ℕ) (w : K) : Option ℤ :=
  if w < origin then some 0
  else if resolution * size + origin < w then toInt (size - 1)
  else toInt (truncate ((w - origin) / resolution))

def worldToMapEnforceBounds (g : Costmap2D K) (wx wy : K) : Option (ℤ × ℤ) := do
  let mx ← enforceAxis g.resolution g.originX g.sizeX wx
  let my ← enforceAxis g.resolution g.originY g.sizeY wy
  pure (mx, my)

end Costmap2D

/-! ## 一つの軸の升目 -/

/-- 世界の座標が、軸の `i` 番目の升目にある。 -/
def AxisCell {K : Type*} [Field K] [LinearOrder K] (resolution origin : K) (i : ℕ) (w : K) : Prop :=
  origin + i * resolution ≤ w ∧ w < origin + (i + 1) * resolution

section Axis

variable {K : Type*} [Field K] [LinearOrder K] [IsStrictOrderedRing K] [FloorRing K]
  {resolution origin w : K} {size i : ℕ}

theorem axisCell_iff (hr : 0 < resolution) :
    AxisCell resolution origin i w ↔ ⌊(w - origin) / resolution⌋ = (i : ℤ) := by
  rw [Int.floor_eq_iff, le_div_iff₀ hr, div_lt_iff₀ hr, AxisCell]
  constructor
  · rintro ⟨hlo, hhi⟩
    constructor
    · push_cast
      linarith
    · push_cast
      linarith
  · rintro ⟨hlo, hhi⟩
    push_cast at hlo hhi
    constructor
    · linarith
    · linarith

omit [FloorRing K] in
theorem cells_nonneg (hr : 0 < resolution) (h : origin ≤ w) : 0 ≤ (w - origin) / resolution :=
  div_nonneg (sub_nonneg.mpr h) hr.le

omit [FloorRing K] in
theorem axisCell_origin_le (hr : 0 < resolution) (h : AxisCell resolution origin i w) : origin ≤ w := by
  have hi : 0 ≤ (i : K) * resolution := mul_nonneg (Nat.cast_nonneg i) hr.le
  linarith [h.1]

/-- 原点より手前でない座標の、切り捨てた番号。 -/
theorem truncate_axis (hr : 0 < resolution) (h : origin ≤ w) :
    truncate ((w - origin) / resolution) = ⌊(w - origin) / resolution⌋ :=
  truncate_of_nonneg (cells_nonneg hr h)

theorem axisCell_center (hr : 0 < resolution) (i : ℕ) :
    AxisCell resolution origin i (origin + (i + 0.5) * resolution) := by
  have hhalf : (0.5 : K) = 1 / 2 := by norm_num
  rw [hhalf]
  constructor
  · linarith
  · linarith

/-- 升目の番号が `size` より小さいのは、座標が上の端より手前であるとき、そのときに限る。 -/
theorem floor_lt_size (hr : 0 < resolution) :
    ⌊(w - origin) / resolution⌋ < (size : ℤ) ↔ w < origin + resolution * size := by
  rw [Int.floor_lt, div_lt_iff₀ hr]
  push_cast
  constructor
  · intro h
    linarith
  · intro h
    linarith

end Axis

end Ranger.Grid
