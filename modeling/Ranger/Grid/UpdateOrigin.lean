import Mathlib.Algebra.Order.Group.Abs
import Mathlib.Tactic.LinearCombination
import Ranger.Grid.Conversions
import Ranger.Lib.Run

/-!
# 原点の移動

`Costmap2D::updateOrigin` は、原点を升目の数だけ動かし、前の窓と重なる升目の費用を保つ。升目の数の計算は `int` で行われ、
収まらない和と差は定まらない。
-/

namespace Ranger.Grid
open Ranger.Lib
namespace Costmap2D

variable {K : Type} [Field K] [LinearOrder K] [FloorRing K]

/-- 要求の原点が、今の原点から離れている升目の数。 -/
def cellOffset (resolution origin newOrigin : K) : ℤ := truncate ((newOrigin - origin) / resolution)

def updateOrigin (g : Costmap2D K) (newOriginX newOriginY : K) : Option (Costmap2D K) := do
  let cellOx ← toInt (cellOffset g.resolution g.originX newOriginX)
  let cellOy ← toInt (cellOffset g.resolution g.originY newOriginY)
  let newGridOx := g.originX + cellOx * g.resolution
  let newGridOy := g.originY + cellOy * g.resolution
  let sizeX ← toInt g.sizeX
  let sizeY ← toInt g.sizeY
  let endX ← toInt (cellOx + sizeX)
  let endY ← toInt (cellOy + sizeY)
  let lowerLeftX := min (max cellOx 0) sizeX
  let lowerLeftY := min (max cellOy 0) sizeY
  let upperRightX := min (max endX 0) sizeX
  let upperRightY := min (max endY 0) sizeY
  let cellSizeX := asUnsigned (upperRightX - lowerLeftX)
  let cellSizeY := asUnsigned (upperRightY - lowerLeftY)
  let localMap ← copyMapRegion g.costmap (asUnsigned lowerLeftX) (asUnsigned lowerLeftY) g.sizeX
    (List.replicate (wrap (cellSizeX * cellSizeY)) 0) 0 0 cellSizeX cellSizeX cellSizeY
  let startX ← toInt (lowerLeftX - cellOx)
  let startY ← toInt (lowerLeftY - cellOy)
  let costmap ← copyMapRegion localMap 0 0 cellSizeX g.resetMaps.costmap (asUnsigned startX) (asUnsigned startY)
    g.sizeX cellSizeX cellSizeY
  pure { g with originX := newGridOx, originY := newGridOy, costmap := costmap }

/-! ## 性質 -/

/-- 移動の結果。前の窓の升目にあたる升目は前の費用を持ち、残りは初期の値を持つ。 -/
structure Moved (g : Costmap2D K) (request : K × K) (g' : Costmap2D K) : Prop where
  valid : g'.Valid
  size : g'.sizeX = g.sizeX ∧ g'.sizeY = g.sizeY ∧ g'.resolution = g.resolution ∧ g'.defaultValue = g.defaultValue
  aligned : ∃ i j : ℤ, g'.originX = g.originX + i * g.resolution ∧ g'.originY = g.originY + j * g.resolution
  near : |g'.originX - request.1| < g.resolution ∧ |g'.originY - request.2| < g.resolution
  kept : ∀ c c', g'.Contains c → g.Contains c' → g'.mapToWorld c = g.mapToWorld c' → g'.getCost c = g.getCost c'
  fresh : ∀ c, g'.Contains c → (∀ c', g.Contains c' → g'.mapToWorld c ≠ g.mapToWorld c') →
    g'.getCost c = some g.defaultValue

/-- 一つの軸の升目の数の計算が、`int` に収まる。 -/
def AxisFits (cellO : ℤ) (size : ℕ) : Prop :=
  (size : ℤ) < 2147483648 ∧ -2147483648 < cellO ∧ cellO + size < 2147483648

def Fits (g : Costmap2D K) (request : K × K) : Prop :=
  AxisFits (cellOffset g.resolution g.originX request.1) g.sizeX ∧
    AxisFits (cellOffset g.resolution g.originY request.2) g.sizeY

/-! ## 一つの軸 -/

/-- 重なりの下の端と、重なりの大きさ。 -/
def overlapLower (cellO : ℤ) (size : ℕ) : ℤ := min (max cellO 0) size

def overlapSize (cellO : ℤ) (size : ℕ) : ℤ := min (max (cellO + size) 0) size - overlapLower cellO size

section Axis

variable {cellO : ℤ} {size x : ℕ}

theorem overlapSize_nonneg (cellO : ℤ) (size : ℕ) :
    0 ≤ overlapSize cellO size ∧ overlapLower cellO size + overlapSize cellO size ≤ size := by
  unfold overlapSize overlapLower
  omega

theorem overlapLower_nonneg (cellO : ℤ) (size : ℕ) : 0 ≤ overlapLower cellO size := by
  unfold overlapLower
  omega

/-- 重なりがあれば、移した先は地図の中にある。 -/
theorem overlap_start (h : 0 < overlapSize cellO size) :
    0 ≤ overlapLower cellO size - cellO ∧
      overlapLower cellO size - cellO + overlapSize cellO size ≤ size := by
  unfold overlapSize overlapLower at *
  omega

/-- 新しい列が重なりにあるのは、前の窓の列にあたるとき、そのときに限る。 -/
theorem overlap_iff (cellO : ℤ) (hx : x < size) :
    (overlapLower cellO size - cellO ≤ x ∧ x < overlapLower cellO size - cellO + overlapSize cellO size) ↔
      0 ≤ x + cellO ∧ x + cellO < size := by
  unfold overlapSize overlapLower
  omega

theorem toInt_of_mem {v : ℤ} (hlo : -2147483648 ≤ v) (hhi : v < 2147483648) : toInt v = some v :=
  toInt_eq_some.mpr ⟨rfl, hlo, hhi⟩

theorem AxisFits.offset (h : AxisFits cellO size) : toInt cellO = some cellO := by
  unfold AxisFits at h
  exact toInt_of_mem (by omega) (by omega)

theorem AxisFits.extent (h : AxisFits cellO size) : toInt size = some (size : ℤ) := by
  unfold AxisFits at h
  exact toInt_of_mem (by omega) (by omega)

theorem AxisFits.stop (h : AxisFits cellO size) : toInt (cellO + size) = some (cellO + size) := by
  unfold AxisFits at h
  exact toInt_of_mem (by omega) (by omega)

theorem AxisFits.start (h : AxisFits cellO size) :
    toInt (overlapLower cellO size - cellO) = some (overlapLower cellO size - cellO) := by
  unfold AxisFits at h
  unfold overlapLower
  exact toInt_of_mem (by omega) (by omega)

/-- 計算が収まるのは、四つの値がどれも `int` の範囲にあるときである。 -/
theorem axisFits_of_some {cellO' size' stop start : ℤ} (hoffset : toInt cellO = some cellO')
    (hsize : toInt size = some size') (hstop : toInt (cellO' + size') = some stop)
    (hstart : toInt (min (max cellO' 0) size' - cellO') = some start) : AxisFits cellO size := by
  obtain ⟨rfl, hlo, hhi⟩ := toInt_eq_some.mp hoffset
  obtain ⟨rfl, -, hsmall⟩ := toInt_eq_some.mp hsize
  obtain ⟨-, -, hend⟩ := toInt_eq_some.mp hstop
  obtain ⟨-, -, hbegin⟩ := toInt_eq_some.mp hstart
  unfold AxisFits
  omega

end Axis

/-! ## 二度の写し -/

section Copies

variable {src dst : List UInt8} {w h lx ly sx sy nx ny x y : ℕ}

/-- 矩形の中の位置は、配列の中にある。 -/
theorem region_end_le (hx : x + nx ≤ w) (hy : y + ny ≤ h) (hny : 0 < ny) :
    y * w + x + (ny - 1) * w + nx ≤ w * h := by
  have hrows : (y + (ny - 1) + 1) * w ≤ h * w := Nat.mul_le_mul_right w (by omega)
  have hsplit : (y + (ny - 1) + 1) * w = y * w + (ny - 1) * w + w := by ring
  rw [hsplit, Nat.mul_comm h w] at hrows
  omega

theorem copyMapRegion_defined {sw dw sh dh : ℕ} (sx sy dx dy : ℕ) (hsrc : src.length = sw * sh) (hdst : dst.length = dw * dh)
    (hsarea : sw * sh < 4294967296) (hdarea : dw * dh < 4294967296) (hsx : sx + nx ≤ sw) (hsy : sy + ny ≤ sh)
    (hdx : dx + nx ≤ dw) (hdy : dy + ny ≤ dh) (hnx : 0 < nx) (hny : 0 < ny) :
    wrap (sy * sw + sx) = sy * sw + sx ∧ wrap (dy * dw + dx) = dy * dw + dx ∧
      ∃ out, copyMapRegion src sx sy sw dst dx dy dw nx ny = some out := by
  have hs := region_end_le hsx hsy hny
  have hd := region_end_le hdx hdy hny
  have hwraps : wrap (sy * sw + sx) = sy * sw + sx := wrap_of_lt (by omega)
  have hwrapd : wrap (dy * dw + dx) = dy * dw + dx := wrap_of_lt (by omega)
  refine ⟨hwraps, hwrapd, ?_⟩
  rw [copyMapRegion, hwraps, hwrapd]
  obtain ⟨rows, rfl⟩ := Nat.exists_eq_succ_of_ne_zero (Nat.pos_iff_ne_zero.mp hny)
  exact copyRegion_defined.mpr (Or.inr ⟨by rw [hsrc]; exact hs, by rw [hdst]; exact hd⟩)

/-- 一時の地図を通した写しの後の費用。 -/
theorem copy_twice (lx ly sx sy nx ny : ℕ) (harea : w * h < 4294967296) (hsrc : src.length = w * h) (hdst : dst.length = w * h)
    (hlx : lx + nx ≤ w) (hly : ly + ny ≤ h) (hsx : sx + nx ≤ w) (hsy : sy + ny ≤ h) (hnx : 0 < nx) (hny : 0 < ny) :
    ∃ tmp out, copyMapRegion src lx ly w (List.replicate (wrap (nx * ny)) 0) 0 0 nx nx ny = some tmp ∧
      copyMapRegion tmp 0 0 nx dst sx sy w nx ny = some out ∧
      ∀ x y, x < w → out[y * w + x]? =
        if (sy ≤ y ∧ y < sy + ny) ∧ sx ≤ x ∧ x < sx + nx then src[(ly + (y - sy)) * w + (lx + (x - sx))]?
        else dst[y * w + x]? := by
  have hsmall : nx * ny < 4294967296 :=
    Nat.lt_of_le_of_lt (Nat.mul_le_mul (by omega) (by omega)) harea
  have hlocal : (List.replicate (wrap (nx * ny)) (0 : UInt8)).length = nx * ny := by
    rw [List.length_replicate, wrap_of_lt hsmall]
  obtain ⟨hwrap, hzero, tmp, htmp⟩ := copyMapRegion_defined lx ly 0 0 hsrc hlocal harea hsmall hlx hly
    (Nat.le_of_eq (Nat.zero_add nx)) (Nat.le_of_eq (Nat.zero_add ny)) hnx hny
  have htmpLength : tmp.length = nx * ny := (copyRegion_length htmp).trans hlocal
  obtain ⟨-, hwrap', out, hout⟩ := copyMapRegion_defined 0 0 sx sy htmpLength hdst hsmall harea
    (Nat.le_of_eq (Nat.zero_add nx)) (Nat.le_of_eq (Nat.zero_add ny)) hsx hsy hnx hny
  refine ⟨tmp, out, htmp, hout, fun x y hx => ?_⟩
  rw [copyMapRegion, hwrap, hzero] at htmp
  rw [copyMapRegion, hzero, hwrap'] at hout
  rw [copyRegion_cell hout hsx hx]
  split_ifs with hin
  · have hcell := copyRegion_cell (x := x - sx) (y := y - sy) htmp (Nat.le_of_eq (Nat.zero_add nx)) (by omega)
    rw [if_pos (by omega), Nat.sub_zero, Nat.sub_zero] at hcell
    rw [Nat.zero_add, Nat.zero_add, hcell]
  · rfl

theorem copyMapRegion_empty {sw dw : ℕ} (hempty : nx = 0 ∨ ny = 0) (sx sy dx dy : ℕ) :
    copyMapRegion src sx sy sw dst dx dy dw nx ny = some dst := copyRegion_empty hempty

end Copies

/-! ## 移動の費用 -/

variable {g g' : Costmap2D K} {request : K × K}

omit [FloorRing K] in
theorem resetMaps_cell (hg : g.Valid) {x y : ℕ} (hx : x < g.sizeX) (hy : y < g.sizeY) :
    g.resetMaps.costmap.length = g.sizeX * g.sizeY ∧
      g.resetMaps.costmap[y * g.sizeX + x]? = some g.defaultValue := by
  have hindex := index_lt hx hy
  have hlength : (List.replicate (wrap (g.sizeX * g.sizeY)) g.defaultValue).length = g.sizeX * g.sizeY := by
    rw [List.length_replicate, wrap_of_lt hg.area]
  refine ⟨hlength, ?_⟩
  rw [resetMaps, List.getElem?_eq_getElem (by rw [hlength]; omega), List.getElem_replicate]

/-- 計算が収まるとき、移動は定まり、新しい列と行の費用は、前の窓の費用か初期の値である。 -/
theorem updateOrigin_of_fits (hg : g.Valid) {ox oy : ℤ} (hox : cellOffset g.resolution g.originX request.1 = ox)
    (hoy : cellOffset g.resolution g.originY request.2 = oy) (hx : AxisFits ox g.sizeX) (hy : AxisFits oy g.sizeY) :
    ∃ costmap, g.updateOrigin request.1 request.2 = some { g with
        originX := g.originX + ox * g.resolution, originY := g.originY + oy * g.resolution, costmap := costmap } ∧
      costmap.length = g.sizeX * g.sizeY ∧
      ∀ x y : ℕ, x < g.sizeX → y < g.sizeY → costmap[y * g.sizeX + x]? =
        if (0 ≤ y + oy ∧ y + oy < g.sizeY) ∧ 0 ≤ x + ox ∧ x + ox < g.sizeX then
          g.costmap[(y + oy).toNat * g.sizeX + (x + ox).toNat]?
        else some g.defaultValue := by
  have hstartx : toInt (min (max ox 0) g.sizeX - ox) = some (overlapLower ox g.sizeX - ox) := hx.start
  have hstarty : toInt (min (max oy 0) g.sizeY - oy) = some (overlapLower oy g.sizeY - oy) := hy.start
  have hrun : g.updateOrigin request.1 request.2 =
      (copyMapRegion g.costmap (asUnsigned (overlapLower ox g.sizeX)) (asUnsigned (overlapLower oy g.sizeY)) g.sizeX
        (List.replicate (wrap (asUnsigned (overlapSize ox g.sizeX) * asUnsigned (overlapSize oy g.sizeY))) 0) 0 0
        (asUnsigned (overlapSize ox g.sizeX)) (asUnsigned (overlapSize ox g.sizeX))
        (asUnsigned (overlapSize oy g.sizeY))).bind fun tmp =>
      (copyMapRegion tmp 0 0 (asUnsigned (overlapSize ox g.sizeX)) g.resetMaps.costmap
        (asUnsigned (overlapLower ox g.sizeX - ox)) (asUnsigned (overlapLower oy g.sizeY - oy)) g.sizeX
        (asUnsigned (overlapSize ox g.sizeX)) (asUnsigned (overlapSize oy g.sizeY))).bind fun costmap =>
      some { g with
        originX := g.originX + ox * g.resolution, originY := g.originY + oy * g.resolution, costmap := costmap } := by
    simp only [updateOrigin, hox, hoy, hx.offset, hy.offset, hx.extent, hy.extent, hx.stop, hy.stop, hstartx, hstarty,
      Option.bind_eq_bind, Option.bind_some]
    rfl
  have hreset : g.resetMaps.costmap.length = g.sizeX * g.sizeY := by
    rw [resetMaps, List.length_replicate, wrap_of_lt hg.area]
  obtain ⟨hnx, hlx⟩ := overlapSize_nonneg ox g.sizeX
  obtain ⟨hny, hly⟩ := overlapSize_nonneg oy g.sizeY
  have hlx0 := overlapLower_nonneg ox g.sizeX
  have hly0 := overlapLower_nonneg oy g.sizeY
  have hsizex := hg.sizeX
  have hsizey := hg.sizeY
  rw [asUnsigned_of_nonneg hlx0 (by omega), asUnsigned_of_nonneg hly0 (by omega), asUnsigned_of_nonneg hnx (by omega),
    asUnsigned_of_nonneg hny (by omega)] at hrun
  by_cases hempty : overlapSize ox g.sizeX = 0 ∨ overlapSize oy g.sizeY = 0
  · -- 重なりがないとき、どちらの写しも何もしない。
    have hzero : (overlapSize ox g.sizeX).toNat = 0 ∨ (overlapSize oy g.sizeY).toNat = 0 := by omega
    rw [copyMapRegion_empty hzero, Option.bind_some, copyMapRegion_empty hzero, Option.bind_some] at hrun
    refine ⟨g.resetMaps.costmap, hrun, hreset, fun x y hxs hys => ?_⟩
    have hcolumn := overlap_iff ox hxs
    have hrow := overlap_iff oy hys
    rw [if_neg (by omega), (resetMaps_cell hg hxs hys).2]
  · have hposx : 0 < overlapSize ox g.sizeX := by omega
    have hposy : 0 < overlapSize oy g.sizeY := by omega
    obtain ⟨hsx0, hsx⟩ := overlap_start hposx
    obtain ⟨hsy0, hsy⟩ := overlap_start hposy
    rw [asUnsigned_of_nonneg hsx0 (by omega), asUnsigned_of_nonneg hsy0 (by omega)] at hrun
    obtain ⟨tmp, out, htmp, hout, hcells⟩ := copy_twice (overlapLower ox g.sizeX).toNat
      (overlapLower oy g.sizeY).toNat (overlapLower ox g.sizeX - ox).toNat (overlapLower oy g.sizeY - oy).toNat
      (overlapSize ox g.sizeX).toNat (overlapSize oy g.sizeY).toNat hg.area hg.costmap hreset (by omega) (by omega) (by omega) (by omega)
      (by omega) (by omega)
    rw [htmp, Option.bind_some, hout, Option.bind_some] at hrun
    refine ⟨out, hrun, (copyRegion_length hout).trans hreset, fun x y hxs hys => ?_⟩
    have hcolumn := overlap_iff ox hxs
    have hrow := overlap_iff oy hys
    rw [hcells x y hxs, (resetMaps_cell hg hxs hys).2]
    by_cases hin : (0 ≤ y + oy ∧ y + oy < g.sizeY) ∧ 0 ≤ x + ox ∧ x + ox < g.sizeX
    · rw [if_pos (by omega), if_pos hin]
      have hxeq : (overlapLower ox g.sizeX).toNat + (x - (overlapLower ox g.sizeX - ox).toNat) = (x + ox).toNat := by
        omega
      have hyeq : (overlapLower oy g.sizeY).toNat + (y - (overlapLower oy g.sizeY - oy).toNat) = (y + oy).toNat := by
        omega
      rw [hxeq, hyeq]
    · rw [if_neg (by omega), if_neg hin]

/-- 移動が定まるのは、計算が `int` に収まるときに限る。 -/
theorem fits_of_updateOrigin (h : g.updateOrigin request.1 request.2 = some g') : g.Fits request := by
  obtain ⟨ox, hox, h⟩ := Option.bind_eq_some_iff.mp h
  obtain ⟨oy, hoy, h⟩ := Option.bind_eq_some_iff.mp h
  obtain ⟨sizeX, hsizex, h⟩ := Option.bind_eq_some_iff.mp h
  obtain ⟨sizeY, hsizey, h⟩ := Option.bind_eq_some_iff.mp h
  obtain ⟨endX, hendx, h⟩ := Option.bind_eq_some_iff.mp h
  obtain ⟨endY, hendy, h⟩ := Option.bind_eq_some_iff.mp h
  obtain ⟨tmp, -, h⟩ := Option.bind_eq_some_iff.mp h
  obtain ⟨startX, hstartx, h⟩ := Option.bind_eq_some_iff.mp h
  obtain ⟨startY, hstarty, -⟩ := Option.bind_eq_some_iff.mp h
  exact ⟨axisFits_of_some hox hsizex hendx hstartx, axisFits_of_some hoy hsizey hendy hstarty⟩

variable [IsStrictOrderedRing K]

/-- 切り捨ての誤差は 1 より小さい。 -/
theorem abs_truncate_sub_lt (v : K) : |(truncate v : K) - v| < 1 := by
  unfold truncate
  split_ifs
  · rw [abs_lt]
    constructor
    · linarith [Int.le_ceil v]
    · linarith [Int.ceil_lt_add_one v]
  · rw [abs_lt]
    constructor
    · linarith [Int.lt_floor_add_one v]
    · linarith [Int.floor_le v]

theorem axis_near {resolution origin newOrigin : K} (hr : 0 < resolution) :
    |origin + cellOffset resolution origin newOrigin * resolution - newOrigin| < resolution := by
  have herror := abs_truncate_sub_lt ((newOrigin - origin) / resolution)
  have hscale : origin + cellOffset resolution origin newOrigin * resolution - newOrigin =
      (truncate ((newOrigin - origin) / resolution) - (newOrigin - origin) / resolution) * resolution := by
    rw [cellOffset, sub_mul, div_mul_cancel₀ _ hr.ne']
    ring
  rw [hscale, abs_mul, abs_of_pos hr]
  exact (mul_lt_iff_lt_one_left hr).mpr herror

omit [FloorRing K] in
/-- 升目の数だけずれた原点では、中心が一致するのは、番号が同じ数だけずれるとき、そのときに限る。 -/
theorem axis_center_eq_iff {resolution origin : K} (hr : 0 < resolution) {offset : ℤ} {i j : ℕ} :
    origin + offset * resolution + (i + 0.5) * resolution = origin + (j + 0.5) * resolution ↔
      (i : ℤ) + offset = j := by
  have hcells : origin + offset * resolution + (i + 0.5) * resolution = origin + (j + 0.5) * resolution ↔
      ((i : ℤ) + offset : ℤ) * resolution = ((j : ℤ) : K) * resolution := by
    push_cast
    constructor
    · intro h
      linear_combination h
    · intro h
      linear_combination h
  rw [hcells, mul_left_inj' hr.ne', Int.cast_inj]

/-- 定まった移動は、原点を升目の数だけ動かし、費用を保つ。 -/
theorem moved_of_updateOrigin (hg : g.Valid) (h : g.updateOrigin request.1 request.2 = some g') :
    g.Moved request g' := by
  obtain ⟨hx, hy⟩ := fits_of_updateOrigin h
  obtain ⟨costmap, hrun, hlength, hcells⟩ := updateOrigin_of_fits hg rfl rfl hx hy
  rw [hrun] at h
  cases h
  have hvalid : Valid { g with
      originX := g.originX + cellOffset g.resolution g.originX request.1 * g.resolution,
      originY := g.originY + cellOffset g.resolution g.originY request.2 * g.resolution, costmap := costmap } :=
    ⟨hg.resolution, hg.sizeX, hg.sizeY, hg.area, hlength⟩
  constructor
  · exact hvalid
  · exact ⟨rfl, rfl, rfl, rfl⟩
  · exact ⟨_, _, rfl, rfl⟩
  · exact ⟨axis_near hg.resolution, axis_near hg.resolution⟩
  · intro c c' hc hc' heq
    obtain ⟨heqx, heqy⟩ := Prod.mk.injEq _ _ _ _ ▸ heq
    have hxs := (axis_center_eq_iff hg.resolution).mp heqx
    have hys := (axis_center_eq_iff hg.resolution).mp heqy
    obtain ⟨hcx, hcy⟩ := hc'
    rw [getCost_eq hvalid hc, getCost_eq hg ⟨hcx, hcy⟩]
    dsimp only
    rw [hcells c.x c.y hc.1 hc.2, if_pos (by omega), hxs, hys, Int.toNat_natCast, Int.toNat_natCast]
  · intro c hc hnone
    rw [getCost_eq hvalid hc]
    dsimp only
    rw [hcells c.x c.y hc.1 hc.2, if_neg]
    rintro ⟨⟨hylo, hyhi⟩, hxlo, hxhi⟩
    apply hnone ⟨(c.x + cellOffset g.resolution g.originX request.1).toNat,
      (c.y + cellOffset g.resolution g.originY request.2).toNat⟩ ⟨(Int.toNat_lt hxlo).mpr hxhi, (Int.toNat_lt hylo).mpr hyhi⟩
    apply Prod.ext
    · exact (axis_center_eq_iff hg.resolution).mpr (Int.toNat_of_nonneg hxlo).symm
    · exact (axis_center_eq_iff hg.resolution).mpr (Int.toNat_of_nonneg hylo).symm

/-! ## 続けての移動 -/

def move (g : Costmap2D K) (request : K × K) : Option (Costmap2D K) := g.updateOrigin request.1 request.2

/-- 点のある升目の費用。 -/
def costAt (g : Costmap2D K) (wx wy : K) : Option UInt8 := (g.worldToMap wx wy).bind fun r => r.bind g.getCost

/-- どの時点の窓にも入っている点の費用は、移動で変わらない。 -/
def Steady (g : Costmap2D K) (requests : List (K × K)) : Prop :=
  ∀ wx wy, (∀ pre, pre <+: requests → ∀ t, runs move g pre = some t → ∃ c, t.InCell c wx wy) →
    ∀ t, runs move g requests = some t → t.costAt wx wy = g.costAt wx wy

/-- どの移動の計算も `int` に収まる。 -/
def FitsAll : Costmap2D K → List (K × K) → Prop
  | _, [] => True
  | g, p :: ps => g.Fits p ∧ ∀ t, move g p = some t → FitsAll t ps

theorem costAt_of_inCell (hg : g.Valid) {wx wy : K} {c : MapLocation} (h : g.InCell c wx wy) :
    g.costAt wx wy = g.getCost c := by
  rw [costAt, worldToMap_of_inCell hg.resolution hg.sizeX.le hg.sizeY.le h]
  rfl

/-- 移した後の升目は、同じ点のある前の升目から、升目の数だけずれている。 -/
theorem axis_shift {resolution origin w : K} (hr : 0 < resolution) {offset : ℤ} {i j : ℕ}
    (hi : AxisCell resolution (origin + offset * resolution) i w) (hj : AxisCell resolution origin j w) :
    (i : ℤ) + offset = j := by
  have hshift : (w - (origin + offset * resolution)) / resolution = (w - origin) / resolution - offset := by
    rw [div_sub' hr.ne']
    congr 1
    ring
  rw [axisCell_iff hr, hshift, Int.floor_sub_intCast] at hi
  rw [axisCell_iff hr] at hj
  omega

theorem Moved.costAt_eq (hg : g.Valid) (h : g.Moved request g') {wx wy : K} (hbefore : ∃ c, g.InCell c wx wy)
    (hafter : ∃ c, g'.InCell c wx wy) : g'.costAt wx wy = g.costAt wx wy := by
  obtain ⟨c, hc⟩ := hbefore
  obtain ⟨c', hc'⟩ := hafter
  obtain ⟨i, j, hx, hy⟩ := h.aligned
  have hsame : g'.mapToWorld c' = g.mapToWorld c := by
    obtain ⟨-, hx', hy'⟩ := hc'
    rw [h.size.2.2.1, hx] at hx'
    rw [h.size.2.2.1, hy] at hy'
    apply Prod.ext
    · simp only [mapToWorld, hx, h.size.2.2.1]
      exact (axis_center_eq_iff hg.resolution).mpr (axis_shift hg.resolution hx' hc.2.1)
    · simp only [mapToWorld, hy, h.size.2.2.1]
      exact (axis_center_eq_iff hg.resolution).mpr (axis_shift hg.resolution hy' hc.2.2)
  rw [costAt_of_inCell h.valid hc', costAt_of_inCell hg hc]
  exact h.kept c' c hc'.1 hc.1 hsame

theorem steady_of_valid (hg : g.Valid) (requests : List (K × K)) : g.Steady requests := by
  induction requests generalizing g with
  | nil =>
      rintro wx wy - t ht
      cases ht
      rfl
  | cons p ps ih =>
      intro wx wy hinside t ht
      obtain ⟨next, hnext, hrest⟩ := runs_cons_some ht
      have hmoved := moved_of_updateOrigin hg hnext
      have hfirst := hinside [] List.nil_prefix g rfl
      have hsecond := hinside [p] (by simp) next (by rw [runs_cons hnext, runs_nil])
      have hkept := hmoved.costAt_eq hg hfirst hsecond
      rw [← hkept]
      apply ih hmoved.valid wx wy _ t hrest
      intro pre hpre u hu
      exact hinside (p :: pre) ((List.prefix_cons_inj p).mpr hpre) u (by rw [runs_cons hnext]; exact hu)

theorem runs_move_iff (hg : g.Valid) (requests : List (K × K)) :
    (∃ t, runs move g requests = some t) ↔ g.FitsAll requests := by
  induction requests generalizing g with
  | nil => exact iff_of_true ⟨g, rfl⟩ trivial
  | cons p ps ih =>
      constructor
      · rintro ⟨t, ht⟩
        obtain ⟨next, hnext, hrest⟩ := runs_cons_some ht
        refine ⟨fits_of_updateOrigin hnext, fun u hu => ?_⟩
        obtain rfl : next = u := Option.some.inj (hnext.symm.trans hu)
        exact (ih (moved_of_updateOrigin hg hnext).valid).mp ⟨t, hrest⟩
      · rintro ⟨⟨hx, hy⟩, hrest⟩
        obtain ⟨costmap, hrun, -⟩ := updateOrigin_of_fits hg rfl rfl hx hy
        rw [runs_cons hrun]
        exact (ih (moved_of_updateOrigin hg hrun).valid).mpr (hrest _ hrun)

/-- どの要求の列についても、移動が定まり、費用が保たれるのは、どの移動の計算も `int` に収まるとき、そのときに限る。 -/
theorem updateOrigin_moves_iff (g : Costmap2D K) (hg : g.Valid) (requests : List (K × K)) :
    ((∃ t, runs move g requests = some t) ∧ Always move (fun g p t => g.Moved p t) g requests ∧ g.Steady requests) ↔
      g.FitsAll requests := by
  rw [runs_move_iff hg, and_iff_left]
  refine ⟨?_, steady_of_valid hg requests⟩
  have hvalid : ∀ (s : Costmap2D K) p t, s.Valid → move s p = some t → True → t.Valid := by
    intro s p t hs ht _
    exact (moved_of_updateOrigin hs ht).valid
  apply Always.of_inv hvalid
  · intro s p t hs ht _
    exact moved_of_updateOrigin hs ht
  · exact hg
  · exact Always.of_step fun _ _ _ _ => trivial

/-- どの升目の費用も異なる地図。 -/
def numbered : Costmap2D ℚ := ⟨10, 10, 1, 0, 0, (List.range 100).map UInt8.ofNat, 255⟩

-- 二列と半分右、三行下へ動いた後、三列と半分左、五行と半分上へ動く。一度外れた列の費用は初期の値になる。
theorem updateOrigin_moves_iff_numbered :
    numbered.Valid ∧ (∃ t, runs move numbered [(2.5, -3), (-1.5, 2.5)] = some t ∧ t.costAt 5.5 4.5 = some 45 ∧
        t.costAt 1.5 4.5 = some 255) ∧
      Always move (fun g p t => g.Moved p t) numbered [(2.5, -3), (-1.5, 2.5)] ∧
      numbered.Steady [(2.5, -3), (-1.5, 2.5)] := by
  have hvalid : numbered.Valid := by
    constructor <;> decide +kernel
  have hfits : numbered.FitsAll [(2.5, -3), (-1.5, 2.5)] := by
    refine ⟨⟨?_, ?_⟩, fun t ht => ⟨?_, fun _ _ => trivial⟩⟩
    · unfold AxisFits
      decide +kernel
    · unfold AxisFits
      decide +kernel
    · have horigin : (move numbered (2.5, -3)).map (fun t => (t.sizeX, t.sizeY, t.resolution, t.originX, t.originY)) =
          some (10, 10, 1, 2, -3) := by decide +kernel
      rw [ht, Option.map_some, Option.some.injEq] at horigin
      simp only [Prod.mk.injEq] at horigin
      obtain ⟨hsizeX, hsizeY, hresolution, hx, hy⟩ := horigin
      rw [Fits, hsizeX, hsizeY, hresolution, hx, hy]
      unfold AxisFits
      decide +kernel
  obtain ⟨⟨t, ht⟩, hmoves, hsteady⟩ := (updateOrigin_moves_iff numbered hvalid _).mpr hfits
  have hcosts : (runs move numbered [(2.5, -3), (-1.5, 2.5)]).map (fun t => (t.costAt 5.5 4.5, t.costAt 1.5 4.5)) =
      some (some 45, some 255) := by decide +kernel
  rw [ht, Option.map_some, Option.some.injEq, Prod.mk.injEq] at hcosts
  exact ⟨hvalid, ⟨t, ht, hcosts⟩, hmoves, hsteady⟩

-- 離れた升目の数は `int` に収まるが、大きさとの和は収まらない。
theorem updateOrigin_moves_fails :
    ¬ ∀ (g : Costmap2D ℚ), g.Valid → ∀ request : ℚ × ℚ,
      (toInt (cellOffset g.resolution g.originX request.1)).isSome = true →
      (toInt (cellOffset g.resolution g.originY request.2)).isSome = true →
        ∃ t, g.updateOrigin request.1 request.2 = some t ∧ g.Moved request t := by
  intro h
  obtain ⟨t, hrun, -⟩ := h tenByTen valid_tenByTen (2147483647, 0) (by decide +kernel) (by decide +kernel)
  have hend : cellOffset tenByTen.resolution tenByTen.originX 2147483647 + tenByTen.sizeX < 2147483648 :=
    (fits_of_updateOrigin hrun).1.2.2
  exact absurd hend (by decide +kernel)

end Costmap2D

end Ranger.Grid
