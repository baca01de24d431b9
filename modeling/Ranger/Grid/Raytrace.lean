import Mathlib.Analysis.Real.Sqrt
import Ranger.Grid.Costmap2D
import Ranger.Lib.Number
import Ranger.Lib.Raster

/-!
# 線分に沿った走査

`Costmap2D::raytraceLine` と `bresenham2D`。操作を受ける番号の列を返す。`hypot` と縮尺は実数の値である。座標の差の `int` への変換は
引数 `int` とし、正確な算術では恒等写像、機械の算術では `int32` を渡す。
-/

namespace Ranger.Grid
open Ranger.Lib

/-- `sign`。0 の符号は負である。 -/
def sign (x : ℤ) : ℤ := if 0 < x then 1 else -1

/-- `errorB` が溜まるたびに、`offsetB` だけ余分に進む。 -/
def bresenham2D (absDa absDb : ℕ) (offsetA offsetB : ℤ) : ℕ → ℕ → ℕ → List ℕ
  | _, offset, 0 => [offset]
  | errorB, offset, length + 1 =>
      let next := asUnsigned (offset + offsetA)
      offset ::
        if absDa ≤ errorB + absDb then
          bresenham2D absDa absDb offsetA offsetB (errorB + absDb - absDa) (asUnsigned (next + offsetB)) length
        else bresenham2D absDa absDb offsetA offsetB (errorB + absDb) next length

/-- `raytraceLine` の、初めの升目を決めた後の部分。`limit` は、軸の長さを縮めた長さである。 -/
def traceFrom (int : ℤ → ℤ) (sizeX minX0 minY0 x1 y1 : ℕ) (limit : ℕ → ℕ) : List ℕ :=
  let offset := wrap (minY0 * sizeX + minX0)
  let dx := int (x1 - minX0)
  let dy := int (y1 - minY0)
  let offsetDx := sign dx
  let offsetDy := sign dy * sizeX
  if dy.natAbs ≤ dx.natAbs then
    bresenham2D dx.natAbs dy.natAbs offsetDx offsetDy (dx.natAbs / 2) offset (min (limit dx.natAbs) dx.natAbs)
  else
    bresenham2D dy.natAbs dx.natAbs offsetDy offsetDx (dy.natAbs / 2) offset (min (limit dy.natAbs) dy.natAbs)

noncomputable def hypot (dx dy : ℝ) : ℝ := Real.sqrt (dx * dx + dy * dy)

noncomputable def raytraceLine (int : ℤ → ℤ) (sizeX x0 y0 x1 y1 maxLength minLength : ℕ) : List ℕ :=
  let dxFull : ℝ := int (x1 - x0)
  let dyFull : ℝ := int (y1 - y0)
  let dist := hypot dxFull dyFull
  if dist < minLength then []
  else
    let scale := if dist = 0 then 1 else min 1 (maxLength / dist)
    if 0 < dist then
      traceFrom int sizeX ⌊(x0 : ℝ) + dxFull / dist * minLength⌋₊ ⌊(y0 : ℝ) + dyFull / dist * minLength⌋₊ x1 y1
        fun d => ⌊scale * d⌋₊
    else traceFrom int sizeX x0 y0 x1 y1 fun d => ⌊scale * d⌋₊

/-! ## 走査の番号 -/

theorem asUnsigned_add (v w : ℤ) : asUnsigned ((asUnsigned v : ℕ) + w) = asUnsigned (v + w) := by
  rw [asUnsigned, asUnsigned, Int.toNat_of_nonneg (Int.emod_nonneg v (by decide)), Int.emod_add_emod, asUnsigned]

theorem asUnsigned_natCast {v : ℕ} (h : v < 4294967296) : asUnsigned v = v := by
  rw [asUnsigned_of_nonneg (Int.natCast_nonneg v) (by exact_mod_cast h), Int.toNat_natCast]

/-- 走査の `k` 番目の番号は、二つの軸を進んだ数で決まる。 -/
theorem bresenham2D_eq {absDa absDb : ℕ} (hb : absDb ≤ absDa) (offsetA offsetB : ℤ) {errorB length : ℕ}
    (herror : errorB < absDa ∨ (absDa = 0 ∧ length = 0)) (o : ℤ) :
    bresenham2D absDa absDb offsetA offsetB errorB (asUnsigned o) length =
      (List.range (length + 1)).map fun k : ℕ =>
        asUnsigned (o + k * offsetA + ((errorB + k * absDb) / absDa : ℕ) * offsetB) := by
  induction length generalizing errorB o with
  | zero =>
      have hfirst : errorB / absDa = 0 := by
        rcases herror with hlt | ⟨rfl, -⟩
        · exact Nat.div_eq_of_lt hlt
        · exact Nat.div_zero errorB
      simp only [bresenham2D, Nat.zero_add, List.range_one, List.map_cons, List.map_nil, Nat.zero_mul, Nat.add_zero,
        hfirst]
      simp
  | succ length ih =>
      have hlt : errorB < absDa := by omega
      have hpos : 0 < absDa := by omega
      have hfirst : (errorB + 0 * absDb) / absDa = 0 := by
        rw [Nat.zero_mul, Nat.add_zero]
        exact Nat.div_eq_of_lt hlt
      rw [List.range_succ_eq_map, List.map_cons, List.map_map, bresenham2D, hfirst]
      congr 1
      · simp
      · simp only [asUnsigned_add]
        split_ifs with hstep
        · have herror' : errorB + absDb - absDa < absDa := by omega
          rw [ih (Or.inl herror')]
          apply List.map_congr_left
          intro k _
          have hcount : (errorB + (k + 1) * absDb) / absDa = (errorB + absDb - absDa + k * absDb) / absDa + 1 := by
            rw [← Nat.add_div_right _ hpos]
            congr 1
            rw [Nat.succ_mul]
            omega
          simp only [Function.comp_apply, Nat.succ_eq_add_one, hcount]
          congr 1
          push_cast
          ring
        · have herror' : errorB + absDb < absDa := by omega
          rw [ih (Or.inl herror')]
          apply List.map_congr_left
          intro k _
          have hcount : errorB + (k + 1) * absDb = errorB + absDb + k * absDb := by ring
          simp only [Function.comp_apply, Nat.succ_eq_add_one, hcount]
          congr 1
          push_cast
          ring

/-! ## 走査の升目 -/

def traceLength (x0 y0 x1 y1 : ℕ) : ℕ := max ((x1 : ℤ) - x0).natAbs ((y1 : ℤ) - y0).natAbs

/-- `k` 番目の升目で、二つの軸を進んだ数。 -/
def traceSteps (x0 y0 x1 y1 k : ℕ) : ℕ × ℕ :=
  let absDx := ((x1 : ℤ) - x0).natAbs
  let absDy := ((y1 : ℤ) - y0).natAbs
  if absDy ≤ absDx then (k, minorSteps absDx absDy k) else (minorSteps absDy absDx k, k)

def traceCell (x0 y0 x1 y1 k : ℕ) : MapLocation where
  x := ((x0 : ℤ) + sign ((x1 : ℤ) - x0) * (traceSteps x0 y0 x1 y1 k).1).toNat
  y := ((y0 : ℤ) + sign ((y1 : ℤ) - y0) * (traceSteps x0 y0 x1 y1 k).2).toNat

section Axis

variable {a b t : ℕ}

/-- 軸を進んだ位置は、両端のあいだにある。 -/
theorem axis_between (ht : t ≤ ((b : ℤ) - a).natAbs) :
    min (a : ℤ) b ≤ a + sign ((b : ℤ) - a) * t ∧ a + sign ((b : ℤ) - a) * t ≤ max (a : ℤ) b := by
  unfold sign
  split_ifs
  · omega
  · omega

theorem axis_end : (a : ℤ) + sign ((b : ℤ) - a) * ((b : ℤ) - a).natAbs = b := by
  unfold sign
  split_ifs
  · omega
  · omega

/-- 両端のあいだのどの位置にも、軸を進んで着く。 -/
theorem exists_axis_eq {x : ℕ} (hlo : min a b ≤ x) (hhi : x ≤ max a b) :
    ∃ t ≤ ((b : ℤ) - a).natAbs, (a : ℤ) + sign ((b : ℤ) - a) * t = x := by
  refine ⟨((x : ℤ) - a).natAbs, by omega, ?_⟩
  unfold sign
  split_ifs
  · omega
  · omega

end Axis

variable {x0 y0 x1 y1 k : ℕ}

theorem traceSteps_zero : traceSteps x0 y0 x1 y1 0 = (0, 0) := by
  unfold traceSteps
  dsimp only
  split_ifs
  · rw [minorSteps_zero]
  · rw [minorSteps_zero]

theorem traceSteps_le (hk : k ≤ traceLength x0 y0 x1 y1) :
    (traceSteps x0 y0 x1 y1 k).1 ≤ ((x1 : ℤ) - x0).natAbs ∧
      (traceSteps x0 y0 x1 y1 k).2 ≤ ((y1 : ℤ) - y0).natAbs := by
  unfold traceLength at hk
  unfold traceSteps
  dsimp only
  split_ifs with h
  · rw [max_eq_left h] at hk
    exact ⟨hk, minorSteps_le hk⟩
  · rw [max_eq_right (Nat.le_of_not_le h)] at hk
    exact ⟨minorSteps_le hk, hk⟩

theorem traceSteps_length :
    traceSteps x0 y0 x1 y1 (traceLength x0 y0 x1 y1) = (((x1 : ℤ) - x0).natAbs, ((y1 : ℤ) - y0).natAbs) := by
  unfold traceSteps traceLength
  dsimp only
  split_ifs with h
  · rw [max_eq_left h]
    rcases Nat.eq_zero_or_pos ((x1 : ℤ) - x0).natAbs with hzero | hpos
    · rw [hzero] at h ⊢
      rw [Nat.le_zero.mp h, minorSteps_zero]
    · rw [minorSteps_full hpos]
  · rw [max_eq_right (Nat.le_of_not_le h), minorSteps_full (by omega)]

/-- 走査の升目は、両端を含む矩形にある。 -/
theorem traceCell_between (hk : k ≤ traceLength x0 y0 x1 y1) :
    (min x0 x1 ≤ (traceCell x0 y0 x1 y1 k).x ∧ (traceCell x0 y0 x1 y1 k).x ≤ max x0 x1) ∧
      min y0 y1 ≤ (traceCell x0 y0 x1 y1 k).y ∧ (traceCell x0 y0 x1 y1 k).y ≤ max y0 y1 := by
  obtain ⟨hx, hy⟩ := traceSteps_le hk
  have hbx := axis_between hx
  have hby := axis_between hy
  unfold traceCell
  dsimp only
  omega

theorem traceCell_zero : traceCell x0 y0 x1 y1 0 = ⟨x0, y0⟩ := by
  simp [traceCell, traceSteps_zero]

theorem traceSteps_mono (x0 y0 x1 y1 : ℕ) {j : ℕ} (h : j ≤ k) :
    (traceSteps x0 y0 x1 y1 j).1 ≤ (traceSteps x0 y0 x1 y1 k).1 ∧
      (traceSteps x0 y0 x1 y1 j).2 ≤ (traceSteps x0 y0 x1 y1 k).2 := by
  unfold traceSteps
  dsimp only
  split_ifs
  · exact ⟨h, minorSteps_mono h⟩
  · exact ⟨minorSteps_mono h, h⟩

/-- 縦、横、斜めに隣り合うか、等しい升目。 -/
def Adjacent (c d : MapLocation) : Prop := (c.x ≤ d.x + 1 ∧ d.x ≤ c.x + 1) ∧ c.y ≤ d.y + 1 ∧ d.y ≤ c.y + 1

theorem traceSteps_succ_le :
    (traceSteps x0 y0 x1 y1 (k + 1)).1 ≤ (traceSteps x0 y0 x1 y1 k).1 + 1 ∧
      (traceSteps x0 y0 x1 y1 (k + 1)).2 ≤ (traceSteps x0 y0 x1 y1 k).2 + 1 := by
  unfold traceSteps
  dsimp only
  split_ifs with h
  · exact ⟨le_rfl, minorSteps_succ_le h⟩
  · exact ⟨minorSteps_succ_le (Nat.le_of_not_le h), le_rfl⟩

theorem traceCell_length : traceCell x0 y0 x1 y1 (traceLength x0 y0 x1 y1) = ⟨x1, y1⟩ := by
  rw [traceCell, traceSteps_length, axis_end, axis_end, Int.toNat_natCast, Int.toNat_natCast]

theorem exists_traceCell_x {x : ℕ} (hlo : min x0 x1 ≤ x) (hhi : x ≤ max x0 x1) :
    ∃ k ≤ traceLength x0 y0 x1 y1, (traceCell x0 y0 x1 y1 k).x = x := by
  obtain ⟨t, ht, heq⟩ := exists_axis_eq hlo hhi
  have hsteps : ∃ k ≤ traceLength x0 y0 x1 y1, (traceSteps x0 y0 x1 y1 k).1 = t := by
    unfold traceSteps traceLength
    dsimp only
    split_ifs with h
    · exact ⟨t, ht.trans (le_max_left _ _), rfl⟩
    · have hle := Nat.le_of_not_le h
      obtain ⟨j, hj, hsteps⟩ := exists_minorSteps_eq (k := ((y1 : ℤ) - y0).natAbs) hle
        (ht.trans (Nat.le_of_eq (minorSteps_full (by omega)).symm))
      exact ⟨j, hj.trans (le_max_right _ _), hsteps⟩
  obtain ⟨k, hk, hstep⟩ := hsteps
  refine ⟨k, hk, ?_⟩
  rw [traceCell, hstep, heq, Int.toNat_natCast]

/-! ## 番号と升目 -/

theorem traceCell_cast (hk : k ≤ traceLength x0 y0 x1 y1) :
    ((traceCell x0 y0 x1 y1 k).x : ℤ) = x0 + sign ((x1 : ℤ) - x0) * (traceSteps x0 y0 x1 y1 k).1 ∧
      ((traceCell x0 y0 x1 y1 k).y : ℤ) = y0 + sign ((y1 : ℤ) - y0) * (traceSteps x0 y0 x1 y1 k).2 := by
  obtain ⟨hx, hy⟩ := traceSteps_le hk
  have hbx := axis_between hx
  have hby := axis_between hy
  exact ⟨Int.toNat_of_nonneg (by omega), Int.toNat_of_nonneg (by omega)⟩

theorem sign_mul_near {d : ℤ} {s t : ℕ} (hst : s ≤ t) (hts : t ≤ s + 1) :
    sign d * s ≤ sign d * t + 1 ∧ sign d * t ≤ sign d * s + 1 := by
  unfold sign
  split_ifs
  · omega
  · omega

theorem traceCell_adjacent (hk : k < traceLength x0 y0 x1 y1) :
    Adjacent (traceCell x0 y0 x1 y1 k) (traceCell x0 y0 x1 y1 (k + 1)) := by
  obtain ⟨hcx, hcy⟩ := traceCell_cast hk.le
  obtain ⟨hdx, hdy⟩ := traceCell_cast (k := k + 1) hk
  obtain ⟨hmx, hmy⟩ := traceSteps_mono x0 y0 x1 y1 (Nat.le_add_right k 1)
  obtain ⟨hsx, hsy⟩ := @traceSteps_succ_le x0 y0 x1 y1 k
  have hx := sign_mul_near (d := (x1 : ℤ) - x0) hmx hsx
  have hy := sign_mul_near (d := (y1 : ℤ) - y0) hmy hsy
  unfold Adjacent
  omega

/-- 走査は、初めの升目から順に、縮めた長さだけ進む。 -/
theorem traceFrom_eq {int : ℤ → ℤ} (hdx : int (x1 - x0) = x1 - x0) (hdy : int (y1 - y0) = y1 - y0) {sizeX sizeY : ℕ}
    (limit : ℕ → ℕ) (hx : max x0 x1 < sizeX) (hy : max y0 y1 < sizeY) (harea : sizeX * sizeY < 4294967296) :
    traceFrom int sizeX x0 y0 x1 y1 limit =
      (List.range (min (limit (traceLength x0 y0 x1 y1)) (traceLength x0 y0 x1 y1) + 1)).map fun k =>
        (traceCell x0 y0 x1 y1 k).y * sizeX + (traceCell x0 y0 x1 y1 k).x := by
  have hstart : y0 * sizeX + x0 < 4294967296 :=
    (index_lt (by omega : x0 < sizeX) (by omega : y0 < sizeY)).trans harea
  have hoffset : wrap (y0 * sizeX + x0) = asUnsigned ((y0 : ℤ) * sizeX + x0) := by
    rw [wrap_of_lt hstart, ← asUnsigned_natCast hstart]
    push_cast
    rfl
  -- どちらの軸が長くても、進んだ数から番号が決まる。
  have hindex : ∀ k ≤ traceLength x0 y0 x1 y1,
      asUnsigned ((y0 : ℤ) * sizeX + x0 + sign ((x1 : ℤ) - x0) * (traceSteps x0 y0 x1 y1 k).1 +
        sign ((y1 : ℤ) - y0) * sizeX * (traceSteps x0 y0 x1 y1 k).2) =
      (traceCell x0 y0 x1 y1 k).y * sizeX + (traceCell x0 y0 x1 y1 k).x := by
    intro k hk
    obtain ⟨hbx, hby⟩ := traceCell_between hk
    obtain ⟨hcx, hcy⟩ := traceCell_cast hk
    rw [← asUnsigned_natCast ((index_lt (by omega : (traceCell x0 y0 x1 y1 k).x < sizeX)
      (by omega : (traceCell x0 y0 x1 y1 k).y < sizeY)).trans harea)]
    congr 1
    push_cast
    rw [hcx, hcy]
    ring
  unfold traceFrom
  dsimp only
  rw [hoffset, hdx, hdy]
  unfold traceLength at hindex ⊢
  unfold traceSteps at hindex
  split_ifs with h
  · rw [max_eq_left h] at hindex ⊢
    rw [bresenham2D_eq h _ _ (by omega)]
    apply List.map_congr_left
    intro k hk
    have hle : k ≤ ((x1 : ℤ) - x0).natAbs := by
      have hlt := List.mem_range.mp hk
      omega
    rw [← hindex k hle]
    simp only [if_pos h, minorSteps]
    congr 1
    ring
  · have hle' := Nat.le_of_not_le h
    rw [max_eq_right hle'] at hindex ⊢
    rw [bresenham2D_eq hle' _ _ (by omega)]
    apply List.map_congr_left
    intro k hk
    have hle : k ≤ ((y1 : ℤ) - y0).natAbs := by
      have hlt := List.mem_range.mp hk
      omega
    rw [← hindex k hle]
    simp only [if_neg h, minorSteps]
    congr 1
    ring

/-! ## 長さを縮めない走査 -/

theorem hypot_nonneg (a b : ℝ) : 0 ≤ hypot a b := Real.sqrt_nonneg _

theorem hypot_le_add (a b : ℝ) : hypot a b ≤ |a| + |b| := by
  rw [hypot, Real.sqrt_le_iff]
  refine ⟨by positivity, ?_⟩
  have hcross : 0 ≤ |a| * |b| := by positivity
  nlinarith [abs_mul_abs_self a, abs_mul_abs_self b]

theorem hypot_eq_zero {a b : ℝ} (h : hypot a b = 0) : a = 0 ∧ b = 0 := by
  have hsum : a * a + b * b = 0 := (Real.sqrt_eq_zero (add_nonneg (mul_self_nonneg a) (mul_self_nonneg b))).mp h
  exact mul_self_add_mul_self_eq_zero.mp hsum

theorem hypot_comm (a b : ℝ) : hypot a b = hypot b a := by
  rw [hypot, hypot, add_comm]

theorem hypot_self_zero (a : ℝ) : hypot a 0 = |a| := by
  rw [hypot, mul_zero, add_zero, Real.sqrt_mul_self_eq_abs]

theorem abs_sub_le_of_lt {a b n : ℕ} (h : max a b < n) : |(b : ℝ) - a| ≤ n - 1 := by
  have ha : (a : ℝ) + 1 ≤ n := by exact_mod_cast (by omega : a + 1 ≤ n)
  have hb : (b : ℝ) + 1 ≤ n := by exact_mod_cast (by omega : b + 1 ≤ n)
  rw [abs_le]
  constructor
  · linarith [Nat.cast_nonneg (α := ℝ) b]
  · linarith [Nat.cast_nonneg (α := ℝ) a]

/-- 線分が最大の長さより短ければ、走査の長さは縮まない。 -/
theorem raytraceLine_long (int : ℤ → ℤ) (sizeX : ℕ) {maxLength : ℕ}
    (hdist : hypot (int (x1 - x0)) (int (y1 - y0)) ≤ maxLength) :
    raytraceLine int sizeX x0 y0 x1 y1 maxLength 0 = traceFrom int sizeX x0 y0 x1 y1 fun d => d := by
  have hscale : (if hypot (int (x1 - x0)) (int (y1 - y0)) = 0 then (1 : ℝ)
      else min 1 (maxLength / hypot (int (x1 - x0)) (int (y1 - y0)))) = 1 := by
    split_ifs with hzero
    · rfl
    · have hpos : 0 < hypot (int (x1 - x0)) (int (y1 - y0)) := lt_of_le_of_ne (hypot_nonneg _ _) (Ne.symm hzero)
      exact min_eq_left ((one_le_div hpos).mpr hdist)
  have hlimit : (fun d : ℕ => ⌊(1 : ℝ) * d⌋₊) = fun d => d := by
    funext d
    rw [one_mul, Nat.floor_natCast]
  have hnonneg : ¬ hypot (int (x1 - x0)) (int (y1 - y0)) < (0 : ℕ) := by
    rw [Nat.cast_zero]
    exact not_lt.mpr (hypot_nonneg _ _)
  unfold raytraceLine
  dsimp only
  rw [if_neg hnonneg, hscale, hlimit, Nat.cast_zero, mul_zero, mul_zero, add_zero, add_zero, Nat.floor_natCast,
    Nat.floor_natCast, ite_self]

/-- 既定の長さでは、走査は終わりの升目まで進む。 -/
theorem raytraceLine_full {int : ℤ → ℤ} (hdx : int (x1 - x0) = x1 - x0) (hdy : int (y1 - y0) = y1 - y0)
    {sizeX sizeY : ℕ} (hx : max x0 x1 < sizeX) (hy : max y0 y1 < sizeY) (harea : sizeX * sizeY < 4294967296) :
    raytraceLine int sizeX x0 y0 x1 y1 4294967295 0 =
      (List.range (traceLength x0 y0 x1 y1 + 1)).map fun k =>
        (traceCell x0 y0 x1 y1 k).y * sizeX + (traceCell x0 y0 x1 y1 k).x := by
  have hdist : hypot (int (x1 - x0)) (int (y1 - y0)) ≤ (4294967295 : ℕ) := by
    have hsize : sizeX + sizeY ≤ 4294967295 + 2 := by
      obtain ⟨w, rfl⟩ := Nat.exists_eq_succ_of_ne_zero (by omega : sizeX ≠ 0)
      obtain ⟨h, rfl⟩ := Nat.exists_eq_succ_of_ne_zero (by omega : sizeY ≠ 0)
      rw [Nat.succ_mul, Nat.mul_succ] at harea
      omega
    have hsize' : (sizeX : ℝ) + sizeY ≤ (4294967295 : ℕ) + 2 := by exact_mod_cast hsize
    have hsum := hypot_le_add ((x1 : ℝ) - x0) ((y1 : ℝ) - y0)
    rw [hdx, hdy]
    push_cast at hsum hsize' ⊢
    linarith [abs_sub_le_of_lt hx, abs_sub_le_of_lt hy]
  rw [raytraceLine_long int sizeX hdist, traceFrom_eq hdx hdy _ hx hy harea, min_self]

/-! ## `int` に収まらない差 -/

section Wrapped

variable {a b : ℕ}

/-- 差が `int` に収まらない軸では、逆の向きに進み、`unsigned int` の最大の番号を通る。 -/
theorem exists_wrapped (ha : a < 4294967296) (hb : b < 4294967296) (h : int32 ((b : ℤ) - a) ≠ (b : ℤ) - a) :
    ∃ k ≤ (int32 ((b : ℤ) - a)).natAbs, asUnsigned ((a : ℤ) + k * sign (int32 ((b : ℤ) - a))) = 4294967295 := by
  unfold int32 at h ⊢
  unfold sign asUnsigned
  split_ifs at h ⊢ with hlow hpos
  · exact ⟨4294967295 - a, by omega, by omega⟩
  · exact absurd hpos (by omega)
  · exact absurd hlow (by omega)
  · exact ⟨a + 1, by omega, by omega⟩

/-- 短い方の軸が動かない走査。 -/
theorem bresenham2D_straight (ha : a < 4294967296) (d offsetB : ℤ) :
    bresenham2D d.natAbs 0 (sign d) offsetB (d.natAbs / 2) a d.natAbs =
      (List.range (d.natAbs + 1)).map fun k : ℕ => asUnsigned ((a : ℤ) + k * sign d) := by
  conv_lhs => rw [← asUnsigned_natCast ha]
  rw [bresenham2D_eq (Nat.zero_le _) _ _ (by omega)]
  apply List.map_congr_left
  intro k _
  have hminor : (d.natAbs / 2 + k * 0) / d.natAbs = 0 := by
    have hsteps := minorSteps_minor_zero (a := d.natAbs) (k := k)
    rwa [minorSteps] at hsteps
  rw [hminor, Nat.cast_zero, zero_mul, add_zero]

theorem abs_int32_le (v : ℤ) : |((int32 v : ℤ) : ℝ)| ≤ (4294967295 : ℕ) := by
  have hbound : |int32 v| ≤ 4294967295 := by
    unfold int32
    split_ifs
    · rw [abs_le]
      omega
    · rw [abs_le]
      omega
  exact_mod_cast hbound

/-- 行 0 に沿った走査。 -/
theorem raytraceLine_row (sizeX : ℕ) (ha : a < 4294967296) :
    raytraceLine int32 sizeX a 0 b 0 4294967295 0 = (List.range ((int32 ((b : ℤ) - a)).natAbs + 1)).map fun k : ℕ =>
      asUnsigned ((a : ℤ) + k * sign (int32 ((b : ℤ) - a))) := by
  have hzero : int32 ((0 : ℕ) - (0 : ℕ)) = 0 := by decide
  have hdist : hypot (int32 (b - a)) (int32 ((0 : ℕ) - (0 : ℕ))) ≤ (4294967295 : ℕ) := by
    rw [hzero, Int.cast_zero, hypot_self_zero]
    exact abs_int32_le _
  rw [raytraceLine_long int32 sizeX hdist]
  unfold traceFrom
  dsimp only
  rw [hzero, Int.natAbs_zero, if_pos (Nat.zero_le _), Nat.zero_mul, Nat.zero_add, wrap_of_lt ha, min_self,
    bresenham2D_straight ha]

/-- 幅が一列の地図の、列に沿った走査。 -/
theorem raytraceLine_column (ha : a < 4294967296) (h : int32 ((b : ℤ) - a) ≠ 0) :
    raytraceLine int32 1 0 a 0 b 4294967295 0 = (List.range ((int32 ((b : ℤ) - a)).natAbs + 1)).map fun k : ℕ =>
      asUnsigned ((a : ℤ) + k * sign (int32 ((b : ℤ) - a))) := by
  have hzero : int32 ((0 : ℕ) - (0 : ℕ)) = 0 := by decide
  have hne : ¬ (int32 ((b : ℤ) - a)).natAbs ≤ 0 := by omega
  have hdist : hypot (int32 ((0 : ℕ) - (0 : ℕ))) (int32 (b - a)) ≤ (4294967295 : ℕ) := by
    rw [hzero, Int.cast_zero, hypot_comm, hypot_self_zero]
    exact abs_int32_le _
  rw [raytraceLine_long int32 1 hdist]
  unfold traceFrom
  dsimp only
  rw [hzero, Int.natAbs_zero, if_neg hne, Nat.mul_one, Nat.add_zero, wrap_of_lt ha, min_self, Nat.cast_one, mul_one,
    bresenham2D_straight ha]

/-- 差が `int` に収まらない走査の番号。 -/
theorem top_mem_of_wrapped (ha : a < 4294967296) (hb : b < 4294967296) (h : int32 ((b : ℤ) - a) ≠ (b : ℤ) - a) :
    4294967295 ∈ (List.range ((int32 ((b : ℤ) - a)).natAbs + 1)).map fun k : ℕ =>
      asUnsigned ((a : ℤ) + k * sign (int32 ((b : ℤ) - a))) := by
  obtain ⟨k, hk, htop⟩ := exists_wrapped ha hb h
  exact List.mem_map.mpr ⟨k, List.mem_range.mpr (Nat.lt_succ_of_le hk), htop⟩

end Wrapped

/-! ## 長さを縮めた走査 -/

/-- 最小の長さだけ離れた、走査の初めの升目。 -/
noncomputable def traceStart (x0 y0 x1 y1 minLength : ℕ) : MapLocation :=
  let dist := hypot ((x1 : ℝ) - x0) ((y1 : ℝ) - y0)
  if 0 < dist then
    ⟨⌊(x0 : ℝ) + ((x1 : ℝ) - x0) / dist * minLength⌋₊, ⌊(y0 : ℝ) + ((y1 : ℝ) - y0) / dist * minLength⌋₊⟩
  else ⟨x0, y0⟩

noncomputable def traceScale (x0 y0 x1 y1 maxLength : ℕ) : ℝ :=
  let dist := hypot ((x1 : ℝ) - x0) ((y1 : ℝ) - y0)
  if dist = 0 then 1 else min 1 (maxLength / dist)

noncomputable def stopSteps (x0 y0 x1 y1 maxLength minLength : ℕ) : ℕ :=
  let start := traceStart x0 y0 x1 y1 minLength
  ⌊traceScale x0 y0 x1 y1 maxLength * traceLength start.x start.y x1 y1⌋₊

noncomputable def traceStop (x0 y0 x1 y1 maxLength minLength : ℕ) : MapLocation :=
  let start := traceStart x0 y0 x1 y1 minLength
  traceCell start.x start.y x1 y1 (stopSteps x0 y0 x1 y1 maxLength minLength)

theorem traceScale_le_one (maxLength : ℕ) : traceScale x0 y0 x1 y1 maxLength ≤ 1 := by
  unfold traceScale
  dsimp only
  split_ifs
  · exact le_refl 1
  · exact min_le_left _ _

theorem stopSteps_le (x0 y0 x1 y1 maxLength minLength : ℕ) :
    stopSteps x0 y0 x1 y1 maxLength minLength ≤
      traceLength (traceStart x0 y0 x1 y1 minLength).x (traceStart x0 y0 x1 y1 minLength).y x1 y1 := by
  apply Nat.floor_le_of_le
  exact mul_le_of_le_one_left (Nat.cast_nonneg _) (traceScale_le_one maxLength)

/-- 両端のあいだを進んだ位置の切り捨ては、両端のあいだにある。 -/
theorem floor_between {a b : ℕ} {t : ℝ} (h0 : 0 ≤ t) (h1 : t ≤ 1) :
    min a b ≤ ⌊(a : ℝ) + ((b : ℝ) - a) * t⌋₊ ∧ ⌊(a : ℝ) + ((b : ℝ) - a) * t⌋₊ ≤ max a b := by
  rcases Nat.le_total a b with hab | hba
  · have hcast : (a : ℝ) ≤ b := Nat.cast_le.mpr hab
    rw [min_eq_left hab, max_eq_right hab]
    constructor
    · exact Nat.le_floor (by nlinarith)
    · exact Nat.floor_le_of_le (by nlinarith)
  · have hcast : (b : ℝ) ≤ a := Nat.cast_le.mpr hba
    rw [min_eq_right hba, max_eq_left hba]
    constructor
    · exact Nat.le_floor (by nlinarith)
    · exact Nat.floor_le_of_le (by nlinarith)

theorem traceStart_between {minLength : ℕ} (h : (minLength : ℝ) ≤ hypot ((x1 : ℝ) - x0) ((y1 : ℝ) - y0)) :
    (min x0 x1 ≤ (traceStart x0 y0 x1 y1 minLength).x ∧ (traceStart x0 y0 x1 y1 minLength).x ≤ max x0 x1) ∧
      min y0 y1 ≤ (traceStart x0 y0 x1 y1 minLength).y ∧ (traceStart x0 y0 x1 y1 minLength).y ≤ max y0 y1 := by
  unfold traceStart
  dsimp only
  split_ifs with hpos
  · have h0 : 0 ≤ (minLength : ℝ) / hypot ((x1 : ℝ) - x0) ((y1 : ℝ) - y0) :=
      div_nonneg (Nat.cast_nonneg _) hpos.le
    have h1 : (minLength : ℝ) / hypot ((x1 : ℝ) - x0) ((y1 : ℝ) - y0) ≤ 1 := (div_le_one hpos).mpr h
    rw [div_mul_eq_mul_div, mul_div_assoc, div_mul_eq_mul_div, mul_div_assoc]
    exact ⟨floor_between h0 h1, floor_between h0 h1⟩
  · exact ⟨⟨min_le_left _ _, le_max_left _ _⟩, min_le_left _ _, le_max_left _ _⟩

/-- 走査は、初めの升目から終わりの升目までの番号の列である。 -/
theorem raytraceLine_eq {sizeX sizeY : ℕ} (hx : max x0 x1 < sizeX) (hy : max y0 y1 < sizeY)
    (harea : sizeX * sizeY < 4294967296) {maxLength minLength : ℕ}
    (h : (minLength : ℝ) ≤ hypot ((x1 : ℝ) - x0) ((y1 : ℝ) - y0)) :
    raytraceLine id sizeX x0 y0 x1 y1 maxLength minLength =
      (List.range (stopSteps x0 y0 x1 y1 maxLength minLength + 1)).map fun k =>
        (traceCell (traceStart x0 y0 x1 y1 minLength).x (traceStart x0 y0 x1 y1 minLength).y x1 y1 k).y * sizeX +
          (traceCell (traceStart x0 y0 x1 y1 minLength).x (traceStart x0 y0 x1 y1 minLength).y x1 y1 k).x := by
  obtain ⟨hsx, hsy⟩ := traceStart_between h
  have hline : raytraceLine id sizeX x0 y0 x1 y1 maxLength minLength =
      traceFrom id sizeX (traceStart x0 y0 x1 y1 minLength).x (traceStart x0 y0 x1 y1 minLength).y x1 y1
        fun d => ⌊traceScale x0 y0 x1 y1 maxLength * d⌋₊ := by
    unfold raytraceLine traceStart traceScale
    simp only [id, Int.cast_sub, Int.cast_natCast]
    rw [if_neg (not_lt.mpr h)]
    split_ifs <;> rfl
  have hsteps := min_eq_left (stopSteps_le x0 y0 x1 y1 maxLength minLength)
  unfold stopSteps at hsteps ⊢
  dsimp only at hsteps ⊢
  rw [hline, traceFrom_eq rfl rfl _ (by omega) (by omega) harea, hsteps]

theorem raytraceLine_short {sizeX maxLength minLength : ℕ}
    (h : hypot ((x1 : ℝ) - x0) ((y1 : ℝ) - y0) < minLength) :
    raytraceLine id sizeX x0 y0 x1 y1 maxLength minLength = [] := by
  unfold raytraceLine
  simp only [id, Int.cast_sub, Int.cast_natCast]
  rw [if_pos h]

/-- 軸を途中まで進んだ位置は、先まで進んだ位置と、向こう側の端 `e` とのあいだにある。 -/
theorem axis_path {e a b s t : ℕ} (hst : s ≤ t) (ht : t ≤ ((b : ℤ) - a).natAbs) (ha : min e b ≤ a ∧ a ≤ max e b) :
    min (e : ℤ) (a + sign ((b : ℤ) - a) * t) ≤ a + sign ((b : ℤ) - a) * s ∧
      a + sign ((b : ℤ) - a) * s ≤ max (e : ℤ) (a + sign ((b : ℤ) - a) * t) := by
  unfold sign
  split_ifs
  · omega
  · omega

/-- 走査の升目は、線分の始まりと走査の終わりのあいだにある。 -/
theorem traceCell_path {maxLength minLength : ℕ} (h : (minLength : ℝ) ≤ hypot ((x1 : ℝ) - x0) ((y1 : ℝ) - y0))
    (hk : k ≤ stopSteps x0 y0 x1 y1 maxLength minLength) {c : MapLocation}
    (hc : c = traceCell (traceStart x0 y0 x1 y1 minLength).x (traceStart x0 y0 x1 y1 minLength).y x1 y1 k) :
    (min x0 (traceStop x0 y0 x1 y1 maxLength minLength).x ≤ c.x ∧
        c.x ≤ max x0 (traceStop x0 y0 x1 y1 maxLength minLength).x) ∧
      min y0 (traceStop x0 y0 x1 y1 maxLength minLength).y ≤ c.y ∧
        c.y ≤ max y0 (traceStop x0 y0 x1 y1 maxLength minLength).y := by
  obtain ⟨hsx, hsy⟩ := traceStart_between h
  have hstop := stopSteps_le x0 y0 x1 y1 maxLength minLength
  obtain ⟨hx, hy⟩ := traceSteps_le hstop
  obtain ⟨hmx, hmy⟩ := traceSteps_mono (traceStart x0 y0 x1 y1 minLength).x (traceStart x0 y0 x1 y1 minLength).y x1 y1 hk
  obtain ⟨hcx, hcy⟩ := traceCell_cast (hk.trans hstop)
  obtain ⟨hex, hey⟩ := traceCell_cast hstop
  have hpx := axis_path hmx hx hsx
  have hpy := axis_path hmy hy hsy
  rw [← hcx, ← hex] at hpx
  rw [← hcy, ← hey] at hpy
  subst hc
  unfold traceStop
  dsimp only
  constructor
  · exact_mod_cast hpx
  · exact_mod_cast hpy

/-- 走査の終わりの升目は、線分の両端のあいだにある。 -/
theorem traceStop_between (maxLength : ℕ) {minLength : ℕ}
    (h : (minLength : ℝ) ≤ hypot ((x1 : ℝ) - x0) ((y1 : ℝ) - y0)) :
    (min x0 x1 ≤ (traceStop x0 y0 x1 y1 maxLength minLength).x ∧
        (traceStop x0 y0 x1 y1 maxLength minLength).x ≤ max x0 x1) ∧
      min y0 y1 ≤ (traceStop x0 y0 x1 y1 maxLength minLength).y ∧
        (traceStop x0 y0 x1 y1 maxLength minLength).y ≤ max y0 y1 := by
  have hstart := traceStart_between h
  have hcell := traceCell_between (stopSteps_le x0 y0 x1 y1 maxLength minLength)
  unfold traceStop
  dsimp only
  omega

/-- 最小の長さがなく、最大の長さが線分より長ければ、走査は終わりの升目まで進む。 -/
theorem traceStop_full {maxLength : ℕ} (h : hypot ((x1 : ℝ) - x0) ((y1 : ℝ) - y0) ≤ maxLength) :
    traceStop x0 y0 x1 y1 maxLength 0 = ⟨x1, y1⟩ := by
  have hstart : traceStart x0 y0 x1 y1 0 = ⟨x0, y0⟩ := by
    unfold traceStart
    dsimp only
    rw [Nat.cast_zero, mul_zero, mul_zero, add_zero, add_zero, Nat.floor_natCast, Nat.floor_natCast, ite_self]
  have hscale : traceScale x0 y0 x1 y1 maxLength = 1 := by
    unfold traceScale
    dsimp only
    split_ifs with hzero
    · rfl
    · have hpos : 0 < hypot ((x1 : ℝ) - x0) ((y1 : ℝ) - y0) := lt_of_le_of_ne (hypot_nonneg _ _) (Ne.symm hzero)
      exact min_eq_left ((one_le_div hpos).mpr h)
  unfold traceStop stopSteps
  dsimp only
  rw [hstart, hscale, one_mul, Nat.floor_natCast]
  exact traceCell_length

end Ranger.Grid
