import Mathlib.Analysis.SpecialFunctions.Trigonometric.Arctan
import Mathlib.Analysis.SpecialFunctions.Trigonometric.Bounds
import Ranger.Lib.Wire

/-!
# 平面の速度と向き

実数の上で、上限での打ち切り、整数への切り捨て、比の逆正接と、平面の速度の向きを定める。比の逆正接は、割る数が 0 の
とき、浮動小数点の無限大の逆正接と同じく、直角になる。
-/

namespace Ranger.Lib

/-! ## 上限での打ち切り -/

section Clamp

variable {K : Type*} [AddCommGroup K] [LinearOrder K] [IsOrderedAddMonoid K]

/-- `m` より大きい値を `m` に、`-m` より小さい値を `-m` にする。 -/
def clampAbs (m v : K) : K :=
  let v := if v > m then m else v
  if v < -m then -m else v

theorem clampAbs_of_abs_le {m v : K} (h : |v| ≤ m) : clampAbs m v = v := by
  obtain ⟨hlow, hhigh⟩ := abs_le.mp h
  simp only [clampAbs, if_neg (not_lt.mpr hhigh), if_neg (not_lt.mpr hlow)]

theorem abs_clampAbs {m : K} (hm : 0 ≤ m) (v : K) : |clampAbs m v| = min |v| m := by
  have hneg : -m ≤ m := neg_le_self hm
  simp only [clampAbs]
  split_ifs with h₁ h₂ h₃
  · exact absurd h₂ (not_lt.mpr hneg)
  · rw [abs_of_nonneg hm, min_eq_right (h₁.le.trans (le_abs_self v))]
  · have hv : m ≤ |v| := (le_neg_of_le_neg h₃.le).trans (neg_le_abs v)
    rw [abs_neg, abs_of_nonneg hm, min_eq_right hv]
  · exact (min_eq_left (abs_le.mpr ⟨not_lt.mp h₃, not_lt.mp h₁⟩)).symm

theorem abs_clampAbs_le {m : K} (hm : 0 ≤ m) (v : K) : |clampAbs m v| ≤ m :=
  abs_clampAbs hm v ▸ min_le_right _ _

/-- 二つの上限での打ち切りが一致するのは、小さい方の上限を超えない値である。 -/
theorem clampAbs_eq_iff {m m' : K} (hm : 0 ≤ m) (hlt : m < m') (v : K) :
    clampAbs m v = clampAbs m' v ↔ |v| ≤ m := by
  constructor
  · intro h
    have habs : min |v| m = min |v| m' := by
      rw [← abs_clampAbs hm, ← abs_clampAbs (hm.trans hlt.le), h]
    by_contra hv
    rw [min_eq_right (not_le.mp hv).le] at habs
    rcases min_choice |v| m' with hmin | hmin
    · exact hv (hmin ▸ habs.ge)
    · exact hlt.ne (habs.trans hmin)
  · intro h
    rw [clampAbs_of_abs_le h, clampAbs_of_abs_le (h.trans hlt.le)]

end Clamp

/-! ## 整数への切り捨て -/

noncomputable section

def truncateReal (x : ℝ) : ℤ := if 0 ≤ x then ⌊x⌋ else ⌈x⌉

theorem truncateReal_neg (x : ℝ) : truncateReal (-x) = -truncateReal x := by
  unfold truncateReal
  rcases lt_trichotomy x 0 with h | rfl | h
  · rw [if_pos (neg_nonneg.mpr h.le), if_neg (not_le.mpr h), Int.floor_neg]
  · simp
  · rw [if_neg (not_le.mpr (neg_neg_of_pos h)), if_pos h.le, Int.ceil_neg]

/-- 有理数では、有理数の切り捨てに等しい。 -/
theorem truncateReal_cast (q : ℚ) : truncateReal q = truncate q := by
  have hpos : ∀ q : ℚ, 0 ≤ q → truncateReal q = truncate q := by
    intro q hq
    have hq' : (0 : ℝ) ≤ q := by exact_mod_cast hq
    rw [truncateReal, if_pos hq', truncate_of_nonneg hq, Rat.floor_cast]
  rcases le_total 0 q with hq | hq
  · exact hpos q hq
  · have h := hpos (-q) (neg_nonneg.mpr hq)
    rw [Rat.cast_neg, truncateReal_neg, truncate_neg] at h
    exact neg_injective h

theorem abs_truncateReal_lt {x : ℝ} {n : ℤ} (h : |x| < n) : |truncateReal x| < n := by
  have hpos : ∀ x : ℝ, 0 ≤ x → x < n → |truncateReal x| < n := by
    intro x hx hlt
    rw [truncateReal, if_pos hx, abs_of_nonneg (Int.floor_nonneg.mpr hx)]
    exact Int.floor_lt.mpr hlt
  rcases le_total 0 x with hx | hx
  · exact hpos x hx (abs_of_nonneg hx ▸ h)
  · have hneg := hpos (-x) (neg_nonneg.mpr hx) (abs_of_nonpos hx ▸ h)
    rwa [truncateReal_neg, abs_neg] at hneg

/-! ## 比の逆正接 -/

/-- `atan(y / x)`。`x` が 0 のとき、`neg` は `x` の符号で、無限大の逆正接になる。 -/
def atanRatio (neg : Bool) (y x : ℝ) : ℝ :=
  if x = 0 then (if neg then -1 else 1) * (SignType.sign y : ℝ) * (Real.pi / 2) else Real.arctan (y / x)

theorem atanRatio_of_ne {neg : Bool} {y x : ℝ} (h : x ≠ 0) : atanRatio neg y x = Real.arctan (y / x) :=
  if_neg h

theorem abs_atanRatio_le (neg : Bool) (y x : ℝ) : |atanRatio neg y x| ≤ Real.pi / 2 := by
  have hpi : 0 ≤ Real.pi / 2 := (half_pos Real.pi_pos).le
  by_cases hx : x = 0
  · have hneg : |(if neg then -1 else 1 : ℝ)| = 1 := by cases neg <;> simp
    have hsign : |(SignType.sign y : ℝ)| ≤ 1 := by cases SignType.sign y <;> simp
    rw [atanRatio, if_pos hx, abs_mul, abs_mul, hneg, one_mul, abs_of_nonneg hpi]
    exact mul_le_of_le_one_left hpi hsign
  · rw [atanRatio_of_ne hx]
    exact abs_le.mpr ⟨(Real.neg_pi_div_two_lt_arctan _).le, (Real.arctan_lt_pi_div_two _).le⟩

theorem atanRatio_eq_zero_iff (neg : Bool) (y x : ℝ) : atanRatio neg y x = 0 ↔ y = 0 := by
  have hpi : Real.pi / 2 ≠ 0 := (half_pos Real.pi_pos).ne'
  by_cases hx : x = 0
  · have hneg : (if neg then -1 else 1 : ℝ) ≠ 0 := by cases neg <;> simp
    rw [atanRatio, if_pos hx, mul_eq_zero, or_iff_left hpi, mul_eq_zero, or_iff_right hneg]
    rcases lt_trichotomy y 0 with h | rfl | h
    · simp [sign_neg h, h.ne]
    · simp
    · simp [sign_pos h, h.ne']
  · rw [atanRatio_of_ne hx, Real.arctan_eq_zero_iff, div_eq_zero_iff, or_iff_left hx]

theorem sqrt_eq_abs_mul {x y : ℝ} (hx : x ≠ 0) : √(x * x + y * y) = |x| * √(1 + (y / x) ^ 2) := by
  rw [← Real.sqrt_sq_eq_abs, ← Real.sqrt_mul (sq_nonneg x)]
  congr 1
  field_simp

/-- 速さと、比の逆正接の余弦の積は、第一成分の大きさである。 -/
theorem speed_mul_cos {x y : ℝ} (hx : x ≠ 0) : √(x * x + y * y) * Real.cos (Real.arctan (y / x)) = |x| := by
  have hpos : 0 < √(1 + (y / x) ^ 2) := Real.sqrt_pos.mpr (by positivity)
  rw [sqrt_eq_abs_mul hx, Real.cos_arctan]
  field_simp

theorem speed_mul_sin {x y : ℝ} (hx : x ≠ 0) :
    √(x * x + y * y) * Real.sin (Real.arctan (y / x)) = |x| * (y / x) := by
  have hpos : 0 < √(1 + (y / x) ^ 2) := Real.sqrt_pos.mpr (by positivity)
  rw [sqrt_eq_abs_mul hx, Real.sin_arctan]
  field_simp

theorem sin_arctan_eq_mul_cos (s : ℝ) : Real.sin (Real.arctan s) = s * Real.cos (Real.arctan s) := by
  have h := Real.tan_mul_cos (Real.cos_arctan_pos s).ne'
  rw [Real.tan_arctan] at h
  exact h.symm

theorem arctan_lt_self {x : ℝ} (h : 0 < x) : Real.arctan x < x := by
  have hpos : 0 < Real.arctan x := Real.arctan_pos.mpr h
  have hlt := Real.lt_tan hpos (Real.arctan_lt_pi_div_two x)
  rwa [Real.tan_arctan] at hlt

end

end Ranger.Lib
