import Mathlib.Order.Monotone.Basic
import Mathlib.Tactic.FieldSimp
import Mathlib.Tactic.Linarith
import Mathlib.Tactic.Positivity
import Ranger.Drive.Odometry

/-!
# 内側の角度と中央の角度の変換

`ConvertInnerAngleToCentral` と `ConvertCentralAngleToInner` は、角度の余接を `track / wheelbase` だけずらす。正接の変換として互いに逆であることから、角度の変換としても互いに逆であることを示す。
-/

namespace Ranger.Drive
open Ranger.Lib

noncomputable section

/-! ## 正接の変換 -/

/-- 余接を `W / L` だけ増やした正接。 -/
def outward (L W t : ℝ) : ℝ := L * t / (L + W * |t|)

/-- 余接を `W / L` だけ減らした正接。 -/
def inward (L W t : ℝ) : ℝ := L * t / (L - W * |t|)

section Tangents

variable {L W s t : ℝ}

theorem outward_den_pos (hL : 0 < L) (hW : 0 < W) (t : ℝ) : 0 < L + W * |t| := by positivity

theorem abs_outward (hL : 0 < L) (hW : 0 < W) (t : ℝ) : |outward L W t| = L * |t| / (L + W * |t|) := by
  rw [outward, abs_div, abs_mul, abs_of_pos hL, abs_of_pos (outward_den_pos hL hW t)]

theorem outward_lt (hL : 0 < L) (hW : 0 < W) (t : ℝ) : W * |outward L W t| < L := by
  rw [abs_outward hL hW, ← mul_div_assoc, div_lt_iff₀ (outward_den_pos hL hW t)]
  nlinarith [abs_nonneg t]

theorem abs_outward_le (hL : 0 < L) (hW : 0 < W) (t : ℝ) : |outward L W t| ≤ |t| := by
  rw [abs_outward hL hW, div_le_iff₀ (outward_den_pos hL hW t)]
  nlinarith [mul_nonneg hW.le (mul_nonneg (abs_nonneg t) (abs_nonneg t))]

theorem inward_outward (hL : 0 < L) (hW : 0 < W) (t : ℝ) : inward L W (outward L W t) = t := by
  have hden := outward_den_pos hL hW t
  have hinner : L - W * (L * |t| / (L + W * |t|)) = L * L / (L + W * |t|) := by
    field_simp
    ring
  rw [inward, abs_outward hL hW, hinner, outward]
  field_simp

theorem outward_inward (hL : 0 < L) (ht : W * |t| < L) : outward L W (inward L W t) = t := by
  have hden : 0 < L - W * |t| := sub_pos.mpr ht
  have habs : |inward L W t| = L * |t| / (L - W * |t|) := by
    rw [inward, abs_div, abs_mul, abs_of_pos hL, abs_of_pos hden]
  have hinner : L + W * (L * |t| / (L - W * |t|)) = L * L / (L - W * |t|) := by
    field_simp
    ring
  rw [outward, habs, hinner, inward]
  field_simp

theorem outward_strictMono (hL : 0 < L) (hW : 0 < W) : StrictMono (outward L W) := by
  intro s t hst
  have hcross : s * |t| ≤ t * |s| := by
    rcases le_or_gt 0 s with hs | hs
    · rw [abs_of_nonneg hs, abs_of_nonneg (hs.trans hst.le), mul_comm]
    · rcases le_or_gt 0 t with ht | ht
      · exact (mul_nonpos_of_nonpos_of_nonneg hs.le (abs_nonneg t)).trans (mul_nonneg ht (abs_nonneg s))
      · rw [abs_of_neg hs, abs_of_neg ht]
        linarith
  rw [outward, outward, div_lt_div_iff₀ (outward_den_pos hL hW s) (outward_den_pos hL hW t)]
  have hmain := mul_lt_mul_of_pos_left hst (mul_pos hL hL)
  have hrest := mul_le_mul_of_nonneg_left hcross (mul_pos hL hW).le
  linarith

theorem inward_lt (hL : 0 < L) (hW : 0 < W) (hs : W * |s| < L) (ht : W * |t| < L) (hst : s < t) :
    inward L W s < inward L W t := by
  apply (outward_strictMono hL hW).lt_iff_lt.mp
  rwa [outward_inward hL hs, outward_inward hL ht]

end Tangents

/-! ## 角度の変換 -/

def InnerRange : Set ℝ := {a | |a| < Real.pi / 2.0}

def CentralRange (p : RobotParams) : Set ℝ :=
  {b | |b| < Real.pi / 2.0 ∧ p.wheelbase * Real.cos |b| > p.track * Real.sin |b|}

section Angles

variable {p : RobotParams} {a b x : ℝ}

theorem half_pi : Real.pi / 2.0 = Real.pi / 2 := by norm_num

theorem mem_innerRange : a ∈ InnerRange ↔ |a| < Real.pi / 2 := by
  rw [InnerRange, Set.mem_ofPred_eq, half_pi]

theorem abs_lt_of_mem_centralRange (hb : b ∈ CentralRange p) : |b| < Real.pi / 2 := hb.1.trans_eq half_pi

theorem abs_arctan_lt (x : ℝ) : |Real.arctan x| < Real.pi / 2 :=
  abs_lt.mpr ⟨Real.neg_pi_div_two_lt_arctan x, Real.arctan_lt_pi_div_two x⟩

theorem arctan_tan_of_abs_lt (ha : |a| < Real.pi / 2) : Real.arctan (Real.tan a) = a :=
  Real.arctan_tan (abs_lt.mp ha).1 (abs_lt.mp ha).2

theorem abs_arctan (x : ℝ) : |Real.arctan x| = Real.arctan |x| := by
  rcases le_total 0 x with hx | hx
  · rw [abs_of_nonneg hx, abs_of_nonneg (Real.arctan_nonneg.mpr hx)]
  · rw [abs_of_nonpos hx, abs_of_nonpos (Real.arctan_le_zero.mpr hx), Real.arctan_neg]

theorem abs_arctan_le {y : ℝ} (h : |x| ≤ |y|) : |Real.arctan x| ≤ |Real.arctan y| := by
  rw [abs_arctan, abs_arctan]
  exact Real.arctan_mono h

theorem cos_pos_of_abs_lt (ha : |a| < Real.pi / 2) : 0 < Real.cos a :=
  Real.cos_pos_of_mem_Ioo (abs_lt.mp ha)

theorem sin_abs_eq (ha : |a| < Real.pi / 2) : Real.sin |a| = |Real.tan a| * Real.cos a := by
  have hcos := cos_pos_of_abs_lt ha
  have hpos : 0 ≤ Real.sin |a| :=
    Real.sin_nonneg_of_nonneg_of_le_pi (abs_nonneg a) (by linarith [Real.pi_pos])
  rw [Real.tan_eq_sin_div_cos, abs_div, abs_of_pos hcos, div_mul_cancel₀ _ hcos.ne', ← abs_of_nonneg hpos]
  rcases abs_choice a with h | h <;> simp [h]

theorem arctan_abs_mul_sign (ha : |a| < Real.pi / 2) (c : ℝ) :
    Real.arctan (c * |Real.tan a|) * (if a ≥ 0 then 1 else -1) = Real.arctan (c * Real.tan a) := by
  have hcos := cos_pos_of_abs_lt ha
  obtain ⟨hlo, hhi⟩ := abs_lt.mp ha
  have hpi := Real.pi_pos
  split_ifs with hsign
  · rw [abs_of_nonneg (Real.tan_nonneg_of_nonneg_of_le_pi_div_two hsign hhi.le), mul_one]
  · rw [abs_of_nonpos (Real.tan_nonpos_of_nonpos_of_neg_pi_div_two_le (not_le.mp hsign).le hlo.le),
      mul_neg_one, mul_neg, Real.arctan_neg, neg_neg]

theorem innerDenominator_pos (hL : 0 < p.wheelbase) (hW : 0 < p.track) (ha : a ∈ InnerRange) :
    0 < p.wheelbase * Real.cos |a| + p.track * Real.sin |a| := by
  have hlt := mem_innerRange.mp ha
  have hcos := cos_pos_of_abs_lt hlt
  rw [Real.cos_abs, sin_abs_eq hlt]
  positivity

theorem innerToCentral_eq (hL : 0 < p.wheelbase) (hW : 0 < p.track) (ha : a ∈ InnerRange) :
    convertInnerAngleToCentral p a = Real.arctan (outward p.wheelbase p.track (Real.tan a)) := by
  have hlt := mem_innerRange.mp ha
  have hcos := cos_pos_of_abs_lt hlt
  have hden := outward_den_pos hL hW (Real.tan a)
  have hratio : p.wheelbase * Real.sin |a| / (p.wheelbase * Real.cos |a| + p.track * Real.sin |a|) =
      p.wheelbase / (p.wheelbase + p.track * |Real.tan a|) * |Real.tan a| := by
    rw [Real.cos_abs, sin_abs_eq hlt]
    field_simp
  simp only [convertInnerAngleToCentral, atanRatio_of_ne (innerDenominator_pos hL hW ha).ne', hratio]
  rw [arctan_abs_mul_sign hlt, outward, mul_div_right_comm]

/-- 中央の角度の範囲は、正接で言えば `track * |tan b| < wheelbase` である。 -/
theorem mem_centralRange_iff (hb : |b| < Real.pi / 2) :
    b ∈ CentralRange p ↔ p.track * |Real.tan b| < p.wheelbase := by
  have hcos := cos_pos_of_abs_lt hb
  have hmul : p.track * |Real.tan b| * Real.cos b < p.wheelbase * Real.cos b ↔
      p.track * |Real.tan b| < p.wheelbase := mul_lt_mul_iff_left₀ hcos
  rw [← hmul, mul_assoc, ← sin_abs_eq hb, ← Real.cos_abs b]
  exact and_iff_right (hb.trans_eq half_pi.symm)

theorem centralToInner_eq (hb : b ∈ CentralRange p) :
    convertCentralAngleToInner p b = Real.arctan (inward p.wheelbase p.track (Real.tan b)) := by
  have hlt := abs_lt_of_mem_centralRange hb
  have hden := hb.2
  have hcos := cos_pos_of_abs_lt hlt
  have hratio : p.wheelbase * Real.sin |b| / (p.wheelbase * Real.cos |b| - p.track * Real.sin |b|) =
      p.wheelbase / (p.wheelbase - p.track * |Real.tan b|) * |Real.tan b| := by
    rw [Real.cos_abs, sin_abs_eq hlt, ← mul_assoc p.track, ← sub_mul, ← mul_assoc, mul_div_mul_right _ _ hcos.ne',
      mul_div_right_comm]
  simp only [convertCentralAngleToInner, atanRatio_of_ne (sub_pos.mpr hden).ne', hratio]
  rw [arctan_abs_mul_sign hlt, inward, mul_div_right_comm]

theorem innerToCentral_mem (hL : 0 < p.wheelbase) (hW : 0 < p.track) (ha : a ∈ InnerRange) :
    convertInnerAngleToCentral p a ∈ CentralRange p := by
  rw [innerToCentral_eq hL hW ha, mem_centralRange_iff (abs_arctan_lt _), Real.tan_arctan]
  exact outward_lt hL hW _

theorem tan_central_lt (hb : b ∈ CentralRange p) : p.track * |Real.tan b| < p.wheelbase :=
  (mem_centralRange_iff (abs_lt_of_mem_centralRange hb)).mp hb

theorem centralToInner_mem (hb : b ∈ CentralRange p) : convertCentralAngleToInner p b ∈ InnerRange := by
  rw [centralToInner_eq hb, mem_innerRange]
  exact abs_arctan_lt _

/-! ## 往復 -/

theorem central_inner_central (hL : 0 < p.wheelbase) (hW : 0 < p.track) (ha : a ∈ InnerRange) :
    convertCentralAngleToInner p (convertInnerAngleToCentral p a) = a := by
  rw [centralToInner_eq (innerToCentral_mem hL hW ha), innerToCentral_eq hL hW ha, Real.tan_arctan,
    inward_outward hL hW, arctan_tan_of_abs_lt (mem_innerRange.mp ha)]

theorem inner_central_inner (hL : 0 < p.wheelbase) (hW : 0 < p.track) (hb : b ∈ CentralRange p) :
    convertInnerAngleToCentral p (convertCentralAngleToInner p b) = b := by
  rw [innerToCentral_eq hL hW (centralToInner_mem hb), centralToInner_eq hb, Real.tan_arctan,
    outward_inward hL (tan_central_lt hb), arctan_tan_of_abs_lt (abs_lt_of_mem_centralRange hb)]

theorem abs_innerToCentral_le (hL : 0 < p.wheelbase) (hW : 0 < p.track) (ha : a ∈ InnerRange) :
    |convertInnerAngleToCentral p a| ≤ |a| := by
  rw [innerToCentral_eq hL hW ha]
  exact (abs_arctan_le (abs_outward_le hL hW _)).trans_eq (by rw [arctan_tan_of_abs_lt (mem_innerRange.mp ha)])

theorem innerRange_neg (ha : a ∈ InnerRange) : -a ∈ InnerRange := by
  rwa [mem_innerRange, abs_neg, ← mem_innerRange]

theorem centralRange_neg (hb : b ∈ CentralRange p) : -b ∈ CentralRange p := by
  show |-b| < Real.pi / 2.0 ∧ p.wheelbase * Real.cos |-b| > p.track * Real.sin |-b|
  rwa [abs_neg]

/-- 二つの変換は、それぞれの範囲で互いに逆で、奇関数で、狭義に増加し、中央の角度は内側の角度より大きくない。分母は `0` にならない。 -/
structure SteerConversion (p : RobotParams) : Prop where
  inner : ∀ a ∈ InnerRange, convertCentralAngleToInner p (convertInnerAngleToCentral p a) = a
  central : ∀ b ∈ CentralRange p, convertInnerAngleToCentral p (convertCentralAngleToInner p b) = b
  innerOdd : ∀ a ∈ InnerRange, convertInnerAngleToCentral p (-a) = -convertInnerAngleToCentral p a
  centralOdd : ∀ b ∈ CentralRange p, convertCentralAngleToInner p (-b) = -convertCentralAngleToInner p b
  innerMono : StrictMonoOn (convertInnerAngleToCentral p) InnerRange
  centralMono : StrictMonoOn (convertCentralAngleToInner p) (CentralRange p)
  innerLe : ∀ a ∈ InnerRange, |convertInnerAngleToCentral p a| ≤ |a|
  centralLe : ∀ b ∈ CentralRange p, |b| ≤ |convertCentralAngleToInner p b|
  innerDenominator : ∀ a ∈ InnerRange, p.wheelbase * Real.cos |a| + p.track * Real.sin |a| ≠ 0
  centralDenominator : ∀ b ∈ CentralRange p, p.wheelbase * Real.cos |b| - p.track * Real.sin |b| ≠ 0

/-- 中央の角度の範囲を `π / 2` 未満に限れば、二つの変換は互いに逆である。 -/
theorem steerConversion (hL : 0 < p.wheelbase) (hW : 0 < p.track) : SteerConversion p where
  inner _ ha := central_inner_central hL hW ha
  central _ hb := inner_central_inner hL hW hb
  innerOdd a ha := by
    rw [innerToCentral_eq hL hW ha, innerToCentral_eq hL hW (innerRange_neg ha), Real.tan_neg, ← Real.arctan_neg,
      outward, outward, abs_neg, mul_neg, neg_div]
  centralOdd b hb := by
    rw [centralToInner_eq hb, centralToInner_eq (centralRange_neg hb), Real.tan_neg, ← Real.arctan_neg,
      inward, inward, abs_neg, mul_neg, neg_div]
  innerMono a ha a' ha' hlt := by
    have hlo := (abs_lt.mp (mem_innerRange.mp ha)).1
    have hhi := (abs_lt.mp (mem_innerRange.mp ha')).2
    have htan := Real.tan_lt_tan_of_lt_of_lt_pi_div_two hlo hhi hlt
    rw [innerToCentral_eq hL hW ha, innerToCentral_eq hL hW ha']
    exact Real.arctan_strictMono (outward_strictMono hL hW htan)
  centralMono b hb b' hb' hlt := by
    have hlo := (abs_lt.mp (abs_lt_of_mem_centralRange hb)).1
    have hhi := (abs_lt.mp (abs_lt_of_mem_centralRange hb')).2
    have htan := Real.tan_lt_tan_of_lt_of_lt_pi_div_two hlo hhi hlt
    rw [centralToInner_eq hb, centralToInner_eq hb']
    exact Real.arctan_strictMono (inward_lt hL hW (tan_central_lt hb) (tan_central_lt hb') htan)
  innerLe _ ha := abs_innerToCentral_le hL hW ha
  centralLe b hb := by
    have hle := abs_innerToCentral_le hL hW (centralToInner_mem hb)
    rwa [inner_central_inner hL hW hb] at hle
  innerDenominator _ ha := (innerDenominator_pos hL hW ha).ne'
  centralDenominator _ hb := (sub_pos.mpr hb.2).ne'

-- `ranger` の寸法での変換。
theorem steerConversion_ranger : 0 < rangerParams.wheelbase ∧ 0 < rangerParams.track ∧ SteerConversion rangerParams := by
  have hL : 0 < rangerParams.wheelbase := by norm_num [rangerParams]
  have hW : 0 < rangerParams.track := by norm_num [rangerParams]
  exact ⟨hL, hW, steerConversion hL hW⟩

-- 角度 `2π` は条件 `L * cos |b| > W * sin |b|` を満たすが、往復の結果は `π / 2` を越えない。
theorem central_full_turn :
    0 < rangerParams.wheelbase ∧ 0 < rangerParams.track ∧
      rangerParams.wheelbase * Real.cos |2 * Real.pi| > rangerParams.track * Real.sin |2 * Real.pi| ∧
      convertInnerAngleToCentral rangerParams (convertCentralAngleToInner rangerParams (2 * Real.pi)) ≠ 2 * Real.pi := by
  have hpi := Real.pi_pos
  have hL : 0 < rangerParams.wheelbase := by norm_num [rangerParams]
  have hW : 0 < rangerParams.track := by norm_num [rangerParams]
  refine ⟨hL, hW, ?_, fun heq => ?_⟩
  · rw [abs_of_pos (by positivity), Real.cos_two_pi, Real.sin_two_pi, mul_one, mul_zero]
    exact hL
  · have hle := abs_le.mp (abs_central_le rangerParams (convertCentralAngleToInner rangerParams (2 * Real.pi)))
    rw [heq] at hle
    linarith [hle.2]

end Angles

end

end Ranger.Drive
