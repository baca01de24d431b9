import Mathlib.Algebra.Order.Round
import Mathlib.Data.Int.Log
import Mathlib.Data.Rat.Floor
import Mathlib.Tactic.FieldSimp
import Mathlib.Tactic.Linarith
import Mathlib.Tactic.NormNum
import Mathlib.Tactic.Positivity
import Mathlib.Tactic.Ring

/-!
# 有効数字

十進の有効数字の桁数を限った丸めと、その誤差。
-/

namespace Ranger.Lib

variable {n : Nat} {f : ℚ → ℚ} {x d r : ℚ}

/-- 有効数字が `n` 桁以下の数。 -/
def HasDigits (n : Nat) (q : ℚ) : Prop := ∃ m e : ℤ, |m| < 10 ^ n ∧ q = m * 10 ^ e

/-- 有効数字が `n` 桁以下の最も近い数への丸め。等しく近い二つの数のどちらになるかは決めない。 -/
structure NearestDigits (n : Nat) (f : ℚ → ℚ) : Prop where
  digits : ∀ x, HasDigits n (f x)
  le : ∀ x r, HasDigits n r → |x - f x| ≤ |x - r|

/-- `n` 桁目の単位。 -/
def digitUnit (n : Nat) (x : ℚ) : ℚ := 10 ^ (Int.log 10 |x| + 1 - n)

/-- `n` 桁目の単位の倍数への丸め。 -/
def roundDigits (n : Nat) (x : ℚ) : ℚ := round (x / digitUnit n x) * digitUnit n x

theorem digitUnit_pos (n : Nat) (x : ℚ) : 0 < digitUnit n x := zpow_pos (by norm_num) _

theorem NearestDigits.eq_of_hasDigits (h : NearestDigits n f) (hx : HasDigits n x) : f x = x := by
  have hzero := h.le x x hx
  rw [sub_self, abs_zero, abs_nonpos_iff, sub_eq_zero] at hzero
  exact hzero.symm

/-- 桁を限った数より遠くない、単位の倍数がある。 -/
theorem HasDigits.exists_multiple (hn : 1 ≤ n) (h : HasDigits n r) (x : ℚ) :
    ∃ k : ℤ, |x - k * digitUnit n x| ≤ |x - r| := by
  obtain ⟨m, a, hm, rfl⟩ := h
  have hten : (10 : ℚ) ≠ 0 := by norm_num
  rcases eq_or_ne x 0 with rfl | hx
  · refine ⟨0, ?_⟩
    rw [Int.cast_zero, zero_mul, sub_zero, abs_zero]
    exact abs_nonneg _
  have hpos : 0 < |x| := abs_pos.mpr hx
  have hlow : (10 : ℚ) ^ Int.log 10 |x| ≤ |x| := by exact_mod_cast Int.zpow_log_le_self (b := 10) (by norm_num) hpos
  rcases le_or_gt ((10 : ℚ) ^ Int.log 10 |x|) |m * (10 : ℚ) ^ a| with hlarge | hsmall
  · -- 桁が足りるので、単位は十進の指数以下である。
    have hpow : (10 : ℚ) ^ Int.log 10 |x| < 10 ^ ((n : ℤ) + a) := by
      rw [abs_mul, abs_of_pos (zpow_pos (by norm_num : (0 : ℚ) < 10) a)] at hlarge
      rw [zpow_add₀ hten, zpow_natCast]
      refine hlarge.trans_lt (mul_lt_mul_of_pos_right ?_ (zpow_pos (by norm_num) a))
      exact_mod_cast hm
    have hexp : Int.log 10 |x| < (n : ℤ) + a := (zpow_lt_zpow_iff_right₀ (by norm_num)).mp hpow
    obtain ⟨j, hj⟩ := Int.eq_ofNat_of_zero_le (show 0 ≤ a - (Int.log 10 |x| + 1 - n) by omega)
    refine ⟨m * 10 ^ j, le_of_eq ?_⟩
    have ha : (10 : ℚ) ^ a = 10 ^ j * digitUnit n x := by
      rw [digitUnit, ← zpow_natCast, ← zpow_add₀ hten]
      congr 1
      omega
    rw [ha]
    push_cast
    ring_nf
  · -- 小さい数より、同じ符号の十の冪の方が近い。
    have hunit : ((10 ^ (n - 1) : ℤ) : ℚ) * digitUnit n x = 10 ^ Int.log 10 |x| := by
      push_cast
      rw [digitUnit, ← zpow_natCast, ← zpow_add₀ hten]
      congr 1
      omega
    have hgap : |x| - 10 ^ Int.log 10 |x| ≤ |x - m * (10 : ℚ) ^ a| :=
      (sub_le_sub_left hsmall.le _).trans (abs_sub_abs_le_abs_sub x _)
    rcases lt_or_gt_of_ne hx with hneg | hpos'
    · refine ⟨-(10 ^ (n - 1)), le_trans (le_of_eq ?_) hgap⟩
      rw [Int.cast_neg, neg_mul, hunit, sub_neg_eq_add]
      rw [abs_of_neg hneg] at hlow ⊢
      rw [abs_of_nonpos (by linarith)]
      ring
    · refine ⟨10 ^ (n - 1), le_trans (le_of_eq ?_) hgap⟩
      rw [hunit]
      rw [abs_of_pos hpos'] at hlow ⊢
      rw [abs_of_nonneg (by linarith)]

/-- 単位の倍数への丸めは、`n` 桁以下の数で、どの倍数より遠くない。 -/
theorem roundDigits_spec (hn : 1 ≤ n) (x : ℚ) :
    HasDigits n (roundDigits n x) ∧ ∀ k : ℤ, |x - roundDigits n x| ≤ |x - k * digitUnit n x| := by
  have hunit := digitUnit_pos n x
  have hten : (10 : ℚ) ≠ 0 := by norm_num
  constructor
  · have hhigh : |x| < (10 : ℚ) ^ (Int.log 10 |x| + 1) := by
      exact_mod_cast Int.lt_zpow_succ_log_self (b := 10) (by norm_num) |x|
    have hratio : |x / digitUnit n x| < 10 ^ n := by
      rw [abs_div, abs_of_pos hunit, div_lt_iff₀ hunit, digitUnit, ← zpow_natCast, ← zpow_add₀ hten]
      refine hhigh.trans_eq ?_
      congr 1
      omega
    have hbound : |round (x / digitUnit n x)| ≤ 10 ^ n := by
      obtain ⟨hlow, hhigh'⟩ := abs_lt.mp hratio
      rw [abs_le, round_eq]
      constructor
      · rw [Int.le_floor]
        push_cast
        linarith
      · rw [← Int.lt_add_one_iff, Int.floor_lt]
        push_cast
        linarith
    rcases hbound.lt_or_eq with hlt | heq
    · exact ⟨round (x / digitUnit n x), _, hlt, rfl⟩
    · have hone : (1 : ℤ) < 10 ^ n := one_lt_pow₀ (by norm_num) (by omega)
      rcases (abs_eq (by positivity)).mp heq with hpos | hneg
      · refine ⟨1, (n : ℤ) + (Int.log 10 |x| + 1 - n), by rwa [abs_one], ?_⟩
        rw [roundDigits, hpos, zpow_add₀ hten, zpow_natCast, digitUnit]
        push_cast
        ring
      · refine ⟨-1, (n : ℤ) + (Int.log 10 |x| + 1 - n), by rwa [abs_neg, abs_one], ?_⟩
        rw [roundDigits, hneg, zpow_add₀ hten, zpow_natCast, digitUnit]
        push_cast
        ring
  · intro k
    have hscale (q : ℚ) : |x - q * digitUnit n x| = |x / digitUnit n x - q| * digitUnit n x := by
      rw [← abs_of_pos hunit, ← abs_mul, abs_of_pos hunit, sub_mul, div_mul_cancel₀ _ hunit.ne']
    rw [roundDigits, hscale, hscale]
    exact mul_le_mul_of_nonneg_right (round_le _ _) hunit.le

theorem nearestDigits_roundDigits (hn : 1 ≤ n) : NearestDigits n (roundDigits n) where
  digits x := (roundDigits_spec hn x).1
  le x r hr := by
    obtain ⟨k, hk⟩ := hr.exists_multiple hn x
    exact ((roundDigits_spec hn x).2 k).trans hk

/-- 丸めの誤差は、最も近い単位の倍数との差である。 -/
theorem NearestDigits.abs_sub_le_iff (h : NearestDigits n f) (hn : 1 ≤ n) :
    |f x - x| ≤ d ↔ ∃ k : ℤ, |x - k * digitUnit n x| ≤ d := by
  rw [abs_sub_comm]
  constructor
  · intro hle
    obtain ⟨k, hk⟩ := (h.digits x).exists_multiple hn x
    exact ⟨k, hk.trans hle⟩
  · rintro ⟨k, hk⟩
    obtain ⟨hdigits, hround⟩ := roundDigits_spec hn x
    exact (h.le x _ hdigits).trans ((hround k).trans hk)

theorem exists_multiple_half (n : Nat) (x : ℚ) : ∃ k : ℤ, |x - k * digitUnit n x| ≤ digitUnit n x / 2 := by
  have hunit := digitUnit_pos n x
  refine ⟨round (x / digitUnit n x), ?_⟩
  have hround := mul_le_mul_of_nonneg_right (abs_sub_round (x / digitUnit n x)) hunit.le
  rw [← abs_of_pos hunit, ← abs_mul, abs_of_pos hunit, sub_mul, div_mul_cancel₀ _ hunit.ne'] at hround
  linarith

end Ranger.Lib
