import Mathlib.Data.Nat.Basic
import Mathlib.Tactic.Ring

/-!
# 格子の線分

長い方の軸を一つずつ進み、誤差が溜まるたびに短い方の軸を一つ進む線分の、短い方の軸の位置。
-/

namespace Ranger.Lib

/-- 長さ `a` の軸を `k` 進んだときに、長さ `b` の軸が進んだ数。誤差は半分から始まる。 -/
def minorSteps (a b k : ℕ) : ℕ := (a / 2 + k * b) / a

/-- `k` 進んだときに残っている誤差。 -/
def minorError (a b k : ℕ) : ℕ := (a / 2 + k * b) % a

variable {a b k : ℕ}

@[simp] theorem minorSteps_zero : minorSteps a b 0 = 0 := by
  rw [minorSteps, Nat.zero_mul, Nat.add_zero, Nat.div_div_eq_div_mul]
  rcases Nat.eq_zero_or_pos a with rfl | ha
  · rfl
  · exact Nat.div_eq_of_lt (by omega)

@[simp] theorem minorSteps_minor_zero : minorSteps a 0 k = 0 := by
  have h := minorSteps_zero (a := a) (b := 0)
  rwa [minorSteps, Nat.zero_mul] at h

/-- 終わりまで進むと、短い方の軸も終わりまで進む。 -/
theorem minorSteps_full (ha : 0 < a) : minorSteps a b a = b := by
  rw [minorSteps, Nat.add_mul_div_left _ _ ha, Nat.div_div_eq_div_mul, Nat.div_eq_of_lt (by omega), Nat.zero_add]

theorem minorSteps_mono {j : ℕ} (h : j ≤ k) : minorSteps a b j ≤ minorSteps a b k :=
  Nat.div_le_div_right (Nat.add_le_add_left (Nat.mul_le_mul_right b h) _)

theorem minorSteps_le (hk : k ≤ a) : minorSteps a b k ≤ b := by
  rcases Nat.eq_zero_or_pos a with rfl | ha
  · simp [minorSteps]
  · exact (minorSteps_mono hk).trans (Nat.le_of_eq (minorSteps_full ha))

/-- 一つ進むあいだに、短い方の軸は高々一つ進む。 -/
theorem minorSteps_succ_le (hb : b ≤ a) : minorSteps a b (k + 1) ≤ minorSteps a b k + 1 := by
  rcases Nat.eq_zero_or_pos a with rfl | ha
  · simp [minorSteps]
  · have hstep : a / 2 + (k + 1) * b ≤ a / 2 + k * b + a := by
      rw [Nat.succ_mul]
      omega
    rw [minorSteps, minorSteps, ← Nat.add_div_right _ ha]
    exact Nat.div_le_div_right hstep

@[simp] theorem minorError_zero : minorError a b 0 = a / 2 := by
  rw [minorError, Nat.zero_mul, Nat.add_zero]
  rcases Nat.eq_zero_or_pos a with rfl | ha
  · rfl
  · exact Nat.mod_eq_of_lt (by omega)

/-- 誤差が溜まらないとき、短い方の軸は進まない。 -/
theorem minorSteps_stay (h : ¬ a ≤ minorError a b k + b) :
    minorSteps a b (k + 1) = minorSteps a b k ∧ minorError a b (k + 1) = minorError a b k + b := by
  have hsplit : a / 2 + (k + 1) * b = minorError a b k + b + a * minorSteps a b k := by
    have hdiv := Nat.mod_add_div (a / 2 + k * b) a
    rw [Nat.succ_mul, minorError, minorSteps]
    omega
  have hpos : 0 < a := by omega
  constructor
  · rw [minorSteps, hsplit, Nat.add_mul_div_left _ _ hpos, Nat.div_eq_of_lt (by omega), Nat.zero_add]
  · rw [minorError, hsplit, Nat.add_mul_mod_self_left, Nat.mod_eq_of_lt (by omega)]

/-- 誤差が溜まると、短い方の軸は一つ進み、溜まった分が引かれる。 -/
theorem minorSteps_advance (ha : 0 < a) (hb : b ≤ a) (h : a ≤ minorError a b k + b) :
    minorSteps a b (k + 1) = minorSteps a b k + 1 ∧ minorError a b (k + 1) = minorError a b k + b - a := by
  have hlt : minorError a b k < a := Nat.mod_lt _ ha
  have hsplit : a / 2 + (k + 1) * b = minorError a b k + b - a + a * (minorSteps a b k + 1) := by
    have hdiv := Nat.mod_add_div (a / 2 + k * b) a
    rw [Nat.succ_mul, Nat.mul_succ, minorError, minorSteps]
    unfold minorError at h
    omega
  constructor
  · rw [minorSteps, hsplit, Nat.add_mul_div_left _ _ ha, Nat.div_eq_of_lt (by omega), Nat.zero_add]
  · rw [minorError, hsplit, Nat.add_mul_mod_self_left, Nat.mod_eq_of_lt (by omega)]

/-- 短い方の軸の、どの位置も通る。 -/
theorem exists_minorSteps_eq (hb : b ≤ a) {t : ℕ} (ht : t ≤ minorSteps a b k) : ∃ j ≤ k, minorSteps a b j = t := by
  induction k with
  | zero =>
      rw [minorSteps_zero] at ht
      exact ⟨0, le_refl 0, by rw [minorSteps_zero]; omega⟩
  | succ k ih =>
      rcases Nat.lt_or_ge (minorSteps a b k) t with hlt | hge
      · have hnext := minorSteps_succ_le (k := k) hb
        exact ⟨k + 1, le_refl _, by omega⟩
      · obtain ⟨j, hj, heq⟩ := ih hge
        exact ⟨j, Nat.le_succ_of_le hj, heq⟩

end Ranger.Lib
