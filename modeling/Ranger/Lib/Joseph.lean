import Mathlib.Analysis.Matrix.PosDef
import Mathlib.Tactic.Abel

/-!
# 線形な補正の共分散

共分散 `P` の量を、`H` で写して雑音の共分散 `R` を伴う観測で補正する。利得 `L` で補正した後の共分散の形と、それを最も小さくする
利得を定める。
-/

namespace Ranger.Lib
open Matrix

noncomputable section

variable {m n : Type*} {P : Matrix n n ℝ} {H : Matrix m n ℝ} {R : Matrix m m ℝ}

theorem transpose_eq (hP : P.PosSemidef) : Pᵀ = P := by
  rw [← conjTranspose_eq_transpose_of_trivial]
  exact hP.isHermitian

variable [Fintype n]

theorem congruence_posSemidef [Fintype m] (hP : P.PosSemidef) (B : Matrix m n ℝ) : (B * P * Bᵀ).PosSemidef := by
  rw [← conjTranspose_eq_transpose_of_trivial]
  exact hP.mul_mul_conjTranspose_same B

variable [Fintype m]

/-- 観測の予測の誤差の共分散。 -/
def innovationCovariance (P : Matrix n n ℝ) (H : Matrix m n ℝ) (R : Matrix m m ℝ) : Matrix m m ℝ := H * (P * Hᵀ) + R

theorem innovationCovariance_posSemidef (hP : P.PosSemidef) (hR : R.PosSemidef) : (innovationCovariance P H R).PosSemidef := by
  rw [innovationCovariance, ← Matrix.mul_assoc]
  exact (congruence_posSemidef hP H).add hR

variable [DecidableEq n]

/-- 利得 `L` で補正した後の共分散。 -/
def joseph (P : Matrix n n ℝ) (H : Matrix m n ℝ) (R : Matrix m m ℝ) (L : Matrix n m ℝ) : Matrix n n ℝ :=
  (1 - L * H) * P * (1 - L * H)ᵀ + L * R * Lᵀ

theorem joseph_posSemidef (hP : P.PosSemidef) (hR : R.PosSemidef) (L : Matrix n m ℝ) : (joseph P H R L).PosSemidef :=
  (congruence_posSemidef hP _).add (congruence_posSemidef hR _)

theorem joseph_zero (P : Matrix n n ℝ) (H : Matrix m n ℝ) (R : Matrix m m ℝ) : joseph P H R 0 = P := by
  simp [joseph]

variable [DecidableEq m]

def kalmanGain (P : Matrix n n ℝ) (H : Matrix m n ℝ) (R : Matrix m m ℝ) : Matrix n m ℝ := P * Hᵀ * (innovationCovariance P H R)⁻¹

/-- 利得のずれの分だけ、共分散は大きくなる。 -/
theorem joseph_eq (hP : P.PosSemidef) (hR : R.PosSemidef) (hdet : (innovationCovariance P H R).det ≠ 0) (L : Matrix n m ℝ) :
    joseph P H R L = joseph P H R (kalmanGain P H R) +
      (L - kalmanGain P H R) * innovationCovariance P H R * (L - kalmanGain P H R)ᵀ := by
  have hgain : kalmanGain P H R * innovationCovariance P H R = P * Hᵀ := by
    rw [kalmanGain, Matrix.mul_assoc, Matrix.nonsing_inv_mul _ hdet.isUnit, Matrix.mul_one]
  have hgain' : innovationCovariance P H R * (kalmanGain P H R)ᵀ = H * P := by
    have htranspose := congrArg Matrix.transpose hgain
    rwa [Matrix.transpose_mul, transpose_eq (innovationCovariance_posSemidef hP hR), Matrix.transpose_mul, transpose_eq hP,
      Matrix.transpose_transpose] at htranspose
  have hexpand (G : Matrix n m ℝ) : joseph P H R G =
      P - G * (H * P) - P * Hᵀ * Gᵀ + G * innovationCovariance P H R * Gᵀ := by
    simp only [joseph, innovationCovariance, Matrix.transpose_sub, Matrix.transpose_one, Matrix.transpose_mul, Matrix.mul_sub,
      Matrix.sub_mul, Matrix.mul_add, Matrix.add_mul, Matrix.mul_one, Matrix.one_mul, Matrix.mul_assoc]
    abel
  rw [hexpand, hexpand (kalmanGain P H R), ← hgain, ← hgain', Matrix.transpose_sub]
  simp only [Matrix.mul_sub, Matrix.sub_mul, Matrix.mul_assoc]
  abel

/-- `kalmanGain` の利得は、共分散を最も小さくする。 -/
theorem kalmanGain_least (hP : P.PosSemidef) (hR : R.PosSemidef) (hdet : (innovationCovariance P H R).det ≠ 0)
    (L : Matrix n m ℝ) : (joseph P H R L - joseph P H R (kalmanGain P H R)).PosSemidef := by
  rw [joseph_eq hP hR hdet L, add_sub_cancel_left]
  exact congruence_posSemidef (innovationCovariance_posSemidef hP hR) _

end

end Ranger.Lib
