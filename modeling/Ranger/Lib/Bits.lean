import Mathlib.Data.Finset.Card
import Mathlib.Data.Nat.Bitwise
import Mathlib.Tactic.Ring

/-!
# 立っているビット

ビット列を、立っているビットの位置の集合として読む。`n &&& (n - 1)` は、いちばん下の立っているビットを消す。
-/

namespace Ranger.Lib

variable {w : ℕ}

/-- 立っているビットの位置。 -/
def bits (n : BitVec w) : Finset ℕ := (Finset.range w).filter fun i => n.getLsbD i = true

@[simp] theorem mem_bits {n : BitVec w} {i : ℕ} : i ∈ bits n ↔ n.getLsbD i = true := by
  simp only [bits, Finset.mem_filter, Finset.mem_range, and_iff_right_iff_imp]
  exact BitVec.lt_of_getLsbD

@[simp] theorem bits_zero : bits (0#w) = ∅ := by
  ext i
  simp

/-- いちばん下の立っているビットだけが消える。 -/
theorem exists_lowest {n : ℕ} (h : n ≠ 0) :
    ∃ i, n.testBit i = true ∧ ∀ j, (n &&& (n - 1)).testBit j = (n.testBit j && decide (j ≠ i)) := by
  induction n using Nat.strong_induction_on with
  | _ n ih =>
      rcases Nat.even_or_odd' n with ⟨m, rfl | rfl⟩
      · obtain ⟨i, hi, hrest⟩ := ih m (by omega) (by omega)
        refine ⟨i + 1, by simpa [Nat.testBit_succ] using hi, fun j => ?_⟩
        cases j with
        | zero => simp
        | succ j =>
            have hhalf : (2 * m - 1) / 2 = m - 1 := by omega
            have hdouble : 2 * m / 2 = m := by omega
            have hj := hrest j
            rw [Nat.testBit_and] at hj
            rw [Nat.testBit_and, Nat.testBit_succ, Nat.testBit_succ, hdouble, hhalf, hj]
            simp
      · refine ⟨0, by simp, fun j => ?_⟩
        cases j with
        | zero => simp
        | succ j =>
            have hhalf : (2 * m + 1) / 2 = m := by omega
            have hdouble : (2 * m + 1 - 1) / 2 = m := by omega
            rw [Nat.testBit_and, Nat.testBit_succ, Nat.testBit_succ, hhalf, hdouble]
            simp

/-- `n &= n - 1`。 -/
def clearLowest (n : BitVec w) : BitVec w := n &&& (n - 1)

theorem toNat_clearLowest {n : BitVec w} (h : n ≠ 0) : (clearLowest n).toNat = n.toNat &&& (n.toNat - 1) := by
  have hpos : 0 < n.toNat := by
    rw [Nat.pos_iff_ne_zero]
    exact fun hzero => h (BitVec.eq_of_toNat_eq (by simpa using hzero))
  have hlt := n.isLt
  have hone : 1 % 2 ^ w = 1 := Nat.mod_eq_of_lt (by omega)
  have hsub : (n - 1).toNat = n.toNat - 1 := by
    rw [BitVec.toNat_sub, BitVec.ofNat_eq_ofNat, BitVec.toNat_ofNat, hone,
      show 2 ^ w - 1 + n.toNat = n.toNat - 1 + 2 ^ w by omega, Nat.add_mod_right, Nat.mod_eq_of_lt (by omega)]
  rw [clearLowest, BitVec.toNat_and, hsub]

theorem bits_clearLowest {n : BitVec w} (h : n ≠ 0) : ∃ i ∈ bits n, bits (clearLowest n) = (bits n).erase i := by
  have hne : n.toNat ≠ 0 := fun hzero => h (BitVec.eq_of_toNat_eq (by simpa using hzero))
  obtain ⟨i, hi, hrest⟩ := exists_lowest hne
  refine ⟨i, mem_bits.mpr hi, ?_⟩
  ext j
  have hj : (clearLowest n).getLsbD j = (n.getLsbD j && decide (j ≠ i)) := by
    rw [BitVec.getLsbD, toNat_clearLowest h]
    exact hrest j
  simp [hj, and_comm]

theorem card_clearLowest {n : BitVec w} (h : n ≠ 0) : (bits n).card = (bits (clearLowest n)).card + 1 := by
  obtain ⟨i, hi, hbits⟩ := bits_clearLowest h
  rw [hbits, Finset.card_erase_add_one hi]

theorem clearLowest_lt {n : BitVec w} (h : n ≠ 0) : (clearLowest n).toNat < n.toNat := by
  have hne : n.toNat ≠ 0 := fun hzero => h (BitVec.eq_of_toNat_eq (by simpa using hzero))
  rw [toNat_clearLowest h]
  exact Nat.lt_of_le_of_lt Nat.and_le_right (by omega)

end Ranger.Lib
