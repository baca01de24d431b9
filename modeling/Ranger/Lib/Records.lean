import Mathlib.Data.List.Basic

/-!
# 長さの揃った区切り

長さの揃った記録を連ねた列を、同じ長さに区切って読み出す。
-/

namespace Ranger.Lib

variable {α : Type*} {n : ℕ} {bs : List (List α)}

/-- 列を長さ `n` に区切った `i` 番目。 -/
def block (n : ℕ) (data : List α) (i : ℕ) : List α := (data.drop (i * n)).take n

theorem length_block {data : List α} {i m : ℕ} (hlen : data.length = m * n) (hi : i < m) :
    (block n data i).length = n := by
  have hfit : (i + 1) * n ≤ m * n := Nat.mul_le_mul_right n hi
  rw [Nat.succ_mul] at hfit
  rw [block, List.length_take, List.length_drop, hlen]
  omega

/-- 区切りの中の読み出しは、列の全体からの読み出しと同じである。 -/
theorem take_drop_block {o m : ℕ} (h : o + m ≤ n) (data : List α) (i : ℕ) :
    (data.drop (i * n + o)).take m = ((block n data i).drop o).take m := by
  rw [block, List.drop_take, List.take_take, List.drop_drop, Nat.min_eq_left (by omega)]

theorem length_flatten_records (h : ∀ b ∈ bs, b.length = n) : bs.flatten.length = bs.length * n := by
  induction bs with
  | nil => simp
  | cons b bs ih =>
      rw [List.flatten_cons, List.length_append, List.length_cons, Nat.succ_mul, Nat.add_comm,
        h b List.mem_cons_self, ih fun c hc => h c (List.mem_cons_of_mem b hc)]

/-- 連ねた列を区切ると、連ねた記録が順に読める。 -/
theorem block_flatten (h : ∀ b ∈ bs, b.length = n) {i : ℕ} {b : List α} (hi : bs[i]? = some b) :
    block n bs.flatten i = b := by
  induction bs generalizing i with
  | nil => cases hi
  | cons c bs ih =>
      have hc : c.length = n := h c List.mem_cons_self
      cases i with
      | zero =>
          obtain rfl : c = b := Option.some.inj hi
          rw [block, Nat.zero_mul, List.drop_zero, List.flatten_cons, ← hc, List.take_left]
      | succ i =>
          have hdrop : (c ++ bs.flatten).drop ((i + 1) * n) = bs.flatten.drop (i * n) := by
            rw [Nat.succ_mul, Nat.add_comm, ← List.drop_drop, ← hc, List.drop_left]
          rw [block, List.flatten_cons, hdrop]
          exact ih (fun b hb => h b (List.mem_cons_of_mem c hb)) hi

theorem map_block_flatten (h : ∀ b ∈ bs, b.length = n) :
    (List.range bs.length).map (block n bs.flatten) = bs := by
  refine List.ext_getElem? fun i => ?_
  rcases Nat.lt_or_ge i bs.length with hi | hi
  · rw [List.getElem?_map, List.getElem?_range hi, Option.map_some, List.getElem?_eq_getElem hi,
      block_flatten h (List.getElem?_eq_getElem hi)]
  · rw [List.getElem?_eq_none hi, List.getElem?_eq_none (by simpa using hi)]

end Ranger.Lib
