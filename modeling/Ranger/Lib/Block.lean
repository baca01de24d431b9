import Mathlib.LinearAlgebra.Matrix.NonsingularInverse

/-!
# 区分けされた行列

添字を札で区分けし、札の違う成分がすべて 0 の行列と、一つの札の成分だけを持つ列を定める。区分けは、和、積、転置、
逆行列と、成分の代入で保たれる。
-/

namespace Ranger.Lib

open Matrix

variable {l m n κ R : Type*}

/-- 札の違う成分がすべて 0 である。 -/
def BlockDiag [Zero R] (b : m → κ) (c : n → κ) (M : Matrix m n R) : Prop :=
  ∀ i j, b i ≠ c j → M i j = 0

/-- 札 `k` でない成分がすべて 0 である。 -/
def Supported [Zero R] (b : m → κ) (k : κ) (v : m → R) : Prop :=
  ∀ i, b i ≠ k → v i = 0

def assign [DecidableEq m] [DecidableEq n] (M : Matrix m n R) : List (m × n × R) → Matrix m n R
  | [] => M
  | (i, j, x) :: es => assign (Matrix.of fun i' j' => if i' = i ∧ j' = j then x else M i' j') es

/-- 一つの行の成分は、その行への代入だけで決まる。 -/
theorem assign_row [DecidableEq m] [DecidableEq n] {M N : Matrix m n R} {i : m} (hMN : ∀ j, M i j = N i j)
    (es : List (m × n × R)) (j : n) : assign M es i j = assign N (es.filter fun e => e.1 = i) i j := by
  induction es generalizing M N with
  | nil => exact hMN j
  | cons e es ih =>
      by_cases hrow : e.1 = i
      · rw [List.filter_cons_of_pos (by simpa using hrow)]
        exact ih fun k => by simp only [Matrix.of_apply, hMN k]
      · rw [List.filter_cons_of_neg (by simpa using hrow)]
        refine ih fun k => ?_
        rw [Matrix.of_apply, if_neg fun heq => hrow heq.1.symm, hMN k]

theorem assign_of_notMem [DecidableEq m] [DecidableEq n] (M : Matrix m n R) {es : List (m × n × R)} {i : m} {j : n}
    (hnot : (i, j) ∉ es.map fun e => (e.1, e.2.1)) : assign M es i j = M i j := by
  induction es generalizing M with
  | nil => rfl
  | cons e es ih =>
      obtain ⟨hne, hnot⟩ := List.ne_and_not_mem_of_not_mem_cons hnot
      rw [assign, ih _ hnot, Matrix.of_apply, if_neg]
      rintro ⟨rfl, rfl⟩
      exact hne rfl

/-- 一つの成分を `x` にした行列との積。 -/
theorem mulVec_write [Fintype n] [DecidableEq m] [DecidableEq n] [Ring R] (M : Matrix m n R) (r : m) (c : n) (x : R)
    (v : n → R) (i : m) :
    (Matrix.of (fun i' j' => if i' = r ∧ j' = c then x else M i' j') *ᵥ v) i =
      (M *ᵥ v) i + if r = i then (x - M i c) * v c else 0 := by
  split_ifs with hi
  · subst hi
    have hterm (k : n) : (if k = c then x else M r k) * v k =
        M r k * v k + if k = c then (x - M r c) * v c else 0 := by
      split_ifs with hk
      · rw [hk, ← add_mul, add_sub_cancel]
      · rw [add_zero]
    simp only [mulVec, dotProduct, Matrix.of_apply, true_and, hterm, Finset.sum_add_distrib, Finset.sum_ite_eq',
      Finset.mem_univ, if_true]
  · simp only [mulVec, dotProduct, Matrix.of_apply, Ne.symm hi, false_and, if_false, add_zero]

/-- 違う成分への代入の後の積は、行の成分の変わった分だけ変わる。 -/
theorem assign_mulVec [Fintype n] [DecidableEq m] [DecidableEq n] [Ring R] (M : Matrix m n R) {es : List (m × n × R)}
    (hes : (es.map fun e => (e.1, e.2.1)).Nodup) (v : n → R) (i : m) :
    (assign M es *ᵥ v) i =
      (M *ᵥ v) i + ((es.filter fun e => e.1 = i).map fun e => (e.2.2 - M i e.2.1) * v e.2.1).sum := by
  induction es generalizing M with
  | nil => rw [assign, List.filter_nil, List.map_nil, List.sum_nil, add_zero]
  | cons e es ih =>
      obtain ⟨r, c, x⟩ := e
      obtain ⟨hnot, hes⟩ := List.nodup_cons.mp hes
      rw [assign, ih _ hes, mulVec_write, add_assoc]
      congr 1
      have hsame : ((es.filter fun e => e.1 = i).map fun e =>
          (e.2.2 - (if i = r ∧ e.2.1 = c then x else M i e.2.1)) * v e.2.1) =
          (es.filter fun e => e.1 = i).map fun e => (e.2.2 - M i e.2.1) * v e.2.1 := by
        apply List.map_congr_left
        intro e he
        obtain ⟨hmem, hrow⟩ := List.mem_filter.mp he
        rw [if_neg]
        rintro ⟨rfl, rfl⟩
        exact hnot (List.mem_map.mpr ⟨e, hmem, by rw [of_decide_eq_true hrow]⟩)
      simp only [Matrix.of_apply, hsame]
      split_ifs with hi
      · rw [List.filter_cons_of_pos (by simpa using hi), List.map_cons, List.sum_cons]
      · rw [List.filter_cons_of_neg (by simpa using hi), zero_add]

section BlockDiag

variable {a : l → κ} {b : m → κ} {c : n → κ}

theorem BlockDiag.one [Zero R] [One R] [DecidableEq m] : BlockDiag b b (1 : Matrix m m R) := by
  intro i j hij
  exact Matrix.one_apply_ne fun h => hij (congrArg b h)

theorem BlockDiag.transpose [Zero R] {M : Matrix m n R} (hM : BlockDiag b c M) :
    BlockDiag c b M.transpose :=
  fun i j hij => hM j i hij.symm

theorem BlockDiag.add [AddZeroClass R] {M N : Matrix m n R} (hM : BlockDiag b c M)
    (hN : BlockDiag b c N) : BlockDiag b c (M + N) := by
  intro i j hij
  rw [Matrix.add_apply, hM i j hij, hN i j hij, add_zero]

theorem BlockDiag.sub [AddGroup R] {M N : Matrix m n R} (hM : BlockDiag b c M)
    (hN : BlockDiag b c N) : BlockDiag b c (M - N) := by
  intro i j hij
  rw [Matrix.sub_apply, hM i j hij, hN i j hij, sub_zero]

theorem BlockDiag.smul [MulZeroClass R] {M : Matrix m n R} (hM : BlockDiag b c M) (r : R) :
    BlockDiag b c (r • M) := by
  intro i j hij
  rw [Matrix.smul_apply, hM i j hij, smul_zero]

theorem BlockDiag.mul [NonUnitalNonAssocSemiring R] [Fintype m] {M : Matrix l m R} {N : Matrix m n R}
    (hM : BlockDiag a b M) (hN : BlockDiag b c N) : BlockDiag a c (M * N) := by
  intro i j hij
  rw [Matrix.mul_apply]
  refine Finset.sum_eq_zero fun k _ => ?_
  by_cases hik : a i = b k
  · rw [hN k j (hik ▸ hij), mul_zero]
  · rw [hM i k hik, zero_mul]

theorem BlockDiag.assign [Zero R] [DecidableEq m] [DecidableEq n] {M : Matrix m n R}
    (hM : BlockDiag b c M) {es : List (m × n × R)}
    (hes : ∀ e ∈ es, b e.1 ≠ c e.2.1 → e.2.2 = 0) : BlockDiag b c (assign M es) := by
  induction es generalizing M with
  | nil => exact hM
  | cons e es ih =>
      refine ih ?_ fun e' he' => hes e' (List.mem_cons_of_mem e he')
      intro i j hij
      rw [Matrix.of_apply]
      split
      · rename_i heq
        exact hes e List.mem_cons_self (heq.1 ▸ heq.2 ▸ hij)
      · exact hM i j hij

end BlockDiag

/-! ## 逆行列

札ごとの射影の行列と可換であることが、区分けされていることにあたる。可換性は逆行列へ移る。
-/

section Inverse

variable {b : n → κ} [DecidableEq κ] [DecidableEq n] [Fintype n]

def blockProjection [Zero R] [One R] (b : n → κ) (k : κ) : Matrix n n R :=
  Matrix.diagonal fun i => if b i = k then 1 else 0

theorem BlockDiag.iff_commute [CommRing R] {M : Matrix n n R} :
    BlockDiag b b M ↔ ∀ k, blockProjection b k * M = M * blockProjection b k := by
  constructor
  · intro hM k
    ext i j
    rw [blockProjection, Matrix.diagonal_mul, Matrix.mul_diagonal]
    by_cases hij : b i = b j
    · rw [hij, mul_comm]
    · rw [hM i j hij, mul_zero, zero_mul]
  · intro h i j hij
    have hentry := congrFun (congrFun (h (b i)) i) j
    rw [blockProjection, Matrix.diagonal_mul, Matrix.mul_diagonal, if_pos rfl, if_neg (Ne.symm hij), one_mul,
      mul_zero] at hentry
    exact hentry

theorem BlockDiag.inv [CommRing R] {M : Matrix n n R} (hM : BlockDiag b b M) (hdet : IsUnit M.det) :
    BlockDiag b b M⁻¹ := by
  rw [BlockDiag.iff_commute] at hM ⊢
  intro k
  calc blockProjection b k * M⁻¹
      = M⁻¹ * M * blockProjection b k * M⁻¹ := by rw [Matrix.nonsing_inv_mul M hdet, Matrix.one_mul]
    _ = M⁻¹ * (blockProjection b k * M) * M⁻¹ := by rw [hM k, Matrix.mul_assoc M⁻¹]
    _ = M⁻¹ * blockProjection b k := by
        rw [← Matrix.mul_assoc, Matrix.mul_nonsing_inv_cancel_right _ _ hdet]

end Inverse

/-! ## 列 -/

section Supported

variable {b : m → κ} {c : n → κ} {k : κ}

theorem Supported.add [AddZeroClass R] {v w : m → R} (hv : Supported b k v) (hw : Supported b k w) :
    Supported b k (v + w) := by
  intro i hi
  rw [Pi.add_apply, hv i hi, hw i hi, add_zero]

theorem BlockDiag.mulVec [NonUnitalNonAssocSemiring R] [Fintype n] {M : Matrix m n R} {v : n → R}
    (hM : BlockDiag b c M) (hv : Supported c k v) : Supported b k (M *ᵥ v) := by
  intro i hi
  refine Finset.sum_eq_zero fun j _ => ?_
  show M i j * v j = 0
  by_cases hij : b i = c j
  · rw [hv j (hij ▸ hi), mul_zero]
  · rw [hM i j hij, zero_mul]

end Supported

end Ranger.Lib
