import Mathlib.Data.Nat.Count
import Mathlib.Logic.Function.Basic
import Mathlib.Order.Lattice

/-!
# 親の番号が自分を越えない素集合森

点 `i` の親 `d i` が `i` を越えない森の根、根のつけ替え、二つの木の合併、根の番号づけを定める。
-/

namespace Ranger.Lib

/-- 親の番号は自分を越えない。 -/
def Forest (d : ℕ → ℕ) : Prop := ∀ i, d i ≤ i

def root (d : ℕ → ℕ) (i : ℕ) : ℕ := if d i < i then root d (d i) else i
termination_by i

/-- `i` の木と `j` の木は、小さい方の根をもつ一つの木になり、他の木は変わらない。 -/
def Merged (d d' : ℕ → ℕ) (i j : ℕ) : Prop :=
  ∀ x, root d' x = if root d x = root d i ∨ root d x = root d j then min (root d i) (root d j) else root d x

variable {d d' : ℕ → ℕ} {i j r x : ℕ}

/-! ## 根 -/

theorem root_of_lt (h : d i < i) : root d i = root d (d i) := by
  rw [root, if_pos h]

theorem root_of_le (h : i ≤ d i) : root d i = i := by
  rw [root, if_neg (not_lt.mpr h)]

theorem root_le (d : ℕ → ℕ) (i : ℕ) : root d i ≤ i := by
  induction i using Nat.strong_induction_on with
  | _ i ih =>
      rcases lt_or_ge (d i) i with h | h
      · rw [root_of_lt h]
        exact (ih (d i) h).trans h.le
      · rw [root_of_le h]

theorem Forest.parent_root (hd : Forest d) (i : ℕ) : d (root d i) = root d i := by
  induction i using Nat.strong_induction_on with
  | _ i ih =>
      rcases lt_or_ge (d i) i with h | h
      · rw [root_of_lt h]
        exact ih (d i) h
      · rw [root_of_le h]
        exact (hd i).antisymm h

theorem root_of_eq (h : d i = i) : root d i = i := root_of_le h.ge

theorem Forest.root_root (hd : Forest d) (i : ℕ) : root d (root d i) = root d i := root_of_eq (hd.parent_root i)

theorem Forest.root_parent (hd : Forest d) (i : ℕ) : root d (d i) = root d i := by
  rcases lt_or_ge (d i) i with h | h
  · exact (root_of_lt h).symm
  · rw [(hd i).antisymm h]

theorem Forest.root_eq_self_iff (hd : Forest d) : root d i = i ↔ d i = i := by
  refine ⟨fun h => ?_, root_of_eq⟩
  rw [← h]
  exact hd.parent_root i

/-- 点 `x` 以下の親だけで、`x` の根は決まる。 -/
theorem root_congr (h : ∀ y ≤ x, d' y = d y) : root d' x = root d x := by
  induction x using Nat.strong_induction_on with
  | _ x ih =>
      rcases lt_or_ge (d x) x with hlt | hge
      · rw [root_of_lt (by rwa [h x le_rfl]), h x le_rfl, root_of_lt hlt]
        exact ih (d x) hlt fun y hy => h y (hy.trans hlt.le)
      · rw [root_of_le (by rwa [h x le_rfl]), root_of_le hge]

/-! ## 根のつけ替え -/

theorem Forest.update (hd : Forest d) (hr : r ≤ i) : Forest (Function.update d i r) := by
  intro x
  rcases eq_or_ne x i with rfl | hx
  · rwa [Function.update_self]
  · rw [Function.update_of_ne hx]
    exact hd x

theorem root_update_of_lt (hx : x < i) : root (Function.update d i r) x = root d x :=
  root_congr fun _ hy => Function.update_of_ne (hy.trans_lt hx).ne r d

/-- 根 `r` を `i` の親にすると、各点の根は変わらないか、`i` の木の点では `r` になる。 -/
theorem root_update (hr : r ≤ i) (hroot : d r = r) (x : ℕ) :
    root (Function.update d i r) x = root d x ∨ root d x = root d i ∧ root (Function.update d i r) x = r := by
  have hself : Function.update d i r i = r := Function.update_self i r d
  have hfix : Function.update d i r r = r := by
    rcases eq_or_ne r i with rfl | hne
    · exact hself
    · rw [Function.update_of_ne hne, hroot]
  induction x using Nat.strong_induction_on with
  | _ x ih =>
      rcases eq_or_ne x i with rfl | hx
      · refine Or.inr ⟨rfl, ?_⟩
        rcases hr.lt_or_eq with hlt | rfl
        · rw [root_of_lt (by rwa [hself]), hself]
          exact root_of_eq hfix
        · exact root_of_eq hfix
      · have hsame : Function.update d i r x = d x := Function.update_of_ne hx r d
        rcases lt_or_ge (d x) x with h | h
        · rw [root_of_lt (by rwa [hsame]), hsame, root_of_lt h]
          exact ih (d x) h
        · rw [root_of_le (by rwa [hsame]), root_of_le h]
          exact Or.inl rfl

/-- `d` の木のうち `i` の木の根だけが `r` に変わる。 -/
def Rerooted (d d' : ℕ → ℕ) (i r : ℕ) : Prop := ∀ x, root d' x = if root d x = root d i then r else root d x

/-- 根 `i` の親を根 `r` にする。 -/
theorem Forest.rerooted_root (hd : Forest d) (hr : r ≤ i) (hroot : d r = r) (hi : d i = i) :
    Rerooted d (Function.update d i r) i r := by
  intro x
  have hfix := (hd.update hr).parent_root x
  rcases root_update hr hroot x with h | ⟨h, h'⟩
  · rw [h] at hfix ⊢
    rw [root_of_eq hi]
    split_ifs with hx
    · rw [hx, Function.update_self] at hfix
      rw [hx, hfix]
    · rfl
  · rw [h', if_pos h]

/-- 根でない点 `i` の親を根 `r` にした後で、もとの親の木の根を `r` に変える。 -/
theorem Forest.rerooted_parent (hd : Forest d) (hr : r ≤ i) (hroot : d r = r) (hlt : d i < i)
    (h : Rerooted (Function.update d i r) d' (d i) r) : Rerooted d d' i r := by
  intro x
  rw [h x, root_update_of_lt hlt, hd.root_parent i]
  rcases root_update hr hroot x with heq | ⟨heq, heq'⟩
  · rw [heq]
  · rw [heq', if_pos heq]
    split_ifs <;> rfl

/-- 根の小さい方 `min (root d i) (root d j)` を、両方の木の根にする。 -/
theorem Rerooted.merged {d₁ : ℕ → ℕ} (h₁ : Rerooted d d₁ j (min (root d i) (root d j)))
    (h₂ : Rerooted d₁ d' i (min (root d i) (root d j))) : Merged d d' i j := by
  intro x
  rw [h₂ x, h₁ x, h₁ i]
  grind

theorem Rerooted.merged_self (h : Rerooted d d' i (root d i)) : Merged d d' i i := by
  intro x
  simp only [h x, or_self, min_self]

theorem Merged.refl (d : ℕ → ℕ) (i : ℕ) : Merged d d i i := by
  intro x
  simp only [or_self, min_self]
  split_ifs with h
  · exact h
  · rfl

/-- 合併した木の根は、二つの根の小さい方である。 -/
theorem Merged.root_min (h : Merged d d' i j) (hd : Forest d) :
    root d' (min (root d i) (root d j)) = min (root d i) (root d j) := by
  have hmin : root d (min (root d i) (root d j)) = root d i ∨ root d (min (root d i) (root d j)) = root d j := by
    rcases min_choice (root d i) (root d j) with heq | heq
    · rw [heq]
      exact Or.inl (hd.root_root i)
    · rw [heq]
      exact Or.inr (hd.root_root j)
  rw [h, if_pos hmin]

/-! ## 番号づけ -/

/-- 根 `r` より小さい根の数。 -/
def rank (d : ℕ → ℕ) (r : ℕ) : ℕ := Nat.count (fun i => d i = i) r

theorem rank_succ_of_eq (h : d i = i) : rank d (i + 1) = rank d i + 1 := by
  rw [rank, Nat.count_succ, if_pos h, rank]

theorem rank_succ_of_ne (h : d i ≠ i) : rank d (i + 1) = rank d i := by
  rw [rank, Nat.count_succ, if_neg h, Nat.add_zero, rank]

theorem rank_zero (d : ℕ → ℕ) : rank d 0 = 0 := Nat.count_zero _

theorem Forest.rank_one (hd : Forest d) : rank d 1 = 1 := by
  rw [rank_succ_of_eq (Nat.le_zero.mp (hd 0)), rank_zero]

theorem Forest.rank_root_inj (hd : Forest d) (h : rank d (root d i) = rank d (root d j)) : root d i = root d j :=
  Nat.count_injective (p := fun i => d i = i) (hd.parent_root i) (hd.parent_root j) h

theorem rank_le (d : ℕ → ℕ) (n : ℕ) : rank d n ≤ n := Nat.count_le _

theorem rank_eq_iff {n : ℕ} : rank d n = n ↔ ∀ i < n, d i = i := Nat.count_iff_forall

end Ranger.Lib
