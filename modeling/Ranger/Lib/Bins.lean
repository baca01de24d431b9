import Mathlib.Data.List.Induction
import Mathlib.Data.List.Perm.Basic
import Mathlib.Order.Bounds.Basic
import Mathlib.Order.MinMax

/-!
# 仕切りごとの最小値

値を一つずつ仕切りに入れ、仕切りごとに、丸めた最小の値を残す計算を定める。残っている値は丸めてあり、入れる値とは丸める前に
比べる。丸めが単調で冪等なら、残る値は、入れた値を丸めたものの最小であり、入れる順によらない。
-/

namespace Ranger.Lib

variable {ι α : Type*}

/-! ## 入れた値 -/

/-- 仕切り `j` に入れた値を丸めたもの。 -/
def deposited (r : α → α) (bin : ι → ℕ) (val : ι → α) (ks : List ι) (j : ℕ) : Set α :=
  {v | ∃ k ∈ ks, bin k = j ∧ v = r (val k)}

variable {r : α → α} {bin : ι → ℕ} {val : ι → α}

theorem deposited_concat (ks : List ι) (k : ι) (j : ℕ) :
    deposited r bin val (ks ++ [k]) j =
      if bin k = j then insert (r (val k)) (deposited r bin val ks j) else deposited r bin val ks j := by
  ext v
  split_ifs with hk
  · simp only [deposited, List.mem_append, List.mem_singleton, Set.mem_ofPred_eq, Set.mem_insert_iff]
    constructor
    · rintro ⟨k', hmem | rfl, hbin, hv⟩
      · exact Or.inr ⟨k', hmem, hbin, hv⟩
      · exact Or.inl hv
    · rintro (hv | ⟨k', hmem, hbin, hv⟩)
      · exact ⟨k, Or.inr rfl, hk, hv⟩
      · exact ⟨k', Or.inl hmem, hbin, hv⟩
  · simp only [deposited, List.mem_append, List.mem_singleton, Set.mem_ofPred_eq]
    constructor
    · rintro ⟨k', hmem | rfl, hbin, hv⟩
      · exact ⟨k', hmem, hbin, hv⟩
      · exact absurd hbin hk
    · rintro ⟨k', hmem, hbin, hv⟩
      exact ⟨k', Or.inl hmem, hbin, hv⟩

theorem deposited_perm {ks ks' : List ι} (h : ks.Perm ks') (j : ℕ) :
    deposited r bin val ks j = deposited r bin val ks' j := by
  ext v
  simp only [deposited, h.mem_iff]

/-! ## 残る値 -/

variable [LinearOrder α]

/-- 仕切り `bin k` に、値 `val k` を入れる。 -/
def deposit (r : α → α) (bin : ι → ℕ) (val : ι → α) (d : List α) (k : ι) : List α :=
  match d[bin k]? with
  | none => d
  | some s => if val k < s then d.set (bin k) (r (val k)) else d

def deposits (r : α → α) (bin : ι → ℕ) (val : ι → α) (d : List α) (ks : List ι) : List α :=
  ks.foldl (deposit r bin val) d

theorem length_deposit (d : List α) (k : ι) : (deposit r bin val d k).length = d.length := by
  unfold deposit
  split
  · rfl
  · split_ifs
    · exact List.length_set
    · rfl

theorem length_deposits (d : List α) (ks : List ι) : (deposits r bin val d ks).length = d.length := by
  induction ks generalizing d with
  | nil => rfl
  | cons k ks ih => exact (ih _).trans (length_deposit d k)

variable [OrderTop α]

/-- 丸めてある値 `s` との比較では、丸める前の値と比べても、丸めた値と比べても、同じである。 -/
theorem keep_eq_min (hmono : Monotone r) {x s : α} (hx : x ≠ ⊤) (hs : s = ⊤ ∨ r s = s) :
    (if x < s then r x else s) = min (r x) s := by
  rcases hs with rfl | hs
  · rw [if_pos (lt_top_iff_ne_top.mpr hx), min_eq_left le_top]
  · split_ifs with hlt
    · exact (min_eq_left (hs ▸ hmono hlt.le)).symm
    · exact (min_eq_right (hs ▸ hmono (not_lt.mp hlt))).symm

theorem getElem?_deposit (hmono : Monotone r) {d : List α} {k : ι} {j : ℕ} {s : α} (hk : val k ≠ ⊤)
    (hj : d[j]? = some s) (hs : s = ⊤ ∨ r s = s) :
    (deposit r bin val d k)[j]? = some (if bin k = j then min (r (val k)) s else s) := by
  unfold deposit
  by_cases hbin : bin k = j
  · obtain ⟨hlt, _⟩ := List.getElem?_eq_some_iff.mp hj
    rw [if_pos hbin, hbin, hj, ← keep_eq_min hmono hk hs]
    by_cases hval : val k < s
    · simp only [hval, if_true, List.getElem?_set_self hlt]
    · simp only [hval, if_false, hj]
  · rw [if_neg hbin, ← hj]
    split
    · rfl
    · split_ifs
      · exact List.getElem?_set_ne hbin
      · rfl

/-- どの仕切りにも、入れた値を丸めたものの最小が残る。入れた値がなければ `⊤` である。 -/
theorem deposits_isLeast (hmono : Monotone r) (hidem : ∀ x, r (r x) = r x) {ks : List ι}
    (hval : ∀ k ∈ ks, val k ≠ ⊤) {n j : ℕ} (hj : j < n) :
    ∃ s, (deposits r bin val (List.replicate n ⊤) ks)[j]? = some s ∧
      IsLeast (insert ⊤ (deposited r bin val ks j)) s := by
  suffices h : ∃ s, (deposits r bin val (List.replicate n ⊤) ks)[j]? = some s ∧
      IsLeast (insert ⊤ (deposited r bin val ks j)) s ∧ (s = ⊤ ∨ r s = s) by
    obtain ⟨s, hs, hleast, _⟩ := h
    exact ⟨s, hs, hleast⟩
  induction ks using List.reverseRecOn with
  | nil =>
      have hempty : deposited r bin val [] j = ∅ := by simp [deposited]
      refine ⟨⊤, by simp [deposits, hj], ?_, Or.inl rfl⟩
      rw [hempty, insert_empty_eq]
      exact isLeast_singleton
  | append_singleton ks k ih =>
      obtain ⟨s, hs, hleast, hfix⟩ := ih fun k' hk' => hval k' (List.mem_append_left [k] hk')
      have hk : val k ≠ ⊤ := hval k (List.mem_append_right ks List.mem_cons_self)
      refine ⟨if bin k = j then min (r (val k)) s else s, ?_, ?_, ?_⟩
      · rw [deposits, List.foldl_append]
        exact getElem?_deposit hmono hk hs hfix
      · rw [deposited_concat]
        split_ifs
        · rw [Set.insert_comm]
          exact hleast.insert (r (val k))
        · exact hleast
      · split_ifs
        · rcases min_choice (r (val k)) s with hmin | hmin
          · exact Or.inr (by rw [hmin, hidem])
          · rwa [hmin]
        · exact hfix

/-- 残る値は、入れる順によらない。 -/
theorem deposits_perm (hmono : Monotone r) (hidem : ∀ x, r (r x) = r x) {ks ks' : List ι} (h : ks.Perm ks')
    (hval : ∀ k ∈ ks, val k ≠ ⊤) (n : ℕ) :
    deposits r bin val (List.replicate n ⊤) ks = deposits r bin val (List.replicate n ⊤) ks' := by
  refine List.ext_getElem? fun j => ?_
  rcases lt_or_ge j n with hj | hj
  · obtain ⟨s, hs, hleast⟩ : ∃ s, (deposits r bin val (List.replicate n ⊤) ks)[j]? = some s ∧ IsLeast _ s :=
      deposits_isLeast hmono hidem hval hj
    obtain ⟨s', hs', hleast'⟩ : ∃ s, (deposits r bin val (List.replicate n ⊤) ks')[j]? = some s ∧ IsLeast _ s :=
      deposits_isLeast hmono hidem (fun k hk => hval k (h.mem_iff.mpr hk)) hj
    rw [deposited_perm h] at hleast
    rw [hs, hs', hleast.unique hleast']
  · rw [List.getElem?_eq_none (by simpa [length_deposits] using hj),
      List.getElem?_eq_none (by simpa [length_deposits] using hj)]

end Ranger.Lib
