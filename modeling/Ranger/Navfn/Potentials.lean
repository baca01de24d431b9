import Mathlib.Algebra.Order.Field.Rat
import Mathlib.Tactic.Linarith
import Mathlib.Tactic.NormNum.OfScientific
import Mathlib.Tactic.Positivity
import Ranger.Navfn.Cycles

/-!
# 距離の値

`updateCell` が求める値は、四つの隣の最も低い値に、升目の費用の `0.704` 倍から `1.0046` 倍を加えた値である。値が書かれるのは、目標と、通れる升目だけである。
-/

namespace Ranger.Navfn

variable {K : Type*} [Field K] [LinearOrder K] [IsStrictOrderedRing K]

theorem potHigh_pos : (0 : K) < potHigh := by
  unfold potHigh
  norm_num

/-- 二つの隣の値から補間する二次式は、両端を結ぶ線分より上にある。 -/
theorem quadratic_bounds {d : K} (hnonneg : 0 ≤ d) (hle : d ≤ 1) :
    0.704 + 0.3 * d ≤ -0.2301 * d * d + 0.5307 * d + 0.7040 ∧ -0.2301 * d * d + 0.5307 * d + 0.7040 ≤ 1.0046 := by
  have hmul : 0 ≤ d * (1 - d) := mul_nonneg hnonneg (sub_nonneg.mpr hle)
  constructor
  · norm_num
    nlinarith
  · norm_num
    nlinarith

theorem planarWave_eq (cost : UInt8) (l r u d : K) :
    ∃ e, planarWave cost l r u d = min (min l r) (min u d) + e ∧ 0.704 * (cost.toNat : K) ≤ e ∧
      e ≤ 1.0046 * (cost.toNat : K) ∧
      (e = (cost.toNat : K) ∨ 0.704 * (cost.toNat : K) + 0.3 * |min l r - min u d| ≤ e) := by
  have hcost : (0 : K) ≤ (cost.toNat : K) := Nat.cast_nonneg _
  have hlowest : (if min l r - min u d < 0 then (-(min l r - min u d), min l r) else (min l r - min u d, min u d)) =
      (|min l r - min u d|, min (min l r) (min u d)) := by
    split_ifs with hneg
    · rw [abs_of_neg hneg, min_eq_left (sub_neg.mp hneg).le]
    · rw [abs_of_nonneg (not_lt.mp hneg), min_eq_right (sub_nonneg.mp (not_lt.mp hneg))]
  have hdc := abs_nonneg (min l r - min u d)
  unfold planarWave
  simp only [← min_def_lt, hlowest]
  generalize |min l r - min u d| = dc at hdc
  generalize (cost.toNat : K) = hf at hcost
  split_ifs with hfar
  · refine ⟨hf, rfl, ?_, ?_, Or.inl rfl⟩
    · norm_num
      linarith
    · norm_num
      linarith
  · have hpos : 0 < hf := hdc.trans_lt (not_le.mp hfar)
    obtain ⟨hlow, hhigh⟩ := quadratic_bounds (div_nonneg hdc hcost) ((div_le_one hpos).mpr (not_le.mp hfar).le)
    have hmul : hf * (dc / hf) = dc := mul_div_cancel₀ dc hpos.ne'
    refine ⟨_, rfl, ?_, ?_, Or.inr ?_⟩
    · calc 0.704 * hf ≤ hf * (0.704 + 0.3 * (dc / hf)) := by
            rw [mul_add, mul_left_comm, hmul, mul_comm]
            linarith [mul_nonneg (by norm_num : (0 : K) ≤ 0.3) hdc]
        _ ≤ _ := mul_le_mul_of_nonneg_left hlow hcost
    · rw [mul_comm 1.0046 hf]
      exact mul_le_mul_of_nonneg_left hhigh hcost
    · calc 0.704 * hf + 0.3 * dc = hf * (0.704 + 0.3 * (dc / hf)) := by rw [mul_add, mul_left_comm, hmul, mul_comm]
        _ ≤ _ := mul_le_mul_of_nonneg_left hlow hcost

/-- 四つの隣のどれよりも低い値は、求める値より低い。 -/
theorem le_planarWave {cost : UInt8} {c l r u d : K} (hl : c ≤ l) (hr : c ≤ r) (hu : c ≤ u) (hd : c ≤ d) :
    c + 0.704 * (cost.toNat : K) ≤ planarWave cost l r u d := by
  obtain ⟨e, heq, hlow, -, -⟩ := planarWave_eq cost l r u d
  rw [heq]
  exact add_le_add (le_min (le_min hl hr) (le_min hu hd)) hlow

theorem planarWave_le {cost : UInt8} {c l r u d : K} (h : l ≤ c ∨ r ≤ c ∨ u ≤ c ∨ d ≤ c) :
    planarWave cost l r u d ≤ c + 1.0046 * (cost.toNat : K) := by
  obtain ⟨e, heq, -, hhigh, -⟩ := planarWave_eq cost l r u d
  rw [heq]
  apply add_le_add _ hhigh
  simp only [min_le_iff]
  rcases h with h | h | h | h
  · exact Or.inl (Or.inl h)
  · exact Or.inl (Or.inr h)
  · exact Or.inr (Or.inl h)
  · exact Or.inr (Or.inr h)

namespace NavFn

variable {m s : NavFn K} {n : ℕ}

theorem le_newPotential {c : K} (hleft : c ≤ s.potarr (n - 1)) (hright : c ≤ s.potarr (n + 1))
    (hup : c ≤ s.potarr (n - s.nx)) (hdown : c ≤ s.potarr (n + s.nx)) : c ≤ s.newPotential n := by
  have hcost : (0 : K) ≤ 0.704 * ((s.costarr n).toNat : K) := mul_nonneg (by norm_num) (Nat.cast_nonneg _)
  have hle : c + 0.704 * ((s.costarr n).toNat : K) ≤ s.newPotential n := le_planarWave hleft hright hup hdown
  exact (le_add_of_nonneg_right hcost).trans hle

/-! ## 値だけの不変条件 -/

omit [IsStrictOrderedRing K] in
/-- 通れる升目の値を下げても保たれる性質は、実行の全体で保たれる。 -/
theorem potarr_cycleInv {P : (ℕ → K) → Prop}
    (hset : ∀ s n, m.SameMap s → m.Traversable n → P s.potarr → s.newPotential n < s.potarr n →
      P (Function.update s.potarr n (s.newPotential n))) :
    CycleInv (fun s => Loaded m s ∧ P s.potarr) (fun rest s => Sweeping m rest s ∧ P s.potarr) where
  enter _ h := ⟨h.1.enter, h.2⟩
  update n rest s h := by
    refine ⟨h.1.update, ?_⟩
    have htrav := h.1.traversable n List.mem_cons_self
    obtain ⟨-, hkeep⟩ | ⟨hlower, hpushed⟩ := updateCell_cases ((h.1.same.traversable_iff n).mpr htrav)
    · rw [hkeep]
      exact h.2
    · rw [hpushed.potarr]
      exact hset s n h.1.same htrav h.2 hlower
  leave s h := by
    refine ⟨h.1.leave, ?_⟩
    unfold swapBlocks
    split_ifs
    · exact h.2
    · exact h.2

/-- 値は `0` から `POT_HIGH` までで、低い値を持つのは、値が `0` の目標と、通れる升目だけである。 -/
structure Valued (m : NavFn K) (potarr : ℕ → K) : Prop where
  nonneg : ∀ n, 0 ≤ potarr n
  high : ∀ n, potarr n ≤ potHigh
  inside : ∀ n, potarr n < potHigh → n = m.goalCell ∨ m.Traversable n
  goal : potarr m.goalCell = 0

theorem Valued.newPotential_nonneg (h : Valued m s.potarr) (n : ℕ) : 0 ≤ s.newPotential n :=
  le_newPotential (h.nonneg _) (h.nonneg _) (h.nonneg _) (h.nonneg _)

theorem Valued.update (htrav : m.Traversable n) (h : Valued m s.potarr)
    (hlower : s.newPotential n < s.potarr n) :
    Valued m (Function.update s.potarr n (s.newPotential n)) := by
  have hgoal : m.goalCell ≠ n := by
    rintro rfl
    rw [h.goal] at hlower
    exact absurd (h.newPotential_nonneg _) (not_le.mpr hlower)
  refine ⟨fun k => ?_, fun k => ?_, fun k hk => ?_, ?_⟩
  · rw [Function.update_apply]
    split_ifs
    · exact h.newPotential_nonneg n
    · exact h.nonneg k
  · rw [Function.update_apply]
    split_ifs
    · exact hlower.le.trans (h.high n)
    · exact h.high k
  · rw [Function.update_apply] at hk
    split_ifs at hk with heq
    · rw [heq]
      exact Or.inr htrav
    · exact h.inside k hk
  · rw [Function.update_of_ne hgoal]
    exact h.goal

theorem setupNavFn_valued (keepit : Bool) (s : NavFn K) :
    Valued (s.setupNavFn keepit) (s.setupNavFn keepit).potarr := by
  have hhigh : (0 : K) ≤ potHigh := potHigh_pos.le
  rw [setupNavFn_potarr]
  refine ⟨fun k => ?_, fun k => ?_, fun k hk => ?_, Function.update_self _ _ _⟩
  · rw [Function.update_apply]
    split_ifs
    · exact le_rfl
    · exact hhigh
  · rw [Function.update_apply]
    split_ifs
    · exact hhigh
    · exact le_rfl
  · rw [Function.update_apply] at hk
    split_ifs at hk with hgoal
    · exact Or.inl hgoal
    · exact absurd hk (lt_irrefl _)

theorem valued_cycleInv (m : NavFn K) :
    CycleInv (fun s => Loaded m s ∧ Valued m s.potarr) (fun rest s => Sweeping m rest s ∧ Valued m s.potarr) :=
  potarr_cycleInv fun _ _ _ htrav h hlower => h.update htrav hlower

/-! ## 値の下限 -/

theorem costNeutral_le_translateCost (unknown : Bool) (v : UInt8) : costNeutral ≤ (translateCost unknown v).toNat := by
  unfold translateCost
  dsimp only
  split_ifs with hfree hlarge hunknown
  · decide
  · have hlt : costNeutral + 8 * v.toNat / 10 < 254 := not_le.mp hlarge
    rw [UInt8.toNat_ofNat', Nat.mod_eq_of_lt (by omega)]
    exact Nat.le_add_right _ _
  · decide
  · decide

omit [Field K] [LinearOrder K] [IsStrictOrderedRing K] in
theorem costNeutral_le_setCostmap (cmap : ℕ → UInt8) (isROS allowUnknown : Bool) (s : NavFn K) (k : ℕ) :
    costNeutral ≤ ((s.setCostmap cmap isROS allowUnknown).costarr k).toNat := by
  unfold setCostmap
  dsimp only
  split_ifs
  · exact costNeutral_le_translateCost _ _
  · decide
  · exact costNeutral_le_translateCost _ _

theorem border_of_lt {nx ny k : ℕ} {costarr : ℕ → UInt8} (h : border nx ny costarr k < costObs) :
    border nx ny costarr k = costarr k := by
  have hne : ¬ costObs < costObs := by decide
  simp only [border, fill_apply] at h ⊢
  split_ifs at h ⊢
  · exact absurd h hne
  · exact absurd h hne
  · exact absurd h hne
  · exact absurd h hne
  · rfl

/-- 通れる升目の費用は `COST_NEUTRAL` 以上である。 -/
def Priced (m : NavFn K) : Prop := ∀ n, m.Traversable n → costNeutral ≤ (m.costarr n).toNat

omit [LinearOrder K] [IsStrictOrderedRing K] in
theorem setupNavFn_priced (cmap : ℕ → UInt8) (isROS allowUnknown : Bool) (s : NavFn K) :
    ((s.setCostmap cmap isROS allowUnknown).setupNavFn true).Priced := by
  intro n hn
  have hpushed := setupNavFn_pushed true (s.setCostmap cmap isROS allowUnknown)
  have hcost := hn.2
  rw [hpushed.same.costarr] at hcost ⊢
  have hcell : ((s.setCostmap cmap isROS allowUnknown).clearedNavFn true).costarr n =
      (s.setCostmap cmap isROS allowUnknown).costarr n := border_of_lt hcost
  rw [hcell]
  exact costNeutral_le_setCostmap cmap isROS allowUnknown s n

/-- `COST_NEUTRAL` より低い値を持つのは、目標だけである。 -/
structure Floored (m : NavFn K) (potarr : ℕ → K) : Prop where
  valued : Valued m potarr
  floor : ∀ n, n ≠ m.goalCell → (costNeutral : K) ≤ potarr n

omit [IsStrictOrderedRing K] in
theorem Floored.min_eq_zero (h : Floored m s.potarr) {i j : ℕ} (hlow : min (s.potarr i) (s.potarr j) < costNeutral) :
    min (s.potarr i) (s.potarr j) = 0 ∧ (i = m.goalCell ∨ j = m.goalCell) := by
  have hgoal (k : ℕ) (hk : s.potarr k < costNeutral) : k = m.goalCell := by
    by_contra hne
    exact absurd (h.floor k hne) (not_le.mpr hk)
  rcases min_lt_iff.mp hlow with hlow | hlow
  · obtain rfl := hgoal i hlow
    exact ⟨by rw [h.valued.goal, min_eq_left (h.valued.nonneg j)], Or.inl rfl⟩
  · obtain rfl := hgoal j hlow
    exact ⟨by rw [h.valued.goal, min_eq_right (h.valued.nonneg i)], Or.inr rfl⟩

theorem le_add_of_gap {a b hf e : K} (hcost : (costNeutral : K) ≤ hf)
    (hgap : (costNeutral : K) ≤ a ∧ (costNeutral : K) ≤ b ∨ a = 0 ∧ (costNeutral : K) ≤ b ∨ (costNeutral : K) ≤ a ∧ b = 0)
    (hnonneg : 0 ≤ e) (he : e = hf ∨ 0.704 * hf + 0.3 * |a - b| ≤ e) : (costNeutral : K) ≤ min a b + e := by
  have hfloor : (0 : K) < costNeutral := by
    unfold costNeutral
    norm_num
  have hnear : (costNeutral : K) ≤ |a - b| → (costNeutral : K) ≤ e := by
    intro habs
    rcases he with rfl | he
    · exact hcost
    · norm_num at he
      linarith
  rcases hgap with ⟨ha, hb⟩ | ⟨rfl, hb⟩ | ⟨ha, rfl⟩
  · exact (le_min ha hb).trans (le_add_of_nonneg_right hnonneg)
  · have habs : |0 - b| = b := by rw [zero_sub, abs_neg, abs_of_nonneg (hfloor.le.trans hb)]
    rw [min_eq_left (hfloor.le.trans hb), zero_add]
    exact hnear (hb.trans_eq habs.symm)
  · have habs : |a - 0| = a := by rw [sub_zero, abs_of_nonneg (hfloor.le.trans ha)]
    rw [min_eq_right (hfloor.le.trans ha), zero_add]
    exact hnear (ha.trans_eq habs.symm)

/-- 目標が隣にあっても、もう一方の軸の隣は高い。 -/
theorem Floored.newPotential_ge (hm : m.Bordered) (hpriced : m.Priced) (hmap : m.SameMap s) (htrav : m.Traversable n)
    (h : Floored m s.potarr) : (costNeutral : K) ≤ s.newPotential n := by
  have hinterior := hm n htrav
  have haround := hinterior.around
  have hwide : 2 < m.nx := by
    have hleft := hinterior.1
    have hright := hinterior.2.1
    omega
  have hcost : (costNeutral : K) ≤ ((s.costarr n).toNat : K) := by
    rw [hmap.costarr]
    exact Nat.cast_le.mpr (hpriced n htrav)
  obtain ⟨e, heq, hlow, -, he⟩ := planarWave_eq (s.costarr n) (s.potarr (n - 1)) (s.potarr (n + 1))
    (s.potarr (n - s.nx)) (s.potarr (n + s.nx))
  rw [newPotential, heq]
  have hzero : (0 : K) ≤ 0.704 * ((s.costarr n).toNat : K) := mul_nonneg (by norm_num) (Nat.cast_nonneg _)
  apply le_add_of_gap hcost _ (hzero.trans hlow) he
  rw [hmap.nx]
  rcases lt_or_ge (min (s.potarr (n - 1)) (s.potarr (n + 1))) (costNeutral : K) with hrow | hrow
  · obtain ⟨hrow, hgoal⟩ := h.min_eq_zero hrow
    refine Or.inr (Or.inl ⟨hrow, ?_⟩)
    by_contra hcol
    obtain ⟨-, hgoal'⟩ := h.min_eq_zero (not_le.mp hcol)
    omega
  · rcases lt_or_ge (min (s.potarr (n - m.nx)) (s.potarr (n + m.nx))) (costNeutral : K) with hcol | hcol
    · exact Or.inr (Or.inr ⟨hrow, (h.min_eq_zero hcol).1⟩)
    · exact Or.inl ⟨hrow, hcol⟩

theorem Floored.update (hm : m.Bordered) (hpriced : m.Priced) (hmap : m.SameMap s) (htrav : m.Traversable n)
    (h : Floored m s.potarr) (hlower : s.newPotential n < s.potarr n) :
    Floored m (Function.update s.potarr n (s.newPotential n)) := by
  refine ⟨h.valued.update htrav hlower, fun k hk => ?_⟩
  rw [Function.update_apply]
  split_ifs
  · exact h.newPotential_ge hm hpriced hmap htrav
  · exact h.floor k hk

theorem floored_cycleInv (hm : m.Bordered) (hpriced : m.Priced) :
    CycleInv (fun s => Loaded m s ∧ Floored m s.potarr) (fun rest s => Sweeping m rest s ∧ Floored m s.potarr) :=
  potarr_cycleInv fun _ _ hmap htrav h hlower => h.update hm hpriced hmap htrav hlower

theorem setupNavFn_floored (keepit : Bool) (s : NavFn K) :
    Floored (s.setupNavFn keepit) (s.setupNavFn keepit).potarr := by
  refine ⟨setupNavFn_valued keepit s, fun n hn => ?_⟩
  rw [setupNavFn_potarr, Function.update_of_ne hn]
  unfold potHigh costNeutral
  norm_num

end NavFn

end Ranger.Navfn
