import Ranger.Navfn.CalcPath
import Ranger.Navfn.Cycles

/-!
# 一歩の範囲

縁にない升目を囲む九つの升目は配列の中にある。格子をたどる一歩も、傾きをたどる一歩も、この九つの升目のどれかに移る。
-/

namespace Ranger.Navfn
open Ranger.Grid

variable {nx ny : ℕ} {i j a b : ℤ}

/-- `Interior` の整数の番号での形。 -/
def Inner (nx ny : ℕ) (i : ℤ) : Prop := 0 < i % nx ∧ i % nx + 1 < nx ∧ 0 < i / nx ∧ i / nx + 1 < ny

/-- 升目 `j` は、升目 `i` を囲む九つの升目の一つである。 -/
def Near (nx : ℕ) (i j : ℤ) : Prop := ∃ a b : ℤ, (-1 ≤ a ∧ a ≤ 1) ∧ (-1 ≤ b ∧ b ≤ 1) ∧ j = i + a + nx * b

theorem inner_natCast {n : ℕ} : Inner nx ny n ↔ Interior nx ny n := by
  unfold Inner Interior
  norm_cast

/-- 列が地図の中に収まる移動は、列と行を別々に移す。 -/
theorem shift (hleft : 0 ≤ i % nx + a) (hright : i % nx + a < nx) :
    (i + a + nx * b) % nx = i % nx + a ∧ (i + a + nx * b) / nx = i / nx + b := by
  have hnx : (nx : ℤ) ≠ 0 := by omega
  have hsplit : i + a + nx * b = i % nx + a + nx * (i / nx + b) := by
    rw [mul_add]
    linarith [Int.emod_add_mul_ediv i nx]
  rw [hsplit, Int.add_mul_emod_self_left, Int.emod_eq_of_lt hleft hright, Int.add_mul_ediv_left _ _ hnx,
    Int.ediv_eq_zero_of_lt hleft hright, zero_add]
  exact ⟨rfl, rfl⟩

theorem Inner.shift (h : Inner nx ny i) (ha : -1 ≤ a ∧ a ≤ 1) :
    (i + a + nx * b) % nx = i % nx + a ∧ (i + a + nx * b) / nx = i / nx + b :=
  Navfn.shift (by linarith [h.1, ha.1]) (by linarith [h.2.1, ha.2])

theorem Inner.near_bounds (h : Inner nx ny i) (hj : Near nx i j) : 0 ≤ j ∧ j < (nx * ny : ℕ) := by
  obtain ⟨a, b, ha, hb, rfl⟩ := hj
  have hdiv := (h.shift (b := b) ha).2
  obtain ⟨hleft, hright, htop, hbottom⟩ := h
  have hnx : (0 : ℤ) < nx := by omega
  constructor
  · rw [← Int.ediv_nonneg_iff_of_pos hnx, hdiv]
    omega
  · rw [Nat.cast_mul, mul_comm (nx : ℤ) ny, ← Int.ediv_lt_iff_lt_mul hnx, hdiv]
    omega

theorem Near.self (i : ℤ) : Near nx i i := ⟨0, 0, by omega, by omega, by ring⟩

/-- 二つ内側の升目では、囲む九つの升目も縁にない。 -/
def Deep (nx ny : ℕ) (i : ℤ) : Prop := 1 < i % nx ∧ i % nx + 2 < nx ∧ 1 < i / nx ∧ i / nx + 2 < ny

theorem Deep.inner (h : Deep nx ny i) (hj : Near nx i j) : Inner nx ny j := by
  obtain ⟨a, b, ha, hb, rfl⟩ := hj
  obtain ⟨hleft, hright, htop, hbottom⟩ := h
  obtain ⟨hmod, hdiv⟩ := shift (b := b) (by omega : 0 ≤ i % nx + a) (by omega)
  unfold Inner
  rw [hmod, hdiv]
  omega

namespace NavFn

variable {s : NavFn ℝ} {w : Walk}

theorem read_eq (a : ℕ → ℝ) (h : 0 ≤ i ∧ i < s.ns) : s.read a i = some (a i.toNat) := if_pos h

/-- 目標のほかに低い値を持つのは、縁にない升目だけである。目標だけが、`COST_NEUTRAL` より低い値を持つ。 -/
structure GoalField (s : NavFn ℝ) : Prop where
  inside : ∀ n, s.potarr n < potHigh → n = s.goalCell ∨ Interior s.nx s.ny n
  floor : ∀ n, n ≠ s.goalCell → (costNeutral : ℝ) ≤ s.potarr n
  goal : s.potarr s.goalCell = 0
  goal_lt : s.goal.1 < s.nx ∧ s.goal.2 < s.ny

theorem GoalField.inner (h : s.GoalField) (hi : 0 ≤ i) (hlow : s.potarr i.toNat < potHigh) :
    i = s.goalCell ∨ Inner s.nx s.ny i := by
  obtain ⟨n, rfl⟩ := Int.eq_ofNat_of_zero_le hi
  rw [Int.toNat_natCast] at hlow
  rw [inner_natCast]
  exact (h.inside n hlow).imp_left fun heq => by rw [heq]

/-- 縁にある低い値の升目は、目標だけである。 -/
theorem GoalField.eq_of_not_inner (h : s.GoalField) (hi : Inner s.nx s.ny i)
    (hlow : ∀ j, Near s.nx i j → s.potarr j.toNat < potHigh) {j k : ℤ} (hj : Near s.nx i j) (hk : Near s.nx i k)
    (hjout : ¬ Inner s.nx s.ny j) (hkout : ¬ Inner s.nx s.ny k) : j = k := by
  have hjgoal := (h.inner (hi.near_bounds hj).1 (hlow j hj)).resolve_right hjout
  have hkgoal := (h.inner (hi.near_bounds hk).1 (hlow k hk)).resolve_right hkout
  exact hjgoal.trans hkgoal.symm

/-- 九つの升目の値がみな低ければ、縁は二つ先にある。 -/
theorem GoalField.deep (h : s.GoalField) (hi : Inner s.nx s.ny i)
    (hlow : ∀ j, Near s.nx i j → s.potarr j.toNat < potHigh) : Deep s.nx s.ny i := by
  have hnx : (0 : ℤ) < s.nx := by linarith [hi.1, hi.2.1]
  -- 縁の辺ごとに、辺の上の二つの升目を選ぶ。
  have hside (a b a' b' : ℤ) (ha : -1 ≤ a ∧ a ≤ 1) (hb : -1 ≤ b ∧ b ≤ 1) (ha' : -1 ≤ a' ∧ a' ≤ 1)
      (hb' : -1 ≤ b' ∧ b' ≤ 1) (hne : i + a + s.nx * b ≠ i + a' + s.nx * b') :
      Inner s.nx s.ny (i + a + s.nx * b) ∨ Inner s.nx s.ny (i + a' + s.nx * b') := by
    by_contra hout
    rw [not_or] at hout
    exact hne (h.eq_of_not_inner hi hlow ⟨a, b, ha, hb, rfl⟩ ⟨a', b', ha', hb', rfl⟩ hout.1 hout.2)
  have hshift (a b : ℤ) (ha : -1 ≤ a ∧ a ≤ 1) (hinner : Inner s.nx s.ny (i + a + s.nx * b)) :
      (0 < i % s.nx + a ∧ i % s.nx + a + 1 < s.nx) ∧ 0 < i / s.nx + b ∧ i / s.nx + b + 1 < s.ny := by
    obtain ⟨hmod, hdiv⟩ := hi.shift (b := b) ha
    unfold Inner at hinner
    rw [hmod, hdiv] at hinner
    exact ⟨⟨hinner.1, hinner.2.1⟩, hinner.2.2⟩
  have hwest := (hside (-1) 0 (-1) 1 (by omega) (by omega) (by omega) (by omega) (by omega)).imp
    (hshift (-1) 0 (by omega)) (hshift (-1) 1 (by omega))
  have heast := (hside 1 0 1 1 (by omega) (by omega) (by omega) (by omega) (by omega)).imp
    (hshift 1 0 (by omega)) (hshift 1 1 (by omega))
  have hnorth := (hside 0 (-1) 1 (-1) (by omega) (by omega) (by omega) (by omega) (by omega)).imp
    (hshift 0 (-1) (by omega)) (hshift 1 (-1) (by omega))
  have hsouth := (hside 0 1 1 1 (by omega) (by omega) (by omega) (by omega) (by omega)).imp
    (hshift 0 1 (by omega)) (hshift 1 1 (by omega))
  unfold Deep
  omega

/-! ## 値の検査 -/

theorem anyHigh_spec {is : List ℤ} (h : ∀ i ∈ is, 0 ≤ i ∧ i < s.ns) :
    ∃ b, s.anyHigh is = some b ∧ (b = false → ∀ i ∈ is, s.potarr i.toNat < potHigh) := by
  induction is with
  | nil => exact ⟨false, rfl, fun _ i hi => absurd hi List.not_mem_nil⟩
  | cons i is ih =>
      obtain ⟨b, hrest, hlow⟩ := ih fun j hj => h j (List.mem_cons_of_mem i hj)
      rw [anyHigh, read_eq _ (h i List.mem_cons_self)]
      by_cases hhigh : potHigh ≤ s.potarr i.toNat
      · exact ⟨true, by simp [hhigh], fun hb => by cases hb⟩
      · refine ⟨b, by simp [hhigh, hrest], fun hb j hj => ?_⟩
        rcases List.mem_cons.mp hj with rfl | hj
        · exact not_le.mp hhigh
        · exact hlow hb j hj

theorem mem_checked : j ∈ s.checked i ↔ Near s.nx i j := by
  simp only [checked, List.mem_cons, List.not_mem_nil, or_false]
  constructor
  · rintro (rfl | rfl | rfl | rfl | rfl | rfl | rfl | rfl | rfl)
    · exact Near.self j
    · exact ⟨1, 0, by omega, by omega, by ring⟩
    · exact ⟨-1, 0, by omega, by omega, by ring⟩
    · exact ⟨0, 1, by omega, by omega, by ring⟩
    · exact ⟨1, 1, by omega, by omega, by ring⟩
    · exact ⟨-1, 1, by omega, by omega, by ring⟩
    · exact ⟨0, -1, by omega, by omega, by ring⟩
    · exact ⟨1, -1, by omega, by omega, by ring⟩
    · exact ⟨-1, -1, by omega, by omega, by ring⟩
  · rintro ⟨a, b, ha, hb, rfl⟩
    obtain rfl | rfl | rfl : b = -1 ∨ b = 0 ∨ b = 1 := by omega
    · omega
    · omega
    · omega

theorem mem_checked_of_mem_eightNeighbors (h : j ∈ s.eightNeighbors i) : j ∈ s.checked i := by
  simp only [eightNeighbors, checked, List.mem_cons, List.not_mem_nil, or_false] at h ⊢
  omega

/-! ## 格子をたどる一歩 -/

/-- 八つの隣から選ぶ升目は、今の升目か、その隣である。 -/
theorem foldlM_lower {js : List ℤ} (h : ∀ j ∈ js, 0 ≤ j ∧ j < s.ns) (m : ℤ × ℤ) :
    ∃ m', js.foldlM s.lower m = some m' ∧ (m'.1 = m.1 ∨ m'.1 ∈ js) := by
  induction js generalizing m with
  | nil => exact ⟨m, rfl, Or.inl rfl⟩
  | cons j js ih =>
      have hlower : s.lower m j = some (if s.potarr j.toNat < (m.2 : ℝ) then (j, intOf (s.potarr j.toNat)) else m) := by
        rw [lower, read_eq _ (h j List.mem_cons_self)]
        rfl
      obtain ⟨m', hfold, hmem⟩ := ih (fun k hk => h k (List.mem_cons_of_mem j hk))
        (if s.potarr j.toNat < (m.2 : ℝ) then (j, intOf (s.potarr j.toNat)) else m)
      refine ⟨m', ?_, ?_⟩
      · rw [List.foldlM_cons, hlower]
        exact hfold
      · rcases hmem with hmem | hmem
        · rw [hmem]
          split_ifs
          · exact Or.inr List.mem_cons_self
          · exact Or.inl rfl
        · exact Or.inr (List.mem_cons_of_mem j hmem)

theorem followGrid_spec (hw : Inner s.nx s.ny w.stc) :
    s.followGrid w = some (.stop w.path 0) ∨ ∃ j, Near s.nx w.stc j ∧ s.potarr j.toNat < potHigh ∧
      s.followGrid w = some (.move { w with stc := j, dx := 0, dy := 0 }) := by
  have hbounds (j : ℤ) (hj : Near s.nx w.stc j) := hw.near_bounds hj
  have hneighbors : ∀ j ∈ s.eightNeighbors w.stc, 0 ≤ j ∧ j < s.ns :=
    fun j hj => hbounds j (mem_checked.mp (mem_checked_of_mem_eightNeighbors hj))
  obtain ⟨m, hfold, hmem⟩ := foldlM_lower hneighbors (w.stc, intOf (s.potarr w.stc.toNat))
  have hnear : Near s.nx w.stc m.1 := by
    rcases hmem with heq | hmem
    · rw [heq]
      exact Near.self w.stc
    · exact mem_checked.mp (mem_checked_of_mem_eightNeighbors hmem)
  have heq : s.followGrid w = if potHigh ≤ s.potarr m.1.toNat then some (.stop w.path 0)
      else some (.move { w with stc := m.1, dx := 0, dy := 0 }) := by
    rw [followGrid, read_eq _ (hbounds _ (Near.self w.stc)), Option.bind_eq_bind, Option.bind_some, hfold,
      Option.bind_eq_bind, Option.bind_some, read_eq _ (hbounds _ hnear), Option.bind_some]
    rfl
  rw [heq]
  split_ifs with hhigh
  · exact Or.inl rfl
  · exact Or.inr ⟨m.1, hnear, not_le.mp hhigh, rfl⟩

/-! ## 傾きをたどる一歩 -/

/-- 傾きだけが異なる。 -/
def SameSpot (w w' : Walk) : Prop := w'.stc = w.stc ∧ w'.dx = w.dx ∧ w'.dy = w.dy ∧ w'.path = w.path

theorem SameSpot.trans {w' w'' : Walk} (h : SameSpot w w') (h' : SameSpot w' w'') : SameSpot w w'' :=
  ⟨h'.1.trans h.1, h'.2.1.trans h.2.1, h'.2.2.1.trans h.2.2.1, h'.2.2.2.trans h.2.2.2⟩

theorem obstacleSlope_isSome (hi : 0 ≤ i ∧ i < s.ns) (hj : 0 ≤ j ∧ j < s.ns) : ∃ v, s.obstacleSlope i j = some v := by
  rw [obstacleSlope, read_eq _ hi, read_eq _ hj]
  by_cases hlow : s.potarr i.toNat < potHigh
  · exact ⟨_, if_pos hlow⟩
  · by_cases hlow' : s.potarr j.toNat < potHigh
    · exact ⟨_, (if_neg hlow).trans (if_pos hlow')⟩
    · exact ⟨_, (if_neg hlow).trans (if_neg hlow')⟩

theorem openSlope_isSome (cv : ℝ) (hi : 0 ≤ i ∧ i < s.ns) (hj : 0 ≤ j ∧ j < s.ns) : ∃ v, s.openSlope cv i j = some v := by
  rw [openSlope, read_eq _ hi, read_eq _ hj]
  exact ⟨_, rfl⟩

theorem gradCell_spec {n : ℤ} (hn : Inner s.nx s.ny n) (w : Walk) : ∃ w', s.gradCell n w = some w' ∧ SameSpot w w' := by
  have hbounds (j : ℤ) (hj : Near s.nx n j) : 0 ≤ j ∧ j < s.ns := hn.near_bounds hj
  have hself := hbounds n (Near.self n)
  have hwest := hbounds (n - 1) ⟨-1, 0, by omega, by omega, by ring⟩
  have heast := hbounds (n + 1) ⟨1, 0, by omega, by omega, by ring⟩
  have hnorth := hbounds (n - s.nx) ⟨0, -1, by omega, by omega, by ring⟩
  have hsouth := hbounds (n + s.nx) ⟨0, 1, by omega, by omega, by ring⟩
  rw [gradCell, read_eq _ hself, read_eq _ hself, read_eq _ hself]
  simp only [Option.bind_eq_bind, Option.bind_some]
  split_ifs with hskip hhigh
  · exact ⟨w, rfl, rfl, rfl, rfl, rfl⟩
  · obtain ⟨dx, hdx⟩ := obstacleSlope_isSome hwest heast
    obtain ⟨dy, hdy⟩ := obstacleSlope_isSome hnorth hsouth
    simp only [hdx, hdy, Option.bind_some]
    split_ifs
    · exact ⟨_, rfl, rfl, rfl, rfl, rfl⟩
    · exact ⟨w, rfl, rfl, rfl, rfl, rfl⟩
  · obtain ⟨dx, hdx⟩ := openSlope_isSome (s.potarr n.toNat) hwest heast
    obtain ⟨dy, hdy⟩ := openSlope_isSome (s.potarr n.toNat) hnorth hsouth
    simp only [hdx, hdy, Option.bind_some]
    split_ifs
    · exact ⟨_, rfl, rfl, rfl, rfl, rfl⟩
    · exact ⟨w, rfl, rfl, rfl, rfl, rfl⟩

theorem interpolate_isSome (g : ℕ → ℝ) (hw : Inner s.nx s.ny w.stc) : ∃ v, s.interpolate g w = some v := by
  have hbounds (j : ℤ) (hj : Near s.nx w.stc j) : 0 ≤ j ∧ j < s.ns := hw.near_bounds hj
  rw [interpolate, read_eq _ (hbounds _ (Near.self _)), read_eq _ (hbounds _ ⟨1, 0, by omega, by omega, by ring⟩),
    read_eq _ (hbounds _ ⟨0, 1, by omega, by omega, by ring⟩), read_eq _ (hbounds _ ⟨1, 1, by omega, by omega, by ring⟩)]
  exact ⟨_, rfl⟩

theorem abs_le_hypot (x y : ℝ) : |x| ≤ hypot x y ∧ |y| ≤ hypot x y := by
  have hx := mul_self_nonneg x
  have hy := mul_self_nonneg y
  unfold hypot
  constructor
  · apply Real.abs_le_sqrt
    linarith [sq x]
  · apply Real.abs_le_sqrt
    linarith [sq y]

/-- 長さ `0.5` の一歩は、どの軸でも `0.5` を超えない。 -/
theorem abs_step_le {x y : ℝ} (h : ¬ (x = 0 ∧ y = 0)) :
    |x * (pathStep / hypot x y)| ≤ 1 / 2 ∧ |y * (pathStep / hypot x y)| ≤ 1 / 2 := by
  have hpos : 0 < hypot x y := (hypot_nonneg x y).lt_of_ne fun heq => h (hypot_eq_zero heq.symm)
  have hscale (v : ℝ) (hv : |v| ≤ hypot x y) : |v * (pathStep / hypot x y)| ≤ 1 / 2 := by
    have hstep : |pathStep| = 1 / 2 := by
      unfold pathStep
      norm_num
    calc |v * (pathStep / hypot x y)| = |v| / hypot x y * (1 / 2) := by
          rw [abs_mul, abs_div, hstep, abs_of_pos hpos]
          ring
      _ ≤ 1 * (1 / 2) := mul_le_mul_of_nonneg_right ((div_le_one hpos).mpr hv) (by norm_num)
      _ = 1 / 2 := one_mul _
  exact ⟨hscale x (abs_le_hypot x y).1, hscale y (abs_le_hypot x y).2⟩

/-- ずれは、升目を一つまで移すと、また升目の大きさに収まる。 -/
theorem wrapAxis_spec {d e : ℝ} (hd : |d| ≤ 1) (he : |e| ≤ 1 / 2) (step stc : ℤ) :
    ∃ a : ℤ, (-1 ≤ a ∧ a ≤ 1) ∧ wrapAxis step stc (d + e) = (stc + step * a, d + e - a) ∧ |d + e - a| ≤ 1 := by
  obtain ⟨hdlow, hdhigh⟩ := abs_le.mp hd
  obtain ⟨helow, hehigh⟩ := abs_le.mp he
  unfold wrapAxis
  by_cases hover : 1 < d + e
  · refine ⟨1, by omega, ?_, ?_⟩
    · have hback : ¬ d + e - 1 < -1 := by linarith
      simp [hover, hback]
    · rw [abs_le]
      push_cast
      constructor
      · linarith
      · linarith
  · by_cases hunder : d + e < -1
    · refine ⟨-1, by omega, ?_, ?_⟩
      · simp [hover, hunder, sub_eq_add_neg]
      · rw [abs_le]
        push_cast
        constructor
        · linarith
        · linarith
    · refine ⟨0, by omega, ?_, ?_⟩
      · simp [hover, hunder]
      · rw [abs_le]
        push_cast
        constructor
        · linarith
        · linarith

theorem followGradient_spec (hw : Deep s.nx s.ny w.stc) (hd : |w.dx| ≤ 1 ∧ |w.dy| ≤ 1) :
    s.followGradient w = some (.stop w.path 0) ∨ ∃ (a b : ℤ) (w' : Walk), (-1 ≤ a ∧ a ≤ 1) ∧ (-1 ≤ b ∧ b ≤ 1) ∧
      s.followGradient w = some (.move w') ∧ w'.stc = w.stc + a + s.nx * b ∧ w'.path = w.path ∧
      (|w'.dx| ≤ 1 ∧ |w'.dy| ≤ 1) ∧ |a + w'.dx - w.dx| ≤ 1 / 2 ∧ |b + w'.dy - w.dy| ≤ 1 / 2 := by
  have hinner (j : ℤ) (hj : Near s.nx w.stc j) : Inner s.nx s.ny j := hw.inner hj
  obtain ⟨w₁, hgrad₁, h₁⟩ := gradCell_spec (hinner _ (Near.self _)) w
  obtain ⟨w₂, hgrad₂, h₂⟩ := gradCell_spec (hinner (w.stc + 1) ⟨1, 0, by omega, by omega, by ring⟩) w₁
  obtain ⟨w₃, hgrad₃, h₃⟩ := gradCell_spec (hinner (w.stc + s.nx) ⟨0, 1, by omega, by omega, by ring⟩) w₂
  obtain ⟨w₄, hgrad₄, h₄⟩ := gradCell_spec (hinner (w.stc + s.nx + 1) ⟨1, 1, by omega, by omega, by ring⟩) w₃
  have h₁₂ := h₁.trans h₂
  have h₁₃ := h₁₂.trans h₃
  obtain ⟨hstc, hdx, hdy, hpath⟩ := h₁₃.trans h₄
  have hhere : Inner s.nx s.ny w₄.stc := by
    rw [hstc]
    exact hinner _ (Near.self _)
  obtain ⟨x, hx⟩ := interpolate_isSome w₄.gradx hhere
  obtain ⟨y, hy⟩ := interpolate_isSome w₄.grady hhere
  have heq : s.followGradient w = if x = 0 ∧ y = 0 then some (.stop w.path 0) else
      some (.move { w₄ with
        stc := (wrapAxis s.nx (wrapAxis 1 w.stc (w.dx + x * (pathStep / hypot x y))).1
          (w.dy + y * (pathStep / hypot x y))).1
        dx := (wrapAxis 1 w.stc (w.dx + x * (pathStep / hypot x y))).2
        dy := (wrapAxis s.nx (wrapAxis 1 w.stc (w.dx + x * (pathStep / hypot x y))).1
          (w.dy + y * (pathStep / hypot x y))).2 }) := by
    unfold followGradient
    simp only [hgrad₁, hgrad₂, hgrad₃, hgrad₄, hx, hy, h₁.1, h₁₂.1, h₁₃.1, hstc, hdx, hdy, hpath, Option.bind_eq_bind,
      Option.bind_some]
    rfl
  rw [heq]
  split_ifs with hzero
  · exact Or.inl rfl
  · obtain ⟨hxstep, hystep⟩ := abs_step_le hzero
    obtain ⟨a, ha, hwrapx, hdx'⟩ := wrapAxis_spec hd.1 hxstep 1 w.stc
    obtain ⟨b, hb, hwrapy, hdy'⟩ := wrapAxis_spec hd.2 hystep s.nx (w.stc + 1 * a)
    rw [hwrapx, hwrapy]
    refine Or.inr ⟨a, b, _, ha, hb, rfl, by rw [one_mul], hpath, ⟨hdx', hdy'⟩, ?_, ?_⟩
    · have hmove : a + (w.dx + x * (pathStep / hypot x y) - a) - w.dx = x * (pathStep / hypot x y) := by ring
      rw [hmove]
      exact hxstep
    · have hmove : b + (w.dy + y * (pathStep / hypot x y) - b) - w.dy = y * (pathStep / hypot x y) := by ring
      rw [hmove]
      exact hystep

end NavFn

end Ranger.Navfn
