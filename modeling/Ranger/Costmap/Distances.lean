import Mathlib.Algebra.Order.Ring.Abs
import Mathlib.Data.List.Sort
import Mathlib.Tactic.Ring

/-!
# 升目の距離

膨張の箱は、源からの距離の順に番号が付く。距離は升目の差の平方和で比べる。`hypot` の値の大小は、平方和の大小と同じである。
-/

namespace Ranger.Costmap

/-- 升目。列と行の番号で表す。 -/
abbrev Cell := Nat × Nat

def axisDistance (m src : Nat) : Nat := if src < m then m - src else src - m

/-- `cached_distances_` の値の平方。 -/
def distanceSq (c s : Cell) : Nat := axisDistance c.1 s.1 ^ 2 + axisDistance c.2 s.2 ^ 2

/-! ## 箱の番号 -/

def normSq (p : Int × Int) : Int := p.1 * p.1 + p.2 * p.2

/-- `-r` から `r` までの整数。 -/
def span (r : Nat) : List Int := (List.range (2 * r + 1)).map fun k : Nat => (k : Int) - r

/-- 半径 `r` の円に入る差を、走査の順に並べる。 -/
def discPoints (r : Nat) : List (Int × Int) :=
  (span r).flatMap fun y => ((span r).map fun x => (x, y)).filter fun p => normSq p ≤ r * r

/-- 並びの順に番号を付ける。番号は、距離が変わるたびに一つ進む。 -/
def assignLevels : Int × Int → Nat → List (Int × Int) → List ((Int × Int) × Nat)
  | _, _, [] => []
  | last, level, p :: ps =>
      let level := if normSq p ≠ normSq last then level + 1 else level
      (p, level) :: assignLevels p level ps

/-- `generateIntegerDistances` の `distance_matrix`。 -/
def distanceMatrix (cellInflationRadius : Nat) : List ((Int × Int) × Nat) :=
  assignLevels (0, 0) 0 ((discPoints (cellInflationRadius + 2)).insertionSort fun p q => normSq p ≤ normSq q)

/-- `generateIntegerDistances` が返す番号の最大。 -/
def maxLevel (cellInflationRadius : Nat) : Nat :=
  ((distanceMatrix cellInflationRadius).getLast?.map Prod.snd).getD 0

def levelAt (cellInflationRadius : Nat) (c s : Cell) : Nat :=
  ((distanceMatrix cellInflationRadius).lookup ((c.1 : Int) - s.1, (c.2 : Int) - s.2)).getD 0

/-! ## 番号の順 -/

section Levels

variable {last p q : Int × Int} {level a b : Nat} {ps : List (Int × Int)}

theorem fst_mem_of_mem_assignLevels (h : (p, a) ∈ assignLevels last level ps) : p ∈ ps := by
  induction ps generalizing last level with
  | nil => simp [assignLevels] at h
  | cons q ps ih =>
      rcases List.mem_cons.mp h with h | h
      · cases h
        exact List.mem_cons_self
      · exact List.mem_cons_of_mem q (ih h)

theorem exists_mem_assignLevels (last : Int × Int) (level : Nat) (h : p ∈ ps) : ∃ a, (p, a) ∈ assignLevels last level ps := by
  induction ps generalizing last level with
  | nil => simp at h
  | cons q ps ih =>
      rcases List.mem_cons.mp h with rfl | h
      · exact ⟨_, List.mem_cons_self⟩
      · obtain ⟨a, ha⟩ := ih _ _ h
        exact ⟨a, List.mem_cons_of_mem _ ha⟩

/-- 並びが距離の順であれば、番号は元の番号より小さくならず、距離が進むときにだけ進む。 -/
theorem assignLevels_last (hlast : ∀ q ∈ ps, normSq last ≤ normSq q)
    (hsorted : ps.Pairwise fun p q => normSq p ≤ normSq q) (h : (p, a) ∈ assignLevels last level ps) :
    level ≤ a ∧ (a ≤ level ↔ normSq p ≤ normSq last) := by
  induction ps generalizing last level with
  | nil => simp [assignLevels] at h
  | cons q ps ih =>
      obtain ⟨hq, hps⟩ := List.pairwise_cons.mp hsorted
      have hlastq := hlast q List.mem_cons_self
      rcases List.mem_cons.mp h with h | h
      · cases h
        split_ifs with hne
        · exact ⟨by omega, by omega⟩
        · exact ⟨by omega, by omega⟩
      · have hqp := hq p (fst_mem_of_mem_assignLevels h)
        have hrest := ih hq hps h
        split_ifs at hrest with hne
        · exact ⟨by omega, by omega⟩
        · exact ⟨by omega, by omega⟩

/-- 番号の順は、距離の順である。 -/
theorem assignLevels_le_iff (hlast : ∀ q ∈ ps, normSq last ≤ normSq q)
    (hsorted : ps.Pairwise fun p q => normSq p ≤ normSq q) (hp : (p, a) ∈ assignLevels last level ps)
    (hq : (q, b) ∈ assignLevels last level ps) : a ≤ b ↔ normSq p ≤ normSq q := by
  induction ps generalizing last level with
  | nil => simp [assignLevels] at hp
  | cons w ps ih =>
      obtain ⟨hw, hps⟩ := List.pairwise_cons.mp hsorted
      rcases List.mem_cons.mp hp with hp | hp
      · rcases List.mem_cons.mp hq with hq | hq
        · cases hp
          cases hq
          exact iff_of_true (Nat.le_refl _) (Int.le_refl _)
        · obtain ⟨hle, -⟩ := assignLevels_last hw hps hq
          cases hp
          exact iff_of_true hle (hw q (fst_mem_of_mem_assignLevels hq))
      · rcases List.mem_cons.mp hq with hq | hq
        · obtain ⟨-, hiff⟩ := assignLevels_last hw hps hp
          cases hq
          exact hiff
        · exact ih hw hps hp hq

theorem getLast?_assignLevels_cons (last q : Int × Int) (level d : Nat) (ps : List (Int × Int)) :
    ∃ next, level ≤ next ∧ assignLevels last level (q :: ps) = (q, next) :: assignLevels q next ps ∧
      ((assignLevels last level (q :: ps)).getLast?.map Prod.snd).getD d =
        ((assignLevels q next ps).getLast?.map Prod.snd).getD next := by
  refine ⟨if normSq q ≠ normSq last then level + 1 else level, by split_ifs <;> omega, rfl, ?_⟩
  rw [assignLevels, List.getLast?_cons]
  cases (assignLevels q (if normSq q ≠ normSq last then level + 1 else level) ps).getLast? <;> rfl

theorem le_getLast?_assignLevels (last : Int × Int) (level : Nat) (ps : List (Int × Int)) :
    level ≤ ((assignLevels last level ps).getLast?.map Prod.snd).getD level := by
  induction ps generalizing last level with
  | nil => exact Nat.le_refl _
  | cons q ps ih =>
      obtain ⟨next, hle, -, heq⟩ := getLast?_assignLevels_cons last q level level ps
      rw [heq]
      exact hle.trans (ih q next)

theorem assignLevels_le_getLast? (h : (p, a) ∈ assignLevels last level ps) :
    a ≤ ((assignLevels last level ps).getLast?.map Prod.snd).getD level := by
  induction ps generalizing last level with
  | nil => simp [assignLevels] at h
  | cons q ps ih =>
      obtain ⟨next, -, hcons, heq⟩ := getLast?_assignLevels_cons last q level level ps
      rw [heq]
      rw [hcons] at h
      rcases List.mem_cons.mp h with h | h
      · cases h
        exact le_getLast?_assignLevels p a ps
      · exact ih h

end Levels

section Matrix

variable {R : Nat} {c s c' s' : Cell}

theorem normSq_zero_le (p : Int × Int) : normSq (0, 0) ≤ normSq p :=
  add_nonneg (mul_self_nonneg p.1) (mul_self_nonneg p.2)

theorem axisDistance_sq (m src : Nat) : ((axisDistance m src ^ 2 : Nat) : Int) = ((m : Int) - src) * ((m : Int) - src) := by
  unfold axisDistance
  split_ifs with h
  · rw [Nat.cast_pow, Nat.cast_sub h.le]
    ring
  · rw [Nat.cast_pow, Nat.cast_sub (Nat.not_lt.mp h)]
    ring

/-- 升目の差の平方和は、距離の平方である。 -/
theorem normSq_offset (c s : Cell) : normSq ((c.1 : Int) - s.1, (c.2 : Int) - s.2) = distanceSq c s := by
  rw [distanceSq, Nat.cast_add, axisDistance_sq, axisDistance_sq]
  rfl

theorem mem_span {r : Nat} {x : Int} : x ∈ span r ↔ -(r : Int) ≤ x ∧ x ≤ r := by
  rw [span, List.mem_map]
  constructor
  · rintro ⟨k, hk, rfl⟩
    have := List.mem_range.mp hk
    omega
  · rintro ⟨hlow, hhigh⟩
    exact ⟨(x + r).toNat, List.mem_range.mpr (by omega), by omega⟩

theorem mem_discPoints {r : Nat} {p : Int × Int} (h : normSq p ≤ r * r) : p ∈ discPoints r := by
  have hx : p.1 * p.1 ≤ r * r := by
    have := mul_self_nonneg p.2
    unfold normSq at h
    omega
  have hy : p.2 * p.2 ≤ r * r := by
    have := mul_self_nonneg p.1
    unfold normSq at h
    omega
  have hbound : ∀ x : Int, x * x ≤ r * r → x ∈ span r := by
    intro x hx
    rw [← pow_two, ← pow_two] at hx
    exact mem_span.mpr (abs_le_of_sq_le_sq' hx (Int.natCast_nonneg r))
  refine List.mem_flatMap.mpr ⟨p.2, hbound _ hy, List.mem_filter.mpr ⟨?_, decide_eq_true h⟩⟩
  exact List.mem_map.mpr ⟨p.1, hbound _ hx, rfl⟩

/-- 並べ替えた差は、距離の順に並ぶ。 -/
theorem sorted_discPoints (r : Nat) :
    ((discPoints r).insertionSort fun p q => normSq p ≤ normSq q).Pairwise fun p q => normSq p ≤ normSq q := by
  have htotal : Std.Total fun p q : Int × Int => normSq p ≤ normSq q := ⟨fun p q => Int.le_total _ _⟩
  have htrans : IsTrans (Int × Int) fun p q => normSq p ≤ normSq q := ⟨fun p q w => Int.le_trans⟩
  exact List.pairwise_insertionSort _ _

theorem distanceSq_eq_zero : distanceSq c s = 0 ↔ c = s := by
  have haxis : ∀ m src, axisDistance m src = 0 ↔ m = src := by
    intro m src
    unfold axisDistance
    split_ifs <;> omega
  rw [distanceSq, Nat.add_eq_zero_iff, pow_eq_zero_iff two_ne_zero, pow_eq_zero_iff two_ne_zero, haxis, haxis, Prod.ext_iff]

/-- 半径の中の升目は、どの軸でも半径の中にある。 -/
theorem axisDistance_le_of_distanceSq (h : distanceSq c s ≤ R * R) :
    axisDistance c.1 s.1 ≤ R ∧ axisDistance c.2 s.2 ≤ R := by
  have haxis : ∀ m src, axisDistance m src ^ 2 ≤ R * R → axisDistance m src ≤ R := by
    intro m src hsq
    rw [← pow_two] at hsq
    exact (Nat.pow_le_pow_iff_left two_ne_zero).mp hsq
  exact ⟨haxis _ _ ((Nat.le_add_right _ _).trans h), haxis _ _ ((Nat.le_add_left _ _).trans h)⟩

theorem levelAt_mem (h : distanceSq c s ≤ R * R) :
    (((c.1 : Int) - s.1, (c.2 : Int) - s.2), levelAt R c s) ∈ distanceMatrix R := by
  have hdisc : normSq ((c.1 : Int) - s.1, (c.2 : Int) - s.2) ≤ ((R + 2 : Nat) : Int) * ((R + 2 : Nat) : Int) := by
    rw [normSq_offset, ← Nat.cast_mul, Int.ofNat_le]
    exact h.trans (Nat.mul_le_mul (Nat.le_add_right R 2) (Nat.le_add_right R 2))
  have hpoint := (List.mem_insertionSort fun p q => normSq p ≤ normSq q).mpr (mem_discPoints hdisc)
  obtain ⟨a, ha⟩ := exists_mem_assignLevels (0, 0) 0 hpoint
  have hsome : ((distanceMatrix R).lookup ((c.1 : Int) - s.1, (c.2 : Int) - s.2)).isSome :=
    List.lookup_isSome_iff.mpr ⟨_, ha, by simp⟩
  obtain ⟨b, hb⟩ := Option.isSome_iff_exists.mp hsome
  obtain ⟨l, l', heq, -⟩ := List.lookup_eq_some_iff.mp hb
  rw [levelAt, hb, Option.getD_some, heq]
  simp

theorem levelAt_le_iff (h : distanceSq c s ≤ R * R) (h' : distanceSq c' s' ≤ R * R) :
    levelAt R c s ≤ levelAt R c' s' ↔ distanceSq c s ≤ distanceSq c' s' := by
  have hiff := assignLevels_le_iff (fun q _ => normSq_zero_le q) (sorted_discPoints (R + 2)) (levelAt_mem h) (levelAt_mem h')
  rw [normSq_offset, normSq_offset, Int.ofNat_le] at hiff
  exact hiff

theorem levelAt_le_maxLevel (h : distanceSq c s ≤ R * R) : levelAt R c s ≤ maxLevel R :=
  assignLevels_le_getLast? (levelAt_mem h)

theorem levelAt_self (R : Nat) (c : Cell) : levelAt R c c = 0 := by
  have hzero : distanceSq c c = 0 := distanceSq_eq_zero.mpr rfl
  have hmem := levelAt_mem (R := R) (hzero ▸ Nat.zero_le _)
  obtain ⟨-, hiff⟩ := assignLevels_last (fun q _ => normSq_zero_le q) (sorted_discPoints (R + 2)) hmem
  rw [normSq_offset, hzero] at hiff
  exact Nat.le_zero.mp (hiff.mpr (Int.le_refl 0))

end Matrix

end Ranger.Costmap
