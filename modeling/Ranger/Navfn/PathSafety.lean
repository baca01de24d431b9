import Ranger.Navfn.Connected
import Ranger.Navfn.PathSteps

/-!
# 経路の安全

歩みの位置は、低い値の升目から一つの升目の大きさの中にある。目標に着いたとき、書いた点は、始まりから目標まで、軸ごとに二つの升目を超えずに続く。
-/

namespace Ranger.Navfn
open Ranger.Grid

/-- 二つの点が、軸ごとに `r` の中にある。 -/
def Within (r : ℝ) (p q : ℝ × ℝ) : Prop := |p.1 - q.1| ≤ r ∧ |p.2 - q.2| ≤ r

theorem Within.trans {r r' : ℝ} {p q o : ℝ × ℝ} (h : Within r p q) (h' : Within r' q o) : Within (r + r') p o :=
  ⟨(abs_sub_le _ _ _).trans (add_le_add h.1 h'.1), (abs_sub_le _ _ _).trans (add_le_add h.2 h'.2)⟩

theorem Within.mono {r r' : ℝ} {p q : ℝ × ℝ} (h : Within r p q) (hle : r ≤ r') : Within r' p q :=
  ⟨h.1.trans hle, h.2.trans hle⟩

theorem abs_roundAway_sub_le (v : ℝ) : |(roundAway v : ℝ) - v| ≤ 1 / 2 := by
  unfold roundAway
  rw [abs_le]
  split_ifs
  · constructor
    · linarith [Int.le_ceil (v - 0.5)]
    · linarith [Int.ceil_lt_add_one (v - 0.5)]
  · constructor
    · linarith [Int.lt_floor_add_one (v + 0.5)]
    · linarith [Int.floor_le (v + 0.5)]

theorem roundAway_unit {v : ℝ} (h : |v| ≤ 1) : -1 ≤ roundAway v ∧ roundAway v ≤ 1 := by
  obtain ⟨hlow, hhigh⟩ := abs_le.mp (abs_roundAway_sub_le v)
  obtain ⟨hvlow, hvhigh⟩ := abs_le.mp h
  have hbelow : ((-2 : ℤ) : ℝ) < roundAway v := by
    push_cast
    linarith
  have habove : (roundAway v : ℝ) < (2 : ℤ) := by
    push_cast
    linarith
  rw [Int.cast_lt] at hbelow habove
  omega

theorem roundAway_zero : roundAway (0 : ℝ) = 0 := by
  unfold roundAway
  norm_num

namespace NavFn

variable {s : NavFn ℝ} {w : Walk} {start : ℝ × ℝ}

noncomputable def goalPoint (s : NavFn ℝ) : ℝ × ℝ := ((s.goal.1 : ℝ), (s.goal.2 : ℝ))

noncomputable def startPoint (s : NavFn ℝ) : ℝ × ℝ := ((s.start.1 : ℝ), (s.start.2 : ℝ))

/-- 繰り返しの初めの条件。今の位置を書けば、点は始まりから続いている。 -/
structure OnField (s : NavFn ℝ) (w : Walk) : Prop where
  nonneg : 0 ≤ w.stc
  low : s.potarr w.stc.toNat < potHigh
  place : Inner s.nx s.ny w.stc ∨ (w.stc = s.goalCell ∧ w.dx = 0 ∧ w.dy = 0)
  offset : |w.dx| ≤ 1 ∧ |w.dy| ≤ 1
  first : (w.path ++ [s.position w]).head? = some s.startPoint
  chain : (w.path ++ [s.position w]).IsChain (Within 2)
  close : (w.dx = 0 ∧ w.dy = 0) ∨ ∃ p ∈ w.path.getLast?, Within (1 / 2) p (s.position w)

/-- 目標に着いて書いた点の列。 -/
structure Arrives (s : NavFn ℝ) (path : List (ℝ × ℝ)) : Prop where
  first : path.head? = some s.startPoint
  last : path.getLast? = some s.goalPoint
  chain : path.IsChain (Within 2)

/-! ## 目標の近く -/

theorem GoalField.goalCell_split (h : s.GoalField) :
    ((s.goalCell : ℤ) % s.nx = s.goal.1 ∧ (s.goalCell : ℤ) / s.nx = s.goal.2) ∧ s.goalCell < s.ns := by
  have hnx : 0 < s.nx := Nat.zero_lt_of_lt h.goal_lt.1
  refine ⟨⟨?_, ?_⟩, ?_⟩
  · have hmod : s.goalCell % s.nx = s.goal.1 := by
      rw [goalCell, Nat.add_mul_mod_self_right, Nat.mod_eq_of_lt h.goal_lt.1]
    exact_mod_cast hmod
  · have hdiv : s.goalCell / s.nx = s.goal.2 := by
      rw [goalCell, Nat.add_mul_div_right _ _ hnx, Nat.div_eq_of_lt h.goal_lt.1, Nat.zero_add]
    exact_mod_cast hdiv
  · have hrow : (s.goal.2 + 1) * s.nx ≤ s.ny * s.nx := Nat.mul_le_mul_right s.nx h.goal_lt.2
    rw [Nat.add_mul, Nat.one_mul] at hrow
    rw [goalCell, ns, Nat.mul_comm s.nx s.ny]
    have hcol := h.goal_lt.1
    omega

theorem nearestPoint_eq (h : 0 ≤ w.stc + roundAway w.dx + s.nx * roundAway w.dy ∧
    w.stc + roundAway w.dx + s.nx * roundAway w.dy < s.ns) :
    s.nearestPoint w = w.stc + roundAway w.dx + s.nx * roundAway w.dy := by
  obtain ⟨hlow, hhigh⟩ := h
  unfold ns at hhigh
  push_cast at hhigh
  rw [nearestPoint, min_eq_right (Int.le_sub_one_of_lt hhigh), max_eq_right hlow]

/-- 目標の升目に立つときは、目標が最も近い。 -/
theorem GoalField.nearestPoint_goal (hs : s.GoalField) (hstc : w.stc = s.goalCell) (hdx : w.dx = 0) (hdy : w.dy = 0) :
    s.nearestPoint w = s.goalCell := by
  have hraw : w.stc + roundAway w.dx + s.nx * roundAway w.dy = s.goalCell := by
    rw [hstc, hdx, hdy, roundAway_zero]
    ring
  rw [nearestPoint_eq, hraw]
  rw [hraw]
  exact ⟨Int.natCast_nonneg _, by exact_mod_cast hs.goalCell_split.2⟩

/-- 今の位置に最も近い升目は、配列の中にある。 -/
theorem OnField.nearestPoint_bounds (hs : s.GoalField) (h : OnField s w) :
    0 ≤ s.nearestPoint w ∧ s.nearestPoint w < s.ns := by
  rcases h.place with hinner | ⟨hstc, hdx, hdy⟩
  · have hbounds := hinner.near_bounds (j := w.stc + roundAway w.dx + s.nx * roundAway w.dy)
      ⟨_, _, roundAway_unit h.offset.1, roundAway_unit h.offset.2, rfl⟩
    rw [nearestPoint_eq hbounds]
    exact hbounds
  · rw [hs.nearestPoint_goal hstc hdx hdy]
    exact ⟨Int.natCast_nonneg _, by exact_mod_cast hs.goalCell_split.2⟩

theorem OnField.goalPoint_eq (hs : s.GoalField) (h : OnField s w) (hgoal : s.nearestPoint w = s.goalCell) :
    s.goalPoint = ((w.stc % s.nx : ℤ) + (roundAway w.dx : ℝ), (w.stc / s.nx : ℤ) + (roundAway w.dy : ℝ)) := by
  obtain ⟨⟨hcol, hrow⟩, -⟩ := hs.goalCell_split
  suffices hsplit : (w.stc % s.nx + roundAway w.dx = s.goal.1) ∧ (w.stc / s.nx + roundAway w.dy = s.goal.2) by
    apply Prod.ext
    · change (s.goal.1 : ℝ) = (w.stc % s.nx : ℤ) + (roundAway w.dx : ℝ)
      exact_mod_cast hsplit.1.symm
    · change (s.goal.2 : ℝ) = (w.stc / s.nx : ℤ) + (roundAway w.dy : ℝ)
      exact_mod_cast hsplit.2.symm
  rcases h.place with hinner | ⟨hstc, hdx, hdy⟩
  · have hround := roundAway_unit h.offset.1
    have hbounds := hinner.near_bounds (j := w.stc + roundAway w.dx + s.nx * roundAway w.dy)
      ⟨_, _, hround, roundAway_unit h.offset.2, rfl⟩
    obtain ⟨hmod, hdiv⟩ := hinner.shift (b := roundAway w.dy) hround
    rw [nearestPoint_eq hbounds] at hgoal
    rw [← hmod, ← hdiv, hgoal]
    exact ⟨hcol, hrow⟩
  · rw [hdx, hdy, roundAway_zero, hstc, add_zero, add_zero]
    exact ⟨hcol, hrow⟩

/-- 最も近い升目が目標であれば、目標は今の位置から `1/2` の中にある。 -/
theorem OnField.within_goal (hs : s.GoalField) (h : OnField s w) (hgoal : s.nearestPoint w = s.goalCell) :
    Within (1 / 2) (s.position w) s.goalPoint := by
  rw [h.goalPoint_eq hs hgoal]
  unfold Within position
  rw [add_sub_add_left_eq_sub, add_sub_add_left_eq_sub, abs_sub_comm, abs_sub_comm w.dy]
  exact ⟨abs_roundAway_sub_le _, abs_roundAway_sub_le _⟩

/-- 目標に着いたときに書く点の列。 -/
theorem OnField.arrives (hs : s.GoalField) (h : OnField s w) (hgoal : s.nearestPoint w = s.goalCell) :
    Arrives s (w.path ++ [s.goalPoint]) := by
  have hlast : (w.path ++ [s.goalPoint]).getLast? = some s.goalPoint := List.getLast?_concat
  rcases h.close with ⟨hdx, hdy⟩ | ⟨p, hp, hclose⟩
  · have hhere : s.goalPoint = s.position w := by
      rw [h.goalPoint_eq hs hgoal, position, hdx, hdy, roundAway_zero, Int.cast_zero]
    refine ⟨?_, hlast, ?_⟩
    · rw [hhere]
      exact h.first
    · rw [hhere]
      exact h.chain
  · have hne : w.path ≠ [] := by
      rintro hnil
      rw [hnil] at hp
      cases hp
    refine ⟨?_, hlast, ?_⟩
    · have hfirst := h.first
      rw [List.head?_append_of_ne_nil _ hne] at hfirst ⊢
      exact hfirst
    · obtain ⟨hpath, -, -⟩ := List.isChain_append.mp h.chain
      refine List.isChain_append.mpr ⟨hpath, List.isChain_singleton _, fun q hq r hr => ?_⟩
      have hqp : q = p := Option.some.inj (hq.symm.trans hp)
      have hrg : s.goalPoint = r := by simpa using hr
      rw [hqp, ← hrg]
      exact (hclose.trans (h.within_goal hs hgoal)).mono (by norm_num)

/-! ## 一回の繰り返し -/

def Follows (s : NavFn ℝ) (w : Walk) : Outcome → Prop
  | .move w' => OnField s w' ∧ w'.path.length = w.path.length + 1
  | .stop path length => path.length ≤ w.path.length + 1 ∧ (0 < length → length = path.length ∧ Arrives s path)

noncomputable def record (s : NavFn ℝ) (w : Walk) : Walk := { w with path := w.path ++ [s.position w] }

/-- 書いた位置から軸ごとに `2` までの一歩は、不変条件を保つ。 -/
theorem OnField.step {w' : Walk} (h : OnField s w) (hnonneg : 0 ≤ w'.stc) (hlow : s.potarr w'.stc.toNat < potHigh)
    (hplace : Inner s.nx s.ny w'.stc ∨ (w'.stc = s.goalCell ∧ w'.dx = 0 ∧ w'.dy = 0))
    (hoffset : |w'.dx| ≤ 1 ∧ |w'.dy| ≤ 1) (hpath : w'.path = (s.record w).path)
    (hmove : Within 2 (s.position w) (s.position w'))
    (hclose : (w'.dx = 0 ∧ w'.dy = 0) ∨ Within (1 / 2) (s.position w) (s.position w')) :
    Follows s w (.move w') := by
  have hrecord : w'.path = w.path ++ [s.position w] := hpath
  have hlast : (w.path ++ [s.position w]).getLast? = some (s.position w) := List.getLast?_concat
  refine ⟨⟨hnonneg, hlow, hplace, hoffset, ?_, ?_, ?_⟩, ?_⟩
  · rw [hrecord, List.head?_append_of_ne_nil _ (List.append_ne_nil_of_right_ne_nil _ (List.cons_ne_nil _ _))]
    exact h.first
  · rw [hrecord]
    refine List.isChain_append.mpr ⟨h.chain, List.isChain_singleton _, fun q hq r hr => ?_⟩
    have hq' : s.position w = q := Option.some.inj (hlast.symm.trans hq)
    have hr' : s.position w' = r := by simpa using hr
    rw [← hq', ← hr']
    exact hmove
  · rw [hrecord]
    exact hclose.imp_right fun hnear => ⟨_, hlast, hnear⟩
  · rw [hrecord, List.length_append, List.length_singleton]

theorem follows_stop (s : NavFn ℝ) (w : Walk) : Follows s w (.stop (s.record w).path 0) := by
  refine ⟨?_, fun h => absurd h (lt_irrefl 0)⟩
  rw [record, List.length_append, List.length_singleton]

theorem OnField.followGrid (hs : s.GoalField) (h : OnField s w) (hinner : Inner s.nx s.ny w.stc) :
    ∃ o, s.followGrid (s.record w) = some o ∧ Follows s w o := by
  obtain hstop | ⟨j, hj, hlow, hmove⟩ := followGrid_spec (s := s) (w := s.record w) hinner
  · exact ⟨_, hstop, follows_stop s w⟩
  · refine ⟨_, hmove, ?_⟩
    have hnonneg := (hinner.near_bounds hj).1
    refine h.step hnonneg hlow ?_ ⟨by simp, by simp⟩ rfl ?_ (Or.inl ⟨rfl, rfl⟩)
    · exact (hs.inner hnonneg hlow).symm.imp_right fun hgoal => ⟨hgoal, rfl, rfl⟩
    · obtain ⟨a, b, ha, hb, heq⟩ := hj
      obtain ⟨hmod, hdiv⟩ := hinner.shift (b := b) ha
      obtain ⟨⟨hxlow, hxhigh⟩, hylow, hyhigh⟩ := And.intro (abs_le.mp h.offset.1) (abs_le.mp h.offset.2)
      have ha' : (-1 : ℝ) ≤ a ∧ (a : ℝ) ≤ 1 := by exact_mod_cast ha
      have hb' : (-1 : ℝ) ≤ b ∧ (b : ℝ) ≤ 1 := by exact_mod_cast hb
      have heq' : j = w.stc + a + s.nx * b := heq
      simp only [Within, position, heq', hmod, hdiv, Int.cast_add, add_zero, add_sub_add_left_eq_sub, abs_le]
      refine ⟨⟨?_, ?_⟩, ?_, ?_⟩
      · linarith
      · linarith
      · linarith
      · linarith

theorem OnField.followGradient (hs : s.GoalField) (h : OnField s w) (hinner : Inner s.nx s.ny w.stc)
    (hlow : ∀ j, Near s.nx w.stc j → s.potarr j.toNat < potHigh) :
    ∃ o, s.followGradient (s.record w) = some o ∧ Follows s w o := by
  have hdeep := hs.deep hinner hlow
  obtain hstop | ⟨a, b, w', ha, hb, hmove, hstc, hpath, hoffset, hdx, hdy⟩ :=
    followGradient_spec (s := s) (w := s.record w) hdeep h.offset
  · exact ⟨_, hstop, follows_stop s w⟩
  · refine ⟨_, hmove, ?_⟩
    have hnear : Near s.nx w.stc w'.stc := ⟨a, b, ha, hb, hstc⟩
    have hwithin : Within (1 / 2) (s.position w) (s.position w') := by
      obtain ⟨hmod, hdiv⟩ := hinner.shift (b := b) ha
      have hstc' : w'.stc = w.stc + a + s.nx * b := hstc
      simp only [Within, position, hstc', hmod, hdiv, Int.cast_add]
      rw [add_assoc, add_assoc, add_sub_add_left_eq_sub, add_sub_add_left_eq_sub, abs_sub_comm, abs_sub_comm w.dy]
      exact ⟨hdx, hdy⟩
    exact h.step (hinner.near_bounds hnear).1 (hlow _ hnear) (Or.inl (hdeep.inner hnear)) hoffset hpath
      (hwithin.mono (by norm_num)) (Or.inr hwithin)

theorem OnField.pathCycle (hs : s.GoalField) (h : OnField s w) : ∃ o, s.pathCycle w = some o ∧ Follows s w o := by
  have hnearest := h.nearestPoint_bounds hs
  have hneutral : (0 : ℝ) < costNeutral := by
    unfold costNeutral
    norm_num
  unfold NavFn.pathCycle
  rw [read_eq _ hnearest]
  simp only [Option.bind_eq_bind, Option.bind_some]
  split_ifs with hlow hout
  · have hgoal : s.nearestPoint w = s.goalCell := by
      have hcell : (s.nearestPoint w).toNat = s.goalCell := by
        by_contra hne
        exact absurd hlow (not_lt.mpr (hs.floor _ hne))
      rw [← hcell, Int.toNat_of_nonneg hnearest.1]
    have hlength : (w.path ++ [s.goalPoint]).length = w.path.length + 1 := by
      rw [List.length_append, List.length_singleton]
    exact ⟨_, rfl, hlength.le, fun _ => ⟨hlength.symm, h.arrives hs hgoal⟩⟩
  · exact ⟨_, rfl, Nat.le_succ _, fun hpos => absurd hpos (lt_irrefl 0)⟩
  · have hinner : Inner s.nx s.ny w.stc := by
      apply h.place.resolve_right
      rintro ⟨hstc, hdx, hdy⟩
      rw [hs.nearestPoint_goal hstc hdx hdy, Int.toNat_natCast, hs.goal] at hlow
      exact hlow hneutral
    have hbounds : ∀ i ∈ s.checked w.stc, 0 ≤ i ∧ i < s.ns := fun i hi => hinner.near_bounds (mem_checked.mp hi)
    obtain ⟨b, hhigh, hall⟩ := anyHigh_spec hbounds
    rw [hhigh, Option.bind_some]
    split_ifs with hgrid
    · exact h.followGrid hs hinner
    · have hclear : b = false := Bool.eq_false_of_not_eq_true fun hb => hgrid (Or.inl hb)
      exact h.followGradient hs hinner fun j hj => hall hclear j (mem_checked.mpr hj)

/-! ## 歩みの全体 -/

theorem OnField.followPath (hs : s.GoalField) (n : ℕ) (h : OnField s w) :
    ∃ path length, s.followPath n w = some (path, length) ∧ path.length ≤ w.path.length + n ∧
      (0 < length → length = path.length ∧ Arrives s path) := by
  induction n generalizing w with
  | zero => exact ⟨w.path, 0, rfl, le_rfl, fun hpos => absurd hpos (lt_irrefl 0)⟩
  | succ n ih =>
      obtain ⟨o, hcycle, hfollows⟩ := h.pathCycle hs
      rw [NavFn.followPath, hcycle, Option.bind_eq_bind, Option.bind_some]
      cases o with
      | move w' =>
          obtain ⟨hfield, hlength⟩ := hfollows
          obtain ⟨path, length, hrun, hle, harrives⟩ := ih hfield
          exact ⟨path, length, hrun, by omega, harrives⟩
      | stop path length => exact ⟨path, length, rfl, hfollows.1.trans (by omega), hfollows.2⟩

theorem OnField.walks (hs : s.GoalField) (n : ℕ) (h : OnField s w) : ∀ v ∈ s.walks n w, OnField s v := by
  induction n generalizing w with
  | zero =>
      intro v hv
      rwa [List.mem_singleton.mp hv]
  | succ n ih =>
      intro v hv
      obtain ⟨o, hcycle, hfollows⟩ := h.pathCycle hs
      rw [NavFn.walks, hcycle] at hv
      rcases List.mem_cons.mp hv with rfl | hv
      · exact h
      · cases o with
        | move w' => exact ih hfollows.1 v hv
        | stop path length => exact absurd hv List.not_mem_nil

theorem startCell_split (hin : s.start.1 < s.nx) :
    (s.startCell : ℤ) % s.nx = s.start.1 ∧ (s.startCell : ℤ) / s.nx = s.start.2 := by
  have hnx : 0 < s.nx := Nat.zero_lt_of_lt hin
  constructor
  · have hmod : s.startCell % s.nx = s.start.1 := by
      rw [startCell, Nat.add_comm, Nat.add_mul_mod_self_right, Nat.mod_eq_of_lt hin]
    exact_mod_cast hmod
  · have hdiv : s.startCell / s.nx = s.start.2 := by
      rw [startCell, Nat.add_comm, Nat.add_mul_div_right _ _ hnx, Nat.div_eq_of_lt hin, Nat.zero_add]
    exact_mod_cast hdiv

theorem GoalField.firstWalk (hs : s.GoalField) (hin : s.start.1 < s.nx) (hlow : s.potarr s.startCell < potHigh) :
    OnField s s.firstWalk := by
  obtain ⟨hcol, hrow⟩ := startCell_split hin
  have hhere : s.position s.firstWalk = s.startPoint := by
    simp [position, NavFn.firstWalk, startPoint, hcol, hrow]
  have hnonneg : 0 ≤ s.firstWalk.stc := Int.natCast_nonneg _
  have hlow' : s.potarr s.firstWalk.stc.toNat < potHigh := hlow
  refine ⟨hnonneg, hlow', ?_, ⟨by simp [NavFn.firstWalk], by simp [NavFn.firstWalk]⟩, ?_, List.isChain_singleton _,
    Or.inl ⟨rfl, rfl⟩⟩
  · exact (hs.inner hnonneg hlow').symm.imp_right fun hgoal => ⟨hgoal, rfl, rfl⟩
  · rw [hhere]
    rfl

theorem calcNavFnDijkstra_map (s : NavFn ℝ) (cmap : ℕ → UInt8) (isROS allowUnknown atStart : Bool) :
    ((s.setCostmap cmap isROS allowUnknown).clearedNavFn true).SameMap
      ((s.setCostmap cmap isROS allowUnknown).calcNavFnDijkstra atStart).1 := by
  have hloaded := (loaded_cycleInv _).propNavFnDijkstra (setupNavFn_loaded true (s.setCostmap cmap isROS allowUnknown))
    atStart (s.setCostmap cmap isROS allowUnknown).maxCycles
  exact (setupNavFn_pushed true _).same.trans hloaded.same

theorem calcNavFnDijkstra_goalField (s : NavFn ℝ) (cmap : ℕ → UInt8) (isROS allowUnknown atStart : Bool) (st : ℕ × ℕ)
    (hgoal : s.goal.1 < s.nx ∧ s.goal.2 < s.ny) :
    (((s.setCostmap cmap isROS allowUnknown).calcNavFnDijkstra atStart).1.setStart st).GoalField := by
  have hbordered := setupNavFn_bordered true (s.setCostmap cmap isROS allowUnknown)
  have hpriced := setupNavFn_priced cmap isROS allowUnknown s
  have hend := (floored_cycleInv hbordered hpriced).propNavFnDijkstra
    ⟨setupNavFn_loaded true _, setupNavFn_floored true _⟩ atStart (s.setCostmap cmap isROS allowUnknown).maxCycles
  have hmap := hend.1.same
  refine ⟨fun n hn => ?_, fun n hn => ?_, ?_, ?_⟩
  · rcases hend.2.valued.inside n hn with heq | htrav
    · exact Or.inl (heq.trans hmap.goalCell.symm)
    · have hinterior := hbordered n htrav
      rw [← hmap.nx, ← hmap.ny] at hinterior
      exact Or.inr hinterior
  · apply hend.2.floor n
    rintro heq
    exact hn (heq.trans hmap.goalCell.symm)
  · have hzero := hend.2.valued.goal
    rw [← hmap.goalCell] at hzero
    exact hzero
  · obtain ⟨hnx, hny, -, hkeep⟩ := calcNavFnDijkstra_map s cmap isROS allowUnknown atStart
    rw [setStart]
    dsimp only
    rw [hkeep, hnx, hny]
    exact hgoal

theorem calcPath_safe (s : NavFn ℝ) (cmap : ℕ → UInt8) (isROS allowUnknown atStart : Bool) (st : ℕ × ℕ) (n : ℕ)
    (hgoal : s.goal.1 < s.nx ∧ s.goal.2 < s.ny) (hst : st.1 < s.nx) (u : NavFn ℝ)
    (hu : u = ((s.setCostmap cmap isROS allowUnknown).calcNavFnDijkstra atStart).1.setStart st)
    (hlow : u.potarr u.startCell < potHigh) :
    (∀ w ∈ u.walks n u.firstWalk, (0 ≤ w.stc ∧ w.stc < u.ns) ∧ u.potarr w.stc.toNat < potHigh) ∧
      ∃ path length, u.calcPath n = some (path, length) ∧ path.length ≤ n ∧
        (0 < length → length = path.length ∧ path.head? = some ((st.1 : ℝ), (st.2 : ℝ)) ∧
          path.getLast? = some ((s.goal.1 : ℝ), (s.goal.2 : ℝ)) ∧
          (∀ k < u.ns, u.potarr k < costNeutral ↔ k = s.goalCell) ∧
          path.IsChain fun p q => |p.1 - q.1| ≤ 2 ∧ |p.2 - q.2| ≤ 2) := by
  have hs : u.GoalField := by
    rw [hu]
    exact calcNavFnDijkstra_goalField s cmap isROS allowUnknown atStart st hgoal
  obtain ⟨hnx, hny, -, hkeep⟩ := calcNavFnDijkstra_map s cmap isROS allowUnknown atStart
  have hunx : u.nx = s.nx := by
    rw [hu]
    exact hnx
  have hugoal : u.goal = s.goal := by
    rw [hu]
    exact hkeep
  have hcell : u.goalCell = s.goalCell := by rw [goalCell, goalCell, hunx, hugoal]
  have hustart : u.start = st := by rw [hu, setStart]
  have hfirst : OnField u u.firstWalk := by
    apply hs.firstWalk _ hlow
    rw [hustart, hunx]
    exact hst
  refine ⟨fun w hw => ?_, ?_⟩
  · have hfield := hfirst.walks hs n w hw
    refine ⟨⟨hfield.nonneg, ?_⟩, hfield.low⟩
    rcases hfield.place with hinner | ⟨hstc, -, -⟩
    · exact (hinner.near_bounds (Near.self w.stc)).2
    · rw [hstc]
      exact_mod_cast hs.goalCell_split.2
  · obtain ⟨path, length, hrun, hle, harrives⟩ := hfirst.followPath hs n
    refine ⟨path, length, hrun, ?_, fun hpos => ?_⟩
    · simpa [NavFn.firstWalk] using hle
    · obtain ⟨hlength, harrive⟩ := harrives hpos
      have hhead := harrive.first
      have hlast := harrive.last
      rw [startPoint, hustart] at hhead
      rw [goalPoint, hugoal] at hlast
      refine ⟨hlength, hhead, hlast, fun k _ => ⟨fun hk => ?_, fun hk => ?_⟩, harrive.chain⟩
      · rw [← hcell]
        by_contra hne
        exact absurd (hs.floor k hne) (not_le.mpr hk)
      · rw [hk, ← hcell, hs.goal]
        unfold costNeutral
        norm_num

/-! ## 目標の隣から始まる経路 -/

theorem reached_cycleInv (m : NavFn ℝ) (k : ℕ) :
    CycleInv (fun s => Loaded m s ∧ s.potarr k < potHigh) (fun rest s => Sweeping m rest s ∧ s.potarr k < potHigh) := by
  apply potarr_cycleInv (P := fun potarr => potarr k < potHigh)
  intro s n _ _ hlow hlower
  rw [Function.update_apply]
  split_ifs with heq
  · rw [heq] at hlow
    exact hlower.trans hlow
  · exact hlow

def room : NavFn ℝ where
  nx := 4
  ny := 3
  costarr := fun _ => 0
  potarr := fun _ => 0
  pending := fun _ => false
  gradx := fun _ => 0
  grady := fun _ => 0
  blocks := fun _ => []
  curT := 0
  priInc := 100
  goal := (1, 1)
  start := (2, 1)
  refused := false

theorem room_reached : (((room.setCostmap (fun _ => 0) true true).calcNavFnDijkstra false).1).potarr 6 < potHigh := by
  generalize hs : room.setCostmap (fun _ => 0) true true = s
  have hcur : (s.setupNavFn true).blocks .cur = [6] := by
    rw [← hs]
    decide
  have hcycles : s.maxCycles = 6 + 1 := by
    rw [← hs]
    rfl
  have hedge : Edge (s.setupNavFn true) (s.setupNavFn true).goalCell 6 := by
    rw [← hs]
    exact ⟨by decide, by decide, by decide⟩
  have hloaded := setupNavFn_loaded true s
  have hvalued := setupNavFn_valued true s
  have hsweep : Sweeping (s.setupNavFn true) [6] (s.setupNavFn true).clearPending := hcur ▸ hloaded.enter
  have hnew := (setupNavFn_bordered true s).newPotential_le hsweep.same hedge.2 hedge.1
  have hbelow : (s.setupNavFn true).clearPending.potarr (s.setupNavFn true).goalCell + maxStep < potHigh := by
    have hgoal : (s.setupNavFn true).clearPending.potarr (s.setupNavFn true).goalCell = 0 := hvalued.goal
    rw [hgoal, maxStep, potHigh]
    norm_num
  have hupdate : ((s.setupNavFn true).clearPending.updateCell 6).potarr 6 < potHigh := by
    obtain ⟨hkeep, heq⟩ | ⟨-, hpushed⟩ := updateCell_cases ((hsweep.same.traversable_iff 6).mpr hedge.2)
    · rw [heq]
      exact (hkeep.trans hnew).trans_lt hbelow
    · rw [hpushed.potarr, setPotential_potarr, if_pos rfl]
      exact hnew.trans_lt hbelow
  have hcycle := (reached_cycleInv (s.setupNavFn true) 6).leave _ ⟨hsweep.update, hupdate⟩
  have hrun : (s.setupNavFn true).runCycle = ((s.setupNavFn true).clearPending.updateCell 6).swapBlocks := by
    rw [runCycle, hcur]
    rfl
  rw [← hrun] at hcycle
  have hbusy : ¬ (s.setupNavFn true).Idle := by
    rintro ⟨hnil, -⟩
    rw [hcur] at hnil
    cases hnil
  rw [calcNavFnDijkstra, hcycles, propNavFnDijkstra, if_neg hbusy, if_neg fun h => by cases h.1]
  exact ((reached_cycleInv _ 6).propNavFnDijkstra hcycle false 6).2

noncomputable def roomField : NavFn ℝ :=
  ((room.setCostmap (fun _ => 0) true true).calcNavFnDijkstra false).1.setStart (2, 1)

theorem roomField_low : roomField.potarr roomField.startCell < potHigh := by
  have hnx : roomField.nx = 4 := (calcNavFnDijkstra_map room (fun _ => 0) true true false).nx
  have hcell : roomField.startCell = 1 * roomField.nx + 2 := rfl
  rw [hcell, hnx]
  exact room_reached

-- 目標の隣から始めると、経路は配列の中だけを読み、値の低い升目を伝う。
theorem calcPath_safe_room :
    (∀ w ∈ roomField.walks 12 roomField.firstWalk, roomField.potarr w.stc.toNat < potHigh) ∧
      ∃ path length, roomField.calcPath 12 = some (path, length) ∧ path.length ≤ 12 := by
  obtain ⟨hwalks, path, length, hrun, hle, -⟩ := calcPath_safe room (fun _ => 0) true true false (2, 1) 12 (by decide)
    (by decide) roomField rfl roomField_low
  exact ⟨fun w hw => (hwalks w hw).2, path, length, hrun, hle⟩

end NavFn

end Ranger.Navfn
