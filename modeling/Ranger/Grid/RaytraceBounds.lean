import Ranger.Grid.Conversions
import Ranger.Grid.ObstacleLayer

/-!
# 書き換えた升目と、報せた範囲

`updateBounds` が書き換えた升目が、返した範囲から決まる窓に入るのはいつか。消去の走査は升目の数で長さを縮め、範囲に加える点は
メートルで縮めるので、走査の終わりの升目が範囲より先になることがある。
-/

namespace Ranger.Grid
open Ranger.Costmap (Bounds Window)

/-! ## 性質と条件 -/

/-- 軸の `i` 番目の升目の右の端より手前に達した座標と、左の端以上に達した座標がある。 -/
def AxisSurrounded (resolution origin : ℝ) (lo hi : EReal) (coordinates : List ℝ) (i : ℕ) : Prop :=
  (lo < ((origin + (i + 1) * resolution : ℝ) : EReal) ∨ ∃ w ∈ coordinates, w < origin + (i + 1) * resolution) ∧
    (((origin + i * resolution : ℝ) : EReal) ≤ hi ∨ ∃ w ∈ coordinates, origin + i * resolution ≤ w)

namespace Costmap2D

variable (g : Costmap2D ℝ)

/-- 呼び出しの前の範囲と触れた点が、升目をどちらの軸でも挟む。 -/
def Surrounded (b : Bounds) (points : List (ℝ × ℝ)) (c : MapLocation) : Prop :=
  AxisSurrounded g.resolution g.originX b.minX b.maxX (points.map Prod.fst) c.x ∧
    AxisSurrounded g.resolution g.originY b.minY b.maxY (points.map Prod.snd) c.y

noncomputable def rayStop (obs : Observation) (start : MapLocation) (point : ℝ × ℝ × ℝ) : Option MapLocation :=
  let w := g.clipRay obs.originX obs.originY point.1 point.2.1
  match g.cellOf w.1 w.2 with
  | none => none
  | some stop =>
      if hypot ((stop.x : ℝ) - start.x) ((stop.y : ℝ) - start.y) < g.cellDistance obs.raytraceMinRange then none
      else some (traceStop start.x start.y stop.x stop.y (g.cellDistance obs.raytraceMaxRange)
        (g.cellDistance obs.raytraceMinRange))

def Stops (clearing : List Observation) (c : MapLocation) : Prop :=
  ∃ obs ∈ clearing, ∃ start, g.cellOf obs.originX obs.originY = some start ∧
    ∃ point ∈ obs.cloud, g.rayStop obs start point = some c

/-- 層の升目の値が何であっても、値の変わった升目は、返した範囲から決まる窓にある。 -/
def ReportsChanges (layer : ObstacleLayer) (clearing marking : List Observation)
    (transformedFootprint : List (ℝ × ℝ)) (b : Bounds) : Prop :=
  ∀ cells : List UInt8, cells.length = g.costmap.length → ∀ c, g.Contains c →
    let before : Costmap2D ℝ := { g with costmap := cells }
    let after := before.updateBounds layer clearing marking transformedFootprint b
    after.1.getCost c ≠ before.getCost c → (g.boundsWindow after.2).Contains (c.x, c.y)

end Costmap2D

/-! ## 範囲と窓 -/

section Axis

variable {resolution origin : ℝ} {size i : ℕ} {lo hi : EReal}

theorem enforced_le_iff (hr : 0 < resolution) (h : lo < ((origin + size * resolution : ℝ) : EReal)) :
    max 0 (Costmap.worldToMapEnforceBounds resolution origin size lo) ≤ i ↔
      lo < ((origin + (i + 1) * resolution : ℝ) : EReal) := by
  have hi : (0 : ℝ) ≤ (i + 1) * resolution := by positivity
  unfold Costmap.worldToMapEnforceBounds
  induction lo using EReal.rec with
  | bot =>
      rw [if_pos (EReal.bot_lt_coe origin), max_self]
      simp only [Nat.cast_nonneg, EReal.bot_lt_coe]
  | top => exact absurd h not_top_lt
  | coe w =>
      simp only [EReal.coe_lt_coe_iff, EReal.toReal_coe] at h ⊢
      split_ifs with hlow hhigh
      · simp only [max_self, Nat.cast_nonneg, true_iff]
        linarith
      · linarith
      · have hfloor : ⌊(w - origin) / resolution⌋ ≤ (i : ℤ) ↔ w < origin + (i + 1) * resolution := by
          rw [← Int.lt_add_one_iff, Int.floor_lt, div_lt_iff₀ hr]
          push_cast
          constructor
          · intro hlt
            linarith
          · intro hlt
            linarith
        rw [max_le_iff, hfloor]
        exact and_iff_right (Int.natCast_nonneg i)

theorem lt_enforced_iff (hr : 0 < resolution) (h : (origin : EReal) ≤ hi) (hlt : i < size) :
    (i : ℤ) < min (size : ℤ) (Costmap.worldToMapEnforceBounds resolution origin size hi + 1) ↔
      ((origin + i * resolution : ℝ) : EReal) ≤ hi := by
  have hsize : origin + i * resolution ≤ resolution * size + origin := by
    have hcast : (i : ℝ) ≤ size := by exact_mod_cast hlt.le
    have hmul := mul_le_mul_of_nonneg_right hcast hr.le
    linarith
  unfold Costmap.worldToMapEnforceBounds
  induction hi using EReal.rec with
  | bot => exact absurd (EReal.bot_lt_coe origin) (not_lt.mpr h)
  | top =>
      rw [if_neg not_top_lt, if_pos (EReal.coe_lt_top _)]
      simp only [le_top, iff_true]
      omega
  | coe w =>
      simp only [EReal.coe_lt_coe_iff, EReal.coe_le_coe_iff, EReal.toReal_coe] at h ⊢
      rw [if_neg (not_lt.mpr h)]
      split_ifs with hhigh
      · have hbelow : origin + i * resolution ≤ w := by linarith
        simp only [hbelow, iff_true]
        omega
      · have hfloor : (i : ℤ) ≤ ⌊(w - origin) / resolution⌋ ↔ origin + i * resolution ≤ w := by
          rw [Int.le_floor, le_div_iff₀ hr]
          push_cast
          constructor
          · intro hle
            linarith
          · intro hle
            linarith
        rw [lt_min_iff, Int.lt_add_one_iff, hfloor]
        exact and_iff_right (by exact_mod_cast hlt)

end Axis

/-! ## 触れた点 -/

theorem foldl_touch (points : List (ℝ × ℝ)) (b : Bounds) :
    points.foldl touch b =
      { minX := (points.map Prod.fst).foldl (fun m (w : ℝ) => min (w : EReal) m) b.minX
        minY := (points.map Prod.snd).foldl (fun m (w : ℝ) => min (w : EReal) m) b.minY
        maxX := (points.map Prod.fst).foldl (fun m (w : ℝ) => max (w : EReal) m) b.maxX
        maxY := (points.map Prod.snd).foldl (fun m (w : ℝ) => max (w : EReal) m) b.maxY } := by
  induction points generalizing b with
  | nil => rfl
  | cons p points ih => exact ih (touch b p)

theorem foldl_min_lt (coordinates : List ℝ) (m v : EReal) :
    coordinates.foldl (fun m (w : ℝ) => min (w : EReal) m) m < v ↔ m < v ∨ ∃ w ∈ coordinates, (w : EReal) < v := by
  induction coordinates generalizing m with
  | nil => simp
  | cons u coordinates ih =>
      rw [List.foldl_cons, ih, min_lt_iff]
      simp only [List.mem_cons, exists_eq_or_imp]
      rw [or_comm (a := (u : EReal) < v), or_assoc]

theorem le_foldl_max (coordinates : List ℝ) (m v : EReal) :
    v ≤ coordinates.foldl (fun m (w : ℝ) => max (w : EReal) m) m ↔ v ≤ m ∨ ∃ w ∈ coordinates, v ≤ (w : EReal) := by
  induction coordinates generalizing m with
  | nil => simp
  | cons u coordinates ih =>
      rw [List.foldl_cons, ih, le_max_iff]
      simp only [List.mem_cons, exists_eq_or_imp]
      rw [or_comm (a := v ≤ (u : EReal)), or_assoc]

section Axis

variable {resolution origin : ℝ} {size i : ℕ} {lo hi : EReal} {coordinates : List ℝ}

/-- 地図の中に触れた座標があれば、軸の窓に入るのは、座標が升目を挟むとき、そのときに限る。 -/
theorem axis_window_iff (lo hi : EReal) (hr : 0 < resolution) (hlt : i < size) {w : ℝ} (hw : w ∈ coordinates) (hlow : origin ≤ w)
    (hhigh : w < origin + size * resolution) :
    (max 0 (Costmap.worldToMapEnforceBounds resolution origin size
        (coordinates.foldl (fun m (w : ℝ) => min (w : EReal) m) lo)) ≤ i ∧
      (i : ℤ) < min (size : ℤ) (Costmap.worldToMapEnforceBounds resolution origin size
        (coordinates.foldl (fun m (w : ℝ) => max (w : EReal) m) hi) + 1)) ↔
      AxisSurrounded resolution origin lo hi coordinates i := by
  rw [enforced_le_iff hr ((foldl_min_lt _ _ _).mpr (Or.inr ⟨w, hw, EReal.coe_lt_coe_iff.mpr hhigh⟩)),
    lt_enforced_iff hr ((le_foldl_max _ _ _).mpr (Or.inr ⟨w, hw, EReal.coe_le_coe_iff.mpr hlow⟩)) hlt,
    foldl_min_lt, le_foldl_max]
  simp only [AxisSurrounded, EReal.coe_lt_coe_iff, EReal.coe_le_coe_iff]

/-- 二つの升目が挟まれれば、そのあいだの升目も挟まれる。 -/
theorem AxisSurrounded.between {a b : ℕ} (hr : 0 < resolution) (ha : AxisSurrounded resolution origin lo hi coordinates a)
    (hb : AxisSurrounded resolution origin lo hi coordinates b) (hmin : min a b ≤ i) (hmax : i ≤ max a b) :
    AxisSurrounded resolution origin lo hi coordinates i := by
  have hstep : ∀ {m n : ℕ}, m ≤ n → (m : ℝ) * resolution ≤ n * resolution := fun h =>
    mul_le_mul_of_nonneg_right (Nat.cast_le.mpr h) hr.le
  have hleft : ∀ {m : ℕ}, m ≤ i → origin + (m + 1) * resolution ≤ origin + (i + 1) * resolution := fun h => by
    linarith [hstep h]
  have hright : ∀ {m : ℕ}, i ≤ m → origin + i * resolution ≤ origin + m * resolution := fun h => by
    linarith [hstep h]
  constructor
  · rcases min_le_iff.mp hmin with hle | hle
    · exact ha.1.imp (fun h => h.trans_le (EReal.coe_le_coe_iff.mpr (hleft hle)))
        fun ⟨w, hw, hlt⟩ => ⟨w, hw, hlt.trans_le (hleft hle)⟩
    · exact hb.1.imp (fun h => h.trans_le (EReal.coe_le_coe_iff.mpr (hleft hle)))
        fun ⟨w, hw, hlt⟩ => ⟨w, hw, hlt.trans_le (hleft hle)⟩
  · rcases le_max_iff.mp hmax with hle | hle
    · exact ha.2.imp (fun h => (EReal.coe_le_coe_iff.mpr (hright hle)).trans h)
        fun ⟨w, hw, hge⟩ => ⟨w, hw, (hright hle).trans hge⟩
    · exact hb.2.imp (fun h => (EReal.coe_le_coe_iff.mpr (hright hle)).trans h)
        fun ⟨w, hw, hge⟩ => ⟨w, hw, (hright hle).trans hge⟩

/-- 触れた座標のある升目は、挟まれる。 -/
theorem AxisSurrounded.of_cell {w : ℝ} (hw : w ∈ coordinates) (h : AxisCell resolution origin i w) :
    AxisSurrounded resolution origin lo hi coordinates i :=
  ⟨Or.inr ⟨w, hw, h.2⟩, Or.inr ⟨w, hw, h.1⟩⟩

theorem AxisCell.lt_end (hr : 0 < resolution) {w : ℝ} (h : AxisCell resolution origin i w) (hlt : i < size) :
    w < origin + size * resolution := by
  have hcast : ((i : ℝ) + 1) ≤ size := by exact_mod_cast hlt
  have hmul := mul_le_mul_of_nonneg_right hcast hr.le
  linarith [h.2]

end Axis

namespace Costmap2D

variable {g : Costmap2D ℝ} {b : Bounds} {points : List (ℝ × ℝ)} {c d : MapLocation}

theorem inCell_of_cellOf (hr : 0 < g.resolution) {wx wy : ℝ} (h : g.cellOf wx wy = some c) : g.InCell c wx wy := by
  unfold cellOf at h
  cases hmap : g.worldToMap wx wy with
  | none => simp [hmap] at h
  | some r =>
      rw [hmap, Option.getD_some] at h
      exact inCell_of_worldToMap hr (h ▸ hmap)

theorem Surrounded.of_inCell {p : ℝ × ℝ} (hp : p ∈ points) (h : g.InCell c p.1 p.2) : g.Surrounded b points c :=
  ⟨.of_cell (List.mem_map_of_mem hp) h.2.1, .of_cell (List.mem_map_of_mem hp) h.2.2⟩

/-- 地図の中の点に触れていれば、窓に入るのは、触れた点が升目を挟むとき、そのときに限る。 -/
theorem boundsWindow_contains_iff (hr : 0 < g.resolution) (hc : g.Contains c) {p : ℝ × ℝ} (hp : p ∈ points)
    (hd : g.InCell d p.1 p.2) :
    (g.boundsWindow (points.foldl touch b)).Contains (c.x, c.y) ↔ g.Surrounded b points c := by
  obtain ⟨hdc, hdx, hdy⟩ := hd
  have hx := axis_window_iff b.minX b.maxX hr hc.1 (List.mem_map_of_mem hp)
    (axisCell_origin_le hr hdx) (hdx.lt_end hr hdc.1)
  have hy := axis_window_iff b.minY b.maxY hr hc.2 (List.mem_map_of_mem hp)
    (axisCell_origin_le hr hdy) (hdy.lt_end hr hdc.2)
  rw [Surrounded, ← hx, ← hy, foldl_touch, Window.Contains]
  unfold boundsWindow
  tauto

/-! ## 走査の升目 -/

variable {obs : Observation} {start stop : MapLocation} {point : ℝ × ℝ × ℝ} {layer : ObstacleLayer}
  {clearing marking : List Observation}

/-- 走査の番号は、始まりの升目と走査の終わりの升目のあいだの升目の番号である。 -/
theorem mem_raytraceLine (hg : g.Valid) (hstart : g.Contains start) (hstop : g.Contains stop) {i maxLength minLength : ℕ}
    (hi : i ∈ raytraceLine id g.sizeX start.x start.y stop.x stop.y maxLength minLength) :
    ¬ hypot ((stop.x : ℝ) - start.x) ((stop.y : ℝ) - start.y) < minLength ∧
      ∃ c : MapLocation, i = c.y * g.sizeX + c.x ∧
        (min start.x (traceStop start.x start.y stop.x stop.y maxLength minLength).x ≤ c.x ∧
          c.x ≤ max start.x (traceStop start.x start.y stop.x stop.y maxLength minLength).x) ∧
        min start.y (traceStop start.x start.y stop.x stop.y maxLength minLength).y ≤ c.y ∧
          c.y ≤ max start.y (traceStop start.x start.y stop.x stop.y maxLength minLength).y := by
  rcases lt_or_ge (hypot ((stop.x : ℝ) - start.x) ((stop.y : ℝ) - start.y)) minLength with hshort | hlong
  · rw [raytraceLine_short hshort] at hi
    exact absurd hi List.not_mem_nil
  · rw [raytraceLine_eq (max_lt hstart.1 hstop.1) (max_lt hstart.2 hstop.2) hg.area hlong] at hi
    obtain ⟨k, hk, rfl⟩ := List.mem_map.mp hi
    exact ⟨not_lt.mpr hlong, _, rfl, traceCell_path hlong (Nat.lt_succ_iff.mp (List.mem_range.mp hk)) rfl⟩

theorem traceStop_mem (maxLength : ℕ) (hg : g.Valid) (hstart : g.Contains start) (hstop : g.Contains stop)
    {minLength : ℕ} (h : (minLength : ℝ) ≤ hypot ((stop.x : ℝ) - start.x) ((stop.y : ℝ) - start.y)) :
    g.Contains (traceStop start.x start.y stop.x stop.y maxLength minLength) ∧
      (traceStop start.x start.y stop.x stop.y maxLength minLength).y * g.sizeX +
          (traceStop start.x start.y stop.x stop.y maxLength minLength).x ∈
        raytraceLine id g.sizeX start.x start.y stop.x stop.y maxLength minLength := by
  obtain ⟨hsx, hsy⟩ := traceStart_between h
  obtain ⟨hbx, hby⟩ := traceCell_between (stopSteps_le start.x start.y stop.x stop.y maxLength minLength)
  have hx := max_lt hstart.1 hstop.1
  have hy := max_lt hstart.2 hstop.2
  constructor
  · constructor
    · exact (hbx.2.trans (max_le hsx.2 (le_max_right _ _))).trans_lt hx
    · exact (hby.2.trans (max_le hsy.2 (le_max_right _ _))).trans_lt hy
  · rw [raytraceLine_eq hx hy hg.area h]
    exact List.mem_map.mpr ⟨_, List.mem_range.mpr (Nat.lt_succ_self _), rfl⟩

/-- 書いた升目は、消去の走査の升目か、障害物の升目である。 -/
theorem mem_writtenCells {w : ℕ × UInt8} (hw : w ∈ g.writtenCells layer clearing marking) :
    (∃ obs ∈ clearing, ∃ start, g.cellOf obs.originX obs.originY = some start ∧ ∃ point ∈ obs.cloud,
        w ∈ g.rayWrites obs start point) ∨
      ∃ obs ∈ marking, ∃ start, g.cellOf obs.originX obs.originY = some start ∧ ∃ point ∈ obs.cloud,
        w ∈ g.pointWrites layer obs start point := by
  rcases List.mem_append.mp hw with hw | hw
  · obtain ⟨obs, hobs, hw⟩ := List.mem_flatMap.mp hw
    unfold clearWrites at hw
    split at hw
    · exact absurd hw List.not_mem_nil
    · rename_i start hstart
      exact Or.inl ⟨obs, hobs, start, hstart, List.mem_flatMap.mp hw⟩
  · obtain ⟨obs, hobs, hw⟩ := List.mem_flatMap.mp hw
    unfold markWrites at hw
    split at hw
    · exact absurd hw List.not_mem_nil
    · rename_i start hstart
      exact Or.inr ⟨obs, hobs, start, hstart, List.mem_flatMap.mp hw⟩

theorem mem_rayWrites {w : ℕ × UInt8} (hw : w ∈ g.rayWrites obs start point) :
    w.2 = 0 ∧ ∃ stop, g.cellOf (g.clipRay obs.originX obs.originY point.1 point.2.1).1
        (g.clipRay obs.originX obs.originY point.1 point.2.1).2 = some stop ∧
      w.1 ∈ raytraceLine id g.sizeX start.x start.y stop.x stop.y (g.cellDistance obs.raytraceMaxRange)
        (g.cellDistance obs.raytraceMinRange) := by
  unfold rayWrites at hw
  dsimp only at hw
  split at hw
  · exact absurd hw List.not_mem_nil
  · rename_i stop hstop
    obtain ⟨i, hi, rfl⟩ := List.mem_map.mp hw
    exact ⟨rfl, stop, hstop, hi⟩

theorem cellOf_of_obstacleCell {c : MapLocation} (h : g.obstacleCell layer obs start point = some c) :
    g.cellOf point.1 point.2.1 = some c := by
  unfold obstacleCell at h
  split_ifs at h
  split at h
  · cases h
  · rename_i d hd
    dsimp only at h
    split_ifs at h
    rw [hd, h]

theorem mem_pointWrites {w : ℕ × UInt8} (hw : w ∈ g.pointWrites layer obs start point) :
    w.2 = 254 ∧ ∃ c, g.cellOf point.1 point.2.1 = some c ∧ w.1 = g.getIndex c.x c.y ∧
      (point.1, point.2.1) ∈ g.pointTouches layer obs start point := by
  unfold pointWrites at hw
  unfold pointTouches
  split at hw
  · exact absurd hw List.not_mem_nil
  · rename_i c hc
    rw [List.mem_singleton.mp hw]
    exact ⟨rfl, c, cellOf_of_obstacleCell hc, rfl, List.mem_singleton.mpr rfl⟩

variable {transformedFootprint : List (ℝ × ℝ)}

theorem origin_mem_touchedPoints (layer : ObstacleLayer) (marking : List Observation)
    (transformedFootprint : List (ℝ × ℝ)) (hobs : obs ∈ clearing) (hstart : g.cellOf obs.originX obs.originY = some start) :
    (obs.originX, obs.originY) ∈ g.touchedPoints layer clearing marking transformedFootprint := by
  refine List.mem_append_left _ (List.mem_append_left _ (List.mem_flatMap.mpr ⟨obs, hobs, ?_⟩))
  rw [clearTouches, hstart]
  exact List.mem_cons_self

theorem point_mem_touchedPoints (clearing : List Observation) (transformedFootprint : List (ℝ × ℝ)) (hobs : obs ∈ marking) (hstart : g.cellOf obs.originX obs.originY = some start)
    (hpoint : point ∈ obs.cloud) {p : ℝ × ℝ} (hp : p ∈ g.pointTouches layer obs start point) :
    p ∈ g.touchedPoints layer clearing marking transformedFootprint := by
  refine List.mem_append_left _ (List.mem_append_right _ (List.mem_flatMap.mpr ⟨obs, hobs, ?_⟩))
  rw [markTouches, hstart]
  exact List.mem_flatMap.mpr ⟨point, hpoint, hp⟩

theorem index_injective (hc : g.Contains c) (hd : d.x < g.sizeX) (h : d.y * g.sizeX + d.x = c.y * g.sizeX + c.x) :
    d = c := by
  have hinv : g.indexToCells (d.y * g.sizeX + d.x) = d := indexToCells_index hd
  rwa [h, indexToCells_index hc.1, eq_comm] at hinv

/-- 消去の走査の升目は、走査の終わりの升目が挟まれれば、挟まれる。 -/
theorem surrounded_of_rayWrites (hg : g.Valid) (hc : g.Contains c)
    (hstart : g.cellOf obs.originX obs.originY = some start) (horigin : (obs.originX, obs.originY) ∈ points)
    (hstops : ∀ stop, g.rayStop obs start point = some stop → g.Surrounded b points stop) {w : ℕ × UInt8}
    (hw : w ∈ g.rayWrites obs start point) (hindex : w.1 = c.y * g.sizeX + c.x) : g.Surrounded b points c := by
  obtain ⟨-, stop, hstop, hline⟩ := mem_rayWrites hw
  have hstartCell := inCell_of_cellOf hg.resolution hstart
  have hstopCell := inCell_of_cellOf hg.resolution hstop
  obtain ⟨hlong, d, hd, hx, hy⟩ := mem_raytraceLine hg hstartCell.1 hstopCell.1 hline
  have hend : g.rayStop obs start point = some (traceStop start.x start.y stop.x stop.y
      (g.cellDistance obs.raytraceMaxRange) (g.cellDistance obs.raytraceMinRange)) := by
    unfold rayStop
    dsimp only
    rw [hstop]
    dsimp only
    rw [if_neg hlong]
  have hin := traceStop_mem (g.cellDistance obs.raytraceMaxRange) hg hstartCell.1 hstopCell.1 (not_lt.mp hlong)
  have hdx : d.x < g.sizeX := hx.2.trans_lt (max_lt hstartCell.1.1 hin.1.1)
  obtain rfl : d = c := index_injective hc hdx (hd.symm.trans hindex)
  have hfirst := Surrounded.of_inCell (b := b) horigin hstartCell
  have hlast := hstops _ hend
  exact ⟨hfirst.1.between hg.resolution hlast.1 hx.1 hx.2, hfirst.2.between hg.resolution hlast.2 hy.1 hy.2⟩

/-- 走査の終わりの升目は地図にあり、走査が書く。 -/
theorem rayWrites_of_rayStop (hg : g.Valid) (hstart : g.cellOf obs.originX obs.originY = some start)
    (hstop : g.rayStop obs start point = some c) :
    g.Contains c ∧ (c.y * g.sizeX + c.x, 0) ∈ g.rayWrites obs start point := by
  unfold rayStop at hstop
  unfold rayWrites
  cases hcell : g.cellOf (g.clipRay obs.originX obs.originY point.1 point.2.1).1
      (g.clipRay obs.originX obs.originY point.1 point.2.1).2 with
  | none => simp [hcell] at hstop
  | some stop =>
      simp only [hcell] at hstop ⊢
      split_ifs at hstop with hshort
      cases hstop
      have hin := traceStop_mem (g.cellDistance obs.raytraceMaxRange) hg (inCell_of_cellOf hg.resolution hstart).1
        (inCell_of_cellOf hg.resolution hcell).1 (not_lt.mp hshort)
      exact ⟨hin.1, List.mem_map.mpr ⟨_, hin.2, rfl⟩⟩

theorem mem_writtenCells_of_ray (layer : ObstacleLayer) (marking : List Observation) (hobs : obs ∈ clearing) (hstart : g.cellOf obs.originX obs.originY = some start)
    (hpoint : point ∈ obs.cloud) {w : ℕ × UInt8} (hw : w ∈ g.rayWrites obs start point) :
    w ∈ g.writtenCells layer clearing marking := by
  refine List.mem_append_left _ (List.mem_flatMap.mpr ⟨obs, hobs, ?_⟩)
  rw [clearWrites, hstart]
  exact List.mem_flatMap.mpr ⟨point, hpoint, hw⟩

/-- 書く値は、空きか障害物である。 -/
theorem value_of_mem_writtenCells {w : ℕ × UInt8} (hw : w ∈ g.writtenCells layer clearing marking) :
    w.2 = 0 ∨ w.2 = 254 := by
  rcases mem_writtenCells hw with ⟨obs, -, start, -, point, -, hw⟩ | ⟨obs, -, start, -, point, -, hw⟩
  · exact Or.inl (mem_rayWrites hw).1
  · exact Or.inr (mem_pointWrites hw).1

/-! ## 変わった升目と窓 -/

/-- 呼び出しの前後の升目の値と、返す範囲。 -/
theorem updateBounds_cost (clearing marking : List Observation) (transformedFootprint : List (ℝ × ℝ)) (b : Bounds)
    (hg : g.Valid) (henabled : layer.enabled = true) {cells : List UInt8}
    (hlen : cells.length = g.costmap.length) (hc : g.Contains c) :
    ({ g with costmap := cells } : Costmap2D ℝ).getCost c = cells[c.y * g.sizeX + c.x]? ∧
      (({ g with costmap := cells } : Costmap2D ℝ).updateBounds layer clearing marking transformedFootprint b).1.getCost c =
        ((g.writtenCells layer clearing marking).foldl put cells)[c.y * g.sizeX + c.x]? ∧
      (({ g with costmap := cells } : Costmap2D ℝ).updateBounds layer clearing marking transformedFootprint b).2 =
        (g.touchedPoints layer clearing marking transformedFootprint).foldl touch
          (useExtraBounds layer.extraBounds b) := by
  have hvalid : ∀ cells : List UInt8, cells.length = g.costmap.length →
      ({ g with costmap := cells } : Costmap2D ℝ).Valid :=
    fun cells hlen => ⟨hg.resolution, hg.sizeX, hg.sizeY, hg.area, hlen.trans hg.costmap⟩
  rw [updateBounds_eq _ henabled]
  exact ⟨getCost_eq (hvalid cells hlen) hc, getCost_eq (hvalid _ ((length_foldl_put _ _).trans hlen)) hc, rfl⟩

theorem surrounded_of_reportsChanges (hg : g.Valid) (henabled : layer.enabled = true)
    (h : g.ReportsChanges layer clearing marking transformedFootprint b) (hstops : g.Stops clearing c) :
    g.Surrounded (useExtraBounds layer.extraBounds b)
      (g.touchedPoints layer clearing marking transformedFootprint) c := by
  obtain ⟨obs, hobs, start, hstart, point, hpoint, hstop⟩ := hstops
  obtain ⟨hc, hwrite⟩ := rayWrites_of_rayStop hg hstart hstop
  have hlen : (List.replicate g.costmap.length (1 : UInt8)).length = g.costmap.length := List.length_replicate
  have hindex : c.y * g.sizeX + c.x < g.costmap.length := by
    rw [hg.costmap]
    exact Lib.index_lt hc.1 hc.2
  -- どの値も 1 である地図では、書いた升目の値が変わる。
  obtain ⟨v, hv, hafter⟩ := foldl_put_of_mem (mem_writtenCells_of_ray layer marking hobs hstart hpoint hwrite)
    (hlen.symm ▸ hindex)
  have hne : v ≠ 1 := by
    rcases value_of_mem_writtenCells hv with rfl | rfl
    · decide
    · decide
  obtain ⟨hbefore, hcost, hbounds⟩ := updateBounds_cost clearing marking transformedFootprint b hg henabled hlen hc
  have hchanged : some v ≠ some 1 := fun heq => hne (Option.some.inj heq)
  have hwindow := h _ hlen c hc
  dsimp only at hwindow
  rw [hbefore, hcost, hbounds, hafter, List.getElem?_replicate_of_lt hindex] at hwindow
  exact (boundsWindow_contains_iff hg.resolution hc (origin_mem_touchedPoints layer marking transformedFootprint hobs hstart)
    (inCell_of_cellOf hg.resolution hstart)).mp (hwindow hchanged)

theorem reportsChanges_of_surrounded (hg : g.Valid)
    (h : layer.enabled = true → ∀ c, g.Stops clearing c → g.Surrounded (useExtraBounds layer.extraBounds b)
      (g.touchedPoints layer clearing marking transformedFootprint) c) :
    g.ReportsChanges layer clearing marking transformedFootprint b := by
  intro cells hlen c hc
  dsimp only
  intro hchanged
  by_cases henabled : layer.enabled = true
  · obtain ⟨hbefore, hcost, hbounds⟩ := updateBounds_cost clearing marking transformedFootprint b hg henabled hlen hc
    rw [hbefore, hcost] at hchanged
    obtain ⟨w, hw, hindex⟩ : ∃ w ∈ g.writtenCells layer clearing marking, w.1 = c.y * g.sizeX + c.x := by
      by_contra hnone
      exact hchanged (foldl_put_of_not_mem (fun w hw heq => hnone ⟨w, hw, heq⟩) cells)
    rw [hbounds]
    rcases mem_writtenCells hw with ⟨obs, hobs, start, hstart, point, hpoint, hw⟩ |
      ⟨obs, hobs, start, hstart, point, hpoint, hw⟩
    · have horigin := origin_mem_touchedPoints layer marking transformedFootprint hobs hstart
      apply (boundsWindow_contains_iff hg.resolution hc horigin (inCell_of_cellOf hg.resolution hstart)).mpr
      exact surrounded_of_rayWrites hg hc hstart horigin
        (fun stop hstop => h henabled stop ⟨obs, hobs, start, hstart, point, hpoint, hstop⟩) hw hindex
    · obtain ⟨-, d, hd, hdindex, htouch⟩ := mem_pointWrites hw
      have hcell := inCell_of_cellOf hg.resolution hd
      have hpt := point_mem_touchedPoints clearing transformedFootprint hobs hstart hpoint htouch
      have hdc : d = c := by
        have harea := (Lib.index_lt hcell.1.1 hcell.1.2).trans hg.area
        rw [getIndex, wrap_of_lt harea] at hdindex
        exact index_injective hc hcell.1.1 (hdindex.symm.trans hindex)
      rw [hdc] at hcell
      exact (boundsWindow_contains_iff hg.resolution hc hpt hcell).mpr (Surrounded.of_inCell hpt hcell)
  · exact absurd (by rw [updateBounds, if_neg henabled]) hchanged

/-- 値の変わった升目が必ず窓に入るのは、消去の走査の終わりの升目が、触れた点に挟まれるとき、そのときに限る。 -/
theorem reportsChanges_iff (g : Costmap2D ℝ) (hg : g.Valid) (layer : ObstacleLayer) (clearing marking : List Observation)
    (transformedFootprint : List (ℝ × ℝ)) (b : Bounds) :
    g.ReportsChanges layer clearing marking transformedFootprint b ↔
      (layer.enabled = true → ∀ c, g.Stops clearing c →
        g.Surrounded (useExtraBounds layer.extraBounds b)
          (g.touchedPoints layer clearing marking transformedFootprint) c) :=
  ⟨fun h henabled _ hstops => surrounded_of_reportsChanges hg henabled h hstops,
    fun h => reportsChanges_of_surrounded hg h⟩

/-! ## 長さを縮めない線 -/

theorem raytracePoint_of_inRange {ox oy wx wy maxRange minRange : ℝ} (hmin : minRange ≤ hypot (wx - ox) (wy - oy))
    (hmax : hypot (wx - ox) (wy - oy) ≤ maxRange) : raytracePoint ox oy wx wy maxRange minRange = some (wx, wy) := by
  unfold raytracePoint
  dsimp only
  rw [if_neg (not_lt.mpr hmin)]
  rcases (hypot_nonneg (wx - ox) (wy - oy)).eq_or_lt with hzero | hpos
  · obtain ⟨hdx, hdy⟩ := hypot_eq_zero hzero.symm
    rw [hdx, hdy, zero_mul, add_zero, add_zero, sub_eq_zero.mp hdx, sub_eq_zero.mp hdy]
  · rw [min_eq_left ((one_le_div hpos).mpr hmax), mul_one, mul_one, add_sub_cancel, add_sub_cancel]

/-- 測定の範囲の長さの線では、走査の終わりの升目が、始まりと終わりの点に挟まれる。 -/
theorem surrounded_of_inRange (hg : g.Valid)
    (hrange : ∀ obs ∈ clearing, ∀ point ∈ obs.cloud,
      obs.raytraceMinRange ≤ hypot ((g.clipRay obs.originX obs.originY point.1 point.2.1).1 - obs.originX)
          ((g.clipRay obs.originX obs.originY point.1 point.2.1).2 - obs.originY) ∧
        hypot ((g.clipRay obs.originX obs.originY point.1 point.2.1).1 - obs.originX)
          ((g.clipRay obs.originX obs.originY point.1 point.2.1).2 - obs.originY) ≤ obs.raytraceMaxRange)
    (hstops : g.Stops clearing c) :
    g.Surrounded b (g.touchedPoints layer clearing marking transformedFootprint) c := by
  obtain ⟨obs, hobs, start, hstart, point, hpoint, hstop⟩ := hstops
  obtain ⟨hmin, hmax⟩ := hrange obs hobs point hpoint
  unfold rayStop at hstop
  dsimp only at hstop
  split at hstop
  · cases hstop
  · rename_i stop hcell
    split_ifs at hstop with hshort
    cases hstop
    have hend : g.clipRay obs.originX obs.originY point.1 point.2.1 ∈
        g.touchedPoints layer clearing marking transformedFootprint := by
      refine List.mem_append_left _ (List.mem_append_left _ (List.mem_flatMap.mpr ⟨obs, hobs, ?_⟩))
      rw [clearTouches, hstart]
      refine List.mem_cons_of_mem _ (List.mem_flatMap.mpr ⟨point, hpoint, ?_⟩)
      unfold rayTouches
      dsimp only
      rw [hcell]
      dsimp only
      rw [raytracePoint_of_inRange hmin hmax]
      exact List.mem_singleton.mpr rfl
    have hfirst := Surrounded.of_inCell (b := b) (origin_mem_touchedPoints layer marking transformedFootprint hobs hstart)
      (inCell_of_cellOf hg.resolution hstart)
    have hlast := Surrounded.of_inCell (b := b) hend (inCell_of_cellOf hg.resolution hcell)
    have hbetween := traceStop_between (g.cellDistance obs.raytraceMaxRange) (not_lt.mp hshort)
    exact ⟨hfirst.1.between hg.resolution hlast.1 hbetween.1.1 hbetween.1.2,
      hfirst.2.between hg.resolution hlast.2 hbetween.2.1 hbetween.2.2⟩

theorem cellOf_of_inCell (hg : g.Valid) {wx wy : ℝ} (h : g.InCell c wx wy) : g.cellOf wx wy = some c := by
  rw [cellOf, worldToMap_of_inCell hg.resolution hg.sizeX.le hg.sizeY.le h, Option.getD_some]

end Costmap2D

/-! ## 具体的な線 -/

/-- 一辺が 10 メートルの、解像度 1 の地図。 -/
noncomputable def tenMeters : Costmap2D ℝ := ⟨10, 10, 1, 0, 0, List.replicate 100 0, 0⟩

/-- 一つの線を測った観測。 -/
noncomputable def oneRay (raytraceMaxRange : ℝ) : Observation :=
  ⟨0.75, 0.5, [(3.25, 0.5, 0)], 0, 0, raytraceMaxRange, 0⟩

def plainLayer : ObstacleLayer := ⟨true, 0, 0, none, false⟩

namespace Costmap2D

theorem valid_tenMeters : tenMeters.Valid := by
  constructor <;> norm_num [tenMeters]

theorem oneRay_start (r : ℝ) : tenMeters.cellOf (oneRay r).originX (oneRay r).originY = some ⟨0, 0⟩ := by
  apply cellOf_of_inCell valid_tenMeters
  refine ⟨⟨by decide, by decide⟩, ?_, ?_⟩ <;>
    norm_num [AxisCell, tenMeters, oneRay]

theorem oneRay_clip (r : ℝ) : tenMeters.clipRay (oneRay r).originX (oneRay r).originY 3.25 0.5 = (3.25, 0.5) := by
  norm_num [clipRay, tenMeters, oneRay]

theorem oneRay_end : tenMeters.cellOf 3.25 0.5 = some ⟨3, 0⟩ := by
  apply cellOf_of_inCell valid_tenMeters
  refine ⟨⟨by decide, by decide⟩, ?_, ?_⟩ <;>
    norm_num [AxisCell, tenMeters]

theorem oneRay_length (r : ℝ) :
    hypot ((tenMeters.clipRay (oneRay r).originX (oneRay r).originY 3.25 0.5).1 - (oneRay r).originX)
      ((tenMeters.clipRay (oneRay r).originX (oneRay r).originY 3.25 0.5).2 - (oneRay r).originY) = 2.5 := by
  have hdx : (3.25 : ℝ) - 0.75 = 2.5 := by norm_num
  rw [oneRay_clip]
  dsimp only [oneRay]
  rw [sub_self, hypot_self_zero, hdx, abs_of_pos (by norm_num)]

-- 長さ 2.5 の線を、最大 5 で消す。
theorem reportsChanges_iff_long :
    tenMeters.Valid ∧ tenMeters.ReportsChanges plainLayer [oneRay 5] [] [] Bounds.empty := by
  refine ⟨valid_tenMeters, (reportsChanges_iff tenMeters valid_tenMeters plainLayer [oneRay 5] [] [] Bounds.empty).mpr
    fun _ c hstops => surrounded_of_inRange valid_tenMeters ?_ hstops⟩
  intro obs hobs point hpoint
  obtain rfl := List.mem_singleton.mp hobs
  obtain rfl := List.mem_singleton.mp hpoint
  rw [oneRay_length]
  norm_num [oneRay]

theorem oneRay_stops : tenMeters.Stops [oneRay 2.125] ⟨3, 0⟩ := by
  have hmax : tenMeters.cellDistance (oneRay 2.125).raytraceMaxRange = 3 := by
    have hceil : ⌈(2.125 : ℝ) / 1⌉ = 3 := by norm_num [Int.ceil_eq_iff]
    change (max 0 ⌈(2.125 : ℝ) / 1⌉).toNat = 3
    rw [hceil]
    rfl
  have hmin : tenMeters.cellDistance (oneRay 2.125).raytraceMinRange = 0 := by
    simp [cellDistance, oneRay]
  have hdist : hypot (((3 : ℕ) : ℝ) - (0 : ℕ)) (((0 : ℕ) : ℝ) - (0 : ℕ)) = 3 := by
    rw [sub_self, hypot_self_zero]
    norm_num
  refine ⟨oneRay 2.125, List.mem_singleton.mpr rfl, ⟨0, 0⟩, oneRay_start 2.125, (3.25, 0.5, 0),
    List.mem_singleton.mpr rfl, ?_⟩
  unfold rayStop
  dsimp only
  rw [oneRay_clip, oneRay_end, hmax, hmin]
  dsimp only
  rw [if_neg (by rw [hdist]; norm_num), traceStop_full (by rw [hdist]; norm_num)]

theorem oneRay_touches :
    tenMeters.touchedPoints plainLayer [oneRay 2.125] [] [] = [(0.75, 0.5), (2.875, 0.5)] := by
  have hpoint : raytracePoint (oneRay 2.125).originX (oneRay 2.125).originY 3.25 0.5 (oneRay 2.125).raytraceMaxRange
      (oneRay 2.125).raytraceMinRange = some (2.875, 0.5) := by
    have hdx : (3.25 : ℝ) - 0.75 = 2.5 := by norm_num
    have habs : |(2.5 : ℝ)| = 2.5 := abs_of_pos (by norm_num)
    change raytracePoint 0.75 0.5 3.25 0.5 2.125 0 = some (2.875, 0.5)
    unfold raytracePoint
    dsimp only
    rw [sub_self, hypot_self_zero, hdx, habs, if_neg (by norm_num), min_eq_right (by norm_num)]
    norm_num
  have hray : tenMeters.rayTouches (oneRay 2.125) (3.25, 0.5, 0) = [(2.875, 0.5)] := by
    unfold rayTouches
    dsimp only
    rw [oneRay_clip, oneRay_end]
    dsimp only
    rw [hpoint]
    rfl
  have hclear : tenMeters.clearTouches (oneRay 2.125) = [(0.75, 0.5), (2.875, 0.5)] := by
    rw [clearTouches, oneRay_start]
    dsimp only
    rw [show (oneRay 2.125).cloud = [(3.25, 0.5, 0)] from rfl, List.flatMap_singleton, hray]
    rfl
  simp [touchedPoints, hclear, plainLayer]

-- 線の終わりの升目は番号 3 であるが、縮めた終わりの点は番号 2 の升目にある。
theorem reportsChanges_fails :
    ¬ ∀ g : Costmap2D ℝ, g.Valid → ∀ layer clearing marking transformedFootprint b,
      (∀ obs ∈ clearing ++ marking, obs.raytraceMinRange ≤ obs.raytraceMaxRange ∧
        obs.obstacleMinRange ≤ obs.obstacleMaxRange) →
      g.ReportsChanges layer clearing marking transformedFootprint b := by
  intro h
  have hreports := h tenMeters valid_tenMeters plainLayer [oneRay 2.125] [] [] Bounds.empty (by
    intro obs hobs
    obtain rfl := List.mem_singleton.mp hobs
    norm_num [oneRay])
  have hsurrounded := (surrounded_of_reportsChanges valid_tenMeters rfl hreports oneRay_stops).1.2
  rw [oneRay_touches] at hsurrounded
  rcases hsurrounded with hbot | ⟨w, hw, hle⟩
  · exact absurd hbot (not_le.mpr (EReal.bot_lt_coe _))
  · simp only [List.map_cons, List.map_nil, List.mem_cons, List.not_mem_nil, or_false] at hw
    rcases hw with rfl | rfl
    · norm_num [tenMeters] at hle
    · norm_num [tenMeters] at hle

end Costmap2D

end Ranger.Grid
