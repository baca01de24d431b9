import Mathlib.Analysis.Real.Sqrt
import Mathlib.Data.Finset.Prod
import Mathlib.Logic.Relation
import Ranger.Costmap.Distances

/-!
# 障害物までの距離（`map_cspace.cpp`）

障害物から四つの隣へ、障害物を渡しながら広がり、初めて届いた障害物までの距離を書く。待つ升目は、地図に書いた距離の小さい順に調べる。距離の等しい升目のどれが先頭になるかは決めない。
-/

namespace Ranger.Amcl
open Costmap (Cell axisDistance distanceSq)

/-! ## 地図と表 -/

/-- 占有の地図。`occState` が `1` の升目が障害物である。 -/
structure OccupancyMap where
  sizeX : Nat
  sizeY : Nat
  scale : ℝ
  scale_pos : 0 < scale
  occState : Cell → Int

namespace OccupancyMap

def Contains (m : OccupancyMap) (c : Cell) : Prop := c.1 < m.sizeX ∧ c.2 < m.sizeY

instance (m : OccupancyMap) (c : Cell) : Decidable (m.Contains c) := inferInstanceAs (Decidable (_ ∧ _))

def cells (m : OccupancyMap) : Finset Cell := Finset.range m.sizeX ×ˢ Finset.range m.sizeY

def obstacles (m : OccupancyMap) : Finset Cell := m.cells.filter fun c => m.occState c = 1

/-- 四つの隣を、調べる順に並べる。 -/
def near (m : OccupancyMap) (c : Cell) : List Cell :=
  (if 0 < c.1 then [(c.1 - 1, c.2)] else []) ++ (if 0 < c.2 then [(c.1, c.2 - 1)] else []) ++
    (if c.1 + 1 < m.sizeX then [(c.1 + 1, c.2)] else []) ++ (if c.2 + 1 < m.sizeY then [(c.1, c.2 + 1)] else [])

end OccupancyMap

/-- `double` から `int` への切り捨て。 -/
noncomputable def truncate (x : ℝ) : Int := if 0 ≤ x then ⌊x⌋ else ⌈x⌉

structure CachedDistanceMap where
  cellRadius : Int

/-- `get_distance_map`。表の大きさが負のとき、確保に失敗する。 -/
noncomputable def getDistanceMap (scale maxDist : ℝ) : Option CachedDistanceMap :=
  if truncate (maxDist / scale) + 2 < 0 then none else some ⟨truncate (maxDist / scale)⟩

/-- `distances_[di][dj]`。表の外では `none` である。 -/
noncomputable def CachedDistanceMap.distances (cdm : CachedDistanceMap) (di dj : Nat) : Option ℝ :=
  if di < cdm.cellRadius + 2 ∧ dj < cdm.cellRadius + 2 then some √((di * di + dj * dj : Nat) : ℝ) else none

/-! ## 広がり -/

structure CellData where
  cell : Cell
  src : Cell
  deriving DecidableEq

structure CSpace where
  occDist : Cell → ℝ
  marked : Cell → Bool
  queue : Multiset CellData

namespace CSpace

def mark (s : CSpace) (e : CellData) (occDist : ℝ) : CSpace where
  occDist := Function.update s.occDist e.cell occDist
  marked := Function.update s.marked e.cell true
  queue := e ::ₘ s.queue

/-- 表の外を引くとき `none` である。 -/
noncomputable def enqueue (m : OccupancyMap) (cdm : CachedDistanceMap) (src : Cell) (s : CSpace) (c : Cell) :
    Option CSpace :=
  if s.marked c then some s
  else
    match cdm.distances (axisDistance c.1 src.1) (axisDistance c.2 src.2) with
    | none => none
    | some distance => if (cdm.cellRadius : ℝ) < distance then some s else some (s.mark ⟨c, src⟩ (distance * m.scale))

noncomputable def expand (m : OccupancyMap) (cdm : CachedDistanceMap) (s : CSpace) (e : CellData) : Option CSpace :=
  (m.near e.cell).foldlM (enqueue m cdm e.src) s

/-- `operator<`。 -/
def Less (s : CSpace) (a b : CellData) : Prop := s.occDist b.cell < s.occDist a.cell

/-- 待ち行列の先頭になりうる要素。 -/
def IsTop (s : CSpace) (e : CellData) : Prop := e ∈ s.queue ∧ ∀ b ∈ s.queue, ¬ s.Less e b

def start (m : OccupancyMap) (maxOccDist : ℝ) : CSpace where
  occDist c := if m.occState c = 1 then 0 else maxOccDist
  marked c := decide (c ∈ m.obstacles)
  queue := m.obstacles.val.map fun c => ⟨c, c⟩

/-- 繰り返しの一回。先頭の升目を調べてから、そのときの先頭を除く。より小さい要素が入らない限り、先頭は変わらない。 -/
inductive Step (m : OccupancyMap) (cdm : CachedDistanceMap) : CSpace → Option CSpace → Prop
  | failed {s : CSpace} {e : CellData} : s.IsTop e → expand m cdm s e = none → Step m cdm s none
  | popped {s s' : CSpace} {e top : CellData} : s.IsTop e → expand m cdm s e = some s' → s'.IsTop top →
      (s'.IsTop e → top = e) → Step m cdm s (some { s' with queue := s'.queue.erase top })

/-- 何回かの繰り返しで届く状態。 -/
def Reaches (m : OccupancyMap) (cdm : CachedDistanceMap) : CSpace → CSpace → Prop :=
  Relation.ReflTransGen fun s s' => Step m cdm s (some s')

end CSpace

/-! ## 升目の幾何 -/

section Geometry

variable {m : OccupancyMap} {c d : Cell}

noncomputable def distance (c s : Cell) : ℝ := √(distanceSq c s : ℝ)

theorem sqrt_axisDistance (c s : Cell) : √((axisDistance c.1 s.1 * axisDistance c.1 s.1 +
    axisDistance c.2 s.2 * axisDistance c.2 s.2 : Nat) : ℝ) = distance c s := by
  rw [distance, distanceSq, pow_two, pow_two]

theorem lt_distance_iff {R : Nat} {s : Cell} : (R : ℝ) < distance c s ↔ R * R < distanceSq c s := by
  rw [distance, Real.lt_sqrt (Nat.cast_nonneg R), pow_two, ← Nat.cast_mul, Nat.cast_lt]

theorem distance_le_iff {R : Nat} {s : Cell} : distance c s ≤ R ↔ distanceSq c s ≤ R * R := by
  rw [← not_lt, lt_distance_iff, not_lt]

theorem distance_lt_iff {s t : Cell} : distance c s < distance d t ↔ distanceSq c s < distanceSq d t := by
  rw [distance, distance, Real.sqrt_lt_sqrt_iff (Nat.cast_nonneg _), Nat.cast_lt]

theorem distance_inj {s t : Cell} : distance c s = distance d t ↔ distanceSq c s = distanceSq d t := by
  rw [distance, distance, Real.sqrt_inj (Nat.cast_nonneg _) (Nat.cast_nonneg _), Nat.cast_inj]

theorem distance_self (c : Cell) : distance c c = 0 := by
  rw [distance, Costmap.distanceSq_eq_zero.mpr rfl, Nat.cast_zero, Real.sqrt_zero]

theorem mem_cells : c ∈ m.cells ↔ m.Contains c := by
  rw [OccupancyMap.cells, Finset.mem_product, Finset.mem_range, Finset.mem_range]
  rfl

theorem mem_obstacles : c ∈ m.obstacles ↔ m.Contains c ∧ m.occState c = 1 := by
  rw [OccupancyMap.obstacles, Finset.mem_filter, mem_cells]

theorem mem_near : d ∈ m.near c ↔ 0 < c.1 ∧ d = (c.1 - 1, c.2) ∨ 0 < c.2 ∧ d = (c.1, c.2 - 1) ∨
    c.1 + 1 < m.sizeX ∧ d = (c.1 + 1, c.2) ∨ c.2 + 1 < m.sizeY ∧ d = (c.1, c.2 + 1) := by
  simp only [OccupancyMap.near, List.mem_append, List.mem_ite_nil_right, List.mem_singleton, or_assoc]

theorem contains_of_mem_near (hc : m.Contains c) (h : d ∈ m.near c) : m.Contains d := by
  obtain ⟨hx, hy⟩ := hc
  rcases mem_near.mp h with ⟨hlt, rfl⟩ | ⟨hlt, rfl⟩ | ⟨hlt, rfl⟩ | ⟨hlt, rfl⟩
  · exact ⟨Nat.lt_of_le_of_lt (Nat.sub_le _ _) hx, hy⟩
  · exact ⟨hx, Nat.lt_of_le_of_lt (Nat.sub_le _ _) hy⟩
  · exact ⟨hlt, hy⟩
  · exact ⟨hx, hlt⟩

theorem near_symm (hc : m.Contains c) (h : d ∈ m.near c) : c ∈ m.near d := by
  obtain ⟨hx, hy⟩ := hc
  obtain ⟨c1, c2⟩ := c
  dsimp only at hx hy
  rcases mem_near.mp h with ⟨hlt, rfl⟩ | ⟨hlt, rfl⟩ | ⟨hlt, rfl⟩ | ⟨hlt, rfl⟩
  · refine mem_near.mpr (Or.inr (Or.inr (Or.inl ?_)))
    dsimp only at hlt ⊢
    rw [Nat.sub_add_cancel hlt]
    exact ⟨hx, rfl⟩
  · refine mem_near.mpr (Or.inr (Or.inr (Or.inr ?_)))
    dsimp only at hlt ⊢
    rw [Nat.sub_add_cancel hlt]
    exact ⟨hy, rfl⟩
  · exact mem_near.mpr (Or.inl ⟨Nat.succ_pos _, rfl⟩)
  · exact mem_near.mpr (Or.inr (Or.inl ⟨Nat.succ_pos _, rfl⟩))

/-- 隣へ移ると、軸ごとの差は高々 1 増える。 -/
theorem axisDistance_near (h : d ∈ m.near c) (s : Cell) :
    axisDistance d.1 s.1 ≤ axisDistance c.1 s.1 + 1 ∧ axisDistance d.2 s.2 ≤ axisDistance c.2 s.2 + 1 := by
  unfold axisDistance
  rcases mem_near.mp h with ⟨h, rfl⟩ | ⟨h, rfl⟩ | ⟨h, rfl⟩ | ⟨h, rfl⟩
  all_goals
    dsimp only
    constructor
    · split_ifs <;> omega
    · split_ifs <;> omega

end Geometry

/-! ## 一歩 -/

namespace CSpace

variable {m : OccupancyMap} {R : Nat} {s s' : CSpace} {e : CellData} {c : Cell}

/-- 半径が `R` の表は、差が `R + 1` までの添字で引ける。 -/
theorem enqueue_eq {src : Cell} (hx : axisDistance c.1 src.1 ≤ R + 1) (hy : axisDistance c.2 src.2 ≤ R + 1) :
    enqueue m ⟨R⟩ src s c = some
      (if s.marked c = false ∧ distanceSq c src ≤ R * R then s.mark ⟨c, src⟩ (distance c src * m.scale) else s) := by
  have hrange : (axisDistance c.1 src.1 : Int) < (R : Int) + 2 ∧ (axisDistance c.2 src.2 : Int) < (R : Int) + 2 := by
    omega
  unfold enqueue
  cases hmarked : s.marked c with
  | true => simp
  | false =>
      rw [if_neg Bool.false_ne_true, CachedDistanceMap.distances, if_pos hrange, sqrt_axisDistance]
      dsimp only
      rw [Int.cast_natCast]
      by_cases hfar : (R : ℝ) < distance c src
      · rw [if_pos hfar, if_neg fun h => absurd h.2 (Nat.not_le.mpr (lt_distance_iff.mp hfar))]
      · rw [if_neg hfar, if_pos ⟨rfl, distance_le_iff.mp (not_lt.mp hfar)⟩]

/-- 印のない升目の数と、待つ升目の数の和。 -/
def work (m : OccupancyMap) (s : CSpace) : Nat :=
  (m.cells.filter fun c => s.marked c = false).card + Multiset.card s.queue

theorem work_mark (hc : m.Contains e.cell) (h : s.marked e.cell = false) (d : ℝ) : work m (s.mark e d) = work m s := by
  have herase : (m.cells.filter fun c => (s.mark e d).marked c = false) =
      (m.cells.filter fun c => s.marked c = false).erase e.cell := by
    ext x
    rw [Finset.mem_filter, Finset.mem_erase, Finset.mem_filter]
    by_cases hx : x = e.cell
    · simp [mark, hx]
    · simp [mark, hx]
  have hmem : e.cell ∈ m.cells.filter fun c => s.marked c = false := Finset.mem_filter.mpr ⟨mem_cells.mpr hc, h⟩
  have hcard : Multiset.card (s.mark e d).queue = Multiset.card s.queue + 1 := Multiset.card_cons _ _
  have hpos := Finset.card_pos.mpr ⟨_, hmem⟩
  unfold work
  rw [herase, hcard, Finset.card_erase_of_mem hmem]
  omega

/-- 印のついた升目と待ち行列の決まり。 -/
structure Inv (m : OccupancyMap) (R : Nat) (maxOccDist : ℝ) (s : CSpace) : Prop where
  obstacle : ∀ c ∈ m.obstacles, s.marked c = true ∧ s.occDist c = 0
  unmarked : ∀ c, m.Contains c → s.marked c = false → s.occDist c = maxOccDist
  marked : ∀ c, s.marked c = true → m.Contains c ∧
    ∃ o ∈ m.obstacles, distanceSq c o ≤ R * R ∧ s.occDist c = distance c o * m.scale
  queue : ∀ e ∈ s.queue, s.marked e.cell = true ∧ e.src ∈ m.obstacles ∧ distanceSq e.cell e.src ≤ R * R ∧
    s.occDist e.cell = distance e.cell e.src * m.scale
  nodup : (s.queue.map CellData.cell).Nodup

theorem ne_of_marked {d : Cell} (hd : s.marked d = true) (hc : s.marked c = false) : d ≠ c := by
  rintro rfl
  exact absurd (hd.symm.trans hc) (by decide)

theorem Inv.notMem_obstacles {maxOccDist : ℝ} (h : Inv m R maxOccDist s) (hc : s.marked c = false) : c ∉ m.obstacles :=
  fun hmem => ne_of_marked (h.obstacle c hmem).1 hc rfl

/-- 調べる途中に変わるもの。`ns` は、調べた隣である。 -/
structure Expanded (m : OccupancyMap) (R : Nat) (src : Cell) (ns : List Cell) (s s' : CSpace) : Prop where
  marked : ∀ c, s'.marked c = true ↔ s.marked c = true ∨ c ∈ ns ∧ distanceSq c src ≤ R * R
  kept : ∀ c, s.marked c = true → s'.occDist c = s.occDist c
  fresh : ∀ c, s.marked c = false → s'.marked c = true → s'.occDist c = distance c src * m.scale
  queue : ∀ e, e ∈ s'.queue ↔ e ∈ s.queue ∨ s.marked e.cell = false ∧ s'.marked e.cell = true ∧ e.src = src
  work : work m s' = work m s

/-- 新しく印のついた升目は、調べた隣である。 -/
theorem Expanded.near {src : Cell} {ns : List Cell} (h : Expanded m R src ns s s') (hfree : s.marked c = false)
    (hc : s'.marked c = true) : c ∈ ns ∧ distanceSq c src ≤ R * R := by
  refine ((h.marked c).mp hc).resolve_left fun hold => ?_
  exact ne_of_marked hold hfree rfl

theorem Expanded.refl (m : OccupancyMap) (R : Nat) (src : Cell) (s : CSpace) : Expanded m R src [] s s where
  marked c := by simp
  kept _ _ := rfl
  fresh c h h' := by simp [h] at h'
  queue e := by
    refine ⟨Or.inl, ?_⟩
    rintro (h | ⟨h, h', -⟩)
    · exact h
    · simp [h] at h'
  work := rfl

theorem Expanded.trans {src : Cell} {ns ns' : List Cell} {s'' : CSpace} (h : Expanded m R src ns s s')
    (h' : Expanded m R src ns' s' s'') : Expanded m R src (ns ++ ns') s s'' where
  marked c := by rw [h'.marked, h.marked, List.mem_append, or_and_right, or_assoc]
  kept c hc := (h'.kept c ((h.marked c).mpr (Or.inl hc))).trans (h.kept c hc)
  fresh c hc hc'' := by
    cases hmid : s'.marked c with
    | true => exact (h'.kept c hmid).trans (h.fresh c hc hmid)
    | false => exact h'.fresh c hmid hc''
  queue e := by
    rw [h'.queue, h.queue]
    constructor
    · rintro ((he | ⟨he, he', hsrc⟩) | ⟨he, he', hsrc⟩)
      · exact Or.inl he
      · exact Or.inr ⟨he, (h'.marked _).mpr (Or.inl he'), hsrc⟩
      · refine Or.inr ⟨?_, he', hsrc⟩
        rw [Bool.eq_false_iff]
        intro hold
        rw [(h.marked _).mpr (Or.inl hold)] at he
        cases he
    · rintro (he | ⟨he, he', hsrc⟩)
      · exact Or.inl (Or.inl he)
      · cases hmid : s'.marked e.cell with
        | true => exact Or.inl (Or.inr ⟨he, rfl, hsrc⟩)
        | false => exact Or.inr ⟨rfl, he', hsrc⟩
  work := h'.work.trans h.work

theorem Inv.mark {src : Cell} {maxOccDist : ℝ} (h : Inv m R maxOccDist s) (hc : m.Contains c)
    (hfree : s.marked c = false) (hsrc : src ∈ m.obstacles) (hdist : distanceSq c src ≤ R * R) :
    Inv m R maxOccDist (s.mark ⟨c, src⟩ (distance c src * m.scale)) where
  obstacle x hx := by
    obtain ⟨hmarked, hzero⟩ := h.obstacle x hx
    have hne := ne_of_marked hmarked hfree
    simp only [CSpace.mark, Function.update_of_ne hne]
    exact ⟨hmarked, hzero⟩
  unmarked x hx hmark := by
    have hne : x ≠ c := by
      rintro rfl
      simp [CSpace.mark] at hmark
    simp only [CSpace.mark, Function.update_of_ne hne] at hmark ⊢
    exact h.unmarked x hx hmark
  marked x hx := by
    by_cases hxc : x = c
    · subst hxc
      exact ⟨hc, src, hsrc, hdist, Function.update_self _ _ _⟩
    · simp only [CSpace.mark, Function.update_of_ne hxc] at hx ⊢
      exact h.marked x hx
  queue e he := by
    rcases Multiset.mem_cons.mp he with rfl | he
    · exact ⟨Function.update_self _ _ _, hsrc, hdist, Function.update_self _ _ _⟩
    · obtain ⟨hmarked, hrest⟩ := h.queue e he
      have hne := ne_of_marked hmarked hfree
      simp only [CSpace.mark, Function.update_of_ne hne]
      exact ⟨hmarked, hrest⟩
  nodup := by
    simp only [CSpace.mark, Multiset.map_cons]
    refine Multiset.nodup_cons.mpr ⟨fun hmem => ?_, h.nodup⟩
    obtain ⟨e, he, hcell⟩ := Multiset.mem_map.mp hmem
    exact ne_of_marked (h.queue e he).1 hfree hcell

/-- 印のない隣 `c` に印をつける。 -/
theorem Inv.expanded_mark {src : Cell} {maxOccDist : ℝ} (h : Inv m R maxOccDist s) (hc : m.Contains c)
    (hfree : s.marked c = false) (hdist : distanceSq c src ≤ R * R) :
    Expanded m R src [c] s (s.mark ⟨c, src⟩ (distance c src * m.scale)) where
  marked d := by
    by_cases hdc : d = c
    · simp [CSpace.mark, hdc, hdist]
    · simp [CSpace.mark, hdc]
  kept d hd := Function.update_of_ne (ne_of_marked hd hfree) _ _
  fresh d hd hd' := by
    by_cases hdc : d = c
    · subst hdc
      exact Function.update_self _ _ _
    · simp [CSpace.mark, hdc, hd] at hd'
  queue e := by
    obtain ⟨d, t⟩ := e
    rw [CSpace.mark, Multiset.mem_cons, CellData.mk.injEq]
    by_cases hdc : d = c
    · subst hdc
      have hnot : (⟨d, t⟩ : CellData) ∉ s.queue := fun he => ne_of_marked (h.queue _ he).1 hfree rfl
      simp [hnot, hfree]
    · cases hd : s.marked d with
      | true => simp [hdc]
      | false => simp [hdc, hd]
  work := work_mark hc hfree _

/-- 印があるか、遠すぎる隣 `c` は、何も変えない。 -/
theorem Expanded.skip {src : Cell} (hskip : ¬ (s.marked c = false ∧ distanceSq c src ≤ R * R)) :
    Expanded m R src [c] s s where
  marked d := by
    refine ⟨Or.inl, ?_⟩
    rintro (hd | ⟨hd, hdist⟩)
    · exact hd
    · obtain rfl := List.mem_singleton.mp hd
      cases hmarked : s.marked d with
      | true => rfl
      | false => exact absurd ⟨hmarked, hdist⟩ hskip
  kept := (Expanded.refl m R src s).kept
  fresh := (Expanded.refl m R src s).fresh
  queue := (Expanded.refl m R src s).queue
  work := rfl

/-- 隣を順に調べても、表の外は引かない。 -/
theorem Inv.expanded {src : Cell} {maxOccDist : ℝ} {ns : List Cell} (h : Inv m R maxOccDist s) (hsrc : src ∈ m.obstacles)
    (hns : ∀ c ∈ ns, m.Contains c ∧ axisDistance c.1 src.1 ≤ R + 1 ∧ axisDistance c.2 src.2 ≤ R + 1) :
    ∃ s', ns.foldlM (enqueue m ⟨R⟩ src) s = some s' ∧ Expanded m R src ns s s' ∧ Inv m R maxOccDist s' := by
  induction ns generalizing s with
  | nil => exact ⟨s, rfl, Expanded.refl m R src s, h⟩
  | cons c ns ih =>
      obtain ⟨hc, hx, hy⟩ := hns c List.mem_cons_self
      have hrest : ∀ d ∈ ns, m.Contains d ∧ axisDistance d.1 src.1 ≤ R + 1 ∧ axisDistance d.2 src.2 ≤ R + 1 :=
        fun d hd => hns d (List.mem_cons_of_mem c hd)
      rw [List.foldlM_cons, enqueue_eq hx hy]
      by_cases hfresh : s.marked c = false ∧ distanceSq c src ≤ R * R
      · rw [if_pos hfresh]
        obtain ⟨hfree, hdist⟩ := hfresh
        obtain ⟨s', hrun, hexpanded, hinv⟩ := ih (h.mark hc hfree hsrc hdist) hrest
        exact ⟨s', hrun, (h.expanded_mark hc hfree hdist).trans hexpanded, hinv⟩
      · rw [if_neg hfresh]
        obtain ⟨s', hrun, hexpanded, hinv⟩ := ih h hrest
        exact ⟨s', hrun, (Expanded.skip hfresh).trans hexpanded, hinv⟩

theorem Inv.expand {maxOccDist : ℝ} (h : Inv m R maxOccDist s) (he : e ∈ s.queue) :
    ∃ s', expand m ⟨R⟩ s e = some s' ∧ Expanded m R e.src (m.near e.cell) s s' ∧ Inv m R maxOccDist s' := by
  obtain ⟨hmarked, hsrc, hdist, -⟩ := h.queue e he
  have hc := (h.marked e.cell hmarked).1
  obtain ⟨hx, hy⟩ := Costmap.axisDistance_le_of_distanceSq hdist
  refine h.expanded hsrc fun c hnear => ?_
  obtain ⟨hx', hy'⟩ := axisDistance_near hnear e.src
  exact ⟨contains_of_mem_near hc hnear, hx'.trans (Nat.succ_le_succ hx), hy'.trans (Nat.succ_le_succ hy)⟩

theorem Inv.erase {maxOccDist : ℝ} (h : Inv m R maxOccDist s) (e : CellData) :
    Inv m R maxOccDist { s with queue := s.queue.erase e } where
  obstacle := h.obstacle
  unmarked := h.unmarked
  marked := h.marked
  queue e' he' := h.queue e' (Multiset.mem_of_mem_erase he')
  nodup := Multiset.nodup_of_le (Multiset.map_le_map (Multiset.erase_le e s.queue)) h.nodup

theorem start_inv (m : OccupancyMap) (R : Nat) (maxOccDist : ℝ) : Inv m R maxOccDist (start m maxOccDist) where
  obstacle c hc := ⟨decide_eq_true hc, if_pos (mem_obstacles.mp hc).2⟩
  unmarked c hc h := if_neg fun hocc => absurd (mem_obstacles.mpr ⟨hc, hocc⟩) (of_decide_eq_false h)
  marked c h := by
    have hc : c ∈ m.obstacles := of_decide_eq_true h
    refine ⟨(mem_obstacles.mp hc).1, c, hc, ?_, ?_⟩
    · rw [Costmap.distanceSq_eq_zero.mpr rfl]
      exact Nat.zero_le _
    · rw [distance_self, zero_mul]
      exact if_pos (mem_obstacles.mp hc).2
  queue e he := by
    obtain ⟨c, hc, rfl⟩ := Multiset.mem_map.mp he
    refine ⟨decide_eq_true hc, hc, ?_, ?_⟩
    · rw [Costmap.distanceSq_eq_zero.mpr rfl]
      exact Nat.zero_le _
    · rw [distance_self, zero_mul]
      exact if_pos (mem_obstacles.mp hc).2
  nodup := by
    rw [start, Multiset.map_map]
    exact (Multiset.map_id m.obstacles.val).symm ▸ m.obstacles.nodup

/-! ## 繰り返し -/

/-- 空でない待ち行列には、先頭がある。 -/
theorem exists_isTop (s : CSpace) (h : s.queue ≠ 0) : ∃ e, s.IsTop e := by
  classical
  obtain ⟨e, he⟩ := Multiset.exists_mem_of_ne_zero h
  obtain ⟨top, htop, hmin⟩ := s.queue.toFinset.exists_min_image (fun e => s.occDist e.cell)
    ⟨e, Multiset.mem_toFinset.mpr he⟩
  exact ⟨top, Multiset.mem_toFinset.mp htop, fun b hb => not_lt.mpr (hmin b (Multiset.mem_toFinset.mpr hb))⟩

/-- 待つ升目 `e` が先頭になりうるときは、それを先頭とする。 -/
theorem exists_isTop_keeping (he : e ∈ s.queue) : ∃ top, s.IsTop top ∧ (s.IsTop e → top = e) := by
  by_cases hstill : s.IsTop e
  · exact ⟨e, hstill, fun _ => rfl⟩
  · obtain ⟨top, htop⟩ := s.exists_isTop fun hempty => by
      rw [hempty] at he
      exact absurd he (Multiset.notMem_zero e)
    exact ⟨top, htop, fun h => absurd h hstill⟩

/-- 成功する一歩は、決まりを保ち、残りの仕事を一つ減らす。 -/
theorem Inv.step {maxOccDist : ℝ} {r : Option CSpace} (h : Inv m R maxOccDist s) (hstep : Step m ⟨R⟩ s r) :
    ∃ s', r = some s' ∧ Inv m R maxOccDist s' ∧ work m s = work m s' + 1 := by
  cases hstep with
  | failed htop hexpand =>
      obtain ⟨s', hsome, -, -⟩ := h.expand htop.1
      rw [hsome] at hexpand
      cases hexpand
  | popped htop hexpand htop' hsame =>
      rename_i s' e top
      obtain ⟨s'', hsome, hexpanded, hinv⟩ := h.expand htop.1
      obtain rfl := Option.some.inj (hexpand.symm.trans hsome)
      refine ⟨_, rfl, hinv.erase top, ?_⟩
      have hcard := Multiset.card_erase_of_mem htop'.1
      have hpos := Multiset.card_pos_iff_exists_mem.mpr ⟨top, htop'.1⟩
      have hwork := hexpanded.work
      unfold work at hwork ⊢
      dsimp only
      rw [hcard, Nat.pred_eq_sub_one]
      omega

theorem Inv.reaches {maxOccDist : ℝ} (h : Inv m R maxOccDist s) (hrun : Reaches m ⟨R⟩ s s') :
    Inv m R maxOccDist s' := by
  induction hrun with
  | refl => exact h
  | tail _ hstep ih =>
      obtain ⟨s'', heq, hinv, -⟩ := ih.step hstep
      obtain rfl := Option.some.inj heq
      exact hinv

theorem Inv.acc {maxOccDist : ℝ} (h : Inv m R maxOccDist s) : Acc (fun s' s => Step m ⟨R⟩ s (some s')) s := by
  induction hwork : work m s generalizing s with
  | zero =>
      refine Acc.intro s fun s' hstep => ?_
      obtain ⟨_, -, -, hless⟩ := h.step hstep
      omega
  | succ n ih =>
      refine Acc.intro s fun s' hstep => ?_
      obtain ⟨s'', heq, hinv, hless⟩ := h.step hstep
      obtain rfl := Option.some.inj heq
      exact ih hinv (by omega)

end CSpace

end Ranger.Amcl
