import Ranger.Dwb.MapBasedQueue
import Ranger.Grid.Costmap2D
import Ranger.Lib.Wavefront

/-!
# 升目の待ち行列

`costmap_queue` の `costmap_queue.cpp`。源の升目から近い順に升目を取り出し、四つの隣に源を渡す。升目の間の遠さは、あらかじめ表に求めておく。
-/

namespace Ranger.Dwb
open Ranger.Lib Ranger.Grid

structure CellData (κ : Type) where
  distance : κ
  index : ℕ
  x : ℕ
  y : ℕ
  srcX : ℕ
  srcY : ℕ
deriving DecidableEq, Repr

namespace CellData

def absoluteDifference (x y : ℕ) : ℕ := if x > y then x - y else y - x

def location {κ : Type} (cell : CellData κ) : MapLocation := ⟨cell.x, cell.y⟩

def source {κ : Type} (cell : CellData κ) : MapLocation := ⟨cell.srcX, cell.srcY⟩

end CellData

/-- `metric` は、差が `i` と `j` の升目の間の遠さで、`manhattan_` のとき `i + j` である。 -/
structure CostmapQueue (κ : Type) [LinearOrder κ] where
  metric : ℕ → ℕ → κ
  validCellToQueue : CellData κ → Bool
  seen : ℕ → Bool
  maxDistance : ℤ
  cachedMaxDistance : ℤ
  cachedDistances : List (List κ)
  queue : MapBasedQueue.Items (CellData.distance (κ := κ))

namespace CostmapQueue

variable {κ : Type} [LinearOrder κ] {K : Type*}

def computeCache (q : CostmapQueue κ) (g : Costmap2D K) : CostmapQueue κ :=
  let q := if q.maxDistance = -1 then { q with maxDistance := max g.sizeX g.sizeY } else q
  if q.maxDistance = q.cachedMaxDistance then q
  else
    let size := (q.maxDistance + 2).toNat
    { q with
      cachedDistances := (List.range size).map fun i => (List.range size).map fun j => q.metric i j
      cachedMaxDistance := q.maxDistance }

def reset (q : CostmapQueue κ) (g : Costmap2D K) : CostmapQueue κ :=
  let q := computeCache { q with seen := fun _ => false } g
  { q with queue := q.queue.reset }

def create (metric : ℕ → ℕ → κ) (validCellToQueue : CellData κ → Bool) (g : Costmap2D K) : CostmapQueue κ :=
  reset ⟨metric, validCellToQueue, fun _ => false, -1, -1, [], MapBasedQueue.Items.empty _⟩ g

/-- 表の外を読んだ値は `none` で表す。 -/
def distanceLookup (q : CostmapQueue κ) (curX curY srcX srcY : ℕ) : Option κ :=
  (q.cachedDistances[CellData.absoluteDifference curX srcX]?).bind fun row =>
    row[CellData.absoluteDifference curY srcY]?

/-- 表の外を読むと、待ち行列は定まらない。 -/
def enqueueCellFrom (q : CostmapQueue κ) (index curX curY srcX srcY : ℕ) : Option (CostmapQueue κ) :=
  if q.seen index then some q
  else (q.distanceLookup curX curY srcX srcY).map fun distance =>
    let data : CellData κ := ⟨distance, index, curX, curY, srcX, srcY⟩
    if q.validCellToQueue data then
      { q with seen := Function.update q.seen index true, queue := q.queue.push data }
    else q

def enqueueCell (q : CostmapQueue κ) (g : Costmap2D K) (x y : ℕ) : Option (CostmapQueue κ) :=
  q.enqueueCellFrom (g.getIndex x y) x y x y

def isEmpty (q : CostmapQueue κ) : Bool := q.queue.queue.isEmpty

/-- 隣が地図の中にある（`inside`）ときだけ入れる。 -/
def enqueueNeighbor (q : CostmapQueue κ) (inside : Prop) [Decidable inside] (index curX curY srcX srcY : ℕ) :
    Option (CostmapQueue κ) := if inside then q.enqueueCellFrom index curX curY srcX srcY else some q

/-- 先頭の升目を取り出し、左、上、右、下の隣を入れる。 -/
def getNextCell (q : CostmapQueue κ) (g : Costmap2D K) : Option (CellData κ × CostmapQueue κ) := do
  let (cell, rest) ← q.queue.pop
  let q := { q with queue := rest }
  let q ← q.enqueueNeighbor (cell.x > 0) (cell.index - 1) (cell.x - 1) cell.y cell.srcX cell.srcY
  let q ← q.enqueueNeighbor (cell.y > 0) (cell.index - g.sizeX) cell.x (cell.y - 1) cell.srcX cell.srcY
  let q ← q.enqueueNeighbor (cell.x < g.sizeX - 1) (cell.index + 1) (cell.x + 1) cell.y cell.srcX cell.srcY
  let q ← q.enqueueNeighbor (cell.y < g.sizeY - 1) (cell.index + g.sizeX) cell.x (cell.y + 1) cell.srcX cell.srcY
  pure (cell, q)

/-! ## 表の用意 -/

variable {q q' : CostmapQueue κ} {g : Costmap2D K}

/-- 地図の大きさに合う表がある。 -/
structure Ready (q : CostmapQueue κ) (g : Costmap2D K) : Prop where
  maxDistance : q.maxDistance = max g.sizeX g.sizeY
  cachedMaxDistance : q.cachedMaxDistance = q.maxDistance
  cachedDistances : q.cachedDistances = (List.range (max g.sizeX g.sizeY + 2)).map fun i =>
    (List.range (max g.sizeX g.sizeY + 2)).map fun j => q.metric i j

theorem Ready.lookup (h : Ready q g) {c s : MapLocation} (hc : g.Contains c) (hs : g.Contains s) :
    q.distanceLookup c.x c.y s.x s.y =
      some (q.metric (CellData.absoluteDifference c.x s.x) (CellData.absoluteDifference c.y s.y)) := by
  obtain ⟨hcx, hcy⟩ := hc
  obtain ⟨hsx, hsy⟩ := hs
  have hx : CellData.absoluteDifference c.x s.x < max g.sizeX g.sizeY + 2 := by
    unfold CellData.absoluteDifference
    split_ifs <;> omega
  have hy : CellData.absoluteDifference c.y s.y < max g.sizeX g.sizeY + 2 := by
    unfold CellData.absoluteDifference
    split_ifs <;> omega
  rw [distanceLookup, h.cachedDistances]
  simp [hx, hy]

theorem computeCache_keeps (q : CostmapQueue κ) (g : Costmap2D K) :
    (q.computeCache g).metric = q.metric ∧ (q.computeCache g).validCellToQueue = q.validCellToQueue := by
  unfold computeCache
  dsimp only
  split_ifs <;> exact ⟨rfl, rfl⟩

theorem Ready.of_create (metric : ℕ → ℕ → κ) (validCellToQueue : CellData κ → Bool) (g : Costmap2D K) :
    Ready (create metric validCellToQueue g) g := by
  have hne : (max (g.sizeX : ℤ) g.sizeY) ≠ -1 := by omega
  have hsize : (max (g.sizeX : ℤ) g.sizeY + 2).toNat = max g.sizeX g.sizeY + 2 := by omega
  constructor <;> simp [create, reset, computeCache, hne, hsize]

theorem Ready.reset (h : Ready q g) : Ready (q.reset g) g ∧ (q.reset g).seen = (fun _ => false) ∧
    (q.reset g).queue.items = [] ∧ (q.reset g).metric = q.metric ∧ (q.reset g).validCellToQueue = q.validCellToQueue := by
  have hne : q.maxDistance ≠ -1 := by
    rw [h.maxDistance]
    omega
  have hreset : q.reset g = { q with seen := fun _ => false, queue := q.queue.reset } := by
    simp [CostmapQueue.reset, computeCache, hne, h.cachedMaxDistance]
  rw [hreset]
  exact ⟨⟨h.maxDistance, h.cachedMaxDistance, h.cachedDistances⟩, rfl, rfl, rfl, rfl⟩

end CostmapQueue

/-! ## マンハッタン距離の波面 -/

def manhattan (c s : MapLocation) : ℕ := CellData.absoluteDifference c.x s.x + CellData.absoluteDifference c.y s.y

section Wave

variable {K : Type*} {g : Costmap2D K} {c s u v : MapLocation}

/-- 升目の四つの隣を、調べる順に並べたもの。 -/
def near (g : Costmap2D K) (c : MapLocation) : List MapLocation :=
  (if c.x > 0 then [⟨c.x - 1, c.y⟩] else []) ++ (if c.y > 0 then [⟨c.x, c.y - 1⟩] else []) ++
    (if c.x < g.sizeX - 1 then [⟨c.x + 1, c.y⟩] else []) ++ (if c.y < g.sizeY - 1 then [⟨c.x, c.y + 1⟩] else [])

theorem mem_near : v ∈ near g c ↔ c.x > 0 ∧ v = ⟨c.x - 1, c.y⟩ ∨ c.y > 0 ∧ v = ⟨c.x, c.y - 1⟩ ∨
    c.x < g.sizeX - 1 ∧ v = ⟨c.x + 1, c.y⟩ ∨ c.y < g.sizeY - 1 ∧ v = ⟨c.x, c.y + 1⟩ := by
  have hone (P : Prop) [Decidable P] (w : MapLocation) : v ∈ (if P then [w] else []) ↔ P ∧ v = w := by
    split_ifs with h <;> simp [h]
  simp only [near, List.mem_append, hone, or_assoc]

/-- 升目の波面。 -/
def wave (g : Costmap2D K) : Wavefront MapLocation MapLocation where
  node := g.Contains
  near := near g
  dist := manhattan
  node_near := by
    intro c v hc hv
    obtain ⟨hx, hy⟩ := hc
    rcases mem_near.mp hv with ⟨h, rfl⟩ | ⟨h, rfl⟩ | ⟨h, rfl⟩ | ⟨h, rfl⟩ <;> constructor <;> simp <;> omega
  dist_near := by
    intro c v s hv
    rcases mem_near.mp hv with ⟨h, rfl⟩ | ⟨h, rfl⟩ | ⟨h, rfl⟩ | ⟨h, rfl⟩ <;>
      simp only [manhattan, CellData.absoluteDifference] <;> split_ifs <;> omega

/-- 源から離れた升目には、源に近い隣がある。 -/
theorem exists_nearer (hv : g.Contains v) (hs : g.Contains s) (hpos : 0 < manhattan v s) :
    ∃ u, g.Contains u ∧ v ∈ near g u ∧ manhattan u s + 1 = manhattan v s := by
  obtain ⟨hvx, hvy⟩ := hv
  obtain ⟨hsx, hsy⟩ := hs
  rcases Nat.lt_trichotomy v.x s.x with hx | hx | hx
  · refine ⟨⟨v.x + 1, v.y⟩, ⟨by show v.x + 1 < _; omega, hvy⟩, mem_near.mpr (Or.inl ⟨Nat.succ_pos _, rfl⟩), ?_⟩
    simp only [manhattan, CellData.absoluteDifference]
    split_ifs <;> omega
  · rcases Nat.lt_trichotomy v.y s.y with hy | hy | hy
    · refine ⟨⟨v.x, v.y + 1⟩, ⟨hvx, by show v.y + 1 < _; omega⟩,
        mem_near.mpr (Or.inr (Or.inl ⟨Nat.succ_pos _, rfl⟩)), ?_⟩
      simp only [manhattan, CellData.absoluteDifference]
      split_ifs <;> omega
    · simp [manhattan, CellData.absoluteDifference, hx, hy] at hpos
    · refine ⟨⟨v.x, v.y - 1⟩, ⟨hvx, by show v.y - 1 < _; omega⟩,
        mem_near.mpr (Or.inr (Or.inr (Or.inr ⟨by show v.y - 1 < _; omega, ?_⟩))), ?_⟩
      · rw [Nat.sub_add_cancel (by omega)]
      · simp only [manhattan, CellData.absoluteDifference]
        split_ifs <;> omega
  · refine ⟨⟨v.x - 1, v.y⟩, ⟨by show v.x - 1 < _; omega, hvy⟩,
      mem_near.mpr (Or.inr (Or.inr (Or.inl ⟨by show v.x - 1 < _; omega, ?_⟩))), ?_⟩
    · rw [Nat.sub_add_cancel (by omega)]
    · simp only [manhattan, CellData.absoluteDifference]
      split_ifs <;> omega

/-- `level` は、源 `sources` のうち最も近いものまでの遠さである。 -/
structure Nearest (sources : List MapLocation) (level : MapLocation → ℕ) : Prop where
  le : ∀ s ∈ sources, ∀ v, level v ≤ manhattan v s
  attained : ∀ v, ∃ s ∈ sources, level v = manhattan v s

theorem Nearest.level {sources : List MapLocation} {level : MapLocation → ℕ} (h : Nearest sources level)
    (hsources : ∀ s ∈ sources, g.Contains s) : (wave g).Level (· ∈ sources) level where
  le hs := h.le _ hs
  back := by
    intro v hv hpos
    obtain ⟨s, hs, heq⟩ := h.attained v
    obtain ⟨u, hu, hnear, hback⟩ := exists_nearer hv (hsources s hs) (heq ▸ hpos)
    obtain ⟨t, ht, heq'⟩ := h.attained u
    have hle := h.le s hs u
    have hle' := h.le t ht v
    have hstep := (wave g).dist_near t hnear
    refine ⟨u, hu, hnear, ?_⟩
    show level u + 1 = level v
    have hstep' : manhattan v t ≤ manhattan u t + 1 := hstep
    omega

end Wave

/-! ## 取り出しの一歩 -/

section Take

variable {K : Type*} [Field K] [LinearOrder K] {g : Costmap2D K} {sources : List MapLocation} {level : MapLocation → ℕ}
  {q : CostmapQueue ℕ} {a : CellData ℕ} {v u : MapLocation} {taken done : List (CellData ℕ)}

def cells : Wavefront.Items MapLocation MapLocation (CellData ℕ) := ⟨CellData.location, CellData.source⟩

theorem getIndex_eq (hg : g.Valid) (hv : g.Contains v) : g.getIndex v.x v.y = v.y * g.sizeX + v.x := by
  have hindex := index_lt hv.1 hv.2
  have harea := hg.area
  exact wrap_of_lt (by omega)

theorem getIndex_inj (hg : g.Valid) (hv : g.Contains v) (hu : g.Contains u) (h : g.getIndex v.x v.y = g.getIndex u.x u.y) :
    v = u := by
  rw [getIndex_eq hg hv, getIndex_eq hg hu] at h
  rw [← Costmap2D.indexToCells_index hv.1, h, Costmap2D.indexToCells_index hu.1]

/-- 升目に印がある。 -/
def Seen (g : Costmap2D K) (q : CostmapQueue ℕ) (v : MapLocation) : Prop :=
  g.Contains v ∧ q.seen (g.getIndex v.x v.y) = true

/-- どの升目も受け入れる、マンハッタン距離の待ち行列。 -/
structure Manhattan (g : Costmap2D K) (q : CostmapQueue ℕ) : Prop extends q.Ready g where
  metric : q.metric = fun i j => i + j
  always : ∀ cell, q.validCellToQueue cell = true
  wellFormed : ∀ cell ∈ q.queue.items, g.Contains cell.location ∧ cell.index = g.getIndex cell.x cell.y ∧
    cell.distance = manhattan cell.location cell.source

/-- 印のない升目を入れる。 -/
theorem Manhattan.enqueue (hg : g.Valid) (hq : Manhattan g q) {s : MapLocation} (hv : g.Contains v) (hs : g.Contains s)
    (hnew : ¬ Seen g q v) :
    ∃ q', q.enqueueCellFrom (g.getIndex v.x v.y) v.x v.y s.x s.y = some q' ∧ Manhattan g q' ∧
      (∀ u, Seen g q' u ↔ u = v ∨ Seen g q u) ∧
      q'.queue.items = ⟨manhattan v s, g.getIndex v.x v.y, v.x, v.y, s.x, s.y⟩ :: q.queue.items := by
  have hseen : ¬ q.seen (g.getIndex v.x v.y) = true := fun h => hnew ⟨hv, h⟩
  have hlookup : q.distanceLookup v.x v.y s.x s.y = some (manhattan v s) := by
    rw [hq.lookup hv hs, hq.metric]
    rfl
  rw [CostmapQueue.enqueueCellFrom, if_neg hseen, hlookup, Option.map_some, if_pos (hq.always _)]
  refine ⟨_, rfl, ⟨⟨hq.maxDistance, hq.cachedMaxDistance, hq.cachedDistances⟩, hq.metric, hq.always, ?_⟩, fun u => ?_, rfl⟩
  · intro cell hcell
    rcases List.mem_cons.mp hcell with rfl | hcell
    · exact ⟨hv, rfl, rfl⟩
    · exact hq.wellFormed cell hcell
  · show g.Contains u ∧ Function.update q.seen (g.getIndex v.x v.y) true (g.getIndex u.x u.y) = true ↔ _
    by_cases hindex : g.getIndex u.x u.y = g.getIndex v.x v.y
    · rw [hindex, Function.update_self]
      refine ⟨fun h => Or.inl (getIndex_inj hg h.1 hv hindex), ?_⟩
      rintro (rfl | h)
      · exact ⟨hv, rfl⟩
      · exact ⟨h.1, rfl⟩
    · rw [Function.update_of_ne hindex]
      refine ⟨fun h => Or.inr h, ?_⟩
      rintro (rfl | h)
      · exact absurd rfl hindex
      · exact h

/-- 取り出した升目 `a` の隣に広げている途中の待ち行列。 -/
structure Offering (g : Costmap2D K) (sources : List MapLocation) (level : MapLocation → ℕ) (done : List (CellData ℕ))
    (a : CellData ℕ) (q : CostmapQueue ℕ) : Prop extends Manhattan g q where
  spreading : Wavefront.Spreading (wave g) cells (· ∈ sources) level (Seen g q) done a (q.queue.items : Multiset (CellData ℕ))

theorem Offering.offer (hg : g.Valid) (hsources : ∀ s ∈ sources, g.Contains s) (hlevel : Nearest sources level)
    (h : Offering g sources level done a q) (hnear : v ∈ near g a.location) :
    ∃ q', q.enqueueCellFrom (g.getIndex v.x v.y) v.x v.y a.srcX a.srcY = some q' ∧
      Offering g sources level done a q' ∧ Seen g q' v ∧ ∀ u, Seen g q u → Seen g q' u := by
  have ha := h.spreading.exact a
    (Multiset.mem_add.mpr (Or.inl (Multiset.mem_coe.mpr (List.mem_append_right _ List.mem_cons_self))))
  have hv : g.Contains v := (wave g).node_near ha.2.1 hnear
  by_cases hseen : Seen g q v
  · refine ⟨q, ?_, h, hseen, fun _ hu => hu⟩
    rw [CostmapQueue.enqueueCellFrom, if_pos hseen.2]
  · obtain ⟨q', henq, hman, hiff, hitems⟩ := h.toManhattan.enqueue hg hv (hsources _ ha.1) hseen
    refine ⟨q', henq, ⟨hman, ?_⟩, (hiff v).mpr (Or.inl rfl), fun u hu => (hiff u).mpr (Or.inr hu)⟩
    have hpred : Seen g q' = fun u => u = v ∨ Seen g q u := by
      funext u
      exact propext (hiff u)
    rw [hpred, hitems, ← Multiset.cons_coe]
    exact (h.spreading.offer (b := ⟨manhattan v a.source, g.getIndex v.x v.y, v.x, v.y, a.srcX, a.srcY⟩)
      (hlevel.level hsources) hnear hseen rfl rfl).1

theorem Offering.offerNeighbor (hg : g.Valid) (hsources : ∀ s ∈ sources, g.Contains s) (hlevel : Nearest sources level)
    (h : Offering g sources level done a q) (P : Prop) [Decidable P] (v : MapLocation) (hnear : P → v ∈ near g a.location)
    {index : ℕ} (hindex : P → index = g.getIndex v.x v.y) :
    ∃ q', q.enqueueNeighbor P index v.x v.y a.srcX a.srcY = some q' ∧
      Offering g sources level done a q' ∧ (P → Seen g q' v) ∧ ∀ u, Seen g q u → Seen g q' u := by
  unfold CostmapQueue.enqueueNeighbor
  split_ifs with hP
  · rw [hindex hP]
    obtain ⟨q', henq, hoffer, hseen, hmono⟩ := h.offer hg hsources hlevel (hnear hP)
    exact ⟨q', henq, hoffer, fun _ => hseen, hmono⟩
  · exact ⟨q, rfl, h, fun h => absurd h hP, fun _ hu => hu⟩

/-- 取り出す前の待ち行列。 -/
structure Tracks (g : Costmap2D K) (sources : List MapLocation) (level : MapLocation → ℕ) (taken : List (CellData ℕ))
    (q : CostmapQueue ℕ) : Prop extends Manhattan g q where
  waiting : Wavefront.Waiting (wave g) cells (· ∈ sources) level (Seen g q) taken (q.queue.items : Multiset (CellData ℕ))

/-- 最も近い升目を取り出し、その隣のどれにも印を付ける。 -/
theorem Tracks.getNextCell (hg : g.Valid) (hsources : ∀ s ∈ sources, g.Contains s) (hlevel : Nearest sources level)
    (h : Tracks g sources level taken q) (hne : q.queue.items ≠ []) :
    ∃ cell q', q.getNextCell g = some (cell, q') ∧ Tracks g sources level (taken ++ [cell]) q' ∧
      cell ∈ q.queue.items := by
  obtain ⟨cell, rest, hpop⟩ : ∃ cell rest, q.queue.pop = some (cell, rest) := by
    rcases q.queue.pop_cases with ⟨-, hitems⟩ | ⟨cell, hpop, -⟩
    · exact absurd hitems hne
    · exact ⟨cell, _, hpop⟩
  have helems : (q.queue.items : Multiset (CellData ℕ)) = cell ::ₘ rest.items :=
    (MapBasedQueue.priorityQueue CellData.distance).elems_of_pop hpop
  have hmem (b : CellData ℕ) (hb : b ∈ rest.items) : b ∈ q.queue.items := by
    rw [← Multiset.mem_coe, helems]
    exact Multiset.mem_cons_of_mem hb
  have hcell : cell ∈ q.queue.items := by
    rw [← Multiset.mem_coe, helems]
    exact Multiset.mem_cons_self _ _
  have hkey (b : CellData ℕ) (hb : b ∈ (q.queue.items : Multiset (CellData ℕ))) :
      (wave g).key cells cell ≤ (wave g).key cells b := by
    have hle : cell.distance ≤ b.distance :=
      (MapBasedQueue.priorityQueue CellData.distance).le_of_pop hpop b hb
    rwa [(h.wellFormed cell hcell).2.2, (h.wellFormed b hb).2.2] at hle
  have hoffer : Offering g sources level taken cell { q with queue := rest } :=
    ⟨⟨⟨h.maxDistance, h.cachedMaxDistance, h.cachedDistances⟩, h.metric, h.always,
      fun b hb => h.wellFormed b (hmem b hb)⟩, h.waiting.take (hlevel.level hsources) helems hkey⟩
  obtain ⟨hcontains, hindex, -⟩ := h.wellFormed cell hcell
  have hrange : cell.x < g.sizeX ∧ cell.y < g.sizeY := hcontains
  have haddress : cell.index = cell.y * g.sizeX + cell.x := hindex.trans (getIndex_eq hg hcontains)
  have hup : 0 < cell.y → cell.y * g.sizeX = (cell.y - 1) * g.sizeX + g.sizeX := by
    intro hpos
    rw [← Nat.succ_mul, Nat.succ_eq_add_one, Nat.sub_add_cancel hpos]
  have hdown : (cell.y + 1) * g.sizeX = cell.y * g.sizeX + g.sizeX := Nat.succ_mul _ _
  have hat (x y n : ℕ) (hx : x < g.sizeX) (hy : y < g.sizeY) (hn : n = y * g.sizeX + x) : n = g.getIndex x y := by
    rw [hn]
    exact (getIndex_eq hg (v := ⟨x, y⟩) ⟨hx, hy⟩).symm
  -- 左、上、右、下の順に広げる。
  obtain ⟨q₁, h₁, hoffer₁, hseen₁, -⟩ := hoffer.offerNeighbor hg hsources hlevel (cell.x > 0) ⟨cell.x - 1, cell.y⟩
    (fun hP => mem_near.mpr (Or.inl ⟨hP, rfl⟩)) (fun hP => hat (cell.x - 1) cell.y (cell.index - 1) (by omega) hrange.2 (by omega))
  obtain ⟨q₂, h₂, hoffer₂, hseen₂, hmono₂⟩ := hoffer₁.offerNeighbor hg hsources hlevel (cell.y > 0) ⟨cell.x, cell.y - 1⟩
    (fun hP => mem_near.mpr (Or.inr (Or.inl ⟨hP, rfl⟩)))
    (fun hP => hat cell.x (cell.y - 1) (cell.index - g.sizeX) hrange.1 (by omega) (by have := hup hP; omega))
  obtain ⟨q₃, h₃, hoffer₃, hseen₃, hmono₃⟩ := hoffer₂.offerNeighbor hg hsources hlevel (cell.x < g.sizeX - 1)
    ⟨cell.x + 1, cell.y⟩ (fun hP => mem_near.mpr (Or.inr (Or.inr (Or.inl ⟨hP, rfl⟩))))
    (fun hP => hat (cell.x + 1) cell.y (cell.index + 1) (by omega) hrange.2 (by omega))
  obtain ⟨q₄, h₄, hoffer₄, hseen₄, hmono₄⟩ := hoffer₃.offerNeighbor hg hsources hlevel (cell.y < g.sizeY - 1)
    ⟨cell.x, cell.y + 1⟩ (fun hP => mem_near.mpr (Or.inr (Or.inr (Or.inr ⟨hP, rfl⟩))))
    (fun hP => hat cell.x (cell.y + 1) (cell.index + g.sizeX) hrange.1 (by omega) (by omega))
  refine ⟨cell, q₄, ?_, ⟨hoffer₄.toManhattan, hoffer₄.spreading.finish fun v hv => ?_⟩, hcell⟩
  · simp only [CostmapQueue.getNextCell, hpop, Option.bind_eq_bind, Option.bind_some, h₁, h₂, h₃, h₄]
    rfl
  · rcases mem_near.mp hv with ⟨hP, rfl⟩ | ⟨hP, rfl⟩ | ⟨hP, rfl⟩ | ⟨hP, rfl⟩
    · exact hmono₄ _ (hmono₃ _ (hmono₂ _ (hseen₁ hP)))
    · exact hmono₄ _ (hmono₃ _ (hseen₂ hP))
    · exact hmono₄ _ (hseen₃ hP)
    · exact hseen₄ hP

end Take

end Ranger.Dwb
