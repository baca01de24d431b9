import Mathlib.Analysis.SpecialFunctions.Exp
import Mathlib.Data.Finset.Prod
import Ranger.Costmap.Distances
import Ranger.Lib.Trail

/-!
# 膨張の層

`InflationLayer::updateCosts` を定める。障害物から四つの隣へ、最初に届いた障害物を渡しながら広がり、障害物からの距離の費用を書く。
-/

namespace Ranger.Costmap
open Ranger.Lib

/-! ## 費用の地図 -/

def freeSpace : Nat := 0
def inscribedInflatedObstacle : Nat := 253
def lethalObstacle : Nat := 254
def noInformation : Nat := 255

/-- 費用の地図。`unsigned char` の費用を自然数で表す。 -/
structure Costmap2D where
  sizeX : Nat
  sizeY : Nat
  cost : Cell → Nat

def Costmap2D.Contains (g : Costmap2D) (c : Cell) : Prop := c.1 < g.sizeX ∧ c.2 < g.sizeY

instance (g : Costmap2D) (c : Cell) : Decidable (g.Contains c) := inferInstanceAs (Decidable (_ ∧ _))

/-- 更新する窓。上限は含まない。 -/
structure Window where
  minI : Int
  minJ : Int
  maxI : Int
  maxJ : Int

def Window.Contains (w : Window) (c : Cell) : Prop := w.minI ≤ c.1 ∧ w.minJ ≤ c.2 ∧ c.1 < w.maxI ∧ c.2 < w.maxJ

instance (w : Window) (c : Cell) : Decidable (w.Contains c) := inferInstanceAs (Decidable (_ ∧ _))

/-! ## 膨張 -/

/-- 膨張の層の設定と、`computeCaches` の表。表は番号の差の大きさで引く。 -/
structure Inflation where
  enabled : Bool
  inflateUnknown : Bool
  inflateAroundUnknown : Bool
  cellInflationRadius : Nat
  cachedCosts : Nat → Nat → Nat

namespace Inflation

def costLookup (l : Inflation) (c s : Cell) : Nat := l.cachedCosts (axisDistance c.1 s.1) (axisDistance c.2 s.2)

/-- 四つの隣を、待ち行列に加える順に並べる。 -/
def near (g : Costmap2D) (c : Cell) : List Cell :=
  (if 0 < c.1 then [(c.1 - 1, c.2)] else []) ++ (if 0 < c.2 then [(c.1, c.2 - 1)] else []) ++
    (if c.1 + 1 < g.sizeX then [(c.1 + 1, c.2)] else []) ++ (if c.2 + 1 < g.sizeY then [(c.1, c.2 + 1)] else [])

def spread (l : Inflation) (g : Costmap2D) : Spread Cell Cell where
  near := near g
  dist := distanceSq
  radius := l.cellInflationRadius * l.cellInflationRadius
  key := levelAt l.cellInflationRadius
  bins := maxLevel l.cellInflationRadius + 1
  key_lt _ _ h := Nat.lt_succ_of_le (levelAt_le_maxLevel h)
  key_le_iff _ _ _ _ h h' := levelAt_le_iff h h'

def isSource (l : Inflation) (cost : Nat) : Bool :=
  cost == lethalObstacle || (l.inflateAroundUnknown && cost == noInformation)

/-- 窓を `cell_inflation_radius_` だけ広げ、地図に収めた範囲。 -/
def widen (l : Inflation) (g : Costmap2D) (w : Window) : Window where
  minI := max 0 (w.minI - l.cellInflationRadius)
  minJ := max 0 (w.minJ - l.cellInflationRadius)
  maxI := min g.sizeX (w.maxI + l.cellInflationRadius)
  maxJ := min g.sizeY (w.maxJ + l.cellInflationRadius)

/-- 広がりの源。広げた窓の障害物を、走査の順に並べる。 -/
def sources (l : Inflation) (g : Costmap2D) (w : Window) : List (Cell × Cell) :=
  let v := l.widen g w
  (List.range' v.minJ.toNat (v.maxJ.toNat - v.minJ.toNat)).flatMap fun j =>
    ((List.range' v.minI.toNat (v.maxI.toNat - v.minI.toNat)).filter fun i => l.isSource (g.cost (i, j))).map fun i =>
      ((i, j), (i, j))

/-- 訪れた升目に書く費用。窓の外には書かない。 -/
def assign (l : Inflation) (w : Window) (c s : Cell) (oldCost : Nat) : Nat :=
  let cost := l.costLookup c s
  if w.Contains c then
    if oldCost = noInformation ∧ (if l.inflateUnknown then freeSpace < cost else inscribedInflatedObstacle ≤ cost) then cost
    else max oldCost cost
  else oldCost

def work (l : Inflation) (g : Costmap2D) (w : Window) : Nat := (l.sources g w).length + g.sizeX * g.sizeY * 4

def updateCosts (l : Inflation) (g : Costmap2D) (w : Window) : Option Costmap2D :=
  if l.enabled = false ∨ l.cellInflationRadius = 0 then some g
  else
    ((l.spread g).sweep (Spread.markAt (l.assign w)) (l.work g w) (l.spread g).bins
      (Spread.start (l.sources g w) g.cost)).map fun f => { g with cost := f.out }

/-! ## 源と隣 -/

section Lemmas

variable {l : Inflation} {g : Costmap2D} {w : Window} {c s : Cell}

theorem mem_range'_toNat {lo hi : Int} (hlo : 0 ≤ lo) {i : Nat} :
    i ∈ List.range' lo.toNat (hi.toNat - lo.toNat) ↔ lo ≤ i ∧ i < hi := by
  rw [List.mem_range'_1]
  omega

theorem mem_sources {e : Cell × Cell} :
    e ∈ l.sources g w ↔ e.1 = e.2 ∧ (l.widen g w).Contains e.2 ∧ l.isSource (g.cost e.2) = true := by
  have hminI : 0 ≤ (l.widen g w).minI := le_max_left _ _
  have hminJ : 0 ≤ (l.widen g w).minJ := le_max_left _ _
  obtain ⟨c, i, j⟩ := e
  simp only [sources, List.mem_flatMap, List.mem_map, List.mem_filter, mem_range'_toNat hminI, mem_range'_toNat hminJ,
    Prod.mk.injEq, Window.Contains]
  constructor
  · rintro ⟨j', hj, i', ⟨hi, hsource⟩, rfl, rfl, rfl⟩
    exact ⟨rfl, ⟨hi.1, hj.1, hi.2, hj.2⟩, hsource⟩
  · rintro ⟨rfl, ⟨hi, hj, hi', hj'⟩, hsource⟩
    exact ⟨j, ⟨hj, hj'⟩, i, ⟨⟨hi, hi'⟩, hsource⟩, rfl, rfl, rfl⟩

theorem contains_of_mem_sources {e : Cell × Cell} (h : e ∈ l.sources g w) : g.Contains e.2 := by
  obtain ⟨-, ⟨-, -, hi, hj⟩, -⟩ := mem_sources.mp h
  have hi' := hi.trans_le (min_le_left _ _)
  have hj' := hj.trans_le (min_le_left _ _)
  exact ⟨by exact_mod_cast hi', by exact_mod_cast hj'⟩

theorem contains_of_mem_near (hc : g.Contains c) {d : Cell} (h : d ∈ near g c) : g.Contains d := by
  obtain ⟨hx, hy⟩ := hc
  simp only [near, List.mem_append, List.mem_ite_nil_right, List.mem_singleton] at h
  rcases h with ((⟨h, rfl⟩ | ⟨h, rfl⟩) | ⟨h, rfl⟩) | ⟨h, rfl⟩
  · exact ⟨by simp only; omega, hy⟩
  · exact ⟨hx, by simp only; omega⟩
  · exact ⟨h, hy⟩
  · exact ⟨hx, h⟩

/-- 隣へ移ると、障害物からの距離は変わる。 -/
theorem distanceSq_ne_of_mem_near {d : Cell} (h : d ∈ near g c) (s : Cell) : distanceSq d s ≠ distanceSq c s := by
  obtain ⟨x, y⟩ := c
  obtain ⟨sx, sy⟩ := s
  have hpow {a b t : ℕ} (hne : a ≠ b) : a ^ 2 + t ≠ b ^ 2 + t ∧ t + a ^ 2 ≠ t + b ^ 2 := by
    have hsq : a ^ 2 ≠ b ^ 2 := fun heq => hne (Nat.pow_left_injective two_ne_zero heq)
    omega
  have haxis (a b t : ℕ) (hstep : b = a + 1 ∨ a = b + 1) : axisDistance b t ≠ axisDistance a t := by
    unfold axisDistance
    split_ifs <;> omega
  simp only [near, List.mem_append, List.mem_ite_nil_right, List.mem_singleton] at h
  rcases h with ((⟨hlt, rfl⟩ | ⟨hlt, rfl⟩) | ⟨hlt, rfl⟩) | ⟨hlt, rfl⟩
  · exact (hpow (haxis x (x - 1) sx (by omega))).1
  · exact (hpow (haxis y (y - 1) sy (by omega))).2
  · exact (hpow (haxis x (x + 1) sx (by omega))).1
  · exact (hpow (haxis y (y + 1) sy (by omega))).2

theorem length_near_le (c : Cell) : (near g c).length ≤ 4 := by
  simp only [near, List.length_append]
  have hlen : ∀ (p : Prop) [Decidable p] (d : Cell), (if p then [d] else []).length ≤ 1 := by
    intro p _ d
    split_ifs <;> simp
  have h1 := hlen (0 < c.1) (c.1 - 1, c.2)
  have h2 := hlen (0 < c.2) (c.1, c.2 - 1)
  have h3 := hlen (c.1 + 1 < g.sizeX) (c.1 + 1, c.2)
  have h4 := hlen (c.2 + 1 < g.sizeY) (c.1, c.2 + 1)
  omega

/-- 届く升目は地図の中にある。 -/
theorem contains_of_reached {e : Cell × Cell} (h : Spread.Reached (l.spread g) (l.sources g w) e) : g.Contains e.1 := by
  induction h with
  | source h =>
      rw [(mem_sources.mp h).1]
      exact contains_of_mem_sources h
  | next _ hnear _ ih => exact contains_of_mem_near ih hnear

theorem assign_of_not_contains (h : ¬ w.Contains c) (s : Cell) (oldCost : Nat) : l.assign w c s oldCost = oldCost := by
  simp [assign, h]

theorem assign_of_known (hc : w.Contains c) {oldCost : Nat} (h : oldCost ≠ noInformation) (s : Cell) :
    l.assign w c s oldCost = max oldCost (l.costLookup c s) := by
  simp [assign, hc, h]

theorem le_assign {oldCost : Nat} (h : oldCost ≠ noInformation) (c s : Cell) : oldCost ≤ l.assign w c s oldCost := by
  by_cases hc : w.Contains c
  · rw [assign_of_known hc h]
    exact Nat.le_max_left _ _
  · rw [assign_of_not_contains hc]

theorem mem_cells {e : Cell × Cell} (h : Spread.Reached (l.spread g) (l.sources g w) e) :
    e.1 ∈ Finset.range g.sizeX ×ˢ Finset.range g.sizeY := by
  obtain ⟨hx, hy⟩ := contains_of_reached h
  exact Finset.mem_product.mpr ⟨Finset.mem_range.mpr hx, Finset.mem_range.mpr hy⟩

theorem cells_work (l : Inflation) (g : Costmap2D) (w : Window) : (l.sources g w).length +
    ∑ v ∈ Finset.range g.sizeX ×ˢ Finset.range g.sizeY, ((l.spread g).near v).length ≤ l.work g w := by
  have hsum := Finset.sum_le_card_nsmul (Finset.range g.sizeX ×ˢ Finset.range g.sizeY)
    (fun v => ((l.spread g).near v).length) 4 fun v _ => length_near_le v
  rw [Finset.card_product, Finset.card_range, Finset.card_range, smul_eq_mul] at hsum
  exact Nat.add_le_add_left hsum _

/-- 膨張で書き換えた地図。訪れた升目は、半径の中の、受け取った源の費用で書き換えられる。最も近い源が手前から渡される升目は、最も近い
源の費用で書き換えられる。 -/
structure Updated (l : Inflation) (g : Costmap2D) (w : Window) (g' : Costmap2D) : Prop where
  sizeX : g'.sizeX = g.sizeX
  sizeY : g'.sizeY = g.sizeY
  visited : ∀ c, g'.cost c = g.cost c ∨ ∃ s, (s, s) ∈ l.sources g w ∧ (l.spread g).dist c s ≤ (l.spread g).radius ∧
    g'.cost c = l.assign w c s (g.cost c)
  given : ∀ c s, Spread.Given (l.spread g) (l.sources g w) c s → g'.cost c = l.assign w c s (g.cost c)
  kept : ∀ c, (∀ s, ¬ Spread.Given (l.spread g) (l.sources g w) c s) → g'.cost c = g.cost c
  handed : ∀ c, Spread.Handed (l.spread g) (l.sources g w) c →
    ∃ s, Spread.Nearest (l.spread g) (l.sources g w) c s ∧ g'.cost c = l.assign w c s (g.cost c)

theorem source_of_reached {e : Cell × Cell} (h : Spread.Reached (l.spread g) (l.sources g w) e) :
    (e.2, e.2) ∈ l.sources g w := by
  obtain ⟨⟨c, s⟩, he', hsnd⟩ := List.mem_map.mp h.mem_sources
  obtain rfl : c = s := (mem_sources.mp he').1
  rw [← hsnd]
  exact he'

def Active (l : Inflation) : Prop := l.enabled = true ∧ l.cellInflationRadius ≠ 0

theorem updateCosts_of_active (h : l.Active) : ∃ g', l.updateCosts g w = some g' ∧ Updated l g w g' := by
  have hinit : ∀ e ∈ l.sources g w, (l.spread g).dist e.1 e.2 = 0 ∧ (l.spread g).key e.1 e.2 = 0 := by
    intro e he
    obtain ⟨heq, -, -⟩ := mem_sources.mp he
    rw [heq]
    exact ⟨distanceSq_eq_zero.mpr rfl, levelAt_self _ e.2⟩
  have hdist : ∀ e ∈ l.sources g w, (l.spread g).dist e.1 e.2 = 0 := fun e he => (hinit e he).1
  obtain ⟨log, f, hsweep, hnodup, hout, hreached, hdue⟩ :=
    Spread.sweep_spec (Spread.markAt (l.assign w)) g.cost hinit (fun _ => mem_cells) (cells_work l g w)
  obtain ⟨log', hout', hnodup', hgiven⟩ := Spread.sweep_given (Spread.markAt (l.assign w)) g.cost hinit
    (fun _ _ hnear s => distanceSq_ne_of_mem_near hnear s) hsweep
  refine ⟨{ g with cost := f.out }, ?_, rfl, rfl, fun c => ?_, fun c s hc => ?_, fun c hc => ?_, fun c hc => ?_⟩
  · rw [updateCosts, if_neg (by simp [h.1, h.2]), hsweep, Option.map_some]
  · by_cases hc : c ∈ log.map Prod.fst
    · obtain ⟨⟨d, s⟩, hs, hd⟩ := List.mem_map.mp hc
      obtain rfl : d = c := hd
      refine Or.inr ⟨s, source_of_reached (hreached _ hs), (hreached _ hs).dist_le hdist, ?_⟩
      exact (congrFun hout d).trans (Spread.foldl_markAt (l.assign w) g.cost hnodup hs)
    · exact Or.inl ((congrFun hout c).trans (Spread.foldl_markAt_of_not_mem (l.assign w) g.cost hc))
  · exact (congrFun hout' c).trans (Spread.foldl_markAt (l.assign w) g.cost hnodup' ((hgiven c s).mpr hc))
  · refine (congrFun hout' c).trans (Spread.foldl_markAt_of_not_mem (l.assign w) g.cost fun hmem => ?_)
    obtain ⟨⟨d, s⟩, hs, rfl⟩ := List.mem_map.mp hmem
    exact hc s ((hgiven d s).mp hs)
  · obtain ⟨s, hs, hnearest⟩ := hc.visited hdist hreached hdue
    exact ⟨s, hnearest, (congrFun hout c).trans (Spread.foldl_markAt (l.assign w) g.cost hnodup hs)⟩

/-- 更新は終わる。膨張しない層は、地図を変えない。 -/
theorem updateCosts_cases (l : Inflation) (g : Costmap2D) (w : Window) :
    ∃ g', l.updateCosts g w = some g' ∧ (l.Active ∧ Updated l g w g' ∨ ¬ l.Active ∧ g' = g) := by
  by_cases h : l.Active
  · obtain ⟨g', hg', hupdated⟩ := updateCosts_of_active (g := g) (w := w) h
    exact ⟨g', hg', Or.inl ⟨h, hupdated⟩⟩
  · refine ⟨g, ?_, Or.inr ⟨h, rfl⟩⟩
    rw [Active, not_and_or, not_not, Bool.not_eq_true] at h
    rw [updateCosts, if_pos h]

theorem Updated.outside {g' : Costmap2D} (h : Updated l g w g') (hc : ¬ w.Contains c) : g'.cost c = g.cost c := by
  obtain heq | ⟨s, -, -, heq⟩ := h.visited c
  · exact heq
  · exact heq.trans (assign_of_not_contains hc s _)

theorem Updated.le {g' : Costmap2D} (h : Updated l g w g') (hknown : g.cost c ≠ noInformation) :
    g.cost c ≤ g'.cost c := by
  obtain heq | ⟨s, -, -, heq⟩ := h.visited c
  · exact heq.ge
  · exact (le_assign hknown c s).trans heq.ge

/-- 半径の中にある窓の升目の障害物は、源である。 -/
theorem mem_sources_of_distanceSq (hc : w.Contains c) (hs : g.Contains s) (hsource : l.isSource (g.cost s) = true)
    (hdist : distanceSq c s ≤ l.cellInflationRadius * l.cellInflationRadius) : (s, s) ∈ l.sources g w := by
  obtain ⟨hx, hy⟩ := axisDistance_le_of_distanceSq hdist
  obtain ⟨hminI, hminJ, hmaxI, hmaxJ⟩ := hc
  obtain ⟨hsx, hsy⟩ := hs
  refine mem_sources.mpr ⟨rfl, ?_, hsource⟩
  unfold axisDistance at hx hy
  simp only [Window.Contains, widen]
  split_ifs at hx hy <;> omega

end Lemmas

end Inflation

end Ranger.Costmap
