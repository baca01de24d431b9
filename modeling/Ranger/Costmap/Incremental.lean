import Ranger.Costmap.Layered

/-!
# 窓だけの更新と全体の更新

`updateMap` が窓だけを更新した地図が、全体を更新した地図と一致することを調べる。膨張は升目の数で測った半径まで届くが、窓は元の半径を
世界の座標で広げるので、半径が升目の大きさの倍数でないとき、変わった升目の周りの升目が窓から外れる。
-/

namespace Ranger.Costmap
open Ranger.Lib

/-! ## 二つの膨張の比較 -/

namespace Inflation

variable {l : Inflation} {g g₁ g₂ g₁' g₂' : Costmap2D} {w w₁ w₂ : Window} {c s : Cell}

theorem whole_contains : (whole g).Contains c ↔ g.Contains c := by
  simp only [whole, Window.Contains, Costmap2D.Contains]
  omega

theorem mem_sources_whole : (s, s) ∈ l.sources g (whole g) ↔ g.Contains s ∧ l.isSource (g.cost s) = true := by
  have hwiden : (l.widen g (whole g)).Contains s ↔ g.Contains s := by
    simp only [widen, whole, Window.Contains, Costmap2D.Contains]
    omega
  rw [mem_sources, hwiden]
  simp

theorem sources_dist {e : Cell × Cell} (h : e ∈ l.sources g w) : (l.spread g).dist e.1 e.2 = 0 := by
  rw [(mem_sources.mp h).1]
  exact distanceSq_eq_zero.mpr rfl

/-- 源の印が合っていれば、最も近い源は、他方の源より遠くない。 -/
theorem distanceSq_nearest_le (hw : w₁.Contains c) (hsize : ∀ s, g₂.Contains s → g₁.Contains s)
    (hsource : ∀ s, g₂.Contains s → distanceSq c s ≤ l.cellInflationRadius * l.cellInflationRadius →
      l.isSource (g₂.cost s) = true → l.isSource (g₁.cost s) = true)
    {s₁ s₂ : Cell} (h₁ : Spread.Nearest (l.spread g₁) (l.sources g₁ w₁) c s₁) (h₂ : (s₂, s₂) ∈ l.sources g₂ w₂)
    (hdist : distanceSq c s₂ ≤ l.cellInflationRadius * l.cellInflationRadius) : distanceSq c s₁ ≤ distanceSq c s₂ := by
  have hcontains : g₂.Contains s₂ := contains_of_mem_sources h₂
  obtain ⟨-, -, hs₂⟩ := mem_sources.mp h₂
  have hmem := mem_sources_of_distanceSq hw (hsize s₂ hcontains) (hsource s₂ hcontains hdist hs₂) hdist
  exact h₁.2 s₂ (List.mem_map_of_mem hmem)

/-- 元の費用と、半径の中の源が合っている升目は、どちらの窓でも同じ費用に書き換えられる。 -/
theorem Updated.cost_eq (hcost : ∀ c s s', distanceSq c s = distanceSq c s' → l.costLookup c s = l.costLookup c s')
    (h₁ : Updated l g₁ w₁ g₁') (h₂ : Updated l g₂ w₂ g₂') (hw₁ : w₁.Contains c) (hw₂ : w₂.Contains c)
    (hold : g₁.cost c = g₂.cost c) (hsize : ∀ s, g₁.Contains s ↔ g₂.Contains s)
    (hsource : ∀ s, g₁.Contains s → distanceSq c s ≤ l.cellInflationRadius * l.cellInflationRadius →
      l.isSource (g₁.cost s) = l.isSource (g₂.cost s))
    (hhanded : ∀ s, g₁.Contains s → l.isSource (g₁.cost s) = true →
      distanceSq c s ≤ l.cellInflationRadius * l.cellInflationRadius →
      Spread.Handed (l.spread g₁) (l.sources g₁ w₁) c ∧ Spread.Handed (l.spread g₂) (l.sources g₂ w₂) c) :
    g₁'.cost c = g₂'.cost c := by
  by_cases hnear : ∃ s, g₁.Contains s ∧ l.isSource (g₁.cost s) = true ∧
      distanceSq c s ≤ l.cellInflationRadius * l.cellInflationRadius
  · obtain ⟨s, hs, hsrc, hdist⟩ := hnear
    obtain ⟨hhanded₁, hhanded₂⟩ := hhanded s hs hsrc hdist
    obtain ⟨s₁, hs₁, heq₁⟩ := h₁.handed c hhanded₁
    obtain ⟨s₂, hs₂, heq₂⟩ := h₂.handed c hhanded₂
    -- 最も近い源は、どちらも半径の中にある。
    have hback : ∀ s, g₂.Contains s → distanceSq c s ≤ l.cellInflationRadius * l.cellInflationRadius →
        l.isSource (g₂.cost s) = true → l.isSource (g₁.cost s) = true := fun s hs hd hsrc =>
      (hsource s ((hsize s).mpr hs) hd).trans hsrc
    have hforth : ∀ s, g₁.Contains s → distanceSq c s ≤ l.cellInflationRadius * l.cellInflationRadius →
        l.isSource (g₁.cost s) = true → l.isSource (g₂.cost s) = true := fun s hs hd hsrc =>
      (hsource s hs hd).symm.trans hsrc
    have hself₁ : (s, s) ∈ l.sources g₁ w₁ := mem_sources_of_distanceSq hw₁ hs hsrc hdist
    have hself₂ : (s, s) ∈ l.sources g₂ w₂ :=
      mem_sources_of_distanceSq hw₂ ((hsize s).mp hs) (hforth s hs hdist hsrc) hdist
    have hdist₁ := (hs₁.2 s (List.mem_map_of_mem hself₁)).trans hdist
    have hdist₂ := (hs₂.2 s (List.mem_map_of_mem hself₂)).trans hdist
    obtain ⟨⟨a, s₁'⟩, ha, rfl⟩ := List.mem_map.mp hs₁.1
    obtain ⟨⟨b, s₂'⟩, hb, rfl⟩ := List.mem_map.mp hs₂.1
    obtain rfl : a = s₁' := (mem_sources.mp ha).1
    obtain rfl : b = s₂' := (mem_sources.mp hb).1
    have hle := distanceSq_nearest_le hw₁ (fun s => (hsize s).mpr) hback hs₁ hb hdist₂
    have hge := distanceSq_nearest_le hw₂ (fun s => (hsize s).mp) hforth hs₂ ha hdist₁
    rw [heq₁, heq₂, hold]
    simp only [assign, hw₁, hw₂, hcost c a b (Nat.le_antisymm hle hge)]
  · have hnone₁ : ∀ s, (s, s) ∈ l.sources g₁ w₁ → ¬ (l.spread g₁).dist c s ≤ (l.spread g₁).radius := fun s hs hd =>
      hnear ⟨s, contains_of_mem_sources hs, (mem_sources.mp hs).2.2, hd⟩
    have hnone₂ : ∀ s, (s, s) ∈ l.sources g₂ w₂ → ¬ (l.spread g₂).dist c s ≤ (l.spread g₂).radius := fun s hs hd => by
      have hs₁ := (hsize s).mpr (contains_of_mem_sources hs)
      exact hnear ⟨s, hs₁, (hsource s hs₁ hd).trans (mem_sources.mp hs).2.2, hd⟩
    obtain heq₁ | ⟨s, hs, hd, -⟩ := h₁.visited c
    · obtain heq₂ | ⟨s, hs, hd, -⟩ := h₂.visited c
      · rw [heq₁, heq₂, hold]
      · exact absurd hd (hnone₂ s hs)
    · exact absurd hd (hnone₁ s hs)

theorem isSource_lethal (l : Inflation) : l.isSource lethalObstacle = true := by
  simp [isSource]

theorem isSource_of_le {cost : Nat} (h : cost ≤ inscribedInflatedObstacle) : l.isSource cost = false := by
  have hlethal : cost ≠ lethalObstacle := by
    unfold inscribedInflatedObstacle lethalObstacle at *
    omega
  have hunknown : cost ≠ noInformation := by
    unfold inscribedInflatedObstacle noInformation at *
    omega
  simp [isSource, hlethal, hunknown]

/-- 源である升目は、自身の費用で書き換えられ、源のままである。 -/
theorem assign_self (hself : l.costLookup c c = lethalObstacle) (hsource : l.isSource (g.cost c) = true)
    (hw : w.Contains c) : l.assign w c c (g.cost c) = lethalObstacle := by
  rcases eq_or_ne (g.cost c) noInformation with hunknown | hknown
  · have hwrite : if l.inflateUnknown then freeSpace < lethalObstacle else inscribedInflatedObstacle ≤ lethalObstacle := by
      split_ifs <;> decide
    simp only [assign, hw, hself, hunknown, if_true, true_and]
    rw [if_pos hwrite]
  · have hlethal : g.cost c = lethalObstacle := by
      simpa [isSource, hknown] using hsource
    rw [assign_of_known hw hknown, hself, hlethal, Nat.max_self]

/-- 源でない升目の費用は、元の費用か、書き換えた費用である。 -/
theorem assign_eq_or (l : Inflation) (w : Window) (c s : Cell) (oldCost : Nat) :
    l.assign w c s oldCost = oldCost ∨ l.assign w c s oldCost = l.costLookup c s := by
  by_cases hw : w.Contains c
  · simp only [assign, hw, if_true]
    by_cases hwrite : oldCost = noInformation ∧
        (if l.inflateUnknown then freeSpace < l.costLookup c s else inscribedInflatedObstacle ≤ l.costLookup c s)
    · rw [if_pos hwrite]
      exact Or.inr rfl
    · rw [if_neg hwrite]
      exact max_choice oldCost (l.costLookup c s)
  · exact Or.inl (assign_of_not_contains hw s oldCost)

/-- 膨張は、源の印を変えない。 -/
theorem Updated.isSource_eq (hself : ∀ c, l.costLookup c c = lethalObstacle)
    (hother : ∀ c s, c ≠ s → l.costLookup c s ≤ inscribedInflatedObstacle) (h : Updated l g w g₁') (hc : g.Contains c) :
    l.isSource (g₁'.cost c) = l.isSource (g.cost c) := by
  by_cases hw : w.Contains c
  · cases hsource : l.isSource (g.cost c) with
    | true =>
        have hmem : (c, c) ∈ l.sources g w :=
          mem_sources_of_distanceSq hw hc hsource ((distanceSq_eq_zero.mpr rfl).le.trans (Nat.zero_le _))
        obtain ⟨s, hs, heq⟩ := h.handed c (.source hmem)
        have hle : distanceSq c s ≤ distanceSq c c := hs.2 c (List.mem_map_of_mem hmem)
        rw [distanceSq_eq_zero.mpr rfl, Nat.le_zero] at hle
        obtain rfl := distanceSq_eq_zero.mp hle
        rw [heq, assign_self (hself c) hsource hw, isSource_lethal]
    | false =>
        obtain heq | ⟨s, hs, -, heq⟩ := h.visited c
        · rw [heq, hsource]
        · have hne : c ≠ s := by
            rintro rfl
            rw [(mem_sources.mp hs).2.2] at hsource
            cases hsource
          obtain hassign | hassign := l.assign_eq_or w c s (g.cost c)
          · rw [heq, hassign, hsource]
          · rw [heq, hassign, isSource_of_le (hother c s hne)]
  · rw [h.outside hw]

end Inflation

/-! ## 膨張の費用 -/

namespace InflationLayer

variable {l : InflationLayer}

theorem costLookup_congr (c s s' : Cell) (h : distanceSq c s = distanceSq c s') :
    l.computeCaches.costLookup c s = l.computeCaches.costLookup c s' := by
  have heq : distance c s = distance c s' := by rw [distance_eq, distance_eq, h]
  exact congrArg l.computeCost heq

theorem costLookup_self (c : Cell) : l.computeCaches.costLookup c c = lethalObstacle := by
  have hzero : distance c c = 0 := by rw [distance_eq, distanceSq_eq_zero.mpr rfl, Nat.cast_zero, Real.sqrt_zero]
  have hcost : l.computeCaches.costLookup c c = l.computeCost (distance c c) := rfl
  rw [hcost, hzero, computeCost_eq, if_pos rfl]

theorem costLookup_other (hscale : 0 ≤ l.costScalingFactor) (c s : Cell) (h : c ≠ s) :
    l.computeCaches.costLookup c s ≤ inscribedInflatedObstacle := by
  have hne : distance c s ≠ 0 := by
    rw [distance_eq, Real.sqrt_ne_zero (Nat.cast_nonneg _), Nat.cast_ne_zero]
    exact fun hzero => h (distanceSq_eq_zero.mp hzero)
  have hcost : l.computeCaches.costLookup c s = l.computeCost (distance c s) := rfl
  rw [hcost, computeCost_eq, if_neg hne]
  split_ifs with hins
  · exact Nat.le_refl _
  · exact (decay_lt hscale (not_le.mp hins).le).le

end InflationLayer

/-! ## 障害物の層を重ねた地図 -/

/-- 窓の中の升目の、膨張の前の費用。 -/
def merged (p : Setup) (layer : Cell → Nat) (c : Cell) : Nat :=
  if p.obstacleEnabled then mergeMax p.defaultValue (layer c) else p.defaultValue

def mergedMap (p : Setup) (g : Costmap2D) (layer : Cell → Nat) : Costmap2D := { g with cost := merged p layer }

/-- 半径の中に源がある升目には、最も近い源が、どれも手前の升目から渡されて届く。 -/
def Settled (p : Setup) (g : Costmap2D) (layer : Cell → Nat) : Prop :=
  p.inflation.computeCaches.Active → ∀ c s, g.Contains c → g.Contains s →
    p.inflation.computeCaches.isSource (merged p layer s) = true →
    distanceSq c s ≤ p.inflation.computeCaches.cellInflationRadius * p.inflation.computeCaches.cellInflationRadius →
    Spread.Handed (p.inflation.computeCaches.spread (mergedMap p g layer))
      (p.inflation.computeCaches.sources (mergedMap p g layer) (whole g)) c

section Merge

variable {p : Setup} {g g₁ g₂ g₁' g₂' : Costmap2D} {layer layer₁ layer₂ : Cell → Nat} {w w₁ w₂ : Window} {c : Cell}

theorem mergeLayers_cost (p : Setup) (g : Costmap2D) (layer : Cell → Nat) (w : Window) (c : Cell) :
    (mergeLayers p g layer w).cost c = if w.Contains c then merged p layer c else g.cost c := by
  by_cases hw : w.Contains c <;> cases h : p.obstacleEnabled <;>
    simp [mergeLayers, updateWithMax, resetMap, merged, hw, h]

theorem mergeLayers_size (p : Setup) (g : Costmap2D) (layer : Cell → Nat) (w : Window) :
    (mergeLayers p g layer w).sizeX = g.sizeX ∧ (mergeLayers p g layer w).sizeY = g.sizeY := by
  cases h : p.obstacleEnabled <;> simp [mergeLayers, updateWithMax, resetMap, h]

theorem mergeLayers_contains : (mergeLayers p g layer w).Contains c ↔ g.Contains c := by
  obtain ⟨hx, hy⟩ := mergeLayers_size p g layer w
  rw [Costmap2D.Contains, hx, hy, Costmap2D.Contains]

/-- 源の印が、重ねた層の源と合っている。 -/
def SourcesMatch (p : Setup) (g : Costmap2D) (layer : Cell → Nat) (w : Window) : Prop :=
  ∀ s, g.Contains s → p.inflation.computeCaches.isSource ((mergeLayers p g layer w).cost s) =
    p.inflation.computeCaches.isSource (merged p layer s)

theorem sourcesMatch_whole : SourcesMatch p g layer (whole g) := by
  intro s hs
  rw [mergeLayers_cost, if_pos (Inflation.whole_contains.mpr hs)]

/-- 源の印が合っている窓の升目には、全体の地図で届く源が届く。 -/
theorem Settled.handed (hsettled : Settled p g layer) (hactive : p.inflation.computeCaches.Active)
    (hsize : g₁.sizeX = g.sizeX ∧ g₁.sizeY = g.sizeY) (hmatch : SourcesMatch p g₁ layer w) (hw : w.Contains c)
    (hc : g.Contains c) {s : Cell} (hs : g.Contains s)
    (hsource : p.inflation.computeCaches.isSource (merged p layer s) = true)
    (hdist : distanceSq c s ≤ p.inflation.computeCaches.cellInflationRadius * p.inflation.computeCaches.cellInflationRadius) :
    Spread.Handed (p.inflation.computeCaches.spread (mergeLayers p g₁ layer w))
      (p.inflation.computeCaches.sources (mergeLayers p g₁ layer w) w) c := by
  obtain ⟨hx, hy⟩ := mergeLayers_size p g₁ layer w
  have hspread : p.inflation.computeCaches.spread (mergeLayers p g₁ layer w) =
      p.inflation.computeCaches.spread (mergedMap p g layer) := by
    unfold Inflation.spread Inflation.near
    rw [hx, hy, hsize.1, hsize.2]
    rfl
  have hcontains : ∀ d, g₁.Contains d ↔ g.Contains d := fun d => by
    rw [Costmap2D.Contains, hsize.1, hsize.2, Costmap2D.Contains]
  have hall : (s, s) ∈ p.inflation.computeCaches.sources (mergedMap p g layer) (whole g) :=
    Inflation.mem_sources_whole.mpr ⟨hs, hsource⟩
  rw [hspread]
  refine (hsettled hactive c s hc hs hsource hdist).of_subset (fun e he => Inflation.sources_dist he) ?_ ?_
  · rintro ⟨d, d'⟩ he
    obtain ⟨heq, -, hsrc⟩ := Inflation.mem_sources.mp he
    obtain rfl : d = d' := heq
    have hd := mergeLayers_contains.mp (Inflation.contains_of_mem_sources he)
    exact Inflation.mem_sources_whole.mpr ⟨(hcontains d).mp hd, (hmatch d hd).symm.trans hsrc⟩
  · rintro ⟨d, d'⟩ he hnearest
    obtain rfl : d = d' := (Inflation.mem_sources.mp he).1
    obtain ⟨hd, hsrc⟩ := Inflation.mem_sources_whole.mp he
    have hd₁ : g₁.Contains d := (hcontains d).mpr hd
    refine Inflation.mem_sources_of_distanceSq hw (mergeLayers_contains.mpr hd₁) ((hmatch d hd₁).trans hsrc) ?_
    exact (hnearest.2 s (List.mem_map_of_mem hall)).trans hdist

/-- 更新した窓の升目の費用は、升目の周りの層が同じであれば、窓と元の地図によらない。 -/
theorem updateWindow_cost_eq (hsettled₁ : Settled p g layer₁) (hsettled₂ : Settled p g layer₂)
    (hsize₁ : g₁.sizeX = g.sizeX ∧ g₁.sizeY = g.sizeY) (hsize₂ : g₂.sizeX = g.sizeX ∧ g₂.sizeY = g.sizeY)
    (hmatch₁ : SourcesMatch p g₁ layer₁ w₁) (hmatch₂ : SourcesMatch p g₂ layer₂ w₂) (hw₁ : w₁.Contains c)
    (hw₂ : w₂.Contains c) (hc : g.Contains c)
    (hlayer : ∀ s, g.Contains s →
      distanceSq c s ≤ p.inflation.computeCaches.cellInflationRadius * p.inflation.computeCaches.cellInflationRadius →
      layer₁ s = layer₂ s)
    (h₁ : updateWindow p g₁ layer₁ w₁ = some g₁') (h₂ : updateWindow p g₂ layer₂ w₂ = some g₂') :
    g₁'.cost c = g₂'.cost c := by
  have hcontains₁ : ∀ d, (mergeLayers p g₁ layer₁ w₁).Contains d ↔ g.Contains d := fun d => by
    rw [mergeLayers_contains, Costmap2D.Contains, hsize₁.1, hsize₁.2, Costmap2D.Contains]
  have hcontains₂ : ∀ d, (mergeLayers p g₂ layer₂ w₂).Contains d ↔ g.Contains d := fun d => by
    rw [mergeLayers_contains, Costmap2D.Contains, hsize₂.1, hsize₂.2, Costmap2D.Contains]
  have hself : layer₁ c = layer₂ c := hlayer c hc ((distanceSq_eq_zero.mpr rfl).le.trans (Nat.zero_le _))
  have hold : (mergeLayers p g₁ layer₁ w₁).cost c = (mergeLayers p g₂ layer₂ w₂).cost c := by
    rw [mergeLayers_cost, mergeLayers_cost, if_pos hw₁, if_pos hw₂, merged, merged, hself]
  have hsource₁ : ∀ s, g.Contains s → p.inflation.computeCaches.isSource ((mergeLayers p g₁ layer₁ w₁).cost s) =
      p.inflation.computeCaches.isSource (merged p layer₁ s) := fun s hs =>
    hmatch₁ s (mergeLayers_contains.mp ((hcontains₁ s).mpr hs))
  have hsource₂ : ∀ s, g.Contains s → p.inflation.computeCaches.isSource ((mergeLayers p g₂ layer₂ w₂).cost s) =
      p.inflation.computeCaches.isSource (merged p layer₂ s) := fun s hs =>
    hmatch₂ s (mergeLayers_contains.mp ((hcontains₂ s).mpr hs))
  obtain ⟨m₁, hm₁, hcase₁⟩ := p.inflation.computeCaches.updateCosts_cases (mergeLayers p g₁ layer₁ w₁) w₁
  obtain ⟨m₂, hm₂, hcase₂⟩ := p.inflation.computeCaches.updateCosts_cases (mergeLayers p g₂ layer₂ w₂) w₂
  cases hm₁.symm.trans h₁
  cases hm₂.symm.trans h₂
  rcases hcase₁ with ⟨hactive, hupdated₁⟩ | ⟨hskip, rfl⟩
  · obtain ⟨-, hupdated₂⟩ := hcase₂.resolve_right fun h => h.1 hactive
    refine hupdated₁.cost_eq InflationLayer.costLookup_congr hupdated₂ hw₁ hw₂ hold
      (fun d => (hcontains₁ d).trans (hcontains₂ d).symm) (fun s hs hdist => ?_) fun s hs hsrc hdist => ?_
    · have hgs := (hcontains₁ s).mp hs
      rw [hsource₁ s hgs, hsource₂ s hgs, merged, merged, hlayer s hgs hdist]
    · have hgs := (hcontains₁ s).mp hs
      rw [hsource₁ s hgs] at hsrc
      have hsrc₂ : p.inflation.computeCaches.isSource (merged p layer₂ s) = true := by
        rw [merged, ← hlayer s hgs hdist]
        exact hsrc
      exact ⟨hsettled₁.handed hactive hsize₁ hmatch₁ hw₁ hc hgs hsrc hdist,
        hsettled₂.handed hactive hsize₂ hmatch₂ hw₂ hc hgs hsrc₂ hdist⟩
  · obtain ⟨-, rfl⟩ := hcase₂.resolve_left fun h => hskip h.1
    exact hold

theorem Settled.of_size (hsize : g₁.sizeX = g.sizeX ∧ g₁.sizeY = g.sizeY) (h : Settled p g layer) :
    Settled p g₁ layer := by
  obtain ⟨x, y, cost⟩ := g
  obtain ⟨x₁, y₁, cost₁⟩ := g₁
  obtain ⟨rfl, rfl⟩ := hsize
  exact h

/-- 窓の更新は終わり、窓の外を変えない。膨張は、源の印を変えない。 -/
theorem updateWindow_total (hscale : 0 ≤ p.inflation.costScalingFactor) (g : Costmap2D) (layer : Cell → Nat) (w : Window) :
    ∃ g', updateWindow p g layer w = some g' ∧ (g'.sizeX = g.sizeX ∧ g'.sizeY = g.sizeY) ∧
      (∀ c, ¬ w.Contains c → g'.cost c = g.cost c) ∧
      ∀ c, g.Contains c → p.inflation.computeCaches.isSource (g'.cost c) =
        p.inflation.computeCaches.isSource ((mergeLayers p g layer w).cost c) := by
  obtain ⟨hx, hy⟩ := mergeLayers_size p g layer w
  have hout : ∀ c, ¬ w.Contains c → (mergeLayers p g layer w).cost c = g.cost c := fun c hc => by
    rw [mergeLayers_cost, if_neg hc]
  obtain ⟨g', hg', ⟨-, hupdated⟩ | ⟨-, rfl⟩⟩ := p.inflation.computeCaches.updateCosts_cases (mergeLayers p g layer w) w
  · refine ⟨g', hg', ⟨hupdated.sizeX.trans hx, hupdated.sizeY.trans hy⟩, fun c hc => ?_, fun c hc => ?_⟩
    · rw [hupdated.outside hc, hout c hc]
    · exact hupdated.isSource_eq InflationLayer.costLookup_self (InflationLayer.costLookup_other hscale)
        (mergeLayers_contains.mpr hc)
  · exact ⟨_, hg', ⟨hx, hy⟩, hout, fun c _ => rfl⟩

end Merge

/-! ## 呼び出しの列 -/

/-- 地図は、全体を更新した地図と一致する。 -/
def Consistent (p : Setup) (s : Layered) : Prop :=
  ∃ g, fullMap p s.combined s.obstacle = some g ∧ ∀ c, s.combined.Contains c → s.combined.cost c = g.cost c

/-- 次の呼び出しは、全体を更新する。 -/
def Fresh (s : Layered) : Prop := s.needReinflation = true ∨ s.last = Bounds.everything

/-- 変わった升目から膨張の半径の中にある升目は、更新する窓に入る。 -/
def Covers (p : Setup) (s : Layered) (call : Call) : Prop :=
  ∀ c d, s.combined.Contains c → s.combined.Contains d → call.obstacle c ≠ s.obstacle c →
    distanceSq d c ≤ p.inflation.computeCaches.cellInflationRadius * p.inflation.computeCaches.cellInflationRadius →
    (callWindow p s call).Contains d

def Orderly (p : Setup) (s : Layered) (call : Call) (_ : Layered) : Prop :=
  Covers p s call ∧ Settled p s.combined call.obstacle

def Inv (p : Setup) (s : Layered) : Prop :=
  Fresh s ∨ (Consistent p s ∧ Settled p s.combined s.obstacle)

section Runs

variable {p : Setup} {s t : Layered} {call : Call} {c : Cell}

theorem worldToMapEnforceBounds_bot (resolution origin : ℝ) (size : Nat) :
    worldToMapEnforceBounds resolution origin size ⊥ = 0 := by
  rw [worldToMapEnforceBounds, if_pos (EReal.bot_lt_coe origin)]

theorem worldToMapEnforceBounds_top (resolution origin : ℝ) (size : Nat) :
    worldToMapEnforceBounds resolution origin size ⊤ = size - 1 := by
  rw [worldToMapEnforceBounds, if_neg not_top_lt, if_pos (EReal.coe_lt_top _)]

theorem inflateBounds_of_fresh (h : Fresh s) (b : Bounds) : inflateBounds p s b = Bounds.everything := by
  unfold inflateBounds
  split_ifs with hneed
  · rfl
  · rw [h.resolve_left hneed, Bounds.everything]
    simp [EReal.bot_sub]

theorem callWindow_of_fresh (h : Fresh s) (call : Call) (hc : s.combined.Contains c) :
    (callWindow p s call).Contains c := by
  obtain ⟨hx, hy⟩ := hc
  rw [callWindow, inflateBounds_of_fresh h]
  simp only [windowOf, Bounds.everything, worldToMapEnforceBounds_bot, worldToMapEnforceBounds_top, Window.Contains]
  omega

/-- 一回の呼び出しの結果。窓が空であれば、地図は変わらない。 -/
theorem updateMap_cases (h : updateMap p s call = some t) :
    t.obstacle = call.obstacle ∧
      ((t.combined = s.combined ∧ ∀ c, ¬ (callWindow p s call).Contains c) ∨
        updateWindow p s.combined call.obstacle (callWindow p s call) = some t.combined) := by
  unfold updateMap at h
  dsimp only at h
  split_ifs at h with hempty
  · cases h
    refine ⟨rfl, Or.inl ⟨rfl, fun c hc => ?_⟩⟩
    obtain ⟨hminI, hminJ, hmaxI, hmaxJ⟩ := hc
    omega
  · obtain ⟨g, hg, rfl⟩ := Option.map_eq_some_iff.mp h
    exact ⟨rfl, Or.inr hg⟩

theorem updateMap_total (hscale : 0 ≤ p.inflation.costScalingFactor) (s : Layered) (call : Call) :
    ∃ t, updateMap p s call = some t := by
  unfold updateMap
  dsimp only
  split_ifs
  · exact ⟨_, rfl⟩
  · obtain ⟨g, hg, -⟩ := updateWindow_total hscale s.combined call.obstacle (callWindow p s call)
    exact ⟨_, by rw [hg, Option.map_some]⟩

/-- 呼び出しは、地図の大きさと、窓の外を変えない。 -/
theorem updateMap_outside (hscale : 0 ≤ p.inflation.costScalingFactor) (h : updateMap p s call = some t) :
    (t.combined.sizeX = s.combined.sizeX ∧ t.combined.sizeY = s.combined.sizeY) ∧
      ∀ c, ¬ (callWindow p s call).Contains c → t.combined.cost c = s.combined.cost c := by
  obtain ⟨-, ⟨heq, -⟩ | hwindow⟩ := updateMap_cases h
  · rw [heq]
    exact ⟨⟨rfl, rfl⟩, fun _ _ => rfl⟩
  · obtain ⟨g, hg, hsize, hout, -⟩ := updateWindow_total hscale s.combined call.obstacle (callWindow p s call)
    cases hg.symm.trans hwindow
    exact ⟨hsize, hout⟩

/-- 変わった升目は窓に入る。 -/
theorem Covers.unchanged (h : Covers p s call) (hc : s.combined.Contains c) (hw : ¬ (callWindow p s call).Contains c)
    {d : Cell} (hd : s.combined.Contains d)
    (hdist : distanceSq c d ≤ p.inflation.computeCaches.cellInflationRadius * p.inflation.computeCaches.cellInflationRadius) :
    s.obstacle d = call.obstacle d := by
  by_contra hne
  exact hw (h d c hd hc (fun heq => hne heq.symm) hdist)

/-- 窓の外に残った費用は、今の層の源の印を持つ。 -/
theorem Inv.sourcesMatch (hscale : 0 ≤ p.inflation.costScalingFactor) (hinv : Inv p s) (hcovers : Covers p s call) :
    SourcesMatch p s.combined call.obstacle (callWindow p s call) := by
  intro d hd
  rw [mergeLayers_cost]
  split_ifs with hw
  · rfl
  · obtain ⟨⟨g, hg, hcost⟩, -⟩ := hinv.resolve_left fun hfresh => hw (callWindow_of_fresh hfresh call hd)
    obtain ⟨g', hg', -, -, hsource⟩ := updateWindow_total hscale s.combined s.obstacle (whole s.combined)
    cases hg'.symm.trans hg
    have hsame := hcovers.unchanged hd hw hd ((distanceSq_eq_zero.mpr rfl).le.trans (Nat.zero_le _))
    rw [hcost d hd, hsource d hd, sourcesMatch_whole d hd, merged, merged, hsame]

theorem consistent_step (hscale : 0 ≤ p.inflation.costScalingFactor) (hinv : Inv p s) (h : updateMap p s call = some t)
    (horderly : Orderly p s call t) : Consistent p t := by
  obtain ⟨hcovers, hsettled⟩ := horderly
  obtain ⟨hobstacle, hcases⟩ := updateMap_cases h
  obtain ⟨hsize, hout⟩ := updateMap_outside hscale h
  obtain ⟨g, hg, -⟩ := updateWindow_total hscale t.combined call.obstacle (whole t.combined)
  refine ⟨g, by rw [hobstacle]; exact hg, fun c hc => ?_⟩
  have hcs : s.combined.Contains c := by
    rw [Costmap2D.Contains, ← hsize.1, ← hsize.2]
    exact hc
  have hwhole : (whole t.combined).Contains c := Inflation.whole_contains.mpr hc
  by_cases hw : (callWindow p s call).Contains c
  · have hwindow := hcases.resolve_left fun hempty => hempty.2 c hw
    exact updateWindow_cost_eq hsettled hsettled ⟨rfl, rfl⟩ hsize (hinv.sourcesMatch hscale hcovers) sourcesMatch_whole hw
      hwhole hcs (fun _ _ _ => rfl) hwindow hg
  · -- 窓の外の升目の周りでは、層が変わっていない。
    obtain ⟨⟨g₀, hg₀, hcost⟩, hsettled₀⟩ := hinv.resolve_left fun hfresh => hw (callWindow_of_fresh hfresh call hcs)
    rw [hout c hw, hcost c hcs]
    exact updateWindow_cost_eq hsettled₀ hsettled ⟨rfl, rfl⟩ hsize sourcesMatch_whole sourcesMatch_whole
      (Inflation.whole_contains.mpr hcs) hwhole hcs (fun d hd hdist => hcovers.unchanged hcs hw hd hdist) hg₀ hg

theorem inv_step (hscale : 0 ≤ p.inflation.costScalingFactor) (hinv : Inv p s) (h : updateMap p s call = some t)
    (horderly : Orderly p s call t) : Inv p t := by
  refine Or.inr ⟨consistent_step hscale hinv h horderly, ?_⟩
  rw [(updateMap_cases h).1]
  exact horderly.2.of_size (updateMap_outside hscale h).1

end Runs

/-! ## 報せた範囲と窓 -/

/-- 世界の点が升目に入る。 -/
def InCell (p : Setup) (c : Cell) (wx wy : ℝ) : Prop :=
  (p.originX + c.1 * p.inflation.resolution ≤ wx ∧ wx < p.originX + (c.1 + 1) * p.inflation.resolution) ∧
    p.originY + c.2 * p.inflation.resolution ≤ wy ∧ wy < p.originY + (c.2 + 1) * p.inflation.resolution

/-- 前の呼び出しから変わった升目は、障害物の層が報せた範囲の点を含む。 -/
def Reported (p : Setup) (s : Layered) (call : Call) : Prop :=
  ∀ c, s.combined.Contains c → call.obstacle c ≠ s.obstacle c → ∃ wx wy : ℝ, InCell p c wx wy ∧
    (call.bounds.minX ≤ wx ∧ wx ≤ call.bounds.maxX) ∧ call.bounds.minY ≤ wy ∧ wy ≤ call.bounds.maxY

section Window

variable {resolution origin wx radius : ℝ} {size c d R : Nat} {m : EReal}

theorem worldToMapEnforceBounds_le (hres : 0 < resolution) (hc : c < size) (hwx : wx < origin + (c + 1) * resolution)
    (hm : m ≤ ((wx - radius : ℝ) : EReal)) (hr : R * resolution ≤ radius) (hd : c ≤ d + R) :
    worldToMapEnforceBounds resolution origin size m ≤ d := by
  unfold worldToMapEnforceBounds
  split_ifs with hlow hhigh
  · exact Int.natCast_nonneg d
  · have hlt := EReal.coe_lt_coe_iff.mp (hhigh.trans_le hm)
    have hcs : ((c + 1 : Nat) : ℝ) ≤ size := Nat.cast_le.mpr hc
    have hR : (0 : ℝ) ≤ R * resolution := mul_nonneg (Nat.cast_nonneg R) hres.le
    push_cast at hcs
    nlinarith
  · have hreal : m.toReal ≤ wx - radius := by
      have hbot : m ≠ ⊥ := fun h => hlow (h ▸ EReal.bot_lt_coe origin)
      exact EReal.toReal_le_toReal hm hbot (EReal.coe_ne_top _)
    have hcd : (c : ℝ) ≤ d + R := by exact_mod_cast hd
    have hlt : (m.toReal - origin) / resolution < d + 1 := by
      rw [div_lt_iff₀ hres]
      nlinarith
    exact Int.lt_add_one_iff.mp (Int.floor_lt.mpr (by push_cast; exact hlt))

theorem le_worldToMapEnforceBounds (hres : 0 < resolution) (hds : d < size) (hwx : origin + c * resolution ≤ wx)
    (hm : ((wx + radius : ℝ) : EReal) ≤ m) (hr : R * resolution ≤ radius) (hd : d ≤ c + R) :
    d ≤ worldToMapEnforceBounds resolution origin size m := by
  have hR : (0 : ℝ) ≤ R * resolution := mul_nonneg (Nat.cast_nonneg R) hres.le
  have hcR : (0 : ℝ) ≤ c * resolution := mul_nonneg (Nat.cast_nonneg c) hres.le
  unfold worldToMapEnforceBounds
  split_ifs with hlow hhigh
  · have hlt := EReal.coe_lt_coe_iff.mp (hm.trans_lt hlow)
    linarith
  · omega
  · have hreal : wx + radius ≤ m.toReal := by
      have htop : m ≠ ⊤ := fun h => hhigh (h ▸ EReal.coe_lt_top _)
      exact EReal.toReal_le_toReal hm (EReal.coe_ne_bot _) htop
    have hdc : (d : ℝ) ≤ c + R := by exact_mod_cast hd
    rw [Int.le_floor, le_div_iff₀ hres]
    push_cast
    nlinarith

end Window

/-- 膨張の半径が升目の大きさの倍数であれば、変わった升目の周りの升目は窓に入る。 -/
theorem covers_of_reported {p : Setup} {s : Layered} {call : Call} (h : Reported p s call)
    (hr : p.inflation.computeCaches.cellInflationRadius * p.inflation.resolution ≤ p.inflation.inflationRadius) :
    Covers p s call := by
  intro c d hc hd hne hdist
  by_cases hneed : s.needReinflation = true
  · exact callWindow_of_fresh (Or.inl hneed) call hd
  · obtain ⟨wx, wy, ⟨⟨hx, hx'⟩, hy, hy'⟩, ⟨hminX, hmaxX⟩, hminY, hmaxY⟩ := h c hc hne
    obtain ⟨hdx, hdy⟩ := axisDistance_le_of_distanceSq hdist
    have haxis : ∀ m src, axisDistance m src ≤ p.inflation.computeCaches.cellInflationRadius →
        src ≤ m + p.inflation.computeCaches.cellInflationRadius ∧
          m ≤ src + p.inflation.computeCaches.cellInflationRadius := by
      intro m src hle
      unfold axisDistance at hle
      split_ifs at hle <;> omega
    have hlow : ∀ {last b : EReal} {x : ℝ}, b ≤ x →
        min last b - (p.inflation.inflationRadius : EReal) ≤ ((x - p.inflation.inflationRadius : ℝ) : EReal) :=
      fun hb => by
        rw [EReal.coe_sub]
        exact EReal.sub_le_sub ((min_le_right _ _).trans hb) le_rfl
    have hhigh : ∀ {last b : EReal} {x : ℝ}, x ≤ b →
        ((x + p.inflation.inflationRadius : ℝ) : EReal) ≤ max last b + (p.inflation.inflationRadius : EReal) :=
      fun hb => by
        rw [EReal.coe_add]
        exact add_le_add_left (hb.trans (le_max_right _ _)) _
    have hres := p.inflation.resolution_pos
    simp only [callWindow, inflateBounds, hneed, windowOf, Window.Contains]
    refine ⟨max_le (Int.natCast_nonneg _) ?_, max_le (Int.natCast_nonneg _) ?_, lt_min ?_ ?_, lt_min ?_ ?_⟩
    · exact worldToMapEnforceBounds_le hres hc.1 hx' (hlow hminX) hr (haxis _ _ hdx).1
    · exact worldToMapEnforceBounds_le hres hc.2 hy' (hlow hminY) hr (haxis _ _ hdy).1
    · exact_mod_cast hd.1
    · exact Int.lt_add_one_of_le (le_worldToMapEnforceBounds hres hd.1 hx (hhigh hmaxX) hr (haxis _ _ hdx).2)
    · exact_mod_cast hd.2
    · exact Int.lt_add_one_of_le (le_worldToMapEnforceBounds hres hd.2 hy (hhigh hmaxY) hr (haxis _ _ hdy).2)

/-! ## 具体的な呼び出しの列 -/

theorem updateMap_of_window {p : Setup} {s : Layered} {call : Call} {w : Window} (hw : callWindow p s call = w)
    (hI : w.minI ≤ w.maxI) (hJ : w.minJ ≤ w.maxJ) :
    updateMap p s call = (updateWindow p s.combined call.obstacle w).map fun g => ⟨g, call.obstacle, call.bounds, false⟩ := by
  simp only [updateMap, hw, Int.not_lt.mpr hI, Int.not_lt.mpr hJ, or_self, if_false]

/-- 膨張の半径が升目の半分の設定。 -/
noncomputable def halfCell : Setup where
  inflation :=
    { enabled := true, inflateUnknown := false, inflateAroundUnknown := false, inflationRadius := 0.5,
      inscribedRadius := 0, costScalingFactor := 0, resolution := 1,
      resolution_pos := InflationLayer.threeCells.resolution_pos }
  obstacleEnabled := true
  defaultValue := freeSpace
  originX := 0
  originY := 0

/-- `halfCell` の膨張の表。 -/
def halfCellCaches : Inflation where
  enabled := true
  inflateUnknown := false
  inflateAroundUnknown := false
  cellInflationRadius := 1
  cachedCosts := fun i j => if i ^ 2 + j ^ 2 = 0 then 254 else 252

theorem halfCell_computeCost (n : Nat) :
    halfCell.inflation.computeCost √(n : ℝ) = if n = 0 then 254 else 252 := by
  have hzero : √(n : ℝ) = 0 ↔ n = 0 := by rw [Real.sqrt_eq_zero (Nat.cast_nonneg n), Nat.cast_eq_zero]
  have hdecay : halfCell.inflation.decay √(n : ℝ) = 252 := by
    simp only [InflationLayer.decay, halfCell, mul_zero, zero_mul, Real.exp_zero, mul_one, Nat.floor_natCast]
    rfl
  have hins : √(n : ℝ) * halfCell.inflation.resolution ≤ halfCell.inflation.inscribedRadius ↔ n = 0 := by
    simp only [halfCell, mul_one]
    rw [← hzero]
    exact ⟨fun h => le_antisymm h (Real.sqrt_nonneg _), le_of_eq⟩
  rw [InflationLayer.computeCost_eq, hdecay]
  simp only [hzero, hins]
  split_ifs <;> rfl

theorem halfCell_computeCaches : halfCell.inflation.computeCaches = halfCellCaches := by
  have hradius : halfCell.inflation.cellDistance halfCell.inflation.inflationRadius = 1 := by
    simp only [InflationLayer.cellDistance, halfCell]
    rw [Nat.ceil_eq_iff one_ne_zero]
    norm_num
  simp only [InflationLayer.computeCaches, hradius, InflationLayer.hypot, halfCell_computeCost]
  rfl

def row : Costmap2D := ⟨3, 1, fun _ => freeSpace⟩

noncomputable def rowStart : Layered := ⟨row, fun _ => freeSpace, Bounds.everything, false⟩

noncomputable def noObstacle : Call := ⟨fun _ => freeSpace, Bounds.empty⟩

/-- 中央の升目に障害物が現れる。 -/
noncomputable def middleObstacle : Call where
  obstacle := fun c => if c = (1, 0) then lethalObstacle else freeSpace
  bounds := ⟨(1.6 : ℝ), (0.5 : ℝ), (1.6 : ℝ), (0.5 : ℝ)⟩

theorem worldToMapEnforceBounds_coe {resolution origin x : ℝ} {size : Nat} (hlow : origin ≤ x)
    (hhigh : x ≤ resolution * size + origin) :
    worldToMapEnforceBounds resolution origin size x = ⌊(x - origin) / resolution⌋ := by
  rw [worldToMapEnforceBounds, if_neg (not_lt.mpr (EReal.coe_le_coe_iff.mpr hlow)),
    if_neg (not_lt.mpr (EReal.coe_le_coe_iff.mpr hhigh)), EReal.toReal_coe]

theorem middleObstacle_window {g : Costmap2D} (hx : g.sizeX = 3) (hy : g.sizeY = 1) :
    callWindow halfCell ⟨g, noObstacle.obstacle, noObstacle.bounds, false⟩ middleObstacle = ⟨1, 0, 3, 1⟩ := by
  have hbounds : inflateBounds halfCell ⟨g, noObstacle.obstacle, noObstacle.bounds, false⟩ middleObstacle.bounds =
      ⟨((1.6 - 0.5 : ℝ) : EReal), ((0.5 - 0.5 : ℝ) : EReal), ((1.6 + 0.5 : ℝ) : EReal), ((0.5 + 0.5 : ℝ) : EReal)⟩ := by
    simp [inflateBounds, halfCell, noObstacle, middleObstacle, Bounds.empty, EReal.coe_sub, EReal.coe_add]
  have hfloor : ∀ {size : Nat} {x : ℝ} {k : Int}, 0 ≤ x → x ≤ 1 * size + 0 → k ≤ x → x < k + 1 →
      worldToMapEnforceBounds 1 0 size x = k := fun hlow hhigh hk hk' => by
    rw [worldToMapEnforceBounds_coe hlow hhigh, sub_zero, div_one]
    exact Int.floor_eq_iff.mpr ⟨hk, hk'⟩
  have h1 : worldToMapEnforceBounds 1 0 3 ((1.6 - 0.5 : ℝ) : EReal) = 1 := hfloor (by norm_num) (by norm_num) (by norm_num) (by norm_num)
  have h2 : worldToMapEnforceBounds 1 0 1 ((0.5 - 0.5 : ℝ) : EReal) = 0 := hfloor (by norm_num) (by norm_num) (by norm_num) (by norm_num)
  have h3 : worldToMapEnforceBounds 1 0 3 ((1.6 + 0.5 : ℝ) : EReal) = 2 := hfloor (by norm_num) (by norm_num) (by norm_num) (by norm_num)
  have h4 : worldToMapEnforceBounds 1 0 1 ((0.5 + 0.5 : ℝ) : EReal) = 1 := hfloor (by norm_num) (by norm_num) (by norm_num) (by norm_num)
  rw [callWindow, hbounds]
  simp only [windowOf, hx, hy, halfCell, h1, h2, h3, h4]
  rfl

theorem noObstacle_window : callWindow halfCell rowStart noObstacle = ⟨0, 0, 3, 1⟩ := by
  rw [callWindow, inflateBounds_of_fresh (Or.inr rfl)]
  simp only [windowOf, Bounds.everything, worldToMapEnforceBounds_bot, worldToMapEnforceBounds_top, rowStart, row]
  rfl

theorem row_costs :
    (halfCellCaches.updateCosts (mergeLayers halfCell row noObstacle.obstacle ⟨0, 0, 3, 1⟩) ⟨0, 0, 3, 1⟩).bind (fun g₁ =>
      (halfCellCaches.updateCosts (mergeLayers halfCell g₁ middleObstacle.obstacle ⟨1, 0, 3, 1⟩) ⟨1, 0, 3, 1⟩).bind fun g₂ =>
        (halfCellCaches.updateCosts (mergeLayers halfCell g₂ middleObstacle.obstacle (whole g₂)) (whole g₂)).map fun g =>
          (g₁.sizeX, g₁.sizeY, g₂.sizeX, g₂.sizeY, g₂.cost (0, 0), g.cost (0, 0))) = some (3, 1, 3, 1, 0, 252) := by
  decide +kernel

/-- 膨張の半径が升目の三倍の設定。 -/
noncomputable def threeCellSetup : Setup where
  inflation := InflationLayer.threeCells
  obstacleEnabled := true
  defaultValue := freeSpace
  originX := 0
  originY := 0

def pair : Costmap2D := ⟨2, 1, fun _ => freeSpace⟩

noncomputable def pairStart : Layered := ⟨pair, fun _ => freeSpace, Bounds.everything, false⟩

/-- 端の升目に障害物が現れる。 -/
noncomputable def cornerObstacle : Call where
  obstacle := fun c => if c = (0, 0) then lethalObstacle else freeSpace
  bounds := ⟨(0.5 : ℝ), (0.5 : ℝ), (0.5 : ℝ), (0.5 : ℝ)⟩

theorem noObstacle_settled : Settled threeCellSetup pair noObstacle.obstacle := by
  intro _ c s _ _ hsource
  have hfree : merged threeCellSetup noObstacle.obstacle s = freeSpace := by
    simp [merged, threeCellSetup, noObstacle, mergeMax]
  have hnone : threeCellSetup.inflation.computeCaches.isSource freeSpace = false :=
    Inflation.isSource_of_le (Nat.zero_le _)
  rw [hfree, hnone] at hsource
  cases hsource

theorem cornerObstacle_settled : Settled threeCellSetup pair cornerObstacle.obstacle := by
  have hcaches : threeCellSetup.inflation.computeCaches = InflationLayer.threeCellsCaches :=
    InflationLayer.threeCells_computeCaches
  have hsources : InflationLayer.threeCellsCaches.sources (mergedMap threeCellSetup pair cornerObstacle.obstacle) (whole pair) =
      [((0, 0), (0, 0))] := by
    decide +kernel
  intro _ c s hc _ _ _
  rw [hcaches, hsources]
  have hfirst : Spread.Handed (InflationLayer.threeCellsCaches.spread (mergedMap threeCellSetup pair cornerObstacle.obstacle))
      [((0, 0), (0, 0))] (0, 0) := .source (List.mem_singleton.mpr rfl)
  rcases eq_or_ne c (0, 0) with rfl | hne
  · exact hfirst
  · have hother : c = (1, 0) := by
      obtain ⟨x, y⟩ := c
      obtain ⟨hx, hy⟩ := hc
      simp only [pair] at hx hy
      simp only [ne_eq, Prod.mk.injEq] at hne ⊢
      omega
    rw [hother]
    refine .next hfirst (by decide) fun s hs => ?_
    obtain rfl := List.mem_singleton.mp hs.1
    exact ⟨⟨by simp, fun s' hs' => by rw [List.mem_singleton.mp hs']⟩, by decide, by decide⟩

theorem cornerObstacle_orderly :
    Always (updateMap threeCellSetup) (Orderly threeCellSetup) pairStart [noObstacle, cornerObstacle] := by
  intro t ht
  obtain ⟨hobstacle, -⟩ := updateMap_cases ht
  obtain ⟨hsize, -⟩ := updateMap_outside (p := threeCellSetup) le_rfl ht
  refine ⟨⟨fun c d _ _ hne => absurd rfl hne, noObstacle_settled⟩, fun t' _ => ⟨⟨covers_of_reported ?_ ?_, ?_⟩, Always.nil _⟩⟩
  · intro c _ hne
    have hc : c = (0, 0) := by
      by_contra hc
      simp [hobstacle, cornerObstacle, noObstacle, hc] at hne
    refine ⟨0.5, 0.5, ?_, ⟨le_rfl, le_rfl⟩, le_rfl, le_rfl⟩
    rw [hc]
    simp only [InCell, threeCellSetup, InflationLayer.threeCells]
    norm_num
  · have hradius : threeCellSetup.inflation.computeCaches.cellInflationRadius = 3 :=
      congrArg Inflation.cellInflationRadius InflationLayer.threeCells_computeCaches
    rw [hradius]
    simp only [threeCellSetup, InflationLayer.threeCells]
    norm_num
  · exact cornerObstacle_settled.of_size hsize

end Ranger.Costmap
