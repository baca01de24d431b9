import Mathlib.Data.List.ReduceOption
import Ranger.Dwb.CostmapQueue

/-!
# 経路までの距離の地図

`dwb_critics` の `map_grid.cpp`、`path_dist.cpp`、`goal_dist.cpp`。経路の升目を源として、どの升目にも最も近い源までのマンハッタン距離を書く。点の間隔をそろえた後の経路を受け取る。
-/

namespace Ranger.Dwb
open Ranger.Lib Ranger.Grid

structure MapGridCritic where
  queue : CostmapQueue ℕ
  cellValues : ℕ → ℕ
  obstacleScore : ℕ
  unreachableScore : ℕ

namespace MapGridCritic

variable {K : Type*}

def onInit (g : Costmap2D K) : MapGridCritic where
  queue := CostmapQueue.create (fun i j => i + j) (fun _ => true) g
  cellValues _ := 0
  obstacleScore := 0
  unreachableScore := 0

def reset (c : MapGridCritic) (g : Costmap2D K) : MapGridCritic :=
  let obstacleScore := g.sizeX * g.sizeY
  { queue := c.queue.reset g
    cellValues := fun _ => obstacleScore + 1
    obstacleScore := obstacleScore
    unreachableScore := obstacleScore + 1 }

/-- `while` の繰り返し。`fuel` 回のうちに終わらないとき `none` である。 -/
def propogateManhattanDistances (g : Costmap2D K) : ℕ → MapGridCritic → Option MapGridCritic
  | 0, c => if c.queue.isEmpty then some c else none
  | fuel + 1, c =>
    if c.queue.isEmpty then some c
    else (c.queue.getNextCell g).bind fun (cell, queue) =>
      let value := CellData.absoluteDifference cell.srcX cell.x + CellData.absoluteDifference cell.srcY cell.y
      propogateManhattanDistances g fuel
        { c with queue := queue, cellValues := Function.update c.cellValues cell.index value }

def setSource (c : MapGridCritic) (g : Costmap2D K) (cell : MapLocation) : Option MapGridCritic :=
  (c.queue.enqueueCell g cell.x cell.y).map fun queue =>
    { c with queue := queue, cellValues := Function.update c.cellValues (g.getIndex cell.x cell.y) 0 }

def getScore (c : MapGridCritic) (g : Costmap2D K) (x y : ℕ) : ℕ := c.cellValues (g.getIndex x y)

section Prepare

variable [Field K] [LinearOrder K] [FloorRing K]

/-- 地図の中の、費用の分かる升目。外側の `none` は、変換が定まらないことを表す。 -/
def onMap (g : Costmap2D K) (pose : K × K) : Option (Option MapLocation) :=
  (g.worldToMap pose.1 pose.2).map fun cell => cell.filter fun c => g.getCost c ≠ some 255

/-- 経路の点を、地図の縁に着くまで源とする。 -/
def addPath (g : Costmap2D K) : List (K × K) → Bool → MapGridCritic → Option (Bool × MapGridCritic)
  | [], startedPath, c => some (startedPath, c)
  | pose :: poses, startedPath, c => (onMap g pose).bind fun cell =>
    match cell with
    | some cell => (c.setSource g cell).bind (addPath g poses true)
    | none => if startedPath then some (startedPath, c) else addPath g poses startedPath c

/-- `PathDistCritic::prepare` -/
def preparePath (c : MapGridCritic) (g : Costmap2D K) (poses : List (K × K)) : Option (Bool × MapGridCritic) := do
  let (startedPath, c) ← addPath g poses false (c.reset g)
  if !startedPath then some (false, c)
  else (c.propogateManhattanDistances g (g.sizeX * g.sizeY)).map fun c => (true, c)

def getLastPoseOnCostmap (g : Costmap2D K) : List (K × K) → Option MapLocation → Option (Option MapLocation)
  | [], last => some last
  | pose :: poses, last => (onMap g pose).bind fun cell =>
    match cell with
    | some cell => getLastPoseOnCostmap g poses (some cell)
    | none => if last.isSome then some last else getLastPoseOnCostmap g poses last

/-- `GoalDistCritic::prepare` -/
def prepareGoal (c : MapGridCritic) (g : Costmap2D K) (poses : List (K × K)) : Option (Bool × MapGridCritic) :=
  let c := c.reset g
  (getLastPoseOnCostmap g poses none).bind fun goal =>
    match goal with
    | none => some (false, c)
    | some cell => (c.setSource g cell).bind fun c =>
      (c.propogateManhattanDistances g (g.sizeX * g.sizeY)).map fun c => (true, c)

inductive Kind
  | pathDist
  | goalDist
deriving DecidableEq

def prepare : Kind → MapGridCritic → Costmap2D K → List (K × K) → Option (Bool × MapGridCritic)
  | .pathDist => preparePath
  | .goalDist => prepareGoal

/-- 制御の一周期。地図の原点と費用は、周期ごとに変わる。 -/
structure Cycle (K : Type*) where
  costmap : Costmap2D K
  poses : List (K × K)

def prepareAll (kind : Kind) (c : MapGridCritic) (cycles : List (Cycle K)) : Option MapGridCritic :=
  cycles.foldlM (fun c cycle => (prepare kind c cycle.costmap cycle.poses).map Prod.snd) c

/-! ## 軌道の得点 -/

inductive ScoreAggregationType
  | last
  | sum
  | product
deriving DecidableEq

inductive IllegalTrajectory
  | hitsObstacle
  | hitsUnreachableArea
  | goesOffGrid
deriving DecidableEq, Repr

def scorePose (c : MapGridCritic) (g : Costmap2D K) (pose : K × K) : Option (Except IllegalTrajectory ℕ) :=
  (g.worldToMap pose.1 pose.2).map fun cell =>
    match cell with
    | none => .error .goesOffGrid
    | some cell => .ok (c.getScore g cell.x cell.y)

/-- `double` の和と積は、正確な自然数で表す。 -/
def accumulate : ScoreAggregationType → ℕ → ℕ → ℕ
  | .last, _, gridDist => gridDist
  | .sum, total, gridDist => total + gridDist
  | .product, total, gridDist => if total > 0 then total * gridDist else total

def scoreFrom (c : MapGridCritic) (g : Costmap2D K) (aggregationType : ScoreAggregationType) (stopOnFailure : Bool) :
    List (K × K) → ℕ → Option (Except IllegalTrajectory ℕ)
  | [], total => some (.ok total)
  | pose :: poses, total => (c.scorePose g pose).bind fun r =>
    match r with
    | .error e => some (.error e)
    | .ok gridDist =>
      if stopOnFailure ∧ gridDist = c.obstacleScore then some (.error .hitsObstacle)
      else if stopOnFailure ∧ gridDist = c.unreachableScore then some (.error .hitsUnreachableArea)
      else scoreFrom c g aggregationType stopOnFailure poses (accumulate aggregationType total gridDist)

/-- 失敗で止まらず最後の点だけを使うときは、最後の点だけを調べる。 -/
def scoredPoses {α : Type*} (aggregationType : ScoreAggregationType) (stopOnFailure : Bool) (poses : List α) : List α :=
  if aggregationType = .last ∧ stopOnFailure = false then poses.drop (poses.length - 1) else poses

def scoreTrajectory (c : MapGridCritic) (g : Costmap2D K) (aggregationType : ScoreAggregationType) (stopOnFailure : Bool)
    (poses : List (K × K)) : Option (Except IllegalTrajectory ℕ) :=
  scoreFrom c g aggregationType stopOnFailure (scoredPoses aggregationType stopOnFailure poses)
    (if aggregationType = .product then 1 else 0)

end Prepare

/-! ## 経路の源 -/

/-- 経路が初めて地図に入ってから、初めて出るまでの升目。 -/
def firstRun (cells : List (Option MapLocation)) : List MapLocation :=
  ((cells.dropWhile Option.isNone).takeWhile Option.isSome).reduceOption

def sourcesOf : Kind → List MapLocation → List MapLocation
  | .pathDist, run => run
  | .goalDist, run => run.getLast?.toList

/-- 源までの最も短い距離。源がなければ、届かないことを表す値である。 -/
def score (g : Costmap2D K) (sources : List MapLocation) (v : MapLocation) : ℕ :=
  ((sources.map (manhattan v)).min?).getD (g.sizeX * g.sizeY + 1)

section Score

variable {g : Costmap2D K} {sources : List MapLocation} {level : MapLocation → ℕ} {c : MapGridCritic}
  {taken : List (CellData ℕ)} {v s : MapLocation}

/-- `prepare` の合間の待ち行列。 -/
structure Usable (g : Costmap2D K) (c : MapGridCritic) : Prop extends c.queue.Ready g where
  metric : c.queue.metric = fun i j => i + j
  always : ∀ cell, c.queue.validCellToQueue cell = true

/-- 届かないことを表す値は、升目の数で決まる。 -/
structure Scaled (g : Costmap2D K) (c : MapGridCritic) : Prop where
  obstacleScore : c.obstacleScore = g.sizeX * g.sizeY
  unreachableScore : c.unreachableScore = g.sizeX * g.sizeY + 1

/-- 源 `sources` だけを入れた後。 -/
structure Sown (g : Costmap2D K) (sources : List MapLocation) (c : MapGridCritic) : Prop extends
    Manhattan g c.queue, Scaled g c where
  sources_contained : ∀ s ∈ sources, g.Contains s
  seen_iff : ∀ v, Seen g c.queue v ↔ v ∈ sources
  sourced : ∀ cell ∈ c.queue.queue.items, cell.source = cell.location
  located : ∀ v, v ∈ sources ↔ ∃ cell ∈ c.queue.queue.items, cell.location = v
  nodup : (c.queue.queue.items.map CellData.location).Nodup
  untouched : ∀ v, g.Contains v → v ∉ sources → c.cellValues (g.getIndex v.x v.y) = g.sizeX * g.sizeY + 1

theorem Usable.reset (h : Usable g c) : Sown g [] (c.reset g) := by
  obtain ⟨hready, hseen, hitems, hmetric, hvalid⟩ := h.toReady.reset
  have hnone (cell : CellData ℕ) : cell ∉ (c.reset g).queue.queue.items := by
    show cell ∉ (c.queue.reset g).queue.items
    rw [hitems]
    exact List.not_mem_nil
  refine ⟨⟨hready, hmetric.trans h.metric, fun cell => ?_, fun cell hcell => absurd hcell (hnone cell)⟩, ⟨rfl, rfl⟩,
    fun s hs => absurd hs List.not_mem_nil, fun v => ?_, fun cell hcell => absurd hcell (hnone cell), fun v => ?_, ?_,
    fun _ _ _ => rfl⟩
  · show (c.queue.reset g).validCellToQueue cell = true
    rw [hvalid]
    exact h.always cell
  · refine iff_of_false (fun h => ?_) List.not_mem_nil
    have hfalse : (c.queue.reset g).seen (g.getIndex v.x v.y) = true := h.2
    rw [hseen] at hfalse
    cases hfalse
  · refine iff_of_false List.not_mem_nil ?_
    rintro ⟨cell, hcell, -⟩
    exact hnone cell hcell
  · show ((c.queue.reset g).queue.items.map CellData.location).Nodup
    rw [hitems]
    exact List.nodup_nil

theorem Sown.usable (h : Sown g sources c) : Usable g c := ⟨h.toReady, h.metric, h.always⟩

theorem absoluteDifference_comm (x y : ℕ) : CellData.absoluteDifference x y = CellData.absoluteDifference y x := by
  unfold CellData.absoluteDifference
  split_ifs <;> omega

theorem manhattan_self (v : MapLocation) : manhattan v v = 0 := by
  simp [manhattan, CellData.absoluteDifference]

theorem eq_of_manhattan (h : manhattan v s = 0) : v = s := by
  simp only [manhattan, CellData.absoluteDifference] at h
  cases v
  cases s
  simp only [MapLocation.mk.injEq]
  split_ifs at h <;> simp_all <;> omega

/-- 源を入れ終えると、近い順に取り出せる。 -/
theorem Sown.tracks (h : Sown g sources c) (hlevel : Nearest sources level) : Tracks g sources level [] c.queue := by
  have hzero (s : MapLocation) (hs : s ∈ sources) : level s = 0 := by
    have hle := hlevel.le s hs s
    rw [manhattan_self] at hle
    omega
  refine ⟨h.toManhattan, ?_, ?_, ?_, ?_, List.Pairwise.nil, ?_, ?_⟩
  · intro cell hcell
    have hcell' : cell ∈ c.queue.queue.items := by simpa using hcell
    have hmem : cell.location ∈ sources := (h.located _).mpr ⟨cell, hcell', rfl⟩
    have hsource := h.sourced cell hcell'
    refine ⟨by rw [show cells.source cell = cell.source from rfl, hsource]; exact hmem, h.sources_contained _ hmem, ?_⟩
    show manhattan cell.location cell.source = level cell.location
    rw [hsource, manhattan_self, hzero _ hmem]
  · have hnodup := h.nodup
    rw [Multiset.coe_nil, Multiset.zero_add, Multiset.map_coe, Multiset.coe_nodup]
    exact hnodup
  · intro v
    rw [h.seen_iff, h.located]
    simp [cells]
  · intro v _ hv
    obtain ⟨s, hs, heq⟩ := hlevel.attained v
    rw [h.seen_iff, eq_of_manhattan (heq.symm.trans hv)]
    exact hs
  · exact fun a ha => absurd ha List.not_mem_nil
  · exact fun a ha => absurd ha List.not_mem_nil

/-- 一度の `prepare` の後。源がなければ、どの升目も届かない。 -/
structure Prepared (g : Costmap2D K) (sources : List MapLocation) (c : MapGridCritic) : Prop extends
    Usable g c, Scaled g c where
  scores : ∀ v, g.Contains v → c.getScore g v.x v.y = score g sources v

theorem Sown.prepared (h : Sown g [] c) : Prepared g [] c :=
  ⟨h.usable, h.toScaled, fun v hv => h.untouched v hv List.not_mem_nil⟩

theorem Usable.congr {g₀ : Costmap2D K} (hx : g.sizeX = g₀.sizeX) (hy : g.sizeY = g₀.sizeY) (h : Usable g₀ c) : Usable g c := by
  refine ⟨⟨?_, h.cachedMaxDistance, ?_⟩, h.metric, h.always⟩
  · rw [hx, hy]
    exact h.maxDistance
  · rw [hx, hy]
    exact h.cachedDistances

/-- 源があれば、どの升目も届く。 -/
theorem score_lt (hsources : ∀ s ∈ sources, g.Contains s) (hne : sources ≠ []) (hv : g.Contains v) :
    score g sources v < g.sizeX * g.sizeY := by
  cases hm : (sources.map (manhattan v)).min? with
  | none => exact absurd (List.map_eq_nil_iff.mp (List.min?_eq_none_iff.mp hm)) hne
  | some m =>
      obtain ⟨s, hs, rfl⟩ := List.mem_map.mp (List.min?_eq_some_iff.mp hm).1
      rw [score, hm, Option.getD_some]
      obtain ⟨hvx, hvy⟩ := hv
      obtain ⟨hsx, hsy⟩ := hsources s hs
      have hfar : manhattan v s ≤ (g.sizeX - 1) + (g.sizeY - 1) := by
        simp only [manhattan, CellData.absoluteDifference]
        split_ifs <;> omega
      obtain ⟨w, hw⟩ := Nat.exists_eq_add_of_lt (Nat.zero_lt_of_lt hvx)
      obtain ⟨h, hh⟩ := Nat.exists_eq_add_of_lt (Nat.zero_lt_of_lt hvy)
      rw [hw, hh] at hfar ⊢
      have harea : (0 + w + 1) * (0 + h + 1) = w * h + w + h + 1 := by ring
      rw [harea]
      omega

variable [Field K] [LinearOrder K]

theorem Sown.setSource (hg : g.Valid) (h : Sown g sources c) (hs : g.Contains s) :
    ∃ c', c.setSource g s = some c' ∧ Sown g (sources ++ [s]) c' := by
  have hcontained (t : MapLocation) (ht : t ∈ sources ++ [s]) : g.Contains t := by
    rcases List.mem_append.mp ht with ht | ht
    · exact h.sources_contained t ht
    · rw [List.mem_singleton.mp ht]
      exact hs
  have hvalues (v : MapLocation) (hv : g.Contains v) (hnew : v ∉ sources ++ [s]) :
      Function.update c.cellValues (g.getIndex s.x s.y) 0 (g.getIndex v.x v.y) = g.sizeX * g.sizeY + 1 := by
    rw [List.mem_append, not_or] at hnew
    rw [Function.update_of_ne fun hindex => hnew.2 (List.mem_singleton.mpr (getIndex_inj hg hv hs hindex))]
    exact h.untouched v hv hnew.1
  have hadd (v : MapLocation) : v ∈ sources ++ [s] ↔ v = s ∨ v ∈ sources := by
    rw [List.mem_append, List.mem_singleton, or_comm]
  unfold MapGridCritic.setSource CostmapQueue.enqueueCell
  by_cases hseen : Seen g c.queue s
  · have hmem : s ∈ sources := (h.seen_iff s).mp hseen
    have hsame (v : MapLocation) : v ∈ sources ++ [s] ↔ v ∈ sources := by
      rw [hadd]
      exact ⟨fun hv => hv.elim (fun heq => heq ▸ hmem) id, Or.inr⟩
    rw [CostmapQueue.enqueueCellFrom, if_pos hseen.2, Option.map_some]
    exact ⟨_, rfl, h.toManhattan, ⟨h.obstacleScore, h.unreachableScore⟩, hcontained, fun v => (h.seen_iff v).trans (hsame v).symm, h.sourced,
      fun v => (hsame v).trans (h.located v), h.nodup, hvalues⟩
  · obtain ⟨q', henq, hman, hiff, hitems⟩ := h.toManhattan.enqueue hg hs hs hseen
    rw [henq, Option.map_some]
    refine ⟨_, rfl, hman, ⟨h.obstacleScore, h.unreachableScore⟩, hcontained, fun v => ?_, fun cell hcell => ?_, fun v => ?_, ?_, hvalues⟩
    · rw [hadd, ← h.seen_iff]
      exact hiff v
    · have hcell' : cell ∈ q'.queue.items := hcell
      rw [hitems] at hcell'
      rcases List.mem_cons.mp hcell' with rfl | hold
      · rfl
      · exact h.sourced cell hold
    · rw [hadd, h.located]
      show _ ↔ ∃ cell ∈ q'.queue.items, _
      rw [hitems]
      constructor
      · rintro (rfl | ⟨cell, hcell, rfl⟩)
        · exact ⟨_, List.mem_cons_self, rfl⟩
        · exact ⟨cell, List.mem_cons_of_mem _ hcell, rfl⟩
      · rintro ⟨cell, hcell, rfl⟩
        rcases List.mem_cons.mp hcell with rfl | hcell
        · exact Or.inl rfl
        · exact Or.inr ⟨cell, hcell, rfl⟩
    · show (q'.queue.items.map CellData.location).Nodup
      rw [hitems, List.map_cons, List.nodup_cons]
      refine ⟨fun hmem => hseen ((h.seen_iff s).mpr ((h.located s).mpr ?_)), h.nodup⟩
      obtain ⟨cell, hcell, heq⟩ := List.mem_map.mp hmem
      exact ⟨cell, hcell, heq⟩

/-! ## 距離の書き込み -/

/-- 取り出した升目には、最も近い源までの距離が書かれている。 -/
structure Filling (g : Costmap2D K) (sources : List MapLocation) (level : MapLocation → ℕ) (taken : List (CellData ℕ))
    (c : MapGridCritic) : Prop extends Tracks g sources level taken c.queue, Scaled g c where
  written : ∀ cell ∈ taken, c.cellValues (g.getIndex cell.x cell.y) = level cell.location

theorem isEmpty_iff (c : MapGridCritic) : c.queue.isEmpty = true ↔ c.queue.queue.items = [] := by
  rw [CostmapQueue.isEmpty, c.queue.queue.holds.isEmpty, List.isEmpty_map, List.isEmpty_iff]

omit [Field K] [LinearOrder K] in
/-- 升目は高々一度しか現れない。 -/
theorem Filling.length_le (h : Filling g sources level taken c) :
    taken.length + c.queue.queue.items.length ≤ g.sizeX * g.sizeY := by
  have hnodup := h.waiting.nodup
  have hexact := h.waiting.exact
  rw [Multiset.coe_add, Multiset.map_coe, Multiset.coe_nodup] at hnodup
  have hcard := List.toFinset_card_of_nodup hnodup
  have hsub : (((taken ++ c.queue.queue.items).map cells.place).toFinset).card ≤ (Finset.range (g.sizeX * g.sizeY)).card := by
    apply Finset.card_le_card_of_injOn fun v => v.y * g.sizeX + v.x
    · intro v hv
      obtain ⟨cell, hcell, rfl⟩ := List.mem_map.mp (List.mem_toFinset.mp hv)
      obtain ⟨-, hnode, -⟩ := hexact cell (by rw [Multiset.coe_add]; exact hcell)
      exact Finset.mem_coe.mpr (Finset.mem_range.mpr (index_lt hnode.1 hnode.2))
    · intro v hv u hu heq
      obtain ⟨cell, hcell, rfl⟩ := List.mem_map.mp (List.mem_toFinset.mp hv)
      obtain ⟨cell', hcell', rfl⟩ := List.mem_map.mp (List.mem_toFinset.mp hu)
      obtain ⟨-, hnode, -⟩ := hexact cell (by rw [Multiset.coe_add]; exact hcell)
      obtain ⟨-, hnode', -⟩ := hexact cell' (by rw [Multiset.coe_add]; exact hcell')
      rw [← Costmap2D.indexToCells_index hnode.1, ← Costmap2D.indexToCells_index hnode'.1]
      exact congrArg _ heq
  rw [hcard, List.length_map, List.length_append, Finset.card_range] at hsub
  exact hsub

theorem Filling.next (hg : g.Valid) (hsources : ∀ s ∈ sources, g.Contains s) (hlevel : Nearest sources level)
    (h : Filling g sources level taken c) (hne : c.queue.queue.items ≠ []) :
    ∃ cell queue, c.queue.getNextCell g = some (cell, queue) ∧
      Filling g sources level (taken ++ [cell]) { c with
        queue := queue
        cellValues := Function.update c.cellValues cell.index
          (CellData.absoluteDifference cell.srcX cell.x + CellData.absoluteDifference cell.srcY cell.y) } := by
  obtain ⟨cell, queue, hnext, htracks, hmem⟩ := h.toTracks.getNextCell hg hsources hlevel hne
  obtain ⟨hcontains, hindex, -⟩ := h.wellFormed cell hmem
  refine ⟨cell, queue, hnext, htracks, ⟨h.obstacleScore, h.unreachableScore⟩, fun b hb => ?_⟩
  show Function.update c.cellValues cell.index _ (g.getIndex b.x b.y) = _
  rw [hindex]
  rcases List.mem_append.mp hb with hb | hb
  · have hb' := (h.waiting.exact b (Multiset.mem_add.mpr (Or.inl (Multiset.mem_coe.mpr hb)))).2.1
    rw [Function.update_of_ne, h.written b hb]
    intro heq
    have hsame : b.location = cell.location := getIndex_inj hg hb' hcontains heq
    have hnodup := h.waiting.nodup
    rw [Multiset.map_add, Multiset.nodup_add] at hnodup
    refine Multiset.disjoint_left.mp hnodup.2.2 (Multiset.mem_map_of_mem _ (Multiset.mem_coe.mpr hb)) ?_
    rw [show cells.place b = cells.place cell from hsame]
    exact Multiset.mem_map_of_mem _ (Multiset.mem_coe.mpr hmem)
  · rw [List.mem_singleton.mp hb, Function.update_self, absoluteDifference_comm cell.srcX, absoluteDifference_comm cell.srcY]
    have hexact := (h.waiting.exact cell (Multiset.mem_add.mpr (Or.inr (Multiset.mem_coe.mpr hmem)))).2.2
    exact hexact

/-- どの升目にも最も近い源までの距離が書かれて終わる。 -/
theorem Filling.propogate (hg : g.Valid) (hsources : ∀ s ∈ sources, g.Contains s) (hlevel : Nearest sources level)
    {fuel : ℕ} (h : Filling g sources level taken c) (hfuel : g.sizeX * g.sizeY ≤ fuel + taken.length) :
    ∃ c', c.propogateManhattanDistances g fuel = some c' ∧ Usable g c' ∧ Scaled g c' ∧
      ∀ v, g.Contains v → c'.cellValues (g.getIndex v.x v.y) = level v := by
  have hstop (taken : List (CellData ℕ)) (c : MapGridCritic) (h : Filling g sources level taken c)
      (hitems : c.queue.queue.items = []) :
      Usable g c ∧ Scaled g c ∧ ∀ v, g.Contains v → c.cellValues (g.getIndex v.x v.y) = level v := by
    refine ⟨⟨h.toReady, h.metric, h.always⟩, h.toScaled, fun v hv => ?_⟩
    have hwaiting := h.waiting
    rw [hitems] at hwaiting
    obtain ⟨cell, hcell, rfl⟩ := Wavefront.Reached.all_taken (hlevel.level hsources) hwaiting hv
    exact h.written cell hcell
  induction fuel generalizing taken c with
  | zero =>
      have hlength := h.length_le
      have hitems : c.queue.queue.items = [] := List.length_eq_zero_iff.mp (by omega)
      rw [propogateManhattanDistances, if_pos ((isEmpty_iff c).mpr hitems)]
      exact ⟨c, rfl, hstop taken c h hitems⟩
  | succ fuel ih =>
      rw [propogateManhattanDistances]
      by_cases hitems : c.queue.queue.items = []
      · rw [if_pos ((isEmpty_iff c).mpr hitems)]
        exact ⟨c, rfl, hstop taken c h hitems⟩
      · obtain ⟨cell, queue, hnext, hfilling⟩ := h.next hg hsources hlevel hitems
        rw [if_neg (fun hempty => hitems ((isEmpty_iff c).mp hempty)), hnext]
        apply ih hfilling
        rw [List.length_append, List.length_singleton]
        omega

/-- 源を入れてから広げると、どの升目にも `score` が書かれる。 -/
theorem Sown.propogate (hg : g.Valid) (h : Sown g sources c) (hne : sources ≠ []) :
    ∃ c', c.propogateManhattanDistances g (g.sizeX * g.sizeY) = some c' ∧ Usable g c' ∧ Scaled g c' ∧
      ∀ v, g.Contains v → c'.getScore g v.x v.y = score g sources v := by
  have hmin (v : MapLocation) : ∃ m, (sources.map (manhattan v)).min? = some m ∧
      m ∈ sources.map (manhattan v) ∧ ∀ n ∈ sources.map (manhattan v), m ≤ n := by
    cases hm : (sources.map (manhattan v)).min? with
    | none => exact absurd (List.map_eq_nil_iff.mp (List.min?_eq_none_iff.mp hm)) hne
    | some m => exact ⟨m, rfl, List.min?_eq_some_iff.mp hm⟩
  have hscore (v : MapLocation) : score g sources v ∈ sources.map (manhattan v) ∧
      ∀ n ∈ sources.map (manhattan v), score g sources v ≤ n := by
    obtain ⟨m, hm, hmem, hle⟩ := hmin v
    rw [score, hm, Option.getD_some]
    exact ⟨hmem, hle⟩
  have hlevel : Nearest sources (score g sources) :=
    ⟨fun s hs v => (hscore v).2 _ (List.mem_map_of_mem hs), fun v => by
      obtain ⟨s, hs, heq⟩ := List.mem_map.mp (hscore v).1
      exact ⟨s, hs, heq.symm⟩⟩
  have hfilling : Filling g sources (score g sources) [] c :=
    ⟨h.tracks hlevel, h.toScaled, fun cell hcell => absurd hcell List.not_mem_nil⟩
  exact hfilling.propogate hg h.sources_contained hlevel (by simp)

end Score

/-! ## 経路の準備 -/

section Critic

variable {K : Type*} [Field K] [LinearOrder K] [FloorRing K] {g g₀ : Costmap2D K} {sources : List MapLocation}
  {c : MapGridCritic} {cell : MapLocation} {poses : List (K × K)} {cells : List (Option MapLocation)}

theorem worldToMap_contains {x y : K} (h : g.worldToMap x y = some (some cell)) : g.Contains cell := by
  unfold Costmap2D.worldToMap at h
  split_ifs at h
  · cases h
  · obtain ⟨mx, -, h⟩ := Option.bind_eq_some_iff.mp h
    obtain ⟨my, -, h⟩ := Option.bind_eq_some_iff.mp h
    rw [Option.pure_def, Option.some.injEq] at h
    split_ifs at h with hin
    cases h
    exact hin

theorem onMap_contains {pose : K × K} (h : onMap g pose = some (some cell)) : g.Contains cell := by
  obtain ⟨r, hr, hfilter⟩ := Option.map_eq_some_iff.mp h
  rw [Option.filter_eq_some_iff] at hfilter
  exact worldToMap_contains (hr.trans (congrArg some hfilter.1))

/-- 経路の点のある升目。 -/
def Visits (g : Costmap2D K) (poses : List (K × K)) (cells : List (Option MapLocation)) : Prop :=
  List.Forall₂ (fun pose cell => onMap g pose = some cell) poses cells

/-- 地図に入った後は、出るまでの升目だけが源になる。 -/
def runFrom (started : Bool) (cells : List (Option MapLocation)) : List MapLocation :=
  if started then (cells.takeWhile Option.isSome).reduceOption else firstRun cells

theorem runFrom_nil (started : Bool) : runFrom started [] = [] := by
  cases started <;> rfl

theorem runFrom_some (started : Bool) (cell : MapLocation) (cells : List (Option MapLocation)) :
    runFrom started (some cell :: cells) = cell :: runFrom true cells := by
  cases started <;> simp [runFrom, firstRun]

theorem runFrom_none (started : Bool) (cells : List (Option MapLocation)) :
    runFrom started (none :: cells) = if started then [] else runFrom false cells := by
  cases started <;> simp [runFrom, firstRun]

theorem addPath_sown (hg : g.Valid) (hvisits : Visits g poses cells) (started : Bool) (h : Sown g sources c) :
    ∃ c', addPath g poses started c = some (started || !(runFrom started cells).isEmpty, c') ∧
      Sown g (sources ++ runFrom started cells) c' := by
  induction hvisits generalizing started sources c with
  | nil =>
      rw [runFrom_nil, List.append_nil]
      exact ⟨c, by simp [addPath], h⟩
  | @cons pose entry poses cells hpose _ ih =>
      rw [addPath, hpose, Option.bind_some]
      cases entry with
      | none =>
          rw [runFrom_none]
          cases started with
          | true =>
              refine ⟨c, rfl, ?_⟩
              rwa [if_pos rfl, List.append_nil]
          | false => exact ih false h
      | some cell =>
          obtain ⟨c₁, hset, hsown⟩ := h.setSource hg (onMap_contains hpose)
          obtain ⟨c₂, hadd, hsown₂⟩ := ih true hsown
          rw [runFrom_some]
          refine ⟨c₂, ?_, ?_⟩
          · show (c.setSource g cell).bind (addPath g poses true) = _
            rw [hset, Option.bind_some, hadd]
            simp
          · rwa [List.append_assoc, List.singleton_append] at hsown₂

theorem getLastPoseOnCostmap_eq (hvisits : Visits g poses cells) (last : Option MapLocation) :
    getLastPoseOnCostmap g poses last = some ((runFrom last.isSome cells).getLast?.or last) := by
  induction hvisits generalizing last with
  | nil =>
      rw [runFrom_nil]
      rfl
  | @cons pose entry poses cells hpose _ ih =>
      rw [getLastPoseOnCostmap, hpose, Option.bind_some]
      cases entry with
      | none =>
          rw [runFrom_none]
          cases last with
          | none => exact ih none
          | some l => rfl
      | some cell =>
          have hrest := ih (some cell)
          rw [Option.isSome_some] at hrest
          rw [runFrom_some, List.getLast?_cons]
          refine hrest.trans ?_
          cases (runFrom true cells).getLast? <;> rfl

theorem mem_firstRun (h : cell ∈ firstRun cells) : some cell ∈ cells := by
  rw [firstRun, List.reduceOption_mem_iff] at h
  exact (List.dropWhile_sublist _).subset ((List.takeWhile_sublist _).subset h)

theorem visits_contains (hvisits : Visits g poses cells) (h : cell ∈ firstRun cells) : g.Contains cell := by
  have hmem := mem_firstRun h
  obtain ⟨i, hi, heq⟩ := List.getElem_of_mem hmem
  have hpose := hvisits.get (by rw [hvisits.length_eq]; exact hi) hi
  rw [List.get_eq_getElem, List.get_eq_getElem, heq] at hpose
  exact onMap_contains hpose

theorem Usable.preparePath (hg : g.Valid) (hvisits : Visits g poses cells) (h : Usable g c) :
    ∃ c', c.preparePath g poses = some (!(firstRun cells).isEmpty, c') ∧ Prepared g (firstRun cells) c' := by
  obtain ⟨c₁, hadd, hsown⟩ := addPath_sown hg hvisits false h.reset
  rw [show runFrom false cells = firstRun cells from rfl, Bool.false_or] at hadd
  rw [show runFrom false cells = firstRun cells from rfl, List.nil_append] at hsown
  unfold MapGridCritic.preparePath
  rw [hadd]
  cases hrun : firstRun cells with
  | nil =>
      rw [hrun] at hsown
      exact ⟨c₁, rfl, hsown.prepared⟩
  | cons s run =>
      rw [hrun] at hsown
      obtain ⟨c₂, hprop, husable, hscaled, hscores⟩ := hsown.propogate hg (List.cons_ne_nil _ _)
      refine ⟨c₂, ?_, husable, hscaled, hscores⟩
      show (c₁.propogateManhattanDistances g (g.sizeX * g.sizeY)).map _ = _
      rw [hprop]
      rfl

theorem Usable.prepareGoal (hg : g.Valid) (hvisits : Visits g poses cells) (h : Usable g c) :
    ∃ c', c.prepareGoal g poses = some (!(firstRun cells).isEmpty, c') ∧
      Prepared g (firstRun cells).getLast?.toList c' := by
  have hlast := getLastPoseOnCostmap_eq hvisits none
  rw [show runFrom (none : Option MapLocation).isSome cells = firstRun cells from rfl, Option.or_none] at hlast
  unfold MapGridCritic.prepareGoal
  rw [hlast, Option.bind_some]
  cases hgoal : (firstRun cells).getLast? with
  | none =>
      rw [List.getLast?_eq_none_iff.mp hgoal]
      exact ⟨c.reset g, rfl, h.reset.prepared⟩
  | some goal =>
      have hmem : goal ∈ firstRun cells := List.mem_of_getLast? hgoal
      have hempty : (firstRun cells).isEmpty = false := List.isEmpty_eq_false_iff.mpr (List.ne_nil_of_mem hmem)
      obtain ⟨c₁, hset, hsown⟩ := h.reset.setSource hg (visits_contains hvisits hmem)
      obtain ⟨c₂, hprop, husable, hscaled, hscores⟩ := hsown.propogate hg (List.cons_ne_nil _ _)
      refine ⟨c₂, ?_, husable, hscaled, hscores⟩
      show ((c.reset g).setSource g goal).bind _ = _
      rw [hset, Option.bind_some, hprop, hempty]
      rfl

omit [Field K] [LinearOrder K] [FloorRing K] in
theorem Usable.onInit (g : Costmap2D K) : Usable g (onInit g) :=
  ⟨CostmapQueue.Ready.of_create _ _ g, (CostmapQueue.computeCache_keeps _ g).1,
    fun cell => congrFun (CostmapQueue.computeCache_keeps _ g).2 cell⟩

/-- はじめの地図 `g₀` と同じ大きさで、経路の点がすべて変換できる周期。 -/
structure Fits (g₀ : Costmap2D K) (cycle : Cycle K) : Prop where
  valid : cycle.costmap.Valid
  sizeX : cycle.costmap.sizeX = g₀.sizeX
  sizeY : cycle.costmap.sizeY = g₀.sizeY
  visits : ∃ cells, Visits cycle.costmap cycle.poses cells

theorem Usable.prepare (kind : Kind) {cycle : Cycle K} (hfits : Fits g₀ cycle)
    (hvisits : Visits cycle.costmap cycle.poses cells) (h : Usable g₀ c) :
    ∃ c', MapGridCritic.prepare kind c cycle.costmap cycle.poses = some (!(firstRun cells).isEmpty, c') ∧
      Prepared cycle.costmap (sourcesOf kind (firstRun cells)) c' := by
  have hcycle := h.congr hfits.sizeX hfits.sizeY
  cases kind with
  | pathDist => exact hcycle.preparePath hfits.valid hvisits
  | goalDist => exact hcycle.prepareGoal hfits.valid hvisits

theorem Usable.prepareAll (kind : Kind) (cycles : List (Cycle K)) (hfits : ∀ cycle ∈ cycles, Fits g₀ cycle)
    (h : Usable g₀ c) : ∃ c', MapGridCritic.prepareAll kind c cycles = some c' ∧ Usable g₀ c' := by
  induction cycles generalizing c with
  | nil => exact ⟨c, rfl, h⟩
  | cons cycle cycles ih =>
      have hfit := hfits cycle List.mem_cons_self
      obtain ⟨cells, hvisits⟩ := hfit.visits
      obtain ⟨c₁, hprepare, hprepared⟩ := h.prepare kind hfit hvisits
      obtain ⟨c₂, hrest, husable⟩ := ih (fun cycle hcycle => hfits cycle (List.mem_cons_of_mem _ hcycle))
        (hprepared.toUsable.congr hfit.sizeX.symm hfit.sizeY.symm)
      refine ⟨c₂, ?_, husable⟩
      rw [MapGridCritic.prepareAll, List.foldlM_cons, hprepare]
      exact hrest

/-- 費用の分からない升目が一つある地図。 -/
def corner : Costmap2D ℚ := ⟨4, 3, 1, 0, 0, [0, 0, 0, 0, 0, 0, 255, 0, 0, 0, 0, 0], 0⟩

def outside : Cycle ℚ := ⟨corner, [(-1, 0)]⟩

def entering : Cycle ℚ := ⟨corner, [(-1, 0), (0.5, 0.5), (1.5, 0.5), (2.5, 1.5), (3.5, 2.5)]⟩

theorem visits_outside : Visits corner outside.poses [none] := by
  refine List.Forall₂.cons ?_ List.Forall₂.nil
  decide +kernel

theorem visits_entering :
    Visits corner entering.poses [none, some ⟨0, 0⟩, some ⟨1, 0⟩, none, some ⟨3, 2⟩] := by
  refine List.Forall₂.cons ?_ (List.Forall₂.cons ?_ (List.Forall₂.cons ?_ (List.Forall₂.cons ?_
    (List.Forall₂.cons ?_ List.Forall₂.nil)))) <;> decide +kernel

theorem valid_corner : corner.Valid := by
  constructor <;> decide +kernel

theorem fits_outside : ∀ cycle ∈ [outside], Fits corner cycle := by
  intro cycle hcycle
  rw [List.mem_singleton.mp hcycle]
  exact ⟨valid_corner, rfl, rfl, _, visits_outside⟩

theorem fits_entering : Fits corner entering := ⟨valid_corner, rfl, rfl, _, visits_entering⟩

/-- 軌道の点のある升目。 -/
def Lands (g : Costmap2D K) (poses : List (K × K)) (cells : List (Option MapLocation)) : Prop :=
  List.Forall₂ (fun pose cell => g.worldToMap pose.1 pose.2 = some cell) poses cells

def combine : ScoreAggregationType → List ℕ → ℕ
  | .last, scores => scores.getLast?.getD 0
  | .sum, scores => scores.sum
  | .product, scores => scores.prod

theorem foldl_accumulate (aggregationType : ScoreAggregationType) (scores : List ℕ) :
    scores.foldl (accumulate aggregationType) (if aggregationType = .product then 1 else 0) =
      combine aggregationType scores := by
  cases aggregationType with
  | last =>
      have hlast (scores : List ℕ) (total : ℕ) : scores.foldl (accumulate .last) total = scores.getLast?.getD total := by
        induction scores generalizing total with
        | nil => rfl
        | cons n scores ih =>
            rw [List.foldl_cons, ih, List.getLast?_cons]
            rfl
      exact hlast scores 0
  | sum =>
      have hsum (scores : List ℕ) (total : ℕ) : scores.foldl (accumulate .sum) total = total + scores.sum := by
        induction scores generalizing total with
        | nil => rfl
        | cons n scores ih =>
            rw [List.foldl_cons, ih, List.sum_cons, accumulate, Nat.add_assoc]
      exact (hsum scores 0).trans (Nat.zero_add _)
  | product =>
      have hprod (scores : List ℕ) (total : ℕ) : scores.foldl (accumulate .product) total = total * scores.prod := by
        induction scores generalizing total with
        | nil => simp
        | cons n scores ih =>
            rw [List.foldl_cons, ih, List.prod_cons, accumulate]
            split_ifs with hpos
            · rw [Nat.mul_assoc]
            · rw [Nat.eq_zero_of_not_pos hpos, Nat.zero_mul, Nat.zero_mul]
      exact (hprod scores 1).trans (Nat.one_mul _)

theorem Prepared.scoreFrom (h : Prepared g sources c) (hsources : ∀ s ∈ sources, g.Contains s) (hne : sources ≠ [])
    (hlands : Lands g poses cells) (aggregationType : ScoreAggregationType) (stopOnFailure : Bool) (total : ℕ) :
    c.scoreFrom g aggregationType stopOnFailure poses total =
      some (if none ∈ cells then .error .goesOffGrid
        else .ok ((cells.reduceOption.map (score g sources)).foldl (accumulate aggregationType) total)) := by
  induction hlands generalizing total with
  | nil => rfl
  | @cons pose entry poses cells hpose _ ih =>
      rw [MapGridCritic.scoreFrom, scorePose, hpose]
      cases entry with
      | none =>
          rw [if_pos List.mem_cons_self]
          rfl
      | some cell =>
          have hcell := worldToMap_contains hpose
          have hlt := score_lt hsources hne hcell
          have hmem : none ∈ some cell :: cells ↔ none ∈ cells := by simp
          have hvalue := h.scores cell hcell
          simp only [hmem, Option.map_some, Option.bind_some, hvalue, List.reduceOption_cons_of_some, List.map_cons, List.foldl_cons]
          rw [if_neg (by rw [h.obstacleScore]; omega), if_neg (by rw [h.unreachableScore]; omega)]
          exact ih _

theorem scoredPoses_lands (aggregationType : ScoreAggregationType) (stopOnFailure : Bool) (h : Lands g poses cells) :
    Lands g (scoredPoses aggregationType stopOnFailure poses) (scoredPoses aggregationType stopOnFailure cells) := by
  unfold scoredPoses
  split_ifs
  · rw [h.length_eq]
    exact List.forall₂_drop _ h
  · exact h

theorem sourcesOf_subset (kind : Kind) (run : List MapLocation) : sourcesOf kind run ⊆ run := by
  intro s hs
  cases kind with
  | pathDist => exact hs
  | goalDist => exact List.mem_of_getLast? (Option.mem_toList.mp hs)

theorem sourcesOf_ne_nil (kind : Kind) {run : List MapLocation} (h : run ≠ []) : sourcesOf kind run ≠ [] := by
  cases kind with
  | pathDist => exact h
  | goalDist =>
      rw [sourcesOf, List.getLast?_eq_some_getLast h]
      exact List.cons_ne_nil _ _

/-- 用意に成功した後は、調べる点がすべて地図の中にある軌道の得点は、源までのマンハッタン距離の最後の値、和、または積であり、
障害物や届かない升目として捨てられることはない。 -/
theorem scoreTrajectory_prepared (kind : Kind) (g₀ : Costmap2D K) (cycles : List (Cycle K)) (cycle : Cycle K)
    (aggregationType : ScoreAggregationType) (stopOnFailure : Bool) {trajectory : List (K × K)}
    {landed : List (Option MapLocation)} {c c' : MapGridCritic} (hfits : ∀ cycle ∈ cycles, Fits g₀ cycle)
    (hfit : Fits g₀ cycle) (hvisits : Visits cycle.costmap cycle.poses cells)
    (hall : prepareAll kind (onInit g₀) cycles = some c)
    (hprepare : prepare kind c cycle.costmap cycle.poses = some (true, c'))
    (hlands : Lands cycle.costmap trajectory landed) :
    c'.scoreTrajectory cycle.costmap aggregationType stopOnFailure trajectory =
      some (if none ∈ scoredPoses aggregationType stopOnFailure landed then .error .goesOffGrid
        else .ok (combine aggregationType ((scoredPoses aggregationType stopOnFailure landed).reduceOption.map
          (score cycle.costmap (sourcesOf kind (firstRun cells)))))) := by
  obtain ⟨c₁, hall₁, husable⟩ := (Usable.onInit g₀).prepareAll kind cycles hfits
  rw [hall, Option.some.injEq] at hall₁
  subst hall₁
  obtain ⟨c₂, hprepare₂, hprepared⟩ := husable.prepare kind hfit hvisits
  rw [hprepare, Option.some.injEq, Prod.mk.injEq] at hprepare₂
  obtain ⟨hstarted, rfl⟩ := hprepare₂
  have hne : firstRun cells ≠ [] := by
    intro hnil
    rw [hnil] at hstarted
    cases hstarted
  rw [scoreTrajectory, hprepared.scoreFrom (fun s hs => visits_contains hvisits (sourcesOf_subset kind _ hs))
    (sourcesOf_ne_nil kind hne) (scoredPoses_lands aggregationType stopOnFailure hlands), foldl_accumulate]

-- 経路からの距離の和。
theorem scoreTrajectory_prepared_entering :
    ∃ c c', prepareAll .pathDist (onInit corner) [outside] = some c ∧
      prepare .pathDist c corner entering.poses = some (true, c') ∧
        c'.scoreTrajectory corner .sum true [(0.5, 2.5), (3.5, 2.5)] = some (.ok 6) := by
  obtain ⟨c, hall, husable⟩ := (Usable.onInit corner).prepareAll .pathDist [outside] fits_outside
  obtain ⟨c', hprepare, -⟩ := husable.prepare .pathDist fits_entering visits_entering
  have hlands : Lands corner [(0.5, 2.5), (3.5, 2.5)] [some ⟨0, 2⟩, some ⟨3, 2⟩] := by
    refine List.Forall₂.cons ?_ (List.Forall₂.cons ?_ List.Forall₂.nil) <;> decide +kernel
  have hscore := scoreTrajectory_prepared .pathDist corner [outside] entering .sum true fits_outside fits_entering
    visits_entering hall hprepare hlands
  exact ⟨c, c', hall, hprepare, hscore.trans (by decide)⟩

end Critic

end MapGridCritic

end Ranger.Dwb
