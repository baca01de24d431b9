import Ranger.Navfn.Buffers

/-!
# 繰り返しの不変条件

繰り返しの初めの条件と、升目を更新する間の条件が、一歩ごとに保たれるとき、実行の全体で成り立つ。升目を並べる配列は、
この規則に従う。
-/

namespace Ranger.Navfn.NavFn

variable {K : Type*} [Field K] [LinearOrder K]

/-- `Between` は繰り返しの初めの条件で、`During rest` は残りの升目 `rest` を更新する前の条件である。 -/
structure CycleInv (Between : NavFn K → Prop) (During : List ℕ → NavFn K → Prop) : Prop where
  enter : ∀ s, Between s → During (s.blocks .cur) s.clearPending
  update : ∀ n rest s, During (n :: rest) s → During rest (s.updateCell n)
  leave : ∀ s, During [] s → Between s.swapBlocks

section CycleInv

variable {Between : NavFn K → Prop} {During : List ℕ → NavFn K → Prop} {s : NavFn K}

theorem CycleInv.sweep (h : CycleInv Between During) {rest : List ℕ} (hs : During rest s) :
    During [] (rest.foldl (fun s n => s.updateCell n) s) := by
  induction rest generalizing s with
  | nil => exact hs
  | cons n rest ih => exact ih (h.update n rest s hs)

theorem CycleInv.runCycle (h : CycleInv Between During) (hs : Between s) : Between s.runCycle :=
  h.leave _ (h.sweep (h.enter s hs))

theorem CycleInv.propNavFnDijkstra (h : CycleInv Between During) (hs : Between s) (atStart : Bool) (cycles : ℕ) :
    Between (propNavFnDijkstra atStart cycles s).1 := by
  induction cycles generalizing s with
  | zero => exact hs
  | succ cycles ih =>
      rw [NavFn.propNavFnDijkstra]
      split_ifs
      · exact hs
      · exact h.runCycle hs
      · exact ih (h.runCycle hs)

theorem CycleInv.cycleStarts (h : CycleInv Between During) (hs : Between s) (atStart : Bool) (cycles : ℕ) :
    ∀ u ∈ cycleStarts atStart cycles s, Between u := by
  induction cycles generalizing s with
  | zero =>
      intro u hu
      rwa [List.mem_singleton.mp hu]
  | succ cycles ih =>
      intro u hu
      rw [NavFn.cycleStarts] at hu
      rcases List.mem_cons.mp hu with rfl | hu
      · exact hs
      · split_ifs at hu
        · exact absurd hu List.not_mem_nil
        · exact absurd hu List.not_mem_nil
        · exact ih (h.runCycle hs) u hu

theorem CycleInv.updates (h : CycleInv Between During) {rest : List ℕ} (hs : During rest s) :
    ∀ c ∈ updates rest s, ∃ rest', During (c.2 :: rest') c.1 := by
  induction rest generalizing s with
  | nil =>
      intro c hc
      exact absurd hc List.not_mem_nil
  | cons n rest ih =>
      intro c hc
      rcases List.mem_cons.mp hc with rfl | hc
      · exact ⟨rest, hs⟩
      · exact ih (h.update n rest s hs) c hc

theorem CycleInv.updateCalls (h : CycleInv Between During) (hs : Between s) (atStart : Bool) (cycles : ℕ) :
    ∀ c ∈ updateCalls atStart cycles s, ∃ rest, During (c.2 :: rest) c.1 := by
  induction cycles generalizing s with
  | zero =>
      intro c hc
      exact absurd hc List.not_mem_nil
  | succ cycles ih =>
      intro c hc
      rw [NavFn.updateCalls] at hc
      split_ifs at hc
      · exact absurd hc List.not_mem_nil
      · rw [List.append_nil] at hc
        exact h.updates (h.enter s hs) c hc
      · rcases List.mem_append.mp hc with hc | hc
        · exact h.updates (h.enter s hs) c hc
        · exact ih (h.runCycle hs) c hc

/-- 始まりに届いたかを見ないとき、途中で止まるのは、並ぶ升目がないときである。 -/
theorem propNavFnDijkstra_idle {cycles : ℕ} {u : NavFn K} (h : propNavFnDijkstra false cycles s = (u, true)) :
    u.Idle := by
  induction cycles generalizing s with
  | zero => cases h
  | succ cycles ih =>
      rw [propNavFnDijkstra] at h
      split_ifs at h with hidle harrived
      · cases h
        exact hidle
      · cases harrived.1
      · exact ih h

end CycleInv

/-! ## 升目を並べる配列 -/

section Loaded

variable {m s t : NavFn K} {n : ℕ} {rest : List ℕ}

/-- 繰り返しの初め。`m` は準備を終えた状態である。 -/
structure Loaded (m s : NavFn K) : Prop where
  same : m.SameMap s
  queued : Queued [.cur, .overflow] s
  next_nil : s.blocks .next = []
  drained : s.blocks .cur = [] → s.blocks .overflow = []
  room : m.traversableCells.length ≤ priorityBufSize → s.refused = false

omit [Field K] [LinearOrder K] in
theorem Loaded.pending_iff (h : Loaded m s) (n : ℕ) : s.pending n = true ↔ n ∈ s.blocks .cur ∨ n ∈ s.blocks .overflow := by
  simpa using h.queued.pending_iff n

omit [Field K] [LinearOrder K] in
theorem Loaded.nodup (h : Loaded m s) : (s.blocks .cur ++ s.blocks .overflow).Nodup := by
  simpa using h.queued.nodup

/-- 残りの升目 `rest` を更新する前。 -/
structure Sweeping (m : NavFn K) (rest : List ℕ) (s : NavFn K) : Prop where
  same : m.SameMap s
  queued : Queued [.next, .overflow] s
  traversable : ∀ n ∈ rest, m.Traversable n
  room : m.traversableCells.length ≤ priorityBufSize → s.refused = false

omit [Field K] [LinearOrder K] in
theorem clearPending_pending (s : NavFn K) (n : ℕ) :
    s.clearPending.pending n = if n ∈ s.blocks .cur then false else s.pending n := by
  unfold clearPending
  dsimp only
  generalize s.blocks .cur = cur
  generalize s.pending = p
  induction cur generalizing p with
  | nil => simp
  | cons k cur ih =>
      rw [List.foldl_cons, ih, Function.update_apply]
      by_cases hn : n ∈ cur
      · simp [hn]
      · by_cases hk : n = k
        · simp [hk]
        · simp [hn, hk]

omit [Field K] [LinearOrder K] in
theorem Loaded.enter (h : Loaded m s) : Sweeping m (s.blocks .cur) s.clearPending where
  same := h.same.trans ⟨rfl, rfl, rfl, rfl⟩
  queued := by
    have hnodup := h.queued.nodup
    have hpending := h.queued.pending_iff
    simp only [List.flatMap_cons, List.flatMap_nil, List.append_nil] at hnodup hpending
    obtain ⟨-, hover, hdisjoint⟩ := List.nodup_append.mp hnodup
    have hnext : s.clearPending.blocks .next = [] := h.next_nil
    have hblocks : [Block.next, Block.overflow].flatMap s.clearPending.blocks = s.blocks .overflow := by
      rw [List.flatMap_cons, hnext, List.nil_append, List.flatMap_cons, List.flatMap_nil, List.append_nil]
      rfl
    refine ⟨fun n => ?_, ?_, h.queued.traversable⟩
    · rw [clearPending_pending, hblocks]
      split_ifs with hn
      · exact iff_of_false id fun hmem => hdisjoint n hn n hmem rfl
      · rw [hpending n, List.mem_append]
        exact or_iff_right hn
    · rw [hblocks]
      exact hover
  traversable n hn := (h.same.traversable_iff n).mp (h.queued.traversable .cur n hn)
  room := h.room

theorem Sweeping.update (h : Sweeping m (n :: rest) s) : Sweeping m rest (s.updateCell n) := by
  have hn : s.Traversable n := (h.same.traversable_iff n).mpr (h.traversable n List.mem_cons_self)
  have hrest : ∀ k ∈ rest, m.Traversable k := fun k hk => h.traversable k (List.mem_cons_of_mem n hk)
  obtain ⟨-, hkeep⟩ | ⟨-, hpushed⟩ := updateCell_cases hn
  · rw [hkeep]
    exact ⟨h.same, h.queued, hrest, h.room⟩
  · refine ⟨h.same.trans ((setPotential_sameMap n s).trans hpushed.same), hpushed.queued (h.queued.setPotential n),
      hrest, fun hroom => hpushed.room (h.queued.setPotential n) ?_ (h.room hroom)⟩
    rwa [(h.same.trans (setPotential_sameMap n s)).traversableCells]

omit [LinearOrder K] in
theorem Sweeping.leave (h : Sweeping m [] s) : Loaded m s.swapBlocks := by
  have hnodup := h.queued.nodup
  have hpending := h.queued.pending_iff
  simp only [List.flatMap_cons, List.flatMap_nil, List.append_nil] at hnodup hpending
  unfold swapBlocks
  split_ifs with hnext
  · rw [hnext, List.nil_append] at hnodup
    simp only [hnext, List.nil_append] at hpending
    refine ⟨⟨h.same.nx, h.same.ny, h.same.costarr, h.same.goal⟩, ⟨fun n => ?_, ?_, fun b n hn => ?_⟩, rfl, fun _ => rfl,
      h.room⟩
    · simpa using hpending n
    · simpa using hnodup
    · cases b with
      | cur => exact h.queued.traversable .overflow n hn
      | next => exact absurd hn List.not_mem_nil
      | overflow => exact absurd hn List.not_mem_nil
  · refine ⟨⟨h.same.nx, h.same.ny, h.same.costarr, h.same.goal⟩, ⟨fun n => ?_, ?_, fun b n hn => ?_⟩, rfl,
      fun hcur => absurd hcur hnext, h.room⟩
    · simpa using hpending n
    · simpa using hnodup
    · cases b with
      | cur => exact h.queued.traversable .next n hn
      | next => exact absurd hn List.not_mem_nil
      | overflow => exact h.queued.traversable .overflow n hn

theorem loaded_cycleInv (m : NavFn K) : CycleInv (Loaded m) (Sweeping m) :=
  ⟨fun _ => Loaded.enter, fun _ _ _ => Sweeping.update, fun _ => Sweeping.leave⟩

end Loaded

/-! ## 準備 -/

section Setup

variable {s : NavFn K} {keepit : Bool} {n : ℕ}

/-- 縁の升目は通れない。 -/
def Bordered (m : NavFn K) : Prop := ∀ n, m.Traversable n → Interior m.nx m.ny n

/-- 目標の隣を並べる前の、準備の状態。 -/
def clearedNavFn (keepit : Bool) (s : NavFn K) : NavFn K :=
  { s with
    potarr := Function.update (fun _ => potHigh) s.goalCell 0
    costarr := border s.nx s.ny (if keepit then s.costarr else fun _ => UInt8.ofNat costNeutral)
    gradx := fun _ => 0
    grady := fun _ => 0
    curT := (costObs.toNat : K)
    blocks := fun _ => []
    pending := fun _ => false
    refused := false }

/-- 目標の隣の番号。 -/
def goalNeighbors (s : NavFn K) : List ℤ :=
  [(s.goalCell : ℤ) + 1, (s.goalCell : ℤ) - 1, (s.goalCell : ℤ) - s.nx, (s.goalCell : ℤ) + s.nx]

omit [LinearOrder K] in
theorem setupNavFn_pushed (keepit : Bool) (s : NavFn K) :
    PushedAll [.cur] s.goalNeighbors (s.clearedNavFn keepit) (s.setupNavFn keepit) := by
  have hpush (n : ℤ) (t : NavFn K) : PushedAll [.cur] [n] t (t.pushCur n) :=
    PushedAll.single (List.nodup_singleton _) (List.mem_singleton.mpr rfl) n t
  exact (((hpush _ _).append (hpush _ _)).append (hpush _ _)).append (hpush _ _)

omit [LinearOrder K] in
theorem clearedNavFn_queued (keepit : Bool) (s : NavFn K) : Queued [.cur] (s.clearedNavFn keepit) :=
  ⟨fun _ => iff_of_false Bool.false_ne_true List.not_mem_nil, List.nodup_nil, fun _ _ h => absurd h List.not_mem_nil⟩

omit [LinearOrder K] in
theorem setupNavFn_loaded (keepit : Bool) (s : NavFn K) : Loaded (s.setupNavFn keepit) (s.setupNavFn keepit) := by
  have hpushed := setupNavFn_pushed keepit s
  have hqueued := hpushed.queued (clearedNavFn_queued keepit s)
  have hnext : (s.setupNavFn keepit).blocks .next = [] := hpushed.other .next (by decide)
  have hover : (s.setupNavFn keepit).blocks .overflow = [] := hpushed.other .overflow (by decide)
  have hblocks : [Block.cur, Block.overflow].flatMap (s.setupNavFn keepit).blocks =
      [Block.cur].flatMap (s.setupNavFn keepit).blocks := by
    simp [hover]
  refine ⟨SameMap.refl _, ⟨?_, ?_, hqueued.traversable⟩, hnext, fun _ => hover, fun hroom => ?_⟩
  · rw [hblocks]
    exact hqueued.pending_iff
  · rw [hblocks]
    exact hqueued.nodup
  · rw [hpushed.same.traversableCells] at hroom
    exact hpushed.room (clearedNavFn_queued keepit s) hroom rfl

omit [LinearOrder K] in
theorem setupNavFn_potarr (keepit : Bool) (s : NavFn K) :
    (s.setupNavFn keepit).potarr = Function.update (fun _ => potHigh) (s.setupNavFn keepit).goalCell 0 := by
  have hpushed := setupNavFn_pushed keepit s
  rw [hpushed.potarr, hpushed.same.goalCell]
  rfl

omit [LinearOrder K] in
/-- 準備の後では、縁の升目は通れない。 -/
theorem setupNavFn_interior (hn : (s.setupNavFn keepit).Traversable n) : Interior s.nx s.ny n := by
  rw [(setupNavFn_pushed keepit s).same.traversable_iff] at hn
  exact interior_of_border hn.1 hn.2

omit [LinearOrder K] in
theorem setupNavFn_bordered (keepit : Bool) (s : NavFn K) : (s.setupNavFn keepit).Bordered := by
  intro n hn
  have hinterior := setupNavFn_interior hn
  rw [(setupNavFn_pushed keepit s).same.nx, (setupNavFn_pushed keepit s).same.ny]
  exact hinterior

end Setup

end Ranger.Navfn.NavFn
