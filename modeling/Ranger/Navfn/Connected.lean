import Ranger.Lib.Worklist
import Ranger.Navfn.Potentials

/-!
# 目標から届く升目

並ぶ升目がなくなって止まったとき、値が `POT_HIGH` より低い升目は、通れる升目を上下左右に伝って、目標から届く升目である。
-/

namespace Ranger.Navfn

/-! ## 隣り合う升目 -/

/-- 升目 `a` と `b` が、上下か左右に隣り合う。 -/
def Adjacent (nx a b : ℕ) : Prop :=
  (a / nx = b / nx ∧ (a % nx + 1 = b % nx ∨ b % nx + 1 = a % nx)) ∨
    (a % nx = b % nx ∧ (a / nx + 1 = b / nx ∨ b / nx + 1 = a / nx))

instance (nx a b : ℕ) : Decidable (Adjacent nx a b) := inferInstanceAs (Decidable (_ ∨ _))

theorem Adjacent.symm {nx a b : ℕ} (h : Adjacent nx a b) : Adjacent nx b a := by
  rcases h with ⟨hrow, hcol⟩ | ⟨hcol, hrow⟩
  · exact Or.inl ⟨hrow.symm, hcol.symm⟩
  · exact Or.inr ⟨hcol.symm, hrow.symm⟩

theorem eq_cell_iff {nx q r a : ℕ} (hr : r < nx) : a = nx * q + r ↔ a / nx = q ∧ a % nx = r := by
  constructor
  · rintro rfl
    rw [Nat.mul_add_div (Nat.zero_lt_of_lt hr), Nat.div_eq_of_lt hr, Nat.add_zero, Nat.mul_add_mod, Nat.mod_eq_of_lt hr]
    exact ⟨rfl, rfl⟩
  · rintro ⟨rfl, rfl⟩
    exact (Nat.div_add_mod a nx).symm

/-- 縁にない升目に隣り合う升目の番号。 -/
theorem adjacent_iff {nx ny a b : ℕ} (hb : Interior nx ny b) :
    Adjacent nx a b ↔ a = b - 1 ∨ a = b + 1 ∨ a = b - nx ∨ a = b + nx := by
  obtain ⟨hleft, hright, htop, -⟩ := hb
  have hsplit := Nat.div_add_mod b nx
  unfold Adjacent
  generalize b / nx = q at hsplit htop ⊢
  generalize b % nx = r at hsplit hleft hright ⊢
  obtain ⟨p, rfl⟩ : ∃ p, q = p + 1 := ⟨q - 1, by omega⟩
  have hwest : b - 1 = nx * (p + 1) + (r - 1) := by omega
  have heast : b + 1 = nx * (p + 1) + (r + 1) := by omega
  have hnorth : b - nx = nx * p + r := by
    rw [← hsplit, Nat.mul_add_one]
    omega
  have hsouth : b + nx = nx * (p + 2) + r := by
    rw [← hsplit, Nat.mul_add_one, Nat.mul_add nx p 2]
    omega
  rw [hwest, heast, hnorth, hsouth, eq_cell_iff (by omega), eq_cell_iff (by omega), eq_cell_iff (by omega),
    eq_cell_iff (by omega)]
  omega

namespace NavFn

variable {K : Type*} [Field K] [LinearOrder K] {m s : NavFn K} {a n : ℕ} {rest : List ℕ}

/-- 一回の更新で、隣の値より高くなる量の上限。 -/
def maxStep : K := ((255 : ℕ) : K)

/-- 通れる升目 `b` へ進む。 -/
def Edge (m : NavFn K) (a b : ℕ) : Prop := Adjacent m.nx a b ∧ m.Traversable b

def Reached (s : NavFn K) (n : ℕ) : Prop := s.potarr n < potHigh

/-- 隣へ進んでも `POT_HIGH` に届かない。 -/
def Settled (s : NavFn K) (n : ℕ) : Prop := s.potarr n + maxStep < potHigh

def Waiting (rest : List ℕ) (s : NavFn K) (n : ℕ) : Prop := n ∈ rest ∨ n ∈ s.blocks .next ∨ n ∈ s.blocks .overflow

/-! ## 一つの升目の更新 -/

theorem Bordered.mem_affected (hm : m.Bordered) (hmap : m.SameMap s) (hn : m.Traversable n) (ha : Adjacent m.nx a n)
    (haffects : s.Affects n a) : (a : ℤ) ∈ s.affected n := by
  have hinterior := hm n hn
  have hup : m.nx ≤ n := hinterior.around.1.le
  have hleft : 0 < n := (Nat.zero_le _).trans_lt hinterior.around.1
  rw [← hmap.nx] at ha hup
  unfold affected
  simp only [List.mem_append]
  rcases (adjacent_iff (by rw [hmap.nx]; exact hinterior)).mp ha with rfl | rfl | rfl | rfl
  · simp [haffects, hleft]
  · simp [haffects]
  · simp [haffects, hup]
  · simp [haffects]

variable [IsStrictOrderedRing K]

theorem SameMap.cost_le (hmap : m.SameMap s) (hn : m.Traversable n) : ((s.costarr n).toNat : K) ≤ ((253 : ℕ) : K) := by
  have hlt : (s.costarr n).toNat < costObs.toNat := UInt8.lt_iff_toNat_lt.mp (hmap.costarr ▸ hn.2)
  exact Nat.cast_le.mpr (Nat.le_of_lt_succ hlt)

theorem SameMap.invSqrt2_mul_le (hmap : m.SameMap s) (hn : m.Traversable n) :
    invSqrt2 * ((s.costarr n).toNat : K) ≤ maxStep := by
  have hcost := hmap.cost_le hn
  unfold invSqrt2 maxStep
  push_cast at hcost ⊢
  norm_num
  linarith

theorem Bordered.newPotential_le (hm : m.Bordered) (hmap : m.SameMap s) (hn : m.Traversable n) (ha : Adjacent m.nx a n) :
    s.newPotential n ≤ s.potarr a + maxStep := by
  have hnear : s.potarr (n - 1) ≤ s.potarr a ∨ s.potarr (n + 1) ≤ s.potarr a ∨ s.potarr (n - s.nx) ≤ s.potarr a ∨
      s.potarr (n + s.nx) ≤ s.potarr a := by
    rw [hmap.nx]
    rcases (adjacent_iff (hm n hn)).mp ha with rfl | rfl | rfl | rfl
    · exact Or.inl le_rfl
    · exact Or.inr (Or.inl le_rfl)
    · exact Or.inr (Or.inr (Or.inl le_rfl))
    · exact Or.inr (Or.inr (Or.inr le_rfl))
  have hcost := hmap.cost_le hn
  apply (planarWave_le hnear).trans
  apply add_le_add_right
  unfold maxStep
  push_cast at hcost ⊢
  norm_num
  linarith

theorem Bordered.exists_reached (hm : m.Bordered) (hmap : m.SameMap s) (hn : m.Traversable n)
    (hreached : s.newPotential n < potHigh) : ∃ a, Adjacent m.nx a n ∧ s.Reached a := by
  by_contra hnone
  have hhigh (a : ℕ) (ha : Adjacent m.nx a n) : potHigh ≤ s.potarr a :=
    not_lt.mp fun hlow => hnone ⟨a, ha, hlow⟩
  have hadjacent (a : ℕ) := adjacent_iff (a := a) (hm n hn)
  apply absurd hreached
  rw [not_lt]
  apply le_newPotential
  · exact hhigh _ ((hadjacent _).mpr (Or.inl rfl))
  · exact hhigh _ ((hadjacent _).mpr (Or.inr (Or.inl rfl)))
  · rw [hmap.nx]
    exact hhigh _ ((hadjacent _).mpr (Or.inr (Or.inr (Or.inl rfl))))
  · rw [hmap.nx]
    exact hhigh _ ((hadjacent _).mpr (Or.inr (Or.inr (Or.inr rfl))))

/-! ## 広がりの不変条件 -/

/-- 断られた升目がない限り、着いた升目の先は、着いているか、待っている。 -/
def Spread (m : NavFn K) (rest : List ℕ) (s : NavFn K) : Prop :=
  s.refused = false → Lib.Explored (Edge m) m.goalCell s.Reached s.Settled (Waiting rest s)

/-- 値を下げる更新は、升目に着いて、その先を待たせる。 -/
theorem Spread.lower {t : NavFn K} (hm : m.Bordered) (hsweep : Sweeping m (n :: rest) s) (hvalued : Valued m s.potarr)
    (h : Spread m (n :: rest) s) (hlower : s.newPotential n < s.potarr n)
    (hpushed : PushedAll [.next, .overflow] (s.affected n) (s.setPotential n) t) : Spread m rest t := by
  intro hrefused
  have htrav := hsweep.traversable n List.mem_cons_self
  have hclear : s.refused = false := by
    by_contra htrue
    rw [hpushed.refused (Bool.eq_true_of_not_eq_false htrue)] at hrefused
    cases hrefused
  have hpotarr (a : ℕ) : t.potarr a = if a = n then s.newPotential n else s.potarr a := by
    rw [hpushed.potarr, setPotential_potarr]
  have hnew : s.newPotential n < potHigh := hlower.trans_le (hvalued.high n)
  obtain ⟨a, ha, hreached⟩ := hm.exists_reached hsweep.same htrav hnew
  refine (h hclear).visit ⟨a, hreached, ha, htrav⟩ (fun b => ?_) (fun b hb => ?_) (fun c hsettled hedge => ?_)
    fun b hb hne => ?_
  · unfold Reached
    rw [hpotarr]
    split_ifs with heq
    · exact iff_of_true hnew (Or.inr heq)
    · exact ⟨Or.inl, fun h => h.resolve_right heq⟩
  · unfold Settled at hb ⊢
    rw [hpotarr] at hb
    split_ifs at hb with heq
    · exact Or.inr heq
    · exact Or.inl hb
  · by_cases hlow : t.Reached c
    · exact Or.inl hlow
    · have hne : c ≠ n := by
        rintro rfl
        unfold Reached at hlow
        rw [hpotarr, if_pos rfl] at hlow
        exact hlow hnew
      unfold Reached at hlow
      rw [hpotarr, if_neg hne, not_lt] at hlow
      unfold Settled at hsettled
      rw [hpotarr, if_pos rfl] at hsettled
      have haffects : s.Affects n c :=
        ((add_le_add_right (hsweep.same.invSqrt2_mul_le hedge.2) _).trans_lt hsettled).trans_le hlow
      have hmem := hm.mem_affected hsweep.same htrav hedge.1.symm haffects
      have hqueued := hsweep.queued.setPotential n
      have hctrav : (s.setPotential n).Traversable c := (hsweep.same.traversable_iff c).mpr hedge.2
      rcases hpushed.added hqueued c hmem hctrav with htrue | hwait
      · rw [hrefused] at htrue
        cases htrue
      · exact Or.inr (Or.inr (by simpa using hwait))
  · rcases hb with hb | hb | hb
    · exact Or.inl ((List.mem_cons.mp hb).resolve_left hne)
    · exact Or.inr (Or.inl (hpushed.keeps _ b hb))
    · exact Or.inr (Or.inr (hpushed.keeps _ b hb))

/-- 値を変えない更新では、升目はすでに着いている。 -/
theorem Spread.keep (hm : m.Bordered) (hsweep : Sweeping m (n :: rest) s) (h : Spread m (n :: rest) s)
    (hkeep : s.potarr n ≤ s.newPotential n) : Spread m rest s := by
  intro hrefused
  refine Lib.Explored.drop (b := n) (h hrefused) (fun a hsettled hedge => ?_) fun b hb hne => ?_
  · have hnew := hm.newPotential_le hsweep.same hedge.2 hedge.1
    exact (hkeep.trans hnew).trans_lt hsettled
  · rcases hb with hb | hb
    · exact Or.inl ((List.mem_cons.mp hb).resolve_left hne)
    · exact Or.inr hb

omit [IsStrictOrderedRing K] in
theorem Spread.leave (h : Spread m [] s) : Spread m (s.swapBlocks.blocks .cur) s.swapBlocks := by
  unfold Spread swapBlocks at *
  split_ifs with hnext
  · intro hrefused
    apply (h hrefused).congr
    intro n
    simp [Waiting, hnext]
  · intro hrefused
    apply (h hrefused).congr
    intro n
    simp [Waiting]

theorem spread_cycleInv (hm : m.Bordered) :
    CycleInv (fun s => (Loaded m s ∧ Valued m s.potarr) ∧ Spread m (s.blocks .cur) s)
      (fun rest s => (Sweeping m rest s ∧ Valued m s.potarr) ∧ Spread m rest s) where
  enter s h := ⟨(valued_cycleInv m).enter s h.1, h.2⟩
  update n rest s h := by
    refine ⟨(valued_cycleInv m).update n rest s h.1, ?_⟩
    obtain ⟨⟨hsweep, hvalued⟩, hspread⟩ := h
    have htrav := hsweep.traversable n List.mem_cons_self
    obtain ⟨hkeep, heq⟩ | ⟨hlower, hpushed⟩ := updateCell_cases ((hsweep.same.traversable_iff n).mpr htrav)
    · rw [heq]
      exact hspread.keep hm hsweep hkeep
    · exact hspread.lower hm hsweep hvalued hlower hpushed
  leave s h := ⟨(valued_cycleInv m).leave s h.1, h.2.leave⟩

omit [Field K] [LinearOrder K] [IsStrictOrderedRing K] in
theorem mem_goalNeighbors {b : ℕ} (hb : Interior s.nx s.ny b) (h : Adjacent s.nx s.goalCell b) :
    (b : ℤ) ∈ s.goalNeighbors := by
  have hup := hb.around.1
  simp only [goalNeighbors, List.mem_cons, List.not_mem_nil, or_false]
  rcases (adjacent_iff hb).mp h with heq | heq | heq | heq
  · omega
  · omega
  · omega
  · omega

omit [IsStrictOrderedRing K] in
theorem setupNavFn_reached {keepit : Bool} (hn : (s.setupNavFn keepit).Reached n) :
    n = (s.setupNavFn keepit).goalCell := by
  by_contra hne
  unfold Reached at hn
  rw [setupNavFn_potarr, Function.update_of_ne hne] at hn
  exact absurd hn (lt_irrefl _)

/-- 準備では、目標に着いて、目標の隣を待たせる。 -/
theorem setupNavFn_spread (keepit : Bool) (s : NavFn K) :
    Spread (s.setupNavFn keepit) ((s.setupNavFn keepit).blocks .cur) (s.setupNavFn keepit) := by
  intro hrefused
  have hpushed := setupNavFn_pushed keepit s
  refine ⟨?_, fun a ha => ?_, fun a b ha hedge => ?_⟩
  · unfold Reached
    rw [(setupNavFn_valued keepit s).goal]
    exact potHigh_pos
  · rw [setupNavFn_reached ha]
  · have hgoal : a = (s.setupNavFn keepit).goalCell := by
      apply setupNavFn_reached
      have hstep : (0 : K) ≤ maxStep := Nat.cast_nonneg _
      exact (le_add_of_nonneg_right hstep).trans_lt ha
    have hnx : (s.setupNavFn keepit).nx = s.nx := hpushed.same.nx
    have hcell : (s.setupNavFn keepit).goalCell = s.goalCell := hpushed.same.goalCell
    have hadjacent : Adjacent s.nx s.goalCell b := by
      rw [← hnx, ← hcell, ← hgoal]
      exact hedge.1
    have hmem := mem_goalNeighbors (setupNavFn_interior hedge.2) hadjacent
    have hctrav := (hpushed.same.traversable_iff b).mp hedge.2
    rcases hpushed.added (clearedNavFn_queued keepit s) b hmem hctrav with htrue | hwait
    · rw [hrefused] at htrue
      cases htrue
    · exact Or.inr (Or.inl (by simpa using hwait))

/-! ## 値の上限 -/

/-- 着いた升目。 -/
def reachedCells (m : NavFn K) (potarr : ℕ → K) : Finset ℕ := (Finset.range m.ns).filter fun n => potarr n < potHigh

omit [IsStrictOrderedRing K] in
theorem card_reachedCells_le (m : NavFn K) (potarr : ℕ → K) : (m.reachedCells potarr).card ≤ m.ns :=
  (Finset.card_filter_le _ _).trans_eq (Finset.card_range m.ns)

/-- 着いた升目の値は、着いた升目の数だけ進んだ値より高くない。 -/
structure Tallied (m : NavFn K) (potarr : ℕ → K) : Prop where
  valued : Valued m potarr
  le_card : ∀ n, potarr n < potHigh → potarr n + maxStep ≤ maxStep * ((m.reachedCells potarr).card : K)

theorem Tallied.update (hm : m.Bordered) (hmap : m.SameMap s) (htrav : m.Traversable n) (h : Tallied m s.potarr)
    (hlower : s.newPotential n < s.potarr n) :
    Tallied m (Function.update s.potarr n (s.newPotential n)) := by
  have hnew : s.newPotential n < potHigh := hlower.trans_le (h.valued.high n)
  have hstep : (0 : K) ≤ maxStep := Nat.cast_nonneg _
  have hsub : m.reachedCells s.potarr ⊆ m.reachedCells (Function.update s.potarr n (s.newPotential n)) := by
    intro k hk
    simp only [reachedCells, Finset.mem_filter] at hk ⊢
    refine ⟨hk.1, ?_⟩
    rw [Function.update_apply]
    split_ifs
    · exact hnew
    · exact hk.2
  have hgrow {p : K} {a : ℕ} (hp : p ≤ maxStep * (a : K)) (ha : a ≤ (m.reachedCells _).card) :
      p ≤ maxStep * ((m.reachedCells (Function.update s.potarr n (s.newPotential n))).card : K) :=
    hp.trans (mul_le_mul_of_nonneg_left (Nat.cast_le.mpr ha) hstep)
  refine ⟨h.valued.update htrav hlower, fun k hk => ?_⟩
  rw [Function.update_apply] at hk ⊢
  split_ifs at hk ⊢ with heq
  · by_cases hbefore : s.potarr n < potHigh
    · apply hgrow _ (Finset.card_le_card hsub)
      exact (add_le_add_left hlower.le _).trans (h.le_card n hbefore)
    · have hcard : (m.reachedCells s.potarr).card + 1 ≤
          (m.reachedCells (Function.update s.potarr n (s.newPotential n))).card := by
        apply Finset.card_lt_card
        refine ⟨hsub, fun hback => hbefore ?_⟩
        have hmem : n ∈ m.reachedCells (Function.update s.potarr n (s.newPotential n)) := by
          rw [reachedCells, Finset.mem_filter, Finset.mem_range, Function.update_self]
          exact ⟨htrav.1, hnew⟩
        exact (Finset.mem_filter.mp (hback hmem)).2
      obtain ⟨a, ha, hreached⟩ := hm.exists_reached hmap htrav hnew
      apply hgrow _ hcard
      rw [Nat.cast_add, Nat.cast_one, mul_add, mul_one]
      exact add_le_add_left ((hm.newPotential_le hmap htrav ha).trans (h.le_card a hreached)) _
  · exact hgrow (h.le_card k hk) (Finset.card_le_card hsub)

theorem tallied_cycleInv (hm : m.Bordered) :
    CycleInv (fun s => Loaded m s ∧ Tallied m s.potarr) (fun rest s => Sweeping m rest s ∧ Tallied m s.potarr) :=
  potarr_cycleInv fun _ _ hmap htrav h hlower => h.update hm hmap htrav hlower

theorem setupNavFn_tallied (keepit : Bool) (hgoal : s.goalCell < s.ns) :
    Tallied (s.setupNavFn keepit) (s.setupNavFn keepit).potarr := by
  have hvalued := setupNavFn_valued keepit s
  refine ⟨hvalued, fun n hn => ?_⟩
  have hcell : n = (s.setupNavFn keepit).goalCell := setupNavFn_reached hn
  have hmem : n ∈ (s.setupNavFn keepit).reachedCells (s.setupNavFn keepit).potarr := by
    have hsame := (setupNavFn_pushed keepit s).same
    rw [reachedCells, Finset.mem_filter, Finset.mem_range]
    refine ⟨?_, hn⟩
    rw [hcell, hsame.goalCell, ns, hsame.nx, hsame.ny]
    exact hgoal
  have hone : ((1 : ℕ) : K) ≤ (((s.setupNavFn keepit).reachedCells (s.setupNavFn keepit).potarr).card : K) :=
    Nat.cast_le.mpr (Finset.card_pos.mpr ⟨n, hmem⟩)
  rw [Nat.cast_one] at hone
  rw [hcell, hvalued.goal, zero_add]
  exact le_mul_of_one_le_right (Nat.cast_nonneg _) hone

/-- 升目の数が `POT_HIGH` に比べて少なければ、値は `POT_HIGH` に近づかない。 -/
theorem reached_settled (hgoal : s.goalCell < s.ns) (hsize : maxStep * (s.ns : K) < potHigh) (atStart : Bool)
    (cycles : ℕ) (hn : (propNavFnDijkstra atStart cycles (s.setupNavFn true)).1.Reached n) :
    (propNavFnDijkstra atStart cycles (s.setupNavFn true)).1.Settled n := by
  have hloaded := setupNavFn_loaded true s
  have htallied := setupNavFn_tallied true hgoal
  have hend := (tallied_cycleInv (setupNavFn_bordered true s)).propNavFnDijkstra ⟨hloaded, htallied⟩ atStart cycles
  have hcard := card_reachedCells_le (s.setupNavFn true) (propNavFnDijkstra atStart cycles (s.setupNavFn true)).1.potarr
  have hns : (s.setupNavFn true).ns = s.ns := by
    rw [ns, ns, (setupNavFn_pushed true s).same.nx, (setupNavFn_pushed true s).same.ny]
    rfl
  rw [hns] at hcard
  refine (hend.2.le_card n hn).trans_lt (lt_of_le_of_lt ?_ hsize)
  exact mul_le_mul_of_nonneg_left (Nat.cast_le.mpr hcard) (Nat.cast_nonneg _)

/-! ## 実行の全体 -/

omit [IsStrictOrderedRing K] in
theorem updateCalls_interior (s : NavFn K) (atStart : Bool) (cycles : ℕ) :
    ∀ c ∈ updateCalls atStart cycles (s.setupNavFn true), c.1.Traversable c.2 ∧ Interior s.nx s.ny c.2 := by
  intro c hc
  have hinv := loaded_cycleInv (s.setupNavFn true)
  obtain ⟨rest, hsweep⟩ := hinv.updateCalls (setupNavFn_loaded true s) atStart cycles c hc
  have htrav := hsweep.traversable c.2 List.mem_cons_self
  exact ⟨(hsweep.same.traversable_iff c.2).mpr htrav, setupNavFn_interior htrav⟩

/-- 並ぶ升目がなくなって止まったとき、着いた升目は、目標から届く升目である。 -/
theorem idle_reached_iff {u : NavFn K} {cycles : ℕ} (hrun : propNavFnDijkstra false cycles (s.setupNavFn true) = (u, true))
    (hrefused : u.refused = false) (hbelow : ∀ n, u.Reached n → u.Settled n) (n : ℕ) :
    u.Reached n ↔ Relation.ReflTransGen (Edge (s.setupNavFn true)) (s.setupNavFn true).goalCell n := by
  have hstart : (Loaded (s.setupNavFn true) (s.setupNavFn true) ∧
      Valued (s.setupNavFn true) (s.setupNavFn true).potarr) ∧ _ :=
    ⟨⟨setupNavFn_loaded true s, setupNavFn_valued true s⟩, setupNavFn_spread true s⟩
  have hend := (spread_cycleInv (setupNavFn_bordered true s)).propNavFnDijkstra hstart false cycles
  rw [hrun] at hend
  obtain ⟨⟨hloaded, -⟩, hspread⟩ := hend
  have hidle := propNavFnDijkstra_idle hrun
  apply (hspread hrefused).complete hbelow
  rintro a (ha | ha | ha)
  · rw [hidle.1] at ha
    exact absurd ha List.not_mem_nil
  · rw [hidle.2] at ha
    exact absurd ha List.not_mem_nil
  · rw [hloaded.drained hidle.1] at ha
    exact absurd ha List.not_mem_nil

-- 行き止まりの廊下の奥にも、値が届く。
def corridor : NavFn ℚ where
  nx := 5
  ny := 3
  costarr := fun _ => 50
  potarr := fun _ => 0
  pending := fun _ => false
  gradx := fun _ => 0
  grady := fun _ => 0
  blocks := fun _ => []
  curT := 0
  priInc := 100
  goal := (1, 1)
  start := (3, 1)
  refused := false

end NavFn

end Ranger.Navfn
