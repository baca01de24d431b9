import Mathlib.Data.List.Nodup
import Mathlib.Data.List.Perm.Subperm
import Mathlib.Tactic.Ring
import Ranger.Navfn.NavFn

/-!
# 升目を並べる配列

`pending` の印は、升目が並んでいることを表す。一つの升目は一度しか並ばないので、通れる升目が配列の長さより少なければ、場所は足りる。
-/

namespace Ranger.Navfn

theorem fill_apply {α : Type*} (a : ℕ → α) (v : α) (idx : ℕ → ℕ) (n k : ℕ) :
    fill a v idx n k = if ∃ i < n, idx i = k then v else a k := by
  induction n with
  | zero => simp [fill]
  | succ n ih =>
      have hstep : fill a v idx (n + 1) = Function.update (fill a v idx n) (idx n) v := by
        rw [fill, List.range_succ, List.foldl_append]
        rfl
      rw [hstep, Function.update_apply, ih]
      by_cases hlast : k = idx n
      · rw [if_pos hlast, if_pos ⟨n, Nat.lt_succ_self n, hlast.symm⟩]
      · rw [if_neg hlast]
        apply if_congr _ rfl rfl
        constructor
        · rintro ⟨i, hi, heq⟩
          exact ⟨i, Nat.lt_succ_of_lt hi, heq⟩
        · rintro ⟨i, hi, heq⟩
          refine ⟨i, Nat.lt_of_le_of_ne (Nat.lt_succ_iff.mp hi) ?_, heq⟩
          rintro rfl
          exact hlast heq.symm

/-- 縁にない升目。 -/
def Interior (nx ny n : ℕ) : Prop := 0 < n % nx ∧ n % nx + 1 < nx ∧ 0 < n / nx ∧ n / nx + 1 < ny

/-- 縁にない升目を囲む八つの升目は、地図の中にある。 -/
theorem Interior.around {nx ny n : ℕ} (h : Interior nx ny n) : nx < n ∧ n + nx + 1 < nx * ny := by
  obtain ⟨hleft, hright, htop, hbottom⟩ := h
  have hsplit := Nat.div_add_mod n nx
  have habove : nx * 1 ≤ nx * (n / nx) := Nat.mul_le_mul_left nx htop
  have hbelow : nx * (n / nx + 2) ≤ nx * ny := Nat.mul_le_mul_left nx hbottom
  rw [Nat.mul_add] at hbelow
  omega

/-- 縁を障害物にした地図で、通れる升目は縁にない。 -/
theorem interior_of_border {nx ny n : ℕ} {costarr : ℕ → UInt8} (hn : n < nx * ny)
    (hcost : NavFn.border nx ny costarr n < costObs) : Interior nx ny n := by
  have hnx : 0 < nx := Nat.pos_of_ne_zero (by rintro rfl; omega)
  have hcol := Nat.mod_lt n hnx
  have hrow : n / nx < ny := Nat.div_lt_of_lt_mul hn
  have hsplit := Nat.div_add_mod n nx
  have hne : ¬ costObs < costObs := by decide
  simp only [NavFn.border, fill_apply] at hcost
  split_ifs at hcost with hright hleft htop hbottom
  · exact absurd hcost hne
  · exact absurd hcost hne
  · exact absurd hcost hne
  · exact absurd hcost hne
  · refine ⟨Nat.pos_of_ne_zero fun hzero => hleft ⟨n / nx, hrow, ?_⟩,
      Nat.lt_of_le_of_ne hcol fun hlast => hright ⟨n / nx, hrow, ?_⟩,
      Nat.pos_of_ne_zero fun hzero => hbottom ⟨n, ?_, rfl⟩,
      Nat.lt_of_le_of_ne hrow fun hlast => htop ⟨n % nx, hcol, ?_⟩⟩
    · rw [Nat.mul_comm]
      omega
    · rw [Nat.mul_comm]
      omega
    · rw [hzero] at hsplit
      omega
    · rw [← hlast, Nat.add_sub_cancel, Nat.mul_comm]
      exact hsplit

/-- 一つの配列の後ろに加えると、全体では一つ増える。 -/
theorem flatMap_update_perm {ι α : Type*} [DecidableEq ι] {bs : List ι} (hbs : bs.Nodup) {b : ι} (hb : b ∈ bs)
    (f : ι → List α) (a : α) : (bs.flatMap (Function.update f b (f b ++ [a]))).Perm (a :: bs.flatMap f) := by
  induction bs with
  | nil => exact absurd hb List.not_mem_nil
  | cons c bs ih =>
      obtain ⟨hc, hbs⟩ := List.nodup_cons.mp hbs
      rw [List.flatMap_cons, List.flatMap_cons]
      rcases List.mem_cons.mp hb with rfl | hb
      · have hrest : bs.flatMap (Function.update f b (f b ++ [a])) = bs.flatMap f := by
          apply List.flatMap_congr
          intro d hd
          rw [Function.update_of_ne]
          rintro rfl
          exact hc hd
        rw [Function.update_self, hrest, List.append_assoc, List.singleton_append]
        exact List.perm_middle
      · have hne : c ≠ b := by
          rintro rfl
          exact hc hb
        rw [Function.update_of_ne hne]
        exact ((ih hbs hb).append_left (f c)).trans List.perm_middle

namespace NavFn

variable {K : Type*} {s t : NavFn K} {bs : List Block} {b : Block}

/-- 通れる升目。 -/
def Traversable (s : NavFn K) (n : ℕ) : Prop := n < s.ns ∧ s.costarr n < costObs

def traversableCells (s : NavFn K) : List ℕ := (List.range s.ns).filter fun n => s.costarr n < costObs

structure SameMap (s t : NavFn K) : Prop where
  nx : t.nx = s.nx
  ny : t.ny = s.ny
  costarr : t.costarr = s.costarr
  goal : t.goal = s.goal

/-- 配列 `bs` に並ぶ升目が、印のついた升目である。 -/
structure Queued (bs : List Block) (s : NavFn K) : Prop where
  pending_iff : ∀ n, s.pending n = true ↔ n ∈ bs.flatMap s.blocks
  nodup : (bs.flatMap s.blocks).Nodup
  traversable : ∀ b, ∀ n ∈ s.blocks b, s.Traversable n

theorem SameMap.refl (s : NavFn K) : s.SameMap s := ⟨rfl, rfl, rfl, rfl⟩

theorem SameMap.trans {u : NavFn K} (h : s.SameMap t) (h' : t.SameMap u) : s.SameMap u :=
  ⟨h'.nx.trans h.nx, h'.ny.trans h.ny, h'.costarr.trans h.costarr, h'.goal.trans h.goal⟩

theorem SameMap.traversable_iff (h : s.SameMap t) (n : ℕ) : t.Traversable n ↔ s.Traversable n := by
  rw [Traversable, Traversable, ns, ns, h.nx, h.ny, h.costarr]

theorem SameMap.goalCell (h : s.SameMap t) : t.goalCell = s.goalCell := by
  rw [NavFn.goalCell, NavFn.goalCell, h.nx, h.goal]

theorem SameMap.traversableCells (h : s.SameMap t) : t.traversableCells = s.traversableCells := by
  rw [NavFn.traversableCells, NavFn.traversableCells, ns, ns, h.nx, h.ny, h.costarr]

theorem mem_traversableCells {n : ℕ} : n ∈ s.traversableCells ↔ s.Traversable n := by
  simp [traversableCells, Traversable]

/-! ## 一つを加える -/

/-- `push` は、升目を加えないか、加えるか、場所がなくて断る。 -/
theorem push_cases (b : Block) (n : ℤ) (s : NavFn K) :
    s.push b n = s ∨ ∃ m : ℕ, n = m ∧ s.Traversable m ∧ s.pending m = false ∧
      (((s.blocks b).length < priorityBufSize ∧
          s.push b n = { s with
            blocks := Function.update s.blocks b (s.blocks b ++ [m])
            pending := Function.update s.pending m true }) ∨
        (priorityBufSize ≤ (s.blocks b).length ∧ s.push b n = { s with refused := true })) := by
  unfold push
  split_ifs with hadmit hroom
  · obtain ⟨hnonneg, hlt, hpending, hcost⟩ := hadmit
    exact Or.inr ⟨n.toNat, (Int.toNat_of_nonneg hnonneg).symm, ⟨by omega, hcost⟩, hpending, Or.inl ⟨hroom, rfl⟩⟩
  · obtain ⟨hnonneg, hlt, hpending, hcost⟩ := hadmit
    exact Or.inr ⟨n.toNat, (Int.toNat_of_nonneg hnonneg).symm, ⟨by omega, hcost⟩, hpending,
      Or.inr ⟨Nat.not_lt.mp hroom, rfl⟩⟩
  · exact Or.inl rfl

/-- 加えても、地図と値と、ほかの配列は変わらない。 -/
structure Pushed (b : Block) (n : ℤ) (s t : NavFn K) : Prop where
  same : s.SameMap t
  potarr : t.potarr = s.potarr
  curT : t.curT = s.curT
  keeps : ∀ c m, m ∈ s.blocks c → m ∈ t.blocks c
  origin : ∀ c m, m ∈ t.blocks c → m ∈ s.blocks c ∨ (c = b ∧ n = (m : ℤ))
  refused : s.refused = true → t.refused = true

theorem push_pushed (b : Block) (n : ℤ) (s : NavFn K) : Pushed b n s (s.push b n) := by
  obtain hkeep | ⟨m, rfl, -, -, ⟨-, hpush⟩ | ⟨-, hpush⟩⟩ := push_cases b n s
  · rw [hkeep]
    exact ⟨SameMap.refl s, rfl, rfl, fun _ _ h => h, fun _ _ h => Or.inl h, id⟩
  · rw [hpush]
    refine ⟨⟨rfl, rfl, rfl, rfl⟩, rfl, rfl, fun c k hk => ?_, fun c k hk => ?_, id⟩
    · by_cases hc : c = b
      · subst hc
        simp [hk]
      · simpa [Function.update_of_ne hc] using hk
    · by_cases hc : c = b
      · subst hc
        dsimp only at hk
        rw [Function.update_self] at hk
        rcases List.mem_append.mp hk with hk | hk
        · exact Or.inl hk
        · exact Or.inr ⟨rfl, by rw [List.mem_singleton.mp hk]⟩
      · exact Or.inl (by simpa [Function.update_of_ne hc] using hk)
  · rw [hpush]
    exact ⟨⟨rfl, rfl, rfl, rfl⟩, rfl, rfl, fun _ _ h => h, fun _ _ h => Or.inl h, fun _ => rfl⟩

theorem Queued.push (h : Queued bs s) (hbs : bs.Nodup) (hb : b ∈ bs) (n : ℤ) : Queued bs (s.push b n) := by
  obtain hkeep | ⟨m, rfl, htrav, hpending, ⟨-, hpush⟩ | ⟨-, hpush⟩⟩ := push_cases b n s
  · rwa [hkeep]
  · rw [hpush]
    have hperm := flatMap_update_perm hbs hb s.blocks m
    have hnew : m ∉ bs.flatMap s.blocks := by
      intro hm
      rw [(h.pending_iff m).mpr hm] at hpending
      cases hpending
    refine ⟨fun k => ?_, hperm.nodup_iff.mpr (List.nodup_cons.mpr ⟨hnew, h.nodup⟩), fun c k hk => ?_⟩
    · dsimp only
      rw [hperm.mem_iff, List.mem_cons, Function.update_apply, ← h.pending_iff]
      split_ifs with heq
      · simp [heq]
      · simp [heq]
    · have hpushed := push_pushed b m s
      rw [hpush] at hpushed
      apply (hpushed.same.traversable_iff k).mpr
      rcases hpushed.origin c k hk with hk | ⟨-, heq⟩
      · exact h.traversable c k hk
      · rwa [← Int.ofNat.inj heq]
  · rw [hpush]
    exact ⟨h.pending_iff, h.nodup, h.traversable⟩

/-- 通れる升目が場所の数より多くなければ、断らない。 -/
theorem Queued.push_refused (h : Queued bs s) (hb : b ∈ bs) (hroom : s.traversableCells.length ≤ priorityBufSize)
    (hrefused : s.refused = false) (n : ℤ) : (s.push b n).refused = false := by
  obtain hkeep | ⟨m, rfl, htrav, hpending, ⟨-, hpush⟩ | ⟨hfull, -⟩⟩ := push_cases b n s
  · rwa [hkeep]
  · rwa [hpush]
  · have hnew : m ∉ s.blocks b := by
      intro hm
      rw [(h.pending_iff m).mpr (List.mem_flatMap.mpr ⟨b, hb, hm⟩)] at hpending
      cases hpending
    have hnodup : (m :: s.blocks b).Nodup := List.nodup_cons.mpr ⟨hnew, (List.nodup_flatMap.mp h.nodup).1 b hb⟩
    have hsub : m :: s.blocks b ⊆ s.traversableCells := by
      intro k hk
      rcases List.mem_cons.mp hk with rfl | hk
      · exact mem_traversableCells.mpr htrav
      · exact mem_traversableCells.mpr (h.traversable b k hk)
    have hle := (List.subperm_of_subset hnodup hsub).length_le
    rw [List.length_cons] at hle
    omega

/-- 通れる升目は、加えた後では、断られていなければ並んでいる。 -/
theorem Queued.push_mem (h : Queued bs s) (hb : b ∈ bs) {m : ℕ} (htrav : s.Traversable m) :
    (s.push b m).refused = true ∨ m ∈ bs.flatMap (s.push b m).blocks := by
  by_cases hpending : s.pending m = true
  · obtain ⟨c, hc, hmem⟩ := List.mem_flatMap.mp ((h.pending_iff m).mp hpending)
    exact Or.inr (List.mem_flatMap.mpr ⟨c, hc, (push_pushed b m s).keeps c m hmem⟩)
  · have hadmit : (0 : ℤ) ≤ m ∧ (m : ℤ) < s.ns ∧ s.pending (m : ℤ).toNat = false ∧
        s.costarr (m : ℤ).toNat < costObs :=
      ⟨Int.natCast_nonneg m, by exact_mod_cast htrav.1, Bool.eq_false_of_not_eq_true hpending, htrav.2⟩
    unfold NavFn.push
    rw [if_pos hadmit]
    split_ifs
    · exact Or.inr (List.mem_flatMap.mpr ⟨b, hb, by simp⟩)
    · exact Or.inl rfl

/-! ## 続けて加える -/

/-- 升目 `ms` を配列 `bs` のどれかに順に加えた後の状態。 -/
structure PushedAll (bs : List Block) (ms : List ℤ) (s t : NavFn K) : Prop where
  same : s.SameMap t
  potarr : t.potarr = s.potarr
  other : ∀ b ∉ bs, t.blocks b = s.blocks b
  keeps : ∀ b m, m ∈ s.blocks b → m ∈ t.blocks b
  origin : ∀ b m, m ∈ t.blocks b → m ∈ s.blocks b ∨ (m : ℤ) ∈ ms
  refused : s.refused = true → t.refused = true
  queued : Queued bs s → Queued bs t
  room : Queued bs s → s.traversableCells.length ≤ priorityBufSize → s.refused = false → t.refused = false
  added : Queued bs s → ∀ m : ℕ, (m : ℤ) ∈ ms → s.Traversable m → t.refused = true ∨ m ∈ bs.flatMap t.blocks

theorem PushedAll.nil (bs : List Block) (s : NavFn K) : PushedAll bs [] s s :=
  ⟨SameMap.refl s, rfl, fun _ _ => rfl, fun _ _ h => h, fun _ _ h => Or.inl h, id, id, fun _ _ h => h,
    fun _ _ hm => absurd hm List.not_mem_nil⟩

theorem PushedAll.single (hbs : bs.Nodup) (hb : b ∈ bs) (n : ℤ) (s : NavFn K) : PushedAll bs [n] s (s.push b n) := by
  have hpushed := push_pushed b n s
  refine ⟨hpushed.same, hpushed.potarr, fun c hc => ?_, hpushed.keeps, fun c m hm => ?_, hpushed.refused,
    fun h => h.push hbs hb n, fun h hroom hrefused => h.push_refused hb hroom hrefused n, fun h m hm htrav => ?_⟩
  · have hne : c ≠ b := by
      rintro rfl
      exact hc hb
    obtain hkeep | ⟨m, -, -, -, ⟨-, hpush⟩ | ⟨-, hpush⟩⟩ := push_cases b n s
    · rw [hkeep]
    · rw [hpush]
      exact Function.update_of_ne hne _ _
    · rw [hpush]
  · rcases hpushed.origin c m hm with hm | ⟨-, heq⟩
    · exact Or.inl hm
    · exact Or.inr (List.mem_singleton.mpr heq.symm)
  · rw [← List.mem_singleton.mp hm]
    exact h.push_mem hb htrav

theorem PushedAll.append {ms ms' : List ℤ} {u : NavFn K} (h : PushedAll bs ms s t) (h' : PushedAll bs ms' t u) :
    PushedAll bs (ms ++ ms') s u where
  same := h.same.trans h'.same
  potarr := h'.potarr.trans h.potarr
  other b hb := (h'.other b hb).trans (h.other b hb)
  keeps b m hm := h'.keeps b m (h.keeps b m hm)
  origin b m hm := by
    rw [List.mem_append]
    rcases h'.origin b m hm with hm | hm
    · exact (h.origin b m hm).imp_right Or.inl
    · exact Or.inr (Or.inr hm)
  refused hrefused := h'.refused (h.refused hrefused)
  queued hs := h'.queued (h.queued hs)
  room hs hroom hrefused := by
    apply h'.room (h.queued hs)
    · rwa [h.same.traversableCells]
    · exact h.room hs hroom hrefused
  added hs m hm htrav := by
    rcases List.mem_append.mp hm with hm | hm
    · rcases h.added hs m hm htrav with hrefused | hmem
      · exact Or.inl (h'.refused hrefused)
      · obtain ⟨b, hb, hmem⟩ := List.mem_flatMap.mp hmem
        exact Or.inr (List.mem_flatMap.mpr ⟨b, hb, h'.keeps b m hmem⟩)
    · exact h'.added (h.queued hs) m hm ((h.same.traversable_iff m).mpr htrav)

/-! ## 隣を加える -/

variable [Field K] [LinearOrder K]

omit [Field K] in
theorem pushAffected_eq (pot : K) (n : ℤ) (s : NavFn K) :
    ∃ b ∈ [Block.next, Block.overflow], s.pushAffected pot n = s.push b n := by
  unfold pushAffected
  split_ifs
  · exact ⟨.next, by simp, rfl⟩
  · exact ⟨.overflow, by simp, rfl⟩

omit [Field K] in
theorem pushAffected_nx (pot : K) (n : ℤ) (s : NavFn K) : (s.pushAffected pot n).nx = s.nx := by
  obtain ⟨b, -, heq⟩ := pushAffected_eq pot n s
  rw [heq]
  exact (push_pushed b n s).same.nx

/-- `updateCell` が求める値。 -/
def newPotential (s : NavFn K) (n : ℕ) : K :=
  planarWave (s.costarr n) (s.potarr (n - 1)) (s.potarr (n + 1)) (s.potarr (n - s.nx)) (s.potarr (n + s.nx))

/-- 隣 `m` の値が、新しい値より辺の費用を超えて大きい。 -/
def Affects (s : NavFn K) (n m : ℕ) : Prop :=
  s.newPotential n + invSqrt2 * ((s.costarr m).toNat : K) < s.potarr m

instance (s : NavFn K) (n m : ℕ) : Decidable (s.Affects n m) := inferInstanceAs (Decidable (_ < _))

/-- 加えようとする隣。 -/
def affected (s : NavFn K) (n : ℕ) : List ℤ :=
  (if s.Affects n (n - 1) then [(n : ℤ) - 1] else []) ++ (if s.Affects n (n + 1) then [(n : ℤ) + 1] else []) ++
    (if s.Affects n (n - s.nx) then [(n : ℤ) - s.nx] else []) ++
    if s.Affects n (n + s.nx) then [(n : ℤ) + s.nx] else []

def pushAll (pot : K) (ms : List ℤ) (s : NavFn K) : NavFn K := ms.foldl (fun s m => s.pushAffected pot m) s

omit [Field K] in
theorem pushAll_ite (pot : K) (c : Prop) [Decidable c] (m : ℤ) (ms : List ℤ) (s : NavFn K) :
    s.pushAll pot ((if c then [m] else []) ++ ms) = (if c then s.pushAffected pot m else s).pushAll pot ms := by
  split_ifs <;> rfl

omit [Field K] in
theorem ite_pushAffected_nx (pot : K) (c : Prop) [Decidable c] (m : ℤ) (s : NavFn K) :
    (if c then s.pushAffected pot m else s).nx = s.nx := by
  split_ifs
  · exact pushAffected_nx pot m s
  · rfl

def setPotential (s : NavFn K) (n : ℕ) : NavFn K :=
  { s with potarr := Function.update s.potarr n (s.newPotential n) }

/-- `updateCell` は、値が下がるときに書き換え、隣を加える。 -/
theorem updateCell_eq (n : ℕ) (s : NavFn K) :
    s.updateCell n =
      if s.costarr n < costObs ∧ s.newPotential n < s.potarr n then
        (s.setPotential n).pushAll (s.newPotential n) (s.affected n)
      else s := by
  by_cases hcost : s.costarr n < costObs
  · by_cases hlower : s.newPotential n < s.potarr n
    · rw [if_pos ⟨hcost, hlower⟩]
      have hlast := pushAll_ite (s.newPotential n) (s.Affects n (n + s.nx)) ((n : ℤ) + s.nx) []
      rw [affected, List.append_assoc, List.append_assoc, pushAll_ite, pushAll_ite, pushAll_ite,
        ← List.append_nil (if s.Affects n (n + s.nx) then _ else _), hlast]
      unfold newPotential at hlower
      unfold updateCell
      simp only [if_pos hcost, if_pos hlower, ite_pushAffected_nx]
      rfl
    · rw [if_neg fun h => hlower h.2]
      unfold newPotential at hlower
      unfold updateCell
      simp only [if_pos hcost, if_neg hlower]
  · rw [if_neg fun h => hcost h.1]
    unfold updateCell
    simp only [if_neg hcost]

omit [Field K] in
theorem pushAll_pushedAll (pot : K) (ms : List ℤ) (s : NavFn K) :
    PushedAll [.next, .overflow] ms s (s.pushAll pot ms) := by
  induction ms generalizing s with
  | nil => exact PushedAll.nil _ s
  | cons n ms ih =>
      obtain ⟨b, hb, heq⟩ := pushAffected_eq pot n s
      have hfirst := PushedAll.single (by decide) hb n s
      rw [← heq] at hfirst
      exact hfirst.append (ih (s.pushAffected pot n))

/-- 通れる升目の更新は、何も変えないか、値を下げて隣を加える。 -/
theorem updateCell_cases {n : ℕ} (hn : s.Traversable n) :
    (s.potarr n ≤ s.newPotential n ∧ s.updateCell n = s) ∨
      (s.newPotential n < s.potarr n ∧ PushedAll [.next, .overflow] (s.affected n) (s.setPotential n) (s.updateCell n)) := by
  rw [updateCell_eq]
  by_cases hlower : s.newPotential n < s.potarr n
  · rw [if_pos ⟨hn.2, hlower⟩]
    exact Or.inr ⟨hlower, pushAll_pushedAll _ _ _⟩
  · rw [if_neg fun h => hlower h.2]
    exact Or.inl ⟨not_lt.mp hlower, rfl⟩

theorem setPotential_sameMap (n : ℕ) (s : NavFn K) : s.SameMap (s.setPotential n) := ⟨rfl, rfl, rfl, rfl⟩

theorem setPotential_potarr (n k : ℕ) (s : NavFn K) :
    (s.setPotential n).potarr k = if k = n then s.newPotential n else s.potarr k :=
  Function.update_apply _ _ _ _

theorem Queued.setPotential (h : Queued bs s) (n : ℕ) : Queued bs (s.setPotential n) :=
  ⟨h.pending_iff, h.nodup, h.traversable⟩

end NavFn

end Ranger.Navfn
