import Ranger.Amcl.CSpace

/-!
# 渡される障害物

升目から最も近い障害物と、隣から隣へ渡される障害物を、待ち行列によらずに定める。升目は、障害物に近い順に調べる。距離の等しい升目は、番号の順に調べる。
-/

namespace Ranger.Amcl
open Costmap (Cell axisDistance distanceSq)

variable {m : OccupancyMap} {R : Nat} {c d o p s x : Cell} {maxOccDist : ℝ}

/-! ## 隣と距離 -/

/-- 隣は、一つの軸だけで一升ずれている。 -/
theorem near_cases (h : p ∈ m.near c) :
    (p.2 = c.2 ∧ ∀ t, axisDistance p.1 t = axisDistance c.1 t + 1 ∨ axisDistance p.1 t + 1 = axisDistance c.1 t) ∨
      p.1 = c.1 ∧ ∀ t, axisDistance p.2 t = axisDistance c.2 t + 1 ∨ axisDistance p.2 t + 1 = axisDistance c.2 t := by
  have haxis (x y : Nat) (hstep : y + 1 = x ∨ y = x + 1) (t : Nat) :
      axisDistance y t = axisDistance x t + 1 ∨ axisDistance y t + 1 = axisDistance x t := by
    unfold axisDistance
    split_ifs <;> omega
  rcases mem_near.mp h with ⟨hlt, rfl⟩ | ⟨hlt, rfl⟩ | ⟨hlt, rfl⟩ | ⟨hlt, rfl⟩
  · exact .inl ⟨rfl, haxis _ _ (.inl (Nat.sub_add_cancel hlt))⟩
  · exact .inr ⟨rfl, haxis _ _ (.inl (Nat.sub_add_cancel hlt))⟩
  · exact .inl ⟨rfl, haxis _ _ (.inr rfl)⟩
  · exact .inr ⟨rfl, haxis _ _ (.inr rfl)⟩

/-- 隣へ移ると、障害物からの距離は変わる。 -/
theorem distanceSq_ne_of_mem_near (h : p ∈ m.near c) (s : Cell) : distanceSq p s ≠ distanceSq c s := by
  have hsq {a b k : Nat} (hstep : a = b + 1 ∨ a + 1 = b) : a ^ 2 + k ≠ b ^ 2 + k := by
    rcases hstep with rfl | rfl <;> ring_nf <;> omega
  rw [distanceSq, distanceSq]
  rcases near_cases h with ⟨heq, hstep⟩ | ⟨heq, hstep⟩
  · rw [heq]
    exact hsq (hstep s.1)
  · rw [heq, Nat.add_comm, Nat.add_comm (axisDistance c.1 s.1 ^ 2)]
    exact hsq (hstep s.2)

/-- 軸に沿って障害物へ近づく隣。 -/
theorem exists_near_axis (hc : m.Contains c) (hs : m.Contains s) (k : Nat) :
    (axisDistance c.1 s.1 = k + 1 → ∃ d ∈ m.near c, distanceSq d s = k ^ 2 + axisDistance c.2 s.2 ^ 2) ∧
      (axisDistance c.2 s.2 = k + 1 → ∃ d ∈ m.near c, distanceSq d s = axisDistance c.1 s.1 ^ 2 + k ^ 2) := by
  obtain ⟨hx, hy⟩ := hc
  obtain ⟨hsx, hsy⟩ := hs
  have hdown {x y : Nat} (hlt : y < x) (hk : axisDistance x y = k + 1) : axisDistance (x - 1) y = k := by
    unfold axisDistance at hk ⊢
    split_ifs at hk ⊢ <;> omega
  have hup {x y : Nat} (hlt : x < y) (hk : axisDistance x y = k + 1) : axisDistance (x + 1) y = k := by
    unfold axisDistance at hk ⊢
    split_ifs at hk ⊢ <;> omega
  have hne {x y : Nat} (hk : axisDistance x y = k + 1) : y < x ∨ x < y := by
    unfold axisDistance at hk
    split_ifs at hk <;> omega
  constructor
  · intro hk
    rcases hne hk with hlt | hlt
    · exact ⟨(c.1 - 1, c.2), mem_near.mpr (.inl ⟨by omega, rfl⟩), by rw [distanceSq, hdown hlt hk]⟩
    · exact ⟨(c.1 + 1, c.2), mem_near.mpr (.inr (.inr (.inl ⟨by omega, rfl⟩))), by rw [distanceSq, hup hlt hk]⟩
  · intro hk
    rcases hne hk with hlt | hlt
    · exact ⟨(c.1, c.2 - 1), mem_near.mpr (.inr (.inl ⟨by omega, rfl⟩)), by rw [distanceSq, hdown hlt hk]⟩
    · exact ⟨(c.1, c.2 + 1), mem_near.mpr (.inr (.inr (.inr ⟨by omega, rfl⟩))), by rw [distanceSq, hup hlt hk]⟩

/-- 隣から `n` 升の中にある障害物は、隣からの距離より高々 1 升遠い。 -/
theorem distanceSq_near_le (h : d ∈ m.near c) {t : Cell} {M n : Nat} (hM : distanceSq d t ≤ M) (hn : M ≤ n ^ 2) :
    distanceSq c t ≤ M + 2 * n + 1 := by
  have hsq {a b k : Nat} (hstep : a = b + 1 ∨ a + 1 = b) (hle : a ^ 2 + k ≤ M) : b ^ 2 + k ≤ M + 2 * n + 1 := by
    have ha : a ≤ n := (Nat.pow_le_pow_iff_left two_ne_zero).mp ((Nat.le_add_right _ k).trans (hle.trans hn))
    rcases hstep with rfl | rfl <;> nlinarith
  rw [distanceSq] at hM ⊢
  rcases near_cases h with ⟨heq, hstep⟩ | ⟨heq, hstep⟩
  · rw [heq] at hM
    exact hsq (hstep t.1) hM
  · rw [heq, Nat.add_comm] at hM
    rw [Nat.add_comm]
    exact hsq (hstep t.2) hM

/-- 障害物から遠ざかる隣が半径の中にあるとき、障害物へ近づくある隣では、その障害物より遠くない障害物が、どれも升目の半径の中にある。 -/
theorem exists_near_reaching (hc : m.Contains c) (hs : m.Contains s) (hne : c ≠ s) (hp : p ∈ m.near c)
    (hfar : distanceSq c s < distanceSq p s) (hR : distanceSq p s ≤ R * R) :
    ∃ d ∈ m.near c, distanceSq d s < distanceSq c s ∧ ∀ t, distanceSq d t ≤ distanceSq d s → distanceSq c t ≤ R * R := by
  have hreach {d : Cell} (hd : d ∈ m.near c) {k l : Nat} (hdist : distanceSq d s = k ^ 2 + l ^ 2)
      (hless : k ^ 2 + l ^ 2 < distanceSq c s) (hle : (k + 1) ^ 2 + (l + 1) ^ 2 ≤ R * R) :
      ∃ d ∈ m.near c, distanceSq d s < distanceSq c s ∧ ∀ t, distanceSq d t ≤ distanceSq d s → distanceSq c t ≤ R * R := by
    have hsum : k ^ 2 + l ^ 2 ≤ (k + l) ^ 2 := by
      rw [add_sq]
      omega
    refine ⟨d, hd, hdist.trans_lt hless, fun t ht => (distanceSq_near_le hd (ht.trans_eq hdist) hsum).trans ?_⟩
    nlinarith
  have hsq (k : Nat) : k ^ 2 < (k + 1) ^ 2 := Nat.pow_lt_pow_left (Nat.lt_succ_self k) two_ne_zero
  -- 遠ざかる軸ではない軸に沿って近づく。その軸で近づけないときは、遠ざかる軸に沿って近づく。
  unfold distanceSq at hfar hR
  rcases near_cases hp with ⟨heq, hstep⟩ | ⟨heq, hstep⟩
  · have haway : axisDistance p.1 s.1 = axisDistance c.1 s.1 + 1 := by
      refine (hstep s.1).resolve_right fun hback => ?_
      rw [heq, ← hback] at hfar
      exact absurd (hsq (axisDistance p.1 s.1)) (by omega)
    rw [haway, heq] at hR
    cases hb : axisDistance c.2 s.2 with
    | succ k =>
        obtain ⟨d, hd, hdist⟩ := (exists_near_axis hc hs k).2 hb
        refine hreach hd hdist ?_ (hb ▸ hR)
        rw [distanceSq, hb]
        exact Nat.add_lt_add_left (hsq k) _
    | zero =>
        cases ha : axisDistance c.1 s.1 with
        | zero => exact absurd (Costmap.distanceSq_eq_zero.mp (by rw [distanceSq, ha, hb]; rfl)) hne
        | succ k =>
            obtain ⟨d, hd, hdist⟩ := (exists_near_axis hc hs k).1 ha
            rw [ha, hb] at hR
            refine hreach hd (hb ▸ hdist) ?_ (by nlinarith)
            rw [distanceSq, ha, hb]
            exact Nat.add_lt_add_right (hsq k) _
  · have haway : axisDistance p.2 s.2 = axisDistance c.2 s.2 + 1 := by
      refine (hstep s.2).resolve_right fun hback => ?_
      rw [heq, ← hback] at hfar
      exact absurd (hsq (axisDistance p.2 s.2)) (by omega)
    rw [haway, heq] at hR
    cases ha : axisDistance c.1 s.1 with
    | succ k =>
        obtain ⟨d, hd, hdist⟩ := (exists_near_axis hc hs k).1 ha
        refine hreach hd hdist ?_ (ha ▸ hR)
        rw [distanceSq, ha]
        exact Nat.add_lt_add_right (hsq k) _
    | zero =>
        cases hb : axisDistance c.2 s.2 with
        | zero => exact absurd (Costmap.distanceSq_eq_zero.mp (by rw [distanceSq, ha, hb]; rfl)) hne
        | succ k =>
            obtain ⟨d, hd, hdist⟩ := (exists_near_axis hc hs k).2 hb
            rw [ha, hb] at hR
            refine hreach hd (ha ▸ hdist) ?_ (by nlinarith)
            rw [distanceSq, ha, hb]
            exact Nat.add_lt_add_left (hsq k) _

/-! ## 最も近い障害物 -/

def Nearest (m : OccupancyMap) (c o : Cell) : Prop :=
  o ∈ m.obstacles ∧ ∀ o' ∈ m.obstacles, distanceSq c o ≤ distanceSq c o'

/-- 最も近い障害物までの距離の平方。障害物がないとき `⊤` である。 -/
def nearestSq (m : OccupancyMap) (c : Cell) : WithTop Nat := m.obstacles.inf fun o => (distanceSq c o : WithTop Nat)

theorem nearestSq_le (ho : o ∈ m.obstacles) : nearestSq m c ≤ distanceSq c o := Finset.inf_le ho

theorem Nearest.nearestSq_eq (h : Nearest m c o) : nearestSq m c = distanceSq c o :=
  le_antisymm (nearestSq_le h.1) (Finset.le_inf fun o' ho' => Nat.cast_le.mpr (h.2 o' ho'))

theorem exists_nearest (ho : o ∈ m.obstacles) (c : Cell) : ∃ o', Nearest m c o' := by
  obtain ⟨o', ho', hmin⟩ := m.obstacles.exists_min_image (distanceSq c) ⟨o, ho⟩
  exact ⟨o', ho', hmin⟩

/-- 最も近い障害物より遠くない障害物も、最も近い。 -/
theorem nearest_of_le (ho : o ∈ m.obstacles) (hle : (distanceSq c o : WithTop Nat) ≤ nearestSq m c) : Nearest m c o :=
  ⟨ho, fun _ ho' => Nat.cast_le.mp (hle.trans (nearestSq_le ho'))⟩

theorem Nearest.distance_eq {o' : Cell} (h : Nearest m c o) (h' : Nearest m c o') : distance c o = distance c o' :=
  distance_inj.mpr (le_antisymm (h.2 o' h'.1) (h'.2 o h.1))

/-- 障害物は、自分自身に最も近い。 -/
theorem nearest_self (ho : o ∈ m.obstacles) : Nearest m o o := by
  refine ⟨ho, fun o' _ => ?_⟩
  rw [Costmap.distanceSq_eq_zero.mpr rfl]
  exact Nat.zero_le _

/-! ## 渡される障害物 -/

/-- 升目 `q` を、升目 `p` より先に調べる。 -/
def Earlier (m : OccupancyMap) (rank : Cell → Nat) (q p : Cell) : Prop :=
  nearestSq m q < nearestSq m p ∨ nearestSq m q = nearestSq m p ∧ rank q < rank p

/-- 升目が受け取る障害物。障害物の升目は自分自身を受け取る。他の升目は、障害物により近い隣のうち、半径の中の障害物を渡す初めのものから受け取る。 -/
inductive Handed (m : OccupancyMap) (R : Nat) (rank : Cell → Nat) : Cell → Cell → Prop
  | source {o : Cell} : o ∈ m.obstacles → Handed m R rank o o
  | next {c p o : Cell} (given : Cell → Cell) : m.Contains c → c ∉ m.obstacles → p ∈ m.near c →
      nearestSq m p < nearestSq m c → Handed m R rank p o → distanceSq c o ≤ R * R →
      (∀ q ∈ m.near c, Earlier m rank q p → Handed m R rank q (given q)) →
      (∀ q ∈ m.near c, Earlier m rank q p → R * R < distanceSq c (given q)) → Handed m R rank c o

/-- 障害物の半径の中にあり、書かれるべき値が初めの値 `maxOccDist` ではない升目。 -/
structure Written (m : OccupancyMap) (R : Nat) (maxOccDist : ℝ) (c : Cell) : Prop where
  contains : m.Contains c
  within : nearestSq m c ≤ (R * R : Nat)
  value : ∀ o, Nearest m c o → distance c o * m.scale ≠ maxOccDist

/-- 距離の等しい升目をどの順に調べても、書かれるべき升目は、最も近い障害物を受け取る。 -/
def HandedDown (m : OccupancyMap) (R : Nat) (maxOccDist : ℝ) : Prop :=
  ∀ rank : Cell → Nat, Function.Injective rank → ∀ c, Written m R maxOccDist c → ∃ o, Handed m R rank c o ∧ Nearest m c o

variable {rank : Cell → Nat}

theorem Handed.mem (h : Handed m R rank c o) : o ∈ m.obstacles := by
  induction h with
  | source ho => exact ho
  | next _ _ _ _ _ _ _ _ _ ih _ => exact ih

theorem earlier_or (hinj : Function.Injective rank) (hne : p ≠ d) : Earlier m rank p d ∨ Earlier m rank d p := by
  rcases lt_trichotomy (nearestSq m p) (nearestSq m d) with hlt | heq | hlt
  · exact .inl (.inl hlt)
  · rcases Nat.lt_or_gt_of_ne (hinj.ne hne) with hrank | hrank
    · exact .inl (.inr ⟨heq, hrank⟩)
    · exact .inr (.inr ⟨heq.symm, hrank⟩)
  · exact .inr (.inl hlt)

/-- 升目が受け取る障害物は、一つに限る。 -/
theorem Handed.unique {o' : Cell} (hinj : Function.Injective rank) (h : Handed m R rank c o) (h' : Handed m R rank c o') :
    o = o' := by
  induction h generalizing o' with
  | source ho =>
      cases h' with
      | source => rfl
      | next _ _ hfree => exact absurd ho hfree
  | @next c p o given _ hfree hp _ _ hle _ hfar ih ihgiven =>
      cases h' with
      | source ho => exact absurd ho hfree
      | @next _ p' _ given' _ _ hp' _ hhanded' hle' hgiven' hfar' =>
          by_cases hpp : p = p'
          · exact ih (hpp ▸ hhanded')
          · rcases earlier_or hinj hpp with hearlier | hearlier
            · rw [ih (hgiven' p hp hearlier)] at hle
              exact absurd hle (Nat.not_le.mpr (hfar' p hp hearlier))
            · rw [← ihgiven p' hp' hearlier hhanded'] at hle'
              exact absurd hle' (Nat.not_le.mpr (hfar p' hp' hearlier))

/-- 渡せる隣があれば、そのうち初めに調べるものがある。 -/
theorem exists_earliest (rank : Cell → Nat) {l : List Cell} {P : Cell → Prop} (h : ∃ p ∈ l, P p) :
    ∃ p ∈ l, P p ∧ ∀ q ∈ l, Earlier m rank q p → ¬ P q := by
  classical
  obtain ⟨p, hp, hP⟩ := h
  obtain ⟨p, hp, hmin⟩ := (l.toFinset.filter P).exists_min_image (fun p => toLex (nearestSq m p, rank p))
    ⟨p, Finset.mem_filter.mpr ⟨List.mem_toFinset.mpr hp, hP⟩⟩
  obtain ⟨hp, hP⟩ := Finset.mem_filter.mp hp
  refine ⟨p, List.mem_toFinset.mp hp, hP, fun q hq hearlier hPq => ?_⟩
  have hle := hmin q (Finset.mem_filter.mpr ⟨List.mem_toFinset.mpr hq, hPq⟩)
  have hless : toLex (nearestSq m q, rank q) < toLex (nearestSq m p, rank p) := Prod.Lex.toLex_lt_toLex.mpr hearlier
  exact absurd hless (not_lt.mpr hle)

/-- 半径の中の障害物を渡す隣のうち、障害物に最も近いものが、いつも升目の障害物 `owner c` を渡すとき、升目はそれを受け取る。 -/
theorem handedDown_of_nearest (owner : Cell → Cell)
    (hnearest : ∀ c, m.Contains c → nearestSq m c ≤ (R * R : Nat) → Nearest m c (owner c))
    (hreach : ∀ c, m.Contains c → nearestSq m c ≤ (R * R : Nat) → c ∉ m.obstacles →
      ∃ p ∈ m.near c, nearestSq m p < nearestSq m c ∧ distanceSq c (owner p) ≤ R * R)
    (hsame : ∀ c, m.Contains c → nearestSq m c ≤ (R * R : Nat) → ∀ p ∈ m.near c, nearestSq m p < nearestSq m c →
      distanceSq c (owner p) ≤ R * R →
      (∀ q ∈ m.near c, nearestSq m q < nearestSq m p → R * R < distanceSq c (owner q)) → owner p = owner c) :
    HandedDown m R maxOccDist := by
  intro rank _ c hc
  refine ⟨owner c, ?_, hnearest c hc.contains hc.within⟩
  have hcontains := hc.contains
  have hwithin := hc.within
  clear hc
  induction hn : nearestSq m c using WellFoundedLT.induction generalizing c with
  | ind n ih =>
      subst hn
      by_cases hobstacle : c ∈ m.obstacles
      · have hzero := (hnearest c hcontains hwithin).2 c hobstacle
        rw [Costmap.distanceSq_eq_zero.mpr rfl, Nat.le_zero, Costmap.distanceSq_eq_zero] at hzero
        exact hzero ▸ .source hobstacle
      · obtain ⟨p, hp, ⟨hlt, hle⟩, hfirst⟩ := exists_earliest (m := m) rank (hreach c hcontains hwithin hobstacle)
        have hhanded (q : Cell) (hq : q ∈ m.near c) (hqlt : nearestSq m q < nearestSq m c) : Handed m R rank q (owner q) :=
          ih _ hqlt q (contains_of_mem_near hcontains hq) (hqlt.le.trans hwithin) rfl
        have hqlt (q : Cell) (hearlier : Earlier m rank q p) : nearestSq m q < nearestSq m c :=
          (hearlier.elim le_of_lt fun htie => htie.1.le).trans_lt hlt
        have hfar (q : Cell) (hq : q ∈ m.near c) (hearlier : Earlier m rank q p) : R * R < distanceSq c (owner q) :=
          Nat.not_le.mp fun hle => hfirst q hq hearlier ⟨hqlt q hearlier, hle⟩
        rw [← hsame c hcontains hwithin p hp hlt hle fun q hq hless => hfar q hq (.inl hless)]
        exact .next owner hcontains hobstacle hp hlt (hhanded p hp hlt) hle
          (fun q hq hearlier => hhanded q hq (hqlt q hearlier)) hfar

end Ranger.Amcl
