import Ranger.Amcl.CSpaceNearest

/-!
# 最も近い障害物までの距離

書かれる距離が、どの順に調べても最も近い障害物までのものになるのは、書かれるべき升目が、いつも最も近い障害物を受け取るときである。
-/

namespace Ranger.Amcl
open Costmap (Cell axisDistance distanceSq)

variable {m : OccupancyMap} {R : Nat} {c d o p x : Cell} {maxOccDist : ℝ} {rank : Cell → Nat}

/-! ## 調べた順 -/

/-- 調べ終えた升目の列（新しい順）が、番号の順に合っている。半径の縁では、順を問わない。 -/
def Agrees (m : OccupancyMap) (R : Nat) (rank : Cell → Nat) : List Cell → Prop
  | [] => True
  | p :: done => (nearestSq m p < (R * R : Nat) → ∀ q, m.Contains q → Earlier m rank q p → q ∈ done) ∧ Agrees m R rank done

/-- 調べ終えた升目の順を変えずに、次の升目を、まだ調べていない升目の先頭に置ける。 -/
theorem Agrees.exists_first {done : List Cell} (hinj : Function.Injective rank) (h : Agrees m R rank done) (p : Cell) :
    ∃ rank' : Cell → Nat, Function.Injective rank' ∧ Agrees m R rank' done ∧ ∀ q ∉ p :: done, rank' p < rank' q := by
  -- 調べ終えた升目と次の升目を偶数に、残りの升目を、次の升目より大きい奇数に置く。
  let rank' (q : Cell) : Nat := if q ∈ p :: done then 2 * rank q else 2 * (rank p + rank q) + 1
  have hold (q : Cell) (hq : q ∈ p :: done) : rank' q = 2 * rank q := if_pos hq
  have hnew (q : Cell) (hq : q ∉ p :: done) : rank' q = 2 * (rank p + rank q) + 1 := if_neg hq
  refine ⟨rank', fun a b hab => hinj ?_, ?_, fun q hq => ?_⟩
  · by_cases ha : a ∈ p :: done
    · by_cases hb : b ∈ p :: done
      · rw [hold a ha, hold b hb] at hab
        omega
      · rw [hold a ha, hnew b hb] at hab
        omega
    · by_cases hb : b ∈ p :: done
      · rw [hnew a ha, hold b hb] at hab
        omega
      · rw [hnew a ha, hnew b hb] at hab
        omega
  · have hkeep : ∀ l, l ⊆ done → Agrees m R rank l → Agrees m R rank' l := by
      intro l hsub hl
      induction l with
      | nil => trivial
      | cons a l ih =>
          obtain ⟨ha, hsub'⟩ := List.cons_subset.mp hsub
          refine ⟨fun hlt q hq hearlier => hl.1 hlt q hq (hearlier.imp_right fun htie => ⟨htie.1, ?_⟩), ih hsub' hl.2⟩
          have hless := htie.2
          rw [hold a (List.mem_cons_of_mem p ha)] at hless
          by_cases hqold : q ∈ p :: done
          · rw [hold q hqold] at hless
            omega
          · rw [hnew q hqold] at hless
            omega
    exact hkeep done (List.Subset.refl done) h
  · rw [hold p List.mem_cons_self, hnew q hq]
    omega

namespace CSpace

variable {s s' next : CSpace} {e b : CellData} {done : List Cell} {given : Cell → Cell}

/-! ## 一歩 -/

/-- 成功する一歩は、先頭を調べて、そのときの先頭を除く。 -/
theorem Inv.step_cases (h : Inv m R maxOccDist s) (hstep : Step m ⟨R⟩ s (some s')) :
    ∃ e next top, s.IsTop e ∧ Expanded m R e.src (m.near e.cell) s next ∧ Inv m R maxOccDist next ∧
      (next.IsTop e → top = e) ∧ s' = { next with queue := next.queue.erase top } := by
  cases hstep with
  | popped htop hexpand htop' hsame =>
      obtain ⟨next, hsome, hexpanded, hinv⟩ := h.expand htop.1
      obtain rfl := Option.some.inj (hexpand.symm.trans hsome)
      exact ⟨_, _, _, htop, hexpanded, hinv, hsame, rfl⟩

/-- 先頭になりうるどの升目からも、一歩を進められる。 -/
theorem Inv.exists_step (h : Inv m R maxOccDist s) (htop : s.IsTop e) :
    ∃ next top, Expanded m R e.src (m.near e.cell) s next ∧ Inv m R maxOccDist next ∧ (next.IsTop e → top = e) ∧
      Step m ⟨R⟩ s (some { next with queue := next.queue.erase top }) := by
  obtain ⟨next, hexpand, hexpanded, hinv⟩ := h.expand htop.1
  obtain ⟨top, htop', hsame⟩ := exists_isTop_keeping ((hexpanded.queue e).mpr (.inl htop.1))
  exact ⟨next, top, hexpanded, hinv, hsame, .popped htop hexpand htop' hsame⟩

theorem Inv.exists_final (h : Inv m R maxOccDist s) : ∃ s', Reaches m ⟨R⟩ s s' ∧ s'.queue = 0 := by
  have hacc := h.acc
  induction hacc with
  | intro s _ ih =>
      by_cases hempty : s.queue = 0
      · exact ⟨s, Relation.ReflTransGen.refl, hempty⟩
      · obtain ⟨e, htop⟩ := s.exists_isTop hempty
        obtain ⟨next, top, -, hinv, -, hstep⟩ := h.exists_step htop
        obtain ⟨s', hrun, hfinal⟩ := ih _ hstep (hinv.erase top)
        exact ⟨s', hrun.head hstep, hfinal⟩

/-- 印のついた升目の距離は変わらず、調べ終えた升目は待ち行列に戻らない。 -/
theorem Inv.kept (h : Inv m R maxOccDist s) (hrun : Reaches m ⟨R⟩ s s') (hc : s.marked c = true) :
    s'.marked c = true ∧ s'.occDist c = s.occDist c ∧ ∀ e ∈ s'.queue, e.cell = c → e ∈ s.queue := by
  induction hrun with
  | refl => exact ⟨hc, rfl, fun _ he _ => he⟩
  | tail hprev hstep ih =>
      obtain ⟨hmarked, hsame, hwait⟩ := ih
      obtain ⟨e, next, top, -, hexpanded, -, -, rfl⟩ := (h.reaches hprev).step_cases hstep
      refine ⟨(hexpanded.marked c).mpr (.inl hmarked), (hexpanded.kept c hmarked).trans hsame, fun b hb hcell => ?_⟩
      rcases (hexpanded.queue b).mp (Multiset.mem_of_mem_erase hb) with hold | ⟨hfree, -, -⟩
      · exact hwait b hold hcell
      · exact absurd hcell.symm (ne_of_marked hmarked hfree)

/-- 途中で印のついた升目は、そのとき待っていた隣から障害物を受け取った。 -/
theorem Inv.exists_marking (h : Inv m R maxOccDist s) (hrun : Reaches m ⟨R⟩ s s') (hfree : s.marked c = false)
    (hc : s'.marked c = true) :
    ∃ mid e, Reaches m ⟨R⟩ s mid ∧ e ∈ mid.queue ∧ c ∈ m.near e.cell ∧ distanceSq c e.src ≤ R * R ∧
      s'.occDist c = distance c e.src * m.scale := by
  induction hrun with
  | refl => exact absurd rfl (ne_of_marked hc hfree)
  | @tail mid _ hprev hstep ih =>
      obtain ⟨e, next, top, htop, hexpanded, -, -, rfl⟩ := (h.reaches hprev).step_cases hstep
      cases hmid : mid.marked c with
      | true =>
          obtain ⟨mid', e', hrun, he, hnear, hle, hvalue⟩ := ih hmid
          exact ⟨mid', e', hrun, he, hnear, hle, (hexpanded.kept c hmid).trans hvalue⟩
      | false =>
          obtain ⟨hnear, hle⟩ := hexpanded.near hmid hc
          exact ⟨mid, e, hprev, htop.1, hnear, hle, hexpanded.fresh c hmid hc⟩

/-! ## 渡された障害物 -/

/-- 印のある升目は、最も近い障害物 `given` を受け取り、調べ終えた升目は、半径の中の隣へそれを渡した。 -/
structure Traced (m : OccupancyMap) (R : Nat) (maxOccDist : ℝ) (done : List Cell) (given : Cell → Cell) (s : CSpace) :
    Prop where
  inv : Inv m R maxOccDist s
  mem_done : ∀ c, c ∈ done ↔ s.marked c = true ∧ ∀ e ∈ s.queue, e.cell ≠ c
  src : ∀ e ∈ s.queue, e.src = given e.cell
  nearest : ∀ c, s.marked c = true → Nearest m c (given c)
  value : ∀ c, s.marked c = true → s.occDist c = distance c (given c) * m.scale
  closed : ∀ p ∈ done, ∀ d ∈ m.near p, distanceSq d (given p) ≤ R * R → s.marked d = true

/-- 印のない書かれるべき升目より障害物に近い升目が、待っている。 -/
def Behind (m : OccupancyMap) (R : Nat) (maxOccDist : ℝ) (s : CSpace) : Prop :=
  ∀ c, Written m R maxOccDist c → s.marked c = false → ∃ b ∈ s.queue, nearestSq m b.cell < nearestSq m c

namespace Traced

theorem mem_done_or (h : Traced m R maxOccDist done given s) (hc : s.marked c = true) :
    c ∈ done ∨ ∃ b ∈ s.queue, b.cell = c := by
  by_cases hwait : ∃ b ∈ s.queue, b.cell = c
  · exact .inr hwait
  · push Not at hwait
    exact .inl ((h.mem_done c).mpr ⟨hc, hwait⟩)

theorem nearestSq_top (h : Traced m R maxOccDist done given s) (he : e ∈ s.queue) :
    nearestSq m e.cell = distanceSq e.cell e.src ∧ nearestSq m e.cell ≤ (R * R : Nat) := by
  obtain ⟨hmarked, -, hle, -⟩ := h.inv.queue e he
  have heq := (h.nearest _ hmarked).nearestSq_eq
  rw [← h.src e he] at heq
  exact ⟨heq, heq.trans_le (Nat.cast_le.mpr hle)⟩

theorem le_iff (h : Traced m R maxOccDist done given s) (hc : s.marked c = true) (hd : s.marked d = true) :
    s.occDist c ≤ s.occDist d ↔ nearestSq m c ≤ nearestSq m d := by
  rw [h.value c hc, h.value d hd, (h.nearest c hc).nearestSq_eq, (h.nearest d hd).nearestSq_eq,
    mul_le_mul_iff_left₀ m.scale_pos, Nat.cast_le, ← not_lt, distance_lt_iff, not_lt]

/-- 先頭の升目は、待つ升目のうち障害物に最も近い。 -/
theorem top_le (h : Traced m R maxOccDist done given s) (htop : s.IsTop e) (hb : b ∈ s.queue) :
    nearestSq m e.cell ≤ nearestSq m b.cell :=
  (h.le_iff (h.inv.queue e htop.1).1 (h.inv.queue b hb).1).mp (not_lt.mp (htop.2 b hb))

theorem top_lt (h : Traced m R maxOccDist done given s) (hbehind : Behind m R maxOccDist s) (htop : s.IsTop e)
    (hc : Written m R maxOccDist c) (hfree : s.marked c = false) : nearestSq m e.cell < nearestSq m c := by
  obtain ⟨b, hb, hlt⟩ := hbehind c hc hfree
  exact (h.top_le htop hb).trans_lt hlt

/-- 先頭から新しく障害物を受け取る隣は、先頭より障害物から遠い。 -/
theorem top_lt_fresh (h : Traced m R maxOccDist done given s)
    (hwritten : ∀ c, m.Contains c → nearestSq m c < (R * R : Nat) → Written m R maxOccDist c)
    (hbehind : Behind m R maxOccDist s) (htop : s.IsTop e) (hexpanded : Expanded m R e.src (m.near e.cell) s next)
    (hfree : s.marked d = false) (hd : next.marked d = true) : nearestSq m e.cell < nearestSq m d := by
  obtain ⟨hmarked, ho, -, -⟩ := h.inv.queue e htop.1
  obtain ⟨hnear, hle⟩ := hexpanded.near hfree hd
  have hcontains := contains_of_mem_near (h.inv.marked _ hmarked).1 hnear
  by_cases hlt : nearestSq m d < (R * R : Nat)
  · exact h.top_lt hbehind htop (hwritten d hcontains hlt) hfree
  · -- 縁の隣までの距離は、ちょうど半径に等しい。
    have hedge : distanceSq d e.src = R * R :=
      le_antisymm hle (Nat.cast_le.mp ((not_lt.mp hlt).trans (nearestSq_le ho)))
    obtain ⟨heq, htopR⟩ := h.nearestSq_top htop.1
    refine lt_of_lt_of_le (lt_of_le_of_ne htopR fun hsame => ?_) (not_lt.mp hlt)
    rw [heq, Nat.cast_inj, ← hedge] at hsame
    exact distanceSq_ne_of_mem_near hnear e.src hsame.symm

/-- 先頭を調べるまでの順は、番号の順に合っている。 -/
theorem agrees (h : Traced m R maxOccDist done given s)
    (hwritten : ∀ c, m.Contains c → nearestSq m c < (R * R : Nat) → Written m R maxOccDist c)
    (hbehind : Behind m R maxOccDist s) (htop : s.IsTop e) (hagrees : Agrees m R rank done)
    (hfirst : ∀ b ∈ s.queue, nearestSq m b.cell = nearestSq m e.cell → rank e.cell ≤ rank b.cell) :
    Agrees m R rank (e.cell :: done) := by
  refine ⟨fun hlt q hq hearlier => ?_, hagrees⟩
  have hle : nearestSq m q ≤ nearestSq m e.cell := hearlier.elim le_of_lt fun htie => htie.1.le
  have hmarked : s.marked q = true := by
    cases hfree : s.marked q with
    | true => rfl
    | false => exact absurd (h.top_lt hbehind htop (hwritten q hq (hle.trans_lt hlt)) hfree) (not_lt.mpr hle)
  rcases h.mem_done_or hmarked with hdone | ⟨b, hb, rfl⟩
  · exact hdone
  · rcases hearlier with hless | ⟨heq, hless⟩
    · exact absurd (h.top_le htop hb) (not_le.mpr hless)
    · exact absurd (hfirst b hb heq) (Nat.not_le.mpr hless)

/-- 先頭から隣へ渡る障害物は、隣が受け取る障害物である。 -/
theorem handed (h : Traced m R maxOccDist done given s) (htop : s.IsTop e) (hagrees : Agrees m R rank (e.cell :: done))
    (hhanded : ∀ c, s.marked c = true → Handed m R rank c (given c)) (hd : d ∈ m.near e.cell) (hfree : s.marked d = false)
    (hle : distanceSq d e.src ≤ R * R) (hlt : nearestSq m e.cell < nearestSq m d) : Handed m R rank d e.src := by
  obtain ⟨hmarked, ho, -, -⟩ := h.inv.queue e htop.1
  have hcell := (h.inv.marked _ hmarked).1
  have hcontains := contains_of_mem_near hcell hd
  have hinside : nearestSq m e.cell < (R * R : Nat) :=
    hlt.trans_le ((nearestSq_le ho).trans (Nat.cast_le.mpr hle))
  have hdone (q : Cell) (hq : q ∈ m.near d) (hearlier : Earlier m rank q e.cell) : q ∈ done :=
    hagrees.1 hinside q (contains_of_mem_near hcontains hq) hearlier
  refine .next given hcontains (h.inv.notMem_obstacles hfree) (near_symm hcell hd) hlt ?_ hle (fun q hq hearlier => ?_)
    fun q hq hearlier => ?_
  · exact h.src e htop.1 ▸ hhanded e.cell hmarked
  · exact hhanded q ((h.mem_done q).mp (hdone q hq hearlier)).1
  · by_contra hreach
    have hset := h.closed q (hdone q hq hearlier) d (near_symm hcontains hq) (Nat.not_lt.mp hreach)
    exact ne_of_marked hset hfree rfl

end Traced

/-- 先頭の障害物 `src` を渡した後に、升目が受け取っている障害物。 -/
def receive (s : CSpace) (given : Cell → Cell) (src c : Cell) : Cell := if s.marked c then given c else src

theorem receive_of_marked (given : Cell → Cell) {src : Cell} (hc : s.marked c = true) : receive s given src c = given c :=
  if_pos hc

theorem receive_of_free (given : Cell → Cell) {src : Cell} (hc : s.marked c = false) : receive s given src c = src := by
  rw [receive, hc, if_neg Bool.false_ne_true]

namespace Traced

/-- 新しく印のついた隣が最も近い障害物を受け取れば、先頭は変わらず、調べ終えた升目が一つ増える。 -/
theorem expand (h : Traced m R maxOccDist done given s) (htop : s.IsTop e)
    (hexpanded : Expanded m R e.src (m.near e.cell) s next) (hinv : Inv m R maxOccDist next)
    (hfresh : ∀ d, s.marked d = false → next.marked d = true → nearestSq m e.cell < nearestSq m d ∧ Nearest m d e.src) :
    next.IsTop e ∧
      Traced m R maxOccDist (e.cell :: done) (receive s given e.src) { next with queue := next.queue.erase e } := by
  have hmarked := (h.inv.queue e htop.1).1
  have hmem : e ∈ next.queue := (hexpanded.queue e).mpr (.inl htop.1)
  have hkeep (c : Cell) (hc : s.marked c = true) : next.marked c = true := (hexpanded.marked c).mpr (.inl hc)
  have hnearest (c : Cell) (hc : next.marked c = true) : Nearest m c (receive s given e.src c) := by
    cases hold : s.marked c with
    | true => exact receive_of_marked given hold ▸ h.nearest c hold
    | false => exact receive_of_free given hold ▸ (hfresh c hold hc).2
  have hvalue (c : Cell) (hc : next.marked c = true) : next.occDist c = distance c (receive s given e.src c) * m.scale := by
    cases hold : s.marked c with
    | true => rw [receive_of_marked _ hold, hexpanded.kept c hold, h.value c hold]
    | false => rw [receive_of_free _ hold, hexpanded.fresh c hold hc]
  have honly (b : CellData) (hb : b ∈ next.queue.erase e) : b.cell ≠ e.cell := by
    intro hcell
    have hnodup := hinv.nodup
    rw [← Multiset.cons_erase hmem, Multiset.map_cons, Multiset.nodup_cons] at hnodup
    exact hnodup.1 (Multiset.mem_map.mpr ⟨b, hb, hcell⟩)
  refine ⟨⟨hmem, fun b hb => ?_⟩, ⟨hinv.erase e, fun c => ⟨fun hc => ?_, fun hc => ?_⟩, fun b hb => ?_, hnearest, hvalue,
    fun p hp d hd hle => ?_⟩⟩
  · unfold Less
    rcases (hexpanded.queue b).mp hb with hold | ⟨hfree, hb', -⟩
    · rw [hexpanded.kept _ hmarked, hexpanded.kept _ (h.inv.queue b hold).1]
      exact htop.2 b hold
    · have hlt := (hfresh b.cell hfree hb').1
      rw [(hnearest _ (hkeep _ hmarked)).nearestSq_eq, (hnearest _ hb').nearestSq_eq, Nat.cast_lt, ← distance_lt_iff] at hlt
      rw [hvalue _ (hkeep _ hmarked), hvalue _ hb']
      exact not_lt.mpr (mul_le_mul_of_nonneg_right hlt.le m.scale_pos.le)
  · rcases List.mem_cons.mp hc with rfl | hc
    · exact ⟨hkeep _ hmarked, honly⟩
    · obtain ⟨hcmarked, hnone⟩ := (h.mem_done c).mp hc
      refine ⟨hkeep c hcmarked, fun b hb => ?_⟩
      rcases (hexpanded.queue b).mp (Multiset.mem_of_mem_erase hb) with hold | ⟨hfree, -, -⟩
      · exact hnone b hold
      · exact (ne_of_marked hcmarked hfree).symm
  · obtain ⟨hcmarked, hnone⟩ := hc
    by_cases hce : c = e.cell
    · exact List.mem_cons.mpr (.inl hce)
    · have hout (b : CellData) (hb : b ∈ next.queue) : b.cell ≠ c := by
        intro hcell
        have hbe : b ≠ e := fun heq => hce (hcell ▸ congrArg CellData.cell heq)
        exact hnone b ((Multiset.mem_erase_of_ne hbe).mpr hb) hcell
      refine List.mem_cons_of_mem _ ((h.mem_done c).mpr ⟨?_, fun b hb => hout b ((hexpanded.queue b).mpr (.inl hb))⟩)
      cases hold : s.marked c with
      | true => rfl
      | false => exact absurd rfl (hout ⟨c, e.src⟩ ((hexpanded.queue _).mpr (.inr ⟨hold, hcmarked, rfl⟩)))
  · rcases (hexpanded.queue b).mp (Multiset.mem_of_mem_erase hb) with hold | ⟨hfree, -, hsrc⟩
    · rw [receive_of_marked _ (h.inv.queue b hold).1]
      exact h.src b hold
    · rw [receive_of_free _ hfree]
      exact hsrc
  · rcases List.mem_cons.mp hp with rfl | hp
    · rw [receive_of_marked _ hmarked, ← h.src e htop.1] at hle
      exact (hexpanded.marked d).mpr (.inr ⟨hd, hle⟩)
    · rw [receive_of_marked _ ((h.mem_done p).mp hp).1] at hle
      exact hkeep d (h.closed p hp d hd hle)

end Traced

theorem start_traced (m : OccupancyMap) (R : Nat) (maxOccDist : ℝ) : Traced m R maxOccDist [] id (start m maxOccDist) where
  inv := start_inv m R maxOccDist
  mem_done c := by
    refine ⟨fun hc => absurd hc List.not_mem_nil, fun ⟨hc, hnone⟩ => ?_⟩
    exact absurd rfl (hnone ⟨c, c⟩ (Multiset.mem_map.mpr ⟨c, of_decide_eq_true hc, rfl⟩))
  src e he := by
    obtain ⟨c, -, rfl⟩ := Multiset.mem_map.mp he
    rfl
  nearest c hc := nearest_self (of_decide_eq_true hc)
  value c hc := by
    rw [id, distance_self, zero_mul]
    exact if_pos (mem_obstacles.mp (of_decide_eq_true hc)).2
  closed p hp := absurd hp List.not_mem_nil

/-! ## 最も近い障害物が渡される地図 -/

section HandedDown

variable (hwritten : ∀ c, m.Contains c → nearestSq m c < (R * R : Nat) → Written m R maxOccDist c)

/-- 先頭を調べた後も、印のある升目は、受け取るべき障害物を受け取っている。 -/
theorem Traced.handed_receive (h : Traced m R maxOccDist done given s) (htop : s.IsTop e)
    (hexpanded : Expanded m R e.src (m.near e.cell) s next) (hagrees : Agrees m R rank (e.cell :: done))
    (hhanded : ∀ c, s.marked c = true → Handed m R rank c (given c))
    (hlt : ∀ d, s.marked d = false → next.marked d = true → nearestSq m e.cell < nearestSq m d) :
    ∀ c, next.marked c = true → Handed m R rank c (receive s given e.src c) := by
  intro c hc
  cases hold : s.marked c with
  | true => exact receive_of_marked given hold ▸ hhanded c hold
  | false =>
      obtain ⟨hnear, hle⟩ := hexpanded.near hold hc
      exact receive_of_free given hold ▸ h.handed htop hagrees hhanded hnear hold hle (hlt c hold hc)

include hwritten in
theorem Traced.behind_of_handedDown (h : Traced m R maxOccDist done given s) (hdown : HandedDown m R maxOccDist)
    (hinj : Function.Injective rank) (hhanded : ∀ c, s.marked c = true → Handed m R rank c (given c)) :
    Behind m R maxOccDist s := by
  intro c hc hfree
  induction hn : nearestSq m c using WellFoundedLT.induction generalizing c with
  | ind n ih =>
      obtain ⟨o, ho, -⟩ := hdown rank hinj c hc
      cases ho with
      | source hobstacle => exact absurd hobstacle (h.inv.notMem_obstacles hfree)
      | @next _ p _ _ _ _ hp hlt hpo hle _ _ =>
          have hpw := hwritten p (contains_of_mem_near hc.contains hp) (hlt.trans_le hc.within)
          rw [hn] at hlt
          cases hpm : s.marked p with
          | false =>
              obtain ⟨b, hb, hless⟩ := ih _ hlt p hpw hpm rfl
              exact ⟨b, hb, hless.trans hlt⟩
          | true =>
              rcases h.mem_done_or hpm with hdone | ⟨b, hb, rfl⟩
              · rw [hpo.unique hinj (hhanded p hpm)] at hle
                exact absurd rfl (ne_of_marked (h.closed p hdone c (near_symm hc.contains hp) hle) hfree)
              · exact ⟨b, hb, hlt⟩

/-- 調べた順に合うどの番号でも、印のある升目は、受け取るべき障害物を受け取っている。 -/
def Followed (m : OccupancyMap) (R : Nat) (maxOccDist : ℝ) (s : CSpace) : Prop :=
  ∃ done given, Traced m R maxOccDist done given s ∧ (∃ rank, Function.Injective rank ∧ Agrees m R rank done) ∧
    ∀ rank, Function.Injective rank → Agrees m R rank done → ∀ c, s.marked c = true → Handed m R rank c (given c)

theorem start_followed (m : OccupancyMap) (R : Nat) (maxOccDist : ℝ) : Followed m R maxOccDist (start m maxOccDist) :=
  ⟨[], id, start_traced m R maxOccDist, ⟨Encodable.encode, Encodable.encode_injective, trivial⟩,
    fun _ _ _ _ hc => .source (of_decide_eq_true hc)⟩

include hwritten in
theorem Followed.behind (h : Followed m R maxOccDist s) (hdown : HandedDown m R maxOccDist) : Behind m R maxOccDist s := by
  obtain ⟨done, given, htraced, ⟨rank, hinj, hagrees⟩, hall⟩ := h
  exact htraced.behind_of_handedDown hwritten hdown hinj (hall rank hinj hagrees)

include hwritten in
theorem Followed.step (h : Followed m R maxOccDist s) (hdown : HandedDown m R maxOccDist) (hstep : Step m ⟨R⟩ s (some s')) :
    Followed m R maxOccDist s' := by
  have hbehind := h.behind hwritten hdown
  obtain ⟨done, given, htraced, ⟨rank₀, hinj₀, hagrees₀⟩, hall⟩ := h
  obtain ⟨e, next, top, htop, hexpanded, hinv, hsame, rfl⟩ := htraced.inv.step_cases hstep
  have hmarked := (htraced.inv.queue e htop.1).1
  have hlt (d : Cell) (hfree : s.marked d = false) (hd : next.marked d = true) : nearestSq m e.cell < nearestSq m d :=
    htraced.top_lt_fresh hwritten hbehind htop hexpanded hfree hd
  -- 先頭を、まだ調べていない升目の初めに置く番号で辿る。
  obtain ⟨rank, hinj, hagrees, hfirst⟩ := hagrees₀.exists_first hinj₀ e.cell
  have hagrees' := htraced.agrees hwritten hbehind htop hagrees fun b hb _ => by
    by_cases hmem : b.cell ∈ e.cell :: done
    · rcases List.mem_cons.mp hmem with heq | hdone
      · exact (congrArg rank heq.symm).le
      · exact absurd rfl (((htraced.mem_done b.cell).mp hdone).2 b hb)
    · exact (hfirst b.cell hmem).le
  have hreceived (rank : Cell → Nat) (hinj : Function.Injective rank) (hagrees : Agrees m R rank (e.cell :: done)) :
      ∀ c, next.marked c = true → Handed m R rank c (receive s given e.src c) :=
    htraced.handed_receive htop hexpanded hagrees (hall rank hinj hagrees.2) hlt
  obtain ⟨htopNext, htraced'⟩ := htraced.expand htop hexpanded hinv fun d hfree hd => by
    refine ⟨hlt d hfree hd, ?_⟩
    obtain ⟨hnear, hle⟩ := hexpanded.near hfree hd
    have ho := (htraced.inv.queue e htop.1).2.1
    by_cases hinside : nearestSq m d < (R * R : Nat)
    · have hd' := hwritten d (contains_of_mem_near (htraced.inv.marked _ hmarked).1 hnear) hinside
      obtain ⟨o, hgiven, hnearest⟩ := hdown rank hinj d hd'
      have hsrc := hreceived rank hinj hagrees' d hd
      rw [receive_of_free _ hfree] at hsrc
      exact hsrc.unique hinj hgiven ▸ hnearest
    · exact nearest_of_le ho ((Nat.cast_le.mpr hle).trans (not_lt.mp hinside))
  obtain rfl := hsame htopNext
  exact ⟨_, _, htraced', ⟨rank, hinj, hagrees'⟩, hreceived⟩

include hwritten in
theorem Followed.reaches (hdown : HandedDown m R maxOccDist) (hrun : Reaches m ⟨R⟩ (start m maxOccDist) s) :
    Followed m R maxOccDist s := by
  induction hrun with
  | refl => exact start_followed m R maxOccDist
  | tail _ hstep ih => exact ih.step hwritten hdown hstep

end HandedDown

/-! ## 正しさ -/

/-- 書かれた距離は、半径の中では最も近い障害物までのもの、それ以外では `maxOccDist` である。 -/
def Exact (m : OccupancyMap) (cellRadius : Int) (maxOccDist : ℝ) (s : CSpace) : Prop :=
  ∀ c, m.Contains c →
    (∀ o, Nearest m c o → distance c o ≤ cellRadius → s.occDist c = m.scale * distance c o) ∧
    ((∀ o, Nearest m c o → cellRadius < distance c o) → s.occDist c = maxOccDist)

theorem Traced.exact (h : Traced m R maxOccDist done given s) (hbehind : Behind m R maxOccDist s) (hempty : s.queue = 0) :
    Exact m R maxOccDist s := by
  intro c hc
  constructor
  · intro o hnearest hle
    rw [Int.cast_natCast, distance_le_iff] at hle
    cases hmarked : s.marked c with
    | true => rw [h.value c hmarked, (h.nearest c hmarked).distance_eq hnearest, mul_comm]
    | false =>
        rw [h.inv.unmarked c hc hmarked]
        by_contra hne
        have hwritten : Written m R maxOccDist c := by
          refine ⟨hc, hnearest.nearestSq_eq.trans_le (Nat.cast_le.mpr hle), fun o' ho' hvalue => hne ?_⟩
          rw [← hvalue, hnearest.distance_eq ho', mul_comm]
        obtain ⟨b, hb, -⟩ := hbehind c hwritten hmarked
        rw [hempty] at hb
        exact Multiset.notMem_zero b hb
  · intro hfar
    cases hmarked : s.marked c with
    | true =>
        obtain ⟨-, o, ho, hdist, -⟩ := h.inv.marked c hmarked
        have hnearest := h.nearest c hmarked
        have hlt := hfar _ hnearest
        rw [Int.cast_natCast, lt_distance_iff] at hlt
        exact absurd ((hnearest.2 o ho).trans hdist) (Nat.not_le.mpr hlt)
    | false => exact h.inv.unmarked c hc hmarked

end CSpace

/-- `map_update_cspace` は、表の外を引かずに終わり、最も近い障害物までの距離を書く。 -/
def Correct (m : OccupancyMap) (maxOccDist : ℝ) : Prop :=
  ∃ cdm, getDistanceMap m.scale maxOccDist = some cdm ∧
    Acc (fun s' s => CSpace.Step m cdm s (some s')) (CSpace.start m maxOccDist) ∧
    ∀ s, CSpace.Reaches m cdm (CSpace.start m maxOccDist) s →
      ¬ CSpace.Step m cdm s none ∧ (s.queue = 0 → CSpace.Exact m cdm.cellRadius maxOccDist s)

theorem getDistanceMap_of_nonneg {scale maxDist : ℝ} (h : truncate (maxDist / scale) = R) :
    getDistanceMap scale maxDist = some ⟨R⟩ := by
  rw [getDistanceMap, h, if_neg (by omega)]

/-- 半径の内側の升目に書かれる値は、初めの値より小さい。 -/
theorem written_of_lt (hradius : truncate (maxOccDist / m.scale) = R) (c : Cell) (hc : m.Contains c)
    (hlt : nearestSq m c < (R * R : Nat)) : Written m R maxOccDist c := by
  refine ⟨hc, hlt.le, fun o ho => ne_of_lt ?_⟩
  rw [ho.nearestSq_eq, Nat.cast_lt] at hlt
  have hpos : 0 < R := Nat.pos_of_ne_zero fun hzero => by
    rw [hzero] at hlt
    exact Nat.not_lt_zero _ hlt
  have hnear : distance c o < R := by
    rw [distance, Real.sqrt_lt' (Nat.cast_pos.mpr hpos), pow_two]
    exact_mod_cast hlt
  have hle : (R : ℝ) ≤ maxOccDist / m.scale := by
    have hnonneg : 0 ≤ maxOccDist / m.scale := by
      by_contra hneg
      rw [truncate, if_neg hneg] at hradius
      have hceil := Int.ceil_le.mpr ((not_le.mp hneg).le.trans_eq Int.cast_zero.symm)
      omega
    rw [truncate, if_pos hnonneg] at hradius
    exact_mod_cast Int.le_floor.mp hradius.ge
  calc distance c o * m.scale < R * m.scale := mul_lt_mul_of_pos_right hnear m.scale_pos
    _ ≤ maxOccDist := (le_div_iff₀ m.scale_pos).mp hle

theorem correct_of_handedDown (hradius : truncate (maxOccDist / m.scale) = R) (hdown : HandedDown m R maxOccDist) :
    Correct m maxOccDist := by
  have hinv := CSpace.start_inv m R maxOccDist
  have hwritten := written_of_lt hradius
  refine ⟨⟨R⟩, getDistanceMap_of_nonneg hradius, hinv.acc, fun s hrun => ⟨fun hfail => ?_, fun hempty => ?_⟩⟩
  · obtain ⟨s', hsome, -⟩ := (hinv.reaches hrun).step hfail
    cases hsome
  · have hfollowed := CSpace.Followed.reaches hwritten hdown hrun
    have hbehind := hfollowed.behind hwritten hdown
    obtain ⟨done, given, htraced, -⟩ := hfollowed
    exact htraced.exact hbehind hempty

/-! ## 正しく書かれる実行 -/

namespace CSpace

variable {s : CSpace} {done : List Cell} {given : Cell → Cell}

/-- どの実行でも正しい値が書かれるとき、印のついた升目の距離は最も近い障害物までのものであり、書かれるべき升目には終わりに印がある。 -/
structure Right (m : OccupancyMap) (R : Nat) (maxOccDist : ℝ) : Prop where
  value : ∀ s, Reaches m ⟨R⟩ (start m maxOccDist) s → ∀ c, s.marked c = true → ∀ o, Nearest m c o →
    s.occDist c = distance c o * m.scale
  marked : ∀ s, Reaches m ⟨R⟩ (start m maxOccDist) s → s.queue = 0 → ∀ c, Written m R maxOccDist c → s.marked c = true

theorem Right.nearest (h : Right m R maxOccDist) (hrun : Reaches m ⟨R⟩ (start m maxOccDist) s) (hc : s.marked c = true)
    (ho : o ∈ m.obstacles) (hvalue : s.occDist c = distance c o * m.scale) : Nearest m c o := by
  obtain ⟨o', hnearest⟩ := exists_nearest ho c
  have hsame := hvalue.symm.trans (h.value s hrun c hc o' hnearest)
  have heq := distance_inj.mp (mul_right_cancel₀ m.scale_pos.ne' hsame)
  exact nearest_of_le ho (hnearest.nearestSq_eq.symm ▸ (Nat.cast_le.mpr heq.le))

/-- 正しく書かれる実行では、印のない書かれるべき升目より障害物に近い升目が、待っている。 -/
theorem Right.behind (h : Right m R maxOccDist)
    (hwritten : ∀ c, m.Contains c → nearestSq m c < (R * R : Nat) → Written m R maxOccDist c)
    (hrun : Reaches m ⟨R⟩ (start m maxOccDist) s) (htraced : Traced m R maxOccDist done given s) :
    Behind m R maxOccDist s := by
  intro c hc hfree
  induction hn : nearestSq m c using WellFoundedLT.induction generalizing c with
  | ind n ih =>
      -- 続きの実行で `c` に障害物を渡す升目 `e` を考える。
      obtain ⟨final, hrest, hempty⟩ := htraced.inv.exists_final
      have hmarked := h.marked final (hrun.trans hrest) hempty c hc
      obtain ⟨mid, e, hmid, he, hnear, hle, hvalue⟩ := htraced.inv.exists_marking hrest hfree hmarked
      obtain ⟨hemarked, ho, hdist, -⟩ := (htraced.inv.reaches hmid).queue e he
      have hcell := ((htraced.inv.reaches hmid).marked _ hemarked).1
      have hnearest := h.nearest (hrun.trans hrest) hmarked ho hvalue
      have hncell := near_symm hcell hnear
      have hlower (d : Cell) (hless : distanceSq d e.src < distanceSq c e.src) : nearestSq m d < n := by
        rw [← hn, hnearest.nearestSq_eq]
        exact (nearestSq_le ho).trans_lt (Nat.cast_lt.mpr hless)
      -- `c` の隣で、その障害物へより近いものは、印があるか、待つ升目より遠い。
      have hcloser (d : Cell) (hd : d ∈ m.near c) (hless : distanceSq d e.src < distanceSq c e.src) :
          s.marked d = true ∨ ∃ b ∈ s.queue, nearestSq m b.cell < n := by
        have hlt := hlower d hless
        cases hdm : s.marked d with
        | true => exact .inl rfl
        | false =>
            have hdw := hwritten d (contains_of_mem_near hc.contains hd) (hlt.trans_le (hn ▸ hc.within))
            obtain ⟨b, hb, hbd⟩ := ih _ hlt d hdw hdm rfl
            exact .inr ⟨b, hb, hbd.trans hlt⟩
      rcases Nat.lt_or_gt_of_ne (distanceSq_ne_of_mem_near hncell e.src) with hless | hfar
      · rcases hcloser e.cell hncell hless with hold | hwait
        · exact ⟨e, (htraced.inv.kept hmid hold).2.2 e he rfl, hlower _ hless⟩
        · exact hwait
      · -- 遠い隣から渡せるのであれば、近い隣のどれかが、もう渡していたはずである。
        have hne : c ≠ e.src := fun heq => htraced.inv.notMem_obstacles hfree (heq ▸ ho)
        obtain ⟨d, hd, hless, hreach⟩ :=
          exists_near_reaching hc.contains (mem_obstacles.mp ho).1 hne hncell hfar hdist
        rcases hcloser d hd hless with hold | hwait
        · rcases htraced.mem_done_or hold with hdone | ⟨b, hb, rfl⟩
          · have hset := htraced.closed d hdone c (near_symm hc.contains hd)
              (hreach _ ((htraced.nearest d hold).2 e.src ho))
            exact absurd rfl (ne_of_marked hset hfree)
          · exact ⟨b, hb, hlower _ hless⟩
        · exact hwait

/-- 先頭になりうる升目のうち、番号の最も小さいもの。 -/
theorem exists_first_top (rank : Cell → Nat) (h : s.queue ≠ 0) :
    ∃ e, s.IsTop e ∧ ∀ b, s.IsTop b → rank e.cell ≤ rank b.cell := by
  classical
  obtain ⟨e, he⟩ := s.exists_isTop h
  obtain ⟨top, htop, hmin⟩ := (s.queue.toFinset.filter s.IsTop).exists_min_image (fun b => rank b.cell)
    ⟨e, Finset.mem_filter.mpr ⟨Multiset.mem_toFinset.mpr he.1, he⟩⟩
  exact ⟨top, (Finset.mem_filter.mp htop).2,
    fun b hb => hmin b (Finset.mem_filter.mpr ⟨Multiset.mem_toFinset.mpr hb.1, hb⟩)⟩

/-- 番号の順に調べる実行では、どの升目も、受け取るべき障害物を受け取る。 -/
theorem Right.exists_handed (h : Right m R maxOccDist)
    (hwritten : ∀ c, m.Contains c → nearestSq m c < (R * R : Nat) → Written m R maxOccDist c)
    (hrun : Reaches m ⟨R⟩ (start m maxOccDist) s) (htraced : Traced m R maxOccDist done given s)
    (hagrees : Agrees m R rank done) (hhanded : ∀ c, s.marked c = true → Handed m R rank c (given c)) :
    ∀ c, Written m R maxOccDist c → ∃ o, Handed m R rank c o ∧ Nearest m c o := by
  have hacc := htraced.inv.acc
  induction hacc generalizing done given with
  | intro s _ ih =>
      have hbehind := h.behind hwritten hrun htraced
      by_cases hempty : s.queue = 0
      · intro c hc
        have hmarked := h.marked s hrun hempty c hc
        exact ⟨given c, hhanded c hmarked, htraced.nearest c hmarked⟩
      · obtain ⟨e, htop, hfirst⟩ := exists_first_top rank hempty
        obtain ⟨next, top, hexpanded, hinv, hsame, hstep⟩ := htraced.inv.exists_step htop
        have ho := (htraced.inv.queue e htop.1).2.1
        have hlt (d : Cell) (hfree : s.marked d = false) (hd : next.marked d = true) :
            nearestSq m e.cell < nearestSq m d :=
          htraced.top_lt_fresh hwritten hbehind htop hexpanded hfree hd
        have hagrees' := htraced.agrees hwritten hbehind htop hagrees fun b hb heq => by
          refine hfirst b ⟨hb, fun b' hb' => not_lt.mpr ?_⟩
          have hb'' := (htraced.inv.queue b' hb').1
          exact (htraced.le_iff (htraced.inv.queue b hb).1 hb'').mpr (heq.trans_le (htraced.top_le htop hb'))
        have hhanded' := htraced.handed_receive htop hexpanded hagrees' hhanded hlt
        obtain ⟨htopNext, htraced'⟩ := htraced.expand htop hexpanded hinv fun d hfree hd =>
          ⟨hlt d hfree hd, h.nearest (hrun.tail hstep) hd ho (hexpanded.fresh d hfree hd)⟩
        obtain rfl := hsame htopNext
        exact ih _ hstep (hrun.tail hstep) htraced' hagrees' hhanded'

end CSpace

theorem Correct.right (hradius : truncate (maxOccDist / m.scale) = R) (h : Correct m maxOccDist) :
    CSpace.Right m R maxOccDist := by
  obtain ⟨cdm, hcdm, -, hall⟩ := h
  obtain rfl := Option.some.inj ((getDistanceMap_of_nonneg hradius).symm.trans hcdm)
  have hinv (s : CSpace) (hrun : CSpace.Reaches m ⟨R⟩ (CSpace.start m maxOccDist) s) : CSpace.Inv m R maxOccDist s :=
    (CSpace.start_inv m R maxOccDist).reaches hrun
  have hvalue (s : CSpace) (hrun : CSpace.Reaches m ⟨R⟩ (CSpace.start m maxOccDist) s) (hempty : s.queue = 0) (c o : Cell)
      (hc : m.Contains c) (hnearest : Nearest m c o) (hle : distanceSq c o ≤ R * R) :
      s.occDist c = distance c o * m.scale := by
    rw [mul_comm]
    exact (((hall s hrun).2 hempty) c hc).1 o hnearest (by rwa [Int.cast_natCast, distance_le_iff])
  refine ⟨fun s hrun c hc o hnearest => ?_, fun s hrun hempty c hc => ?_⟩
  · obtain ⟨hcontains, o', ho', hdist, -⟩ := (hinv s hrun).marked c hc
    obtain ⟨final, hrest, hempty⟩ := (hinv s hrun).exists_final
    rw [← ((hinv s hrun).kept hrest hc).2.1]
    exact hvalue final (hrun.trans hrest) hempty c o hcontains hnearest ((hnearest.2 o' ho').trans hdist)
  · cases hmarked : s.marked c with
    | true => rfl
    | false =>
        have hsome : m.obstacles.Nonempty := by
          rw [Finset.nonempty_iff_ne_empty]
          intro hnone
          have hwithin := hc.within
          rw [nearestSq, hnone, Finset.inf_empty] at hwithin
          exact absurd hwithin (not_le.mpr (WithTop.coe_lt_top _))
        obtain ⟨t, ht⟩ := hsome
        obtain ⟨o, hnearest⟩ := exists_nearest ht c
        have hle : distanceSq c o ≤ R * R := Nat.cast_le.mp (hnearest.nearestSq_eq.symm.trans_le hc.within)
        have hinit := (hinv s hrun).unmarked c hc.contains hmarked
        exact absurd ((hvalue s hrun hempty c o hc.contains hnearest hle).symm.trans hinit) (hc.value o hnearest)

theorem handedDown_of_correct (hradius : truncate (maxOccDist / m.scale) = R) (h : Correct m maxOccDist) :
    HandedDown m R maxOccDist := fun _ _ =>
  (h.right hradius).exists_handed (written_of_lt hradius) Relation.ReflTransGen.refl (CSpace.start_traced m R maxOccDist)
    trivial fun _ hc => .source (of_decide_eq_true hc)

/-! ## 負の半径 -/

namespace CSpace

variable {cdm : CachedDistanceMap} {s s' : CSpace} {e : CellData} {maxOccDist : ℝ}

/-- 印のついた升目の距離は変わらず、待ち行列から減るものはない。 -/
structure Grown (s s' : CSpace) : Prop where
  kept : ∀ c, s.marked c = true → s'.marked c = true ∧ s'.occDist c = s.occDist c
  queue : s.queue ≤ s'.queue

theorem Grown.refl (s : CSpace) : Grown s s := ⟨fun _ hc => ⟨hc, rfl⟩, le_refl s.queue⟩

theorem Grown.trans {s'' : CSpace} (h : Grown s s') (h' : Grown s' s'') : Grown s s'' where
  kept c hc := ⟨(h'.kept c (h.kept c hc).1).1, (h'.kept c (h.kept c hc).1).2.trans (h.kept c hc).2⟩
  queue := h.queue.trans h'.queue

theorem grown_of_enqueue {src : Cell} (h : enqueue m cdm src s c = some s') : Grown s s' := by
  unfold enqueue at h
  cases hmarked : s.marked c with
  | true =>
      rw [hmarked, if_pos rfl] at h
      obtain rfl := Option.some.inj h
      exact Grown.refl s
  | false =>
      rw [hmarked, if_neg Bool.false_ne_true] at h
      cases hdist : cdm.distances (axisDistance c.1 src.1) (axisDistance c.2 src.2) with
      | none =>
          rw [hdist] at h
          cases h
      | some distance =>
          rw [hdist] at h
          dsimp only at h
          by_cases hfar : (cdm.cellRadius : ℝ) < distance
          · rw [if_pos hfar] at h
            obtain rfl := Option.some.inj h
            exact Grown.refl s
          · rw [if_neg hfar] at h
            obtain rfl := Option.some.inj h
            refine ⟨fun d hd => ?_, Multiset.le_cons_self _ _⟩
            have hne : d ≠ c := by
              rintro rfl
              rw [hd] at hmarked
              cases hmarked
            exact ⟨(Function.update_of_ne hne _ _).trans hd, Function.update_of_ne hne _ _⟩

theorem grown_of_foldlM {src : Cell} {ns : List Cell} (h : ns.foldlM (enqueue m cdm src) s = some s') : Grown s s' := by
  induction ns generalizing s with
  | nil =>
      obtain rfl := Option.some.inj h
      exact Grown.refl s
  | cons n ns ih =>
      rw [List.foldlM_cons, Option.bind_eq_bind, Option.bind_eq_some_iff] at h
      obtain ⟨mid, hmid, hrest⟩ := h
      exact (grown_of_enqueue hmid).trans (ih hrest)

/-- 表の外を引かなければ、終わりの状態に届き、印のついた升目の距離は変わらない。 -/
theorem exists_final_of_acc (hacc : Acc (fun s' s => Step m cdm s (some s')) s)
    (hsafe : ∀ s', Reaches m cdm s s' → ¬ Step m cdm s' none) :
    ∃ s', Reaches m cdm s s' ∧ s'.queue = 0 ∧ ∀ c, s.marked c = true → s'.occDist c = s.occDist c := by
  induction hacc with
  | intro s _ ih =>
      by_cases hempty : s.queue = 0
      · exact ⟨s, Relation.ReflTransGen.refl, hempty, fun _ _ => rfl⟩
      · obtain ⟨e, htop⟩ := s.exists_isTop hempty
        cases hexpand : expand m cdm s e with
        | none => exact absurd (Step.failed htop hexpand) (hsafe s Relation.ReflTransGen.refl)
        | some next =>
            have hgrown := grown_of_foldlM hexpand
            obtain ⟨top, htop', hsame⟩ := exists_isTop_keeping (Multiset.mem_of_le hgrown.queue htop.1)
            have hstep := Step.popped htop hexpand htop' hsame
            obtain ⟨s', hrun, hfinal, hkept⟩ := ih _ hstep fun s' hrun => hsafe s' (hrun.head hstep)
            exact ⟨s', hrun.head hstep, hfinal, fun c hc => (hkept c (hgrown.kept c hc).1).trans (hgrown.kept c hc).2⟩

end CSpace

theorem truncate_neg {x : ℝ} (h : truncate x < 0) : x < 0 := by
  by_contra hnonneg
  rw [truncate, if_pos (not_lt.mp hnonneg)] at h
  exact absurd h (not_lt.mpr (Int.floor_nonneg.mpr (not_lt.mp hnonneg)))

/-- 半径が負であれば、障害物の距離は `maxOccDist` にならない。 -/
theorem correct_iff_of_neg {maxOccDist : ℝ} (hradius : truncate (maxOccDist / m.scale) < 0) :
    Correct m maxOccDist ↔ m.obstacles = ∅ ∧ -2 ≤ truncate (maxOccDist / m.scale) := by
  have hneg : maxOccDist < 0 := by
    have hquotient := truncate_neg hradius
    by_contra hnonneg
    exact absurd (div_nonneg (not_lt.mp hnonneg) m.scale_pos.le) (not_le.mpr hquotient)
  unfold Correct getDistanceMap
  constructor
  · rintro ⟨cdm, hcdm, hacc, hall⟩
    split_ifs at hcdm with hsize
    obtain rfl := Option.some.inj hcdm
    refine ⟨Finset.eq_empty_of_forall_notMem fun o ho => ?_, by omega⟩
    obtain ⟨s, hrun, hempty, hkept⟩ := CSpace.exists_final_of_acc hacc fun s hrun => (hall s hrun).1
    have hzero : s.occDist o = 0 := (hkept o (decide_eq_true ho)).trans (if_pos (mem_obstacles.mp ho).2)
    have hfar := ((hall s hrun).2 hempty o (mem_obstacles.mp ho).1).2 fun o' _ =>
      lt_of_lt_of_le (Int.cast_lt_zero.mpr hradius) (Real.sqrt_nonneg _)
    exact absurd (hzero.symm.trans hfar) hneg.ne'
  · rintro ⟨hnone, hsize⟩
    have hqueue : (CSpace.start m maxOccDist).queue = 0 := by
      rw [CSpace.start, hnone]
      rfl
    have hstuck (cdm : CachedDistanceMap) (r : Option CSpace) : ¬ CSpace.Step m cdm (CSpace.start m maxOccDist) r := by
      intro hstep
      cases hstep with
      | failed htop _ =>
          have hmem := htop.1
          rw [hqueue] at hmem
          exact absurd hmem (Multiset.notMem_zero _)
      | popped htop _ _ _ =>
          have hmem := htop.1
          rw [hqueue] at hmem
          exact absurd hmem (Multiset.notMem_zero _)
    refine ⟨⟨truncate (maxOccDist / m.scale)⟩, if_neg (by omega), Acc.intro _ fun s' hstep => absurd hstep (hstuck _ _),
      fun s hrun => ?_⟩
    have hsame : s = CSpace.start m maxOccDist := by
      rcases Relation.ReflTransGen.cases_head hrun with heq | ⟨s', hstep, -⟩
      · exact heq.symm
      · exact absurd hstep (hstuck _ _)
    subst hsame
    refine ⟨hstuck _ none, fun _ c hc => ⟨fun o hnearest => ?_, fun _ => if_neg fun hocc => ?_⟩⟩
    · have hmem := hnearest.1
      rw [hnone] at hmem
      exact absurd hmem (Finset.notMem_empty o)
    · have hmem := mem_obstacles.mpr ⟨hc, hocc⟩
      rw [hnone] at hmem
      exact absurd hmem (Finset.notMem_empty c)

theorem truncate_natCast_mul (R : Nat) : truncate ((R : ℝ) * m.scale / m.scale) = R := by
  rw [mul_div_cancel_right₀ _ m.scale_pos.ne', truncate, if_pos (Nat.cast_nonneg R), Int.floor_natCast]

theorem scale_one : (0 : ℝ) < 1 := one_pos

/-- 三つの障害物のある 4 × 4 の地図。 -/
noncomputable def threeObstacles : OccupancyMap where
  sizeX := 4
  sizeY := 4
  scale := 1
  scale_pos := scale_one
  occState c := if c = (0, 0) ∨ c = (1, 2) ∨ c = (3, 3) then 1 else -1

theorem threeObstacles_obstacles : threeObstacles.obstacles = {(0, 0), (1, 2), (3, 3)} := by
  unfold OccupancyMap.obstacles OccupancyMap.cells threeObstacles
  decide

theorem threeObstacles_nearestSq (c : Cell) : nearestSq threeObstacles c =
    ({(0, 0), (1, 2), (3, 3)} : Finset Cell).inf fun o => (distanceSq c o : WithTop Nat) := by
  rw [nearestSq, threeObstacles_obstacles]

/-- 右下の隅と、そこまで障害物を渡す升目。 -/
def cornerSide : List Cell := [(3, 0), (2, 0), (1, 0), (0, 0), (3, 1), (3, 2), (3, 3)]

/-- 右下の隅へ渡す升目は、中央の障害物を受け取らない。 -/
theorem threeObstacles_handed (h : Handed threeObstacles 8 rank c o) (hc : c ∈ cornerSide) : o ≠ (1, 2) := by
  have hsource : ∀ c ∈ cornerSide, c ≠ (1, 2) := by decide
  have hnear : ∀ c ∈ cornerSide, ∀ p ∈ threeObstacles.near c,
      (∀ q ∈ threeObstacles.near c, ¬ nearestSq threeObstacles q < nearestSq threeObstacles p) →
      c ∈ threeObstacles.obstacles ∨ p ∈ cornerSide := by
    simp only [threeObstacles_nearestSq, threeObstacles_obstacles]
    decide
  have hreach : ∀ c ∈ cornerSide, ∀ o ∈ threeObstacles.obstacles, distanceSq c o ≤ 8 * 8 := by
    rw [threeObstacles_obstacles]
    decide
  induction h with
  | source _ => exact hsource _ hc
  | @next c p o given _ hfree hp _ _ _ hgiven hfar ih _ =>
      refine ih ((hnear c hc p hp fun q hq hless => ?_).resolve_left hfree)
      exact absurd (hfar q hq (.inl hless)) (Nat.not_lt.mpr (hreach c hc _ (hgiven q hq (.inl hless)).mem))

/-- 二つの障害物が離れている 6 × 3 の地図。 -/
noncomputable def twoObstacles : OccupancyMap where
  sizeX := 6
  sizeY := 3
  scale := 1
  scale_pos := scale_one
  occState c := if c = (0, 0) ∨ c = (5, 1) then 1 else 0

end Ranger.Amcl
