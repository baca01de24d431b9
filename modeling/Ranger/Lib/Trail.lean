import Ranger.Lib.Spread

/-!
# 広がりの道筋

広がりで点が受け取る源を、待ち行列によらずに定める。源から隣へ遠ざかる道筋に順を入れる。点は、訪れた点を一歩延ばした道筋のうち、
初めのものの源を受け取る。
-/

namespace Ranger.Lib.Spread

variable {V S : Type*}

/-- 源から点への道筋。番号は、源の列での位置と、隣の列での位置である。 -/
inductive Trail (V S : Type*)
  | source (i : ℕ) (c : V × S)
  | step (a : Trail V S) (i : ℕ) (v : V)

namespace Trail

def last : Trail V S → V
  | .source _ c => c.1
  | .step _ _ v => v

def src : Trail V S → S
  | .source _ c => c.2
  | .step a _ _ => a.src

def entry (a : Trail V S) : V × S := (a.last, a.src)

def dist (r : Spread V S) (a : Trail V S) : ℕ := r.dist a.last a.src

/-- 近い道筋が先である。遠さが等しければ、最後の一歩を除いた道筋の先のもの、隣の列で先のもの、源の列で先のものが先である。 -/
def Before (r : Spread V S) : Trail V S → Trail V S → Prop
  | .source i c, .source j d => r.dist c.1 c.2 < r.dist d.1 d.2 ∨ r.dist c.1 c.2 = r.dist d.1 d.2 ∧ i < j
  | .source _ c, .step b _ w => r.dist c.1 c.2 < r.dist w b.src
  | .step a _ v, .source _ d => r.dist v a.src < r.dist d.1 d.2
  | .step a i v, .step b j w =>
      r.dist v a.src < r.dist w b.src ∨ r.dist v a.src = r.dist w b.src ∧ (Before r a b ∨ a = b ∧ i < j)

/-- 道筋 `a` は、`i` 番目の隣 `v` へ、半径の中で遠ざかる。 -/
structure Leads (r : Spread V S) (a : Trail V S) (i : ℕ) (v : V) : Prop where
  near : (r.near a.last)[i]? = some v
  away : a.dist r < r.dist v a.src
  reach : r.dist v a.src ≤ r.radius

variable {r : Spread V S} {a b : Trail V S} {i j : ℕ} {v : V}

theorem Before.dist_le (h : Before r a b) : a.dist r ≤ b.dist r := by
  cases a with
  | source i c =>
      cases b with
      | source j d => exact h.elim le_of_lt fun h => h.1.le
      | step b j w => exact le_of_lt h
  | step a i v =>
      cases b with
      | source j d => exact le_of_lt h
      | step b j w => exact h.elim le_of_lt fun h => h.1.le

theorem before_of_dist_lt (h : a.dist r < b.dist r) : Before r a b := by
  cases a with
  | source i c =>
      cases b with
      | source j d => exact .inl h
      | step b j w => exact h
  | step a i v =>
      cases b with
      | source j d => exact h
      | step b j w => exact .inl h

theorem Before.asymm (h : Before r a b) : ¬ Before r b a := by
  induction a generalizing b with
  | source i c =>
      cases b with
      | source j d =>
          rintro (h' | ⟨heq, h'⟩) <;> rcases h with h | ⟨heq', h⟩ <;> omega
      | step b j w => exact fun h' => lt_asymm h h'
  | step a i v ih =>
      cases b with
      | source j d => exact fun h' => lt_asymm h h'
      | step b j w =>
          rcases h with h | ⟨heq, h⟩
          · rintro (h' | ⟨heq', -⟩) <;> omega
          · rintro (h' | ⟨-, h'⟩)
            · omega
            · rcases h with h | ⟨rfl, h⟩
              · rcases h' with h' | ⟨rfl, -⟩
                · exact ih h h'
                · exact ih h h
              · rcases h' with h' | ⟨-, h'⟩
                · exact ih h' h'
                · omega

theorem Before.irrefl (a : Trail V S) : ¬ Before r a a := fun h => h.asymm h

/-- 勝ち残る道筋。源の点では列で初めの源であり、他の点では、勝ち残る道筋を一歩延ばした、その点への道筋のうちの初めのものである。 -/
def Prevails (r : Spread V S) (init : List (V × S)) : Trail V S → Prop
  | .source i c => init[i]? = some c ∧ ∀ j < i, ∀ d, init[j]? = some d → d.1 ≠ c.1
  | .step a i v =>
      (∀ d ∈ init, d.1 ≠ v) ∧ (∃ _ : Leads r a i v, Prevails r init a) ∧
        ∀ b j, Leads r b j v → Before r (.step b j v) (.step a i v) → ¬ Prevails r init b
termination_by a => a.dist r
decreasing_by
  · rename_i h
    exact h.away
  · rename_i h hbefore
    exact h.away.trans_le hbefore.dist_le

theorem Prevails.not_prevails {init : List (V × S)} (h : Prevails r init (.step a i v)) (hlead : Leads r b j v)
    (hb : Prevails r init b) : ¬ Before r (.step b j v) (.step a i v) := by
  rw [Prevails] at h
  exact fun hbefore => h.2.2 b j hlead hbefore hb

end Trail

/-- 点 `v` は、そこへの勝ち残る道筋の源 `s` を受け取る。 -/
def Given (r : Spread V S) (init : List (V × S)) (v : V) (s : S) : Prop :=
  ∃ a : Trail V S, a.Prevails r init ∧ a.entry = (v, s)

/-! ## 待ち行列に加わる要素 -/

section Enqueue

variable {α : Type*} {r : Spread V S}

/-- 隣 `v` が、源 `s` とともに箱 `k` に加わる。 -/
def Joins (r : Spread V S) (f : Front V S α) (s : S) (k : ℕ) (v : V) : Bool :=
  !f.seen v && decide (r.dist v s ≤ r.radius) && decide (r.key v s = k)

theorem joins_iff {f : Front V S α} {s : S} {k : ℕ} {v : V} :
    Joins r f s k v = true ↔ f.seen v = false ∧ r.dist v s ≤ r.radius ∧ r.key v s = k := by
  simp [Joins, and_assoc]

theorem foldl_enqueue_bins_eq (s : S) (vs : List V) (f : Front V S α) (k : ℕ) :
    (vs.foldl (r.enqueue s) f).bins k = f.bins k ++ (vs.filter (Joins r f s k)).map fun v => (v, s) := by
  induction vs generalizing f with
  | nil => simp
  | cons v vs ih =>
      have hjoins : Joins r (r.enqueue s f v) s k = Joins r f s k := by
        funext w
        rw [Joins, enqueue_seen, Joins]
      rw [List.foldl_cons, ih, hjoins, List.filter_cons]
      cases hv : Joins r f s k v with
      | true =>
          obtain ⟨hseen, hle, rfl⟩ := joins_iff.mp hv
          rw [enqueue, hseen, if_neg Bool.false_ne_true, if_neg (Nat.not_lt.mpr hle), push_bins, if_pos rfl,
            List.append_assoc]
          rfl
      | false =>
          have hsame : (r.enqueue s f v).bins k = f.bins k := by
            unfold enqueue
            split_ifs with hseen hlt
            · rfl
            · rfl
            · refine if_neg fun hk => ?_
              rw [joins_iff.mpr ⟨by simpa using hseen, Nat.not_lt.mp hlt, hk.symm⟩] at hv
              cases hv
          rw [hsame]
          rfl

end Enqueue

/-! ## 調べる順 -/

section Order

open Trail

variable {α : Type*} {r : Spread V S} {mark : V → S → α → α} {init : List (V × S)} {out : α} {k i : ℕ}
  {ways : ℕ → List (Trail V S)} {log : List (Trail V S)} {f : Front V S α} {a b : Trail V S}

/-- 箱に加わる道筋。源であるか、訪れた道筋を一歩延ばしたものである。 -/
def Offered (r : Spread V S) (init : List (V × S)) (log : List (Trail V S)) : Trail V S → Prop
  | .source i c => init[i]? = some c
  | .step a i v => a ∈ log ∧ Leads r a i v

/-- 箱 `k` の `i` 番目より前の道筋。 -/
def Passed (ways : ℕ → List (Trail V S)) (k i : ℕ) (a : Trail V S) : Prop :=
  (∃ j < k, a ∈ ways j) ∨ a ∈ (ways k).take i

/-- 訪れた順の記録 `log` と状態が、箱の道筋 `ways` に合っている。どの箱も道筋の順に並び、訪れた道筋は勝ち残るものである。 -/
structure Ordered (r : Spread V S) (mark : V → S → α → α) (init : List (V × S)) (out : α) (k i : ℕ)
    (ways : ℕ → List (Trail V S)) (log : List (Trail V S)) (f : Front V S α) : Prop where
  nodup : (log.map last).Nodup
  seen : ∀ v, f.seen v = true ↔ ∃ a ∈ log, a.last = v
  out : f.out = log.foldl (fun o a => mark a.last a.src o) out
  prevails : ∀ a ∈ log, a.Prevails r init
  bins : ∀ j, k ≤ j → f.bins j = (ways j).map entry
  sorted : ∀ j, (ways j).Pairwise (Before r)
  offered : ∀ j, ∀ a ∈ ways j, r.key a.last a.src = j ∧ Offered r init log a
  passed : ∀ a ∈ log, Passed ways k i a
  sources : ∀ i c, init[i]? = some c → .source i c ∈ ways 0
  due : ∀ a ∈ log, ∀ i v, Leads r a i v →
    .step a i v ∈ ways (r.key v a.src) ∨ ∃ b ∈ log, b.last = v ∧ Before r b a
  done : ∀ a, Passed ways k i a → ∃ b ∈ log, b.last = a.last ∧ (b = a ∨ Before r b a)

theorem key_lt_key {v w : V} {s t : S} (h : r.dist v s < r.dist w t) (hle : r.dist w t ≤ r.radius) :
    r.key v s < r.key w t := by
  rw [← not_le, r.key_le_iff w t v s hle (h.le.trans hle), not_le]
  exact h

theorem Offered.dist_le (hinit : ∀ c ∈ init, r.dist c.1 c.2 = 0) (h : Offered r init log a) : a.dist r ≤ r.radius := by
  cases a with
  | source i c => exact (hinit c (List.mem_of_getElem? h)).le.trans (Nat.zero_le _)
  | step a i v => exact h.2.reach

theorem Offered.mono {log' : List (Trail V S)} (hsub : ∀ a ∈ log, a ∈ log') (h : Offered r init log a) :
    Offered r init log' a := by
  cases a with
  | source i c => exact h
  | step a i v => exact ⟨hsub a h.1, h.2⟩

theorem Passed.mono {ways' : ℕ → List (Trail V S)} (hsame : ∀ j ≤ k, ways' j = ways j) :
    Passed ways' k i a ↔ Passed ways k i a := by
  refine or_congr (exists_congr fun j => and_congr_right fun hj => ?_) ?_
  · rw [hsame j hj.le]
  · rw [hsame k le_rfl]

theorem Passed.succ_iff (ha : (ways k)[i]? = some a) : Passed ways k (i + 1) b ↔ Passed ways k i b ∨ b = a := by
  rw [Passed, Passed, List.take_add_one, ha, List.mem_append, Option.toList_some, List.mem_singleton, or_assoc]

/-- 箱が一つ終わる。 -/
theorem Passed.next_iff (hi : (ways k).length ≤ i) : Passed ways (k + 1) 0 a ↔ Passed ways k i a := by
  rw [Passed, Passed, List.take_zero, List.take_of_length_le hi]
  constructor
  · rintro (⟨j, hj, hmem⟩ | hmem)
    · rcases Nat.lt_succ_iff_lt_or_eq.mp hj with hj | rfl
      · exact .inl ⟨j, hj, hmem⟩
      · exact .inr hmem
    · cases hmem
  · rintro (⟨j, hj, hmem⟩ | hmem)
    · exact .inl ⟨j, Nat.lt_succ_of_lt hj, hmem⟩
    · exact .inl ⟨k, Nat.lt_succ_self k, hmem⟩

namespace Ordered

variable (hinit : ∀ c ∈ init, r.dist c.1 c.2 = 0)

include hinit in
/-- 箱の番号の順は、遠さの順である。 -/
theorem key_lt_iff (h : Ordered r mark init out k i ways log f) {j l : ℕ} (ha : a ∈ ways j) (hb : b ∈ ways l) :
    j < l ↔ a.dist r < b.dist r := by
  obtain ⟨rfl, haoff⟩ := h.offered j a ha
  obtain ⟨rfl, hboff⟩ := h.offered l b hb
  have hle := r.key_le_iff b.last b.src a.last a.src (hboff.dist_le hinit) (haoff.dist_le hinit)
  rw [← not_le, hle, not_le]
  rfl

include hinit in
/-- 前に調べた道筋は、今の道筋より先である。 -/
theorem before_of_passed (h : Ordered r mark init out k i ways log f) (ha : (ways k)[i]? = some a)
    (hb : Passed ways k i b) : Before r b a := by
  have hmem := List.mem_of_getElem? ha
  rcases hb with ⟨j, hj, hb⟩ | hb
  · exact before_of_dist_lt ((h.key_lt_iff hinit hb hmem).mp hj)
  · obtain ⟨p, hp, rfl⟩ := List.mem_iff_getElem.mp hb
    obtain ⟨hi, rfl⟩ := List.getElem?_eq_some_iff.mp ha
    rw [List.length_take] at hp
    rw [List.getElem_take]
    exact List.pairwise_iff_getElem.mp (h.sorted k) p i _ _ (by omega)

include hinit in
/-- 今の道筋より先の、箱にある道筋は、もう調べた。 -/
theorem passed_of_before (h : Ordered r mark init out k i ways log f) (ha : (ways k)[i]? = some a) {j : ℕ}
    (hb : b ∈ ways j) (hbefore : Before r b a) : Passed ways k i b := by
  have hmem := List.mem_of_getElem? ha
  rcases Nat.lt_trichotomy j k with hj | rfl | hj
  · exact .inl ⟨j, hj, hb⟩
  · obtain ⟨p, hp, rfl⟩ := List.mem_iff_getElem.mp hb
    obtain ⟨hi, rfl⟩ := List.getElem?_eq_some_iff.mp ha
    rcases Nat.lt_trichotomy p i with hpi | rfl | hpi
    · exact .inr (List.mem_take_iff_getElem.mpr ⟨p, by omega, rfl⟩)
    · exact absurd hbefore (Before.irrefl _)
    · exact absurd (List.pairwise_iff_getElem.mp (h.sorted j) i p hi hp hpi) hbefore.asymm
  · exact absurd hbefore.dist_le (Nat.not_le.mpr ((h.key_lt_iff hinit hmem hb).mp hj))

include hinit in
/-- 調べ終えた箱の、勝ち残る道筋は、訪れた。 -/
theorem mem_log (h : Ordered r mark init out k i ways log f) (ha : a.Prevails r init) (hlt : r.key a.last a.src < k) :
    a ∈ log := by
  induction a with
  | source n c =>
      have hway := h.sources n c (by rw [Prevails] at ha; exact ha.1)
      obtain ⟨hkey, -⟩ := h.offered 0 _ hway
      obtain ⟨b, hb, hlast, rfl | hbefore⟩ := h.done _ (.inl ⟨0, hkey ▸ hlt, hway⟩)
      · exact hb
      · have hprevails := h.prevails b hb
        rw [Prevails] at ha
        cases b with
        | source m d =>
            rw [Prevails] at hprevails
            rcases hbefore with hless | ⟨-, hless⟩
            · rw [hinit c (List.mem_of_getElem? ha.1)] at hless
              exact absurd hless (Nat.not_lt_zero _)
            · exact absurd hlast (ha.2 m hless d hprevails.1)
        | step b j v =>
            have hless : r.dist v b.src < r.dist c.1 c.2 := hbefore
            rw [hinit c (List.mem_of_getElem? ha.1)] at hless
            exact absurd hless (Nat.not_lt_zero _)
  | step a n v ih =>
      have hstep := ha
      rw [Prevails] at hstep
      obtain ⟨hsource, ⟨hlead, hprev⟩, -⟩ := hstep
      have haway : r.key a.last a.src < r.key v a.src := key_lt_key hlead.away hlead.reach
      -- 同じ点への先の道筋が訪れられていると、勝ち残らない。
      have hearlier (b : Trail V S) (hb : b ∈ log) (hlast : b.last = v) (hbefore : Before r b (.step a n v)) : False := by
        have hprevails := h.prevails b hb
        cases b with
        | source m d =>
            rw [Prevails] at hprevails
            exact hsource d (List.mem_of_getElem? hprevails.1) hlast
        | step b j w =>
            obtain rfl : w = v := hlast
            rw [Prevails] at hprevails
            obtain ⟨hlead', hprev'⟩ := hprevails.2.1
            exact ha.not_prevails hlead' hprev' hbefore
      rcases h.due a (ih hprev (haway.trans hlt)) n v hlead with hway | ⟨b, hb, hlast, hbefore⟩
      · obtain ⟨b, hb, hlast, rfl | hbefore⟩ := h.done _ (.inl ⟨_, hlt, hway⟩)
        · exact hb
        · exact (hearlier b hb hlast hbefore).elim
      · exact (hearlier b hb hlast (before_of_dist_lt (hbefore.dist_le.trans_lt hlead.away))).elim

theorem seen_of_passed (h : Ordered r mark init out k i ways log f) (ha : Passed ways k i a) : f.seen a.last = true := by
  obtain ⟨b, hb, hlast, -⟩ := h.done a ha
  exact (h.seen a.last).mpr ⟨b, hb, hlast⟩

include hinit in
/-- 今の道筋の点をまだ訪れていなければ、今の道筋が勝ち残る。 -/
theorem prevails_current (h : Ordered r mark init out k i ways log f) (ha : (ways k)[i]? = some a)
    (hseen : f.seen a.last = false) : a.Prevails r init := by
  have hmem := List.mem_of_getElem? ha
  have hunseen {b : Trail V S} {j : ℕ} (hb : b ∈ ways j) (hlast : b.last = a.last) : ¬ Before r b a := by
    intro hbefore
    have htrue := h.seen_of_passed (h.passed_of_before hinit ha hb hbefore)
    rw [hlast, hseen] at htrue
    cases htrue
  obtain ⟨hkey, hoff⟩ := h.offered k a hmem
  cases a with
  | source n c =>
      rw [Prevails]
      refine ⟨hoff, fun j hj d hd heq => hunseen (h.sources j d hd) heq (.inr ⟨?_, hj⟩)⟩
      rw [hinit c (List.mem_of_getElem? hoff), hinit d (List.mem_of_getElem? hd)]
  | step a n v =>
      obtain ⟨hlog, hlead⟩ := hoff
      rw [Prevails]
      refine ⟨fun d hd heq => ?_, ⟨hlead, h.prevails a hlog⟩, fun b j hlead' hbefore hprev => ?_⟩
      · obtain ⟨j, hj⟩ := List.mem_iff_getElem?.mp hd
        refine hunseen (h.sources j d hj) heq ?_
        have hzero : r.dist d.1 d.2 < r.dist v a.src := by
          rw [hinit d hd]
          exact (Nat.zero_le _).trans_lt hlead.away
        exact hzero
      · have hkey' : r.key b.last b.src < k :=
          hkey ▸ key_lt_key (hlead'.away.trans_le hbefore.dist_le) hlead.reach
        rcases h.due b (h.mem_log hinit hprev hkey') j v hlead' with hway | ⟨t, ht, hlast, -⟩
        · exact hunseen hway rfl hbefore
        · have htrue := (h.seen v).mpr ⟨t, ht, hlast⟩
          rw [show f.seen v = false from hseen] at htrue
          cases htrue

end Ordered

/-! ## 一歩 -/

/-- 訪れた点の隣のうち、箱 `j` に加わる道筋。 -/
def joined (r : Spread V S) (f : Front V S α) (a : Trail V S) (j : ℕ) : List (Trail V S) :=
  ((r.near a.last).zipIdx.filter fun x => Joins r f a.src j x.1).map fun x => .step a x.2 x.1

theorem joined_entry (f : Front V S α) (a : Trail V S) (j : ℕ) :
    (joined r f a j).map entry = ((r.near a.last).filter (Joins r f a.src j)).map fun v => (v, a.src) := by
  have hfst : r.near a.last = (r.near a.last).zipIdx.map Prod.fst := (List.zipIdx_map_fst 0 _).symm
  conv_rhs => rw [hfst, List.filter_map, List.map_map]
  rw [joined, List.map_map]
  rfl

theorem mem_joined {f : Front V S α} {j : ℕ} : b ∈ joined r f a j ↔
    ∃ n v, b = .step a n v ∧ (r.near a.last)[n]? = some v ∧ f.seen v = false ∧ r.dist v a.src ≤ r.radius ∧
      r.key v a.src = j := by
  simp only [joined, List.mem_map, List.mem_filter, List.mem_zipIdx_iff_getElem?, joins_iff, Prod.exists]
  constructor
  · rintro ⟨v, n, ⟨hnear, hjoins⟩, rfl⟩
    exact ⟨n, v, rfl, hnear, hjoins⟩
  · rintro ⟨n, v, rfl, hnear, hjoins⟩
    exact ⟨v, n, ⟨hnear, hjoins⟩, rfl⟩

theorem pairwise_zipIdx {β : Type*} (l : List β) : l.zipIdx.Pairwise fun x y => x.2 < y.2 := by
  have hrange : (l.zipIdx.map Prod.snd).Pairwise (· < ·) := by
    rw [List.zipIdx_map_snd]
    exact List.pairwise_lt_range'
  exact List.pairwise_map.mp hrange

/-- 箱の番号が等しければ、遠さは等しい。 -/
theorem dist_eq_of_key_eq {v w : V} {s t : S} (hv : r.dist v s ≤ r.radius) (hw : r.dist w t ≤ r.radius)
    (h : r.key v s = r.key w t) : r.dist v s = r.dist w t :=
  le_antisymm ((r.key_le_iff v s w t hv hw).mp h.le) ((r.key_le_iff w t v s hw hv).mp h.ge)

theorem sorted_joined (f : Front V S α) (a : Trail V S) (j : ℕ) : (joined r f a j).Pairwise (Before r) := by
  refine List.pairwise_map.mpr (List.Pairwise.imp_of_mem ?_ ((pairwise_zipIdx _).filter _))
  intro x y hx hy hlt
  obtain ⟨-, hxle, hxkey⟩ := joins_iff.mp (List.mem_filter.mp hx).2
  obtain ⟨-, hyle, hykey⟩ := joins_iff.mp (List.mem_filter.mp hy).2
  exact .inr ⟨dist_eq_of_key_eq hxle hyle (hxkey.trans hykey.symm), .inr ⟨rfl, hlt⟩⟩

/-- 訪れた後の箱の道筋。 -/
def extend (r : Spread V S) (k : ℕ) (ways : ℕ → List (Trail V S)) (f : Front V S α) (a : Trail V S) (j : ℕ) :
    List (Trail V S) := ways j ++ if k < j then joined r f a j else []

theorem extend_of_le {j : ℕ} (hj : j ≤ k) : extend r k ways f a j = ways j := by
  rw [extend, if_neg (Nat.not_lt.mpr hj), List.append_nil]

theorem mem_extend {j : ℕ} : b ∈ extend r k ways f a j ↔ b ∈ ways j ∨ k < j ∧ b ∈ joined r f a j := by
  rw [extend, List.mem_append, List.mem_ite_nil_right]

section Visit

variable [DecidableEq V]

theorem visit_seen (f : Front V S α) (c : V × S) (v : V) :
    (visit mark f c).seen v = true ↔ v = c.1 ∨ f.seen v = true := by
  by_cases hv : v = c.1 <;> simp [visit, hv]

theorem take_eq (hseen : f.seen a.last = false) :
    r.take mark f a.entry = (r.near a.last).foldl (r.enqueue a.src) (visit mark f a.entry) := by
  rw [take, show f.seen a.entry.1 = false from hseen, if_neg Bool.false_ne_true]
  rfl

end Visit

namespace Ordered

theorem skip (h : Ordered r mark init out k i ways log f) (hinit : ∀ c ∈ init, r.dist c.1 c.2 = 0)
    (ha : (ways k)[i]? = some a) (hseen : f.seen a.last = true) : Ordered r mark init out k (i + 1) ways log f := by
  refine { h with
    passed := fun b hb => (Passed.succ_iff ha).mpr (.inl (h.passed b hb))
    done := fun b hb => ?_ }
  rcases (Passed.succ_iff ha).mp hb with hb | rfl
  · exact h.done b hb
  · obtain ⟨t, ht, hlast⟩ := (h.seen b.last).mp hseen
    exact ⟨t, ht, hlast, .inr (h.before_of_passed hinit ha (h.passed t ht))⟩

theorem next (h : Ordered r mark init out k i ways log f) (hi : (ways k).length ≤ i) :
    Ordered r mark init out (k + 1) 0 ways log f where
  nodup := h.nodup
  seen := h.seen
  out := h.out
  prevails := h.prevails
  bins j hj := h.bins j (Nat.le_of_succ_le hj)
  sorted := h.sorted
  offered := h.offered
  passed a ha := (Passed.next_iff hi).mpr (h.passed a ha)
  sources := h.sources
  due := h.due
  done a ha := h.done a ((Passed.next_iff hi).mp ha)

variable [DecidableEq V]

/-- 点を訪れて、その隣を箱に加える。 -/
theorem visit (h : Ordered r mark init out k i ways log f) (hinit : ∀ c ∈ init, r.dist c.1 c.2 = 0)
    (hstep : ∀ v, ∀ w ∈ r.near v, ∀ s, r.dist w s ≠ r.dist v s) (ha : (ways k)[i]? = some a)
    (hseen : f.seen a.last = false) :
    Ordered r mark init out k (i + 1) (extend r k ways (Spread.visit mark f a.entry) a) (log ++ [a])
      (r.take mark f a.entry) := by
  have hmem := List.mem_of_getElem? ha
  obtain ⟨hkey, hoff⟩ := h.offered k a hmem
  have hsub : ∀ b ∈ log, b ∈ log ++ [a] := fun b hb => List.mem_append_left _ hb
  have hsame : ∀ j ≤ k, extend r k ways (Spread.visit mark f a.entry) a j = ways j := fun j hj => extend_of_le hj
  have hbefore : ∀ b ∈ log, Before r b a := fun b hb => h.before_of_passed hinit ha (h.passed b hb)
  obtain ⟨htaken, htakenOut⟩ := foldl_enqueue_seen (r := r) a.src (r.near a.last) (Spread.visit mark f a.entry)
  rw [take_eq hseen]
  refine ⟨?_, fun v => ?_, ?_, fun b hb => ?_, fun j hj => ?_, fun j => ?_, fun j b hb => ?_, fun b hb => ?_,
    fun n c hc => mem_extend.mpr (.inl (h.sources n c hc)), fun b hb n v hlead => ?_, fun b hb => ?_⟩
  · rw [List.map_append, List.nodup_append]
    refine ⟨h.nodup, by simp, fun v hv w hw => ?_⟩
    rintro rfl
    obtain rfl := List.mem_singleton.mp hw
    rw [(h.seen _).mpr (List.mem_map.mp hv)] at hseen
    cases hseen
  · rw [htaken, visit_seen, h.seen]
    simp only [List.mem_append, List.mem_singleton, or_and_right, exists_or, exists_eq_left]
    rw [or_comm, eq_comm]
    rfl
  · rw [htakenOut, List.foldl_append, ← h.out]
    rfl
  · rcases List.mem_append.mp hb with hb | hb
    · exact h.prevails b hb
    · obtain rfl := List.mem_singleton.mp hb
      exact h.prevails_current hinit ha hseen
  · rw [foldl_enqueue_bins_eq, show (Spread.visit mark f a.entry).bins = f.bins from rfl, h.bins j hj, extend,
      List.map_append]
    rcases hj.eq_or_lt with rfl | hlt
    · -- 隣への遠さは変わるので、今の箱には加わらない。
      rw [if_neg (lt_irrefl k), List.filter_eq_nil_iff.mpr]
      · rfl
      · intro v hv hjoins
        obtain ⟨-, hle, hkey'⟩ := joins_iff.mp hjoins
        exact hstep a.last v hv a.src (dist_eq_of_key_eq hle (hoff.dist_le hinit) (hkey'.trans hkey.symm))
    · rw [if_pos hlt, joined_entry]
  · refine List.pairwise_append.mpr ⟨h.sorted j, ?_, fun b hb c hc => ?_⟩
    · split_ifs
      · exact sorted_joined _ a j
      · exact .nil
    · rw [List.mem_ite_nil_right] at hc
      obtain ⟨hlt, hc⟩ := hc
      obtain ⟨n, v, rfl, -, -, hle, hkeyc⟩ := mem_joined.mp hc
      obtain ⟨hkeyb, hoffb⟩ := h.offered j b hb
      have hdist : b.dist r = r.dist v a.src := dist_eq_of_key_eq (hoffb.dist_le hinit) hle (hkeyb.trans hkeyc.symm)
      cases b with
      | source m d =>
          have hfar := (h.key_lt_iff hinit hmem hb).mp hlt
          have hzero : (Trail.source m d).dist r = 0 := hinit d (List.mem_of_getElem? hoffb)
          rw [hzero] at hfar
          exact absurd hfar (Nat.not_lt_zero _)
      | step b m w => exact .inr ⟨hdist, .inl (hbefore b hoffb.1)⟩
  · rcases mem_extend.mp hb with hb | ⟨hlt, hb⟩
    · obtain ⟨hkeyb, hoffb⟩ := h.offered j b hb
      exact ⟨hkeyb, hoffb.mono hsub⟩
    · obtain ⟨n, v, rfl, hnear, -, hle, rfl⟩ := mem_joined.mp hb
      refine ⟨rfl, List.mem_append_right _ (List.mem_singleton.mpr rfl), hnear, not_le.mp fun hback => ?_, hle⟩
      have hlow := (r.key_le_iff v a.src a.last a.src hle (hoff.dist_le hinit)).mpr hback
      rw [hkey] at hlow
      exact absurd hlow (Nat.not_le.mpr hlt)
  · rw [Passed.mono hsame, Passed.succ_iff ha]
    exact (List.mem_append.mp hb).imp (h.passed b) List.mem_singleton.mp
  · rcases List.mem_append.mp hb with hb | hb
    · rcases h.due b hb n v hlead with hway | ⟨t, ht, hlast, hless⟩
      · exact .inl (mem_extend.mpr (.inl hway))
      · exact .inr ⟨t, hsub t ht, hlast, hless⟩
    · obtain rfl := List.mem_singleton.mp hb
      cases hv : (Spread.visit mark f b.entry).seen v with
      | true =>
          rcases (visit_seen f b.entry v).mp hv with rfl | hv
          · exact absurd hlead.away (lt_irrefl _)
          · obtain ⟨t, ht, hlast⟩ := (h.seen v).mp hv
            exact .inr ⟨t, hsub t ht, hlast, hbefore t ht⟩
      | false =>
          have hlt : k < r.key v b.src := hkey ▸ key_lt_key hlead.away hlead.reach
          exact .inl (mem_extend.mpr (.inr ⟨hlt, mem_joined.mpr ⟨n, v, rfl, hlead.near, hv, hlead.reach, rfl⟩⟩))
  · rw [Passed.mono hsame, Passed.succ_iff ha] at hb
    rcases hb with hb | rfl
    · obtain ⟨t, ht, hlast, hless⟩ := h.done b hb
      exact ⟨t, hsub t ht, hlast, hless⟩
    · exact ⟨b, List.mem_append_right _ (List.mem_singleton.mpr rfl), rfl, .inl rfl⟩

end Ordered

end Order

/-! ## 実行 -/

section Sweep

open Trail

variable {α : Type*} [DecidableEq V] {r : Spread V S} {mark : V → S → α → α} {init : List (V × S)} {out : α} {k i : ℕ}
  {ways : ℕ → List (Trail V S)} {log : List (Trail V S)} {f : Front V S α}

omit [DecidableEq V] in
theorem start_ordered (mark : V → S → α → α) (out : α) (hinit : ∀ c ∈ init, r.dist c.1 c.2 = 0 ∧ r.key c.1 c.2 = 0) :
    Ordered r mark init out 0 0 (fun j => if j = 0 then init.zipIdx.map fun x => .source x.2 x.1 else []) []
      (start init out) where
  nodup := List.nodup_nil
  seen v := by simp [start]
  out := rfl
  prevails a ha := by cases ha
  bins j _ := by
    have hfst : init.zipIdx.map (entry ∘ fun x => Trail.source x.2 x.1) = init := List.zipIdx_map_fst 0 init
    simp only [start]
    split_ifs
    · rw [List.map_map, hfst]
    · rfl
  sorted j := by
    split_ifs
    · refine List.pairwise_map.mpr (List.Pairwise.imp_of_mem ?_ (pairwise_zipIdx init))
      intro x y hx hy hlt
      have hx' := (hinit x.1 (List.fst_mem_of_mem_zipIdx hx)).1
      have hy' := (hinit y.1 (List.fst_mem_of_mem_zipIdx hy)).1
      exact .inr ⟨hx'.trans hy'.symm, hlt⟩
    · exact .nil
  offered j a ha := by
    rw [List.mem_ite_nil_right] at ha
    obtain ⟨rfl, ha⟩ := ha
    obtain ⟨x, hx, rfl⟩ := List.mem_map.mp ha
    exact ⟨(hinit x.1 (List.fst_mem_of_mem_zipIdx hx)).2, List.mem_zipIdx_iff_getElem?.mp hx⟩
  passed a ha := by cases ha
  sources n c hc := by
    rw [if_pos rfl]
    exact List.mem_map.mpr ⟨(c, n), List.mk_mem_zipIdx_iff_getElem?.mpr hc, rfl⟩
  due a ha := by cases ha
  done a ha := by
    rcases ha with ⟨j, hj, -⟩ | ha
    · exact absurd hj (Nat.not_lt_zero j)
    · cases ha

theorem scan_ordered (hinit : ∀ c ∈ init, r.dist c.1 c.2 = 0) (hstep : ∀ v, ∀ w ∈ r.near v, ∀ s, r.dist w s ≠ r.dist v s)
    {fuel : ℕ} {f' : Front V S α} (h : Ordered r mark init out k i ways log f) (hscan : r.scan mark k fuel i f = some f') :
    ∃ ways' log', Ordered r mark init out (k + 1) 0 ways' log' f' := by
  have hlength := congrArg List.length (h.bins k le_rfl)
  rw [List.length_map] at hlength
  induction fuel generalizing i ways log f with
  | zero =>
      unfold scan at hscan
      split_ifs at hscan with hi
      cases hscan
      exact ⟨ways, log, h.next (hlength ▸ Nat.not_lt.mp hi)⟩
  | succ fuel ih =>
      unfold scan at hscan
      split at hscan
      · rename_i hnone
        cases hscan
        exact ⟨ways, log, h.next (hlength ▸ List.getElem?_eq_none_iff.mp hnone)⟩
      · rename_i c hc
        rw [h.bins k le_rfl, List.getElem?_map, Option.map_eq_some_iff] at hc
        obtain ⟨a, ha, rfl⟩ := hc
        cases hseen : f.seen a.last with
        | true =>
            rw [show r.take mark f a.entry = f from take_seen hseen] at hscan
            exact ih (h.skip hinit ha hseen) hscan hlength
        | false =>
            have hvisit := h.visit hinit hstep ha hseen
            exact ih hvisit hscan ((congrArg List.length (hvisit.bins k le_rfl)).trans (List.length_map _))

theorem sweep_ordered (hinit : ∀ c ∈ init, r.dist c.1 c.2 = 0) (hstep : ∀ v, ∀ w ∈ r.near v, ∀ s, r.dist w s ≠ r.dist v s)
    {fuel n : ℕ} {f' : Front V S α} (h : Ordered r mark init out 0 0 ways log f) (hsweep : r.sweep mark fuel n f = some f') :
    ∃ ways' log', Ordered r mark init out n 0 ways' log' f' := by
  induction n generalizing f' with
  | zero =>
      cases hsweep
      exact ⟨ways, log, h⟩
  | succ n ih =>
      obtain ⟨g, hg, hscan⟩ := Option.bind_eq_some_iff.mp hsweep
      obtain ⟨ways', log', hordered⟩ := ih hg
      exact scan_ordered hinit hstep hordered hscan

omit [DecidableEq V] in
theorem Trail.Prevails.dist_le (hinit : ∀ c ∈ init, r.dist c.1 c.2 = 0) {a : Trail V S} (h : a.Prevails r init) :
    a.dist r ≤ r.radius := by
  rw [Prevails.eq_def] at h
  cases a with
  | source n c => exact (hinit c (List.mem_of_getElem? h.1)).le.trans (Nat.zero_le _)
  | step a n v => exact h.2.1.choose.reach

/-- 広がりは、どの点も、受け取る源で一度だけ書き換え、源を受け取らない点は書き換えない。 -/
theorem sweep_given (mark : V → S → α → α) (out : α) (hinit : ∀ c ∈ init, r.dist c.1 c.2 = 0 ∧ r.key c.1 c.2 = 0)
    (hstep : ∀ v, ∀ w ∈ r.near v, ∀ s, r.dist w s ≠ r.dist v s) {fuel : ℕ} {f : Front V S α}
    (hsweep : r.sweep mark fuel r.bins (start init out) = some f) :
    ∃ log : List (V × S), f.out = log.foldl (fun o c => mark c.1 c.2 o) out ∧ (log.map Prod.fst).Nodup ∧
      ∀ v s, (v, s) ∈ log ↔ Given r init v s := by
  have hdist : ∀ c ∈ init, r.dist c.1 c.2 = 0 := fun c hc => (hinit c hc).1
  obtain ⟨ways, log, h⟩ := sweep_ordered hdist hstep (start_ordered mark out hinit) hsweep
  refine ⟨log.map entry, ?_, ?_, fun v s => ?_⟩
  · rw [h.out, List.foldl_map]
    rfl
  · rw [List.map_map]
    exact h.nodup
  · rw [List.mem_map]
    constructor
    · rintro ⟨a, ha, hentry⟩
      exact ⟨a, h.prevails a ha, hentry⟩
    · rintro ⟨a, ha, hentry⟩
      exact ⟨a, h.mem_log hdist ha (r.key_lt _ _ (ha.dist_le hdist)), hentry⟩

end Sweep

end Ranger.Lib.Spread
