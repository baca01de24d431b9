import Mathlib.Data.List.Pairwise
import Mathlib.Data.Multiset.Fold
import Mathlib.Data.Multiset.UnionInter

/-!
# 近い順に取り出して広げる波面

いくつかの源から、近い順に取り出した点の、まだ印のない隣へ源を渡しながら広がる。隣に移ると遠さは高々 `1` しか増えないので、
印は初めに付けたままで、どの点も最も近い源からの遠さを持つ。
-/

namespace Ranger.Lib

/-- 広がりの規則。`dist v s` は、源 `s` からの点 `v` の遠さである。 -/
structure Wavefront (V S : Type*) where
  node : V → Prop
  near : V → List V
  dist : V → S → ℕ
  node_near : ∀ {u v}, node u → v ∈ near u → node v
  dist_near : ∀ {u v} (s : S), v ∈ near u → dist v s ≤ dist u s + 1

namespace Wavefront

variable {V S α : Type*} (W : Wavefront V S)

/-- 源の集まり `src` から最も近い遠さ。 -/
structure Level (src : S → Prop) (level : V → ℕ) : Prop where
  le : ∀ {s}, src s → ∀ v, level v ≤ W.dist v s
  back : ∀ {v}, W.node v → 0 < level v → ∃ u, W.node u ∧ v ∈ W.near u ∧ level u + 1 = level v

/-- 待っている点と、取り出した点。点 `place a` は、源 `source a` から広がった。 -/
structure Items (V S α : Type*) where
  place : α → V
  source : α → S

variable {W} (I : Items V S α)

def key (W : Wavefront V S) (I : Items V S α) (a : α) : ℕ := W.dist (I.place a) (I.source a)

/-- 取り出した並び `taken` と、待っている `pending` と、印 `seen`。`closed` の点の隣には、どれも印がある。 -/
structure Reached (W : Wavefront V S) (I : Items V S α) (src : S → Prop) (level : V → ℕ) (seen : V → Prop)
    (closed taken : List α) (pending : Multiset α) : Prop where
  exact : ∀ a ∈ (taken : Multiset α) + pending,
    src (I.source a) ∧ W.node (I.place a) ∧ W.key I a = level (I.place a)
  nodup : (((taken : Multiset α) + pending).map I.place).Nodup
  seen_iff : ∀ v, seen v ↔ ∃ a ∈ (taken : Multiset α) + pending, I.place a = v
  zero : ∀ v, W.node v → level v = 0 → seen v
  sorted : taken.Pairwise fun a b => W.key I a ≤ W.key I b
  ahead : ∀ a ∈ taken, ∀ b ∈ pending, W.key I a ≤ W.key I b
  closed : ∀ a ∈ closed, ∀ v ∈ W.near (I.place a), seen v

/-- 取り出す前は、取り出した点の隣にはどれも印がある。 -/
abbrev Waiting (W : Wavefront V S) (I : Items V S α) (src : S → Prop) (level : V → ℕ) (seen : V → Prop) (taken : List α)
    (pending : Multiset α) : Prop := Reached W I src level seen taken taken pending

/-- 最も近い点 `a` を取り出して、隣に広げている間。`a` より遠くない点には、どれも印がある。 -/
structure Spreading (W : Wavefront V S) (I : Items V S α) (src : S → Prop) (level : V → ℕ) (seen : V → Prop)
    (done : List α) (a : α) (pending : Multiset α) : Prop extends
    Reached W I src level seen done (done ++ [a]) pending where
  low : ∀ v, W.node v → level v ≤ W.key I a → seen v

section Rules

variable {I} {src : S → Prop} {level : V → ℕ} {seen : V → Prop} {taken done : List α} {pending rest : Multiset α}
  {a b : α} {v : V}

/-- 待っている点のどれよりも遠くない点には、印がある。 -/
theorem Reached.low (hlevel : W.Level src level) (h : Waiting W I src level seen taken pending) {d : ℕ}
    (hmin : ∀ b ∈ pending, d ≤ W.key I b) (v : V) (hv : W.node v) (hle : level v ≤ d) : seen v := by
  induction hk : level v generalizing v with
  | zero => exact h.zero v hv hk
  | succ k ih =>
      obtain ⟨u, hu, hnear, hback⟩ := hlevel.back hv (by omega)
      obtain ⟨b, hb, rfl⟩ := (h.seen_iff u).mp (ih u hu (by omega) (by omega))
      rcases Multiset.mem_add.mp hb with htaken | hpending
      · exact h.closed b (Multiset.mem_coe.mp htaken) v hnear
      · have hge := hmin b hpending
        rw [(h.exact b hb).2.2] at hge
        omega

/-- 最も近い点を取り出す。 -/
theorem Reached.take (hlevel : W.Level src level) (h : Waiting W I src level seen taken pending)
    (hpop : pending = a ::ₘ rest) (hmin : ∀ b ∈ pending, W.key I a ≤ W.key I b) :
    Spreading W I src level seen taken a rest := by
  have hall : (taken : Multiset α) + pending = ((taken ++ [a] : List α) : Multiset α) + rest := by
    rw [hpop, ← Multiset.coe_add, Multiset.add_assoc, Multiset.coe_singleton, Multiset.singleton_add]
  have hmem : a ∈ pending := by
    rw [hpop]
    exact Multiset.mem_cons_self a rest
  have hrest (b : α) (hb : b ∈ rest) : b ∈ pending := by
    rw [hpop]
    exact Multiset.mem_cons_of_mem hb
  refine ⟨⟨?_, ?_, ?_, h.zero, ?_, ?_, h.closed⟩, Reached.low hlevel h hmin⟩
  · rw [← hall]
    exact h.exact
  · rw [← hall]
    exact h.nodup
  · rw [← hall]
    exact h.seen_iff
  · rw [List.pairwise_append]
    refine ⟨h.sorted, List.pairwise_singleton _ _, fun b hb c hc => ?_⟩
    rw [List.mem_singleton.mp hc]
    exact h.ahead b hb a hmem
  · intro b hb c hc
    rcases List.mem_append.mp hb with hb | hb
    · exact h.ahead b hb c (hrest c hc)
    · rw [List.mem_singleton.mp hb]
      exact hmin c (hrest c hc)

/-- 印のない隣 `v` に、取り出した点の源を渡す。 -/
theorem Spreading.offer (hlevel : W.Level src level) (h : Spreading W I src level seen done a pending)
    (hnear : v ∈ W.near (I.place a)) (hnew : ¬ seen v) (hplace : I.place b = v) (hsource : I.source b = I.source a) :
    Spreading W I src level (fun u => u = v ∨ seen u) done a (b ::ₘ pending) ∧ W.key I b = W.key I a + 1 := by
  have ha := h.exact a (Multiset.mem_add.mpr (Or.inl (Multiset.mem_coe.mpr (List.mem_append_right _ List.mem_cons_self))))
  have hnode := W.node_near ha.2.1 hnear
  have hkey : W.key I b = level v ∧ W.key I b = W.key I a + 1 := by
    have hup : W.key I b ≤ W.key I a + 1 := by
      rw [key, key, hplace, hsource]
      exact W.dist_near _ hnear
    have hdown : level v ≤ W.key I b := by
      rw [key, hplace, hsource]
      exact hlevel.le ha.1 v
    have hfar : W.key I a < level v := Nat.lt_of_not_le fun hle => hnew (h.low v hnode hle)
    omega
  have hmem (c : α) : c ∈ ((done ++ [a] : List α) : Multiset α) + b ::ₘ pending ↔
      c = b ∨ c ∈ ((done ++ [a] : List α) : Multiset α) + pending := by
    rw [Multiset.add_cons, Multiset.mem_cons]
  refine ⟨⟨⟨?_, ?_, ?_, ?_, h.sorted, ?_, ?_⟩, ?_⟩, hkey.2⟩
  · intro c hc
    rcases (hmem c).mp hc with rfl | hc
    · rw [hsource, hplace]
      exact ⟨ha.1, hnode, hkey.1⟩
    · exact h.exact c hc
  · rw [Multiset.add_cons, Multiset.map_cons, Multiset.nodup_cons, hplace]
    refine ⟨fun hv => hnew ?_, h.nodup⟩
    obtain ⟨c, hc, heq⟩ := Multiset.mem_map.mp hv
    exact (h.seen_iff v).mpr ⟨c, hc, heq⟩
  · intro u
    constructor
    · rintro (rfl | hu)
      · exact ⟨b, (hmem b).mpr (Or.inl rfl), hplace⟩
      · obtain ⟨c, hc, heq⟩ := (h.seen_iff u).mp hu
        exact ⟨c, (hmem c).mpr (Or.inr hc), heq⟩
    · rintro ⟨c, hc, rfl⟩
      rcases (hmem c).mp hc with rfl | hc
      · exact Or.inl hplace
      · exact Or.inr ((h.seen_iff _).mpr ⟨c, hc, rfl⟩)
  · exact fun u hu hzero => Or.inr (h.zero u hu hzero)
  · intro c hc d hd
    rcases Multiset.mem_cons.mp hd with rfl | hd
    · have hle : W.key I c ≤ W.key I a := by
        rcases List.mem_append.mp hc with hc | hc
        · exact (List.pairwise_append.mp h.sorted).2.2 c hc a List.mem_cons_self
        · rw [List.mem_singleton.mp hc]
      omega
    · exact h.ahead c hc d hd
  · exact fun c hc u hu => Or.inr (h.closed c hc u hu)
  · exact fun u hu hle => Or.inr (h.low u hu hle)

/-- 隣のどれにも印が付くと、次を取り出せる。 -/
theorem Spreading.finish (h : Spreading W I src level seen done a pending) (hall : ∀ v ∈ W.near (I.place a), seen v) :
    Waiting W I src level seen (done ++ [a]) pending where
  exact := h.exact
  nodup := h.nodup
  seen_iff := h.seen_iff
  zero := h.zero
  sorted := h.sorted
  ahead := h.ahead
  closed b hb := by
    rcases List.mem_append.mp hb with hb | hb
    · exact h.closed b hb
    · rw [List.mem_singleton.mp hb]
      exact hall

/-- 待っている点がなくなると、どの点も取り出されている。 -/
theorem Reached.all_taken (hlevel : W.Level src level) (h : Waiting W I src level seen taken 0) (hv : W.node v) :
    ∃ a ∈ taken, I.place a = v := by
  obtain ⟨a, ha, heq⟩ := (h.seen_iff v).mp
    (Reached.low hlevel h (fun b hb => absurd hb (Multiset.notMem_zero b)) v hv le_rfl)
  exact ⟨a, by simpa using ha, heq⟩

end Rules

end Wavefront

end Ranger.Lib
