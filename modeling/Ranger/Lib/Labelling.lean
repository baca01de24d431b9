import Mathlib.Data.Finset.Card
import Mathlib.Data.Finset.Interval
import Mathlib.Order.Interval.Finset.Nat
import Mathlib.Logic.Relation
import Ranger.Lib.UnionFind

/-!
# 一回の走査での連結成分

点を一つずつ加え、前に調べた隣の仮の番号を合併していく走査の不変条件を定める。新しい番号がつくのは、前に調べた隣を持たない点 `start` だけである。
-/

namespace Ranger.Lib

variable {V : Type*} {adj : V → V → Prop} {start : V → Prop} {S : Set V} {lab lab' : V → ℕ} {d d' : ℕ → ℕ}
  {next l : ℕ} {a b u v : V}

/-- 調べた点 `S` の仮の番号 `lab` と、番号の森 `d`。根が同じことは、隣をたどって届くことを表す。 -/
structure Provisional (adj : V → V → Prop) (start : V → Prop) (S : Set V) (lab : V → ℕ) (d : ℕ → ℕ) (next : ℕ) :
    Prop where
  forest : Forest d
  next_pos : 0 < next
  root_pos : ∀ i, 0 < i → i < next → 0 < root d i
  label_pos : ∀ v ∈ S, 0 < lab v
  label_lt : ∀ v ∈ S, lab v < next
  sound : ∀ u ∈ S, ∀ v ∈ S, root d (lab u) = root d (lab v) → Relation.ReflTransGen adj u v
  complete : ∀ u ∈ S, ∀ v ∈ S, adj u v → root d (lab u) = root d (lab v)
  origin : ∀ i, 0 < i → i < next → ∃ v ∈ S, start v ∧ lab v = i
  distinct : ∀ u ∈ S, ∀ v ∈ S, start u → start v → lab u = lab v → u = v

/-! ## 一歩 -/

theorem Provisional.init (adj : V → V → Prop) (start : V → Prop) (lab : V → ℕ) :
    Provisional adj start ∅ lab (fun _ => 0) 1 where
  forest i := Nat.zero_le i
  next_pos := Nat.one_pos
  root_pos _ hi hi' := absurd hi' (Nat.not_lt.mpr hi)
  label_pos _ hv := absurd hv (Set.notMem_empty _)
  label_lt _ hv := absurd hv (Set.notMem_empty _)
  sound _ hu := absurd hu (Set.notMem_empty _)
  complete _ hu := absurd hu (Set.notMem_empty _)
  origin _ hi hi' := absurd hi' (Nat.not_lt.mpr hi)
  distinct _ hu := absurd hu (Set.notMem_empty _)

theorem Provisional.congr (h : Provisional adj start S lab d next) (heq : ∀ v ∈ S, lab' v = lab v) :
    Provisional adj start S lab' d next where
  forest := h.forest
  next_pos := h.next_pos
  root_pos := h.root_pos
  label_pos v hv := by
    rw [heq v hv]
    exact h.label_pos v hv
  label_lt v hv := by
    rw [heq v hv]
    exact h.label_lt v hv
  sound u hu v hv := by
    rw [heq u hu, heq v hv]
    exact h.sound u hu v hv
  complete u hu v hv := by
    rw [heq u hu, heq v hv]
    exact h.complete u hu v hv
  origin i hi hi' := by
    obtain ⟨v, hv, hstart, hlab⟩ := h.origin i hi hi'
    exact ⟨v, hv, hstart, (heq v hv).trans hlab⟩
  distinct u hu v hv := by
    rw [heq u hu, heq v hv]
    exact h.distinct u hu v hv

/-- 前に調べた隣のない点 `v` に、新しい番号をつける。 -/
theorem Provisional.fresh (h : Provisional adj start S lab d next) (hsymm : ∀ a b, adj a b → adj b a) (hstart : start v)
    (hnone : ∀ u ∈ S, ¬ adj v u) (hself : lab' v = next) (hkeep : ∀ u ∈ S, lab' u = lab u) :
    Provisional adj start (insert v S) lab' (Function.update d next next) (next + 1) := by
  have hroot (u : V) (hu : u ∈ S) : root (Function.update d next next) (lab' u) = root d (lab u) := by
    rw [hkeep u hu, root_update_of_lt (h.label_lt u hu)]
  have hnew : root (Function.update d next next) (lab' v) = next := by
    rw [hself]
    exact root_of_eq (Function.update_self next next d)
  have hbelow (u : V) (hu : u ∈ S) : root d (lab u) < next := (root_le d _).trans_lt (h.label_lt u hu)
  refine ⟨h.forest.update le_rfl, Nat.succ_pos next, fun i hi hi' => ?_, ?_, ?_, ?_, ?_, fun i hi hi' => ?_, ?_⟩
  · rcases Nat.lt_succ_iff_lt_or_eq.mp hi' with hlt | rfl
    · rw [root_update_of_lt hlt]
      exact h.root_pos i hi hlt
    · rwa [root_of_eq (Function.update_self i i d)]
  · rintro u (rfl | hu)
    · rw [hself]
      exact h.next_pos
    · rw [hkeep u hu]
      exact h.label_pos u hu
  · rintro u (rfl | hu)
    · rw [hself]
      exact Nat.lt_succ_self next
    · rw [hkeep u hu]
      exact (h.label_lt u hu).trans (Nat.lt_succ_self next)
  · rintro u (rfl | hu) w (rfl | hw) heq
    · exact Relation.ReflTransGen.refl
    · rw [hnew, hroot w hw] at heq
      exact absurd heq (hbelow w hw).ne'
    · rw [hnew, hroot u hu] at heq
      exact absurd heq (hbelow u hu).ne
    · rw [hroot u hu, hroot w hw] at heq
      exact h.sound u hu w hw heq
  · rintro u (rfl | hu) w (rfl | hw) hadj
    · rfl
    · exact absurd hadj (hnone w hw)
    · exact absurd (hsymm _ _ hadj) (hnone u hu)
    · rw [hroot u hu, hroot w hw]
      exact h.complete u hu w hw hadj
  · rcases Nat.lt_succ_iff_lt_or_eq.mp hi' with hlt | rfl
    · obtain ⟨u, hu, hsu, hlab⟩ := h.origin i hi hlt
      exact ⟨u, Set.mem_insert_of_mem v hu, hsu, (hkeep u hu).trans hlab⟩
    · exact ⟨v, Set.mem_insert v S, hstart, hself⟩
  · rintro u (rfl | hu) w (rfl | hw) hsu hsw heq
    · rfl
    · rw [hself, hkeep w hw] at heq
      exact absurd heq (h.label_lt w hw).ne'
    · rw [hself, hkeep u hu] at heq
      exact absurd heq (h.label_lt u hu).ne
    · rw [hkeep u hu, hkeep w hw] at heq
      exact h.distinct u hu w hw hsu hsw heq

/-- 前に調べた隣 `a` と `b` の木を合併して、点 `v` をその木に入れる。前に調べた隣はみな、どちらかの木にある。 -/
theorem Provisional.join (h : Provisional adj start S lab d next) (hsymm : ∀ a b, adj a b → adj b a)
    (hstart : ¬ start v) (ha : a ∈ S) (hb : b ∈ S) (hva : adj v a) (hvb : adj v b) (hforest : Forest d')
    (hmerged : Merged d d' (lab a) (lab b)) (hl : 0 < l) (hlt : l < next)
    (hroot : root d' l = min (root d (lab a)) (root d (lab b)))
    (hcover : ∀ u ∈ S, adj v u → root d (lab u) = root d (lab a) ∨ root d (lab u) = root d (lab b))
    (hself : lab' v = l) (hkeep : ∀ u ∈ S, lab' u = lab u) : Provisional adj start (insert v S) lab' d' next := by
  have hin (i : ℕ) (hi : root d i = root d (lab a) ∨ root d i = root d (lab b)) :
      root d' i = min (root d (lab a)) (root d (lab b)) := by
    rw [hmerged i, if_pos hi]
  have hout (i : ℕ) (hi : ¬ (root d i = root d (lab a) ∨ root d i = root d (lab b))) : root d' i = root d i := by
    rw [hmerged i, if_neg hi]
  -- 合併した木の点は、`v` を通って互いに届く。
  have hlink (u : V) (hu : u ∈ S) (hi : root d (lab u) = root d (lab a) ∨ root d (lab u) = root d (lab b)) :
      Relation.ReflTransGen adj u v := by
    rcases hi with hi | hi
    · exact (h.sound u hu a ha hi).tail (hsymm v a hva)
    · exact (h.sound u hu b hb hi).tail (hsymm v b hvb)
  have hmin (u : V) (hu : u ∈ S) (heq : root d' (lab u) = min (root d (lab a)) (root d (lab b))) :
      Relation.ReflTransGen adj u v := by
    by_cases hi : root d (lab u) = root d (lab a) ∨ root d (lab u) = root d (lab b)
    · exact hlink u hu hi
    · rw [hout _ hi] at heq
      exact hlink u hu ((min_choice _ _).imp heq.trans heq.trans)
  have hback {u w : V} (hpath : Relation.ReflTransGen adj u w) : Relation.ReflTransGen adj w u :=
    haveI : Std.Symm adj := ⟨hsymm⟩
    Std.Symm.symm u w hpath
  refine ⟨hforest, h.next_pos, fun i hi hi' => ?_, ?_, ?_, ?_, ?_, fun i hi hi' => ?_, ?_⟩
  · by_cases hcase : root d i = root d (lab a) ∨ root d i = root d (lab b)
    · rw [hin i hcase]
      exact lt_min (h.root_pos _ (h.label_pos a ha) (h.label_lt a ha)) (h.root_pos _ (h.label_pos b hb) (h.label_lt b hb))
    · rw [hout i hcase]
      exact h.root_pos i hi hi'
  · rintro u (rfl | hu)
    · rwa [hself]
    · rw [hkeep u hu]
      exact h.label_pos u hu
  · rintro u (rfl | hu)
    · rwa [hself]
    · rw [hkeep u hu]
      exact h.label_lt u hu
  · rintro u (rfl | hu) w (rfl | hw) heq
    · exact Relation.ReflTransGen.refl
    · rw [hself, hroot, hkeep w hw] at heq
      exact hback (hmin w hw heq.symm)
    · rw [hself, hroot, hkeep u hu] at heq
      exact hmin u hu heq
    · rw [hkeep u hu, hkeep w hw] at heq
      by_cases hu' : root d (lab u) = root d (lab a) ∨ root d (lab u) = root d (lab b)
      · rw [hin _ hu'] at heq
        exact (hlink u hu hu').trans (hback (hmin w hw heq.symm))
      · by_cases hw' : root d (lab w) = root d (lab a) ∨ root d (lab w) = root d (lab b)
        · rw [hin _ hw'] at heq
          exact (hmin u hu heq).trans (hback (hlink w hw hw'))
        · rw [hout _ hu', hout _ hw'] at heq
          exact h.sound u hu w hw heq
  · rintro u (rfl | hu) w (rfl | hw) hadj
    · rfl
    · rw [hself, hroot, hkeep w hw, hin _ (hcover w hw hadj)]
    · rw [hself, hroot, hkeep u hu, hin _ (hcover u hu (hsymm _ _ hadj))]
    · rw [hkeep u hu, hkeep w hw, hmerged, hmerged, h.complete u hu w hw hadj]
  · obtain ⟨u, hu, hsu, hlab⟩ := h.origin i hi hi'
    exact ⟨u, Set.mem_insert_of_mem v hu, hsu, (hkeep u hu).trans hlab⟩
  · rintro u (rfl | hu) w (rfl | hw) hsu hsw heq
    · rfl
    · exact absurd hsu hstart
    · exact absurd hsw hstart
    · rw [hkeep u hu, hkeep w hw] at heq
      exact h.distinct u hu w hw hsu hsw heq

/-- 前に調べた隣 `a` の番号を、点 `v` にもつける。 -/
theorem Provisional.copy (h : Provisional adj start S lab d next) (hsymm : ∀ a b, adj a b → adj b a)
    (hstart : ¬ start v) (ha : a ∈ S) (hva : adj v a) (hcover : ∀ u ∈ S, adj v u → root d (lab u) = root d (lab a))
    (hself : lab' v = lab a) (hkeep : ∀ u ∈ S, lab' u = lab u) : Provisional adj start (insert v S) lab' d next :=
  h.join hsymm hstart ha ha hva hva h.forest (Merged.refl d (lab a)) (h.label_pos a ha) (h.label_lt a ha)
    (min_self _).symm (fun u hu hadj => Or.inl (hcover u hu hadj)) hself hkeep

/-! ## 走査の結果 -/

/-- 隣について閉じた点の全体では、根が同じことは届くことと同値である。 -/
theorem Provisional.root_eq_iff (h : Provisional adj start S lab d next) (hS : ∀ u ∈ S, ∀ v, adj u v → v ∈ S)
    (hu : u ∈ S) (hv : v ∈ S) : root d (lab u) = root d (lab v) ↔ Relation.ReflTransGen adj u v := by
  refine ⟨h.sound u hu v hv, fun hpath => ?_⟩
  have hall : v ∈ S ∧ root d (lab u) = root d (lab v) := by
    clear hv
    induction hpath with
    | refl => exact ⟨hu, rfl⟩
    | tail _ hadj ih =>
        obtain ⟨hmem, heq⟩ := ih
        have hmem' := hS _ hmem _ hadj
        exact ⟨hmem', heq.trans (h.complete _ hmem _ hmem' hadj)⟩
  exact hall.2

/-- 番号の数は、前に調べた隣を持たない点の数である。 -/
theorem Provisional.card_starts (h : Provisional adj start S lab d next) (T : Finset V)
    (hT : ∀ v, v ∈ T ↔ v ∈ S ∧ start v) : T.card + 1 = next := by
  have hcard : T.card = (Finset.Ico 1 next).card := by
    refine Finset.card_nbij lab (fun v hv => ?_) (fun u hu v hv heq => ?_) (fun i hi => ?_)
    · obtain ⟨hmem, -⟩ := (hT v).mp hv
      exact Finset.mem_coe.mpr (Finset.mem_Ico.mpr ⟨h.label_pos v hmem, h.label_lt v hmem⟩)
    · obtain ⟨hmem, hsu⟩ := (hT u).mp hu
      obtain ⟨hmem', hsv⟩ := (hT v).mp hv
      exact h.distinct u hmem v hmem' hsu hsv heq
    · obtain ⟨hi, hi'⟩ := Finset.mem_Ico.mp (Finset.mem_coe.mp hi)
      obtain ⟨v, hv, hstart, hlab⟩ := h.origin i hi hi'
      exact ⟨v, Finset.mem_coe.mpr ((hT v).mpr ⟨hv, hstart⟩), hlab⟩
  rw [hcard, Nat.card_Ico]
  exact Nat.sub_add_cancel h.next_pos

/-- どの番号も根であることは、二つの `start` が同じ成分にないことと同値である。 -/
theorem Provisional.all_roots_iff (h : Provisional adj start S lab d next) (hS : ∀ u ∈ S, ∀ v, adj u v → v ∈ S) :
    (∀ i < next, d i = i) ↔
      ∀ u ∈ S, ∀ v ∈ S, start u → start v → Relation.ReflTransGen adj u v → u = v := by
  constructor
  · intro hroots u hu v hv hsu hsv hpath
    have heq := (h.root_eq_iff hS hu hv).mpr hpath
    rw [root_of_eq (hroots _ (h.label_lt u hu)), root_of_eq (hroots _ (h.label_lt v hv))] at heq
    exact h.distinct u hu v hv hsu hsv heq
  · intro hone i hi
    rcases Nat.eq_zero_or_pos i with rfl | hpos
    · exact Nat.le_zero.mp (h.forest 0)
    · have hle := root_le d i
      obtain ⟨u, hu, hsu, hlab⟩ := h.origin i hpos hi
      obtain ⟨v, hv, hsv, hlab'⟩ := h.origin (root d i) (h.root_pos i hpos hi) (hle.trans_lt hi)
      have heq : root d (lab u) = root d (lab v) := by rw [hlab, hlab', h.forest.root_root]
      obtain rfl := hone u hu v hv hsu hsv (h.sound u hu v hv heq)
      exact h.forest.root_eq_self_iff.mp (hlab'.symm.trans hlab)

end Ranger.Lib
