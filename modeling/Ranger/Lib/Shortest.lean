import Mathlib.Algebra.Order.BigOperators.Group.List
import Mathlib.Algebra.Order.Monoid.Unbundled.WithTop
import Mathlib.Data.Finset.Card

/-!
# 最短路の探索

辺が正の長さを持つ有向グラフで、遠さの札を持つ点を近い順に取り出し、その先の点の札を短くしていく探索。待ち行列には、古い札や
元からあった札が残っていてもよい。取り出した点の札は、根からの最短の長さである。
-/

namespace Ranger.Lib

/-- 通れる辺は点を結び、正の長さを持つ。 -/
structure Network (ν ε K : Type*) [Zero K] [LT K] where
  node : ν → Prop
  usable : ε → Prop
  src : ε → ν
  dst : ε → ν
  length : ε → K
  node_src : ∀ {e}, usable e → node (src e)
  node_dst : ∀ {e}, usable e → node (dst e)
  pos : ∀ {e}, usable e → 0 < length e

namespace Network

variable {ν ε K : Type*} [AddCommGroup K] [LinearOrder K] {N : Network ν ε K}

/-! ## 道 -/

def IsPath (N : Network ν ε K) : ν → List ε → ν → Prop
  | u, [], v => u = v
  | u, e :: es, v => N.usable e ∧ N.src e = u ∧ N.IsPath (N.dst e) es v

def pathLength (N : Network ν ε K) (es : List ε) : K := (es.map N.length).sum

section Path

variable {u v : ν} {e : ε} {es : List ε}

@[simp] theorem pathLength_nil : N.pathLength [] = 0 := rfl

@[simp] theorem pathLength_cons : N.pathLength (e :: es) = N.length e + N.pathLength es := by
  simp [pathLength]

@[simp] theorem pathLength_concat : N.pathLength (es ++ [e]) = N.pathLength es + N.length e := by
  simp [pathLength]

theorem IsPath.concat (h : N.IsPath u es (N.src e)) (he : N.usable e) : N.IsPath u (es ++ [e]) (N.dst e) := by
  induction es generalizing u with
  | nil =>
      cases h
      exact ⟨he, rfl, rfl⟩
  | cons d es ih =>
      obtain ⟨hd, hsrc, hrest⟩ := h
      exact ⟨hd, hsrc, ih hrest⟩

theorem IsPath.nonneg [IsOrderedAddMonoid K] (h : N.IsPath u es v) : 0 ≤ N.pathLength es := by
  induction es generalizing u with
  | nil => exact le_rfl
  | cons e es ih =>
      obtain ⟨he, -, hrest⟩ := h
      rw [pathLength_cons]
      exact add_nonneg (N.pos he).le (ih hrest)

end Path

/-! ## 札 -/

/-- 親の辺を根までたどった道。途中の点はみな落ち着いていて、札は道に沿って辺の長さだけ増える。 -/
inductive Traced (N : Network ν ε K) (root : ν) (dist : ν → WithTop K) (parent : ν → Option ε) (settled : Finset ν) :
    ν → List ε → Prop
  | root (hparent : parent root = none) (hdist : dist root = 0) : Traced N root dist parent settled root []
  | step {e : ε} {es : List ε} (he : N.usable e) (hparent : parent (N.dst e) = some e) (hsettled : N.src e ∈ settled)
      (hdist : dist (N.dst e) = dist (N.src e) + N.length e) (h : Traced N root dist parent settled (N.src e) es) :
      Traced N root dist parent settled (N.dst e) (es ++ [e])

section Traced

variable {root v : ν} {dist dist' : ν → WithTop K} {parent parent' : ν → Option ε} {settled settled' : Finset ν}
  {es : List ε}

theorem Traced.isPath (h : N.Traced root dist parent settled v es) : N.IsPath root es v := by
  induction h with
  | root _ _ => rfl
  | step he _ _ _ _ ih => exact ih.concat he

theorem Traced.dist_eq (h : N.Traced root dist parent settled v es) : dist v = N.pathLength es := by
  induction h with
  | root _ hdist => rw [hdist, pathLength_nil, WithTop.coe_zero]
  | step _ _ _ hdist _ ih => rw [hdist, ih, pathLength_concat, WithTop.coe_add]

theorem Traced.parent_ne_none (h : N.Traced root dist parent settled v es) (hne : v ≠ root) : parent v ≠ none := by
  cases h with
  | root _ _ => exact absurd rfl hne
  | step _ hparent _ _ _ => rw [hparent]; exact Option.some_ne_none _

theorem Traced.mono (hsub : settled ⊆ settled') (hdist : ∀ u ∈ settled, dist' u = dist u)
    (hparent : ∀ u ∈ settled, parent' u = parent u) (h : N.Traced root dist parent settled v es)
    (hdistv : dist' v = dist v) (hparentv : parent' v = parent v) : N.Traced root dist' parent' settled' v es := by
  induction h with
  | root hp hd => exact .root (hparentv.trans hp) (hdistv.trans hd)
  | step he hp hs hd _ ih =>
      refine .step he (hparentv.trans hp) (hsub hs) ?_ (ih (hdist _ hs) (hparent _ hs))
      rw [hdistv, hd, hdist _ hs]

end Traced

variable [DecidableEq ν]

/-- `settled` の点から出る通れる辺は、`pending` を除いて、その先の点の札に反映されている。落ち着いていない点の札は待ち行列に
あり、待ち行列のどの札も、落ち着いた点の札より短くない。 -/
structure Searching (N : Network ν ε K) (root : ν) (dist : ν → WithTop K) (parent : ν → Option ε) (settled : Finset ν)
    (pending : ε → Prop) (queue : K × ν → Prop) : Prop where
  dist_root : dist root = 0
  node : ∀ v ∈ settled, N.node v
  traced : ∀ v, N.node v → dist v ≠ ⊤ → ∃ es, N.Traced root dist parent settled v es ∧
    es.length + (if v ∈ settled then 1 else 0) ≤ settled.card
  unreached : ∀ v, N.node v → dist v = ⊤ → parent v = none
  relaxed : ∀ e, N.usable e → N.src e ∈ settled → ¬ pending e → dist (N.dst e) ≤ dist (N.src e) + N.length e
  queued : ∀ v c, N.node v → dist v = (c : K) → v ∉ settled → queue (c, v)
  floor : ∀ u ∈ settled, ∀ a, queue a → dist u ≤ a.1

namespace Searching

variable {root v : ν} {dist : ν → WithTop K} {parent : ν → Option ε} {settled : Finset ν}
  {pending pending' : ε → Prop} {queue queue' : K × ν → Prop} {c : K} {e : ε}

theorem start (hroot : dist root = 0) (hother : ∀ v, N.node v → v ≠ root → dist v = ⊤)
    (hparent : ∀ v, N.node v → parent v = none) (hnode : N.node root) (hqueue : queue (0, root)) :
    N.Searching root dist parent ∅ (fun _ => False) queue where
  dist_root := hroot
  node := fun v hv => absurd hv (Finset.notMem_empty v)
  traced := by
    intro v hv hfinite
    obtain rfl : v = root := by_contra fun hne => hfinite (hother v hv hne)
    exact ⟨[], .root (hparent v hv) hroot, by simp⟩
  unreached := fun v hv _ => hparent v hv
  relaxed := fun e _ he => absurd he (Finset.notMem_empty _)
  queued := by
    intro v c hv hdist _
    by_cases hne : v = root
    · subst hne
      rw [hroot] at hdist
      obtain rfl : (0 : K) = c := WithTop.coe_injective hdist
      exact hqueue
    · rw [hother v hv hne] at hdist
      exact absurd hdist.symm (WithTop.coe_ne_top)
  floor := fun u hu => absurd hu (Finset.notMem_empty u)

/-- 反映の済んだ辺を `pending` から除く。 -/
theorem discharge (h : N.Searching root dist parent settled pending queue)
    (hdone : ∀ e, N.usable e → N.src e ∈ settled → pending e → ¬ pending' e →
      dist (N.dst e) ≤ dist (N.src e) + N.length e) :
    N.Searching root dist parent settled pending' queue :=
  { h with
    relaxed := by
      intro e he hsettled hnot
      by_cases hpending : pending e
      · exact hdone e he hsettled hpending hnot
      · exact h.relaxed e he hsettled hpending }

/-- 札の合わない要素を待ち行列から捨てる。 -/
theorem drop (h : N.Searching root dist parent settled pending queue) (hdead : N.node v → dist v ≠ (c : K))
    (hrest : ∀ a, queue' a → queue a) (hkeep : ∀ a, queue a → a ≠ (c, v) → queue' a) :
    N.Searching root dist parent settled pending queue' :=
  { h with
    queued := by
      intro w d hw hdist hsettled
      refine hkeep _ (h.queued w d hw hdist hsettled) fun heq => ?_
      obtain ⟨rfl, rfl⟩ := Prod.mk.inj heq
      exact hdead hw hdist
    floor := fun u hu a ha => h.floor u hu a (hrest a ha) }

/-- 最も短い札の点を取り出して落ち着かせる。 -/
theorem settle (h : N.Searching root dist parent settled (fun _ => False) queue) (hnode : N.node v)
    (hdist : dist v = (c : K)) (hmin : ∀ a, queue a → c ≤ a.1) (hrest : ∀ a, queue' a → queue a)
    (hkeep : ∀ a, queue a → a ≠ (c, v) → queue' a) :
    N.Searching root dist parent (insert v settled) (fun e => N.src e = v) queue' where
  dist_root := h.dist_root
  node := by
    intro w hw
    rcases Finset.mem_insert.mp hw with rfl | hw
    · exact hnode
    · exact h.node w hw
  traced := by
    intro w hw hfinite
    obtain ⟨es, htraced, hlength⟩ := h.traced w hw hfinite
    refine ⟨es, htraced.mono (Finset.subset_insert v settled) (fun _ _ => rfl) (fun _ _ => rfl) rfl rfl, ?_⟩
    by_cases hv : v ∈ settled
    · rw [Finset.insert_eq_of_mem hv]
      exact hlength
    · rw [Finset.card_insert_of_notMem hv]
      by_cases hws : w ∈ settled
      · rw [if_pos hws] at hlength
        rw [if_pos (Finset.mem_insert_of_mem hws)]
        omega
      · rw [if_neg hws] at hlength
        split <;> omega
  unreached := h.unreached
  relaxed := by
    intro e he hsrc hne
    rcases Finset.mem_insert.mp hsrc with heq | hsrc
    · exact absurd heq hne
    · exact h.relaxed e he hsrc not_false
  queued := by
    intro w d hw hd hsettled
    obtain ⟨hne, hsettled⟩ := not_or.mp (Finset.mem_insert.not.mp hsettled)
    exact hkeep _ (h.queued w d hw hd hsettled) fun heq => hne (Prod.mk.inj heq).2
  floor := by
    intro u hu a ha
    rcases Finset.mem_insert.mp hu with rfl | hu
    · rw [hdist]
      exact WithTop.coe_le_coe.mpr (hmin a (hrest a ha))
    · exact h.floor u hu a (hrest a ha)

/-- 落ち着いた点の札は、取り出した札より長くない。 -/
theorem dist_le_popped (h : N.Searching root dist parent settled pending queue) (hdist : dist v = (c : K))
    (hmem : queue (c, v)) : ∀ u ∈ insert v settled, dist u ≤ c := by
  intro u hu
  rcases Finset.mem_insert.mp hu with rfl | hu
  · exact hdist.le
  · exact h.floor u hu _ hmem

section Ordered

variable [IsOrderedAddMonoid K]

theorem nonneg (h : N.Searching root dist parent settled pending queue) (hv : N.node v) : 0 ≤ dist v := by
  by_cases htop : dist v = ⊤
  · rw [htop]
    exact le_top
  · obtain ⟨es, htraced, -⟩ := h.traced v hv htop
    rw [htraced.dist_eq]
    exact WithTop.coe_le_coe.mpr htraced.isPath.nonneg

omit [DecidableEq ν] in
/-- 落ち着いた点のうち最も遠い点から出る辺で、先の点の札が短くなるなら、先の点は落ち着いていない。 -/
theorem notMem_of_lt (hmax : ∀ u ∈ settled, dist u ≤ c) (he : N.usable e)
    (hlt : ((c + N.length e : K) : WithTop K) < dist (N.dst e)) : N.dst e ∉ settled := by
  intro hmem
  have hle : (c : WithTop K) ≤ (c + N.length e : K) := WithTop.coe_le_coe.mpr (le_add_of_nonneg_right (N.pos he).le)
  exact absurd (hlt.trans_le ((hmax _ hmem).trans hle)) (lt_irrefl _)

/-- 辺の先の点の札を短くする。 -/
theorem relax (h : N.Searching root dist parent settled pending queue) (hmax : ∀ u ∈ settled, dist u ≤ c)
    (he : N.usable e) (hsrc : N.src e ∈ settled) (hdist : dist (N.src e) = (c : K))
    (hlt : ((c + N.length e : K) : WithTop K) < dist (N.dst e)) (hpending : ∀ d, pending d → d = e ∨ pending' d)
    (hqueue : ∀ a, queue' a ↔ queue a ∨ a = (c + N.length e, N.dst e)) :
    N.Searching root (Function.update dist (N.dst e) (c + N.length e : K)) (Function.update parent (N.dst e) (some e))
      settled pending' queue' := by
  have hfresh := notMem_of_lt hmax he hlt
  have hkeep : ∀ u ∈ settled, u ≠ N.dst e := fun u hu heq => hfresh (heq ▸ hu)
  have hshorter : ∀ w, Function.update dist (N.dst e) (c + N.length e : K) w ≤ dist w := by
    intro w
    by_cases hw : w = N.dst e
    · subst hw
      rw [Function.update_self]
      exact hlt.le
    · rw [Function.update_of_ne hw]
  have htraced : ∀ {w es}, N.Traced root dist parent settled w es → w ≠ N.dst e →
      N.Traced root (Function.update dist (N.dst e) (c + N.length e : K))
        (Function.update parent (N.dst e) (some e)) settled w es := fun ht hw =>
    ht.mono (Finset.Subset.refl _) (fun u hu => Function.update_of_ne (hkeep u hu) _ _)
      (fun u hu => Function.update_of_ne (hkeep u hu) _ _) (Function.update_of_ne hw _ _) (Function.update_of_ne hw _ _)
  refine
    { dist_root := ?_
      node := h.node
      traced := fun w hw hfinite => ?_
      unreached := fun w hw htop => ?_
      relaxed := fun d hd hdsrc hnot => ?_
      queued := fun w d hw hd hsettled => ?_
      floor := fun u hu a ha => ?_ }
  · -- 根の札は 0 で、辺の先の新しい札は正である。
    have hne : root ≠ N.dst e := by
      rintro rfl
      rw [h.dist_root] at hlt
      have hc : (0 : WithTop K) ≤ c := hdist ▸ h.nonneg (N.node_src he)
      have hpos : (0 : K) < c + N.length e := add_pos_of_nonneg_of_pos (WithTop.coe_le_coe.mp hc) (N.pos he)
      exact absurd hlt (not_lt.mpr (WithTop.coe_le_coe.mpr hpos.le))
    rw [Function.update_of_ne hne, h.dist_root]
  · by_cases hne : w = N.dst e
    · subst hne
      obtain ⟨es, hes, hlength⟩ := h.traced (N.src e) (N.node_src he) (hdist ▸ WithTop.coe_ne_top)
      refine ⟨es ++ [e], .step he (Function.update_self _ _ _) hsrc ?_ (htraced hes (hkeep _ hsrc)), ?_⟩
      · rw [Function.update_self, Function.update_of_ne (hkeep _ hsrc), hdist, WithTop.coe_add]
      · rw [if_pos hsrc] at hlength
        rw [if_neg hfresh, List.length_append, List.length_singleton, Nat.add_zero]
        exact hlength
    · rw [Function.update_of_ne hne] at hfinite
      obtain ⟨es, hes, hlength⟩ := h.traced w hw hfinite
      exact ⟨es, htraced hes hne, hlength⟩
  · have hne : w ≠ N.dst e := by
      rintro rfl
      rw [Function.update_self] at htop
      exact WithTop.coe_ne_top htop
    rw [Function.update_of_ne hne] at htop ⊢
    exact h.unreached w hw htop
  · rw [Function.update_of_ne (hkeep _ hdsrc)]
    by_cases hde : d = e
    · subst hde
      rw [Function.update_self, hdist, WithTop.coe_add]
    · have hdone : ¬ pending d := fun hp => (hpending d hp).elim hde hnot
      exact (hshorter _).trans (h.relaxed d hd hdsrc hdone)
  · by_cases hne : w = N.dst e
    · subst hne
      rw [Function.update_self] at hd
      exact (hqueue _).mpr (Or.inr (by rw [WithTop.coe_injective hd]))
    · rw [Function.update_of_ne hne] at hd
      exact (hqueue _).mpr (Or.inl (h.queued w d hw hd hsettled))
  · rw [Function.update_of_ne (hkeep u hu)]
    rcases (hqueue a).mp ha with hold | rfl
    · exact h.floor u hu a hold
    · exact (hmax u hu).trans (WithTop.coe_le_coe.mpr (le_add_of_nonneg_right (N.pos he).le))

/-! ## 探索の結果 -/

/-- 道の長さは、その終わりの札か、落ち着いていない点の札より短くない。 -/
theorem lower_bound (h : N.Searching root dist parent settled (fun _ => False) queue) {u w : ν} {es : List ε} {b : K}
    (hpath : N.IsPath u es w) (hu : N.node u) (hb : dist u ≤ b) :
    dist w ≤ (b + N.pathLength es : K) ∨
      ∃ x, N.node x ∧ x ∉ settled ∧ dist x ≤ (b + N.pathLength es : K) := by
  induction es generalizing u b with
  | nil =>
      cases hpath
      rw [pathLength_nil, add_zero]
      exact Or.inl hb
  | cons e es ih =>
      obtain ⟨he, rfl, hrest⟩ := hpath
      by_cases hsettled : N.src e ∈ settled
      · have hnext : dist (N.dst e) ≤ (b + N.length e : K) := by
          rw [WithTop.coe_add]
          exact (h.relaxed e he hsettled not_false).trans (add_le_add_left hb _)
        rw [pathLength_cons, ← add_assoc]
        exact ih hrest (N.node_dst he) hnext
      · refine Or.inr ⟨N.src e, hu, hsettled, hb.trans (WithTop.coe_le_coe.mpr ?_)⟩
        rw [pathLength_cons]
        exact le_add_of_nonneg_right (add_nonneg (N.pos he).le hrest.nonneg)

/-- 取り出した点の札は、最短の長さである。 -/
theorem optimal (h : N.Searching root dist parent settled (fun _ => False) queue) (hroot : N.node root)
    (hdist : dist v = (c : K)) (hmin : ∀ a, queue a → c ≤ a.1) {es : List ε} (hpath : N.IsPath root es v) :
    c ≤ N.pathLength es := by
  have hbound := h.lower_bound hpath hroot (b := 0) (by rw [h.dist_root, WithTop.coe_zero])
  rw [zero_add] at hbound
  rcases hbound with hv | ⟨x, hx, hsettled, hle⟩
  · rw [hdist] at hv
    exact WithTop.coe_le_coe.mp hv
  · obtain ⟨d, hd⟩ := WithTop.ne_top_iff_exists.mp (ne_top_of_le_ne_top WithTop.coe_ne_top hle)
    rw [← hd] at hle
    exact (hmin _ (h.queued x d hx hd.symm hsettled)).trans (WithTop.coe_le_coe.mp hle)

/-- 落ち着いていない点への道の長さより長くない札が、待ち行列にある。 -/
theorem exists_queued_le (h : N.Searching root dist parent settled (fun _ => False) queue) (hroot : N.node root)
    (hv : N.node v) (hsettled : v ∉ settled) {es : List ε} (hpath : N.IsPath root es v) :
    ∃ a, queue a ∧ a.1 ≤ N.pathLength es := by
  have hbound := h.lower_bound hpath hroot (b := 0) (by rw [h.dist_root, WithTop.coe_zero])
  rw [zero_add] at hbound
  obtain ⟨x, hx, hxs, hle⟩ : ∃ x, N.node x ∧ x ∉ settled ∧ dist x ≤ (N.pathLength es : K) :=
    hbound.elim (fun hle => ⟨v, hv, hsettled, hle⟩) id
  obtain ⟨d, hd⟩ := WithTop.ne_top_iff_exists.mp (ne_top_of_le_ne_top WithTop.coe_ne_top hle)
  rw [← hd] at hle
  exact ⟨(d, x), h.queued x d hx hd.symm hxs, WithTop.coe_le_coe.mp hle⟩

/-- 待ち行列が空なら、落ち着いていない点へは届かない。 -/
theorem unreachable (h : N.Searching root dist parent settled (fun _ => False) queue) (hroot : N.node root)
    (hempty : ∀ a, ¬ queue a) (hv : N.node v) (hsettled : v ∉ settled) (es : List ε) : ¬ N.IsPath root es v := by
  intro hpath
  obtain ⟨a, ha, -⟩ := h.exists_queued_le hroot hv hsettled hpath
  exact hempty a ha

end Ordered

end Searching

end Network

end Ranger.Lib
