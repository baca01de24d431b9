import Ranger.Amcl.ClusterStats

/-!
# 集団の統計と、その集団だけの統計

集団の重み、平均、共分散は、その集団の標本だけに同じ計算をした結果と一致する。ただし向きの分散は、重みの和で割らないので、集団がすべての標本を含むか、向きの和が消えるときにだけ一致する。
-/

namespace Ranger.Amcl

open KdTree

variable {maxSamples fuel : Nat} {samples own : List Sample} {t : KdTree}

/-- 標本の位置をすべて挿入した木。挿入する値は問わない。 -/
def Built (maxSamples : Nat) (samples : List Sample) (t : KdTree) : Prop :=
  ∃ inserts : List (PfVector × ℝ), inserts.map Prod.fst = samples.map Sample.pose ∧
    insertAll id (3 * maxSamples) inserts clear = some t

/-- 挿入された鍵をたどって繋がる二つの標本。 -/
def Connected (samples : List Sample) (s s' : Sample) : Prop :=
  Relation.ReflTransGen (Linked (samples.map fun s => kdKey s.pose)) (kdKey s.pose) (kdKey s'.pose)

/-- 結果は、標本を繋がりごとに分けた和の統計である。 -/
structure Grouped (t : KdTree) (samples : List Sample) (r : SetStats) : Prop where
  mem : ∀ s ∈ samples, ∃ i < r.clusterCount, t.getCluster r.label s.pose = some (i : Int)
  used : ∀ i < r.clusterCount, ∃ s ∈ samples, t.getCluster r.label s.pose = some (i : Int)
  same : ∀ s ∈ samples, ∀ s' ∈ samples,
    t.getCluster r.label s.pose = t.getCluster r.label s'.pose ↔ Connected samples s s'
  weight : ∀ i, r.weight i = (momentsOf (inCluster (t.getCluster r.label) i samples)).weight
  clusters : ∀ i < r.clusterCount, r.clusters i = (momentsOf (inCluster (t.getCluster r.label) i samples)).normalize
  overall : r.overall = (momentsOf samples).normalize

/-! ## 計算の結果 -/

theorem built_exists (h : samples.length ≤ maxSamples) : ∃ t, Built maxSamples samples t := by
  have hroom : 2 * (([] : List (Key × ℝ)).length + (samples.map fun s => (s.pose, s.weight)).length) ≤
      3 * maxSamples + 1 := by
    rw [List.length_nil, List.length_map]
    omega
  obtain ⟨t, hrun, -⟩ := histogram_clear.insertAll_exact _ hroom
  refine ⟨t, _, ?_, hrun⟩
  rw [List.map_map]
  rfl

theorem Built.labels (hlen : samples.length ≤ maxSamples) (ht : Built maxSamples samples t)
    (hfuel : t.counts.leafCount ≤ fuel) (old : Nat → Int) :
    ∃ label count, t.cluster id fuel old = some (label, count) ∧ count ≤ maxSamples ∧
      (∀ s ∈ samples, ∃ i < count, t.getCluster label s.pose = some (i : Int)) ∧
      (∀ i < count, ∃ s ∈ samples, t.getCluster label s.pose = some (i : Int)) ∧
      ∀ s ∈ samples, ∀ s' ∈ samples, t.getCluster label s.pose = t.getCluster label s'.pose ↔ Connected samples s s' := by
  obtain ⟨inserts, hposes, hinsert⟩ := ht
  have hlength : inserts.length = samples.length := by
    rw [← List.length_map Prod.fst, hposes, List.length_map]
  have hroom : 2 * (([] : List (Key × ℝ)).length + inserts.length) ≤ 3 * maxSamples + 1 := by
    rw [List.length_nil]
    omega
  obtain ⟨t', hrun, hist⟩ := histogram_clear.insertAll_exact inserts hroom
  obtain rfl := Option.some.inj (hinsert.symm.trans hrun)
  rw [List.nil_append] at hist
  have hkeys : (inserts.map fun p => (kdKey p.1, p.2)).map Prod.fst = samples.map fun s => kdKey s.pose := by
    have hpose := congrArg (List.map kdKey) hposes
    rw [List.map_map, List.map_map] at hpose
    rw [List.map_map]
    exact hpose
  obtain ⟨root, counts⟩ := t
  cases root with
  | none =>
      obtain ⟨hnil, -⟩ := hist
      have hempty : samples = [] := by
        rw [List.map_eq_nil_iff] at hnil
        rw [← List.length_eq_zero_iff, ← hlength, hnil, List.length_nil]
      subst hempty
      refine ⟨old, 0, rfl, Nat.zero_le _, fun s hs => absurd hs List.not_mem_nil,
        fun i hi => absurd hi (Nat.not_lt_zero i), fun s hs => absurd hs List.not_mem_nil⟩
  | some root =>
      have hcounted : Counted root counts _ := hist
      obtain ⟨label, count, hcluster, hclustered⟩ := hcounted.cluster Wrapping.exact (fun _ _ _ => rfl) hfuel old
      have hmem := hcounted.mem_keys
      rw [joined_id, hkeys] at hclustered
      rw [hkeys] at hmem
      have hleaf (s : Sample) (hs : s ∈ samples) : ∃ l ∈ root.leaves, l.key = kdKey s.pose ∧
          getCluster ⟨some root, counts⟩ label s.pose = some (label l.id) := by
        obtain ⟨l, hl, hkey⟩ := List.mem_map.mp ((hmem (kdKey s.pose)).mpr (List.mem_map_of_mem hs))
        have hfind : root.findNode (kdKey s.pose) = some l.id :=
          (hcounted.indexed.findNode _ _).mpr ⟨l, hl, hkey, rfl⟩
        refine ⟨l, hl, hkey, ?_⟩
        simp only [getCluster, Option.map_some, hfind, Option.getD_some]
      have hcount : count ≤ maxSamples := by
        have hsub : root.keys.Subperm (samples.map fun s => kdKey s.pose) :=
          hcounted.nodup.subperm fun k hk => (hmem k).mp hk
        have hle := hsub.length_le
        rw [KdNode.keys, List.length_map, List.length_map] at hle
        exact hclustered.count_le.trans (hle.trans hlen)
      refine ⟨label, count, hcluster, hcount, fun s hs => ?_, fun i hi => ?_, fun s hs s' hs' => ?_⟩
      · obtain ⟨l, hl, -, hlabel⟩ := hleaf s hs
        obtain ⟨hnonneg, hlt⟩ := hclustered.range l hl
        refine ⟨(label l.id).toNat, by omega, ?_⟩
        rw [hlabel, Int.toNat_of_nonneg hnonneg]
      · obtain ⟨l, hl, hlabel⟩ := hclustered.used i hi
        obtain ⟨s, hs, hkey⟩ := List.mem_map.mp ((hmem l.key).mp (List.mem_map_of_mem hl))
        obtain ⟨l', hl', hkey', hlabel'⟩ := hleaf s hs
        obtain rfl := List.inj_on_of_nodup_map hcounted.nodup hl' hl (hkey'.trans hkey)
        exact ⟨s, hs, hlabel'.trans (congrArg some hlabel)⟩
      · obtain ⟨l, hl, hkey, hlabel⟩ := hleaf s hs
        obtain ⟨l', hl', hkey', hlabel'⟩ := hleaf s' hs'
        rw [hlabel, hlabel', Option.some.injEq, hclustered.same l hl l' hl', hkey, hkey']
        rfl

/-- 容量に収まる標本の統計は、求まる。 -/
theorem Built.grouped (hlen : samples.length ≤ maxSamples) (ht : Built maxSamples samples t)
    (hfuel : t.counts.leafCount ≤ fuel) (old : Nat → Int) :
    ∃ r, pfClusterStats fuel maxSamples t old samples = some r ∧ Grouped t samples r := by
  obtain ⟨label, count, hcluster, hcount, hmem, hused, hsame⟩ := ht.labels hlen hfuel old
  obtain ⟨sums, hrun, hclusters, hoverall, -, hle, hbelow⟩ := foldlM_add hcount ⟨0, fun _ => .zero, .zero⟩ hmem
  have hsumsCount : sums.clusterCount = count := by
    apply le_antisymm (hle (Nat.zero_le count))
    by_contra hlt
    obtain ⟨s, hs, hlabel⟩ := hused sums.clusterCount (by omega)
    exact absurd (hbelow s hs _ hlabel) (Nat.lt_irrefl _)
  have hsum (i : Nat) : sums.clusters i = momentsOf (inCluster (t.getCluster label) i samples) := hclusters i
  have hstats : pfClusterStats fuel maxSamples t old samples = some {
      label := label
      clusterCount := sums.clusterCount
      weight := fun i => (sums.clusters i).weight
      clusters := fun i => if i < sums.clusterCount then (sums.clusters i).normalize else .zero
      overall := sums.overall.normalize } := by
    simp only [pfClusterStats, hcluster, Option.bind_eq_bind, Option.bind_some, hrun]
    rfl
  refine ⟨_, hstats, ⟨?_, ?_, hsame, fun i => congrArg Moments.weight (hsum i), fun i hi => ?_,
    congrArg Moments.normalize hoverall⟩⟩
  · rw [← hsumsCount] at hmem
    exact hmem
  · rw [← hsumsCount] at hused
    exact hused
  · rw [← hsum]
    exact if_pos hi

/-! ## その集団だけの統計 -/

/-- 集団の標本 `own` だけを、重みの和を `1` にして統計すると、`stats` になる。 -/
def Alone (maxSamples : Nat) (own : List Sample) (weight : ℝ) (stats : Stats) : Prop :=
  weight = (own.map Sample.weight).sum ∧
    ∀ t fuel old, Built maxSamples (rescale own) t → t.counts.leafCount ≤ fuel →
      ∃ r, pfClusterStats fuel maxSamples t old (rescale own) = some r ∧ stats = r.overall

/-- 全体の平均は、集団の平均の、重みつきの平均である。 -/
def Averaged (r : SetStats) : Prop :=
  let average (f : PfVector → ℝ) : ℝ :=
    (∑ i ∈ Finset.range r.clusterCount, r.weight i * f (r.clusters i).mean) / ∑ i ∈ Finset.range r.clusterCount, r.weight i
  r.overall.mean.v0 = average PfVector.v0 ∧ r.overall.mean.v1 = average PfVector.v1

/-- 平均と位置の共分散は、重みの比例によらない。 -/
theorem normalize_rescale (h : 0 < (own.map Sample.weight).sum) :
    (momentsOf own).normalize = (momentsOf (rescale own)).normalize ↔
      (own.map Sample.weight).sum = 1 ∨ (momentsOf own).m 2 = 0 ∧ (momentsOf own).m 3 = 0 := by
  obtain ⟨hweight, hm, hc⟩ := momentsOf_rescale own
  rw [← momentsOf_weight] at h ⊢
  have hone : (momentsOf (rescale own)).weight = 1 := hweight.trans (div_self h.ne')
  rw [← angularVariance_div h]
  unfold Moments.normalize
  rw [hone, hm, hm, hm, hm, atan2_div h]
  simp only [hc, div_one]
  rw [Stats.mk.injEq, and_iff_right rfl]
  constructor
  · intro hcov
    exact congrFun (congrFun hcov 2) 2
  · intro hvariance
    rw [hvariance]

theorem alone_iff (hlen : own.length ≤ maxSamples) (h : 0 < (own.map Sample.weight).sum) :
    Alone maxSamples own (momentsOf own).weight (momentsOf own).normalize ↔
      (own.map Sample.weight).sum = 1 ∨ (momentsOf own).m 2 = 0 ∧ (momentsOf own).m 3 = 0 := by
  have hlength : (rescale own).length ≤ maxSamples := (List.length_map _).trans_le hlen
  rw [← normalize_rescale h]
  constructor
  · rintro ⟨-, halone⟩
    obtain ⟨t, ht⟩ := built_exists hlength
    obtain ⟨r, hrun, hoverall⟩ := halone t _ (fun _ => 0) ht (Nat.le_refl _)
    obtain ⟨r', hrun', hgrouped⟩ := ht.grouped hlength (Nat.le_refl _) fun _ => 0
    obtain rfl := Option.some.inj (hrun.symm.trans hrun')
    rw [hoverall, hgrouped.overall]
  · intro heq
    refine ⟨momentsOf_weight own, fun t fuel old ht hfuel => ?_⟩
    obtain ⟨r, hrun, hgrouped⟩ := ht.grouped hlength hfuel old
    exact ⟨r, hrun, heq.trans hgrouped.overall.symm⟩

/-- 正の重みの和が全体に等しい部分は、全体である。 -/
theorem sum_filter_eq (p : Sample → Bool) (hpos : ∀ s ∈ samples, 0 < s.weight) :
    ((samples.filter p).map Sample.weight).sum ≤ (samples.map Sample.weight).sum ∧
      (((samples.filter p).map Sample.weight).sum = (samples.map Sample.weight).sum ↔ ∀ s ∈ samples, p s) := by
  induction samples with
  | nil => simp
  | cons s samples ih =>
      obtain ⟨hle, hiff⟩ := ih fun s hs => hpos s (List.mem_cons_of_mem _ hs)
      have hweight := hpos s List.mem_cons_self
      rw [List.forall_mem_cons]
      by_cases hs : p s
      · rw [List.filter_cons_of_pos hs, List.map_cons, List.sum_cons, List.map_cons, List.sum_cons,
          add_right_inj, and_iff_right hs]
        exact ⟨by gcongr, hiff⟩
      · rw [List.filter_cons_of_neg hs, List.map_cons, List.sum_cons]
        refine ⟨by linarith, fun heq => by linarith, fun hall => absurd hall.1 hs⟩

theorem sum_pos_of_mem {s : Sample} (hpos : ∀ s ∈ own, 0 < s.weight) (hs : s ∈ own) :
    0 < (own.map Sample.weight).sum :=
  List.sum_pos _ (fun w hw => by
    obtain ⟨s', hs', rfl⟩ := List.mem_map.mp hw
    exact hpos s' hs') fun hnil => List.ne_nil_of_mem (List.mem_map_of_mem hs) hnil

theorem Grouped.averaged {r : SetStats} (h : Grouped t samples r) (hpos : ∀ s ∈ samples, 0 < s.weight) :
    Averaged r := by
  have hweight : ∑ i ∈ Finset.range r.clusterCount, r.weight i = (momentsOf samples).weight := by
    rw [momentsOf_weight, ← sum_inCluster Sample.weight h.mem]
    exact Finset.sum_congr rfl fun i _ => (h.weight i).trans (momentsOf_weight _)
  have hterm (f : PfVector → ℝ) (d : Fin 4) (hf : ∀ a : Moments, f a.normalize.mean = a.m d / a.weight) :
      ∑ i ∈ Finset.range r.clusterCount, r.weight i * f (r.clusters i).mean = (momentsOf samples).m d := by
    rw [momentsOf_m, ← sum_inCluster (fun s => s.weight * s.terms d) h.mem]
    refine Finset.sum_congr rfl fun i hi => ?_
    have hlt := Finset.mem_range.mp hi
    obtain ⟨s, hs, hlabel⟩ := h.used i hlt
    have hown : s ∈ inCluster (t.getCluster r.label) i samples := List.mem_filter.mpr ⟨hs, by simpa using hlabel⟩
    have hne : (momentsOf (inCluster (t.getCluster r.label) i samples)).weight ≠ 0 := by
      rw [momentsOf_weight]
      exact (sum_pos_of_mem (fun s hs => hpos s (List.mem_filter.mp hs).1) hown).ne'
    rw [h.weight, h.clusters i hlt, hf, mul_div_cancel₀ _ hne, momentsOf_m]
  constructor
  · dsimp only
    rw [hterm _ 0 fun _ => rfl, hweight, h.overall]
    rfl
  · dsimp only
    rw [hterm _ 1 fun _ => rfl, hweight, h.overall]
    rfl

/-! ## 一致する条件 -/

open Classical in
/-- 標本 `s` と繋がる標本。 -/
noncomputable def component (samples : List Sample) (s : Sample) : List Sample :=
  samples.filter fun s' => Connected samples s s'

theorem mem_component {s s' : Sample} : s' ∈ component samples s ↔ s' ∈ samples ∧ Connected samples s s' := by
  simp [component]

/-- 繋がる標本の、向きの和が消える。 -/
def Balanced (samples : List Sample) (s : Sample) : Prop :=
  ((component samples s).map fun s' => s'.weight * Real.cos s'.pose.v2).sum = 0 ∧
    ((component samples s).map fun s' => s'.weight * Real.sin s'.pose.v2).sum = 0

theorem Grouped.inCluster_eq {r : SetStats} {s : Sample} {i : Nat} (h : Grouped t samples r) (hs : s ∈ samples)
    (hlabel : t.getCluster r.label s.pose = some (i : Int)) :
    inCluster (t.getCluster r.label) i samples = component samples s := by
  unfold inCluster component
  refine List.filter_congr fun s' hs' => ?_
  rw [decide_eq_decide, ← h.same s hs s' hs', hlabel]
  exact eq_comm

theorem Grouped.alone_iff {r : SetStats} {s : Sample} {i : Nat} (h : Grouped t samples r)
    (hlen : samples.length ≤ maxSamples) (hpos : ∀ s ∈ samples, 0 < s.weight) (hsum : (samples.map Sample.weight).sum = 1)
    (hs : s ∈ samples) (hi : i < r.clusterCount) (hlabel : t.getCluster r.label s.pose = some (i : Int)) :
    Alone maxSamples (inCluster (t.getCluster r.label) i samples) (r.weight i) (r.clusters i) ↔
      (∀ s' ∈ samples, Connected samples s s') ∨ Balanced samples s := by
  have hown := h.inCluster_eq hs hlabel
  have hmem : s ∈ inCluster (t.getCluster r.label) i samples := List.mem_filter.mpr ⟨hs, by simpa using hlabel⟩
  have hlength : (inCluster (t.getCluster r.label) i samples).length ≤ maxSamples :=
    (List.length_filter_le _ _).trans hlen
  have hweight : 0 < ((inCluster (t.getCluster r.label) i samples).map Sample.weight).sum :=
    sum_pos_of_mem (fun s hs => hpos s (List.mem_filter.mp hs).1) hmem
  rw [h.weight, h.clusters i hi, Amcl.alone_iff hlength hweight, momentsOf_m, momentsOf_m]
  refine or_congr ?_ (by rw [hown]; rfl)
  rw [inCluster, ← hsum, (sum_filter_eq _ hpos).2]
  refine forall₂_congr fun s' hs' => ?_
  rw [← h.same s hs s' hs', hlabel, decide_eq_true_eq]
  exact eq_comm

/-- 集団の統計は、その集団の標本だけの統計と、集団がすべての標本を含むか、向きの和が消えるときに限って一致する。 -/
theorem pfClusterStats_alone_iff (hlen : samples.length ≤ maxSamples) (hpos : ∀ s ∈ samples, 0 < s.weight)
    (hsum : (samples.map Sample.weight).sum = 1) (ht : Built maxSamples samples t) (hfuel : t.counts.leafCount ≤ fuel)
    (old : Nat → Int) :
    ∃ r, pfClusterStats fuel maxSamples t old samples = some r ∧
      (∀ i < r.clusterCount, ∃ s ∈ samples, t.getCluster r.label s.pose = some (i : Int)) ∧
      ∀ s ∈ samples, ∃ i < r.clusterCount, t.getCluster r.label s.pose = some (i : Int) ∧
        (Alone maxSamples (inCluster (t.getCluster r.label) i samples) (r.weight i) (r.clusters i) ∧ Averaged r ↔
          (∀ s' ∈ samples, Connected samples s s') ∨ Balanced samples s) := by
  obtain ⟨r, hrun, hgrouped⟩ := ht.grouped hlen hfuel old
  refine ⟨r, hrun, hgrouped.used, fun s hs => ?_⟩
  obtain ⟨i, hi, hlabel⟩ := hgrouped.mem s hs
  refine ⟨i, hi, hlabel, ?_⟩
  rw [and_iff_left (hgrouped.averaged hpos)]
  exact hgrouped.alone_iff hlen hpos hsum hs hi hlabel

noncomputable def twoPoses : List Sample := [⟨⟨0, 0, 0⟩, 0.5⟩, ⟨⟨10, 0, 0⟩, 0.5⟩]

theorem twoPoses_pos : ∀ s ∈ twoPoses, 0 < s.weight := by
  intro s hs
  rcases List.mem_pair.mp hs with rfl | rfl
  · norm_num
  · norm_num

theorem twoPoses_sum : (twoPoses.map Sample.weight).sum = 1 := by
  simp only [twoPoses, List.map_cons, List.map_nil, List.sum_cons, List.sum_nil]
  norm_num

/-- 離れた二つの標本は、繋がらない。 -/
theorem twoPoses_apart : ¬ Connected twoPoses ⟨⟨0, 0, 0⟩, 0.5⟩ ⟨⟨10, 0, 0⟩, 0.5⟩ := by
  have hfirst : kdKey ⟨0, 0, 0⟩ 0 = 0 := by simp [kdKey]
  have hsecond : kdKey ⟨10, 0, 0⟩ 0 = 20 := by
    simp only [kdKey, Matrix.cons_val_zero]
    norm_num
  have hstay (key : Key) (hpath : Relation.ReflTransGen (Linked (twoPoses.map fun s => kdKey s.pose))
      (kdKey ⟨0, 0, 0⟩) key) : key = kdKey ⟨0, 0, 0⟩ := by
    induction hpath with
    | refl => rfl
    | tail _ hedge ih =>
        obtain ⟨-, hmem, hnear⟩ := hedge
        rw [ih] at hnear
        rcases List.mem_pair.mp hmem with rfl | rfl
        · rfl
        · have hgap := hnear 0
          dsimp only at hgap
          rw [hfirst, hsecond] at hgap
          exact absurd hgap (by decide)
  intro hpath
  have heq := congrFun (hstay _ hpath) 0
  rw [hfirst, hsecond] at heq
  exact absurd heq (by decide)

-- 集団が一つの標本だけを含み、重みが `1` に満たないとき、向きの分散は一致しない。
theorem pfClusterStats_variance_apart : ∃ t r, Built 2 twoPoses t ∧
    pfClusterStats t.counts.leafCount 2 t (fun _ => 0) twoPoses = some r ∧
    ∃ i < r.clusterCount, ¬ Alone 2 (inCluster (t.getCluster r.label) i twoPoses) (r.weight i) (r.clusters i) := by
  have hlen : twoPoses.length ≤ 2 := Nat.le_refl 2
  obtain ⟨t, ht⟩ := built_exists hlen
  obtain ⟨r, hrun, hgrouped⟩ := ht.grouped hlen (Nat.le_refl _) fun _ => 0
  have hs : (⟨⟨0, 0, 0⟩, 0.5⟩ : Sample) ∈ twoPoses := List.mem_cons_self
  obtain ⟨i, hi, hlabel⟩ := hgrouped.mem _ hs
  refine ⟨t, r, ht, hrun, i, hi, ?_⟩
  rw [hgrouped.alone_iff hlen twoPoses_pos twoPoses_sum hs hi hlabel]
  rintro (hall | ⟨hcos, -⟩)
  · exact twoPoses_apart (hall _ (List.mem_cons_of_mem _ List.mem_cons_self))
  · have hmem : (⟨⟨0, 0, 0⟩, 0.5⟩ : Sample) ∈ component twoPoses ⟨⟨0, 0, 0⟩, 0.5⟩ :=
      mem_component.mpr ⟨hs, Relation.ReflTransGen.refl⟩
    have hsub : ∀ s ∈ component twoPoses ⟨⟨0, 0, 0⟩, 0.5⟩, s ∈ twoPoses := fun s hs => (mem_component.mp hs).1
    have hweight := sum_pos_of_mem (fun s hs => twoPoses_pos s (hsub s hs)) hmem
    have hsame : ((component twoPoses ⟨⟨0, 0, 0⟩, 0.5⟩).map fun s' => s'.weight * Real.cos s'.pose.v2) =
        (component twoPoses ⟨⟨0, 0, 0⟩, 0.5⟩).map Sample.weight := by
      refine List.map_congr_left fun s' hs' => ?_
      rcases List.mem_pair.mp (hsub s' hs') with rfl | rfl
      · rw [Real.cos_zero, mul_one]
      · rw [Real.cos_zero, mul_one]
    rw [hsame] at hcos
    exact hweight.ne' hcos

-- 二つの離れた標本に、統計を求める。
theorem pfClusterStats_alone_iff_apart : twoPoses.length ≤ 2 ∧ (∀ s ∈ twoPoses, 0 < s.weight) ∧
    (twoPoses.map Sample.weight).sum = 1 ∧ ∃ t, Built 2 twoPoses t ∧ ∃ r,
      pfClusterStats t.counts.leafCount 2 t (fun _ => 0) twoPoses = some r ∧
      ∀ s ∈ twoPoses, ∃ i < r.clusterCount, t.getCluster r.label s.pose = some (i : Int) ∧
        (Alone 2 (inCluster (t.getCluster r.label) i twoPoses) (r.weight i) (r.clusters i) ∧ Averaged r ↔
          (∀ s' ∈ twoPoses, Connected twoPoses s s') ∨ Balanced twoPoses s) := by
  have hlen : twoPoses.length ≤ 2 := Nat.le_refl 2
  obtain ⟨t, ht⟩ := built_exists hlen
  obtain ⟨r, hrun, -, hiff⟩ := pfClusterStats_alone_iff hlen twoPoses_pos twoPoses_sum ht
    (Nat.le_refl _) fun _ => 0
  exact ⟨hlen, twoPoses_pos, twoPoses_sum, t, ht, r, hrun, hiff⟩

end Ranger.Amcl
