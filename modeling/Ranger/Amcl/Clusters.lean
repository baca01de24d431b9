import Ranger.Amcl.Histogram
import Ranger.Lib.Flood

/-!
# 葉の番号づけの正しさ

木への挿入の列のあとの番号づけは、鍵の隣をたどって繋がる葉に同じ番号をつける。
-/

namespace Ranger.Amcl

open Lib

/-- どの成分の差も 1 以下である二つの鍵。 -/
def Near (key nkey : Key) : Prop := ∀ i, |key i - nkey i| ≤ 1

theorem Near.symm {key nkey : Key} (h : Near key nkey) : Near nkey key := by
  intro i
  rw [abs_sub_comm]
  exact h i

/-- どの成分も、1 以下を加えて `int` に収めたものである。 -/
def Beside (int : ℤ → ℤ) (key nkey : Key) : Prop := ∀ i, ∃ d : ℤ, |d| ≤ 1 ∧ nkey i = int (key i + d)

theorem beside_id {key nkey : Key} : Beside id key nkey ↔ Near key nkey := by
  refine forall_congr' fun i => ⟨?_, fun h => ⟨nkey i - key i, by rwa [abs_sub_comm], (add_sub_cancel _ _).symm⟩⟩
  rintro ⟨d, hd, hnkey⟩
  rwa [hnkey, id_eq, sub_add_cancel_left, abs_neg]

theorem Beside.of_near {int : ℤ → ℤ} {key nkey : Key} (hnkey : Fits int nkey) (h : Near key nkey) :
    Beside int key nkey := by
  intro i
  obtain ⟨d, hd, heq⟩ := beside_id.mpr h i
  refine ⟨d, hd, ?_⟩
  rw [id_eq] at heq
  rw [← heq, hnkey i]

theorem Beside.symm {int : ℤ → ℤ} (hint : Wrapping int) {key nkey : Key} (hkey : Fits int key)
    (h : Beside int key nkey) : Beside int nkey key := by
  intro i
  obtain ⟨d, hd, hnkey⟩ := h i
  refine ⟨-d, by rwa [abs_neg], ?_⟩
  rw [hnkey, hint.add, add_neg_cancel_right, hkey i]

theorem mem_neighborKeys {int : ℤ → ℤ} (hint : Wrapping int) {key nkey : Key} :
    nkey ∈ neighborKeys int key ↔ Beside int key nkey := by
  have hstep (a : ℤ) (n : ℕ) : int (int (a + n) - 1) = int (a + (n - 1)) := by
    rw [sub_eq_add_neg, hint.add, add_assoc, ← sub_eq_add_neg]
  unfold neighborKeys
  simp only [hstep]
  rw [List.mem_map]
  constructor
  · rintro ⟨i, hi, rfl⟩ d
    have hlt := List.mem_range.mp hi
    fin_cases d
    · exact ⟨_, by rw [abs_le]; omega, rfl⟩
    · exact ⟨_, by rw [abs_le]; omega, rfl⟩
    · exact ⟨_, by rw [abs_le]; omega, rfl⟩
  · intro h
    obtain ⟨d0, hd0, h0⟩ := h 0
    obtain ⟨d1, hd1, h1⟩ := h 1
    obtain ⟨d2, hd2, h2⟩ := h 2
    rw [abs_le] at hd0 hd1 hd2
    obtain ⟨n, hn⟩ : ∃ n : ℕ, (n : ℤ) = 9 * (d0 + 1) + 3 * (d1 + 1) + (d2 + 1) := Int.eq_ofNat_of_zero_le (by omega) |>.imp
      fun n hn => hn.symm
    have hdiv0 : ((n / 9 : ℕ) : ℤ) - 1 = d0 := by omega
    have hdiv1 : ((n % 9 / 3 : ℕ) : ℤ) - 1 = d1 := by omega
    have hdiv2 : ((n % 9 % 3 : ℕ) : ℤ) - 1 = d2 := by omega
    refine ⟨n, List.mem_range.mpr (by omega), funext fun d => ?_⟩
    rw [hdiv0, hdiv1, hdiv2]
    fin_cases d
    · exact h0.symm
    · exact h1.symm
    · exact h2.symm

namespace KdNode

variable {root : KdNode} {key : Key} {id nid fuel nodeCount : Nat} {int : ℤ → ℤ}

def leafIds (root : KdNode) : List Nat := root.leaves.map Leaf.id

def adjacent (int : ℤ → ℤ) (root : KdNode) (id : Nat) : List Nat :=
  (root.leafKey id).elim [] fun key => (neighborKeys int key).filterMap root.findNode

/-- 葉の鍵と添字が互いに異なり、探索が正確である木。 -/
structure Indexed (root : KdNode) (nodeCount : Nat) : Prop where
  leafKey : ∀ id key, root.leafKey id = some key ↔ ∃ l ∈ root.leaves, l.id = id ∧ l.key = key
  findNode : ∀ key id, root.findNode key = some id ↔ ∃ l ∈ root.leaves, l.key = key ∧ l.id = id
  below : ∀ l ∈ root.leaves, l.id < nodeCount

theorem leafIds_sublist (root : KdNode) : root.leafIds.Sublist root.ids := by
  induction root with
  | leaf id key value => exact List.Sublist.refl _
  | branch id dim pivotValue child0 child1 ih0 ih1 =>
      have happend : (branch id dim pivotValue child0 child1).leafIds = child0.leafIds ++ child1.leafIds :=
        List.map_append
      rw [happend]
      exact (ih0.append ih1).cons id

/-- 添字が互いに異なれば、葉の鍵は添字から引ける。 -/
theorem leafKey_iff (hnodup : root.leafIds.Nodup) :
    root.leafKey id = some key ↔ ∃ l ∈ root.leaves, l.id = id ∧ l.key = key := by
  unfold leafKey
  rw [Option.map_eq_some_iff]
  constructor
  · rintro ⟨l, hl, hkey⟩
    exact ⟨l, List.mem_of_find?_eq_some hl, by simpa using List.find?_some hl, hkey⟩
  · rintro ⟨l, hl, hid, hkey⟩
    cases hfind : root.leaves.find? fun l => l.id = id with
    | none => exact absurd hid (by simpa using List.find?_eq_none.mp hfind l hl)
    | some l' =>
        have hid' : l'.id = id := by simpa using List.find?_some hfind
        have hsame : l' = l :=
          List.inj_on_of_nodup_map hnodup (List.mem_of_find?_eq_some hfind) hl (hid'.trans hid.symm)
        exact ⟨l', rfl, hsame ▸ hkey⟩

theorem Indexed.find_leafKey (h : root.Indexed nodeCount) : root.leafKey id = some key ↔ root.findNode key = some id := by
  rw [h.leafKey, h.findNode]
  constructor
  · rintro ⟨l, hl, hid, hkey⟩
    exact ⟨l, hl, hkey, hid⟩
  · rintro ⟨l, hl, hkey, hid⟩
    exact ⟨l, hl, hid, hkey⟩

theorem Indexed.mem_leafIds (h : root.Indexed nodeCount) : id ∈ root.leafIds ↔ ∃ key, root.leafKey id = some key := by
  rw [leafIds, List.mem_map]
  constructor
  · rintro ⟨l, hl, hid⟩
    exact ⟨l.key, (h.leafKey id l.key).mpr ⟨l, hl, hid, rfl⟩⟩
  · rintro ⟨key, hkey⟩
    obtain ⟨l, hl, hid, -⟩ := (h.leafKey id key).mp hkey
    exact ⟨l, hl, hid⟩

/-! ## 隣 -/

/-- 隣の葉は、鍵が隣にある葉である。 -/
theorem Indexed.mem_adjacent (hint : Wrapping int) (h : root.Indexed nodeCount) :
    nid ∈ adjacent int root id ↔
      ∃ key nkey, root.leafKey id = some key ∧ root.leafKey nid = some nkey ∧ Beside int key nkey := by
  unfold adjacent
  cases hkey : root.leafKey id with
  | none => simp
  | some key =>
      rw [Option.elim_some, List.mem_filterMap]
      constructor
      · rintro ⟨nkey, hnear, hfind⟩
        exact ⟨key, nkey, rfl, h.find_leafKey.mpr hfind, (mem_neighborKeys hint).mp hnear⟩
      · rintro ⟨key', nkey, hsame, hnkey, hnear⟩
        obtain rfl := Option.some.inj hsame
        exact ⟨nkey, (mem_neighborKeys hint).mpr hnear, h.find_leafKey.mp hnkey⟩

theorem Indexed.adjacent_symm (hint : Wrapping int) (h : root.Indexed nodeCount)
    (hfits : ∀ key ∈ root.keys, Fits int key) (id nid : Nat) (hmem : nid ∈ adjacent int root id) :
    id ∈ adjacent int root nid := by
  obtain ⟨key, nkey, hkey, hnkey, hbeside⟩ := (h.mem_adjacent hint).mp hmem
  obtain ⟨l, hl, -, hlkey⟩ := (h.leafKey id key).mp hkey
  have hfit : Fits int key := hfits key (hlkey ▸ List.mem_map_of_mem hl)
  exact (h.mem_adjacent hint).mpr ⟨nkey, key, hnkey, hkey, hbeside.symm hint hfit⟩

theorem Indexed.adjacent_leaf (hint : Wrapping int) (h : root.Indexed nodeCount) (hmem : nid ∈ adjacent int root id) :
    id ∈ root.leafIds ∧ nid ∈ root.leafIds := by
  obtain ⟨key, nkey, hkey, hnkey, -⟩ := (h.mem_adjacent hint).mp hmem
  exact ⟨h.mem_leafIds.mpr ⟨key, hkey⟩, h.mem_leafIds.mpr ⟨nkey, hnkey⟩⟩

/-! ## 番号づけ -/

/-- 列のどの点でも同じ一歩であれば、畳み込みも同じである。 -/
theorem foldlM_eq_of_mem {β γ : Type} {f g : β → γ → Option β} {l : List γ} (h : ∀ s, ∀ x ∈ l, f s x = g s x) (s : β) :
    l.foldlM f s = l.foldlM g s := by
  induction l generalizing s with
  | nil => rfl
  | cons x l ih =>
      rw [List.foldlM_cons, List.foldlM_cons, h s x List.mem_cons_self]
      exact bind_congr fun s' => ih (fun s y hy => h s y (List.mem_cons_of_mem x hy)) s'

/-- 葉からの番号づけは、隣の葉をたどる深さ優先の探索である。 -/
theorem Indexed.clusterNode_eq_flood (h : root.Indexed nodeCount) (hid : id ∈ root.leafIds) (cluster : Nat → Int) :
    clusterNode int root fuel id cluster = Lib.flood (adjacent int root) fuel id cluster := by
  induction fuel generalizing id cluster with
  | zero => rfl
  | succ fuel ih =>
      obtain ⟨key, hkey⟩ := h.mem_leafIds.mp hid
      have hnext : adjacent int root id = (neighborKeys int key).filterMap root.findNode := by
        rw [adjacent, hkey, Option.elim_some]
      rw [clusterNode, hkey, Lib.flood, hnext, List.foldlM_filterMap]
      refine foldlM_eq_of_mem (fun cluster nkey _ => ?_) cluster
      cases hfind : root.findNode nkey with
      | none => rfl
      | some nid =>
          dsimp only
          rw [Lib.visit, ih (h.mem_leafIds.mpr ⟨nkey, h.find_leafKey.mpr hfind⟩)]

theorem Indexed.queue_prefix (h : root.Indexed nodeCount) (cluster : Nat → Int) {n : Nat} (hn : n ≤ nodeCount) :
    ∃ cluster' queue, (List.range n).foldlM (queueLeaf root nodeCount) (cluster, []) = some (cluster', queue) ∧
      queue.length ≤ n ∧ (∀ i, i ∈ queue ↔ i < n ∧ i ∈ root.leafIds) ∧ ∀ i ∈ queue, cluster' i < 0 := by
  induction n with
  | zero =>
      refine ⟨cluster, [], rfl, Nat.le_refl _, fun i => ?_, fun i hi => absurd hi List.not_mem_nil⟩
      exact ⟨fun hi => absurd hi List.not_mem_nil, fun hi => absurd hi.1 (Nat.not_lt_zero i)⟩
  | succ n ih =>
      obtain ⟨cluster', queue, hrun, hlength, hmem, hneg⟩ := ih (Nat.le_of_succ_le hn)
      have hstep : (List.range (n + 1)).foldlM (queueLeaf root nodeCount) (cluster, []) =
          queueLeaf root nodeCount (cluster', queue) n := by
        rw [List.range_succ, List.foldlM_append, hrun]
        exact bind_pure (queueLeaf root nodeCount (cluster', queue) n)
      have hroom : queue.length < nodeCount := Nat.lt_of_le_of_lt hlength hn
      rw [hstep, queueLeaf]
      cases hkey : root.leafKey n with
      | none =>
          have hnot : n ∉ root.leafIds := fun hleaf => by
            obtain ⟨key, hsome⟩ := h.mem_leafIds.mp hleaf
            rw [hkey] at hsome
            cases hsome
          refine ⟨cluster', queue, rfl, Nat.le_succ_of_le hlength, fun i => ?_, hneg⟩
          rw [hmem, Nat.lt_succ_iff_lt_or_eq]
          constructor
          · exact fun hi => ⟨Or.inl hi.1, hi.2⟩
          · rintro ⟨hlt | rfl, hleaf⟩
            · exact ⟨hlt, hleaf⟩
            · exact absurd hleaf hnot
      | some key =>
          have hleaf : n ∈ root.leafIds := h.mem_leafIds.mpr ⟨key, hkey⟩
          refine ⟨Function.update cluster' n (-1), queue ++ [n], if_pos ⟨hroom, h.find_leafKey.mp hkey⟩, ?_,
            fun i => ?_, fun i hi => ?_⟩
          · rw [List.length_append, List.length_singleton]
            exact Nat.succ_le_succ hlength
          · rw [List.mem_append, List.mem_singleton, hmem, Nat.lt_succ_iff_lt_or_eq]
            constructor
            · rintro (hi | rfl)
              · exact ⟨Or.inl hi.1, hi.2⟩
              · exact ⟨Or.inr rfl, hleaf⟩
            · rintro ⟨hlt | rfl, hi⟩
              · exact Or.inl ⟨hlt, hi⟩
              · exact Or.inr rfl
          · by_cases hin : i = n
            · rw [hin, Function.update_self]
              exact neg_one_lt_zero
            · rw [Function.update_of_ne hin]
              exact hneg i ((List.mem_append.mp hi).resolve_right fun hsingle => hin (List.mem_singleton.mp hsingle))

/-- 列には葉がすべて並び、番号は消えている。 -/
theorem Indexed.queueLeaves (h : root.Indexed nodeCount) (cluster : Nat → Int) :
    ∃ cluster' queue, queueLeaves root nodeCount cluster = some (cluster', queue) ∧
      (∀ i, i ∈ queue ↔ i ∈ root.leafIds) ∧ ∀ i ∈ queue, cluster' i < 0 := by
  obtain ⟨cluster', queue, hrun, -, hmem, hneg⟩ := h.queue_prefix cluster (Nat.le_refl nodeCount)
  refine ⟨cluster', queue, hrun, fun i => ⟨fun hi => ((hmem i).mp hi).2, fun hi => (hmem i).mpr ⟨?_, hi⟩⟩, hneg⟩
  obtain ⟨l, hl, rfl⟩ := List.mem_map.mp hi
  exact h.below l hl

end KdNode

/-- 挿入された、隣り合う二つの鍵。 -/
def Linked (keys : List Key) (key nkey : Key) : Prop := key ∈ keys ∧ nkey ∈ keys ∧ Near key nkey

/-- 挿入された、`int` の計算で隣り合う二つの鍵。 -/
def Joined (int : ℤ → ℤ) (keys : List Key) (key nkey : Key) : Prop := key ∈ keys ∧ nkey ∈ keys ∧ Beside int key nkey

theorem joined_id (keys : List Key) : Joined id keys = Linked keys := by
  funext key nkey
  rw [Joined, Linked, beside_id]

theorem joined_congr {int : ℤ → ℤ} {keys keys' : List Key} (h : ∀ k, k ∈ keys ↔ k ∈ keys') :
    Joined int keys = Joined int keys' := by
  funext key nkey
  rw [Joined, Joined, h, h]

namespace KdNode

variable {root : KdNode} {nodeCount fuel : Nat} {int : ℤ → ℤ}

/-- 隣の葉をたどる道は、挿入された鍵をたどる道である。 -/
theorem Indexed.joined_iff (hint : Wrapping int) (h : root.Indexed nodeCount) (hkeys : root.keys.Nodup) {l l' : Leaf}
    (hl : l ∈ root.leaves) (hl' : l' ∈ root.leaves) :
    Relation.ReflTransGen (fun a b => b ∈ adjacent int root a) l.id l'.id ↔
      Relation.ReflTransGen (Joined int root.keys) l.key l'.key := by
  have hself (l : Leaf) (hl : l ∈ root.leaves) : root.leafKey l.id = some l.key :=
    (h.leafKey l.id l.key).mpr ⟨l, hl, rfl, rfl⟩
  constructor
  · intro hpath
    have hgo (id : Nat) (hreach : Relation.ReflTransGen (fun a b => b ∈ adjacent int root a) l.id id) :
        ∃ key, root.leafKey id = some key ∧ Relation.ReflTransGen (Joined int root.keys) l.key key := by
      induction hreach with
      | refl => exact ⟨l.key, hself l hl, Relation.ReflTransGen.refl⟩
      | tail _ hedge ih =>
          obtain ⟨key, hkey, hto⟩ := ih
          obtain ⟨key', nkey, hkey', hnkey, hbeside⟩ := (h.mem_adjacent hint).mp hedge
          obtain rfl : key = key' := Option.some.inj (hkey.symm.trans hkey')
          obtain ⟨a, ha, -, hakey⟩ := (h.leafKey _ key).mp hkey
          obtain ⟨b, hb, -, hbkey⟩ := (h.leafKey _ nkey).mp hnkey
          exact ⟨nkey, hnkey, hto.tail ⟨hakey ▸ List.mem_map_of_mem ha, hbkey ▸ List.mem_map_of_mem hb, hbeside⟩⟩
    obtain ⟨key, hkey, hto⟩ := hgo l'.id hpath
    obtain rfl := Option.some.inj (hkey.symm.trans (hself l' hl'))
    exact hto
  · intro hpath
    have hgo (key : Key) (hreach : Relation.ReflTransGen (Joined int root.keys) l.key key) :
        ∃ a ∈ root.leaves, a.key = key ∧ Relation.ReflTransGen (fun a b => b ∈ adjacent int root a) l.id a.id := by
      induction hreach with
      | refl => exact ⟨l, hl, rfl, Relation.ReflTransGen.refl⟩
      | tail _ hedge ih =>
          obtain ⟨a, ha, hakey, hto⟩ := ih
          obtain ⟨-, hmem, hbeside⟩ := hedge
          obtain ⟨b, hb, hbkey⟩ := List.mem_map.mp hmem
          have hadjacent : b.id ∈ adjacent int root a.id :=
            (h.mem_adjacent hint).mpr ⟨a.key, b.key, hself a ha, hself b hb, by rwa [hakey, hbkey]⟩
          exact ⟨b, hb, hbkey, hto.tail hadjacent⟩
    obtain ⟨a, ha, hakey, hto⟩ := hgo l'.key hpath
    obtain rfl := List.inj_on_of_nodup_map hkeys ha hl' hakey
    exact hto

end KdNode

namespace KdTree

variable {root : KdNode} {counts : Counts} {done : List (Key × ℝ)} {fuel maxSamples : Nat} {int : ℤ → ℤ}
  {poses : List (PfVector × ℝ)}

theorem Counted.indexed (h : Counted root counts done) : root.Indexed counts.nodeCount where
  leafKey _ _ := KdNode.leafKey_iff ((root.leafIds_sublist).nodup (h.ids.nodup_iff.mpr List.nodup_range))
  findNode _ _ := h.sorted.findNode_iff h.nodup
  below _ hl := List.mem_range.mp (h.ids.mem_iff.mp ((root.leafIds_sublist).subset (List.mem_map_of_mem hl)))

theorem Counted.leafIds_card (h : Counted root counts done) : root.leafIds.toFinset.card ≤ counts.leafCount := by
  have hlength : root.leafIds.length = root.keys.length := by
    rw [KdNode.leafIds, KdNode.keys, List.length_map, List.length_map]
  rw [h.leafCount, ← hlength]
  exact List.toFinset_card_le root.leafIds

/-- 番号は 0 から `count` の前までで、鍵が `link` で繋がる葉どうしで等しい。 -/
structure Clustered (leaves : List Leaf) (link : Key → Key → Prop) (label : Nat → Int) (count : Nat) : Prop where
  range : ∀ l ∈ leaves, 0 ≤ label l.id ∧ label l.id < count
  used : ∀ k < count, ∃ l ∈ leaves, label l.id = k
  same : ∀ l ∈ leaves, ∀ l' ∈ leaves, label l.id = label l'.id ↔ Relation.ReflTransGen link l.key l'.key

theorem Clustered.count_le {leaves : List Leaf} {link : Key → Key → Prop} {label : Nat → Int} {count : Nat}
    (h : Clustered leaves link label count) : count ≤ leaves.length := by
  have hsub : Finset.range count ⊆ (leaves.map fun l => (label l.id).toNat).toFinset := by
    intro k hk
    obtain ⟨l, hl, hlabel⟩ := h.used k (Finset.mem_range.mp hk)
    rw [List.mem_toFinset]
    exact List.mem_map.mpr ⟨l, hl, by rw [hlabel, Int.toNat_natCast]⟩
  have hcard := Finset.card_le_card hsub
  rw [Finset.card_range] at hcard
  exact hcard.trans ((List.toFinset_card_le _).trans_eq (List.length_map _))

/-- 葉の数だけの段数があれば、番号づけは終わり、番号は連結成分ごとに一つである。 -/
theorem Counted.cluster (hint : Wrapping int) (h : Counted root counts done) (hfits : ∀ p ∈ done, Fits int p.1)
    (hfuel : counts.leafCount ≤ fuel) (old : Nat → Int) :
    ∃ label count, KdTree.cluster int fuel ⟨some root, counts⟩ old = some (label, count) ∧
      Clustered root.leaves (Joined int (done.map Prod.fst)) label count := by
  have hindexed := h.indexed
  have hkeys (key : Key) (hkey : key ∈ root.keys) : Fits int key := by
    obtain ⟨p, hp, rfl⟩ := List.mem_map.mp ((h.mem_keys key).mp hkey)
    exact hfits p hp
  obtain ⟨start, queue, hqueue, hmem, hneg⟩ := hindexed.queueLeaves old
  have hV (id : Nat) : id ∈ root.leafIds.toFinset ↔ id ∈ root.leafIds := List.mem_toFinset
  have hclosed : ∀ id ∈ root.leafIds.toFinset, ∀ nid ∈ KdNode.adjacent int root id, nid ∈ root.leafIds.toFinset :=
    fun id _ nid hnid => (hV nid).mpr (hindexed.adjacent_leaf hint hnid).2
  have hempty : ∀ id, KdNode.adjacent int root id ≠ [] → id ∈ root.leafIds.toFinset := by
    intro id hne
    obtain ⟨nid, hnid⟩ := List.exists_mem_of_ne_nil _ hne
    exact (hV id).mpr (hindexed.adjacent_leaf hint hnid).1
  have hreverse : ∀ id ∈ queue.reverse, id ∈ root.leafIds.toFinset :=
    fun id hid => (hV id).mpr ((hmem id).mp (List.mem_reverse.mp hid))
  obtain ⟨label, count, hflood, hlabelled, -, hall⟩ := Lib.floodAll_labelled (hindexed.adjacent_symm hint hkeys) hclosed
    hempty hreverse (Lib.Labelled.start fun id hid => hneg id ((hmem id).mpr ((hV id).mp hid)))
    (h.leafIds_card.trans hfuel)
  have hlabel : ∀ id ∈ root.leafIds.toFinset, 0 ≤ label id :=
    fun id hid => hall id (List.mem_reverse.mpr ((hmem id).mpr ((hV id).mp hid)))
  have hleaf (l : Leaf) (hl : l ∈ root.leaves) : l.id ∈ root.leafIds.toFinset := (hV l.id).mpr (List.mem_map_of_mem hl)
  have hrun : KdTree.cluster int fuel ⟨some root, counts⟩ old = some (label, count) := by
    simp only [KdTree.cluster, hqueue, Option.bind_eq_bind, Option.bind_some]
    rw [← hflood, Lib.floodAll]
    refine KdNode.foldlM_eq_of_mem (fun s id hid => ?_) _
    rw [hindexed.clusterNode_eq_flood ((hmem id).mp (List.mem_reverse.mp hid))]
  refine ⟨label, count, hrun, ⟨fun l hl => ⟨hlabel l.id (hleaf l hl), hlabelled.range l.id (hleaf l hl)⟩,
    fun k hk => ?_, fun l hl l' hl' => ?_⟩⟩
  · obtain ⟨id, hid, hk⟩ := hlabelled.used k hk
    obtain ⟨l, hl, rfl⟩ := List.mem_map.mp ((hV id).mp hid)
    exact ⟨l, hl, hk⟩
  · rw [hlabelled.eq_iff hclosed hlabel (hleaf l hl) (hleaf l' hl'), hindexed.joined_iff hint h.nodup hl hl',
      joined_congr h.mem_keys]

/-! ## 挿入の列 -/

/-- `pf_alloc` が木に与える節の数。 -/
def capacity (maxSamples : Nat) : Nat := (int32 (3 * maxSamples)).toNat

noncomputable def poseKeys (poses : List (PfVector × ℝ)) : List Key := poses.map fun p => kdKey p.1

/-- 木が、挿入した値を鍵ごとに数え、番号づけが、鍵の連結成分に番号をつける。 -/
structure Tallies (maxSamples : Nat) (poses : List (PfVector × ℝ)) (t : KdTree) : Prop where
  room : t.counts.nodeCount ≤ 3 * maxSamples
  nodup : (t.leaves.map Leaf.key).Nodup
  value : ∀ l ∈ t.leaves, l.value = ((poses.filter fun p => kdKey p.1 = l.key).map Prod.snd).sum
  leafCount : t.counts.leafCount = (poseKeys poses).toFinset.card
  keys : ∀ key, (∃ l ∈ t.leaves, l.key = key) ↔ key ∈ poseKeys poses
  find : ∀ root, t.root = some root → ∀ key id,
    root.findNode key = some id ↔ ∃ l ∈ t.leaves, l.key = key ∧ l.id = id
  cluster : ∀ fuel, t.counts.leafCount ≤ fuel → ∀ old, ∃ label count,
    t.cluster int32 fuel old = some (label, count) ∧ Clustered t.leaves (Linked (poseKeys poses)) label count

theorem Tallies.sorted {t : KdTree} (h : Tallies maxSamples poses t) : t.Sorted := by
  intro root hroot
  have hleaves : t.leaves = root.leaves := by rw [KdTree.leaves, hroot, Option.elim_some]
  have hnodup := h.nodup
  rw [hleaves] at hnodup
  refine KdNode.sorted_of_findNode hnodup fun key hkey => ?_
  obtain ⟨l, hl, rfl⟩ := List.mem_map.mp hkey
  exact ⟨l.id, (h.find root hroot l.key l.id).mpr ⟨l, hleaves ▸ hl, rfl, rfl⟩⟩

theorem map_fst_keys (poses : List (PfVector × ℝ)) :
    (poses.map fun p => (kdKey p.1, p.2)).map Prod.fst = poseKeys poses := by
  rw [poseKeys, List.map_map]
  rfl

/-- 数えた木は、番号づけのほかの性質をみたす。 -/
theorem Counted.tallies (h : Counted root counts (poses.map fun p => (kdKey p.1, p.2)))
    (hlength : poses.length ≤ maxSamples)
    (hcluster : ∀ fuel, counts.leafCount ≤ fuel → ∀ old, ∃ label count,
      KdTree.cluster int32 fuel ⟨some root, counts⟩ old = some (label, count) ∧
        Clustered root.leaves (Linked (poseKeys poses)) label count) :
    Tallies maxSamples poses ⟨some root, counts⟩ := by
  have hsum (key : Key) : inserted (poses.map fun p => (kdKey p.1, p.2)) key =
      ((poses.filter fun p => kdKey p.1 = key).map Prod.snd).sum := by
    rw [inserted, List.filter_map, List.map_map]
    rfl
  have hnodeCount := h.nodeCount
  have hmem := h.mem_keys
  rw [List.length_map] at hnodeCount
  rw [map_fst_keys] at hmem
  refine ⟨by dsimp only; omega, h.nodup, fun l hl => ?_, ?_, fun key => List.mem_map.symm.trans (hmem key),
    fun root' hroot => ?_, hcluster⟩
  · rw [← hsum, ← h.mass]
    exact (KdNode.mass_eq_value h.nodup hl).symm
  · have hset : root.keys.toFinset = (poseKeys poses).toFinset := by
      ext key
      rw [List.mem_toFinset, List.mem_toFinset, hmem]
    rw [← hset, List.toFinset_card_of_nodup h.nodup, h.leafCount]
  · obtain rfl := Option.some.inj hroot
    exact h.indexed.findNode

theorem tallies_clear (maxSamples : Nat) : Tallies maxSamples [] clear := by
  have hleaf (l : Leaf) : l ∉ KdTree.leaves clear := List.not_mem_nil
  refine ⟨Nat.zero_le _, List.nodup_nil, fun l hl => absurd hl (hleaf l), rfl, fun key => ?_,
    fun root hroot => (by cases hroot), fun fuel _ old => ⟨old, 0, rfl, ⟨fun l hl => absurd hl (hleaf l),
      fun k hk => absurd hk (Nat.not_lt_zero k), fun l hl => absurd hl (hleaf l)⟩⟩⟩
  constructor
  · rintro ⟨l, hl, -⟩
    exact absurd hl (hleaf l)
  · exact fun hkey => absurd hkey List.not_mem_nil

/-- `int` の計算での隣が、どれも挿入された鍵をたどって繋がる。 -/
def JoinsLinked (poses : List (PfVector × ℝ)) : Prop :=
  ∀ key ∈ poseKeys poses, ∀ nkey ∈ poseKeys poses, nkey ∈ neighborKeys int32 key →
    Relation.ReflTransGen (Linked (poseKeys poses)) key nkey

theorem JoinsLinked.reflTransGen_iff (h : JoinsLinked poses) (hfits : ∀ key ∈ poseKeys poses, Fits int32 key)
    (key nkey : Key) : Relation.ReflTransGen (Joined int32 (poseKeys poses)) key nkey ↔
      Relation.ReflTransGen (Linked (poseKeys poses)) key nkey := by
  constructor
  · intro hpath
    induction hpath with
    | refl => exact Relation.ReflTransGen.refl
    | tail _ hedge ih =>
        exact ih.trans (h _ hedge.1 _ hedge.2.1 ((mem_neighborKeys Wrapping.machine).mpr hedge.2.2))
  · intro hpath
    have hle : Linked (poseKeys poses) ≤ Joined int32 (poseKeys poses) :=
      fun a b hedge => ⟨hedge.1, hedge.2.1, Beside.of_near (hfits b hedge.2.1) hedge.2.2⟩
    exact Relation.ReflTransGen.mono hle key nkey hpath

theorem AdmitsAll.fits {t : KdTree} {nodeMaxCount : Nat} (hint : Wrapping int) (hist : t.Histogram done)
    (h : AdmitsAll int nodeMaxCount poses t) : ∀ key ∈ poseKeys poses, Fits int key := by
  induction poses generalizing t done with
  | nil => exact fun key hkey => absurd hkey List.not_mem_nil
  | cons p poses ih =>
      obtain ⟨t₁, hrun, h₁⟩ := hist.insert hint p.2 h.1
      intro key hkey
      rcases List.mem_cons.mp hkey with rfl | hkey
      · exact h.1.1
      · exact ih h₁ (h.2 t₁ hrun) key hkey

theorem histogram_clear : clear.Histogram [] := ⟨rfl, rfl⟩

/-- 挿入の列のあと、木は鍵ごとの和を数え、番号づけは、挿入された鍵の連結成分に番号をつける。それは、どの挿入も木に受け入れられ、`int` の
折り返しが繋がらない鍵を隣にしないとき、そのときに限る。 -/
theorem insertAll_tallies_iff (h : poses.length ≤ maxSamples) :
    (∃ t, insertAll int32 (capacity maxSamples) poses clear = some t ∧ Tallies maxSamples poses t) ↔
      AdmitsAll int32 (capacity maxSamples) poses clear ∧ JoinsLinked poses := by
  constructor
  · rintro ⟨t, hrun, htallies⟩
    have hadmits := histogram_clear.admitsAll_of_insertAll Wrapping.machine
      (fun p hp => absurd hp List.not_mem_nil) hrun htallies.sorted
    refine ⟨hadmits, fun key hkey nkey hnkey hbeside => ?_⟩
    obtain ⟨t', hrun', hist⟩ := histogram_clear.insertAll Wrapping.machine poses hadmits
    obtain rfl := Option.some.inj (hrun.symm.trans hrun')
    obtain ⟨l, hl, rfl⟩ := (htallies.keys key).mpr hkey
    obtain ⟨l', hl', rfl⟩ := (htallies.keys nkey).mpr hnkey
    have hfits := AdmitsAll.fits Wrapping.machine histogram_clear hadmits
    obtain ⟨root, counts⟩ := t
    cases root with
    | none => exact absurd hl List.not_mem_nil
    | some root =>
        have hcounted : Counted root counts (poses.map fun p => (kdKey p.1, p.2)) := hist
        obtain ⟨label, count, hcluster, hjoined⟩ := hcounted.cluster Wrapping.machine
          (fun p hp => hfits _ (map_fst_keys poses ▸ List.mem_map_of_mem hp)) (Nat.le_refl _) fun _ => 0
        obtain ⟨label', count', hcluster', hlinked⟩ := htallies.cluster _ (Nat.le_refl _) fun _ => 0
        rw [map_fst_keys] at hjoined
        cases hcluster.symm.trans hcluster'
        exact (hlinked.same l hl l' hl').mp ((hjoined.same l hl l' hl').mpr
          (Relation.ReflTransGen.single ⟨hkey, hnkey, (mem_neighborKeys Wrapping.machine).mp hbeside⟩))
  · rintro ⟨hadmits, hjoins⟩
    obtain ⟨t, hrun, hist⟩ := histogram_clear.insertAll Wrapping.machine poses hadmits
    refine ⟨t, hrun, ?_⟩
    have hfits := AdmitsAll.fits Wrapping.machine histogram_clear hadmits
    obtain ⟨root, counts⟩ := t
    cases root with
    | none =>
        obtain ⟨hnil, hcounts⟩ := hist
        obtain rfl := List.map_eq_nil_iff.mp hnil
        obtain rfl : counts = ⟨0, 0⟩ := hcounts
        exact tallies_clear maxSamples
    | some root =>
        have hcounted : Counted root counts (poses.map fun p => (kdKey p.1, p.2)) := hist
        refine hcounted.tallies h fun fuel hfuel old => ?_
        obtain ⟨label, count, hcluster, hjoined⟩ := hcounted.cluster Wrapping.machine
          (fun p hp => hfits _ (map_fst_keys poses ▸ List.mem_map_of_mem hp)) hfuel old
        rw [map_fst_keys] at hjoined
        refine ⟨label, count, hcluster, hjoined.range, hjoined.used, fun l hl l' hl' => ?_⟩
        rw [hjoined.same l hl l' hl', hjoins.reflTransGen_iff hfits]

/-- 成分が 2 の 30 乗より小さい鍵ばかりのとき、どの挿入も受け入れられ、隣は折り返さない。 -/
theorem admits_of_small (hsmall : ∀ key ∈ poseKeys poses, ∀ i, |key i| < 1073741824) (hlength : poses.length ≤ maxSamples)
    (hroom : maxSamples ≤ 715827882) :
    AdmitsAll int32 (capacity maxSamples) poses clear ∧ JoinsLinked poses := by
  have hfits (key : Key) (hkey : ∀ i, |key i| < 1073741824) : Fits int32 key := by
    intro i
    have hi := abs_lt.mp (hkey i)
    exact int32_eq_self_iff.mpr (by omega)
  constructor
  · refine histogram_clear.admitsAll Wrapping.machine hfits (fun key nodeKey => KdNode.parts_int32) poses
      (fun p hp => absurd hp List.not_mem_nil) (fun p hp => hsmall _ (List.mem_map_of_mem hp)) ?_
    have hcapacity : int32 (3 * maxSamples) = 3 * maxSamples := int32_eq_self_iff.mpr (by omega)
    rw [capacity, hcapacity, List.length_nil]
    omega
  · intro key hkey nkey hnkey hbeside
    refine Relation.ReflTransGen.single ⟨hkey, hnkey, beside_id.mp fun i => ?_⟩
    obtain ⟨d, hd, heq⟩ := (mem_neighborKeys Wrapping.machine).mp hbeside i
    have hi := abs_lt.mp (hsmall key hkey i)
    have hd' := abs_le.mp hd
    rw [int32_eq_self_iff.mpr (by omega : -2147483648 ≤ key i + d ∧ key i + d < 2147483648)] at heq
    exact ⟨d, hd, heq⟩

theorem kdKey_axis (x : ℝ) : kdKey ⟨x, 0, 0⟩ = ![⌊x / 0.5⌋, 0, 0] := by
  simp [kdKey]

-- 同じ升目の二つの姿勢と、離れた姿勢を続けて挿入する。
theorem insertAll_tallies_iff_three :
    ([(⟨0, 0, 0⟩, 0.5), (⟨1, 0, 0⟩, 0.3), (⟨0.1, 0, 0⟩, 0.2)] : List (PfVector × ℝ)).length ≤ 3 ∧
      ∃ t, insertAll int32 (capacity 3) [(⟨0, 0, 0⟩, 0.5), (⟨1, 0, 0⟩, 0.3), (⟨0.1, 0, 0⟩, 0.2)] clear = some t ∧
        Tallies 3 [(⟨0, 0, 0⟩, 0.5), (⟨1, 0, 0⟩, 0.3), (⟨0.1, 0, 0⟩, 0.2)] t := by
  have hfirst : ⌊(1 : ℝ) / 0.5⌋ = 2 := by norm_num
  have hsecond : ⌊(0.1 : ℝ) / 0.5⌋ = 0 := by norm_num
  refine ⟨Nat.le_refl 3, (insertAll_tallies_iff (Nat.le_refl 3)).mpr (admits_of_small ?_ (Nat.le_refl 3) (by decide))⟩
  intro key hkey i
  simp only [poseKeys, List.map_cons, List.map_nil, kdKey_axis, zero_div, Int.floor_zero, hfirst, hsecond,
    List.mem_cons, List.not_mem_nil, or_false] at hkey
  rcases hkey with rfl | rfl | rfl
  · fin_cases i <;> decide
  · fin_cases i <;> decide
  · fin_cases i <;> decide

-- 鍵の和が `int` を超える二つの姿勢を続けて挿入すると、初めの姿勢の葉が見つからない。
theorem insertAll_tallies_overflow :
    ¬ ∃ t, insertAll int32 (capacity 2) [(⟨600000000, 0, 0⟩, 0.5), (⟨600000001, 0, 0⟩, 0.5)] clear = some t ∧
      Tallies 2 [(⟨600000000, 0, 0⟩, 0.5), (⟨600000001, 0, 0⟩, 0.5)] t := by
  rintro ⟨t, hrun, htallies⟩
  have hfirst : kdKey ⟨600000000, 0, 0⟩ = ![1200000000, 0, 0] := by
    rw [kdKey_axis]
    norm_num
  have hsecond : kdKey ⟨600000001, 0, 0⟩ = ![1200000002, 0, 0] := by
    rw [kdKey_axis]
    norm_num
  have hadmits := histogram_clear.admitsAll_of_insertAll Wrapping.machine
    (fun p hp => absurd hp List.not_mem_nil) hrun htallies.sorted
  obtain ⟨t₁, hrun₁, hist⟩ := histogram_clear.insert Wrapping.machine 0.5 hadmits.1
  have hsplit := (hadmits.2 t₁ hrun₁).1.2
  unfold Histogram at hist
  cases hroot : t₁.root with
  | none =>
      rw [hroot] at hist
      exact absurd hist.1 (List.cons_ne_nil _ _)
  | some node =>
      rw [hroot] at hist hsplit
      have hroute : node.route (kdKey ⟨600000001, 0, 0⟩) = ![1200000000, 0, 0] := by
        have hmem := (hist.mem_keys _).mp (node.route_mem (kdKey ⟨600000001, 0, 0⟩))
        rw [← hfirst]
        exact List.mem_singleton.mp hmem
      dsimp only at hsplit
      rw [hroute, hsecond] at hsplit
      rcases hsplit with heq | ⟨⟨dim, hdim, hsum⟩, -⟩
      · exact absurd (congrFun heq 0) (by decide)
      · obtain rfl : (0 : Fin 3) = dim := Option.some.inj (Eq.trans (by decide) hdim)
        exact absurd hsum (by decide)

end KdTree

end Ranger.Amcl
