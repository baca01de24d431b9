import Mathlib.Data.List.Nodup
import Mathlib.Data.List.Perm.Subperm
import Mathlib.Data.Nat.ModEq
import Ranger.BehaviorTree.ControlNode

/-!
# 子を順番に試す節

`nav2_behavior_tree` の `plugins/control/round_robin_node.cpp`。成功した子の次の子から始め、失敗した子の次の子に移る。続けて全ての子が失敗すると、節も失敗する。
-/

namespace Ranger.BehaviorTree
open Ranger.Lib

variable {σ : Type}

structure RoundRobinNode where
  currentChildIdx : ℕ
  numFailedChildren : ℕ
deriving DecidableEq, Repr

namespace RoundRobinNode

/-- `++current_child_idx_` の後、最後の子の次は最初の子である。 -/
def wrapAround (size i : ℕ) : ℕ := if i + 1 ≥ size then 0 else i + 1

def halt (c : Children σ) (state : σ) : RoundRobinNode × σ :=
  (⟨0, 0⟩, ((Execution.mk state []).haltChildren c).state)

/-- `while` の繰り返し。`fuel` 回のうちに終わらないとき `none` である。 -/
def tickLoop (c : Children σ) : ℕ → RoundRobinNode → Execution σ → Option (Except Exception (Ticked RoundRobinNode σ))
  | 0, _, _ => none
  | fuel + 1, node, x =>
    if node.numFailedChildren < c.size then
      let childStatus := (c.executeTick node.currentChildIdx x.state).1
      let x := x.executeTick c node.currentChildIdx
      match childStatus with
      | .success => some (.ok ⟨.success, ⟨wrapAround c.size node.currentChildIdx, 0⟩, x.haltChildren c⟩)
      | .failure => tickLoop c fuel ⟨wrapAround c.size node.currentChildIdx, node.numFailedChildren + 1⟩ x
      | .running => some (.ok ⟨.running, node, x⟩)
      | .idle => some (.error (.logicError "Invalid status return from BT node"))
    else some (.ok ⟨.failure, (halt c x.state).1, x.haltChildren c⟩)

def tick (c : Children σ) (node : RoundRobinNode) (state : σ) :
    Option (Except Exception (Ticked RoundRobinNode σ)) :=
  tickLoop c (c.size + 1) node ⟨state, []⟩

def controlNode (c : Children σ) : ControlNode RoundRobinNode σ where
  tick := tick c
  halt _ := halt c

def initial (state : σ) : System RoundRobinNode σ where
  node := ⟨0, 0⟩
  state := state
  since := []
  calls := []
  status := .idle

/-! ## 子の結果の列 -/

variable {c : Children σ} {node : RoundRobinNode} {x : Execution σ} {h since calls : List ChildTick}
  {size i fuel : ℕ} {status : NodeStatus}

/-- 子 `start` から順に `k` 個の子の番号。 -/
def cycle (size start k : ℕ) : List ℕ := (List.range k).map fun j => (start + j) % size

def failed (h : List ChildTick) : List ℕ := (h.filter fun e => e.2 = .failure).map Prod.fst

theorem wrapAround_eq (hi : i < size) : wrapAround size i = (i + 1) % size := by
  rw [wrapAround]
  split_ifs with hge
  · rw [show i + 1 = size by omega, Nat.mod_self]
  · rw [Nat.mod_eq_of_lt (by omega)]

theorem cycle_succ (size start k : ℕ) : cycle size start (k + 1) = cycle size start k ++ [(start + k) % size] := by
  rw [cycle, List.range_succ, List.map_append, List.map_singleton, ← cycle]

/-- 一回りの間、どの子も高々一度だけ現れる。 -/
theorem cycle_nodup (start : ℕ) {k : ℕ} (hk : k ≤ size) : (cycle size start k).Nodup := by
  refine List.Nodup.map_on (fun a ha b hb hab => ?_) List.nodup_range
  rw [List.mem_range] at ha hb
  have hmod : a % size = b % size := Nat.ModEq.add_left_cancel' start hab
  rwa [Nat.mod_eq_of_lt (by omega), Nat.mod_eq_of_lt (by omega)] at hmod

/-- 次の子は、一回りが終わるまで、回った子の中にない。 -/
theorem notMem_cycle {start k : ℕ} (hk : k < size) : (start + k) % size ∉ cycle size start k := by
  have hnodup := cycle_nodup start (Nat.succ_le_of_lt hk)
  rw [cycle_succ, List.nodup_append] at hnodup
  exact fun hmem => hnodup.2.2 _ hmem _ List.mem_cons_self rfl

theorem mem_failed : i ∈ failed h ↔ (i, .failure) ∈ h := by
  simp [failed]

theorem failed_append_failure (h : List ChildTick) (i : ℕ) : failed (h ++ [(i, .failure)]) = failed h ++ [i] := by
  simp [failed]

theorem failed_append_of_ne (hst : status ≠ .failure) : failed (h ++ [(i, status)]) = failed h := by
  simp [failed, hst]

/-- 一回りの中にない子があるのは、回った子の数が足りないとき、そのときだけである。 -/
theorem forall_mem_cycle_iff {start k : ℕ} (hk : k ≤ size) : (∀ i < size, i ∈ cycle size start k) ↔ k = size := by
  have hlength : (cycle size start k).length = k := by rw [cycle, List.length_map, List.length_range]
  have hrange (i : ℕ) (hi : i ∈ cycle size start k) : i < size := by
    obtain ⟨j, hj, rfl⟩ := List.mem_map.mp hi
    exact Nat.mod_lt _ (Nat.lt_of_lt_of_le (Nat.zero_lt_of_lt (List.mem_range.mp hj)) hk)
  constructor
  · intro hall
    have hsub : List.range size ⊆ cycle size start k := fun i hi => hall i (List.mem_range.mp hi)
    have hle := (List.nodup_range.subperm hsub).length_le
    rw [List.length_range, hlength] at hle
    exact Nat.le_antisymm hk hle
  · intro heq i hi
    have hsub : cycle size start k ⊆ List.range size := fun j hj => List.mem_range.mpr (hrange j hj)
    have hperm := ((cycle_nodup start hk).subperm hsub).perm_of_length_le (by rw [List.length_range, hlength, heq])
    exact hperm.mem_iff.mpr (List.mem_range.mpr hi)

/-- 後の結果は、前に失敗した子のものではない。 -/
def Fresh (h : List ChildTick) : Prop := h.Pairwise fun a b => a.2 = .failure → a.1 ≠ b.1

/-- リセットから後の結果の列が `h` のとき、失敗した子は、今の子の手前までの一回りであり、二度と動いていない。 -/
structure Failures (size : ℕ) (node : RoundRobinNode) (h : List ChildTick) : Prop where
  cycled : ∃ start, failed h = cycle size start node.numFailedChildren ∧
    node.currentChildIdx = (start + node.numFailedChildren) % size
  le : node.numFailedChildren ≤ size
  fresh : Fresh h
  noSuccess : ∀ i, (i, .success) ∉ h

/-- `tick` の合間の節。 -/
structure Good (size : ℕ) (node : RoundRobinNode) (h : List ChildTick) : Prop extends Failures size node h where
  lt : 0 < size → node.numFailedChildren < size

/-- 番号 `first` の子から始めた `tick` の途中。 -/
structure Partway (size first : ℕ) (node : RoundRobinNode) (since calls : List ChildTick) : Prop extends
    Failures size node (since ++ calls) where
  order : calls.map Prod.fst = cycle size first calls.length
  fails : ∀ call ∈ calls, call.2 = .failure
  child : node.currentChildIdx = (first + calls.length) % size

structure Verdict (size : ℕ) (node : RoundRobinNode) (since : List ChildTick) (r : Ticked RoundRobinNode σ) :
    Prop where
  noIdle : r.status ≠ .idle
  running : r.status = .running → Good size r.node (since ++ r.execution.calls)
  resume : r.status = .running → r.execution.calls.getLast? = some (r.node.currentChildIdx, .running)
  success : r.status = .success ↔ ∃ i, (i, .success) ∈ r.execution.calls
  next : r.status = .success → ∃ i, (i, .success) ∈ r.execution.calls ∧ r.node = ⟨(i + 1) % size, 0⟩
  failure : r.status = .failure ↔ ∀ i < size, (i, .failure) ∈ since ++ r.execution.calls
  reset : r.status = .failure → r.node = ⟨0, 0⟩
  order : r.execution.calls.map Prod.fst = cycle size node.currentChildIdx r.execution.calls.length
  lap : r.execution.calls.length ≤ size
  proceeds : ∀ call ∈ r.execution.calls.dropLast, call.2 = .failure
  once : Fresh (since ++ r.execution.calls)

/-! ## 一つの子の結果 -/

theorem Failures.start (hidx : i % size = i) : Failures size ⟨i, 0⟩ [] where
  cycled := ⟨i, rfl, hidx.symm⟩
  le := Nat.zero_le size
  fresh := List.Pairwise.nil
  noSuccess _ := List.not_mem_nil

theorem Good.start (hidx : i % size = i) : Good size ⟨i, 0⟩ [] where
  toFailures := Failures.start hidx
  lt hsize := hsize

theorem Failures.mod_child (hfail : Failures size node h) : node.currentChildIdx % size = node.currentChildIdx := by
  obtain ⟨start, -, hidx⟩ := hfail.cycled
  rw [hidx, Nat.mod_mod]

/-- 今の子は、まだ失敗していない。 -/
theorem Failures.fresh_append (hfail : Failures size node h) (hlt : node.numFailedChildren < size)
    (status : NodeStatus) : Fresh (h ++ [(node.currentChildIdx, status)]) := by
  obtain ⟨start, heq, hidx⟩ := hfail.cycled
  refine List.pairwise_append.mpr ⟨hfail.fresh, List.pairwise_singleton _ _, fun a ha b hb hst hsame => ?_⟩
  rw [List.mem_singleton.mp hb] at hsame
  have hmem : a.1 ∈ failed h := mem_failed.mpr (by rw [← hst]; exact ha)
  rw [heq, hsame, hidx] at hmem
  exact notMem_cycle hlt hmem

theorem Failures.all_iff (hfail : Failures size node h) :
    (∀ i < size, (i, .failure) ∈ h) ↔ node.numFailedChildren = size := by
  obtain ⟨start, heq, -⟩ := hfail.cycled
  simp only [← mem_failed, heq]
  exact forall_mem_cycle_iff hfail.le

theorem Partway.start (hgood : Good size node since) : Partway size node.currentChildIdx node since [] where
  cycled := by
    rw [List.append_nil]
    exact hgood.cycled
  le := hgood.le
  fresh := by
    rw [List.append_nil]
    exact hgood.fresh
  noSuccess i := by
    rw [List.append_nil]
    exact hgood.noSuccess i
  order := rfl
  fails call hcall := absurd hcall List.not_mem_nil
  child := hgood.mod_child.symm

section Partway

variable {first : ℕ}

theorem Partway.order_append (hpart : Partway size first node since calls) (status : NodeStatus) :
    (calls ++ [(node.currentChildIdx, status)]).map Prod.fst =
      cycle size first (calls ++ [(node.currentChildIdx, status)]).length := by
  rw [List.map_append, hpart.order, List.length_append, List.length_singleton, cycle_succ, List.map_singleton,
    hpart.child]

/-- この `tick` で動いた子は、みな失敗した子である。 -/
theorem Partway.length_le (hpart : Partway size first node since calls) : calls.length ≤ node.numFailedChildren := by
  obtain ⟨start, heq, -⟩ := hpart.cycled
  have hlength := congrArg List.length heq
  have hall : calls.filter (fun e => e.2 = .failure) = calls :=
    List.filter_eq_self.mpr fun call hcall => decide_eq_true (hpart.fails call hcall)
  rw [failed, List.filter_append, hall, List.length_map, List.length_append, cycle, List.length_map,
    List.length_range] at hlength
  omega

theorem Partway.lap_append (hpart : Partway size first node since calls) (hlt : node.numFailedChildren < size)
    (call : ChildTick) : (calls ++ [call]).length ≤ size := by
  have hle := hpart.length_le
  rw [List.length_append, List.length_singleton]
  omega

theorem Partway.proceeds_append (hpart : Partway size first node since calls) (call : ChildTick) :
    ∀ d ∈ (calls ++ [call]).dropLast, d.2 = .failure := by
  rw [List.dropLast_concat]
  exact hpart.fails

theorem Partway.once_append (hpart : Partway size first node since calls) (hlt : node.numFailedChildren < size)
    (status : NodeStatus) : Fresh (since ++ (calls ++ [(node.currentChildIdx, status)])) := by
  rw [← List.append_assoc]
  exact hpart.fresh_append hlt status

/-- 今の子が失敗し、次の子に移る。 -/
theorem Partway.fail (hpart : Partway size first node since calls) (hlt : node.numFailedChildren < size) :
    Partway size first ⟨wrapAround size node.currentChildIdx, node.numFailedChildren + 1⟩ since
      (calls ++ [(node.currentChildIdx, .failure)]) := by
  have hidx : node.currentChildIdx < size := by
    rw [hpart.child]
    exact Nat.mod_lt _ (Nat.zero_lt_of_lt hlt)
  refine ⟨⟨?_, hlt, hpart.once_append hlt .failure, ?_⟩, hpart.order_append .failure, ?_, ?_⟩
  · obtain ⟨start, heq, hchild⟩ := hpart.cycled
    refine ⟨start, ?_, ?_⟩
    · rw [← List.append_assoc, failed_append_failure, heq, cycle_succ, ← hchild]
    · rw [wrapAround_eq hidx, hchild, Nat.mod_add_mod, Nat.add_assoc]
  · intro i hmem
    rw [← List.append_assoc] at hmem
    rcases List.mem_append.mp hmem with hmem | hmem
    · exact hpart.noSuccess i hmem
    · exact absurd (Prod.mk.inj (List.mem_singleton.mp hmem)).2 (by decide)
  · intro call hcall
    rcases List.mem_append.mp hcall with hcall | hcall
    · exact hpart.fails call hcall
    · rw [List.mem_singleton.mp hcall]
  · rw [wrapAround_eq hidx, hpart.child, Nat.mod_add_mod, Nat.add_assoc, List.length_append, List.length_singleton]

/-- 失敗でない結果を加えても、失敗した子は変わらない。 -/
theorem Partway.not_all (hpart : Partway size first node since calls) (hlt : node.numFailedChildren < size)
    (hst : status ≠ .failure) : ¬ ∀ j < size, (j, .failure) ∈ since ++ (calls ++ [(i, status)]) := by
  have hne : ¬ ∀ j < size, (j, .failure) ∈ since ++ calls := mt hpart.all_iff.mp hlt.ne
  simp only [← mem_failed, ← List.append_assoc, failed_append_of_ne hst] at hne ⊢
  exact hne

theorem Partway.succeeded (hpart : Partway size first node since calls) (hlt : node.numFailedChildren < size)
    {y : Execution σ} (hy : y.calls = calls ++ [(node.currentChildIdx, .success)]) {old : RoundRobinNode}
    (hfirst : old.currentChildIdx = first) :
    Verdict size old since ⟨.success, ⟨wrapAround size node.currentChildIdx, 0⟩, y⟩ := by
  have hidx : node.currentChildIdx < size := by
    rw [hpart.child]
    exact Nat.mod_lt _ (Nat.zero_lt_of_lt hlt)
  have hmem : (node.currentChildIdx, .success) ∈ y.calls := by
    rw [hy]
    exact List.mem_append_right _ List.mem_cons_self
  constructor
  · intro hst
    cases hst
  · intro hst
    cases hst
  · intro hst
    cases hst
  · exact iff_of_true rfl ⟨_, hmem⟩
  · exact fun _ => ⟨_, hmem, by rw [wrapAround_eq hidx]⟩
  · refine iff_of_false (fun hst => ?_) ?_
    · cases hst
    · rw [hy]
      exact hpart.not_all hlt (by decide)
  · intro hst
    cases hst
  · rw [hy, hfirst]
    exact hpart.order_append .success
  · rw [hy]
    exact hpart.lap_append hlt _
  · rw [hy]
    exact hpart.proceeds_append _
  · rw [hy]
    exact hpart.once_append hlt .success

theorem Partway.running (hpart : Partway size first node since calls) (hlt : node.numFailedChildren < size)
    {y : Execution σ} (hy : y.calls = calls ++ [(node.currentChildIdx, .running)]) {old : RoundRobinNode}
    (hfirst : old.currentChildIdx = first) : Verdict size old since ⟨.running, node, y⟩ := by
  have hsame : failed (since ++ y.calls) = failed (since ++ calls) := by
    rw [hy, ← List.append_assoc, failed_append_of_ne (by decide)]
  have hnone (i : ℕ) : (i, .success) ∉ since ++ y.calls := by
    rw [hy, ← List.append_assoc]
    intro hmem
    rcases List.mem_append.mp hmem with hmem | hmem
    · exact hpart.noSuccess i hmem
    · exact absurd (Prod.mk.inj (List.mem_singleton.mp hmem)).2 (by decide)
  constructor
  · intro hst
    cases hst
  · refine fun _ => ⟨⟨?_, hpart.le, ?_, hnone⟩, fun _ => hlt⟩
    · rw [hsame]
      exact hpart.cycled
    · rw [hy]
      exact hpart.once_append hlt .running
  · intro _
    rw [hy, List.getLast?_concat]
  · refine iff_of_false (fun hst => ?_) ?_
    · cases hst
    · rintro ⟨i, hmem⟩
      exact hnone i (List.mem_append_right _ hmem)
  · intro hst
    cases hst
  · refine iff_of_false (fun hst => ?_) ?_
    · cases hst
    · rw [hy]
      exact hpart.not_all hlt (by decide)
  · intro hst
    cases hst
  · rw [hy, hfirst]
    exact hpart.order_append .running
  · rw [hy]
    exact hpart.lap_append hlt _
  · rw [hy]
    exact hpart.proceeds_append _
  · rw [hy]
    exact hpart.once_append hlt .running

/-- 全ての子が続けて失敗した。 -/
theorem Partway.exhausted (hpart : Partway size first node since calls) (hge : ¬ node.numFailedChildren < size)
    {y : Execution σ} (hy : y.calls = calls) {old : RoundRobinNode} (hfirst : old.currentChildIdx = first) :
    Verdict size old since ⟨.failure, ⟨0, 0⟩, y⟩ := by
  constructor
  · intro hst
    cases hst
  · intro hst
    cases hst
  · intro hst
    cases hst
  · refine iff_of_false (fun hst => ?_) ?_
    · cases hst
    · rintro ⟨i, hmem⟩
      rw [hy] at hmem
      exact hpart.noSuccess i (List.mem_append_right _ hmem)
  · intro hst
    cases hst
  · refine iff_of_true rfl ?_
    rw [hy]
    exact hpart.all_iff.mpr (Nat.le_antisymm hpart.le (Nat.le_of_not_lt hge))
  · exact fun _ => rfl
  · rw [hy, hfirst]
    exact hpart.order
  · rw [hy]
    exact hpart.length_le.trans hpart.le
  · rw [hy]
    exact fun call hcall => hpart.fails call (List.dropLast_subset calls hcall)
  · rw [hy]
    exact hpart.fresh

end Partway

/-! ## `tick` の全体 -/

/-- 繰り返しは、まだ失敗していない子の数で抑えられる回数で終わる。 -/
theorem tickLoop_verdict (hidle : c.NeverIdle) {old : RoundRobinNode}
    (hpart : Partway c.size old.currentChildIdx node since x.calls) (hfuel : c.size - node.numFailedChildren < fuel) :
    ∃ r, tickLoop c fuel node x = some (.ok r) ∧ Verdict c.size old since r := by
  induction fuel generalizing node x with
  | zero => exact absurd hfuel (Nat.not_lt_zero _)
  | succ fuel ih =>
      rw [tickLoop]
      split_ifs with hlt
      · have hcalls (status : NodeStatus) (hst : (c.executeTick node.currentChildIdx x.state).1 = status) :
            (x.executeTick c node.currentChildIdx).calls = x.calls ++ [(node.currentChildIdx, status)] := by
          rw [Execution.calls_executeTick, hst]
        cases hst : (c.executeTick node.currentChildIdx x.state).1 with
        | idle => exact absurd hst (hidle _ _)
        | running => exact ⟨_, rfl, hpart.running hlt (hcalls .running hst) rfl⟩
        | success =>
            refine ⟨_, rfl, hpart.succeeded hlt ?_ rfl⟩
            rw [Execution.calls_haltChildren, hcalls .success hst]
        | failure =>
            apply ih
            · rw [hcalls .failure hst]
              exact hpart.fail hlt
            · show c.size - (node.numFailedChildren + 1) < fuel
              omega
      · exact ⟨_, rfl, hpart.exhausted hlt (Execution.calls_haltChildren c x) rfl⟩

/-- 一つの入力 `e` での、節の前後の状態。`lap` は、動く子が一回りを超えないこと、`proceeds` は、失敗した子の次にだけ進むこと、`once` は、
失敗した子が次の成功かリセットまで動かないことである。 -/
structure Behaves (size : ℕ) (s t : System RoundRobinNode σ) (e : Input) : Prop where
  order : t.calls.map Prod.fst = cycle size s.node.currentChildIdx t.calls.length
  lap : t.calls.length ≤ size
  proceeds : ∀ call ∈ t.calls.dropLast, call.2 = .failure
  once : Fresh (s.since ++ t.calls)
  resume : t.status = .running → t.calls.getLast? = some (t.node.currentChildIdx, .running)
  success : t.status = .success ↔ ∃ i, (i, .success) ∈ t.calls
  failure : e = .tick → (t.status = .failure ↔ ∀ i < size, (i, .failure) ∈ s.since ++ t.calls)
  next : t.status = .success → ∃ i, (i, .success) ∈ t.calls ∧ t.node = ⟨(i + 1) % size, 0⟩
  reset : t.status = .failure ∨ e = .halt → t.node = ⟨0, 0⟩

theorem Verdict.behaves {s : System RoundRobinNode σ} {r : Ticked RoundRobinNode σ}
    (hverdict : Verdict size s.node s.since r) : Behaves size s (s.ticked r) .tick where
  order := hverdict.order
  lap := hverdict.lap
  proceeds := hverdict.proceeds
  once := hverdict.once
  resume := hverdict.resume
  success := hverdict.success
  failure _ := hverdict.failure
  next := hverdict.next
  reset hst := by
    rcases hst with hst | hst
    · exact hverdict.reset hst
    · cases hst

/-- `RUNNING` を返さない `tick` の後は、次の子から数え直す。 -/
theorem Verdict.restart {r : Ticked RoundRobinNode σ} (hverdict : Verdict size node since r)
    (hrun : r.status ≠ .running) : Good size r.node [] := by
  cases hst : r.status with
  | idle => exact absurd hst hverdict.noIdle
  | running => exact absurd hst hrun
  | success =>
      obtain ⟨i, -, heq⟩ := hverdict.next hst
      rw [heq]
      exact Good.start (Nat.mod_mod _ _)
  | failure =>
      rw [hverdict.reset hst]
      exact Good.start (Nat.zero_mod _)

theorem Good.halted {s : System RoundRobinNode σ} (hgood : Good size s.node s.since) (c : Children σ) :
    Behaves size s (s.halted (controlNode c)) .halt where
  order := rfl
  lap := Nat.zero_le size
  proceeds call hcall := absurd hcall List.not_mem_nil
  once := by
    rw [show (s.halted (controlNode c)).calls = [] from rfl, List.append_nil]
    exact hgood.fresh
  resume hst := by cases hst
  success := by
    refine iff_of_false (fun hst => ?_) ?_
    · cases hst
    · rintro ⟨i, hmem⟩
      exact absurd hmem List.not_mem_nil
  failure he := by cases he
  next hst := by cases hst
  reset _ := rfl

/-- 子 `0` は二度目から成功し、子 `1` はいつも失敗する。 -/
def alternating : Children ℕ where
  size := 2
  name i := toString i
  executeTick i tried := if i = 0 ∧ 0 < tried then (.success, tried) else (.failure, tried + 1)
  haltChild _ tried := tried

theorem alternating_neverIdle : alternating.NeverIdle := by
  intro i tried
  show (if i = 0 ∧ 0 < tried then ((.success, tried) : NodeStatus × ℕ) else (.failure, tried + 1)).1 ≠ .idle
  split_ifs <;> intro heq <;> cases heq

end RoundRobinNode

end Ranger.BehaviorTree
