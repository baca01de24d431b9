import Mathlib.Data.List.Basic
import Ranger.BehaviorTree.ControlNode

/-!
# 前の子も動かし直す列の節

`nav2_behavior_tree` の `plugins/control/pipeline_sequence.cpp`。子を順に動かし、これまでに届いた子より手前の子が `RUNNING` を返しても、次の子に進む。
-/

namespace Ranger.BehaviorTree
open Ranger.Lib

variable {σ : Type}

structure PipelineSequence where
  lastChildTicked : ℕ
deriving DecidableEq, Repr

namespace PipelineSequence

/-- 子を止めて `last_child_ticked_` を戻し、`status` を返す。 -/
def finish (c : Children σ) (x : Execution σ) (status : NodeStatus) :
    Except Exception (Ticked PipelineSequence σ) :=
  .ok ⟨status, ⟨0⟩, x.haltChildren c⟩

def statusText : NodeStatus → String
  | .idle => "IDLE"
  | .running => "RUNNING"
  | .success => "SUCCESS"
  | .failure => "FAILURE"

/-- 子 `i` から先の繰り返し。残りの子は `rest` 個である。 -/
def tickFrom (c : Children σ) (node : PipelineSequence) :
    ℕ → ℕ → Execution σ → Except Exception (Ticked PipelineSequence σ)
  | 0, _, x => finish c x .success
  | rest + 1, i, x =>
    let status := (c.executeTick i x.state).1
    let x := x.executeTick c i
    match status with
    | .failure => finish c x .failure
    | .success => tickFrom c node rest (i + 1) x
    | .running =>
      if i ≥ node.lastChildTicked then .ok ⟨.running, ⟨i⟩, x⟩
      else tickFrom c node rest (i + 1) x
    | .idle =>
      .error (.runtimeError
        ("Invalid node status. Received status " ++ statusText status ++ "from child " ++ c.name i))

def tick (c : Children σ) (node : PipelineSequence) (state : σ) :
    Option (Except Exception (Ticked PipelineSequence σ)) :=
  some (tickFrom c node c.size 0 ⟨state, []⟩)

def halt (c : Children σ) (state : σ) : PipelineSequence × σ :=
  (⟨0⟩, ((Execution.mk state []).haltChildren c).state)

def controlNode (c : Children σ) : ControlNode PipelineSequence σ where
  tick := tick c
  halt _ := halt c

def initial (state : σ) : System PipelineSequence σ where
  node := ⟨0⟩
  state := state
  since := []
  calls := []
  status := .idle

/-! ## 子の結果の列 -/

variable {c : Children σ} {node : PipelineSequence} {x : Execution σ} {h since : List ChildTick} {e : ChildTick}
  {i rest size : ℕ} {status : NodeStatus}

/-- 子 `i + 1` が動くのは、子 `i` が一度は成功した後だけである。 -/
def AfterSuccess (h : List ChildTick) : Prop :=
  ∀ pre i st post, h = pre ++ (i + 1, st) :: post → (i, .success) ∈ pre

theorem AfterSuccess.nil : AfterSuccess [] := by
  intro pre i st post heq
  exact absurd heq (List.append_ne_nil_of_right_ne_nil pre (List.cons_ne_nil _ _)).symm

theorem AfterSuccess.append (hafter : AfterSuccess h) (hi : ∀ j, i = j + 1 → (j, .success) ∈ h) :
    AfterSuccess (h ++ [(i, status)]) := by
  intro pre j st post heq
  rcases split_append heq with ⟨rfl, hlast⟩ | ⟨post', hmem⟩
  · exact hi j (Prod.mk.inj hlast).1.symm
  · exact hafter pre j st post' hmem

/-- リセットから後の結果の列が `h` の、`tick` の合間の節。`last_child_ticked_` より手前の子は、一度は成功している。 -/
structure Good (size : ℕ) (node : PipelineSequence) (h : List ChildTick) : Prop where
  last : node.lastChildTicked = 0 ∨ node.lastChildTicked < size
  reached : ∀ i < node.lastChildTicked, (i, .success) ∈ h
  after : AfterSuccess h

/-- 子 `i` の手前まで動かした途中。 -/
structure Partway (size : ℕ) (node : PipelineSequence) (since calls : List ChildTick) (i : ℕ) : Prop where
  good : Good size node since
  order : calls.map Prod.fst = List.range i
  succeeded : ∀ j < i, (j, .success) ∈ since ++ calls
  after : AfterSuccess (since ++ calls)
  noFailure : ∀ j, (j, .failure) ∉ calls
  late : ∀ j, node.lastChildTicked ≤ j → j < i → (j, .success) ∈ calls

structure Verdict (size : ℕ) (node : PipelineSequence) (since : List ChildTick) (r : Ticked PipelineSequence σ) :
    Prop where
  running : r.status = .running → Good size r.node (since ++ r.execution.calls) ∧
    node.lastChildTicked ≤ r.node.lastChildTicked
  reset : r.status ≠ .running → r.node = ⟨0⟩
  order : r.execution.calls.map Prod.fst = List.range r.execution.calls.length
  reaches : (∃ j, (j, .failure) ∈ r.execution.calls) ∨
    ∀ i ≤ node.lastChildTicked, i < size → i < r.execution.calls.length
  after : AfterSuccess (since ++ r.execution.calls)
  success : 0 < size → (r.status = .success ↔ (size - 1, .success) ∈ r.execution.calls)

/-! ## 一つの子の結果 -/

theorem Good.start (size : ℕ) : Good size ⟨0⟩ [] where
  last := Or.inl rfl
  reached i hi := absurd hi (Nat.not_lt_zero i)
  after := AfterSuccess.nil

theorem Partway.start (hgood : Good size node since) : Partway size node since [] 0 where
  good := hgood
  order := rfl
  succeeded j hj := absurd hj (Nat.not_lt_zero j)
  after := by
    rw [List.append_nil]
    exact hgood.after
  noFailure _ := List.not_mem_nil
  late j _ hj := absurd hj (Nat.not_lt_zero j)

section Partway

variable {calls : List ChildTick}

theorem Partway.length (hpart : Partway size node since calls i) : calls.length = i := by
  rw [← List.length_map Prod.fst, hpart.order, List.length_range]

theorem Partway.order_append (hpart : Partway size node since calls i) (status : NodeStatus) :
    (calls ++ [(i, status)]).map Prod.fst = List.range (i + 1) := by
  rw [List.map_append, hpart.order, List.range_succ, List.map_singleton]

theorem Partway.after_append (hpart : Partway size node since calls i) (status : NodeStatus) :
    AfterSuccess (since ++ (calls ++ [(i, status)])) := by
  rw [← List.append_assoc]
  apply hpart.after.append
  rintro j rfl
  exact hpart.succeeded j (Nat.lt_succ_self j)

theorem Partway.lt_of_mem (hpart : Partway size node since calls i) {j : ℕ} (hmem : (j, status) ∈ calls) : j < i := by
  rw [← List.mem_range, ← hpart.order]
  exact List.mem_map_of_mem hmem

/-- 子 `i` が `SUCCESS` を返すか、これまでに届いた子より手前で `RUNNING` を返して、次の子に進む。 -/
theorem Partway.next (hpart : Partway size node since calls i)
    (hstatus : status = .success ∨ status = .running ∧ i < node.lastChildTicked) :
    Partway size node since (calls ++ [(i, status)]) (i + 1) where
  good := hpart.good
  order := hpart.order_append status
  succeeded j hj := by
    rcases Nat.lt_succ_iff_lt_or_eq.mp hj with hlt | rfl
    · rw [← List.append_assoc]
      exact List.mem_append_left _ (hpart.succeeded j hlt)
    · rcases hstatus with rfl | ⟨-, hlast⟩
      · exact List.mem_append_right _ (List.mem_append_right _ List.mem_cons_self)
      · exact List.mem_append_left _ (hpart.good.reached j hlast)
  after := hpart.after_append status
  noFailure j hmem := by
    rcases List.mem_append.mp hmem with hmem | hmem
    · exact hpart.noFailure j hmem
    · have heq := (Prod.mk.inj (List.mem_singleton.mp hmem)).2
      rcases hstatus with rfl | ⟨rfl, -⟩ <;> exact absurd heq (by decide)
  late j hlast hj := by
    rcases Nat.lt_succ_iff_lt_or_eq.mp hj with hlt | rfl
    · exact List.mem_append_left _ (hpart.late j hlast hlt)
    · rcases hstatus with rfl | ⟨-, hlt⟩
      · exact List.mem_append_right _ List.mem_cons_self
      · exact absurd hlast (Nat.not_le.mpr hlt)

/-- 子 `i` が `SUCCESS` でない結果を返して終わるとき、最後の子は成功していない。 -/
theorem Partway.not_last (hpart : Partway size node since calls i) (hi : i < size) (hstatus : status ≠ .success) :
    (size - 1, .success) ∉ calls ++ [(i, status)] := by
  intro hmem
  rcases List.mem_append.mp hmem with hmem | hmem
  · have hlt := hpart.lt_of_mem hmem
    omega
  · exact hstatus (Prod.mk.inj (List.mem_singleton.mp hmem)).2.symm

theorem Partway.stopped (hpart : Partway size node since calls i) (hi : i < size) (hlast : node.lastChildTicked ≤ i)
    {x : Execution σ} (hx : x.calls = calls ++ [(i, .running)]) : Verdict size node since ⟨.running, ⟨i⟩, x⟩ where
  running _ := by
    refine ⟨⟨Or.inr hi, fun j hj => ?_, ?_⟩, hlast⟩
    · rw [hx, ← List.append_assoc]
      exact List.mem_append_left _ (hpart.succeeded j hj)
    · rw [hx]
      exact hpart.after_append .running
  reset hne := absurd rfl hne
  order := by
    rw [hx, hpart.order_append, List.length_append, hpart.length, List.length_singleton]
  reaches := by
    refine Or.inr fun j hj _ => ?_
    rw [hx, List.length_append, hpart.length, List.length_singleton]
    omega
  after := by
    rw [hx]
    exact hpart.after_append .running
  success _ := by
    rw [hx]
    exact iff_of_false (fun hrun => nomatch hrun) (hpart.not_last hi (by decide))

theorem Partway.failed (hpart : Partway size node since calls i) (hi : i < size) {x : Execution σ}
    (hx : x.calls = calls ++ [(i, .failure)]) : Verdict size node since ⟨.failure, ⟨0⟩, x⟩ where
  running hrun := nomatch hrun
  reset _ := rfl
  order := by
    rw [hx, hpart.order_append, List.length_append, hpart.length, List.length_singleton]
  reaches := by
    rw [hx]
    exact Or.inl ⟨i, List.mem_append_right _ List.mem_cons_self⟩
  after := by
    rw [hx]
    exact hpart.after_append .failure
  success _ := by
    rw [hx]
    exact iff_of_false (fun hrun => nomatch hrun) (hpart.not_last hi (by decide))

theorem Partway.finished (hpart : Partway size node since calls size) {x : Execution σ} (hx : x.calls = calls) :
    Verdict size node since ⟨.success, ⟨0⟩, x⟩ where
  running hrun := nomatch hrun
  reset _ := rfl
  order := by rw [hx, hpart.order, hpart.length]
  reaches := by
    refine Or.inr fun j _ hj => ?_
    rwa [hx, hpart.length]
  after := by
    rw [hx]
    exact hpart.after
  success hsize := by
    rw [hx]
    refine iff_of_true rfl (hpart.late (size - 1) ?_ (by omega))
    rcases hpart.good.last with hlast | hlast <;> omega

end Partway

/-! ## `tick` の全体 -/

theorem tickFrom_verdict (hidle : c.NeverIdle) (hpart : Partway c.size node since x.calls i) (hrest : i + rest = c.size) :
    ∃ r, tickFrom c node rest i x = .ok r ∧ Verdict c.size node since r := by
  induction rest generalizing i x with
  | zero =>
      obtain rfl : i = c.size := hrest
      exact ⟨_, rfl, hpart.finished (Execution.calls_haltChildren c x)⟩
  | succ rest ih =>
      have hi : i < c.size := by omega
      have hcalls (status : NodeStatus) (hst : (c.executeTick i x.state).1 = status) :
          (x.executeTick c i).calls = x.calls ++ [(i, status)] := by
        rw [Execution.calls_executeTick, hst]
      have hgo (status : NodeStatus) (hst : (c.executeTick i x.state).1 = status)
          (hstatus : status = .success ∨ status = .running ∧ i < node.lastChildTicked) :
          ∃ r, tickFrom c node rest (i + 1) (x.executeTick c i) = .ok r ∧ Verdict c.size node since r := by
        apply ih
        · rw [hcalls status hst]
          exact hpart.next hstatus
        · omega
      simp only [tickFrom]
      cases hst : (c.executeTick i x.state).1 with
      | idle => exact absurd hst (hidle _ _)
      | success => exact hgo .success hst (Or.inl rfl)
      | failure =>
          refine ⟨_, rfl, hpart.failed hi ?_⟩
          rw [Execution.calls_haltChildren, hcalls .failure hst]
      | running =>
          simp only
          split_ifs with hlast
          · exact ⟨_, rfl, hpart.stopped hi hlast (hcalls .running hst)⟩
          · exact hgo .running hst (Or.inr ⟨rfl, Nat.lt_of_not_le hlast⟩)

/-- 一つの入力 `e` での、節の前後の状態。 -/
structure Behaves (size : ℕ) (s t : System PipelineSequence σ) (e : Input) : Prop where
  monotone : t.status = .running → s.node.lastChildTicked ≤ t.node.lastChildTicked
  order : t.calls.map Prod.fst = List.range t.calls.length
  reaches : e = .tick → (∃ j, (j, .failure) ∈ t.calls) ∨
    ∀ i ≤ s.node.lastChildTicked, i < size → i < t.calls.length
  afterSuccess : AfterSuccess (s.since ++ t.calls)
  success : e = .tick → 0 < size → (t.status = .success ↔ (size - 1, .success) ∈ t.calls)
  reset : t.status ≠ .running → t.node.lastChildTicked = 0

theorem Verdict.behaves {s : System PipelineSequence σ} {r : Ticked PipelineSequence σ}
    (hverdict : Verdict size s.node s.since r) : Behaves size s (s.ticked r) .tick where
  monotone hrun := (hverdict.running hrun).2
  order := hverdict.order
  reaches _ := hverdict.reaches
  afterSuccess := hverdict.after
  success _ := hverdict.success
  reset hrun := by
    rw [show (s.ticked r).node = ⟨0⟩ from hverdict.reset hrun]

theorem Good.halted {s : System PipelineSequence σ} (hgood : Good size s.node s.since) (c : Children σ) :
    Behaves size s (s.halted (controlNode c)) .halt where
  monotone hrun := nomatch hrun
  order := rfl
  reaches he := nomatch he
  afterSuccess := by
    rw [show (s.halted (controlNode c)).calls = [] from rfl, List.append_nil]
    exact hgood.after
  success he := nomatch he
  reset _ := rfl

/-- どの `tick` でも、子は番号の順に間を空けずに動き、これまでに届いた子までは、失敗がない限り動く。リセットの間に `last_child_ticked_` は減らず、子は、一つ前の子が一度は成功した後だけに動く。子があれば、節は、最後の子が成功するとき、そのときだけ `SUCCESS` を返す。 -/
theorem pipelineSequence_run {c : Children σ} (hidle : c.NeverIdle) (state : σ) (inputs : List Input) :
    (∃ t, runs (controlNode c).step (initial state) inputs = some t) ∧
      Always (controlNode c).step (fun s e t => Behaves c.size s t e) (initial state) inputs := by
  have htick (s : System PipelineSequence σ) (hgood : Good c.size s.node s.since) :
      ∃ r, (controlNode c).tick s.node s.state = some (.ok r) ∧ Behaves c.size s (s.ticked r) .tick ∧
        Good c.size r.node (if r.status = .running then s.since ++ r.execution.calls else []) := by
    obtain ⟨r, hr, hverdict⟩ :=
      tickFrom_verdict (x := ⟨s.state, []⟩) hidle (Partway.start hgood) (Nat.zero_add c.size)
    refine ⟨r, congrArg some hr, hverdict.behaves, ?_⟩
    split_ifs with hrun
    · exact (hverdict.running hrun).1
    · rw [hverdict.reset hrun]
      exact Good.start c.size
  have hhalt (s : System PipelineSequence σ) (hgood : Good c.size s.node s.since) :
      Behaves c.size s (s.halted (controlNode c)) .halt ∧ Good c.size ((controlNode c).halt s.node s.state).1 [] :=
    ⟨hgood.halted c, Good.start c.size⟩
  exact ControlNode.run htick hhalt (Good.start c.size) inputs

/-- 子 `1` は初めに `RUNNING` を返し、ほかの子はいつも成功する。 -/
def piping : Children ℕ where
  size := 3
  name i := toString i
  executeTick i waited := if i = 1 ∧ waited = 0 then (.running, 1) else (.success, waited)
  haltChild _ waited := waited

theorem piping_neverIdle : piping.NeverIdle := by
  intro i waited
  show (if i = 1 ∧ waited = 0 then ((.running, 1) : NodeStatus × ℕ) else (.success, waited)).1 ≠ .idle
  split_ifs <;> exact fun heq => nomatch heq

-- 二度目の `tick` で最後の子まで届く。
theorem pipelineSequence_run_piping :
    (∃ t, runs (controlNode piping).step (initial 0) [.tick, .tick, .halt] = some t) ∧
      Always (controlNode piping).step (fun s e t => Behaves 3 s t e) (initial 0) [.tick, .tick, .halt] :=
  pipelineSequence_run piping_neverIdle 0 [.tick, .tick, .halt]

end PipelineSequence

end Ranger.BehaviorTree
