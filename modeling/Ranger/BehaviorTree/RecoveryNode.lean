import Mathlib.Data.List.Basic
import Ranger.BehaviorTree.ControlNode

/-!
# 失敗した子を回復してやり直す節

`nav2_behavior_tree` の `plugins/control/recovery_node.cpp`。番号 `0` の子が失敗すると番号 `1` の子で回復し、成功すれば番号 `0` の子をやり直す。節の `status` は読まれないので省く。
-/

namespace Ranger.BehaviorTree
open Ranger.Lib

variable {σ : Type}

structure RecoveryNode where
  currentChildIdx : ℕ
  numberOfRetries : ℕ
  retryCount : ℕ
deriving DecidableEq, Repr

namespace RecoveryNode

def create (numberOfRetries : ℕ) : RecoveryNode := ⟨0, numberOfRetries, 0⟩

def reset (node : RecoveryNode) : RecoveryNode := { node with retryCount := 0, currentChildIdx := 0 }

/-- 子を止めて数を戻し、`status` を返す。 -/
def finish (c : Children σ) (node : RecoveryNode) (x : Execution σ) (status : NodeStatus) :
    Option (Except Exception (Ticked RecoveryNode σ)) :=
  some (.ok ⟨status, node.reset, x.haltChildren c⟩)

def neverReturnIdle : Option (Except Exception (Ticked RecoveryNode σ)) :=
  some (.error (.logicError "A child node must never return IDLE"))

/-- `while` の繰り返し。`fuel` 回のうちに終わらないとき `none` である。 -/
def tickLoop (c : Children σ) : ℕ → RecoveryNode → Execution σ → Option (Except Exception (Ticked RecoveryNode σ))
  | 0, _, _ => none
  | fuel + 1, node, x =>
    if node.currentChildIdx < 2 ∧ node.retryCount ≤ node.numberOfRetries then
      let childStatus := (c.executeTick node.currentChildIdx x.state).1
      let x := x.executeTick c node.currentChildIdx
      if node.currentChildIdx = 0 then
        match childStatus with
        | .success => finish c node x .success
        | .failure =>
          if node.retryCount < node.numberOfRetries then
            tickLoop c fuel { node with currentChildIdx := node.currentChildIdx + 1 } (x.haltChild c 0)
          else finish c node x .failure
        | .running => some (.ok ⟨.running, node, x⟩)
        | .idle => neverReturnIdle
      else
        match childStatus with
        | .success =>
          tickLoop c fuel
            { node with retryCount := node.retryCount + 1, currentChildIdx := node.currentChildIdx - 1 } (x.haltChild c 1)
        | .failure => finish c node x .failure
        | .running => some (.ok ⟨.running, node, x⟩)
        | .idle => neverReturnIdle
    else finish c node x .failure

/-- 繰り返しの回数は、やり直しの数で抑えられる。 -/
def tick (c : Children σ) (name : String) (node : RecoveryNode) (state : σ) :
    Option (Except Exception (Ticked RecoveryNode σ)) :=
  if c.size ≠ 2 then
    some (.error (.behaviorTreeException ("Recovery Node '" ++ name ++ "' must only have 2 children.")))
  else tickLoop c (2 * (node.numberOfRetries + 1)) node ⟨state, []⟩

def halt (c : Children σ) (node : RecoveryNode) (state : σ) : RecoveryNode × σ :=
  (node.reset, ((Execution.mk state []).haltChildren c).state)

def controlNode (c : Children σ) (name : String) : ControlNode RecoveryNode σ where
  tick := tick c name
  halt := halt c

def initial (n : ℕ) (state : σ) : System RecoveryNode σ where
  node := create n
  state := state
  since := []
  calls := []
  status := .idle

/-! ## 子の結果の列 -/

variable {n fuel : ℕ} {c : Children σ} {node : RecoveryNode} {x : Execution σ} {h since : List ChildTick}
  {e : ChildTick} {i : ℕ} {st : NodeStatus}

/-- 番号 `0` の子の失敗の後、番号 `1` の子は `RUNNING` しか返していない。 -/
def Recovering (h : List ChildTick) : Prop :=
  ∃ pre k, h = pre ++ (0, .failure) :: List.replicate k (1, .running)

/-- 番号 `1` の子が動くのは、番号 `0` の子の失敗の後だけである。 -/
def AfterFailure (h : List ChildTick) : Prop := ∀ pre st post, h = pre ++ (1, st) :: post → Recovering pre

theorem AfterFailure.nil : AfterFailure [] := by
  intro pre st post heq
  exact absurd heq (List.append_ne_nil_of_right_ne_nil pre (List.cons_ne_nil _ _)).symm

theorem AfterFailure.append (hafter : AfterFailure h) (he : e.1 = 1 → Recovering h) : AfterFailure (h ++ [e]) := by
  intro pre st post heq
  rcases split_append heq with ⟨rfl, rfl⟩ | ⟨post', hmem⟩
  · exact he rfl
  · exact hafter pre st post' hmem

theorem Recovering.failed (h : List ChildTick) : Recovering (h ++ [(0, .failure)]) := ⟨h, 0, rfl⟩

theorem Recovering.running (hrec : Recovering h) : Recovering (h ++ [(1, .running)]) := by
  obtain ⟨pre, k, rfl⟩ := hrec
  refine ⟨pre, k + 1, ?_⟩
  rw [List.replicate_succ', List.append_assoc, List.cons_append]

/-- リセットから後の結果の列が `h` の、`tick` の合間の節。 -/
structure Good (n : ℕ) (node : RecoveryNode) (h : List ChildTick) : Prop where
  numberOfRetries : node.numberOfRetries = n
  recoveries : h.count (1, .success) = node.retryCount
  le : node.retryCount ≤ n
  failures : h.count (0, .failure) = node.retryCount + node.currentChildIdx
  child : node.currentChildIdx = 0 ∨ node.currentChildIdx = 1 ∧ node.retryCount < n ∧ Recovering h
  after : AfterFailure h
  noSuccess : (0, .success) ∉ h
  noFailure : (1, .failure) ∉ h

/-- 結果の列が `h` のときに、節が `status` を返してよい条件。 -/
structure Verdict (n : ℕ) (h : List ChildTick) (r : Ticked RecoveryNode σ) : Prop where
  running : r.status = .running → Good n r.node h
  reset : r.status ≠ .running → r.node = create n
  retries : h.count (1, .success) ≤ n
  after : AfterFailure h
  success : r.status = .success ↔ (0, .success) ∈ h
  failure : r.status = .failure ↔ (1, .failure) ∈ h ∨ h.count (0, .failure) = n + 1

theorem Good.create (n : ℕ) : Good n (create n) [] where
  numberOfRetries := rfl
  recoveries := rfl
  le := Nat.zero_le n
  failures := rfl
  child := Or.inl rfl
  after := AfterFailure.nil
  noSuccess := List.not_mem_nil
  noFailure := List.not_mem_nil

theorem Good.reset (hgood : Good n node h) : node.reset = RecoveryNode.create n := by
  rw [RecoveryNode.reset, hgood.numberOfRetries, RecoveryNode.create]

theorem Good.failures_le (hgood : Good n node h) : h.count (0, .failure) ≤ n := by
  rw [hgood.failures]
  rcases hgood.child with hidx | ⟨hidx, hlt, -⟩
  · rw [hidx]
    exact hgood.le
  · rw [hidx]
    exact hlt

theorem Good.executed (hgood : Good n node h) (st : NodeStatus) : AfterFailure (h ++ [(node.currentChildIdx, st)]) := by
  apply hgood.after.append
  intro hone
  rcases hgood.child with hidx | ⟨-, -, hrec⟩
  · rw [hidx] at hone
    exact absurd hone Nat.zero_ne_one
  · exact hrec

/-! ## 一つの子の結果 -/

/-- 節が `RUNNING` を返すとき、列の性質は節の状態から決まる。 -/
theorem Good.verdict (hgood : Good n node h) (x : Execution σ) : Verdict n h ⟨.running, node, x⟩ where
  running _ := hgood
  reset hne := absurd rfl hne
  retries := by
    rw [hgood.recoveries]
    exact hgood.le
  after := hgood.after
  success := iff_of_false (fun hrun => nomatch hrun) hgood.noSuccess
  failure := by
    refine iff_of_false (fun hrun => nomatch hrun) (not_or.mpr ⟨hgood.noFailure, ?_⟩)
    have hle := hgood.failures_le
    omega

theorem Good.running (hgood : Good n node h) : Good n node (h ++ [(node.currentChildIdx, .running)]) where
  numberOfRetries := hgood.numberOfRetries
  recoveries := by simp [hgood.recoveries]
  le := hgood.le
  failures := by simp [hgood.failures]
  child := by
    rcases hgood.child with hidx | ⟨hidx, hlt, hrec⟩
    · exact Or.inl hidx
    · rw [hidx]
      exact Or.inr ⟨rfl, hlt, hrec.running⟩
  after := hgood.executed .running
  noSuccess := by simp [hgood.noSuccess]
  noFailure := by simp [hgood.noFailure]

/-- 番号 `0` の子が失敗し、回復に移る。 -/
theorem Good.recover (hgood : Good n node h) (hidx : node.currentChildIdx = 0) (hlt : node.retryCount < n) :
    Good n { node with currentChildIdx := node.currentChildIdx + 1 } (h ++ [(node.currentChildIdx, .failure)]) where
  numberOfRetries := hgood.numberOfRetries
  recoveries := by simp [hgood.recoveries]
  le := hgood.le
  failures := by simp [hgood.failures, hidx]
  child := by
    rw [hidx]
    exact Or.inr ⟨rfl, hlt, Recovering.failed h⟩
  after := hgood.executed .failure
  noSuccess := by simp [hgood.noSuccess]
  noFailure := by simp [hgood.noFailure, hidx]

/-- 番号 `1` の子が成功し、やり直しに移る。 -/
theorem Good.retry (hgood : Good n node h) (hidx : node.currentChildIdx = 1) (hlt : node.retryCount < n) :
    Good n { node with retryCount := node.retryCount + 1, currentChildIdx := node.currentChildIdx - 1 }
      (h ++ [(node.currentChildIdx, .success)]) where
  numberOfRetries := hgood.numberOfRetries
  recoveries := by simp [hgood.recoveries, hidx]
  le := hlt
  failures := by simp [hgood.failures, hidx]
  child := Or.inl (by rw [hidx])
  after := hgood.executed .success
  noSuccess := by simp [hgood.noSuccess, hidx]
  noFailure := by simp [hgood.noFailure]

theorem Good.succeeded (hgood : Good n node h) (hidx : node.currentChildIdx = 0) (x : Execution σ) :
    Verdict n (h ++ [(node.currentChildIdx, .success)]) ⟨.success, node.reset, x⟩ where
  running hrun := nomatch hrun
  reset _ := hgood.reset
  retries := by simpa [hidx, hgood.recoveries] using hgood.le
  after := hgood.executed .success
  success := by simp [hidx]
  failure := by
    have hle := hgood.failures_le
    simp [hgood.noFailure, hidx]
    omega

theorem Good.exhausted (hgood : Good n node h) (hidx : node.currentChildIdx = 0) (hge : n ≤ node.retryCount)
    (x : Execution σ) : Verdict n (h ++ [(node.currentChildIdx, .failure)]) ⟨.failure, node.reset, x⟩ where
  running hrun := nomatch hrun
  reset _ := hgood.reset
  retries := by simpa [hgood.recoveries] using hgood.le
  after := hgood.executed .failure
  success := by simp [hgood.noSuccess]
  failure := by
    have heq := Nat.le_antisymm hgood.le hge
    simp [hgood.failures, hidx, heq]

theorem Good.unrecovered (hgood : Good n node h) (hidx : node.currentChildIdx = 1) (x : Execution σ) :
    Verdict n (h ++ [(node.currentChildIdx, .failure)]) ⟨.failure, node.reset, x⟩ where
  running hrun := nomatch hrun
  reset _ := hgood.reset
  retries := by simpa [hgood.recoveries] using hgood.le
  after := hgood.executed .failure
  success := by simp [hgood.noSuccess]
  failure := by simp [hidx]

/-! ## `tick` の全体 -/

/-- 繰り返しは、残りのやり直しの数で抑えられる回数で終わる。 -/
theorem tickLoop_verdict (hidle : c.NeverIdle) (hgood : Good n node (since ++ x.calls))
    (hfuel : 2 * (n + 1 - node.retryCount) - node.currentChildIdx ≤ fuel) :
    ∃ r, tickLoop c fuel node x = some (.ok r) ∧ Verdict n (since ++ r.execution.calls) r := by
  induction fuel generalizing node x with
  | zero =>
      have hle := hgood.le
      rcases hgood.child with hidx | ⟨hidx, -, -⟩ <;> omega
  | succ fuel ih =>
      have hle := hgood.le
      have hcond : node.currentChildIdx < 2 ∧ node.retryCount ≤ node.numberOfRetries := by
        rw [hgood.numberOfRetries]
        rcases hgood.child with hidx | ⟨hidx, -, -⟩ <;> omega
      have hcalls (status : NodeStatus) (hst : (c.executeTick node.currentChildIdx x.state).1 = status) :
          since ++ (x.executeTick c node.currentChildIdx).calls =
            since ++ x.calls ++ [(node.currentChildIdx, status)] := by
        rw [Execution.calls_executeTick, hst, List.append_assoc]
      -- 節が `RUNNING` を返すとき、子を止めて返すとき、繰り返しに戻るときのどれかである。
      have hpause (hst : (c.executeTick node.currentChildIdx x.state).1 = .running) :
          ∃ r, some (.ok ⟨.running, node, x.executeTick c node.currentChildIdx⟩) =
              (some (.ok r) : Option (Except Exception (Ticked RecoveryNode σ))) ∧
            Verdict n (since ++ r.execution.calls) r := by
        refine ⟨_, rfl, ?_⟩
        rw [hcalls .running hst]
        exact hgood.running.verdict _
      have hstop (status result : NodeStatus) (hst : (c.executeTick node.currentChildIdx x.state).1 = status)
          (hverdict : ∀ y : Execution σ,
            Verdict n (since ++ x.calls ++ [(node.currentChildIdx, status)]) ⟨result, node.reset, y⟩) :
          ∃ r, finish c node (x.executeTick c node.currentChildIdx) result = some (.ok r) ∧
            Verdict n (since ++ r.execution.calls) r := by
        refine ⟨_, rfl, ?_⟩
        rw [Execution.calls_haltChildren, hcalls status hst]
        exact hverdict _
      rw [tickLoop, if_pos hcond]
      rcases hgood.child with hidx | ⟨hidx, hlt, -⟩
      · simp only [if_pos hidx]
        cases hst : (c.executeTick node.currentChildIdx x.state).1 with
        | idle => exact absurd hst (hidle _ _)
        | running => exact hpause hst
        | success => exact hstop .success .success hst (hgood.succeeded hidx)
        | failure =>
            simp only
            split_ifs with hretry
            · rw [hgood.numberOfRetries] at hretry
              apply ih
              · rw [Execution.calls_haltChild, hcalls .failure hst]
                exact hgood.recover hidx hretry
              · show 2 * (n + 1 - node.retryCount) - (node.currentChildIdx + 1) ≤ fuel
                omega
            · rw [hgood.numberOfRetries] at hretry
              exact hstop .failure .failure hst (hgood.exhausted hidx (Nat.le_of_not_lt hretry))
      · have hne : node.currentChildIdx ≠ 0 := by omega
        simp only [if_neg hne]
        cases hst : (c.executeTick node.currentChildIdx x.state).1 with
        | idle => exact absurd hst (hidle _ _)
        | running => exact hpause hst
        | success =>
            apply ih
            · rw [Execution.calls_haltChild, hcalls .success hst]
              exact hgood.retry hidx hlt
            · show 2 * (n + 1 - (node.retryCount + 1)) - (node.currentChildIdx - 1) ≤ fuel
              omega
        | failure => exact hstop .failure .failure hst (hgood.unrecovered hidx)

theorem tick_verdict (hsize : c.size = 2) (hidle : c.NeverIdle) (name : String) (hgood : Good n node since)
    (state : σ) : ∃ r, tick c name node state = some (.ok r) ∧ Verdict n (since ++ r.execution.calls) r := by
  rw [tick, if_neg (not_not.mpr hsize)]
  apply tickLoop_verdict hidle
  · rwa [List.append_nil]
  · rw [hgood.numberOfRetries]
    omega

/-- 一つの入力 `e` での、節の前後の状態。 -/
structure Behaves (n : ℕ) (s t : System RecoveryNode σ) (e : Input) : Prop where
  retries : (s.since ++ t.calls).count (1, .success) ≤ n
  afterFailure : AfterFailure (s.since ++ t.calls)
  success : e = .tick → (t.status = .success ↔ (0, .success) ∈ t.calls)
  failure : e = .tick → (t.status = .failure ↔ (1, .failure) ∈ t.calls ∨
    s.since.count (0, .failure) ≤ n ∧ (s.since ++ t.calls).count (0, .failure) = n + 1)
  reset : t.status ≠ .running → t.node.retryCount = 0 ∧ t.node.currentChildIdx = 0

theorem Verdict.behaves {s : System RecoveryNode σ} {r : Ticked RecoveryNode σ} (hgood : Good n s.node s.since)
    (hverdict : Verdict n (s.since ++ r.execution.calls) r) : Behaves n s (s.ticked r) .tick where
  retries := hverdict.retries
  afterFailure := hverdict.after
  success _ := by
    have hcalls := hverdict.success
    rwa [List.mem_append, or_iff_right hgood.noSuccess] at hcalls
  failure _ := by
    have hcalls := hverdict.failure
    rw [List.mem_append, or_iff_right hgood.noFailure] at hcalls
    exact hcalls.trans (or_congr_right (and_iff_right hgood.failures_le).symm)
  reset hrun := by
    rw [show (s.ticked r).node = create n from hverdict.reset hrun]
    exact ⟨rfl, rfl⟩

theorem Good.halted {s : System RecoveryNode σ} (hgood : Good n s.node s.since) (c : Children σ) (name : String) :
    Behaves n s (s.halted (controlNode c name)) .halt where
  retries := by
    rw [show (s.halted (controlNode c name)).calls = [] from rfl, List.append_nil, hgood.recoveries]
    exact hgood.le
  afterFailure := by
    rw [show (s.halted (controlNode c name)).calls = [] from rfl, List.append_nil]
    exact hgood.after
  success he := nomatch he
  failure he := nomatch he
  reset _ := ⟨rfl, rfl⟩

/-- どの `tick` も終わる。リセットの間に、番号 `1` の子は高々 `n` 回成功し、番号 `0` の子の失敗の後だけに動く。節は、番号 `0` の子が成功するとき、そのときだけ `SUCCESS` を返し、番号 `1` の子が失敗するか、番号 `0` の子が `n + 1` 回目に失敗するとき、そのときだけ `FAILURE` を返す。 -/
theorem recoveryNode_run {c : Children σ} (hsize : c.size = 2) (hidle : c.NeverIdle) (name : String) (n : ℕ)
    (state : σ) (inputs : List Input) :
    (∃ t, runs (controlNode c name).step (initial n state) inputs = some t) ∧
      Always (controlNode c name).step (fun s e t => Behaves n s t e) (initial n state) inputs := by
  have htick (s : System RecoveryNode σ) (hgood : Good n s.node s.since) :
      ∃ r, (controlNode c name).tick s.node s.state = some (.ok r) ∧ Behaves n s (s.ticked r) .tick ∧
        Good n r.node (if r.status = .running then s.since ++ r.execution.calls else []) := by
    obtain ⟨r, hr, hverdict⟩ := tick_verdict hsize hidle name hgood s.state
    refine ⟨r, hr, hverdict.behaves hgood, ?_⟩
    split_ifs with hrun
    · exact hverdict.running hrun
    · rw [hverdict.reset hrun]
      exact Good.create n
  have hhalt (s : System RecoveryNode σ) (hgood : Good n s.node s.since) :
      Behaves n s (s.halted (controlNode c name)) .halt ∧ Good n ((controlNode c name).halt s.node s.state).1 [] := by
    refine ⟨hgood.halted c name, ?_⟩
    rw [show ((controlNode c name).halt s.node s.state).1 = s.node.reset from rfl, hgood.reset]
    exact Good.create n
  exact ControlNode.run htick hhalt (Good.create n) inputs

/-- 一度失敗してから成功する子と、いつも成功する子。 -/
def recovering : Children ℕ where
  size := 2
  name i := toString i
  executeTick i tried := if i = 0 ∧ tried = 0 then (.failure, 1) else (.success, tried)
  haltChild _ tried := tried

theorem recovering_neverIdle : recovering.NeverIdle := by
  intro i tried
  show (if i = 0 ∧ tried = 0 then ((.failure, 1) : NodeStatus × ℕ) else (.success, tried)).1 ≠ .idle
  split_ifs <;> exact fun heq => nomatch heq

-- 一度のやり直しで成功した後に止める。
theorem recoveryNode_run_recovering :
    (∃ t, runs (controlNode recovering "recovery").step (initial 1 0) [.tick, .halt] = some t) ∧
      Always (controlNode recovering "recovery").step (fun s e t => Behaves 1 s t e) (initial 1 0) [.tick, .halt] :=
  recoveryNode_run rfl recovering_neverIdle "recovery" 1 0 [.tick, .halt]

end RecoveryNode

end Ranger.BehaviorTree
