import Ranger.Nav.Lifecycle

/-!
# ボンドが切れた後の停止

`checkBondConnections` が切れたボンドを見つけ、`reset(true)` を呼んだ後の、ノードの状態を調べる。届かないノードや、状態の読めないノードがあると、
例外のために残りのノードの停止が打ち切られる。
-/

namespace Ranger.Nav
open Ranger.Lib

variable {Name : Type} [DecidableEq Name] {p : ManagerParams Name}

/-! ## 一つのノード -/

namespace Manager

/-- 遷移の後の処理が変えるのは、ボンドの記録だけである。 -/
theorem afterTransition_manager (m : Manager Name) (name : Name) (transition : Transition) (formed : Bool) :
    ∃ bondMap, (afterTransition p m name transition formed).2 = { m with bondMap := bondMap } := by
  cases transition with
  | activate =>
      simp only [afterTransition, createBondConnection]
      split
      · exact ⟨_, rfl⟩
      · exact ⟨m.bondMap, rfl⟩
  | configure | cleanup | unconfiguredShutdown => exact ⟨m.bondMap, rfl⟩
  | deactivate => exact ⟨_, rfl⟩

theorem nodes_afterTransition (m : Manager Name) (name : Name) (transition : Transition) (formed : Bool) :
    (afterTransition p m name transition formed).2.nodes = m.nodes := by
  obtain ⟨bondMap, h⟩ := afterTransition_manager (p := p) m name transition formed
  rw [h]

theorem nodes_changeStateForNode (m : Manager Name) (name : Name) (transition : Transition) (attempt : Attempt) :
    (changeStateForNode p m name transition attempt).2.nodes =
      match attempt.call with
      | .unavailable => m.nodes
      | .sent effect _ => Function.update m.nodes name (effect.apply transition (m.nodes name)) := by
  unfold changeStateForNode
  cases attempt.call with
  | unavailable => rfl
  | sent effect answered =>
      dsimp only
      split
      · rfl
      · split
        · rfl
        · split
          · rfl
          · exact nodes_afterTransition _ _ _ _

theorem nodes_changeStateForNode_of_ne (m : Manager Name) {name n : Name} (hne : n ≠ name)
    (transition : Transition) (attempt : Attempt) :
    (changeStateForNode p m name transition attempt).2.nodes n = m.nodes n := by
  rw [nodes_changeStateForNode]
  cases attempt.call with
  | unavailable => rfl
  | sent effect answered => exact Function.update_of_ne hne _ _

end Manager

/-! ## ノードのふるまい -/

/-- 停止のあいだのノード。届かないノードの `change_state` は例外を投げる。届くノードは、呼び出しごとに処理の結果と返事の
有無を持ち、`read` が偽のとき、返事の後の `get_state` が例外を投げる。 -/
inductive Conduct where
  | unreachable
  | reachable (answer : Transition → ℕ → Effect × Bool) (read : Transition → ℕ → Bool)

def Conduct.attempt : Conduct → Transition → ℕ → Attempt
  | .unreachable, _, _ => ⟨.unavailable, true, false⟩
  | .reachable answer read, transition, i =>
      ⟨.sent (answer transition i).1 (answer transition i).2, read transition i, false⟩

def oracleOf (conduct : Name → Conduct) : Oracle Name := fun transition i name =>
  (conduct name).attempt transition i

/-- `i` 番目の呼び出しが例外を投げる。 -/
def Conduct.throws : Conduct → Transition → ℕ → Bool
  | .unreachable, _, _ => true
  | .reachable answer read, transition, i => (answer transition i).2 && !read transition i

/-- 届き、この遷移がいつも成功するノード。 -/
def Conduct.Succeeds (c : Conduct) (transition : Transition) : Prop :=
  ∃ answer read, c = .reachable answer read ∧ ∀ i, answer transition i = (.success, true)

/-- 活動中で、届き、自身の停止と片付けが成功するノード。 -/
def Stoppable (m : Manager Name) (conduct : Name → Conduct) (name : Name) : Prop :=
  m.nodes name = .active ∧ (conduct name).Succeeds .deactivate ∧ (conduct name).Succeeds .cleanup

section Calls

variable (conduct : Name → Conduct) (transition : Transition)

/-- どのノードの呼び出しも、例外を投げない。 -/
def Completes : ℕ → List Name → Prop
  | _, [] => True
  | i, name :: rest => (conduct name).throws transition i = false ∧ Completes (i + 1) rest

/-- ノード `n` の手前のどのノードの呼び出しも、例外を投げない。 -/
def Reaches (n : Name) : ℕ → List Name → Prop
  | _, [] => False
  | i, name :: rest => name = n ∨ ((conduct name).throws transition i = false ∧ Reaches n (i + 1) rest)

end Calls

omit [DecidableEq Name] in
theorem Completes.reaches {conduct : Name → Conduct} {transition : Transition} {n : Name} {i : ℕ} {names : List Name}
    (h : Completes conduct transition i names) (hn : n ∈ names) : Reaches conduct transition n i names := by
  induction names generalizing i with
  | nil => cases hn
  | cons name rest ih =>
      rcases List.mem_cons.mp hn with rfl | hmem
      · exact Or.inl rfl
      · exact Or.inr ⟨h.1, ih h.2 hmem⟩

theorem Effect.success_apply {transition : Transition} {state : NodeState}
    (h : state = transition.source ∨ state = transition.target) :
    Effect.success.apply transition state = transition.target := by
  unfold Effect.apply
  split
  · rfl
  · rename_i hne
    exact h.resolve_left hne

namespace Manager

variable {conduct : Name → Conduct} {transition : Transition}

theorem changeStateForNode_none_iff (m : Manager Name) (name : Name) (i : ℕ) :
    (changeStateForNode p m name transition ((conduct name).attempt transition i)).1 = none ↔
      (conduct name).throws transition i = true := by
  cases hc : conduct name with
  | unreachable => simp [Conduct.attempt, Conduct.throws, changeStateForNode]
  | reachable answer read =>
      simp only [Conduct.attempt, Conduct.throws, changeStateForNode]
      by_cases hanswered : (answer transition i).2 = true
      · by_cases hread : read transition i = true
        · simp only [hanswered, hread, Bool.not_true, Bool.false_eq_true, if_false, Bool.and_false, iff_false]
          split <;> simp
        · simp [hanswered, hread]
      · simp [hanswered]

theorem nodes_of_succeeds (m : Manager Name) {name : Name} (i : ℕ) (hc : (conduct name).Succeeds transition)
    (hstate : m.nodes name = transition.source ∨ m.nodes name = transition.target) :
    (changeStateForNode p m name transition ((conduct name).attempt transition i)).2.nodes name =
      transition.target := by
  obtain ⟨answer, read, hreach, hanswer⟩ := hc
  rw [nodes_changeStateForNode, hreach]
  simp only [Conduct.attempt, hanswer, Function.update_self]
  exact Effect.success_apply hstate

/-! ## 全てのノード -/

theorem changeStateForNodes_hard_cons (i : ℕ) {name : Name} (rest : List Name) (m : Manager Name)
    (hquiet : (conduct name).throws transition i = false) :
    changeStateForNodes p transition true (oracleOf conduct transition) i (name :: rest) m =
      changeStateForNodes p transition true (oracleOf conduct transition) (i + 1) rest
        (changeStateForNode p m name transition ((conduct name).attempt transition i)).2 := by
  have hsome : (changeStateForNode p m name transition ((conduct name).attempt transition i)).1 ≠ none := by
    rw [Ne, changeStateForNode_none_iff, hquiet]
    exact Bool.false_ne_true
  rw [changeStateForNodes, oracleOf]
  split
  · rename_i m' heq
    rw [heq] at hsome
    exact absurd rfl hsome
  · rename_i ok m' heq
    rw [heq]
    simp

/-- 例外が投げられると、残りのノードは扱われない。 -/
theorem changeStateForNodes_throws (i : ℕ) {name : Name} (rest : List Name) (m : Manager Name)
    (hthrows : (conduct name).throws transition i = true) :
    changeStateForNodes p transition true (oracleOf conduct transition) i (name :: rest) m =
      (false, (changeStateForNode p m name transition ((conduct name).attempt transition i)).2) := by
  have hnone := (changeStateForNode_none_iff (p := p) m name i).mpr hthrows
  rw [changeStateForNodes, oracleOf]
  split
  · rename_i m' heq
    rw [heq]
  · rename_i ok m' heq
    rw [heq] at hnone
    cases hnone

/-- 例外が投げられなければ、どのノードの成否にもよらず、最後まで進む。 -/
theorem changeStateForNodes_hard_iff (i : ℕ) (names : List Name) (m : Manager Name) :
    (changeStateForNodes p transition true (oracleOf conduct transition) i names m).1 = true ↔
      Completes conduct transition i names := by
  induction names generalizing i m with
  | nil => simp [changeStateForNodes, Completes]
  | cons name rest ih =>
      cases hthrows : (conduct name).throws transition i with
      | true =>
          rw [changeStateForNodes_throws i rest m hthrows]
          simp [Completes, hthrows]
      | false =>
          rw [changeStateForNodes_hard_cons i rest m hthrows, ih]
          simp [Completes, hthrows]

/-- 一つのノードの呼び出しの後も、成功するノードは、初めの状態か目標の状態にある。 -/
theorem changeStateForNode_range (m : Manager Name) (i : ℕ) (name : Name) {n : Name}
    (hc : (conduct n).Succeeds transition)
    (hstate : m.nodes n = transition.source ∨ m.nodes n = transition.target) :
    (changeStateForNode p m name transition ((conduct name).attempt transition i)).2.nodes n = transition.source ∨
      (changeStateForNode p m name transition ((conduct name).attempt transition i)).2.nodes n =
        transition.target := by
  by_cases heq : n = name
  · subst heq
    exact Or.inr (nodes_of_succeeds m i hc hstate)
  · rwa [nodes_changeStateForNode_of_ne m heq]

/-- 成功するノードは、初めの状態か目標の状態にある。 -/
theorem changeStateForNodes_hard_range (i : ℕ) (names : List Name) (m : Manager Name) {n : Name}
    (hc : (conduct n).Succeeds transition)
    (hstate : m.nodes n = transition.source ∨ m.nodes n = transition.target) :
    (changeStateForNodes p transition true (oracleOf conduct transition) i names m).2.nodes n = transition.source ∨
      (changeStateForNodes p transition true (oracleOf conduct transition) i names m).2.nodes n =
        transition.target := by
  induction names generalizing i m with
  | nil => exact hstate
  | cons name rest ih =>
      have hnext := changeStateForNode_range (p := p) m i name hc hstate
      cases hthrows : (conduct name).throws transition i with
      | true =>
          rw [changeStateForNodes_throws i rest m hthrows]
          exact hnext
      | false =>
          rw [changeStateForNodes_hard_cons i rest m hthrows]
          exact ih _ _ hnext

/-- 手前で例外が投げられなければ、成功するノードは目標の状態に至る。 -/
theorem changeStateForNodes_hard_target (i : ℕ) (names : List Name) (m : Manager Name) {n : Name}
    (hc : (conduct n).Succeeds transition)
    (hstate : (m.nodes n = transition.source ∧ Reaches conduct transition n i names) ∨
      m.nodes n = transition.target) :
    (changeStateForNodes p transition true (oracleOf conduct transition) i names m).2.nodes n =
      transition.target := by
  induction names generalizing i m with
  | nil => exact hstate.resolve_left fun h => h.2
  | cons name rest ih =>
      have hnext : ((changeStateForNode p m name transition ((conduct name).attempt transition i)).2.nodes n =
            transition.source ∧ (conduct name).throws transition i = false ∧ Reaches conduct transition n (i + 1) rest) ∨
          (changeStateForNode p m name transition ((conduct name).attempt transition i)).2.nodes n =
            transition.target := by
        by_cases heq : n = name
        · subst heq
          exact Or.inr (nodes_of_succeeds m i hc (hstate.imp_left And.left))
        · rw [nodes_changeStateForNode_of_ne m heq]
          exact hstate.imp_left fun h => ⟨h.1, h.2.resolve_left fun hname => heq hname.symm⟩
      cases hthrows : (conduct name).throws transition i with
      | true =>
          rw [changeStateForNodes_throws i rest m hthrows]
          exact hnext.resolve_left fun h => Bool.false_ne_true (h.2.1.symm.trans hthrows)
      | false =>
          rw [changeStateForNodes_hard_cons i rest m hthrows]
          exact ih _ _ (hnext.imp_left fun h => ⟨h.1, h.2.2⟩)

/-- 手前で例外が投げられると、ノードは扱われない。 -/
theorem changeStateForNodes_hard_skipped (i : ℕ) (names : List Name) (m : Manager Name) {n : Name}
    (hskip : ¬ Reaches conduct transition n i names) :
    (changeStateForNodes p transition true (oracleOf conduct transition) i names m).2.nodes n = m.nodes n := by
  induction names generalizing i m with
  | nil => rfl
  | cons name rest ih =>
      rw [Reaches, not_or] at hskip
      have hsame := nodes_changeStateForNode_of_ne (p := p) m (fun heq => hskip.1 heq.symm) transition
        ((conduct name).attempt transition i)
      cases hthrows : (conduct name).throws transition i with
      | true =>
          rw [changeStateForNodes_throws i rest m hthrows]
          exact hsame
      | false =>
          rw [changeStateForNodes_hard_cons i rest m hthrows, ih _ _ fun h => hskip.2 ⟨hthrows, h⟩]
          exact hsame

/-- 停止の途中で例外が投げられると、片付けは始まらない。 -/
theorem reset_hard_interrupted (m : Manager Name) (hthrows : ¬ Completes conduct .deactivate 0 (order p .deactivate))
    {n : Name} (hn : Stoppable m conduct n) :
    (reset p m true (oracleOf conduct)).nodes n ≠ .unconfigured := by
  have hfail : ¬ (changeStateForAllNodes p (deactivated m) .deactivate true (oracleOf conduct)).1 = true := by
    rwa [changeStateForAllNodes, changeStateForNodes_hard_iff]
  have hrange := changeStateForNodes_hard_range (p := p) 0 (order p .deactivate) (deactivated m) hn.2.1
    (Or.inl hn.1)
  rw [reset]
  dsimp only
  rw [if_pos (by simpa using hfail)]
  rcases hrange with hactive | hinactive
  · rw [changeStateForAllNodes, hactive]
    decide
  · rw [changeStateForAllNodes, hinactive]
    decide

/-- 停止が最後まで進んだとき、片付けられるのは、片付けの例外の手前のノードである。 -/
theorem reset_hard_completed (m : Manager Name) (hcompletes : Completes conduct .deactivate 0 (order p .deactivate))
    {n : Name} (hmem : n ∈ p.nodeNames) (hn : Stoppable m conduct n) :
    (reset p m true (oracleOf conduct)).nodes n = .unconfigured ↔
      Reaches conduct .cleanup n 0 (order p .cleanup) := by
  have hok : (changeStateForAllNodes p (deactivated m) .deactivate true (oracleOf conduct)).1 = true := by
    rwa [changeStateForAllNodes, changeStateForNodes_hard_iff]
  have hinactive := changeStateForNodes_hard_target (p := p) 0 (order p .deactivate) (deactivated m) hn.2.1
    (Or.inl ⟨hn.1, hcompletes.reaches (List.mem_reverse.mpr hmem)⟩)
  rw [reset]
  dsimp only
  rw [if_neg (by simp [hok])]
  constructor
  · intro hclean
    by_contra hskip
    rw [changeStateForAllNodes, changeStateForNodes_hard_skipped _ _ _ hskip, changeStateForAllNodes, hinactive] at hclean
    cases hclean
  · exact fun hreach => changeStateForNodes_hard_target 0 (order p .cleanup) _ hn.2.2 (Or.inl ⟨hinactive, hreach⟩)

theorem checkBonds_broken {broken : Name → Bool} {oracle : Oracle Name} {names : List Name} {m t : Manager Name}
    (hbroken : ∃ name ∈ names, broken name = true) (h : checkBonds p broken oracle names m = some t) :
    t.nodes = (reset p m true oracle).nodes := by
  induction names with
  | nil => simp at hbroken
  | cons name rest ih =>
      rw [checkBonds] at h
      split at h
      · cases h
      · split at h
        · cases h
          rfl
        · rename_i hname
          apply ih _ h
          obtain ⟨n, hmem, hn⟩ := hbroken
          refine ⟨n, (List.mem_cons.mp hmem).resolve_left ?_, hn⟩
          rintro rfl
          exact hname hn

end Manager

/-! ## 二つのノード -/

section TwoNodes

/-- 二つのサーバを管理し、どちらも活動中で、ボンドは成立している。 -/
def twoServers : ManagerParams String where
  nodeNames := ["controller_server", "planner_server"]
  bondTimeout := 4000
  attemptRespawnReconnection := false

def twoActive : Manager String where
  systemActive := true
  bondMap := fun _ => some true
  bondTimer := true
  bondRespawnTimer := false
  clients := true
  nodes := fun _ => .active

def willing : Conduct := .reachable (fun _ _ => (.success, true)) fun _ _ => true

theorem willing_succeeds (transition : Transition) : willing.Succeeds transition :=
  ⟨_, _, rfl, fun _ => rfl⟩

/-- 片付けた後の状態が読めない。 -/
def unread : Conduct := .reachable (fun _ _ => (.success, true)) fun transition _ => transition != .cleanup

end TwoNodes

end Ranger.Nav
