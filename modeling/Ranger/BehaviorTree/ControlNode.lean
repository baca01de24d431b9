import Ranger.Lib.Run

/-!
# 子を順に動かす節

`nav2_behavior_tree` の `plugins/control` の節が使う、`BT::ControlNode` と子の節の模型。子の節は `src` の外にあるので、その動作は引数とする。節に届く `tick` と `halt` の列と、最後のリセットから後の子の結果の列を記録する。
-/

namespace Ranger.BehaviorTree
open Ranger.Lib

/-- `BT::NodeStatus` -/
inductive NodeStatus
  | idle
  | running
  | success
  | failure
deriving DecidableEq, Repr

/-- 子の番号と、その `executeTick` が返した結果。 -/
abbrev ChildTick := ℕ × NodeStatus

inductive Exception
  | behaviorTreeException (message : String)
  | logicError (message : String)
  | runtimeError (message : String)
deriving DecidableEq, Repr

/-- 子の節の列。`σ` は子の全体の状態である。 -/
structure Children (σ : Type) where
  size : ℕ
  name : ℕ → String
  executeTick : ℕ → σ → NodeStatus × σ
  haltChild : ℕ → σ → σ

/-- 最後に結果を一つ加えた列を、一つの結果の前後に分けると、それは加えた結果であるか、もとの列の中にある。 -/
theorem split_append {h pre post : List ChildTick} {e e' : ChildTick} (heq : h ++ [e] = pre ++ e' :: post) :
    pre = h ∧ e' = e ∨ ∃ post', h = pre ++ e' :: post' := by
  rcases List.eq_nil_or_concat post with rfl | ⟨post, last, rfl⟩
  · obtain ⟨rfl, hlast⟩ := List.append_inj' heq rfl
    exact Or.inl ⟨rfl, (List.singleton_inj.mp hlast).symm⟩
  · rw [List.concat_eq_append, ← List.cons_append, ← List.append_assoc] at heq
    exact Or.inr ⟨post, (List.append_inj' heq rfl).1⟩

def Children.NeverIdle {σ : Type} (c : Children σ) : Prop := ∀ i state, (c.executeTick i state).1 ≠ .idle

/-! ## 一回の `tick` -/

/-- 子の状態と、この `tick` の間に子が返した結果の列。 -/
structure Execution (σ : Type) where
  state : σ
  calls : List ChildTick

/-- `tick` の返した結果と、その後の節と子。 -/
structure Ticked (N σ : Type) where
  status : NodeStatus
  node : N
  execution : Execution σ

namespace Execution

variable {σ : Type}

/-- 子 `i` を動かした後。結果は `calls` の最後に加わる。 -/
def executeTick (c : Children σ) (i : ℕ) (x : Execution σ) : Execution σ where
  state := (c.executeTick i x.state).2
  calls := x.calls ++ [(i, (c.executeTick i x.state).1)]

def haltChild (c : Children σ) (i : ℕ) (x : Execution σ) : Execution σ := { x with state := c.haltChild i x.state }

def haltChildren (c : Children σ) (x : Execution σ) : Execution σ :=
  (List.range c.size).foldl (fun x i => x.haltChild c i) x

@[simp] theorem calls_executeTick (c : Children σ) (i : ℕ) (x : Execution σ) :
    (x.executeTick c i).calls = x.calls ++ [(i, (c.executeTick i x.state).1)] := rfl

@[simp] theorem calls_haltChild (c : Children σ) (i : ℕ) (x : Execution σ) : (x.haltChild c i).calls = x.calls := rfl

@[simp] theorem calls_haltChildren (c : Children σ) (x : Execution σ) : (x.haltChildren c).calls = x.calls := by
  unfold haltChildren
  induction c.size with
  | zero => rfl
  | succ n ih => rw [List.range_succ, List.foldl_append, List.foldl_cons, List.foldl_nil, calls_haltChild, ih]

end Execution

/-! ## `tick` と `halt` の列 -/

/-- `tick` と `halt` を持つ節。`tick` は、終わらないとき `none` である。 -/
structure ControlNode (N σ : Type) where
  tick : N → σ → Option (Except Exception (Ticked N σ))
  halt : N → σ → N × σ

inductive Input
  | tick
  | halt
deriving DecidableEq, Repr

/-- 節と子の状態、最後のリセットから後の子の結果の列 `since`、最後の入力の間の子の結果の列 `calls` と返した結果。 -/
structure System (N σ : Type) where
  node : N
  state : σ
  since : List ChildTick
  calls : List ChildTick
  status : NodeStatus

variable {N σ : Type} {c : ControlNode N σ} {s : System N σ}

/-- `tick` の後。`RUNNING` を返さない `tick` はリセットである。 -/
def System.ticked (s : System N σ) (r : Ticked N σ) : System N σ where
  node := r.node
  state := r.execution.state
  since := if r.status = .running then s.since ++ r.execution.calls else []
  calls := r.execution.calls
  status := r.status

def System.halted (s : System N σ) (c : ControlNode N σ) : System N σ where
  node := (c.halt s.node s.state).1
  state := (c.halt s.node s.state).2
  since := []
  calls := []
  status := .idle

/-- 一つの入力を受ける。`tick` が終わらないか、例外を投げるとき `none` である。 -/
def ControlNode.step (c : ControlNode N σ) (s : System N σ) : Input → Option (System N σ)
  | .tick =>
    match c.tick s.node s.state with
    | some (.ok r) => some (s.ticked r)
    | some (.error _) => none
    | none => none
  | .halt => some (s.halted c)

theorem ControlNode.step_tick {r : Ticked N σ} (h : c.tick s.node s.state = some (.ok r)) :
    c.step s .tick = some (s.ticked r) := by
  rw [step, h]

/-- 節とリセットから後の結果の不変条件 `Good` を、`tick` と `halt` が保つとき、どの列も終わりまで進み、どの入力でも `P` が成り立つ。 -/
theorem ControlNode.run {Good : N → List ChildTick → Prop} {P : System N σ → Input → System N σ → Prop}
    (htick : ∀ s, Good s.node s.since → ∃ r, c.tick s.node s.state = some (.ok r) ∧ P s .tick (s.ticked r) ∧
      Good r.node (if r.status = .running then s.since ++ r.execution.calls else []))
    (hhalt : ∀ s, Good s.node s.since → P s .halt (s.halted c) ∧ Good (c.halt s.node s.state).1 [])
    (hs : Good s.node s.since) (inputs : List Input) :
    (∃ t, runs c.step s inputs = some t) ∧ Always c.step P s inputs := by
  have htotal (s : System N σ) (e : Input) (hgood : Good s.node s.since) :
      ∃ t, c.step s e = some t ∧ P s e t ∧ Good t.node t.since := by
    cases e with
    | tick =>
        obtain ⟨r, hr, hP, hnext⟩ := htick s hgood
        exact ⟨s.ticked r, ControlNode.step_tick hr, hP, hnext⟩
    | halt => exact ⟨s.halted c, rfl, hhalt s hgood⟩
  obtain ⟨hruns, halways⟩ := Always.of_total htotal (fun _ _ _ h => h.2) hs inputs
  exact ⟨hruns, halways.mono fun _ _ _ _ h => h.1⟩

end Ranger.BehaviorTree
