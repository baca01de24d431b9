import Mathlib.Logic.Function.Basic
import Ranger.Lib.Run

/-!
# 管理されるノードの起動と停止

`nav2_lifecycle_manager` の `LifecycleManager`。要求とタイマーは一つのコールバックグループで一つずつ処理される。管理される
ノードは ROS 2 のライフサイクルに従い、サービスの呼び出し、ノードの中の遷移、ボンドの成立の成否は、外から与える。
-/

namespace Ranger.Nav
open Ranger.Lib

/-! ## ライフサイクル -/

inductive NodeState where
  | unconfigured | inactive | active | finalized
  deriving DecidableEq

inductive Transition where
  | configure | cleanup | activate | deactivate | unconfiguredShutdown
  deriving DecidableEq

/-- 遷移の始まる状態。他の状態での要求は断られ、状態は変わらない。 -/
def Transition.source : Transition → NodeState
  | .configure | .unconfiguredShutdown => .unconfigured
  | .cleanup | .activate => .inactive
  | .deactivate => .active

/-- `transition_state_map_`。 -/
def Transition.target : Transition → NodeState
  | .configure | .deactivate => .inactive
  | .cleanup => .unconfigured
  | .activate => .active
  | .unconfiguredShutdown => .finalized

/-- ノードの中の処理の結果。`error` の後は、`on_error` の成否で二つに分かれる。 -/
inductive Effect where
  | success | failure | error (recovered : Bool)

def Effect.apply (effect : Effect) (transition : Transition) (state : NodeState) : NodeState :=
  if state = transition.source then
    match effect with
    | .success => transition.target
    | .failure => state
    | .error true => .unconfigured
    | .error false => .finalized
  else state

/-- `change_state` の呼び出し。`unavailable` は例外になる。`sent` の `answered` が偽のとき、返事は届かない。 -/
inductive Call where
  | unavailable
  | sent (effect : Effect) (answered : Bool)

/-- 一つのノードについての試み。`read` は `get_state` が例外を投げないこと、`formed` は `waitUntilFormed` の結果である。 -/
structure Attempt where
  call : Call
  read : Bool
  formed : Bool

/-! ## メンバ -/

structure ManagerParams (Name : Type) where
  nodeNames : List Name
  bondTimeout : Int
  attemptRespawnReconnection : Bool

/-- `bondMap` の値は、ボンドの `waitUntilFormed` が成功したかを表す。`clients` は、サービスのクライアントが残っているか。
`nodes` は、管理されるノードの状態である。 -/
structure Manager (Name : Type) where
  systemActive : Bool
  bondMap : Name → Option Bool
  bondTimer : Bool
  bondRespawnTimer : Bool
  clients : Bool
  nodes : Name → NodeState

/-- 一つの要求の中の、遷移と順番とノードごとの試み。 -/
abbrev Oracle (Name : Type) := Transition → ℕ → Name → Attempt

variable {Name : Type} [DecidableEq Name] (p : ManagerParams Name)

namespace Manager

/-- 始まりの状態。ノードの状態は問わない。 -/
def start (nodes : Name → NodeState) : Manager Name where
  systemActive := false
  bondMap := fun _ => none
  bondTimer := false
  bondRespawnTimer := false
  clients := true
  nodes := nodes

/-! ## 遷移の要求 -/

def createBondConnection (m : Manager Name) (name : Name) (formed : Bool) : Bool × Manager Name :=
  if m.bondMap name = none ∧ p.bondTimeout > 0 then
    (formed, { m with bondMap := Function.update m.bondMap name (some formed) })
  else (true, m)

def afterTransition (m : Manager Name) (name : Name) (transition : Transition) (formed : Bool) :
    Bool × Manager Name :=
  match transition with
  | .activate => createBondConnection p m name formed
  | .deactivate => (true, { m with bondMap := Function.update m.bondMap name none })
  | .configure | .cleanup | .unconfiguredShutdown => (true, m)

/-- 例外は `none` とする。成否は、返事が届いたことと、読み直した状態で決まる。 -/
def changeStateForNode (m : Manager Name) (name : Name) (transition : Transition) (attempt : Attempt) :
    Option Bool × Manager Name :=
  match attempt.call with
  | .unavailable => (none, m)
  | .sent effect answered =>
      let sent := { m with
        nodes := Function.update m.nodes name (effect.apply transition (m.nodes name)) }
      if !answered then (some false, sent)
      else if !attempt.read then (none, sent)
      else if sent.nodes name ≠ transition.target then (some false, sent)
      else
        let (ok, done) := afterTransition p sent name transition attempt.formed
        (some ok, done)

def setNode (m : Manager Name) (name : Name) (state : NodeState) : Manager Name :=
  { m with nodes := Function.update m.nodes name state }

/-- 試みの結果。ノードの状態が `state` になり、失敗して終わるか、目標の状態が確かめられて後の処理に進む。 -/
theorem changeStateForNode_cases (m : Manager Name) (name : Name) (transition : Transition) (attempt : Attempt) :
    ∃ state, (state = m.nodes name ∨ m.nodes name = transition.source) ∧
      ((∃ r, r ≠ some true ∧ changeStateForNode p m name transition attempt = (r, m.setNode name state)) ∨
        (state = transition.target ∧ changeStateForNode p m name transition attempt =
          ((some (afterTransition p (m.setNode name state) name transition attempt.formed).1),
            (afterTransition p (m.setNode name state) name transition attempt.formed).2))) := by
  unfold changeStateForNode
  cases attempt.call with
  | unavailable =>
      refine ⟨m.nodes name, Or.inl rfl, Or.inl ⟨none, by simp, ?_⟩⟩
      simp [setNode]
  | sent effect answered =>
      have hstate : effect.apply transition (m.nodes name) = m.nodes name ∨ m.nodes name = transition.source := by
        by_cases hsource : m.nodes name = transition.source
        · exact Or.inr hsource
        · exact Or.inl (by simp [Effect.apply, hsource])
      refine ⟨effect.apply transition (m.nodes name), hstate, ?_⟩
      dsimp only
      split
      · exact Or.inl ⟨some false, by simp, rfl⟩
      · split
        · exact Or.inl ⟨none, by simp, rfl⟩
        · split
          · exact Or.inl ⟨some false, by simp, rfl⟩
          · rename_i htarget
            exact Or.inr ⟨by simpa using htarget, rfl⟩

/-- `changeStateForAllNodes` の繰り返し。`i` は何番目のノードかを表す。 -/
def changeStateForNodes (transition : Transition) (hardChange : Bool) (attempts : ℕ → Name → Attempt) :
    ℕ → List Name → Manager Name → Bool × Manager Name
  | _, [], m => (true, m)
  | i, name :: rest, m =>
      match changeStateForNode p m name transition (attempts i name) with
      | (none, m') => (false, m')
      | (some ok, m') =>
          if !ok && !hardChange then (false, m')
          else changeStateForNodes transition hardChange attempts (i + 1) rest m'

/-- ノードを扱う順。停止の側の遷移は逆順である。 -/
def order : Transition → List Name
  | .configure | .activate => p.nodeNames
  | .cleanup | .deactivate | .unconfiguredShutdown => p.nodeNames.reverse

def changeStateForAllNodes (m : Manager Name) (transition : Transition) (hardChange : Bool)
    (oracle : Oracle Name) : Bool × Manager Name :=
  changeStateForNodes p transition hardChange (oracle transition) 0 (order p transition) m

/-! ## 要求 -/

/-- `system_active_` を立て、ボンドのタイマーを作る。 -/
def activated (m : Manager Name) : Manager Name :=
  { m with systemActive := true, bondTimer := if p.bondTimeout ≤ 0 then m.bondTimer else true }

/-- `system_active_` を下ろし、ボンドのタイマーを消す。 -/
def deactivated (m : Manager Name) : Manager Name := { m with systemActive := false, bondTimer := false }

def startup (m : Manager Name) (oracle : Oracle Name) : Manager Name :=
  let (configured, m₁) := changeStateForAllNodes p m .configure false oracle
  if !configured then m₁
  else
    let (ok, m₂) := changeStateForAllNodes p m₁ .activate false oracle
    if !ok then m₂ else activated p m₂

def resume (m : Manager Name) (oracle : Oracle Name) : Manager Name :=
  let (ok, m₁) := changeStateForAllNodes p m .activate false oracle
  if !ok then m₁ else activated p m₁

def pause (m : Manager Name) (oracle : Oracle Name) : Manager Name :=
  (changeStateForAllNodes p (deactivated m) .deactivate false oracle).2

def reset (m : Manager Name) (hardReset : Bool) (oracle : Oracle Name) : Manager Name :=
  let (ok, m₁) := changeStateForAllNodes p (deactivated m) .deactivate hardReset oracle
  if !ok then m₁ else (changeStateForAllNodes p m₁ .cleanup hardReset oracle).2

def shutdown (m : Manager Name) (oracle : Oracle Name) : Manager Name :=
  let m₁ := (changeStateForAllNodes p (deactivated m) .deactivate false oracle).2
  let m₂ := (changeStateForAllNodes p m₁ .cleanup false oracle).2
  { (changeStateForAllNodes p m₂ .unconfiguredShutdown false oracle).2 with clients := false }

/-! ## タイマー -/

/-- `checkBondConnections` の繰り返し。ないボンドを参照したときは `none` とする。 -/
def checkBonds (broken : Name → Bool) (oracle : Oracle Name) : List Name → Manager Name → Option (Manager Name)
  | [], m => some m
  | name :: rest, m =>
      match m.bondMap name with
      | none => none
      | some _ =>
          if broken name then
            some { reset p m true oracle with
              bondMap := fun _ => none
              bondRespawnTimer := m.bondRespawnTimer || p.attemptRespawnReconnection }
          else checkBonds broken oracle rest m

def checkBondConnections (m : Manager Name) (broken : Name → Bool) (oracle : Oracle Name) :
    Option (Manager Name) :=
  if !m.systemActive || p.nodeNames.all (fun name => (m.bondMap name).isNone) then some m
  else checkBonds p broken oracle p.nodeNames m

/-- `alive` は `get_state` が例外を投げないこと、`expired` は待ちの上限に達したこと。 -/
def checkBondRespawnConnection (m : Manager Name) (alive : Name → Bool) (expired : Bool)
    (oracle : Oracle Name) : Manager Name :=
  if m.systemActive || p.nodeNames.isEmpty then { m with bondRespawnTimer := false }
  else if p.nodeNames.all alive then startup p { m with bondRespawnTimer := false } oracle
  else if expired then { m with bondRespawnTimer := false }
  else m

inductive Event (Name : Type) where
  | startup (oracle : Oracle Name)
  | pause (oracle : Oracle Name)
  | resume (oracle : Oracle Name)
  | reset (oracle : Oracle Name)
  | shutdown (oracle : Oracle Name)
  | bondTimer (broken : Name → Bool) (oracle : Oracle Name)
  | bondRespawnTimer (alive : Name → Bool) (expired : Bool) (oracle : Oracle Name)

/-- クライアントを消した後の要求は、ないクライアントを参照する。 -/
def step (m : Manager Name) (e : Event Name) : Option (Manager Name) :=
  if !m.clients then none
  else
    match e with
    | .startup oracle => some (m.startup p oracle)
    | .pause oracle => some (m.pause p oracle)
    | .resume oracle => some (m.resume p oracle)
    | .reset oracle => some (m.reset p false oracle)
    | .shutdown oracle => some (m.shutdown p oracle)
    | .bondTimer broken oracle => if m.bondTimer then m.checkBondConnections p broken oracle else none
    | .bondRespawnTimer alive expired oracle =>
        if m.bondRespawnTimer then some (m.checkBondRespawnConnection p alive expired oracle) else none

end Manager

end Ranger.Nav
