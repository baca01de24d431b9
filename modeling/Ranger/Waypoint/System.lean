import Ranger.Lib.Run
import Ranger.Waypoint.Runner

/-!
# 経由点の実行とアクションサーバ

`WaypointRunner` と、`FollowWaypoints` のサーバを合わせた系を、事象を受けて遷移する部分関数として定める。
サービスとコールバックの一回の呼び出しが一つの遷移である。サービスのコールバックグループは排他的なので、
`setTask` の呼び出しは重ならない。CONTINUE が取り消しを待つ間だけは、眠っている間にコールバックが動く。

サーバは、受け取ったゴールを受理するか断り、受理したゴールの経由点を順に処理し、フィードバックを送り、最後に
一度だけ結果を返す。`rclcpp_action` のクライアントは、受理の応答の後、結果を受け取るまでの間だけ、そのゴールの
コールバックを呼ぶ。このほかに、サーバの動作に条件は置かない。
-/

namespace Ranger.Waypoint

variable {Pose : Type}

inductive GoalPhase
  | sent
  | accepted
  | rejected
  | finished
  deriving DecidableEq, Repr

/-- 送ったゴール。`base` は `sendWaypointsGoal` に渡した `base_idx`、`processed` はサーバが処理した経由点の数、
`byContinue` は CONTINUE の要求が送ったことを表す。 -/
structure Goal (Pose : Type) where
  poses : List Pose
  base : Int
  byContinue : Bool
  phase : GoalPhase := .sent
  processed : Nat := 0
  deriving DecidableEq, Repr

/-- 断られておらず、結果も返っていない。 -/
def Goal.Outstanding (g : Goal Pose) : Prop := g.phase = .sent ∨ g.phase = .accepted

instance (g : Goal Pose) : Decidable g.Outstanding := inferInstanceAs (Decidable (_ ∨ _))

/-- 系の状態。`task` は眠っている CONTINUE の待ちのループの添字、`goals` は送った順のゴール。 -/
structure Sys (Pose : Type) where
  runner : Runner := {}
  task : Option Nat := none
  goals : List (Goal Pose) := []

/-- 系の事象。`request` と `wake` は `setTask` の呼び出しと、眠りからの続き、ほかはサーバの動作である。 -/
inductive Event (Pose : Type)
  | request (scene : Int) (ready : Bool) (now : Int) (csv : WaypointFile → Option (List Pose))
  | wake (csv : WaypointFile → Option (List Pose))
  | response (g : Nat) (accepted : Bool)
  | progress (g : Nat)
  | feedback (g : Nat) (currentWaypoint : Nat)
  | result (g : Nat) (code : ResultCode)

def Sys.perform (s : Sys Pose) (byContinue : Bool) (o : Outcome Pose) : Sys Pose :=
  { runner := o.runner
    task := o.sleep
    goals :=
      match o.send with
      | none => s.goals
      | some poses => s.goals ++ [{ poses, base := o.runner.baseStartIdx, byContinue }] }

def Sys.onGoal (s : Sys Pose) (g : Nat) (phase : GoalPhase) (f : Goal Pose → Sys Pose) :
    Option (Sys Pose) :=
  match s.goals[g]? with
  | none => none
  | some goal => if goal.phase = phase then some (f goal) else none

def Sys.reply (s : Sys Pose) : Event Pose → Option (Outcome Pose)
  | .request scene ready now csv =>
      if s.task = none then some (setTask csv ready now scene s.runner) else none
  | .wake csv => s.task.map fun i => continueTask csv i s.runner
  | _ => none

def Event.isContinue : Event Pose → Bool
  | .request scene _ _ _ => scene = WaypointTask.CONTINUE
  | .wake _ => true
  | _ => false

def Sys.step (s : Sys Pose) (e : Event Pose) : Option (Sys Pose) :=
  match e with
  | .request _ _ _ _ | .wake _ => (s.reply e).map (s.perform e.isContinue)
  | .response g true => s.onGoal g .sent fun goal =>
      { s with runner := (goalResponseCallback (some g) s.runner).1
               goals := s.goals.set g { goal with phase := .accepted } }
  | .response g false => s.onGoal g .sent fun goal =>
      { s with runner := (goalResponseCallback none s.runner).1
               goals := s.goals.set g { goal with phase := .rejected } }
  | .progress g => s.onGoal g .accepted fun goal =>
      { s with goals := s.goals.set g { goal with processed := goal.processed + 1 } }
  | .feedback g i => s.onGoal g .accepted fun _ =>
      { s with runner := feedbackCallback i s.runner }
  | .result g code => s.onGoal g .accepted fun goal =>
      { s with runner := (resultCallback code s.runner).1
               goals := s.goals.set g { goal with phase := .finished } }

def Sys.init : Sys Pose := {}

/-- サーバがゴール `g` を受理して、まだ結果を返していない。 -/
def Sys.Executing (s : Sys Pose) (g : Nat) : Prop := s.goals[g]?.map Goal.phase = some .accepted

/-- 送ったゴールは、どれも断られたか、結果が返っている。 -/
def Sys.Settled (s : Sys Pose) : Prop := ∀ goal ∈ s.goals, ¬ goal.Outstanding

instance (s : Sys Pose) (g : Nat) : Decidable (s.Executing g) := inferInstanceAs (Decidable (_ = _))

instance (s : Sys Pose) : Decidable s.Settled :=
  inferInstanceAs (Decidable (∀ goal ∈ s.goals, ¬ goal.Outstanding))

/-! ## 遷移の関係 -/

/-- 系の遷移を、起こる条件と遷移先とともに並べたもの。 -/
inductive Step : Sys Pose → Event Pose → Sys Pose → Prop
  | serve {s e o} : s.reply e = some o → Step s e (s.perform e.isContinue o)
  | accept {s g goal} : s.goals[g]? = some goal → goal.phase = .sent →
      Step s (.response g true)
        { s with runner := { s.runner with currentGoal := some g, state := .running }
                 goals := s.goals.set g { goal with phase := .accepted } }
  | reject {s g goal} : s.goals[g]? = some goal → goal.phase = .sent →
      Step s (.response g false) { s with goals := s.goals.set g { goal with phase := .rejected } }
  | progress {s g goal} : s.goals[g]? = some goal → goal.phase = .accepted →
      Step s (.progress g)
        { s with goals := s.goals.set g { goal with processed := goal.processed + 1 } }
  | feedback {s g goal} {i : Nat} : s.goals[g]? = some goal → goal.phase = .accepted →
      Step s (.feedback g i) { s with runner := feedbackCallback i s.runner }
  | result {s g goal code} : s.goals[g]? = some goal → goal.phase = .accepted →
      Step s (.result g code)
        { s with runner := (resultCallback code s.runner).1
                 goals := s.goals.set g { goal with phase := .finished } }

theorem Sys.onGoal_eq_some {s t : Sys Pose} {g phase f} :
    s.onGoal g phase f = some t ↔ ∃ goal, s.goals[g]? = some goal ∧ goal.phase = phase ∧ f goal = t := by
  unfold Sys.onGoal
  cases hg : s.goals[g]? with
  | none => simp
  | some goal => by_cases hp : goal.phase = phase <;> simp [hp]

theorem step_sound {s t : Sys Pose} {e : Event Pose} (h : s.step e = some t) : Step s e t := by
  cases e with
  | request scene ready now csv =>
      obtain ⟨o, ho, rfl⟩ := Option.map_eq_some_iff.mp h
      exact .serve ho
  | wake csv =>
      obtain ⟨o, ho, rfl⟩ := Option.map_eq_some_iff.mp h
      exact .serve ho
  | response g ok =>
      cases ok with
      | true =>
          obtain ⟨goal, hg, hp, rfl⟩ := Sys.onGoal_eq_some.mp h
          exact .accept hg hp
      | false =>
          obtain ⟨goal, hg, hp, rfl⟩ := Sys.onGoal_eq_some.mp h
          exact .reject hg hp
  | progress g =>
      obtain ⟨goal, hg, hp, rfl⟩ := Sys.onGoal_eq_some.mp h
      exact .progress hg hp
  | feedback g i =>
      obtain ⟨goal, hg, hp, rfl⟩ := Sys.onGoal_eq_some.mp h
      exact .feedback hg hp
  | result g code =>
      obtain ⟨goal, hg, hp, rfl⟩ := Sys.onGoal_eq_some.mp h
      exact .result hg hp

theorem step_complete {s t : Sys Pose} {e : Event Pose} (h : Step s e t) : s.step e = some t := by
  cases h with
  | serve ho =>
      cases e with
      | request _ _ _ _ => exact Option.map_eq_some_iff.mpr ⟨_, ho, rfl⟩
      | wake _ => exact Option.map_eq_some_iff.mpr ⟨_, ho, rfl⟩
      | _ => cases ho
  | accept hg hp => exact Sys.onGoal_eq_some.mpr ⟨_, hg, hp, rfl⟩
  | reject hg hp => exact Sys.onGoal_eq_some.mpr ⟨_, hg, hp, rfl⟩
  | progress hg hp => exact Sys.onGoal_eq_some.mpr ⟨_, hg, hp, rfl⟩
  | feedback hg hp => exact Sys.onGoal_eq_some.mpr ⟨_, hg, hp, rfl⟩
  | result hg hp => exact Sys.onGoal_eq_some.mpr ⟨_, hg, hp, rfl⟩

end Ranger.Waypoint
