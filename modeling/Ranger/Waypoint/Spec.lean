import Ranger.Waypoint.Lemmas.Task

/-!
# 経由点の実行の性質

系の遷移についての性質と、その性質が成り立つための条件を定める。性質と条件は、遷移の前の状態 `s`、事象 `e`、
遷移の後の状態 `t` の関係であり、`Lib.Always` で実行の全体についての性質になる。
-/

namespace Ranger.Waypoint

variable {Pose : Type}

/-! ## ゴールの送信 -/

def Sys.Sends (s : Sys Pose) (e : Event Pose) : Prop := ((s.reply e).bind Outcome.send).isSome

/-- 入口の確認を通り、CSV から経由点を一つ以上読める、シナリオを始める要求である。 -/
def Sys.StartsScene (s : Sys Pose) : Event Pose → Prop
  | .request scene ready now csv =>
      s.runner.Admits ready now scene ∧
        ((waypointFile scene).bind csv).any (fun waypoints => !waypoints.isEmpty)
  | _ => False

/-- CONTINUE の動作が、取り消しの待ちを終えて `state_` を読む。 -/
def Sys.ReadsState (s : Sys Pose) : Event Pose → Prop
  | .request scene ready now _ =>
      scene = WaypointTask.CONTINUE ∧ s.runner.Admits ready now scene ∧
        ¬ (s.runner.cancelInFlight = true ∧ s.runner.cancelDone = false)
  | .wake _ => ¬ (s.task.any (· < 10) ∧ s.runner.cancelInFlight = true ∧ s.runner.cancelDone = false)
  | _ => False

instance (s : Sys Pose) (e : Event Pose) : Decidable (s.Sends e) := inferInstanceAs (Decidable (_ = true))

instance (s : Sys Pose) : (e : Event Pose) → Decidable (s.StartsScene e)
  | .request _ _ _ _ => inferInstanceAs (Decidable (_ ∧ _))
  | .wake _ | .response _ _ | .progress _ | .feedback _ _ | .result _ _ => inferInstanceAs (Decidable False)

instance (s : Sys Pose) : (e : Event Pose) → Decidable (s.ReadsState e)
  | .request _ _ _ _ => inferInstanceAs (Decidable (_ ∧ _ ∧ _))
  | .wake _ => inferInstanceAs (Decidable (¬ _))
  | .response _ _ | .progress _ | .feedback _ _ | .result _ _ => inferInstanceAs (Decidable False)

/-! ## 古いゴールのコールバック -/

/-- 新しいゴールを送った後に届いた、古いゴールのフィードバックか結果である。 -/
def Sys.Stale (s : Sys Pose) : Event Pose → Prop
  | .feedback g _ | .result g _ => g + 1 < s.goals.length
  | _ => False

def StaleInert (s : Sys Pose) (e : Event Pose) (t : Sys Pose) : Prop :=
  s.Stale e →
    t.runner.state = s.runner.state ∧ t.runner.currentGoal = s.runner.currentGoal ∧
      t.runner.localWpIdx = s.runner.localWpIdx ∧ t.runner.pausedWaypoint = s.runner.pausedWaypoint

def Serialized (s : Sys Pose) (e : Event Pose) (_ : Sys Pose) : Prop := s.Sends e → s.Settled

def Event.IsCallback : Event Pose → Prop
  | .response _ _ | .feedback _ _ | .result _ _ => True
  | _ => False

instance (s : Sys Pose) : (e : Event Pose) → Decidable (s.Stale e)
  | .feedback _ _ | .result _ _ => inferInstanceAs (Decidable (_ < _))
  | .request _ _ _ _ | .wake _ | .response _ _ | .progress _ => inferInstanceAs (Decidable False)

instance (s t : Sys Pose) (e : Event Pose) : Decidable (StaleInert s e t) :=
  inferInstanceAs (Decidable (_ → _))

instance (s t : Sys Pose) (e : Event Pose) : Decidable (Serialized s e t) :=
  inferInstanceAs (Decidable (_ → _))

/-! ## 実行中のゴールと PAUSE -/

/-- `state_` が `Running` のとき、`current_goal_` はサーバが実行しているゴールのハンドルである。 -/
def RunningHeld (s : Sys Pose) : Prop :=
  s.runner.state = .running → ∃ g ∈ s.runner.currentGoal, s.Executing g

/-- デバウンスされない PAUSE は、`Running` のとき、実行中のゴールの取り消しを送る。 -/
def PauseCancels (s : Sys Pose) : Event Pose → Prop
  | .request scene ready now csv =>
      scene = WaypointTask.PAUSE → (debounce (reqKind scene) 200 now s.runner).1 = false →
        s.runner.state = .running → ∃ g ∈ (setTask csv ready now scene s.runner).cancel, s.Executing g
  | _ => True

/-- `Running` のまま `current_goal_` が実行中のゴールを指さなくなる動作。 -/
def LosesGoal (s : Sys Pose) (e : Event Pose) : Prop :=
  s.runner.state = .running ∧
    (s.StartsScene e ∨ ∃ g ∈ s.runner.currentGoal, e = .result g .unknown)

/-- デバウンスされない PAUSE が、`Running` のとき、サーバの準備ができていないために断られる。 -/
def PauseUnready (s : Sys Pose) : Event Pose → Prop
  | .request scene ready now _ =>
      scene = WaypointTask.PAUSE ∧ ready = false ∧ (debounce (reqKind scene) 200 now s.runner).1 = false ∧
        s.runner.state = .running
  | _ => False

instance (s : Sys Pose) : Decidable (RunningHeld s) := inferInstanceAs (Decidable (_ → ∃ g ∈ _, _))

instance (s : Sys Pose) : (e : Event Pose) → Decidable (PauseCancels s e)
  | .request _ _ _ _ => inferInstanceAs (Decidable (_ → _ → _ → ∃ g ∈ _, _))
  | .wake _ | .response _ _ | .progress _ | .feedback _ _ | .result _ _ => inferInstanceAs (Decidable True)

/-! ## 断られた要求 -/

/-- デバウンスの記録のほかに、再開に関わるメンバが変わらない。 -/
def SameRecord (r r' : Runner) : Prop :=
  r'.pausedWaypoint = r.pausedWaypoint ∧ r'.lastScene = r.lastScene ∧ r'.state = r.state ∧
    r'.baseStartIdx = r.baseStartIdx ∧ r'.localWpIdx = r.localWpIdx ∧
    r'.lastGoalSize = r.lastGoalSize ∧ r'.currentGoal = r.currentGoal

/-- `respond = true` と答えるもののほかに、要求の動作は、再開に関わるメンバを変えない。取り消しを待って眠る動作も含む。 -/
def RefusalKeeps (s : Sys Pose) (e : Event Pose) (t : Sys Pose) : Prop :=
  ∀ o ∈ s.reply e, o.respond ≠ some true → SameRecord s.runner t.runner

/-- 入口の確認を通った、シナリオを始める要求で、CSV を開けないか、経由点がない。そのうえ、再開の記録が、
その要求の書き込む値と異なる。 -/
def ForgetsResume (s : Sys Pose) : Event Pose → Prop
  | .request scene ready now csv =>
      s.runner.Admits ready now scene ∧ ∃ file ∈ waypointFile scene,
        (csv file = none ∧ s.runner.pausedWaypoint ≠ -1) ∨
          (csv file = some [] ∧ (s.runner.pausedWaypoint ≠ -1 ∨ s.runner.lastScene ≠ scene))
  | _ => False

instance (r r' : Runner) : Decidable (SameRecord r r') := inferInstanceAs (Decidable (_ ∧ _))

instance (s t : Sys Pose) (e : Event Pose) : Decidable (RefusalKeeps s e t) :=
  inferInstanceAs (Decidable (∀ o ∈ _, _ → _))

/-! ## CONTINUE の重複 -/

def Sys.Resumed (s : Sys Pose) (g : Nat) (phase : GoalPhase) : Prop :=
  s.goals[g]?.any (fun goal => goal.byContinue && goal.phase = phase)

/-- CONTINUE がゴールを送るのは、CONTINUE が前に送ったゴールがどれも未了でないときだけである。 -/
def ContinueAlone (s : Sys Pose) (e : Event Pose) (_ : Sys Pose) : Prop :=
  e.isContinue → s.Sends e → ∀ g < s.goals.length, ¬ s.Resumed g .sent ∧ ¬ s.Resumed g .accepted

/-- CONTINUE が送ったゴールについて、サーバの応答の前に別の CONTINUE が `Paused` を読むことも、受理の後に別の
ゴールの ABORTED か CANCELED が届くこともない。 -/
def ContinueOrdered (s : Sys Pose) (e : Event Pose) (_ : Sys Pose) : Prop :=
  match e with
  | .result g .aborted | .result g .canceled =>
      ∀ h < s.goals.length, h ≠ g → ¬ s.Resumed h .accepted
  | _ => s.ReadsState e → s.runner.state = .paused → ∀ g < s.goals.length, ¬ s.Resumed g .sent

instance (s : Sys Pose) (g : Nat) (phase : GoalPhase) : Decidable (s.Resumed g phase) :=
  inferInstanceAs (Decidable (_ = true))

instance (s t : Sys Pose) (e : Event Pose) : Decidable (ContinueAlone s e t) :=
  inferInstanceAs (Decidable (_ → _ → ∀ g < s.goals.length, _))

instance (s t : Sys Pose) : (e : Event Pose) → Decidable (ContinueOrdered s e t)
  | .result g .aborted | .result g .canceled =>
      inferInstanceAs (Decidable (∀ h < s.goals.length, h ≠ g → _))
  | .request _ _ _ _ | .wake _ | .response _ _ | .progress _ | .feedback _ _ | .result _ .succeeded
  | .result _ .unknown => inferInstanceAs (Decidable (_ → _ → ∀ g < s.goals.length, _))

end Ranger.Waypoint
