import Ranger.Nav.Serving

/-!
# 経由点の追従

`nav2_waypoint_follower` の `WaypointFollower`。`SimpleActionServer` の実行のスレッドで `followWaypoints` が動き、経由点ごとに
`navigate_to_pose` に目標を送る。返事と結果のコールバックは、同じスレッドの `spin_some` の中で処理される。サーバの操作の
あいだには、他のスレッドの受け取りと取り消しの要求が入りうる。
-/

namespace Ranger.Nav
open Ranger.Lib

/-! ## メンバ -/

inductive ActionStatus where
  | unknown | processing | failed | succeeded
  deriving DecidableEq

/-- `navigate_to_pose` に送った目標の状態。 -/
inductive SendState where
  | waiting | accepted | rejected | finished
  deriving DecidableEq

/-- 送った目標。`goal` と `index` は、どの目標のどの経由点のために送ったかの記録である。 -/
structure Send where
  goal : ℕ
  index : ℕ
  state : SendState
  deriving DecidableEq

inductive ResultCode where
  | unknown | succeeded | canceled | aborted

/-- `followWaypoints` の位置。`idle` は呼ばれていないこと、`returning` は戻る途中を表す。 -/
inductive Phase where
  | idle | entry | checkCancel | canceling | checkPreempt | accepting | process | spinning | returning
  deriving DecidableEq

/-- メンバと、`followWaypoints` の局所変数と、記録。`poses` は目標の経由点の数、`results` は送った結果の `missed_waypoints`、
`failed` は、結果を送るまでに航行が失敗した（あるいは `stop_on_failure_` のもとで作業が失敗した）経由点である。 -/
structure Follower where
  server : ActionServer
  poses : ℕ → ℕ
  results : List (ℕ × List ℕ)
  phase : Phase
  goal : ℕ
  goalIndex : ℕ
  newGoal : Bool
  currentGoalStatus : ActionStatus
  failedIds : List ℕ
  stopOnFailure : Bool
  sends : List Send
  failed : ℕ → ℕ → Bool

namespace Follower

def init (stopOnFailure : Bool) : Follower where
  server := ActionServer.init
  poses := fun _ => 0
  results := []
  phase := .idle
  goal := 0
  goalIndex := 0
  newGoal := false
  currentGoalStatus := .unknown
  failedIds := []
  stopOnFailure := stopOnFailure
  sends := []
  failed := fun _ _ => false

/-! ## サーバの操作 -/

/-- サーバの操作で新たに送られた結果に、`missed_waypoints` の値を付けて記録する。 -/
def record (s : Follower) (server : ActionServer) (missed : List ℕ) : Follower :=
  { s with
    server := server
    results := s.results ++ (server.delivered.drop s.server.delivered.length).map fun g => (g, missed) }

/-- `is_cancel_requested`。次の目標があれば、それだけを見る。 -/
def isCancelRequested (s : Follower) : Bool :=
  match s.server.handle .current with
  | none => false
  | some g =>
      match s.server.handle .pending with
      | some h => s.server.status h = .canceling
      | none => s.server.status g = .canceling

def mark (s : Follower) (g i : ℕ) : Follower :=
  { s with failed := fun g' i' => s.failed g' i' || (g' == g && i' == i) }

/-! ## `followWaypoints` -/

def enter (s : Follower) : Option Follower :=
  match s.server.handle .current with
  | none => none
  | some g =>
      if s.poses g = 0 then some { s.record s.server.succeededCurrent [] with phase := .returning }
      else some { s with goal := g, goalIndex := 0, newGoal := true, phase := .checkCancel }

/-- 次の目標に移る。局所変数は初めに戻すが、`failed_ids_` はそのままである。 -/
def acceptPending (s : Follower) : Option Follower :=
  match s.server.handle .pending with
  | none => none
  | some h =>
      some { s.record s.server.acceptPendingGoal [] with
        goal := h
        goalIndex := 0
        newGoal := true
        phase := .process }

/-- 必要なら経由点を送る。経由点のない目標では、範囲の外を読む。 -/
def sendGoal (s : Follower) : Option Follower :=
  if !s.newGoal then some s
  else if s.goalIndex < s.poses s.goal then
    some { s with
      newGoal := false
      sends := s.sends ++ [⟨s.goal, s.goalIndex, .waiting⟩]
      currentGoalStatus := .processing }
  else none

def terminateFailed (s : Follower) : Follower :=
  { s.record s.server.terminateCurrent s.failedIds with failedIds := [], phase := .returning }

/-- 次の経由点に進み、終わりなら成功とする。 -/
def advance (s : Follower) : Follower :=
  if s.goalIndex + 1 ≥ s.poses s.goal then
    { s.record s.server.succeededCurrent s.failedIds with
      goalIndex := s.goalIndex + 1
      newGoal := true
      failedIds := []
      phase := .returning }
  else { s with goalIndex := s.goalIndex + 1, newGoal := true, phase := .spinning }

/-- `taskExecuted` は `processAtWaypoint` の結果である。 -/
def processStatus (s : Follower) (taskExecuted : Bool) : Follower :=
  match s.currentGoalStatus with
  | .failed =>
      let pushed := { s with failedIds := s.failedIds ++ [s.goalIndex] }
      if s.stopOnFailure then pushed.terminateFailed else pushed.advance
  | .succeeded =>
      if !taskExecuted && s.stopOnFailure then
        terminateFailed { s.mark s.goal s.goalIndex with failedIds := s.failedIds ++ [s.goalIndex] }
      else s.advance
  | .processing | .unknown => { s with phase := .spinning }

/-! ## コールバック -/

def setSend (s : Follower) (k : ℕ) (state : SendState) : Follower :=
  { s with sends := s.sends.modify k fun send => { send with state := state } }

/-- 追従している目標の経由点の航行が失敗したときだけ、記録に加える。 -/
def markSend (s : Follower) (send : Send) : Follower :=
  if send.goal = s.goal then s.mark send.goal send.index else s

def goalResponseCallback (s : Follower) (k : ℕ) (accepted : Bool) : Option Follower :=
  match s.sends[k]? with
  | none => none
  | some send =>
      if send.state ≠ .waiting then none
      else if accepted then some (s.setSend k .accepted)
      else some { (s.setSend k .rejected).markSend send with currentGoalStatus := .failed }

def statusOf : ResultCode → ActionStatus
  | .succeeded => .succeeded
  | .aborted | .canceled => .failed
  | .unknown => .unknown

/-- 航行の失敗。自分の取り消しの返事を待つあいだの `CANCELED` は、その取り消しの結果である。 -/
def navigationFailed (s : Follower) : ResultCode → Bool
  | .aborted => true
  | .canceled => s.phase ≠ .canceling
  | .succeeded | .unknown => false

/-- 最後に送った目標の結果だけを使う。最後の目標の返事がまだなければ待ち続け、断られていれば、ない目標を参照する。 -/
def resultCallback (s : Follower) (k : ℕ) (code : ResultCode) : Option Follower :=
  match s.sends[k]?, s.sends.getLast? with
  | some send, some last =>
      if send.state ≠ .accepted then none
      else if k + 1 = s.sends.length then
        let done := s.setSend k .finished
        let marked := if s.navigationFailed code then done.markSend send else done
        some { marked with currentGoalStatus := statusOf code }
      else if last.state = .waiting ∨ last.state = .rejected then none
      else some (s.setSend k .finished)
  | _, _ => none

/-! ## 遷移 -/

inductive Event where
  | handleAccepted (canceling : Bool) (poses : ℕ)
  | handleCancel (g : ℕ)
  | setStopOnFailure (value : Bool)
  | testLoop
  | enter
  | checkCancel
  | terminateAll
  | checkPreempt
  | acceptPending
  | process (taskExecuted : Bool)
  | goalResponse (k : ℕ) (accepted : Bool)
  | result (k : ℕ) (code : ResultCode)
  | spun
  | callbackReturn
  | threadEnd

/-- コールバックは、`spin_some` と、取り消しの返事を待つあいだに処理される。 -/
def spins (s : Follower) : Bool := s.phase = .spinning || s.phase = .canceling

def step (s : Follower) : Event → Option Follower
  | .handleAccepted canceling poses =>
      some { s.record (s.server.handleAccepted canceling) [] with
        poses := Function.update s.poses s.server.accepted poses }
  | .handleCancel g =>
      if g < s.server.accepted then some { s with server := s.server.handleCancel g } else none
  | .setStopOnFailure value => some { s with stopOnFailure := value }
  | .testLoop =>
      if s.server.worker = .loopTest then
        some { s with
          server := s.server.testLoop
          phase := if s.server.testLoop.worker = .executing then .entry else s.phase }
      else none
  | .enter => if s.phase = .entry then s.enter else none
  | .checkCancel =>
      if s.phase = .checkCancel then
        some { s with phase := if s.isCancelRequested then .canceling else .checkPreempt }
      else none
  | .terminateAll =>
      if s.phase = .canceling then some { s.record s.server.terminateAll [] with phase := .returning }
      else none
  | .checkPreempt =>
      if s.phase = .checkPreempt then
        some { s with phase := if s.server.preemptRequested then .accepting else .process }
      else none
  | .acceptPending => if s.phase = .accepting then s.acceptPending else none
  | .process taskExecuted =>
      if s.phase = .process then s.sendGoal.map fun sent => sent.processStatus taskExecuted else none
  | .goalResponse k accepted => if s.spins then s.goalResponseCallback k accepted else none
  | .result k code => if s.spins then s.resultCallback k code else none
  | .spun => if s.phase = .spinning then some { s with phase := .checkCancel } else none
  | .callbackReturn =>
      if s.phase = .returning then
        some { s.record (s.server.finishIteration false) [] with phase := .idle }
      else none
  | .threadEnd =>
      if s.server.worker = .leaving then some { s with server := { s.server with worker := .ended } } else none

end Follower

end Ranger.Nav
