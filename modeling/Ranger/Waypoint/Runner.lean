import Mathlib.Data.List.Basic
import Mathlib.Algebra.Order.Ring.Int

/-!
# 経由点の実行（`WaypointRunner`）

`wego_2d_nav/src/waypoint_runner.cpp` の `WaypointRunner` のメンバと関数を、状態を受け渡す関数として書く。
サービス `setTask` と、アクションの三つのコールバックのほかに、状態を書き換える関数はない。

`int` の添字は `Int` で、ゴールのハンドルは送った順の番号で表す。ログの出力と、費用地図の消去を頼む `tryClearCostmaps` は、メンバを読み書き
しないので省く。CSV の読み込みは、その時点で `loadCSV` が返すもの（開けないとき `none`）を引数で受け取る。
-/

namespace Ranger.Waypoint

inductive RunState
  | idle
  | running
  | pausing
  | paused
  deriving DecidableEq, Repr

inductive ResultCode
  | unknown
  | succeeded
  | canceled
  | aborted
  deriving DecidableEq, Repr

/-- `waypoint_N_file_path` の五つのパラメータが指すファイル。 -/
inductive WaypointFile
  | one
  | two
  | three
  | four
  | five
  deriving DecidableEq, Repr

/-! ## `WaypointTask.srv` の `scene` の値 -/

namespace WaypointTask

def ONE_GO : Int := 1
def TWO_GO : Int := 2
def THREE_GO : Int := 3
def FOUR_GO : Int := 4
def FIVE_GO : Int := 5
def PAUSE : Int := 7
def CONTINUE : Int := 8

end WaypointTask

/-- シナリオを始める `scene` の値と、そのファイル。 -/
def waypointFile (scene : Int) : Option WaypointFile :=
  if scene = WaypointTask.ONE_GO then some .one
  else if scene = WaypointTask.TWO_GO then some .two
  else if scene = WaypointTask.THREE_GO then some .three
  else if scene = WaypointTask.FOUR_GO then some .four
  else if scene = WaypointTask.FIVE_GO then some .five
  else none

/-! ## メンバ -/

/-- `WaypointRunner` のメンバ。時刻は `steady_clock` のナノ秒で表す。 -/
structure Runner where
  state : RunState := .idle
  currentWaypoint : Int := -1
  pausedWaypoint : Int := -1
  lastScene : Int := -1
  baseStartIdx : Int := 0
  localWpIdx : Int := -1
  lastGoalSize : Int := 0
  cancelInFlight : Bool := false
  cancelDone : Bool := true
  lastReqTp : Int := 0
  lastReqKind : Int := -1
  currentGoal : Option Nat := none
  deriving DecidableEq, Repr

variable {Pose : Type}

/-- サービスの一回の動作の結果。`respond` は応答（待っている間は `none`）、`sleep` は CONTINUE の待ちのループの
次の添字、`send` は `async_send_goal` に渡した経由点、`cancel` は `async_cancel_goal` に渡したハンドル。 -/
structure Outcome (Pose : Type) where
  runner : Runner
  respond : Option Bool
  sleep : Option Nat := none
  send : Option (List Pose) := none
  cancel : Option Nat := none

/-! ## 補助の関数 -/

def sliceFrom (v : List Pose) (startIdxInclusive : Int) : List Pose :=
  let start := if startIdxInclusive < 0 then 0 else startIdxInclusive
  if start ≥ (v.length : Int) then [] else v.drop start.toNat

/-- 送った経由点を第二成分で返す。経由点が空のとき、送らない。 -/
def sendWaypointsGoal (waypoints : List Pose) (baseIdx : Int) (r : Runner) :
    Runner × Option (List Pose) :=
  if waypoints.isEmpty then (r, none)
  else
    ({ r with baseStartIdx := baseIdx, localWpIdx := -1, lastGoalSize := waypoints.length },
      some waypoints)

/-- 同じ種類の要求が `ms` ミリ秒以内に続いたとき `true`（要求を捨てる）。 -/
def debounce (kind ms now : Int) (r : Runner) : Bool × Runner :=
  if kind = r.lastReqKind ∧ (now - r.lastReqTp).tdiv 1000000 < ms then (true, r)
  else (false, { r with lastReqKind := kind, lastReqTp := now })

/-- 要求の種類。0 は新しい実行、1 は PAUSE、2 は CONTINUE。 -/
def reqKind (scene : Int) : Int :=
  if scene = WaypointTask.PAUSE then 1 else if scene = WaypointTask.CONTINUE then 2 else 0

/-! ## サービス `setTask` -/

def refuse (r : Runner) : Outcome Pose := { runner := r, respond := some false }

def pauseTask (r : Runner) : Outcome Pose :=
  if r.state ≠ .running then refuse r
  else
    match r.currentGoal with
    | some g =>
        { runner := { r with cancelInFlight := true, cancelDone := false, state := .pausing }
          respond := some true
          cancel := some g }
    | none => refuse r

/-- `setTask` の CONTINUE の場合の、取り消しを待つループより後。 -/
def resumeTask (csv : WaypointFile → Option (List Pose)) (r : Runner) : Outcome Pose :=
  if r.state ≠ .paused then refuse r
  else
    match waypointFile r.lastScene with
    | none => refuse r
    | some file =>
        match csv file with
        | none => refuse r
        | some all =>
            if all.isEmpty then refuse r
            else
              let resumeIdx := max 0 (r.pausedWaypoint + 1)
              let remain := sliceFrom all resumeIdx
              if remain.isEmpty then { runner := r, respond := some true }
              else
                let sent := sendWaypointsGoal remain resumeIdx { r with currentGoal := none }
                { runner := sent.1, respond := some true, send := sent.2 }

/-- `setTask` の CONTINUE の場合。取り消しが終わるまで、100 ミリ秒ずつ 10 回まで待つ。待つ間は `sleep` を返し、
ほかのコールバックが動いた後で、その添字から続ける。 -/
def continueTask (csv : WaypointFile → Option (List Pose)) (i : Nat) (r : Runner) : Outcome Pose :=
  if i < 10 ∧ r.cancelInFlight = true ∧ r.cancelDone = false then
    { runner := r, respond := none, sleep := some (i + 1) }
  else resumeTask csv r

/-- `setTask` の、シナリオを始める場合。`last_scene_` は CSV を開けたときだけ、`paused_waypoint_` はいつも
書き換わる。 -/
def sceneTask (csv : WaypointFile → Option (List Pose)) (scene : Int) (file : WaypointFile)
    (r : Runner) : Outcome Pose :=
  match csv file with
  | none => refuse { r with pausedWaypoint := -1 }
  | some waypoints =>
      let r₁ := { r with lastScene := scene, pausedWaypoint := -1 }
      if waypoints.isEmpty then refuse r₁
      else
        let sent := sendWaypointsGoal waypoints 0 { r₁ with currentGoal := none }
        { runner := sent.1, respond := some true, send := sent.2 }

def dispatchTask (csv : WaypointFile → Option (List Pose)) (scene : Int) (r : Runner) :
    Outcome Pose :=
  match waypointFile scene with
  | some file => sceneTask csv scene file r
  | none =>
      if scene = WaypointTask.PAUSE then pauseTask r
      else if scene = WaypointTask.CONTINUE then continueTask csv 0 r
      else refuse r

/-- `setTask`。`ready` は `action_server_is_ready()`、`now` は `debounce` が読む時刻。 -/
def setTask (csv : WaypointFile → Option (List Pose)) (ready : Bool) (now scene : Int) (r : Runner) :
    Outcome Pose :=
  if ready = false then refuse r
  else
    match debounce (reqKind scene) 200 now r with
    | (true, _) => refuse r
    | (false, r₁) => dispatchTask csv scene r₁

/-! ## アクションのコールバック -/

/-- `goalResponseCallback`。断られたとき `goal_handle` は空である。第二成分は発行する状態の番号。 -/
def goalResponseCallback (goalHandle : Option Nat) (r : Runner) : Runner × UInt8 :=
  match goalHandle with
  | none => (r, 11)
  | some g => ({ r with currentGoal := some g, state := .running }, 10)

def feedbackCallback (currentWaypoint : Int) (r : Runner) : Runner :=
  { r with localWpIdx := currentWaypoint, currentWaypoint := currentWaypoint }

/-- `resultCallback` の最初に計算する、最後に終えた経由点の番号。 -/
def lastCompletedGlobal (code : ResultCode) (r : Runner) : Int :=
  if code = .succeeded then r.baseStartIdx + max (r.lastGoalSize - 1) 0
  else r.baseStartIdx + max (r.localWpIdx - 1) (-1)

/-- `resultCallback`。第二成分は発行する状態の番号。 -/
def resultCallback (code : ResultCode) (r : Runner) : Runner × UInt8 :=
  let lastCompleted := lastCompletedGlobal code r
  match code with
  | .succeeded =>
      ({ r with pausedWaypoint := max r.pausedWaypoint lastCompleted, cancelInFlight := false,
                cancelDone := true, state := .idle }, 20)
  | .aborted =>
      ({ r with pausedWaypoint := max r.pausedWaypoint lastCompleted, currentGoal := none,
                cancelInFlight := false, cancelDone := true, state := .paused }, 21)
  | .canceled =>
      ({ r with pausedWaypoint := max r.pausedWaypoint lastCompleted, currentGoal := none,
                cancelInFlight := false, cancelDone := true, state := .paused }, 22)
  | .unknown => (r, 30)

end Ranger.Waypoint
