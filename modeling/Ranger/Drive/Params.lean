import Mathlib.Analysis.Real.Pi.Bounds
import Ranger.Lib.Plane

/-!
# 車体のパラメータ（`ranger_params.hpp`）

車体の種類ごとのパラメータと、`RangerROSMessenger` のメンバ、`robot_model` からそれを選ぶ `LoadParameters` を書く。
`double` は実数で表す。ほかの ROS のパラメータ（名前、周期、共分散）は、運動に関わらないので省く。
-/

namespace Ranger.Drive
open Ranger.Lib

noncomputable section

structure RobotParams where
  track : ℝ
  wheelbase : ℝ
  maxLinearSpeed : ℝ
  maxAngularSpeed : ℝ
  maxSpeedCmd : ℝ
  maxSteerAngleCentral : ℝ
  maxSteerAngleParallel : ℝ
  maxSteerAngleAckermann : ℝ
  maxRoundAngle : ℝ
  minTurnRadius : ℝ

inductive RangerSubType
  | kRanger
  | kRangerMiniV1
  | kRangerMiniV2
  | kRangerMiniV3
  deriving DecidableEq

/-! ## 種類ごとの値 -/

def rangerParams : RobotParams where
  track := 0.56
  wheelbase := 0.90
  maxLinearSpeed := 2.7
  maxAngularSpeed := 0.7853
  maxSpeedCmd := 10.0
  maxSteerAngleCentral := 0.6981
  maxSteerAngleParallel := 1.570
  maxSteerAngleAckermann := 0.6981
  maxRoundAngle := 1.0057
  minTurnRadius := 0.810330349

def rangerMiniV1Params : RobotParams where
  track := 0.36
  wheelbase := 0.36
  maxLinearSpeed := 1.5
  maxAngularSpeed := 0.3
  maxSpeedCmd := 5
  maxSteerAngleCentral := 0.4280
  maxSteerAngleParallel := 0.6981
  maxSteerAngleAckermann := 0.6981
  maxRoundAngle := 0.935671
  minTurnRadius := 0.536

def rangerMiniV2Params : RobotParams where
  track := 0.364
  wheelbase := 0.494
  maxLinearSpeed := 1.5
  maxAngularSpeed := 4.8
  maxSpeedCmd := 10.0
  maxSteerAngleCentral := 0.4782
  maxSteerAngleParallel := 1.570
  maxSteerAngleAckermann := 0.6981
  maxRoundAngle := 0.935671
  minTurnRadius := 0.4764

def rangerMiniV3Params : RobotParams where
  track := 0.364
  wheelbase := 0.494
  maxLinearSpeed := 1.5
  maxAngularSpeed := 4.8
  maxSpeedCmd := 10.0
  maxSteerAngleCentral := 0.4782
  maxSteerAngleParallel := 1.570
  maxSteerAngleAckermann := 0.6981
  maxRoundAngle := 0.935671
  minTurnRadius := 0.47644

def RangerSubType.params : RangerSubType → RobotParams
  | .kRanger => rangerParams
  | .kRangerMiniV1 => rangerMiniV1Params
  | .kRangerMiniV2 => rangerMiniV2Params
  | .kRangerMiniV3 => rangerMiniV3Params

/-- 種類を指す `robot_model` の値。 -/
def RangerSubType.robotModel : RangerSubType → String
  | .kRanger => "ranger"
  | .kRangerMiniV1 => "ranger_mini_v1"
  | .kRangerMiniV2 => "ranger_mini_v2"
  | .kRangerMiniV3 => "ranger_mini_v3"

/-! ## メンバ -/

structure Pose where
  x : ℝ
  y : ℝ
  theta : ℝ

/-- `RangerROSMessenger` のメンバ。`lastNonzeroX` は `TwistCmdCallback` の `static` の変数、`initRun` は
`PublishStateToROS` の `static` の変数である。 -/
structure Messenger where
  robotType : RangerSubType
  robotParams : RobotParams
  motionMode : UInt8 := 0
  parkingMode : Bool := false
  pose : Pose := ⟨0, 0, 0⟩
  lastNonzeroX : ℝ := 1
  initRun : Bool := true

/-- `LoadParameters`。`ranger_mini_v2` の値は、続く `if` の `else` で書き換わる。 -/
def loadParameters (robotModel : String) (m : Messenger) : Messenger :=
  if robotModel = "ranger_mini_v1" then
    { m with robotType := .kRangerMiniV1, robotParams := rangerMiniV1Params, parkingMode := false }
  else
    let m :=
      if robotModel = "ranger_mini_v2" then
        { m with robotType := .kRangerMiniV2, robotParams := rangerMiniV2Params }
      else m
    let m :=
      if robotModel = "ranger_mini_v3" then
        { m with robotType := .kRangerMiniV3, robotParams := rangerMiniV3Params }
      else { m with robotType := .kRanger, robotParams := rangerParams }
    { m with parkingMode := false }

/-! ## 値の性質 -/

/-- 打ち切りの上限は負でなく、最大の速度は、千倍しても 16 ビットの符号つき整数に収まる。 -/
structure RobotParams.Bounded (p : RobotParams) : Prop where
  linear : 0 ≤ p.maxLinearSpeed ∧ p.maxLinearSpeed < 32
  angular : 0 ≤ p.maxAngularSpeed ∧ p.maxAngularSpeed < 32
  parallel : 0 ≤ p.maxSteerAngleParallel ∧ p.maxSteerAngleParallel < 32
  ackermann : 0 ≤ p.maxSteerAngleAckermann ∧ p.maxSteerAngleAckermann < 32

theorem RangerSubType.params_bounded (t : RangerSubType) : t.params.Bounded := by
  cases t <;> constructor <;>
    norm_num [RangerSubType.params, rangerParams, rangerMiniV1Params, rangerMiniV2Params, rangerMiniV3Params]

theorem loadParameters_own {t : RangerSubType} (h : t ≠ .kRangerMiniV2) (m : Messenger) :
    loadParameters t.robotModel m =
      { m with robotType := t, robotParams := t.params, parkingMode := false } := by
  cases t with
  | kRangerMiniV2 => exact absurd rfl h
  | _ => rfl

end

end Ranger.Drive
