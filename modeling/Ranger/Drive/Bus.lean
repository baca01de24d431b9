import Ranger.Can.Publish
import Ranger.Drive.Odometry

/-!
# 指令のフレームと車体の状態

`ranger_base.hpp` の `SetMotionMode`、`SetMotionCommand`、`GetRobotState` と、それが CAN に送るフレームを書き、
`RangerROSMessenger` と合わせた系を、事象を受けて遷移する関数として定める。事象は、`/cmd_vel` の到着、`PublishStateToROS` の
周期、CAN フレームの受信である。

`AgxMessage` の `float` は、ここでは実数で表す。有理数の値では、`EncodeCanFrameV2` の送るフレームに等しい。
-/

namespace Ranger.Drive
open Ranger.Lib Ranger.Can

noncomputable section

/-! ## 指令のフレーム -/

/-- `SendMotionCommand` が `motion_command_msg` に書く値。 -/
structure MotionCommand where
  linear : ℝ
  angular : ℝ
  lateral : ℝ
  steering : ℝ

def MotionCommand.values (c : MotionCommand) : List ℝ := [c.linear, c.angular, c.lateral, c.steering]

/-- `v * 1000`。 -/
def thousandfold (v : ℝ) : ℝ := v * 1000

/-- `(int16_t)(v * 1000)`。 -/
def wire (v : ℝ) : Int16 := Int16.ofInt (truncateReal (thousandfold v))

def motionCommandFrame (c : MotionCommand) : CanFrame where
  canId := CanMsg.motionCommandId
  canDlc := 8
  data := motionFrame (wire c.linear) (wire c.angular) (wire c.lateral) (wire c.steering)

def motionModeFrame (mode : UInt8) : CanFrame where
  canId := CanMsg.setMotionModeId
  canDlc := 8
  data := firstByteFrame mode

theorem put_eight (tx : CanFrame) (canId : UInt32) (frame : Fin 8 → UInt8) :
    tx.put canId 8 frame = ⟨canId, 8, frame⟩ := by
  simp only [CanFrame.put, CanFrame.mk.injEq, true_and]
  funext i
  exact if_pos i.isLt

theorem wire_cast (q : ℚ) : wire q = milli q := by
  have h : thousandfold q = ((q * 1000 : ℚ) : ℝ) := by rw [thousandfold]; push_cast; ring
  rw [wire, milli, h, truncateReal_cast]

/-- 有理数の値では、`EncodeCanFrameV2` の送るフレームに等しい。 -/
theorem motionCommandFrame_encode (stack : Fin 8 → UInt8) (count : UInt8) (b : Body) (tx : CanFrame) :
    let m := b.motionCommandMsg
    (encodeCanFrameV2 stack count ⟨.motionCommand, b⟩ tx).2.1 =
      motionCommandFrame ⟨m.linearVelocity, m.angularVelocity, m.lateralVelocity, m.steeringAngle⟩ := by
  intro m
  simp only [encodeCanFrameV2, motionCommandFrame, encodeMotionCommand, put_eight, wire_cast, m]

theorem motionModeFrame_encode (stack : Fin 8 → UInt8) (count : UInt8) (b : Body) (tx : CanFrame) :
    (encodeCanFrameV2 stack count ⟨.setMotionModeCommand, b⟩ tx).2.1 =
      motionModeFrame (b.read MotionModeMsg.motionMode) := by
  simp only [encodeCanFrameV2, motionModeFrame, put_eight]

/-! ## 車体 -/

/-- `RangerSubType` に対して作る `RangerRobot` の種類。 -/
def RangerSubType.variant : RangerSubType → Variant
  | .kRangerMiniV1 => .kRangerMiniV1
  | .kRangerMiniV2 => .kRangerMiniV2
  | .kRangerMiniV3 => .kRangerMiniV3
  | .kRanger => .kRanger

theorem variant_miniV1 {t : RangerSubType} : t.variant = .kRangerMiniV1 ↔ t = .kRangerMiniV1 := by
  cases t <;> simp [RangerSubType.variant]

structure Robot where
  variant : Variant
  canOpen : Bool
  base : AgilexBase

/-- 車体の知らせる運動の番号。 -/
def Robot.reportedMode (r : Robot) : UInt8 := r.base.coreStateMsgs.motionModeState.motionMode

/-- `GetRobotState` の `motion_state`。Mini V1 の横行では、`angular_velocity` は書かれず、`stack` のままである。 -/
def Robot.motionState (r : Robot) (stack : ℚ) : MotionStateMessage :=
  let state := r.base.coreStateMsgs.motionState
  match r.variant with
  | .kRangerMiniV1 =>
      let steering := -state.steeringAngle * 10 / 180 * 3.14
      if r.reportedMode = SdkMotionMode.kSpinning.code then
        { linearVelocity := 0
          angularVelocity := -state.linearVelocity / 0.254558
          lateralVelocity := state.lateralVelocity
          steeringAngle := steering }
      else if r.reportedMode = SdkMotionMode.kSideSlip.code then
        { linearVelocity := -state.linearVelocity
          angularVelocity := stack
          lateralVelocity := state.lateralVelocity
          steeringAngle := steering }
      else
        { linearVelocity := state.linearVelocity
          angularVelocity := -state.angularVelocity
          lateralVelocity := state.lateralVelocity
          steeringAngle := steering }
  | .kRanger | .kRangerMiniV2 | .kRangerMiniV3 => state

/-- `SetMotionMode` が送る番号。Mini V1 は、`kPark` では送らず、`kSideSlip` では `3` を送る。 -/
def Robot.modeByte (r : Robot) (mode : UInt8) : Option UInt8 :=
  match r.variant with
  | .kRangerMiniV1 =>
      if mode = SdkMotionMode.kPark.code then none
      else if mode = SdkMotionMode.kSideSlip.code then some 3
      else some mode
  | .kRanger | .kRangerMiniV2 | .kRangerMiniV3 => some mode

/-- `SetMotionCommand` が送る値。 -/
def Robot.motionCommand (r : Robot) (linearVel steerAngle angularVel : ℝ) : MotionCommand :=
  match r.variant with
  | .kRangerMiniV1 =>
      let angularVel := if r.reportedMode = SdkMotionMode.kSpinning.code then angularVel * 0.254558 else angularVel
      { linear := linearVel, angular := 0, lateral := -angularVel, steering := -steerAngle / 10.0 / 3.14 * 180.0 }
  | .kRanger | .kRangerMiniV2 | .kRangerMiniV3 =>
      { linear := linearVel, angular := angularVel, lateral := 0, steering := steerAngle }

/-- 一つの呼び出しで送るフレーム。 -/
def Robot.frames (r : Robot) : RobotCall → List CanFrame
  | .setMotionMode mode => if r.canOpen then (r.modeByte mode).toList.map motionModeFrame else []
  | .setMotionCommand linearVel steerAngle angularVel =>
      if r.canOpen then [motionCommandFrame (r.motionCommand linearVel steerAngle angularVel)] else []

/-! ## 系 -/

structure System where
  messenger : Messenger
  robot : Robot

/-- 系の事象。`publish` の `dt` は前の周期からの時間、`receive` は届いたフレームである。 -/
inductive Event
  | twist (msg : Twist)
  | publish (dt : ℝ) (stack : ℚ)
  | receive (rx : Rx)

/-- `TwistCmdCallback` が送るフレーム。 -/
def System.sent (s : System) (msg : Twist) : List CanFrame :=
  (twistCmdCallback msg s.messenger).2.flatMap s.robot.frames

/-- `PublishStateToROS` の、走行の推定に関わる部分。最初の呼び出しでは、時刻を記録するだけである。 -/
def System.publish (integrate : Integrator) (dt : ℝ) (stack : ℚ) (s : System) : Messenger :=
  if s.messenger.initRun then { s.messenger with initRun := false }
  else
    let state := s.robot.motionState stack
    (updateOdometry integrate state.linearVelocity state.lateralVelocity state.angularVelocity
      state.steeringAngle dt { s.messenger with motionMode := s.robot.reportedMode }).1

def System.step (integrate : Integrator) (s : System) : Event → Option System
  | .twist msg => some { s with messenger := (twistCmdCallback msg s.messenger).1 }
  | .publish dt stack => some { s with messenger := s.publish integrate dt stack }
  | .receive rx => (s.robot.base.parseCANFrame rx).map fun base => { s with robot := { s.robot with base } }

end

end Ranger.Drive
