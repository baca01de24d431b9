import Ranger.Can.Parser
import Ranger.Lib.Run

/-!
# 受信したフレームの記録（`AgilexBase`）

`agilex_base.hpp` の `AgilexBase<ProtocolV2Parser>` が、受信したフレームから保つ状態と、`ParseCANFrame` が呼ぶ四つの更新の
関数を書く。`std::mutex` で守られた区間は一つの動作とし、`SdkClock::now()` は、フレームの届いた時刻を返すものとする。

八つの要素を持つ配列への代入は、添字が範囲の外のとき `none` とする。
-/

namespace Ranger.Can

/-! ## 状態 -/

structure CoreStateMsgGroup where
  timeStamp : Int
  systemState : SystemStateMessage
  motionState : MotionStateMessage
  lightState : LightStateMessage
  motionModeState : MotionModeStateMessage
  rcState : RcStateMessage
  deriving Inhabited

structure ActuatorStateMsgGroup where
  timeStamp : Int
  actuatorHsState : Fin 8 → ActuatorHSStateMessage
  actuatorLsState : Fin 8 → ActuatorLSStateMessage
  actuatorState : Fin 8 → ActuatorStateMessageV1
  motorAngles : MotorAngleMessage
  motorSpeeds : MotorSpeedMessage
  deriving Inhabited

structure CommonSensorStateMsgGroup where
  timeStamp : Int
  bmsBasicState : BmsBasicMessage
  bmsExtendState : BmsExtendedMessage
  deriving Inhabited

structure AgilexBase where
  coreStateMsgs : CoreStateMsgGroup
  actuatorStateMsgs : ActuatorStateMsgGroup
  commonSensorStateMsgs : CommonSensorStateMsgGroup
  versionStringBuffer : List UInt8
  deriving Inhabited

/-! ## 更新の関数 -/

def updateRobotCoreState (statusMsg : AgxMessage) (now : Int) (g : CoreStateMsgGroup) :
    CoreStateMsgGroup :=
  match statusMsg.type with
  | .systemState => { g with timeStamp := now, systemState := statusMsg.body.systemStateMsg }
  | .motionState => { g with timeStamp := now, motionState := statusMsg.body.motionStateMsg }
  | .lightState => { g with timeStamp := now, lightState := statusMsg.body.lightStateMsg }
  | .motionModeState => { g with timeStamp := now, motionModeState := statusMsg.body.motionModeStateMsg }
  | .rcState => { g with timeStamp := now, rcState := statusMsg.body.rcStateMsg }
  | _ => g

def assignSlot {α : Type} (a : Fin 8 → α) (i : UInt8) (v : α) : Option (Fin 8 → α) :=
  if h : i.toNat < 8 then some (Function.update a ⟨i.toNat, h⟩ v) else none

/-- `time_stamp` は、メッセージの種類を見る前に書く。 -/
def updateActuatorState (statusMsg : AgxMessage) (now : Int) (g : ActuatorStateMsgGroup) :
    Option ActuatorStateMsgGroup :=
  let g := { g with timeStamp := now }
  match statusMsg.type with
  | .motorAngle => some { g with motorAngles := statusMsg.body.motorAngleMsg }
  | .motorSpeed => some { g with motorSpeeds := statusMsg.body.motorSpeedMsg }
  | .actuatorHSState =>
      let msg := statusMsg.body.actuatorHsStateMsg
      (assignSlot g.actuatorHsState msg.motorId msg).map fun a => { g with actuatorHsState := a }
  | .actuatorLSState =>
      let msg := statusMsg.body.actuatorLsStateMsg
      (assignSlot g.actuatorLsState msg.motorId msg).map fun a => { g with actuatorLsState := a }
  | .actuatorStateV1 =>
      let msg := statusMsg.body.v1ActuatorStateMsg
      (assignSlot g.actuatorState msg.motorId msg).map fun a => { g with actuatorState := a }
  | _ => some g

/-- `BmsExtended` の場合は、`time_stamp` を書かない。`break` がないが、続く `default` は何もしない。 -/
def updateCommonSensorState (statusMsg : AgxMessage) (now : Int) (g : CommonSensorStateMsgGroup) :
    CommonSensorStateMsgGroup :=
  match statusMsg.type with
  | .bmsBasic => { g with timeStamp := now, bmsBasicState := statusMsg.body.bmsBasicMsg }
  | .bmsExtended => { g with bmsExtendState := statusMsg.body.bmsExtendedMsg }
  | _ => g

/-- 印字できないバイトは空白にする。 -/
def updateResponseVersion (statusMsg : AgxMessage) (buffer : List UInt8) : List UInt8 :=
  match statusMsg.type with
  | .versionResponse =>
      buffer ++ (List.finRange 8).map fun i =>
        let data := statusMsg.body.versionResponseMsg.bytes i
        if data < 32 ∨ data > 126 then 32 else data
  | _ => buffer

/-! ## 受信 -/

/-- 受信したフレームと、届いた時刻と、`ParseCANFrame` の局所変数 `status_msg` の初期の内容。 -/
structure Rx where
  frame : CanFrame
  now : Int
  statusMsg : AgxMessage

def Rx.decoded (rx : Rx) : AgxMessage := (decodeCanFrameV2 rx.frame rx.statusMsg).2

/-- 復号したメッセージを、四つの更新の関数に順に渡す。 -/
def AgilexBase.update (s : AgilexBase) (statusMsg : AgxMessage) (now : Int) : Option AgilexBase :=
  (updateActuatorState statusMsg now s.actuatorStateMsgs).map fun actuator =>
    { coreStateMsgs := updateRobotCoreState statusMsg now s.coreStateMsgs
      actuatorStateMsgs := actuator
      commonSensorStateMsgs := updateCommonSensorState statusMsg now s.commonSensorStateMsgs
      versionStringBuffer := updateResponseVersion statusMsg s.versionStringBuffer }

def AgilexBase.parseCANFrame (s : AgilexBase) (rx : Rx) : Option AgilexBase :=
  if (decodeCanFrameV2 rx.frame rx.statusMsg).1 then s.update rx.decoded rx.now else some s

end Ranger.Can
