import Mathlib.Data.Fintype.Sum
import Mathlib.Tactic.DeriveFintype
import Ranger.Can.Base

/-!
# 記録の場所とまとまり

`AgilexBase` が保つ記録を、場所（`Slot`）と、時刻を共にするまとまり（`Group`）に分ける。場所ごとに、記録するフレームの番号
と、復号したメッセージのどのメンバを記録するかを定める。
-/

namespace Ranger.Can

/-- 一種類のフレームが書く、記録の場所。 -/
inductive Slot
  | system
  | motion
  | light
  | motionMode
  | rc
  | hs (i : Fin 8)
  | ls (i : Fin 8)
  | motorAngles
  | motorSpeeds
  | bmsBasic
  | bmsExtended
  deriving DecidableEq, Fintype

/-- `time_stamp` を共にする記録のまとまり。 -/
inductive Group
  | core
  | actuator
  | sensor
  deriving DecidableEq

namespace Slot

def Value : Slot → Type
  | .system => SystemStateMessage
  | .motion => MotionStateMessage
  | .light => LightStateMessage
  | .motionMode => MotionModeStateMessage
  | .rc => RcStateMessage
  | .hs _ => ActuatorHSStateMessage
  | .ls _ => ActuatorLSStateMessage
  | .motorAngles => MotorAngleMessage
  | .motorSpeeds => MotorSpeedMessage
  | .bmsBasic => BmsBasicMessage
  | .bmsExtended => BmsExtendedMessage

def type : Slot → MsgType
  | .system => .systemState
  | .motion => .motionState
  | .light => .lightState
  | .motionMode => .motionModeState
  | .rc => .rcState
  | .hs _ => .actuatorHSState
  | .ls _ => .actuatorLSState
  | .motorAngles => .motorAngle
  | .motorSpeeds => .motorSpeed
  | .bmsBasic => .bmsBasic
  | .bmsExtended => .bmsExtended

def canId : Slot → UInt32
  | .system => CanMsg.systemStateId
  | .motion => CanMsg.motionStateId
  | .light => CanMsg.lightStateId
  | .motionMode => CanMsg.currentCtrlMode
  | .rc => CanMsg.rcStateId
  | .hs i => CanMsg.deviceId CanMsg.actuator1HsStateId i
  | .ls i => CanMsg.deviceId CanMsg.actuator1LsStateId i
  | .motorAngles => CanMsg.motorAngleInfo
  | .motorSpeeds => CanMsg.motorSpeedInfo
  | .bmsBasic => CanMsg.bmsBasicId
  | .bmsExtended => CanMsg.bmsExtendedId

def group : Slot → Group
  | .system | .motion | .light | .motionMode | .rc => .core
  | .hs _ | .ls _ | .motorAngles | .motorSpeeds => .actuator
  | .bmsBasic | .bmsExtended => .sensor

def read : (slot : Slot) → AgilexBase → slot.Value
  | .system, s => s.coreStateMsgs.systemState
  | .motion, s => s.coreStateMsgs.motionState
  | .light, s => s.coreStateMsgs.lightState
  | .motionMode, s => s.coreStateMsgs.motionModeState
  | .rc, s => s.coreStateMsgs.rcState
  | .hs i, s => s.actuatorStateMsgs.actuatorHsState i
  | .ls i, s => s.actuatorStateMsgs.actuatorLsState i
  | .motorAngles, s => s.actuatorStateMsgs.motorAngles
  | .motorSpeeds, s => s.actuatorStateMsgs.motorSpeeds
  | .bmsBasic, s => s.commonSensorStateMsgs.bmsBasicState
  | .bmsExtended, s => s.commonSensorStateMsgs.bmsExtendState

def body : (slot : Slot) → AgxMessage → slot.Value
  | .system, msg => msg.body.systemStateMsg
  | .motion, msg => msg.body.motionStateMsg
  | .light, msg => msg.body.lightStateMsg
  | .motionMode, msg => msg.body.motionModeStateMsg
  | .rc, msg => msg.body.rcStateMsg
  | .hs _, msg => msg.body.actuatorHsStateMsg
  | .ls _, msg => msg.body.actuatorLsStateMsg
  | .motorAngles, msg => msg.body.motorAngleMsg
  | .motorSpeeds, msg => msg.body.motorSpeedMsg
  | .bmsBasic, msg => msg.body.bmsBasicMsg
  | .bmsExtended, msg => msg.body.bmsExtendedMsg

/-- 更新の関数が、メッセージを場所に記録する条件。 -/
def Owns : Slot → AgxMessage → Prop
  | .hs i, msg => msg.type = .actuatorHSState ∧ msg.body.actuatorHsStateMsg.motorId.toNat = i
  | .ls i, msg => msg.type = .actuatorLSState ∧ msg.body.actuatorLsStateMsg.motorId.toNat = i
  | slot, msg => msg.type = slot.type

instance : (slot : Slot) → (msg : AgxMessage) → Decidable (slot.Owns msg)
  | .hs _, _ | .ls _, _ => inferInstanceAs (Decidable (_ ∧ _))
  | .system, _ | .motion, _ | .light, _ | .motionMode, _ | .rc, _ | .motorAngles, _ | .motorSpeeds, _
  | .bmsBasic, _ | .bmsExtended, _ => inferInstanceAs (Decidable (_ = _))

def writes (slot : Slot) (rx : Rx) : Option slot.Value :=
  if rx.frame.canId = slot.canId then some (slot.body rx.decoded) else none

end Slot

namespace Group

def timeStamp : Group → AgilexBase → Int
  | .core, s => s.coreStateMsgs.timeStamp
  | .actuator, s => s.actuatorStateMsgs.timeStamp
  | .sensor, s => s.commonSensorStateMsgs.timeStamp

/-- フレームは、まとまりの場所のどれかに書く。 -/
def Stores (g : Group) (rx : Rx) : Prop := ∃ slot : Slot, slot.group = g ∧ rx.frame.canId = slot.canId

instance (g : Group) (rx : Rx) : Decidable (g.Stores rx) := inferInstanceAs (Decidable (∃ _, _))

def arrival (g : Group) (rx : Rx) : Option Int := if g.Stores rx then some rx.now else none

end Group

end Ranger.Can
