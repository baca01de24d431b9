import Ranger.Lib.Cells
import Mathlib.Data.Fintype.Pi
import Mathlib.Data.Rat.Defs

/-!
# 車体と交わすメッセージ（`AgxMessage`）

`ugv_sdk` の `agilex_message.h` の構造体と、`AgxMessage` の共用体 `body` を書く。共用体は、C の構造体の配置の位置に
値を置く `Lib.Cells` で表し、構造体の名前のついたメンバは、その位置から読む。

`float` は有理数で、列挙型は、受信したバイトがそのまま入るので、`UInt32` で表す。復号も符号化も読み書きしない
メンバ（IMU など）は省く。
-/

namespace Ranger.Can
open Ranger.Lib

/-! ## メッセージの構造体 -/

structure MotionCommandMessage where
  linearVelocity : ℚ
  angularVelocity : ℚ
  lateralVelocity : ℚ
  steeringAngle : ℚ
  deriving DecidableEq, Inhabited

structure AgxLightOperation where
  mode : UInt32
  customValue : UInt8
  deriving DecidableEq, Inhabited

structure LightCommandMessage where
  enableCmdCtrl : Bool
  frontLight : AgxLightOperation
  rearLight : AgxLightOperation
  deriving DecidableEq, Inhabited

abbrev LightStateMessage := LightCommandMessage

structure SystemStateMessage where
  vehicleState : UInt32
  controlMode : UInt32
  batteryVoltage : ℚ
  errorCode : UInt16
  deriving DecidableEq, Inhabited

structure MotionStateMessage where
  linearVelocity : ℚ
  angularVelocity : ℚ
  lateralVelocity : ℚ
  steeringAngle : ℚ
  deriving DecidableEq, Inhabited

structure RcStateMessage where
  swa : UInt32
  swb : UInt32
  swc : UInt32
  swd : UInt32
  stickRightV : Int8
  stickRightH : Int8
  stickLeftV : Int8
  stickLeftH : Int8
  varA : Int8
  deriving DecidableEq, Inhabited

structure ActuatorHSStateMessage where
  motorId : UInt8
  rpm : Int16
  current : ℚ
  pulseCount : Int32
  deriving DecidableEq, Inhabited

structure ActuatorLSStateMessage where
  motorId : UInt8
  driverVoltage : ℚ
  driverTemp : ℚ
  motorTemp : ℚ
  driverState : UInt8
  deriving DecidableEq, Inhabited

structure MotionModeStateMessage where
  motionMode : UInt8
  modeChanging : UInt8
  deriving DecidableEq, Inhabited

structure ActuatorStateMessageV1 where
  motorId : UInt8
  current : ℚ
  rpm : Int16
  driverTemp : ℚ
  motorTemp : ℚ
  deriving DecidableEq, Inhabited

structure OdometryMessage where
  leftWheel : ℚ
  rightWheel : ℚ
  deriving DecidableEq, Inhabited

structure BmsBasicMessage where
  batterySoc : UInt8
  batterySoh : UInt8
  voltage : ℚ
  current : ℚ
  temperature : ℚ
  deriving DecidableEq, Inhabited

structure BmsExtendedMessage where
  alarmStatus1 : UInt8
  alarmStatus2 : UInt8
  warnStatus1 : UInt8
  warnStatus2 : UInt8
  deriving DecidableEq, Inhabited

structure VersionResponseMessage where
  bytes : Fin 8 → UInt8
  deriving DecidableEq, Inhabited

structure ControlModeConfigMessage where
  mode : UInt32
  deriving DecidableEq, Inhabited

structure StateResetConfigMessage where
  errorClearByte : UInt8
  deriving DecidableEq, Inhabited

structure MotorAngleMessage where
  angle5 : ℚ
  angle6 : ℚ
  angle7 : ℚ
  angle8 : ℚ
  deriving DecidableEq, Inhabited

structure MotorSpeedMessage where
  speed1 : ℚ
  speed2 : ℚ
  speed3 : ℚ
  speed4 : ℚ
  deriving DecidableEq, Inhabited

inductive MsgType
  | unknown
  | motionCommand
  | lightCommand
  | brakingCommand
  | setMotionModeCommand
  | systemState
  | motionState
  | lightState
  | motionModeState
  | rcState
  | actuatorHSState
  | actuatorLSState
  | motorAngle
  | motorSpeed
  | odometry
  | imuAccel
  | imuGyro
  | imuEuler
  | safetyBumper
  | ultrasonic
  | uwb
  | bmsBasic
  | bmsExtended
  | versionRequest
  | versionResponse
  | controlModeConfig
  | steerNeutralRequest
  | steerNeutralResponse
  | stateResetConfig
  | brakeModeConfig
  | motionCommandV1
  | valueSetCommandV1
  | valueSetStateV1
  | actuatorStateV1
  deriving DecidableEq, Inhabited

/-! ## 共用体 -/

inductive Scalar
  | bool
  | u8
  | i8
  | u16
  | i16
  | i32
  | enum
  | float
  deriving DecidableEq, Inhabited

def Scalar.Value : Scalar → Type
  | .bool => Bool
  | .u8 => UInt8
  | .i8 => Int8
  | .u16 => UInt16
  | .i16 => Int16
  | .i32 => Int32
  | .enum => UInt32
  | .float => ℚ

instance : (t : Scalar) → Inhabited t.Value
  | .bool => inferInstanceAs (Inhabited Bool)
  | .u8 => inferInstanceAs (Inhabited UInt8)
  | .i8 => inferInstanceAs (Inhabited Int8)
  | .u16 => inferInstanceAs (Inhabited UInt16)
  | .i16 => inferInstanceAs (Inhabited Int16)
  | .i32 => inferInstanceAs (Inhabited Int32)
  | .enum => inferInstanceAs (Inhabited UInt32)
  | .float => inferInstanceAs (Inhabited ℚ)

/-- `AgxMessage` の `body`。 -/
abbrev Body := Cells Scalar.Value

instance : Inhabited Body := ⟨⟨fun _ => ⟨.u8, (0 : UInt8)⟩⟩⟩

structure AgxMessage where
  type : MsgType
  body : Body
  deriving Inhabited

/-! ## 構造体の配置 -/

namespace MotionMsg

def linearVelocity : Field Scalar.float := ⟨0⟩
def angularVelocity : Field Scalar.float := ⟨4⟩
def lateralVelocity : Field Scalar.float := ⟨8⟩
def steeringAngle : Field Scalar.float := ⟨12⟩

end MotionMsg

namespace LightMsg

def enableCmdCtrl : Field Scalar.bool := ⟨0⟩
def frontMode : Field Scalar.enum := ⟨4⟩
def frontCustomValue : Field Scalar.u8 := ⟨8⟩
def rearMode : Field Scalar.enum := ⟨12⟩
def rearCustomValue : Field Scalar.u8 := ⟨16⟩

end LightMsg

namespace SystemStateMsg

def vehicleState : Field Scalar.enum := ⟨0⟩
def controlMode : Field Scalar.enum := ⟨4⟩
def batteryVoltage : Field Scalar.float := ⟨8⟩
def errorCode : Field Scalar.u16 := ⟨12⟩

end SystemStateMsg

namespace RcStateMsg

def swa : Field Scalar.enum := ⟨0⟩
def swb : Field Scalar.enum := ⟨4⟩
def swc : Field Scalar.enum := ⟨8⟩
def swd : Field Scalar.enum := ⟨12⟩
def stickRightV : Field Scalar.i8 := ⟨16⟩
def stickRightH : Field Scalar.i8 := ⟨17⟩
def stickLeftV : Field Scalar.i8 := ⟨18⟩
def stickLeftH : Field Scalar.i8 := ⟨19⟩
def varA : Field Scalar.i8 := ⟨20⟩

end RcStateMsg

namespace ActuatorHSStateMsg

def motorId : Field Scalar.u8 := ⟨0⟩
def rpm : Field Scalar.i16 := ⟨2⟩
def current : Field Scalar.float := ⟨4⟩
def pulseCount : Field Scalar.i32 := ⟨8⟩

end ActuatorHSStateMsg

namespace ActuatorLSStateMsg

def motorId : Field Scalar.u8 := ⟨0⟩
def driverVoltage : Field Scalar.float := ⟨4⟩
def driverTemp : Field Scalar.float := ⟨8⟩
def motorTemp : Field Scalar.float := ⟨12⟩
def driverState : Field Scalar.u8 := ⟨16⟩

end ActuatorLSStateMsg

namespace MotionModeMsg

def motionMode : Field Scalar.u8 := ⟨0⟩
def modeChanging : Field Scalar.u8 := ⟨1⟩

end MotionModeMsg

namespace ActuatorStateMsgV1

def motorId : Field Scalar.u8 := ⟨0⟩
def current : Field Scalar.float := ⟨4⟩
def rpm : Field Scalar.i16 := ⟨8⟩
def driverTemp : Field Scalar.float := ⟨12⟩
def motorTemp : Field Scalar.float := ⟨16⟩

end ActuatorStateMsgV1

namespace OdometryMsg

def leftWheel : Field Scalar.float := ⟨0⟩
def rightWheel : Field Scalar.float := ⟨4⟩

end OdometryMsg

namespace BmsBasicMsg

def batterySoc : Field Scalar.u8 := ⟨0⟩
def batterySoh : Field Scalar.u8 := ⟨1⟩
def voltage : Field Scalar.float := ⟨4⟩
def current : Field Scalar.float := ⟨8⟩
def temperature : Field Scalar.float := ⟨12⟩

end BmsBasicMsg

namespace BmsExtendedMsg

def alarmStatus1 : Field Scalar.u8 := ⟨0⟩
def alarmStatus2 : Field Scalar.u8 := ⟨1⟩
def warnStatus1 : Field Scalar.u8 := ⟨2⟩
def warnStatus2 : Field Scalar.u8 := ⟨3⟩

end BmsExtendedMsg

namespace VersionResponseMsg

def bytes (i : Fin 8) : Field Scalar.u8 := ⟨i⟩

end VersionResponseMsg

namespace ModeConfigMsg

def mode : Field Scalar.enum := ⟨0⟩

end ModeConfigMsg

namespace StateResetConfigMsg

def errorClearByte : Field Scalar.u8 := ⟨0⟩

end StateResetConfigMsg

namespace SensorMsg

/-- `ultrasonic_msg` と `uwb_msg` の `sensor_id`。 -/
def sensorId : Field Scalar.u8 := ⟨0⟩

end SensorMsg

namespace MotorAngleMsg

def angle5 : Field Scalar.float := ⟨0⟩
def angle6 : Field Scalar.float := ⟨4⟩
def angle7 : Field Scalar.float := ⟨8⟩
def angle8 : Field Scalar.float := ⟨12⟩

end MotorAngleMsg

namespace MotorSpeedMsg

def speed1 : Field Scalar.float := ⟨0⟩
def speed2 : Field Scalar.float := ⟨4⟩
def speed3 : Field Scalar.float := ⟨8⟩
def speed4 : Field Scalar.float := ⟨12⟩

end MotorSpeedMsg

/-! ## 共用体のメンバ -/

namespace Body

def motionCommandMsg (b : Body) : MotionCommandMessage :=
  { linearVelocity := b.read MotionMsg.linearVelocity
    angularVelocity := b.read MotionMsg.angularVelocity
    lateralVelocity := b.read MotionMsg.lateralVelocity
    steeringAngle := b.read MotionMsg.steeringAngle }

def lightCommandMsg (b : Body) : LightCommandMessage :=
  { enableCmdCtrl := b.read LightMsg.enableCmdCtrl
    frontLight := { mode := b.read LightMsg.frontMode, customValue := b.read LightMsg.frontCustomValue }
    rearLight := { mode := b.read LightMsg.rearMode, customValue := b.read LightMsg.rearCustomValue } }

def lightStateMsg (b : Body) : LightStateMessage := b.lightCommandMsg

def systemStateMsg (b : Body) : SystemStateMessage :=
  { vehicleState := b.read SystemStateMsg.vehicleState
    controlMode := b.read SystemStateMsg.controlMode
    batteryVoltage := b.read SystemStateMsg.batteryVoltage
    errorCode := b.read SystemStateMsg.errorCode }

def motionStateMsg (b : Body) : MotionStateMessage :=
  { linearVelocity := b.read MotionMsg.linearVelocity
    angularVelocity := b.read MotionMsg.angularVelocity
    lateralVelocity := b.read MotionMsg.lateralVelocity
    steeringAngle := b.read MotionMsg.steeringAngle }

def rcStateMsg (b : Body) : RcStateMessage :=
  { swa := b.read RcStateMsg.swa
    swb := b.read RcStateMsg.swb
    swc := b.read RcStateMsg.swc
    swd := b.read RcStateMsg.swd
    stickRightV := b.read RcStateMsg.stickRightV
    stickRightH := b.read RcStateMsg.stickRightH
    stickLeftV := b.read RcStateMsg.stickLeftV
    stickLeftH := b.read RcStateMsg.stickLeftH
    varA := b.read RcStateMsg.varA }

def actuatorHsStateMsg (b : Body) : ActuatorHSStateMessage :=
  { motorId := b.read ActuatorHSStateMsg.motorId
    rpm := b.read ActuatorHSStateMsg.rpm
    current := b.read ActuatorHSStateMsg.current
    pulseCount := b.read ActuatorHSStateMsg.pulseCount }

def actuatorLsStateMsg (b : Body) : ActuatorLSStateMessage :=
  { motorId := b.read ActuatorLSStateMsg.motorId
    driverVoltage := b.read ActuatorLSStateMsg.driverVoltage
    driverTemp := b.read ActuatorLSStateMsg.driverTemp
    motorTemp := b.read ActuatorLSStateMsg.motorTemp
    driverState := b.read ActuatorLSStateMsg.driverState }

def motionModeStateMsg (b : Body) : MotionModeStateMessage :=
  { motionMode := b.read MotionModeMsg.motionMode, modeChanging := b.read MotionModeMsg.modeChanging }

def v1ActuatorStateMsg (b : Body) : ActuatorStateMessageV1 :=
  { motorId := b.read ActuatorStateMsgV1.motorId
    current := b.read ActuatorStateMsgV1.current
    rpm := b.read ActuatorStateMsgV1.rpm
    driverTemp := b.read ActuatorStateMsgV1.driverTemp
    motorTemp := b.read ActuatorStateMsgV1.motorTemp }

def odometryMsg (b : Body) : OdometryMessage :=
  { leftWheel := b.read OdometryMsg.leftWheel, rightWheel := b.read OdometryMsg.rightWheel }

def bmsBasicMsg (b : Body) : BmsBasicMessage :=
  { batterySoc := b.read BmsBasicMsg.batterySoc
    batterySoh := b.read BmsBasicMsg.batterySoh
    voltage := b.read BmsBasicMsg.voltage
    current := b.read BmsBasicMsg.current
    temperature := b.read BmsBasicMsg.temperature }

def bmsExtendedMsg (b : Body) : BmsExtendedMessage :=
  { alarmStatus1 := b.read BmsExtendedMsg.alarmStatus1
    alarmStatus2 := b.read BmsExtendedMsg.alarmStatus2
    warnStatus1 := b.read BmsExtendedMsg.warnStatus1
    warnStatus2 := b.read BmsExtendedMsg.warnStatus2 }

def versionResponseMsg (b : Body) : VersionResponseMessage :=
  { bytes := fun i => b.read (VersionResponseMsg.bytes i) }

def controlModeConfigMsg (b : Body) : ControlModeConfigMessage := { mode := b.read ModeConfigMsg.mode }

def stateResetConfigMsg (b : Body) : StateResetConfigMessage :=
  { errorClearByte := b.read StateResetConfigMsg.errorClearByte }

def motorAngleMsg (b : Body) : MotorAngleMessage :=
  { angle5 := b.read MotorAngleMsg.angle5
    angle6 := b.read MotorAngleMsg.angle6
    angle7 := b.read MotorAngleMsg.angle7
    angle8 := b.read MotorAngleMsg.angle8 }

def motorSpeedMsg (b : Body) : MotorSpeedMessage :=
  { speed1 := b.read MotorSpeedMsg.speed1
    speed2 := b.read MotorSpeedMsg.speed2
    speed3 := b.read MotorSpeedMsg.speed3
    speed4 := b.read MotorSpeedMsg.speed4 }

end Body

end Ranger.Can
