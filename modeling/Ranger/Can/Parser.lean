import Mathlib.Data.Fin.VecNotation
import Ranger.Can.Message
import Ranger.Lib.Wire

/-!
# CAN フレームの復号と符号化（`agilex_msg_parser_v2.c`）

`DecodeCanFrameV2` と `EncodeCanFrameV2` を書く。フレームの構造体は詰めて置かれ、`struct16_t` と `struct32_t` は上位の
バイトから並ぶので、フレームの領域は、データのバイトの番号で指す。

復号は、渡された `msg` の領域のうち、フレームの種類のメンバだけを書き換える。符号化で `TODO` とされた種類は、初期化して
いない局所変数をそのまま写すので、その内容を引数 `stack` で受け取る。
-/

namespace Ranger.Can
open Ranger.Lib

-- データの番号 `Fin 8` の数字が、どのモジュールでも同じ項になるように、名前のついたインスタンスにする。
instance neZeroEight : NeZero (8 : Nat) := ⟨Nat.succ_ne_zero 7⟩

structure CanFrame where
  canId : UInt32
  canDlc : UInt8
  data : Fin 8 → UInt8

/-! ## フレームの番号 -/

namespace CanMsg

def motionCommandId : UInt32 := 0x111
def lightCommandId : UInt32 := 0x121
def brakingCommandId : UInt32 := 0x131
def setMotionModeId : UInt32 := 0x141
def systemStateId : UInt32 := 0x211
def motionStateId : UInt32 := 0x221
def lightStateId : UInt32 := 0x231
def rcStateId : UInt32 := 0x241
def actuator1HsStateId : UInt32 := 0x251
def actuator1LsStateId : UInt32 := 0x261
def motorAngleInfo : UInt32 := 0x271
def motorSpeedInfo : UInt32 := 0x281
def currentCtrlMode : UInt32 := 0x291
def odometryId : UInt32 := 0x311
def imuAccelId : UInt32 := 0x321
def imuGyroId : UInt32 := 0x322
def imuEulerId : UInt32 := 0x323
def safetyBumperId : UInt32 := 0x331
def ultrasonic1Id : UInt32 := 0x341
def uwb1Id : UInt32 := 0x351
def bmsBasicId : UInt32 := 0x361
def bmsExtendedId : UInt32 := 0x362
def versionRequestId : UInt32 := 0x411
def versionResponseId : UInt32 := 0x4a1
def ctrlModeConfigId : UInt32 := 0x421
def steerNeutralRequestId : UInt32 := 0x431
def steerNeutralResponseId : UInt32 := 0x43a
def stateResetConfigId : UInt32 := 0x441

/-- 一台目から続く番号を持つ装置の、`i` 番目の番号。 -/
def deviceId (first : UInt32) (i : Nat) : UInt32 := first + UInt32.ofNat i

end CanMsg

def deviceTypes (first : UInt32) (n : Nat) (type : MsgType) : List (UInt32 × MsgType) :=
  (List.range n).map fun i => (CanMsg.deviceId first i, type)

def singleTypes : List (UInt32 × MsgType) :=
  [(CanMsg.motionCommandId, .motionCommand), (CanMsg.lightCommandId, .lightCommand),
    (CanMsg.brakingCommandId, .brakingCommand), (CanMsg.systemStateId, .systemState),
    (CanMsg.motionStateId, .motionState), (CanMsg.lightStateId, .lightState),
    (CanMsg.rcStateId, .rcState), (CanMsg.currentCtrlMode, .motionModeState),
    (CanMsg.odometryId, .odometry), (CanMsg.imuAccelId, .imuAccel), (CanMsg.imuGyroId, .imuGyro),
    (CanMsg.imuEulerId, .imuEuler), (CanMsg.safetyBumperId, .safetyBumper),
    (CanMsg.bmsBasicId, .bmsBasic), (CanMsg.bmsExtendedId, .bmsExtended),
    (CanMsg.versionRequestId, .versionRequest), (CanMsg.versionResponseId, .versionResponse),
    (CanMsg.ctrlModeConfigId, .controlModeConfig), (CanMsg.steerNeutralRequestId, .steerNeutralRequest),
    (CanMsg.steerNeutralResponseId, .steerNeutralResponse),
    (CanMsg.stateResetConfigId, .stateResetConfig), (CanMsg.motorAngleInfo, .motorAngle),
    (CanMsg.motorSpeedInfo, .motorSpeed)]

/-- `DecodeCanFrameV2` の `switch` の、番号と種類。 -/
def canMsgTypes : List (UInt32 × MsgType) :=
  singleTypes ++ deviceTypes CanMsg.actuator1HsStateId 8 .actuatorHSState ++
    deviceTypes CanMsg.actuator1LsStateId 8 .actuatorLSState ++
    deviceTypes CanMsg.ultrasonic1Id 8 .ultrasonic ++ deviceTypes CanMsg.uwb1Id 4 .uwb

def msgTypeOf (canId : UInt32) : Option MsgType := canMsgTypes.lookup canId

/-! ## フレームの領域 -/

namespace CanFrame

/-- `i` 番目のバイトから置かれた `struct16_t`。 -/
def struct16 (rx : CanFrame) (i : Fin 8) : UInt16 := be16 (rx.data i) (rx.data (i + 1))

def struct32 (rx : CanFrame) (i : Fin 8) : UInt32 :=
  be32 (rx.data i) (rx.data (i + 1)) (rx.data (i + 2)) (rx.data (i + 3))

def int16 (rx : CanFrame) (i : Fin 8) : ℚ := (rx.struct16 i).toInt16.toInt

def int32 (rx : CanFrame) (i : Fin 8) : ℚ := (rx.struct32 i).toInt32.toInt

end CanFrame

/-! ## 復号 -/

/-- `motion_command_msg` と `motion_state_msg` の復号。二つの構造体は同じ配置である。 -/
def decodeMotion (rx : CanFrame) (b : Body) : Body :=
  (((b.write MotionMsg.linearVelocity (rx.int16 0 / 1000)).write
    MotionMsg.angularVelocity (rx.int16 2 / 1000)).write
    MotionMsg.lateralVelocity (rx.int16 4 / 1000)).write
    MotionMsg.steeringAngle (rx.int16 6 / 1000)

/-- `light_command_msg` の復号。`LightState` のフレームも、このメンバに書く。 -/
def decodeLight (rx : CanFrame) (b : Body) : Body :=
  ((((b.write LightMsg.enableCmdCtrl (rx.data 0 != 0)).write
    LightMsg.frontMode (rx.data 1).toUInt32).write
    LightMsg.frontCustomValue (rx.data 2)).write
    LightMsg.rearMode (rx.data 3).toUInt32).write
    LightMsg.rearCustomValue (rx.data 4)

def decodeSystemState (rx : CanFrame) (b : Body) : Body :=
  (((b.write SystemStateMsg.vehicleState (rx.data 0).toUInt32).write
    SystemStateMsg.controlMode (rx.data 1).toUInt32).write
    SystemStateMsg.batteryVoltage (rx.int16 2 / 10)).write
    SystemStateMsg.errorCode (rx.struct16 4)

namespace RcSwitch

def up : UInt32 := 0
def middle : UInt32 := 1
def down : UInt32 := 2

end RcSwitch

/-- 二つの位置を持つスイッチ。どちらの並びでもないとき、書かない。 -/
def rcTwoWay (sws mask upMask downMask : UInt8) : Option UInt32 :=
  if sws &&& mask = upMask then some RcSwitch.up
  else if sws &&& mask = downMask then some RcSwitch.down
  else none

def rcThreeWay (sws mask upMask middleMask downMask : UInt8) : Option UInt32 :=
  if sws &&& mask = upMask then some RcSwitch.up
  else if sws &&& mask = middleMask then some RcSwitch.middle
  else if sws &&& mask = downMask then some RcSwitch.down
  else none

def rcSwa (sws : UInt8) : Option UInt32 := rcTwoWay sws 0b00000011 0b00000010 0b00000011
def rcSwb (sws : UInt8) : Option UInt32 := rcThreeWay sws 0b00001100 0b00001000 0b00000100 0b00001100
def rcSwc (sws : UInt8) : Option UInt32 := rcThreeWay sws 0b00110000 0b00100000 0b00010000 0b00110000
def rcSwd (sws : UInt8) : Option UInt32 := rcTwoWay sws 0b11000000 0b10000000 0b11000000

def Body.assign (b : Body) (f : Field Scalar.enum) : Option UInt32 → Body
  | some v => b.write f v
  | none => b

def decodeRcState (rx : CanFrame) (b : Body) : Body :=
  let sws := rx.data 0
  let b := Body.assign b RcStateMsg.swa (rcSwa sws)
  let b := Body.assign b RcStateMsg.swb (rcSwb sws)
  let b := Body.assign b RcStateMsg.swc (rcSwc sws)
  let b := Body.assign b RcStateMsg.swd (rcSwd sws)
  ((((b.write RcStateMsg.stickRightV (rx.data 2).toInt8).write
    RcStateMsg.stickRightH (rx.data 1).toInt8).write
    RcStateMsg.stickLeftV (rx.data 3).toInt8).write
    RcStateMsg.stickLeftH (rx.data 4).toInt8).write
    RcStateMsg.varA (rx.data 5).toInt8

def decodeActuatorHsState (rx : CanFrame) (b : Body) : Body :=
  (((b.write ActuatorHSStateMsg.motorId (rx.canId - CanMsg.actuator1HsStateId).toUInt8).write
    ActuatorHSStateMsg.rpm (rx.struct16 0).toInt16).write
    ActuatorHSStateMsg.current (rx.int16 2 / 10)).write
    ActuatorHSStateMsg.pulseCount (rx.struct32 4).toInt32

/-- `motor_id` は、`actuator_hs_state_msg` を通して書く。 -/
def decodeActuatorLsState (rx : CanFrame) (b : Body) : Body :=
  ((((b.write ActuatorHSStateMsg.motorId (rx.canId - CanMsg.actuator1LsStateId).toUInt8).write
    ActuatorLSStateMsg.driverVoltage (((rx.struct16 0).toNat : ℚ) / 10)).write
    ActuatorLSStateMsg.driverTemp (rx.int16 2)).write
    ActuatorLSStateMsg.motorTemp ((rx.data 4).toInt8.toInt : ℚ)).write
    ActuatorLSStateMsg.driverState (rx.data 5)

def decodeMotionModeState (rx : CanFrame) (b : Body) : Body :=
  (b.write MotionModeMsg.motionMode (rx.data 0)).write MotionModeMsg.modeChanging (rx.data 1)

def decodeOdometry (rx : CanFrame) (b : Body) : Body :=
  (b.write OdometryMsg.leftWheel (rx.int32 0)).write OdometryMsg.rightWheel (rx.int32 4)

def decodeBmsBasic (rx : CanFrame) (b : Body) : Body :=
  ((((b.write BmsBasicMsg.batterySoc (rx.data 0)).write
    BmsBasicMsg.batterySoh (rx.data 1)).write
    BmsBasicMsg.voltage (rx.int16 2 / 10)).write
    BmsBasicMsg.current (rx.int16 4 / 10)).write
    BmsBasicMsg.temperature (rx.int16 6 / 10)

def decodeBmsExtended (rx : CanFrame) (b : Body) : Body :=
  (((b.write BmsExtendedMsg.alarmStatus1 (rx.data 0)).write
    BmsExtendedMsg.alarmStatus2 (rx.data 1)).write
    BmsExtendedMsg.warnStatus1 (rx.data 2)).write
    BmsExtendedMsg.warnStatus2 (rx.data 3)

def decodeVersionResponse (rx : CanFrame) (b : Body) : Body :=
  (List.finRange 8).foldl (fun b i => b.write (VersionResponseMsg.bytes i) (rx.data i)) b

def decodeControlModeConfig (rx : CanFrame) (b : Body) : Body :=
  b.write ModeConfigMsg.mode (rx.data 0).toUInt32

def decodeStateResetConfig (rx : CanFrame) (b : Body) : Body :=
  b.write StateResetConfigMsg.errorClearByte (rx.data 0)

def decodeMotorAngle (rx : CanFrame) (b : Body) : Body :=
  (((b.write MotorAngleMsg.angle5 (rx.int16 0 / 1000)).write
    MotorAngleMsg.angle6 (rx.int16 2 / 1000)).write
    MotorAngleMsg.angle7 (rx.int16 4 / 1000)).write
    MotorAngleMsg.angle8 (rx.int16 6 / 1000)

def decodeMotorSpeed (rx : CanFrame) (b : Body) : Body :=
  (((b.write MotorSpeedMsg.speed1 (rx.int16 0 / 1000)).write
    MotorSpeedMsg.speed2 (rx.int16 2 / 1000)).write
    MotorSpeedMsg.speed3 (rx.int16 4 / 1000)).write
    MotorSpeedMsg.speed4 (rx.int16 6 / 1000)

/-- 種類ごとの復号。残りの種類は、`TODO` として何も書かない。 -/
def decodeBody (type : MsgType) (rx : CanFrame) (b : Body) : Body :=
  match type with
  | .motionCommand | .motionState => decodeMotion rx b
  | .lightCommand | .lightState => decodeLight rx b
  | .systemState => decodeSystemState rx b
  | .rcState => decodeRcState rx b
  | .actuatorHSState => decodeActuatorHsState rx b
  | .actuatorLSState => decodeActuatorLsState rx b
  | .motionModeState => decodeMotionModeState rx b
  | .odometry => decodeOdometry rx b
  | .bmsBasic => decodeBmsBasic rx b
  | .bmsExtended => decodeBmsExtended rx b
  | .versionResponse => decodeVersionResponse rx b
  | .controlModeConfig => decodeControlModeConfig rx b
  | .stateResetConfig => decodeStateResetConfig rx b
  | .motorAngle => decodeMotorAngle rx b
  | .motorSpeed => decodeMotorSpeed rx b
  | _ => b

/-- `DecodeCanFrameV2`。第一成分は戻り値、第二成分は呼び出しの後の `*msg`。 -/
def decodeCanFrameV2 (rx : CanFrame) (msg : AgxMessage) : Bool × AgxMessage :=
  match msgTypeOf rx.canId with
  | none => (false, { msg with type := .unknown })
  | some type => (true, { type, body := decodeBody type rx msg.body })

/-! ## 符号化 -/

/-- 番号と長さを書き、`frame` の先頭の `dlc` バイトを写す。 -/
def CanFrame.put (tx : CanFrame) (canId : UInt32) (dlc : UInt8) (frame : Fin 8 → UInt8) : CanFrame :=
  { canId, canDlc := dlc, data := fun i => if i.val < dlc.toNat then frame i else tx.data i }

def milli (v : ℚ) : Int16 := Int16.ofInt (truncate (v * 1000))

def motionFrame (linear angular lateral steering : Int16) : Fin 8 → UInt8 :=
  ![highByteSigned linear, lowByteSigned linear, highByteSigned angular, lowByteSigned angular,
    highByteSigned lateral, lowByteSigned lateral, highByteSigned steering, lowByteSigned steering]

def encodeMotionCommand (b : Body) : Fin 8 → UInt8 :=
  let msg := b.motionCommandMsg
  motionFrame (milli msg.linearVelocity) (milli msg.angularVelocity) (milli msg.lateralVelocity)
    (milli msg.steeringAngle)

def encodeMotionState (b : Body) : Fin 8 → UInt8 :=
  let msg := b.motionStateMsg
  motionFrame (milli msg.linearVelocity) (milli msg.angularVelocity) (milli msg.lateralVelocity)
    (milli msg.steeringAngle)

def encodeLightCommand (count : UInt8) (b : Body) : Fin 8 → UInt8 :=
  let msg := b.lightCommandMsg
  if msg.enableCmdCtrl then
    ![1, msg.frontLight.mode.toUInt8, msg.frontLight.customValue, msg.rearLight.mode.toUInt8,
      msg.rearLight.customValue, 0, 0, count]
  else ![0, 0, 0, 0, 0, 0, 0, count]

/-- `reserved0` と `count` は書かれず、`stack` のままである。 -/
def encodeSystemState (stack : Fin 8 → UInt8) (b : Body) : Fin 8 → UInt8 :=
  let msg := b.systemStateMsg
  let battery := UInt16.ofInt (truncate (msg.batteryVoltage * 10))
  ![msg.vehicleState.toUInt8, msg.controlMode.toUInt8, highByte battery, lowByte battery,
    highByte msg.errorCode, lowByte msg.errorCode, stack 6, stack 7]

def firstByteFrame (v : UInt8) : Fin 8 → UInt8 := ![v, 0, 0, 0, 0, 0, 0, 0]

/-- `EncodeCanFrameV2`。`count` は `LightCommand` の静的変数で、第三成分はその後の値である。 -/
def encodeCanFrameV2 (stack : Fin 8 → UInt8) (count : UInt8) (msg : AgxMessage) (tx : CanFrame) :
    Bool × CanFrame × UInt8 :=
  let b := msg.body
  match msg.type with
  | .motionCommand => (true, tx.put CanMsg.motionCommandId 8 (encodeMotionCommand b), count)
  | .lightCommand => (true, tx.put CanMsg.lightCommandId 8 (encodeLightCommand count b), count + 1)
  | .brakingCommand => (true, tx.put CanMsg.brakingCommandId 2 stack, count)
  | .setMotionModeCommand =>
      (true, tx.put CanMsg.setMotionModeId 8 (firstByteFrame (b.read MotionModeMsg.motionMode)), count)
  | .systemState => (true, tx.put CanMsg.systemStateId 8 (encodeSystemState stack b), count)
  | .motionState => (true, tx.put CanMsg.motionStateId 8 (encodeMotionState b), count)
  | .lightState => (true, tx.put CanMsg.lightStateId 8 stack, count)
  | .rcState => (true, tx.put CanMsg.rcStateId 8 stack, count)
  | .actuatorHSState =>
      (true, tx.put ((b.read ActuatorHSStateMsg.motorId).toUInt32 + CanMsg.actuator1HsStateId) 8 stack, count)
  | .actuatorLSState =>
      (true, tx.put ((b.read ActuatorLSStateMsg.motorId).toUInt32 + CanMsg.actuator1LsStateId) 8 stack, count)
  | .odometry => (true, tx.put CanMsg.odometryId 8 stack, count)
  | .imuAccel => (true, tx.put CanMsg.imuAccelId 8 stack, count)
  | .imuGyro => (true, tx.put CanMsg.imuGyroId 8 stack, count)
  | .imuEuler => (true, tx.put CanMsg.imuEulerId 8 stack, count)
  | .safetyBumper => (true, tx.put CanMsg.safetyBumperId 8 stack, count)
  | .ultrasonic => (true, tx.put ((b.read SensorMsg.sensorId).toUInt32 + CanMsg.ultrasonic1Id) 8 stack, count)
  | .uwb => (true, tx.put ((b.read SensorMsg.sensorId).toUInt32 + CanMsg.uwb1Id) 8 stack, count)
  | .bmsBasic => (true, tx.put CanMsg.bmsBasicId 8 stack, count)
  | .bmsExtended => (true, tx.put CanMsg.bmsExtendedId 8 stack, count)
  | .versionRequest => (true, tx.put CanMsg.versionRequestId 8 stack, count)
  | .versionResponse => (true, tx.put CanMsg.versionResponseId 8 stack, count)
  | .controlModeConfig =>
      (true, tx.put CanMsg.ctrlModeConfigId 8 (firstByteFrame b.controlModeConfigMsg.mode.toUInt8), count)
  -- `brake_mode_config_msg` でなく `control_mode_config_msg` を読む。
  | .brakeModeConfig =>
      (true, tx.put CanMsg.brakingCommandId 8 (firstByteFrame b.controlModeConfigMsg.mode.toUInt8), count)
  | .steerNeutralRequest => (true, tx.put CanMsg.steerNeutralRequestId 8 stack, count)
  | .steerNeutralResponse => (true, tx.put CanMsg.steerNeutralResponseId 8 stack, count)
  | .stateResetConfig => (true, tx.put CanMsg.stateResetConfigId 8 stack, count)
  | .unknown | .motionModeState | .motorAngle | .motorSpeed | .motionCommandV1 | .valueSetCommandV1
  | .valueSetStateV1 | .actuatorStateV1 => (false, tx, count)

end Ranger.Can
