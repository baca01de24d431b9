import Ranger.Can.Payload

/-!
# 一版のフレームの復号と符号化（`agilex_msg_parser_v1.c`）

`DecodeCanFrameV1`、`EncodeCanFrameV1` と、検査の和 `CalcCanFrameChecksumV1` を書く。復号は、検査の和が 0 かどうかだけを
調べ、受信した検査のバイト `data[7]` を読まない。
-/

namespace Ranger.Can
open Ranger.Lib

/-! ## フレームの番号とメッセージの配置 -/

namespace CanMsgV1

def motionCommandId : UInt32 := 0x130
def lightCommandId : UInt32 := 0x140
def valueSetCommandId : UInt32 := 0x210
def motionStateId : UInt32 := 0x131
def lightStateId : UInt32 := 0x141
def systemStateId : UInt32 := 0x151
def valueSetStateId : UInt32 := 0x211
def actuator1StateId : UInt32 := 0x200
def actuator2StateId : UInt32 := 0x201
def actuator3StateId : UInt32 := 0x202
def actuator4StateId : UInt32 := 0x203

/-- 復号の `switch` の番号。車体から届くフレームの番号である。 -/
def feedbackIds : List UInt32 :=
  [systemStateId, motionStateId, lightStateId, valueSetStateId, actuator1StateId, actuator2StateId,
    actuator3StateId, actuator4StateId]

end CanMsgV1

namespace MotionCommandMsgV1

def linear : Field Scalar.float := ⟨8⟩
def angular : Field Scalar.float := ⟨12⟩
def lateral : Field Scalar.float := ⟨16⟩

end MotionCommandMsgV1

namespace ValueSetMsgV1

def setNeutral : Field Scalar.bool := ⟨0⟩

end ValueSetMsgV1

def Body.v1SetNeutral (b : Body) : Bool := b.read ValueSetMsgV1.setNeutral

/-! ## 検査の和 -/

/-- `CalcCanFrameChecksumV1`。和は 8 ビットで桁あふれする。 -/
def calcCanFrameChecksumV1 (id : UInt16) (data : Fin 8 → UInt8) (dlc : UInt8) : UInt8 :=
  ((List.finRange 8).filter fun i => i.val < dlc.toNat - 1).foldl (fun checksum i => checksum + data i)
    ((id &&& 0x00ff).toUInt8 + (id >>> 8).toUInt8 + dlc)

def CanFrame.checksumV1 (f : CanFrame) : UInt8 := calcCanFrameChecksumV1 f.canId.toUInt16 f.data f.canDlc

/-! ## 復号 -/

def decodeSystemStateV1 (rx : CanFrame) (b : Body) : Body :=
  (((b.write SystemStateMsg.vehicleState (rx.data 0).toUInt32).write
    SystemStateMsg.controlMode (rx.data 1).toUInt32).write
    SystemStateMsg.batteryVoltage (((rx.struct16 2).toNat : ℚ) / 10)).write
    SystemStateMsg.errorCode (rx.struct16 4)

/-- `steering_angle` は書かない。 -/
def decodeMotionStateV1 (rx : CanFrame) (b : Body) : Body :=
  ((b.write MotionMsg.linearVelocity (rx.int16 0 / 1000)).write
    MotionMsg.angularVelocity (rx.int16 2 / 1000)).write
    MotionMsg.lateralVelocity (rx.int16 4 / 1000)

def decodeActuatorStateV1 (rx : CanFrame) (b : Body) : Body :=
  ((((b.write ActuatorStateMsgV1.motorId (rx.canId - CanMsgV1.actuator1StateId).toUInt8).write
    ActuatorStateMsgV1.current (rx.int16 0 / 10)).write
    ActuatorStateMsgV1.rpm (rx.struct16 2).toInt16).write
    ActuatorStateMsgV1.driverTemp ((rx.data 4).toNat : ℚ)).write
    ActuatorStateMsgV1.motorTemp ((rx.data 5).toNat : ℚ)

/-- `DecodeCanFrameV1`。第一成分は戻り値、第二成分は呼び出しの後の `*msg`。 -/
def decodeCanFrameV1 (rx : CanFrame) (msg : AgxMessage) : Bool × AgxMessage :=
  if rx.checksumV1 = 0 then (false, msg)
  else if rx.canId = CanMsgV1.systemStateId then
    (true, { type := .systemState, body := decodeSystemStateV1 rx msg.body })
  else if rx.canId = CanMsgV1.motionStateId then
    (true, { type := .motionState, body := decodeMotionStateV1 rx msg.body })
  else if rx.canId = CanMsgV1.lightStateId then
    (true, { type := .lightState, body := decodeLight rx msg.body })
  else if rx.canId = CanMsgV1.valueSetStateId then
    (true, { type := .valueSetStateV1, body := msg.body.write ValueSetMsgV1.setNeutral (rx.data 0 == 0xaa) })
  else if rx.canId = CanMsgV1.actuator1StateId ∨ rx.canId = CanMsgV1.actuator2StateId ∨
      rx.canId = CanMsgV1.actuator3StateId ∨ rx.canId = CanMsgV1.actuator4StateId then
    (true, { type := .actuatorStateV1, body := decodeActuatorStateV1 rx msg.body })
  else (false, msg)

/-! ## 符号化 -/

/-- 種類ごとの `static` の `count`。 -/
structure CountsV1 where
  motion : UInt8 := 0
  valueSet : UInt8 := 0
  light : UInt8 := 0

/-- 内容を書いてから、末尾のバイトに検査の和を書く。 -/
def CanFrame.putChecked (tx : CanFrame) (canId : UInt32) (frame : Fin 8 → UInt8) : CanFrame :=
  (tx.put canId 8 frame).set 7 (tx.put canId 8 frame).checksumV1

def percentage (v : ℚ) : UInt8 := (Int8.ofInt (truncate v)).toUInt8

/-- `EncodeCanFrameV1`。末尾の検査のバイトは、書き換える前は定まらないので 0 とする。 -/
def encodeCanFrameV1 (counts : CountsV1) (msg : AgxMessage) (tx : CanFrame) : Bool × CanFrame × CountsV1 :=
  let b := msg.body
  match msg.type with
  | .motionCommandV1 =>
      (true, tx.putChecked CanMsgV1.motionCommandId
        ![0x01, 0x00, percentage (b.read MotionCommandMsgV1.linear),
          percentage (b.read MotionCommandMsgV1.angular), percentage (b.read MotionCommandMsgV1.lateral),
          0, counts.motion, 0], { counts with motion := counts.motion + 1 })
  | .valueSetCommandV1 =>
      (true, tx.putChecked CanMsgV1.valueSetCommandId
        ![if Body.v1SetNeutral b then 0xaa else 0x00, 0, 0, 0, 0, 0, counts.valueSet, 0],
        { counts with valueSet := counts.valueSet + 1 })
  | .lightCommand =>
      let m := b.lightCommandMsg
      (true, tx.putChecked CanMsgV1.lightCommandId
        (if m.enableCmdCtrl then
          ![0x01, m.frontLight.mode.toUInt8, m.frontLight.customValue, m.rearLight.mode.toUInt8,
            m.rearLight.customValue, 0, counts.light, 0]
        else ![0x00, 0, 0, 0, 0, 0, counts.light, 0]),
        { counts with light := counts.light + 1 })
  | _ => (false, tx, counts)

end Ranger.Can
