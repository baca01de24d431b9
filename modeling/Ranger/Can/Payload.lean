import Mathlib.Tactic.NormNum
import Ranger.Can.Lemmas.Store

/-!
# 復号の結果が依るもの

`DecodeCanFrameV2` は、フレームの長さを見ずに、データのバイトを固定の長さの構造体として読む。二つの実行を比べ、復号の結果が
受信した長さのバイトだけで決まる条件を求める。
-/

namespace Ranger.Can
open Ranger.Lib

/-! ## 二つの実行 -/

inductive Member
  | motionCommand (m : MotionCommandMessage)
  | lightCommand (m : LightCommandMessage)
  | systemState (m : SystemStateMessage)
  | motionState (m : MotionStateMessage)
  | lightState (m : LightStateMessage)
  | rcState (m : RcStateMessage)
  | actuatorHSState (m : ActuatorHSStateMessage)
  | actuatorLSState (m : ActuatorLSStateMessage)
  | motionModeState (m : MotionModeStateMessage)
  | odometry (m : OdometryMessage)
  | bmsBasic (m : BmsBasicMessage)
  | bmsExtended (m : BmsExtendedMessage)
  | versionResponse (m : VersionResponseMessage)
  | controlModeConfig (m : ControlModeConfigMessage)
  | stateResetConfig (m : StateResetConfigMessage)
  | motorAngle (m : MotorAngleMessage)
  | motorSpeed (m : MotorSpeedMessage)
  deriving DecidableEq

/-- メッセージの種類のメンバ。復号が書かない種類では `none`。 -/
def AgxMessage.member (msg : AgxMessage) : Option Member :=
  match msg.type with
  | .motionCommand => some (.motionCommand msg.body.motionCommandMsg)
  | .lightCommand => some (.lightCommand msg.body.lightCommandMsg)
  | .systemState => some (.systemState msg.body.systemStateMsg)
  | .motionState => some (.motionState msg.body.motionStateMsg)
  | .lightState => some (.lightState msg.body.lightStateMsg)
  | .rcState => some (.rcState msg.body.rcStateMsg)
  | .actuatorHSState => some (.actuatorHSState msg.body.actuatorHsStateMsg)
  | .actuatorLSState => some (.actuatorLSState msg.body.actuatorLsStateMsg)
  | .motionModeState => some (.motionModeState msg.body.motionModeStateMsg)
  | .odometry => some (.odometry msg.body.odometryMsg)
  | .bmsBasic => some (.bmsBasic msg.body.bmsBasicMsg)
  | .bmsExtended => some (.bmsExtended msg.body.bmsExtendedMsg)
  | .versionResponse => some (.versionResponse msg.body.versionResponseMsg)
  | .controlModeConfig => some (.controlModeConfig msg.body.controlModeConfigMsg)
  | .stateResetConfig => some (.stateResetConfig msg.body.stateResetConfigMsg)
  | .motorAngle => some (.motorAngle msg.body.motorAngleMsg)
  | .motorSpeed => some (.motorSpeed msg.body.motorSpeedMsg)
  | _ => none

def SamePayload (f g : CanFrame) : Prop :=
  f.canId = g.canId ∧ f.canDlc = g.canDlc ∧ ∀ i : Fin 8, i.val < f.canDlc.toNat → f.data i = g.data i

/-- 復号の結果は、長さより後のデータにも、`*msg` の前の内容にも依らない。 -/
def PayloadOnly (f : CanFrame) : Prop :=
  ∀ g, SamePayload f g → ∀ m m' : AgxMessage,
    (decodeCanFrameV2 f m).1 = (decodeCanFrameV2 g m').1 ∧
      (decodeCanFrameV2 f m).2.type = (decodeCanFrameV2 g m').2.type ∧
      (decodeCanFrameV2 f m).2.member = (decodeCanFrameV2 g m').2.member

def readLen : MsgType → Nat
  | .motionCommand | .motionState | .actuatorHSState | .odometry | .bmsBasic | .versionResponse
  | .motorAngle | .motorSpeed => 8
  | .systemState | .rcState | .actuatorLSState => 6
  | .lightCommand | .lightState => 5
  | .bmsExtended => 4
  | .motionModeState => 2
  | .controlModeConfig | .stateResetConfig => 1
  | _ => 0

theorem readLen_le (type : MsgType) : readLen type ≤ 8 := by
  cases type <;> decide

/-- 復号が読む最後のデータの番号。 -/
def lastIndex (type : MsgType) : Fin 8 := ⟨readLen type - 1, by have := readLen_le type; omega⟩

/-- 四つのスイッチのどれも、復号が書く並びである。 -/
def RcAssigned (sws : UInt8) : Prop :=
  (rcSwa sws).isSome ∧ (rcSwb sws).isSome ∧ (rcSwc sws).isSome ∧ (rcSwd sws).isSome

/-! ## 復号が書くメンバ -/

theorem Body.read_assign (b : Body) (f : Field Scalar.enum) (v : Option UInt32) :
    (b.assign f v).read f = v.getD (b.read f) := by
  cases v with
  | none => rfl
  | some v => exact Cells.read_write (t := Scalar.enum) b v rfl

theorem Body.read_assign_ne (b : Body) {f g : Field Scalar.enum} (v : Option UInt32)
    (h : f.offset ≠ g.offset) : (b.assign f v).read g = b.read g := by
  cases v with
  | none => rfl
  | some v => exact Cells.read_write_ne (t := Scalar.enum) b v h

/-- 前の内容が `prev` のときの、送信機のメンバ。復号が書かない並びのスイッチは、前の内容のままである。 -/
def rcStateOf (rx : CanFrame) (prev : RcStateMessage) : RcStateMessage :=
  { swa := (rcSwa (rx.data 0)).getD prev.swa
    swb := (rcSwb (rx.data 0)).getD prev.swb
    swc := (rcSwc (rx.data 0)).getD prev.swc
    swd := (rcSwd (rx.data 0)).getD prev.swd
    stickRightV := (rx.data 2).toInt8
    stickRightH := (rx.data 1).toInt8
    stickLeftV := (rx.data 3).toInt8
    stickLeftH := (rx.data 4).toInt8
    varA := (rx.data 5).toInt8 }

theorem decodeRcState_msg (rx : CanFrame) (b : Body) :
    Body.rcStateMsg (decodeRcState rx b) = rcStateOf rx b.rcStateMsg := by
  -- スティックの書き込みは、スイッチの四つの場所を変えない。
  have hsticks : ∀ b' : Body, Body.rcStateMsg
      (((((b'.write RcStateMsg.stickRightV (rx.data 2).toInt8).write
        RcStateMsg.stickRightH (rx.data 1).toInt8).write
        RcStateMsg.stickLeftV (rx.data 3).toInt8).write
        RcStateMsg.stickLeftH (rx.data 4).toInt8).write
        RcStateMsg.varA (rx.data 5).toInt8) =
      { swa := b'.read RcStateMsg.swa, swb := b'.read RcStateMsg.swb, swc := b'.read RcStateMsg.swc
        swd := b'.read RcStateMsg.swd, stickRightV := (rx.data 2).toInt8
        stickRightH := (rx.data 1).toInt8, stickLeftV := (rx.data 3).toInt8
        stickLeftH := (rx.data 4).toInt8, varA := (rx.data 5).toInt8 } := fun _ => rfl
  refine (hsticks _).trans ?_
  simp (disch := decide) only [Body.read_assign_ne, Body.read_assign]
  rfl

theorem decodeVersionResponse_msg (rx : CanFrame) (b : Body) :
    Body.versionResponseMsg (decodeVersionResponse rx b) = { bytes := rx.data } := by
  refine congrArg VersionResponseMessage.mk (funext fun i => ?_)
  revert i
  simp only [Fin.forall_fin_succ]
  exact ⟨rfl, rfl, rfl, rfl, rfl, rfl, rfl, rfl, fun i => i.elim0⟩

/-- フレームから復号されるメンバ。`prev` は、前の内容の送信機のメンバである。 -/
def memberOf (type : MsgType) (rx : CanFrame) (prev : RcStateMessage) : Option Member :=
  match type with
  | .motionCommand =>
      some (.motionCommand ⟨rx.int16 0 / 1000, rx.int16 2 / 1000, rx.int16 4 / 1000, rx.int16 6 / 1000⟩)
  | .lightCommand =>
      some (.lightCommand ⟨rx.data 0 != 0, ⟨(rx.data 1).toUInt32, rx.data 2⟩,
        ⟨(rx.data 3).toUInt32, rx.data 4⟩⟩)
  | .systemState =>
      some (.systemState ⟨(rx.data 0).toUInt32, (rx.data 1).toUInt32, rx.int16 2 / 10, rx.struct16 4⟩)
  | .motionState =>
      some (.motionState ⟨rx.int16 0 / 1000, rx.int16 2 / 1000, rx.int16 4 / 1000, rx.int16 6 / 1000⟩)
  | .lightState =>
      some (.lightState ⟨rx.data 0 != 0, ⟨(rx.data 1).toUInt32, rx.data 2⟩,
        ⟨(rx.data 3).toUInt32, rx.data 4⟩⟩)
  | .rcState => some (.rcState (rcStateOf rx prev))
  | .actuatorHSState =>
      some (.actuatorHSState ⟨(rx.canId - CanMsg.actuator1HsStateId).toUInt8, (rx.struct16 0).toInt16,
        rx.int16 2 / 10, (rx.struct32 4).toInt32⟩)
  | .actuatorLSState =>
      some (.actuatorLSState ⟨(rx.canId - CanMsg.actuator1LsStateId).toUInt8,
        ((rx.struct16 0).toNat : ℚ) / 10, rx.int16 2, ((rx.data 4).toInt8.toInt : ℚ), rx.data 5⟩)
  | .motionModeState => some (.motionModeState ⟨rx.data 0, rx.data 1⟩)
  | .odometry => some (.odometry ⟨rx.int32 0, rx.int32 4⟩)
  | .bmsBasic =>
      some (.bmsBasic ⟨rx.data 0, rx.data 1, rx.int16 2 / 10, rx.int16 4 / 10, rx.int16 6 / 10⟩)
  | .bmsExtended => some (.bmsExtended ⟨rx.data 0, rx.data 1, rx.data 2, rx.data 3⟩)
  | .versionResponse => some (.versionResponse ⟨rx.data⟩)
  | .controlModeConfig => some (.controlModeConfig ⟨(rx.data 0).toUInt32⟩)
  | .stateResetConfig => some (.stateResetConfig ⟨rx.data 0⟩)
  | .motorAngle =>
      some (.motorAngle ⟨rx.int16 0 / 1000, rx.int16 2 / 1000, rx.int16 4 / 1000, rx.int16 6 / 1000⟩)
  | .motorSpeed =>
      some (.motorSpeed ⟨rx.int16 0 / 1000, rx.int16 2 / 1000, rx.int16 4 / 1000, rx.int16 6 / 1000⟩)
  | _ => none

theorem decodeBody_member (type : MsgType) (rx : CanFrame) (b : Body) :
    AgxMessage.member ⟨type, decodeBody type rx b⟩ = memberOf type rx b.rcStateMsg := by
  cases type with
  | rcState => exact congrArg (fun m => some (Member.rcState m)) (decodeRcState_msg rx b)
  | versionResponse =>
      exact congrArg (fun m => some (Member.versionResponse m)) (decodeVersionResponse_msg rx b)
  | _ => rfl

/-! ## 読む範囲 -/

theorem memberOf_congr {type : MsgType} {f g : CanFrame} {prev prev' : RcStateMessage}
    (hid : f.canId = g.canId) (hdata : ∀ i : Fin 8, i.val < readLen type → f.data i = g.data i)
    (hrc : type = .rcState → RcAssigned (f.data 0)) : memberOf type f prev = memberOf type g prev' := by
  cases type with
  | rcState =>
      obtain ⟨ha, hb, hc, hd⟩ := hrc rfl
      obtain ⟨va, ha⟩ := Option.isSome_iff_exists.mp ha
      obtain ⟨vb, hb⟩ := Option.isSome_iff_exists.mp hb
      obtain ⟨vc, hc⟩ := Option.isSome_iff_exists.mp hc
      obtain ⟨vd, hd⟩ := Option.isSome_iff_exists.mp hd
      have h0 : g.data 0 = f.data 0 := (hdata 0 (by decide)).symm
      simp only [memberOf, rcStateOf, h0, ha, hb, hc, hd, Option.getD_some]
      simp (disch := decide) only [hdata]
  | versionResponse =>
      have hall : f.data = g.data := funext fun i => hdata i i.isLt
      simp only [memberOf, hall]
  | _ =>
      simp (disch := decide) only [memberOf, CanFrame.int16, CanFrame.int32, CanFrame.struct16,
        CanFrame.struct32, hdata, hid]

def CanFrame.set (f : CanFrame) (n : Fin 8) (v : UInt8) : CanFrame :=
  { f with data := Function.update f.data n v }

theorem int16_inj {f g : CanFrame} {i : Fin 8} {k : ℚ} (hk : k ≠ 0) (h : f.int16 i / k = g.int16 i / k) :
    f.struct16 i = g.struct16 i := by
  have hq : f.int16 i = g.int16 i := (div_left_inj' hk).mp h
  have hint : (f.struct16 i).toInt16 = (g.struct16 i).toInt16 := Int16.toInt.inj (Int.cast_injective hq)
  exact congrArg Int16.toUInt16 hint

theorem last_of_int16 {f : CanFrame} {v : UInt8} {k : ℚ} (hk : k ≠ 0)
    (h : f.int16 6 / k = (f.set 7 v).int16 6 / k) : f.data 7 = v := by
  have hb : be16 (f.data 6) (f.data 7) = be16 (f.data 6) v := int16_inj hk h
  exact be16_low_inj hb

theorem last_of_struct32 {f : CanFrame} {v : UInt8} (h : f.struct32 4 = (f.set 7 v).struct32 4) :
    f.data 7 = v := by
  have hb : be32 (f.data 4) (f.data 5) (f.data 6) (f.data 7) =
      be32 (f.data 4) (f.data 5) (f.data 6) v := h
  exact be32_lsb_inj hb

theorem memberOf_last {type : MsgType} {f : CanFrame} {prev prev' : RcStateMessage} {v : UInt8}
    (hpos : 0 < readLen type) (h : memberOf type f prev = memberOf type (f.set (lastIndex type) v) prev') :
    f.data (lastIndex type) = v := by
  have hk : (1000 : ℚ) ≠ 0 := by norm_num
  have hk' : (10 : ℚ) ≠ 0 := by norm_num
  cases type with
  | motionCommand =>
      have hm := Member.motionCommand.inj (Option.some.inj h)
      exact last_of_int16 hk (congrArg MotionCommandMessage.steeringAngle hm)
  | motionState =>
      have hm := Member.motionState.inj (Option.some.inj h)
      exact last_of_int16 hk (congrArg MotionStateMessage.steeringAngle hm)
  | motorAngle =>
      have hm := Member.motorAngle.inj (Option.some.inj h)
      exact last_of_int16 hk (congrArg MotorAngleMessage.angle8 hm)
  | motorSpeed =>
      have hm := Member.motorSpeed.inj (Option.some.inj h)
      exact last_of_int16 hk (congrArg MotorSpeedMessage.speed4 hm)
  | bmsBasic =>
      have hm := Member.bmsBasic.inj (Option.some.inj h)
      exact last_of_int16 hk' (congrArg BmsBasicMessage.temperature hm)
  | actuatorHSState =>
      have hm := congrArg ActuatorHSStateMessage.pulseCount (Member.actuatorHSState.inj (Option.some.inj h))
      exact last_of_struct32 (congrArg Int32.toUInt32 hm)
  | odometry =>
      have hm : f.int32 4 = (f.set 7 v).int32 4 :=
        congrArg OdometryMessage.rightWheel (Member.odometry.inj (Option.some.inj h))
      have hint : (f.struct32 4).toInt32 = ((f.set 7 v).struct32 4).toInt32 :=
        Int32.toInt.inj (Int.cast_injective hm)
      exact last_of_struct32 (congrArg Int32.toUInt32 hint)
  | versionResponse =>
      exact congrFun (congrArg VersionResponseMessage.bytes (Member.versionResponse.inj (Option.some.inj h))) 7
  | systemState =>
      have hm : be16 (f.data 4) (f.data 5) = be16 (f.data 4) v :=
        congrArg SystemStateMessage.errorCode (Member.systemState.inj (Option.some.inj h))
      exact be16_low_inj hm
  | rcState =>
      have hm : (f.data 5).toInt8 = v.toInt8 :=
        congrArg RcStateMessage.varA (Member.rcState.inj (Option.some.inj h))
      exact congrArg Int8.toUInt8 hm
  | actuatorLSState =>
      exact congrArg ActuatorLSStateMessage.driverState (Member.actuatorLSState.inj (Option.some.inj h))
  | lightCommand =>
      exact congrArg (fun m => m.rearLight.customValue) (Member.lightCommand.inj (Option.some.inj h))
  | lightState =>
      exact congrArg (fun m => m.rearLight.customValue) (Member.lightState.inj (Option.some.inj h))
  | bmsExtended =>
      exact congrArg BmsExtendedMessage.warnStatus2 (Member.bmsExtended.inj (Option.some.inj h))
  | motionModeState =>
      exact congrArg MotionModeStateMessage.modeChanging (Member.motionModeState.inj (Option.some.inj h))
  | controlModeConfig =>
      have hm : (f.data 0).toUInt32 = v.toUInt32 :=
        congrArg ControlModeConfigMessage.mode (Member.controlModeConfig.inj (Option.some.inj h))
      have h8 := congrArg UInt32.toUInt8 hm
      rwa [UInt8.toUInt8_toUInt32, UInt8.toUInt8_toUInt32] at h8
  | stateResetConfig =>
      exact congrArg StateResetConfigMessage.errorClearByte (Member.stateResetConfig.inj (Option.some.inj h))
  | _ => cases hpos

/-! ## 復号の結果が依るもの -/

/-- 長さが足りないとき、長さより後のデータが復号の結果を変える。 -/
theorem PayloadOnly.long {f : CanFrame} {type : MsgType} (h : PayloadOnly f)
    (ht : msgTypeOf f.canId = some type) : readLen type ≤ f.canDlc.toNat := by
  by_contra hlt
  have hpos : 0 < readLen type := by omega
  -- 読む最後のバイトだけを替えたフレームは、長さまでのデータが等しい。
  let g := f.set (lastIndex type) (f.data (lastIndex type) + 1)
  have hsame : SamePayload f g := by
    refine ⟨rfl, rfl, fun i hi => (Function.update_of_ne ?_ _ _).symm⟩
    rintro rfl
    simp only [lastIndex] at hi
    omega
  have ht' : msgTypeOf g.canId = some type := ht
  have hmember := (h g hsame default default).2.2
  rw [decode_of_type ht, decode_of_type ht', decodeBody_member, decodeBody_member] at hmember
  have hbyte := memberOf_last hpos hmember
  simp at hbyte

def filled (v : UInt32) : AgxMessage := { type := .unknown, body := ⟨fun _ => ⟨.enum, v⟩⟩ }

theorem isSome_of_getD {o : Option UInt32} (h : o.getD 0 = o.getD 1) : o.isSome := by
  cases o with
  | none => exact absurd h (by decide)
  | some v => rfl

/-- 書かれないスイッチがあるとき、前の内容が復号の結果を変える。 -/
theorem PayloadOnly.rcAssigned {f : CanFrame} (h : PayloadOnly f) (ht : msgTypeOf f.canId = some .rcState) :
    RcAssigned (f.data 0) := by
  have hmember := (h f ⟨rfl, rfl, fun _ _ => rfl⟩ (filled 0) (filled 1)).2.2
  rw [decode_of_type ht, decode_of_type ht, decodeBody_member, decodeBody_member] at hmember
  have hm := Member.rcState.inj (Option.some.inj hmember)
  exact ⟨isSome_of_getD (congrArg RcStateMessage.swa hm), isSome_of_getD (congrArg RcStateMessage.swb hm),
    isSome_of_getD (congrArg RcStateMessage.swc hm), isSome_of_getD (congrArg RcStateMessage.swd hm)⟩

/-- 復号の結果が、受信した長さのデータだけで決まるのは、復号する種類について、長さが読む長さに足り、送信機のフレームでは
四つのスイッチがどれも書かれるときであり、そのときに限る。 -/
theorem payload_only_iff (f : CanFrame) :
    PayloadOnly f ↔ ∀ type, msgTypeOf f.canId = some type →
      readLen type ≤ f.canDlc.toNat ∧ (type = .rcState → RcAssigned (f.data 0)) := by
  constructor
  · intro h type ht
    refine ⟨h.long ht, ?_⟩
    rintro rfl
    exact h.rcAssigned ht
  · intro h g hsame m m'
    obtain ⟨hid, _, hdata⟩ := hsame
    cases ht : msgTypeOf f.canId with
    | none =>
        simp only [decodeCanFrameV2, ← hid, ht]
        exact ⟨trivial, trivial, rfl⟩
    | some type =>
        obtain ⟨hlen, hrc⟩ := h type ht
        rw [decode_of_type ht, decode_of_type (hid ▸ ht)]
        refine ⟨rfl, rfl, ?_⟩
        rw [decodeBody_member, decodeBody_member]
        exact memberOf_congr hid (fun i hi => hdata i (Nat.lt_of_lt_of_le hi hlen)) hrc

-- 長さ 8 の送信機のフレームでも、どのスイッチの並びでもない先頭のバイトは、前の内容を残す。
theorem rc_frame_leaks : ¬ PayloadOnly ⟨CanMsg.rcStateId, 8, fun _ => 0⟩ := by
  intro h
  have hmember := (h _ ⟨rfl, rfl, fun _ _ => rfl⟩ (filled 0) (filled 1)).2.2
  exact absurd hmember (by decide)

end Ranger.Can
