import Ranger.Can.Lemmas.Store

/-!
# フレームの番号と種類

符号化したフレームを復号したときに、種類が元に戻るための条件を求める。装置ごとの種類の番号は、一台目の番号に装置の番号を
足したもので、範囲の検査はない。
-/

namespace Ranger.Can
open Ranger.Lib

/-! ## 装置の番号の範囲 -/

/-- 装置ごとの種類の、一台目の番号と、装置の数。 -/
def deviceRange : MsgType → Option (UInt32 × Nat)
  | .actuatorHSState => some (CanMsg.actuator1HsStateId, 8)
  | .actuatorLSState => some (CanMsg.actuator1LsStateId, 8)
  | .ultrasonic => some (CanMsg.ultrasonic1Id, 8)
  | .uwb => some (CanMsg.uwb1Id, 4)
  | _ => none

/-- 装置ごとの種類のメッセージが持つ、装置の番号。 -/
def AgxMessage.device (msg : AgxMessage) : UInt8 :=
  match msg.type with
  | .actuatorHSState => msg.body.read ActuatorHSStateMsg.motorId
  | .actuatorLSState => msg.body.read ActuatorLSStateMsg.motorId
  | _ => msg.body.read SensorMsg.sensorId

/-- 符号化できるメッセージは、復号できて種類が変わらず、装置ごとの種類では、番号がその種類の範囲にある。 -/
def TypeReturns (stack : Fin 8 → UInt8) (count : UInt8) (tx : CanFrame) (prev msg : AgxMessage) : Prop :=
  let sent := encodeCanFrameV2 stack count msg tx
  sent.1 = true →
    (decodeCanFrameV2 sent.2.1 prev).1 = true ∧ (decodeCanFrameV2 sent.2.1 prev).2.type = msg.type ∧
      ∀ range ∈ deviceRange msg.type,
        range.1.toNat ≤ sent.2.1.canId.toNat ∧ sent.2.1.canId.toNat < range.1.toNat + range.2

/-- 復号に場合のない `SetMotionModeCommand` でも、`BrakingCommand` の番号で送る `BrakeModeConfig` でもなく、
装置の番号は装置の数より小さい。 -/
def AgxMessage.IdSafe (msg : AgxMessage) : Prop :=
  msg.type ≠ .setMotionModeCommand ∧ msg.type ≠ .brakeModeConfig ∧
    ∀ range ∈ deviceRange msg.type, msg.device.toNat < range.2

/-! ## 装置ごとの種類 -/

theorem device_toNat {first : UInt32} (d : UInt8) (h : first.toNat < 0x1000) :
    (d.toUInt32 + first).toNat = d.toNat + first.toNat := by
  have hd := d.toNat_lt
  rw [UInt32.toNat_add, UInt8.toNat_toUInt32, Nat.mod_eq_of_lt (by omega)]

theorem msgTypeOf_device {type : MsgType} {first : UInt32} {n : Nat} (h : deviceRange type = some (first, n))
    (d : UInt8) (hd : d.toNat < n) : msgTypeOf (d.toUInt32 + first) = some type := by
  have key : ∀ i < 8, msgTypeOf ((UInt8.ofNat i).toUInt32 + CanMsg.actuator1HsStateId) = some .actuatorHSState ∧
      msgTypeOf ((UInt8.ofNat i).toUInt32 + CanMsg.actuator1LsStateId) = some .actuatorLSState ∧
      msgTypeOf ((UInt8.ofNat i).toUInt32 + CanMsg.ultrasonic1Id) = some .ultrasonic ∧
      (i < 4 → msgTypeOf ((UInt8.ofNat i).toUInt32 + CanMsg.uwb1Id) = some .uwb) := by decide
  have hofNat : UInt8.ofNat d.toNat = d := UInt8.ofNat_toNat
  cases type <;> cases h
  · exact hofNat ▸ (key d.toNat hd).1
  · exact hofNat ▸ (key d.toNat hd).2.1
  · exact hofNat ▸ (key d.toNat hd).2.2.1
  · exact hofNat ▸ (key d.toNat (by omega)).2.2.2 hd

theorem deviceRange_lt {type : MsgType} {first : UInt32} {n : Nat} (h : deviceRange type = some (first, n)) :
    first.toNat < 0x1000 := by
  cases type <;> cases h <;> decide

theorem encode_device (stack : Fin 8 → UInt8) (count : UInt8) (tx : CanFrame) {msg : AgxMessage}
    {first : UInt32} {n : Nat} (h : deviceRange msg.type = some (first, n)) :
    encodeCanFrameV2 stack count msg tx = (true, tx.put (msg.device.toUInt32 + first) 8 stack, count) := by
  obtain ⟨type, b⟩ := msg
  cases type <;> cases h <;> rfl

/-! ## 種類の往復 -/

theorem decode_type (rx : CanFrame) (prev : AgxMessage) :
    (decodeCanFrameV2 rx prev).2.type = (msgTypeOf rx.canId).getD .unknown := by
  unfold decodeCanFrameV2
  cases msgTypeOf rx.canId <;> rfl

theorem typeReturns_device (stack : Fin 8 → UInt8) (count : UInt8) (tx : CanFrame) (prev : AgxMessage)
    {msg : AgxMessage} {first : UInt32} {n : Nat} (h : deviceRange msg.type = some (first, n)) :
    TypeReturns stack count tx prev msg ↔ msg.device.toNat < n := by
  have hid := device_toNat msg.device (deviceRange_lt h)
  simp only [TypeReturns, encode_device stack count tx h, h, Option.mem_def, Option.some.injEq,
    forall_eq', true_imp_iff]
  constructor
  · rintro ⟨-, -, -, hlt⟩
    have hput : (msg.device.toUInt32 + first).toNat < first.toNat + n := hlt
    omega
  · intro hd
    have hput : msgTypeOf (tx.put (msg.device.toUInt32 + first) 8 stack).canId = some msg.type :=
      msgTypeOf_device h msg.device hd
    rw [decode_of_type hput]
    refine ⟨rfl, rfl, ?_, ?_⟩
    · show first.toNat ≤ (msg.device.toUInt32 + first).toNat
      omega
    · show (msg.device.toUInt32 + first).toNat < first.toNat + n
      omega

theorem typeReturns_iff (stack : Fin 8 → UInt8) (count : UInt8) (tx : CanFrame) (prev msg : AgxMessage) :
    TypeReturns stack count tx prev msg ↔ msg.IdSafe := by
  cases hr : deviceRange msg.type with
  | some range =>
      obtain ⟨first, n⟩ := range
      rw [typeReturns_device stack count tx prev hr]
      have hne : msg.type ≠ .setMotionModeCommand ∧ msg.type ≠ .brakeModeConfig := by
        constructor <;> intro h <;> rw [h] at hr <;> cases hr
      simp [AgxMessage.IdSafe, hr, hne.1, hne.2]
  | none =>
      simp only [AgxMessage.IdSafe, TypeReturns, hr]
      obtain ⟨type, b⟩ := msg
      cases type with
      | setMotionModeCommand =>
          refine ⟨fun h => ?_, fun h => absurd rfl h.1⟩
          cases (h rfl).1
      | brakeModeConfig =>
          refine ⟨fun h => ?_, fun h => absurd rfl h.2.1⟩
          cases (h rfl).2.1
      | actuatorHSState => cases hr
      | actuatorLSState => cases hr
      | ultrasonic => cases hr
      | uwb => cases hr
      | _ =>
          refine iff_of_true (fun h => ?_) ⟨?_, ?_, fun _ h => by cases h⟩
          · first
              | exact ⟨rfl, rfl, fun _ h => by cases h⟩
              | cases h
          · intro h; cases h
          · intro h; cases h

/-- 符号化したフレームの種類が復号で元に戻り、番号が種類の範囲にあるのは、`SetMotionModeCommand` でも
`BrakeModeConfig` でもなく、装置の番号が装置の数より小さいメッセージであり、そのときに限る。このようなメッセージでは、
種類が異なれば番号も異なる。 -/
theorem type_returns_iff (stack : Fin 8 → UInt8) (count : UInt8) (tx : CanFrame) (prev : AgxMessage) :
    (∀ msg, TypeReturns stack count tx prev msg ↔ msg.IdSafe) ∧
    ∀ msg msg' : AgxMessage, msg.IdSafe → msg'.IdSafe →
      (encodeCanFrameV2 stack count msg tx).1 = true → (encodeCanFrameV2 stack count msg' tx).1 = true →
      (encodeCanFrameV2 stack count msg tx).2.1.canId = (encodeCanFrameV2 stack count msg' tx).2.1.canId →
      msg.type = msg'.type := by
  refine ⟨typeReturns_iff stack count tx prev, fun msg msg' hsafe hsafe' hok hok' hid => ?_⟩
  obtain ⟨_, htype, _⟩ := (typeReturns_iff stack count tx prev msg).mpr hsafe hok
  obtain ⟨_, htype', _⟩ := (typeReturns_iff stack count tx prev msg').mpr hsafe' hok'
  rw [← htype, ← htype', decode_type, decode_type, hid]

-- 装置の番号 16 の高速の状態は、一台目の低速の状態の番号になる。
theorem hs_state_walks :
    let b : Body := (default : Body).write ActuatorHSStateMsg.motorId (16 : UInt8)
    let msg : AgxMessage := { type := .actuatorHSState, body := b }
    let sent := encodeCanFrameV2 (fun _ => 0) 0 msg ⟨0, 0, fun _ => 0⟩
    ¬ TypeReturns (fun _ => 0) 0 ⟨0, 0, fun _ => 0⟩ default msg ∧ sent.1 = true ∧
      sent.2.1.canId = CanMsg.actuator1LsStateId ∧
      (decodeCanFrameV2 sent.2.1 default).2.type = .actuatorLSState := by
  intro b msg sent
  have hid : sent.2.1.canId = CanMsg.actuator1LsStateId := by
    show (16 : UInt8).toUInt32 + CanMsg.actuator1HsStateId = CanMsg.actuator1LsStateId
    decide
  have hls : (decodeCanFrameV2 sent.2.1 default).2.type = .actuatorLSState := by
    rw [decode_type, hid]
    rfl
  refine ⟨fun h => ?_, rfl, hid, hls⟩
  have hrange : deviceRange msg.type = some (CanMsg.actuator1HsStateId, 8) := rfl
  have hlt : (16 : UInt8).toNat < 8 := (typeReturns_device _ _ _ _ hrange).mp h
  revert hlt
  decide

end Ranger.Can
