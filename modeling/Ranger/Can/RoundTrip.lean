import Mathlib.Tactic.Linarith
import Ranger.Can.Lemmas.Store

/-!
# 符号化と復号の往復

符号化したフレームを復号すると、値は、フレームの刻みに 0 の方向へ切り捨てたものになる。符号つきの整数は、上位と下位の
バイトに分けて並べ、組み立て直しても、符号を保つ。
-/

namespace Ranger.Can
open Ranger.Lib

/-! ## 往復の性質 -/

/-- `v'` は、`v` を `1 / k` の刻みに 0 の方向へ切り捨てたもので、符号を保つ。 -/
def Truncated (k v v' : ℚ) : Prop :=
  v' = truncate (v * k) / k ∧ (0 ≤ v → 0 ≤ v') ∧ (v ≤ 0 → v' ≤ 0)

def MilliRange (v : ℚ) : Prop := |1000 * v| < 32768

def AgxMessage.InRange (msg : AgxMessage) : Prop :=
  match msg.type with
  | .motionCommand =>
      let m := msg.body.motionCommandMsg
      MilliRange m.linearVelocity ∧ MilliRange m.angularVelocity ∧ MilliRange m.lateralVelocity ∧
        MilliRange m.steeringAngle
  | .motionState =>
      let m := msg.body.motionStateMsg
      MilliRange m.linearVelocity ∧ MilliRange m.angularVelocity ∧ MilliRange m.lateralVelocity ∧
        MilliRange m.steeringAngle
  | .systemState =>
      0 ≤ 10 * msg.body.systemStateMsg.batteryVoltage ∧ 10 * msg.body.systemStateMsg.batteryVoltage < 32768
  | .lightCommand | .controlModeConfig => True
  | _ => False

def AgxMessage.Returns (msg msg' : AgxMessage) : Prop :=
  match msg.type with
  | .motionCommand =>
      let m := msg.body.motionCommandMsg
      let m' := msg'.body.motionCommandMsg
      Truncated 1000 m.linearVelocity m'.linearVelocity ∧
        Truncated 1000 m.angularVelocity m'.angularVelocity ∧
        Truncated 1000 m.lateralVelocity m'.lateralVelocity ∧
        Truncated 1000 m.steeringAngle m'.steeringAngle
  | .motionState =>
      let m := msg.body.motionStateMsg
      let m' := msg'.body.motionStateMsg
      Truncated 1000 m.linearVelocity m'.linearVelocity ∧
        Truncated 1000 m.angularVelocity m'.angularVelocity ∧
        Truncated 1000 m.lateralVelocity m'.lateralVelocity ∧
        Truncated 1000 m.steeringAngle m'.steeringAngle
  | .systemState =>
      let m := msg.body.systemStateMsg
      let m' := msg'.body.systemStateMsg
      m'.vehicleState = m.vehicleState % 256 ∧ m'.controlMode = m.controlMode % 256 ∧
        Truncated 10 m.batteryVoltage m'.batteryVoltage ∧ m'.errorCode = m.errorCode
  | .lightCommand =>
      let m := msg.body.lightCommandMsg
      msg'.body.lightCommandMsg =
        if m.enableCmdCtrl then
          { enableCmdCtrl := true
            frontLight := { m.frontLight with mode := m.frontLight.mode % 256 }
            rearLight := { m.rearLight with mode := m.rearLight.mode % 256 } }
        else { enableCmdCtrl := false, frontLight := ⟨0, 0⟩, rearLight := ⟨0, 0⟩ }
  | .controlModeConfig => msg'.body.controlModeConfigMsg.mode = msg.body.controlModeConfigMsg.mode % 256
  | _ => True

/-! ## 値の往復 -/

theorem truncated_of_eq {k v : ℚ} (hk : 0 < k) : Truncated k v (truncate (v * k) / k) := by
  refine ⟨rfl, fun hv => ?_, fun hv => ?_⟩
  · have h : (0 : ℚ) ≤ truncate (v * k) := by exact_mod_cast truncate_nonneg (mul_nonneg hv hk.le)
    exact div_nonneg h hk.le
  · have hneg : 0 ≤ truncate (-(v * k)) :=
      truncate_nonneg (neg_nonneg.mpr (mul_nonpos_of_nonpos_of_nonneg hv hk.le))
    rw [truncate_neg] at hneg
    have h : (truncate (v * k) : ℚ) ≤ 0 := by exact_mod_cast neg_nonneg.mp hneg
    exact div_nonpos_of_nonpos_of_nonneg h hk.le

theorem milli_toInt {v : ℚ} (h : MilliRange v) : (milli v).toInt = truncate (v * 1000) := by
  have habs : |v * 1000| < ((32768 : ℤ) : ℚ) := by
    rw [mul_comm]
    exact_mod_cast h
  have hlt := abs_lt.mp (abs_truncate_lt habs)
  exact Int16.toInt_ofInt_of_le (by omega) (by omega)

theorem motionFrame_int16 (tx : CanFrame) (canId : UInt32) (a b c d : Int16) :
    (tx.put canId 8 (motionFrame a b c d)).int16 0 = a.toInt ∧
      (tx.put canId 8 (motionFrame a b c d)).int16 2 = b.toInt ∧
      (tx.put canId 8 (motionFrame a b c d)).int16 4 = c.toInt ∧
      (tx.put canId 8 (motionFrame a b c d)).int16 6 = d.toInt := by
  have key : ∀ v : Int16, (((be16 (highByteSigned v) (lowByteSigned v)).toInt16.toInt : ℤ) : ℚ) = v.toInt := by
    intro v
    rw [be16_split_signed]
  exact ⟨key a, key b, key c, key d⟩

theorem motion_returns (tx : CanFrame) (canId : UInt32) {v₁ v₂ v₃ v₄ : ℚ} (h₁ : MilliRange v₁)
    (h₂ : MilliRange v₂) (h₃ : MilliRange v₃) (h₄ : MilliRange v₄) :
    let rx := tx.put canId 8 (motionFrame (milli v₁) (milli v₂) (milli v₃) (milli v₄))
    Truncated 1000 v₁ (rx.int16 0 / 1000) ∧ Truncated 1000 v₂ (rx.int16 2 / 1000) ∧
      Truncated 1000 v₃ (rx.int16 4 / 1000) ∧ Truncated 1000 v₄ (rx.int16 6 / 1000) := by
  intro rx
  obtain ⟨e₁, e₂, e₃, e₄⟩ := motionFrame_int16 tx canId (milli v₁) (milli v₂) (milli v₃) (milli v₄)
  rw [e₁, e₂, e₃, e₄, milli_toInt h₁, milli_toInt h₂, milli_toInt h₃, milli_toInt h₄]
  have hk : (0 : ℚ) < 1000 := by norm_num
  exact ⟨truncated_of_eq hk, truncated_of_eq hk, truncated_of_eq hk, truncated_of_eq hk⟩

theorem ofInt_toInt16 {n : ℤ} (h₀ : 0 ≤ n) (h : n < 32768) : (UInt16.ofInt n).toInt16.toInt = n := by
  have hmod : n % 2 ^ 16 = n := Int.emod_eq_of_lt h₀ (by omega)
  rw [UInt16.ofInt, hmod, UInt16.toInt16_ofNat']
  exact (Int16.toInt_ofNat_of_lt (by omega)).trans (Int.toNat_of_nonneg h₀)

theorem battery_returns {tx : CanFrame} {canId : UInt32} {v : ℚ} {stack : Fin 8 → UInt8} {b : Body}
    (hv : b.systemStateMsg.batteryVoltage = v) (h₀ : 0 ≤ 10 * v) (h : 10 * v < 32768) :
    Truncated 10 v ((tx.put canId 8 (encodeSystemState stack b)).int16 2 / 10) := by
  have hb : (tx.put canId 8 (encodeSystemState stack b)).struct16 2 = UInt16.ofInt (truncate (v * 10)) := by
    rw [← hv]
    exact be16_split _
  rw [mul_comm] at h₀ h
  have hlt : truncate (v * 10) < 32768 := truncate_lt h₀ (by exact_mod_cast h)
  rw [CanFrame.int16, hb, ofInt_toInt16 (truncate_nonneg h₀) hlt]
  exact truncated_of_eq (by norm_num)

theorem light_returns (tx : CanFrame) (count : UInt8) (b prev : Body) :
    Body.lightCommandMsg (decodeLight (tx.put CanMsg.lightCommandId 8 (encodeLightCommand count b)) prev) =
      if b.lightCommandMsg.enableCmdCtrl then
        { enableCmdCtrl := true
          frontLight := { b.lightCommandMsg.frontLight with mode := b.lightCommandMsg.frontLight.mode % 256 }
          rearLight := { b.lightCommandMsg.rearLight with mode := b.lightCommandMsg.rearLight.mode % 256 } }
      else { enableCmdCtrl := false, frontLight := ⟨0, 0⟩, rearLight := ⟨0, 0⟩ } := by
  by_cases he : b.lightCommandMsg.enableCmdCtrl = true
  · have henc : encodeLightCommand count b =
        ![1, b.lightCommandMsg.frontLight.mode.toUInt8, b.lightCommandMsg.frontLight.customValue,
          b.lightCommandMsg.rearLight.mode.toUInt8, b.lightCommandMsg.rearLight.customValue, 0, 0, count] :=
      if_pos he
    rw [henc, if_pos he]
    rfl
  · have henc : encodeLightCommand count b = ![0, 0, 0, 0, 0, 0, 0, count] := if_neg he
    rw [henc, if_neg he]
    rfl

/-! ## メッセージの往復 -/

/-- 範囲にあるメッセージを符号化したフレームは復号でき、種類が等しく、値はフレームの刻みに切り捨てたものである。 -/
theorem decode_encode (stack : Fin 8 → UInt8) (count : UInt8) (msg prev : AgxMessage) (tx : CanFrame)
    (h : msg.InRange) :
    let frame := (encodeCanFrameV2 stack count msg tx).2.1
    (encodeCanFrameV2 stack count msg tx).1 = true ∧ (decodeCanFrameV2 frame prev).1 = true ∧
      (decodeCanFrameV2 frame prev).2.type = msg.type ∧ msg.Returns (decodeCanFrameV2 frame prev).2 := by
  obtain ⟨type, b⟩ := msg
  cases type with
  | motionCommand =>
      obtain ⟨h₁, h₂, h₃, h₄⟩ := h
      exact ⟨rfl, rfl, rfl, motion_returns tx CanMsg.motionCommandId h₁ h₂ h₃ h₄⟩
  | motionState =>
      obtain ⟨h₁, h₂, h₃, h₄⟩ := h
      exact ⟨rfl, rfl, rfl, motion_returns tx CanMsg.motionStateId h₁ h₂ h₃ h₄⟩
  | systemState =>
      obtain ⟨h₀, h₁⟩ := h
      exact ⟨rfl, rfl, rfl, rfl, rfl, battery_returns rfl h₀ h₁, be16_split _⟩
  | lightCommand => exact ⟨rfl, rfl, rfl, light_returns tx count b prev.body⟩
  | controlModeConfig => exact ⟨rfl, rfl, rfl, rfl⟩
  | _ => cases h

-- 負の速度と、刻みより細かい値を含む指令。
theorem decode_encode_negative :
    let b : Body := (((default : Body).write MotionMsg.linearVelocity (-3 / 2 : ℚ)).write
      MotionMsg.angularVelocity (-1 / 3000 : ℚ)).write MotionMsg.lateralVelocity (1 / 8 : ℚ)
    let msg : AgxMessage := { type := .motionCommand, body := b }
    let frame := (encodeCanFrameV2 (fun _ => 0) 0 msg ⟨0, 0, fun _ => 0⟩).2.1
    msg.InRange ∧ msg.Returns (decodeCanFrameV2 frame default).2 := by
  intro b msg frame
  have hrange : msg.InRange := by
    show MilliRange (-3 / 2) ∧ MilliRange (-1 / 3000) ∧ MilliRange (1 / 8) ∧ MilliRange 0
    norm_num [MilliRange, abs_lt]
  exact ⟨hrange, (decode_encode (fun _ => 0) 0 msg default ⟨0, 0, fun _ => 0⟩ hrange).2.2.2⟩

end Ranger.Can
