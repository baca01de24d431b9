import Ranger.Can.Slots

/-!
# 一つのフレームの記録

フレームの番号と種類の表を、更新の関数の場合分けと合わせ、一つのフレームがどの場所に何を書くかを求める。
-/

namespace Ranger.Can
open Ranger.Lib

/-! ## 番号と種類の表 -/

theorem msgTypeOf_mem {canId : UInt32} {type : MsgType} (h : msgTypeOf canId = some type) :
    (canId, type) ∈ canMsgTypes := by
  obtain ⟨l₁, l₂, heq, _⟩ := List.lookup_eq_some_iff.mp h
  rw [heq]
  simp

theorem Slot.msgTypeOf_canId (slot : Slot) : msgTypeOf slot.canId = some slot.type := by
  revert slot
  decide

theorem Slot.of_msgType (slot : Slot) {canId : UInt32} (h : msgTypeOf canId = some slot.type) :
    ∃ slot' : Slot, slot'.type = slot.type ∧ canId = slot'.canId := by
  have key : ∀ p ∈ canMsgTypes, ∀ slot : Slot, p.2 = slot.type →
      ∃ slot' : Slot, slot'.type = slot.type ∧ p.1 = slot'.canId := by decide
  exact key _ (msgTypeOf_mem h) slot rfl

/-! ## 復号 -/

theorem decode_of_type {rx : CanFrame} {msg : AgxMessage} {type : MsgType}
    (h : msgTypeOf rx.canId = some type) :
    decodeCanFrameV2 rx msg = (true, { type, body := decodeBody type rx msg.body }) := by
  simp only [decodeCanFrameV2, h]

theorem Rx.decoded_of_type {rx : Rx} {type : MsgType} (h : msgTypeOf rx.frame.canId = some type) :
    rx.decoded = { type, body := decodeBody type rx.frame rx.statusMsg.body } := by
  rw [Rx.decoded, decode_of_type h]

theorem deviceId_sub (first : UInt32) (i : Fin 8) : (CanMsg.deviceId first i - first).toUInt8.toNat = i := by
  have hsmall : ∀ i : Fin 8, (UInt32.ofNat i).toUInt8.toNat = i := by decide
  rw [CanMsg.deviceId, UInt32.add_comm, UInt32.add_sub_cancel]
  exact hsmall i

theorem hs_motorId {rx : CanFrame} {b : Body} {i : Fin 8}
    (h : rx.canId = CanMsg.deviceId CanMsg.actuator1HsStateId i) :
    (Body.actuatorHsStateMsg (decodeBody .actuatorHSState rx b)).motorId.toNat = i := by
  rw [← deviceId_sub CanMsg.actuator1HsStateId i, ← h]
  rfl

/-- `actuator_hs_state_msg` を通して書いた `motor_id` を、`actuator_ls_state_msg` から読む。 -/
theorem ls_motorId {rx : CanFrame} {b : Body} {i : Fin 8}
    (h : rx.canId = CanMsg.deviceId CanMsg.actuator1LsStateId i) :
    (Body.actuatorLsStateMsg (decodeBody .actuatorLSState rx b)).motorId.toNat = i := by
  rw [← deviceId_sub CanMsg.actuator1LsStateId i, ← h]
  rfl

theorem Slot.owns_of_canId {slot : Slot} {rx : Rx} (h : rx.frame.canId = slot.canId) :
    slot.Owns rx.decoded := by
  rw [Rx.decoded_of_type (h ▸ slot.msgTypeOf_canId)]
  cases slot with
  | hs i => exact ⟨rfl, hs_motorId h⟩
  | ls i => exact ⟨rfl, ls_motorId h⟩
  | _ => rfl

theorem Slot.type_of_owns {slot : Slot} {msg : AgxMessage} (h : slot.Owns msg) : msg.type = slot.type := by
  cases slot with
  | hs i => exact h.1
  | ls i => exact h.1
  | _ => exact h

theorem Slot.owns_unique {slot slot' : Slot} {msg : AgxMessage} (h : slot.Owns msg) (h' : slot'.Owns msg) :
    slot = slot' := by
  have ht : slot.type = slot'.type := (slot.type_of_owns h).symm.trans (slot'.type_of_owns h')
  cases slot <;> cases slot' <;> first | rfl | cases ht
  · exact congrArg Slot.hs (Fin.ext (h.2.symm.trans h'.2))
  · exact congrArg Slot.ls (Fin.ext (h.2.symm.trans h'.2))

theorem Slot.owns_iff {slot : Slot} {rx : Rx} (h : (decodeCanFrameV2 rx.frame rx.statusMsg).1 = true) :
    slot.Owns rx.decoded ↔ rx.frame.canId = slot.canId := by
  refine ⟨fun ho => ?_, Slot.owns_of_canId⟩
  cases ht : msgTypeOf rx.frame.canId with
  | none => simp [decodeCanFrameV2, ht] at h
  | some type =>
      have htype := slot.type_of_owns ho
      rw [Rx.decoded_of_type ht] at htype
      obtain rfl : type = slot.type := htype
      obtain ⟨slot', _, hid⟩ := slot.of_msgType ht
      rw [hid, Slot.owns_unique (Slot.owns_of_canId hid) ho]

/-! ## 更新の関数 -/

theorem updateRobotCoreState_spec (msg : AgxMessage) (now : Int) (g : CoreStateMsgGroup) :
    updateRobotCoreState msg now g =
      { timeStamp :=
          if msg.type ∈ [.systemState, .motionState, .lightState, .motionModeState, .rcState] then now
          else g.timeStamp
        systemState := if msg.type = .systemState then msg.body.systemStateMsg else g.systemState
        motionState := if msg.type = .motionState then msg.body.motionStateMsg else g.motionState
        lightState := if msg.type = .lightState then msg.body.lightStateMsg else g.lightState
        motionModeState :=
          if msg.type = .motionModeState then msg.body.motionModeStateMsg else g.motionModeState
        rcState := if msg.type = .rcState then msg.body.rcStateMsg else g.rcState } := by
  unfold updateRobotCoreState
  split <;> simp_all

theorem updateCommonSensorState_spec (msg : AgxMessage) (now : Int) (g : CommonSensorStateMsgGroup) :
    updateCommonSensorState msg now g =
      { timeStamp := if msg.type = .bmsBasic then now else g.timeStamp
        bmsBasicState := if msg.type = .bmsBasic then msg.body.bmsBasicMsg else g.bmsBasicState
        bmsExtendState :=
          if msg.type = .bmsExtended then msg.body.bmsExtendedMsg else g.bmsExtendState } := by
  unfold updateCommonSensorState
  split <;> simp_all

theorem assignSlot_spec {α : Type} {a a' : Fin 8 → α} {i : UInt8} {v : α} (h : assignSlot a i v = some a')
    (j : Fin 8) : a' j = if i.toNat = j then v else a j := by
  unfold assignSlot at h
  split at h
  · cases h
    rw [Function.update_apply]
    simp [Fin.ext_iff, eq_comm]
  · cases h

theorem updateActuatorState_spec {msg : AgxMessage} {now : Int} {g g' : ActuatorStateMsgGroup}
    (h : updateActuatorState msg now g = some g') :
    g'.timeStamp = now ∧
      g'.motorAngles = (if msg.type = .motorAngle then msg.body.motorAngleMsg else g.motorAngles) ∧
      g'.motorSpeeds = (if msg.type = .motorSpeed then msg.body.motorSpeedMsg else g.motorSpeeds) ∧
      (∀ i : Fin 8, g'.actuatorHsState i =
        if msg.type = .actuatorHSState ∧ msg.body.actuatorHsStateMsg.motorId.toNat = i then
          msg.body.actuatorHsStateMsg
        else g.actuatorHsState i) ∧
      ∀ i : Fin 8, g'.actuatorLsState i =
        if msg.type = .actuatorLSState ∧ msg.body.actuatorLsStateMsg.motorId.toNat = i then
          msg.body.actuatorLsStateMsg
        else g.actuatorLsState i := by
  unfold updateActuatorState at h
  split at h
  · rename_i ht
    cases h
    simp [ht]
  · rename_i ht
    cases h
    simp [ht]
  · rename_i ht
    obtain ⟨a, ha, rfl⟩ := Option.map_eq_some_iff.mp h
    simp [ht, assignSlot_spec ha]
  · rename_i ht
    obtain ⟨a, ha, rfl⟩ := Option.map_eq_some_iff.mp h
    simp [ht, assignSlot_spec ha]
  · rename_i ht
    obtain ⟨a, _, rfl⟩ := Option.map_eq_some_iff.mp h
    simp [ht]
  · cases h
    simp_all

theorem AgilexBase.update_read {s t : AgilexBase} {msg : AgxMessage} {now : Int}
    (h : s.update msg now = some t) (slot : Slot) :
    slot.read t = if slot.Owns msg then slot.body msg else slot.read s := by
  obtain ⟨g, hg, rfl⟩ := Option.map_eq_some_iff.mp h
  obtain ⟨_, hangle, hspeed, hhs, hls⟩ := updateActuatorState_spec hg
  rw [updateRobotCoreState_spec, updateCommonSensorState_spec]
  cases slot with
  | hs i => exact hhs i
  | ls i => exact hls i
  | motorAngles => exact hangle
  | motorSpeeds => exact hspeed
  | _ => rfl

theorem AgilexBase.update_total {rx : Rx} (s : AgilexBase) (now : Int)
    (h : (decodeCanFrameV2 rx.frame rx.statusMsg).1 = true) : ∃ t, s.update rx.decoded now = some t := by
  suffices hact : ∃ g, updateActuatorState rx.decoded now s.actuatorStateMsgs = some g by
    obtain ⟨g, hg⟩ := hact
    exact ⟨_, Option.map_eq_some_iff.mpr ⟨g, hg, rfl⟩⟩
  cases ht : msgTypeOf rx.frame.canId with
  | none => simp [decodeCanFrameV2, ht] at h
  | some type =>
      rw [Rx.decoded_of_type ht]
      cases type with
      | actuatorHSState =>
          obtain ⟨slot, hs, hid⟩ := Slot.of_msgType (.hs 0) ht
          cases slot <;> cases hs
          rename_i i
          simp [updateActuatorState, assignSlot, hs_motorId hid]
      | actuatorLSState =>
          obtain ⟨slot, hs, hid⟩ := Slot.of_msgType (.ls 0) ht
          cases slot <;> cases hs
          rename_i i
          simp [updateActuatorState, assignSlot, ls_motorId hid]
      | actuatorStateV1 =>
          have key : ∀ p ∈ canMsgTypes, p.2 ≠ .actuatorStateV1 := by decide
          exact absurd rfl (key _ (msgTypeOf_mem ht))
      | _ => exact ⟨_, rfl⟩

/-! ## 一つのフレーム -/

theorem AgilexBase.parse_total (s : AgilexBase) (rx : Rx) : ∃ t, s.parseCANFrame rx = some t := by
  unfold AgilexBase.parseCANFrame
  split
  · rename_i h
    exact s.update_total rx.now h
  · exact ⟨s, rfl⟩

/-- 一つのフレームは、番号の合う場所に、復号したメンバを書き、ほかの場所を変えない。 -/
theorem AgilexBase.parse_read {s t : AgilexBase} {rx : Rx} (h : s.parseCANFrame rx = some t) (slot : Slot) :
    slot.read t = (slot.writes rx).getD (slot.read s) := by
  unfold AgilexBase.parseCANFrame at h
  unfold Slot.writes
  split at h
  · rename_i hok
    rw [AgilexBase.update_read h slot]
    simp only [Slot.owns_iff hok]
    split <;> rfl
  · rename_i hok
    cases h
    rw [if_neg]
    · rfl
    · intro hid
      simp [decodeCanFrameV2, hid, slot.msgTypeOf_canId] at hok

end Ranger.Can
