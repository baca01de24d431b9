import Ranger.Can.Lemmas.Store

/-!
# 受信したフレームの記録の定理

どのような番号、長さ、データのフレームがどの順で届いても成り立つことを言明する。
-/

namespace Ranger.Can
open Ranger.Lib

/-! ## 記録の場所 -/

/-- 受信は配列の範囲の外に書かない。どの場所にも、番号の合う最後のフレームを復号したメンバがあり、番号の合わないフレームは
場所を変えない。 -/
theorem slots_last_writer (s : AgilexBase) (rxs : List Rx) :
    ∃ t, runs AgilexBase.parseCANFrame s rxs = some t ∧
      (∀ slot : Slot, slot.read t = ((rxs.filterMap slot.writes).getLast?).getD (slot.read s)) ∧
      Always AgilexBase.parseCANFrame
        (fun s rx t => ∀ slot : Slot, rx.frame.canId ≠ slot.canId → slot.read t = slot.read s) s rxs := by
  obtain ⟨t, ht⟩ := runs_total AgilexBase.parse_total s rxs
  refine ⟨t, ht, runs_lastWrite (fun _ _ _ h => AgilexBase.parse_read h) ht, Always.of_step ?_⟩
  intro s rx t hst slot hne
  rw [AgilexBase.parse_read hst slot, Slot.writes, if_neg hne, Option.getD_none]

/-! ## まとまりの時刻 -/

/-- 復号できるフレームのうち、アクチュエータのまとまりに書かないものと、`BmsExtended` のフレームが、それぞれのまとまりの
時刻と同じ時刻に届く。 -/
def StampKept (s : AgilexBase) (rx : Rx) : Prop :=
  ((msgTypeOf rx.frame.canId).isSome → ¬ Group.actuator.Stores rx →
      rx.now = Group.actuator.timeStamp s) ∧
    (rx.frame.canId = CanMsg.bmsExtendedId → rx.now = Group.sensor.timeStamp s)

def Group.Covers (g : Group) (type : MsgType) : Prop := ∃ slot : Slot, slot.group = g ∧ slot.type = type

theorem Slot.group_of_type {slot slot' : Slot} (h : slot.type = slot'.type) : slot.group = slot'.group := by
  revert slot slot'
  decide

theorem Group.stores_iff {g : Group} {rx : Rx} {type : MsgType} (h : msgTypeOf rx.frame.canId = some type) :
    g.Stores rx ↔ g.Covers type := by
  constructor
  · rintro ⟨slot, hg, hid⟩
    refine ⟨slot, hg, ?_⟩
    rw [hid, slot.msgTypeOf_canId] at h
    exact Option.some.inj h
  · rintro ⟨slot, hg, rfl⟩
    obtain ⟨slot', ht, hid⟩ := slot.of_msgType h
    exact ⟨slot', (Slot.group_of_type ht).trans hg, hid⟩

theorem Group.core_covers (type : MsgType) :
    Group.core.Covers type ↔
      type ∈ [MsgType.systemState, .motionState, .lightState, .motionModeState, .rcState] := by
  unfold Group.Covers
  cases type <;> decide

theorem Group.sensor_covers (type : MsgType) :
    Group.sensor.Covers type ↔ type = .bmsBasic ∨ type = .bmsExtended := by
  unfold Group.Covers
  cases type <;> decide

theorem Group.arrival_getD (g : Group) (rx : Rx) (d : Int) :
    (g.arrival rx).getD d = if g.Stores rx then rx.now else d := by
  unfold Group.arrival
  split <;> rfl

theorem parse_timeStamp {s t : AgilexBase} {rx : Rx} {type : MsgType}
    (ht : msgTypeOf rx.frame.canId = some type) (h : s.parseCANFrame rx = some t) :
    (Group.core.timeStamp t = if Group.core.Stores rx then rx.now else Group.core.timeStamp s) ∧
      Group.actuator.timeStamp t = rx.now ∧
      Group.sensor.timeStamp t = if type = .bmsBasic then rx.now else Group.sensor.timeStamp s := by
  have hok : (decodeCanFrameV2 rx.frame rx.statusMsg).1 = true := by simp [decodeCanFrameV2, ht]
  have htype : rx.decoded.type = type := by rw [Rx.decoded_of_type ht]
  rw [AgilexBase.parseCANFrame, if_pos hok] at h
  obtain ⟨g, hg, rfl⟩ := Option.map_eq_some_iff.mp h
  simp only [Group.timeStamp, updateRobotCoreState_spec, updateCommonSensorState_spec, htype,
    Group.stores_iff ht, Group.core_covers]
  exact ⟨trivial, (updateActuatorState_spec hg).1, trivial⟩

theorem stamps_iff {s t : AgilexBase} {rx : Rx} (h : s.parseCANFrame rx = some t) :
    (∀ g : Group, g.timeStamp t = (g.arrival rx).getD (g.timeStamp s)) ↔ StampKept s rx := by
  cases ht : msgTypeOf rx.frame.canId with
  | none =>
      have hstores : ∀ slot : Slot, rx.frame.canId ≠ slot.canId := by
        intro slot hid
        rw [hid, slot.msgTypeOf_canId] at ht
        cases ht
      have hst : t = s := by
        simp [AgilexBase.parseCANFrame, decodeCanFrameV2, ht] at h
        exact h.symm
      refine iff_of_true (fun g => ?_) ⟨?_, fun hid => absurd hid (hstores .bmsExtended)⟩
      · have hno : ¬ g.Stores rx := by
          rintro ⟨slot, _, hid⟩
          exact hstores slot hid
        rw [hst, Group.arrival, if_neg hno]
        rfl
      · rw [ht]
        intro hsome
        cases hsome
  | some type =>
      obtain ⟨hcore, hact, hsensor⟩ := parse_timeStamp ht h
      have hext : rx.frame.canId = CanMsg.bmsExtendedId ↔ type = .bmsExtended := by
        constructor
        · intro hid
          rw [hid] at ht
          exact Option.some.inj (ht.symm.trans (Slot.msgTypeOf_canId .bmsExtended))
        · rintro rfl
          obtain ⟨slot, hs, hid⟩ := Slot.of_msgType .bmsExtended ht
          cases slot <;> cases hs
          exact hid
      simp only [Group.arrival_getD, StampKept, ht, hext]
      constructor
      · intro hall
        refine ⟨fun _ hno => ?_, ?_⟩
        · have := hall .actuator
          rwa [hact, if_neg hno] at this
        · rintro rfl
          have := hall .sensor
          rw [hsensor, if_neg (by decide),
            if_pos ((Group.stores_iff ht).mpr ((Group.sensor_covers _).mpr (Or.inr rfl)))] at this
          exact this.symm
      · rintro ⟨hstore, hbms⟩ g
        cases g with
        | core => exact hcore
        | actuator =>
            rw [hact]
            split
            · rfl
            · exact hstore rfl ‹_›
        | sensor =>
            simp only [hsensor, Group.stores_iff ht, Group.sensor_covers]
            by_cases hb : type = .bmsBasic
            · simp [hb]
            · by_cases he : type = .bmsExtended
              · simp [he, hbms he]
              · simp [hb, he]

/-- どの時点でも、まとまりの時刻が、そのまとまりに最後に書いたフレームの届いた時刻であるのは、ほかのフレームも
`BmsExtended` のフレームも、すでにある時刻と同じ時刻にだけ届く実行であり、そのときに限る。 -/
theorem stamps_track_iff (s : AgilexBase) (rxs : List Rx) :
    (∀ pre, pre <+: rxs → ∀ t, runs AgilexBase.parseCANFrame s pre = some t → ∀ g : Group,
      g.timeStamp t = ((pre.filterMap g.arrival).getLast?).getD (g.timeStamp s)) ↔
    Always AgilexBase.parseCANFrame (fun s rx _ => StampKept s rx) s rxs := by
  rw [lastWrite_iff_always]
  exact ⟨Always.mono fun _ _ _ h => (stamps_iff h).mp, Always.mono fun _ _ _ h => (stamps_iff h).mpr⟩

-- 車体の状態のフレームだけが届いても、アクチュエータのまとまりの時刻が進む。
theorem system_frame_stamps_actuator :
    let rx : Rx := { frame := ⟨CanMsg.systemStateId, 8, fun _ => 0⟩, now := 5, statusMsg := default }
    ¬ (∀ pre, pre <+: [rx] → ∀ t, runs AgilexBase.parseCANFrame default pre = some t → ∀ g : Group,
        g.timeStamp t = ((pre.filterMap g.arrival).getLast?).getD (g.timeStamp default)) ∧
      (runs AgilexBase.parseCANFrame default [rx]).map Group.actuator.timeStamp = some 5 ∧
      [rx].filterMap Group.actuator.arrival = [] := by
  intro rx
  have hstamp : (runs AgilexBase.parseCANFrame default [rx]).map Group.actuator.timeStamp = some 5 := by decide
  have hnone : [rx].filterMap Group.actuator.arrival = [] := by decide
  refine ⟨fun h => ?_, hstamp, hnone⟩
  obtain ⟨t, ht, ht5⟩ := Option.map_eq_some_iff.mp hstamp
  have hlast := h [rx] List.prefix_rfl t ht .actuator
  rw [hnone, ht5] at hlast
  exact absurd hlast (by decide)

end Ranger.Can
