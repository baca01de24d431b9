import Ranger.Can.Theorems

/-!
# アクチュエータの状態の発行

`ranger_base.hpp` の `GetActuatorState` と、`ranger_messenger.cpp` の `PublishStateToROS` が発行する `ActuatorStateArray` を
書き、受信したフレームから発行までを通した定理を示す。`PublishStateToROS` がほかに発行するものは、この配列に関わらないので
省く。
-/

namespace Ranger.Can
open Ranger.Lib

/-! ## 車体の種類 -/

inductive Variant
  | kRanger
  | kRangerMiniV1
  | kRangerMiniV2
  | kRangerMiniV3
  deriving DecidableEq

structure RangerActuatorState where
  timeStamp : Int
  motorAngles : MotorAngleMessage
  motorSpeeds : MotorSpeedMessage
  actuatorHsState : Fin 8 → ActuatorHSStateMessage
  actuatorLsState : Fin 8 → ActuatorLSStateMessage

def mPi : ℚ := 3.14159265358979323846

def rangerGetActuatorState (s : AgilexBase) : RangerActuatorState :=
  let actuator := s.actuatorStateMsgs
  { timeStamp := actuator.timeStamp
    motorAngles := actuator.motorAngles
    motorSpeeds := actuator.motorSpeeds
    actuatorHsState := actuator.actuatorHsState
    actuatorLsState := actuator.actuatorLsState }

/-- `RangerMiniV1Base::GetActuatorState`。角度の単位と向きだけが異なる。 -/
def miniV1GetActuatorState (s : AgilexBase) : RangerActuatorState :=
  let actuator := s.actuatorStateMsgs
  { timeStamp := actuator.timeStamp
    motorAngles :=
      { angle5 := -actuator.motorAngles.angle5 / 18 * mPi
        angle6 := -actuator.motorAngles.angle6 / 18 * mPi
        angle7 := -actuator.motorAngles.angle7 / 18 * mPi
        angle8 := -actuator.motorAngles.angle8 / 18 * mPi }
    motorSpeeds := actuator.motorSpeeds
    actuatorHsState := actuator.actuatorHsState
    actuatorLsState := actuator.actuatorLsState }

def getActuatorState (variant : Variant) (s : AgilexBase) : RangerActuatorState :=
  match variant with
  | .kRangerMiniV1 => miniV1GetActuatorState s
  | .kRanger | .kRangerMiniV2 | .kRangerMiniV3 => rangerGetActuatorState s

/-! ## 発行するメッセージ -/

structure DriverState where
  driverVoltage : ℚ
  driverTemperature : ℚ
  motorTemperature : ℚ
  driverState : UInt32
  deriving DecidableEq

structure MotorState where
  rpm : Int32
  current : ℚ
  pulseCount : Int32
  motorAngles : ℚ
  motorSpeeds : ℚ
  deriving DecidableEq

structure ActuatorState where
  id : UInt32
  motor : MotorState
  driver : DriverState
  deriving DecidableEq

/-- `PublishStateToROS` のループの本体。添字のない `actuator_ls_state->` と `actuator_hs_state->` は、どの `i` でも配列の
先頭を読む。 -/
def actuatorStateMsg (a : RangerActuatorState) (i : Nat) : ActuatorState :=
  let ls := a.actuatorLsState 0
  let hs := a.actuatorHsState 0
  { id := UInt32.ofNat i
    driver :=
      { driverVoltage := ls.driverVoltage
        driverTemperature := ls.driverTemp
        motorTemperature := ls.motorTemp
        driverState := ls.driverState.toUInt32 }
    motor :=
      { rpm := hs.rpm.toInt32
        current := hs.current
        pulseCount := hs.pulseCount
        motorAngles := a.motorAngles.angle5
        motorSpeeds := a.motorSpeeds.speed1 } }

def publishActuatorState (a : RangerActuatorState) : List ActuatorState :=
  (List.range 8).map (actuatorStateMsg a)

/-- 発行に使うメンバ。`initRun` は `PublishStateToROS` の静的変数である。 -/
structure Messenger where
  initRun : Bool
  variant : Variant
  robot : AgilexBase

/-- `PublishStateToROS`。最初の呼び出しでは何も発行しない。 -/
def publishStateToROS (m : Messenger) : Messenger × Option (List ActuatorState) :=
  if m.initRun then ({ m with initRun := false }, none)
  else (m, some (publishActuatorState (getActuatorState m.variant m.robot)))

/-! ## 発行の性質 -/

def driverOf (ls : ActuatorLSStateMessage) : DriverState :=
  { driverVoltage := ls.driverVoltage
    driverTemperature := ls.driverTemp
    motorTemperature := ls.motorTemp
    driverState := ls.driverState.toUInt32 }

def motorOf (hs : ActuatorHSStateMessage) : Int32 × ℚ × Int32 := (hs.rpm.toInt32, hs.current, hs.pulseCount)

/-- 番号の合う最後のフレームを復号したメンバ。なければ、元の記録。 -/
def Slot.last (slot : Slot) (s : AgilexBase) (rxs : List Rx) : slot.Value :=
  ((rxs.filterMap slot.writes).getLast?).getD (slot.read s)

/-- 発行した配列の `i` 番目は、`i` 番目のモータの最後のフレームの値を持つ。 -/
def ArrayFaithful (s : AgilexBase) (rxs : List Rx) (states : List ActuatorState) : Prop :=
  ∀ i : Fin 8, ∃ st ∈ states[i.val]?, st.id = UInt32.ofNat i ∧ st.driver = driverOf ((Slot.ls i).last s rxs) ∧
    (st.motor.rpm, st.motor.current, st.motor.pulseCount) = motorOf ((Slot.hs i).last s rxs)

/-- どのモータの最後のフレームも、先頭のモータと同じ値を伝える。 -/
def MotorsAgree (s : AgilexBase) (rxs : List Rx) : Prop :=
  ∀ i : Fin 8, driverOf ((Slot.ls 0).last s rxs) = driverOf ((Slot.ls i).last s rxs) ∧
    motorOf ((Slot.hs 0).last s rxs) = motorOf ((Slot.hs i).last s rxs)

instance (s : AgilexBase) (rxs : List Rx) (states : List ActuatorState) :
    Decidable (ArrayFaithful s rxs states) :=
  inferInstanceAs (Decidable (∀ _ : Fin 8, ∃ st ∈ _, _))

theorem getActuatorState_slots (variant : Variant) (s : AgilexBase) :
    (getActuatorState variant s).actuatorHsState = s.actuatorStateMsgs.actuatorHsState ∧
      (getActuatorState variant s).actuatorLsState = s.actuatorStateMsgs.actuatorLsState := by
  cases variant <;> exact ⟨rfl, rfl⟩

theorem publishActuatorState_get (a : RangerActuatorState) (i : Fin 8) :
    ∃ st, (publishActuatorState a)[i.val]? = some st ∧ st.id = UInt32.ofNat i ∧
      st.driver = driverOf (a.actuatorLsState 0) ∧
      (st.motor.rpm, st.motor.current, st.motor.pulseCount) = motorOf (a.actuatorHsState 0) := by
  refine ⟨actuatorStateMsg a i, ?_, rfl, rfl, rfl⟩
  rw [publishActuatorState, List.getElem?_map, List.getElem?_range i.isLt]
  rfl

/-- 受信したフレームの後に発行する配列が、モータごとの最後のフレームの値を持つのは、どのモータも先頭のモータと同じ値を伝えた
ときであり、そのときに限る。 -/
theorem actuator_array_iff (variant : Variant) (s : AgilexBase) (rxs : List Rx) :
    ∃ t states, runs AgilexBase.parseCANFrame s rxs = some t ∧
      (publishStateToROS { initRun := false, variant, robot := t }).2 = some states ∧
      (ArrayFaithful s rxs states ↔ MotorsAgree s rxs) := by
  obtain ⟨t, ht⟩ := runs_total AgilexBase.parse_total s rxs
  have hlast : ∀ slot : Slot, slot.read t = slot.last s rxs :=
    runs_lastWrite (fun _ _ _ h => AgilexBase.parse_read h) ht
  refine ⟨t, publishActuatorState (getActuatorState variant t), ht, rfl, ?_⟩
  obtain ⟨hhs, hls⟩ := getActuatorState_slots variant t
  have hls0 : (getActuatorState variant t).actuatorLsState 0 = (Slot.ls 0).last s rxs := by
    rw [hls]; exact hlast (.ls 0)
  have hhs0 : (getActuatorState variant t).actuatorHsState 0 = (Slot.hs 0).last s rxs := by
    rw [hhs]; exact hlast (.hs 0)
  refine forall_congr' fun i => ?_
  obtain ⟨st, hst, hid, hdriver, hmotor⟩ := publishActuatorState_get (getActuatorState variant t) i
  rw [hls0] at hdriver
  rw [hhs0] at hmotor
  constructor
  · rintro ⟨st', hst', _, hdriver', hmotor'⟩
    obtain rfl : st = st' := Option.some.inj (hst.symm.trans hst')
    exact ⟨hdriver.symm.trans hdriver', hmotor.symm.trans hmotor'⟩
  · rintro ⟨hd, hm⟩
    exact ⟨st, hst, hid, hdriver.trans hd, hmotor.trans hm⟩

-- 二番目のモータの低速のフレームだけが届くと、その値はどこにも発行されない。
theorem second_motor_unpublished :
    let rx : Rx := { frame := ⟨0x262, 8, ![0, 0, 0, 0, 0, 0x40, 0, 0]⟩, now := 0, statusMsg := default }
    (runs AgilexBase.parseCANFrame default [rx]).any fun t =>
      (publishStateToROS { initRun := false, variant := .kRanger, robot := t }).2.any fun states =>
        ¬ ArrayFaithful default [rx] states := by
  decide +kernel

end Ranger.Can
