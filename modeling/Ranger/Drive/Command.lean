import Ranger.Drive.Params

/-!
# 速度の指令（`TwistCmdCallback`）

`/cmd_vel` の `Twist` から、運動の種類を選び、`RangerRobot` の `SetMotionMode` と `SetMotionCommand` を呼ぶ関数を書く。
-/

namespace Ranger.Drive
open Ranger.Lib

/-! ## 運動の種類の番号 -/

/-- `MotionState.msg` の `MOTION_MODE_*`。 -/
inductive MotionMode
  | dualAckerman
  | parallel
  | spinning
  | sideSlip
  deriving DecidableEq

def MotionMode.code : MotionMode → UInt8
  | .dualAckerman => 0
  | .parallel => 1
  | .spinning => 2
  | .sideSlip => 3

/-- `RangerInterface::MotionMode`。`3` は駐車で、横行は `4` である。 -/
inductive SdkMotionMode
  | kDualAckerman
  | kParallel
  | kSpinning
  | kPark
  | kSideSlip
  deriving DecidableEq

def SdkMotionMode.code : SdkMotionMode → UInt8
  | .kDualAckerman => 0
  | .kParallel => 1
  | .kSpinning => 2
  | .kPark => 3
  | .kSideSlip => 4

noncomputable section

/-- `geometry_msgs::msg::Twist` の、読まれる成分。`signbitX` は `linear.x` の符号のビットで、0 の符号も表す。 -/
structure Twist where
  linearX : ℝ
  linearY : ℝ
  angularZ : ℝ
  signbitX : Bool
  signbitX_iff : linearX ≠ 0 → (signbitX = true ↔ linearX < 0)

/-- `RangerRobot` の呼び出し。 -/
inductive RobotCall
  | setMotionMode (mode : UInt8)
  | setMotionCommand (linearVel steerAngle angularVel : ℝ)

/-! ## 操舵の角度 -/

/-- `CalculateSteeringAngle`。第二成分は `radius` で、`⊤` は無限大を表す。 -/
def calculateSteeringAngle (p : RobotParams) (msg : Twist) : ℝ × WithTop ℝ :=
  let linear := |msg.linearX|
  let angular := |msg.angularZ|
  if angular < 1e-6 then (0, ⊤)
  else
    let radius := linear / angular
    let k : ℝ := if msg.angularZ * msg.linearX ≥ 0 then 1 else -1
    let phi := atanRatio false (p.wheelbase / 2.0) radius
    (k * min phi (40.0 * Real.pi / 180.0), radius)

/-- `MOTION_MODE_PARALLEL` の操舵の角度。`last` は `last_nonzero_x` で、0 にならない。 -/
def parallelSteer (p : RobotParams) (msg : Twist) (last : ℝ) : ℝ :=
  let steer := atanRatio msg.signbitX msg.linearY msg.linearX
  let steer := if msg.signbitX then -steer else steer
  let steer := clampAbs p.maxSteerAngleParallel steer
  if msg.linearX = 0 ∧ msg.linearY ≠ 0 then
    if last < 0 then -|steer| else |steer|
  else steer

def parallelSign (msg : Twist) : ℝ :=
  if msg.linearX = 0 ∧ msg.linearY ≠ 0 then if msg.linearY ≥ 0 then 1 else -1
  else if msg.linearX ≥ 0 then 1 else -1

/-! ## 指令 -/

/-- 選ぶ運動の種類と、`CalculateSteeringAngle` の角度。角度は、`linear.y` が 0 のときだけ計算される。 -/
def selectMode (m : Messenger) (msg : Twist) : MotionMode × ℝ :=
  if msg.linearY ≠ 0 then
    if msg.linearX = 0 ∧ m.robotType = .kRangerMiniV1 then (.sideSlip, 0) else (.parallel, 0)
  else
    let (steer, radius) := calculateSteeringAngle m.robotParams msg
    if radius < m.robotParams.minTurnRadius then (.spinning, steer) else (.dualAckerman, steer)

/-- 運動の種類ごとの `SetMotionCommand` の呼び出し。`last` は `last_nonzero_x` である。 -/
def motionCall (p : RobotParams) (last : ℝ) (msg : Twist) (mode : MotionMode) (steer : ℝ) : RobotCall :=
  match mode with
  | .dualAckerman => .setMotionCommand msg.linearX (clampAbs p.maxSteerAngleAckermann steer) 0
  | .parallel =>
      .setMotionCommand (parallelSign msg * √(msg.linearX * msg.linearX + msg.linearY * msg.linearY))
        (parallelSteer p msg last) 0
  | .spinning => .setMotionCommand 0 0 (clampAbs p.maxAngularSpeed msg.angularZ)
  | .sideSlip => .setMotionCommand 0 0 (clampAbs p.maxLinearSpeed msg.linearY)

def Messenger.nextNonzeroX (m : Messenger) (msg : Twist) (mode : MotionMode) : ℝ :=
  if mode = .parallel ∧ msg.linearX ≠ 0 then msg.linearX else m.lastNonzeroX

/-- `TwistCmdCallback`。第二成分は、`RangerRobot` の呼び出しの列である。 -/
def twistCmdCallback (msg : Twist) (m : Messenger) : Messenger × List RobotCall :=
  if m.parkingMode = true ∧ m.robotType = .kRangerMiniV2 then (m, [])
  else
    let (mode, steer) := selectMode m msg
    let last := m.nextNonzeroX msg mode
    ({ m with motionMode := mode.code, lastNonzeroX := last },
      [.setMotionMode mode.code, motionCall m.robotParams last msg mode steer])

/-! ## 場合分け -/

/-- 駐車中の Mini V2 で、指令を捨てる。 -/
def Messenger.Parked (m : Messenger) : Prop := m.parkingMode = true ∧ m.robotType = .kRangerMiniV2

/-- 旋回の半径が最小より小さく、その場での回転になる。 -/
def Spins (p : RobotParams) (msg : Twist) : Prop :=
  1e-6 ≤ |msg.angularZ| ∧ |msg.linearX| / |msg.angularZ| < p.minTurnRadius

theorem twistCmdCallback_parked {m : Messenger} (h : m.Parked) (msg : Twist) :
    twistCmdCallback msg m = (m, []) := if_pos h

theorem twistCmdCallback_run {m : Messenger} (h : ¬ m.Parked) {msg : Twist} {mode : MotionMode} {steer : ℝ}
    (hsel : selectMode m msg = (mode, steer)) :
    twistCmdCallback msg m =
      ({ m with motionMode := mode.code, lastNonzeroX := m.nextNonzeroX msg mode },
        [.setMotionMode mode.code, motionCall m.robotParams (m.nextNonzeroX msg mode) msg mode steer]) := by
  have hrun : twistCmdCallback msg m = _ := if_neg h
  rw [hrun, hsel]

theorem calculateSteeringAngle_straight {p : RobotParams} {msg : Twist} (h : |msg.angularZ| < 1e-6) :
    calculateSteeringAngle p msg = (0, ⊤) := if_pos h

theorem calculateSteeringAngle_turn {p : RobotParams} {msg : Twist} (h : 1e-6 ≤ |msg.angularZ|) :
    calculateSteeringAngle p msg =
      ((if msg.angularZ * msg.linearX ≥ 0 then 1 else -1) *
        min (atanRatio false (p.wheelbase / 2.0) (|msg.linearX| / |msg.angularZ|)) (40.0 * Real.pi / 180.0),
        ((|msg.linearX| / |msg.angularZ| : ℝ) : WithTop ℝ)) := if_neg (not_lt.mpr h)

/-- 打ち切りのない旋回の指令の角度は、求められた半径の中央の角度に、左右の符号を付けたものである。 -/
theorem calculateSteeringAngle_unclamped {p : RobotParams} {msg : Twist} (hz : 1e-6 ≤ |msg.angularZ|)
    (hmax : atanRatio false (p.wheelbase / 2.0) (|msg.linearX| / |msg.angularZ|) ≤ 40.0 * Real.pi / 180.0) :
    (calculateSteeringAngle p msg).1 =
      if msg.angularZ * msg.linearX ≥ 0 then
        atanRatio false (p.wheelbase / 2.0) (|msg.linearX| / |msg.angularZ|)
      else -atanRatio false (p.wheelbase / 2.0) (|msg.linearX| / |msg.angularZ|) := by
  rw [calculateSteeringAngle_turn hz, min_eq_left hmax]
  split_ifs <;> ring

/-- 角度が二つの上限を超えなければ、送る角度は、計算した角度である。 -/
theorem clampAbs_steering {p : RobotParams} {msg : Twist} {limit : ℝ} (hz : 1e-6 ≤ |msg.angularZ|)
    (hphi : 0 ≤ atanRatio false (p.wheelbase / 2.0) (|msg.linearX| / |msg.angularZ|))
    (hmax : atanRatio false (p.wheelbase / 2.0) (|msg.linearX| / |msg.angularZ|) ≤ 40.0 * Real.pi / 180.0)
    (hlimit : atanRatio false (p.wheelbase / 2.0) (|msg.linearX| / |msg.angularZ|) ≤ limit) :
    clampAbs limit (calculateSteeringAngle p msg).1 = (calculateSteeringAngle p msg).1 := by
  refine clampAbs_of_abs_le ?_
  rw [calculateSteeringAngle_unclamped hz hmax]
  split_ifs
  · rwa [abs_of_nonneg hphi]
  · rwa [abs_neg, abs_of_nonneg hphi]

theorem radius_lt_iff (p : RobotParams) (msg : Twist) :
    (calculateSteeringAngle p msg).2 < p.minTurnRadius ↔ Spins p msg := by
  rcases lt_or_ge |msg.angularZ| 1e-6 with h | h
  · rw [calculateSteeringAngle_straight h]
    exact iff_of_false not_top_lt (fun hs => absurd hs.1 (not_le.mpr h))
  · rw [calculateSteeringAngle_turn h]
    exact WithTop.coe_lt_coe.trans ⟨fun hr => ⟨h, hr⟩, And.right⟩

theorem selectMode_lateral {m : Messenger} {msg : Twist} (hy : msg.linearY ≠ 0)
    (h : ¬ (msg.linearX = 0 ∧ m.robotType = .kRangerMiniV1)) : selectMode m msg = (.parallel, 0) := by
  rw [selectMode, if_pos hy, if_neg h]

theorem selectMode_sideSlip {m : Messenger} {msg : Twist} (hy : msg.linearY ≠ 0) (hx : msg.linearX = 0)
    (h : m.robotType = .kRangerMiniV1) : selectMode m msg = (.sideSlip, 0) := by
  rw [selectMode, if_pos hy, if_pos ⟨hx, h⟩]

theorem selectMode_spinning {m : Messenger} {msg : Twist} (hy : msg.linearY = 0)
    (h : Spins m.robotParams msg) :
    selectMode m msg = (.spinning, (calculateSteeringAngle m.robotParams msg).1) := by
  rw [selectMode, if_neg (not_not.mpr hy)]
  exact if_pos ((radius_lt_iff _ _).mpr h)

theorem selectMode_dualAckerman {m : Messenger} {msg : Twist} (hy : msg.linearY = 0)
    (h : ¬ Spins m.robotParams msg) :
    selectMode m msg = (.dualAckerman, (calculateSteeringAngle m.robotParams msg).1) := by
  rw [selectMode, if_neg (not_not.mpr hy)]
  exact if_neg (fun hr => h ((radius_lt_iff _ _).mp hr))

end

end Ranger.Drive
