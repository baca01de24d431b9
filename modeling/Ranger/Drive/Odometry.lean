import Ranger.Drive.Command

/-!
# 走行の推定（`UpdateOdometry`）

`kinematics_model.hpp` の三つの運動の模型と、車体の知らせる速度から位置を進め、速度を発行する `UpdateOdometry` を書く。
`boost` の `integrate_const` は引数とする。発行するメッセージの見出しと共分散は省く。
-/

namespace Ranger.Drive
open Ranger.Lib

noncomputable section

/-! ## 運動の模型 -/

/-- 位置と向きの、時間についての微分。 -/
@[ext] structure Rate where
  dx : ℝ
  dy : ℝ
  dtheta : ℝ

def dualAckermanModel (L v phi : ℝ) (x : Pose) : Rate where
  dx := v * Real.cos phi * Real.cos x.theta
  dy := v * Real.cos phi * Real.sin x.theta
  dtheta := 2.0 * v * Real.sin phi / L

def parallelModel (v phi : ℝ) (x : Pose) : Rate where
  dx := v * Real.cos (x.theta + phi)
  dy := v * Real.sin (x.theta + phi)
  dtheta := 0

def spinningModel (w : ℝ) (_ : Pose) : Rate where
  dx := 0
  dy := 0
  dtheta := w

/-! ## 操舵の角度の変換 -/

def convertInnerAngleToCentral (p : RobotParams) (angle : ℝ) : ℝ :=
  let phiI := |angle|
  let phi := atanRatio false (p.wheelbase * Real.sin phiI)
    (p.wheelbase * Real.cos phiI + p.track * Real.sin phiI)
  phi * if angle ≥ 0 then 1 else -1

def convertCentralAngleToInner (p : RobotParams) (angle : ℝ) : ℝ :=
  let phi := |angle|
  let phiI := atanRatio false (p.wheelbase * Real.sin phi)
    (p.wheelbase * Real.cos phi - p.track * Real.sin phi)
  phiI * if angle ≥ 0 then 1 else -1

/-! ## `UpdateOdometry` -/

/-- 車体の知らせる運動の番号から選ぶ分岐。二つの番号づけのどちらかに合うものを、書かれた順に選ぶ。 -/
def odometryMode (motionMode : UInt8) : Option MotionMode :=
  if motionMode = MotionMode.dualAckerman.code ∨ motionMode = SdkMotionMode.kDualAckerman.code then
    some .dualAckerman
  else if motionMode = MotionMode.parallel.code ∨ motionMode = SdkMotionMode.kParallel.code then
    some .parallel
  else if motionMode = MotionMode.sideSlip.code ∨ motionMode = SdkMotionMode.kSideSlip.code then
    some .sideSlip
  else if motionMode = MotionMode.spinning.code ∨ motionMode = SdkMotionMode.kSpinning.code then
    some .spinning
  else none

/-- `integrate_const` の、模型、はじめの状態、はじめと終わりの時刻、刻みを受け取り、終わりの状態を返す関数。 -/
abbrev Integrator := (Pose → Rate) → Pose → ℝ → ℝ → ℝ → Pose

structure BodyTwist where
  linearX : ℝ
  linearY : ℝ
  angularZ : ℝ

def advancePose (integrate : Integrator) (p : RobotParams) (mode : Option MotionMode)
    (linear angular angle dt : ℝ) (x : Pose) : Pose :=
  match mode with
  | some .dualAckerman =>
      integrate (dualAckermanModel p.wheelbase linear (convertInnerAngleToCentral p angle)) x 0 dt (dt / 10.0)
  | some .parallel => integrate (parallelModel linear angle) x 0 dt (dt / 10.0)
  | some .sideSlip =>
      { x with x := x.x + -linear * Real.sin x.theta * dt, y := x.y + linear * Real.cos x.theta * dt }
  | some .spinning => integrate (spinningModel angular) x 0 dt (dt / 10.0)
  | none => x

def publishedTwist (p : RobotParams) (mode : Option MotionMode) (linear angular angle : ℝ) : BodyTwist :=
  match mode with
  | some .dualAckerman =>
      ⟨linear, 0, 2.0 * linear * Real.sin (convertInnerAngleToCentral p angle) / p.wheelbase⟩
  | some .parallel => ⟨linear * Real.cos angle, linear * Real.sin angle, 0⟩
  | some .sideSlip => ⟨0, linear, 0⟩
  | some .spinning => ⟨0, 0, angular⟩
  | none => ⟨0, 0, 0⟩

/-- `UpdateOdometry`。第二成分は、発行する位置と速度である。`lateral` は読まれない。 -/
def updateOdometry (integrate : Integrator) (linear _lateral angular angle dt : ℝ) (m : Messenger) :
    Messenger × Pose × BodyTwist :=
  let mode := odometryMode m.motionMode
  let pose := advancePose integrate m.robotParams mode linear angular angle dt m.pose
  ({ m with pose }, pose, publishedTwist m.robotParams mode linear angular angle)

/-! ## 位置の進め方 -/

/-- 位置を進めるのに使う微分。横行は、模型のクラスを使わず、式で書かれている。 -/
def odometryRate (p : RobotParams) (mode : MotionMode) (linear angular angle : ℝ) (x : Pose) : Rate :=
  match mode with
  | .dualAckerman => dualAckermanModel p.wheelbase linear (convertInnerAngleToCentral p angle) x
  | .parallel => parallelModel linear angle x
  | .sideSlip => ⟨-linear * Real.sin x.theta, linear * Real.cos x.theta, 0⟩
  | .spinning => spinningModel angular x

/-- 微分 `rate` で、時間 `dt` だけ進める。横行は一歩で、ほかは `integrate_const` で進める。 -/
def advance (integrate : Integrator) (mode : MotionMode) (rate : Pose → Rate) (dt : ℝ) (x : Pose) : Pose :=
  if mode = .sideSlip then
    ⟨x.x + (rate x).dx * dt, x.y + (rate x).dy * dt, x.theta + (rate x).dtheta * dt⟩
  else integrate rate x 0 dt (dt / 10.0)

theorem advancePose_eq (integrate : Integrator) (p : RobotParams) (mode : MotionMode)
    (linear angular angle dt : ℝ) (x : Pose) :
    advancePose integrate p (some mode) linear angular angle dt x =
      advance integrate mode (odometryRate p mode linear angular angle) dt x := by
  cases mode with
  | sideSlip => simp [advancePose, advance, odometryRate]
  | _ => rfl

/-! ## 中央の角度 -/

theorem abs_central_le (p : RobotParams) (angle : ℝ) : |convertInnerAngleToCentral p angle| ≤ Real.pi / 2 := by
  have hk : |(if angle ≥ 0 then 1 else -1 : ℝ)| = 1 := by split_ifs <;> simp
  rw [convertInnerAngleToCentral, abs_mul, hk, mul_one]
  exact abs_atanRatio_le _ _ _

theorem central_eq_zero_iff {p : RobotParams} (hL : 0 < p.wheelbase) (angle : ℝ) :
    convertInnerAngleToCentral p angle = 0 ↔ Real.sin angle = 0 := by
  have hsin : Real.sin |angle| = 0 ↔ Real.sin angle = 0 := by
    rcases abs_choice angle with h | h <;> simp [h]
  have hk : (if angle ≥ 0 then 1 else -1 : ℝ) ≠ 0 := by split_ifs <;> norm_num
  rw [convertInnerAngleToCentral, mul_eq_zero, or_iff_left hk, atanRatio_eq_zero_iff, mul_eq_zero,
    or_iff_right hL.ne', hsin]

theorem cos_central_eq_one_iff {p : RobotParams} (hL : 0 < p.wheelbase) (angle : ℝ) :
    Real.cos (convertInnerAngleToCentral p angle) = 1 ↔ Real.sin angle = 0 := by
  have hle := abs_le.mp (abs_central_le p angle)
  have hpi := Real.pi_pos
  rw [← central_eq_zero_iff hL]
  exact Real.cos_eq_one_iff_of_lt_of_lt (by linarith) (by linarith)

end

end Ranger.Drive
