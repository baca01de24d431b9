import Ranger.Lib.Block
import Mathlib.Analysis.SpecialFunctions.Trigonometric.Basic

/-!
# 拡張カルマンフィルタ（`ekf.cpp`、`filter_base.cpp`）

15 個の成分の推定値と共分散の、予測、補正、測定の処理を実数の上で書く。`angles` の `normalize_angle` は引数とする。
実数で値の定まらない計算（`cos(pitch)` が 0 の予測、逆行列のない補正、`nan` か `inf` による初期化）は `none` とする。
-/

namespace Ranger.Localization
open Ranger.Lib Matrix

noncomputable section

inductive StateMember where
  | x | y | z | roll | pitch | yaw | vx | vy | vz | vroll | vpitch | vyaw | ax | ay | az
  deriving DecidableEq

instance : Fintype StateMember where
  elems := {.x, .y, .z, .roll, .pitch, .yaw, .vx, .vy, .vz, .vroll, .vpitch, .vyaw, .ax, .ay, .az}
  complete := by
    intro i
    cases i <;> decide

inductive ControlMember where
  | vx | vy | vz | vroll | vpitch | vyaw
  deriving DecidableEq

/-- 制御の成分の表す速度。 -/
def ControlMember.twist : ControlMember → StateMember
  | .vx => .vx
  | .vy => .vy
  | .vz => .vz
  | .vroll => .vroll
  | .vpitch => .vpitch
  | .vyaw => .vyaw

abbrev StateVector := StateMember → ℝ

abbrev StateMatrix := Matrix StateMember StateMember ℝ

/-- 時刻の単位はナノ秒である。`measurement` の `none` は `nan` か `inf` を表す。 -/
structure Measurement where
  time : ℤ
  mahalanobisThresh : ℝ
  updateVector : StateMember → Bool
  measurement : StateMember → Option ℝ
  covariance : StateMatrix

structure ControlParams where
  updateVector : ControlMember → Bool
  controlTimeout : ℤ
  accelerationLimits : ControlMember → ℝ
  accelerationGains : ControlMember → ℝ
  decelerationLimits : ControlMember → ℝ
  decelerationGains : ControlMember → ℝ

/-- `control` の `none` は `use_control_` が偽であることを表す。このとき `control_update_vector_` はすべて偽である。 -/
structure Ekf where
  initialized : Bool
  useDynamicProcessNoiseCovariance : Bool
  control : Option ControlParams
  latestControl : ControlMember → ℝ
  latestControlTime : ℤ
  lastMeasurementTime : ℤ
  state : StateVector
  estimateErrorCovariance : StateMatrix
  processNoiseCovariance : StateMatrix

def toSec (duration : ℤ) : ℝ := (duration : ℝ) / 1e9

namespace Ekf

/-! ## 初期値と設定 -/

def defaultProcessNoise : StateMember → ℝ
  | .x | .y => 0.05
  | .z => 0.06
  | .roll | .pitch => 0.03
  | .yaw => 0.06
  | .vx | .vy => 0.025
  | .vz => 0.04
  | .vroll | .vpitch => 0.01
  | .vyaw => 0.02
  | .ax | .ay => 0.01
  | .az => 0.015

def reset (f : Ekf) : Ekf :=
  { f with
    initialized := false
    lastMeasurementTime := 0
    state := 0
    estimateErrorCovariance := (1e-9 : ℝ) • (1 : StateMatrix)
    processNoiseCovariance := Matrix.diagonal defaultProcessNoise }

def setProcessNoiseCovariance (f : Ekf) (processNoiseCovariance : StateMatrix) : Ekf :=
  { f with processNoiseCovariance := processNoiseCovariance }

def setEstimateErrorCovariance (f : Ekf) (estimateErrorCovariance : StateMatrix) : Ekf :=
  { f with estimateErrorCovariance := estimateErrorCovariance }

def setControl (f : Ekf) (control : ControlMember → ℝ) (controlTime : ℤ) : Ekf :=
  { f with latestControl := control, latestControlTime := controlTime }

/-! ## 制御入力 -/

def computeControlAcceleration (state control accelerationLimit accelerationGain decelerationLimit
    decelerationGain : ℝ) : ℝ :=
  let error := control - state
  let setPoint := if |error| ≤ |control| + 0.01 then control else 0
  let limit := if |setPoint| < |state| then decelerationLimit else accelerationLimit
  let gain := if |setPoint| < |state| then decelerationGain else accelerationGain
  min (max (gain * error) (-limit)) limit

/-- `prepareControl` の求める `control_acceleration_`。 -/
def prepareControl (f : Ekf) (referenceTime : ℤ) (c : ControlMember) : ℝ :=
  match f.control with
  | none => 0
  | some p =>
      let timedOut := p.controlTimeout ≤ referenceTime - f.latestControlTime
      if p.updateVector c then
        computeControlAcceleration (f.state c.twist) (if timedOut then 0 else f.latestControl c)
          (p.accelerationLimits c) (p.accelerationGains c) (p.decelerationLimits c) (p.decelerationGains c)
      else 0

def controlUpdate (f : Ekf) (c : ControlMember) : Bool :=
  match f.control with
  | none => false
  | some p => p.updateVector c

/-- 予測の (1) の、制御の項を加えた推定値。 -/
def applyControl (f : Ekf) (referenceTime : ℤ) (deltaSec : ℝ) : StateVector
  | .vroll => f.state .vroll + f.prepareControl referenceTime .vroll * deltaSec
  | .vpitch => f.state .vpitch + f.prepareControl referenceTime .vpitch * deltaSec
  | .vyaw => f.state .vyaw + f.prepareControl referenceTime .vyaw * deltaSec
  | .ax => if f.controlUpdate .vx then f.prepareControl referenceTime .vx else f.state .ax
  | .ay => if f.controlUpdate .vy then f.prepareControl referenceTime .vy else f.state .ay
  | .az => if f.controlUpdate .vz then f.prepareControl referenceTime .vz else f.state .az
  | i => f.state i

/-! ## 遷移の行列 -/

/-- 単位行列の `transfer_function_` へ代入される成分。 -/
def transferEntries (s : StateVector) (deltaSec : ℝ) : List (StateMember × StateMember × ℝ) :=
  let sp := Real.sin (s .pitch)
  let cp := Real.cos (s .pitch)
  let cpi := 1 / cp
  let tp := sp * cpi
  let sr := Real.sin (s .roll)
  let cr := Real.cos (s .roll)
  let sy := Real.sin (s .yaw)
  let cy := Real.cos (s .yaw)
  let xvx := cy * cp * deltaSec
  let xvy := (cy * sp * sr - sy * cr) * deltaSec
  let xvz := (cy * sp * cr + sy * sr) * deltaSec
  let yvx := sy * cp * deltaSec
  let yvy := (sy * sp * sr + cy * cr) * deltaSec
  let yvz := (sy * sp * cr - cy * sr) * deltaSec
  let zvx := -sp * deltaSec
  let zvy := cp * sr * deltaSec
  let zvz := cp * cr * deltaSec
  [ (.x, .vx, xvx), (.x, .vy, xvy), (.x, .vz, xvz),
    (.x, .ax, 0.5 * xvx * deltaSec), (.x, .ay, 0.5 * xvy * deltaSec), (.x, .az, 0.5 * xvz * deltaSec),
    (.y, .vx, yvx), (.y, .vy, yvy), (.y, .vz, yvz),
    (.y, .ax, 0.5 * yvx * deltaSec), (.y, .ay, 0.5 * yvy * deltaSec), (.y, .az, 0.5 * yvz * deltaSec),
    (.z, .vx, zvx), (.z, .vy, zvy), (.z, .vz, zvz),
    (.z, .ax, 0.5 * zvx * deltaSec), (.z, .ay, 0.5 * zvy * deltaSec), (.z, .az, 0.5 * zvz * deltaSec),
    (.roll, .vroll, deltaSec), (.roll, .vpitch, sr * tp * deltaSec), (.roll, .vyaw, cr * tp * deltaSec),
    (.pitch, .vpitch, cr * deltaSec), (.pitch, .vyaw, -sr * deltaSec),
    (.yaw, .vpitch, sr * cpi * deltaSec), (.yaw, .vyaw, cr * cpi * deltaSec),
    (.vx, .ax, deltaSec), (.vy, .ay, deltaSec), (.vz, .az, deltaSec) ]

def transferFunction (s : StateVector) (deltaSec : ℝ) : StateMatrix :=
  assign 1 (transferEntries s deltaSec)

/-- `transfer_function_` を写した `transfer_function_jacobian_` へ代入される成分。 -/
def jacobianEntries (s : StateVector) (deltaSec : ℝ) : List (StateMember × StateMember × ℝ) :=
  let sp := Real.sin (s .pitch)
  let cp := Real.cos (s .pitch)
  let cpi := 1 / cp
  let tp := sp * cpi
  let sr := Real.sin (s .roll)
  let cr := Real.cos (s .roll)
  let sy := Real.sin (s .yaw)
  let cy := Real.cos (s .yaw)
  let oneHalfAtSquared := 0.5 * deltaSec * deltaSec
  let coupling := fun xCoeff yCoeff zCoeff =>
    (xCoeff * s .vx + yCoeff * s .vy + zCoeff * s .vz) * deltaSec +
      (xCoeff * s .ax + yCoeff * s .ay + zCoeff * s .az) * oneHalfAtSquared
  let lateral := fun yCoeff zCoeff =>
    (yCoeff * s .vy + zCoeff * s .vz) * deltaSec + (yCoeff * s .ay + zCoeff * s .az) * oneHalfAtSquared
  [ (.x, .roll, lateral (cy * sp * cr + sy * sr) (-cy * sp * sr + sy * cr)),
    (.x, .pitch, coupling (-cy * sp) (cy * cp * sr) (cy * cp * cr)),
    (.x, .yaw, coupling (-sy * cp) (-sy * sp * sr - cy * cr) (-sy * sp * cr + cy * sr)),
    (.y, .roll, lateral (sy * sp * cr - cy * sr) (-sy * sp * sr - cy * cr)),
    (.y, .pitch, coupling (-sy * sp) (sy * cp * sr) (sy * cp * cr)),
    (.y, .yaw, coupling (cy * cp) (cy * sp * sr - sy * cr) (cy * sp * cr + sy * sr)),
    (.z, .roll, lateral (cp * cr) (-cp * sr)),
    (.z, .pitch, coupling (-cp) (-sp * sr) (-sp * cr)),
    (.roll, .roll, 1 + (cr * tp * s .vpitch - sr * tp * s .vyaw) * deltaSec),
    (.roll, .pitch, (cpi * cpi * sr * s .vpitch + cpi * cpi * cr * s .vyaw) * deltaSec),
    (.pitch, .roll, (-sr * s .vpitch - cr * s .vyaw) * deltaSec),
    (.yaw, .roll, (cr * cpi * s .vpitch - sr * cpi * s .vyaw) * deltaSec),
    (.yaw, .pitch, (sr * tp * cpi * s .vpitch + cr * tp * cpi * s .vyaw) * deltaSec) ]

def transferFunctionJacobian (s : StateVector) (deltaSec : ℝ) : StateMatrix :=
  assign (transferFunction s deltaSec) (jacobianEntries s deltaSec)

/-! ## 予測 -/

def isPose : StateMember → Bool
  | .x | .y | .z | .roll | .pitch | .yaw => true
  | _ => false

/-- `state` の速度の部分の長さ。 -/
def twistNorm (s : StateVector) : ℝ :=
  Real.sqrt (s .vx ^ 2 + s .vy ^ 2 + s .vz ^ 2 + s .vroll ^ 2 + s .vpitch ^ 2 + s .vyaw ^ 2)

def computeDynamicProcessNoiseCovariance (q : StateMatrix) (s : StateVector) : StateMatrix :=
  Matrix.of fun i j => if isPose i && isPose j then twistNorm s * q i j * twistNorm s else q i j

/-- 予測に使われる過程の雑音の共分散。 -/
def noise (f : Ekf) : StateMatrix :=
  if f.useDynamicProcessNoiseCovariance then
    computeDynamicProcessNoiseCovariance f.processNoiseCovariance f.state
  else f.processNoiseCovariance

section Step

variable (normalizeAngle : ℝ → ℝ)

def wrapStateAngles (s : StateVector) : StateVector
  | .roll => normalizeAngle (s .roll)
  | .pitch => normalizeAngle (s .pitch)
  | .yaw => normalizeAngle (s .yaw)
  | i => s i

def predict (f : Ekf) (referenceTime delta : ℤ) : Option Ekf :=
  if Real.cos (f.state .pitch) = 0 then none
  else
    let deltaSec := toSec delta
    let jacobian := transferFunctionJacobian f.state deltaSec
    some
      { f with
        state := wrapStateAngles normalizeAngle
          (transferFunction f.state deltaSec *ᵥ f.applyControl referenceTime deltaSec)
        estimateErrorCovariance :=
          jacobian * f.estimateErrorCovariance * jacobian.transpose + deltaSec • f.noise }

/-! ## 補正 -/

/-- `correct` の `update_indices`。 -/
abbrev UpdateIndex (m : Measurement) : Type :=
  { i : StateMember // m.updateVector i = true ∧ (m.measurement i).isSome = true }

/-- 負の分散を絶対値にし、0 に近い分散を持ち上げる。 -/
def stableVariance (v : ℝ) : ℝ :=
  let w := if v < 0 then |v| else v
  if w < 1e-9 then 1e-9 else w

def measurementCovarianceSubset (m : Measurement) : Matrix (UpdateIndex m) (UpdateIndex m) ℝ :=
  Matrix.of fun i j => if i = j then stableVariance (m.covariance i i) else m.covariance i j

def stateToMeasurementSubset (m : Measurement) : Matrix (UpdateIndex m) StateMember ℝ :=
  Matrix.of fun i j => if i.1 = j then 1 else 0

/-- `HPH' + R`。 -/
def hphr (f : Ekf) (m : Measurement) : Matrix (UpdateIndex m) (UpdateIndex m) ℝ :=
  stateToMeasurementSubset m * (f.estimateErrorCovariance * (stateToMeasurementSubset m).transpose) +
    measurementCovarianceSubset m

def kalmanGainSubset (f : Ekf) (m : Measurement) : Matrix StateMember (UpdateIndex m) ℝ :=
  f.estimateErrorCovariance * (stateToMeasurementSubset m).transpose * (hphr f m)⁻¹

def isAngle : StateMember → Bool
  | .roll | .pitch | .yaw => true
  | _ => false

def innovationSubset (f : Ekf) (m : Measurement) (i : UpdateIndex m) : ℝ :=
  let innovation := (m.measurement i).get i.2.2 - f.state i
  if isAngle i then normalizeAngle innovation else innovation

def checkMahalanobisThreshold {ι : Type} [Fintype ι] (innovation : ι → ℝ) (innovationCovariance : Matrix ι ι ℝ)
    (nSigmas : ℝ) : Prop :=
  ¬ nSigmas * nSigmas ≤ innovation ⬝ᵥ innovationCovariance *ᵥ innovation

open Classical in
def correct (f : Ekf) (m : Measurement) : Option Ekf :=
  if (hphr f m).det = 0 then none
  else
    let gain := kalmanGainSubset f m
    let innovation := innovationSubset normalizeAngle f m
    let gainResidual := 1 - gain * stateToMeasurementSubset m
    if checkMahalanobisThreshold innovation (hphr f m)⁻¹ m.mahalanobisThresh then
      some
        { f with
          state := wrapStateAngles normalizeAngle (f.state + gain *ᵥ innovation)
          estimateErrorCovariance :=
            gainResidual * f.estimateErrorCovariance * gainResidual.transpose +
              gain * measurementCovarianceSubset m * gain.transpose }
    else some f

/-! ## 測定の処理 -/

/-- 初めての測定は、使う成分だけをそのまま写す。 -/
def firstMeasurement (f : Ekf) (m : Measurement) : Option Ekf :=
  if ∀ i, m.updateVector i = true → (m.measurement i).isSome = true then
    some
      { f with
        initialized := true
        state := fun i => if m.updateVector i then (m.measurement i).getD 0 else f.state i
        estimateErrorCovariance := Matrix.of fun i j =>
          if m.updateVector i && m.updateVector j then m.covariance i j else f.estimateErrorCovariance i j }
  else none

def processMeasurement (f : Ekf) (m : Measurement) : Option Ekf :=
  if f.initialized then
    let delta := m.time - f.lastMeasurementTime
    let predicted := if 0 < delta then predict normalizeAngle f m.time delta else some f
    predicted.bind fun g => (correct normalizeAngle g m).map fun h =>
      if 0 ≤ delta then { h with lastMeasurementTime := m.time } else h
  else (firstMeasurement f m).map fun g => { g with lastMeasurementTime := m.time }

end Step

end Ekf

end

end Ranger.Localization
