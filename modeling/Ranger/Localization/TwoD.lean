import Mathlib.Algebra.Order.ToIntervalMod
import Ranger.Lib.Run
import Ranger.Localization.Ekf

/-!
# 平面に限った推定（`two_d_mode`）

`RosFilter` の `forceTwoD` を通した測定による補正と、予測の並びが、平面に属さない成分を 0 に保ち、平面の成分との
共分散を 0 に保つことを示す。共分散の区分けは、逆行列を含めて `Lib.BlockDiag` の規則で移る。
-/

namespace Ranger.Localization
open Ranger.Lib Matrix

noncomputable section

/-- 平面に属する成分。 -/
def planar : StateMember → Bool
  | .x | .y | .yaw | .vx | .vy | .vyaw | .ax | .ay => true
  | _ => false

/-! ## `forceTwoD` -/

def threeD : List StateMember := [.z, .roll, .pitch, .vz, .vroll, .vpitch, .az]

def forceTwoD (m : Measurement) : Measurement :=
  { m with
    measurement := fun i => if i ∈ threeD then some 0 else m.measurement i
    covariance := Matrix.of fun i j =>
      if i ∈ threeD ∨ j ∈ threeD then if i = j then 1e-6 else 0 else m.covariance i j
    updateVector := fun i => if i ∈ threeD then true else m.updateVector i }

theorem mem_threeD_iff (i : StateMember) : i ∈ threeD ↔ planar i = false := by
  cases i <;> decide

/-- 平面に属さない値が 0 で、平面の成分との共分散を持たない測定。 -/
structure Flat (m : Measurement) : Prop where
  measurement : ∀ i, planar i ≠ true → m.measurement i = some 0
  covariance : BlockDiag planar planar m.covariance

theorem forceTwoD_flat (m : Measurement) : Flat (forceTwoD m) where
  measurement := by
    intro i hi
    exact if_pos ((mem_threeD_iff i).mpr (Bool.eq_false_of_not_eq_true hi))
  covariance := by
    intro i j hij
    have hmem : i ∈ threeD ∨ j ∈ threeD := by
      rw [mem_threeD_iff, mem_threeD_iff]
      by_contra hboth
      simp only [not_or, Bool.not_eq_false] at hboth
      exact hij (hboth.1.trans hboth.2.symm)
    show (if i ∈ threeD ∨ j ∈ threeD then if i = j then (1e-6 : ℝ) else 0 else m.covariance i j) = 0
    rw [if_pos hmem, if_neg fun h => hij (congrArg planar h)]

namespace Ekf

/-- 平面に限られた推定。 -/
structure Planar (f : Ekf) : Prop where
  state : Supported planar true f.state
  covariance : BlockDiag planar planar f.estimateErrorCovariance
  noise : BlockDiag planar planar f.processNoiseCovariance
  control : f.control = none

theorem Planar.cos_pitch {f : Ekf} (hf : Planar f) : Real.cos (f.state .pitch) = 1 := by
  rw [hf.state .pitch Bool.false_ne_true, Real.cos_zero]

/-! ## 予測 -/

section Predict

variable {s : StateVector} {deltaSec : ℝ}

theorem transferFunction_blockDiag (hs : Supported planar true s) :
    BlockDiag planar planar (transferFunction s deltaSec) := by
  have hroll : s .roll = 0 := hs .roll Bool.false_ne_true
  have hpitch : s .pitch = 0 := hs .pitch Bool.false_ne_true
  apply BlockDiag.one.assign
  simp [transferEntries, planar, hroll, hpitch]

theorem transferFunctionJacobian_blockDiag (hs : Supported planar true s) :
    BlockDiag planar planar (transferFunctionJacobian s deltaSec) := by
  have hroll : s .roll = 0 := hs .roll Bool.false_ne_true
  have hpitch : s .pitch = 0 := hs .pitch Bool.false_ne_true
  have hvz : s .vz = 0 := hs .vz Bool.false_ne_true
  have hvpitch : s .vpitch = 0 := hs .vpitch Bool.false_ne_true
  have haz : s .az = 0 := hs .az Bool.false_ne_true
  apply (transferFunction_blockDiag hs).assign
  simp [jacobianEntries, planar, hroll, hpitch, hvz, hvpitch, haz]

theorem computeDynamicProcessNoiseCovariance_blockDiag {q : StateMatrix} (hq : BlockDiag planar planar q)
    (s : StateVector) : BlockDiag planar planar (computeDynamicProcessNoiseCovariance q s) := by
  intro i j hij
  simp [computeDynamicProcessNoiseCovariance, hq i j hij]

theorem Planar.noise_blockDiag {f : Ekf} (hf : Planar f) : BlockDiag planar planar (Ekf.noise f) := by
  unfold Ekf.noise
  split
  · exact computeDynamicProcessNoiseCovariance_blockDiag hf.noise _
  · exact hf.noise

theorem Planar.applyControl {f : Ekf} (hf : Planar f) (referenceTime : ℤ) (deltaSec : ℝ) :
    f.applyControl referenceTime deltaSec = f.state := by
  funext i
  cases i <;> simp [Ekf.applyControl, prepareControl, controlUpdate, hf.control]

end Predict

section Step

variable {normalizeAngle : ℝ → ℝ} {f g : Ekf} {m : Measurement}

theorem wrapStateAngles_supported (hzero : normalizeAngle 0 = 0) {s : StateVector}
    (hs : Supported planar true s) : Supported planar true (wrapStateAngles normalizeAngle s) := by
  intro i hi
  have hsi := hs i hi
  cases i <;> simp_all [wrapStateAngles]

theorem Planar.exists_predict (hf : Planar f) (referenceTime delta : ℤ) :
    ∃ g, Ekf.predict normalizeAngle f referenceTime delta = some g := by
  rw [Ekf.predict, if_neg (by rw [hf.cos_pitch]; exact one_ne_zero)]
  exact ⟨_, rfl⟩

theorem Planar.predict (hzero : normalizeAngle 0 = 0) (hf : Planar f) {referenceTime delta : ℤ}
    (h : Ekf.predict normalizeAngle f referenceTime delta = some g) : Planar g := by
  rw [Ekf.predict, if_neg (by rw [hf.cos_pitch]; exact one_ne_zero)] at h
  simp only [hf.applyControl] at h
  obtain rfl := Option.some.inj h
  have hjacobian : BlockDiag planar planar (transferFunctionJacobian f.state (toSec delta)) :=
    transferFunctionJacobian_blockDiag hf.state
  exact
    { state := wrapStateAngles_supported hzero ((transferFunction_blockDiag hf.state).mulVec hf.state)
      covariance :=
        ((hjacobian.mul hf.covariance).mul hjacobian.transpose).add (hf.noise_blockDiag.smul _)
      noise := hf.noise
      control := hf.control }

/-! ## 補正 -/

/-- 補正に使う成分の区分け。 -/
def planarIndex (m : Measurement) (i : UpdateIndex m) : Bool := planar i

theorem stateToMeasurementSubset_blockDiag (m : Measurement) :
    BlockDiag (planarIndex m) planar (stateToMeasurementSubset m) := by
  intro i j hij
  exact if_neg fun h => hij (congrArg planar h)

theorem measurementCovarianceSubset_blockDiag (hm : Flat m) :
    BlockDiag (planarIndex m) (planarIndex m) (measurementCovarianceSubset m) := by
  intro i j hij
  show (if i = j then stableVariance (m.covariance i i) else m.covariance i j) = 0
  rw [if_neg fun h => hij (congrArg (planarIndex m) h)]
  exact hm.covariance i j hij

theorem Planar.hphr (hf : Planar f) (hm : Flat m) :
    BlockDiag (planarIndex m) (planarIndex m) (Ekf.hphr f m) :=
  have hselect := stateToMeasurementSubset_blockDiag m
  (hselect.mul (hf.covariance.mul hselect.transpose)).add (measurementCovarianceSubset_blockDiag hm)

theorem Planar.kalmanGainSubset (hf : Planar f) (hm : Flat m) (hdet : (Ekf.hphr f m).det ≠ 0) :
    BlockDiag planar (planarIndex m) (Ekf.kalmanGainSubset f m) :=
  (hf.covariance.mul (stateToMeasurementSubset_blockDiag m).transpose).mul
    ((hf.hphr hm).inv hdet.isUnit)

theorem Planar.innovationSubset (hzero : normalizeAngle 0 = 0) (hf : Planar f) (hm : Flat m) :
    Supported (planarIndex m) true (Ekf.innovationSubset normalizeAngle f m) := by
  intro i hi
  have hstate : f.state i = 0 := hf.state i hi
  have hvalue : (m.measurement i).get i.2.2 = 0 := by simp [hm.measurement i hi]
  simp [Ekf.innovationSubset, hstate, hvalue, hzero]

theorem hphr_apply (f : Ekf) (m : Measurement) (i j : UpdateIndex m) :
    Ekf.hphr f m i j = f.estimateErrorCovariance i j + measurementCovarianceSubset m i j := by
  simp [Ekf.hphr, stateToMeasurementSubset, Matrix.mul_apply, Finset.sum_ite_eq]

theorem stableVariance_pos (v : ℝ) : 0 < stableVariance v := by
  rcases lt_or_ge (if v < 0 then |v| else v) 1e-9 with h | h
  · simp only [stableVariance, if_pos h]
    norm_num
  · simp only [stableVariance, if_neg h.not_gt]
    exact lt_of_lt_of_le (by norm_num) h

/-- 共分散が対角のとき、逆行列がある。 -/
theorem hphr_det_ne_zero {p r : StateMember → ℝ} (hp : ∀ i, 0 ≤ p i)
    (hstate : f.estimateErrorCovariance = Matrix.diagonal p) (hmeasured : m.covariance = Matrix.diagonal r) :
    (Ekf.hphr f m).det ≠ 0 := by
  have hdiagonal : Ekf.hphr f m = Matrix.diagonal fun i : UpdateIndex m => p i + stableVariance (r i) := by
    ext i j
    rw [hphr_apply, hstate]
    by_cases hij : i = j
    · subst hij
      simp [measurementCovarianceSubset, hmeasured]
    · have hne : (i : StateMember) ≠ j := fun h => hij (Subtype.ext h)
      simp [measurementCovarianceSubset, hmeasured, hij, hne]
  rw [hdiagonal, Matrix.det_diagonal]
  exact Finset.prod_ne_zero_iff.mpr fun i _ => (add_pos_of_nonneg_of_pos (hp i) (stableVariance_pos _)).ne'

theorem exists_correct (hdet : (Ekf.hphr f m).det ≠ 0) : ∃ g, Ekf.correct normalizeAngle f m = some g := by
  rw [Ekf.correct, if_neg hdet]
  dsimp only
  split
  · exact ⟨_, rfl⟩
  · exact ⟨_, rfl⟩

theorem Planar.correct (hzero : normalizeAngle 0 = 0) (hf : Planar f) (hm : Flat m)
    (h : Ekf.correct normalizeAngle f m = some g) : Planar g := by
  unfold Ekf.correct at h
  split at h
  · cases h
  · rename_i hdet
    have hgain := hf.kalmanGainSubset hm hdet
    have hresidual := BlockDiag.one.sub (hgain.mul (stateToMeasurementSubset_blockDiag m))
    dsimp only at h
    split at h
    · obtain rfl := Option.some.inj h
      exact
        { state := wrapStateAngles_supported hzero
            (hf.state.add (hgain.mulVec (hf.innovationSubset hzero hm)))
          covariance := ((hresidual.mul hf.covariance).mul hresidual.transpose).add
            ((hgain.mul (measurementCovarianceSubset_blockDiag hm)).mul hgain.transpose)
          noise := hf.noise
          control := hf.control }
    · obtain rfl := Option.some.inj h
      exact hf

/-! ## 測定の処理 -/

theorem Planar.setLastMeasurementTime (hf : Planar f) (time : ℤ) :
    Planar { f with lastMeasurementTime := time } where
  state := hf.state
  covariance := hf.covariance
  noise := hf.noise
  control := hf.control

theorem Planar.firstMeasurement (hf : Planar f) (hm : Flat m) (h : Ekf.firstMeasurement f m = some g) :
    Planar g := by
  unfold Ekf.firstMeasurement at h
  split at h
  · obtain rfl := Option.some.inj h
    exact
      { state := by
          intro i hi
          show (if m.updateVector i then (m.measurement i).getD 0 else f.state i) = 0
          rw [hm.measurement i hi, hf.state i hi, Option.getD_some, ite_self]
        covariance := by
          intro i j hij
          show (if m.updateVector i && m.updateVector j then m.covariance i j
            else f.estimateErrorCovariance i j) = 0
          rw [hm.covariance i j hij, hf.covariance i j hij, ite_self]
        noise := hf.noise
        control := hf.control }
  · cases h

theorem Planar.processMeasurement (hzero : normalizeAngle 0 = 0) (hf : Planar f) (hm : Flat m)
    (h : Ekf.processMeasurement normalizeAngle f m = some g) : Planar g := by
  unfold Ekf.processMeasurement at h
  split at h
  · obtain ⟨f₁, hpredict, hcorrect⟩ := Option.bind_eq_some_iff.mp h
    obtain ⟨f₂, hf₂, rfl⟩ := Option.map_eq_some_iff.mp hcorrect
    have hpredicted : Planar f₁ := by
      split at hpredict
      · exact hf.predict hzero hpredict
      · obtain rfl := Option.some.inj hpredict
        exact hf
    have hcorrected := hpredicted.correct hzero hm hf₂
    split
    · exact hcorrected.setLastMeasurementTime _
    · exact hcorrected
  · obtain ⟨f₁, hf₁, rfl⟩ := Option.map_eq_some_iff.mp h
    exact (hf.firstMeasurement hm hf₁).setLastMeasurementTime _

end Step

/-! ## 推定の並び -/

/-- `two_d_mode` の `RosFilter` が推定に対して行う操作。測定は `forceTwoD` を通る前のものを書く。 -/
inductive Event where
  | predict (referenceTime delta : ℤ)
  | correct (m : Measurement)
  | processMeasurement (m : Measurement)
  | setControl (control : ControlMember → ℝ) (controlTime : ℤ)

def step (normalizeAngle : ℝ → ℝ) (f : Ekf) : Event → Option Ekf
  | .predict referenceTime delta => predict normalizeAngle f referenceTime delta
  | .correct m => correct normalizeAngle f (forceTwoD m)
  | .processMeasurement m => processMeasurement normalizeAngle f (forceTwoD m)
  | .setControl control controlTime => some (f.setControl control controlTime)

theorem Planar.step {normalizeAngle : ℝ → ℝ} (hzero : normalizeAngle 0 = 0) {f g : Ekf} {e : Event}
    (hf : Planar f) (h : Ekf.step normalizeAngle f e = some g) : Planar g := by
  cases e with
  | predict referenceTime delta => exact hf.predict hzero h
  | correct m => exact hf.correct hzero (forceTwoD_flat m) h
  | processMeasurement m => exact hf.processMeasurement hzero (forceTwoD_flat m) h
  | setControl control controlTime =>
      obtain rfl := Option.some.inj h
      exact ⟨hf.state, hf.covariance, hf.noise, hf.control⟩

/-- `reset` の後に、設定の共分散を入れた推定。 -/
def start (f : Ekf) (initialEstimateCovariance processNoiseCovariance : StateMatrix) : Ekf :=
  (f.reset.setProcessNoiseCovariance processNoiseCovariance).setEstimateErrorCovariance initialEstimateCovariance

theorem planar_start {f : Ekf} (hcontrol : f.control = none) {P Q : StateMatrix}
    (hP : BlockDiag planar planar P) (hQ : BlockDiag planar planar Q) : Planar (start f P Q) where
  state := fun _ _ => rfl
  covariance := hP
  noise := hQ
  control := hcontrol

theorem twoD_stays_planar {normalizeAngle : ℝ → ℝ} (hzero : normalizeAngle 0 = 0) {f g : Ekf}
    (hcontrol : f.control = none) {P Q : StateMatrix} (hP : ∀ i j, planar i ≠ planar j → P i j = 0)
    (hQ : ∀ i j, planar i ≠ planar j → Q i j = 0) {es : List Event}
    (hrun : runs (step normalizeAngle) (start f P Q) es = some g) :
    (∀ i, planar i = false → g.state i = 0) ∧
      (∀ i j, planar i ≠ planar j → g.estimateErrorCovariance i j = 0) ∧ Real.cos (g.state .pitch) = 1 := by
  have hpreserved : ∀ s e t, Planar s → step normalizeAngle s e = some t → True → Planar t :=
    fun _ _ _ hs hstep _ => hs.step hzero hstep
  have hplanar : Planar g :=
    runs_inv hpreserved (planar_start hcontrol hP hQ) (Always.of_step fun _ _ _ _ => trivial) hrun
  refine ⟨fun i hi => hplanar.state i ?_, hplanar.covariance, hplanar.cos_pitch⟩
  rw [hi]
  exact Bool.false_ne_true

/-- 前後の速度だけを知らせる測定。 -/
def forwardSpeed : Measurement where
  time := 0
  mahalanobisThresh := 5.0
  updateVector := fun i => i == .vx
  measurement := fun i => if i = .vx then some 1 else none
  covariance := Matrix.diagonal fun _ => 1e-6

def stopped : Ekf where
  initialized := true
  useDynamicProcessNoiseCovariance := true
  control := none
  latestControl := fun _ => 0
  latestControlTime := 0
  lastMeasurementTime := 0
  state := 0
  estimateErrorCovariance := 1
  processNoiseCovariance := 1

-- 速度の測定で補正した後、20 ミリ秒だけ予測する。
theorem twoD_stays_planar_forward :
    ∃ g, runs (step (toIocMod Real.two_pi_pos (-Real.pi))) (start stopped 1 1)
        [.correct forwardSpeed, .predict 0 20000000] = some g ∧
      (∀ i, planar i = false → g.state i = 0) ∧
        (∀ i j, planar i ≠ planar j → g.estimateErrorCovariance i j = 0) ∧ Real.cos (g.state .pitch) = 1 := by
  have hzero : toIocMod Real.two_pi_pos (-Real.pi) 0 = 0 := by
    rw [toIocMod_eq_self]
    constructor <;> linarith [Real.pi_pos]
  have hblock : BlockDiag planar planar (1 : StateMatrix) := BlockDiag.one
  have hplanar : Planar (start stopped 1 1) := planar_start rfl hblock hblock
  have hcovariance : (forceTwoD forwardSpeed).covariance = Matrix.diagonal fun _ => 1e-6 := by
    ext i j
    by_cases hij : i = j <;> simp [forceTwoD, forwardSpeed, hij]
  have hdet := hphr_det_ne_zero (f := start stopped 1 1) (fun _ => zero_le_one) Matrix.diagonal_one.symm hcovariance
  obtain ⟨f₁, hcorrect⟩ : ∃ f₁, step (toIocMod Real.two_pi_pos (-Real.pi)) (start stopped 1 1)
      (.correct forwardSpeed) = some f₁ := exists_correct hdet
  obtain ⟨g, hpredict⟩ : ∃ g, step (toIocMod Real.two_pi_pos (-Real.pi)) f₁ (.predict 0 20000000) = some g :=
    (hplanar.step hzero hcorrect).exists_predict 0 20000000
  have hrun : runs (step (toIocMod Real.two_pi_pos (-Real.pi))) (start stopped 1 1)
      [.correct forwardSpeed, .predict 0 20000000] = some g := by
    rw [runs_cons hcorrect, runs_cons hpredict, runs_nil]
  exact ⟨g, hrun, twoD_stays_planar hzero rfl hblock hblock hrun⟩

end Ekf

end

end Ranger.Localization
