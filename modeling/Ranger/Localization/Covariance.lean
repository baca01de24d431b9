import Mathlib.Algebra.Order.Star.Real
import Ranger.Lib.Joseph
import Ranger.Localization.Kept
import Ranger.Localization.TwoD

/-!
# 推定の共分散

予測と補正が共分散の半正定値性を保ち、補正の利得が共分散を最も小さくする。`RosFilter` の実行では、巻き戻しのために履歴に残した推定の
共分散も半正定値である。
-/

namespace Ranger.Localization
open Ranger.Lib Matrix

noncomputable section

namespace Ekf

variable {normalizeAngle : ℝ → ℝ} {f g : Ekf} {m : Measurement}

/-! ## 予測 -/

/-- 雑音は半正定値である。速さに応じて変えるとき、姿勢の成分と、ほかのどの成分（速度と加速度）との間にも共分散を持たない。 -/
structure Noisy (f : Ekf) : Prop where
  posSemidef : f.processNoiseCovariance.PosSemidef
  apart : f.useDynamicProcessNoiseCovariance = true →
    ∀ i j, isPose i ≠ isPose j → f.processNoiseCovariance i j = 0

theorem computeDynamicProcessNoiseCovariance_posSemidef {q : StateMatrix} (hq : q.PosSemidef)
    (hapart : ∀ i j, isPose i ≠ isPose j → q i j = 0) (s : StateVector) :
    (computeDynamicProcessNoiseCovariance q s).PosSemidef := by
  have hscaled : computeDynamicProcessNoiseCovariance q s =
      diagonal (fun i => if isPose i then twistNorm s else 1) * q *
        (diagonal fun i => if isPose i then twistNorm s else 1)ᵀ := by
    ext i j
    rw [diagonal_transpose, mul_diagonal, diagonal_mul, computeDynamicProcessNoiseCovariance, of_apply]
    cases hi : isPose i <;> cases hj : isPose j
    · simp
    · simp [hapart i j (by simp [hi, hj])]
    · simp [hapart i j (by simp [hi, hj])]
    · simp
  rw [hscaled]
  exact congruence_posSemidef hq _

theorem Noisy.noise (hf : Noisy f) : f.noise.PosSemidef := by
  unfold Ekf.noise
  split_ifs with hdynamic
  · exact computeDynamicProcessNoiseCovariance_posSemidef hf.posSemidef (hf.apart hdynamic) _
  · exact hf.posSemidef

theorem Noisy.predict (hf : Noisy f) (hP : f.estimateErrorCovariance.PosSemidef) {referenceTime delta : ℤ}
    (hdelta : 0 ≤ delta) (h : Ekf.predict normalizeAngle f referenceTime delta = some g) :
    g.estimateErrorCovariance.PosSemidef := by
  unfold Ekf.predict at h
  split_ifs at h
  cases h
  refine (congruence_posSemidef hP _).add (hf.noise.smul ?_)
  exact div_nonneg (Int.cast_nonneg hdelta) (by norm_num)

/-! ## 補正 -/

theorem le_stableVariance {v : ℝ} (hv : 0 ≤ v) : v ≤ stableVariance v := by
  simp only [stableVariance, if_neg hv.not_gt]
  split_ifs with h
  · exact h.le
  · exact le_refl v

theorem measurementCovarianceSubset_posSemidef (hm : m.covariance.PosSemidef) :
    (measurementCovarianceSubset m).PosSemidef := by
  have hsplit : measurementCovarianceSubset m = m.covariance.submatrix Subtype.val Subtype.val +
      diagonal fun i : UpdateIndex m => stableVariance (m.covariance i i) - m.covariance i i := by
    ext i j
    by_cases hij : i = j
    · subst hij
      simp [measurementCovarianceSubset]
    · simp [measurementCovarianceSubset, hij]
  rw [hsplit]
  exact (hm.submatrix _).add (PosSemidef.diagonal fun i => sub_nonneg.mpr (le_stableVariance hm.diag_nonneg))

theorem correct_cases (h : Ekf.correct normalizeAngle f m = some g) :
    (hphr f m).det ≠ 0 ∧ (g = f ∨ g.estimateErrorCovariance =
      joseph f.estimateErrorCovariance (stateToMeasurementSubset m) (measurementCovarianceSubset m)
        (kalmanGainSubset f m)) := by
  unfold Ekf.correct at h
  split_ifs at h with hdet
  refine ⟨hdet, ?_⟩
  dsimp only at h
  split_ifs at h
  · cases h
    exact Or.inr rfl
  · cases h
    exact Or.inl rfl

theorem correct_posSemidef (hP : f.estimateErrorCovariance.PosSemidef) (hm : m.covariance.PosSemidef)
    (h : Ekf.correct normalizeAngle f m = some g) : g.estimateErrorCovariance.PosSemidef := by
  rcases (correct_cases h).2 with rfl | heq
  · exact hP
  · rw [heq]
    exact joseph_posSemidef hP (measurementCovarianceSubset_posSemidef hm) _

/-- 補正は共分散を大きくしない。測定を使ったとき、どの利得で補正した共分散も、補正の結果より小さくはならない。 -/
theorem correct_least (hP : f.estimateErrorCovariance.PosSemidef) (hm : m.covariance.PosSemidef)
    (h : Ekf.correct normalizeAngle f m = some g) :
    (f.estimateErrorCovariance - g.estimateErrorCovariance).PosSemidef ∧
      (g = f ∨ ∀ gain, (joseph f.estimateErrorCovariance (stateToMeasurementSubset m) (measurementCovarianceSubset m) gain -
        g.estimateErrorCovariance).PosSemidef) := by
  obtain ⟨hdet, rfl | heq⟩ := correct_cases h
  · rw [sub_self]
    exact ⟨PosSemidef.zero, Or.inl rfl⟩
  · have hleast := kalmanGain_least hP (measurementCovarianceSubset_posSemidef hm) hdet
    rw [heq]
    refine ⟨?_, Or.inr hleast⟩
    have hnone := hleast 0
    rwa [joseph_zero] at hnone

theorem forwardSpeed_posSemidef : forwardSpeed.covariance.PosSemidef :=
  PosSemidef.diagonal fun _ => by
    show (0 : ℝ) ≤ 1e-6
    norm_num

-- 静止した推定を、前後の速度の測定で補正する。
theorem correct_least_forward :
    ∃ g, Ekf.correct (toIocMod Real.two_pi_pos (-Real.pi)) stopped forwardSpeed = some g ∧
      (stopped.estimateErrorCovariance - g.estimateErrorCovariance).PosSemidef ∧
        (g = stopped ∨ ∀ gain, (joseph stopped.estimateErrorCovariance (stateToMeasurementSubset forwardSpeed)
          (measurementCovarianceSubset forwardSpeed) gain - g.estimateErrorCovariance).PosSemidef) := by
  have hdet := hphr_det_ne_zero (f := stopped) (m := forwardSpeed) (fun _ => zero_le_one) Matrix.diagonal_one.symm rfl
  obtain ⟨g, hcorrect⟩ : ∃ g, Ekf.correct (toIocMod Real.two_pi_pos (-Real.pi)) stopped forwardSpeed = some g :=
    exists_correct hdet
  exact ⟨g, hcorrect, correct_least PosSemidef.one forwardSpeed_posSemidef hcorrect⟩

/-! ## 初めての測定 -/

theorem firstMeasurement_posSemidef {p : StateMember → ℝ} (hp : 0 ≤ p) (hP : f.estimateErrorCovariance = diagonal p)
    (hm : m.covariance.PosSemidef) (h : Ekf.firstMeasurement f m = some g) :
    g.estimateErrorCovariance.PosSemidef := by
  unfold Ekf.firstMeasurement at h
  split_ifs at h
  cases h
  have hparts : (Matrix.of fun i j => if m.updateVector i && m.updateVector j then m.covariance i j
      else f.estimateErrorCovariance i j) =
        diagonal (fun i => if m.updateVector i then 1 else 0) * m.covariance *
          (diagonal fun i => if m.updateVector i then 1 else 0)ᵀ + diagonal fun i => if m.updateVector i then 0 else p i := by
    ext i j
    rw [Matrix.add_apply, diagonal_transpose, mul_diagonal, diagonal_mul, hP, of_apply]
    by_cases hij : i = j
    · subst hij
      cases hi : m.updateVector i <;> simp [hi]
    · cases hi : m.updateVector i <;> cases hj : m.updateVector j <;> simp_all
  rw [hparts]
  refine (congruence_posSemidef hm _).add (PosSemidef.diagonal fun i => ?_)
  dsimp only
  split_ifs
  · exact le_refl 0
  · exact hp i

/-! ## `RosFilter` の推定 -/

/-- 状態と共分散。値の定まらない計算の後は `none` である。 -/
abbrev Estimate : Type := Option (StateVector × StateMatrix)

def load (f : Ekf) (e : StateVector × StateMatrix) : Ekf := { f with state := e.1, estimateErrorCovariance := e.2 }

def save (f : Ekf) : StateVector × StateMatrix := (f.state, f.estimateErrorCovariance)

def loadControl (f : Ekf) : Option ((ControlMember → ℝ) × ℤ) → Ekf
  | none => { f with control := none }
  | some (control, controlTime) => f.setControl control controlTime

/-- 設定が `f` の推定の方式。 -/
def estimator (normalizeAngle : ℝ → ℝ) (f : Ekf) : Lagged.Estimator Estimate Measurement (ControlMember → ℝ) where
  predict e control referenceTime delta :=
    e.bind fun e => (((f.load e).loadControl control).predict normalizeAngle referenceTime delta).map save
  correct e m := e.bind fun e => ((f.load e).correct normalizeAngle m.value).map save
  firstMeasurement e m := e.bind fun e => ((f.load e).firstMeasurement m.value).map save

/-- 値が定まっていれば、共分散は半正定値である。 -/
def Definite (e : Estimate) : Prop := ∀ x ∈ e, x.2.PosSemidef

theorem Noisy.loadControl (hf : Noisy f) (e : StateVector × StateMatrix) (control : Option ((ControlMember → ℝ) × ℤ)) :
    Noisy ((f.load e).loadControl control) ∧ ((f.load e).loadControl control).estimateErrorCovariance = e.2 := by
  cases control with
  | none => exact ⟨⟨hf.posSemidef, hf.apart⟩, rfl⟩
  | some control => exact ⟨⟨hf.posSemidef, hf.apart⟩, rfl⟩

theorem estimator_keeps (hf : Noisy f) (x : StateVector) {p : StateMember → ℝ} (hp : 0 ≤ p) :
    Lagged.Keeps (estimator normalizeAngle f) (fun v => v.covariance.PosSemidef) (some (x, diagonal p)) Definite where
  first := by
    intro m hm e he
    obtain ⟨g, hg, rfl⟩ := Option.map_eq_some_iff.mp he
    exact firstMeasurement_posSemidef hp rfl hm hg
  correct := by
    intro e m he hm e' he'
    obtain ⟨e₀, rfl, he'⟩ := Option.bind_eq_some_iff.mp he'
    obtain ⟨g, hg, rfl⟩ := Option.map_eq_some_iff.mp he'
    exact correct_posSemidef (f := f.load e₀) (he e₀ rfl) hm hg
  predict := by
    intro e control referenceTime delta hdelta he e' he'
    obtain ⟨e₀, rfl, he'⟩ := Option.bind_eq_some_iff.mp he'
    obtain ⟨g, hg, rfl⟩ := Option.map_eq_some_iff.mp he'
    obtain ⟨hnoisy, hP⟩ := hf.loadControl e₀ control
    exact hnoisy.predict (by rw [hP]; exact he e₀ rfl) hdelta hg

variable {Q : PriorityQueue (Lagged.Measurement Measurement (ControlMember → ℝ)) Lagged.Measurement.time}

/-- 対角の共分散から始め、時計が戻らず、届く測定の共分散が半正定値なら、推定の共分散は、履歴のものも含めて半正定値であり続ける。 -/
theorem rosFilter_posSemidef (hf : Noisy f) (x : StateVector) {p : StateMember → ℝ} (hp : ∀ i, 0 ≤ p i)
    (smoothLaggedData predictToCurrentTime useControl : Bool) (sensorTimeout : ℤ) (control : ControlMember → ℝ)
    {es : List (Lagged.RosFilter.Event Measurement (ControlMember → ℝ))}
    {s : Lagged.RosFilter Estimate (ControlMember → ℝ) Q}
    (hrun : runs (Lagged.RosFilter.step (estimator normalizeAngle f))
      (Lagged.RosFilter.start smoothLaggedData predictToCurrentTime useControl sensorTimeout (some (x, diagonal p)) control)
        es = some s)
    (hclock : (es.filterMap Lagged.RosFilter.clock).Pairwise (· ≤ ·))
    (harrival : ∀ v ∈ es.filterMap Lagged.RosFilter.arrival, v.covariance.PosSemidef) :
    (∀ e ∈ s.filter.estimate, e.2.PosSemidef) ∧
      ∀ h ∈ s.filterStateHistory, ∀ e ∈ h.estimate, e.2.PosSemidef := by
  obtain ⟨hnow, hhistory⟩ := Lagged.RosFilter.start_kept (estimator_keeps hf x hp) smoothLaggedData predictToCurrentTime
    useControl sensorTimeout control hrun hclock harrival
  refine ⟨?_, hhistory⟩
  rcases hnow with hinitial | hgood
  · intro e he
    rw [hinitial] at he
    cases he
    exact PosSemidef.diagonal hp
  · exact hgood

theorem noisy_stopped : Noisy stopped := by
  refine ⟨PosSemidef.one, fun _ i j hij => ?_⟩
  exact Matrix.one_apply_ne fun heq => hij (congrArg isPose heq)

-- 初めての測定の後の推定。
theorem rosFilter_posSemidef_forward :
    ∃ (s : Lagged.RosFilter Estimate (ControlMember → ℝ) (PriorityQueue.sorted Lagged.Measurement.time))
      (e : StateVector × StateMatrix),
      runs (Lagged.RosFilter.step (estimator (toIocMod Real.two_pi_pos (-Real.pi)) stopped))
        (Lagged.RosFilter.start true false false 100 (some (0, diagonal fun _ => 1)) 0)
          [.enqueueMeasurement forwardSpeed 10, .integrateMeasurements 15] = some s ∧
        s.filter.estimate = some e ∧ e.2.PosSemidef := by
  have hfirst : ∃ g, (stopped.load (0, diagonal fun _ => 1)).firstMeasurement forwardSpeed = some g := by
    refine ⟨_, if_pos fun i hi => ?_⟩
    cases i <;> simp_all [forwardSpeed]
  obtain ⟨g, hg⟩ := hfirst
  have hrun : runs (Lagged.RosFilter.step (estimator (toIocMod Real.two_pi_pos (-Real.pi)) stopped))
      (Lagged.RosFilter.start (Q := PriorityQueue.sorted Lagged.Measurement.time) true false false 100
        (some (0, diagonal fun _ => 1)) 0) [.enqueueMeasurement forwardSpeed 10, .integrateMeasurements 15] =
      some _ := rfl
  have hestimate := congrArg (Option.map save) hg
  refine ⟨_, save g, hrun, hestimate, ?_⟩
  refine (rosFilter_posSemidef noisy_stopped 0 (fun _ => zero_le_one) true false false 100 0 hrun
    (List.pairwise_singleton _ _) fun v hv => ?_).1 _ hestimate
  rw [List.mem_singleton.mp hv]
  exact forwardSpeed_posSemidef

end Ekf

end

end Ranger.Localization
