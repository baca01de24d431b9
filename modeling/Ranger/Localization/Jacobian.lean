import Mathlib
import Ranger.Localization.Ekf

/-!
# 予測のヤコビ行列

`predict` の `transfer_function_jacobian_` が、推定値の更新 `x ↦ transfer_function_(x) * x` の偏微分であることを示す。推定値の動く道に沿った微分を、行ごとに求める。
-/

namespace Ranger.Localization.Ekf
open Ranger.Lib Matrix

/-- `predict` の (2) の、角度を丸める前の更新。 -/
noncomputable def stateUpdate (deltaSec : ℝ) (s : StateVector) : StateVector := transferFunction s deltaSec *ᵥ s

variable {γ : ℝ → StateVector} {v s : StateVector} {t deltaSec : ℝ}

theorem stateUpdate_apply (i : StateMember) : stateUpdate deltaSec s i = ∑ k, transferFunction s deltaSec i k * s k := rfl

/-- 代入は、どれも違う成分に一度ずつ、対角の外に行われる。 -/
theorem transferEntries_keys (s : StateVector) (deltaSec : ℝ) :
    ((transferEntries s deltaSec).map fun e => (e.1, e.2.1)).Nodup ∧
      ∀ key ∈ (transferEntries s deltaSec).map fun e => (e.1, e.2.1), key.1 ≠ key.2 := by
  have hkeys : ((transferEntries s deltaSec).map fun e => (e.1, e.2.1)) =
      (transferEntries 0 0).map fun e => (e.1, e.2.1) := rfl
  rw [hkeys]
  decide +kernel

theorem jacobianEntries_keys (s : StateVector) (deltaSec : ℝ) :
    ((jacobianEntries s deltaSec).map fun e => (e.1, e.2.1)).Nodup ∧
      ∀ key ∈ (jacobianEntries s deltaSec).map fun e => (e.1, e.2.1),
        key ∉ (transferEntries s deltaSec).map fun e => (e.1, e.2.1) := by
  have hkeys : ((transferEntries s deltaSec).map fun e => (e.1, e.2.1)) =
      (transferEntries 0 0).map fun e => (e.1, e.2.1) := rfl
  have hkeys' : ((jacobianEntries s deltaSec).map fun e => (e.1, e.2.1)) =
      (jacobianEntries 0 0).map fun e => (e.1, e.2.1) := rfl
  rw [hkeys, hkeys']
  decide +kernel

theorem transferFunction_mulVec (s v : StateVector) (deltaSec : ℝ) (i : StateMember) :
    (transferFunction s deltaSec *ᵥ v) i =
      v i + (((transferEntries s deltaSec).filter fun e => e.1 = i).map fun e => e.2.2 * v e.2.1).sum := by
  obtain ⟨hnodup, hdiag⟩ := transferEntries_keys s deltaSec
  rw [transferFunction, assign_mulVec 1 hnodup, one_mulVec]
  congr 2
  apply List.map_congr_left
  intro e he
  obtain ⟨hmem, hrow⟩ := List.mem_filter.mp he
  have hne := hdiag (e.1, e.2.1) (List.mem_map_of_mem hmem)
  rw [of_decide_eq_true hrow] at hne
  rw [Matrix.one_apply_ne hne, sub_zero]

theorem transferFunctionJacobian_mulVec (s v : StateVector) (deltaSec : ℝ) (i : StateMember) :
    (transferFunctionJacobian s deltaSec *ᵥ v) i = (transferFunction s deltaSec *ᵥ v) i +
      (((jacobianEntries s deltaSec).filter fun e => e.1 = i).map fun e =>
        (e.2.2 - (1 : StateMatrix) i e.2.1) * v e.2.1).sum := by
  obtain ⟨hnodup, hnot⟩ := jacobianEntries_keys s deltaSec
  rw [transferFunctionJacobian, assign_mulVec _ hnodup]
  congr 2
  apply List.map_congr_left
  intro e he
  obtain ⟨hmem, hrow⟩ := List.mem_filter.mp he
  have hkey := hnot (e.1, e.2.1) (List.mem_map_of_mem hmem)
  rw [of_decide_eq_true hrow] at hkey
  rw [transferFunction, assign_of_notMem 1 hkey]

/-! ## 更新の式 -/

/-- 位置の成分の更新。`a`、`b`、`c` は、速度と加速度の三つの成分の係数である。 -/
noncomputable def advance (deltaSec p a b c : ℝ) (s : StateVector) : ℝ :=
  p + (a * s .vx + b * s .vy + c * s .vz) * deltaSec + (a * s .ax + b * s .ay + c * s .az) * (0.5 * deltaSec * deltaSec)

section Rows

open Real

theorem stateUpdate_x : stateUpdate deltaSec s .x = advance deltaSec (s .x) (cos (s .yaw) * cos (s .pitch))
    (cos (s .yaw) * sin (s .pitch) * sin (s .roll) - sin (s .yaw) * cos (s .roll))
    (cos (s .yaw) * sin (s .pitch) * cos (s .roll) + sin (s .yaw) * sin (s .roll)) s := by
  rw [stateUpdate, transferFunction_mulVec]
  simp [transferEntries, advance]
  ring

theorem stateUpdate_y : stateUpdate deltaSec s .y = advance deltaSec (s .y) (sin (s .yaw) * cos (s .pitch))
    (sin (s .yaw) * sin (s .pitch) * sin (s .roll) + cos (s .yaw) * cos (s .roll))
    (sin (s .yaw) * sin (s .pitch) * cos (s .roll) - cos (s .yaw) * sin (s .roll)) s := by
  rw [stateUpdate, transferFunction_mulVec]
  simp [transferEntries, advance]
  ring

theorem stateUpdate_z : stateUpdate deltaSec s .z = advance deltaSec (s .z) (-sin (s .pitch))
    (cos (s .pitch) * sin (s .roll)) (cos (s .pitch) * cos (s .roll)) s := by
  rw [stateUpdate, transferFunction_mulVec]
  simp [transferEntries, advance]
  ring

theorem stateUpdate_roll : stateUpdate deltaSec s .roll = s .roll + (s .vroll +
    sin (s .roll) * (sin (s .pitch) * (1 / cos (s .pitch))) * s .vpitch +
    cos (s .roll) * (sin (s .pitch) * (1 / cos (s .pitch))) * s .vyaw) * deltaSec := by
  rw [stateUpdate, transferFunction_mulVec]
  simp [transferEntries]
  ring

theorem stateUpdate_pitch : stateUpdate deltaSec s .pitch =
    s .pitch + (cos (s .roll) * s .vpitch - sin (s .roll) * s .vyaw) * deltaSec := by
  rw [stateUpdate, transferFunction_mulVec]
  simp [transferEntries]
  ring

theorem stateUpdate_yaw : stateUpdate deltaSec s .yaw = s .yaw + (sin (s .roll) * (1 / cos (s .pitch)) * s .vpitch +
    cos (s .roll) * (1 / cos (s .pitch)) * s .vyaw) * deltaSec := by
  rw [stateUpdate, transferFunction_mulVec]
  simp [transferEntries]
  ring

end Rows

/-! ## 道に沿った微分 -/

theorem hasDerivAt_advance (deltaSec : ℝ) {p a b c : ℝ → ℝ} {p' a' b' c' : ℝ} (hγ : ∀ k, HasDerivAt (fun u => γ u k) (v k) t)
    (hp : HasDerivAt p p' t) (ha : HasDerivAt a a' t) (hb : HasDerivAt b b' t) (hc : HasDerivAt c c' t) :
    HasDerivAt (fun u => advance deltaSec (p u) (a u) (b u) (c u) (γ u))
      (advance deltaSec p' a' b' c' (γ t) + advance deltaSec 0 (a t) (b t) (c t) v) t := by
  have hvel := ((ha.mul (hγ .vx)).add (hb.mul (hγ .vy))).add (hc.mul (hγ .vz))
  have hacc := ((ha.mul (hγ .ax)).add (hb.mul (hγ .ay))).add (hc.mul (hγ .az))
  refine ((hp.add (hvel.mul_const deltaSec)).add (hacc.mul_const (0.5 * deltaSec * deltaSec))).congr_deriv ?_
  unfold advance
  ring

/-- 角度の三角関数の、道に沿った微分。 -/
structure TrigPath (γ : ℝ → StateVector) (v : StateVector) (t : ℝ) : Prop where
  sr : HasDerivAt (fun u => Real.sin (γ u .roll)) (Real.cos (γ t .roll) * v .roll) t
  cr : HasDerivAt (fun u => Real.cos (γ u .roll)) (-Real.sin (γ t .roll) * v .roll) t
  sp : HasDerivAt (fun u => Real.sin (γ u .pitch)) (Real.cos (γ t .pitch) * v .pitch) t
  cp : HasDerivAt (fun u => Real.cos (γ u .pitch)) (-Real.sin (γ t .pitch) * v .pitch) t
  sy : HasDerivAt (fun u => Real.sin (γ u .yaw)) (Real.cos (γ t .yaw) * v .yaw) t
  cy : HasDerivAt (fun u => Real.cos (γ u .yaw)) (-Real.sin (γ t .yaw) * v .yaw) t

theorem trigPath (hγ : ∀ k, HasDerivAt (fun u => γ u k) (v k) t) : TrigPath γ v t where
  sr := (hγ .roll).sin
  cr := (hγ .roll).cos
  sp := (hγ .pitch).sin
  cp := (hγ .pitch).cos
  sy := (hγ .yaw).sin
  cy := (hγ .yaw).cos

theorem TrigPath.cpi (h : TrigPath γ v t) (hcos : Real.cos (γ t .pitch) ≠ 0) :
    HasDerivAt (fun u => 1 / Real.cos (γ u .pitch))
      (Real.sin (γ t .pitch) * (1 / Real.cos (γ t .pitch)) * (1 / Real.cos (γ t .pitch)) * v .pitch) t := by
  have hinv := h.cp.inv hcos
  simp only [← one_div] at hinv
  refine hinv.congr_deriv ?_
  field_simp

theorem TrigPath.tp (h : TrigPath γ v t) (hcos : Real.cos (γ t .pitch) ≠ 0) :
    HasDerivAt (fun u => Real.sin (γ u .pitch) * (1 / Real.cos (γ u .pitch)))
      (1 / Real.cos (γ t .pitch) * (1 / Real.cos (γ t .pitch)) * v .pitch) t := by
  refine (h.sp.mul (h.cpi hcos)).congr_deriv ?_
  have hone := Real.sin_sq_add_cos_sq (γ t .pitch)
  field_simp
  linear_combination v .pitch * hone

section Position

variable (hγ : ∀ k, HasDerivAt (fun u => γ u k) (v k) t)
include hγ

theorem hasDerivAt_x : HasDerivAt (fun u => stateUpdate deltaSec (γ u) .x)
    ((transferFunctionJacobian (γ t) deltaSec *ᵥ v) .x) t := by
  have h := trigPath hγ
  have hrow := hasDerivAt_advance deltaSec hγ (hγ .x) (h.cy.mul h.cp) (((h.cy.mul h.sp).mul h.sr).sub (h.sy.mul h.cr))
    (((h.cy.mul h.sp).mul h.cr).add (h.sy.mul h.sr))
  simp only [stateUpdate_x]
  refine hrow.congr_deriv ?_
  rw [transferFunctionJacobian_mulVec, transferFunction_mulVec]
  simp [jacobianEntries, transferEntries, advance]
  ring

theorem hasDerivAt_y : HasDerivAt (fun u => stateUpdate deltaSec (γ u) .y)
    ((transferFunctionJacobian (γ t) deltaSec *ᵥ v) .y) t := by
  have h := trigPath hγ
  have hrow := hasDerivAt_advance deltaSec hγ (hγ .y) (h.sy.mul h.cp) (((h.sy.mul h.sp).mul h.sr).add (h.cy.mul h.cr))
    (((h.sy.mul h.sp).mul h.cr).sub (h.cy.mul h.sr))
  simp only [stateUpdate_y]
  refine hrow.congr_deriv ?_
  rw [transferFunctionJacobian_mulVec, transferFunction_mulVec]
  simp [jacobianEntries, transferEntries, advance]
  ring

theorem hasDerivAt_z : HasDerivAt (fun u => stateUpdate deltaSec (γ u) .z)
    ((transferFunctionJacobian (γ t) deltaSec *ᵥ v) .z) t := by
  have h := trigPath hγ
  have hrow := hasDerivAt_advance deltaSec hγ (hγ .z) h.sp.neg (h.cp.mul h.sr) (h.cp.mul h.cr)
  simp only [stateUpdate_z]
  refine hrow.congr_deriv ?_
  rw [transferFunctionJacobian_mulVec, transferFunction_mulVec]
  simp [jacobianEntries, transferEntries, advance]
  ring

end Position

section Attitude

variable (hγ : ∀ k, HasDerivAt (fun u => γ u k) (v k) t)
include hγ

theorem hasDerivAt_roll (hcos : Real.cos (γ t .pitch) ≠ 0) : HasDerivAt (fun u => stateUpdate deltaSec (γ u) .roll)
    ((transferFunctionJacobian (γ t) deltaSec *ᵥ v) .roll) t := by
  have h := trigPath hγ
  have hrow := (hγ .roll).add ((((hγ .vroll).add ((h.sr.mul (h.tp hcos)).mul (hγ .vpitch))).add
    ((h.cr.mul (h.tp hcos)).mul (hγ .vyaw))).mul_const deltaSec)
  simp only [stateUpdate_roll]
  refine hrow.congr_deriv ?_
  rw [transferFunctionJacobian_mulVec, transferFunction_mulVec]
  simp [jacobianEntries, transferEntries]
  ring

theorem hasDerivAt_pitch : HasDerivAt (fun u => stateUpdate deltaSec (γ u) .pitch)
    ((transferFunctionJacobian (γ t) deltaSec *ᵥ v) .pitch) t := by
  have h := trigPath hγ
  have hrow := (hγ .pitch).add (((h.cr.mul (hγ .vpitch)).sub (h.sr.mul (hγ .vyaw))).mul_const deltaSec)
  simp only [stateUpdate_pitch]
  refine hrow.congr_deriv ?_
  rw [transferFunctionJacobian_mulVec, transferFunction_mulVec]
  simp [jacobianEntries, transferEntries]
  ring

theorem hasDerivAt_yaw (hcos : Real.cos (γ t .pitch) ≠ 0) : HasDerivAt (fun u => stateUpdate deltaSec (γ u) .yaw)
    ((transferFunctionJacobian (γ t) deltaSec *ᵥ v) .yaw) t := by
  have h := trigPath hγ
  have hrow := (hγ .yaw).add ((((h.sr.mul (h.cpi hcos)).mul (hγ .vpitch)).add
    ((h.cr.mul (h.cpi hcos)).mul (hγ .vyaw))).mul_const deltaSec)
  simp only [stateUpdate_yaw]
  refine hrow.congr_deriv ?_
  rw [transferFunctionJacobian_mulVec, transferFunction_mulVec]
  simp [jacobianEntries, transferEntries]
  ring

end Attitude

/-! ## 姿勢でない成分 -/

section Rest

variable {i : StateMember}

/-- 姿勢でない成分の行は、推定値によらない。 -/
theorem transferFunction_row (hi : isPose i = false) (s s' : StateVector) (j : StateMember) :
    transferFunction s deltaSec i j = transferFunction s' deltaSec i j := by
  have hentries : (transferEntries s deltaSec).filter (fun e => e.1 = i) =
      (transferEntries s' deltaSec).filter (fun e => e.1 = i) := by
    cases i <;> first | rfl | cases hi
  rw [transferFunction, assign_row (fun _ => rfl) (transferEntries s deltaSec), hentries,
    ← assign_row (fun _ => rfl) (transferEntries s' deltaSec), ← transferFunction]

theorem transferFunctionJacobian_row (hi : isPose i = false) (s : StateVector) (j : StateMember) :
    transferFunctionJacobian s deltaSec i j = transferFunction s deltaSec i j := by
  have hentries : (jacobianEntries s deltaSec).filter (fun e => e.1 = i) = [] := by
    cases i <;> first | rfl | cases hi
  rw [transferFunctionJacobian, assign_row (fun _ => rfl), hentries, assign]

theorem hasDerivAt_rest (hγ : ∀ k, HasDerivAt (fun u => γ u k) (v k) t) (hi : isPose i = false) :
    HasDerivAt (fun u => stateUpdate deltaSec (γ u) i) ((transferFunctionJacobian (γ t) deltaSec *ᵥ v) i) t := by
  have hrow : HasDerivAt (fun u => ∑ k, transferFunction (γ t) deltaSec i k * γ u k)
      (∑ k, transferFunction (γ t) deltaSec i k * v k) t :=
    HasDerivAt.fun_sum fun k _ => (hγ k).const_mul _
  have hupdate : (fun u => stateUpdate deltaSec (γ u) i) = fun u => ∑ k, transferFunction (γ t) deltaSec i k * γ u k :=
    funext fun u => by simp only [stateUpdate_apply, transferFunction_row hi (γ u) (γ t)]
  have hjacobian : (transferFunctionJacobian (γ t) deltaSec *ᵥ v) i = ∑ k, transferFunction (γ t) deltaSec i k * v k := by
    simp only [mulVec, dotProduct, transferFunctionJacobian_row hi]
  rw [hupdate, hjacobian]
  exact hrow

end Rest

/-! ## 偏微分 -/

theorem hasDerivAt_stateUpdate (hγ : ∀ k, HasDerivAt (fun u => γ u k) (v k) t) (hcos : Real.cos (γ t .pitch) ≠ 0)
    (i : StateMember) :
    HasDerivAt (fun u => stateUpdate deltaSec (γ u) i) ((transferFunctionJacobian (γ t) deltaSec *ᵥ v) i) t := by
  cases i with
  | x => exact hasDerivAt_x hγ
  | y => exact hasDerivAt_y hγ
  | z => exact hasDerivAt_z hγ
  | roll => exact hasDerivAt_roll hγ hcos
  | pitch => exact hasDerivAt_pitch hγ
  | yaw => exact hasDerivAt_yaw hγ hcos
  | _ => exact hasDerivAt_rest hγ rfl

theorem hasDerivAt_coordinate (s : StateVector) (j k : StateMember) :
    HasDerivAt (fun u => Function.update s j u k) ((Pi.single j 1 : StateVector) k) (s j) := by
  by_cases hk : k = j
  · subst hk
    simp only [Function.update_self, Pi.single_eq_same]
    exact hasDerivAt_id (s k)
  · simp only [Function.update_of_ne hk, Pi.single_eq_of_ne hk]
    exact hasDerivAt_const (s j) (s k)

theorem hasDerivAt_partial (deltaSec : ℝ) (hcos : Real.cos (s .pitch) ≠ 0) (i j : StateMember) :
    HasDerivAt (fun u => stateUpdate deltaSec (Function.update s j u) i) (transferFunctionJacobian s deltaSec i j)
      (s j) := by
  have hstart : Function.update s j (s j) = s := Function.update_eq_self j s
  have hpath : HasDerivAt (fun u => stateUpdate deltaSec (Function.update s j u) i)
      ((transferFunctionJacobian (Function.update s j (s j)) deltaSec *ᵥ Pi.single j 1) i) (s j) :=
    hasDerivAt_stateUpdate (hasDerivAt_coordinate s j) (by rwa [hstart]) i
  rwa [hstart, mulVec_single_one, col_apply] at hpath

/-! ## 予測 -/

theorem prepareControl_of_not_update {f : Ekf} {c : ControlMember} (hc : f.controlUpdate c = false) (referenceTime : ℤ) :
    f.prepareControl referenceTime c = 0 := by
  unfold controlUpdate at hc
  unfold prepareControl
  cases hcontrol : f.control with
  | none => rfl
  | some p =>
      rw [hcontrol] at hc
      simp [hc]

theorem applyControl_of_not_update {f : Ekf} (hcontrol : ∀ c, f.controlUpdate c = false) (referenceTime : ℤ)
    (deltaSec : ℝ) : f.applyControl referenceTime deltaSec = f.state := by
  funext i
  cases i <;> simp [applyControl, prepareControl_of_not_update, hcontrol]

theorem predict_of_not_update (normalizeAngle : ℝ → ℝ) {f : Ekf} (hcos : Real.cos (f.state .pitch) ≠ 0)
    (hcontrol : ∀ c, f.controlUpdate c = false) (referenceTime delta : ℤ) :
    f.predict normalizeAngle referenceTime delta = some
      { f with
        state := wrapStateAngles normalizeAngle (stateUpdate (toSec delta) f.state)
        estimateErrorCovariance :=
          transferFunctionJacobian f.state (toSec delta) * f.estimateErrorCovariance *
            (transferFunctionJacobian f.state (toSec delta)).transpose + toSec delta • f.noise } := by
  unfold predict
  rw [if_neg hcos]
  simp only [applyControl_of_not_update hcontrol]
  rfl

/-- `predict` は `stateUpdate` で推定値を進め、その偏微分を並べた行列で共分散を進める。 -/
theorem transferFunctionJacobian_partial (normalizeAngle : ℝ → ℝ) (f : Ekf) (hcos : Real.cos (f.state .pitch) ≠ 0)
    (hcontrol : ∀ c, f.controlUpdate c = false) :
    (∀ deltaSec i j, HasDerivAt (fun u => stateUpdate deltaSec (Function.update f.state j u) i)
      (transferFunctionJacobian f.state deltaSec i j) (f.state j)) ∧
    ∀ referenceTime delta, f.predict normalizeAngle referenceTime delta = some
      { f with
        state := wrapStateAngles normalizeAngle (stateUpdate (toSec delta) f.state)
        estimateErrorCovariance :=
          transferFunctionJacobian f.state (toSec delta) * f.estimateErrorCovariance *
            (transferFunctionJacobian f.state (toSec delta)).transpose + toSec delta • f.noise } :=
  ⟨fun deltaSec i j => hasDerivAt_partial deltaSec hcos i j,
    fun referenceTime delta => predict_of_not_update normalizeAngle hcos hcontrol referenceTime delta⟩

-- 数字 `2` が、どのモジュールでも同じ項になるように、名前のついたインスタンスにする。
local instance atLeastTwo : Nat.AtLeastTwo 2 := ⟨Nat.le_refl 2⟩

/-- 傾いて動いているときの推定値。 -/
noncomputable def tilted : StateVector
  | .roll => Real.pi / 6
  | .pitch => Real.pi / 3
  | .yaw => Real.pi / 2
  | .vx => 2
  | .vpitch => 2
  | _ => 0

/-- 制御を使わないフィルタ。 -/
noncomputable def tiltedEkf : Ekf where
  initialized := true
  useDynamicProcessNoiseCovariance := false
  control := none
  latestControl := fun _ => 0
  latestControlTime := 0
  lastMeasurementTime := 0
  state := tilted
  estimateErrorCovariance := 1
  processNoiseCovariance := 1

theorem tilted_entries : transferFunctionJacobian tilted 1 .x .yaw = -1 ∧
    transferFunctionJacobian tilted 1 .yaw .pitch = 2 * Real.sqrt 3 := by
  constructor
  · simp [transferFunctionJacobian, assign, jacobianEntries, transferFunction, tilted]
  · simp [transferFunctionJacobian, assign, jacobianEntries, transferFunction, tilted]
    ring

-- 傾いて動いているところで、一秒の予測を行う。
theorem transferFunctionJacobian_partial_tilted :
    HasDerivAt (fun u => stateUpdate 1 (Function.update tilted .yaw u) .x) (-1) (Real.pi / 2) ∧
      HasDerivAt (fun u => stateUpdate 1 (Function.update tilted .pitch u) .yaw) (2 * Real.sqrt 3) (Real.pi / 3) ∧
      ∃ g, tiltedEkf.predict id 0 1000000000 = some g := by
  have hcos : Real.cos (tiltedEkf.state .pitch) ≠ 0 := by
    show Real.cos (Real.pi / 3) ≠ 0
    rw [Real.cos_pi_div_three]
    norm_num
  have hpartial := transferFunctionJacobian_partial id tiltedEkf hcos fun _ => rfl
  refine ⟨?_, ?_, _, hpartial.2 0 1000000000⟩
  · rw [← tilted_entries.1]
    exact hpartial.1 1 .x .yaw
  · rw [← tilted_entries.2]
    exact hpartial.1 1 .yaw .pitch

end Ranger.Localization.Ekf
