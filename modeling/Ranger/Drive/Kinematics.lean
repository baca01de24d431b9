import Ranger.Drive.Odometry

/-!
# 指令と走行の推定の対応

指令として送る速度と角度を、走行の推定の式に戻したときの運動を、求められた運動と比べる。また、発行する速度を、位置を進める
微分と比べる。
-/

namespace Ranger.Drive
open Ranger.Lib

noncomputable section

/-! ## 平行移動の指令 -/

/-- 速度 `v` と角度 `phi` の平行移動は、求められた平面の速度であり、走行の推定もその速度を発行する。 -/
def FollowsTwist (p : RobotParams) (msg : Twist) (v phi : ℝ) : Prop :=
  v * Real.cos phi = msg.linearX ∧ v * Real.sin phi = msg.linearY ∧
    publishedTwist p (odometryMode MotionMode.parallel.code) v 0 phi = ⟨msg.linearX, msg.linearY, 0⟩

theorem followsTwist_iff (p : RobotParams) (msg : Twist) (v phi : ℝ) :
    FollowsTwist p msg v phi ↔ v * Real.cos phi = msg.linearX ∧ v * Real.sin phi = msg.linearY := by
  refine ⟨fun h => ⟨h.1, h.2.1⟩, fun h => ⟨h.1, h.2, ?_⟩⟩
  show (⟨v * Real.cos phi, v * Real.sin phi, 0⟩ : BodyTwist) = _
  rw [h.1, h.2]

theorem parallelSteer_of_ne {p : RobotParams} {msg : Twist} (last : ℝ) (hx : msg.linearX ≠ 0)
    (hclamp : |Real.arctan (msg.linearY / msg.linearX)| ≤ p.maxSteerAngleParallel) :
    parallelSteer p msg last =
      if msg.linearX < 0 then -Real.arctan (msg.linearY / msg.linearX)
      else Real.arctan (msg.linearY / msg.linearX) := by
  have hsign := msg.signbitX_iff hx
  simp only [parallelSteer, atanRatio_of_ne hx, hx, false_and, if_false, hsign]
  split_ifs
  · exact clampAbs_of_abs_le (by rwa [abs_neg])
  · exact clampAbs_of_abs_le hclamp

theorem parallelSign_of_ne {msg : Twist} (hx : msg.linearX ≠ 0) :
    parallelSign msg = if msg.linearX < 0 then -1 else 1 := by
  simp only [parallelSign, hx, false_and, if_false, ge_iff_le, ← not_lt, ite_not]

/-- 送る速度と角度は、前進のときに限り、求められた平面の速度になる。後退では、角度と速度の符号がともに反転して、横の向きが
逆になる。 -/
theorem parallel_components {p : RobotParams} {msg : Twist} (last : ℝ) (hx : msg.linearX ≠ 0)
    (hclamp : |Real.arctan (msg.linearY / msg.linearX)| ≤ p.maxSteerAngleParallel) :
    let v := parallelSign msg * √(msg.linearX * msg.linearX + msg.linearY * msg.linearY)
    let phi := parallelSteer p msg last
    v * Real.cos phi = msg.linearX ∧
      v * Real.sin phi = if msg.linearX < 0 then -msg.linearY else msg.linearY := by
  have hcos := speed_mul_cos (y := msg.linearY) hx
  have hsin := speed_mul_sin (y := msg.linearY) hx
  intro v phi
  simp only [v, phi, parallelSteer_of_ne last hx hclamp, parallelSign_of_ne hx]
  split_ifs with hneg
  · rw [abs_of_neg hneg] at hcos hsin
    rw [Real.cos_neg, Real.sin_neg, mul_assoc, mul_assoc, mul_neg, hcos, hsin]
    constructor
    · ring
    · field_simp
  · rw [abs_of_nonneg (not_lt.mp hneg)] at hcos hsin
    rw [mul_assoc, mul_assoc, hcos, hsin]
    constructor
    · ring
    · field_simp

/-- 打ち切りのない平行移動の指令が、求められた平面の速度になり、走行の推定もそれを発行するのは、前進のときであり、そのときに
限る。 -/
theorem parallel_follows_iff {m : Messenger} {msg : Twist} (hpark : ¬ m.Parked) (hx : msg.linearX ≠ 0)
    (hy : msg.linearY ≠ 0)
    (hclamp : |Real.arctan (msg.linearY / msg.linearX)| ≤ m.robotParams.maxSteerAngleParallel) :
    ∃ v phi, (twistCmdCallback msg m).2 =
        [.setMotionMode MotionMode.parallel.code, .setMotionCommand v phi 0] ∧
      (FollowsTwist m.robotParams msg v phi ↔ 0 < msg.linearX) := by
  have hsel : selectMode m msg = (.parallel, 0) := selectMode_lateral hy (fun h => hx h.1)
  rw [twistCmdCallback_run hpark hsel]
  refine ⟨_, _, rfl, ?_⟩
  obtain ⟨hcos, hsin⟩ := parallel_components (m.nextNonzeroX msg .parallel) hx hclamp
  rw [followsTwist_iff, hcos, hsin]
  split_ifs with hneg
  · refine iff_of_false (fun h => hy ?_) (not_lt.mpr hneg.le)
    linarith [h.2]
  · exact iff_of_true ⟨rfl, rfl⟩ (lt_of_le_of_ne (not_lt.mp hneg) (Ne.symm hx))

theorem abs_arctan_one : |Real.arctan 1| ≤ rangerParams.maxSteerAngleParallel := by
  have hpi := Real.pi_lt_d2
  rw [Real.arctan_one, abs_of_pos (by positivity)]
  norm_num [rangerParams]
  linarith

-- 左前への平行移動。
theorem parallel_follows_forward :
    let m : Messenger := { robotType := .kRanger, robotParams := rangerParams }
    let msg : Twist := ⟨1, 1, 0, false, by norm_num⟩
    ∃ v phi, (twistCmdCallback msg m).2 =
        [.setMotionMode MotionMode.parallel.code, .setMotionCommand v phi 0] ∧
      FollowsTwist m.robotParams msg v phi := by
  intro m msg
  have hpark : ¬ m.Parked := fun h => by cases h.1
  have hx : msg.linearX ≠ 0 := one_ne_zero
  have hclamp : |Real.arctan (msg.linearY / msg.linearX)| ≤ m.robotParams.maxSteerAngleParallel := by
    simpa [msg] using abs_arctan_one
  obtain ⟨v, phi, hcalls, hiff⟩ := parallel_follows_iff hpark hx one_ne_zero hclamp
  exact ⟨v, phi, hcalls, hiff.mpr one_pos⟩

-- 左後ろへの平行移動を求めると、右後ろへの指令になる。
theorem reverse_mirrors :
    let m : Messenger := { robotType := .kRanger, robotParams := rangerParams }
    let msg : Twist := ⟨-1, 1, 0, true, by norm_num⟩
    ∃ v phi, (twistCmdCallback msg m).2 =
        [.setMotionMode MotionMode.parallel.code, .setMotionCommand v phi 0] ∧
      v * Real.sin phi = -1 ∧ ¬ FollowsTwist m.robotParams msg v phi := by
  intro m msg
  have hpark : ¬ m.Parked := fun h => by cases h.1
  have hx : msg.linearX ≠ 0 := by norm_num [msg]
  have hneg : msg.linearX < 0 := by norm_num [msg]
  have hclamp : |Real.arctan (msg.linearY / msg.linearX)| ≤ m.robotParams.maxSteerAngleParallel := by
    simpa [msg, Real.arctan_neg] using abs_arctan_one
  have hsel : selectMode m msg = (.parallel, 0) := selectMode_lateral one_ne_zero (fun h => hx h.1)
  rw [twistCmdCallback_run hpark hsel]
  obtain ⟨_, hsin⟩ := parallel_components (m.nextNonzeroX msg .parallel) hx hclamp
  rw [if_pos hneg] at hsin
  refine ⟨_, _, rfl, hsin, fun h => ?_⟩
  have hy : msg.linearY = 1 := rfl
  have hfollow := h.2.1
  rw [hsin, hy] at hfollow
  norm_num at hfollow

/-! ## 旋回の指令 -/

/-- 旋回の半径。速さを、向きの変わる速さで割る。 -/
def Rate.turnRadius (r : Rate) : ℝ := √(r.dx ^ 2 + r.dy ^ 2) / |r.dtheta|

/-- 旋回の半径と向きは、求められたものである。 -/
def Rate.Turns (r : Rate) (msg : Twist) : Prop :=
  r.turnRadius = |msg.linearX / msg.angularZ| ∧ SignType.sign r.dtheta = SignType.sign msg.angularZ

/-- 内側の車輪の角度として半径 `R` の中央の角度を与えると、中央の角度は、半径 `R + track / 2` のものになる。 -/
theorem central_of_radius {p : RobotParams} (hL : 0 < p.wheelbase) (hW : 0 < p.track) {R : ℝ} (hR : 0 < R) :
    convertInnerAngleToCentral p (Real.arctan (p.wheelbase / 2.0 / R)) =
      Real.arctan (p.wheelbase / (2 * R + p.track)) := by
  have ht : 0 < p.wheelbase / 2.0 / R := by positivity
  have hpos : 0 < Real.arctan (p.wheelbase / 2.0 / R) := Real.arctan_pos.mpr ht
  have hcos := Real.cos_arctan_pos (p.wheelbase / 2.0 / R)
  simp only [convertInnerAngleToCentral, if_pos hpos.le, mul_one, abs_of_pos hpos, sin_arctan_eq_mul_cos,
    ge_iff_le]
  have hden : 0 < p.wheelbase * Real.cos (Real.arctan (p.wheelbase / 2.0 / R)) +
      p.track * (p.wheelbase / 2.0 / R * Real.cos (Real.arctan (p.wheelbase / 2.0 / R))) := by positivity
  rw [atanRatio_of_ne hden.ne']
  congr 1
  field_simp
  norm_num
  ring

theorem central_neg (p : RobotParams) {a : ℝ} (ha : 0 < a) :
    convertInnerAngleToCentral p (-a) = -convertInnerAngleToCentral p a := by
  have hneg : ¬ -a ≥ 0 := by linarith
  simp only [convertInnerAngleToCentral, abs_neg, if_pos ha.le, if_neg hneg, ge_iff_le]
  ring

theorem turnRadius_dualAckerman {L v s : ℝ} (hL : 0 < L) (hv : v ≠ 0) (hs : 0 < s) (x : Pose) :
    (dualAckermanModel L v (Real.arctan s) x).turnRadius = L / (2 * s) := by
  have hcos := Real.cos_arctan_pos s
  have hspeed : (v * Real.cos (Real.arctan s) * Real.cos x.theta) ^ 2 +
      (v * Real.cos (Real.arctan s) * Real.sin x.theta) ^ 2 = (v * Real.cos (Real.arctan s)) ^ 2 := by
    have h := Real.cos_sq_add_sin_sq x.theta
    linear_combination (v * Real.cos (Real.arctan s)) ^ 2 * h
  simp only [Rate.turnRadius, dualAckermanModel, hspeed, Real.sqrt_sq_eq_abs, sin_arctan_eq_mul_cos]
  have habs : |2.0 * v * (s * Real.cos (Real.arctan s)) / L| =
      2 * s / L * |v * Real.cos (Real.arctan s)| := by
    have hsplit : 2.0 * v * (s * Real.cos (Real.arctan s)) / L = 2 * s / L * (v * Real.cos (Real.arctan s)) := by
      norm_num
      ring
    rw [hsplit, abs_mul, abs_of_pos (by positivity : 0 < 2 * s / L)]
  have hne : |v * Real.cos (Real.arctan s)| ≠ 0 := abs_ne_zero.mpr (mul_ne_zero hv hcos.ne')
  rw [habs]
  field_simp

theorem turnRadius_neg (L v phi : ℝ) (x : Pose) :
    (dualAckermanModel L v (-phi) x).turnRadius = (dualAckermanModel L v phi x).turnRadius := by
  simp only [Rate.turnRadius, dualAckermanModel, Real.cos_neg, Real.sin_neg, mul_neg, neg_div, abs_neg]

/-- 速度が 0 なら、角度は直角になり、打ち切られる。 -/
theorem linearX_ne_zero_of_unclamped {p : RobotParams} {msg : Twist} (hL : 0 < p.wheelbase)
    (hmax : atanRatio false (p.wheelbase / 2.0) (|msg.linearX| / |msg.angularZ|) ≤ 40.0 * Real.pi / 180.0) :
    msg.linearX ≠ 0 := by
  intro hx
  have hpi := Real.pi_pos
  have hsign : SignType.sign (p.wheelbase / 2.0) = 1 := sign_pos (by positivity)
  rw [hx, abs_zero, zero_div, atanRatio, if_pos rfl, hsign] at hmax
  norm_num at hmax
  linarith

theorem sign_dtheta {L : ℝ} (hL : 0 < L) (v phi : ℝ) (x : Pose) :
    SignType.sign (dualAckermanModel L v phi x).dtheta = SignType.sign v * SignType.sign (Real.sin phi) := by
  have heq : (dualAckermanModel L v phi x).dtheta = 2 / L * (v * Real.sin phi) := by
    simp only [dualAckermanModel]
    norm_num
    ring
  rw [heq, sign_mul, sign_pos (by positivity : 0 < 2 / L), one_mul, sign_mul]

theorem sign_of_mul {z x : ℝ} {k : SignType} (hx : x ≠ 0) (h : SignType.sign (z * x) = k) :
    SignType.sign x * k = SignType.sign z := by
  have key : ∀ a b : SignType, b ≠ 0 → b * (a * b) = a := by decide
  rw [← h, sign_mul]
  exact key _ _ (sign_ne_zero.mpr hx)

/-- 旋回の指令を走行の推定に戻すと、半径は、求められた半径より `track / 2` だけ大きく、向きは等しい。 -/
theorem dual_rate {p : RobotParams} {msg : Twist} (hL : 0 < p.wheelbase) (hW : 0 < p.track)
    (hx : msg.linearX ≠ 0) (hz : 1e-6 ≤ |msg.angularZ|)
    (hmax : atanRatio false (p.wheelbase / 2.0) (|msg.linearX| / |msg.angularZ|) ≤ 40.0 * Real.pi / 180.0)
    (x : Pose) :
    let rate := dualAckermanModel p.wheelbase msg.linearX
      (convertInnerAngleToCentral p (calculateSteeringAngle p msg).1) x
    rate.turnRadius = |msg.linearX / msg.angularZ| + p.track / 2 ∧
      SignType.sign rate.dtheta = SignType.sign msg.angularZ := by
  have hz' : 0 < |msg.angularZ| := lt_of_lt_of_le (by norm_num) hz
  have hzne : msg.angularZ ≠ 0 := abs_pos.mp hz'
  have hR : 0 < |msg.linearX| / |msg.angularZ| := div_pos (abs_pos.mpr hx) hz'
  have hs : 0 < p.wheelbase / (2 * (|msg.linearX| / |msg.angularZ|) + p.track) := by positivity
  have hsin : 0 < Real.sin (Real.arctan (p.wheelbase / (2 * (|msg.linearX| / |msg.angularZ|) + p.track))) := by
    rw [sin_arctan_eq_mul_cos]
    exact mul_pos hs (Real.cos_arctan_pos _)
  have hradius : p.wheelbase / (2 * (p.wheelbase / (2 * (|msg.linearX| / |msg.angularZ|) + p.track))) =
      |msg.linearX / msg.angularZ| + p.track / 2 := by
    rw [abs_div]
    field_simp
  have hprod : msg.angularZ * msg.linearX ≠ 0 := mul_ne_zero hzne hx
  intro rate
  simp only [rate, calculateSteeringAngle_unclamped hz hmax, atanRatio_of_ne hR.ne']
  split_ifs with hk
  · rw [central_of_radius hL hW hR, sign_dtheta hL, sign_pos hsin]
    exact ⟨(turnRadius_dualAckerman hL hx hs x).trans hradius,
      sign_of_mul hx (sign_pos (lt_of_le_of_ne hk hprod.symm))⟩
  · have hphi : 0 < Real.arctan (p.wheelbase / 2.0 / (|msg.linearX| / |msg.angularZ|)) :=
      Real.arctan_pos.mpr (by positivity)
    rw [central_neg p hphi, central_of_radius hL hW hR, turnRadius_neg, sign_dtheta hL, Real.sin_neg,
      sign_neg (neg_neg_of_pos hsin)]
    exact ⟨(turnRadius_dualAckerman hL hx hs x).trans hradius, sign_of_mul hx (sign_neg (not_le.mp hk))⟩

/-- 打ち切りのない旋回の指令と、それを走行の推定に戻したときの旋回。 -/
theorem dual_turn_rate {m : Messenger} {msg : Twist} (hL : 0 < m.robotParams.wheelbase)
    (hW : 0 < m.robotParams.track) (hpark : ¬ m.Parked) (hy : msg.linearY = 0)
    (hz : 1e-6 ≤ |msg.angularZ|) (hdual : ¬ Spins m.robotParams msg)
    (hmax : atanRatio false (m.robotParams.wheelbase / 2.0) (|msg.linearX| / |msg.angularZ|) ≤
      40.0 * Real.pi / 180.0)
    (hclamp : atanRatio false (m.robotParams.wheelbase / 2.0) (|msg.linearX| / |msg.angularZ|) ≤
      m.robotParams.maxSteerAngleAckermann) :
    ∃ v phi, (twistCmdCallback msg m).2 =
        [.setMotionMode MotionMode.dualAckerman.code, .setMotionCommand v phi 0] ∧
      ∀ x : Pose,
        let rate := dualAckermanModel m.robotParams.wheelbase v
          (convertInnerAngleToCentral m.robotParams phi) x
        rate.turnRadius = |msg.linearX / msg.angularZ| + m.robotParams.track / 2 ∧
          SignType.sign rate.dtheta = SignType.sign msg.angularZ := by
  have hx := linearX_ne_zero_of_unclamped hL hmax
  have hz' : 0 < |msg.angularZ| := lt_of_lt_of_le (by norm_num) hz
  have hR : 0 < |msg.linearX| / |msg.angularZ| := div_pos (abs_pos.mpr hx) hz'
  have hphi : 0 ≤ atanRatio false (m.robotParams.wheelbase / 2.0) (|msg.linearX| / |msg.angularZ|) := by
    rw [atanRatio_of_ne hR.ne']
    exact Real.arctan_nonneg.mpr (by positivity)
  rw [twistCmdCallback_run hpark (selectMode_dualAckerman hy hdual)]
  refine ⟨msg.linearX, _, rfl, fun x => ?_⟩
  rw [clampAbs_steering hz hphi hmax hclamp]
  exact dual_rate hL hW hx hz hmax x

/-- 打ち切りのない旋回の指令を走行の推定に戻すと、向きは求められたものだが、半径は、求められた半径より `track / 2` だけ大きく、
求められた旋回になることはない。 -/
theorem dual_turn_never {m : Messenger} {msg : Twist} (hL : 0 < m.robotParams.wheelbase)
    (hW : 0 < m.robotParams.track) (hpark : ¬ m.Parked) (hy : msg.linearY = 0)
    (hz : 1e-6 ≤ |msg.angularZ|) (hdual : ¬ Spins m.robotParams msg)
    (hmax : atanRatio false (m.robotParams.wheelbase / 2.0) (|msg.linearX| / |msg.angularZ|) ≤
      40.0 * Real.pi / 180.0)
    (hclamp : atanRatio false (m.robotParams.wheelbase / 2.0) (|msg.linearX| / |msg.angularZ|) ≤
      m.robotParams.maxSteerAngleAckermann) :
    ∃ v phi, (twistCmdCallback msg m).2 =
        [.setMotionMode MotionMode.dualAckerman.code, .setMotionCommand v phi 0] ∧
      ∀ x : Pose,
        let rate := dualAckermanModel m.robotParams.wheelbase v
          (convertInnerAngleToCentral m.robotParams phi) x
        ¬ rate.Turns msg ∧ rate.turnRadius = |msg.linearX / msg.angularZ| + m.robotParams.track / 2 ∧
          SignType.sign rate.dtheta = SignType.sign msg.angularZ := by
  obtain ⟨v, phi, hcalls, hrate⟩ := dual_turn_rate hL hW hpark hy hz hdual hmax hclamp
  refine ⟨v, phi, hcalls, fun x => ?_⟩
  obtain ⟨hradius, hsign⟩ := hrate x
  refine ⟨fun h => ?_, hradius, hsign⟩
  have heq := h.1.symm.trans hradius
  linarith

/-- 速度 1、角速度 1 の旋回。 -/
def unitTurn : Twist := ⟨1, 0, 1, false, by norm_num⟩

theorem unitTurn_dual : ¬ Spins rangerParams unitTurn := by
  norm_num [Spins, unitTurn, rangerParams]

/-- どの上限にも掛からない。 -/
theorem unitTurn_unclamped :
    atanRatio false (rangerParams.wheelbase / 2.0) (|unitTurn.linearX| / |unitTurn.angularZ|) ≤
        40.0 * Real.pi / 180.0 ∧
      atanRatio false (rangerParams.wheelbase / 2.0) (|unitTurn.linearX| / |unitTurn.angularZ|) ≤
        rangerParams.maxSteerAngleAckermann := by
  have hlt := arctan_lt_self (x := 0.45) (by norm_num)
  have heq : rangerParams.wheelbase / 2.0 / (|unitTurn.linearX| / |unitTurn.angularZ|) = 0.45 := by
    norm_num [unitTurn, rangerParams]
  have hpi := Real.pi_gt_d2
  rw [atanRatio_of_ne (by norm_num [unitTurn]), heq]
  constructor
  · linarith
  · exact hlt.le.trans (by norm_num [rangerParams])

theorem dual_turn_never_unit :
    let m : Messenger := { robotType := .kRanger, robotParams := rangerParams }
    ∃ v phi, (twistCmdCallback unitTurn m).2 =
        [.setMotionMode MotionMode.dualAckerman.code, .setMotionCommand v phi 0] ∧
      ∀ x : Pose,
        let rate := dualAckermanModel m.robotParams.wheelbase v
          (convertInnerAngleToCentral m.robotParams phi) x
        ¬ rate.Turns unitTurn ∧
          rate.turnRadius = |unitTurn.linearX / unitTurn.angularZ| + m.robotParams.track / 2 ∧
          SignType.sign rate.dtheta = SignType.sign unitTurn.angularZ := by
  intro m
  refine dual_turn_never ?_ ?_ (fun h => by cases h.1) rfl ?_ unitTurn_dual unitTurn_unclamped.1 unitTurn_unclamped.2
  · norm_num [m, rangerParams]
  · norm_num [m, rangerParams]
  · norm_num [unitTurn]

-- 求められた半径 1 の旋回は、半径 1.28 の旋回になる。
theorem unit_turn_widens :
    let m : Messenger := { robotType := .kRanger, robotParams := rangerParams }
    ∃ v phi, (twistCmdCallback unitTurn m).2 =
        [.setMotionMode MotionMode.dualAckerman.code, .setMotionCommand v phi 0] ∧
      let rate := dualAckermanModel m.robotParams.wheelbase v
        (convertInnerAngleToCentral m.robotParams phi) ⟨0, 0, 0⟩
      rate.turnRadius = 1.28 ∧ ¬ rate.Turns unitTurn := by
  intro m
  have hL : 0 < m.robotParams.wheelbase := by norm_num [m, rangerParams]
  have hW : 0 < m.robotParams.track := by norm_num [m, rangerParams]
  have hz : 1e-6 ≤ |unitTurn.angularZ| := by norm_num [unitTurn]
  obtain ⟨v, phi, hcalls, hrate⟩ := dual_turn_rate hL hW (fun h => by cases h.1) rfl hz unitTurn_dual
    unitTurn_unclamped.1 unitTurn_unclamped.2
  obtain ⟨hradius, -⟩ := hrate ⟨0, 0, 0⟩
  have hwide : |unitTurn.linearX / unitTurn.angularZ| + m.robotParams.track / 2 = 1.28 := by
    norm_num [m, unitTurn, rangerParams]
  rw [hwide] at hradius
  refine ⟨v, phi, hcalls, hradius, fun h => ?_⟩
  have heq := h.1.symm.trans hradius
  norm_num [unitTurn] at heq

/-! ## 発行する速度 -/

/-- 発行する速度を向き `theta` だけ回したものは、位置の微分であり、角速度は、向きの微分である。 -/
def BodyTwist.IsRate (twist : BodyTwist) (theta : ℝ) (r : Rate) : Prop :=
  twist.linearX * Real.cos theta - twist.linearY * Real.sin theta = r.dx ∧
    twist.linearX * Real.sin theta + twist.linearY * Real.cos theta = r.dy ∧ twist.angularZ = r.dtheta

theorem isRate_dualAckerman_iff {p : RobotParams} (hL : 0 < p.wheelbase) (linear angular angle : ℝ) (x : Pose) :
    (publishedTwist p (some .dualAckerman) linear angular angle).IsRate x.theta
        (odometryRate p .dualAckerman linear angular angle x) ↔ linear = 0 ∨ Real.sin angle = 0 := by
  rw [← cos_central_eq_one_iff hL]
  simp only [BodyTwist.IsRate, publishedTwist, odometryRate, dualAckermanModel, zero_mul, sub_zero, add_zero,
    and_true]
  constructor
  · rintro ⟨hdx, hdy⟩
    by_cases hlin : linear = 0
    · exact Or.inl hlin
    · -- 余弦と正弦の二乗の和を取ると、向きによらない。
      have hsq := Real.cos_sq_add_sin_sq x.theta
      have hcos : linear * (1 - Real.cos (convertInnerAngleToCentral p angle)) = 0 := by
        linear_combination Real.cos x.theta * hdx + Real.sin x.theta * hdy -
          linear * (1 - Real.cos (convertInnerAngleToCentral p angle)) * hsq
      have hzero := (mul_eq_zero.mp hcos).resolve_left hlin
      exact Or.inr (by linarith)
  · rintro (hlin | hcos)
    · simp [hlin]
    · simp [hcos]

theorem isRate_iff {p : RobotParams} (hL : 0 < p.wheelbase) (mode : MotionMode) (linear angular angle : ℝ)
    (x : Pose) :
    (publishedTwist p (some mode) linear angular angle).IsRate x.theta
        (odometryRate p mode linear angular angle x) ↔
      (mode = .dualAckerman → linear = 0 ∨ Real.sin angle = 0) := by
  cases mode with
  | dualAckerman =>
      rw [isRate_dualAckerman_iff hL]
      simp
  | parallel =>
      refine iff_of_true ⟨?_, ?_, rfl⟩ (fun h => by cases h)
      · simp only [publishedTwist, odometryRate, parallelModel, Real.cos_add]
        ring
      · simp only [publishedTwist, odometryRate, parallelModel, Real.sin_add]
        ring
  | sideSlip =>
      refine iff_of_true ⟨?_, ?_, rfl⟩ (fun h => by cases h)
      · simp [publishedTwist, odometryRate]
      · simp [publishedTwist, odometryRate]
  | spinning =>
      refine iff_of_true ⟨?_, ?_, rfl⟩ (fun h => by cases h)
      · simp [publishedTwist, odometryRate, spinningModel]
      · simp [publishedTwist, odometryRate, spinningModel]

theorem loadParameters_wheelbase_pos (robotModel : String) (m : Messenger) :
    0 < (loadParameters robotModel m).robotParams.wheelbase := by
  unfold loadParameters
  split_ifs <;> norm_num [rangerParams, rangerMiniV1Params, rangerMiniV3Params]

/-- `UpdateOdometry` は、扱うどの運動でも、位置をその微分で進める。発行する速度がその微分であるのは、四輪の操舵でないか、
速度が 0 か、操舵の角度の正弦が 0 のときであり、そのときに限る。 -/
theorem odometry_twist_iff (integrate : Integrator) (robotModel : String) (m₀ : Messenger)
    (linear lateral angular angle dt : ℝ) {mode : MotionMode} :
    let m := loadParameters robotModel m₀
    let out := updateOdometry integrate linear lateral angular angle dt m
    let rate := odometryRate m.robotParams mode linear angular angle
    odometryMode m.motionMode = some mode →
      out.2.1 = advance integrate mode rate dt m.pose ∧
        (out.2.2.IsRate m.pose.theta (rate m.pose) ↔
          (mode = .dualAckerman → linear = 0 ∨ Real.sin angle = 0)) := by
  intro m out rate hmode
  simp only [out, updateOdometry, hmode]
  exact ⟨advancePose_eq .., isRate_iff (loadParameters_wheelbase_pos robotModel m₀) ..⟩

-- 平行移動では、発行する速度が位置の微分である。
theorem odometry_twist_parallel :
    let m₀ : Messenger := { robotType := .kRanger, robotParams := rangerParams, motionMode := 1 }
    let m := loadParameters "ranger" m₀
    let out := updateOdometry (fun _ x _ _ _ => x) 1 0 0 0.5 0.02 m
    odometryMode m.motionMode = some .parallel ∧
      out.2.2.IsRate m.pose.theta (odometryRate m.robotParams .parallel 1 0 0.5 m.pose) := by
  intro m₀ m out
  have hmode : odometryMode m.motionMode = some .parallel := rfl
  have h := odometry_twist_iff (fun _ x _ _ _ => x) "ranger" m₀ 1 0 0 0.5 0.02 hmode
  exact ⟨hmode, h.2.mpr fun h => by cases h⟩

-- 角度 0.5 の四輪の操舵では、発行する速度に、余弦の因子がない。
theorem ackerman_twist_overshoots :
    let m₀ : Messenger := { robotType := .kRanger, robotParams := rangerParams, motionMode := 0 }
    let m := loadParameters "ranger" m₀
    let out := updateOdometry (fun _ x _ _ _ => x) 1 0 0 0.5 0.02 m
    odometryMode m.motionMode = some .dualAckerman ∧
      ¬ out.2.2.IsRate m.pose.theta (odometryRate m.robotParams .dualAckerman 1 0 0.5 m.pose) := by
  intro m₀ m out
  refine ⟨rfl, fun h => ?_⟩
  have hsin : 0 < Real.sin 0.5 :=
    Real.sin_pos_of_pos_of_lt_pi (by norm_num) (by linarith [Real.pi_gt_d2])
  rcases (isRate_dualAckerman_iff (loadParameters_wheelbase_pos "ranger" m₀) 1 0 0.5 m.pose).mp h with h | h
  · norm_num at h
  · exact hsin.ne' h

end

end Ranger.Drive
