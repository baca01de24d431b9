import Ranger.Drive.Bus

/-!
# 指令の上限とパラメータの選択

送る指令の値を、車体の上限と、CAN の 16 ビットの整数の範囲に対して調べる。速度の大きさは、四輪の操舵と平行移動では打ち切られない。
また、`LoadParameters` の選んだ値での指令を、車体の種類の値での指令と比べる。
-/

namespace Ranger.Drive
open Ranger.Lib Ranger.Can

noncomputable section

/-! ## 上限 -/

/-- 運動の種類の操舵の角度の上限。回転と横行では、操舵しない。 -/
def steerLimit (p : RobotParams) : MotionMode → ℝ
  | .dualAckerman => p.maxSteerAngleAckermann
  | .parallel => p.maxSteerAngleParallel
  | .spinning | .sideSlip => 0

/-- 値は上限の範囲にあり、千倍して 16 ビットの整数にしても、桁あふれも符号の変化もない。 -/
def MotionCommand.Within (p : RobotParams) (mode : MotionMode) (c : MotionCommand) : Prop :=
  |c.linear| ≤ p.maxLinearSpeed ∧ |c.steering| ≤ steerLimit p mode ∧ |c.angular| ≤ p.maxAngularSpeed ∧
    ∀ v ∈ c.values, |thousandfold v| < 32768 ∧ (wire v).toInt = truncateReal (thousandfold v)

/-- `TwistCmdCallback` の送る指令は、上限の範囲にある。 -/
def CommandWithin (r : Robot) (m : Messenger) (msg : Twist) : Prop :=
  ∀ l a z, RobotCall.setMotionCommand l a z ∈ (twistCmdCallback msg m).2 →
    (r.motionCommand l a z).Within m.robotParams (selectMode m msg).1

/-- 駐車中か、その場での回転か、求められた速さが最大の速度を超えない。 -/
def SpeedAllowed (m : Messenger) (msg : Twist) : Prop :=
  m.Parked ∨
    (msg.linearY ≠ 0 ∧ √(msg.linearX * msg.linearX + msg.linearY * msg.linearY) ≤ m.robotParams.maxLinearSpeed) ∨
    (msg.linearY = 0 ∧ (Spins m.robotParams msg ∨ |msg.linearX| ≤ m.robotParams.maxLinearSpeed))

theorem wire_toInt {v : ℝ} (h : |thousandfold v| < 32768) : (wire v).toInt = truncateReal (thousandfold v) := by
  have hlt := abs_lt.mp (abs_truncateReal_lt (n := 32768) (by exact_mod_cast h))
  exact Int16.toInt_ofInt_of_le (by omega) (by omega)

theorem abs_thousandfold_lt {v b : ℝ} (hv : |v| ≤ b) (hb : b < 32) : |thousandfold v| < 32768 := by
  rw [thousandfold, abs_mul, abs_of_pos (by norm_num : (0 : ℝ) < 1000)]
  linarith

theorem motionCommand_base {r : Robot} (h : r.variant ≠ .kRangerMiniV1) (l a z : ℝ) :
    r.motionCommand l a z = ⟨l, z, 0, a⟩ := by
  unfold Robot.motionCommand
  cases hv : r.variant with
  | kRangerMiniV1 => exact absurd hv h
  | _ => rfl

theorem steerLimit_lt {p : RobotParams} (hp : p.Bounded) (mode : MotionMode) : steerLimit p mode < 32 := by
  cases mode with
  | dualAckerman => exact hp.ackermann.2
  | parallel => exact hp.parallel.2
  | spinning => norm_num [steerLimit]
  | sideSlip => norm_num [steerLimit]

/-- 操舵の角度と角速度が上限の範囲にあれば、残るのは速度だけである。 -/
theorem within_iff {p : RobotParams} (hp : p.Bounded) {mode : MotionMode} {l a z : ℝ}
    (ha : |a| ≤ steerLimit p mode) (hz : |z| ≤ p.maxAngularSpeed) :
    MotionCommand.Within p mode ⟨l, z, 0, a⟩ ↔ |l| ≤ p.maxLinearSpeed := by
  refine ⟨And.left, fun hl => ⟨hl, ha, hz, fun v hv => ?_⟩⟩
  have hlt : |thousandfold v| < 32768 := by
    simp only [MotionCommand.values, List.mem_cons, List.not_mem_nil, or_false] at hv
    rcases hv with rfl | rfl | rfl | rfl
    · exact abs_thousandfold_lt hl hp.linear.2
    · exact abs_thousandfold_lt hz hp.angular.2
    · norm_num [thousandfold]
    · exact abs_thousandfold_lt ha (steerLimit_lt hp mode)
  exact ⟨hlt, wire_toInt hlt⟩

theorem abs_parallelSteer_le {p : RobotParams} (hp : p.Bounded) (msg : Twist) (last : ℝ) :
    |parallelSteer p msg last| ≤ p.maxSteerAngleParallel := by
  have key : ∀ s : ℝ, |if msg.linearX = 0 ∧ msg.linearY ≠ 0 then if last < 0 then -|s| else |s| else s| = |s| := by
    intro s
    split_ifs <;> simp
  rw [parallelSteer, key]
  exact abs_clampAbs_le hp.parallel.1 _

theorem abs_parallelSign (msg : Twist) : |parallelSign msg| = 1 := by
  unfold parallelSign
  split_ifs <;> simp

theorem commandWithin_run {r : Robot} {m : Messenger} {msg : Twist} {mode : MotionMode} {steer l a z : ℝ}
    (hpark : ¬ m.Parked) (hsel : selectMode m msg = (mode, steer))
    (hcall : motionCall m.robotParams (m.nextNonzeroX msg mode) msg mode steer = .setMotionCommand l a z) :
    CommandWithin r m msg ↔ (r.motionCommand l a z).Within m.robotParams mode := by
  rw [CommandWithin, twistCmdCallback_run hpark hsel, hcall, hsel]
  constructor
  · intro h
    exact h l a z (by simp)
  · intro h l' a' z' hmem
    simp only [List.mem_cons, List.not_mem_nil, or_false, reduceCtorEq, false_or,
      RobotCall.setMotionCommand.injEq] at hmem
    obtain ⟨rfl, rfl, rfl⟩ := hmem
    exact h

theorem commandWithin_iff {r : Robot} {m : Messenger} (hr : r.variant ≠ .kRangerMiniV1)
    (hm : m.robotType ≠ .kRangerMiniV1) (hp : m.robotParams.Bounded) (msg : Twist) :
    CommandWithin r m msg ↔ SpeedAllowed m msg := by
  by_cases hpark : m.Parked
  · refine iff_of_true (fun l a z h => ?_) (Or.inl hpark)
    rw [twistCmdCallback_parked hpark] at h
    cases h
  · rw [SpeedAllowed, or_iff_right hpark]
    by_cases hy : msg.linearY = 0
    · by_cases hs : Spins m.robotParams msg
      · rw [commandWithin_run hpark (selectMode_spinning hy hs) rfl, motionCommand_base hr,
          within_iff hp (by simp [steerLimit]) (abs_clampAbs_le hp.angular.1 _)]
        simp [hy, hs, hp.linear.1]
      · rw [commandWithin_run hpark (selectMode_dualAckerman hy hs) rfl, motionCommand_base hr,
          within_iff hp (abs_clampAbs_le hp.ackermann.1 _) (by simp [hp.angular.1])]
        simp [hy, hs]
    · rw [commandWithin_run hpark (selectMode_lateral hy fun h => hm h.2) rfl, motionCommand_base hr,
        within_iff hp (abs_parallelSteer_le hp msg _) (by simp [hp.angular.1]), abs_mul, abs_parallelSign,
        one_mul, abs_of_nonneg (Real.sqrt_nonneg _)]
      simp [hy]

/-- Mini V1 のほかの車体で、送る指令が上限の範囲にあり、桁あふれしないのは、駐車中か、その場での回転か、求められた速さが最大の
速度を超えないときであり、そのときに限る。 -/
theorem command_within_iff {r : Robot} {m : Messenger} {t : RangerSubType}
    (hm : m.robotType ≠ .kRangerMiniV1) (hr : r.variant = m.robotType.variant)
    (hp : m.robotParams = t.params) (msg : Twist) : CommandWithin r m msg ↔ SpeedAllowed m msg := by
  refine commandWithin_iff ?_ hm (hp ▸ t.params_bounded) msg
  rw [hr]
  exact fun hv => hm (variant_miniV1.mp hv)

-- 最大の速度での前進。
theorem command_within_forward :
    let m : Messenger := { robotType := .kRanger, robotParams := rangerParams }
    let r : Robot := { variant := .kRanger, canOpen := true, base := default }
    let msg : Twist := ⟨2.7, 0, 0, false, by norm_num⟩
    m.robotType ≠ .kRangerMiniV1 ∧ r.variant = m.robotType.variant ∧
      m.robotParams = RangerSubType.kRanger.params ∧ CommandWithin r m msg := by
  intro m r msg
  have hm : m.robotType ≠ .kRangerMiniV1 := fun h => by cases h
  have hp : m.robotParams = RangerSubType.kRanger.params := rfl
  have hallowed : SpeedAllowed m msg := by
    refine Or.inr (Or.inr ⟨rfl, Or.inr ?_⟩)
    norm_num [m, msg, rangerParams]
  exact ⟨hm, rfl, hp, (command_within_iff hm rfl hp msg).mpr hallowed⟩

-- 速度 40 の前進は打ち切られず、送る整数は負になる。
theorem fast_command_wraps :
    let m : Messenger := { robotType := .kRanger, robotParams := rangerParams }
    let r : Robot := { variant := .kRanger, canOpen := true, base := default }
    let msg : Twist := ⟨40, 0, 0, false, by norm_num⟩
    (∃ l a z, RobotCall.setMotionCommand l a z ∈ (twistCmdCallback msg m).2 ∧
        (wire (r.motionCommand l a z).linear).toInt = -25536) ∧
      ¬ CommandWithin r m msg := by
  intro m r msg
  have hm : m.robotType ≠ .kRangerMiniV1 := fun h => by cases h
  have hr : r.variant ≠ .kRangerMiniV1 := fun h => by cases h
  have hpark : ¬ m.Parked := fun h => by cases h.1
  have hdual : ¬ Spins m.robotParams msg := by norm_num [Spins, msg]
  let steer := clampAbs m.robotParams.maxSteerAngleAckermann (calculateSteeringAngle m.robotParams msg).1
  refine ⟨⟨40, steer, 0, ?_, ?_⟩, fun h => ?_⟩
  · rw [twistCmdCallback_run hpark (selectMode_dualAckerman rfl hdual)]
    exact List.mem_cons_of_mem _ (List.mem_singleton_self _)
  · have htrunc : truncateReal (thousandfold 40) = 40000 := by
      rw [truncateReal, if_pos (by norm_num [thousandfold])]
      norm_num [thousandfold]
    rw [motionCommand_base hr, wire, htrunc]
    rfl
  · rcases (commandWithin_iff hr hm RangerSubType.kRanger.params_bounded msg).mp h with h | h | h
    · exact hpark h
    · exact h.1 rfl
    · rcases h.2 with h | h
      · exact hdual h
      · norm_num [m, msg, rangerParams] at h

/-! ## パラメータの選択 -/

/-- `LoadParameters` の後の指令は、車体の種類の値での指令に等しい。 -/
def CommandOwn (t : RangerSubType) (m : Messenger) (msg : Twist) : Prop :=
  let loaded := loadParameters t.robotModel m
  (twistCmdCallback msg loaded).2 =
    (twistCmdCallback msg { loaded with robotType := t, robotParams := t.params }).2

/-- Mini V2 でないか、横の速度が求められるか、直進か、二つの種類のどちらの値でも回転になり角速度が小さい方の最大を超えない。 -/
def OwnChoice (t : RangerSubType) (msg : Twist) : Prop :=
  t ≠ .kRangerMiniV2 ∨ msg.linearY ≠ 0 ∨ |msg.angularZ| < 1e-6 ∨
    (|msg.linearX| / |msg.angularZ| < 0.4764 ∧ |msg.angularZ| ≤ 0.7853)

/-- 二つの値が選ぶ運動の種類と、その指令の比較。 -/
theorem calls_eq_iff {m m' : Messenger} (h : ¬ m.Parked) (h' : ¬ m'.Parked) {msg : Twist} {mode mode' : MotionMode}
    {steer steer' : ℝ} (hsel : selectMode m msg = (mode, steer)) (hsel' : selectMode m' msg = (mode', steer')) :
    (twistCmdCallback msg m).2 = (twistCmdCallback msg m').2 ↔
      mode.code = mode'.code ∧
        motionCall m.robotParams (m.nextNonzeroX msg mode) msg mode steer =
          motionCall m'.robotParams (m'.nextNonzeroX msg mode') msg mode' steer' := by
  rw [twistCmdCallback_run h hsel, twistCmdCallback_run h' hsel']
  simp

/-- 半径が軸距に対して小さくないとき、操舵の角度は、どの上限にも掛からない。 -/
theorem steer_unclamped {p : RobotParams} {msg : Twist} (hz : 1e-6 ≤ |msg.angularZ|) (hp : 0 < p.wheelbase)
    (hr : p.wheelbase ≤ |msg.linearX| / |msg.angularZ| * 1.2) :
    clampAbs 0.6981 (calculateSteeringAngle p msg).1 =
      if msg.angularZ * msg.linearX ≥ 0 then Real.arctan (p.wheelbase / 2.0 / (|msg.linearX| / |msg.angularZ|))
      else -Real.arctan (p.wheelbase / 2.0 / (|msg.linearX| / |msg.angularZ|)) := by
  have hrpos : 0 < |msg.linearX| / |msg.angularZ| := by nlinarith
  have hratio : 0 < p.wheelbase / 2.0 / (|msg.linearX| / |msg.angularZ|) := by positivity
  have hle : p.wheelbase / 2.0 / (|msg.linearX| / |msg.angularZ|) ≤ 0.6 := by
    rw [div_le_iff₀ hrpos]
    linarith
  have hlt := arctan_lt_self hratio
  have hpos := Real.arctan_pos.mpr hratio
  have hpi := Real.pi_gt_three
  have hatan : atanRatio false (p.wheelbase / 2.0) (|msg.linearX| / |msg.angularZ|) =
      Real.arctan (p.wheelbase / 2.0 / (|msg.linearX| / |msg.angularZ|)) := atanRatio_of_ne hrpos.ne'
  have hmax : atanRatio false (p.wheelbase / 2.0) (|msg.linearX| / |msg.angularZ|) ≤ 40.0 * Real.pi / 180.0 := by
    rw [hatan]
    linarith
  rw [clampAbs_steering hz (hatan ▸ hpos.le) hmax (by rw [hatan]; linarith),
    calculateSteeringAngle_unclamped hz hmax, hatan]

theorem dual_steer_ne {msg : Twist} (hz : 1e-6 ≤ |msg.angularZ|)
    (hr : 0.810330349 ≤ |msg.linearX| / |msg.angularZ|) :
    clampAbs rangerParams.maxSteerAngleAckermann (calculateSteeringAngle rangerParams msg).1 ≠
      clampAbs rangerMiniV2Params.maxSteerAngleAckermann (calculateSteeringAngle rangerMiniV2Params msg).1 := by
  intro h
  have hsteer := steer_unclamped (p := rangerParams) hz (by norm_num [rangerParams])
    (by simp only [rangerParams]; linarith)
  have hsteer' := steer_unclamped (p := rangerMiniV2Params) hz (by norm_num [rangerMiniV2Params])
    (by simp only [rangerMiniV2Params]; linarith)
  -- 逆正接は単射なので、半径が同じなら、軸距も同じになる。
  have harctan := hsteer.symm.trans (h.trans hsteer')
  have hratio : rangerParams.wheelbase / 2.0 / (|msg.linearX| / |msg.angularZ|) =
      rangerMiniV2Params.wheelbase / 2.0 / (|msg.linearX| / |msg.angularZ|) := by
    split_ifs at harctan
    · exact Real.arctan_injective harctan
    · exact Real.arctan_injective (neg_injective harctan)
  have hrne : |msg.linearX| / |msg.angularZ| ≠ 0 := by linarith
  rw [div_left_inj' hrne] at hratio
  norm_num [rangerParams, rangerMiniV2Params] at hratio

/-- Mini V2 の値と、`LoadParameters` の選ぶ Ranger の値では、旋回の指令が一致しない。 -/
theorem turn_commands_eq_iff {m m' : Messenger} {msg : Twist} (hm : m.robotType = .kRanger)
    (hp : m.robotParams = rangerParams) (hm' : ¬ m'.Parked) (hp' : m'.robotParams = rangerMiniV2Params)
    (hy : msg.linearY = 0) (hz : 1e-6 ≤ |msg.angularZ|) :
    (twistCmdCallback msg m).2 = (twistCmdCallback msg m').2 ↔
      |msg.linearX| / |msg.angularZ| < 0.4764 ∧ |msg.angularZ| ≤ 0.7853 := by
  have hpark : ¬ m.Parked := by simp [Messenger.Parked, hm]
  set r := |msg.linearX| / |msg.angularZ| with hr
  by_cases hspin : r < 0.810330349
  · have hs : Spins m.robotParams msg := hp ▸ ⟨hz, hspin⟩
    by_cases hspin' : r < 0.4764
    · have hs' : Spins m'.robotParams msg := hp' ▸ ⟨hz, hspin'⟩
      rw [calls_eq_iff hpark hm' (selectMode_spinning hy hs) (selectMode_spinning hy hs'), hp, hp']
      simp only [motionCall, true_and, RobotCall.setMotionCommand.injEq, hspin']
      exact clampAbs_eq_iff (by norm_num [rangerParams]) (by norm_num [rangerParams, rangerMiniV2Params]) _
    · have hs' : ¬ Spins m'.robotParams msg := hp' ▸ fun h => hspin' h.2
      rw [calls_eq_iff hpark hm' (selectMode_spinning hy hs) (selectMode_dualAckerman hy hs')]
      exact iff_of_false (fun h => absurd h.1 (by decide)) (fun h => hspin' h.1)
  · have hs : ¬ Spins m.robotParams msg := hp ▸ fun h => hspin h.2
    have hs' : ¬ Spins m'.robotParams msg := hp' ▸ fun h => hspin (h.2.trans (by norm_num [rangerMiniV2Params]))
    rw [calls_eq_iff hpark hm' (selectMode_dualAckerman hy hs) (selectMode_dualAckerman hy hs'), hp, hp']
    refine iff_of_false (fun h => ?_) (fun h => hspin (h.1.trans (by norm_num)))
    exact dual_steer_ne hz (not_lt.mp hspin) (RobotCall.setMotionCommand.inj h.2).2.1

/-- `LoadParameters` の後の指令が、その車体の種類の値での指令に等しいのは、Mini V2 でないか、横の速度が求められるか、直進か、
どちらの値でも回転になり角速度が Ranger の最大を超えないときであり、そのときに限る。 -/
theorem own_params_iff (t : RangerSubType) (m : Messenger) (msg : Twist) :
    CommandOwn t m msg ↔ OwnChoice t msg := by
  by_cases ht : t = .kRangerMiniV2
  · subst ht
    have hpark : ¬ (loadParameters RangerSubType.kRangerMiniV2.robotModel m).Parked := fun h => by cases h.2
    have hpark' : ¬ { loadParameters RangerSubType.kRangerMiniV2.robotModel m with
        robotType := .kRangerMiniV2, robotParams := rangerMiniV2Params }.Parked := fun h => by cases h.1
    rw [OwnChoice, or_iff_right (not_not.mpr rfl)]
    by_cases hy : msg.linearY = 0
    · rw [or_iff_right (not_not.mpr hy)]
      rcases lt_or_ge |msg.angularZ| 1e-6 with hz | hz
      · have hs : ∀ p, ¬ Spins p msg := fun p h => not_le.mpr hz h.1
        refine iff_of_true ?_ (Or.inl hz)
        refine (calls_eq_iff hpark hpark' (selectMode_dualAckerman hy (hs _))
          (selectMode_dualAckerman hy (hs _))).mpr ⟨rfl, ?_⟩
        simp only [motionCall, calculateSteeringAngle_straight hz]
        rfl
      · rw [or_iff_right (not_lt.mpr hz)]
        exact turn_commands_eq_iff rfl rfl hpark' rfl hy hz
    · refine iff_of_true ?_ (Or.inl hy)
      exact (calls_eq_iff hpark hpark' (selectMode_lateral hy fun h => by cases h.2)
        (selectMode_lateral hy fun h => by cases h.2)).mpr ⟨rfl, rfl⟩
  · refine iff_of_true ?_ (Or.inl ht)
    rw [CommandOwn, loadParameters_own ht]

-- 半径 0.6 の旋回は、Mini V2 の値では四輪の操舵であるが、回転になる。
theorem mini_v2_spins :
    let m : Messenger := { robotType := .kRangerMiniV2, robotParams := rangerMiniV2Params }
    let msg : Twist := ⟨0.6, 0, 1, false, by norm_num⟩
    (selectMode m msg).1 = .dualAckerman ∧
      (selectMode (loadParameters "ranger_mini_v2" m) msg).1 = .spinning ∧
      ¬ CommandOwn .kRangerMiniV2 m msg := by
  intro m msg
  have hz : 1e-6 ≤ |msg.angularZ| := by norm_num [msg]
  have hs : Spins rangerParams msg := ⟨hz, by norm_num [msg, rangerParams]⟩
  have hs' : ¬ Spins rangerMiniV2Params msg := fun h => by norm_num [Spins, msg, rangerMiniV2Params] at h
  refine ⟨?_, ?_, fun h => ?_⟩
  · rw [selectMode_dualAckerman rfl hs']
  · exact congrArg Prod.fst (selectMode_spinning (m := loadParameters "ranger_mini_v2" m) rfl hs)
  · have hpark : ¬ { loadParameters "ranger_mini_v2" m with
        robotType := .kRangerMiniV2, robotParams := rangerMiniV2Params }.Parked := fun h => by cases h.1
    have hown := (turn_commands_eq_iff rfl rfl hpark rfl rfl hz).mp h
    norm_num [msg] at hown

end

end Ranger.Drive
