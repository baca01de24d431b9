import Ranger.Drive.Bus

/-!
# 運動の種類の伝達

指令のフレームの前に、その運動の種類を伝えるフレームがあり、車体がそれを知らせたときに、走行の推定が同じ運動の式を使うことを、
実行の全体について調べる。三つの番号づけのうち、`MotionState.msg` の横行 `3` は、`RangerInterface` では駐車である。
-/

namespace Ranger.Drive
open Ranger.Lib Ranger.Can

/-! ## 性質と条件 -/

/-- 指令のフレームのすぐ前に、運動の種類 `mode` を伝えるフレームがある。伝える番号を車体が知らせると、走行の推定は `mode` の
式を使う。 -/
def Announced (mode : MotionMode) (frames : List CanFrame) : Prop :=
  ∀ i f, frames[i]? = some f → f.canId = CanMsg.motionCommandId →
    ∃ j g, i = j + 1 ∧ frames[j]? = some g ∧ g.canId = CanMsg.setMotionModeId ∧
      odometryMode (g.data 0) = some mode

/-- Mini V1 のほかの車体が、駐車を知らせている。Mini V1 に駐車はなく、`3` は横行である。 -/
def Robot.Parked (r : Robot) : Prop :=
  r.variant ≠ .kRangerMiniV1 ∧ r.reportedMode = SdkMotionMode.kPark.code

/-- 指令は、運動の種類を伝えてから送られ、駐車中の車体の位置は進まない。 -/
def ModesAgree (s : System) (e : Event) (t : System) : Prop :=
  match e with
  | .twist msg => Announced (selectMode s.messenger msg).1 (s.sent msg)
  | .publish _ _ => s.robot.Parked → t.messenger.pose = s.messenger.pose
  | .receive _ => True

/-- Mini V1 に真横の速度が求められず、駐車中の車体は、速度 0 を知らせるか、経過の時間が 0 である。 -/
def ModesClear (s : System) (e : Event) (_ : System) : Prop :=
  match e with
  | .twist msg => ¬ (s.messenger.robotType = .kRangerMiniV1 ∧ msg.linearX = 0 ∧ msg.linearY ≠ 0)
  | .publish dt _ => s.robot.Parked →
      s.messenger.initRun = true ∨ s.robot.base.coreStateMsgs.motionState.linearVelocity = 0 ∨ dt = 0
  | .receive _ => True

/-- CAN は開いていて、車体の種類は、パラメータの種類である。 -/
structure System.Connected (s : System) : Prop where
  canOpen : s.robot.canOpen = true
  variant : s.robot.variant = s.messenger.robotType.variant

/-! ## 送るフレーム -/

theorem odometryMode_code (mode : MotionMode) : odometryMode mode.code = some mode := by
  cases mode <;> rfl

theorem motionCall_command (p : RobotParams) (last : ℝ) (msg : Twist) (mode : MotionMode) (steer : ℝ) :
    ∃ l a z, motionCall p last msg mode steer = .setMotionCommand l a z := by
  cases mode <;> exact ⟨_, _, _, rfl⟩

theorem announced_pair {mode : MotionMode} (c : MotionCommand) :
    Announced mode [motionModeFrame mode.code, motionCommandFrame c] := by
  intro i f hf hid
  match i with
  | 0 =>
      cases hf
      cases hid
  | 1 => exact ⟨0, _, rfl, rfl, rfl, odometryMode_code mode⟩
  | i + 2 => cases hf

theorem not_announced_single (mode : MotionMode) (c : MotionCommand) :
    ¬ Announced mode [motionCommandFrame c] := by
  intro h
  obtain ⟨j, _, hj, _⟩ := h 0 _ rfl rfl
  cases hj

/-- Mini V1 の横行のほかでは、番号をそのまま送る。Mini V1 は、横行の番号 `3` を駐車と読み、何も送らない。 -/
theorem modeByte_code {r : Robot} {mode : MotionMode}
    (h : ¬ (r.variant = .kRangerMiniV1 ∧ mode = .sideSlip)) : r.modeByte mode.code = some mode.code := by
  unfold Robot.modeByte
  cases hv : r.variant with
  | kRangerMiniV1 =>
      cases mode with
      | sideSlip => exact absurd ⟨hv, rfl⟩ h
      | _ => rfl
  | _ => rfl

theorem modeByte_sideSlip {r : Robot} (h : r.variant = .kRangerMiniV1) :
    r.modeByte MotionMode.sideSlip.code = none := by
  simp only [Robot.modeByte, h]
  rfl

theorem System.sent_run {s : System} {msg : Twist} (hopen : s.robot.canOpen = true)
    (hpark : ¬ s.messenger.Parked) :
    ∃ c, s.sent msg = ((s.robot.modeByte (selectMode s.messenger msg).1.code).toList.map motionModeFrame) ++
      [motionCommandFrame c] := by
  obtain ⟨⟨mode, steer⟩, hsel⟩ : ∃ sel, selectMode s.messenger msg = sel := ⟨_, rfl⟩
  obtain ⟨l, a, z, hcall⟩ := motionCall_command s.messenger.robotParams
    (s.messenger.nextNonzeroX msg mode) msg mode steer
  refine ⟨s.robot.motionCommand l a z, ?_⟩
  rw [System.sent, twistCmdCallback_run hpark hsel, hsel, hcall]
  simp [Robot.frames, hopen]

theorem selectMode_sideSlip_iff (m : Messenger) (msg : Twist) :
    (selectMode m msg).1 = .sideSlip ↔ m.robotType = .kRangerMiniV1 ∧ msg.linearX = 0 ∧ msg.linearY ≠ 0 := by
  by_cases hy : msg.linearY = 0
  · refine iff_of_false (fun h => ?_) (fun h => h.2.2 hy)
    by_cases hs : Spins m.robotParams msg
    · rw [selectMode_spinning hy hs] at h
      cases h
    · rw [selectMode_dualAckerman hy hs] at h
      cases h
  · by_cases hv : msg.linearX = 0 ∧ m.robotType = .kRangerMiniV1
    · rw [selectMode_sideSlip hy hv.1 hv.2]
      exact iff_of_true rfl ⟨hv.2, hv.1, hy⟩
    · rw [selectMode_lateral hy hv]
      exact iff_of_false (fun h => by cases h) (fun h => hv ⟨h.2.1, h.1⟩)

theorem announced_iff {s : System} (hs : s.Connected) (msg : Twist) :
    Announced (selectMode s.messenger msg).1 (s.sent msg) ↔
      ¬ (s.messenger.robotType = .kRangerMiniV1 ∧ msg.linearX = 0 ∧ msg.linearY ≠ 0) := by
  by_cases hpark : s.messenger.Parked
  · have hsent : s.sent msg = [] := by rw [System.sent, twistCmdCallback_parked hpark]; rfl
    rw [hsent]
    refine iff_of_true (fun i f hf => by simp at hf) (fun h => ?_)
    rw [hpark.2] at h
    cases h.1
  · obtain ⟨c, hsent⟩ := s.sent_run hs.canOpen hpark
    rw [hsent, ← selectMode_sideSlip_iff]
    by_cases hslip : (selectMode s.messenger msg).1 = .sideSlip
    · have hv1 : s.robot.variant = .kRangerMiniV1 := by
        rw [hs.variant, variant_miniV1]
        exact ((selectMode_sideSlip_iff _ _).mp hslip).1
      rw [hslip, modeByte_sideSlip hv1]
      exact iff_of_false (not_announced_single _ c) (not_not.mpr rfl)
    · rw [modeByte_code (fun h => hslip h.2)]
      exact iff_of_true (announced_pair c) hslip

/-! ## 駐車 -/

theorem Robot.Parked.motionState {r : Robot} (h : r.Parked) (stack : ℚ) :
    r.motionState stack = r.base.coreStateMsgs.motionState := by
  unfold Robot.motionState
  cases hv : r.variant with
  | kRangerMiniV1 => exact absurd hv h.1
  | _ => rfl

theorem publish_parked {s : System} (h : s.robot.Parked) (integrate : Integrator) (dt : ℝ) (stack : ℚ) :
    (s.publish integrate dt stack).pose = s.messenger.pose ↔
      s.messenger.initRun = true ∨ s.robot.base.coreStateMsgs.motionState.linearVelocity = 0 ∨ dt = 0 := by
  by_cases hinit : s.messenger.initRun = true
  · simp [System.publish, hinit]
  · rw [or_iff_right hinit]
    have hmode : odometryMode s.robot.reportedMode = some .sideSlip := by rw [h.2]; rfl
    generalize hv : s.robot.base.coreStateMsgs.motionState.linearVelocity = v
    have hpose : (s.publish integrate dt stack).pose =
        { s.messenger.pose with
          x := s.messenger.pose.x + -v * Real.sin s.messenger.pose.theta * dt
          y := s.messenger.pose.y + v * Real.cos s.messenger.pose.theta * dt } := by
      rw [System.publish, if_neg hinit, h.motionState stack]
      simp only [updateOdometry, hmode, advancePose, hv]
    rw [hpose]
    constructor
    · intro heq
      have hx := congrArg Pose.x heq
      have hy := congrArg Pose.y heq
      simp only at hx hy
      have hsq := Real.cos_sq_add_sin_sq s.messenger.pose.theta
      have hzero : (v : ℝ) * dt = 0 := by
        linear_combination Real.cos s.messenger.pose.theta * hy - Real.sin s.messenger.pose.theta * hx -
          v * dt * hsq
      exact (mul_eq_zero.mp hzero).imp (fun hv => by exact_mod_cast hv) id
    · rintro (rfl | rfl) <;> simp

/-! ## 実行の全体 -/

theorem System.Connected.step {integrate : Integrator} {s t : System} {e : Event} (hs : s.Connected)
    (hst : s.step integrate e = some t) : t.Connected := by
  cases e with
  | twist msg =>
      cases hst
      refine ⟨hs.canOpen, hs.variant.trans ?_⟩
      by_cases hpark : s.messenger.Parked
      · rw [twistCmdCallback_parked hpark]
      · rw [twistCmdCallback_run hpark (Prod.eta (selectMode s.messenger msg)).symm]
  | publish dt stack =>
      cases hst
      refine ⟨hs.canOpen, hs.variant.trans ?_⟩
      simp only [System.publish]
      split_ifs <;> rfl
  | receive rx =>
      obtain ⟨base, _, rfl⟩ := Option.map_eq_some_iff.mp hst
      exact ⟨hs.canOpen, hs.variant⟩

/-- 指令がいつも運動の種類を伝えてから送られ、駐車中の車体の位置が進まないのは、Mini V1 に真横の速度が求められず、駐車中の車体が
速度 0 を知らせるか経過の時間が 0 である実行であり、そのときに限る。 -/
theorem modes_agree_iff (integrate : Integrator) {s : System} (hs : s.Connected) (es : List Event) :
    Always (System.step integrate) ModesAgree s es ↔ Always (System.step integrate) ModesClear s es := by
  refine Always.iff_of_inv (fun s e t hi hst _ => System.Connected.step hi hst) ?_ hs
  intro s e t hi hst
  cases e with
  | twist msg => exact announced_iff hi msg
  | publish dt stack =>
      cases hst
      exact forall_congr' fun hpark => publish_parked hpark integrate dt stack
  | receive rx => exact Iff.rfl

-- 前進を二度求める実行。
theorem modes_agree_forward :
    let m : Messenger := { robotType := .kRanger, robotParams := rangerParams }
    let s : System := { messenger := m, robot := { variant := .kRanger, canOpen := true, base := default } }
    let forward : Twist := ⟨1, 0, 0, false, by norm_num⟩
    s.Connected ∧ Always (System.step fun _ x _ _ _ => x) ModesAgree s
      [.twist forward, .publish 0.02 0, .twist forward] := by
  intro m s forward
  have hs : s.Connected := ⟨rfl, rfl⟩
  have hforward : ∀ t : System, ModesClear t (.twist forward) t := by
    rintro t ⟨_, hx, _⟩
    exact one_ne_zero hx
  refine ⟨hs, (modes_agree_iff _ hs _).mpr fun s₁ h₁ => ⟨hforward s, fun s₂ h₂ => ⟨?_, fun s₃ _ => ⟨hforward s₂, ?_⟩⟩⟩⟩
  · cases h₁
    exact fun hpark => by cases hpark.2
  · exact trivial

-- Mini V1 に真横の速度を求めると、運動の種類を伝えるフレームが送られない。駐車中の車体の位置も進む。
theorem side_slip_unannounced :
    let sideways : Twist := ⟨0, 1, 0, false, by norm_num⟩
    let miniV1 : System :=
      { messenger := { robotType := .kRangerMiniV1, robotParams := rangerMiniV1Params }
        robot := { variant := .kRangerMiniV1, canOpen := true, base := default } }
    (miniV1.Connected ∧ (∃ c, miniV1.sent sideways = [motionCommandFrame c]) ∧
      ¬ Always (System.step fun _ x _ _ _ => x) ModesAgree miniV1 [.twist sideways]) ∧
    let core : CoreStateMsgGroup :=
      { (default : CoreStateMsgGroup) with
        motionState := ⟨1, 0, 0, 0⟩, motionModeState := ⟨SdkMotionMode.kPark.code, 0⟩ }
    let parked : System :=
      { messenger := { robotType := .kRanger, robotParams := rangerParams, initRun := false }
        robot := { variant := .kRanger, canOpen := true, base := { (default : AgilexBase) with coreStateMsgs := core } } }
    parked.Connected ∧
      ¬ Always (System.step fun _ x _ _ _ => x) ModesAgree parked [.publish 1 0] := by
  intro sideways miniV1
  have hs : miniV1.Connected := ⟨rfl, rfl⟩
  have hslip : selectMode miniV1.messenger sideways = (.sideSlip, 0) := selectMode_sideSlip one_ne_zero rfl rfl
  refine ⟨⟨hs, ?_, fun h => ?_⟩, ?_⟩
  · have hpark : ¬ miniV1.messenger.Parked := fun h => by cases h.1
    obtain ⟨c, hc⟩ := miniV1.sent_run hs.canOpen hpark
    refine ⟨c, hc.trans ?_⟩
    rw [hslip, modeByte_sideSlip rfl]
    rfl
  · exact (announced_iff hs sideways).mp (h _ rfl).1 ⟨rfl, rfl, one_ne_zero⟩
  · intro core parked
    have hparked : parked.robot.Parked := ⟨(fun h => by cases h), rfl⟩
    refine ⟨⟨rfl, rfl⟩, fun h => ?_⟩
    rcases (publish_parked hparked _ 1 0).mp ((h _ rfl).1 hparked) with h | h | h
    · cases h
    · exact one_ne_zero h
    · exact one_ne_zero h

end Ranger.Drive
