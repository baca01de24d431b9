import Ranger.Drive.Odometry
import Ranger.Lib.Loop
import Ranger.Lib.Run

/-!
# 周期ごとの積分（`PublishStateToROS`）

時計の読みから経過の時間を求め、`UpdateOdometry` を呼ぶ周期の列を調べる。`boost` の `integrate_const` は、説明にあるとおり、刻みの
先の時刻が終わりを過ぎない限り一歩を進める。刻みは経過の時間の十分の一なので、読みが変わらないときは、刻みが 0 になって終わらない。
-/

namespace Ranger.Drive
open Ranger.Lib

noncomputable section

/-! ## `boost` の積分 -/

/-- 微分 `r` のまま、時間 `h` だけ動いた状態。 -/
def Pose.move (x : Pose) (r : Rate) (h : ℝ) : Pose :=
  ⟨x.x + h * r.dx, x.y + h * r.dy, x.theta + h * r.dtheta⟩

/-- `runge_kutta4` の一歩。 -/
def rungeKutta4 (rate : Pose → Rate) (x : Pose) (h : ℝ) : Pose :=
  let k1 := rate x
  let k2 := rate (x.move k1 (h / 2.0))
  let k3 := rate (x.move k2 (h / 2.0))
  let k4 := rate (x.move k3 h)
  x.move
    ⟨(k1.dx + 2.0 * k2.dx + 2.0 * k3.dx + k4.dx) / 6.0, (k1.dy + 2.0 * k2.dy + 2.0 * k3.dy + k4.dy) / 6.0,
      (k1.dtheta + 2.0 * k2.dtheta + 2.0 * k3.dtheta + k4.dtheta) / 6.0⟩ h

/-- 刻み `h` の向きに見て、時刻 `t` は終わり `t1` を過ぎていない。 -/
def NotPast (t t1 h : ℝ) : Prop := if 0 < h then t ≤ t1 else t1 ≤ t

/-- 時刻 `t0` から `t1` まで、刻み `h` の一歩 `doStep` を繰り返す。歩数と終わりの状態を返し、終わらないとき `none`。 -/
def fixedSteps (doStep : Pose → Pose) (x : Pose) (t0 t1 h : ℝ) : Option (ℕ × Pose) :=
  whileLoop (fun s => NotPast (t0 + s.1 * h + h) t1 h) (fun s => (s.1 + 1, doStep s.2)) (0, x)

/-- `boost` の `integrate_const` と、その説明にある振る舞い。歩数と終わりの状態を返し、戻らないとき `none`。 -/
structure Odeint where
  integrateConst : (Pose → Rate) → Pose → ℝ → ℝ → ℝ → Option (ℕ × Pose)
  integrateConst_eq : ∀ rate x t0 t1 h,
    integrateConst rate x t0 t1 h = fixedSteps (fun x => rungeKutta4 rate x h) x t0 t1 h

/-- 説明にある繰り返しそのもの。 -/
def Odeint.documented : Odeint where
  integrateConst rate x t0 t1 h := fixedSteps (fun x => rungeKutta4 rate x h) x t0 t1 h
  integrateConst_eq _ _ _ _ _ := rfl

def Odeint.integrator (o : Odeint) : Integrator := fun rate x t0 t1 h =>
  ((o.integrateConst rate x t0 t1 h).map Prod.snd).getD x

/-! ## 歩数 -/

theorem fixedSteps_iterate (doStep : Pose → Pose) (x : Pose) (n : ℕ) :
    (fun s : ℕ × Pose => (s.1 + 1, doStep s.2))^[n] (0, x) = (n, doStep^[n] x) := by
  induction n with
  | zero => rfl
  | succ n ih => rw [Function.iterate_succ_apply', ih, Function.iterate_succ_apply']

/-- 刻みが 0 でなければ、刻みの向きによらず、十歩の手前までは終わりを過ぎない。 -/
theorem notPast_tenth_iff {dt : ℝ} (hdt : dt ≠ 0) (k : ℕ) :
    NotPast (0 + k * (dt / 10.0) + dt / 10.0) dt (dt / 10.0) ↔ k < 10 := by
  have hten : (10.0 : ℝ) = 10 := by norm_num
  have htime : 0 + k * (dt / 10.0) + dt / 10.0 - dt = ((k : ℝ) - 9) * (dt / 10.0) := by
    rw [hten]
    ring
  have hcast : (k : ℝ) - 9 ≤ 0 ↔ k < 10 := by
    rw [sub_nonpos, Nat.lt_succ_iff]
    exact_mod_cast Iff.rfl
  rw [NotPast, ← sub_nonpos, ← sub_nonneg (b := dt), htime, ← hcast]
  rcases lt_or_gt_of_ne hdt with hneg | hpos
  · have hstep : dt / 10.0 < 0 := div_neg_of_neg_of_pos hneg (by norm_num)
    rw [if_neg (not_lt.mpr hstep.le)]
    exact ⟨fun h => nonpos_of_mul_nonneg_left h hstep, fun h => mul_nonneg_of_nonpos_of_nonpos h hstep.le⟩
  · have hstep : 0 < dt / 10.0 := div_pos hpos (by norm_num)
    rw [if_pos hstep]
    exact ⟨fun h => nonpos_of_mul_nonpos_left h hstep, fun h => mul_nonpos_of_nonpos_of_nonneg h hstep.le⟩

theorem fixedSteps_tenth {dt : ℝ} (hdt : dt ≠ 0) (doStep : Pose → Pose) (x : Pose) :
    fixedSteps doStep x 0 dt (dt / 10.0) = some (10, doStep^[10] x) := by
  rw [← fixedSteps_iterate]
  refine whileLoop_eq_some (fun k hk => ?_) ?_
  · rw [fixedSteps_iterate]
    exact (notPast_tenth_iff hdt k).mpr hk
  · rw [fixedSteps_iterate]
    exact fun h => absurd ((notPast_tenth_iff hdt 10).mp h) (lt_irrefl 10)

/-- 経過の時間が 0 のとき、刻みも 0 であり、時刻が進まないので終わらない。 -/
theorem fixedSteps_zero (doStep : Pose → Pose) (x : Pose) : fixedSteps doStep x 0 0 (0 / 10.0) = none := by
  refine whileLoop_eq_none fun n => ?_
  simp [fixedSteps_iterate, NotPast]

/-! ## 微分の変わらない運動 -/

/-- `x` から微分のまま動く間、微分が変わらない。 -/
def Straight (rate : Pose → Rate) (x : Pose) : Prop := ∀ h, rate (x.move (rate x) h) = rate x

theorem Pose.move_move (x : Pose) (r : Rate) (h h' : ℝ) : (x.move r h).move r h' = x.move r (h + h') := by
  simp only [Pose.move, Pose.mk.injEq]
  refine ⟨?_, ?_, ?_⟩ <;> ring

theorem Straight.rungeKutta4 {rate : Pose → Rate} {x : Pose} (hx : Straight rate x) (h : ℝ) :
    rungeKutta4 rate x h = x.move (rate x) h := by
  have hmean : ∀ k : ℝ, (k + 2.0 * k + 2.0 * k + k) / 6.0 = k := fun k => by
    norm_num
    ring
  simp only [Drive.rungeKutta4, hx _, hmean]

theorem Straight.iterate {rate : Pose → Rate} {x : Pose} (hx : Straight rate x) (h : ℝ) (n : ℕ) :
    (fun x => Drive.rungeKutta4 rate x h)^[n] x = x.move (rate x) (n * h) := by
  induction n with
  | zero => simp [Pose.move]
  | succ n ih =>
      have hn : Straight rate (x.move (rate x) (n * h)) := by
        intro h'
        rw [hx, Pose.move_move, hx]
      rw [Function.iterate_succ_apply', ih, hn.rungeKutta4, hx, Pose.move_move]
      congr 1
      push_cast
      ring

/-! ## 周期 -/

/-- 車体の知らせる状態。`motionMode` のほかは `motion_state` の欄である。 -/
structure Feedback where
  motionMode : UInt8
  linear : ℝ
  lateral : ℝ
  angular : ℝ
  angle : ℝ

/-- 一つの周期で読む時計（ナノ秒）と、車体の状態。 -/
structure Reading where
  now : ℤ
  feedback : Feedback

structure Ticking where
  messenger : Messenger
  lastTime : ℤ

/-- 二つの時計の読みの間の秒数。 -/
def seconds (now last : ℤ) : ℝ := (now - last : ℤ) / 1000000000.0

/-- `UpdateOdometry` が進める時間。横行は一歩で進み、番号がどの運動でもないときは進めない。`integrate_const` が戻らないとき
`none`。 -/
def integratedTime (o : Odeint) (f : Feedback) (dt : ℝ) (m : Messenger) : Option ℝ :=
  match odometryMode f.motionMode with
  | none => some 0
  | some .sideSlip => some dt
  | some mode =>
      (o.integrateConst (odometryRate m.robotParams mode f.linear f.angular f.angle) m.pose 0 dt (dt / 10.0)).map
        fun r => r.1 * (dt / 10.0)

/-- `PublishStateToROS` の、時計と走行の推定に関わる部分。`UpdateOdometry` が戻らないとき `none`。 -/
def publishStateToROS (o : Odeint) (s : Ticking) (e : Reading) : Option Ticking :=
  if s.messenger.initRun then some ⟨{ s.messenger with initRun := false }, e.now⟩
  else
    let f := e.feedback
    let m := { s.messenger with motionMode := f.motionMode }
    let dt := seconds e.now s.lastTime
    (integratedTime o f dt m).map fun _ =>
      ⟨(updateOdometry o.integrator f.linear f.lateral f.angular f.angle dt m).1, e.now⟩

def Ticking.start (m : Messenger) : Ticking := ⟨{ m with initRun := true }, 0⟩

/-! ## 性質と条件 -/

/-- 知らせる運動の位置は、`integrate_const` で進む。 -/
def Feedback.UsesIntegrateConst (f : Feedback) : Prop :=
  ∃ mode, odometryMode f.motionMode = some mode ∧ mode ≠ .sideSlip

/-- `UpdateOdometry` は、どの運動でも、経過の時間だけ進める。最初の周期では呼ばれない。 -/
def Exact (o : Odeint) (s : Ticking) (e : Reading) (_ : Ticking) : Prop :=
  s.messenger.initRun = false → ∀ mode, odometryMode e.feedback.motionMode = some mode →
    integratedTime o e.feedback (seconds e.now s.lastTime) s.messenger = some (seconds e.now s.lastTime)

/-- 続く周期の時計の読みは、その周期で `integrate_const` を使うとき、前の読みと異なる。 -/
def Moves (a b : Reading) : Prop := b.feedback.UsesIntegrateConst → a.now ≠ b.now

/-- 時計の読みの列に、同じ状態を知らせる周期の列。 -/
def Feedback.ticks (f : Feedback) (ts : List ℤ) : List Reading := ts.map fun t => ⟨t, f⟩

/-! ## 一つの周期 -/

theorem seconds_eq_zero_iff (now last : ℤ) : seconds now last = 0 ↔ last = now := by
  have hnano : (1000000000.0 : ℝ) ≠ 0 := by norm_num
  rw [seconds, div_eq_zero_iff, or_iff_left hnano, Int.cast_eq_zero, sub_eq_zero, eq_comm]

theorem ten_steps (dt : ℝ) : (10 : ℕ) * (dt / 10.0) = dt := by
  norm_num
  ring

theorem integrateConst_tenth (o : Odeint) (rate : Pose → Rate) (x : Pose) (dt : ℝ) :
    o.integrateConst rate x 0 dt (dt / 10.0) =
      if dt = 0 then none else some (10, (fun x => rungeKutta4 rate x (dt / 10.0))^[10] x) := by
  rw [o.integrateConst_eq]
  split_ifs with hdt
  · rw [hdt, fixedSteps_zero]
  · rw [fixedSteps_tenth hdt]

/-- `integrate_const` を使う運動では、経過の時間が 0 のときに限り、`UpdateOdometry` が戻らない。戻れば、経過の時間だけ進む。 -/
theorem integratedTime_of_uses (o : Odeint) {f : Feedback} (hf : f.UsesIntegrateConst) (dt : ℝ) (m : Messenger) :
    integratedTime o f dt m = if dt = 0 then none else some dt := by
  obtain ⟨mode, hmode, hslip⟩ := hf
  unfold integratedTime
  cases mode with
  | sideSlip => exact absurd rfl hslip
  | _ =>
      simp only [hmode, integrateConst_tenth]
      split_ifs
      · rfl
      · exact congrArg some (ten_steps dt)

theorem integratedTime_of_not_uses (o : Odeint) {f : Feedback} (hf : ¬ f.UsesIntegrateConst) (dt : ℝ) (m : Messenger) :
    integratedTime o f dt m = some (if odometryMode f.motionMode = none then 0 else dt) := by
  unfold integratedTime
  cases hmode : odometryMode f.motionMode with
  | none => rfl
  | some mode =>
      by_cases hslip : mode = .sideSlip
      · subst hslip
        rfl
      · exact absurd ⟨mode, hmode, hslip⟩ hf

theorem integratedTime_isSome_iff (o : Odeint) (f : Feedback) (dt : ℝ) (m : Messenger) :
    (integratedTime o f dt m).isSome ↔ (f.UsesIntegrateConst → dt ≠ 0) := by
  by_cases hf : f.UsesIntegrateConst
  · rw [integratedTime_of_uses o hf]
    split_ifs with hdt <;> simp [hf, hdt]
  · simp [integratedTime_of_not_uses o hf, hf]

/-! ## 周期の列 -/

theorem publishStateToROS_start (o : Odeint) (m : Messenger) (e : Reading) :
    publishStateToROS o (.start m) e = some ⟨{ m with initRun := false }, e.now⟩ := rfl

theorem publish_returns_iff (o : Odeint) {s : Ticking} (hs : s.messenger.initRun = false) (e : Reading) :
    (∃ t, publishStateToROS o s e = some t) ↔ (e.feedback.UsesIntegrateConst → s.lastTime ≠ e.now) := by
  rw [← Option.isSome_iff_exists, publishStateToROS, if_neg (by simp [hs]), Option.isSome_map,
    integratedTime_isSome_iff, Ne, seconds_eq_zero_iff]

/-- 戻った周期では、時刻が記録され、経過の時間だけ進んでいる。 -/
theorem publish_some {o : Odeint} {s t : Ticking} {e : Reading} (h : publishStateToROS o s e = some t) :
    t.messenger.initRun = false ∧ t.lastTime = e.now ∧ Exact o s e t := by
  unfold publishStateToROS at h
  split_ifs at h with hinit
  · cases h
    exact ⟨rfl, rfl, fun hfalse => absurd hinit (by simp [hfalse])⟩
  · obtain ⟨dt, hdt, rfl⟩ := Option.map_eq_some_iff.mp h
    refine ⟨Bool.eq_false_iff.mpr hinit, rfl, fun _ mode hmode => ?_⟩
    by_cases hf : e.feedback.UsesIntegrateConst
    · rw [integratedTime_of_uses o hf] at hdt ⊢
      split_ifs at hdt ⊢ with hzero
      rfl
    · rw [integratedTime_of_not_uses o hf, if_neg (by simp [hmode])]

theorem runs_returns_iff (o : Odeint) {s : Ticking} {a : Reading} (hs : s.messenger.initRun = false)
    (ha : s.lastTime = a.now) (es : List Reading) :
    (∃ t, runs (publishStateToROS o) s es = some t) ↔ (a :: es).IsChain Moves := by
  induction es generalizing s a with
  | nil => exact iff_of_true ⟨s, rfl⟩ (List.isChain_singleton a)
  | cons e es ih =>
      rw [List.isChain_cons_cons, Moves, ← ha, ← publish_returns_iff o hs]
      constructor
      · rintro ⟨t, ht⟩
        obtain ⟨u, hu, hrest⟩ := runs_cons_some ht
        obtain ⟨hinit, hlast, _⟩ := publish_some hu
        exact ⟨⟨u, hu⟩, (ih hinit hlast).mp ⟨t, hrest⟩⟩
      · rintro ⟨⟨u, hu⟩, hchain⟩
        obtain ⟨hinit, hlast, _⟩ := publish_some hu
        rw [runs_cons hu]
        exact (ih hinit hlast).mpr hchain

theorem start_returns_iff (o : Odeint) (m : Messenger) (es : List Reading) :
    (∃ t, runs (publishStateToROS o) (.start m) es = some t) ↔ es.IsChain Moves := by
  cases es with
  | nil => exact iff_of_true ⟨_, rfl⟩ List.isChain_nil
  | cons e es =>
      rw [runs_cons (publishStateToROS_start o m e)]
      exact runs_returns_iff o rfl rfl es

/-! ## 区間の分割 -/

theorem odometryRate_straight {mode : MotionMode} (hmode : mode = .parallel ∨ mode = .spinning) (p : RobotParams)
    (linear angular angle : ℝ) (x : Pose) : Straight (odometryRate p mode linear angular angle) x := by
  intro h
  rcases hmode with rfl | rfl
  · simp [odometryRate, parallelModel, Pose.move]
  · rfl

/-- 状態 `f` を知らせる一つの周期で、時刻 `now` まで進んだ状態。 -/
def Ticking.coast (s : Ticking) (f : Feedback) (mode : MotionMode) (now : ℤ) : Ticking :=
  let m := s.messenger
  let rate := odometryRate m.robotParams mode f.linear f.angular f.angle
  ⟨{ m with motionMode := f.motionMode, pose := m.pose.move (rate m.pose) (seconds now s.lastTime) }, now⟩

section Coast

variable {f : Feedback} {mode : MotionMode}

theorem Ticking.coast_coast (hmode : mode = .parallel ∨ mode = .spinning) (s : Ticking) (t t' : ℤ) :
    (s.coast f mode t).coast f mode t' = s.coast f mode t' := by
  have hadd : seconds t s.lastTime + seconds t' t = seconds t' s.lastTime := by
    rw [seconds, seconds, seconds, ← add_div, ← Int.cast_add, add_comm, sub_add_sub_cancel]
  simp only [Ticking.coast, odometryRate_straight hmode _ _ _ _ _ _, Pose.move_move, hadd]

theorem uses_of_straight (hcode : odometryMode f.motionMode = some mode)
    (hmode : mode = .parallel ∨ mode = .spinning) : f.UsesIntegrateConst :=
  ⟨mode, hcode, by rcases hmode with rfl | rfl <;> simp⟩

theorem publish_coast (o : Odeint) (hcode : odometryMode f.motionMode = some mode)
    (hmode : mode = .parallel ∨ mode = .spinning) {s : Ticking} (hs : s.messenger.initRun = false) {now : ℤ}
    (hnow : s.lastTime ≠ now) : publishStateToROS o s ⟨now, f⟩ = some (s.coast f mode now) := by
  have hslip : mode ≠ .sideSlip := by rcases hmode with rfl | rfl <;> simp
  have hdt : seconds now s.lastTime ≠ 0 := fun h => hnow ((seconds_eq_zero_iff _ _).mp h)
  have hpose := (odometryRate_straight hmode s.messenger.robotParams f.linear f.angular f.angle
    s.messenger.pose).iterate (seconds now s.lastTime / 10.0) 10
  rw [ten_steps] at hpose
  simp only [publishStateToROS, hs, integratedTime_of_uses o (uses_of_straight hcode hmode), hdt, updateOdometry, hcode,
    advancePose_eq, advance, hslip, Odeint.integrator, integrateConst_tenth, if_false, Option.map_some,
    Option.getD_some, hpose, Ticking.coast]
  rfl

theorem runs_coast (o : Odeint) (hcode : odometryMode f.motionMode = some mode)
    (hmode : mode = .parallel ∨ mode = .spinning) {s : Ticking} (hs : s.messenger.initRun = false) {ts : List ℤ}
    {tn : ℤ} (hts : (s.lastTime :: (ts ++ [tn])).IsChain (· ≠ ·)) :
    runs (publishStateToROS o) s (f.ticks (ts ++ [tn])) = some (s.coast f mode tn) := by
  induction ts generalizing s with
  | nil =>
      obtain ⟨hne, _⟩ := List.isChain_cons_cons.mp hts
      exact runs_cons (publish_coast o hcode hmode hs hne)
  | cons t ts ih =>
      obtain ⟨hne, hrest⟩ := List.isChain_cons_cons.mp hts
      have hnext := ih (s := s.coast f mode t) hs hrest
      rw [Ticking.coast_coast hmode] at hnext
      exact (runs_cons (publish_coast o hcode hmode hs hne)).trans hnext

end Coast

theorem ticks_isChain_iff {f : Feedback} (hf : f.UsesIntegrateConst) (ts : List ℤ) :
    (f.ticks ts).IsChain Moves ↔ ts.IsChain (· ≠ ·) := by
  rw [Feedback.ticks, List.isChain_map]
  simp only [Moves, hf, true_implies]

/-- どの周期も戻り、どの運動でも経過の時間だけ進むのは、`integrate_const` を使う周期の時計の読みが、前の読みと異なる列であり、
そのときに限る。同じ状態を知らせる平行移動と旋回では、区間を分けた周期の列と一つの周期がともに戻って同じ位置になるのも、同じ
条件のときに限る。 -/
theorem ticks_exact_iff (o : Odeint) (m : Messenger) :
    (∀ es : List Reading,
      ((∃ t, runs (publishStateToROS o) (.start m) es = some t) ∧
        Always (publishStateToROS o) (Exact o) (.start m) es) ↔ es.IsChain Moves) ∧
    ∀ f : Feedback, odometryMode f.motionMode = some .parallel ∨ odometryMode f.motionMode = some .spinning →
      ∀ (t0 : ℤ) (ts : List ℤ) (tn : ℤ),
        (∃ t u, runs (publishStateToROS o) (.start m) (f.ticks (t0 :: (ts ++ [tn]))) = some t ∧
          runs (publishStateToROS o) (.start m) (f.ticks [t0, tn]) = some u ∧
          t.messenger.pose = u.messenger.pose) ↔
        (t0 :: (ts ++ [tn])).IsChain (· ≠ ·) ∧ t0 ≠ tn := by
  refine ⟨fun es => ?_, fun f hf t0 ts tn => ?_⟩
  · rw [← start_returns_iff o m es]
    exact and_iff_left (Always.of_step fun s e t h => (publish_some h).2.2)
  · obtain ⟨mode, hcode, hmode⟩ :
        ∃ mode, odometryMode f.motionMode = some mode ∧ (mode = .parallel ∨ mode = .spinning) := by
      rcases hf with hf | hf
      · exact ⟨_, hf, Or.inl rfl⟩
      · exact ⟨_, hf, Or.inr rfl⟩
    have huses := uses_of_straight hcode hmode
    constructor
    · rintro ⟨t, u, ht, hu, _⟩
      have hsplit := (ticks_isChain_iff huses _).mp ((start_returns_iff o m _).mp ⟨t, ht⟩)
      have hone := (ticks_isChain_iff huses _).mp ((start_returns_iff o m _).mp ⟨u, hu⟩)
      exact ⟨hsplit, (List.isChain_cons_cons.mp hone).1⟩
    · rintro ⟨hsplit, hone⟩
      let s : Ticking := ⟨{ m with initRun := false }, t0⟩
      refine ⟨s.coast f mode tn, s.coast f mode tn, ?_, ?_, rfl⟩
      · exact (runs_cons (publishStateToROS_start o m ⟨t0, f⟩)).trans (runs_coast o hcode hmode rfl hsplit)
      · have hpair : (s.lastTime :: ([] ++ [tn])).IsChain (· ≠ ·) :=
          List.isChain_cons_cons.mpr ⟨hone, List.isChain_singleton tn⟩
        exact (runs_cons (publishStateToROS_start o m ⟨t0, f⟩)).trans (runs_coast o hcode hmode rfl hpair)

-- Mini V3 が旋回を知らせる三つの周期
theorem ticks_exact_iff_spinning :
    let o := Odeint.documented
    let m : Messenger := { robotType := .kRangerMiniV3, robotParams := rangerMiniV3Params }
    let f : Feedback := ⟨MotionMode.spinning.code, 0, 0, 0.5, 0⟩
    ∃ t u, runs (publishStateToROS o) (.start m) (f.ticks [0, 20000000, 40000000]) = some t ∧
      runs (publishStateToROS o) (.start m) (f.ticks [0, 40000000]) = some u ∧
      t.messenger.pose = u.messenger.pose := by
  intro o m f
  exact ((ticks_exact_iff o m).2 f (Or.inr rfl) 0 [20000000] 40000000).mpr ⟨by decide, by decide⟩

-- 時計の読みが変わらない周期は、旋回で戻らない
theorem equal_readings_never_return :
    let m : Messenger := { robotType := .kRangerMiniV3, robotParams := rangerMiniV3Params }
    let f : Feedback := ⟨MotionMode.spinning.code, 0, 0, 0.5, 0⟩
    ¬ ∃ t, runs (publishStateToROS .documented) (.start m) (f.ticks [20000000, 20000000]) = some t := by
  intro m f h
  have huses : f.UsesIntegrateConst := ⟨.spinning, rfl, by simp⟩
  have hchain := (ticks_isChain_iff huses _).mp ((start_returns_iff .documented m _).mp h)
  exact absurd rfl (List.isChain_cons_cons.mp hchain).1

end

end Ranger.Drive
