import Mathlib.Algebra.Order.Archimedean.Basic
import Mathlib.Algebra.Order.Field.Basic
import Mathlib.Data.Fintype.Pi
import Mathlib.Data.Rat.Defs
import Mathlib.Tactic.Linarith
import Mathlib.Tactic.Ring

/-!
# 速度の平滑化

`nav2_velocity_smoother` の `VelocitySmoother` を、正確な算術で定める。値は順序体 `K` の元で、時刻は整数のナノ秒である。
`geometry_msgs::msg::Twist` のうち、平滑化が書くのは `linear.x`、`linear.y`、`angular.z` の三つで、残りは 0 のままである。
-/

namespace Ranger.Nav.Smoother

inductive Axis
  | x
  | y
  | theta
  deriving DecidableEq

instance : Fintype Axis where
  elems := {.x, .y, .theta}
  complete a := by cases a <;> simp

abbrev Twist (K : Type*) := Axis → K

section Model

variable {K : Type*} [Field K] [LinearOrder K]

/-- `std::clamp`。 -/
def clamp (v lo hi : K) : K := if v < lo then lo else if hi < v then hi else v

/-! ## 設定 -/

structure Settings (K : Type*) where
  smoothingFrequency : K
  feedback : String
  scaleVelocities : Bool
  maxVelocities : Twist K
  minVelocities : Twist K
  maxAccels : Twist K
  maxDecels : Twist K
  deadbandVelocities : Twist K
  velocityTimeout : Int

section Check

variable {V : Type*} [Zero V] [LT V] [DecidableLT V]

def Settings.checkAxis (c : Settings V) (a : Axis) : Except String Unit :=
  if 0 < c.maxDecels a then
    .error "Positive values set of deceleration! These should be negative to slow down!"
  else if c.maxAccels a < 0 then
    .error "Negative values set of acceleration! These should be positive to speed up!"
  else if c.maxVelocities a < c.minVelocities a then .error "Min velocities are higher than max velocities!"
  else .ok ()

def Settings.checkLimits (c : Settings V) : Except String Unit := do
  c.checkAxis .x
  c.checkAxis .y
  c.checkAxis .theta

end Check

/-- `on_configure` が受け入れた設定。周期が負のタイマーは作れないので、周波数は正である。 -/
structure Params (K : Type*) [Field K] [LinearOrder K] extends Settings K where
  openLoop : Bool
  accepted : toSettings.checkLimits = .ok ()
  frequency_pos : 0 < smoothingFrequency

/-- 配列の大きさの検査は、三つの軸を持つ型が表す。 -/
def onConfigure (c : Settings K) (hf : 0 < c.smoothingFrequency) : Except String (Params K) :=
  match h : c.checkLimits with
  | .error e => .error e
  | .ok () =>
      if c.feedback = "OPEN_LOOP" then
        .ok { c with openLoop := true, accepted := h, frequency_pos := hf }
      else if c.feedback = "CLOSED_LOOP" then
        .ok { c with openLoop := false, accepted := h, frequency_pos := hf }
      else .error "Invalid feedback_type, options are OPEN_LOOP and CLOSED_LOOP."

/-! ## 状態と操作 -/

structure State (K : Type*) where
  command : Option (Twist K)
  lastCommandTime : Int
  lastCmd : Twist K
  stopped : Bool
  /-- `cmd_vel_smoothed` に送った値。 -/
  published : List (Twist K)

def State.init : State K where
  command := none
  lastCommandTime := 0
  lastCmd := 0
  stopped := true
  published := []

/-- 一周期に許される変化の下限と上限。 -/
def limits (p : Params K) (a : Axis) (vCurr vCmd : K) : K × K :=
  -- 速さが 0 を通らずに増えるときが加速で、他は減速である。
  if |vCurr| ≤ |vCmd| ∧ 0 ≤ vCurr * vCmd then
    (-p.maxAccels a / p.smoothingFrequency, p.maxAccels a / p.smoothingFrequency)
  else (p.maxDecels a / p.smoothingFrequency, -p.maxDecels a / p.smoothingFrequency)

def findEtaConstraint (p : Params K) (a : Axis) (vCurr vCmd : K) : K :=
  let dv := vCmd - vCurr
  let (lo, hi) := limits p a vCurr vCmd
  if hi < dv then hi / dv else if dv < lo then lo / dv else -1

def applyConstraints (p : Params K) (a : Axis) (vCurr vCmd eta : K) : K :=
  let dv := vCmd - vCurr
  let (lo, hi) := limits p a vCurr vCmd
  vCurr + clamp (eta * dv) lo hi

/-- 一つの軸の係数を見て、より厳しい方を残す。 -/
def tightenEta (p : Params K) (current command : Twist K) (eta : K) (a : Axis) : K :=
  let currEta := findEtaConstraint p a (current a) (command a)
  if 0 < currEta ∧ |1 - eta| < |1 - currEta| then currEta else eta

def findEta (p : Params K) (current command : Twist K) : K :=
  if p.scaleVelocities then [Axis.x, .y, .theta].foldl (tightenEta p current command) 1 else 1

def clampCommand (p : Params K) (command : Twist K) : Twist K :=
  fun a => clamp (command a) (p.minVelocities a) (p.maxVelocities a)

def deadband (p : Params K) (cmdVel : Twist K) : Twist K :=
  fun a => if |cmdVel a| < p.deadbandVelocities a then 0 else cmdVel a

/-- `smootherTimer` の、時間切れの検査より後の部分。`odom` は `CLOSED_LOOP` で使う今の速度である。 -/
def smooth (p : Params K) (s : State K) (command odom : Twist K) : State K :=
  let current := if p.openLoop then s.lastCmd else odom
  let command := clampCommand p command
  let eta := findEta p current command
  let cmdVel : Twist K := fun a => applyConstraints p a (current a) (command a) eta
  { s with
    command := some command, stopped := false, lastCmd := cmdVel,
    published := s.published ++ [deadband p cmdVel] }

/-- 最後の命令から `velocity_timeout` を超えた。 -/
def State.TimedOut (p : Params K) (s : State K) (now : Int) : Prop := p.velocityTimeout < now - s.lastCommandTime

instance (p : Params K) (s : State K) (now : Int) : Decidable (s.TimedOut p now) :=
  inferInstanceAs (Decidable (_ < _))

def smootherTimer (p : Params K) (s : State K) (now : Int) (odom : Twist K) : State K :=
  match s.command with
  | none => s
  | some command =>
      if s.TimedOut p now then
        if s.lastCmd = 0 ∨ s.stopped = true then { s with stopped := true } else smooth p s 0 odom
      else smooth p s command odom

/-- `NaN` や無限大を含む命令は `none` で表す。 -/
def inputCommandCallback (s : State K) (now : Int) : Option (Twist K) → State K
  | none => s
  | some msg => { s with command := some msg, lastCommandTime := now }

inductive Event (K : Type*)
  | cmdVel (now : Int) (msg : Option (Twist K))
  | timer (now : Int) (odom : Twist K)

def step (p : Params K) (s : State K) : Event K → State K
  | .cmdVel now msg => inputCommandCallback s now msg
  | .timer now odom => smootherTimer p s now odom

def run (p : Params K) (events : List (Event K)) : State K := events.foldl (step p) State.init

end Model

/-! ## 制限 -/

section Clamp

variable {K : Type*} [LinearOrder K]

theorem clamp_mem {v lo hi : K} (h : lo ≤ hi) : lo ≤ clamp v lo hi ∧ clamp v lo hi ≤ hi := by
  unfold clamp
  split_ifs with hlo hhi
  · exact ⟨le_rfl, h⟩
  · exact ⟨h, le_rfl⟩
  · exact ⟨not_lt.mp hlo, not_lt.mp hhi⟩

theorem clamp_of_mem {v lo hi : K} (hlo : lo ≤ v) (hhi : v ≤ hi) : clamp v lo hi = v := by
  rw [clamp, if_neg (not_lt.mpr hlo), if_neg (not_lt.mpr hhi)]

theorem clamp_of_lt {v lo hi : K} (h : v < lo) : clamp v lo hi = lo := by
  rw [clamp, if_pos h]

theorem clamp_of_gt {v lo hi : K} (hlohi : lo ≤ hi) (h : hi < v) : clamp v lo hi = hi := by
  rw [clamp, if_neg (not_lt.mpr (hlohi.trans h.le)), if_pos h]

variable [Zero K]

/-- 0 を含む区間への制限は、0 との間を出ない。 -/
theorem clamp_nonneg {v lo hi : K} (hlo : lo ≤ 0) (hhi : 0 ≤ hi) (hv : 0 ≤ v) :
    0 ≤ clamp v lo hi ∧ clamp v lo hi ≤ v := by
  unfold clamp
  split_ifs with h h'
  · exact absurd (hlo.trans hv) (not_le.mpr h)
  · exact ⟨hhi, h'.le⟩
  · exact ⟨hv, le_rfl⟩

theorem clamp_nonpos {v lo hi : K} (hlo : lo ≤ 0) (hhi : 0 ≤ hi) (hv : v ≤ 0) :
    v ≤ clamp v lo hi ∧ clamp v lo hi ≤ 0 := by
  unfold clamp
  split_ifs with h h'
  · exact ⟨h.le, hlo⟩
  · exact absurd (hv.trans hhi) (not_le.mpr h')
  · exact ⟨le_rfl, hv⟩

end Clamp

section Check

variable {V : Type*} [Zero V] [LT V] [DecidableLT V] {c : Settings V}

theorem Settings.checkAxis_not_lt {a : Axis} (h : c.checkAxis a = .ok ()) :
    ¬ 0 < c.maxDecels a ∧ ¬ c.maxAccels a < 0 ∧ ¬ c.maxVelocities a < c.minVelocities a := by
  unfold Settings.checkAxis at h
  split_ifs at h with hdecel haccel hvel
  exact ⟨hdecel, haccel, hvel⟩

theorem Settings.checkLimits_ok (h : c.checkLimits = .ok ()) (a : Axis) : c.checkAxis a = .ok () := by
  unfold Settings.checkLimits at h
  cases hx : c.checkAxis .x with
  | error e => rw [hx] at h; cases h
  | ok _ =>
      cases hy : c.checkAxis .y with
      | error e => rw [hx, hy] at h; cases h
      | ok _ =>
          rw [hx, hy] at h
          cases a with
          | x => exact hx
          | y => exact hy
          | theta => exact h

end Check

section Lemmas

variable {K : Type*} [Field K] [LinearOrder K]

theorem Settings.checkAxis_ok {c : Settings K} {a : Axis} (h : c.checkAxis a = .ok ()) :
    c.maxDecels a ≤ 0 ∧ 0 ≤ c.maxAccels a ∧ c.minVelocities a ≤ c.maxVelocities a := by
  obtain ⟨hdecel, haccel, hvel⟩ := Settings.checkAxis_not_lt h
  exact ⟨not_lt.mp hdecel, not_lt.mp haccel, not_lt.mp hvel⟩

/-- 受け入れた設定は、読み取った設定のままである。 -/
theorem onConfigure_ok {c : Settings K} {hf : 0 < c.smoothingFrequency} {p : Params K}
    (h : onConfigure c hf = .ok p) : p.toSettings = c ∧ (p.openLoop = true ↔ c.feedback = "OPEN_LOOP") := by
  unfold onConfigure at h
  split at h
  · cases h
  · split_ifs at h with hopen hclosed
    · cases h
      simp [hopen]
    · cases h
      simp [hopen]

variable (p : Params K)

theorem Params.limits_ok (a : Axis) :
    p.maxDecels a ≤ 0 ∧ 0 ≤ p.maxAccels a ∧ p.minVelocities a ≤ p.maxVelocities a :=
  Settings.checkAxis_ok (Settings.checkLimits_ok p.accepted a)

/-- 一周期に許される変化の大きさ。 -/
def bound (a : Axis) (vCurr vCmd : K) : K := (limits p a vCurr vCmd).2

theorem limits_eq (a : Axis) (u v : K) : limits p a u v = (-bound p a u v, bound p a u v) := by
  unfold bound limits
  split_ifs
  · simp [neg_div]
  · simp [neg_div]

theorem applyConstraints_eq (a : Axis) (u v eta : K) :
    applyConstraints p a u v eta = u + clamp (eta * (v - u)) (-bound p a u v) (bound p a u v) := by
  simp only [applyConstraints, limits_eq]

/-! ## 一周期の操作 -/

/-- 送った値のそれぞれが、速度の範囲にある。 -/
def InRange (p : Params K) (m : Twist K) : Prop := ∀ a, p.minVelocities a ≤ m a ∧ m a ≤ p.maxVelocities a

variable {p}

theorem clampCommand_mem (c : Twist K) (a : Axis) :
    p.minVelocities a ≤ clampCommand p c a ∧ clampCommand p c a ≤ p.maxVelocities a :=
  clamp_mem (p.limits_ok a).2.2

theorem InRange.deadband (hzero : InRange p 0) {m : Twist K} (h : InRange p m) :
    InRange p (deadband p m) := by
  intro a
  unfold Smoother.deadband
  split_ifs
  · exact hzero a
  · exact h a

theorem smootherTimer_cases (p : Params K) (s : State K) (now : Int) (odom : Twist K) :
    (s.command = none ∧ smootherTimer p s now odom = s) ∨
    ((s.lastCmd = 0 ∨ s.stopped = true) ∧ smootherTimer p s now odom = { s with stopped := true }) ∨
    (∃ c, (s.TimedOut p now → c = 0) ∧ smootherTimer p s now odom = smooth p s c odom) := by
  unfold smootherTimer
  cases hcommand : s.command with
  | none => exact Or.inl ⟨rfl, rfl⟩
  | some c =>
      right
      dsimp only
      split_ifs with htime hstop
      · exact Or.inl ⟨hstop, rfl⟩
      · exact Or.inr ⟨0, fun _ => rfl, rfl⟩
      · exact Or.inr ⟨c, fun h => absurd h htime, rfl⟩

theorem smooth_lastCmd (hopen : p.openLoop = true) (s : State K) (c odom : Twist K) (a : Axis) :
    (smooth p s c odom).lastCmd a =
      applyConstraints p a (s.lastCmd a) (clampCommand p c a) (findEta p s.lastCmd (clampCommand p c)) := by
  simp [smooth, hopen]

theorem clampCommand_zero (hzero : InRange p 0) : clampCommand p 0 = 0 := by
  funext a
  exact clamp_of_mem (hzero a).1 (hzero a).2

theorem smootherTimer_lastCommandTime (s : State K) (now : Int) (odom : Twist K) :
    (smootherTimer p s now odom).lastCommandTime = s.lastCommandTime := by
  obtain ⟨-, ht⟩ | ⟨-, ht⟩ | ⟨c, -, ht⟩ := smootherTimer_cases p s now odom
  · rw [ht]
  · rw [ht]
  · rw [ht]
    rfl

/-! ## 不変条件 -/

structure Inv (p : Params K) (s : State K) : Prop where
  range : InRange p s.lastCmd
  sent : ∀ m ∈ s.published, InRange p m
  last : ∀ m, s.published.getLast? = some m → m = deadband p s.lastCmd
  stop : s.stopped = true → s.lastCmd = 0
  start : s.command = none → s.published = [] ∧ s.lastCmd = 0

/-- 時間切れの周期は、速度が 0 のままか、0 へ向けて平滑化する。 -/
theorem timedOut_cases {s : State K} (h : Inv p s) {now : Int} (htime : s.TimedOut p now) (odom : Twist K) :
    (s.lastCmd = 0 ∧ (smootherTimer p s now odom).lastCmd = 0) ∨
      smootherTimer p s now odom = smooth p s 0 odom := by
  obtain ⟨hnone, ht⟩ | ⟨hstop, ht⟩ | ⟨c, hc, ht⟩ := smootherTimer_cases p s now odom
  · rw [ht]
    exact Or.inl ⟨(h.start hnone).2, (h.start hnone).2⟩
  · have hz := hstop.elim id h.stop
    rw [ht]
    exact Or.inl ⟨hz, hz⟩
  · rw [ht, hc htime]
    exact Or.inr rfl

/-- 送らない周期の前に最後に送った値は 0 である。 -/
theorem silent_zero {s : State K} (h : Inv p s) {now : Int} {odom : Twist K}
    (hsilent : (smootherTimer p s now odom).published = s.published) {m : Twist K}
    (hm : s.published.getLast? = some m) : m = 0 := by
  have hz : s.lastCmd = 0 := by
    obtain ⟨hnone, -⟩ | ⟨hstop, -⟩ | ⟨c, -, ht⟩ := smootherTimer_cases p s now odom
    · exact (h.start hnone).2
    · exact hstop.elim id h.stop
    · rw [ht, smooth] at hsilent
      exact absurd hsilent (by simp)
  rw [h.last m hm, hz]
  funext a
  simp [deadband]

/-! ## 変化の制限 -/

variable [IsStrictOrderedRing K] (p)

theorem bound_nonneg (a : Axis) (u v : K) : 0 ≤ bound p a u v := by
  obtain ⟨hdecel, haccel, -⟩ := p.limits_ok a
  unfold bound limits
  split_ifs
  · exact div_nonneg haccel p.frequency_pos.le
  · exact div_nonneg (neg_nonneg.mpr hdecel) p.frequency_pos.le

theorem bound_le (a : Axis) (u v : K) :
    bound p a u v ≤ max (p.maxAccels a) (-p.maxDecels a) / p.smoothingFrequency := by
  unfold bound limits
  split_ifs
  · exact div_le_div_of_nonneg_right (le_max_left _ _) p.frequency_pos.le
  · exact div_le_div_of_nonneg_right (le_max_right _ _) p.frequency_pos.le

variable {p}

theorem bound_pos {a : Axis} (ha : p.maxAccels a ≠ 0) (hd : p.maxDecels a ≠ 0) (u v : K) : 0 < bound p a u v := by
  obtain ⟨hdecel, haccel, -⟩ := p.limits_ok a
  unfold bound limits
  split_ifs
  · exact div_pos (lt_of_le_of_ne haccel ha.symm) p.frequency_pos
  · exact div_pos (neg_pos.mpr (lt_of_le_of_ne hdecel hd)) p.frequency_pos

/-- 0 へ向かうときの制限は、減速の制限である。 -/
theorem bound_zero {a : Axis} {u : K} (hu : u ≠ 0) : bound p a u 0 = -p.maxDecels a / p.smoothingFrequency := by
  unfold bound limits
  rw [if_neg]
  simp [hu]

/-! ## 係数 -/

theorem findEtaConstraint_eq (a : Axis) (u v : K) :
    findEtaConstraint p a u v = if bound p a u v < |v - u| then bound p a u v / |v - u| else -1 := by
  have hb := bound_nonneg p a u v
  unfold findEtaConstraint
  simp only [limits_eq]
  rcases le_total 0 (v - u) with h | h
  · have hlow : ¬ v - u < -bound p a u v := not_lt.mpr ((neg_nonpos.mpr hb).trans h)
    rw [abs_of_nonneg h, if_neg hlow]
  · have hhigh : ¬ bound p a u v < v - u := not_lt.mpr (h.trans hb)
    rw [abs_of_nonpos h, if_neg hhigh, neg_div, div_neg]
    exact if_congr lt_neg rfl rfl

theorem findEtaConstraint_le_one (a : Axis) (u v : K) : findEtaConstraint p a u v ≤ 1 := by
  rw [findEtaConstraint_eq]
  split_ifs with h
  · exact div_le_one_of_le₀ h.le (abs_nonneg _)
  · linarith [zero_lt_one (α := K)]

/-- 係数は、正の制約のうちで最も小さいものになる。 -/
theorem tightenEta_eq {current command : Twist K} {eta : K} (heta : eta ≤ 1) (a : Axis) :
    tightenEta p current command eta a =
      if 0 < findEtaConstraint p a (current a) (command a) ∧ findEtaConstraint p a (current a) (command a) < eta
      then findEtaConstraint p a (current a) (command a) else eta := by
  have hc := findEtaConstraint_le_one (p := p) a (current a) (command a)
  unfold tightenEta
  dsimp only
  rw [abs_of_nonneg (sub_nonneg.mpr heta), abs_of_nonneg (sub_nonneg.mpr hc)]
  exact if_congr (and_congr_right fun _ => sub_lt_sub_iff_left 1) rfl rfl

/-- 係数 `eta` は (0, 1] にあり、`axes` のどの正の制約も超えず、それらの下界より小さくならない。 -/
structure EtaOk (p : Params K) (current command : Twist K) (axes : List Axis) (eta : K) : Prop where
  pos : 0 < eta
  le_one : eta ≤ 1
  le : ∀ a ∈ axes, 0 < findEtaConstraint p a (current a) (command a) →
    eta ≤ findEtaConstraint p a (current a) (command a)
  least : ∀ m ≤ 1, (∀ a, 0 < findEtaConstraint p a (current a) (command a) →
    m ≤ findEtaConstraint p a (current a) (command a)) → m ≤ eta

theorem EtaOk.one (current command : Twist K) : EtaOk p current command [] 1 :=
  ⟨zero_lt_one, le_rfl, by simp, fun _ hm _ => hm⟩

theorem EtaOk.tighten {current command : Twist K} {axes : List Axis} {eta : K}
    (h : EtaOk p current command axes eta) (a : Axis) :
    EtaOk p current command (axes ++ [a]) (tightenEta p current command eta a) := by
  rw [tightenEta_eq h.le_one]
  split_ifs with hc
  · obtain ⟨hpos, hlt⟩ := hc
    refine ⟨hpos, hlt.le.trans h.le_one, fun b hb hb' => ?_, fun m _ hle => hle a hpos⟩
    rcases List.mem_append.mp hb with hb | hb
    · exact hlt.le.trans (h.le b hb hb')
    · rw [List.mem_singleton.mp hb]
  · refine ⟨h.pos, h.le_one, fun b hb hb' => ?_, h.least⟩
    rcases List.mem_append.mp hb with hb | hb
    · exact h.le b hb hb'
    · obtain rfl := List.mem_singleton.mp hb
      exact not_lt.mp fun hlt => hc ⟨hb', hlt⟩

theorem findEta_ok (p : Params K) (current command : Twist K) :
    ∃ axes, EtaOk p current command axes (findEta p current command) ∧
      (p.scaleVelocities = true → ∀ a, a ∈ axes) := by
  cases hscale : p.scaleVelocities with
  | false =>
      simp only [findEta, hscale]
      exact ⟨[], EtaOk.one current command, by simp⟩
  | true =>
      simp only [findEta, hscale]
      refine ⟨[.x, .y, .theta], ?_, fun _ a => by cases a <;> simp⟩
      exact (((EtaOk.one current command).tighten .x).tighten .y).tighten .theta

/-! ## 一つの軸の変化 -/

theorem abs_applyConstraints_sub_le (a : Axis) (u v eta : K) :
    |applyConstraints p a u v eta - u| ≤ max (p.maxAccels a) (-p.maxDecels a) / p.smoothingFrequency := by
  have hb := bound_nonneg p a u v
  obtain ⟨hlow, hhigh⟩ := clamp_mem (v := eta * (v - u)) (neg_le_self hb)
  rw [applyConstraints_eq, add_sub_cancel_left]
  exact (abs_le.mpr ⟨hlow, hhigh⟩).trans (bound_le p a u v)

/-- 新しい値は、今の値と命令の間にある。 -/
theorem applyConstraints_mem (a : Axis) {u v eta : K} (hpos : 0 < eta) (hle : eta ≤ 1) :
    applyConstraints p a u v eta ∈ Set.uIcc u v := by
  have hb := bound_nonneg p a u v
  have hneg : -bound p a u v ≤ 0 := neg_nonpos.mpr hb
  rw [applyConstraints_eq]
  rcases le_total u v with h | h
  · have hdv : 0 ≤ v - u := sub_nonneg.mpr h
    obtain ⟨hlow, hhigh⟩ := clamp_nonneg hneg hb (mul_nonneg hpos.le hdv)
    have hstep : eta * (v - u) ≤ v - u := mul_le_of_le_one_left hdv hle
    rw [Set.uIcc_of_le h]
    constructor <;> linarith
  · have hdv : v - u ≤ 0 := sub_nonpos.mpr h
    obtain ⟨hlow, hhigh⟩ := clamp_nonpos hneg hb (mul_nonpos_of_nonneg_of_nonpos hpos.le hdv)
    have hstep : v - u ≤ eta * (v - u) := by nlinarith
    rw [Set.uIcc_of_ge h]
    constructor <;> linarith

/-- 変化が制限を超えなければ、変化は要求の `eta` 倍である。 -/
theorem applyConstraints_sub (a : Axis) {u v eta : K} (hpos : 0 < eta) (h : eta * |v - u| ≤ bound p a u v) :
    applyConstraints p a u v eta - u = eta * (v - u) := by
  have habs : |eta * (v - u)| ≤ bound p a u v := by rwa [abs_mul, abs_of_pos hpos]
  obtain ⟨hlow, hhigh⟩ := abs_le.mp habs
  rw [applyConstraints_eq, clamp_of_mem hlow hhigh, add_sub_cancel_left]

/-- 制約が正であれば、それを超えない係数での変化は、制限を超えない。 -/
theorem mul_abs_le_bound {a : Axis} {u v eta : K} (hb : 0 < bound p a u v) (hle : eta ≤ 1)
    (h : 0 < findEtaConstraint p a u v → eta ≤ findEtaConstraint p a u v) : eta * |v - u| ≤ bound p a u v := by
  rw [findEtaConstraint_eq] at h
  split_ifs at h with hlt
  · have hpos : 0 < |v - u| := hb.trans hlt
    exact (le_div_iff₀ hpos).mp (h (div_pos hb hpos))
  · exact (mul_le_of_le_one_left (abs_nonneg _) hle).trans (not_lt.mp hlt)

/-- 0 へ向かう変化は、大きさを、係数の分か、減速の制限の分だけ減らす。 -/
theorem abs_applyConstraints_zero (a : Axis) {u eta d : K} (hd : d = -p.maxDecels a / p.smoothingFrequency)
    (hpos : 0 < eta) (hle : eta ≤ 1) :
    |applyConstraints p a u 0 eta| = (1 - eta) * |u| ∨ |applyConstraints p a u 0 eta| = |u| - d := by
  rcases eq_or_ne u 0 with rfl | hu
  · left
    have hb := bound_nonneg p a 0 0
    rw [applyConstraints_eq, sub_zero, mul_zero, clamp_of_mem (neg_nonpos.mpr hb) hb]
    simp
  have hb : bound p a u 0 = d := by rw [bound_zero hu, hd]
  have hd0 : -d ≤ d := neg_le_self (hb ▸ bound_nonneg p a u 0)
  rw [applyConstraints_eq, hb, zero_sub]
  rcases le_or_gt (eta * |u|) d with h | h
  · left
    have habs : |eta * -u| ≤ d := by rwa [abs_mul, abs_neg, abs_of_pos hpos]
    rw [clamp_of_mem (abs_le.mp habs).1 (abs_le.mp habs).2, show u + eta * -u = (1 - eta) * u by ring, abs_mul,
      abs_of_nonneg (sub_nonneg.mpr hle)]
  · right
    have hlt : d < |u| := h.trans_le (mul_le_of_le_one_left (abs_nonneg u) hle)
    rcases hu.lt_or_gt with hneg | hpos'
    · rw [abs_of_neg hneg] at h hlt ⊢
      rw [clamp_of_gt hd0 h, abs_of_neg (by linarith)]
      ring
    · rw [abs_of_pos hpos'] at h hlt ⊢
      rw [clamp_of_lt (by linarith), abs_of_pos (by linarith)]
      ring

/-- `n + 1` 周期で 0 になる値は、一周期で、`n` 周期で 0 になる値に変わる。 -/
theorem abs_applyConstraints_zero_le (a : Axis) {u eta d : K} {n : Nat}
    (hd : d = -p.maxDecels a / p.smoothingFrequency) (hpos : 0 < eta) (hle : eta ≤ 1) (heta : 1 ≤ (n + 1) * eta)
    (hu : |u| ≤ (n + 1) * d) : |applyConstraints p a u 0 eta| ≤ n * d := by
  have hd0 : 0 ≤ d := by
    rw [hd]
    exact div_nonneg (neg_nonneg.mpr (p.limits_ok a).1) p.frequency_pos.le
  rcases abs_applyConstraints_zero a hd hpos hle with h | h
  · calc |applyConstraints p a u 0 eta| = (1 - eta) * |u| := h
      _ ≤ (1 - eta) * ((n + 1) * d) := mul_le_mul_of_nonneg_left hu (sub_nonneg.mpr hle)
      _ = (n + 1 - (n + 1) * eta) * d := by ring
      _ ≤ n * d := mul_le_mul_of_nonneg_right (by linarith) hd0
  · rw [h]
    linarith

/-! ## 一周期の変化 -/

/-- 変化は一周期の制限を超えず、新しい値は、範囲に収めた命令 `t.command` を通り過ぎない。 -/
def Limited (p : Params K) (s t : State K) : Prop :=
  ∀ a, |t.lastCmd a - s.lastCmd a| ≤ max (p.maxAccels a) (-p.maxDecels a) / p.smoothingFrequency ∧
    ∀ c, t.command = some c → t.lastCmd a ∈ Set.uIcc (s.lastCmd a) (c a)

/-- 変化は、どの軸でも、要求された変化の同じ倍率である。 -/
def Proportional (s t : State K) : Prop :=
  ∀ c, t.command = some c → ∃ k, 0 < k ∧ k ≤ 1 ∧ ∀ a, t.lastCmd a - s.lastCmd a = k * (c a - s.lastCmd a)

theorem smooth_limited (hopen : p.openLoop = true) (s : State K) (c odom : Twist K) :
    Limited p s (smooth p s c odom) := by
  obtain ⟨axes, heta, -⟩ := findEta_ok p s.lastCmd (clampCommand p c)
  intro a
  rw [smooth_lastCmd hopen]
  refine ⟨abs_applyConstraints_sub_le a _ _ _, fun c' hc' => ?_⟩
  cases hc'
  exact applyConstraints_mem a heta.pos heta.le_one

theorem limited_of_lastCmd_eq {s t : State K} (h : t.lastCmd = s.lastCmd) : Limited p s t := by
  intro a
  rw [h, sub_self, abs_zero]
  refine ⟨?_, fun c _ => Set.left_mem_uIcc⟩
  exact (bound_nonneg p a 0 0).trans (bound_le p a 0 0)

theorem smootherTimer_limited (hopen : p.openLoop = true) (s : State K) (now : Int) (odom : Twist K) :
    Limited p s (smootherTimer p s now odom) := by
  obtain ⟨-, h⟩ | ⟨-, h⟩ | ⟨c, -, h⟩ := smootherTimer_cases p s now odom
  · rw [h]
    exact limited_of_lastCmd_eq rfl
  · rw [h]
    exact limited_of_lastCmd_eq rfl
  · rw [h]
    exact smooth_limited hopen s c odom

theorem smooth_proportional (hopen : p.openLoop = true) (hscale : p.scaleVelocities = true)
    (hlimits : ∀ a, p.maxAccels a ≠ 0 ∧ p.maxDecels a ≠ 0) (s : State K) (c odom : Twist K) :
    Proportional s (smooth p s c odom) := by
  obtain ⟨axes, heta, haxes⟩ := findEta_ok p s.lastCmd (clampCommand p c)
  intro c' hc'
  cases hc'
  refine ⟨findEta p s.lastCmd (clampCommand p c), heta.pos, heta.le_one, fun a => ?_⟩
  rw [smooth_lastCmd hopen]
  apply applyConstraints_sub a heta.pos
  exact mul_abs_le_bound (bound_pos (hlimits a).1 (hlimits a).2 _ _) heta.le_one (heta.le a (haxes hscale a))

/-! ## 不変条件の保存 -/

theorem Inv.smooth (hopen : p.openLoop = true) (hzero : InRange p 0) {s : State K}
    (h : Inv p s) (c odom : Twist K) : Inv p (smooth p s c odom) := by
  have hrange : InRange p (Smoother.smooth p s c odom).lastCmd := by
    intro a
    have hmem := ((smooth_limited hopen s c odom) a).2 _ rfl
    obtain ⟨hlow, hhigh⟩ := clampCommand_mem (p := p) c a
    obtain ⟨hlow', hhigh'⟩ := h.range a
    exact ⟨(le_min hlow' hlow).trans hmem.1, hmem.2.trans (max_le hhigh' hhigh)⟩
  refine ⟨hrange, fun m hm => ?_, fun m hm => ?_, fun hstop => (by cases hstop), fun hnone => (by cases hnone)⟩
  · rcases List.mem_append.mp hm with hm | hm
    · exact h.sent m hm
    · rw [List.mem_singleton.mp hm]
      exact InRange.deadband hzero hrange
  · rw [Smoother.smooth, List.getLast?_concat] at hm
    exact (Option.some.inj hm).symm

theorem Inv.step (hopen : p.openLoop = true) (hzero : InRange p 0) {s : State K}
    (h : Inv p s) (e : Event K) : Inv p (step p s e) := by
  cases e with
  | cmdVel now msg =>
      cases msg with
      | none => exact h
      | some msg => exact ⟨h.range, h.sent, h.last, h.stop, fun hnone => by cases hnone⟩
  | timer now odom =>
      obtain ⟨-, ht⟩ | ⟨hstop, ht⟩ | ⟨c, -, ht⟩ := smootherTimer_cases p s now odom
      · rw [Smoother.step, ht]
        exact h
      · rw [Smoother.step, ht]
        exact ⟨h.range, h.sent, h.last, fun _ => hstop.elim id h.stop, h.start⟩
      · rw [Smoother.step, ht]
        exact h.smooth hopen hzero c odom

theorem inv_run (hopen : p.openLoop = true) (hzero : InRange p 0) (events : List (Event K)) :
    Inv p (run p events) := by
  induction events using List.reverseRecOn with
  | nil => exact ⟨hzero, by simp [run, State.init], by simp [run, State.init], fun _ => rfl, fun _ => ⟨rfl, rfl⟩⟩
  | append_singleton events e ih =>
      rw [run, List.foldl_append]
      exact ih.step hopen hzero e

/-! ## 停止 -/

def decelStep (p : Params K) (a : Axis) : K := -p.maxDecels a / p.smoothingFrequency

theorem decelStep_pos {a : Axis} (hd : p.maxDecels a ≠ 0) : 0 < decelStep p a :=
  div_pos (neg_pos.mpr (lt_of_le_of_ne (p.limits_ok a).1 hd)) p.frequency_pos

/-- どの軸も `n + 1` 周期で止まるなら、係数は `1 / (n + 1)` を下回らない。 -/
theorem one_le_mul_findEta {current : Twist K} {n : Nat} (h : ∀ a, |current a| ≤ (n + 1) * decelStep p a) :
    1 ≤ (n + 1) * findEta p current 0 := by
  obtain ⟨axes, heta, -⟩ := findEta_ok p current 0
  have hn : (0 : K) < n + 1 := by positivity
  rw [← div_le_iff₀' hn]
  apply heta.least
  · rw [div_le_one hn]
    linarith [Nat.cast_nonneg (α := K) n]
  · intro a hpos
    rw [findEtaConstraint_eq] at hpos ⊢
    split_ifs at hpos ⊢ with hlt
    · rw [Pi.zero_apply, zero_sub, abs_neg] at hlt ⊢
      have hcurrent : 0 < |current a| := (bound_nonneg p a _ _).trans_lt hlt
      rw [bound_zero (abs_pos.mp hcurrent), div_le_div_iff₀ hn hcurrent, one_mul, mul_comm]
      exact h a
    · linarith [zero_lt_one (α := K)]

theorem abs_smooth_zero_le (hopen : p.openLoop = true) (hzero : InRange p 0) {s : State K} {n : Nat}
    (h : ∀ a, |s.lastCmd a| ≤ (n + 1) * decelStep p a) (odom : Twist K) (a : Axis) :
    |(smooth p s 0 odom).lastCmd a| ≤ n * decelStep p a := by
  obtain ⟨axes, heta, -⟩ := findEta_ok p s.lastCmd 0
  rw [smooth_lastCmd hopen, clampCommand_zero hzero]
  exact abs_applyConstraints_zero_le a rfl heta.pos heta.le_one (one_le_mul_findEta h) (h a)

theorem timedOut_abs_le (hopen : p.openLoop = true) (hzero : InRange p 0) {s : State K} (h : Inv p s) {now : Int}
    (htime : s.TimedOut p now) (odom : Twist K) (a : Axis) :
    |(smootherTimer p s now odom).lastCmd a| ≤ |s.lastCmd a| := by
  obtain ⟨hz, ht⟩ | ht := timedOut_cases h htime odom
  · rw [ht, hz]
  · have hmem := (smooth_limited hopen s 0 odom a).2 _ rfl
    rw [clampCommand_zero hzero] at hmem
    rw [ht]
    rcases le_total 0 (s.lastCmd a) with hs | hs
    · rw [Pi.zero_apply, Set.uIcc_of_ge hs] at hmem
      rw [abs_of_nonneg hmem.1, abs_of_nonneg hs]
      exact hmem.2
    · rw [Pi.zero_apply, Set.uIcc_of_le hs] at hmem
      rw [abs_of_nonpos hmem.2, abs_of_nonpos hs]
      exact neg_le_neg hmem.1

/-- 時間切れの周期だけが続く。 -/
def Coasting (p : Params K) (s : State K) (ticks : List (Event K)) : Prop :=
  ∀ e ∈ ticks, ∃ now odom, e = .timer now odom ∧ s.TimedOut p now

theorem coasting_lastCmd (hopen : p.openLoop = true) (hzero : InRange p 0) {ticks : List (Event K)} {s : State K}
    {n : Nat} (h : Inv p s) (hticks : Coasting p s ticks) (hn : n ≤ ticks.length)
    (hs : ∀ a, |s.lastCmd a| ≤ n * decelStep p a) : (ticks.foldl (step p) s).lastCmd = 0 := by
  induction ticks generalizing s n with
  | nil =>
      obtain rfl := Nat.le_zero.mp hn
      funext a
      have ha := hs a
      rw [Nat.cast_zero, zero_mul] at ha
      exact abs_nonpos_iff.mp ha
  | cons e ticks ih =>
      obtain ⟨now, odom, rfl, htime⟩ := hticks e List.mem_cons_self
      have hrest : Coasting p (smootherTimer p s now odom) ticks := by
        intro e he
        obtain ⟨now', odom', rfl, htime'⟩ := hticks e (List.mem_cons_of_mem _ he)
        refine ⟨now', odom', rfl, ?_⟩
        rw [State.TimedOut, smootherTimer_lastCommandTime]
        exact htime'
      have hdecel : ∀ a, 0 ≤ decelStep p a := fun a =>
        div_nonneg (neg_nonneg.mpr (p.limits_ok a).1) p.frequency_pos.le
      -- 残りの周期の数は、0 になるまで一つずつ減る。
      apply ih (h.step hopen hzero (.timer now odom)) hrest (Nat.sub_le_of_le_add hn)
      intro a
      obtain ⟨-, ht⟩ | ht := timedOut_cases h htime odom
      · rw [step, ht, Pi.zero_apply, abs_zero]
        exact mul_nonneg (Nat.cast_nonneg _) (hdecel a)
      · rw [step, ht]
        apply abs_smooth_zero_le hopen hzero
        intro b
        refine (hs b).trans (mul_le_mul_of_nonneg_right ?_ (hdecel b))
        have hpred : n ≤ n - 1 + 1 := by omega
        exact_mod_cast hpred

/-- 周期ごとの減速が正であれば、どの速度も有限の周期で 0 になる。 -/
theorem exists_stop [Archimedean K] (hdecel : ∀ a, p.maxDecels a ≠ 0) (v : Twist K) :
    ∃ n : Nat, ∀ a, |v a| ≤ n * decelStep p a := by
  have haxis : ∀ a, ∃ n : Nat, |v a| ≤ n * decelStep p a := by
    intro a
    obtain ⟨n, hn⟩ := Archimedean.arch |v a| (decelStep_pos (hdecel a))
    exact ⟨n, by rwa [nsmul_eq_mul] at hn⟩
  choose n hn using haxis
  refine ⟨n .x + n .y + n .theta, fun a => (hn a).trans ?_⟩
  have hle : n a ≤ n .x + n .y + n .theta := by cases a <;> omega
  exact mul_le_mul_of_nonneg_right (by exact_mod_cast hle) (decelStep_pos (hdecel a)).le

/-- どの実行でも、送る値は速度の範囲にあり、周期ごとの変化は制限に従い、命令を通り過ぎない。縮尺を合わせるとき、変化は要求の
同じ倍率である。命令が途絶えた後、速度は増えずに有限の周期で 0 になり、送るのをやめる前の最後の値は 0 である。 -/
theorem smoothed_safe [Archimedean K] (p : Params K) (hopen : p.openLoop = true)
    (hzero : ∀ a, p.minVelocities a ≤ 0 ∧ 0 ≤ p.maxVelocities a) (events : List (Event K)) :
    (∀ m ∈ (run p events).published, InRange p m) ∧
    (∀ now odom, Limited p (run p events) (smootherTimer p (run p events) now odom)) ∧
    (p.scaleVelocities = true → (∀ a, p.maxAccels a ≠ 0 ∧ p.maxDecels a ≠ 0) → ∀ now odom,
      (smootherTimer p (run p events) now odom).published ≠ (run p events).published →
      Proportional (run p events) (smootherTimer p (run p events) now odom)) ∧
    ((∀ a, p.maxDecels a ≠ 0) →
      (∀ now odom, (run p events).TimedOut p now →
        ∀ a, |(smootherTimer p (run p events) now odom).lastCmd a| ≤ |(run p events).lastCmd a|) ∧
      (∃ n, ∀ ticks, Coasting p (run p events) ticks → n ≤ ticks.length → (run p (events ++ ticks)).lastCmd = 0) ∧
      (∀ now odom, (smootherTimer p (run p events) now odom).published = (run p events).published →
        ∀ m, (run p events).published.getLast? = some m → m = 0)) := by
  have hinv : Inv p (run p events) := inv_run hopen hzero events
  refine ⟨hinv.sent, smootherTimer_limited hopen _, fun hscale hlimits now odom hsent => ?_, fun hdecel => ?_⟩
  · obtain ⟨-, ht⟩ | ⟨-, ht⟩ | ⟨c, -, ht⟩ := smootherTimer_cases p (run p events) now odom
    · rw [ht] at hsent
      exact absurd rfl hsent
    · rw [ht] at hsent
      exact absurd rfl hsent
    · rw [ht]
      exact smooth_proportional hopen hscale hlimits _ c odom
  · obtain ⟨n, hn⟩ := exists_stop hdecel (run p events).lastCmd
    refine ⟨fun now odom htime a => timedOut_abs_le hopen hzero hinv htime odom a, ⟨n, fun ticks hticks hlen => ?_⟩,
      fun now odom hsilent m hm => silent_zero hinv hsilent hm⟩
    rw [run, List.foldl_append]
    exact coasting_lastCmd hopen hzero hinv hticks hlen hn

end Lemmas

def exampleParams : Params ℚ where
  smoothingFrequency := 20
  feedback := "OPEN_LOOP"
  scaleVelocities := true
  maxVelocities := fun _ => 1 / 2
  minVelocities := fun _ => -1 / 2
  maxAccels := fun _ => 5 / 2
  maxDecels := fun _ => -5 / 2
  deadbandVelocities := fun _ => 1 / 100
  velocityTimeout := 1000000000
  openLoop := true
  accepted := by decide +kernel
  frequency_pos := by decide +kernel

/-- 曲がる命令の後、三周期だけ加速し、途中の NaN の命令は捨てる。時間切れの後の二周期は減速する。 -/
def braking : List (Event ℚ) :=
  [.cmdVel 0 (some fun a => match a with | .x => 1 | .y => 0 | .theta => -1 / 4), .timer 0 0, .timer 50000000 0,
    .cmdVel 60000000 none, .timer 100000000 0, .timer 1050000000 0, .timer 1100000000 0]

-- 加速して 3/8 に達し、時間切れの周期ごとに 1/8 ずつ減速する。
theorem smoothed_safe_braking :
    exampleParams.openLoop = true ∧ (∀ a, exampleParams.minVelocities a ≤ 0 ∧ 0 ≤ exampleParams.maxVelocities a) ∧
    (run exampleParams (braking.take 5)).lastCmd .x = 3 / 8 ∧
    (run exampleParams (braking.take 5)).TimedOut exampleParams 1050000000 ∧
    (run exampleParams braking).lastCmd .x = 1 / 8 ∧
    (∀ m ∈ (run exampleParams braking).published, InRange exampleParams m) ∧
    ∃ n, ∀ ticks, Coasting exampleParams (run exampleParams braking) ticks → n ≤ ticks.length →
      (run exampleParams (braking ++ ticks)).lastCmd = 0 := by
  have hzero : ∀ a, exampleParams.minVelocities a ≤ 0 ∧ 0 ≤ exampleParams.maxVelocities a := by decide +kernel
  obtain ⟨hsent, -, -, hcoast⟩ := smoothed_safe exampleParams rfl hzero braking
  have hdecel : ∀ a, exampleParams.maxDecels a ≠ 0 := by decide +kernel
  exact ⟨rfl, hzero, by decide +kernel, by decide +kernel, by decide +kernel, hsent, (hcoast hdecel).2.1⟩

end Ranger.Nav.Smoother
