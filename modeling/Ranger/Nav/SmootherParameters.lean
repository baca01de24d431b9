import Ranger.Lib.Double
import Ranger.Lib.Run
import Ranger.Nav.Smoother

/-!
# 平滑化の設定の変更

`VelocitySmoother::dynamicParametersCallback` と、変更を重ねた後の制限。値は NaN と無限大を含む。`rclcpp::Duration::from_seconds` は
引数 `fromSeconds` とし、`create_wall_timer` は負の周期のタイマーを作れずに例外を投げる。
-/

namespace Ranger.Nav.Smoother
open Ranger.Lib

section Model

variable {K : Type} [Field K] [LinearOrder K] (fromSeconds : Double K → Int)

/-! ## パラメータ -/

inductive ParameterValue (K : Type)
  | double (v : Double K)
  | doubleArray (v : List (Double K))
  | string (v : String)
  | other

structure Parameter (K : Type) where
  name : String
  value : ParameterValue K

/-- `dynamicParametersCallback` が書くメンバ。 -/
structure Members (K : Type) where
  smoothingFrequency : Double K
  velocityTimeout : Int
  odomDuration : Double K
  maxVelocities : Twist (Double K)
  minVelocities : Twist (Double K)
  maxAccels : Twist (Double K)
  maxDecels : Twist (Double K)
  deadbandVelocities : Twist (Double K)
  openLoop : Bool
  odomTopic : String

/-- ミリ秒の周期が `int` に収まり、負でない。無限大の周波数の周期は `0` で、NaN の周期は `int` の最小の値になる。 -/
def CreatesTimer : Double K → Prop
  | .real f => f ≠ 0 ∧ -1 < ((1000 : ℕ) : K) / f ∧ ((1000 : ℕ) : K) / f < (2147483648 : ℕ)
  | .inf _ => True
  | .nan => False

instance : DecidablePred (CreatesTimer (K := K))
  | .real _ => inferInstanceAs (Decidable (_ ∧ _ ∧ _))
  | .inf _ => inferInstanceAs (Decidable True)
  | .nan => inferInstanceAs (Decidable False)

/-- `on_configure` と `on_activate` を終えたメンバ。 -/
def activated (c : Settings (Double K)) (odomDuration : Double K) (odomTopic : String) : Option (Members K) :=
  match c.checkLimits with
  | .error _ => none
  | .ok () =>
      if c.feedback ≠ "OPEN_LOOP" ∧ c.feedback ≠ "CLOSED_LOOP" then none
      else if CreatesTimer c.smoothingFrequency then
        some {
          smoothingFrequency := c.smoothingFrequency
          velocityTimeout := c.velocityTimeout
          odomDuration := odomDuration
          maxVelocities := c.maxVelocities
          minVelocities := c.minVelocities
          maxAccels := c.maxAccels
          maxDecels := c.maxDecels
          deadbandVelocities := c.deadbandVelocities
          openLoop := c.feedback = "OPEN_LOOP"
          odomTopic := odomTopic }
      else none

/-! ## `dynamicParametersCallback` -/

/-- 一つのパラメータの処理。`stopped` は `break` で抜けること、`thrown` は例外を表す。 -/
inductive Handled (K : Type)
  | applied (m : Members K) (valid : Bool)
  | stopped
  | thrown

def Members.setDouble (m : Members K) (name : String) (v : Double K) : Handled K :=
  if name = "smoothing_frequency" then
    if CreatesTimer v then .applied { m with smoothingFrequency := v } true else .thrown
  else if name = "velocity_timeout" then .applied { m with velocityTimeout := fromSeconds v } true
  else if name = "odom_duration" then .applied { m with odomDuration := v } true
  else .applied m true

def axes {V : Type} (x y z : V) : Twist V
  | .x => x
  | .y => y
  | .theta => z

/-- 符号の検査に通らない加速度と減速度も、書き込まれる。 -/
def Members.setArray (m : Members K) (name : String) (v : Twist (Double K)) : Handled K :=
  if name = "max_velocity" then .applied { m with maxVelocities := v } true
  else if name = "min_velocity" then .applied { m with minVelocities := v } true
  else if name = "max_accel" then .applied { m with maxAccels := v } (!decide (∃ a, v a < 0))
  else if name = "max_decel" then .applied { m with maxDecels := v } (!decide (∃ a, 0 < v a))
  else if name = "deadband_velocity" then .applied { m with deadbandVelocities := v } true
  else .applied m true

def Members.setString (m : Members K) (name v : String) : Handled K :=
  if name = "feedback" then
    if v = "OPEN_LOOP" then .applied { m with openLoop := true } true
    else if v = "CLOSED_LOOP" then .applied { m with openLoop := false } true
    else .stopped
  else if name = "odom_topic" then .applied { m with odomTopic := v } true
  else .applied m true

def Members.setParameter (m : Members K) (p : Parameter K) : Handled K :=
  match p.value with
  | .double v => m.setDouble fromSeconds p.name v
  | .doubleArray [x, y, z] => m.setArray p.name (axes x y z)
  | .doubleArray _ => .stopped
  | .string v => m.setString p.name v
  | .other => .applied m true

/-- 例外のとき `none`。 -/
def Members.setParameters (m : Members K) (successful : Bool) : List (Parameter K) → Option (Members K × Bool)
  | [] => some (m, successful)
  | p :: ps =>
      match m.setParameter fromSeconds p with
      | .applied m' valid => m'.setParameters (successful && valid) ps
      | .stopped => some (m, false)
      | .thrown => none

/-- メンバと `result.successful`。 -/
def dynamicParametersCallback (m : Members K) (ps : List (Parameter K)) : Option (Members K × Bool) :=
  m.setParameters fromSeconds true ps

/-- 一周期に許される変化の下限と上限。 -/
def Members.limits (m : Members K) (a : Axis) (vCurr vCmd : K) : Double K × Double K :=
  if |vCurr| ≤ |vCmd| ∧ 0 ≤ vCurr * vCmd then
    (-m.maxAccels a / m.smoothingFrequency, m.maxAccels a / m.smoothingFrequency)
  else (m.maxDecels a / m.smoothingFrequency, -m.maxDecels a / m.smoothingFrequency)

/-- 大きさ `v` を周波数 `f` で割った幅の、下限と上限の順が保たれる。 -/
def Keeps : Double K → Double K → Prop
  | .real f, v => 0 < f ∨ v = 0
  | .inf _, v => v.IsReal
  | .nan, _ => False

/-- 符号と大小の条件。`std::clamp` の下限は上限を超えない。 -/
structure Members.Sound (m : Members K) : Prop where
  accel : ∀ a, 0 ≤ m.maxAccels a
  decel : ∀ a, m.maxDecels a ≤ 0
  velocity : ∀ a, m.minVelocities a ≤ m.maxVelocities a
  clamps : ∀ a vCurr vCmd, (m.limits a vCurr vCmd).1 ≤ (m.limits a vCurr vCmd).2

/-! ## 設定 -/

inductive Setting
  | smoothingFrequency | velocityTimeout | odomDuration | maxVelocity | minVelocity | maxAccel | maxDecel
  | deadbandVelocity | feedback | odomTopic

abbrev Setting.Value (K : Type) : Setting → Type
  | .smoothingFrequency | .odomDuration => Double K
  | .velocityTimeout => Int
  | .maxVelocity | .minVelocity | .maxAccel | .maxDecel | .deadbandVelocity => Twist (Double K)
  | .feedback => Bool
  | .odomTopic => String

def Setting.read : (i : Setting) → Members K → i.Value K
  | .smoothingFrequency, m => m.smoothingFrequency
  | .velocityTimeout, m => m.velocityTimeout
  | .odomDuration, m => m.odomDuration
  | .maxVelocity, m => m.maxVelocities
  | .minVelocity, m => m.minVelocities
  | .maxAccel, m => m.maxAccels
  | .maxDecel, m => m.maxDecels
  | .deadbandVelocity, m => m.deadbandVelocities
  | .feedback, m => m.openLoop
  | .odomTopic, m => m.odomTopic

def Parameter.double (p : Parameter K) (name : String) : Option (Double K) :=
  match p.value with
  | .double v => if p.name = name then some v else none
  | _ => none

def Parameter.array (p : Parameter K) (name : String) : Option (Twist (Double K)) :=
  match p.value with
  | .doubleArray [x, y, z] => if p.name = name then some (axes x y z) else none
  | _ => none

def Parameter.string (p : Parameter K) (name : String) : Option String :=
  match p.value with
  | .string v => if p.name = name then some v else none
  | _ => none

/-- パラメータが設定に与える値。 -/
def Setting.value : (i : Setting) → Parameter K → Option (i.Value K)
  | .smoothingFrequency, p => p.double "smoothing_frequency"
  | .velocityTimeout, p => (p.double "velocity_timeout").map fromSeconds
  | .odomDuration, p => p.double "odom_duration"
  | .maxVelocity, p => p.array "max_velocity"
  | .minVelocity, p => p.array "min_velocity"
  | .maxAccel, p => p.array "max_accel"
  | .maxDecel, p => p.array "max_decel"
  | .deadbandVelocity, p => p.array "deadband_velocity"
  | .feedback, p => (p.string "feedback").map fun v => decide (v = "OPEN_LOOP")
  | .odomTopic, p => p.string "odom_topic"

/-- 大きさの異なる配列と、知らない `feedback`。 -/
def Parameter.stops (p : Parameter K) : Bool :=
  match p.value with
  | .doubleArray v => v.length != 3
  | .string v => p.name == "feedback" && v != "OPEN_LOOP" && v != "CLOSED_LOOP"
  | .double _ | .other => false

/-- 符号の検査に通らない加速度と減速度。 -/
def Parameter.invalid (p : Parameter K) : Bool :=
  (p.array "max_accel").any (fun v => decide (∃ a, v a < 0)) ||
    (p.array "max_decel").any (fun v => decide (∃ a, 0 < v a))

/-- `break` までのパラメータ。 -/
def handled (ps : List (Parameter K)) : List (Parameter K) := ps.takeWhile fun p => !p.stops

/-- 検査に通らないパラメータを含む。 -/
def rejects (ps : List (Parameter K)) : Bool := ps.any Parameter.stops || (handled ps).any Parameter.invalid

/-- 処理されるパラメータが設定に最後に与える値。なければ今の値である。 -/
def Setting.given (i : Setting) (m : Members K) (ps : List (Parameter K)) : i.Value K :=
  (((handled ps).filterMap (i.value fromSeconds)).getLast?).getD (i.read m)

end Model

/-! ## 一つのパラメータ -/

section Lemmas

variable {K : Type} [Field K] [LinearOrder K] {fromSeconds : Double K → Int}

omit [Field K] [LinearOrder K] in
theorem Members.ext_read {m m' : Members K} (h : ∀ i : Setting, i.read m = i.read m') : m = m' := by
  cases m
  cases m'
  have hvalues := fun i => h i
  simp only [Members.mk.injEq]
  exact ⟨hvalues .smoothingFrequency, hvalues .velocityTimeout, hvalues .odomDuration, hvalues .maxVelocity,
    hvalues .minVelocity, hvalues .maxAccel, hvalues .maxDecel, hvalues .deadbandVelocity, hvalues .feedback,
    hvalues .odomTopic⟩

theorem setDouble_spec {m m' : Members K} {name : String} {v : Double K} {valid : Bool}
    (h : m.setDouble fromSeconds name v = .applied m' valid) :
    valid = true ∧ ∀ i : Setting, i.read m' = (i.value fromSeconds ⟨name, .double v⟩).getD (i.read m) := by
  unfold Members.setDouble at h
  split_ifs at h
  all_goals
    cases h
    refine ⟨rfl, fun i => ?_⟩
    cases i <;> simp_all [Setting.read, Setting.value, Parameter.double, Parameter.array, Parameter.string]

theorem setArray_spec {m m' : Members K} {name : String} {x y z : Double K} {valid : Bool}
    (h : m.setArray name (axes x y z) = .applied m' valid) :
    valid = !(⟨name, .doubleArray [x, y, z]⟩ : Parameter K).invalid ∧ ∀ i : Setting,
      i.read m' = (i.value fromSeconds ⟨name, .doubleArray [x, y, z]⟩).getD (i.read m) := by
  unfold Members.setArray at h
  split_ifs at h
  all_goals
    cases h
    refine ⟨by simp_all [Parameter.invalid, Parameter.array], fun i => ?_⟩
    cases i <;> simp_all [Setting.read, Setting.value, Parameter.double, Parameter.array, Parameter.string]

omit [Field K] [LinearOrder K] in
theorem setString_spec {m m' : Members K} {name v : String} {valid : Bool}
    (h : m.setString name v = .applied m' valid) :
    (⟨name, .string v⟩ : Parameter K).stops = false ∧ valid = true ∧ ∀ i : Setting,
      i.read m' = (i.value fromSeconds ⟨name, .string v⟩).getD (i.read m) := by
  unfold Members.setString at h
  split_ifs at h
  all_goals
    cases h
    refine ⟨by simp_all [Parameter.stops], rfl, fun i => ?_⟩
    cases i <;> simp_all [Setting.read, Setting.value, Parameter.double, Parameter.array, Parameter.string]

/-- 処理されたパラメータは、それが値を与える設定だけを変える。 -/
theorem setParameter_applied {m m' : Members K} {p : Parameter K} {valid : Bool}
    (h : m.setParameter fromSeconds p = .applied m' valid) :
    p.stops = false ∧ valid = !p.invalid ∧ ∀ i : Setting, i.read m' = (i.value fromSeconds p).getD (i.read m) := by
  obtain ⟨name, value⟩ := p
  unfold Members.setParameter at h
  split at h
  · rename_i v hv
    cases hv
    obtain ⟨hvalid, hread⟩ := setDouble_spec h
    exact ⟨rfl, by rw [hvalid]; rfl, hread⟩
  · rename_i x y z hv
    cases hv
    exact ⟨rfl, setArray_spec h⟩
  · cases h
  · rename_i v hv
    cases hv
    obtain ⟨hstops, hvalid, hread⟩ := setString_spec h
    exact ⟨hstops, by rw [hvalid]; rfl, hread⟩
  · rename_i hv
    cases hv
    cases h
    refine ⟨rfl, rfl, fun i => ?_⟩
    cases i <;> rfl

theorem setParameter_stopped {m : Members K} {p : Parameter K} (h : m.setParameter fromSeconds p = .stopped) :
    p.stops = true := by
  obtain ⟨name, value⟩ := p
  unfold Members.setParameter at h
  split at h
  · rename_i v hv
    unfold Members.setDouble at h
    split_ifs at h
  · rename_i x y z hv
    unfold Members.setArray at h
    split_ifs at h
  · rename_i v hlong hv
    cases hv
    -- 三つの要素を持つ配列は、処理される。
    rcases v with _ | ⟨x, _ | ⟨y, _ | ⟨z, _ | ⟨w, rest⟩⟩⟩⟩
    · rfl
    · rfl
    · rfl
    · exact absurd rfl (hlong x y z)
    · simp [Parameter.stops]
  · rename_i v hv
    cases hv
    unfold Members.setString at h
    split_ifs at h with hname hopen hclosed
    have hfeedback : name = "feedback" := hname
    simp [Parameter.stops, hfeedback, hopen, hclosed]
  · cases h

theorem setParameter_frequency {m m' : Members K} {p : Parameter K} {valid : Bool}
    (h : m.setParameter fromSeconds p = .applied m' valid) (hm : CreatesTimer m.smoothingFrequency) :
    CreatesTimer m'.smoothingFrequency := by
  unfold Members.setParameter at h
  split at h
  · unfold Members.setDouble at h
    split_ifs at h with hname hcreates
    · cases h
      exact hcreates
    all_goals
      cases h
      exact hm
  · unfold Members.setArray at h
    split_ifs at h
    all_goals
      cases h
      exact hm
  · cases h
  · unfold Members.setString at h
    split_ifs at h
    all_goals
      cases h
      exact hm
  · cases h
    exact hm

/-! ## パラメータの並び -/

omit [Field K] [LinearOrder K] in
theorem handled_cons {p : Parameter K} (ps : List (Parameter K)) (h : p.stops = false) :
    handled (p :: ps) = p :: handled ps := by
  simp [handled, h]

theorem rejects_cons {p : Parameter K} (ps : List (Parameter K)) (h : p.stops = false) :
    rejects (p :: ps) = (p.invalid || rejects ps) := by
  rw [rejects, handled_cons ps h, List.any_cons, List.any_cons, h, rejects]
  cases p.invalid <;> simp

omit [Field K] [LinearOrder K] in
theorem given_cons {i : Setting} {m m' : Members K} {p : Parameter K} (ps : List (Parameter K))
    (h : p.stops = false) (hread : i.read m' = (i.value fromSeconds p).getD (i.read m)) :
    i.given fromSeconds m (p :: ps) = i.given fromSeconds m' ps := by
  rw [Setting.given, handled_cons ps h, getLast?_filterMap_cons, ← hread]
  rfl

/-- 並びの処理の後、どの設定も、最後に与えられた値を持つ。検査に通らないパラメータがあれば `successful` は偽である。 -/
theorem setParameters_spec {m m' : Members K} {ok ok' : Bool} {ps : List (Parameter K)}
    (h : m.setParameters fromSeconds ok ps = some (m', ok')) :
    ok' = (ok && !rejects ps) ∧ ∀ i : Setting, i.read m' = i.given fromSeconds m ps := by
  induction ps generalizing m ok with
  | nil =>
      cases h
      exact ⟨by simp [rejects, handled], fun i => rfl⟩
  | cons p ps ih =>
      simp only [Members.setParameters] at h
      split at h
      · rename_i next valid happlied
        obtain ⟨hstops, hvalid, hread⟩ := setParameter_applied happlied
        obtain ⟨hok, hnext⟩ := ih h
        refine ⟨?_, fun i => ?_⟩
        · rw [hok, hvalid, rejects_cons ps hstops, Bool.not_or, Bool.and_assoc]
        · rw [hnext i, given_cons ps hstops (hread i)]
      · rename_i hstopped
        cases h
        have hstops := setParameter_stopped hstopped
        refine ⟨by simp [rejects, hstops], fun i => ?_⟩
        simp [Setting.given, handled, hstops]
      · cases h

theorem setParameters_frequency {m m' : Members K} {ok ok' : Bool} {ps : List (Parameter K)}
    (h : m.setParameters fromSeconds ok ps = some (m', ok')) (hm : CreatesTimer m.smoothingFrequency) :
    CreatesTimer m'.smoothingFrequency := by
  induction ps generalizing m ok with
  | nil =>
      cases h
      exact hm
  | cons p ps ih =>
      simp only [Members.setParameters] at h
      split at h
      · rename_i next valid happlied
        exact ih h (setParameter_frequency happlied hm)
      · cases h
        exact hm
      · cases h

/-! ## 加速度と減速度 -/

omit [Field K] [LinearOrder K] in
/-- 設定に最後に与えられる値は、今の値か、処理されるパラメータの値である。 -/
theorem given_cases (fromSeconds : Double K → Int) (i : Setting) (m : Members K) (ps : List (Parameter K)) :
    i.given fromSeconds m ps = i.read m ∨
      ∃ p ∈ handled ps, i.value fromSeconds p = some (i.given fromSeconds m ps) := by
  unfold Setting.given
  cases hlast : ((handled ps).filterMap (i.value fromSeconds)).getLast? with
  | none => exact Or.inl rfl
  | some v =>
      obtain ⟨p, hp, hvalue⟩ := List.mem_filterMap.mp (List.mem_of_getLast? hlast)
      exact Or.inr ⟨p, hp, hvalue⟩

theorem invalid_of_not_rejects {ps : List (Parameter K)} (h : rejects ps = false) {p : Parameter K}
    (hp : p ∈ handled ps) : p.invalid = false := by
  rw [rejects, Bool.or_eq_false_iff] at h
  simpa using List.any_eq_false.mp h.2 p hp

theorem given_accel {m : Members K} (hm : ∀ a, 0 ≤ m.maxAccels a) {ps : List (Parameter K)}
    (h : rejects ps = false) (a : Axis) (hnan : Setting.maxAccel.given fromSeconds m ps a ≠ .nan) :
    0 ≤ Setting.maxAccel.given fromSeconds m ps a := by
  rcases given_cases fromSeconds .maxAccel m ps with heq | ⟨p, hp, hvalue⟩
  · rw [heq]
    exact hm a
  · have hvalid := invalid_of_not_rejects h hp
    have harray : p.array "max_accel" = some (Setting.maxAccel.given fromSeconds m ps) := hvalue
    simp only [Parameter.invalid, harray, Option.any_some, Bool.or_eq_false_iff, decide_eq_false_iff_not] at hvalid
    exact Double.le_iff_not_lt.mpr ⟨fun hneg => hvalid.1 ⟨a, hneg⟩, nofun, hnan⟩

theorem given_decel {m : Members K} (hm : ∀ a, m.maxDecels a ≤ 0) {ps : List (Parameter K)}
    (h : rejects ps = false) (a : Axis) (hnan : Setting.maxDecel.given fromSeconds m ps a ≠ .nan) :
    Setting.maxDecel.given fromSeconds m ps a ≤ 0 := by
  rcases given_cases fromSeconds .maxDecel m ps with heq | ⟨p, hp, hvalue⟩
  · rw [heq]
    exact hm a
  · have hvalid := invalid_of_not_rejects h hp
    have harray : p.array "max_decel" = some (Setting.maxDecel.given fromSeconds m ps) := hvalue
    simp only [Parameter.invalid, harray, Option.any_some, Bool.or_eq_false_iff, decide_eq_false_iff_not] at hvalid
    exact Double.le_iff_not_lt.mpr ⟨fun hpos => hvalid.2 ⟨a, hpos⟩, hnan, nofun⟩

/-! ## 起動の後 -/

theorem activated_eq {c : Settings (Double K)} {odomDuration : Double K} {odomTopic : String} {m : Members K}
    (h : activated c odomDuration odomTopic = some m) :
    c.checkLimits = .ok () ∧ CreatesTimer c.smoothingFrequency ∧
      m = ⟨c.smoothingFrequency, c.velocityTimeout, odomDuration, c.maxVelocities, c.minVelocities, c.maxAccels,
        c.maxDecels, c.deadbandVelocities, c.feedback = "OPEN_LOOP", odomTopic⟩ := by
  unfold activated at h
  split at h
  · cases h
  · rename_i hlimits
    split_ifs at h with hfeedback htimer
    cases h
    exact ⟨hlimits, htimer, rfl⟩

/-- 有限の値の設定。 -/
def Settings.toDouble (c : Settings K) : Settings (Double K) where
  smoothingFrequency := .real c.smoothingFrequency
  feedback := c.feedback
  scaleVelocities := c.scaleVelocities
  maxVelocities a := .real (c.maxVelocities a)
  minVelocities a := .real (c.minVelocities a)
  maxAccels a := .real (c.maxAccels a)
  maxDecels a := .real (c.maxDecels a)
  deadbandVelocities a := .real (c.deadbandVelocities a)
  velocityTimeout := c.velocityTimeout

theorem checkLimits_toDouble (c : Settings K) : c.toDouble.checkLimits = c.checkLimits := by
  simp only [Settings.checkLimits, Settings.checkAxis, Settings.toDouble, Double.zero_def, Double.real_lt_real]

/-- 起動の後の変化の制限は、有限の値では、受け入れた設定のものである。 -/
theorem limits_activated {c : Settings K} {hf : 0 < c.smoothingFrequency} {p : Params K}
    (hp : onConfigure c hf = .ok p) {odomDuration : Double K} {odomTopic : String} {m : Members K}
    (h : activated c.toDouble odomDuration odomTopic = some m) (a : Axis) (vCurr vCmd : K) :
    m.limits a vCurr vCmd = (.real (limits p a vCurr vCmd).1, .real (limits p a vCurr vCmd).2) := by
  obtain ⟨-, -, rfl⟩ := activated_eq h
  obtain ⟨rfl, -⟩ := onConfigure_ok hp
  simp only [Members.limits, limits, Settings.toDouble, Double.neg_real, Double.real_div_real hf.ne']
  split <;> rfl

/-! ## 変化の制限 -/

variable [IsStrictOrderedRing K]

theorem neg_div_le_div_iff {f v : Double K} (hf : CreatesTimer f) (hv : 0 ≤ v) : -v / f ≤ v / f ↔ Keeps f v := by
  cases f with
  | nan => exact hf.elim
  | inf s =>
      cases v with
      | nan => exact hv.elim
      | inf t => exact Iff.rfl
      | real v => exact iff_of_true le_rfl trivial
  | real f =>
      cases v with
      | nan => exact hv.elim
      | inf t =>
          have ht : t = false := hv
          subst ht
          have hsign : decide (f < 0) = false ↔ 0 < f := by
            rw [decide_eq_false_iff_not, not_lt]
            exact ⟨fun h => lt_of_le_of_ne h (Ne.symm hf.1), le_of_lt⟩
          have hkeeps : Keeps (.real f) (.inf false : Double K) ↔ 0 < f :=
            or_iff_left fun h => by cases h
          rw [hkeeps, ← hsign]
          change (true ^^ decide (f < 0)) = true ∨ (false ^^ decide (f < 0)) = false ↔ _
          cases decide (f < 0) <;> simp
      | real v =>
          have hv' : 0 ≤ v := hv
          rw [Double.neg_real, Double.real_div_real hf.1, Double.real_div_real hf.1, Double.real_le_real, neg_div]
          simp only [Keeps, Double.zero_def, Double.real.injEq]
          constructor
          · intro h
            rcases lt_or_gt_of_ne hf.1 with hneg | hpos
            · have hdiv := div_nonpos_of_nonneg_of_nonpos hv' hneg.le
              have hzero : v / f = 0 := by linarith
              exact .inr ((div_eq_zero_iff.mp hzero).resolve_right hf.1)
            · exact .inl hpos
          · rintro (hpos | rfl)
            · have hdiv := div_nonneg hv' hpos.le
              linarith
            · simp

omit [IsStrictOrderedRing K] in
theorem keeps_neg {f v : Double K} : Keeps f (-v) ↔ Keeps f v := by
  cases f with
  | nan => exact Iff.rfl
  | inf s => cases v <;> exact Iff.rfl
  | real f =>
      refine or_congr_right ?_
      cases v with
      | nan => exact Iff.rfl
      | inf t => exact iff_of_false nofun nofun
      | real v => simp [Double.zero_def]

theorem neg_nonneg_iff {v : Double K} : 0 ≤ -v ↔ v ≤ 0 := by
  cases v with
  | nan => exact Iff.rfl
  | inf t => exact (by cases t <;> decide : (!t) = false ↔ t = true)
  | real v => simp [Double.zero_def]

/-- 変化の下限が上限を超えないのは、どの加速度と減速度でも、周波数が順を保つとき、そのときに限る。 -/
theorem clamps_iff {m : Members K} (haccel : ∀ a, 0 ≤ m.maxAccels a) (hdecel : ∀ a, m.maxDecels a ≤ 0)
    (hf : CreatesTimer m.smoothingFrequency) :
    (∀ a vCurr vCmd, (m.limits a vCurr vCmd).1 ≤ (m.limits a vCurr vCmd).2) ↔
      ∀ a, Keeps m.smoothingFrequency (m.maxAccels a) ∧ Keeps m.smoothingFrequency (m.maxDecels a) := by
  have hup := fun a => neg_div_le_div_iff hf (haccel a)
  have hdown : ∀ a, m.maxDecels a / m.smoothingFrequency ≤ -m.maxDecels a / m.smoothingFrequency ↔
      Keeps m.smoothingFrequency (m.maxDecels a) := by
    intro a
    have h := neg_div_le_div_iff hf (neg_nonneg_iff.mpr (hdecel a))
    rwa [Double.neg_neg_eq, keeps_neg] at h
  constructor
  · intro h a
    -- 止まったままの加速と、止まる減速で、二つの制限を調べる。
    have hstart := h a 0 0
    have hstop := h a 1 0
    simp only [Members.limits, abs_zero, le_refl, mul_zero, and_self, if_true] at hstart
    simp only [Members.limits, abs_one, abs_zero, not_le.mpr (zero_lt_one (α := K)), false_and, if_false] at hstop
    exact ⟨(hup a).mp hstart, (hdown a).mp hstop⟩
  · intro h a u v
    unfold Members.limits
    split_ifs
    · exact (hup a).mpr (h a).1
    · exact (hdown a).mpr (h a).2

/-! ## 変更の全体 -/

/-- 起動の検査に通っても残る条件。制限に NaN がなく、周波数が変化の制限の順を保つ。 -/
structure Settings.Regular (c : Settings (Double K)) : Prop where
  accel : ∀ a, c.maxAccels a ≠ .nan ∧ c.maxDecels a ≠ .nan
  velocity : ∀ a, c.minVelocities a ≠ .nan ∧ c.maxVelocities a ≠ .nan
  frequency : ∀ a, Keeps c.smoothingFrequency (c.maxAccels a) ∧ Keeps c.smoothingFrequency (c.maxDecels a)

/-- 拒まれる並びは、設定を今の値のままにする。受け入れられる並びは、速度の下限と上限の順を保ち、加速度と減速度に NaN を与えず、
周波数は変化の制限の順を保つ。 -/
structure Members.Admits (fromSeconds : Double K → Int) (m : Members K) (ps : List (Parameter K)) : Prop where
  rejected : rejects ps = true → ∀ i : Setting, i.given fromSeconds m ps = i.read m
  velocity : rejects ps = false → ∀ a,
    Setting.minVelocity.given fromSeconds m ps a ≤ Setting.maxVelocity.given fromSeconds m ps a
  accel : rejects ps = false → ∀ a,
    Setting.maxAccel.given fromSeconds m ps a ≠ .nan ∧ Setting.maxDecel.given fromSeconds m ps a ≠ .nan
  frequency : rejects ps = false → ∀ a,
    Keeps (Setting.smoothingFrequency.given fromSeconds m ps) (Setting.maxAccel.given fromSeconds m ps a) ∧
      Keeps (Setting.smoothingFrequency.given fromSeconds m ps) (Setting.maxDecel.given fromSeconds m ps a)

theorem callback_iff {m m' : Members K} {ok : Bool} {ps : List (Parameter K)} (hm : m.Sound)
    (hf : CreatesTimer m.smoothingFrequency) (h : dynamicParametersCallback fromSeconds m ps = some (m', ok)) :
    ((ok = false → m' = m) ∧ m'.Sound) ↔ m.Admits fromSeconds ps := by
  obtain ⟨hok, hread⟩ := setParameters_spec h
  have htimer := setParameters_frequency h hf
  have hmin : m'.minVelocities = Setting.minVelocity.given fromSeconds m ps := hread .minVelocity
  have hmax : m'.maxVelocities = Setting.maxVelocity.given fromSeconds m ps := hread .maxVelocity
  have haccel : m'.maxAccels = Setting.maxAccel.given fromSeconds m ps := hread .maxAccel
  have hdecel : m'.maxDecels = Setting.maxDecel.given fromSeconds m ps := hread .maxDecel
  have hfreq : m'.smoothingFrequency = Setting.smoothingFrequency.given fromSeconds m ps :=
    hread .smoothingFrequency
  constructor
  · rintro ⟨hsame, hsound⟩
    constructor
    · intro hrejects i
      rw [← hread i, hsame (by rw [hok, hrejects]; rfl)]
    · intro _ a
      rw [← hmin, ← hmax]
      exact hsound.velocity a
    · intro _ a
      rw [← haccel, ← hdecel]
      exact ⟨(Double.ne_nan_of_le (hsound.accel a)).2, (Double.ne_nan_of_le (hsound.decel a)).1⟩
    · intro _
      rw [← hfreq, ← haccel, ← hdecel]
      exact (clamps_iff hsound.accel hsound.decel htimer).mp hsound.clamps
  · intro hadmits
    cases hrejects : rejects ps with
    | true =>
        have hsame : m' = m := Members.ext_read fun i => (hread i).trans (hadmits.rejected hrejects i)
        exact ⟨fun _ => hsame, hsame ▸ hm⟩
    | false =>
        have haccel' : ∀ a, 0 ≤ m'.maxAccels a := by
          intro a
          rw [haccel]
          exact given_accel hm.accel hrejects a (hadmits.accel hrejects a).1
        have hdecel' : ∀ a, m'.maxDecels a ≤ 0 := by
          intro a
          rw [hdecel]
          exact given_decel hm.decel hrejects a (hadmits.accel hrejects a).2
        refine ⟨fun hfalse => ?_, haccel', hdecel', ?_, (clamps_iff haccel' hdecel' htimer).mpr ?_⟩
        · rw [hok, hrejects] at hfalse
          cases hfalse
        · intro a
          rw [hmin, hmax]
          exact hadmits.velocity hrejects a
        · rw [hfreq, haccel, hdecel]
          exact hadmits.frequency hrejects

theorem activated_sound_iff {c : Settings (Double K)} {odomDuration : Double K} {odomTopic : String} {m : Members K}
    (h : activated c odomDuration odomTopic = some m) : m.Sound ↔ c.Regular := by
  obtain ⟨hlimits, htimer, rfl⟩ := activated_eq h
  have hchecked := fun a => Settings.checkAxis_not_lt (Settings.checkLimits_ok hlimits a)
  constructor
  · intro hsound
    exact ⟨fun a => ⟨(Double.ne_nan_of_le (hsound.accel a)).2, (Double.ne_nan_of_le (hsound.decel a)).1⟩,
      fun a => Double.ne_nan_of_le (hsound.velocity a), (clamps_iff hsound.accel hsound.decel htimer).mp hsound.clamps⟩
  · intro hregular
    have haccel : ∀ a, 0 ≤ c.maxAccels a :=
      fun a => Double.le_iff_not_lt.mpr ⟨(hchecked a).2.1, nofun, (hregular.accel a).1⟩
    have hdecel : ∀ a, c.maxDecels a ≤ 0 :=
      fun a => Double.le_iff_not_lt.mpr ⟨(hchecked a).1, (hregular.accel a).2, nofun⟩
    exact ⟨haccel, hdecel, fun a => Double.le_iff_not_lt.mpr ⟨(hchecked a).2.2, hregular.velocity a⟩,
      (clamps_iff haccel hdecel htimer).mpr hregular.frequency⟩

end Lemmas

/-! ## 変更の実行 -/

section Runs

variable {K : Type} [Field K] [LinearOrder K] [IsStrictOrderedRing K]

/-- メンバと、最後の変更の `successful`。 -/
def change (fromSeconds : Double K → Int) (s : Members K × Bool) (ps : List (Parameter K)) : Option (Members K × Bool) :=
  dynamicParametersCallback fromSeconds s.1 ps

/-- 拒んだ変更は何も変えず、制限の条件が成り立つ。 -/
def Guarded (s : Members K × Bool) (_ : List (Parameter K)) (t : Members K × Bool) : Prop :=
  (t.2 = false → t.1 = s.1) ∧ t.1.Sound

/-- 起動してからのどの変更の後でも条件が成り立つのは、起動の設定が `Regular` で、どの変更も `Admits` を満たすとき、
またそのときに限る。 -/
theorem parameters_guarded_iff (fromSeconds : Double K → Int) (c : Settings (Double K)) (odomDuration : Double K)
    (odomTopic : String) (m : Members K) (h : activated c odomDuration odomTopic = some m)
    (pss : List (List (Parameter K))) :
    (m.Sound ∧ Always (change fromSeconds) Guarded (m, true) pss) ↔
      c.Regular ∧ Always (change fromSeconds) (fun s ps _ => s.1.Admits fromSeconds ps) (m, true) pss := by
  rw [activated_sound_iff h]
  apply and_congr_right
  intro hregular
  have hm : m.Sound := (activated_sound_iff h).mpr hregular
  have hinv : ∀ (s : Members K × Bool) ps t, s.1.Sound ∧ CreatesTimer s.1.smoothingFrequency →
      change fromSeconds s ps = some t → s.1.Admits fromSeconds ps →
      t.1.Sound ∧ CreatesTimer t.1.smoothingFrequency := by
    rintro s ps ⟨m', ok⟩ ⟨hs, hf⟩ hstep hadmits
    exact ⟨((callback_iff hs hf hstep).mpr hadmits).2, setParameters_frequency hstep hf⟩
  apply Always.iff_of_inv hinv
  · rintro s ps ⟨m', ok⟩ ⟨hs, hf⟩ hstep
    exact callback_iff hs hf hstep
  · obtain ⟨-, htimer, rfl⟩ := activated_eq h
    exact ⟨hm, htimer⟩

end Runs

def exampleMembers : Members ℚ where
  smoothingFrequency := .real exampleParams.smoothingFrequency
  velocityTimeout := exampleParams.velocityTimeout
  odomDuration := .real (1 / 10)
  maxVelocities := exampleParams.toDouble.maxVelocities
  minVelocities := exampleParams.toDouble.minVelocities
  maxAccels := exampleParams.toDouble.maxAccels
  maxDecels := exampleParams.toDouble.maxDecels
  deadbandVelocities := exampleParams.toDouble.deadbandVelocities
  openLoop := true
  odomTopic := "odom"

theorem activated_example : activated exampleParams.toDouble (.real (1 / 10)) "odom" = some exampleMembers := by
  have htimer : CreatesTimer exampleParams.toDouble.smoothingFrequency := by decide +kernel
  simp only [activated, checkLimits_toDouble, exampleParams.accepted]
  rw [if_neg (by decide), if_pos htimer]
  rfl

theorem regular_example : exampleParams.toDouble.Regular :=
  ⟨fun _ => ⟨nofun, nofun⟩, fun _ => ⟨nofun, nofun⟩,
    fun _ => ⟨.inl exampleParams.frequency_pos, .inl exampleParams.frequency_pos⟩⟩

def toNanoseconds : Double ℚ → Int
  | .real seconds => (seconds * 1000000000).num.tdiv (seconds * 1000000000).den
  | .nan | .inf _ => 0

-- 速度の上限を下げ、次に加速度を変える変更は、どちらも受け入れられる。
theorem parameters_guarded_iff_lowered :
    activated exampleParams.toDouble (.real (1 / 10)) "odom" = some exampleMembers ∧ exampleMembers.Sound ∧
      Always (change toNanoseconds) Guarded (exampleMembers, true)
        [[⟨"max_velocity", .doubleArray [.real (2 / 5), .real (2 / 5), .real (2 / 5)]⟩],
          [⟨"max_accel", .doubleArray [.real 1, .real 0, .inf false]⟩]] := by
  have hfreq : (0 : ℚ) < exampleParams.smoothingFrequency := exampleParams.frequency_pos
  refine ⟨activated_example, (parameters_guarded_iff toNanoseconds exampleParams.toDouble (.real (1 / 10)) "odom"
    exampleMembers activated_example _).mpr ⟨regular_example, ?_⟩⟩
  intro t ht
  refine ⟨⟨fun hrejects => ?_, fun _ => ?_, fun _ => ?_, fun _ a => ⟨.inl hfreq, .inl hfreq⟩⟩, ?_⟩
  · exact absurd hrejects (by decide +kernel)
  · decide +kernel
  · decide +kernel
  · cases ht
    intro u _
    refine ⟨⟨fun hrejects => ?_, fun _ => ?_, fun _ => ?_, fun _ a => ⟨.inl hfreq, .inl hfreq⟩⟩, Always.nil u⟩
    · exact absurd hrejects (by decide +kernel)
    · decide +kernel
    · decide +kernel

-- 負の加速度は拒まれるが、書き込まれる。
theorem parameters_guarded_fails :
    ¬ ∀ (fromSeconds : Double ℚ → Int) (c : Settings (Double ℚ)) (odomDuration : Double ℚ) (odomTopic : String)
      (m : Members ℚ), activated c odomDuration odomTopic = some m → ∀ pss : List (List (Parameter ℚ)),
        m.Sound ∧ Always (change fromSeconds) Guarded (m, true) pss := by
  intro h
  have hchange : change toNanoseconds (exampleMembers, true) [⟨"max_accel", .doubleArray [.real (-1), 0, 0]⟩] =
      some ({ exampleMembers with maxAccels := axes (.real (-1)) 0 0 }, false) := by
    have hneg : ∃ a, axes (.real (-1)) 0 (0 : Double ℚ) a < 0 := ⟨.x, by decide +kernel⟩
    simp [change, dynamicParametersCallback, Members.setParameters, Members.setParameter, Members.setArray, hneg]
  obtain ⟨-, halways⟩ := h toNanoseconds exampleParams.toDouble (.real (1 / 10)) "odom" exampleMembers
    activated_example [[⟨"max_accel", .doubleArray [.real (-1), 0, 0]⟩]]
  have haccel := (halways _ hchange).1.2.accel .x
  exact absurd haccel (by decide +kernel)

end Ranger.Nav.Smoother
