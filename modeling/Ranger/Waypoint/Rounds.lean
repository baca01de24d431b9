import Ranger.Waypoint.Theorems

/-!
# 中断と再開の繰り返し

一つのシナリオを始めた後、PAUSE かサーバの中断と、CONTINUE を繰り返す実行を扱う。再開する位置は、送ったゴールの
始まり、フィードバックの添字、二つの `max` から計算し直される。これが、まだ処理されていない最初の経由点より後に
ならないことを、実行の全体について示す。
-/

namespace Ranger.Waypoint
open Ranger.Lib

variable {Pose : Type}

/-! ## 繰り返しの条件と、再開の性質 -/

/-- サーバは、ゴールの経由点を先頭から一つずつ処理し、先頭の `i` 個を処理した後にだけ添字 `i` のフィードバックを送り、すべてを処理した後にだけ
`SUCCEEDED` を返す。 -/
def ServerHonest (s : Sys Pose) : Event Pose → Prop
  | .progress g => ∀ goal ∈ s.goals[g]?, goal.processed < goal.poses.length
  | .feedback g i => ∀ goal ∈ s.goals[g]?, i ≤ goal.processed
  | .result g .succeeded => ∀ goal ∈ s.goals[g]?, goal.poses.length ≤ goal.processed
  | _ => True

/-- 始めた後の要求は PAUSE か CONTINUE であり、CSV の内容は変わらない。 -/
def SameScene (file : WaypointFile) (all : List Pose) : Event Pose → Prop
  | .request scene _ _ csv =>
      (scene = WaypointTask.PAUSE ∨ scene = WaypointTask.CONTINUE) ∧ csv file = some all
  | .wake csv => csv file = some all
  | _ => True

def RoundStep (file : WaypointFile) (all : List Pose) (s : Sys Pose) (e : Event Pose) (t : Sys Pose) :
    Prop :=
  Serialized s e t ∧ ServerHonest s e ∧ SameScene file all e

instance (s : Sys Pose) : (e : Event Pose) → Decidable (ServerHonest s e)
  | .progress _ | .feedback _ _ | .result _ .succeeded => inferInstanceAs (Decidable (∀ goal ∈ _, _))
  | .request _ _ _ _ | .wake _ | .response _ _ | .result _ .aborted | .result _ .canceled
  | .result _ .unknown => inferInstanceAs (Decidable True)

instance [DecidableEq Pose] (file : WaypointFile) (all : List Pose) :
    (e : Event Pose) → Decidable (SameScene file all e)
  | .request _ _ _ _ => inferInstanceAs (Decidable (_ ∧ _))
  | .wake _ => inferInstanceAs (Decidable (_ = _))
  | .response _ _ | .progress _ | .feedback _ _ | .result _ _ => inferInstanceAs (Decidable True)

instance [DecidableEq Pose] (file : WaypointFile) (all : List Pose) (s t : Sys Pose) (e : Event Pose) :
    Decidable (RoundStep file all s e t) :=
  inferInstanceAs (Decidable (_ ∧ _ ∧ _))

/-- `all` の `j` 番目の経由点は、番号 `n` 以後のゴールの経由点として、サーバが処理した。 -/
def Sys.Processed (s : Sys Pose) (n : Nat) (all : List Pose) (j : Nat) : Prop :=
  ∃ (g : Nat) (goal : Goal Pose) (b k : Nat), n ≤ g ∧ s.goals[g]? = some goal ∧ goal.base = b ∧
    goal.poses = all.drop b ∧ j = b + k ∧ k < goal.processed ∧ k < goal.poses.length

/-- `paused_waypoint_` は減らない。ゴールを送るときは、`paused_waypoint_ + 1` 番目からの残りを送り、それより前の
経由点はすべて処理されている。 -/
def RoundResumes (n : Nat) (all : List Pose) (s : Sys Pose) (e : Event Pose) (t : Sys Pose) : Prop :=
  s.runner.pausedWaypoint ≤ t.runner.pausedWaypoint ∧
    ∀ o ps, s.reply e = some o → o.send = some ps →
      0 ≤ s.runner.pausedWaypoint + 1 ∧ ps = all.drop (s.runner.pausedWaypoint + 1).toNat ∧
        ∀ j : Nat, (j : Int) < s.runner.pausedWaypoint + 1 → s.Processed n all j

/-! ## 不変条件 -/

/-- 未了のゴールは、最後に終えた経由点の次から始まり、フィードバックの添字は処理した数を超えない。 -/
structure Tracks (n : Nat) (all : List Pose) (r : Runner) (g : Nat) (goal : Goal Pose) : Prop where
  after : n ≤ g
  base : goal.base = r.baseStartIdx
  next : goal.base = r.pausedWaypoint + 1
  poses : goal.poses = all.drop goal.base.toNat
  nonempty : goal.poses ≠ []
  size : r.lastGoalSize = goal.poses.length
  processed : goal.processed ≤ goal.poses.length
  localIdx : r.localWpIdx ≤ goal.processed

/-- 番号 `n` のゴールでシナリオ `scene` を始めた後の、繰り返しの不変条件。 -/
structure Round (n : Nat) (scene : Int) (all : List Pose) (s : Sys Pose) : Prop where
  lastScene : s.runner.lastScene = scene
  started : n ≤ s.goals.length
  low : -1 ≤ s.runner.pausedWaypoint
  done : ∀ j : Nat, (j : Int) ≤ s.runner.pausedWaypoint → s.Processed n all j
  newest : NewestOnly s
  current : ∀ g goal, s.goals[g]? = some goal → goal.Outstanding → Tracks n all s.runner g goal

theorem Sys.Processed.step {s t : Sys Pose} {e : Event Pose} {n all j} (hp : s.Processed n all j)
    (h : Step s e t) : t.Processed n all j := by
  obtain ⟨g, goal, b, k, hn, hg, hbase, hposes, hj, hk, hlen⟩ := hp
  obtain ⟨goal', hg', hposes', hbase', hproc⟩ := h.goal_grows hg
  exact ⟨g, goal', b, k, hn, hg', hbase'.trans hbase, hposes'.trans hposes, hj, by omega,
    by rw [hposes']; exact hlen⟩

/-! ## 結果のコールバック -/

theorem Round.result_processed {n scene all} {s : Sys Pose} (hi : Round n scene all s) {g goal code}
    (hg : s.goals[g]? = some goal) (ho : goal.Outstanding) (hs : ServerHonest s (.result g code))
    {j : Nat} (hj : (j : Int) ≤ lastCompletedGlobal code s.runner) : s.Processed n all j := by
  by_cases hold : (j : Int) ≤ s.runner.pausedWaypoint
  · exact hi.done j hold
  · obtain ⟨hn, hbase, hnext, hposes, hne, hsize, hlen, hlocal⟩ := hi.current g goal hg ho
    have hpos : 0 < goal.poses.length := List.length_pos_of_ne_nil hne
    have hlow := hi.low
    refine ⟨g, goal, goal.base.toNat, j - goal.base.toNat, hn, hg, by omega, hposes, by omega, ?_⟩
    unfold lastCompletedGlobal at hj
    split at hj
    · rename_i hcode
      subst hcode
      have hall : goal.poses.length ≤ goal.processed := hs goal hg
      omega
    · omega

theorem resultCallback_paused (code : ResultCode) (r : Runner) :
    (resultCallback code r).1.pausedWaypoint =
      if code = .unknown then r.pausedWaypoint else max r.pausedWaypoint (lastCompletedGlobal code r) := by
  cases code <;> rfl

theorem resultCallback_lastScene (code : ResultCode) (r : Runner) :
    (resultCallback code r).1.lastScene = r.lastScene := by
  cases code <;> rfl

/-! ## 一つの遷移 -/

/-- 要求の動作が、PAUSE か CONTINUE の場合にすることは、記録を変えないか、残りを送るかである。 -/
theorem Round.serve {n scene file all} {s : Sys Pose} {e : Event Pose} {o : Outcome Pose}
    (hi : Round n scene all s) (hf : waypointFile scene = some file) (hr : s.reply e = some o)
    (hsame : SameScene file all e) :
    o.runner.pausedWaypoint = s.runner.pausedWaypoint ∧ o.runner.lastScene = s.runner.lastScene ∧
      ((o.send = none ∧ o.runner.baseStartIdx = s.runner.baseStartIdx ∧
          o.runner.localWpIdx = s.runner.localWpIdx ∧
          o.runner.lastGoalSize = s.runner.lastGoalSize) ∨
        ∃ ps, o.send = some ps ∧ ps ≠ [] ∧ ps = all.drop (s.runner.pausedWaypoint + 1).toNat ∧
          o.runner.baseStartIdx = s.runner.pausedWaypoint + 1 ∧ o.runner.localWpIdx = -1 ∧
          o.runner.lastGoalSize = ps.length) := by
  rcases Sys.reply_run hr with ⟨_, rfl⟩ | ⟨scene', csv, tp, kind, hserve, _, htask⟩
  · exact ⟨rfl, rfl, Or.inl ⟨rfl, rfl, rfl, rfl⟩⟩
  · have hnone : waypointFile scene' = none := by
      cases hserve with
      | request => rcases hsame.1 with rfl | rfl <;> rfl
      | wake => rfl
    have hcsv : csv file = some all := by
      cases hserve with
      | request => exact hsame.2
      | wake => exact hsame
    cases htask with
    | refused _ => exact ⟨rfl, rfl, Or.inl ⟨rfl, rfl, rfl, rfl⟩⟩
    | asleep => exact ⟨rfl, rfl, Or.inl ⟨rfl, rfl, rfl, rfl⟩⟩
    | nothingLeft => exact ⟨rfl, rfl, Or.inl ⟨rfl, rfl, rfl, rfl⟩⟩
    | pausing _ _ => exact ⟨rfl, rfl, Or.inl ⟨rfl, rfl, rfl, rfl⟩⟩
    | unopened hf' _ => rw [hnone] at hf'; cases hf'
    | noWaypoint hf' _ => rw [hnone] at hf'; cases hf'
    | started hf' _ _ => rw [hnone] at hf'; cases hf'
    | resumed _ hfile hall hps hne =>
        have hlow := hi.low
        have hmax : max 0 (s.runner.pausedWaypoint + 1) = s.runner.pausedWaypoint + 1 := by omega
        have heq : waypointFile s.runner.lastScene = some _ := hfile
        rw [hi.lastScene, hf] at heq
        cases heq
        rw [hcsv] at hall
        cases hall
        have hslice := hps
        simp only [Runner.stamp, hmax] at hslice
        rw [sliceFrom_of_nonneg (by omega)] at hslice
        exact ⟨rfl, rfl, Or.inr ⟨_, rfl, hne, hslice, hmax, rfl, rfl⟩⟩

theorem Round.set {n scene all} {s : Sys Pose} (hi : Round n scene all s) {e : Event Pose} {r task g goal}
    {goal' : Goal Pose} (hg : s.goals[g]? = some goal) (ho : goal.Outstanding)
    (hstep : Step s e ⟨r, task, s.goals.set g goal'⟩) (hscene : r.lastScene = s.runner.lastScene)
    (hle : s.runner.pausedWaypoint ≤ r.pausedWaypoint)
    (hdone : ∀ j : Nat, (j : Int) ≤ r.pausedWaypoint → s.Processed n all j)
    (hcur : goal'.Outstanding → Tracks n all r g goal') :
    Round n scene all ⟨r, task, s.goals.set g goal'⟩ := by
  -- 未了のゴールは最後のものだけなので、書き換えたゴールのほかに未了のものはない。
  have hother : ∀ k goal₁, (s.goals.set g goal')[k]? = some goal₁ → goal₁.Outstanding →
      k = g ∧ goal₁ = goal' := by
    intro k goal₁ hk ho₁
    rw [getElem?_set_of_some hg] at hk
    split at hk
    · cases hk
      exact ⟨‹_›, rfl⟩
    · have h₁ := hi.newest k goal₁ hk ho₁
      have h₂ := hi.newest g goal hg ho
      omega
  refine ⟨hscene.trans hi.lastScene, ?_, Int.le_trans hi.low hle, fun j hj => (hdone j hj).step hstep, ?_, ?_⟩
  · rw [List.length_set]
    exact hi.started
  · intro k goal₁ hk ho₁
    obtain ⟨rfl, _⟩ := hother k goal₁ hk ho₁
    rw [List.length_set]
    exact hi.newest _ goal hg ho
  · intro k goal₁ hk ho₁
    obtain ⟨rfl, rfl⟩ := hother k goal₁ hk ho₁
    exact hcur ho₁

theorem Round.step_serve {n scene file all} {s : Sys Pose} {e : Event Pose} {o : Outcome Pose}
    (hi : Round n scene all s) (hf : waypointFile scene = some file) (hr : s.reply e = some o)
    (hser : s.Sends e → s.Settled) (hsame : SameScene file all e)
    (hnew : NewestOnly (s.perform e.isContinue o)) : Round n scene all (s.perform e.isContinue o) := by
  obtain ⟨hp, hl, hcase⟩ := hi.serve hf hr hsame
  have hp' : (s.perform e.isContinue o).runner.pausedWaypoint = s.runner.pausedWaypoint := hp
  have hcount : s.goals.length ≤ (s.perform e.isContinue o).goals.length := by
    rcases hcase with ⟨hquiet, _⟩ | ⟨ps, hsend, _⟩
    · rw [Sys.perform_quiet hquiet]
    · rw [Sys.perform_sent hsend]; simp
  refine ⟨hl.trans hi.lastScene, le_trans hi.started hcount, by rw [hp']; exact hi.low, ?_, hnew, ?_⟩
  · intro j hj
    rw [hp'] at hj
    exact (hi.done j hj).step (.serve hr)
  · intro g goal hg ho
    rcases hcase with ⟨hquiet, hb, hw, hsize⟩ | ⟨ps, hsend, hne, hps, hb, hw, hsize⟩
    · rw [Sys.perform_quiet hquiet] at hg
      obtain ⟨h₁, h₂, h₃, h₄, h₅, h₆, h₇, h₈⟩ := hi.current g goal hg ho
      exact ⟨h₁, h₂.trans hb.symm, by rw [hp']; exact h₃, h₄, h₅, hsize.trans h₆, h₇,
        le_trans (le_of_eq hw) h₈⟩
    · -- 送るのは未了のゴールがないときなので、未了なのはいま送ったゴールである。
      have hsettled : s.Settled := hser (by simp [Sys.Sends, hr, hsend])
      rcases Sys.perform_goal hg with hold | ⟨ps', hsend', hlen, rfl⟩
      · exact absurd ho (hsettled goal (List.mem_of_getElem? hold))
      · rw [hsend] at hsend'
        cases hsend'
        have hw' : (s.perform e.isContinue o).runner.localWpIdx = -1 := hw
        refine ⟨?_, rfl, ?_, ?_, hne, hsize, Nat.zero_le _, ?_⟩
        · rw [hlen]; exact hi.started
        · rw [hp']; exact hb
        · rw [hb]; exact hps
        · rw [hw']; exact Int.negSucc_le_zero 0

theorem Round.step_feedback {n scene all} {s : Sys Pose} {g : Nat} {goal : Goal Pose} {i : Nat}
    (hi : Round n scene all s) (hg : s.goals[g]? = some goal) (hp : goal.phase = .accepted)
    (hle : i ≤ goal.processed) :
    Round n scene all { s with runner := feedbackCallback i s.runner } := by
  refine ⟨hi.lastScene, hi.started, hi.low, hi.done, hi.newest, ?_⟩
  intro k goal₁ hk ho
  obtain ⟨h₁, h₂, h₃, h₄, h₅, h₆, h₇, h₈⟩ := hi.current k goal₁ hk ho
  have heq : k = g := by
    have hk' := hi.newest k goal₁ hk ho
    have hg' := hi.newest g goal hg (Or.inr hp)
    omega
  subst heq
  obtain rfl : goal₁ = goal := Option.some.inj (hk.symm.trans hg)
  exact ⟨h₁, h₂, h₃, h₄, h₅, h₆, h₇, Int.ofNat_le.mpr hle⟩

theorem resultCallback_paused_le (code : ResultCode) (r : Runner) :
    r.pausedWaypoint ≤ (resultCallback code r).1.pausedWaypoint := by
  rw [resultCallback_paused]
  split <;> omega

theorem Round.step_result {n scene all} {s : Sys Pose} {g : Nat} {goal : Goal Pose} {code : ResultCode}
    (hi : Round n scene all s) (hg : s.goals[g]? = some goal) (hp : goal.phase = .accepted)
    (hs : ServerHonest s (.result g code)) :
    Round n scene all { s with runner := (resultCallback code s.runner).1
                               goals := s.goals.set g { goal with phase := .finished } } := by
  refine hi.set hg (Or.inr hp) (.result hg hp) (resultCallback_lastScene code _)
    (resultCallback_paused_le code _) ?_ fun ho => ?_
  · intro j hj
    rw [resultCallback_paused] at hj
    split at hj
    · exact hi.done j hj
    · rcases le_max_iff.mp hj with hj | hj
      · exact hi.done j hj
      · exact hi.result_processed hg (Or.inr hp) hs hj
  · rcases ho with ho | ho <;> cases ho

theorem Round.step {n scene file all} {s t : Sys Pose} {e : Event Pose} (hi : Round n scene all s)
    (hf : waypointFile scene = some file) (hst : s.step e = some t) (hc : RoundStep file all s e t) :
    Round n scene all t := by
  obtain ⟨hser, hhonest, hsame⟩ := hc
  have hnew := hi.newest.step hst hser
  have h := step_sound hst
  cases step_sound hst with
  | serve hr => exact hi.step_serve hf hr hser hsame hnew
  | accept hg hp =>
      obtain ⟨h₁, h₂, h₃, h₄, h₅, h₆, h₇, h₈⟩ := hi.current _ _ hg (Or.inl hp)
      exact hi.set hg (Or.inl hp) h rfl (le_refl _) hi.done fun _ => ⟨h₁, h₂, h₃, h₄, h₅, h₆, h₇, h₈⟩
  | reject hg hp =>
      refine hi.set hg (Or.inl hp) h rfl (le_refl _) hi.done fun ho => ?_
      rcases ho with ho | ho <;> cases ho
  | @progress g goal hg hp =>
      obtain ⟨h₁, h₂, h₃, h₄, h₅, h₆, h₇, h₈⟩ := hi.current _ _ hg (Or.inr hp)
      have hlt : goal.processed < goal.poses.length := hhonest goal hg
      refine hi.set hg (Or.inr hp) h rfl (le_refl _) hi.done fun _ => ?_
      exact ⟨h₁, h₂, h₃, h₄, h₅, h₆, hlt, le_trans h₈ (Int.ofNat_le.mpr (Nat.le_succ _))⟩
  | feedback hg hp => exact hi.step_feedback hg hp (hhonest _ hg)
  | result hg hp => exact hi.step_result hg hp hhonest

theorem Round.resumes {n scene file all} {s t : Sys Pose} {e : Event Pose} (hi : Round n scene all s)
    (hf : waypointFile scene = some file) (hst : s.step e = some t) (hc : RoundStep file all s e t) :
    RoundResumes n all s e t := by
  obtain ⟨_, _, hsame⟩ := hc
  have hlow := hi.low
  refine ⟨?_, ?_⟩
  · cases step_sound hst with
    | serve hr => exact le_of_eq (hi.serve hf hr hsame).1.symm
    | result _ _ => exact resultCallback_paused_le _ _
    | _ => exact le_refl _
  · intro o ps hr hsend
    refine ⟨by omega, ?_, fun j hj => hi.done j (by omega)⟩
    obtain ⟨_, _, ⟨hquiet, _⟩ | ⟨ps', hsend', _, hps, _⟩⟩ := hi.serve hf hr hsame
    · rw [hsend] at hquiet; cases hquiet
    · rw [hsend] at hsend'; cases hsend'
      exact hps

/-! ## 実行の全体 -/

theorem Round.start {scene file all ready now csv} {s t : Sys Pose} (hf : waypointFile scene = some file)
    (hcsv : csv file = some all) (hne : all ≠ []) (hsettled : s.Settled)
    (hadm : s.runner.Admits ready now scene) (hst : s.step (.request scene ready now csv) = some t) :
    Round s.goals.length scene all t := by
  cases step_sound hst with
  | @serve _ o hr =>
      rcases Sys.reply_run hr with ⟨hna, _⟩ | ⟨_, _, tp, kind, hserve, _, htask⟩
      · exact absurd hadm hna
      · cases hserve
        obtain rfl := htask.eq_started hf hcsv hne
        refine ⟨rfl, ?_, le_refl _, ?_, ?_, ?_⟩
        · rw [Sys.perform_sent rfl]; simp
        · intro j hj
          have : (j : Int) ≤ -1 := hj
          omega
        · intro g goal hg ho
          rcases Sys.perform_goal hg with hold | ⟨_, _, hlen, _⟩
          · exact absurd ho (hsettled goal (List.mem_of_getElem? hold))
          · rw [Sys.perform_sent rfl, hlen]; simp
        · intro g goal hg ho
          rcases Sys.perform_goal hg with hold | ⟨ps, hps, hlen, rfl⟩
          · exact absurd ho (hsettled goal (List.mem_of_getElem? hold))
          · cases hps
            exact ⟨le_of_eq hlen.symm, rfl, rfl, rfl, hne, rfl, Nat.zero_le _, Int.negSucc_le_zero 0⟩

/-- 一つのシナリオを始めた後、CONTINUE が送るゴールは、いつも `paused_waypoint_ + 1` 番目からの残りであり、それより
前の経由点はすべて処理されている。`paused_waypoint_` は減らない。 -/
theorem rounds_resume {scene file all ready now csv} {s₀ s₁ : Sys Pose} {es : List (Event Pose)}
    (hstart : s₀.step (.request scene ready now csv) = some s₁) (hsettled : s₀.Settled)
    (hadm : s₀.runner.Admits ready now scene) (hf : waypointFile scene = some file)
    (hcsv : csv file = some all) (hne : all ≠ []) (hround : Always Sys.step (RoundStep file all) s₁ es) :
    Always Sys.step (RoundResumes s₀.goals.length all) s₁ es :=
  Always.of_inv (fun _ _ _ hi hst hc => Round.step hi hf hst hc)
    (fun _ _ _ hi hst hc => Round.resumes hi hf hst hc)
    (Round.start hf hcsv hne hsettled hadm hstart) hround

-- 最初のフィードバックの前と、最後の経由点の途中で中断する実行。
theorem rounds_resume_twice :
    let csv : WaypointFile → Option (List Nat) := fun _ => some [10, 11, 12]
    let s₁ : Sys Nat := Sys.init.perform false (setTask csv true 1000000000 WaypointTask.ONE_GO {})
    let run : List (Event Nat) := [.response 0 true, .request WaypointTask.PAUSE true 2000000000 csv,
      .result 0 .canceled, .request WaypointTask.CONTINUE true 3000000000 csv, .response 1 true,
      .progress 1, .feedback 1 1, .progress 1, .feedback 1 2, .result 1 .aborted,
      .request WaypointTask.CONTINUE true 4000000000 csv, .response 2 true, .progress 2,
      .result 2 .succeeded]
    (runs Sys.step s₁ run).any (fun s => s.goals.map Goal.poses = [[10, 11, 12], [10, 11, 12], [12]]) ∧
      Always Sys.step (RoundResumes 0 [10, 11, 12]) s₁ run := by
  intro csv s₁ run
  have hstart : Sys.init.step (.request WaypointTask.ONE_GO true 1000000000 csv) = some s₁ := rfl
  exact ⟨by decide, rounds_resume hstart (by decide) (by decide) rfl rfl (by decide) (by decide)⟩

end Ranger.Waypoint
