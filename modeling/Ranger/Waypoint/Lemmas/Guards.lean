import Ranger.Waypoint.Spec
import Ranger.Waypoint.Lemmas.Goals

/-!
# 要求の動作が変えるメンバ

`state_`、`current_goal_` と、ゴールの送信について、要求の動作の場合ごとに分かることを取り出す。
-/

namespace Ranger.Waypoint

variable {Pose : Type}

/-! ## `state_` と `current_goal_` -/

theorem TaskRun.paused_of_paused {csv scene r} {o : Outcome Pose} (h : TaskRun csv scene r o)
    (hp : o.runner.state = .paused) : r.state = .paused := by
  cases h with
  | pausing _ _ => cases hp
  | _ => exact hp

/-- 要求の動作の後に `Running` であれば、前から `Running` であり、`current_goal_` が変わるのはシナリオを
始めてゴールを送ったときだけである。 -/
theorem TaskRun.running_of_running {csv scene r} {o : Outcome Pose} (h : TaskRun csv scene r o)
    (hp : o.runner.state = .running) :
    r.state = .running ∧
      (o.runner.currentGoal = r.currentGoal ∨
        ∃ file ps, waypointFile scene = some file ∧ csv file = some ps ∧ ps ≠ []) := by
  cases h with
  | pausing _ _ => cases hp
  | started hf hc hne => exact ⟨hp, Or.inr ⟨_, _, hf, hc, hne⟩⟩
  | resumed hs _ _ _ _ =>
      have hp' : RunState.paused = .running := hs.symm.trans hp
      cases hp'
  | _ => exact ⟨hp, Or.inl rfl⟩

/-- シナリオを始める要求は、CSV から経由点を読めたとき、全部を添字 0 から送る。 -/
theorem TaskRun.eq_started {csv scene r file ps} {o : Outcome Pose} (h : TaskRun csv scene r o)
    (hf : waypointFile scene = some file) (hc : csv file = some ps) (hne : ps ≠ []) :
    o = { runner := { r with lastScene := scene, pausedWaypoint := -1, currentGoal := none,
                             baseStartIdx := 0, localWpIdx := -1, lastGoalSize := ps.length }
          respond := some true
          send := some ps } := by
  cases h with
  | refused hf' => rw [hf] at hf'; cases hf'
  | asleep => cases hf
  | nothingLeft => cases hf
  | unopened hf' hc' => rw [hf] at hf'; cases hf'; rw [hc] at hc'; cases hc'
  | noWaypoint hf' hc' => rw [hf] at hf'; cases hf'; rw [hc] at hc'; cases hc'; exact absurd rfl hne
  | started hf' hc' _ => rw [hf] at hf'; cases hf'; rw [hc] at hc'; cases hc'; rfl
  | pausing _ _ => cases hf
  | resumed _ _ _ _ _ => cases hf

theorem Sys.startsScene_iff {s : Sys Pose} {e : Event Pose} :
    s.StartsScene e ↔
      s.Admitted e ∧ ∃ scene csv file ps, e.Serves scene csv ∧ waypointFile scene = some file ∧
        csv file = some ps ∧ ps ≠ [] := by
  cases e with
  | request scene ready now csv =>
      simp only [Sys.StartsScene, Sys.Admitted]
      refine and_congr_right fun _ => ?_
      constructor
      · intro h
        cases hb : (waypointFile scene).bind csv with
        | none => rw [hb] at h; cases h
        | some ps =>
            rw [hb] at h
            obtain ⟨file, hf, hc⟩ := Option.bind_eq_some_iff.mp hb
            exact ⟨scene, csv, file, ps, .request, hf, hc, by simpa using h⟩
      · rintro ⟨_, _, file, ps, ⟨⟩, hf, hc, hne⟩
        simp [hf, hc, hne]
  | wake csv =>
      simp only [Sys.StartsScene, false_iff]
      rintro ⟨_, _, _, _, _, ⟨⟩, hf, _, _⟩
      cases hf
  | _ =>
      simp only [Sys.StartsScene, false_iff]
      rintro ⟨_, _, _, _, _, ⟨⟩, _⟩

/-! ## 断られた要求 -/

/-- 入口を通った要求について、`true` と答えないときに再開の記録を変えないことと、`ForgetsResume` の条件に当たらない
ことは同値である。 -/
theorem TaskRun.keeps_iff {csv scene tp kind} {r : Runner} {o : Outcome Pose}
    (h : TaskRun csv scene (r.stamp tp kind) o) :
    (o.respond ≠ some true → SameRecord r o.runner) ↔
      ¬ ∃ file ∈ waypointFile scene, (csv file = none ∧ r.pausedWaypoint ≠ -1) ∨
        (csv file = some [] ∧ (r.pausedWaypoint ≠ -1 ∨ r.lastScene ≠ scene)) := by
  cases h with
  | refused hf => simp [hf, refuse, SameRecord, Runner.stamp]
  | asleep => simp [show waypointFile WaypointTask.CONTINUE = none from rfl, SameRecord, Runner.stamp]
  | nothingLeft => simp [show waypointFile WaypointTask.CONTINUE = none from rfl]
  | unopened hf hc => simp [hf, hc, refuse, SameRecord, Runner.stamp, eq_comm]
  | noWaypoint hf hc => simp [hf, hc, refuse, SameRecord, Runner.stamp, eq_comm]
  | started hf hc hne => simp [hf, hc, hne]
  | pausing _ _ => simp [show waypointFile WaypointTask.PAUSE = none from rfl]
  | resumed _ _ _ _ _ => simp [show waypointFile WaypointTask.CONTINUE = none from rfl]

theorem refusalKeeps_iff {s t : Sys Pose} {e : Event Pose} (hst : s.step e = some t) :
    RefusalKeeps s e t ↔ ¬ ForgetsResume s e := by
  cases step_sound hst with
  | serve hr =>
      simp only [RefusalKeeps, hr, Option.mem_some_iff, forall_eq']
      rcases Sys.reply_run hr with ⟨hna, rfl⟩ | ⟨scene, csv, tp, kind, hserve, hadm, htask⟩
      · refine iff_of_true (fun _ => ⟨rfl, rfl, rfl, rfl, rfl, rfl, rfl⟩) ?_
        cases e with
        | request scene ready now csv => exact fun hf => hna hf.1
        | _ => exact id
      · refine htask.keeps_iff.trans ?_
        cases hserve with
        | request => simp only [ForgetsResume, show s.runner.Admits _ _ _ from hadm, true_and]
        | wake => simp [ForgetsResume, show waypointFile WaypointTask.CONTINUE = none from rfl]
  | _ => exact iff_of_true (fun o hr => by cases hr) id

/-! ## CONTINUE -/

/-- CONTINUE がゴールを送るのは、待ちを終えて読んだ `state_` が `Paused` のときである。 -/
theorem Sys.Sends.readsState {s : Sys Pose} {e : Event Pose} (hs : s.Sends e)
    (hc : e.isContinue = true) : s.ReadsState e ∧ s.runner.state = .paused := by
  have key : ∀ {csv : WaypointFile → Option (List Pose)} {i : Nat} {r : Runner},
      (continueTask csv i r).send.isSome = true →
        ¬ (i < 10 ∧ r.cancelInFlight = true ∧ r.cancelDone = false) ∧ r.state = .paused := by
    intro csv i r hsend
    unfold continueTask at hsend
    split at hsend
    · cases hsend
    · rename_i hloop
      refine ⟨hloop, ?_⟩
      by_contra hne
      simp [resumeTask, hne, refuse] at hsend
  cases e with
  | request scene ready now csv =>
      have hscene : scene = WaypointTask.CONTINUE := of_decide_eq_true hc
      subst hscene
      simp only [Sys.Sends, Sys.reply] at hs
      split at hs
      · by_cases ha : s.runner.Admits ready now WaypointTask.CONTINUE
        · rw [setTask_of_admits ha] at hs
          obtain ⟨hloop, hstate⟩ := key hs
          exact ⟨⟨rfl, ha, fun h => hloop ⟨by omega, h⟩⟩, hstate⟩
        · rw [setTask_of_not_admits ha] at hs
          cases hs
      · cases hs
  | wake csv =>
      simp only [Sys.Sends, Sys.reply] at hs
      cases ht : s.task with
      | none => rw [ht] at hs; cases hs
      | some i =>
          rw [ht] at hs
          obtain ⟨hloop, hstate⟩ := key hs
          refine ⟨fun h => hloop ?_, hstate⟩
          simpa [ht] using h
  | _ => cases hc

theorem Sys.resumed_iff {s : Sys Pose} {g phase} :
    s.Resumed g phase ↔ ∃ goal, s.goals[g]? = some goal ∧ goal.byContinue = true ∧ goal.phase = phase := by
  unfold Sys.Resumed
  cases s.goals[g]? <;> simp

theorem Sys.Resumed.of_set {s : Sys Pose} {r task g h phase} {goal goal' : Goal Pose}
    (hg : s.goals[g]? = some goal) (hr : Sys.Resumed ⟨r, task, s.goals.set g goal'⟩ h phase) :
    (h = g ∧ goal'.phase = phase) ∨ (h ≠ g ∧ s.Resumed h phase) := by
  obtain ⟨new, hn, hb, hp⟩ := Sys.resumed_iff.mp hr
  rw [getElem?_set_of_some hg] at hn
  split at hn
  · cases hn
    exact Or.inl ⟨‹_›, hp⟩
  · exact Or.inr ⟨‹_›, Sys.resumed_iff.mpr ⟨new, hn, hb, hp⟩⟩

end Ranger.Waypoint
