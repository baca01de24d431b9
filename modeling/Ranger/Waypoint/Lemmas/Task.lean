import Ranger.Waypoint.System

/-!
# サービスの動作の場合分け

`setTask` の一回の動作がすることを、応答の分岐ごとに並べる。以後の証明は、`setTask` を展開せず、この場合分けを
使う。
-/

namespace Ranger.Waypoint

variable {Pose : Type}

/-! ## 補助の関数 -/

theorem sliceFrom_of_nonneg {v : List Pose} {i : Int} (hi : 0 ≤ i) :
    sliceFrom v i = v.drop i.toNat := by
  simp only [sliceFrom, if_neg (show ¬ i < 0 by omega)]
  split
  · rw [List.drop_eq_nil_of_le (by omega)]
  · rfl

theorem sendWaypointsGoal_of_ne_nil {waypoints : List Pose} (h : waypoints ≠ []) (base : Int)
    (r : Runner) :
    sendWaypointsGoal waypoints base r =
      ({ r with baseStartIdx := base, localWpIdx := -1, lastGoalSize := waypoints.length },
        some waypoints) := by
  simp [sendWaypointsGoal, h]

/-! ## 動作の場合分け -/

/-- デバウンスを通った要求 `scene` の動作。 -/
inductive TaskRun (csv : WaypointFile → Option (List Pose)) : Int → Runner → Outcome Pose → Prop
  | refused {scene r} : waypointFile scene = none → TaskRun csv scene r (refuse r)
  | asleep {r i} : TaskRun csv WaypointTask.CONTINUE r
      { runner := r, respond := none, sleep := some i }
  | nothingLeft {r} : TaskRun csv WaypointTask.CONTINUE r { runner := r, respond := some true }
  | unopened {scene file r} : waypointFile scene = some file → csv file = none →
      TaskRun csv scene r (refuse { r with pausedWaypoint := -1 })
  | noWaypoint {scene file r} : waypointFile scene = some file → csv file = some [] →
      TaskRun csv scene r (refuse { r with lastScene := scene, pausedWaypoint := -1 })
  | started {scene file r ps} : waypointFile scene = some file → csv file = some ps → ps ≠ [] →
      TaskRun csv scene r
        { runner := { r with lastScene := scene, pausedWaypoint := -1, currentGoal := none,
                             baseStartIdx := 0, localWpIdx := -1, lastGoalSize := ps.length }
          respond := some true
          send := some ps }
  | pausing {r g} : r.state = .running → r.currentGoal = some g →
      TaskRun csv WaypointTask.PAUSE r
        { runner := { r with cancelInFlight := true, cancelDone := false, state := .pausing }
          respond := some true
          cancel := some g }
  | resumed {r file all ps} : r.state = .paused → waypointFile r.lastScene = some file →
      csv file = some all → ps = sliceFrom all (max 0 (r.pausedWaypoint + 1)) → ps ≠ [] →
      TaskRun csv WaypointTask.CONTINUE r
        { runner := { r with currentGoal := none, baseStartIdx := max 0 (r.pausedWaypoint + 1),
                             localWpIdx := -1, lastGoalSize := ps.length }
          respond := some true
          send := some ps }

theorem pauseTask_run (csv : WaypointFile → Option (List Pose)) (r : Runner) :
    TaskRun csv WaypointTask.PAUSE r (pauseTask r) := by
  unfold pauseTask
  by_cases hs : r.state = .running
  · rw [if_neg (not_not_intro hs)]
    split
    · rename_i g hg
      exact .pausing hs hg
    · exact .refused rfl
  · rw [if_pos hs]
    exact .refused rfl

theorem resumeTask_run (csv : WaypointFile → Option (List Pose)) (r : Runner) :
    TaskRun csv WaypointTask.CONTINUE r (resumeTask csv r) := by
  unfold resumeTask
  by_cases hs : r.state = .paused
  · rw [if_neg (not_not_intro hs)]
    cases hf : waypointFile r.lastScene with
    | none => exact .refused rfl
    | some file =>
        cases hc : csv file with
        | none => simp only [hc]; exact .refused rfl
        | some all =>
            simp only [hc]
            split
            · exact .refused rfl
            · split
              · exact .nothingLeft
              · rename_i hrem
                have hne : sliceFrom all (max 0 (r.pausedWaypoint + 1)) ≠ [] := by simpa using hrem
                rw [sendWaypointsGoal_of_ne_nil hne]
                exact .resumed hs hf hc rfl hne
  · rw [if_pos hs]
    exact .refused rfl

theorem continueTask_run (csv : WaypointFile → Option (List Pose)) (i : Nat) (r : Runner) :
    TaskRun csv WaypointTask.CONTINUE r (continueTask csv i r) := by
  unfold continueTask
  split
  · exact .asleep
  · exact resumeTask_run csv r

theorem sceneTask_run (csv : WaypointFile → Option (List Pose)) {scene : Int} {file : WaypointFile}
    (hf : waypointFile scene = some file) (r : Runner) :
    TaskRun csv scene r (sceneTask csv scene file r) := by
  unfold sceneTask
  cases hc : csv file with
  | none => exact .unopened hf hc
  | some ps =>
      cases ps with
      | nil => exact .noWaypoint hf hc
      | cons p ps =>
          simp only [List.isEmpty_cons, Bool.false_eq_true, ↓reduceIte]
          rw [sendWaypointsGoal_of_ne_nil (List.cons_ne_nil p ps)]
          exact .started hf hc (List.cons_ne_nil p ps)

theorem dispatchTask_run (csv : WaypointFile → Option (List Pose)) (scene : Int) (r : Runner) :
    TaskRun csv scene r (dispatchTask csv scene r) := by
  unfold dispatchTask
  cases hf : waypointFile scene with
  | some file => exact sceneTask_run csv hf r
  | none =>
      simp only []
      split
      · rename_i h
        subst h
        exact pauseTask_run csv r
      · split
        · rename_i h
          subst h
          exact continueTask_run csv 0 r
        · exact .refused hf

/-! ## 入口の確認 -/

/-- 要求が入口の二つの確認（サーバの準備とデバウンス）を通る。 -/
def Runner.Admits (r : Runner) (ready : Bool) (now scene : Int) : Prop :=
  ready = true ∧ (debounce (reqKind scene) 200 now r).1 = false

instance (r : Runner) (ready : Bool) (now scene : Int) : Decidable (r.Admits ready now scene) :=
  inferInstanceAs (Decidable (_ ∧ _))

def Runner.stamp (r : Runner) (tp kind : Int) : Runner := { r with lastReqTp := tp, lastReqKind := kind }

theorem debounce_passed {kind ms now : Int} {r r₁ : Runner}
    (h : debounce kind ms now r = (false, r₁)) : r₁ = r.stamp now kind := by
  unfold debounce at h
  split at h
  · cases h
  · cases h; rfl

theorem setTask_of_admits {csv : WaypointFile → Option (List Pose)} {ready now scene} {r : Runner}
    (h : r.Admits ready now scene) :
    setTask csv ready now scene r = dispatchTask csv scene (r.stamp now (reqKind scene)) := by
  obtain ⟨hr, hd⟩ := h
  subst hr
  simp only [setTask, Bool.true_eq_false, ↓reduceIte]
  split
  · rename_i h
    rw [h] at hd
    cases hd
  · rename_i h
    rw [debounce_passed h]

theorem setTask_of_not_admits {csv : WaypointFile → Option (List Pose)} {ready now scene} {r : Runner}
    (h : ¬ r.Admits ready now scene) : setTask csv ready now scene r = refuse r := by
  unfold setTask
  cases ready with
  | false => rfl
  | true =>
      rw [if_neg (by simp)]
      cases hd : debounce (reqKind scene) 200 now r with
      | mk b r₁ =>
          cases b with
          | true => rfl
          | false => exact absurd ⟨rfl, by rw [hd]⟩ h

/-! ## 系の事象としての動作 -/

/-- 事象 `e` は、CSV の内容 `csv` のもとでの要求 `scene` の動作である。 -/
inductive Event.Serves : Event Pose → Int → (WaypointFile → Option (List Pose)) → Prop
  | request {scene ready now csv} : Serves (.request scene ready now csv) scene csv
  | wake {csv} : Serves (.wake csv) WaypointTask.CONTINUE csv

theorem Event.Serves.isContinue {e : Event Pose} {scene csv} (h : e.Serves scene csv) :
    e.isContinue = decide (scene = WaypointTask.CONTINUE) := by
  cases h with
  | request => rfl
  | wake => rfl

/-- 要求が入口の確認を通る。眠りからの続きは、すでに通っている。 -/
def Sys.Admitted (s : Sys Pose) : Event Pose → Prop
  | .request scene ready now _ => s.runner.Admits ready now scene
  | _ => True

/-- サービスの動作は、入口で断られるか、デバウンスの記録を除いて、要求の動作の場合のどれかである。 -/
theorem Sys.reply_run {s : Sys Pose} {e : Event Pose} {o : Outcome Pose} (h : s.reply e = some o) :
    (¬ s.Admitted e ∧ o = refuse s.runner) ∨
      ∃ scene csv tp kind, e.Serves scene csv ∧ s.Admitted e ∧
        TaskRun csv scene (s.runner.stamp tp kind) o := by
  cases e with
  | request scene ready now csv =>
      simp only [Sys.reply] at h
      split at h
      · cases h
        by_cases ha : s.runner.Admits ready now scene
        · right
          rw [setTask_of_admits ha]
          exact ⟨scene, csv, _, _, .request, ha, dispatchTask_run csv scene _⟩
        · exact Or.inl ⟨ha, setTask_of_not_admits ha⟩
      · cases h
  | wake csv =>
      obtain ⟨i, _, rfl⟩ := Option.map_eq_some_iff.mp h
      exact Or.inr ⟨_, csv, s.runner.lastReqTp, s.runner.lastReqKind, .wake, trivial,
        continueTask_run csv i _⟩
  | _ => cases h

end Ranger.Waypoint
