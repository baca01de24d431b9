import Ranger.Waypoint.Lemmas.Guards

/-!
# 経由点の実行の定理

要求とサーバの動作がどのような順で起こっても成り立つこと、成り立つための条件、成り立たない実行の例を言明する。
-/

namespace Ranger.Waypoint
open Ranger.Lib

variable {Pose : Type}

/-! ## 古いゴールのコールバック -/

/-- 未了のゴールは、最後に送ったものだけである。 -/
def NewestOnly (s : Sys Pose) : Prop :=
  ∀ g goal, s.goals[g]? = some goal → goal.Outstanding → g + 1 = s.goals.length

theorem NewestOnly.step {s t : Sys Pose} {e : Event Pose} (hi : NewestOnly s)
    (hst : s.step e = some t) (hser : Serialized s e t) : NewestOnly t := by
  intro g goal hg ho
  have h := step_sound hst
  cases hr : s.reply e with
  | none =>
      obtain ⟨goal₀, hg₀, ho₀⟩ := h.outstanding_of_callback hr hg ho
      rw [h.length_of_callback hr]
      exact hi g goal₀ hg₀ ho₀
  | some o =>
      cases h with
      | serve hr' =>
          cases hsend : o.send with
          | none =>
              rw [hr] at hr'; cases hr'
              rw [Sys.perform_quiet hsend] at hg ⊢
              exact hi g goal hg ho
          | some ps =>
              rw [hr] at hr'; cases hr'
              have hsettled : s.Settled := hser (by simp [Sys.Sends, hr, hsend])
              rcases Sys.perform_goal hg with hold | ⟨_, _, hlen, _⟩
              · exact absurd ho (hsettled goal (List.mem_of_getElem? hold))
              · rw [Sys.perform_sent hsend, hlen]; simp
      | _ => cases hr

theorem NewestOnly.not_stale {s t : Sys Pose} {e : Event Pose} (hi : NewestOnly s)
    (hst : s.step e = some t) : ¬ s.Stale e := by
  intro hstale
  cases step_sound hst with
  | serve hr => cases e <;> first | exact hstale | cases hr
  | accept _ _ => exact hstale
  | reject _ _ => exact hstale
  | progress _ _ => exact hstale
  | feedback hg hp =>
      have := hi _ _ hg (Or.inr hp)
      simp only [Sys.Stale] at hstale
      omega
  | result hg hp =>
      have := hi _ _ hg (Or.inr hp)
      simp only [Sys.Stale] at hstale
      omega

theorem step_accept {t : Sys Pose} {n : Nat} {new : Goal Pose} (hn : t.goals[n]? = some new)
    (hs : new.phase = .sent) :
    ∃ t₁, t.step (.response n true) = some t₁ ∧ t₁.runner.state = .running ∧
      t₁.goals = t.goals.set n { new with phase := .accepted } :=
  ⟨_, step_complete (.accept hn hs), rfl, rfl⟩

theorem step_result {t : Sys Pose} {g : Nat} {goal : Goal Pose} (code : ResultCode)
    (hg : t.goals[g]? = some goal) (hp : goal.phase = .accepted) :
    ∃ t₁, t.step (.result g code) = some t₁ ∧ t₁.runner = (resultCallback code t.runner).1 :=
  ⟨_, step_complete (.result hg hp), rfl⟩

/-- 受理されたゴール `g` の後のゴール `n` が受理され、それから `g` が中断されると、新しいゴールの実行中に
`state_` が変わる。 -/
theorem abort_older_breaks {t : Sys Pose} {g n : Nat} {goal new : Goal Pose}
    (hg : t.goals[g]? = some goal) (hp : goal.phase = .accepted) (hn : t.goals[n]? = some new)
    (hs : new.phase = .sent) (hlt : g < n) (hlen : n + 1 = t.goals.length) :
    (∃ u, runs Sys.step t [.response n true, .result g .aborted] = some u) ∧
      ¬ Always Sys.step StaleInert t [.response n true, .result g .aborted] := by
  obtain ⟨t₁, h₁, hrun, hgoals⟩ := step_accept hn hs
  have hg₁ : t₁.goals[g]? = some goal := by
    rw [hgoals, getElem?_set_of_some hn, if_neg (by omega)]
    exact hg
  obtain ⟨t₂, h₂, hres⟩ := step_result .aborted hg₁ hp
  refine ⟨⟨t₂, by rw [runs_cons h₁, runs_cons h₂, runs_nil]⟩, fun hall => ?_⟩
  have hinert := ((hall t₁ h₁).2 t₂ h₂).1
  have hstale : t₁.Stale (.result g .aborted) := by
    simp only [Sys.Stale, hgoals, List.length_set]
    omega
  have hstate := (hinert hstale).1
  rw [hres, hrun] at hstate
  cases hstate

/-- 未了のゴールを残して次のゴールを送ると、そこからのサーバの動作だけで、古いゴールのコールバックがメンバを
変える実行になる。 -/
theorem overlap_breaks {s t : Sys Pose} {e : Event Pose} (hst : s.step e = some t)
    (hover : ¬ Serialized s e t) :
    ∃ es : List (Event Pose), (∀ e' ∈ es, e'.IsCallback) ∧ (∃ u, runs Sys.step t es = some u) ∧
      ¬ Always Sys.step StaleInert t es := by
  simp only [Serialized, Sys.Settled, Classical.not_imp, not_forall, not_not] at hover
  obtain ⟨hsend, goal, hmem, ho⟩ := hover
  obtain ⟨g, hg⟩ := List.getElem?_of_mem hmem
  have hlt : g < s.goals.length := (List.getElem?_eq_some_iff.mp hg).1
  obtain ⟨ps, hps⟩ := Option.isSome_iff_exists.mp hsend
  obtain ⟨o, hr, hos⟩ := Option.bind_eq_some_iff.mp hps
  have hstep := step_complete (Step.serve hr)
  rw [hst] at hstep
  cases hstep
  have hgoals := Sys.perform_sent (s := s) (b := e.isContinue) hos
  generalize s.perform e.isContinue o = t at hgoals
  have hg' : t.goals[g]? = some goal := by rw [hgoals, List.getElem?_append_left hlt]; exact hg
  obtain ⟨new, hn, hs⟩ : ∃ new, t.goals[s.goals.length]? = some new ∧ new.phase = .sent := by
    rw [hgoals]
    exact ⟨_, List.getElem?_concat_length, rfl⟩
  have hlen : s.goals.length + 1 = t.goals.length := by rw [hgoals]; simp
  rcases ho with hp | hp
  · -- 古いゴールも応答を待っている。先に受理される。
    obtain ⟨t₁, h₁, _, hgoals₁⟩ := step_accept hg' hp
    have hg₁ : t₁.goals[g]? = some { goal with phase := .accepted } := by
      rw [hgoals₁, getElem?_set_of_some hg', if_pos rfl]
    have hn₁ : t₁.goals[s.goals.length]? = some new := by
      rw [hgoals₁, getElem?_set_of_some hg', if_neg (by omega)]
      exact hn
    have hlen₁ : s.goals.length + 1 = t₁.goals.length := by rw [hgoals₁, List.length_set]; exact hlen
    obtain ⟨⟨u, hu⟩, hno⟩ := abort_older_breaks hg₁ rfl hn₁ hs hlt hlen₁
    refine ⟨[.response g true, .response s.goals.length true, .result g .aborted], ?_, ⟨u, ?_⟩, ?_⟩
    · simp [Event.IsCallback]
    · rw [runs_cons h₁]; exact hu
    · exact fun hall => hno (hall t₁ h₁).2
  · obtain ⟨⟨u, hu⟩, hno⟩ := abort_older_breaks hg' hp hn hs hlt hlen
    exact ⟨_, by simp [Event.IsCallback], ⟨u, hu⟩, hno⟩

/-- 古いゴールのコールバックがメンバを変えないのは、未了のゴールがあるときに次のゴールを送らない実行である。
未了のゴールを残して送ったどの実行も、サーバの動作だけで、古いゴールのコールバックがメンバを変える実行に続く。 -/
theorem stale_callbacks_inert :
    (∀ es : List (Event Pose), Always Sys.step Serialized Sys.init es →
      Always Sys.step StaleInert Sys.init es) ∧
    ∀ (es : List (Event Pose)) (e : Event Pose) (s t : Sys Pose),
      runs Sys.step Sys.init es = some s → s.step e = some t → ¬ Serialized s e t →
      ∃ es' : List (Event Pose), (∀ e' ∈ es', e'.IsCallback) ∧ (∃ u, runs Sys.step t es' = some u) ∧
        ¬ Always Sys.step StaleInert t es' := by
  refine ⟨fun es h => ?_, fun es e s t _ hst hover => overlap_breaks hst hover⟩
  refine Always.of_inv (fun s e t hi hst hser => NewestOnly.step hi hst hser)
    (fun s e t hi hst _ hstale => absurd hstale (hi.not_stale hst)) ?_ h
  intro g goal hg
  simp [Sys.init] at hg

-- 二つのゴールを、前の結果を待って送る実行。
theorem stale_callbacks_inert_in_turn :
    let csv : WaypointFile → Option (List Nat) := fun _ => some [10, 11]
    let run : List (Event Nat) := [.request WaypointTask.ONE_GO true 1000000000 csv, .response 0 true,
      .feedback 0 1, .result 0 .aborted, .request WaypointTask.TWO_GO true 2000000000 csv, .response 1 true]
    (runs Sys.step Sys.init run).isSome ∧ Always Sys.step StaleInert Sys.init run :=
  ⟨by decide, stale_callbacks_inert.1 _ (by decide)⟩

-- 実行中に次のシナリオを始めると、置き換えられたゴールの ABORTED が、新しいゴールの実行中に `Paused` にする。
theorem preempted_result_pauses :
    let csv : WaypointFile → Option (List Nat) := fun _ => some [10, 11]
    let run : List (Event Nat) := [.request WaypointTask.ONE_GO true 1000000000 csv, .response 0 true,
      .request WaypointTask.TWO_GO true 2000000000 csv, .response 1 true, .result 0 .aborted]
    ¬ Always Sys.step StaleInert Sys.init run ∧
      (runs Sys.step Sys.init run).any fun s =>
        s.runner.state = .paused ∧ s.runner.currentGoal = none ∧ s.Executing 1 := by
  decide

/-! ## 実行中のゴールと PAUSE -/

theorem RunningHeld.step {s t : Sys Pose} {e : Event Pose} (hi : RunningHeld s)
    (hst : s.step e = some t) (hc : ¬ LosesGoal s e) : RunningHeld t := by
  intro hrun
  cases step_sound hst with
  | serve hr =>
      rcases Sys.reply_run hr with ⟨_, rfl⟩ | ⟨scene, csv, tp, kind, hserve, hadm, htask⟩
      · obtain ⟨g, hg, hx⟩ := hi hrun
        exact ⟨g, hg, hx.perform⟩
      · obtain ⟨hs, hcur | ⟨file, ps, hf, hcsv, hne⟩⟩ := htask.running_of_running hrun
        · obtain ⟨g, hg, hx⟩ := hi hs
          exact ⟨g, hcur ▸ hg, hx.perform⟩
        · have hstart := Sys.startsScene_iff.mpr ⟨hadm, scene, csv, file, ps, hserve, hf, hcsv, hne⟩
          exact absurd ⟨hs, Or.inl hstart⟩ hc
  | accept hg hp =>
      refine ⟨_, rfl, ?_⟩
      rw [Sys.executing_set hg, if_pos rfl]
  | reject hg hp =>
      obtain ⟨k, hk, hx⟩ := hi hrun
      refine ⟨k, hk, ?_⟩
      rw [Sys.executing_set hg]
      split
      · rename_i heq
        subst heq
        obtain ⟨goal, hg', hp'⟩ := Sys.executing_iff.mp hx
        rw [hg] at hg'; cases hg'
        rw [hp] at hp'; cases hp'
      · exact hx
  | progress hg hp =>
      obtain ⟨k, hk, hx⟩ := hi hrun
      refine ⟨k, hk, ?_⟩
      rw [Sys.executing_set hg]
      split
      · exact hp
      · exact hx
  | feedback _ _ => exact hi hrun
  | @result g goal code hg hp =>
      cases code with
      | unknown =>
          obtain ⟨k, hk, hx⟩ := hi hrun
          refine ⟨k, hk, ?_⟩
          rw [Sys.executing_set hg, if_neg]
          · exact hx
          · rintro rfl
            exact hc ⟨hrun, Or.inr ⟨k, hk, rfl⟩⟩
      | _ => cases hrun

theorem LosesGoal.not_runningHeld {s t : Sys Pose} {e : Event Pose} (hl : LosesGoal s e)
    (hst : s.step e = some t) : ¬ RunningHeld t := by
  obtain ⟨hs, hstart | ⟨g, hg, rfl⟩⟩ := hl
  · obtain ⟨hadm, scene, csv, file, ps, hserve, hf, hc, hne⟩ := Sys.startsScene_iff.mp hstart
    cases step_sound hst with
    | serve hr =>
        rcases Sys.reply_run hr with ⟨hna, _⟩ | ⟨_, _, tp, kind, hserve', _, htask⟩
        · exact absurd hadm hna
        · cases hserve <;> cases hserve'
          · obtain rfl := htask.eq_started hf hc hne
            intro hheld
            obtain ⟨g, hg, _⟩ := hheld hs
            cases hg
          · cases hf
    | _ => cases hserve
  · cases step_sound hst with
    | serve hr => cases hr
    | result hk hp =>
        intro hheld
        obtain ⟨k, hk', hx⟩ := hheld hs
        have heq : k = g := Option.mem_unique hk' hg
        rw [Sys.executing_set hk, if_pos heq] at hx
        cases hx

theorem RunningHeld.pauseCancels_iff {s : Sys Pose} (hi : RunningHeld s) (e : Event Pose) :
    PauseCancels s e ↔ ¬ PauseUnready s e := by
  cases e with
  | request scene ready now csv =>
      constructor
      · rintro hp ⟨hpause, rfl, hd, hrun⟩
        obtain ⟨g, hg, _⟩ := hp hpause hd hrun
        cases hg
      · intro hready hpause hd hrun
        subst hpause
        have hadm : s.runner.Admits ready now WaypointTask.PAUSE := by
          refine ⟨?_, hd⟩
          by_contra hno
          exact hready ⟨rfl, Bool.eq_false_iff.mpr hno, hd, hrun⟩
        obtain ⟨g, hg, hx⟩ := hi hrun
        refine ⟨g, ?_, hx⟩
        rw [setTask_of_admits hadm]
        show g ∈ (pauseTask (s.runner.stamp now 1) : Outcome Pose).cancel
        have hg' : (s.runner.stamp now 1).currentGoal = some g := hg
        simp [pauseTask, hg', show (s.runner.stamp now 1).state = .running from hrun]
  | _ => exact iff_of_true trivial id

/-- `Running` の間 `current_goal_` が実行中のゴールを指し、PAUSE がいつもその取り消しを送るのは、`Running` の
間に、シナリオを始めるどの要求もゴールを送らず、`current_goal_` の結果が `UNKNOWN` で返ることも、サーバの準備の
ないときに PAUSE が届くこともない実行であり、そのときに限る。 -/
theorem running_held_iff (es : List (Event Pose)) :
    Always Sys.step (fun s e t => RunningHeld t ∧ PauseCancels s e) Sys.init es ↔
      Always Sys.step (fun s e _ => ¬ LosesGoal s e ∧ ¬ PauseUnready s e) Sys.init es := by
  refine Always.iff_of_inv (fun s e t hi hst hc => RunningHeld.step hi hst hc.1) ?_ ?_
  · intro s e t hi hst
    refine and_congr ⟨fun hp hl => hl.not_runningHeld hst hp, hi.step hst⟩ (hi.pauseCancels_iff e)
  · intro h
    cases h

-- 実行中に次のシナリオを始めると、受理されるまで `Running` のまま `current_goal_` が空になり、PAUSE は断られる。
theorem running_without_goal :
    let csv : WaypointFile → Option (List Nat) := fun _ => some [10, 11]
    let run : List (Event Nat) := [.request WaypointTask.ONE_GO true 1000000000 csv, .response 0 true,
      .request WaypointTask.TWO_GO true 2000000000 csv,
      .request WaypointTask.PAUSE true 3000000000 csv]
    ¬ Always Sys.step (fun s e t => RunningHeld t ∧ PauseCancels s e) Sys.init run ∧
      (runs Sys.step Sys.init run).any fun s =>
        s.runner.state = .running ∧ s.runner.currentGoal = none ∧ s.Executing 0 := by
  decide

/-! ## 断られた要求 -/

/-- `true` と答えないどの要求の動作も再開の記録を変えないのは、CSV を開けないか経由点のないシナリオを始める要求が、
書き込む値と異なる記録のあるときに来ない実行であり、そのときに限る。 -/
theorem refusal_keeps_iff (es : List (Event Pose)) :
    Always Sys.step RefusalKeeps Sys.init es ↔
      Always Sys.step (fun s e _ => ¬ ForgetsResume s e) Sys.init es :=
  ⟨Always.mono fun _ _ _ hst => (refusalKeeps_iff hst).mp,
   Always.mono fun _ _ _ hst => (refusalKeeps_iff hst).mpr⟩

-- 中断の後、開けない CSV のシナリオを始める要求は、断られても再開の位置を消す。
theorem refused_scene_forgets :
    let csv : WaypointFile → Option (List Nat) := fun file => if file = .one then some [10, 11, 12] else none
    let run : List (Event Nat) := [.request WaypointTask.ONE_GO true 1000000000 csv, .response 0 true,
      .progress 0, .feedback 0 1, .request WaypointTask.PAUSE true 2000000000 csv, .result 0 .canceled]
    let req : Event Nat := .request WaypointTask.TWO_GO true 3000000000 csv
    ¬ Always Sys.step RefusalKeeps Sys.init (run ++ [req]) ∧
      ((runs Sys.step Sys.init run).any fun s =>
        s.runner.pausedWaypoint = 0 ∧ (s.reply req).bind Outcome.respond = some false) ∧
      (runs Sys.step Sys.init (run ++ [req])).any fun s => s.runner.pausedWaypoint = -1 := by
  decide

/-! ## CONTINUE の重複 -/

def ResumedRunning (s : Sys Pose) : Prop := ∀ g, s.Resumed g .accepted → s.runner.state ≠ .paused

theorem ResumedRunning.step {s t : Sys Pose} {e : Event Pose} (hi : ResumedRunning s)
    (hst : s.step e = some t) (hc : ContinueOrdered s e t) : ResumedRunning t := by
  intro g hres
  cases step_sound hst with
  | serve hr =>
      have hold : s.Resumed g .accepted := by
        obtain ⟨goal, hg, hb, hp⟩ := Sys.resumed_iff.mp hres
        rcases Sys.perform_goal hg with hg | ⟨ps, _, _, rfl⟩
        · exact Sys.resumed_iff.mpr ⟨goal, hg, hb, hp⟩
        · cases hp
      intro hpaused
      rcases Sys.reply_run hr with ⟨_, rfl⟩ | ⟨_, _, _, _, _, _, htask⟩
      · exact hi g hold hpaused
      · exact hi g hold (htask.paused_of_paused hpaused)
  | accept _ _ => intro h; cases h
  | reject hg hp =>
      rcases hres.of_set hg with ⟨_, h⟩ | ⟨_, h⟩
      · cases h
      · exact hi g h
  | progress hg hp =>
      obtain ⟨goal', hg', hb, hp'⟩ := Sys.resumed_iff.mp hres
      rw [getElem?_set_of_some hg] at hg'
      split at hg'
      · rename_i heq
        subst heq
        cases hg'
        exact hi g (Sys.resumed_iff.mpr ⟨_, hg, hb, hp⟩)
      · exact hi g (Sys.resumed_iff.mpr ⟨_, hg', hb, hp'⟩)
  | feedback _ _ => exact hi g hres
  | @result k goal code hg hp =>
      rcases hres.of_set hg with ⟨_, h⟩ | ⟨hne, h⟩
      · cases h
      · -- 別のゴールの結果が `Paused` にするのは、条件で除いた ABORTED と CANCELED だけである。
        have hlt : g < s.goals.length := by
          obtain ⟨goal', hg', _, _⟩ := Sys.resumed_iff.mp h
          exact (List.getElem?_eq_some_iff.mp hg').1
        cases code with
        | unknown => exact hi g h
        | succeeded => intro hp; cases hp
        | canceled => exact absurd h (hc g hlt hne)
        | aborted => exact absurd h (hc g hlt hne)

/-- CONTINUE が送ったゴールについて、応答の前に別の CONTINUE が `Paused` を読まず、実行中に別のゴールの ABORTED
も CANCELED も届かない実行では、そのゴールが断られるか結果が返るまで、別の CONTINUE はゴールを送らない。 -/
theorem continue_alone {es : List (Event Pose)} (h : Always Sys.step ContinueOrdered Sys.init es) :
    Always Sys.step ContinueAlone Sys.init es := by
  refine Always.of_inv (fun s e t hi hst hc => ResumedRunning.step hi hst hc) ?_ ?_ h
  · intro s e t hi hst hc hcont hsend g hlt
    obtain ⟨hreads, hpaused⟩ := hsend.readsState hcont
    refine ⟨?_, fun hres => hi g hres hpaused⟩
    cases e with
    | result k code => cases hreads
    | _ => exact hc hreads hpaused g hlt
  · intro g hres
    obtain ⟨goal, hg, _⟩ := Sys.resumed_iff.mp hres
    simp [Sys.init] at hg

-- 中断と再開を二度行う実行。
theorem continue_alone_twice :
    let csv : WaypointFile → Option (List Nat) := fun _ => some [10, 11, 12]
    let run : List (Event Nat) := [.request WaypointTask.ONE_GO true 1000000000 csv, .response 0 true,
      .request WaypointTask.PAUSE true 2000000000 csv, .result 0 .canceled,
      .request WaypointTask.CONTINUE true 3000000000 csv, .response 1 true, .result 1 .aborted,
      .request WaypointTask.CONTINUE true 4000000000 csv]
    (runs Sys.step Sys.init run).any (fun s => s.goals.length = 3) ∧
      Always Sys.step ContinueAlone Sys.init run :=
  ⟨by decide, continue_alone (by decide)⟩

-- 応答の前の CONTINUE は、デバウンスの時間を過ぎていれば、同じ残りをもう一度送る。
theorem continue_twice_unanswered :
    let csv : WaypointFile → Option (List Nat) := fun _ => some [10, 11, 12]
    let run : List (Event Nat) := [.request WaypointTask.ONE_GO true 1000000000 csv, .response 0 true,
      .request WaypointTask.PAUSE true 2000000000 csv, .result 0 .canceled,
      .request WaypointTask.CONTINUE true 3000000000 csv,
      .request WaypointTask.CONTINUE true 4000000000 csv]
    ¬ Always Sys.step ContinueAlone Sys.init run ∧
      (runs Sys.step Sys.init run).any fun s => s.Resumed 1 .sent ∧ s.Resumed 2 .sent := by
  decide

end Ranger.Waypoint
