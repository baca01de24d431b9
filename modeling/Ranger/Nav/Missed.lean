import Ranger.Nav.Follower

/-!
# 追従の結果と失敗した経由点

送った結果の `missed_waypoints` が、その目標の失敗した経由点と一致することを、どの順の実行についても調べる。`failed_ids_` は
取り消しと乗り換えで消えず、断りの返事はどの経由点のものかを確かめられない。
-/

namespace Ranger.Nav
open Ranger.Lib

namespace Follower

/-! ## 不変条件 -/

/-- 目標を追従している位置。 -/
def Phase.following : Phase → Bool
  | .checkCancel | .canceling | .checkPreempt | .accepting | .process | .spinning => true
  | .idle | .entry | .returning => false

/-- 失敗した経由点の番号が、ちょうど一度ずつ、小さい順に並ぶ。 -/
def Exact (failed : ℕ → Bool) (missed : List ℕ) : Prop :=
  missed.Pairwise (· < ·) ∧ ∀ i, i ∈ missed ↔ failed i = true

/-- 送られた結果は、失敗した経由点と一致する。結果を送られておらず、追従されていない目標は、失敗した経由点を持たない。 -/
structure Records (s : Follower) : Prop where
  sound : s.server.Sound
  stop : s.server.stopExecution = false
  ids : s.results.map Prod.fst = s.server.delivered
  exact : ∀ r ∈ s.results, Exact (s.failed r.1) r.2
  fresh : ∀ g, g ∉ s.server.delivered → (Phase.following s.phase = true → g ≠ s.goal) → ∀ i, s.failed g i = false

def Serving (s : Follower) : Prop := s.server.worker = .executing ∧ s.server.handle .current = some s.goal

def SendState.done : SendState → Prop
  | .rejected | .finished => True
  | .waiting | .accepted => False

/-- 追従している目標の失敗は、`failed_ids_` と、まだ処理されていない今の経由点の失敗である。 -/
structure Tracked (s : Follower) : Prop where
  sorted : s.failedIds.Pairwise (· < ·)
  below : ∀ i ∈ s.failedIds, i < s.goalIndex
  iff : ∀ i, s.failed s.goal i = true ↔
    i ∈ s.failedIds ∨ (s.newGoal = false ∧ s.currentGoalStatus = .failed ∧ i = s.goalIndex)
  latest : s.newGoal = false → ∃ send, s.sends.getLast? = some send ∧ send.goal = s.goal ∧
    send.index = s.goalIndex ∧
    (s.currentGoalStatus = .failed ∨ s.currentGoalStatus = .succeeded → SendState.done send.state)

def Holds (s : Follower) : Phase → Prop
  | .idle => s.server.worker ≠ .executing ∧ s.failedIds = []
  | .entry => s.server.worker = .executing ∧ s.failedIds = []
  | .returning => s.server.worker = .executing ∧ s.server.handle .current = none ∧ s.failedIds = []
  | .canceling => s.Serving ∧ s.failedIds = [] ∧ ∀ i, s.failed s.goal i = false
  | .checkCancel | .checkPreempt | .accepting | .process => s.Serving ∧ s.Tracked
  | .spinning => s.Serving ∧ s.Tracked ∧
      (s.newGoal = true → ∀ send, s.sends.getLast? = some send → SendState.done send.state)

def PhaseOk (s : Follower) : Prop := s.Holds s.phase

/-- 失敗した経由点がない。 -/
def Clean (s : Follower) : Prop :=
  s.failedIds = [] ∧ (s.newGoal = true ∨ s.currentGoalStatus ≠ .failed)

/-- `k` 番目に送った目標は、追従している目標の経由点のものである。 -/
def ownSend (s : Follower) (k : ℕ) : Bool := (s.sends[k]?).any fun send => send.goal == s.goal

/-- 取り消しと乗り換えは、失敗した経由点がないときにだけ行われ、取り消しの返事を待つあいだに経由点の航行が失敗しない。断りの返事は、
最後に送った目標のものである。 -/
def Orderly (s : Follower) : Event → Follower → Prop
  | .checkCancel, _ => s.isCancelRequested = false ∨ s.Clean
  | .acceptPending, _ => s.Clean
  | .goalResponse k false, _ => if s.phase = .canceling then s.ownSend k = false else k + 1 = s.sends.length
  | .result k .aborted, _ => s.phase = .canceling → k + 1 = s.sends.length → s.ownSend k = false
  | .goalResponse _ true, _ | .handleAccepted _ _, _ | .handleCancel _, _ | .setStopOnFailure _, _ | .testLoop, _
  | .enter, _ | .terminateAll, _ | .checkPreempt, _ | .process _, _ | .result _ .unknown, _ | .result _ .succeeded, _
  | .result _ .canceled, _ | .spun, _ | .callbackReturn, _ | .threadEnd, _ => True

/-! ## 結果の記録 -/

theorem exact_nil {failed : ℕ → Bool} (h : ∀ i, failed i = false) : Exact failed [] := by
  simp [Exact, h]

theorem PhaseOk.serving {s : Follower} (h : s.PhaseOk) (hfollowing : Phase.following s.phase = true) : s.Serving := by
  unfold PhaseOk at h
  cases hphase : s.phase with
  | idle | entry | returning => simp [hphase, Phase.following] at hfollowing
  | canceling | checkCancel | checkPreempt | accepting | process | spinning =>
      rw [hphase] at h
      exact h.1

/-- 追従している目標には、まだ結果が送られていない。 -/
theorem Serving.not_mem {s : Follower} (h : s.Serving) (hs : s.Records) : s.goal ∉ s.server.delivered :=
  hs.sound.not_mem_delivered h.2

/-- 次の場所の目標は、失敗した経由点を持たない。 -/
theorem Records.pending_fresh {s : Follower} (h : s.Records) (hphase : s.PhaseOk) {g : ℕ}
    (hg : s.server.handle .pending = some g) : ∀ i, s.failed g i = false := by
  apply h.fresh g (h.sound.not_mem_delivered hg)
  rintro hfollowing rfl
  cases h.sound.slot_unique hg (hphase.serving hfollowing).2

/-- 結果を送る操作。送った目標の失敗が `missed` と一致すれば、記録は保たれる。 -/
theorem Records.deliver {s t : Follower} (h : s.Records) {new : List ℕ} {missed : List ℕ}
    (hsound : t.server.Sound) (hstop : t.server.stopExecution = false)
    (hdelivered : t.server.delivered = s.server.delivered ++ new)
    (hresults : t.results = (s.record t.server missed).results) (hfailed : t.failed = s.failed)
    (hexact : ∀ g ∈ new, Exact (s.failed g) missed)
    (hgoal : Phase.following s.phase = true → s.goal ∈ new ∨ (Phase.following t.phase = true ∧ t.goal = s.goal)) :
    t.Records := by
  have hresults' : t.results = s.results ++ new.map fun g => (g, missed) := by
    rw [hresults, record]
    dsimp only
    rw [hdelivered, List.drop_left]
  refine ⟨hsound, hstop, ?_, fun r hr => ?_, fun g hg hne i => ?_⟩
  · rw [hresults', hdelivered, List.map_append, h.ids, List.map_map]
    simp [Function.comp_def]
  · rw [hresults', List.mem_append] at hr
    rw [hfailed]
    rcases hr with hold | hnew
    · exact h.exact r hold
    · obtain ⟨g, hg, rfl⟩ := List.mem_map.mp hnew
      exact hexact g hg
  · rw [hdelivered, List.mem_append, not_or] at hg
    rw [hfailed]
    apply h.fresh g hg.1
    rintro hfollowing rfl
    rcases hgoal hfollowing with hmem | ⟨hfollow, hsame⟩
    · exact hg.2 hmem
    · exact hne hfollow hsame.symm

theorem Records.keep {s t : Follower} (h : s.Records) (hsound : t.server.Sound)
    (hstop : t.server.stopExecution = false) (hdelivered : t.server.delivered = s.server.delivered)
    (hresults : t.results = s.results) (hfailed : t.failed = s.failed)
    (hgoal : Phase.following s.phase = true → Phase.following t.phase = true ∧ t.goal = s.goal) : t.Records := by
  have hnone : t.server.delivered = s.server.delivered ++ [] := by simp [hdelivered]
  have hrecord : t.results = (s.record t.server []).results := by
    rw [hresults, record]
    dsimp only
    rw [hdelivered, List.drop_length, List.map_nil, List.append_nil]
  exact h.deliver hsound hstop hnone hrecord hfailed (by simp) fun hfollowing => Or.inr (hgoal hfollowing)

/-! ## サーバの側の遷移 -/

/-- 追従の変数が同じである。 -/
structure SameLocals (s t : Follower) : Prop where
  phase : t.phase = s.phase
  goal : t.goal = s.goal
  goalIndex : t.goalIndex = s.goalIndex
  newGoal : t.newGoal = s.newGoal
  status : t.currentGoalStatus = s.currentGoalStatus
  failedIds : t.failedIds = s.failedIds
  sends : t.sends = s.sends
  failed : t.failed = s.failed

/-- サーバだけを変える遷移。追従しているあいだ、今の目標とスレッドは変わらない。 -/
theorem PhaseOk.of_server {s t : Follower} (h : s.PhaseOk) (hsame : SameLocals s t)
    (hbusy : s.server.worker = .executing →
      t.server.worker = .executing ∧ t.server.handle .current = s.server.handle .current)
    (hidle : s.server.worker ≠ .executing → t.server.worker ≠ .executing) : t.PhaseOk := by
  obtain ⟨hphase, hgoal, hindex, hnew, hstatus, hids, hsends, hfailed⟩ := hsame
  have hserving : s.Serving → t.Serving := by
    intro hs
    obtain ⟨hworker, hcurrent⟩ := hbusy hs.1
    exact ⟨hworker, by rw [hcurrent, hgoal, hs.2]⟩
  have htracked : s.Tracked → t.Tracked := by
    rintro ⟨hsorted, hbelow, hiff, hlatest⟩
    constructor
    · rwa [hids]
    · rwa [hids, hindex]
    · rwa [hids, hindex, hfailed, hgoal, hnew, hstatus]
    · rwa [hindex, hgoal, hnew, hstatus, hsends]
  unfold PhaseOk Holds at h ⊢
  rw [hphase, hids, hfailed, hgoal, hnew, hsends]
  cases hp : s.phase with
  | idle =>
      rw [hp] at h
      exact ⟨hidle h.1, h.2⟩
  | entry =>
      rw [hp] at h
      exact ⟨(hbusy h.1).1, h.2⟩
  | returning =>
      rw [hp] at h
      exact ⟨(hbusy h.1).1, (hbusy h.1).2.trans h.2.1, h.2.2⟩
  | canceling =>
      rw [hp] at h
      exact ⟨hserving h.1, h.2⟩
  | checkCancel | checkPreempt | accepting | process =>
      rw [hp] at h
      exact ⟨hserving h.1, htracked h.2⟩
  | spinning =>
      rw [hp] at h
      exact ⟨hserving h.1, htracked h.2.1, h.2.2⟩

structure Inv (s : Follower) : Prop extends Records s where
  phaseOk : s.PhaseOk

theorem Inv.at_phase {s : Follower} (h : s.Inv) {phase : Phase} (hphase : s.phase = phase) : s.Holds phase := by
  rw [← hphase]
  exact h.phaseOk

theorem inv_init (stop : Bool) : (init stop).Inv := by
  refine ⟨⟨ActionServer.sound_init, rfl, rfl, ?_, ?_⟩, ?_⟩
  · simp [init]
  · simp [init]
  · exact ⟨by simp [init, ActionServer.init], rfl⟩

theorem handleAccepted_inv {s : Follower} (h : s.Inv) (canceling : Bool) (poses : ℕ → ℕ) :
    Inv { s.record (s.server.handleAccepted canceling) [] with poses := poses } := by
  have hfresh : ∀ g ∈ (s.server.handle .pending).toList, Exact (s.failed g) [] := by
    intro g hg
    exact exact_nil (h.toRecords.pending_fresh h.phaseOk (by simpa using hg))
  refine ⟨h.deliver (ActionServer.handleAccepted_sound h.sound canceling) ?_
    (h.sound.delivered_handleAccepted canceling) rfl rfl hfresh fun hfollow => Or.inr ⟨hfollow, rfl⟩, ?_⟩
  · exact (ActionServer.handleAccepted_stop s.server canceling).trans h.stop
  · refine h.phaseOk.of_server ⟨rfl, rfl, rfl, rfl, rfl, rfl, rfl, rfl⟩ (fun hworker => ?_) fun hworker => ?_
    · have hyields := h.sound.handleAccepted_busy canceling (by simp [ActionServer.isRunning, hworker])
      refine ⟨hyields.worker.trans hworker, ?_⟩
      rw [record, hyields.handle_eq]
      simp
    · rw [record]
      cases hbusy : (s.server.isActive .current || s.server.isRunning) with
      | true =>
          rw [(h.sound.handleAccepted_busy canceling hbusy).worker]
          exact hworker
      | false =>
          rw [(h.sound.handleAccepted_free canceling hbusy).2]
          decide

theorem handleCancel_inv {s : Follower} (h : s.Inv) (g : ℕ) :
    Inv { s with server := s.server.handleCancel g } := by
  obtain ⟨hhandle, hworker⟩ := ActionServer.handleCancel_frame s.server g
  obtain ⟨hstop, hdelivered⟩ : (s.server.handleCancel g).stopExecution = s.server.stopExecution ∧
      (s.server.handleCancel g).delivered = s.server.delivered := by
    unfold ActionServer.handleCancel
    split <;> exact ⟨rfl, rfl⟩
  refine ⟨h.keep (h.sound.handleCancel g) (hstop.trans h.stop) hdelivered rfl rfl fun hfollow => ⟨hfollow, rfl⟩, ?_⟩
  refine h.phaseOk.of_server ⟨rfl, rfl, rfl, rfl, rfl, rfl, rfl, rfl⟩ (fun hexec => ?_) fun hexec => ?_
  · exact ⟨hworker.trans hexec, by rw [hhandle]⟩
  · rw [hworker]
    exact hexec

/-- スレッドが `followWaypoints` の外にあるのは、呼ばれていないあいだだけである。 -/
theorem PhaseOk.idle_of_worker {s : Follower} (h : s.PhaseOk) (hworker : s.server.worker ≠ .executing) :
    s.phase = .idle ∧ s.failedIds = [] := by
  unfold PhaseOk at h
  cases hphase : s.phase with
  | idle =>
      rw [hphase] at h
      exact ⟨rfl, h.2⟩
  | entry | returning =>
      rw [hphase] at h
      exact absurd h.1 hworker
  | canceling | checkCancel | checkPreempt | accepting | process | spinning =>
      rw [hphase] at h
      exact absurd h.1.1 hworker

theorem testLoop_inv {s : Follower} (h : s.Inv) (hworker : s.server.worker = .loopTest) :
    Inv { s with
      server := s.server.testLoop
      phase := if s.server.testLoop.worker = .executing then .entry else s.phase } := by
  obtain ⟨hphase, hids⟩ := h.phaseOk.idle_of_worker (by rw [hworker]; decide)
  have hsound := (ActionServer.testLoop_orderly false (t := s.server) h.sound).1
  have hframe : s.server.testLoop.stopExecution = s.server.stopExecution ∧
      s.server.testLoop.delivered = s.server.delivered := by
    unfold ActionServer.testLoop
    split <;> exact ⟨rfl, rfl⟩
  refine ⟨h.keep hsound (hframe.1.trans h.stop) hframe.2 rfl rfl ?_, ?_⟩
  · rw [hphase]
    intro hfollow
    cases hfollow
  · unfold PhaseOk
    dsimp only
    by_cases hexec : s.server.testLoop.worker = .executing
    · rw [if_pos hexec]
      exact ⟨hexec, hids⟩
    · rw [if_neg hexec, hphase]
      exact ⟨hexec, hids⟩

theorem threadEnd_inv {s : Follower} (h : s.Inv) (hworker : s.server.worker = .leaving) :
    Inv { s with server := { s.server with worker := .ended } } := by
  refine ⟨h.keep (h.sound.with_worker .ended) h.stop rfl rfl rfl fun hfollow => ⟨hfollow, rfl⟩, ?_⟩
  refine h.phaseOk.of_server ⟨rfl, rfl, rfl, rfl, rfl, rfl, rfl, rfl⟩ (fun hexec => ?_) fun _ => by simp
  rw [hworker] at hexec
  cases hexec

theorem callbackReturn_inv {s : Follower} (h : s.Inv) (hphase : s.phase = .returning) :
    Inv { s.record (s.server.finishIteration false) [] with phase := .idle } := by
  obtain ⟨-, hcurrent, hids⟩ := h.at_phase hphase
  have hsound := (ActionServer.finishIteration_orderly false (t := s.server) h.sound).1
  have hframe : (s.server.finishIteration false).stopExecution = false ∧
      (s.server.finishIteration false).delivered = s.server.delivered ++ [] ∧
      (s.server.finishIteration false).worker ≠ .executing := by
    rcases ActionServer.finishIteration_of_done hcurrent h.stop false with heq | heq
    · rw [heq]
      cases hg : s.server.handle .pending with
      | none =>
          rw [ActionServer.acceptPendingGoal_of_none hg]
          exact ⟨h.stop, by simp, by simp⟩
      | some g =>
          refine ⟨(h.sound.acceptPendingGoal hg).stop.trans h.stop, ?_, by simp⟩
          have hdelivered := h.sound.delivered_acceptPendingGoal hg
          rwa [hcurrent] at hdelivered
    · rw [heq]
      exact ⟨h.stop, by simp, by simp⟩
  refine ⟨h.deliver hsound hframe.1 hframe.2.1 rfl rfl (by simp) ?_, hframe.2.2, hids⟩
  rw [hphase]
  intro hfollow
  cases hfollow

/-! ## `followWaypoints` の遷移 -/

theorem enter_inv {s t : Follower} (h : s.Inv) (hphase : s.phase = .entry) (hstep : s.enter = some t) : t.Inv := by
  obtain ⟨hworker, hids⟩ := h.at_phase hphase
  have hidle : ¬ Phase.following s.phase = true := by
    rw [hphase]
    decide
  unfold enter at hstep
  split at hstep
  · cases hstep
  · rename_i g hg
    have hfresh : ∀ i, s.failed g i = false :=
      h.fresh g (h.sound.not_mem_delivered hg) fun hfollow => absurd hfollow hidle
    split at hstep
    · cases hstep
      have hyields := h.sound.succeededCurrent
      have hdelivered := h.sound.delivered_succeededCurrent
      rw [hg] at hdelivered
      refine ⟨h.deliver hyields.toSound (hyields.stop.trans h.stop) hdelivered rfl rfl ?_
        fun hfollow => absurd hfollow hidle, hyields.worker.trans hworker, ?_, hids⟩
      · intro g' hg'
        obtain rfl : g' = g := by simpa using hg'
        exact exact_nil hfresh
      · rw [record, hyields.handle_eq, Function.update_self]
    · cases hstep
      refine ⟨?_, ⟨hworker, hg⟩, ?_⟩
      · refine ⟨h.sound, h.stop, h.ids, h.exact, fun g' hg' _ => ?_⟩
        exact h.fresh g' hg' fun hfollow => absurd hfollow hidle
      · constructor
        · simp [hids]
        · simp [hids]
        · simp [hids, hfresh]
        · simp

theorem Tracked.clean {s : Follower} (h : s.Tracked) (hclean : s.Clean) : ∀ i, s.failed s.goal i = false := by
  intro i
  rw [Bool.eq_false_iff, Ne, h.iff, hclean.1]
  rintro (hmem | ⟨hnew, hfailed, -⟩)
  · cases hmem
  · rcases hclean.2 with htrue | hne
    · rw [hnew] at htrue
      cases htrue
    · exact hne hfailed

theorem checkCancel_inv {s : Follower} (h : s.Inv) (hphase : s.phase = .checkCancel)
    (horderly : s.isCancelRequested = false ∨ s.Clean) :
    Inv { s with phase := if s.isCancelRequested then .canceling else .checkPreempt } := by
  obtain ⟨hserving, htracked⟩ := h.at_phase hphase
  refine ⟨h.keep h.sound h.stop rfl rfl rfl fun _ => ⟨?_, rfl⟩, ?_⟩
  · dsimp only
    split <;> rfl
  · cases hcancel : s.isCancelRequested with
    | true =>
        have hclean : s.Clean := by
          rcases horderly with hfalse | hclean
          · rw [hcancel] at hfalse
            cases hfalse
          · exact hclean
        exact ⟨hserving, hclean.1, htracked.clean hclean⟩
    | false => exact ⟨hserving, htracked.sorted, htracked.below, htracked.iff, htracked.latest⟩

theorem terminateAll_inv {s : Follower} (h : s.Inv) (hphase : s.phase = .canceling) :
    Inv { s.record s.server.terminateAll [] with phase := .returning } := by
  obtain ⟨hserving, hids, hnone⟩ := h.at_phase hphase
  have hyields := h.sound.terminateAll
  refine ⟨h.deliver hyields.toSound (hyields.stop.trans h.stop) h.sound.delivered_terminateAll rfl rfl ?_ ?_,
    hyields.worker.trans hserving.1, ?_, hids⟩
  · intro g hg
    rcases List.mem_append.mp hg with hcurrent | hpending
    · obtain rfl : s.goal = g := by
        have hsome : s.server.handle .current = some g := by simpa using hcurrent
        exact Option.some.inj (hserving.2.symm.trans hsome)
      exact exact_nil hnone
    · exact exact_nil (h.toRecords.pending_fresh h.phaseOk (by simpa using hpending))
  · intro _
    left
    simp [hserving.2]
  · rw [record, hyields.handle_eq]

theorem checkPreempt_inv {s : Follower} (h : s.Inv) (hphase : s.phase = .checkPreempt) :
    Inv { s with phase := if s.server.preemptRequested then .accepting else .process } := by
  obtain ⟨hserving, htracked⟩ := h.at_phase hphase
  refine ⟨h.keep h.sound h.stop rfl rfl rfl fun _ => ⟨?_, rfl⟩, ?_⟩
  · dsimp only
    split <;> rfl
  · cases hpreempt : s.server.preemptRequested with
    | true => exact ⟨hserving, htracked.sorted, htracked.below, htracked.iff, htracked.latest⟩
    | false => exact ⟨hserving, htracked.sorted, htracked.below, htracked.iff, htracked.latest⟩

theorem acceptPending_inv {s t : Follower} (h : s.Inv) (hphase : s.phase = .accepting) (hclean : s.Clean)
    (hstep : s.acceptPending = some t) : t.Inv := by
  obtain ⟨hserving, htracked⟩ := h.at_phase hphase
  have hcurrent : s.server.handle .current = some s.goal := hserving.2
  have hnone := htracked.clean hclean
  unfold acceptPending at hstep
  split at hstep
  · cases hstep
  · rename_i g hg
    cases hstep
    have hyields := h.sound.acceptPendingGoal hg
    have hdelivered := h.sound.delivered_acceptPendingGoal hg
    rw [hcurrent] at hdelivered
    have hfresh := h.toRecords.pending_fresh h.phaseOk hg
    refine ⟨h.deliver hyields.toSound (hyields.stop.trans h.stop) hdelivered rfl rfl ?_ ?_,
      ⟨hyields.worker.trans hserving.1, ?_⟩, ?_⟩
    · intro g' hg'
      obtain rfl : g' = s.goal := by simpa using hg'
      exact exact_nil hnone
    · intro _
      simp
    · rw [record, hyields.handle_eq, Function.update_self]
    · constructor
      · simp [record, hclean.1]
      · simp [record, hclean.1]
      · simp [record, hclean.1, hfresh]
      · simp

theorem sendGoal_tracked {s t : Follower} (h : s.Tracked) (hstep : s.sendGoal = some t) :
    t.Tracked ∧ t.newGoal = false ∧ t.server = s.server ∧ t.results = s.results ∧ t.failed = s.failed ∧
      t.goal = s.goal ∧ t.phase = s.phase := by
  unfold sendGoal at hstep
  split at hstep
  · rename_i hnew
    cases hstep
    exact ⟨h, by simpa using hnew, rfl, rfl, rfl, rfl, rfl⟩
  · rename_i hnew
    have htrue : s.newGoal = true := by simpa using hnew
    split at hstep
    · cases hstep
      refine ⟨⟨h.sorted, h.below, ?_, ?_⟩, rfl, rfl, rfl, rfl, rfl, rfl⟩
      · intro i
        rw [h.iff i, htrue]
        simp
      · intro _
        exact ⟨⟨s.goal, s.goalIndex, .waiting⟩, by simp, rfl, rfl, by simp⟩
    · cases hstep

/-- 現在の目標の結果を、失敗した経由点と一致する `failed_ids_` で送る。 -/
theorem Records.finish {s : Follower} (h : s.Records) (hserving : s.Serving)
    (hexact : Exact (s.failed s.goal) s.failedIds) {server : ActionServer}
    (hyields : s.server.Yields server (Function.update s.server.handle .current none))
    (hdelivered : server.delivered = s.server.delivered ++ (s.server.handle .current).toList) (goalIndex : ℕ)
    (newGoal : Bool) :
    Inv { s.record server s.failedIds with
      goalIndex := goalIndex, newGoal := newGoal, failedIds := [], phase := .returning } := by
  rw [hserving.2] at hdelivered
  refine ⟨h.deliver hyields.toSound (hyields.stop.trans h.stop) hdelivered rfl rfl ?_ ?_,
    hyields.worker.trans hserving.1, ?_, rfl⟩
  · intro g hg
    obtain rfl : g = s.goal := by simpa using hg
    exact hexact
  · intro _
    simp
  · exact (congrFun hyields.handle_eq .current).trans (Function.update_self _ _ _)

theorem terminateFailed_inv {s : Follower} (h : s.Records) (hserving : s.Serving)
    (hexact : Exact (s.failed s.goal) s.failedIds) : s.terminateFailed.Inv :=
  h.finish hserving hexact h.sound.terminateCurrent (h.sound.delivered_terminate .current) s.goalIndex s.newGoal

theorem advance_inv {s : Follower} (h : s.Records) (hserving : s.Serving)
    (hexact : Exact (s.failed s.goal) s.failedIds) (hbelow : ∀ i ∈ s.failedIds, i < s.goalIndex + 1)
    (hdone : ∀ send, s.sends.getLast? = some send → SendState.done send.state) : s.advance.Inv := by
  unfold advance
  split
  · exact h.finish hserving hexact h.sound.succeededCurrent h.sound.delivered_succeededCurrent _ true
  · refine ⟨h.keep h.sound h.stop rfl rfl rfl fun _ => ⟨rfl, rfl⟩, hserving, ⟨hexact.1, hbelow, ?_, by simp⟩,
      fun _ => hdone⟩
    intro i
    simp [← hexact.2 i]

theorem exact_concat {failed : ℕ → Bool} {ids : List ℕ} {n : ℕ} (hsorted : ids.Pairwise (· < ·))
    (hbelow : ∀ i ∈ ids, i < n) (hiff : ∀ i, failed i = true ↔ i ∈ ids ∨ i = n) : Exact failed (ids ++ [n]) := by
  refine ⟨List.pairwise_append.mpr ⟨hsorted, by simp, ?_⟩, fun i => ?_⟩
  · intro i hi j hj
    obtain rfl : j = n := by simpa using hj
    exact hbelow i hi
  · rw [hiff i]
    simp

/-- 追従している目標の失敗を記録に加えても、送られた結果は変わらない。 -/
theorem Records.mark {s : Follower} (h : s.Records) (hserving : s.Serving)
    (hfollow : Phase.following s.phase = true) (i : ℕ) : (s.mark s.goal i).Records := by
  have hgoal := hserving.not_mem h
  have hother : ∀ g, g ≠ s.goal → (s.mark s.goal i).failed g = s.failed g := by
    intro g hg
    funext j
    simp [Follower.mark, hg]
  refine ⟨h.sound, h.stop, h.ids, fun r hr => ?_, fun g hg hne j => ?_⟩
  · have hmem : r.1 ∈ s.server.delivered := by
      rw [← h.ids]
      exact List.mem_map_of_mem hr
    rw [hother r.1 fun heq => hgoal (heq ▸ hmem)]
    exact h.exact r hr
  · rw [hother g (hne hfollow)]
    exact h.fresh g hg hne j

theorem process_inv {s t : Follower} (h : s.Inv) (hphase : s.phase = .process) {taskExecuted : Bool}
    (hstep : (s.sendGoal.map fun sent => sent.processStatus taskExecuted) = some t) : t.Inv := by
  obtain ⟨hserving, htracked⟩ := h.at_phase hphase
  obtain ⟨sent, hsend, rfl⟩ := Option.map_eq_some_iff.mp hstep
  obtain ⟨htracked', hnew, hserver, hresults, hfailed, hgoal, hphase'⟩ := sendGoal_tracked htracked hsend
  have hrecords : sent.Records := by
    refine h.keep (by rw [hserver]; exact h.sound) (by rw [hserver]; exact h.stop) (by rw [hserver]) hresults
      hfailed fun hfollow => ⟨?_, hgoal⟩
    rw [hphase']
    exact hfollow
  have hserving' : sent.Serving := by
    rw [Serving, hserver, hgoal]
    exact hserving
  have hfollow : Phase.following sent.phase = true := by
    rw [hphase', hphase]
    rfl
  obtain ⟨send, hlast, -, -, hdone⟩ := htracked'.latest hnew
  have hlast_done : sent.currentGoalStatus = .failed ∨ sent.currentGoalStatus = .succeeded →
      ∀ send', sent.sends.getLast? = some send' → SendState.done send'.state := by
    intro hstatus send' hsend'
    rw [hlast] at hsend'
    cases hsend'
    exact hdone hstatus
  have hnext : ∀ i ∈ sent.failedIds, i < sent.goalIndex + 1 := by
    intro i hi
    exact Nat.lt_succ_of_lt (htracked'.below i hi)
  unfold processStatus
  split
  · rename_i hstatus
    have hexact : Exact (sent.failed sent.goal) (sent.failedIds ++ [sent.goalIndex]) := by
      apply exact_concat htracked'.sorted htracked'.below
      intro i
      simp [htracked'.iff i, hnew, hstatus]
    dsimp only
    split
    · exact terminateFailed_inv ⟨hrecords.sound, hrecords.stop, hrecords.ids, hrecords.exact, hrecords.fresh⟩
        hserving' hexact
    · refine advance_inv ⟨hrecords.sound, hrecords.stop, hrecords.ids, hrecords.exact, hrecords.fresh⟩
        hserving' hexact ?_ (hlast_done (Or.inl hstatus))
      intro i hi
      rcases List.mem_append.mp hi with hold | hnew'
      · exact hnext i hold
      · obtain rfl : i = sent.goalIndex := by simpa using hnew'
        exact Nat.lt_succ_self _
  · rename_i hstatus
    have hiff : ∀ i, sent.failed sent.goal i = true ↔ i ∈ sent.failedIds := by
      intro i
      simp [htracked'.iff i, hstatus]
    split
    · have hmark := hrecords.mark hserving' hfollow sent.goalIndex
      refine terminateFailed_inv ⟨hmark.sound, hmark.stop, hmark.ids, hmark.exact, hmark.fresh⟩ hserving' ?_
      apply exact_concat htracked'.sorted htracked'.below
      intro i
      simp [Follower.mark, hiff i]
    · exact advance_inv hrecords hserving' ⟨htracked'.sorted, fun i => (hiff i).symm⟩ hnext
        (hlast_done (Or.inr hstatus))
  all_goals
    refine ⟨hrecords.keep hrecords.sound hrecords.stop rfl rfl rfl fun _ => ⟨rfl, rfl⟩, hserving', ?_, ?_⟩
    · exact ⟨htracked'.sorted, htracked'.below, htracked'.iff, htracked'.latest⟩
    · intro htrue
      rw [hnew] at htrue
      cases htrue

/-! ## コールバックの遷移 -/

theorem getLast?_setSend (s : Follower) (k : ℕ) (state : SendState) :
    (s.setSend k state).sends.getLast? =
      if k + 1 = s.sends.length then s.sends.getLast?.map fun send => { send with state := state }
      else s.sends.getLast? := by
  simp only [setSend, List.getLast?_eq_getElem?, List.length_modify, List.getElem?_modify]
  by_cases hlen : s.sends.length = 0
  · rw [List.length_eq_zero_iff] at hlen
    simp [hlen]
  · by_cases hk : k + 1 = s.sends.length
    · have hlast : k = s.sends.length - 1 := by omega
      rw [if_pos hk]
      simp [hlast]
    · have hlast : ¬ k = s.sends.length - 1 := by omega
      rw [if_neg hk]
      simp [hlast]

/-- 取り消しを待つあいだの、失敗を記録しないコールバック。 -/
theorem canceling_inv {s t : Follower} (h : s.Inv) (hphase : s.phase = .canceling) (hserver : t.server = s.server)
    (hresults : t.results = s.results) (hfailed : t.failed = s.failed) (hgoal : t.goal = s.goal)
    (hids : t.failedIds = s.failedIds) (hphase' : t.phase = s.phase) : t.Inv := by
  obtain ⟨hserving, hnil, hnone⟩ := h.at_phase hphase
  refine ⟨h.keep (by rw [hserver]; exact h.sound) (by rw [hserver]; exact h.stop) (by rw [hserver]) hresults hfailed
    fun hfollow => ⟨by rw [hphase']; exact hfollow, hgoal⟩, ?_⟩
  rw [PhaseOk, hphase', hphase]
  refine ⟨?_, by rw [hids, hnil], ?_⟩
  · rw [Serving, hserver, hgoal]
    exact hserving
  · rw [hfailed, hgoal]
    exact hnone

/-- 最後に送った目標がまだ終わっていないとき、それは今の経由点のもので、まだ失敗していない。 -/
theorem Holds.latest {s : Follower} (h : s.Holds .spinning) {send : Send} (hlast : s.sends.getLast? = some send)
    (hdone : ¬ SendState.done send.state) :
    s.newGoal = false ∧ send.goal = s.goal ∧ send.index = s.goalIndex ∧
      s.currentGoalStatus ≠ .failed ∧ s.currentGoalStatus ≠ .succeeded := by
  obtain ⟨-, htracked, hfinished⟩ := h
  have hnew : s.newGoal = false := by
    rw [Bool.eq_false_iff]
    intro htrue
    exact hdone (hfinished htrue send hlast)
  obtain ⟨send', hlast', hgoal, hindex, hstatus⟩ := htracked.latest hnew
  rw [hlast] at hlast'
  cases hlast'
  exact ⟨hnew, hgoal, hindex, fun hf => hdone (hstatus (Or.inl hf)), fun hs => hdone (hstatus (Or.inr hs))⟩

/-- 今の経由点の航行が失敗したとき、失敗が記録され、状態に現れる。 -/
theorem spinning_failed {s : Follower} (h : s.Inv) (hphase : s.phase = .spinning) {k : ℕ} {send : Send}
    (hlast : s.sends.getLast? = some send) (hk : k + 1 = s.sends.length) (hdone : ¬ SendState.done send.state)
    {state : SendState} (hstate : SendState.done state) :
    Inv { (s.setSend k state).markSend send with currentGoalStatus := .failed } := by
  obtain ⟨hnew, hgoal, hindex, hne, -⟩ := Holds.latest (h.at_phase hphase) hlast hdone
  obtain ⟨hserving, htracked, -⟩ := h.at_phase hphase
  have hfollow : Phase.following s.phase = true := by rw [hphase]; rfl
  have hmark := h.toRecords.mark hserving hfollow s.goalIndex
  have heq : (s.setSend k state).markSend send = (s.setSend k state).mark s.goal s.goalIndex := by
    rw [markSend, if_pos (show send.goal = (s.setSend k state).goal from hgoal), hgoal, hindex]
  rw [heq]
  refine ⟨⟨hmark.sound, hmark.stop, hmark.ids, hmark.exact, hmark.fresh⟩, ?_⟩
  have hphase' : ({ (s.setSend k state).mark s.goal s.goalIndex with currentGoalStatus := .failed } :
      Follower).phase = .spinning := hphase
  rw [PhaseOk, hphase']
  refine ⟨hserving, ⟨htracked.sorted, htracked.below, ?_, ?_⟩, ?_⟩
  · intro i
    simp [Follower.mark, setSend, htracked.iff i, hne, hnew]
  · intro _
    refine ⟨{ send with state := state }, ?_, hgoal, hindex, fun _ => hstate⟩
    change (s.setSend k state).sends.getLast? = _
    rw [getLast?_setSend, if_pos hk, hlast]
    rfl
  · intro htrue
    change s.newGoal = true at htrue
    rw [hnew] at htrue
    cases htrue

theorem spinning_setSend {s : Follower} (h : s.Inv) (hphase : s.phase = .spinning) {k : ℕ} {state : SendState}
    (hlast : k + 1 = s.sends.length → ∃ send, s.sends.getLast? = some send ∧ ¬ SendState.done send.state) :
    (s.setSend k state).Inv := by
  obtain ⟨hserving, htracked, hfinished⟩ := h.at_phase hphase
  refine ⟨h.keep h.sound h.stop rfl rfl rfl fun hfollow => ⟨hfollow, rfl⟩, ?_⟩
  have hphase' : (s.setSend k state).phase = .spinning := hphase
  rw [PhaseOk, hphase']
  by_cases hk : k + 1 = s.sends.length
  · -- 最後に送った目標はまだ終わっておらず、今の経由点の状態は定まっていない。
    obtain ⟨send, hsend, hdone⟩ := hlast hk
    obtain ⟨hnew, hgoal, hindex, hfailed, hsucceeded⟩ := Holds.latest (h.at_phase hphase) hsend hdone
    refine ⟨hserving, ⟨htracked.sorted, htracked.below, htracked.iff, fun _ => ?_⟩, fun htrue => ?_⟩
    · refine ⟨{ send with state := state }, ?_, hgoal, hindex, fun hstatus => ?_⟩
      · rw [getLast?_setSend, if_pos hk, hsend]
        rfl
      · rcases hstatus with hf | hs
        · exact absurd hf hfailed
        · exact absurd hs hsucceeded
    · change s.newGoal = true at htrue
      rw [hnew] at htrue
      cases htrue
  · refine ⟨hserving, ⟨htracked.sorted, htracked.below, htracked.iff, fun hnew => ?_⟩, fun htrue => ?_⟩
    · rw [getLast?_setSend, if_neg hk]
      exact htracked.latest hnew
    · rw [getLast?_setSend, if_neg hk]
      exact hfinished htrue

/-- 今の経由点の航行が、失敗でない結果で終わる。 -/
theorem spinning_finished {s : Follower} (h : s.Inv) (hphase : s.phase = .spinning) {k : ℕ} {send : Send}
    (hlast : s.sends.getLast? = some send) (hk : k + 1 = s.sends.length) (hdone : ¬ SendState.done send.state)
    {status : ActionStatus} (hstatus : status ≠ .failed) :
    Inv { s.setSend k .finished with currentGoalStatus := status } := by
  obtain ⟨hnew, hgoal, hindex, hne, -⟩ := Holds.latest (h.at_phase hphase) hlast hdone
  obtain ⟨hserving, htracked, -⟩ := h.at_phase hphase
  refine ⟨h.keep h.sound h.stop rfl rfl rfl fun hfollow => ⟨hfollow, rfl⟩, ?_⟩
  have hphase' : ({ s.setSend k .finished with currentGoalStatus := status } : Follower).phase = .spinning := hphase
  rw [PhaseOk, hphase']
  refine ⟨hserving, ⟨htracked.sorted, htracked.below, fun i => ?_, fun _ => ?_⟩, fun htrue => ?_⟩
  · simp [setSend, htracked.iff i, hne, hstatus]
  · refine ⟨{ send with state := .finished }, ?_, hgoal, hindex, fun _ => trivial⟩
    change (s.setSend k .finished).sends.getLast? = _
    rw [getLast?_setSend, if_pos hk, hlast]
    rfl
  · change s.newGoal = true at htrue
    rw [hnew] at htrue
    cases htrue

theorem getLast?_of_length {s : Follower} {k : ℕ} {send : Send} (hsend : s.sends[k]? = some send)
    (hk : k + 1 = s.sends.length) : s.sends.getLast? = some send := by
  rw [List.getLast?_eq_getElem?, ← hk]
  exact hsend

theorem spins_cases {s : Follower} (h : s.spins = true) : s.phase = .spinning ∨ s.phase = .canceling := by
  simpa [spins] using h

/-- 他の目標の航行の失敗は、記録を変えない。 -/
theorem markSend_of_ownSend {s : Follower} {k : ℕ} {send : Send} (hsend : s.sends[k]? = some send)
    (hown : s.ownSend k = false) (state : SendState) : (s.setSend k state).markSend send = s.setSend k state := by
  rw [ownSend, hsend, Option.any_some, beq_eq_false_iff_ne] at hown
  rw [markSend, if_neg (show ¬ send.goal = (s.setSend k state).goal from hown)]

theorem goalResponse_inv {s t : Follower} (h : s.Inv) (hspins : s.spins = true) {k : ℕ} {accepted : Bool}
    (horderly : accepted = false → if s.phase = .canceling then s.ownSend k = false else k + 1 = s.sends.length)
    (hstep : s.goalResponseCallback k accepted = some t) : t.Inv := by
  unfold goalResponseCallback at hstep
  split at hstep
  · cases hstep
  · rename_i send hsend
    split at hstep
    · cases hstep
    · rename_i hstate
      have hwaiting : send.state = .waiting := by simpa using hstate
      have hdone : ¬ SendState.done send.state := by simp [hwaiting, SendState.done]
      split at hstep
      · cases hstep
        rcases spins_cases hspins with hphase | hphase
        · exact spinning_setSend h hphase fun hk => ⟨send, getLast?_of_length hsend hk, hdone⟩
        · exact canceling_inv h hphase rfl rfl rfl rfl rfl rfl
      · rename_i haccepted
        cases hstep
        have hanswer := horderly (by simpa using haccepted)
        rcases spins_cases hspins with hphase | hphase
        · rw [hphase, if_neg (by decide)] at hanswer
          exact spinning_failed h hphase (getLast?_of_length hsend hanswer) hanswer hdone trivial
        · rw [if_pos hphase] at hanswer
          rw [markSend_of_ownSend hsend hanswer]
          exact canceling_inv h hphase rfl rfl rfl rfl rfl rfl

/-- 追従しているあいだ、航行の失敗は、状態に現れる失敗である。 -/
theorem navigationFailed_iff {s : Follower} (hphase : s.phase = .spinning) (code : ResultCode) :
    s.navigationFailed code = true ↔ statusOf code = .failed := by
  cases code <;> simp [navigationFailed, statusOf, hphase]

/-- 取り消しの返事を待つあいだ、航行の失敗は `ABORTED` だけである。 -/
theorem navigationFailed_canceling {s : Follower} (hphase : s.phase = .canceling) {code : ResultCode}
    (hcode : s.navigationFailed code = true) : code = .aborted := by
  cases code <;> simp_all [navigationFailed]

theorem result_inv {s t : Follower} (h : s.Inv) (hspins : s.spins = true) {k : ℕ} {code : ResultCode}
    (horderly : code = .aborted → s.phase = .canceling → k + 1 = s.sends.length → s.ownSend k = false)
    (hstep : s.resultCallback k code = some t) : t.Inv := by
  unfold resultCallback at hstep
  split at hstep
  · rename_i send last hsend hlast
    split at hstep
    · cases hstep
    · rename_i hstate
      have haccepted : send.state = .accepted := by simpa using hstate
      have hdone : ¬ SendState.done send.state := by simp [haccepted, SendState.done]
      split at hstep
      · rename_i hk
        cases hstep
        rcases spins_cases hspins with hphase | hphase
        · by_cases hfailed : statusOf code = .failed
          · simp only [hfailed, (navigationFailed_iff hphase code).mpr hfailed, if_true]
            exact spinning_failed h hphase (getLast?_of_length hsend hk) hk hdone trivial
          · have hother : ¬ s.navigationFailed code = true := fun hcode => hfailed ((navigationFailed_iff hphase code).mp hcode)
            simp only [hother]
            exact spinning_finished h hphase (getLast?_of_length hsend hk) hk hdone hfailed
        · have hmark : (if s.navigationFailed code = true then (s.setSend k .finished).markSend send
              else s.setSend k .finished) = s.setSend k .finished := by
            split_ifs with hcode
            · exact markSend_of_ownSend hsend (horderly (navigationFailed_canceling hphase hcode) hphase hk) _
            · rfl
          rw [hmark]
          exact canceling_inv h hphase rfl rfl rfl rfl rfl rfl
      · rename_i hk
        split at hstep
        · cases hstep
        · cases hstep
          rcases spins_cases hspins with hphase | hphase
          · exact spinning_setSend h hphase fun hk' => absurd hk' hk
          · exact canceling_inv h hphase rfl rfl rfl rfl rfl rfl
  · cases hstep

/-! ## 実行の全体 -/

theorem step_inv {s t : Follower} {e : Event} (h : s.Inv) (hstep : s.step e = some t) (horderly : Orderly s e t) :
    t.Inv := by
  cases e with
  | handleAccepted canceling poses =>
      cases hstep
      exact handleAccepted_inv h canceling _
  | handleCancel g =>
      simp only [step] at hstep
      split at hstep
      · cases hstep
        exact handleCancel_inv h g
      · cases hstep
  | setStopOnFailure value =>
      cases hstep
      refine ⟨h.keep h.sound h.stop rfl rfl rfl fun hfollow => ⟨hfollow, rfl⟩, ?_⟩
      exact h.phaseOk.of_server ⟨rfl, rfl, rfl, rfl, rfl, rfl, rfl, rfl⟩ (fun hexec => ⟨hexec, rfl⟩) fun hexec => hexec
  | testLoop =>
      simp only [step] at hstep
      split at hstep
      · rename_i hworker
        cases hstep
        exact testLoop_inv h hworker
      · cases hstep
  | enter =>
      simp only [step] at hstep
      split at hstep
      · rename_i hphase
        exact enter_inv h hphase hstep
      · cases hstep
  | checkCancel =>
      simp only [step] at hstep
      split at hstep
      · rename_i hphase
        cases hstep
        exact checkCancel_inv h hphase horderly
      · cases hstep
  | terminateAll =>
      simp only [step] at hstep
      split at hstep
      · rename_i hphase
        cases hstep
        exact terminateAll_inv h hphase
      · cases hstep
  | checkPreempt =>
      simp only [step] at hstep
      split at hstep
      · rename_i hphase
        cases hstep
        exact checkPreempt_inv h hphase
      · cases hstep
  | acceptPending =>
      simp only [step] at hstep
      split at hstep
      · rename_i hphase
        exact acceptPending_inv h hphase horderly hstep
      · cases hstep
  | process taskExecuted =>
      simp only [step] at hstep
      split at hstep
      · rename_i hphase
        exact process_inv h hphase hstep
      · cases hstep
  | goalResponse k accepted =>
      simp only [step] at hstep
      split at hstep
      · rename_i hspins
        refine goalResponse_inv h hspins (fun haccepted => ?_) hstep
        rw [haccepted] at horderly
        exact horderly
      · cases hstep
  | result k code =>
      simp only [step] at hstep
      split at hstep
      · rename_i hspins
        refine result_inv h hspins (fun haborted => ?_) hstep
        rw [haborted] at horderly
        exact horderly
      · cases hstep
  | spun =>
      simp only [step] at hstep
      split at hstep
      · rename_i hphase
        cases hstep
        obtain ⟨hserving, htracked, -⟩ := h.at_phase hphase
        refine ⟨h.keep h.sound h.stop rfl rfl rfl fun _ => ⟨rfl, rfl⟩, hserving, ?_⟩
        exact ⟨htracked.sorted, htracked.below, htracked.iff, htracked.latest⟩
      · cases hstep
  | callbackReturn =>
      simp only [step] at hstep
      split at hstep
      · rename_i hphase
        cases hstep
        exact callbackReturn_inv h hphase
      · cases hstep
  | threadEnd =>
      simp only [step] at hstep
      split at hstep
      · rename_i hworker
        cases hstep
        exact threadEnd_inv h hworker
      · cases hstep

/-- どの遷移も `Orderly` な実行では、送られた結果の `missed_waypoints` は、その目標の失敗した経由点の番号を、ちょうど一度ずつ
小さい順に並べたものである。 -/
theorem missed_waypoints_exact (stopOnFailure : Bool) (es : List Event) (t : Follower)
    (hrun : runs step (init stopOnFailure) es = some t) (horderly : Always step Orderly (init stopOnFailure) es) :
    ∀ r ∈ t.results, Exact (t.failed r.1) r.2 := by
  have hinv : t.Inv := runs_inv (fun s e u h hstep ho => step_inv h hstep ho) (inv_init stopOnFailure) horderly hrun
  exact hinv.exact

/-- 二つの経由点を持つ目標の、初めの経由点の航行が失敗し、次に進む。 -/
def firstFails : List Event :=
  [.handleAccepted false 2, .testLoop, .enter, .checkCancel, .checkPreempt, .process true, .goalResponse 0 true,
    .result 0 .aborted, .spun, .checkCancel, .checkPreempt, .process true]

instance (s : Follower) (e : Event) (t : Follower) : Decidable (Orderly s e t) :=
  match e with
  | .checkCancel => inferInstanceAs (Decidable (s.isCancelRequested = false ∨ _ = _ ∧ (_ ∨ _)))
  | .acceptPending => inferInstanceAs (Decidable (_ = _ ∧ (_ ∨ _)))
  | .goalResponse k false =>
      inferInstanceAs (Decidable (if s.phase = .canceling then s.ownSend k = false else k + 1 = s.sends.length))
  | .result _ .aborted => inferInstanceAs (Decidable (_ → _ → _ = _))
  | .goalResponse _ true | .handleAccepted _ _ | .handleCancel _ | .setStopOnFailure _ | .testLoop | .enter
  | .terminateAll | .checkPreempt | .process _ | .result _ .unknown | .result _ .succeeded | .result _ .canceled | .spun
  | .callbackReturn | .threadEnd => isTrue trivial

-- 残りの経由点に着き、初めの経由点だけが結果に載る。
theorem missed_waypoints_exact_two :
    ∃ t, runs step (init false) (firstFails ++ [.spun, .checkCancel, .checkPreempt, .process true,
        .goalResponse 1 true, .result 1 .succeeded, .spun, .checkCancel, .checkPreempt, .process true]) = some t ∧
      t.results = [(0, [0])] ∧ ∀ r ∈ t.results, Exact (t.failed r.1) r.2 := by
  have hsome : (runs step (init false) (firstFails ++ [.spun, .checkCancel, .checkPreempt, .process true,
      .goalResponse 1 true, .result 1 .succeeded, .spun, .checkCancel, .checkPreempt, .process true])).any
        (fun t => t.results == [(0, [0])]) = true := by
    decide
  obtain ⟨t, hrun, hresults⟩ := (Option.any_eq_true _ _).mp hsome
  exact ⟨t, hrun, by simpa using hresults, missed_waypoints_exact false _ t hrun (by decide)⟩

-- そこで取り消され、次の目標が一つの経由点に着くと、前の目標の番号が結果に載る。
theorem missed_waypoints_stale :
    ∃ t, runs step (init false) (firstFails ++ [.handleCancel 0, .spun, .checkCancel, .terminateAll, .callbackReturn,
        .threadEnd, .handleAccepted false 1, .testLoop, .enter, .checkCancel, .checkPreempt, .process true,
        .goalResponse 1 true, .result 1 .succeeded, .spun, .checkCancel, .checkPreempt, .process true]) = some t ∧
      t.results = [(0, []), (1, [0])] ∧ t.failed 0 0 = true ∧ t.failed 1 0 = false := by
  have hsome : (runs step (init false) (firstFails ++ [.handleCancel 0, .spun, .checkCancel, .terminateAll,
      .callbackReturn, .threadEnd, .handleAccepted false 1, .testLoop, .enter, .checkCancel, .checkPreempt,
      .process true, .goalResponse 1 true, .result 1 .succeeded, .spun, .checkCancel, .checkPreempt,
      .process true])).any
        (fun t => t.results == [(0, []), (1, [0])] && t.failed 0 0 && !t.failed 1 0) = true := by
    decide
  obtain ⟨t, hrun, hfacts⟩ := (Option.any_eq_true _ _).mp hsome
  exact ⟨t, hrun, by simpa [and_assoc] using hfacts⟩

end Follower

end Ranger.Nav
