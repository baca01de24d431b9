import Ranger.Nav.Missed

/-!
# 経由点の範囲

`followWaypoints` が目標の経由点を読む位置と、目標へのポインタを調べる。空の目標の判定は繰り返しの前に一度だけあり、
乗り換えた目標には行われない。
-/

namespace Ranger.Nav
open Ranger.Lib

namespace ActionServer

/-- `get_current_goal` の返すポインタ。 -/
def getCurrentGoal (s : ActionServer) : Option ℕ := if s.isActive .current then s.handle .current else none

/-- `accept_pending_goal` の返すポインタ。 -/
def acceptedGoal (s : ActionServer) : Option ℕ := if s.isActive .pending then s.handle .pending else none

theorem Slots.getCurrentGoal_eq {s : ActionServer} (h : s.Slots) : s.getCurrentGoal = s.handle .current := by
  rw [getCurrentGoal, h.isActive_eq]
  cases s.handle .current <;> simp

theorem Slots.acceptedGoal_eq {s : ActionServer} (h : s.Slots) : s.acceptedGoal = s.handle .pending := by
  rw [acceptedGoal, h.isActive_eq]
  cases s.handle .pending <;> simp

theorem handleAccepted_accepted (s : ActionServer) (canceling : Bool) :
    (s.handleAccepted canceling).accepted = s.accepted + 1 := by
  have haccepted := (terminate_frame s .pending).2.2.2
  unfold handleAccepted
  split
  · simp [receive, haccepted]
  · split <;> simp [receive, haccepted]

theorem handleCancel_accepted (s : ActionServer) (g : ℕ) : (s.handleCancel g).accepted = s.accepted := by
  unfold handleCancel
  split <;> rfl

theorem testLoop_frame (s : ActionServer) :
    s.testLoop.handle = s.handle ∧ s.testLoop.stopExecution = s.stopExecution ∧
      s.testLoop.accepted = s.accepted := by
  unfold testLoop
  split <;> exact ⟨rfl, rfl, rfl⟩

theorem acceptPendingGoal_accepted (s : ActionServer) : s.acceptPendingGoal.accepted = s.accepted := by
  have habort : s.abortPrevious.accepted = s.accepted := by
    unfold abortPrevious
    split
    · rfl
    · split <;> rfl
  unfold acceptPendingGoal
  split
  · exact habort
  · rfl

theorem succeededCurrent_accepted (s : ActionServer) : s.succeededCurrent.accepted = s.accepted := by
  unfold succeededCurrent
  split
  · rfl
  · split <;> rfl

theorem terminateAll_accepted (s : ActionServer) : s.terminateAll.accepted = s.accepted := by
  have hcurrent := (terminate_frame s .current).2.2.2
  exact (terminate_frame (s.terminate .current) .pending).2.2.2.trans hcurrent

end ActionServer

namespace Follower

/-! ## 性質 -/

/-- 次に `goal->poses[goal_index]` を読む。目標を送るか、着いた経由点の作業を行う。 -/
def ReadsPose (s : Follower) : Prop := s.phase = .process ∧ (s.newGoal = true ∨ s.currentGoalStatus = .succeeded)

/-- 空の目標に成功を返し、何も送らない。 -/
def AnswersEmpty (s : Follower) (g : ℕ) : Prop :=
  ∃ t, s.step .enter = some t ∧ t.phase = .returning ∧ t.server.status g = .succeeded ∧
    t.results = s.results ++ [(g, [])] ∧ t.sends = s.sends

/-- 目標へのポインタは空でなく、経由点は範囲の中で読まれる。空の目標は成功し、その経由点は送られない。 -/
structure Safe (s : Follower) : Prop where
  current : s.phase = .entry → ∃ g, s.server.getCurrentGoal = some g ∧ (s.poses g = 0 → s.AnswersEmpty g)
  accepted : s.phase = .accepting → ∃ g, s.server.acceptedGoal = some g
  access : s.ReadsPose → s.goalIndex < s.poses s.goal
  sends : ∀ send ∈ s.sends, send.index < s.poses send.goal

/-- 乗り換える目標は、経由点を持つ。 -/
def Stocked (s : Follower) (e : Event) (_ : Follower) : Prop :=
  e = .acceptPending → ∀ g, s.server.handle .pending = some g → s.poses g ≠ 0

/-! ## 不変条件 -/

/-- 追従している目標の、範囲の中の経由点にいる。 -/
def Within (s : Follower) : Prop := s.Serving ∧ s.goalIndex < s.poses s.goal

def Located (s : Follower) : Phase → Prop
  | .idle => s.server.worker ≠ .executing
  | .entry => s.server.worker = .executing ∧ (s.server.handle .current).isSome = true
  | .returning => s.server.worker = .executing ∧ s.server.handle .current = none
  | .accepting => s.Within ∧ (s.server.handle .pending).isSome = true
  | .canceling | .checkCancel | .checkPreempt | .process | .spinning => s.Within

structure Bounded (s : Follower) : Prop where
  sound : s.server.Sound
  stop : s.server.stopExecution = false
  located : s.Located s.phase
  sends : ∀ send ∈ s.sends, send.goal < s.server.accepted ∧ send.index < s.poses send.goal

theorem Bounded.at_phase {s : Follower} (h : s.Bounded) {phase : Phase} (hphase : s.phase = phase) :
    s.Located phase := by
  rw [← hphase]
  exact h.located

theorem bounded_init (stop : Bool) : (init stop).Bounded := by
  constructor
  · exact ActionServer.sound_init
  · rfl
  · simp [init, Located, ActionServer.init]
  · simp [init]

/-- `followWaypoints` の位置と変数、すでにある目標の経由点、追従しているあいだの今の目標が変わらず、次の目標が
なくならない。 -/
structure SamePlace (s t : Follower) : Prop where
  phase : t.phase = s.phase
  goal : t.goal = s.goal
  goalIndex : t.goalIndex = s.goalIndex
  accepted : s.server.accepted ≤ t.server.accepted
  poses : ∀ g, g < s.server.accepted → t.poses g = s.poses g
  idle : s.server.worker ≠ .executing → t.server.worker ≠ .executing
  busy : s.server.worker = .executing → t.server.worker = .executing ∧
    t.server.handle .current = s.server.handle .current ∧
    ((s.server.handle .pending).isSome = true → (t.server.handle .pending).isSome = true)
  sends : ∀ send ∈ t.sends, ∃ old ∈ s.sends, send.goal = old.goal ∧ send.index = old.index

theorem SamePlace.within {s t : Follower} (h : SamePlace s t) (hsound : s.server.Sound) (hs : s.Within) :
    t.Within := by
  obtain ⟨⟨hworker, hcurrent⟩, hindex⟩ := hs
  obtain ⟨hworker', hcurrent', -⟩ := h.busy hworker
  constructor
  · rw [Serving, hcurrent', h.goal]
    exact ⟨hworker', hcurrent⟩
  · rw [h.goalIndex, h.goal, h.poses s.goal (hsound.lt hcurrent)]
    exact hindex

theorem Bounded.of_samePlace {s t : Follower} (h : s.Bounded) (hsame : SamePlace s t)
    (hsound : t.server.Sound) (hstop : t.server.stopExecution = false) : t.Bounded := by
  refine ⟨hsound, hstop, ?_, ?_⟩
  · rw [hsame.phase]
    cases hphase : s.phase with
    | idle => exact hsame.idle (h.at_phase hphase)
    | entry =>
        obtain ⟨hworker, hcurrent⟩ := h.at_phase hphase
        obtain ⟨hworker', hcurrent', -⟩ := hsame.busy hworker
        exact ⟨hworker', by rw [hcurrent', hcurrent]⟩
    | returning =>
        obtain ⟨hworker, hcurrent⟩ := h.at_phase hphase
        obtain ⟨hworker', hcurrent', -⟩ := hsame.busy hworker
        exact ⟨hworker', hcurrent'.trans hcurrent⟩
    | accepting =>
        obtain ⟨hwithin, hpending⟩ := h.at_phase hphase
        exact ⟨hsame.within h.sound hwithin, (hsame.busy hwithin.1.1).2.2 hpending⟩
    | canceling | checkCancel | checkPreempt | process | spinning =>
        exact hsame.within h.sound (h.at_phase hphase)
  · intro send hsend
    obtain ⟨old, hold, hgoal, hindex⟩ := hsame.sends send hsend
    obtain ⟨hlt, hbound⟩ := h.sends old hold
    rw [hgoal, hindex, hsame.poses old.goal hlt]
    exact ⟨Nat.lt_of_lt_of_le hlt hsame.accepted, hbound⟩

/-! ## サーバの側の遷移 -/

theorem handleAccepted_bounded {s : Follower} (h : s.Bounded) (canceling : Bool) (poses : ℕ) :
    Bounded { s.record (s.server.handleAccepted canceling) [] with
      poses := Function.update s.poses s.server.accepted poses } := by
  have haccepted := ActionServer.handleAccepted_accepted s.server canceling
  apply h.of_samePlace
  · constructor
    · rfl
    · rfl
    · rfl
    · simp [record, haccepted]
    · intro g hg
      simp [Nat.ne_of_lt hg]
    · intro hworker
      rw [record]
      cases hbusy : (s.server.isActive .current || s.server.isRunning) with
      | true =>
          rw [(h.sound.handleAccepted_busy canceling hbusy).worker]
          exact hworker
      | false =>
          rw [(h.sound.handleAccepted_free canceling hbusy).2]
          decide
    · intro hworker
      have hyields := h.sound.handleAccepted_busy canceling (by simp [ActionServer.isRunning, hworker])
      rw [record, hyields.worker, hyields.handle_eq]
      simp [hworker]
    · intro send hsend
      exact ⟨send, hsend, rfl, rfl⟩
  · exact ActionServer.handleAccepted_sound h.sound canceling
  · exact (ActionServer.handleAccepted_stop s.server canceling).trans h.stop

/-- 場所を変えず、サーバのほかも変えない遷移。 -/
theorem Bounded.of_server {s : Follower} (h : s.Bounded) {server : ActionServer} (hsound : server.Sound)
    (hstop : server.stopExecution = s.server.stopExecution) (haccepted : server.accepted = s.server.accepted)
    (hhandle : server.handle = s.server.handle)
    (hworker : server.worker = .executing ↔ s.server.worker = .executing) :
    Bounded { s with server := server } := by
  apply h.of_samePlace
  · constructor
    · rfl
    · rfl
    · rfl
    · exact Nat.le_of_eq haccepted.symm
    · intro g _
      rfl
    · intro hidle hexec
      exact hidle (hworker.mp hexec)
    · intro hexec
      dsimp only
      rw [hhandle]
      exact ⟨hworker.mpr hexec, rfl, id⟩
    · intro send hsend
      exact ⟨send, hsend, rfl, rfl⟩
  · exact hsound
  · exact hstop.trans h.stop

theorem Bounded.idle_of_worker {s : Follower} (h : s.Bounded) (hworker : s.server.worker ≠ .executing) :
    s.phase = .idle := by
  cases hphase : s.phase with
  | idle => rfl
  | entry | returning => exact absurd (h.at_phase hphase).1 hworker
  | accepting => exact absurd (h.at_phase hphase).1.1.1 hworker
  | canceling | checkCancel | checkPreempt | process | spinning => exact absurd (h.at_phase hphase).1.1 hworker

theorem testLoop_bounded {s : Follower} (h : s.Bounded) (hworker : s.server.worker = .loopTest) :
    Bounded { s with
      server := s.server.testLoop
      phase := if s.server.testLoop.worker = .executing then .entry else s.phase } := by
  obtain ⟨hhandle, hstop, haccepted⟩ := ActionServer.testLoop_frame s.server
  have hidle := h.idle_of_worker (by rw [hworker]; decide)
  constructor
  · exact (ActionServer.testLoop_orderly false (t := s.server) h.sound).1
  · exact hstop.trans h.stop
  · dsimp only
    by_cases hexec : s.server.testLoop.worker = .executing
    · rw [if_pos hexec]
      refine ⟨hexec, ?_⟩
      dsimp only
      rw [hhandle, ← h.sound.isActive_eq]
      -- 今の目標が活きていなければ、スレッドは抜ける。
      by_contra hinactive
      simp [ActionServer.testLoop, hinactive] at hexec
    · rw [if_neg hexec, hidle]
      exact hexec
  · dsimp only
    rw [haccepted]
    exact h.sends

theorem callbackReturn_bounded {s : Follower} (h : s.Bounded) (hphase : s.phase = .returning) :
    Bounded { s.record (s.server.finishIteration false) [] with phase := .idle } := by
  obtain ⟨-, hcurrent⟩ := h.at_phase hphase
  have hsound := (ActionServer.finishIteration_orderly false (t := s.server) h.sound).1
  rcases ActionServer.finishIteration_of_done hcurrent h.stop false with heq | heq
  · have hstop : s.server.acceptPendingGoal.stopExecution = s.server.stopExecution := by
      cases hg : s.server.handle .pending with
      | none => rw [ActionServer.acceptPendingGoal_of_none hg]
      | some g => exact (h.sound.acceptPendingGoal hg).stop
    rw [heq] at hsound ⊢
    refine ⟨hsound, hstop.trans h.stop, by simp [Located, record], ?_⟩
    dsimp only [record]
    rw [ActionServer.acceptPendingGoal_accepted]
    exact h.sends
  · rw [heq] at hsound ⊢
    exact ⟨hsound, h.stop, by simp [Located, record], h.sends⟩

/-! ## `followWaypoints` の遷移 -/

/-- 戻る遷移。今の目標は片付いている。 -/
theorem Bounded.returning {s t : Follower} (h : s.Bounded) (hworker : s.server.worker = .executing)
    {handle : Slot → Option ℕ} (hyields : s.server.Yields t.server handle)
    (hcurrent : handle .current = none) (hphase : t.phase = .returning)
    (haccepted : t.server.accepted = s.server.accepted) (hposes : t.poses = s.poses) (hsends : t.sends = s.sends) :
    t.Bounded := by
  refine ⟨hyields.toSound, hyields.stop.trans h.stop, ?_, ?_⟩
  · rw [hphase]
    exact ⟨hyields.worker.trans hworker, by rw [hyields.handle_eq, hcurrent]⟩
  · rw [haccepted, hposes, hsends]
    exact h.sends

theorem enter_bounded {s t : Follower} (h : s.Bounded) (hphase : s.phase = .entry) (hstep : s.enter = some t) :
    t.Bounded := by
  obtain ⟨hworker, -⟩ := h.at_phase hphase
  unfold enter at hstep
  split at hstep
  · cases hstep
  · rename_i g hg
    split at hstep
    · cases hstep
      exact h.returning hworker h.sound.succeededCurrent (by simp) rfl
        (ActionServer.succeededCurrent_accepted s.server) rfl rfl
    · rename_i hposes
      cases hstep
      exact ⟨h.sound, h.stop, ⟨⟨hworker, hg⟩, Nat.pos_of_ne_zero hposes⟩, h.sends⟩

theorem checkPreempt_bounded {s : Follower} (h : s.Bounded) (hphase : s.phase = .checkPreempt) :
    Bounded { s with phase := if s.server.preemptRequested then .accepting else .process } := by
  have hwithin : s.Within := h.at_phase hphase
  refine ⟨h.sound, h.stop, ?_, h.sends⟩
  cases hpreempt : s.server.preemptRequested with
  | true => exact ⟨hwithin, by rw [← h.sound.preempt, hpreempt]⟩
  | false => exact hwithin

theorem acceptPending_bounded {s t : Follower} (h : s.Bounded) (hphase : s.phase = .accepting)
    (hstocked : ∀ g, s.server.handle .pending = some g → s.poses g ≠ 0) (hstep : s.acceptPending = some t) :
    t.Bounded := by
  obtain ⟨hwithin, -⟩ := h.at_phase hphase
  unfold acceptPending at hstep
  split at hstep
  · cases hstep
  · rename_i g hg
    cases hstep
    have hyields := h.sound.acceptPendingGoal hg
    refine ⟨hyields.toSound, hyields.stop.trans h.stop, ⟨⟨hyields.worker.trans hwithin.1.1, ?_⟩, ?_⟩, ?_⟩
    · rw [record, hyields.handle_eq, Function.update_self]
    · exact Nat.pos_of_ne_zero (hstocked g hg)
    · dsimp only [record]
      rw [ActionServer.acceptPendingGoal_accepted]
      exact h.sends

theorem sendGoal_bounded {s t : Follower} (h : s.Bounded) (hphase : s.phase = .process)
    (hstep : s.sendGoal = some t) : t.Bounded ∧ t.phase = .process := by
  have hwithin : s.Within := h.at_phase hphase
  unfold sendGoal at hstep
  split at hstep
  · cases hstep
    exact ⟨h, hphase⟩
  · split at hstep
    · cases hstep
      refine ⟨⟨h.sound, h.stop, ?_, ?_⟩, hphase⟩
      · dsimp only
        rw [hphase]
        exact hwithin
      · intro send hsend
        rcases List.mem_append.mp hsend with hold | hnew
        · exact h.sends send hold
        · obtain rfl : send = ⟨s.goal, s.goalIndex, .waiting⟩ := by simpa using hnew
          exact ⟨h.sound.lt hwithin.1.2, hwithin.2⟩
    · cases hstep

theorem terminateFailed_bounded {s : Follower} (h : s.Bounded) (hworker : s.server.worker = .executing) :
    s.terminateFailed.Bounded :=
  h.returning hworker h.sound.terminateCurrent (by simp) rfl (ActionServer.terminate_frame s.server .current).2.2.2
    rfl rfl

theorem advance_bounded {s : Follower} (h : s.Bounded) (hwithin : s.Within) : s.advance.Bounded := by
  unfold advance
  split
  · exact h.returning hwithin.1.1 h.sound.succeededCurrent (by simp) rfl
      (ActionServer.succeededCurrent_accepted s.server) rfl rfl
  · rename_i hlast
    exact ⟨h.sound, h.stop, ⟨hwithin.1, Nat.not_le.mp hlast⟩, h.sends⟩

theorem processStatus_bounded {s : Follower} (h : s.Bounded) (hphase : s.phase = .process) (taskExecuted : Bool) :
    (s.processStatus taskExecuted).Bounded := by
  have hwithin : s.Within := h.at_phase hphase
  -- `failed_ids_` と記録は、範囲の条件に現れない。
  have hrecorded : ∀ ids failed, Bounded { s with failedIds := ids, failed := failed } := fun ids failed =>
    ⟨h.sound, h.stop, h.located, h.sends⟩
  unfold processStatus
  split
  · dsimp only
    split
    · exact terminateFailed_bounded (hrecorded (s.failedIds ++ [s.goalIndex]) s.failed) hwithin.1.1
    · exact advance_bounded (hrecorded (s.failedIds ++ [s.goalIndex]) s.failed) hwithin
  · split
    · exact terminateFailed_bounded (hrecorded _ _) hwithin.1.1
    · exact advance_bounded h hwithin
  · exact ⟨h.sound, h.stop, hwithin, h.sends⟩
  · exact ⟨h.sound, h.stop, hwithin, h.sends⟩

/-! ## コールバックの遷移 -/

theorem mem_setSend {s : Follower} {k : ℕ} {state : SendState} {send : Send}
    (h : send ∈ (s.setSend k state).sends) :
    ∃ old ∈ s.sends, send.goal = old.goal ∧ send.index = old.index := by
  obtain ⟨i, hi⟩ := List.mem_iff_getElem?.mp h
  rw [setSend, List.getElem?_modify] at hi
  obtain ⟨old, hold, heq⟩ := Option.map_eq_some_iff.mp hi
  refine ⟨old, List.mem_of_getElem? hold, ?_⟩
  split at heq
  · cases heq
    exact ⟨rfl, rfl⟩
  · cases heq
    exact ⟨rfl, rfl⟩

/-- コールバックは、送った目標の状態と、航行の結果だけを変える。 -/
theorem Bounded.of_callback {s t : Follower} (h : s.Bounded) (hserver : t.server = s.server)
    (hposes : t.poses = s.poses) (hphase : t.phase = s.phase) (hgoal : t.goal = s.goal)
    (hindex : t.goalIndex = s.goalIndex)
    (hsends : ∀ send ∈ t.sends, ∃ old ∈ s.sends, send.goal = old.goal ∧ send.index = old.index) : t.Bounded := by
  apply h.of_samePlace
  · constructor
    · exact hphase
    · exact hgoal
    · exact hindex
    · simp [hserver]
    · simp [hposes]
    · rw [hserver]
      exact id
    · rw [hserver]
      simp
    · exact hsends
  · rw [hserver]
    exact h.sound
  · rw [hserver]
    exact h.stop

theorem setSend_markSend_bounded {s : Follower} (h : s.Bounded) (k : ℕ) (state : SendState) (send : Send)
    (status : ActionStatus) : Bounded { (s.setSend k state).markSend send with currentGoalStatus := status } := by
  unfold markSend
  split
  · exact h.of_callback rfl rfl rfl rfl rfl fun send' hmem => mem_setSend hmem
  · exact h.of_callback rfl rfl rfl rfl rfl fun send' hmem => mem_setSend hmem

theorem goalResponse_bounded {s t : Follower} (h : s.Bounded) {k : ℕ} {accepted : Bool}
    (hstep : s.goalResponseCallback k accepted = some t) : t.Bounded := by
  unfold goalResponseCallback at hstep
  split at hstep
  · cases hstep
  · split at hstep
    · cases hstep
    · split at hstep
      · cases hstep
        exact h.of_callback rfl rfl rfl rfl rfl fun send' hmem => mem_setSend hmem
      · cases hstep
        exact setSend_markSend_bounded h _ _ _ _

theorem result_bounded {s t : Follower} (h : s.Bounded) {k : ℕ} {code : ResultCode}
    (hstep : s.resultCallback k code = some t) : t.Bounded := by
  unfold resultCallback at hstep
  split at hstep
  · split at hstep
    · cases hstep
    · split at hstep
      · cases hstep
        split
        · exact setSend_markSend_bounded h _ _ _ _
        · exact h.of_callback rfl rfl rfl rfl rfl fun send' hmem => mem_setSend hmem
      · split at hstep
        · cases hstep
        · cases hstep
          exact h.of_callback rfl rfl rfl rfl rfl fun send' hmem => mem_setSend hmem
  · cases hstep

/-! ## 実行の全体 -/

theorem step_bounded {s t : Follower} {e : Event} (h : s.Bounded) (hstep : s.step e = some t)
    (hstocked : s.Stocked e t) : t.Bounded := by
  cases e with
  | handleAccepted canceling poses =>
      cases hstep
      exact handleAccepted_bounded h canceling poses
  | handleCancel g =>
      simp only [step] at hstep
      split at hstep
      · cases hstep
        obtain ⟨hhandle, hworker⟩ := ActionServer.handleCancel_frame s.server g
        have hstop : (s.server.handleCancel g).stopExecution = s.server.stopExecution := by
          unfold ActionServer.handleCancel
          split <;> rfl
        exact h.of_server (h.sound.handleCancel g) hstop (ActionServer.handleCancel_accepted s.server g) hhandle
          (by rw [hworker])
      · cases hstep
  | setStopOnFailure value =>
      cases hstep
      exact ⟨h.sound, h.stop, h.located, h.sends⟩
  | testLoop =>
      simp only [step] at hstep
      split at hstep
      · rename_i hworker
        cases hstep
        exact testLoop_bounded h hworker
      · cases hstep
  | enter =>
      simp only [step] at hstep
      split at hstep
      · rename_i hphase
        exact enter_bounded h hphase hstep
      · cases hstep
  | checkCancel =>
      simp only [step] at hstep
      split at hstep
      · rename_i hphase
        cases hstep
        have hwithin : s.Within := h.at_phase hphase
        refine ⟨h.sound, h.stop, ?_, h.sends⟩
        dsimp only
        split
        · exact hwithin
        · exact hwithin
      · cases hstep
  | terminateAll =>
      simp only [step] at hstep
      split at hstep
      · rename_i hphase
        cases hstep
        have hwithin : s.Within := h.at_phase hphase
        exact h.returning hwithin.1.1 h.sound.terminateAll rfl rfl (ActionServer.terminateAll_accepted s.server)
          rfl rfl
      · cases hstep
  | checkPreempt =>
      simp only [step] at hstep
      split at hstep
      · rename_i hphase
        cases hstep
        exact checkPreempt_bounded h hphase
      · cases hstep
  | acceptPending =>
      simp only [step] at hstep
      split at hstep
      · rename_i hphase
        exact acceptPending_bounded h hphase (hstocked rfl) hstep
      · cases hstep
  | process taskExecuted =>
      simp only [step] at hstep
      split at hstep
      · rename_i hphase
        obtain ⟨sent, hsend, rfl⟩ := Option.map_eq_some_iff.mp hstep
        obtain ⟨hbounded, hphase'⟩ := sendGoal_bounded h hphase hsend
        exact processStatus_bounded hbounded hphase' taskExecuted
      · cases hstep
  | goalResponse k accepted =>
      simp only [step] at hstep
      split at hstep
      · exact goalResponse_bounded h hstep
      · cases hstep
  | result k code =>
      simp only [step] at hstep
      split at hstep
      · exact result_bounded h hstep
      · cases hstep
  | spun =>
      simp only [step] at hstep
      split at hstep
      · rename_i hphase
        cases hstep
        have hwithin : s.Within := h.at_phase hphase
        exact ⟨h.sound, h.stop, hwithin, h.sends⟩
      · cases hstep
  | callbackReturn =>
      simp only [step] at hstep
      split at hstep
      · rename_i hphase
        cases hstep
        exact callbackReturn_bounded h hphase
      · cases hstep
  | threadEnd =>
      simp only [step] at hstep
      split at hstep
      · rename_i hworker
        cases hstep
        exact h.of_server (h.sound.with_worker .ended) rfl rfl rfl (by simp [hworker])
      · cases hstep

/-- 空の目標は、入口で成功する。 -/
theorem answersEmpty {s : Follower} (h : s.Bounded) (hphase : s.phase = .entry) {g : ℕ}
    (hg : s.server.handle .current = some g) (hempty : s.poses g = 0) : s.AnswersEmpty g := by
  have hactive := h.sound.active .current g hg
  have hserver : s.server.succeededCurrent = (s.server.deliver g .succeeded).reset .current := by
    simp [ActionServer.succeededCurrent, hg, hactive]
  refine ⟨{ s.record s.server.succeededCurrent [] with phase := .returning }, ?_, rfl, ?_, ?_, rfl⟩
  · simp [step, hphase, enter, hg, hempty]
  · simp [record, hserver, ActionServer.deliver, ActionServer.reset]
  · simp [record, hserver, ActionServer.deliver, ActionServer.reset]

theorem Bounded.safe {s : Follower} (h : s.Bounded) : s.Safe := by
  constructor
  · intro hphase
    obtain ⟨-, hcurrent⟩ := h.at_phase hphase
    obtain ⟨g, hg⟩ := Option.isSome_iff_exists.mp hcurrent
    refine ⟨g, ?_, fun hempty => answersEmpty h hphase hg hempty⟩
    rw [h.sound.getCurrentGoal_eq, hg]
  · intro hphase
    rw [h.sound.acceptedGoal_eq]
    exact Option.isSome_iff_exists.mp (h.at_phase hphase).2
  · rintro ⟨hphase, -⟩
    have hwithin : s.Within := h.at_phase hphase
    exact hwithin.2
  · intro send hsend
    exact (h.sends send hsend).2

/-- 空の目標に乗り換えると、次に範囲の外を読む。 -/
theorem stocked_of_safe {s t : Follower} {e : Event} (hstep : s.step e = some t) (hsafe : t.Safe) :
    s.Stocked e t := by
  rintro rfl g hg hempty
  simp only [step] at hstep
  split at hstep
  · rw [acceptPending, hg] at hstep
    cases hstep
    have haccess := hsafe.access ⟨rfl, Or.inl rfl⟩
    change 0 < s.poses g at haccess
    rw [hempty] at haccess
    exact Nat.lt_irrefl 0 haccess
  · cases hstep

/-- どの順の実行でも、ポインタが空でなく、経由点が範囲の中で読まれ、空の目標が動かずに成功するのは、乗り換える目標が
どれも経由点を持つとき、そのときに限る。 -/
theorem waypoint_access_iff (stopOnFailure : Bool) (es : List Event) :
    Always step (fun _ _ t => t.Safe) (init stopOnFailure) es ↔ Always step Stocked (init stopOnFailure) es := by
  apply Always.iff_of_inv (fun s e t h hstep hstocked => step_bounded h hstep hstocked)
  · intro s e t h hstep
    exact ⟨stocked_of_safe hstep, fun hstocked => (step_bounded h hstep hstocked).safe⟩
  · exact bounded_init stopOnFailure

/-- 経由点を一つ持つ目標の途中で、空の目標に乗り換える。 -/
def emptyPreempts : List Event :=
  [.handleAccepted false 1, .testLoop, .enter, .checkCancel, .checkPreempt, .process true, .handleAccepted false 0,
    .spun, .checkCancel, .checkPreempt, .acceptPending]

-- 乗り換えた空の目標の、初めの経由点が読まれる。
theorem waypoint_access_fails :
    ¬ ∀ stopOnFailure es t, runs step (init stopOnFailure) es = some t → t.Safe := by
  intro h
  have hsome : (runs step (init false) emptyPreempts).any (fun t =>
      decide (t.phase = .process ∧ t.newGoal = true ∧ t.poses t.goal = 0)) = true := by
    decide
  obtain ⟨t, hrun, hfacts⟩ := (Option.any_eq_true _ _).mp hsome
  obtain ⟨hphase, hnew, hposes⟩ := of_decide_eq_true hfacts
  have haccess := (h false emptyPreempts t hrun).access ⟨hphase, Or.inl hnew⟩
  rw [hposes] at haccess
  exact Nat.not_lt_zero _ haccess

end Follower

end Ranger.Nav
