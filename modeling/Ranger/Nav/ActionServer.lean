import Mathlib.Data.List.Count
import Ranger.Lib.Run

/-!
# 一つの目標を扱うアクションサーバ

`nav2_util` の `SimpleActionServer`。目標の入る場所は二つあり、実行のスレッドは `work` を動かす。`update_mutex_` のもとの区間、
繰り返しの条件の判定、スレッドの終わりをそれぞれ一つの遷移とし、どの順の実行でも成り立つ性質を示す。`rclcpp::ok()` は
真であるとする。
-/

namespace Ranger.Nav
open Ranger.Lib

/-! ## 状態 -/

/-- `rclcpp_action` の目標の状態。初めの二つが `is_active` である。 -/
inductive GoalStatus where
  | executing | canceling | succeeded | aborted | canceled
  deriving DecidableEq

def GoalStatus.isActive : GoalStatus → Bool
  | .executing | .canceling => true
  | .succeeded | .aborted | .canceled => false

/-- `current_handle_` と `pending_handle_`。 -/
inductive Slot where
  | current | pending
  deriving DecidableEq

/-- 実行のスレッド。`absent` は `execution_future_` が無効であること、`ended` は結果が入っていることを表し、残りは動いている
スレッドの位置である。`leaving` は、排他の区間を出て、まだ終わっていない。 -/
inductive Worker where
  | absent | loopTest | executing | leaving | ended
  deriving DecidableEq

/-- メンバと、目標の記録。目標は受け付けた順の番号で呼び、`delivered` は最終の結果を送った目標の列である。`waiting` は
スレッドの終わりを待つ `deactivate` の数、`overdue` はそのうち時間切れを見て、まだ `terminate_all` を呼んでいない数。 -/
structure ActionServer where
  handle : Slot → Option ℕ
  preemptRequested : Bool
  stopExecution : Bool
  worker : Worker
  status : ℕ → GoalStatus
  accepted : ℕ
  delivered : List ℕ
  waiting : ℕ
  overdue : ℕ

namespace ActionServer

def init : ActionServer where
  handle := fun _ => none
  preemptRequested := false
  stopExecution := false
  worker := .absent
  status := fun _ => .executing
  accepted := 0
  delivered := []
  waiting := 0
  overdue := 0

/-! ## 目標の操作 -/

def isActive (s : ActionServer) (slot : Slot) : Bool := (s.handle slot).any fun g => (s.status g).isActive

def isRunning (s : ActionServer) : Bool :=
  match s.worker with
  | .absent | .ended => false
  | .loopTest | .executing | .leaving => true

def deliver (s : ActionServer) (g : ℕ) (st : GoalStatus) : ActionServer :=
  { s with status := Function.update s.status g st, delivered := s.delivered ++ [g] }

def reset (s : ActionServer) (slot : Slot) : ActionServer :=
  { s with handle := Function.update s.handle slot none }

def terminate (s : ActionServer) (slot : Slot) : ActionServer :=
  match s.handle slot with
  | none => s
  | some g =>
      if (s.status g).isActive then
        (s.deliver g (if s.status g = .canceling then .canceled else .aborted)).reset slot
      else s

def terminateAll (s : ActionServer) : ActionServer :=
  { (s.terminate .current).terminate .pending with preemptRequested := false }

def terminateCurrent (s : ActionServer) : ActionServer := s.terminate .current

def terminatePendingGoal (s : ActionServer) : ActionServer :=
  if s.isActive .pending then { s.terminate .pending with preemptRequested := false } else s

def succeededCurrent (s : ActionServer) : ActionServer :=
  match s.handle .current with
  | none => s
  | some g => if (s.status g).isActive then (s.deliver g .succeeded).reset .current else s

/-- 前の目標が活きていて、次の目標と異なれば打ち切る。 -/
def abortPrevious (s : ActionServer) : ActionServer :=
  match s.handle .current with
  | none => s
  | some g =>
      if (s.status g).isActive && s.handle .current != s.handle .pending then s.deliver g .aborted else s

def acceptPendingGoal (s : ActionServer) : ActionServer :=
  if s.isActive .pending then
    { s.abortPrevious with
      handle := fun
        | .current => s.handle .pending
        | .pending => none
      preemptRequested := false }
  else s

/-! ## 処理 -/

/-- 番号 `s.accepted` の目標を場所に置く。取り消しの要求が先に届いていることもある。 -/
def receive (s : ActionServer) (canceling : Bool) (slot : Slot) : ActionServer :=
  { s with
    handle := Function.update s.handle slot (some s.accepted)
    status := Function.update s.status s.accepted (if canceling then .canceling else .executing)
    accepted := s.accepted + 1 }

def handleAccepted (s : ActionServer) (canceling : Bool) : ActionServer :=
  if s.isActive .current || s.isRunning then
    { (s.terminate .pending).receive canceling .pending with preemptRequested := true }
  else
    let cleared := if s.isActive .pending then { s.terminate .pending with preemptRequested := false } else s
    { cleared.receive canceling .current with worker := .loopTest }

/-- 取り消しの要求。活きていない目標については断る。 -/
def handleCancel (s : ActionServer) (g : ℕ) : ActionServer :=
  if (s.status g).isActive then { s with status := Function.update s.status g .canceling } else s

def testLoop (s : ActionServer) : ActionServer :=
  if !s.stopExecution && s.isActive .current then { s with worker := .executing }
  else { s with worker := .leaving }

/-- `execute_callback_` が戻った後の排他の区間。`completion` は `completion_callback_` が空でないかを表し、空のときは呼び出しが
例外を投げて `work` を抜ける。 -/
def finishIteration (completion : Bool) (s : ActionServer) : ActionServer :=
  if s.stopExecution then { s.terminateAll with worker := .leaving }
  else if s.isActive .current && !completion then { s.terminate .current with worker := .leaving }
  else
    let done := if s.isActive .current then s.terminate .current else s
    if done.isActive .pending then { done.acceptPendingGoal with worker := .loopTest }
    else { done with worker := .leaving }

/-- `execute_callback_` の中からの呼び出し。 -/
inductive Request where
  | acceptPendingGoal | terminatePendingGoal | succeededCurrent | terminateCurrent | terminateAll

def request (s : ActionServer) : Request → ActionServer
  | .acceptPendingGoal => s.acceptPendingGoal
  | .terminatePendingGoal => s.terminatePendingGoal
  | .succeededCurrent => s.succeededCurrent
  | .terminateCurrent => s.terminateCurrent
  | .terminateAll => s.terminateAll

inductive Event where
  | handleAccepted (canceling : Bool)
  | handleCancel (g : ℕ)
  | activate
  /-- `deactivate` の排他の区間。 -/
  | deactivate
  /-- `deactivate` の待ちが時間切れになる。 -/
  | waitTimeout
  /-- 時間切れを見た `deactivate` の `terminate_all`。 -/
  | overdue
  | deactivateReturn
  | testLoop
  | request (r : Request)
  /-- `execute_callback_` が例外を投げ、`terminate_all` の後、`work` を抜ける。 -/
  | callbackThrow
  | callbackReturn
  | threadEnd

def step (completion : Bool) (s : ActionServer) : Event → Option ActionServer
  | .handleAccepted canceling => some (s.handleAccepted canceling)
  | .handleCancel g => if g < s.accepted then some (s.handleCancel g) else none
  | .activate => some { s with stopExecution := false }
  | .deactivate => some { s with stopExecution := true, waiting := s.waiting + 1 }
  | .waitTimeout =>
      if s.isRunning && decide (0 < s.waiting) then
        some { s with waiting := s.waiting - 1, overdue := s.overdue + 1 }
      else none
  | .overdue =>
      if 0 < s.overdue then
        some { s.terminateAll with waiting := s.waiting + 1, overdue := s.overdue - 1 }
      else none
  | .deactivateReturn =>
      if !s.isRunning && decide (0 < s.waiting) then some { s with waiting := s.waiting - 1 } else none
  | .testLoop => if s.worker = .loopTest then some s.testLoop else none
  | .request r => if s.worker = .executing then some (s.request r) else none
  | .callbackThrow =>
      if s.worker = .executing then some { s.terminateAll with worker := .leaving } else none
  | .callbackReturn => if s.worker = .executing then some (s.finishIteration completion) else none
  | .threadEnd => if s.worker = .leaving then some { s with worker := .ended } else none

/-! ## 場所と目標 -/

/-- 目標 `g` を持つ場所の数と、`g` に送った最終の結果の数の和。 -/
def tally (s : ActionServer) (g : ℕ) : ℕ :=
  (if s.handle .current = some g then 1 else 0) + (if s.handle .pending = some g then 1 else 0) +
    s.delivered.count g

/-- 受け付けた目標は、一つの場所で待つか、一度だけ結果を送られている。場所にある目標は活きている。 -/
structure Slots (s : ActionServer) : Prop where
  tally : ∀ g, g < s.accepted → s.tally g = 1
  fresh : ∀ g, s.accepted ≤ g → s.tally g = 0
  active : ∀ slot g, s.handle slot = some g → (s.status g).isActive = true

theorem slots_init : init.Slots := ⟨by simp [init], by simp [ActionServer.tally, init], by simp [init]⟩

theorem Slots.isActive_eq {s : ActionServer} (h : s.Slots) (slot : Slot) :
    s.isActive slot = (s.handle slot).isSome := by
  unfold isActive
  cases hg : s.handle slot with
  | none => rfl
  | some g => simp [h.active slot g hg]

theorem Slots.lt {s : ActionServer} (h : s.Slots) {slot : Slot} {g : ℕ} (hg : s.handle slot = some g) :
    g < s.accepted := by
  by_contra hge
  have htally := h.fresh g (Nat.not_lt.mp hge)
  cases slot <;> simp [ActionServer.tally, hg] at htally

theorem Slots.slot_unique {s : ActionServer} (h : s.Slots) {slot slot' : Slot} {g : ℕ}
    (hg : s.handle slot = some g) (hg' : s.handle slot' = some g) : slot = slot' := by
  have htally := h.tally g (h.lt hg)
  cases slot <;> cases slot' <;> first | rfl | (simp [ActionServer.tally, hg, hg'] at htally; omega)

theorem tally_deliver_reset {s : ActionServer} {slot : Slot} {g : ℕ} (st : GoalStatus)
    (hg : s.handle slot = some g) (g' : ℕ) : ((s.deliver g st).reset slot).tally g' = s.tally g' := by
  by_cases heq : g' = g
  · subst heq
    cases slot <;> simp [tally, deliver, reset, hg, List.count_append] <;> omega
  · cases slot <;> simp [tally, deliver, reset, hg, List.count_append, Ne.symm heq]

/-- 場所の目標に結果を送り、場所を空にする。 -/
theorem Slots.deliver_reset {s : ActionServer} (h : s.Slots) {slot : Slot} {g : ℕ} (st : GoalStatus)
    (hg : s.handle slot = some g) : ((s.deliver g st).reset slot).Slots := by
  refine ⟨fun g' hlt => ?_, fun g' hge => ?_, fun slot' g' hg' => ?_⟩
  · rw [tally_deliver_reset st hg]
    exact h.tally g' hlt
  · rw [tally_deliver_reset st hg]
    exact h.fresh g' hge
  · by_cases hslot : slot' = slot
    · simp [deliver, reset, hslot] at hg'
    · have hkeep : s.handle slot' = some g' := by simpa [deliver, reset, hslot] using hg'
      have hne : g' ≠ g := by
        intro heq
        exact hslot (h.slot_unique hkeep (heq ▸ hg))
      simpa [deliver, reset, hne] using h.active slot' g' hkeep

theorem Slots.of_eq {s t : ActionServer} (h : s.Slots) (hhandle : t.handle = s.handle)
    (hstatus : t.status = s.status) (haccepted : t.accepted = s.accepted)
    (hdelivered : t.delivered = s.delivered) : t.Slots := by
  have htally : ∀ g, t.tally g = s.tally g := by
    intro g
    simp only [ActionServer.tally, hhandle, hdelivered]
  refine ⟨fun g hlt => ?_, fun g hge => ?_, fun slot g hg => ?_⟩
  · rw [htally]
    exact h.tally g (haccepted ▸ hlt)
  · rw [htally]
    exact h.fresh g (haccepted ▸ hge)
  · rw [hstatus]
    exact h.active slot g (hhandle ▸ hg)

theorem terminate_of_none {s : ActionServer} {slot : Slot} (hg : s.handle slot = none) :
    s.terminate slot = s := by
  simp [terminate, hg]

theorem Slots.terminate {s : ActionServer} (h : s.Slots) (slot : Slot) : (s.terminate slot).Slots := by
  cases hg : s.handle slot with
  | none =>
      rw [terminate_of_none hg]
      exact h
  | some g =>
      simp only [ActionServer.terminate, hg, h.active slot g hg, if_true]
      exact h.deliver_reset _ hg

theorem Slots.handle_terminate {s : ActionServer} (h : s.Slots) (slot : Slot) :
    (s.terminate slot).handle = Function.update s.handle slot none := by
  cases hg : s.handle slot with
  | none => rw [terminate_of_none hg, ← hg, Function.update_eq_self]
  | some g =>
      simp only [ActionServer.terminate, hg, h.active slot g hg, if_true]
      rfl

/-! ## 操作の結果 -/

/-- `preempt_requested_` は、次の目標が待っていることを表す。 -/
structure Sound (s : ActionServer) : Prop extends Slots s where
  preempt : s.preemptRequested = (s.handle .pending).isSome

/-- 操作の後、場所は `handle` の通りで、`stop_execution_` とスレッドは変わらない。 -/
structure Yields (s t : ActionServer) (handle : Slot → Option ℕ) : Prop extends Sound t where
  handle_eq : t.handle = handle
  stop : t.stopExecution = s.stopExecution
  worker : t.worker = s.worker

theorem sound_init : init.Sound := ⟨slots_init, rfl⟩

theorem Sound.refl {s : ActionServer} (h : s.Sound) : Yields s s s.handle := ⟨h, rfl, rfl, rfl⟩

theorem terminate_frame (s : ActionServer) (slot : Slot) :
    (s.terminate slot).preemptRequested = s.preemptRequested ∧
    (s.terminate slot).stopExecution = s.stopExecution ∧ (s.terminate slot).worker = s.worker ∧
    (s.terminate slot).accepted = s.accepted := by
  unfold ActionServer.terminate
  split
  · simp
  · split <;> simp [deliver, reset]

theorem Sound.terminateCurrent {s : ActionServer} (h : s.Sound) :
    Yields s (s.terminate .current) (Function.update s.handle .current none) := by
  obtain ⟨hpreempt, hstop, hworker, -⟩ := terminate_frame s .current
  have hhandle := h.handle_terminate .current
  refine ⟨⟨h.terminate .current, ?_⟩, hhandle, hstop, hworker⟩
  rw [hpreempt, h.preempt, hhandle]
  simp

theorem Sound.terminateAll {s : ActionServer} (h : s.Sound) : Yields s s.terminateAll fun _ => none := by
  have hcurrent := h.terminateCurrent
  obtain ⟨-, hstop, hworker, -⟩ := terminate_frame (s.terminate .current) .pending
  have hhandle : s.terminateAll.handle = fun _ => none := by
    funext slot
    rw [ActionServer.terminateAll]
    dsimp only
    rw [hcurrent.handle_terminate .pending, hcurrent.handle_eq]
    cases slot <;> simp
  refine ⟨⟨(hcurrent.terminate .pending).of_eq rfl rfl rfl rfl, ?_⟩, hhandle, ?_, ?_⟩
  · rw [hhandle]
    rfl
  · exact hstop.trans hcurrent.stop
  · exact hworker.trans hcurrent.worker

theorem Sound.terminatePendingGoal {s : ActionServer} (h : s.Sound) :
    Yields s s.terminatePendingGoal (Function.update s.handle .pending none) := by
  unfold ActionServer.terminatePendingGoal
  rw [h.isActive_eq]
  cases hg : s.handle .pending with
  | none =>
      rw [← hg, Function.update_eq_self, hg]
      exact h.refl
  | some g =>
      obtain ⟨-, hstop, hworker, -⟩ := terminate_frame s .pending
      have hhandle := h.handle_terminate .pending
      refine ⟨⟨(h.terminate .pending).of_eq rfl rfl rfl rfl, ?_⟩, hhandle, hstop, hworker⟩
      simp [hhandle]

theorem Sound.succeededCurrent {s : ActionServer} (h : s.Sound) :
    Yields s s.succeededCurrent (Function.update s.handle .current none) := by
  cases hg : s.handle .current with
  | none =>
      have hsame : s.succeededCurrent = s := by simp [ActionServer.succeededCurrent, hg]
      rw [hsame, ← hg, Function.update_eq_self]
      exact h.refl
  | some g =>
      simp only [ActionServer.succeededCurrent, hg, h.active .current g hg, if_true]
      refine ⟨⟨h.deliver_reset .succeeded hg, ?_⟩, rfl, rfl, rfl⟩
      simpa [deliver, reset] using h.preempt

theorem Slots.shift {s : ActionServer} (h : s.Slots) (hcurrent : s.handle .current = none) :
    ({ s with handle := Function.update (fun _ => none) .current (s.handle .pending) } : ActionServer).Slots := by
  have htally : ∀ g, ({ s with handle := Function.update (fun _ => none) .current (s.handle .pending) } :
      ActionServer).tally g = s.tally g := by
    intro g
    simp [ActionServer.tally, hcurrent]
  refine ⟨fun g hlt => ?_, fun g hge => ?_, fun slot g hg => ?_⟩
  · rw [htally]
    exact h.tally g hlt
  · rw [htally]
    exact h.fresh g hge
  · cases slot with
    | current => exact h.active .pending g (by simpa using hg)
    | pending => simp at hg

/-- 打ち切った目標の場所を空にすると、残りの目標は待っている。 -/
theorem Slots.abortPrevious {s : ActionServer} (h : s.Slots) {g : ℕ} (hg : s.handle .pending = some g) :
    (s.abortPrevious.reset .current).Slots := by
  cases hc : s.handle .current with
  | none =>
      have hsame : s.abortPrevious = s := by simp [ActionServer.abortPrevious, hc]
      rw [hsame]
      exact h.of_eq (by rw [ActionServer.reset, ← hc, Function.update_eq_self]) rfl rfl rfl
  | some c =>
      have hne : (some c != some g) = true := by
        rw [bne_iff_ne]
        intro heq
        cases h.slot_unique hc (heq ▸ hg)
      simp only [ActionServer.abortPrevious, hc, hg, h.active .current c hc, hne, Bool.and_self, if_true]
      exact h.deliver_reset .aborted hc

theorem abortPrevious_frame (s : ActionServer) :
    s.abortPrevious.handle = s.handle ∧ s.abortPrevious.stopExecution = s.stopExecution ∧
      s.abortPrevious.worker = s.worker := by
  unfold ActionServer.abortPrevious
  split
  · simp
  · split <;> simp [deliver]

/-- 次の目標を今の目標にする。前の目標は、活きていれば打ち切る。 -/
theorem Sound.acceptPendingGoal {s : ActionServer} (h : s.Sound) {g : ℕ} (hg : s.handle .pending = some g) :
    Yields s s.acceptPendingGoal (Function.update (fun _ => none) .current (some g)) := by
  obtain ⟨hhandle, hstop, hworker⟩ := abortPrevious_frame s
  have hslots := (h.abortPrevious hg).shift (by simp [ActionServer.reset])
  have heq : s.acceptPendingGoal.handle = Function.update (fun _ => none) .current (some g) := by
    rw [ActionServer.acceptPendingGoal, if_pos (by rw [h.isActive_eq, hg, Option.isSome_some])]
    funext slot
    cases slot <;> simp [hg]
  rw [ActionServer.acceptPendingGoal, if_pos (by rw [h.isActive_eq, hg, Option.isSome_some])] at heq ⊢
  refine ⟨⟨hslots.of_eq ?_ rfl rfl rfl, ?_⟩, heq, hstop, hworker⟩
  · rw [heq]
    simp [ActionServer.reset, hhandle, hg]
  · rw [heq]
    simp

theorem acceptPendingGoal_of_none {s : ActionServer} (hg : s.handle .pending = none) :
    s.acceptPendingGoal = s := by
  simp [acceptPendingGoal, isActive, hg]

theorem Sound.request {s : ActionServer} (h : s.Sound) (r : Request) :
    (s.request r).Sound ∧ (s.request r).worker = s.worker := by
  cases r with
  | acceptPendingGoal =>
      cases hg : s.handle .pending with
      | none =>
          rw [ActionServer.request, acceptPendingGoal_of_none hg]
          exact ⟨h, rfl⟩
      | some g => exact ⟨(h.acceptPendingGoal hg).toSound, (h.acceptPendingGoal hg).worker⟩
  | terminatePendingGoal => exact ⟨h.terminatePendingGoal.toSound, h.terminatePendingGoal.worker⟩
  | succeededCurrent => exact ⟨h.succeededCurrent.toSound, h.succeededCurrent.worker⟩
  | terminateCurrent => exact ⟨h.terminateCurrent.toSound, h.terminateCurrent.worker⟩
  | terminateAll => exact ⟨h.terminateAll.toSound, h.terminateAll.worker⟩

/-! ## 送られた結果 -/

theorem Slots.delivered_terminate {s : ActionServer} (h : s.Slots) (slot : Slot) :
    (s.terminate slot).delivered = s.delivered ++ (s.handle slot).toList := by
  cases hg : s.handle slot with
  | none => simp [terminate_of_none hg]
  | some g => simp [ActionServer.terminate, hg, h.active slot g hg, deliver, reset]

theorem Sound.delivered_terminateAll {s : ActionServer} (h : s.Sound) :
    s.terminateAll.delivered = s.delivered ++ ((s.handle .current).toList ++ (s.handle .pending).toList) := by
  have hcurrent := h.terminateCurrent
  rw [ActionServer.terminateAll]
  dsimp only
  rw [hcurrent.delivered_terminate .pending, h.delivered_terminate .current, hcurrent.handle_eq]
  simp

theorem Slots.delivered_succeededCurrent {s : ActionServer} (h : s.Slots) :
    s.succeededCurrent.delivered = s.delivered ++ (s.handle .current).toList := by
  cases hg : s.handle .current with
  | none => simp [ActionServer.succeededCurrent, hg]
  | some g => simp [ActionServer.succeededCurrent, hg, h.active .current g hg, deliver, reset]

theorem Slots.delivered_acceptPendingGoal {s : ActionServer} (h : s.Slots) {g : ℕ}
    (hg : s.handle .pending = some g) :
    s.acceptPendingGoal.delivered = s.delivered ++ (s.handle .current).toList := by
  rw [ActionServer.acceptPendingGoal, if_pos (by rw [h.isActive_eq, hg, Option.isSome_some])]
  cases hc : s.handle .current with
  | none => simp [ActionServer.abortPrevious, hc]
  | some c =>
      have hne : c ≠ g := by
        intro heq
        cases h.slot_unique hc (heq ▸ hg)
      simp [ActionServer.abortPrevious, hc, hg, h.active .current c hc, hne, deliver]

theorem Slots.not_mem_delivered {s : ActionServer} (h : s.Slots) {slot : Slot} {g : ℕ}
    (hg : s.handle slot = some g) : g ∉ s.delivered := by
  have htally := h.tally g (h.lt hg)
  rw [← List.count_eq_zero]
  cases slot <;> simp only [ActionServer.tally, hg, if_true] at htally <;> omega

end ActionServer

end Ranger.Nav
