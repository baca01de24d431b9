import Ranger.Nav.ActionServer

/-!
# 目標が残らない実行

`SimpleActionServer` の遷移ごとに、場所に残る目標とスレッドの有無を調べる。スレッドが抜けた後に活きた目標が場所に残るのは、
三つの遷移に限る。
-/

namespace Ranger.Nav
open Ranger.Lib

namespace ActionServer

/-! ## 目標の受け取り -/

theorem Slots.receive {s : ActionServer} (h : s.Slots) (canceling : Bool) (slot : Slot)
    (hslot : s.handle slot = none) : (s.receive canceling slot).Slots := by
  have hfresh := h.fresh s.accepted (Nat.le_refl _)
  have htally : ∀ g, (s.receive canceling slot).tally g =
      s.tally g + if s.accepted = g then 1 else 0 := by
    intro g
    cases slot <;> simp [ActionServer.tally, ActionServer.receive, hslot] <;> omega
  refine ⟨fun g hlt => ?_, fun g hge => ?_, fun slot' g hg => ?_⟩
  · rw [htally]
    by_cases heq : s.accepted = g
    · rw [if_pos heq, ← heq, hfresh]
    · rw [if_neg heq]
      exact h.tally g (by simp only [ActionServer.receive] at hlt; omega)
  · simp only [ActionServer.receive] at hge
    rw [htally, if_neg (by omega), h.fresh g (by omega)]
  · by_cases heq : slot' = slot
    · subst heq
      have hg' : s.accepted = g := by simpa [ActionServer.receive] using hg
      rw [← hg']
      cases canceling <;> simp [ActionServer.receive, GoalStatus.isActive]
    · have hkeep : s.handle slot' = some g := by simpa [ActionServer.receive, heq] using hg
      have hne : g ≠ s.accepted := Nat.ne_of_lt (h.lt hkeep)
      simpa [ActionServer.receive, hne] using h.active slot' g hkeep

/-- 実行のスレッドが動いているか、今の目標が活きているとき、新しい目標は次の場所に入る。 -/
theorem Sound.handleAccepted_busy {s : ActionServer} (h : s.Sound) (canceling : Bool)
    (hbusy : (s.isActive .current || s.isRunning) = true) :
    Yields s (s.handleAccepted canceling) (Function.update s.handle .pending (some s.accepted)) := by
  obtain ⟨-, hstop, hworker, haccepted⟩ := terminate_frame s .pending
  have hhandle := h.handle_terminate .pending
  have hslots := (h.terminate .pending).receive canceling .pending (by simp [hhandle])
  have heq : ((s.terminate .pending).receive canceling .pending).handle =
      Function.update s.handle .pending (some s.accepted) := by
    rw [ActionServer.receive]
    dsimp only
    rw [hhandle, haccepted, Function.update_idem]
  rw [ActionServer.handleAccepted, if_pos hbusy]
  refine ⟨⟨hslots.of_eq rfl rfl rfl rfl, ?_⟩, heq, hstop, hworker⟩
  dsimp only
  rw [heq]
  simp

/-- そうでないとき、新しい目標は今の目標になり、スレッドが動きだす。 -/
theorem Sound.handleAccepted_free {s : ActionServer} (h : s.Sound) (canceling : Bool)
    (hfree : (s.isActive .current || s.isRunning) = false) :
    (s.handleAccepted canceling).Sound ∧ (s.handleAccepted canceling).worker = .loopTest := by
  have hcurrent : s.handle .current = none := by
    rw [Bool.or_eq_false_iff, h.isActive_eq] at hfree
    simpa using hfree.1
  have hcleared := h.terminatePendingGoal
  have hnone : s.terminatePendingGoal.handle .current = none := by simp [hcleared.handle_eq, hcurrent]
  have heq : s.handleAccepted canceling =
      { s.terminatePendingGoal.receive canceling .current with worker := .loopTest } := by
    rw [ActionServer.handleAccepted, if_neg (by simp [hfree])]
    rfl
  rw [heq]
  refine ⟨⟨(hcleared.receive canceling .current hnone).of_eq rfl rfl rfl rfl, ?_⟩, rfl⟩
  simpa [ActionServer.receive] using hcleared.preempt

theorem handleAccepted_stop (s : ActionServer) (canceling : Bool) :
    (s.handleAccepted canceling).stopExecution = s.stopExecution := by
  have hstop := (terminate_frame s .pending).2.1
  unfold ActionServer.handleAccepted
  split
  · exact hstop
  · split
    · exact hstop
    · rfl

theorem Sound.delivered_handleAccepted {s : ActionServer} (h : s.Sound) (canceling : Bool) :
    (s.handleAccepted canceling).delivered = s.delivered ++ (s.handle .pending).toList := by
  unfold ActionServer.handleAccepted
  split
  · exact h.delivered_terminate .pending
  · rw [h.isActive_eq]
    cases hg : s.handle .pending with
    | none => simp [ActionServer.receive]
    | some g =>
        rw [if_pos Option.isSome_some, ← hg]
        exact h.delivered_terminate .pending

theorem Sound.handleCancel {s : ActionServer} (h : s.Sound) (g : ℕ) : (s.handleCancel g).Sound := by
  unfold ActionServer.handleCancel
  split
  · refine ⟨⟨h.tally, h.fresh, fun slot g' hg' => ?_⟩, h.preempt⟩
    by_cases heq : g' = g
    · simp [heq, GoalStatus.isActive]
    · simpa [heq] using h.active slot g' hg'
  · exact h

theorem handleCancel_frame (s : ActionServer) (g : ℕ) :
    (s.handleCancel g).handle = s.handle ∧ (s.handleCancel g).worker = s.worker := by
  unfold ActionServer.handleCancel
  split <;> exact ⟨rfl, rfl⟩

/-! ## 残された目標 -/

/-- 場所の目標をこれから扱うスレッドの位置。 -/
def Worker.serves : Worker → Bool
  | .loopTest | .executing => true
  | .absent | .leaving | .ended => false

/-- 扱うスレッドのない、活きた目標がある。 -/
def Stranded (s : ActionServer) : Prop := Worker.serves s.worker = false ∧ ∃ slot, s.isActive slot = true

/-- 目標を残さない遷移。受け取りは、スレッドが抜けていく途中でない。繰り返しの判定は、目標を残して抜けない。戻った後の
区間は、空の `completion_callback_` を、次の目標があるときに呼ばない。 -/
def Orderly (completion : Bool) (s : ActionServer) : Event → ActionServer → Prop
  | .handleAccepted _, _ => s.worker ≠ .leaving
  | .testLoop, _ =>
      (s.stopExecution = false ∧ s.isActive .current = true) ∨
        (s.isActive .current = false ∧ s.isActive .pending = false)
  | .callbackReturn, _ =>
      completion = true ∨ s.stopExecution = true ∨ s.isActive .current = false ∨ s.isActive .pending = false
  | .handleCancel _, _ | .activate, _ | .deactivate, _ | .waitTimeout, _ | .overdue, _
  | .deactivateReturn, _ | .request _, _ | .callbackThrow, _ | .threadEnd, _ => True

instance (completion : Bool) (s : ActionServer) (e : Event) (t : ActionServer) :
    Decidable (Orderly completion s e t) :=
  match e with
  | .handleAccepted _ => inferInstanceAs (Decidable (s.worker ≠ .leaving))
  | .testLoop => inferInstanceAs (Decidable ((_ ∧ _) ∨ (_ ∧ _)))
  | .callbackReturn => inferInstanceAs (Decidable (_ ∨ _ ∨ _ ∨ _))
  | .handleCancel _ | .activate | .deactivate | .waitTimeout | .overdue | .deactivateReturn
  | .request _ | .callbackThrow | .threadEnd => isTrue trivial

theorem not_stranded_of_serves {s : ActionServer} (h : Worker.serves s.worker = true) : ¬ s.Stranded := by
  rintro ⟨hserves, -⟩
  rw [h] at hserves
  cases hserves

theorem Sound.stranded_iff {s : ActionServer} (h : s.Sound) :
    s.Stranded ↔ Worker.serves s.worker = false ∧ ∃ slot, (s.handle slot).isSome = true := by
  simp only [Stranded, h.isActive_eq]

theorem Sound.not_stranded_of_none {s : ActionServer} (h : s.Sound) (hnone : ∀ slot, s.handle slot = none) :
    ¬ s.Stranded := by
  rw [h.stranded_iff]
  rintro ⟨-, slot, hslot⟩
  rw [hnone slot] at hslot
  cases hslot

/-- 場所とスレッドの位置を変えない遷移は、目標を残さない。 -/
theorem Sound.stranded_congr {s t : ActionServer} (hs : s.Sound) (ht : t.Sound) (hhandle : t.handle = s.handle)
    (hworker : Worker.serves t.worker = Worker.serves s.worker) : t.Stranded ↔ s.Stranded := by
  rw [hs.stranded_iff, ht.stranded_iff, hhandle, hworker]

theorem Sound.with_worker {s : ActionServer} (h : s.Sound) (w : Worker) :
    ({ s with worker := w } : ActionServer).Sound := ⟨h.toSlots.of_eq rfl rfl rfl rfl, h.preempt⟩

theorem handleAccepted_orderly {completion : Bool} {s t : ActionServer} (h : s.Sound) (hs : ¬ s.Stranded)
    (canceling : Bool) :
    ¬ (s.handleAccepted canceling).Stranded ↔ Orderly completion s (.handleAccepted canceling) t := by
  cases hbusy : (s.isActive .current || s.isRunning) with
  | true =>
      have hyields := h.handleAccepted_busy canceling hbusy
      rw [hyields.toSound.stranded_iff, hyields.worker, hyields.handle_eq]
      have hpending : ∃ slot, (Function.update s.handle Slot.pending (some s.accepted) slot).isSome = true :=
        ⟨.pending, by simp⟩
      simp only [hpending, and_true, Orderly]
      -- 動いているスレッドは、抜けていく途中でなければ目標を扱う。
      cases hw : s.worker with
      | leaving => simp [Worker.serves]
      | loopTest | executing => simp [Worker.serves]
      | absent | ended =>
          have hcurrent : s.isActive .current = true := by simpa [isRunning, hw] using hbusy
          exact absurd ⟨by simp [Worker.serves, hw], .current, hcurrent⟩ hs
  | false =>
      obtain ⟨-, hworker⟩ := h.handleAccepted_free canceling hbusy
      have hserves : Worker.serves (s.handleAccepted canceling).worker = true := by rw [hworker]; rfl
      have hleave : s.worker ≠ .leaving := by
        intro hw
        simp [isRunning, hw] at hbusy
      exact iff_of_true (not_stranded_of_serves hserves) hleave

theorem handleAccepted_sound {s : ActionServer} (h : s.Sound) (canceling : Bool) :
    (s.handleAccepted canceling).Sound := by
  cases hbusy : (s.isActive .current || s.isRunning) with
  | true => exact (h.handleAccepted_busy canceling hbusy).toSound
  | false => exact (h.handleAccepted_free canceling hbusy).1

theorem testLoop_orderly (completion : Bool) {s t : ActionServer} (h : s.Sound) :
    s.testLoop.Sound ∧ (¬ s.testLoop.Stranded ↔ Orderly completion s .testLoop t) := by
  unfold testLoop
  split
  · rename_i hcond
    have hgo : s.stopExecution = false ∧ s.isActive .current = true := by simpa using hcond
    refine ⟨h.with_worker _, iff_of_true (not_stranded_of_serves rfl) (Or.inl hgo)⟩
  · rename_i hcond
    refine ⟨h.with_worker _, ?_⟩
    have hleave : ({ s with worker := .leaving } : ActionServer).Stranded ↔ ∃ slot, s.isActive slot = true :=
      and_iff_right rfl
    rw [hleave, Orderly]
    constructor
    · intro hnone
      refine Or.inr ⟨?_, ?_⟩
      · exact Bool.eq_false_iff.mpr fun hactive => hnone ⟨.current, hactive⟩
      · exact Bool.eq_false_iff.mpr fun hactive => hnone ⟨.pending, hactive⟩
    · rintro (⟨hstop, hactive⟩ | ⟨hcurrent, hpending⟩) ⟨slot, hslot⟩
      · simp [hstop, hactive] at hcond
      · cases slot with
        | current => rw [hcurrent] at hslot; cases hslot
        | pending => rw [hpending] at hslot; cases hslot

theorem finishIteration_orderly (completion : Bool) {s t : ActionServer} (h : s.Sound) :
    (s.finishIteration completion).Sound ∧
      (¬ (s.finishIteration completion).Stranded ↔ Orderly completion s .callbackReturn t) := by
  unfold finishIteration
  by_cases hstop : s.stopExecution = true
  · rw [if_pos hstop]
    have hsound := h.terminateAll.toSound.with_worker .leaving
    have hnone : ∀ slot, ({ s.terminateAll with worker := .leaving } : ActionServer).handle slot = none := by
      intro slot
      exact congrFun h.terminateAll.handle_eq slot
    exact ⟨hsound, iff_of_true (hsound.not_stranded_of_none hnone) (Or.inr (Or.inl hstop))⟩
  · rw [if_neg hstop]
    have hcurrent := h.terminateCurrent
    cases hthrow : (s.isActive .current && !completion) with
    | true =>
        have hfacts : s.isActive .current = true ∧ completion = false := by simpa using hthrow
        rw [if_pos rfl]
        have hsound := hcurrent.toSound.with_worker .leaving
        refine ⟨hsound, ?_⟩
        have hiff : ({ s.terminate .current with worker := .leaving } : ActionServer).Stranded ↔
            s.isActive .pending = true := by
          rw [hsound.stranded_iff, h.isActive_eq]
          constructor
          · rintro ⟨-, slot, hslot⟩
            cases slot with
            | current => simp [hcurrent.handle_eq] at hslot
            | pending => simpa [hcurrent.handle_eq] using hslot
          · intro hpending
            exact ⟨rfl, .pending, by simpa [hcurrent.handle_eq] using hpending⟩
        simp [hiff, Orderly, hfacts, hstop]
    | false =>
        rw [if_neg Bool.false_ne_true]
        -- 今の目標は片付き、次の目標があれば続ける。
        have hdone : ∃ done, (if s.isActive .current then s.terminate .current else s) = done ∧
            Yields s done (Function.update s.handle .current none) := by
          by_cases hactive : s.isActive .current = true
          · rw [if_pos hactive]
            exact ⟨_, rfl, hcurrent⟩
          · rw [if_neg hactive]
            rw [h.isActive_eq, Bool.not_eq_true, Option.isSome_eq_false_iff, Option.isNone_iff_eq_none] at hactive
            refine ⟨s, rfl, ?_⟩
            rw [← hactive, Function.update_eq_self]
            exact h.refl
        obtain ⟨done, hdoneEq, hyields⟩ := hdone
        simp only [hdoneEq, hyields.toSound.isActive_eq]
        have horderly : Orderly completion s .callbackReturn t := by
          rcases Bool.and_eq_false_iff.mp hthrow with hinactive | hcompletion
          · exact Or.inr (Or.inr (Or.inl hinactive))
          · exact Or.inl (by simpa using hcompletion)
        cases hg : done.handle .pending with
        | some g =>
            rw [if_pos Option.isSome_some]
            have hsound := (hyields.toSound.acceptPendingGoal hg).toSound.with_worker .loopTest
            exact ⟨hsound, iff_of_true (not_stranded_of_serves rfl) horderly⟩
        | none =>
            rw [Option.isSome_none, if_neg Bool.false_ne_true]
            have hsound := hyields.toSound.with_worker .leaving
            refine ⟨hsound, iff_of_true (hsound.not_stranded_of_none ?_) horderly⟩
            intro slot
            cases slot with
            | current => exact (congrFun hyields.handle_eq .current).trans (Function.update_self _ _ _)
            | pending => exact hg

/-- 今の目標が片付いて戻ったとき、次の目標があればそれに移り、なければ抜ける。 -/
theorem finishIteration_of_done {s : ActionServer} (hcurrent : s.handle .current = none)
    (hstop : s.stopExecution = false) (completion : Bool) :
    s.finishIteration completion = { s.acceptPendingGoal with worker := .loopTest } ∨
      s.finishIteration completion = { s with worker := .leaving } := by
  have hactive : s.isActive .current = false := by simp [isActive, hcurrent]
  unfold finishIteration
  simp only [hstop, hactive, Bool.false_eq_true, if_false, Bool.false_and]
  split
  · exact Or.inl rfl
  · exact Or.inr rfl

/-- 遷移は記録を保つ。残された目標のない状態から、目標を残さないのは `Orderly` な遷移だけである。 -/
theorem step_orderly {completion : Bool} {s t : ActionServer} {e : Event} (h : s.Sound)
    (hstep : s.step completion e = some t) :
    t.Sound ∧ (¬ s.Stranded → (¬ t.Stranded ↔ Orderly completion s e t)) := by
  -- 場所もスレッドも変えない遷移
  have hsame : ∀ u : ActionServer, u.Sound → u.handle = s.handle →
      Worker.serves u.worker = Worker.serves s.worker →
      u.Sound ∧ (¬ s.Stranded → (¬ u.Stranded ↔ True)) := by
    intro u hu hhandle hworker
    refine ⟨hu, fun hs => iff_of_true ?_ trivial⟩
    rwa [h.stranded_congr hu hhandle hworker]
  cases e with
  | handleAccepted canceling =>
      cases hstep
      exact ⟨handleAccepted_sound h canceling, fun hs => handleAccepted_orderly h hs canceling⟩
  | handleCancel g =>
      simp only [step] at hstep
      split at hstep
      · cases hstep
        obtain ⟨hhandle, hworker⟩ := handleCancel_frame s g
        exact hsame _ (h.handleCancel g) hhandle (by rw [hworker])
      · cases hstep
  | activate | deactivate =>
      cases hstep
      exact hsame _ ⟨h.toSlots.of_eq rfl rfl rfl rfl, h.preempt⟩ rfl rfl
  | waitTimeout | deactivateReturn =>
      simp only [step] at hstep
      split at hstep
      · cases hstep
        exact hsame _ ⟨h.toSlots.of_eq rfl rfl rfl rfl, h.preempt⟩ rfl rfl
      · cases hstep
  | overdue =>
      simp only [step] at hstep
      split at hstep
      · cases hstep
        have hsound : ({ s.terminateAll with waiting := s.waiting + 1, overdue := s.overdue - 1 } :
            ActionServer).Sound :=
          ⟨h.terminateAll.toSlots.of_eq rfl rfl rfl rfl, h.terminateAll.preempt⟩
        refine ⟨hsound, fun _ => iff_of_true (hsound.not_stranded_of_none fun slot => ?_) trivial⟩
        exact congrFun h.terminateAll.handle_eq slot
      · cases hstep
  | testLoop =>
      simp only [step] at hstep
      split at hstep
      · cases hstep
        exact ⟨(testLoop_orderly completion (t := s) h).1, fun _ => (testLoop_orderly completion h).2⟩
      · cases hstep
  | request r =>
      simp only [step] at hstep
      split at hstep
      · rename_i hworker
        cases hstep
        obtain ⟨hsound, hw⟩ := h.request r
        have hserves : Worker.serves (s.request r).worker = true := by rw [hw, hworker]; rfl
        exact ⟨hsound, fun _ => iff_of_true (not_stranded_of_serves hserves) trivial⟩
      · cases hstep
  | callbackThrow =>
      simp only [step] at hstep
      split at hstep
      · cases hstep
        have hsound := h.terminateAll.toSound.with_worker .leaving
        refine ⟨hsound, fun _ => iff_of_true (hsound.not_stranded_of_none fun slot => ?_) trivial⟩
        exact congrFun h.terminateAll.handle_eq slot
      · cases hstep
  | callbackReturn =>
      simp only [step] at hstep
      split at hstep
      · cases hstep
        exact ⟨(finishIteration_orderly completion (t := s) h).1, fun _ => (finishIteration_orderly completion h).2⟩
      · cases hstep
  | threadEnd =>
      simp only [step] at hstep
      split at hstep
      · rename_i hworker
        cases hstep
        exact hsame _ (h.with_worker .ended) rfl (by rw [hworker]; rfl)
      · cases hstep

/-! ## 実行の全体 -/

/-- スレッドも `deactivate` も動いていない。 -/
def Idle (s : ActionServer) : Prop := s.isRunning = false ∧ s.waiting = 0 ∧ s.overdue = 0

/-- どの場所にも活きた目標がなく、受け付けた目標はどれも、最終の結果をちょうど一度送られている。 -/
def Served (s : ActionServer) : Prop :=
  (∀ slot, s.isActive slot = false) ∧ ∀ g, g < s.accepted → s.delivered.count g = 1

theorem Sound.served {s : ActionServer} (h : s.Sound) (hs : ¬ s.Stranded) (hidle : s.Idle) : s.Served := by
  have hserves : Worker.serves s.worker = false := by
    have hrunning := hidle.1
    cases hw : s.worker <;> simp [isRunning, hw, Worker.serves] at hrunning ⊢
  have hactive : ∀ slot, s.isActive slot = false := by
    intro slot
    rw [Bool.eq_false_iff]
    intro hactive
    exact hs ⟨hserves, slot, hactive⟩
  refine ⟨hactive, fun g hg => ?_⟩
  have hnone : ∀ slot, s.handle slot = none := by
    intro slot
    have hslot := hactive slot
    rw [h.isActive_eq] at hslot
    simpa using hslot
  simpa [ActionServer.tally, hnone] using h.tally g hg

theorem sound_runs {completion : Bool} {es : List Event} {t : ActionServer}
    (hrun : runs (step completion) init es = some t) : t.Sound :=
  runs_inv (C := fun _ _ _ => True) (fun _ _ _ h hstep _ => (step_orderly h hstep).1) sound_init
    (Always.of_step fun _ _ _ _ => trivial) hrun

/-- `preempt_requested_` は、次の目標が活きているとき、そのときに限り真である。どの遷移も `Orderly` な実行は、止まったときに
目標を残さない。`Orderly` でない遷移は、扱うスレッドのない目標を残す。 -/
theorem served_of_orderly (completion : Bool) (es : List Event) (t : ActionServer)
    (hrun : runs (step completion) init es = some t) :
    (t.preemptRequested = true ↔ t.isActive .pending = true) ∧
    (Always (step completion) (Orderly completion) init es → t.Idle → t.Served) ∧
    (Always (step completion) (Orderly completion) init es ↔
      Always (step completion) (fun _ _ u => ¬ u.Stranded) init es) := by
  have hinit : init.Sound ∧ ¬ init.Stranded := ⟨sound_init, sound_init.not_stranded_of_none fun _ => rfl⟩
  have hinv : ∀ s e u, (s.Sound ∧ ¬ s.Stranded) → step completion s e = some u →
      Orderly completion s e u → u.Sound ∧ ¬ u.Stranded := by
    intro s e u hs hstep horderly
    obtain ⟨hsound, hiff⟩ := step_orderly hs.1 hstep
    exact ⟨hsound, (hiff hs.2).mpr horderly⟩
  refine ⟨?_, fun halways hidle => ?_, ?_⟩
  · rw [(sound_runs hrun).preempt, (sound_runs hrun).isActive_eq]
  · obtain ⟨hsound, hstranded⟩ := runs_inv hinv hinit halways hrun
    exact hsound.served hstranded hidle
  · refine (Always.iff_of_inv hinv (fun s e u hs hstep => ?_) hinit).symm
    exact (step_orderly hs.1 hstep).2 hs.2

-- 一つの目標を受け取り、成功させ、スレッドが終わる。
theorem served_of_orderly_one_goal :
    ∃ t, runs (step false) init [.activate, .handleAccepted false, .testLoop, .request .succeededCurrent,
        .callbackReturn, .threadEnd] = some t ∧ t.accepted = 1 ∧ t.Idle ∧ t.Served := by
  refine ⟨_, rfl, rfl, ⟨rfl, rfl, rfl⟩, ?_⟩
  refine (served_of_orderly false [.activate, .handleAccepted false, .testLoop, .request .succeededCurrent,
    .callbackReturn, .threadEnd] _ rfl).2.1 ?_ ⟨rfl, rfl, rfl⟩
  decide

-- スレッドが繰り返しを抜け、終わる前に届いた目標は、次の場所に入ったまま残る。
theorem not_served_leaving :
    ∃ t, runs (step true) init [.activate, .handleAccepted false, .testLoop, .request .succeededCurrent,
        .callbackReturn, .handleAccepted false, .threadEnd] = some t ∧
      t.Idle ∧ t.isActive .pending = true ∧ t.delivered.count 1 = 0 ∧ 1 < t.accepted := by
  refine ⟨_, rfl, ⟨rfl, rfl, rfl⟩, rfl, rfl, by decide⟩

end ActionServer

end Ranger.Nav
