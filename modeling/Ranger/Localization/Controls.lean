import Ranger.Lib.Run
import Ranger.Localization.InOrder

/-!
# 遅れた測定と制御

`integrateMeasurements` は、履歴から戻した測定を数えるだけで印を付けない。数えた回数は、待ち行列から先に出る測定の制御を
推定へ移すことに使われる。推定に渡す測定と、そのときの推定の制御とを書き出し、制御が正しく使われる条件を求める。
-/

namespace Ranger.Localization.Lagged
open Ranger.Lib

variable {E V C : Type} {T : Estimator E V C} {Q : PriorityQueue (Measurement V C) Measurement.time}

/-! ## 制御 -/

/-- 測定とともに保存された制御とその時刻。 -/
def Measurement.control (m : Measurement V C) : C × ℤ := (m.latestControl, m.latestControlTime)

/-- 推定の持つ制御とその時刻。 -/
def FilterBase.control (f : FilterBase E C) : C × ℤ := (f.latestControl, f.latestControlTime)

/-- `processMeasurement` が `predict` を呼ぶ。 -/
def FilterBase.Predicts (f : FilterBase E C) (m : Measurement V C) : Prop :=
  f.initialized = true ∧ f.lastMeasurementTime < m.time

instance FilterBase.Predicts.decidable (f : FilterBase E C) (m : Measurement V C) : Decidable (f.Predicts m) :=
  inferInstanceAs (Decidable (_ ∧ _))

/-- 戻した測定が残っているあいだ、測定の制御を推定へ移す。 -/
def FilterBase.controlled (f : FilterBase E C) (m : Measurement V C) (restored : ℕ) : FilterBase E C :=
  if f.useControl && 0 < restored then f.setControl m.latestControl m.latestControlTime else f

/-- `integrateMeasurements` の、測定の並びについての推定。 -/
def FilterBase.processAll (T : Estimator E V C) (f : FilterBase E C) : ℕ → List (Measurement V C) → FilterBase E C
  | _, [] => f
  | restored, m :: ms => processAll T ((f.controlled m restored).processMeasurement T m) (restored - 1) ms

namespace FilterBase

variable {f : FilterBase E C} {m : Measurement V C} {ms : List (Measurement V C)} {restored : ℕ}

@[simp] theorem processMeasurement_held (f : FilterBase E C) (m : Measurement V C) :
    (f.processMeasurement T m).control = f.control := by
  obtain ⟨-, hcontrol, htime⟩ := processMeasurement_control (T := T) f m
  simp only [control, hcontrol, htime]

@[simp] theorem controlled_useControl (f : FilterBase E C) (m : Measurement V C) (restored : ℕ) :
    (f.controlled m restored).useControl = f.useControl := by
  unfold controlled
  split <;> rfl

@[simp] theorem controlled_initialized (f : FilterBase E C) (m : Measurement V C) (restored : ℕ) :
    (f.controlled m restored).initialized = f.initialized := by
  unfold controlled
  split <;> rfl

@[simp] theorem controlled_lastMeasurementTime (f : FilterBase E C) (m : Measurement V C) (restored : ℕ) :
    (f.controlled m restored).lastMeasurementTime = f.lastMeasurementTime := by
  unfold controlled
  split <;> rfl

theorem controlled_control (huse : f.useControl = true) (m : Measurement V C) (restored : ℕ) :
    (f.controlled m restored).control = if 0 < restored then m.control else f.control := by
  unfold controlled
  rw [huse]
  by_cases hrestored : 0 < restored
  · simp [hrestored, control, setControl, Measurement.control]
  · simp [hrestored]

theorem processMeasurement_last (hinit : f.initialized = true) (m : Measurement V C) :
    (f.processMeasurement T m).lastMeasurementTime = max f.lastMeasurementTime m.time := by
  unfold processMeasurement
  rw [if_pos hinit]
  dsimp only
  split
  · rw [max_eq_right (by omega)]
  · rw [max_eq_left (by omega)]

/-! ## 並びの処理 -/

theorem processAll_useControl (f : FilterBase E C) (restored : ℕ) (ms : List (Measurement V C)) :
    (f.processAll T restored ms).useControl = f.useControl := by
  induction ms generalizing f restored with
  | nil => rfl
  | cons m ms ih => rw [processAll, ih, (processMeasurement_control _ m).1, controlled_useControl]

/-- 移す回数が尽きた後は、最後に移した制御が残る。 -/
theorem processAll_control (huse : f.useControl = true) (restored : ℕ) (ms : List (Measurement V C)) :
    (f.processAll T restored ms).control = ((ms.take restored).getLast?.map Measurement.control).getD f.control := by
  induction ms generalizing f restored with
  | nil => simp [processAll]
  | cons m ms ih =>
      have huse' : ((f.controlled m restored).processMeasurement T m).useControl = true := by
        rw [(processMeasurement_control _ m).1, controlled_useControl, huse]
      rw [processAll, ih huse', processMeasurement_held, controlled_control huse]
      cases restored with
      | zero => simp
      | succ k =>
          rw [if_pos k.succ_pos, Nat.add_sub_cancel, List.take_succ_cons, List.getLast?_cons]
          cases (ms.take k).getLast? <;> rfl

theorem processAll_initialized (hinit : f.initialized = true) (restored : ℕ) (ms : List (Measurement V C)) :
    (f.processAll T restored ms).initialized = true := by
  induction ms generalizing f restored with
  | nil => exact hinit
  | cons m ms ih => exact ih (processMeasurement_initialized _ m) _

/-- 推定の最後の測定の時刻は、それまでに渡した測定の時刻のうち最も後である。 -/
theorem processAll_last_lt_iff (hinit : f.initialized = true) (restored : ℕ) (ms : List (Measurement V C)) (time : ℤ) :
    (f.processAll T restored ms).lastMeasurementTime < time ↔
      f.lastMeasurementTime < time ∧ ∀ b ∈ ms, b.time < time := by
  induction ms generalizing f restored with
  | nil => simp [processAll]
  | cons m ms ih =>
      rw [processAll, ih (processMeasurement_initialized _ m), processMeasurement_last (by simpa using hinit),
        controlled_lastMeasurementTime, max_lt_iff, List.forall_mem_cons, and_assoc]

end FilterBase

namespace RosFilter

variable {s : RosFilter E C Q} {m : Measurement V C} {rest : Q.Carrier} {now : ℤ} {fuel restored : ℕ}

/-- 最後に受け取った制御とその時刻。 -/
def control (s : RosFilter E C Q) : C × ℤ := (s.latestControl, s.latestControlTime)

/-! ## 待ち行列の処理での呼び出し -/

/-- `processQueue` が `processMeasurement` を呼ぶときの、推定と測定。 -/
def calls (T : Estimator E V C) (now : ℤ) : ℕ → ℕ → RosFilter E C Q → List (FilterBase E C × Measurement V C)
  | 0, _, _ => []
  | fuel + 1, restored, s =>
      match Q.pop s.measurementQueue with
      | none => []
      | some (m, rest) =>
          if now < m.time then []
          else
            (s.filter.controlled m restored, m) ::
              calls T now fuel (if s.filter.useControl && 0 < restored then restored - 1 else restored)
                (s.integrate T rest m restored)

/-- `now` までに待ち行列から出る測定。 -/
abbrev due (Q : PriorityQueue (Measurement V C) Measurement.time) (now : ℤ) (fuel : ℕ) (q : Q.Carrier) :
    List (Measurement V C) :=
  Q.popWhile (fun m => m.time ≤ now) fuel q

theorem due_succ {q : Q.Carrier} (hpop : Q.pop q = some (m, rest)) (hdue : ¬ now < m.time) :
    due Q now (fuel + 1) q = m :: due Q now fuel rest := by
  rw [due, PriorityQueue.popWhile, hpop]
  simp [not_lt.mp hdue]

theorem due_stop {q : Q.Carrier} (hpop : Q.pop q = some (m, rest)) (hlate : now < m.time) :
    due Q now (fuel + 1) q = [] := by
  rw [due, PriorityQueue.popWhile, hpop]
  simp [not_le.mpr hlate]

theorem due_empty {q : Q.Carrier} (hpop : Q.pop q = none) : due Q now (fuel + 1) q = [] := by
  rw [due, PriorityQueue.popWhile, hpop]

theorem integrate_filter (s : RosFilter E C Q) (rest : Q.Carrier) (m : Measurement V C) (restored : ℕ) :
    (s.integrate T rest m restored).filter = (s.filter.controlled m restored).processMeasurement T m := by
  unfold integrate store
  dsimp only
  split <;> rfl

theorem spend_eq (huse : s.filter.useControl = true) (restored : ℕ) :
    (if s.filter.useControl && 0 < restored then restored - 1 else restored) = restored - 1 := by
  simp only [huse, Bool.true_and, decide_eq_true_eq]
  split
  · rfl
  · omega

theorem integrate_useControl (huse : s.filter.useControl = true) :
    (s.integrate T rest m restored).filter.useControl = true := by
  rw [integrate_filter, (processMeasurement_control _ m).1, FilterBase.controlled_useControl, huse]

/-- 推定は、待ち行列から出る測定を順に処理したものになる。 -/
theorem processQueue_filter (huse : s.filter.useControl = true) (now : ℤ) (fuel restored : ℕ) :
    (s.processQueue T now fuel restored).filter =
      s.filter.processAll T restored (due Q now fuel s.measurementQueue) := by
  induction fuel generalizing s restored with
  | zero => rfl
  | succ fuel ih =>
      rw [processQueue]
      cases hpop : Q.pop s.measurementQueue with
      | none => rw [due_empty hpop, FilterBase.processAll]
      | some c =>
          dsimp only
          by_cases hlate : now < c.1.time
          · rw [if_pos hlate, due_stop hpop hlate, FilterBase.processAll]
          · rw [if_neg hlate, due_succ hpop hlate, FilterBase.processAll, ih (integrate_useControl huse),
              spend_eq huse, integrate_filter, integrate_queue]

/-- 呼び出しは、待ち行列から出る測定のそれぞれについて一度ずつ行われる。 -/
theorem mem_calls_iff (huse : s.filter.useControl = true) (now : ℤ) (fuel restored : ℕ)
    (c : FilterBase E C × Measurement V C) :
    c ∈ s.calls T now fuel restored ↔
      ∃ before after, due Q now fuel s.measurementQueue = before ++ c.2 :: after ∧
        c.1 = (s.filter.processAll T restored before).controlled c.2 (restored - before.length) := by
  induction fuel generalizing s restored with
  | zero => simp [calls, due, PriorityQueue.popWhile]
  | succ fuel ih =>
      rw [calls]
      cases hpop : Q.pop s.measurementQueue with
      | none => simp [due_empty hpop]
      | some d =>
          dsimp only
          by_cases hlate : now < d.1.time
          · simp [hlate, due_stop hpop hlate]
          · rw [if_neg hlate, due_succ hpop hlate, List.mem_cons, ih (integrate_useControl huse), spend_eq huse,
              integrate_queue, integrate_filter]
            constructor
            · rintro (rfl | ⟨before, after, hdue, hfilter⟩)
              · exact ⟨[], _, rfl, rfl⟩
              · refine ⟨d.1 :: before, after, by rw [hdue, List.cons_append], ?_⟩
                rw [hfilter, FilterBase.processAll, List.length_cons, Nat.sub_sub, Nat.add_comm 1]
            · rintro ⟨before, after, hdue, hfilter⟩
              cases before with
              | nil =>
                  obtain ⟨hhead, -⟩ := List.cons.inj hdue
                  exact Or.inl (Prod.ext (by rw [hfilter, ← hhead]; rfl) hhead.symm)
              | cons b before =>
                  obtain ⟨rfl, hrest⟩ := List.cons.inj hdue
                  refine Or.inr ⟨before, after, hrest, ?_⟩
                  rw [hfilter, FilterBase.processAll, List.length_cons, Nat.sub_sub, Nat.add_comm 1]

/-! ## 戻した測定 -/

/-- 待ち行列の先頭が遅れているとき、戻る時刻と、戻る先の推定。 -/
def reversion (s : RosFilter E C Q) : Option (ℤ × FilterState E C) :=
  match Q.pop s.measurementQueue with
  | none => none
  | some (first, _) =>
      if s.lagged first then (s.lastHistoryState (first.time - 1)).map (first.time - 1, ·) else none

/-- `revertTo` が待ち行列に戻す測定。 -/
def handedBack (s : RosFilter E C Q) : List (Measurement V C) :=
  match s.reversion with
  | none => []
  | some (time, h) => (s.rewound time).reverse.filter fun m => h.lastMeasurementTime ≤ m.time

/-- 測定を処理し始めるときの、推定の最後の測定の時刻。 -/
def resumeTime (s : RosFilter E C Q) : ℤ :=
  match s.reversion with
  | none => s.filter.lastMeasurementTime
  | some (_, h) => h.lastMeasurementTime

def pending (s : RosFilter E C Q) : Q.Carrier := Q.pushAll s.measurementQueue s.handedBack

/-- 処理する順の測定。 -/
def order (s : RosFilter E C Q) (now : ℤ) : List (Measurement V C) := due Q now (Q.size s.pending) s.pending

/-- 遅れた測定の前まで戻った状態。 -/
def reverted (s : RosFilter E C Q) (first : Measurement V C) : RosFilter E C Q :=
  if s.lagged first then s.revertTo (first.time - 1) else s

/-- `integrateMeasurements` が `processMeasurement` を呼ぶときの、推定と測定。 -/
def integrationCalls (T : Estimator E V C) (s : RosFilter E C Q) (now : ℤ) : List (FilterBase E C × Measurement V C) :=
  match Q.pop s.measurementQueue with
  | none => []
  | some (first, _) =>
      (s.reverted first).calls T now (Q.size (s.reverted first).measurementQueue)
        (Q.size (s.reverted first).measurementQueue - Q.size s.measurementQueue)

theorem size_pending (s : RosFilter E C Q) :
    Q.size s.pending = s.handedBack.length + Q.size s.measurementQueue := by
  rw [pending, PriorityQueue.size, PriorityQueue.elems_pushAll, Multiset.card_add, Multiset.coe_card, PriorityQueue.size]

theorem order_empty (hpop : Q.pop s.measurementQueue = none) (now : ℤ) : s.order now = [] := by
  have hback : s.handedBack = [] := by simp [handedBack, reversion, hpop]
  have hpending : s.pending = s.measurementQueue := by rw [pending, hback]; rfl
  rw [order, hpending]
  cases Q.size s.measurementQueue with
  | zero => rfl
  | succ fuel => exact due_empty hpop

/-- 戻っても、制御と、推定が始まっているかどうかは変わらない。 -/
structure Reverts (s r : RosFilter E C Q) : Prop where
  queue : r.measurementQueue = s.pending
  useControl : r.filter.useControl = s.filter.useControl
  control : r.filter.control = s.filter.control
  initialized : r.filter.initialized = s.filter.initialized
  last : r.filter.lastMeasurementTime = s.resumeTime
  latest : r.control = s.control
  history : s.measurementHistory = [] → r.measurementHistory = []

theorem reverts_of_none (hnone : s.reversion = none) {hs : List (FilterState E C)} :
    s.Reverts { s with filterStateHistory := hs } where
  queue := by rw [pending, handedBack, hnone]; rfl
  useControl := rfl
  control := rfl
  initialized := rfl
  last := by rw [resumeTime, hnone]
  latest := rfl
  history := id

theorem reverts_of_pop (hpop : Q.pop s.measurementQueue = some (m, rest)) : s.Reverts (s.reverted m) := by
  unfold reverted
  by_cases hlagged : s.lagged m = true
  · rw [if_pos hlagged]
    unfold revertTo
    cases hstate : s.lastHistoryState (m.time - 1) with
    | none =>
        have hnone : s.reversion = none := by simp [reversion, hpop, hlagged, hstate]
        exact reverts_of_none hnone
    | some h =>
        have hsome : s.reversion = some (m.time - 1, h) := by simp [reversion, hpop, hlagged, hstate]
        exact
          { queue := by rw [pending, handedBack, hsome]
            useControl := rfl
            control := rfl
            initialized := rfl
            last := by rw [resumeTime, hsome]
            latest := rfl
            history := by
              intro hnil
              simp [hnil] }
  · rw [if_neg hlagged]
    have hnone : s.reversion = none := by simp [reversion, hpop, hlagged]
    exact reverts_of_none hnone

theorem handedBack_of_history (hnil : s.measurementHistory = []) : s.handedBack = [] := by
  unfold handedBack
  cases s.reversion with
  | none => rfl
  | some c => simp [rewound, hnil]

theorem Reverts.size_sub {r : RosFilter E C Q} (hr : s.Reverts r) :
    Q.size r.measurementQueue - Q.size s.measurementQueue = s.handedBack.length := by
  rw [hr.queue, size_pending, Nat.add_sub_cancel]

/-! ## 一回の `integrateMeasurements` -/

/-- 待ち行列を処理した、予測の前の状態。 -/
def integrated (T : Estimator E V C) (s : RosFilter E C Q) (now : ℤ) (first : Measurement V C) : RosFilter E C Q :=
  (s.reverted first).processQueue T now (Q.size (s.reverted first).measurementQueue)
    (Q.size (s.reverted first).measurementQueue - Q.size s.measurementQueue)

/-- 最後の予測は、推定の値と時刻だけを変える。 -/
theorem integrateMeasurements_frame {P : RosFilter E C Q → Prop}
    (hpredict : ∀ t : RosFilter E C Q, P t → P (t.predictTo T now))
    (hempty : Q.pop s.measurementQueue = none → P s)
    (hpop : ∀ m rest, Q.pop s.measurementQueue = some (m, rest) → P (s.integrated T now m)) :
    P (s.integrateMeasurements T now) := by
  unfold integrateMeasurements
  cases h : Q.pop s.measurementQueue with
  | none =>
      dsimp only
      split
      · exact hpredict s (hempty h)
      · exact hempty h
  | some c =>
      have hintegrated := hpop c.1 c.2 h
      show P (if (s.integrated T now c.1).filter.initialized && (s.integrated T now c.1).predictToCurrentTime then
        (s.integrated T now c.1).predictTo T now else s.integrated T now c.1)
      split
      · exact hpredict _ hintegrated
      · exact hintegrated

/-- 処理の後に推定の持つ制御は、移す回数が尽きたところの測定のものである。 -/
theorem integrateMeasurements_control (huse : s.filter.useControl = true) (now : ℤ) :
    (s.integrateMeasurements T now).filter.control =
      (((s.order now).take s.handedBack.length).getLast?.map Measurement.control).getD s.filter.control := by
  refine integrateMeasurements_frame
    (P := fun t => t.filter.control =
      (((s.order now).take s.handedBack.length).getLast?.map Measurement.control).getD s.filter.control)
    (fun t ht => ht) (fun hempty => ?_) fun m rest hpop => ?_
  · rw [order_empty hempty, List.take_nil]
    rfl
  · have hr := reverts_of_pop hpop
    have huse' : (s.reverted m).filter.useControl = true := hr.useControl.trans huse
    rw [integrated, processQueue_filter huse', FilterBase.processAll_control huse', hr.size_sub, hr.control, hr.queue, order]

/-- 測定を処理し始めるときの推定。 -/
def resumed (s : RosFilter E C Q) : FilterBase E C :=
  match Q.pop s.measurementQueue with
  | none => s.filter
  | some (first, _) => (s.reverted first).filter

/-- 始めの推定は、時刻と推定の値だけが元と異なりうる。 -/
theorem resumed_frame (s : RosFilter E C Q) : s.resumed.useControl = s.filter.useControl ∧
    s.resumed.control = s.filter.control ∧ s.resumed.initialized = s.filter.initialized ∧
      s.resumed.lastMeasurementTime = s.resumeTime := by
  unfold resumed
  cases hpop : Q.pop s.measurementQueue with
  | none =>
      have hnone : s.reversion = none := by simp [reversion, hpop]
      exact ⟨rfl, rfl, rfl, by rw [resumeTime, hnone]⟩
  | some c =>
      have hr := reverts_of_pop hpop
      exact ⟨hr.useControl, hr.control, hr.initialized, hr.last⟩

theorem mem_integrationCalls_iff (huse : s.filter.useControl = true) (now : ℤ)
    (c : FilterBase E C × Measurement V C) :
    c ∈ s.integrationCalls T now ↔
      ∃ before after, s.order now = before ++ c.2 :: after ∧
        c.1 = (s.resumed.processAll T s.handedBack.length before).controlled c.2
          (s.handedBack.length - before.length) := by
  unfold integrationCalls resumed
  cases hpop : Q.pop s.measurementQueue with
  | none => simp [order_empty hpop]
  | some d =>
      have hr := reverts_of_pop hpop
      have huse' : (s.reverted d.1).filter.useControl = true := hr.useControl.trans huse
      dsimp only
      rw [mem_calls_iff huse', hr.size_sub, hr.queue, order]

section Call

variable {before after : List (Measurement V C)}

/-- 移す回数が残っているとき、測定はともに保存された制御で処理される。 -/
theorem call_control_of_lt (huse : s.filter.useControl = true) (hlt : before.length < s.handedBack.length) :
    ((s.resumed.processAll T s.handedBack.length before).controlled m
      (s.handedBack.length - before.length)).control = m.control := by
  have huse' : (s.resumed.processAll T s.handedBack.length before).useControl = true := by
    rw [FilterBase.processAll_useControl, s.resumed_frame.1, huse]
  rw [FilterBase.controlled_control huse', if_pos (Nat.sub_pos_of_lt hlt)]

/-- 移す回数が尽きた後は、測定は処理の後に残る制御で処理される。 -/
theorem call_control_of_le (huse : s.filter.useControl = true) (horder : s.order now = before ++ m :: after)
    (hle : s.handedBack.length ≤ before.length) :
    ((s.resumed.processAll T s.handedBack.length before).controlled m
      (s.handedBack.length - before.length)).control = (s.integrateMeasurements T now).filter.control := by
  obtain ⟨huse₀, hcontrol₀, -⟩ := s.resumed_frame
  have huse' : (s.resumed.processAll T s.handedBack.length before).useControl = true := by
    rw [FilterBase.processAll_useControl, huse₀, huse]
  have hzero : ¬ 0 < s.handedBack.length - before.length := by omega
  rw [FilterBase.controlled_control huse', if_neg hzero, FilterBase.processAll_control (huse₀.trans huse), hcontrol₀,
    integrateMeasurements_control huse, horder, List.take_append_of_le_length hle]

theorem call_predicts_iff (hinit : s.filter.initialized = true) (n k : ℕ) :
    ((s.resumed.processAll T n before).controlled m k).Predicts m ↔
      s.resumeTime < m.time ∧ ∀ b ∈ before, b.time < m.time := by
  obtain ⟨-, -, hinit₀, hlast₀⟩ := s.resumed_frame
  have hresumed : s.resumed.initialized = true := hinit₀.trans hinit
  rw [FilterBase.Predicts, FilterBase.controlled_initialized, FilterBase.controlled_lastMeasurementTime,
    FilterBase.processAll_initialized hresumed, FilterBase.processAll_last_lt_iff hresumed, hlast₀]
  exact and_iff_right rfl

end Call

theorem integrate_control (s : RosFilter E C Q) (rest : Q.Carrier) (m : Measurement V C) (restored : ℕ) :
    (s.integrate T rest m restored).control = s.control := by
  unfold integrate store
  dsimp only
  split <;> rfl

/-- `integrateMeasurements` は、受け取った制御を変えない。 -/
theorem integrateMeasurements_latest (s : RosFilter E C Q) (now : ℤ) :
    (s.integrateMeasurements T now).control = s.control := by
  refine integrateMeasurements_frame (P := fun t => t.control = s.control) (fun t ht => ht) (fun _ => rfl)
    fun m rest hpop => ?_
  refine processQueue_inv (P := fun t => t.control = s.control) T (fun t m' rest' restored ht _ => ?_) now _ _
    (reverts_of_pop hpop).latest
  rw [integrate_control, ht]

theorem integrateMeasurements_useControl (huse : s.filter.useControl = true) (now : ℤ) :
    (s.integrateMeasurements T now).filter.useControl = true := by
  refine integrateMeasurements_frame (P := fun t => t.filter.useControl = true) (fun t ht => ht) (fun _ => huse)
    fun m rest hpop => ?_
  have huse' := (reverts_of_pop hpop).useControl.trans huse
  rw [integrated, processQueue_filter huse', FilterBase.processAll_useControl, huse']

/-- 推定の始まっていない状態は、始まっていない状態で測定を処理せずに残ったものである。 -/
theorem integrateMeasurements_not_initialized (hhistory : s.filter.initialized = false → s.measurementHistory = [])
    (now : ℤ) :
    (s.integrateMeasurements T now).filter.initialized = false →
      s.filter.initialized = false ∧ (s.integrateMeasurements T now).measurementHistory = [] := by
  refine integrateMeasurements_frame
    (P := fun t => t.filter.initialized = false → s.filter.initialized = false ∧ t.measurementHistory = [])
    (fun t ht => ht) (fun _ hfalse => ⟨hfalse, hhistory hfalse⟩) fun m rest hpop => ?_
  have hr := reverts_of_pop hpop
  refine processQueue_inv
    (P := fun t => t.filter.initialized = false → s.filter.initialized = false ∧ t.measurementHistory = [])
    T (fun t m' rest' restored _ _ hfalse => ?_) now _ _ (fun hfalse => ?_)
  · rw [integrate_filter, processMeasurement_initialized] at hfalse
    cases hfalse
  · have hinit : s.filter.initialized = false := hr.initialized.symm.trans hfalse
    exact ⟨hinit, hr.history (hhistory hinit)⟩

end RosFilter

/-! ## 実行 -/

open RosFilter

/-- `restored` は、これまでに `revertTo` が待ち行列に戻した測定である。 -/
structure Marked (E C : Type) {V : Type} (Q : PriorityQueue (Measurement V C) Measurement.time) where
  node : RosFilter E C Q
  restored : List (Measurement V C)

namespace Marked

variable {s t : Marked E C Q} {now : ℤ}

/-- 次の `integrateMeasurements` のときに、一度は処理されている測定。 -/
def reprocessed (s : Marked E C Q) : List (Measurement V C) := s.restored ++ s.node.handedBack

def step (T : Estimator E V C) (s : Marked E C Q) (e : Event V C) : Option (Marked E C Q) :=
  (s.node.step T e).map fun t =>
    { node := t
      restored :=
        match e with
        | .integrateMeasurements _ => s.reprocessed
        | _ => s.restored }

/-- `integrateMeasurements` の後に推定の持つ制御は最後に受け取ったものであり、再び処理する測定の予測には、その測定とともに
保存された制御が使われる。 -/
structure ControlKept (T : Estimator E V C) (s : Marked E C Q) (now : ℤ) : Prop where
  latest : (s.node.integrateMeasurements T now).filter.control = (s.node.integrateMeasurements T now).control
  stored : ∀ c ∈ s.node.integrationCalls T now, c.2 ∈ s.reprocessed → c.1.Predicts c.2 → c.1.control = c.2.control

/-- 戻した測定の個数だけ先頭から数えたところの測定は、最後に受け取った制御とともに保存されている。それより後で予測を伴って
再び処理される測定も同じである。 -/
structure ControlSpent (s : Marked E C Q) (now : ℤ) : Prop where
  last : ∀ m ∈ ((s.node.order now).take s.node.handedBack.length).getLast?, m.control = s.node.control
  later : ∀ before m after, s.node.order now = before ++ m :: after → s.node.handedBack.length ≤ before.length →
    m ∈ s.reprocessed → s.node.resumeTime < m.time → (∀ b ∈ before, b.time < m.time) → m.control = s.node.control

/-- 推定は最後に受け取った制御を持つ。まだ始まっていなければ、処理した測定はない。 -/
structure Consistent (s : Marked E C Q) : Prop where
  useControl : s.node.filter.useControl = true
  control : s.node.filter.control = s.node.control
  history : s.node.filter.initialized = false → s.node.measurementHistory = []
  restored : s.node.filter.initialized = false → s.restored = []

theorem Consistent.initialized_of_mem (hs : s.Consistent) {m : Measurement V C} (hm : m ∈ s.reprocessed) :
    s.node.filter.initialized = true := by
  by_contra hinit
  have hfalse : s.node.filter.initialized = false := Bool.eq_false_iff.mpr hinit
  rw [reprocessed, hs.restored hfalse, handedBack_of_history (hs.history hfalse)] at hm
  exact List.not_mem_nil hm

theorem Consistent.latest_iff (hs : s.Consistent) :
    (s.node.integrateMeasurements T now).filter.control = (s.node.integrateMeasurements T now).control ↔
      ∀ m ∈ ((s.node.order now).take s.node.handedBack.length).getLast?, m.control = s.node.control := by
  rw [integrateMeasurements_control hs.useControl, integrateMeasurements_latest, hs.control]
  cases ((s.node.order now).take s.node.handedBack.length).getLast? with
  | none => simp
  | some m => simp

/-- 一回の `integrateMeasurements` について、制御が正しく使われることは条件と同値である。 -/
theorem Consistent.controlKept_iff (hs : s.Consistent) : s.ControlKept T now ↔ s.ControlSpent now := by
  have hcall : ∀ {before m after}, s.node.order now = before ++ m :: after →
      ((s.node.resumed.processAll T s.node.handedBack.length before).controlled m
        (s.node.handedBack.length - before.length), m) ∈ s.node.integrationCalls T now := fun horder =>
    (mem_integrationCalls_iff hs.useControl now _).mpr ⟨_, _, horder, rfl⟩
  constructor
  · intro h
    refine ⟨hs.latest_iff.mp h.latest, fun before m after horder hle hm htime hbefore => ?_⟩
    have hpredicts := (call_predicts_iff (T := T) (hs.initialized_of_mem hm) s.node.handedBack.length
      (s.node.handedBack.length - before.length)).mpr ⟨htime, hbefore⟩
    have hstored := h.stored _ (hcall horder) hm hpredicts
    rw [call_control_of_le hs.useControl horder hle, h.latest, integrateMeasurements_latest] at hstored
    exact hstored.symm
  · intro h
    have hlatest := (hs.latest_iff (T := T)).mpr h.last
    refine ⟨hlatest, fun c hc hm hpredicts => ?_⟩
    obtain ⟨before, after, horder, hfilter⟩ := (mem_integrationCalls_iff hs.useControl now c).mp hc
    rw [hfilter] at hpredicts ⊢
    rcases lt_or_ge before.length s.node.handedBack.length with hlt | hle
    · exact call_control_of_lt hs.useControl hlt
    · obtain ⟨htime, hbefore⟩ := (call_predicts_iff (hs.initialized_of_mem hm) _ _).mp hpredicts
      rw [call_control_of_le hs.useControl horder hle, hlatest, integrateMeasurements_latest,
        h.later before c.2 after horder hle hm htime hbefore]

theorem Consistent.integrateMeasurements (hs : s.Consistent) (h : s.ControlSpent now) :
    Consistent { node := s.node.integrateMeasurements T now, restored := s.reprocessed } where
  useControl := integrateMeasurements_useControl hs.useControl now
  control := (hs.latest_iff).mpr h.last
  history := fun hfalse => (integrateMeasurements_not_initialized hs.history now hfalse).2
  restored := by
    intro hfalse
    have hinit := (integrateMeasurements_not_initialized hs.history now hfalse).1
    rw [reprocessed, hs.restored hinit, handedBack_of_history (hs.history hinit)]
    rfl

/-- `integrateMeasurements` のときの性質。 -/
def OnIntegrate (P : Marked E C Q → ℤ → Prop) (s : Marked E C Q) : Event V C → Prop
  | .integrateMeasurements now => P s now
  | _ => True

theorem Consistent.step {e : Event V C} (hs : s.Consistent) (hstep : s.step T e = some t)
    (h : OnIntegrate ControlSpent s e) : t.Consistent := by
  cases e with
  | enqueueMeasurement value time =>
      cases hstep
      exact ⟨hs.useControl, hs.control, hs.history, hs.restored⟩
  | integrateMeasurements now =>
      cases hstep
      exact hs.integrateMeasurements h
  | clearExpiredHistory cutoff =>
      cases hstep
      refine ⟨hs.useControl, hs.control, fun hfalse => ?_, hs.restored⟩
      show List.dropWhile _ s.node.measurementHistory = []
      rw [hs.history hfalse, List.dropWhile_nil]
  | controlStampedCallback control time =>
      simp only [Marked.step, RosFilter.step, hs.useControl, if_true, Option.map_some, Option.some.injEq] at hstep
      subst hstep
      exact ⟨hs.useControl, rfl, hs.history, hs.restored⟩

section Main

variable (T) (predictToCurrentTime : Bool) (sensorTimeout : ℤ) (estimate : E) (control : C)

/-- `smooth_lagged_data` と `use_control` を使う、まだ測定のない推定。 -/
def start : Marked E C Q where
  node := RosFilter.start true predictToCurrentTime true sensorTimeout estimate control
  restored := []

theorem consistent_start : (start (Q := Q) predictToCurrentTime sensorTimeout estimate control).Consistent where
  useControl := rfl
  control := rfl
  history := fun _ => rfl
  restored := fun _ => rfl

/-- どの `integrateMeasurements` でも制御が正しく使われるのは、どの `integrateMeasurements` も条件を満たすとき、かつ
そのときに限る。 -/
theorem controlKept_iff_spent (es : List (Event V C)) :
    Always (step T) (fun s e _ => OnIntegrate (ControlKept T) s e)
        (start (Q := Q) predictToCurrentTime sensorTimeout estimate control) es ↔
      Always (step T) (fun s e _ => OnIntegrate ControlSpent s e)
        (start (Q := Q) predictToCurrentTime sensorTimeout estimate control) es := by
  refine Always.iff_of_inv (fun s e t hs hstep hc => Consistent.step hs hstep hc) (fun s e t hs _ => ?_)
    (consistent_start predictToCurrentTime sensorTimeout estimate control)
  cases e with
  | integrateMeasurements now => exact hs.controlKept_iff
  | _ => exact Iff.rfl

end Main

/-! ## 遅れた測定の例 -/

/-- 制御の速度で進む推定。 -/
def driven : Estimator ℤ ℤ ℤ where
  predict := fun x control _ delta => x + (control.map Prod.fst).getD 0 * delta
  correct := fun x _ => x
  firstMeasurement := fun x _ => x

abbrev idleDriven : Marked ℤ ℤ (PriorityQueue.sorted (α := Measurement ℤ ℤ) Measurement.time) :=
  start false 100 0 0

/-- 時刻 5 と 10 の測定は制御 1、時刻 20 の測定は制御 2 とともに届き、制御 3 の後に時刻 7 の測定が届く。 -/
def lateControl : List (Event ℤ ℤ) :=
  [.controlStampedCallback 1 1, .enqueueMeasurement 0 5, .enqueueMeasurement 0 10, .controlStampedCallback 2 12,
    .enqueueMeasurement 0 20, .integrateMeasurements 25, .controlStampedCallback 3 26, .enqueueMeasurement 0 7]

-- 戻した二つの測定の回数は、時刻 7 と 10 の測定に使われる。時刻 20 の測定の予測に制御 1 が使われ、それが後にも残る。
theorem controlKept_late :
    ¬ Always (step driven) (fun s e _ => OnIntegrate (ControlKept driven) s e) idleDriven
        (lateControl ++ [.integrateMeasurements 30]) ∧
      ∃ s, runs (step driven) idleDriven lateControl = some s ∧
        (s.node.integrateMeasurements driven 30).filter.control = (1, 1) ∧
        (s.node.integrateMeasurements driven 30).control = (3, 26) ∧
        ∃ c ∈ s.node.integrationCalls driven 30, c.2 ∈ s.reprocessed ∧ c.1.Predicts c.2 ∧ c.1.control = (1, 1) ∧
          c.2.control = (2, 12) := by
  refine ⟨fun h => ?_, _, rfl, rfl, rfl, ?_⟩
  · have hlatest := (h.after rfl _ rfl).1.latest
    revert hlatest
    decide
  · decide

end Marked

end Ranger.Localization.Lagged
