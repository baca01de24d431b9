import Ranger.Lib.Run
import Ranger.Localization.RosFilter

/-!
# 推定の方式が保つ性質

推定の方式の操作が保つ性質は、時計の戻らない `RosFilter` の実行の間、遅れた測定による巻き戻しがあっても、いまの推定と
履歴に残るすべての推定で成り立つ。
-/

namespace Ranger.Localization.Lagged
open Ranger.Lib

variable {E V C : Type} {T : Estimator E V C} {allowed : V → Prop} {initial : E} {good : E → Prop}

/-- `allowed` の測定による補正と、前に進む予測が `good` を保つ。 -/
structure Keeps (T : Estimator E V C) (allowed : V → Prop) (initial : E) (good : E → Prop) : Prop where
  first : ∀ m, allowed m.value → good (T.firstMeasurement initial m)
  correct : ∀ e m, good e → allowed m.value → good (T.correct e m)
  predict : ∀ e control referenceTime delta, 0 ≤ delta → good e → good (T.predict e control referenceTime delta)

section Filter

variable {f : FilterBase E C} {m : Measurement V C} {now : ℤ}

structure FilterBase.Kept (initial : E) (good : E → Prop) (now : ℤ) (f : FilterBase E C) : Prop where
  fresh : f.initialized = false → f.estimate = initial
  good : f.initialized = true → good f.estimate
  time : f.initialized = true → f.lastMeasurementTime ≤ now

theorem FilterBase.Kept.processMeasurement (hT : Keeps T allowed initial good) (hf : f.Kept initial good now)
    (hm : allowed m.value) (htime : m.time ≤ now) :
    (f.processMeasurement T m).initialized = true ∧ (f.processMeasurement T m).Kept initial good now := by
  cases hinit : f.initialized with
  | false =>
      have hfirst : f.processMeasurement T m = { f with
          initialized := true, estimate := T.firstMeasurement f.estimate m, lastMeasurementTime := m.time } := by
        simp [FilterBase.processMeasurement, hinit]
      rw [hfirst, hf.fresh hinit]
      exact ⟨rfl, ⟨fun h => (by cases h), fun _ => hT.first m hm, fun _ => htime⟩⟩
  | true =>
      have hgood := hf.good hinit
      have hlast := hf.time hinit
      simp only [FilterBase.processMeasurement, hinit, if_true]
      split_ifs with hforward hlater hlater
      · exact ⟨hinit, ⟨fun h => by simp [FilterBase.predict, hinit] at h,
          fun _ => hT.correct _ m (hT.predict _ _ _ _ hforward.le hgood) hm, fun _ => htime⟩⟩
      · omega
      · exact ⟨hinit, ⟨fun h => by simp [hinit] at h, fun _ => hT.correct _ m hgood hm, fun _ => htime⟩⟩
      · exact ⟨hinit, ⟨fun h => by simp [hinit] at h, fun _ => hT.correct _ m hgood hm, fun _ => hlast⟩⟩

end Filter

namespace RosFilter

variable {Q : PriorityQueue (Measurement V C) Measurement.time} {s t : RosFilter E C Q} {now time : ℤ}

/-- 時刻 `now` までの推定は、履歴も含めて `good` である。 -/
structure Kept (allowed : V → Prop) (initial : E) (good : E → Prop) (now : ℤ) (s : RosFilter E C Q) : Prop where
  filter : s.filter.Kept initial good now
  history : ∀ h ∈ s.filterStateHistory, s.filter.initialized = true ∧ good h.estimate ∧ h.lastMeasurementTime ≤ now
  queue : ∀ m ∈ Q.elems s.measurementQueue, allowed m.value
  measured : ∀ m ∈ s.measurementHistory, allowed m.value

theorem Kept.later {later : ℤ} (hs : Kept allowed initial good now s) (hle : now ≤ later) : Kept allowed initial good later s where
  filter := ⟨hs.filter.fresh, hs.filter.good, fun h => (hs.filter.time h).trans hle⟩
  history := fun h hh => ⟨(hs.history h hh).1, (hs.history h hh).2.1, (hs.history h hh).2.2.trans hle⟩
  queue := hs.queue
  measured := hs.measured

theorem Kept.setFilter {f : FilterBase E C} (hs : Kept allowed initial good now s) (hf : f.Kept initial good now)
    (hinit : s.filter.initialized = true → f.initialized = true) :
    Kept allowed initial good now { s with filter := f } where
  filter := hf
  history := fun h hh => ⟨hinit (hs.history h hh).1, (hs.history h hh).2⟩
  queue := hs.queue
  measured := hs.measured

theorem Kept.store {m : Measurement V C} (hs : Kept allowed initial good now s) (hinit : s.filter.initialized = true)
    (hm : allowed m.value) : Kept allowed initial good now (s.store m) := by
  have hsaved : ∀ h ∈ s.filterStateHistory ++ [saveFilterState s.filter],
      s.filter.initialized = true ∧ good h.estimate ∧ h.lastMeasurementTime ≤ now := by
    intro h hh
    rcases List.mem_append.mp hh with hh | hh
    · exact hs.history h hh
    · rw [List.mem_singleton.mp hh]
      exact ⟨hinit, hs.filter.good hinit, hs.filter.time hinit⟩
  have hmeasured : ∀ m' ∈ s.measurementHistory ++ [m], allowed m'.value := by
    intro m' hm'
    rcases List.mem_append.mp hm' with hm' | hm'
    · exact hs.measured m' hm'
    · rw [List.mem_singleton.mp hm']
      exact hm
  unfold RosFilter.store
  split_ifs with hsmooth
  · refine ⟨hs.filter, ?_, hs.queue, hmeasured⟩
    dsimp only
    split
    · split_ifs
      · exact hs.history
      · exact hsaved
    · exact hsaved
  · exact hs

theorem Kept.integrate (hT : Keeps T allowed initial good) {m : Measurement V C} {rest : Q.Carrier}
    (hs : Kept allowed initial good now s) (hpop : Q.pop s.measurementQueue = some (m, rest)) (htime : m.time ≤ now)
    (restored : ℕ) : Kept allowed initial good now (s.integrate T rest m restored) := by
  have helems := Q.elems_of_pop hpop
  have hm : allowed m.value := hs.queue m (by simp [helems])
  unfold RosFilter.integrate
  dsimp only
  generalize hcontrolled : (if s.filter.useControl && decide (0 < restored) then _ else _) = controlled
  have hcontrolled' : controlled.Kept initial good now ∧ controlled.initialized = s.filter.initialized := by
    rw [← hcontrolled]
    split_ifs
    · exact ⟨⟨hs.filter.fresh, hs.filter.good, hs.filter.time⟩, rfl⟩
    · exact ⟨hs.filter, rfl⟩
  obtain ⟨hinit, hkept⟩ := hcontrolled'.1.processMeasurement hT hm htime
  refine Kept.store ⟨hkept, fun h hh => ⟨hinit, (hs.history h hh).2⟩, fun m' hm' => ?_, hs.measured⟩ hinit hm
  exact hs.queue m' (by rw [helems]; exact Multiset.mem_cons_of_mem hm')

theorem Kept.processQueue (hT : Keeps T allowed initial good) (fuel restored : ℕ) (hs : Kept allowed initial good now s) :
    Kept allowed initial good now (s.processQueue T now fuel restored) := by
  induction fuel generalizing s restored with
  | zero => exact hs
  | succ fuel ih =>
      rw [RosFilter.processQueue]
      cases hpop : Q.pop s.measurementQueue with
      | none => exact hs
      | some c =>
          dsimp only
          split
          · exact hs
          · rename_i hfuture
            exact ih _ (hs.integrate hT hpop (not_lt.mp hfuture) restored)

theorem mem_of_lastHistoryState {h : FilterState E C} (hlast : s.lastHistoryState time = some h) :
    h ∈ s.filterStateHistory := by
  unfold lastHistoryState at hlast
  split at hlast
  · cases hlast
    exact (List.rdropWhile_prefix _ _).subset (List.mem_of_getLast? ‹_›)
  · exact List.mem_of_head? hlast

/-- 巻き戻した推定も、履歴に残っていたものである。 -/
theorem Kept.revertTo (hs : Kept allowed initial good now s) (time : ℤ) :
    Kept allowed initial good now (s.revertTo time) := by
  have hkept : ∀ h ∈ s.filterStateHistory.rdropWhile (fun h => decide (time < h.lastMeasurementTime)),
      s.filter.initialized = true ∧ good h.estimate ∧ h.lastMeasurementTime ≤ now :=
    fun h hh => hs.history h ((List.rdropWhile_prefix _ _).subset hh)
  unfold RosFilter.revertTo
  dsimp only
  cases hlast : s.lastHistoryState time with
  | none => exact ⟨hs.filter, hkept, hs.queue, hs.measured⟩
  | some h =>
      obtain ⟨hinit, hgood, hbefore⟩ := hs.history h (mem_of_lastHistoryState hlast)
      refine ⟨⟨fun hnot => by simp [hinit] at hnot, fun _ => hgood, fun _ => hbefore⟩, hkept, fun m hm => ?_, fun m hm => ?_⟩
      · rw [PriorityQueue.elems_pushAll, Multiset.mem_add] at hm
        rcases hm with hm | hm
        · have hmem := List.mem_reverse.mp (List.mem_of_mem_filter (Multiset.mem_coe.mp hm))
          exact hs.measured m ((List.rtakeWhile_suffix _ _).subset hmem)
        · exact hs.queue m hm
      · exact hs.measured m ((List.rdropWhile_prefix _ _).subset hm)

theorem Kept.predictTo (hT : Keeps T allowed initial good) (hs : Kept allowed initial good now s)
    (hinit : s.filter.initialized = true) : Kept allowed initial good now (s.predictTo T now) := by
  refine hs.setFilter ⟨fun h => ?_, fun _ => ?_, fun _ => ?_⟩ fun _ => hinit
  · simp [FilterBase.predict, hinit] at h
  · have hlast := hs.filter.time hinit
    exact hT.predict _ _ _ _ (by omega) (hs.filter.good hinit)
  · show s.filter.lastMeasurementTime + (now - s.filter.lastMeasurementTime) ≤ now
    omega

theorem Kept.integrateMeasurements (hT : Keeps T allowed initial good) (hs : Kept allowed initial good now s) :
    Kept allowed initial good now (s.integrateMeasurements T now) := by
  unfold RosFilter.integrateMeasurements
  cases hpop : Q.pop s.measurementQueue with
  | none =>
      dsimp only
      split_ifs with hpredict
      · rw [Bool.and_eq_true] at hpredict
        exact hs.predictTo hT hpredict.1
      · exact hs
  | some c =>
      dsimp only
      generalize hreverted : (if s.lagged c.1 then s.revertTo (c.1.time - 1) else s) = reverted
      have hkept : Kept allowed initial good now reverted := by
        rw [← hreverted]
        split_ifs
        · exact hs.revertTo _
        · exact hs
      have hintegrated := hkept.processQueue hT (Q.size reverted.measurementQueue)
        (Q.size reverted.measurementQueue - Q.size s.measurementQueue)
      split_ifs with hpredict
      · rw [Bool.and_eq_true] at hpredict
        exact hintegrated.predictTo hT hpredict.1
      · exact hintegrated

/-! ## 実行 -/

/-- 事象の時計の時刻。 -/
def clock : Event V C → Option ℤ
  | .integrateMeasurements currentTime => some currentTime
  | _ => none

/-- 届く測定の値。 -/
def arrival : Event V C → Option V
  | .enqueueMeasurement value _ => some value
  | _ => none

theorem Kept.step (hT : Keeps T allowed initial good) {e : Event V C} (hs : Kept allowed initial good now s)
    (hstep : RosFilter.step T s e = some t) (hclock : ∀ time ∈ clock e, now ≤ time) (harrival : ∀ v ∈ arrival e, allowed v) :
    Kept allowed initial good ((clock e).getD now) t := by
  cases e with
  | enqueueMeasurement value time =>
      cases hstep
      refine ⟨hs.filter, hs.history, fun m hm => ?_, hs.measured⟩
      rcases Multiset.mem_cons.mp ((Q.elems_push _ _) ▸ hm) with rfl | hm
      · exact harrival value rfl
      · exact hs.queue m hm
  | integrateMeasurements currentTime =>
      cases hstep
      exact (hs.later (hclock currentTime rfl)).integrateMeasurements hT
  | clearExpiredHistory cutoffTime =>
      cases hstep
      exact ⟨hs.filter, fun h hh => hs.history h ((List.dropWhile_sublist _).subset hh), hs.queue,
        fun m hm => hs.measured m ((List.dropWhile_sublist _).subset hm)⟩
  | controlStampedCallback control time =>
      simp only [RosFilter.step] at hstep
      split_ifs at hstep
      cases hstep
      exact ⟨⟨hs.filter.fresh, hs.filter.good, hs.filter.time⟩, hs.history, hs.queue, hs.measured⟩

theorem Kept.runs (hT : Keeps T allowed initial good) {es : List (Event V C)} (hs : Kept allowed initial good now s)
    (hrun : Ranger.Lib.runs (RosFilter.step T) s es = some t) (hclock : (now :: es.filterMap clock).Pairwise (· ≤ ·))
    (harrival : ∀ v ∈ es.filterMap arrival, allowed v) : ∃ later, Kept allowed initial good later t := by
  induction es generalizing s now with
  | nil =>
      cases hrun
      exact ⟨now, hs⟩
  | cons e es ih =>
      obtain ⟨u, hstep, hrest⟩ := runs_cons_some hrun
      have hforward : ∀ time ∈ clock e, now ≤ time := by
        intro time htime
        exact List.rel_of_pairwise_cons hclock (List.mem_filterMap.mpr ⟨e, List.mem_cons_self, htime⟩)
      have hvalue : ∀ v ∈ arrival e, allowed v :=
        fun v hv => harrival v (List.mem_filterMap.mpr ⟨e, List.mem_cons_self, hv⟩)
      refine ih (hs.step hT hstep hforward hvalue) hrest ?_ fun v hv => ?_
      · cases he : clock e with
        | none => rwa [List.filterMap_cons_none he] at hclock
        | some time =>
            rw [List.filterMap_cons_some he] at hclock
            exact hclock.of_cons
      · obtain ⟨d, hd, heq⟩ := List.mem_filterMap.mp hv
        exact harrival v (List.mem_filterMap.mpr ⟨d, List.mem_cons_of_mem e hd, heq⟩)

/-- 時計の戻らない実行では、いまの推定は初めの推定か `good` であり、履歴の推定はすべて `good` である。 -/
theorem start_kept (hT : Keeps T allowed initial good) (smoothLaggedData predictToCurrentTime useControl : Bool)
    (sensorTimeout : ℤ) (control : C) {es : List (Event V C)}
    (hrun : Ranger.Lib.runs (RosFilter.step T)
      (start (Q := Q) smoothLaggedData predictToCurrentTime useControl sensorTimeout initial control) es = some t)
    (hclock : (es.filterMap clock).Pairwise (· ≤ ·)) (harrival : ∀ v ∈ es.filterMap arrival, allowed v) :
    (t.filter.estimate = initial ∨ good t.filter.estimate) ∧ ∀ h ∈ t.filterStateHistory, good h.estimate := by
  have hfirst : ((es.filterMap clock).headD 0 :: es.filterMap clock).Pairwise (· ≤ ·) := by
    refine List.Pairwise.cons (fun time htime => ?_) hclock
    cases hes : es.filterMap clock with
    | nil =>
        rw [hes] at htime
        cases htime
    | cons first rest =>
        rw [hes] at htime hclock
        rcases List.mem_cons.mp htime with rfl | hmem
        · exact le_refl _
        · exact List.rel_of_pairwise_cons hclock hmem
  have hstart : Kept allowed initial good ((es.filterMap clock).headD 0)
      (start (Q := Q) smoothLaggedData predictToCurrentTime useControl sensorTimeout initial control) := by
    refine ⟨⟨fun _ => rfl, fun h => (by cases h), fun h => (by cases h)⟩, fun h hh => absurd hh List.not_mem_nil,
      fun m hm => ?_, fun m hm => absurd hm List.not_mem_nil⟩
    have hempty : m ∈ Q.elems Q.empty := hm
    rw [Q.elems_empty] at hempty
    exact absurd hempty (Multiset.notMem_zero m)
  obtain ⟨later, hkept⟩ := hstart.runs hT hrun hfirst harrival
  refine ⟨?_, fun h hh => (hkept.history h hh).2.1⟩
  cases hinit : t.filter.initialized with
  | false => exact Or.inl (hkept.filter.fresh hinit)
  | true => exact Or.inr (hkept.filter.good hinit)

end RosFilter

end Ranger.Localization.Lagged
