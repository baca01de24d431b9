import Mathlib.Data.List.Pairwise
import Mathlib.Data.Multiset.UnionInter
import Ranger.Lib.Run
import Ranger.Localization.RosFilter

/-!
# 遅れた測定を含む推定と、時刻順の推定との一致

推定は、履歴から消えた測定と履歴の測定を時刻順に一度ずつ処理した結果であり、推定の履歴は、履歴の測定を一つずつ
処理した途中の推定である。この不変条件を、測定の到着、履歴の巻き戻し、一つの測定の処理のそれぞれが保つ。
-/

namespace Ranger.Localization.Lagged
open Ranger.Lib

variable {E V C : Type} {T : Estimator E V C}

/-! ## 測定を順に処理した推定 -/

def replay (T : Estimator E V C) (f : FilterBase E C) (ms : List (Measurement V C)) : FilterBase E C :=
  ms.foldl (FilterBase.processMeasurement T) f

/-- 測定を順に処理する途中で保存される推定。 -/
def snapshots (T : Estimator E V C) (f : FilterBase E C) : List (Measurement V C) → List (FilterState E C)
  | [] => []
  | m :: ms => saveFilterState (f.processMeasurement T m) :: snapshots T (f.processMeasurement T m) ms

/-- 測定が時刻の真の昇順に並ぶ。 -/
def Ascending (ms : List (Measurement V C)) : Prop := ms.Pairwise fun a b => a.time < b.time

/-- 推定の最後の測定は、並びのどの測定よりも前である。 -/
def Precedes (f : FilterBase E C) (ms : List (Measurement V C)) : Prop :=
  f.initialized = true → ∀ m ∈ ms, f.lastMeasurementTime < m.time

section Replay

variable {f : FilterBase E C} {m : Measurement V C} {ms ns : List (Measurement V C)}

theorem processMeasurement_initialized (f : FilterBase E C) (m : Measurement V C) :
    (f.processMeasurement T m).initialized = true := by
  unfold FilterBase.processMeasurement
  split
  · rename_i h
    dsimp only
    split
    · exact h
    · exact h
  · rfl

theorem processMeasurement_control (f : FilterBase E C) (m : Measurement V C) :
    (f.processMeasurement T m).useControl = f.useControl ∧
      (f.processMeasurement T m).latestControl = f.latestControl ∧
      (f.processMeasurement T m).latestControlTime = f.latestControlTime := by
  unfold FilterBase.processMeasurement
  dsimp only
  split
  · split
    · exact ⟨rfl, rfl, rfl⟩
    · exact ⟨rfl, rfl, rfl⟩
  · exact ⟨rfl, rfl, rfl⟩

theorem processMeasurement_lastMeasurementTime (h : Precedes f (m :: ms)) :
    (f.processMeasurement T m).lastMeasurementTime = m.time := by
  unfold FilterBase.processMeasurement
  split
  · rename_i hinit
    have hlt := h hinit m List.mem_cons_self
    have hnonneg : 0 ≤ m.time - f.lastMeasurementTime := by omega
    simp only [hnonneg, if_true]
  · rfl

theorem Precedes.process (h : Precedes f (m :: ms)) (hms : Ascending (m :: ms)) :
    Precedes (f.processMeasurement T m) ms := by
  intro _ m' hm'
  rw [processMeasurement_lastMeasurementTime h]
  exact List.rel_of_pairwise_cons hms hm'

@[simp] theorem replay_nil (f : FilterBase E C) : replay T f [] = f := rfl

@[simp] theorem replay_cons (f : FilterBase E C) (m : Measurement V C) (ms : List (Measurement V C)) :
    replay T f (m :: ms) = replay T (f.processMeasurement T m) ms := rfl

theorem replay_append (f : FilterBase E C) (ms ns : List (Measurement V C)) :
    replay T f (ms ++ ns) = replay T (replay T f ms) ns := List.foldl_append

theorem replay_initialized (f : FilterBase E C) (hms : ms ≠ []) : (replay T f ms).initialized = true := by
  rw [← List.dropLast_append_getLast hms, replay_append]
  exact processMeasurement_initialized _ _

theorem replay_control (f : FilterBase E C) (ms : List (Measurement V C)) :
    (replay T f ms).useControl = f.useControl ∧ (replay T f ms).latestControl = f.latestControl ∧
      (replay T f ms).latestControlTime = f.latestControlTime := by
  induction ms generalizing f with
  | nil => exact ⟨rfl, rfl, rfl⟩
  | cons m ms ih =>
      obtain ⟨huse, hcontrol, htime⟩ := ih (f.processMeasurement T m)
      obtain ⟨huse', hcontrol', htime'⟩ := processMeasurement_control (T := T) f m
      exact ⟨huse.trans huse', hcontrol.trans hcontrol', htime.trans htime'⟩

theorem Precedes.replay (h : Precedes f (ms ++ ns)) (hms : Ascending (ms ++ ns)) :
    Precedes (replay T f ms) ns := by
  induction ms generalizing f with
  | nil => exact h
  | cons m ms ih => exact ih (h.process hms) hms.of_cons

/-- 時刻順に処理した推定の最後の測定の時刻は、最後に処理した測定の時刻である。 -/
theorem replay_concat_lastMeasurementTime (h : Precedes f (ms ++ [m])) (hms : Ascending (ms ++ [m])) :
    (replay T f (ms ++ [m])).lastMeasurementTime = m.time := by
  rw [replay_append]
  exact processMeasurement_lastMeasurementTime (h.replay hms)

end Replay

/-! ## 途中の推定の並び -/

section Snapshots

variable {f : FilterBase E C} {ms : List (Measurement V C)}

theorem snapshots_append (f : FilterBase E C) (ms ns : List (Measurement V C)) :
    snapshots T f (ms ++ ns) = snapshots T f ms ++ snapshots T (replay T f ms) ns := by
  induction ms generalizing f with
  | nil => rfl
  | cons m ms ih => rw [List.cons_append, snapshots, ih, snapshots, List.cons_append, replay_cons]

theorem snapshots_concat (f : FilterBase E C) (ms : List (Measurement V C)) (m : Measurement V C) :
    snapshots T f (ms ++ [m]) = snapshots T f ms ++ [saveFilterState (replay T f (ms ++ [m]))] := by
  rw [snapshots_append, replay_append]
  rfl

/-- 前から落とすと、落とした測定だけ処理した推定から始まる。 -/
theorem snapshots_dropWhile (h : Precedes f ms) (hms : Ascending ms) (cutoff : ℤ) :
    (snapshots T f ms).dropWhile (fun s => s.lastMeasurementTime < cutoff) =
      snapshots T (replay T f (ms.takeWhile fun m => m.time < cutoff)) (ms.dropWhile fun m => m.time < cutoff) := by
  induction ms generalizing f with
  | nil => rfl
  | cons m ms ih =>
      have hlast : (saveFilterState (f.processMeasurement T m)).lastMeasurementTime = m.time :=
        processMeasurement_lastMeasurementTime h
      rw [snapshots, List.dropWhile_cons, List.dropWhile_cons, List.takeWhile_cons, hlast]
      by_cases hcut : m.time < cutoff
      · simp only [hcut, decide_true, if_true, replay_cons]
        exact ih (h.process hms) hms.of_cons
      · simp only [hcut, decide_false, Bool.false_eq_true, if_false, replay_nil, snapshots]

theorem snapshots_rdropWhile (h : Precedes f ms) (hms : Ascending ms) (time : ℤ) :
    (snapshots T f ms).rdropWhile (fun s => time < s.lastMeasurementTime) =
      snapshots T f (ms.rdropWhile fun m => time < m.time) := by
  induction ms using List.reverseRecOn with
  | nil => simp [snapshots]
  | append_singleton ms m ih =>
      have hlast : (saveFilterState (replay T f (ms ++ [m]))).lastMeasurementTime = m.time :=
        replay_concat_lastMeasurementTime h hms
      rw [snapshots_concat, List.rdropWhile_concat, List.rdropWhile_concat, hlast]
      by_cases htime : time < m.time
      · simp only [htime, decide_true, if_true]
        exact ih (fun hinit m' hm' => h hinit m' (List.mem_append_left _ hm')) (List.pairwise_append.mp hms).1
      · simp only [htime, decide_false, Bool.false_eq_true, if_false, snapshots_concat]

end Snapshots

namespace RosFilter

variable {Q : PriorityQueue (Measurement V C) Measurement.time}

/-! ## 不変条件 -/

/-- `f₀` から `dropped` と履歴の測定を時刻順に処理した推定を持ち、残りの測定を待ち行列に持つ。 -/
structure InOrder (T : Estimator E V C) (f₀ : FilterBase E C) (dropped : List (Measurement V C))
    (s : RosFilter E C Q) : Prop where
  smooth : s.smoothLaggedData = true
  predict : s.predictToCurrentTime = false
  distinct : (s.allocated.map Measurement.time).Nodup
  accounted : (↑(dropped ++ s.measurementHistory) : Multiset (Measurement V C)) + Q.elems s.measurementQueue =
    ↑s.allocated
  ascending : Ascending (dropped ++ s.measurementHistory)
  filter : s.filter = replay T f₀ (dropped ++ s.measurementHistory)
  states : s.filterStateHistory = snapshots T (replay T f₀ dropped) s.measurementHistory

/-- 待ち行列の測定は、処理した測定のどれよりも後である。 -/
def Ahead (dropped : List (Measurement V C)) (s : RosFilter E C Q) : Prop :=
  ∀ a ∈ dropped ++ s.measurementHistory, ∀ b ∈ Q.elems s.measurementQueue, a.time < b.time

section Invariant

variable {f₀ : FilterBase E C} {dropped : List (Measurement V C)} {s : RosFilter E C Q}
  {m : Measurement V C} {rest : Q.Carrier}

theorem precedes_of_not_initialized (hf₀ : f₀.initialized = false) (ms : List (Measurement V C)) :
    Precedes f₀ ms := by
  intro h
  rw [hf₀] at h
  cases h

theorem InOrder.times_nodup (hs : InOrder T f₀ dropped s) :
    (((↑(dropped ++ s.measurementHistory) : Multiset (Measurement V C)) +
      Q.elems s.measurementQueue).map Measurement.time).Nodup := by
  rw [hs.accounted, Multiset.map_coe, Multiset.coe_nodup]
  exact hs.distinct

theorem InOrder.ne_of_queue (hs : InOrder T f₀ dropped s) {a b : Measurement V C}
    (ha : a ∈ dropped ++ s.measurementHistory) (hb : b ∈ Q.elems s.measurementQueue) : a.time ≠ b.time := by
  have hnodup := hs.times_nodup
  rw [Multiset.map_add, Multiset.nodup_add] at hnodup
  intro heq
  exact Multiset.disjoint_left.mp hnodup.2.2 (Multiset.mem_map_of_mem _ (Multiset.mem_coe.mpr ha))
    (heq ▸ Multiset.mem_map_of_mem _ hb)

theorem InOrder.ne_of_pop (hs : InOrder T f₀ dropped s) (hpop : Q.pop s.measurementQueue = some (m, rest))
    {b : Measurement V C} (hb : b ∈ Q.elems rest) : b.time ≠ m.time := by
  have hnodup := hs.times_nodup
  rw [Multiset.map_add, Multiset.nodup_add, Q.elems_of_pop hpop, Multiset.map_cons, Multiset.nodup_cons] at hnodup
  intro heq
  exact hnodup.2.1.1 (heq ▸ Multiset.mem_map_of_mem _ hb)

/-! ## 一つの測定の処理 -/

theorem store_eq (hsmooth : s.smoothLaggedData = true)
    (hne : ∀ b ∈ Q.elems s.measurementQueue, b.time ≠ s.filter.lastMeasurementTime) :
    s.store m =
      { s with
        measurementHistory := s.measurementHistory ++ [m]
        filterStateHistory := s.filterStateHistory ++ [saveFilterState s.filter] } := by
  rw [store, if_pos hsmooth]
  cases hpop : Q.pop s.measurementQueue with
  | none => rfl
  | some c => simp only [if_neg (hne c.1 (PriorityQueue.mem_of_pop hpop))]

theorem InOrder.integrate (hf₀ : f₀.initialized = false) (huse : f₀.useControl = false)
    (hs : InOrder T f₀ dropped s) (hahead : Ahead dropped s)
    (hpop : Q.pop s.measurementQueue = some (m, rest)) (restored : ℕ) :
    InOrder T f₀ dropped (s.integrate T rest m restored) ∧ Ahead dropped (s.integrate T rest m restored) := by
  have hmem : m ∈ Q.elems s.measurementQueue := PriorityQueue.mem_of_pop hpop
  have hascending : Ascending (dropped ++ s.measurementHistory ++ [m]) :=
    List.pairwise_append.mpr ⟨hs.ascending, List.pairwise_singleton _ _,
      fun a ha b hb => List.mem_singleton.mp hb ▸ hahead a ha m hmem⟩
  have hfilter : s.filter.processMeasurement T m = replay T f₀ (dropped ++ s.measurementHistory ++ [m]) := by
    rw [replay_append, ← hs.filter]
    rfl
  have hlast : (s.filter.processMeasurement T m).lastMeasurementTime = m.time := by
    rw [hfilter]
    exact replay_concat_lastMeasurementTime (precedes_of_not_initialized hf₀ _) hascending
  have hnocontrol : s.filter.useControl = false := by
    rw [hs.filter, (replay_control f₀ _).1, huse]
  have heq : s.integrate T rest m restored =
      { s with
        measurementQueue := rest
        filter := s.filter.processMeasurement T m
        measurementHistory := s.measurementHistory ++ [m]
        filterStateHistory := s.filterStateHistory ++ [saveFilterState (s.filter.processMeasurement T m)] } := by
    rw [RosFilter.integrate, hnocontrol]
    refine store_eq (s := { s with measurementQueue := rest, filter := s.filter.processMeasurement T m })
      hs.smooth fun b hb => ?_
    rw [hlast]
    exact hs.ne_of_pop hpop hb
  rw [heq]
  refine ⟨?_, ?_⟩
  · exact
      { smooth := hs.smooth
        predict := hs.predict
        distinct := hs.distinct
        accounted := by
          rw [← hs.accounted, Q.elems_of_pop hpop]
          simp only [← List.append_assoc, ← Multiset.coe_add, Multiset.coe_singleton, Multiset.add_assoc,
            Multiset.singleton_add]
        ascending := by simpa using hascending
        filter := by simpa using hfilter
        states := by
          show s.filterStateHistory ++ [saveFilterState (s.filter.processMeasurement T m)] = _
          rw [snapshots_concat, ← hs.states, ← replay_append, ← List.append_assoc, ← hfilter] }
  · intro a ha b hb
    have hb' : b ∈ Q.elems s.measurementQueue := PriorityQueue.mem_of_mem_rest hpop hb
    rcases List.mem_append.mp (List.append_assoc _ _ _ ▸ ha : a ∈ dropped ++ s.measurementHistory ++ [m]) with ha | ha
    · exact hahead a ha b hb'
    · rw [List.mem_singleton.mp ha]
      exact lt_of_le_of_ne (Q.le_of_pop hpop b hb') (hs.ne_of_pop hpop hb).symm

theorem InOrder.processQueue (hf₀ : f₀.initialized = false) (huse : f₀.useControl = false) (currentTime : ℤ)
    (fuel restored : ℕ) {s : RosFilter E C Q} (hs : InOrder T f₀ dropped s) (hahead : Ahead dropped s) :
    InOrder T f₀ dropped (s.processQueue T currentTime fuel restored) := by
  have hstep : ∀ s m rest restored, InOrder T f₀ dropped s ∧ Ahead dropped s →
      Q.pop s.measurementQueue = some (m, rest) →
        InOrder T f₀ dropped (s.integrate T rest m restored) ∧ Ahead dropped (s.integrate T rest m restored) :=
    fun s m rest restored hs hpop => hs.1.integrate hf₀ huse hs.2 hpop restored
  exact (processQueue_inv T hstep currentTime fuel restored ⟨hs, hahead⟩).1

/-! ## 巻き戻し -/

theorem not_of_rdropWhile_eq_concat {α : Type*} {p : α → Bool} {l before : List α} {a : α}
    (h : l.rdropWhile p = before ++ [a]) : p a = false := by
  have hne : l.rdropWhile p ≠ [] := by simp [h]
  have hlast : (l.rdropWhile p).getLast hne = a := by simp [h]
  rw [← Bool.not_eq_true, ← hlast]
  exact List.rdropWhile_last_not p l hne

/-- 処理した測定の前半で止めた推定は、後の推定の状態だけを置き換えたものである。 -/
theorem restore_replay {f : FilterBase E C} {ms ns : List (Measurement V C)} (hms : ms ≠ []) (hns : ns ≠ []) :
    { replay T f ns with
      estimate := (replay T f ms).estimate
      lastMeasurementTime := (replay T f ms).lastMeasurementTime } = replay T f ms := by
  obtain ⟨huse, hcontrol, htime⟩ := replay_control (T := T) f ms
  obtain ⟨huse', hcontrol', htime'⟩ := replay_control (T := T) f ns
  have hinit : (replay T f ns).initialized = (replay T f ms).initialized :=
    (replay_initialized f hns).trans (replay_initialized f hms).symm
  dsimp only
  rw [hinit, huse', hcontrol', htime', ← huse, ← hcontrol, ← htime]

theorem InOrder.revertTo (hf₀ : f₀.initialized = false) (hs : InOrder T f₀ dropped s) {time : ℤ}
    (hretained : ∃ h ∈ s.filterStateHistory, h.lastMeasurementTime ≤ time)
    (hqueue : ∀ b ∈ Q.elems s.measurementQueue, time < b.time) :
    InOrder T f₀ dropped (s.revertTo time) ∧ Ahead dropped (s.revertTo time) := by
  have hprecedes := precedes_of_not_initialized hf₀ (dropped ++ s.measurementHistory)
  have hsplit : s.measurementHistory = (s.measurementHistory.rdropWhile fun m => time < m.time) ++ s.rewound time :=
    (List.rdropWhile_append_rtakeWhile).symm
  have hstates : (s.filterStateHistory.rdropWhile fun h => time < h.lastMeasurementTime) =
      snapshots T (replay T f₀ dropped) (s.measurementHistory.rdropWhile fun m => time < m.time) := by
    rw [hs.states]
    exact snapshots_rdropWhile (hprecedes.replay hs.ascending) (List.pairwise_append.mp hs.ascending).2.1 time
  have hkept : (s.measurementHistory.rdropWhile fun m => time < m.time) ≠ [] := by
    intro hnil
    rw [hnil, snapshots, List.rdropWhile_eq_nil_iff] at hstates
    obtain ⟨h, hmem, hle⟩ := hretained
    exact absurd (of_decide_eq_true (hstates h hmem)) hle.not_gt
  -- 残った測定の最後は `time` 以前で、取り除いた測定はすべて `time` より後である。
  generalize hkeep : (s.measurementHistory.rdropWhile fun m => time < m.time) = keep at *
  obtain ⟨before, last, rfl⟩ : ∃ before last, keep = before ++ [last] :=
    ⟨keep.dropLast, keep.getLast hkept, (List.dropLast_append_getLast hkept).symm⟩
  have hlast : last.time ≤ time := by
    simpa using not_of_rdropWhile_eq_concat hkeep
  have hrewound : ∀ m ∈ s.rewound time, time < m.time := by
    intro m hm
    exact of_decide_eq_true (List.mem_rtakeWhile_imp (p := fun m : Measurement V C => decide (time < m.time)) hm)
  have hascending : Ascending (dropped ++ (before ++ [last]) ++ s.rewound time) := by
    rw [List.append_assoc, ← hsplit]
    exact hs.ascending
  have hascendingKept : Ascending (dropped ++ (before ++ [last])) := (List.pairwise_append.mp hascending).1
  have hstop : (replay T f₀ (dropped ++ (before ++ [last]))).lastMeasurementTime = last.time := by
    rw [← List.append_assoc]
    exact replay_concat_lastMeasurementTime (precedes_of_not_initialized hf₀ _) (by simpa using hascendingKept)
  have hstate : s.lastHistoryState time = some (saveFilterState (replay T f₀ (dropped ++ (before ++ [last])))) := by
    rw [lastHistoryState, hstates, snapshots_concat, List.getLast?_concat, replay_append f₀ dropped]
  have hrestored : ((s.rewound time).reverse.filter fun m => decide (last.time ≤ m.time)) =
      (s.rewound time).reverse := by
    refine List.filter_eq_self.mpr fun m hm => decide_eq_true ?_
    exact hlast.trans (hrewound m (List.mem_reverse.mp hm)).le
  have heq : s.revertTo time =
      { s with
        filterStateHistory := snapshots T (replay T f₀ dropped) (before ++ [last])
        filter := replay T f₀ (dropped ++ (before ++ [last]))
        measurementQueue := Q.pushAll s.measurementQueue (s.rewound time).reverse
        measurementHistory := before ++ [last] } := by
    have hne : dropped ++ s.measurementHistory ≠ [] := by simp [hsplit]
    simp only [RosFilter.revertTo, hstate, hstates, hkeep, saveFilterState, hstop, hrestored]
    rw [hs.filter, ← hstop, restore_replay (by simp) hne]
  rw [heq]
  refine ⟨?_, ?_⟩
  · exact
      { smooth := hs.smooth
        predict := hs.predict
        distinct := hs.distinct
        accounted := by
          rw [← hs.accounted, PriorityQueue.elems_pushAll, ← Multiset.add_assoc, Multiset.coe_reverse,
            Multiset.coe_add, List.append_assoc, ← hsplit]
        ascending := hascendingKept
        filter := rfl
        states := rfl }
  · intro a ha b hb
    rw [PriorityQueue.elems_pushAll, Multiset.mem_add, Multiset.mem_coe, List.mem_reverse] at hb
    rcases hb with hb | hb
    · exact (List.pairwise_append.mp hascending).2.2 a ha b hb
    · have hle : a.time ≤ last.time := by
        rw [← List.append_assoc] at ha hascendingKept
        rcases List.mem_append.mp ha with ha | ha
        · exact ((List.pairwise_append.mp hascendingKept).2.2 a ha last (List.mem_singleton_self _)).le
        · rw [List.mem_singleton.mp ha]
      exact lt_of_le_of_lt (hle.trans hlast) (hqueue b hb)

/-- 先頭が遅れていなければ、待ち行列は処理した測定より後である。 -/
theorem InOrder.ahead_of_not_lagged (hf₀ : f₀.initialized = false) (hs : InOrder T f₀ dropped s)
    {first : Measurement V C} (hpop : Q.pop s.measurementQueue = some (first, rest))
    (hlagged : s.lagged first = false) : Ahead dropped s := by
  intro a ha b hb
  refine lt_of_le_of_ne ?_ (hs.ne_of_queue ha hb)
  have hne := List.ne_nil_of_mem ha
  have hlast : s.filter.lastMeasurementTime = ((dropped ++ s.measurementHistory).getLast hne).time := by
    have hconcat := List.dropLast_append_getLast hne
    rw [hs.filter]
    conv_lhs => rw [← hconcat]
    exact replay_concat_lastMeasurementTime (precedes_of_not_initialized hf₀ _) (hconcat.symm ▸ hs.ascending)
  have hfirst : s.filter.lastMeasurementTime ≤ first.time := by
    simpa [lagged, hs.smooth] using hlagged
  have hsorted : (dropped ++ s.measurementHistory).Pairwise fun a b => a.time ≤ b.time :=
    hs.ascending.imp fun h => h.le
  have hle : a.time ≤ ((dropped ++ s.measurementHistory).getLast hne).time :=
    hsorted.rel_getLast_of_rel_getLast_getLast ha le_rfl
  calc a.time ≤ s.filter.lastMeasurementTime := hlast ▸ hle
    _ ≤ first.time := hfirst
    _ ≤ b.time := Q.le_of_pop hpop b hb

/-! ## 操作 -/

theorem InOrder.clearExpiredHistory (hf₀ : f₀.initialized = false) (hs : InOrder T f₀ dropped s) (cutoff : ℤ) :
    InOrder T f₀ (dropped ++ s.measurementHistory.takeWhile fun m => m.time < cutoff)
      (s.clearExpiredHistory cutoff) := by
  have hsplit : (dropped ++ s.measurementHistory.takeWhile fun m => m.time < cutoff) ++
      (s.clearExpiredHistory cutoff).measurementHistory = dropped ++ s.measurementHistory := by
    rw [List.append_assoc]
    exact congrArg (dropped ++ ·) List.takeWhile_append_dropWhile
  exact
    { smooth := hs.smooth
      predict := hs.predict
      distinct := hs.distinct
      accounted := by
        rw [hsplit]
        exact hs.accounted
      ascending := by
        rw [hsplit]
        exact hs.ascending
      filter := by
        rw [hsplit]
        exact hs.filter
      states := by
        have hprecedes := (precedes_of_not_initialized hf₀ (dropped ++ s.measurementHistory)).replay (T := T)
          hs.ascending
        show s.filterStateHistory.dropWhile (fun h => h.lastMeasurementTime < cutoff) = _
        rw [hs.states, replay_append]
        exact snapshots_dropWhile hprecedes (List.pairwise_append.mp hs.ascending).2.1 cutoff }

theorem InOrder.enqueueMeasurement (hs : InOrder T f₀ dropped s) {value : V} {time : ℤ}
    (hdistinct : ∀ m ∈ s.allocated, m.time ≠ time) : InOrder T f₀ dropped (s.enqueueMeasurement value time) where
  smooth := hs.smooth
  predict := hs.predict
  distinct := by
    rw [RosFilter.enqueueMeasurement, List.map_append, List.nodup_append]
    refine ⟨hs.distinct, List.nodup_singleton _, fun a ha b hb => ?_⟩
    obtain ⟨m, hm, rfl⟩ := List.mem_map.mp ha
    rw [List.map_singleton, List.mem_singleton] at hb
    exact hb ▸ hdistinct m hm
  accounted := by
    rw [RosFilter.enqueueMeasurement, Q.elems_push, Multiset.add_cons, hs.accounted, ← Multiset.coe_add,
      Multiset.coe_singleton, Multiset.add_comm, Multiset.singleton_add]
  ascending := hs.ascending
  filter := hs.filter
  states := hs.states

/-- 到着する測定の時刻は互いに異なり、測定のないまま `sensor_timeout` を過ぎず、遅れた測定より前の推定が履歴に残る。 -/
def Admissible (s : RosFilter E C Q) : Event V C → Prop
  | .enqueueMeasurement _ time => ∀ m ∈ s.allocated, m.time ≠ time
  | .integrateMeasurements currentTime =>
      match Q.pop s.measurementQueue with
      | none => s.timedOut currentTime = false
      | some (first, _) =>
          s.lagged first = true → ∃ h ∈ s.filterStateHistory, h.lastMeasurementTime < first.time
  | _ => True

theorem InOrder.integrateMeasurements (hf₀ : f₀.initialized = false) (huse : f₀.useControl = false)
    (hs : InOrder T f₀ dropped s) {currentTime : ℤ}
    (hadmissible : Admissible s (.integrateMeasurements currentTime)) :
    InOrder T f₀ dropped (s.integrateMeasurements T currentTime) := by
  unfold Admissible at hadmissible
  unfold RosFilter.integrateMeasurements
  cases hpop : Q.pop s.measurementQueue with
  | none =>
      simp only [hpop] at hadmissible
      simp only [hs.predict, hadmissible, Bool.or_false, Bool.and_false, Bool.false_eq_true, if_false]
      exact hs
  | some c =>
      obtain ⟨first, rest⟩ := c
      simp only [hpop] at hadmissible
      have hreverted : InOrder T f₀ dropped (if s.lagged first then s.revertTo (first.time - 1) else s) ∧
          Ahead dropped (if s.lagged first then s.revertTo (first.time - 1) else s) := by
        split
        · rename_i hlagged
          obtain ⟨h, hmem, hlt⟩ := hadmissible hlagged
          refine hs.revertTo hf₀ ⟨h, hmem, by omega⟩ fun b hb => ?_
          have hle : first.time ≤ b.time := Q.le_of_pop hpop b hb
          omega
        · rename_i hlagged
          exact ⟨hs, hs.ahead_of_not_lagged hf₀ hpop (Bool.eq_false_of_not_eq_true hlagged)⟩
      dsimp only
      generalize (if s.lagged first then s.revertTo (first.time - 1) else s) = reverted at hreverted ⊢
      have hintegrated := hreverted.1.processQueue hf₀ huse currentTime (Q.size reverted.measurementQueue)
        (Q.size reverted.measurementQueue - Q.size s.measurementQueue) hreverted.2
      rw [hintegrated.predict, Bool.and_false, if_neg Bool.false_ne_true]
      exact hintegrated

theorem InOrder.step (hf₀ : f₀.initialized = false) (huse : f₀.useControl = false)
    {t : RosFilter E C Q} {e : Event V C} (hs : ∃ dropped, InOrder T f₀ dropped s)
    (hstep : s.step T e = some t) (hadmissible : Admissible s e) : ∃ dropped, InOrder T f₀ dropped t := by
  obtain ⟨dropped, hs⟩ := hs
  cases e with
  | enqueueMeasurement value time =>
      cases hstep
      exact ⟨dropped, hs.enqueueMeasurement hadmissible⟩
  | integrateMeasurements currentTime =>
      cases hstep
      exact ⟨dropped, hs.integrateMeasurements hf₀ huse hadmissible⟩
  | clearExpiredHistory cutoffTime =>
      cases hstep
      exact ⟨_, hs.clearExpiredHistory hf₀ cutoffTime⟩
  | controlStampedCallback control time =>
      have hnocontrol : s.filter.useControl = false := by
        rw [hs.filter, (replay_control f₀ _).1, huse]
      rw [RosFilter.step, hnocontrol, if_neg Bool.false_ne_true] at hstep
      cases hstep

end Invariant

/-! ## 時刻順の推定との一致 -/

section Main

def inStampOrder (ms : List (Measurement V C)) : List (Measurement V C) :=
  ms.mergeSort fun a b => a.time ≤ b.time

theorem eq_inStampOrder {ms ns : List (Measurement V C)} (hms : Ascending ms) (hperm : ms.Perm ns) :
    ms = inStampOrder ns := by
  have hsorted : (inStampOrder ns).Pairwise fun a b => decide (a.time ≤ b.time) = true := by
    refine List.pairwise_mergeSort (fun a b c hab hbc => ?_) (fun a b => ?_) ns
    · simp only [decide_eq_true_eq] at hab hbc ⊢
      exact hab.trans hbc
    · simp only [Bool.or_eq_true, decide_eq_true_eq]
      exact le_total _ _
  have hms' : ms.Pairwise fun a b => decide (a.time ≤ b.time) = true :=
    hms.imp fun h => decide_eq_true h.le
  have hperm' : ms.Perm (inStampOrder ns) := hperm.trans (List.mergeSort_perm ns _).symm
  refine hperm'.eq_of_pairwise (fun a b ha hb hab hba => ?_) hms' hsorted
  have htimes : (ms.map Measurement.time).Nodup :=
    (List.pairwise_map.mpr hms).imp fun h => h.ne
  refine List.inj_on_of_nodup_map htimes ha (hperm'.symm.subset hb) ?_
  exact le_antisymm (of_decide_eq_true hab) (of_decide_eq_true hba)

variable {timeout : ℤ} {estimate : E} {control : C}

theorem inOrder_start :
    InOrder T (start (Q := Q) true false false timeout estimate control).filter []
      (start (Q := Q) true false false timeout estimate control) where
  smooth := rfl
  predict := rfl
  distinct := List.nodup_nil
  accounted := (Multiset.zero_add _).trans Q.elems_empty
  ascending := List.Pairwise.nil
  filter := rfl
  states := rfl

theorem lagged_eq_inStampOrder {es : List (Event V C)} {s : RosFilter E C Q}
    (hrun : runs (step T) (start true false false timeout estimate control) es = some s)
    (hadmissible : Always (step T) (fun s e _ => Admissible s e)
      (start (Q := Q) true false false timeout estimate control) es)
    (hempty : Q.elems s.measurementQueue = 0) :
    s.filter = replay T (start (Q := Q) true false false timeout estimate control).filter
      (inStampOrder s.allocated) := by
  have hpreserved : ∀ (u : RosFilter E C Q) (e : Event V C) (t : RosFilter E C Q),
      (∃ dropped, InOrder T (start (Q := Q) true false false timeout estimate control).filter dropped u) →
        u.step T e = some t → Admissible u e →
          ∃ dropped, InOrder T (start (Q := Q) true false false timeout estimate control).filter dropped t :=
    fun _ _ _ hs hstep hc => InOrder.step rfl rfl hs hstep hc
  obtain ⟨dropped, hs⟩ := runs_inv hpreserved ⟨[], inOrder_start⟩ hadmissible hrun
  have hperm : (dropped ++ s.measurementHistory).Perm s.allocated := by
    rw [← Multiset.coe_eq_coe, ← hs.accounted, hempty, Multiset.add_zero]
  rw [hs.filter, eq_inStampOrder hs.ascending hperm]

/-! ## 遅れた測定の例 -/

instance Admissible.decidable (s : RosFilter E C Q) : (e : Event V C) → Decidable (Admissible s e)
  | .enqueueMeasurement _ time => inferInstanceAs (Decidable (∀ m ∈ s.allocated, m.time ≠ time))
  | .integrateMeasurements currentTime =>
      match h : Q.pop s.measurementQueue with
      | none => decidable_of_iff (s.timedOut currentTime = false) (by simp [Admissible, h])
      | some (first, _) =>
          decidable_of_iff
            (s.lagged first = true → ∃ h ∈ s.filterStateHistory, h.lastMeasurementTime < first.time)
            (by simp [Admissible, h])
  | .clearExpiredHistory _ => isTrue trivial
  | .controlStampedCallback _ _ => isTrue trivial

/-- 位置だけを持ち、予測で時間の分だけ進み、補正で順序によって変わる推定。 -/
def drift : Estimator ℤ ℤ Unit where
  predict := fun x _ _ delta => x + delta
  correct := fun x m => 2 * x + m.value
  firstMeasurement := fun _ m => m.value

/-- 時刻 20 の測定が、時刻 30 の測定の後に届く。 -/
def lateArrival : List (Event ℤ Unit) :=
  [.enqueueMeasurement 1 10, .integrateMeasurements 15, .enqueueMeasurement 2 30, .integrateMeasurements 35,
    .enqueueMeasurement 3 20, .integrateMeasurements 40]

abbrev idle : RosFilter ℤ Unit (PriorityQueue.sorted (α := Measurement ℤ Unit) Measurement.time) :=
  start true false false 100 0 ()

-- 遅れた測定で推定を戻し、後の測定を処理し直した推定。
theorem lagged_eq_inStampOrder_late :
    ∃ s, runs (step drift) idle lateArrival = some s ∧
      s.filter = replay drift idle.filter (inStampOrder s.allocated) := by
  have hadmissible : Always (step drift) (fun s e _ => Admissible s e) idle lateArrival := by decide
  exact ⟨_, rfl, lagged_eq_inStampOrder rfl hadmissible rfl⟩

end Main

end RosFilter

end Ranger.Localization.Lagged
