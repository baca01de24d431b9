import Ranger.Localization.InOrder

/-!
# 測定が二度使われないこと

推定に、使った測定の並びを書き添える。書き添えても他の値は変わらない。履歴の推定は、履歴の測定を、すでに使ったものと
まだ使っていないものとに分ける。戻した測定が後者に入るあいだ、どの測定も二度は使われない。残っている最も古い推定へ戻る
ときだけは、その推定が使った測定まで待ち行列に戻りうる。
-/

namespace Ranger.Localization.Lagged
open Ranger.Lib

variable {E E' V C : Type} {Q : PriorityQueue (Measurement V C) Measurement.time}

/-! ## 推定の写像 -/

/-- 推定の方式の間の、操作を保つ写像。 -/
structure Simulates (T : Estimator E V C) (T' : Estimator E' V C) (g : E → E') : Prop where
  predict : ∀ x control referenceTime delta,
    g (T.predict x control referenceTime delta) = T'.predict (g x) control referenceTime delta
  correct : ∀ x m, g (T.correct x m) = T'.correct (g x) m
  firstMeasurement : ∀ x m, g (T.firstMeasurement x m) = T'.firstMeasurement (g x) m

def FilterBase.map (g : E → E') (f : FilterBase E C) : FilterBase E' C :=
  { f with estimate := g f.estimate }

def FilterState.map (g : E → E') (h : FilterState E C) : FilterState E' C :=
  { h with estimate := g h.estimate }

def RosFilter.map (g : E → E') (s : RosFilter E C Q) : RosFilter E' C Q :=
  { s with
    filter := s.filter.map g
    filterStateHistory := s.filterStateHistory.map (FilterState.map g) }

section Map

variable {T : Estimator E V C} {T' : Estimator E' V C} {g : E → E'}

theorem Simulates.processMeasurement (hg : Simulates T T' g) (f : FilterBase E C) (m : Measurement V C) :
    (f.processMeasurement T m).map g = (f.map g).processMeasurement T' m := by
  unfold FilterBase.processMeasurement
  by_cases hinit : f.initialized = true
  · by_cases hdelta : f.lastMeasurementTime < m.time
    · simp [FilterBase.map, FilterBase.predict, hinit, hdelta, hg.predict, hg.correct]
    · simp [FilterBase.map, hinit, hdelta, hg.correct]
  · simp [FilterBase.map, hinit, hg.firstMeasurement]

theorem map_store (g : E → E') (s : RosFilter E C Q) (m : Measurement V C) :
    (s.store m).map g = (s.map g).store m := by
  unfold RosFilter.store
  by_cases hsmooth : s.smoothLaggedData = true
  · rw [if_pos hsmooth, if_pos (show (s.map g).smoothLaggedData = true from hsmooth)]
    show RosFilter.map g _ = _
    cases hpop : Q.pop s.measurementQueue with
    | none => simp [RosFilter.map, hpop, saveFilterState, FilterState.map, FilterBase.map]
    | some c =>
        by_cases htop : c.1.time = s.filter.lastMeasurementTime
        · simp [RosFilter.map, hpop, htop, FilterBase.map]
        · simp [RosFilter.map, hpop, htop, saveFilterState, FilterState.map, FilterBase.map]
  · rw [if_neg hsmooth, if_neg (show ¬ (s.map g).smoothLaggedData = true from hsmooth)]

theorem Simulates.integrate (hg : Simulates T T' g) (s : RosFilter E C Q) (rest : Q.Carrier)
    (m : Measurement V C) (restored : ℕ) :
    (s.integrate T rest m restored).map g = (s.map g).integrate T' rest m restored := by
  have hcontrolled :
      FilterBase.map g
          (if s.filter.useControl && 0 < restored then s.filter.setControl m.latestControl m.latestControlTime
          else s.filter) =
        if (s.map g).filter.useControl && 0 < restored then
          (s.map g).filter.setControl m.latestControl m.latestControlTime
        else (s.map g).filter := by
    rw [apply_ite (FilterBase.map g)]
    rfl
  unfold RosFilter.integrate
  rw [map_store, ← hcontrolled]
  dsimp only
  rw [← hg.processMeasurement]
  rfl

theorem Simulates.processQueue (hg : Simulates T T' g) (currentTime : ℤ) (fuel restored : ℕ) (s : RosFilter E C Q) :
    (s.processQueue T currentTime fuel restored).map g = (s.map g).processQueue T' currentTime fuel restored := by
  induction fuel generalizing s restored with
  | zero => rfl
  | succ fuel ih =>
      rw [RosFilter.processQueue, RosFilter.processQueue]
      have hqueue : (s.map g).measurementQueue = s.measurementQueue := rfl
      rw [hqueue]
      cases hpop : Q.pop s.measurementQueue with
      | none => rfl
      | some c =>
          dsimp only
          split
          · rfl
          · rw [ih, hg.integrate]
            rfl

theorem rdropWhile_map (g : E → E') (hs : List (FilterState E C)) (time : ℤ) :
    (hs.map (FilterState.map g)).rdropWhile (fun h => time < h.lastMeasurementTime) =
      (hs.rdropWhile fun h => time < h.lastMeasurementTime).map (FilterState.map g) := by
  rw [List.rdropWhile, List.rdropWhile, ← List.map_reverse, List.dropWhile_map, List.map_reverse]
  rfl

theorem map_revertTo (g : E → E') (s : RosFilter E C Q) (time : ℤ) :
    (s.revertTo time).map g = (s.map g).revertTo time := by
  have hstate : (s.map g).lastHistoryState time = (s.lastHistoryState time).map (FilterState.map g) := by
    unfold RosFilter.lastHistoryState
    rw [RosFilter.map, rdropWhile_map, List.getLast?_map, List.head?_map]
    cases (s.filterStateHistory.rdropWhile fun h => time < h.lastMeasurementTime).getLast? with
    | none => rfl
    | some h => rfl
  unfold RosFilter.revertTo
  rw [hstate]
  cases s.lastHistoryState time with
  | none => simp [RosFilter.map, rdropWhile_map]
  | some h => simp [RosFilter.map, rdropWhile_map, FilterBase.map, FilterState.map, RosFilter.rewound]

theorem Simulates.predictTo (hg : Simulates T T' g) (s : RosFilter E C Q) (currentTime : ℤ) :
    (s.predictTo T currentTime).map g = (s.map g).predictTo T' currentTime := by
  simp only [RosFilter.predictTo, RosFilter.map, FilterBase.map, FilterBase.predict, hg.predict]
  rfl

theorem Simulates.integrateMeasurements (hg : Simulates T T' g) (s : RosFilter E C Q) (currentTime : ℤ) :
    (s.integrateMeasurements T currentTime).map g = (s.map g).integrateMeasurements T' currentTime := by
  unfold RosFilter.integrateMeasurements
  have hqueue : (s.map g).measurementQueue = s.measurementQueue := rfl
  rw [hqueue]
  cases hpop : Q.pop s.measurementQueue with
  | none =>
      dsimp only
      rw [apply_ite (RosFilter.map g), hg.predictTo]
      rfl
  | some c =>
      have hreverted : (if s.lagged c.1 then s.revertTo (c.1.time - 1) else s).map g =
          if (s.map g).lagged c.1 then (s.map g).revertTo (c.1.time - 1) else s.map g := by
        rw [apply_ite (RosFilter.map g), map_revertTo]
        rfl
      dsimp only
      rw [← hreverted]
      generalize (if s.lagged c.1 then s.revertTo (c.1.time - 1) else s) = reverted
      have hintegrated := hg.processQueue currentTime (Q.size reverted.measurementQueue)
        (Q.size reverted.measurementQueue - Q.size s.measurementQueue) reverted
      rw [apply_ite (RosFilter.map g), hg.predictTo]
      rw [show (reverted.map g).measurementQueue = reverted.measurementQueue from rfl, ← hintegrated]
      rfl

theorem Simulates.step (hg : Simulates T T' g) (s : RosFilter E C Q) (e : RosFilter.Event V C) :
    (s.step T e).map (RosFilter.map g) = (s.map g).step T' e := by
  cases e with
  | enqueueMeasurement value time => rfl
  | integrateMeasurements currentTime => exact congrArg some (hg.integrateMeasurements s currentTime)
  | clearExpiredHistory cutoffTime =>
      simp only [RosFilter.step, RosFilter.clearExpiredHistory, RosFilter.map, List.dropWhile_map, Option.map_some]
      rfl
  | controlStampedCallback control time =>
      unfold RosFilter.step
      rw [apply_ite (Option.map (RosFilter.map g))]
      rfl

theorem Simulates.runs (hg : Simulates T T' g) (s : RosFilter E C Q) (es : List (RosFilter.Event V C)) :
    (Lib.runs (RosFilter.step T) s es).map (RosFilter.map g) = Lib.runs (RosFilter.step T') (s.map g) es := by
  induction es generalizing s with
  | nil => rfl
  | cons e es ih =>
      have hstep := hg.step s e
      rw [Lib.runs, Lib.runs, ← hstep]
      cases s.step T e with
      | none => rfl
      | some t => exact ih t

end Map

/-! ## 使った測定の記録 -/

/-- 使った測定を後ろに書き添える。 -/
def traced (T : Estimator E V C) : Estimator (E × List ℕ) V C where
  predict := fun x control referenceTime delta => (T.predict x.1 control referenceTime delta, x.2)
  correct := fun x m => (T.correct x.1 m, x.2 ++ [m.address])
  firstMeasurement := fun x m => (T.firstMeasurement x.1 m, x.2 ++ [m.address])

/-- 記録を除けば元の推定である。 -/
theorem traced_simulates (T : Estimator E V C) : Simulates (traced T) T Prod.fst where
  predict := fun _ _ _ _ => rfl
  correct := fun _ _ => rfl
  firstMeasurement := fun _ _ => rfl

theorem traced_runs (T : Estimator E V C) (s : RosFilter (E × List ℕ) C Q) (es : List (RosFilter.Event V C)) :
    (runs (RosFilter.step (traced T)) s es).map (RosFilter.map Prod.fst) =
      runs (RosFilter.step T) (s.map Prod.fst) es :=
  (traced_simulates T).runs s es

/-! ## 履歴の区切り

`Divides log ms hs` は、新しい順の推定の履歴 `hs` が、測定の履歴 `ms` をそれぞれの保存の時点で区切ることを表す。区切りの
後ろの測定は、その推定に使われていない。区切りの直前の測定は、その推定の時刻より後ではない。
-/

abbrev Logged (E C : Type) : Type := FilterState (E × List ℕ) C

def Divides : List ℕ → List (Measurement V C) → List (Logged E C) → Prop
  | _, _, [] => True
  | log, ms, h :: hs =>
      h.estimate.2 <+: log ∧
        ∃ used unused, ms = used ++ unused ∧ (∀ m ∈ unused, m.address ∉ h.estimate.2) ∧
          (∀ m ∈ used.getLast?, m.time ≤ h.lastMeasurementTime) ∧ Divides h.estimate.2 used hs

section Divides

variable {log log' : List ℕ} {ms ns : List (Measurement V C)} {m : Measurement V C} {h : Logged E C}
  {hs : List (Logged E C)}

theorem Divides.extend (hdivides : Divides log ms hs) (hlog : log <+: log') (hns : ∀ m ∈ ns, m.address ∉ log) :
    Divides log' (ms ++ ns) hs := by
  cases hs with
  | nil => trivial
  | cons h hs =>
      obtain ⟨hprior, used, unused, rfl, hunused, hlast, hrest⟩ := hdivides
      refine ⟨hprior.trans hlog, used, unused ++ ns, List.append_assoc _ _ _, fun m hm => ?_, hlast, hrest⟩
      rcases List.mem_append.mp hm with hm | hm
      · exact hunused m hm
      · exact fun hmem => hns m hm (hprior.subset hmem)

/-- 最も新しい推定を除いても、履歴は区切られている。 -/
theorem Divides.tail (hdivides : Divides log ms (h :: hs)) : Divides log ms hs := by
  obtain ⟨hprior, used, unused, rfl, hunused, -, hrest⟩ := hdivides
  exact hrest.extend hprior hunused

theorem Divides.drop_newer {newer : List (Logged E C)} (hdivides : Divides log ms (newer ++ hs)) :
    Divides log ms hs := by
  induction newer with
  | nil => exact hdivides
  | cons h newer ih => exact ih hdivides.tail

theorem Divides.drop_older {older : List (Logged E C)} (hdivides : Divides log ms (hs ++ older)) :
    Divides log ms hs := by
  induction hs generalizing log ms with
  | nil => trivial
  | cons h hs ih =>
      obtain ⟨hprior, used, unused, hms, hunused, hlast, hrest⟩ := hdivides
      exact ⟨hprior, used, unused, hms, hunused, hlast, ih hrest⟩

theorem Divides.drop_front (hdivides : Divides log ms hs) (n : ℕ) : Divides log (ms.drop n) hs := by
  induction hs generalizing log ms with
  | nil => trivial
  | cons h hs ih =>
      obtain ⟨hprior, used, unused, rfl, hunused, hlast, hrest⟩ := hdivides
      refine ⟨hprior, used.drop n, unused.drop (n - used.length), List.drop_append, fun m hm => ?_, fun m hm => ?_,
        ih hrest⟩
      · exact hunused m (List.mem_of_mem_drop hm)
      · rw [List.getLast?_drop] at hm
        split at hm
        · cases hm
        · exact hlast m hm

/-- 使い終えた測定を履歴に加えて保存した推定は、履歴の全体を使ったものとして区切る。 -/
theorem Divides.save (hdivides : Divides log ms hs) (hlog : h.estimate.2 = log)
    (hlast : ∀ m ∈ ms.getLast?, m.time ≤ h.lastMeasurementTime) : Divides log ms (h :: hs) := by
  subst hlog
  exact ⟨List.prefix_rfl, ms, [], (List.append_nil ms).symm, fun _ hm => absurd hm List.not_mem_nil, hlast, hdivides⟩

/-- 後ろから取り除くのが `used` の手前で止まるとき、取り除くのは `unused` からである。 -/
theorem rdropWhile_append {p : Measurement V C → Bool} {used : List (Measurement V C)}
    (hstop : ∀ m ∈ used.getLast?, p m = false) (unused : List (Measurement V C)) :
    (used ++ unused).rdropWhile p = used ++ unused.rdropWhile p ∧
      (used ++ unused).rtakeWhile p = unused.rtakeWhile p := by
  induction unused using List.reverseRecOn with
  | nil =>
      rw [List.append_nil, List.rdropWhile_nil, List.rtakeWhile_nil, List.append_nil, List.rdropWhile_eq_self_iff,
        List.rtakeWhile_eq_nil_iff]
      have hlast : ∀ hne : used ≠ [], ¬ p (used.getLast hne) = true := by
        intro hne
        rw [hstop _ (List.getLast?_eq_getLast_of_ne_nil hne)]
        exact Bool.false_ne_true
      exact ⟨hlast, hlast⟩
  | append_singleton unused m ih =>
      rw [← List.append_assoc, List.rdropWhile_concat, List.rtakeWhile_concat, List.rdropWhile_concat,
        List.rtakeWhile_concat]
      split
      · exact ⟨ih.1, by rw [ih.2]⟩
      · exact ⟨List.append_assoc _ _ _, rfl⟩

/-- 時刻 `time` 以前の推定へ戻るとき、取り除く測定はその推定に使われていない。 -/
theorem Divides.rewind (hdivides : Divides log ms (h :: hs)) {time : ℤ} (htime : h.lastMeasurementTime ≤ time) :
    (∀ m ∈ ms.rtakeWhile fun m => time < m.time, m.address ∉ h.estimate.2) ∧
      Divides h.estimate.2 (ms.rdropWhile fun m => time < m.time) (h :: hs) := by
  obtain ⟨hprior, used, unused, rfl, hunused, hlast, hrest⟩ := hdivides
  have hstop : ∀ m ∈ used.getLast?, decide (time < m.time) = false := fun m hm =>
    decide_eq_false (not_lt.mpr ((hlast m hm).trans htime))
  obtain ⟨hdrop, htake⟩ := rdropWhile_append (p := fun m : Measurement V C => decide (time < m.time)) hstop unused
  rw [hdrop, htake]
  refine ⟨fun m hm => hunused m ((List.rtakeWhile_suffix _ _).subset hm), List.prefix_rfl, used, _, rfl, fun m hm => ?_,
    hlast, hrest⟩
  exact hunused m ((List.rdropWhile_prefix _ _).subset hm)

/-- 取り除いた測定が `h` の時刻とは異なり、それより前のものが後のものより先に並ぶとき、`h` の時刻以後の測定は `h` に
使われていない。 -/
theorem Divides.fallback (hdivides : Divides log ms [h]) {rewound : List (Measurement V C)} (hrewound : rewound <:+ ms)
    (hne : ∀ m ∈ rewound, m.time ≠ h.lastMeasurementTime)
    (horder : rewound.Pairwise fun a b => h.lastMeasurementTime < a.time → h.lastMeasurementTime < b.time)
    {m : Measurement V C} (hm : m ∈ rewound) (hle : h.lastMeasurementTime ≤ m.time) :
    m.address ∉ h.estimate.2 := by
  obtain ⟨-, used, unused, rfl, hunused, hlast, -⟩ := hdivides
  have hlater : h.lastMeasurementTime < m.time := lt_of_le_of_ne hle (hne m hm).symm
  obtain ⟨front, hsplit⟩ := hrewound
  rcases List.append_eq_append_iff.mp hsplit with ⟨contained, rfl, rfl⟩ | ⟨between, -, rfl⟩
  · rcases List.mem_append.mp hm with hm | hm
    · exfalso
      -- 区切りの直前の測定は `h` の時刻より前であり、`m` より後ろに並ぶ。
      have hnil : contained ≠ [] := List.ne_nil_of_mem hm
      have hmem : contained.getLast hnil ∈ contained := List.getLast_mem hnil
      have hle' : (contained.getLast hnil).time ≤ h.lastMeasurementTime := by
        refine hlast _ ?_
        rw [List.getLast?_append_of_ne_nil _ hnil, List.getLast?_eq_getLast_of_ne_nil hnil]
        rfl
      have hlt := lt_of_le_of_ne hle' (hne _ (List.mem_append_left _ hmem))
      have hpair := (List.pairwise_append.mp horder).1
      exact lt_asymm hlt (hpair.rel_getLast_of_rel_getLast_getLast hm id hlater)
    · exact hunused m hm
  · exact hunused m (List.mem_append_right _ hm)

end Divides

/-! ## 不変条件 -/

section Process

variable {T : Estimator E V C}

theorem traced_log (f : FilterBase (E × List ℕ) C) (m : Measurement V C) :
    (f.processMeasurement (traced T) m).estimate.2 = f.estimate.2 ++ [m.address] := by
  unfold FilterBase.processMeasurement
  dsimp only
  split
  · split
    · rfl
    · rfl
  · rfl

theorem time_le_processMeasurement (f : FilterBase E C) (m : Measurement V C) :
    m.time ≤ (f.processMeasurement T m).lastMeasurementTime := by
  unfold FilterBase.processMeasurement
  dsimp only
  split
  · dsimp only
    split
    · exact le_rfl
    · omega
  · exact le_rfl

end Process

namespace RosFilter

/-- 推定は測定を一度ずつ使い、待ち行列の測定はまだ使っていない。 -/
structure Once (s : RosFilter (E × List ℕ) C Q) : Prop where
  smooth : s.smoothLaggedData = true
  nodup : s.filter.estimate.2.Nodup
  distinct : (((↑s.measurementHistory : Multiset (Measurement V C)) +
    Q.elems s.measurementQueue).map Measurement.address).Nodup
  unused : ∀ m ∈ Q.elems s.measurementQueue, m.address ∉ s.filter.estimate.2
  logged : ∀ a ∈ s.filter.estimate.2, a < s.allocated.length
  held : ∀ m ∈ (↑s.measurementHistory : Multiset (Measurement V C)) + Q.elems s.measurementQueue,
    m.address < s.allocated.length
  divides : Divides s.filter.estimate.2 s.measurementHistory s.filterStateHistory.reverse

section Invariant

variable {T : Estimator E V C} {s : RosFilter (E × List ℕ) C Q} {m : Measurement V C} {rest : Q.Carrier}

theorem store_cases {s : RosFilter E C Q} (hsmooth : s.smoothLaggedData = true) (m : Measurement V C) :
    ∃ states, (states = s.filterStateHistory ∨ states = s.filterStateHistory ++ [saveFilterState s.filter]) ∧
      s.store m =
        { s with measurementHistory := s.measurementHistory ++ [m], filterStateHistory := states } := by
  rw [store, if_pos hsmooth]
  refine ⟨_, ?_, rfl⟩
  split
  · split
    · exact .inl rfl
    · exact .inr rfl
  · exact .inr rfl

theorem Once.integrate (hs : Once s) (hpop : Q.pop s.measurementQueue = some (m, rest)) (restored : ℕ) :
    Once (s.integrate (traced T) rest m restored) := by
  have hmem : m ∈ Q.elems s.measurementQueue := PriorityQueue.mem_of_pop hpop
  have helems := Q.elems_of_pop hpop
  unfold RosFilter.integrate
  dsimp only
  generalize hcontrolled : (if s.filter.useControl && 0 < restored then
    s.filter.setControl m.latestControl m.latestControlTime else s.filter) = f
  have hf : f.estimate = s.filter.estimate := by
    rw [← hcontrolled]
    split
    · rfl
    · rfl
  have hlog : (f.processMeasurement (traced T) m).estimate.2 = s.filter.estimate.2 ++ [m.address] := by
    rw [traced_log, hf]
  obtain ⟨states, hstates, hstore⟩ := store_cases
    (s := { s with measurementQueue := rest, filter := f.processMeasurement (traced T) m }) hs.smooth m
  rw [hstore]
  have hmoved : (↑(s.measurementHistory ++ [m]) : Multiset (Measurement V C)) + Q.elems rest =
      ↑s.measurementHistory + Q.elems s.measurementQueue := by
    rw [helems, ← Multiset.coe_add, Multiset.coe_singleton, Multiset.add_assoc, Multiset.singleton_add]
  have hextended := hs.divides.extend (List.prefix_append _ [m.address])
    (fun m' hm' => List.mem_singleton.mp hm' ▸ hs.unused m hmem)
  exact
    { smooth := hs.smooth
      nodup := by
        rw [hlog, ← List.concat_eq_append]
        exact List.Nodup.concat (hs.unused m hmem) hs.nodup
      distinct := by
        rw [hmoved]
        exact hs.distinct
      unused := by
        intro b hb hused
        rw [hlog] at hused
        rcases List.mem_append.mp hused with hused | hused
        · exact hs.unused b (helems ▸ Multiset.mem_cons_of_mem hb) hused
        · have hdistinct := hs.distinct
          rw [Multiset.map_add, Multiset.nodup_add, helems, Multiset.map_cons, Multiset.nodup_cons] at hdistinct
          exact hdistinct.2.1.1 (List.mem_singleton.mp hused ▸ Multiset.mem_map_of_mem _ hb)
      logged := by
        intro a ha
        rw [hlog] at ha
        rcases List.mem_append.mp ha with ha | ha
        · exact hs.logged a ha
        · rw [List.mem_singleton.mp ha]
          exact hs.held m (Multiset.mem_add.mpr (.inr hmem))
      held := by
        rw [hmoved]
        exact hs.held
      divides := by
        show Divides (f.processMeasurement (traced T) m).estimate.2 (s.measurementHistory ++ [m]) states.reverse
        rw [hlog]
        rcases hstates with rfl | rfl
        · exact hextended
        · rw [List.reverse_append, List.reverse_singleton, List.singleton_append]
          refine hextended.save hlog fun m' hm' => ?_
          rw [List.getLast?_concat, Option.mem_some] at hm'
          subst hm'
          exact time_le_processMeasurement f m }

theorem Once.processQueue (currentTime : ℤ) (fuel restored : ℕ) {s : RosFilter (E × List ℕ) C Q} (hs : Once s) :
    Once (s.processQueue (traced T) currentTime fuel restored) :=
  processQueue_inv (traced T) (fun _ _ _ restored hs hpop => hs.integrate hpop restored) currentTime fuel restored hs

theorem Once.predictTo (hs : Once s) (currentTime : ℤ) : Once (s.predictTo (traced T) currentTime) where
  smooth := hs.smooth
  nodup := hs.nodup
  distinct := hs.distinct
  unused := hs.unused
  logged := hs.logged
  held := hs.held
  divides := hs.divides

/-! ## 巻き戻し -/

/-- `time` 以前の推定が残っていないとき、戻る先の最も古い推定の時刻の測定は取り除かれず、その時刻より前のものは後の
ものより先に並ぶ。 -/
def SafeFallback (s : RosFilter E C Q) (time : ℤ) : Prop :=
  (∀ h ∈ s.filterStateHistory, time < h.lastMeasurementTime) →
    ∀ h ∈ s.filterStateHistory.head?,
      (∀ m ∈ s.rewound time, m.time ≠ h.lastMeasurementTime) ∧
        (s.rewound time).Pairwise fun a b => h.lastMeasurementTime < a.time → h.lastMeasurementTime < b.time

/-- 戻る先の推定に使われた測定は、待ち行列に戻らない。 -/
theorem Once.lastHistoryState (hs : Once s) {time : ℤ} (hsafe : s.SafeFallback time) {h : Logged E C}
    (hstate : s.lastHistoryState time = some h) :
    h.estimate.2 <+: s.filter.estimate.2 ∧
      (∀ m ∈ s.rewound time, h.lastMeasurementTime ≤ m.time → m.address ∉ h.estimate.2) ∧
      Divides h.estimate.2 (s.measurementHistory.rdropWhile fun m => time < m.time)
        (s.filterStateHistory.rdropWhile fun h => time < h.lastMeasurementTime).reverse := by
  have hsplit : s.filterStateHistory.reverse =
      (s.filterStateHistory.rtakeWhile fun h => time < h.lastMeasurementTime).reverse ++
        (s.filterStateHistory.rdropWhile fun h => time < h.lastMeasurementTime).reverse := by
    rw [← List.reverse_append, List.rdropWhile_append_rtakeWhile]
  have hdivides := hs.divides
  rw [hsplit] at hdivides
  have hkept := hdivides.drop_newer
  unfold RosFilter.lastHistoryState at hstate
  cases hlast : (s.filterStateHistory.rdropWhile fun h => time < h.lastMeasurementTime).getLast? with
  | some h' =>
      simp only [hlast, Option.some.injEq] at hstate
      subst hstate
      obtain ⟨older, hkeep⟩ := List.getLast?_eq_some_iff.mp hlast
      have htime : h'.lastMeasurementTime ≤ time := by
        simpa using not_of_rdropWhile_eq_concat hkeep
      have hreverse : (s.filterStateHistory.rdropWhile fun h => time < h.lastMeasurementTime).reverse =
          h' :: older.reverse := by
        rw [hkeep, List.reverse_append, List.reverse_singleton, List.singleton_append]
      rw [hreverse] at hkept ⊢
      obtain ⟨hfresh, hdivided⟩ := hkept.rewind htime
      exact ⟨hkept.1, fun m hm _ => hfresh m hm, hdivided⟩
  | none =>
      simp only [hlast] at hstate
      have hnil := List.getLast?_eq_none_iff.mp hlast
      rw [hnil]
      obtain ⟨newer, hhistory⟩ := List.head?_eq_some_iff.mp hstate
      have holdest : Divides s.filter.estimate.2 s.measurementHistory [h] := by
        have hall := hs.divides
        rw [hhistory, List.reverse_cons] at hall
        exact hall.drop_newer
      obtain ⟨hne, horder⟩ := hsafe
        (fun h' hh' => of_decide_eq_true (List.rdropWhile_eq_nil_iff.mp hnil h' hh')) h hstate
      refine ⟨holdest.1, fun m hm hle => ?_, trivial⟩
      exact holdest.fallback (List.rtakeWhile_suffix _ _) hne horder hm hle

theorem Once.revertTo (hs : Once s) {time : ℤ} (hsafe : s.SafeFallback time) : Once (s.revertTo time) := by
  unfold RosFilter.revertTo
  cases hstate : s.lastHistoryState time with
  | none =>
      have hsplit := congrArg List.reverse
        (List.rdropWhile_append_rtakeWhile (p := fun h : Logged E C => decide (time < h.lastMeasurementTime))
          (l := s.filterStateHistory))
      rw [List.reverse_append] at hsplit
      exact
        { smooth := hs.smooth
          nodup := hs.nodup
          distinct := hs.distinct
          unused := hs.unused
          logged := hs.logged
          held := hs.held
          divides := (hsplit ▸ hs.divides : Divides _ _ _).drop_newer }
  | some h =>
      obtain ⟨hprior, hfresh, hdivides⟩ := hs.lastHistoryState hsafe hstate
      dsimp only
      have hle : (↑(s.measurementHistory.rdropWhile fun m => time < m.time) : Multiset (Measurement V C)) +
          (↑((s.rewound time).reverse.filter fun m => h.lastMeasurementTime ≤ m.time) +
            Q.elems s.measurementQueue) ≤ ↑s.measurementHistory + Q.elems s.measurementQueue := by
        rw [← Multiset.add_assoc]
        refine Multiset.add_le_add_right ?_
        conv_rhs => rw [← List.rdropWhile_append_rtakeWhile (p := fun m : Measurement V C => decide (time < m.time))
          (l := s.measurementHistory), ← Multiset.coe_add]
        refine Multiset.add_le_add_left ?_
        rw [← Multiset.coe_reverse (List.rtakeWhile _ _)]
        exact Multiset.coe_le.mpr List.filter_sublist.subperm
      exact
        { smooth := hs.smooth
          nodup := hs.nodup.sublist hprior.sublist
          distinct := by
            rw [PriorityQueue.elems_pushAll]
            exact Multiset.nodup_of_le (Multiset.map_le_map hle) hs.distinct
          unused := by
            intro m hm
            rw [PriorityQueue.elems_pushAll, Multiset.mem_add, Multiset.mem_coe, List.mem_filter,
              List.mem_reverse] at hm
            rcases hm with ⟨hm, htime⟩ | hm
            · exact hfresh m hm (of_decide_eq_true htime)
            · exact fun hused => hs.unused m hm (hprior.subset hused)
          logged := fun a ha => hs.logged a (hprior.subset ha)
          held := by
            rw [PriorityQueue.elems_pushAll]
            exact fun m hm => hs.held m (Multiset.mem_of_le hle hm)
          divides := hdivides }

/-! ## 操作 -/

theorem Once.clearExpiredHistory (hs : Once s) (cutoff : ℤ) : Once (s.clearExpiredHistory cutoff) := by
  have hstates := congrArg List.reverse
    (List.takeWhile_append_dropWhile (p := fun h : Logged E C => decide (h.lastMeasurementTime < cutoff))
      (l := s.filterStateHistory))
  rw [List.reverse_append] at hstates
  have hfront := List.suffix_iff_eq_drop.mp
    (List.dropWhile_suffix (l := s.measurementHistory) fun m => decide (m.time < cutoff))
  have hle : (↑(s.measurementHistory.dropWhile fun m => m.time < cutoff) : Multiset (Measurement V C)) +
      Q.elems s.measurementQueue ≤ ↑s.measurementHistory + Q.elems s.measurementQueue :=
    Multiset.add_le_add_right (Multiset.coe_le.mpr (List.dropWhile_sublist _).subperm)
  exact
    { smooth := hs.smooth
      nodup := hs.nodup
      distinct := Multiset.nodup_of_le (Multiset.map_le_map hle) hs.distinct
      unused := hs.unused
      logged := hs.logged
      held := fun m hm => hs.held m (Multiset.mem_of_le hle hm)
      divides := by
        have hkept := (hstates ▸ hs.divides : Divides _ _ _).drop_older
        show Divides s.filter.estimate.2 (s.measurementHistory.dropWhile fun m => m.time < cutoff) _
        rw [hfront]
        exact hkept.drop_front _ }

theorem Once.enqueueMeasurement (hs : Once s) (value : V) (time : ℤ) :
    Once (s.enqueueMeasurement value time) := by
  have hlength : (s.enqueueMeasurement value time).allocated.length = s.allocated.length + 1 := by
    simp [RosFilter.enqueueMeasurement]
  exact
    { smooth := hs.smooth
      nodup := hs.nodup
      distinct := by
        rw [RosFilter.enqueueMeasurement, Q.elems_push, Multiset.add_cons, Multiset.map_cons, Multiset.nodup_cons]
        refine ⟨fun hmem => ?_, hs.distinct⟩
        obtain ⟨m, hm, haddress⟩ := Multiset.mem_map.mp hmem
        exact absurd (hs.held m hm) (haddress ▸ lt_irrefl _)
      unused := by
        intro m hm hused
        rw [RosFilter.enqueueMeasurement, Q.elems_push, Multiset.mem_cons] at hm
        rcases hm with rfl | hm
        · exact absurd (hs.logged _ hused) (lt_irrefl _)
        · exact hs.unused m hm hused
      logged := by
        intro a ha
        rw [hlength]
        exact (hs.logged a ha).trans (Nat.lt_succ_self _)
      held := by
        intro m hm
        rw [hlength]
        rw [RosFilter.enqueueMeasurement, Q.elems_push, Multiset.add_cons, Multiset.mem_cons] at hm
        rcases hm with rfl | hm
        · exact Nat.lt_succ_self _
        · exact (hs.held m hm).trans (Nat.lt_succ_self _)
      divides := hs.divides }

theorem Once.controlStampedCallback (hs : Once s) (control : C) (time : ℤ) :
    Once (s.controlStampedCallback control time) where
  smooth := hs.smooth
  nodup := hs.nodup
  distinct := hs.distinct
  unused := hs.unused
  logged := hs.logged
  held := hs.held
  divides := hs.divides

/-- 遅れた測定で戻るとき、残っている最も古い推定への戻り方に誤りがない。 -/
def Safe (s : RosFilter E C Q) : Event V C → Prop
  | .integrateMeasurements _ =>
      ∀ c ∈ Q.pop s.measurementQueue, s.lagged c.1 = true → s.SafeFallback (c.1.time - 1)
  | _ => True

theorem Once.integrateMeasurements (hs : Once s) {currentTime : ℤ}
    (hsafe : Safe s (.integrateMeasurements currentTime)) :
    Once (s.integrateMeasurements (traced T) currentTime) := by
  unfold RosFilter.integrateMeasurements
  cases hpop : Q.pop s.measurementQueue with
  | none =>
      dsimp only
      split
      · exact hs.predictTo currentTime
      · exact hs
  | some c =>
      have hreverted : Once (if s.lagged c.1 then s.revertTo (c.1.time - 1) else s) := by
        split
        · rename_i hlagged
          exact hs.revertTo (hsafe c hpop hlagged)
        · exact hs
      dsimp only
      generalize (if s.lagged c.1 then s.revertTo (c.1.time - 1) else s) = reverted at hreverted ⊢
      have hintegrated := hreverted.processQueue (T := T) currentTime (Q.size reverted.measurementQueue)
        (Q.size reverted.measurementQueue - Q.size s.measurementQueue)
      split
      · exact hintegrated.predictTo currentTime
      · exact hintegrated

theorem Once.step {t : RosFilter (E × List ℕ) C Q} {e : Event V C} (hs : Once s)
    (hstep : s.step (traced T) e = some t) (hsafe : Safe s e) : Once t := by
  cases e with
  | enqueueMeasurement value time =>
      cases hstep
      exact hs.enqueueMeasurement value time
  | integrateMeasurements currentTime =>
      cases hstep
      exact hs.integrateMeasurements hsafe
  | clearExpiredHistory cutoffTime =>
      cases hstep
      exact hs.clearExpiredHistory cutoffTime
  | controlStampedCallback control time =>
      rw [RosFilter.step] at hstep
      split at hstep
      · cases hstep
        exact hs.controlStampedCallback control time
      · cases hstep

end Invariant

/-! ## 実行の全体 -/

section Main

variable {T : Estimator E V C} {predictToCurrentTime useControl : Bool} {timeout : ℤ} {estimate : E} {control : C}

theorem once_start :
    Once (start (Q := Q) true predictToCurrentTime useControl timeout (estimate, ([] : List ℕ)) control) where
  smooth := rfl
  nodup := List.nodup_nil
  distinct := by
    show (Multiset.map _ (0 + Q.elems Q.empty)).Nodup
    rw [Q.elems_empty]
    exact Multiset.nodup_zero
  unused := fun _ _ => List.not_mem_nil
  logged := fun _ ha => absurd ha List.not_mem_nil
  held := by
    intro m hm
    have hnil : m ∈ (0 : Multiset (Measurement V C)) + Q.elems Q.empty := hm
    rw [Q.elems_empty] at hnil
    exact absurd hnil (Multiset.notMem_zero m)
  divides := trivial

theorem fused_once_of_safe {es : List (Event V C)} {s : RosFilter (E × List ℕ) C Q}
    (hrun : runs (step (traced T))
      (start true predictToCurrentTime useControl timeout (estimate, []) control) es = some s)
    (hsafe : Always (step (traced T)) (fun s e _ => Safe s e)
      (start (Q := Q) true predictToCurrentTime useControl timeout (estimate, []) control) es) :
    s.filter.estimate.2.Nodup :=
  (runs_inv (fun _ _ _ hs hstep hc => Once.step (T := T) hs hstep hc) once_start hsafe hrun).nodup

/-! ## 戻り方の例 -/

instance SafeFallback.decidable (s : RosFilter E C Q) (time : ℤ) : Decidable (s.SafeFallback time) :=
  inferInstanceAs (Decidable (_ → ∀ h ∈ s.filterStateHistory.head?, _ ∧ _))

instance Safe.decidable (s : RosFilter E C Q) : (e : Event V C) → Decidable (Safe s e)
  | .enqueueMeasurement _ _ => isTrue trivial
  | .integrateMeasurements _ =>
      inferInstanceAs (Decidable (∀ c ∈ Q.pop s.measurementQueue, s.lagged c.1 = true → _))
  | .clearExpiredHistory _ => isTrue trivial
  | .controlStampedCallback _ _ => isTrue trivial

abbrev idleTraced : RosFilter (ℤ × List ℕ) Unit (PriorityQueue.sorted (α := Measurement ℤ Unit) Measurement.time) :=
  start true false false 100 (0, []) ()

-- 遅れた測定より前の推定が残っている。
theorem fused_once_of_safe_late :
    ∃ s, runs (step (traced drift)) idleTraced lateArrival = some s ∧ s.filter.estimate.2.Nodup := by
  have hsafe : Always (step (traced drift)) (fun s e _ => Safe s e) idleTraced lateArrival := by decide
  exact ⟨_, rfl, fused_once_of_safe rfl hsafe⟩

/-- 時刻 10 の推定だけを残した後に、時刻 3 の測定が届く。 -/
def shortHistory : List (Event ℤ Unit) :=
  [.enqueueMeasurement 1 1, .integrateMeasurements 5, .enqueueMeasurement 2 10, .integrateMeasurements 12,
    .clearExpiredHistory 5, .enqueueMeasurement 3 3, .integrateMeasurements 15]

-- 時刻 10 の推定へ戻り、その推定に使われた時刻 10 の測定で再び補正する。
theorem fused_twice_short_history :
    ∃ s, runs (step (traced drift)) idleTraced shortHistory = some s ∧ ¬ s.filter.estimate.2.Nodup :=
  ⟨_, rfl, by decide⟩

end Main

end RosFilter

end Ranger.Localization.Lagged
