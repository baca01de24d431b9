import Ranger.Amcl.Laser

/-!
# 光線を飛ばす重みの更新

収束した標本の集合で光線を飛ばすとき、新しい重みが、その走査で処理した光線の尤度だけで決まる条件を求める。尤度は `temp_obs_` に
書かれ、`maxBeams` の数だけ読み返される。書かれなかった番号を読むと、前の走査の値が重みに掛かる。
-/

namespace Ranger.Amcl
open Ranger.Lib

namespace LikelihoodFieldModelProb

variable (self : LikelihoodFieldModelProb) (data : LaserData)

/-! ## 走査が処理する光線 -/

/-- 番号 `b` の光線の、処理される読み。 -/
noncomputable def slot (b : Nat) : Option (ℝ × ℝ) := data.reading (b * self.step data)

/-- 番号 `b` の光線の尤度。処理されない光線では `d` である。 -/
noncomputable def likelihood (sample : PfVector) (b : Nat) (d : ℝ) : ℝ :=
  ((self.slot data b).map (self.pz data sample)).getD d

open Classical in
/-- 番号 `b` の光線が地図と合うとき `1`、合わないとき `0` である。 -/
noncomputable def slotCount (sample : PfVector) (b : Nat) : Nat :=
  if ∃ obs, self.slot data b = some obs ∧ self.Agrees sample obs then 1 else 0

/-- 番号 `b` の光線が `assert` を通る。`assert` を消したビルドでは、いつも通る。 -/
def SlotOk (sample : PfVector) (b : Nat) : Prop :=
  ∀ obs, self.slot data b = some obs →
    ¬ (self.asserts = true ∧ ¬ (self.pz data sample obs ≤ 1 ∧ 0 ≤ self.pz data sample obs))

/-- どの走査の光線も、負の尤度を蓄えない。 -/
def NeverNegative : Prop :=
  self.asserts = true ∨ ∀ data sample obs, obs.1 < data.rangeMax → 0 ≤ self.pz data sample obs

/-- 処理した光線の番号。 -/
noncomputable def processed : Finset Nat := {b ∈ Finset.range data.ranges.length | (self.slot data b).isSome}

section Slot

variable {self data}

theorem reading_of_le {i : Nat} (h : data.ranges.length ≤ i) : data.reading i = none := by
  simp [LaserData.reading, List.getElem?_eq_none h]

theorem step_pos : 0 < self.step data := by
  simp only [step]
  split <;> omega

theorem length_le_mul_step : data.ranges.length ≤ self.maxBeams * self.step data := by
  have hbeams : 0 < self.maxBeams := by have := self.two_le_maxBeams; omega
  have hceil : ⌈(data.ranges.length : ℝ) / self.maxBeams⌉₊ ≤ self.step data := by
    simp only [step]
    split <;> omega
  have hreal : (data.ranges.length : ℝ) / self.maxBeams ≤ self.step data := Nat.ceil_le.mp hceil
  rw [div_le_iff₀ (by exact_mod_cast hbeams), mul_comm] at hreal
  exact_mod_cast hreal

theorem lt_of_slot {b : Nat} {obs : ℝ × ℝ} (h : self.slot data b = some obs) :
    b * self.step data < data.ranges.length := by
  by_contra hle
  rw [slot, reading_of_le (Nat.le_of_not_lt hle)] at h
  exact absurd h (by simp)

/-- 処理した光線の番号は `maxBeams` より小さい。 -/
theorem slot_lt_maxBeams {b : Nat} {obs : ℝ × ℝ} (h : self.slot data b = some obs) : b < self.maxBeams :=
  lt_of_mul_lt_mul_right ((lt_of_slot h).trans_le length_le_mul_step) (Nat.zero_le _)

theorem mem_processed {b : Nat} : b ∈ self.processed data ↔ (self.slot data b).isSome := by
  simp only [processed, Finset.mem_filter, Finset.mem_range, and_iff_right_iff_imp]
  intro h
  obtain ⟨obs, hobs⟩ := Option.isSome_iff_exists.mp h
  exact (Nat.le_mul_of_pos_right b step_pos).trans_lt (lt_of_slot hobs)

theorem likelihood_of_some {sample : PfVector} {b : Nat} {d : ℝ} {obs : ℝ × ℝ} (h : self.slot data b = some obs) :
    self.likelihood data sample b d = self.pz data sample obs := by
  simp [likelihood, h]

theorem likelihood_of_none {sample : PfVector} {b : Nat} {d : ℝ} (h : self.slot data b = none) :
    self.likelihood data sample b d = d := by
  simp [likelihood, h]

theorem slotCount_of_none {sample : PfVector} {b : Nat} (h : self.slot data b = none) :
    self.slotCount data sample b = 0 := by
  simp [slotCount, h]

theorem slotCount_of_some {sample : PfVector} {b : Nat} {obs : ℝ × ℝ} (h : self.slot data b = some obs)
    [Decidable (self.Agrees sample obs)] :
    self.slotCount data sample b = if self.Agrees sample obs then 1 else 0 := by
  simp [slotCount, h]

variable (self data) in
/-- 繰り返しは、番号を `0` から順に、読みのある限り訪れる。 -/
theorem exists_stride : ∃ m ≤ self.maxBeams, data.ranges.length ≤ m * self.step data ∧
    stride data.ranges.length (self.step data) 0 0 = (List.range m).map fun b => (b * self.step data, b) := by
  have hstep : 0 < self.step data := step_pos
  have hex : ∃ m, data.ranges.length ≤ m * self.step data := ⟨self.maxBeams, length_le_mul_step⟩
  refine ⟨Nat.find hex, Nat.find_min' hex length_le_mul_step, Nat.find_spec hex, ?_⟩
  exact stride_eq_map_range hstep (fun k hk => Nat.lt_of_not_le (Nat.find_min hex hk)) (Nat.find_spec hex)

end Slot

/-! ## 光線の繰り返し -/

/-- 番号 `k` の手前までの光線を処理した状態。 -/
noncomputable def marked (j : Nat) (sample : PfVector) (s : Scratch) (k : Nat) : Scratch where
  logP := s.logP
  obsCount b := if b < k then s.obsCount b + self.slotCount data sample b else s.obsCount b
  tempObs i b := if i = j ∧ b < k then self.likelihood data sample b (s.tempObs i b) else s.tempObs i b

noncomputable def written (j : Nat) (sample : PfVector) (s : Scratch) : Scratch where
  logP := s.logP
  obsCount b := s.obsCount b + self.slotCount data sample b
  tempObs i b := if i = j then self.likelihood data sample b (s.tempObs i b) else s.tempObs i b

section Beams

variable {self data} {j : Nat} {sample : PfVector} {s : Scratch}

theorem marked_zero : self.marked data j sample s 0 = s := by
  simp [marked]

theorem marked_eq_written {k : Nat} (hk : data.ranges.length ≤ k * self.step data) :
    self.marked data j sample s k = self.written data j sample s := by
  have hnone : ∀ b, ¬ b < k → self.slot data b = none := by
    intro b hb
    exact reading_of_le (hk.trans (Nat.mul_le_mul_right _ (Nat.le_of_not_lt hb)))
  simp only [marked, written, Scratch.mk.injEq, true_and]
  refine ⟨funext fun b => ?_, funext fun i => funext fun b => ?_⟩
  · by_cases hb : b < k
    · simp [hb]
    · simp [hb, slotCount_of_none (hnone b hb)]
  · by_cases hb : b < k
    · simp [hb]
    · simp [hb, likelihood_of_none (hnone b hb)]

/-- 処理されない光線では、状態は変わらない。 -/
theorem marked_succ_of_none {k : Nat} (hk : self.slot data k = none) :
    self.marked data j sample s (k + 1) = self.marked data j sample s k := by
  simp only [marked, Scratch.mk.injEq, true_and]
  refine ⟨funext fun b => ?_, funext fun i => funext fun b => ?_⟩
  · rcases eq_or_ne b k with rfl | hb
    · simp [slotCount_of_none hk]
    · simp only [show b < k + 1 ↔ b < k by omega]
  · rcases eq_or_ne b k with rfl | hb
    · simp [likelihood_of_none hk]
    · simp only [show b < k + 1 ↔ b < k by omega]

theorem marked_succ_obsCount (k : Nat) :
    (self.marked data j sample s (k + 1)).obsCount =
      Function.update (self.marked data j sample s k).obsCount k (s.obsCount k + self.slotCount data sample k) := by
  funext b
  rcases eq_or_ne b k with rfl | hb
  · simp [marked]
  · simp only [marked, Function.update_of_ne hb, show b < k + 1 ↔ b < k by omega]

theorem marked_succ_tempObs {k : Nat} {obs : ℝ × ℝ} (hk : self.slot data k = some obs) :
    (self.marked data j sample s (k + 1)).tempObs =
      Function.update (self.marked data j sample s k).tempObs j
        (Function.update ((self.marked data j sample s k).tempObs j) k (self.pz data sample obs)) := by
  funext i b
  rcases eq_or_ne i j with rfl | hi
  · rcases eq_or_ne b k with rfl | hb
    · simp [marked, likelihood_of_some hk]
    · simp only [marked, Function.update_self, Function.update_of_ne hb, show b < k + 1 ↔ b < k by omega]
  · simp [marked, hi]

open Classical in
theorem beam_of_some {doBeamskip : Bool} {i b : Nat} {obs : ℝ × ℝ} (hr : data.reading i = some obs) :
    self.beam data doBeamskip j sample s (i, b) =
      if self.asserts = true ∧ ¬ (self.pz data sample obs ≤ 1 ∧ 0 ≤ self.pz data sample obs) then none
      else
        some
          { logP := if doBeamskip then s.logP else addLog s.logP (self.pz data sample obs)
            obsCount := Function.update s.obsCount b (s.obsCount b + if self.Agrees sample obs then 1 else 0)
            tempObs :=
              if doBeamskip then
                Function.update s.tempObs j (Function.update (s.tempObs j) b (self.pz data sample obs))
              else s.tempObs } := by
  simp only [beam, hr]
  by_cases hpz : self.asserts = true ∧ ¬ (self.pz data sample obs ≤ 1 ∧ 0 ≤ self.pz data sample obs)
  · rw [if_pos hpz, if_pos hpz]
  · rw [if_neg hpz, if_neg hpz]
    by_cases hagrees : self.Agrees sample obs
    · cases doBeamskip <;> simp [hagrees]
    · cases doBeamskip <;> simp [hagrees]

theorem beam_marked {k : Nat} (hok : self.SlotOk data sample k) :
    self.beam data true j sample (self.marked data j sample s k) (k * self.step data, k) =
      some (self.marked data j sample s (k + 1)) := by
  classical
  cases hk : self.slot data k with
  | none =>
      have hr : data.reading (k * self.step data) = none := hk
      simp [beam, hr, marked_succ_of_none hk]
  | some obs =>
      have hcount : (self.marked data j sample s k).obsCount k = s.obsCount k := by simp [marked]
      rw [beam_of_some hk, if_neg (hok obs hk), hcount, ← slotCount_of_some hk, ← marked_succ_obsCount,
        if_pos rfl, if_pos rfl, ← marked_succ_tempObs hk]
      rfl

theorem beam_of_not_ok {k : Nat} (hok : ¬ self.SlotOk data sample k) :
    self.beam data true j sample s (k * self.step data, k) = none := by
  simp only [SlotOk, not_forall, not_not] at hok
  obtain ⟨obs, hk, hpz⟩ := hok
  rw [beam_of_some hk, if_pos hpz]

theorem runs_beam_marked (hok : ∀ b, self.SlotOk data sample b) (d k : Nat) :
    runs (self.beam data true j sample) (self.marked data j sample s k)
      ((List.range' k d).map fun b => (b * self.step data, b)) = some (self.marked data j sample s (k + d)) := by
  induction d generalizing k with
  | zero => rfl
  | succ d ih =>
      rw [List.range'_succ, List.map_cons, runs_cons (beam_marked (hok k)), ih, Nat.add_right_comm, Nat.add_assoc]

theorem runs_stride (hok : ∀ b, self.SlotOk data sample b) :
    runs (self.beam data true j sample) s (stride data.ranges.length (self.step data) 0 0) =
      some (self.written data j sample s) := by
  obtain ⟨m, -, hm, hstride⟩ := exists_stride self data
  have hrun := runs_beam_marked (s := s) (j := j) hok m 0
  rw [marked_zero, Nat.zero_add, marked_eq_written hm, ← List.range_eq_range'] at hrun
  rw [hstride, hrun]

theorem runs_stride_of_not_ok {b : Nat} (hok : ¬ self.SlotOk data sample b) :
    runs (self.beam data true j sample) s (stride data.ranges.length (self.step data) 0 0) = none := by
  obtain ⟨m, -, hm, hstride⟩ := exists_stride self data
  have hb : b < m := by
    simp only [SlotOk, not_forall] at hok
    obtain ⟨obs, hslot, -⟩ := hok
    exact lt_of_mul_lt_mul_right ((lt_of_slot hslot).trans_le hm) (Nat.zero_le _)
  have hmem : (b * self.step data, b) ∈ stride data.ranges.length (self.step data) 0 0 := by
    rw [hstride]
    exact List.mem_map.mpr ⟨b, List.mem_range.mpr hb, rfl⟩
  exact runs_eq_none_of_mem hmem (fun _ => beam_of_not_ok hok) s

end Beams

/-! ## 標本の繰り返し -/

/-- 番号 `b` の光線が地図と合う標本の数。 -/
noncomputable def agreement (samples : List Sample) (b : Nat) : Nat :=
  (samples.map fun sample => self.slotCount data sample.pose b).sum

/-- どの標本でも、処理した光線が `assert` を通る。 -/
def Asserted (samples : List Sample) : Prop := ∀ sample ∈ samples, ∀ b, self.SlotOk data sample.pose b

section Samples

variable {self data} {samples : List Sample}

theorem weighSamples_of_asserted (hok : self.Asserted data samples) (j : Nat) (s : Scratch) :
    ∃ s', self.weighSamples data true j samples s = some (samples.map (some ·.weight), s') ∧
      (∀ b, s'.obsCount b = s.obsCount b + self.agreement data samples b) ∧
      (∀ i < j, s'.tempObs i = s.tempObs i) ∧
      ∀ i b, s'.tempObs (j + i) b = samples[i]?.elim (s.tempObs (j + i) b) fun sample =>
        self.likelihood data sample.pose b (s.tempObs (j + i) b) := by
  induction samples generalizing j s with
  | nil => exact ⟨s, rfl, by simp [agreement], fun _ _ => rfl, fun _ _ => rfl⟩
  | cons sample samples ih =>
      obtain ⟨hhead, hrest⟩ := List.forall_mem_cons.mp hok
      obtain ⟨s', hrun, hcount, hbelow, htemp⟩ :=
        ih hrest (j + 1) (self.written data j sample.pose { s with logP := some 0 })
      refine ⟨s', ?_, fun b => ?_, fun i hi => ?_, fun i b => ?_⟩
      · simp [weighSamples, runs_stride hhead, hrun]
      · rw [hcount b]
        simp only [written, agreement, List.map_cons, List.sum_cons, Nat.add_assoc]
      · rw [hbelow i (by omega)]
        funext b
        simp only [written, if_neg (Nat.ne_of_lt hi)]
      · cases i with
        | zero =>
            rw [Nat.add_zero, hbelow j (Nat.lt_succ_self j)]
            simp [written]
        | succ i =>
            have hne : j + 1 + i ≠ j := by omega
            rw [show j + (i + 1) = j + 1 + i by omega, htemp i b]
            simp only [written, if_neg hne, List.getElem?_cons_succ]

theorem weighSamples_of_not_asserted (hok : ¬ self.Asserted data samples) (j : Nat) (s : Scratch) :
    self.weighSamples data true j samples s = none := by
  induction samples generalizing j s with
  | nil => exact absurd (by simp [Asserted]) hok
  | cons sample samples ih =>
      by_cases hhead : ∀ b, self.SlotOk data sample.pose b
      · have hrest : ¬ self.Asserted data samples := fun h => hok (List.forall_mem_cons.mpr ⟨hhead, h⟩)
        simp [weighSamples, runs_stride hhead, ih hrest]
      · obtain ⟨b, hb⟩ := not_forall.mp hhead
        simp [weighSamples, runs_stride_of_not_ok hb]

end Samples

/-! ## 蓄えの不変条件 -/

/-- `rows` 行 `cols` 列の外には書かれず、負の尤度を蓄えないセンサモデルでは、値は負でない。 -/
def Within (rows cols : Nat) (obs : Nat → Nat → ℝ) : Prop :=
  ∀ j b, (self.NeverNegative → 0 ≤ obs j b) ∧ (rows ≤ j ∨ cols ≤ b → obs j b = 0)

section Within

variable {self data} {rows cols : Nat} {doBeamskip : Bool}

theorem within_zero : self.Within rows cols fun _ _ => 0 := by
  intro j b
  simp

theorem Within.update {obs : Nat → Nat → ℝ} (h : self.Within rows cols obs) {j b : Nat} (hj : j < rows) (hb : b < cols)
    {p : ℝ} (hp : self.NeverNegative → 0 ≤ p) :
    self.Within rows cols (Function.update obs j (Function.update (obs j) b p)) := by
  intro i c
  rcases eq_or_ne i j with rfl | hi
  · rcases eq_or_ne c b with rfl | hc
    · simp only [Function.update_self]
      exact ⟨hp, fun hout => by omega⟩
    · simpa only [Function.update_self, Function.update_of_ne hc] using h i c
  · simpa only [Function.update_of_ne hi] using h i c

theorem lt_rangeMax_of_reading {i : Nat} {obs : ℝ × ℝ} (hr : data.reading i = some obs) : obs.1 < data.rangeMax := by
  simp only [LaserData.reading] at hr
  split at hr
  case h_1 =>
    split at hr
    case isTrue => cases hr
    case isFalse hlt =>
      cases hr
      exact not_le.mp hlt
  case h_2 => cases hr

theorem beam_within {j : Nat} {sample : PfVector} {s s' : Scratch} {v : Nat × Nat} (h : self.Within rows cols s.tempObs)
    (hin : doBeamskip = true → j < rows ∧ v.2 < cols) (hbeam : self.beam data doBeamskip j sample s v = some s') :
    self.Within rows cols s'.tempObs := by
  cases hr : data.reading v.1 with
  | none =>
      simp only [beam, hr, Option.some.injEq] at hbeam
      exact hbeam ▸ h
  | some obs =>
      rw [beam_of_some hr] at hbeam
      split at hbeam
      case isTrue => cases hbeam
      case isFalse hpz =>
        cases hbeam
        cases doBeamskip with
        | false => exact h
        | true =>
            refine h.update (hin rfl).1 (hin rfl).2 ?_
            rintro (hasserts | hnonneg)
            · exact (not_not.mp fun hout => hpz ⟨hasserts, hout⟩).2
            · exact hnonneg data sample obs (lt_rangeMax_of_reading hr)

theorem weighSamples_within {samples : List Sample} {weights : List (Option ℝ)} {j : Nat} {s s' : Scratch}
    (h : self.Within rows cols s.tempObs)
    (hin : doBeamskip = true → j + samples.length ≤ rows ∧ self.maxBeams ≤ cols)
    (hrun : self.weighSamples data doBeamskip j samples s = some (weights, s')) :
    self.Within rows cols s'.tempObs := by
  induction samples generalizing weights j s with
  | nil =>
      cases hrun
      exact h
  | cons sample samples ih =>
      simp only [weighSamples, Option.bind_eq_bind, Option.bind_eq_some_iff] at hrun
      obtain ⟨t, hbeams, ⟨rest, u⟩, hrest, hret⟩ := hrun
      cases hret
      have hstep : ∀ (a : Scratch) (v : Nat × Nat) (c : Scratch), self.Within rows cols a.tempObs →
          self.beam data doBeamskip j sample.pose a v = some c → v.2 < self.maxBeams →
            self.Within rows cols c.tempObs := by
        intro a v c ha hbeam hv
        refine beam_within ha (fun hskip => ?_) hbeam
        obtain ⟨hrows, hcols⟩ := hin hskip
        rw [List.length_cons] at hrows
        exact ⟨by omega, hv.trans_le hcols⟩
      have ht : self.Within rows cols t.tempObs := by
        have hs : self.Within rows cols ({ s with logP := some 0 } : Scratch).tempObs := h
        refine runs_inv hstep hs (Always.of_mem fun v hv _ _ _ => ?_) hbeams
        obtain ⟨m, hm, -, hstride⟩ := exists_stride self data
        rw [hstride] at hv
        obtain ⟨b, hb, rfl⟩ := List.mem_map.mp hv
        exact (List.mem_range.mp hb).trans_le hm
      refine ih ht (fun hskip => ?_) hrest
      obtain ⟨hrows, hcols⟩ := hin hskip
      rw [List.length_cons] at hrows
      exact ⟨by omega, hcols⟩

variable (self) in
theorem ensureTempData_within (doBeamskip : Bool) (n : Nat) {t : TempData}
    (h : self.Within t.maxSamples t.maxObs t.tempObs) :
    let t' := self.ensureTempData doBeamskip n t
    self.Within t'.maxSamples t'.maxObs t'.tempObs ∧
      (doBeamskip = true → n ≤ t'.maxSamples ∧ self.maxBeams ≤ t'.maxObs) := by
  simp only [ensureTempData]
  split
  case isTrue hrealloc => exact ⟨within_zero, fun _ => ⟨Nat.le_max_right _ _, Nat.le_refl _⟩⟩
  case isFalse hkeep =>
    refine ⟨h, fun hskip => ?_⟩
    simp only [hskip, true_and, not_or, Nat.not_lt] at hkeep
    exact ⟨hkeep.2, hkeep.1⟩

theorem scan_within {t t' : TempData} {scan : Scan} (h : self.Within t.maxSamples t.maxObs t.tempObs)
    (hscan : self.scan t scan = some t') : self.Within t'.maxSamples t'.maxObs t'.tempObs := by
  simp only [LikelihoodFieldModelProb.scan, sensorFunction, Option.map_eq_some_iff, Option.bind_eq_bind,
    Option.bind_eq_some_iff] at hscan
  obtain ⟨u, ⟨⟨weights, s⟩, hrun, hret⟩, rfl⟩ := hscan
  cases hret
  obtain ⟨hok, hsize⟩ := ensureTempData_within self (self.doBeamskip && scan.set.converged) scan.set.samples.length h
  refine weighSamples_within hok (fun hskip => ?_) hrun
  obtain ⟨hrows, hcols⟩ := hsize hskip
  exact ⟨by rwa [Nat.zero_add], hcols⟩

/-- 走査を重ねても、`temp_obs_` は、確保した領域の外には書かれない。 -/
theorem runs_within {scans : List Scan} {t : TempData} (hrun : runs self.scan TempData.new scans = some t) :
    self.Within t.maxSamples t.maxObs t.tempObs :=
  runs_inv (C := fun _ _ _ => True) (fun _ _ _ h hstep _ => scan_within h hstep) within_zero
    (Always.of_step fun _ _ _ _ => trivial) hrun

end Within

/-! ## 処理した光線だけで決まる重み -/

variable (set : SampleSet)

/-- 番号 `b` の光線が、`beamSkipThreshold` を超える割合の標本で地図と合う。 -/
def Agreed (b : Nat) : Prop := self.ObsMask set.samples.length (self.agreement data set.samples) b

/-- 地図と合わない番号が、`beamSkipErrorThreshold` の割合に達する。 -/
def Lost : Prop := self.Error set.samples.length (self.agreement data set.samples)

open Classical in
/-- 重みに掛ける光線の番号。処理した光線だけを含む。 -/
noncomputable def integrated : Finset Nat :=
  {b ∈ self.processed data | self.Lost data set ∨ self.Agreed data set b}

/-- 元の重みに、処理した光線の尤度を掛けた重み。 -/
noncomputable def idealWeight (sample : Sample) : ℝ :=
  sample.weight * ∏ b ∈ self.integrated data set, self.likelihood data sample.pose b 1

open Classical in
/-- 走査、地図、標本の位置と元の重みだけで決まる結果。 -/
noncomputable def idealWeights : Option (List (Option ℝ)) :=
  if self.Asserted data set.samples then some (set.samples.map fun sample => some (self.idealWeight data set sample))
  else none

/-- 重みに掛ける光線の尤度が負でなく、その対数がある。 -/
def HasLogs (sample : Sample) : Prop :=
  ∀ b ∈ self.integrated data set, 0 ≤ self.likelihood data sample.pose b 1

open Classical in
/-- 読まれるが、この走査では書かれない番号。 -/
noncomputable def leaked : Finset Nat :=
  {b ∈ Finset.range self.maxBeams | (self.Lost data set ∨ self.Agreed data set b) ∧ self.slot data b = none}

section Ideal

variable {self data set}

variable (self data set) in
/-- 読まれる番号の積は、処理した光線の尤度の積と、残っていた値の積に分かれる。 -/
theorem prod_read [DecidablePred fun b => self.Lost data set ∨ self.Agreed data set b] (sample : PfVector)
    (old : Nat → ℝ) :
    ∏ b ∈ Finset.range self.maxBeams with self.Lost data set ∨ self.Agreed data set b,
        self.likelihood data sample b (old b) =
      (∏ b ∈ self.integrated data set, self.likelihood data sample b 1) * ∏ b ∈ self.leaked data set, old b := by
  classical
  rw [← Finset.prod_filter_mul_prod_filter_not _ (fun b => (self.slot data b).isSome)]
  congr 1
  · refine Finset.prod_congr ?_ fun b hb => ?_
    · ext b
      simp only [Finset.mem_filter, Finset.mem_range, integrated, mem_processed]
      constructor
      · rintro ⟨⟨-, huse⟩, hsome⟩
        exact ⟨hsome, huse⟩
      · rintro ⟨hsome, huse⟩
        obtain ⟨obs, hobs⟩ := Option.isSome_iff_exists.mp hsome
        exact ⟨⟨slot_lt_maxBeams hobs, huse⟩, hsome⟩
    · simp only [integrated, Finset.mem_filter, mem_processed] at hb
      obtain ⟨obs, hobs⟩ := Option.isSome_iff_exists.mp hb.1
      rw [likelihood_of_some hobs, likelihood_of_some hobs]
  · refine Finset.prod_congr ?_ fun b hb => ?_
    · ext b
      simp only [Finset.mem_filter, leaked, and_assoc, Option.not_isSome_iff_eq_none]
    · simp only [leaked, Finset.mem_filter] at hb
      rw [likelihood_of_none hb.2.2]

/-- 読まれる番号の値が負でないことも、処理した光線と、残っていた値に分かれる。 -/
theorem forall_read_nonneg (sample : Sample) (old : Nat → ℝ) :
    (∀ b ∈ Finset.range self.maxBeams, self.Lost data set ∨ self.Agreed data set b →
        0 ≤ self.likelihood data sample.pose b (old b)) ↔
      self.HasLogs data set sample ∧ ∀ b ∈ self.leaked data set, 0 ≤ old b := by
  simp only [HasLogs, integrated, leaked, Finset.mem_filter, Finset.mem_range, mem_processed, and_imp]
  constructor
  · intro h
    refine ⟨fun b hsome huse => ?_, fun b hlt huse hnone => ?_⟩
    · obtain ⟨obs, hobs⟩ := Option.isSome_iff_exists.mp hsome
      have hb := h b (slot_lt_maxBeams hobs) huse
      rwa [likelihood_of_some hobs] at hb ⊢
    · have hb := h b hlt huse
      rwa [likelihood_of_none hnone] at hb
  · rintro ⟨hlogs, hold⟩ b hlt huse
    cases hslot : self.slot data b with
    | none => exact likelihood_of_none hslot ▸ hold b hlt huse hslot
    | some obs =>
        have hb := hlogs b (by simp [hslot]) huse
        rwa [likelihood_of_some hslot] at hb ⊢

theorem leaked_eq_empty_iff : self.leaked data set = ∅ ↔
    Finset.range self.maxBeams ⊆ self.processed data ∨ (0 ≤ self.beamSkipThreshold ∧ ¬ self.Lost data set) := by
  have hagreed : ∀ b, self.slot data b = none → (self.Agreed data set b ↔ self.beamSkipThreshold < 0) := by
    intro b hb
    have hzero : self.agreement data set.samples b = 0 := by
      simp [agreement, slotCount_of_none hb]
    simp [Agreed, ObsMask, hzero]
  simp only [leaked, Finset.filter_eq_empty_iff, Finset.subset_iff, Finset.mem_range, mem_processed]
  constructor
  · intro h
    by_contra hcon
    simp only [not_or, not_forall, Option.not_isSome_iff_eq_none] at hcon
    obtain ⟨⟨b, hb, hnone⟩, hmode⟩ := hcon
    refine h hb ⟨?_, hnone⟩
    rw [hagreed b hnone]
    by_contra hneither
    rw [not_or, not_lt] at hneither
    exact hmode ⟨hneither.2, hneither.1⟩
  · rintro (hall | ⟨hthr, hlost⟩) b hb ⟨huse, hnone⟩
    · exact absurd (hall hb) (by simp [hnone])
    · rw [hagreed b hnone] at huse
      exact huse.elim hlost (not_lt.mpr hthr)

theorem weights_of_weighSamples (hskip : self.doBeamskip = true) (hconv : set.converged = true) {t : TempData}
    {weights : List (Option ℝ)} {s : Scratch} (hrun : self.weighSamples data true 0 set.samples
      ⟨some 0, fun _ => 0, (self.ensureTempData true set.samples.length t).tempObs⟩ = some (weights, s)) :
    (self.sensorFunction data set t).map Update.weights = some (set.samples.mapIdx fun j sample =>
      mulExp sample.weight (self.integrate set.samples.length s.obsCount (s.tempObs j))) := by
  simp only [sensorFunction, hskip, hconv, Bool.and_self, hrun, Option.bind_eq_bind, Option.bind_some, if_true]
  rfl

open Classical in
theorem mulExp_integrate (weight : ℝ) (row : Nat → ℝ) :
    mulExp weight (self.integrate set.samples.length (self.agreement data set.samples) row) =
      if ∀ b ∈ Finset.range self.maxBeams, self.Lost data set ∨ self.Agreed data set b → 0 ≤ row b then
        some (weight * ∏ b ∈ Finset.range self.maxBeams with self.Lost data set ∨ self.Agreed data set b, row b)
      else none := by
  have hmul : ∀ p : Option EReal, mulExp weight p = (p.map expOf).map (weight * ·) := by
    intro p
    rw [mulExp, Option.map_map]
    rfl
  have hfold := expOf_foldl_addLog (fun b => self.Lost data set ∨ self.Agreed data set b) row self.maxBeams
  rw [hmul]
  simp only [integrate]
  refine (congrArg (Option.map (weight * ·)) hfold).trans ?_
  split <;> rfl

open Classical in
/-- 標本 `j` の新しい重みには、読まれるが書かれなかった番号の、残っていた値が掛かる。 -/
theorem weights_of_asserted (hskip : self.doBeamskip = true) (hconv : set.converged = true)
    (hok : self.Asserted data set.samples) (t : TempData) :
    (self.sensorFunction data set t).map Update.weights = some (set.samples.mapIdx fun j sample =>
      if self.HasLogs data set sample ∧
          ∀ b ∈ self.leaked data set, 0 ≤ (self.ensureTempData true set.samples.length t).tempObs j b then
        some (self.idealWeight data set sample *
          ∏ b ∈ self.leaked data set, (self.ensureTempData true set.samples.length t).tempObs j b)
      else none) := by
  obtain ⟨s, hrun, hcount, -, htemp⟩ := weighSamples_of_asserted hok 0
    ⟨some 0, fun _ => 0, (self.ensureTempData true set.samples.length t).tempObs⟩
  have hcounts : s.obsCount = self.agreement data set.samples := by
    funext b
    rw [hcount b, Nat.zero_add]
  rw [weights_of_weighSamples hskip hconv hrun, Option.some.injEq]
  refine List.ext_getElem? fun j => ?_
  rw [List.getElem?_mapIdx, List.getElem?_mapIdx]
  cases hj : set.samples[j]? with
  | none => rfl
  | some sample =>
      have hrow : s.tempObs j = fun b =>
          self.likelihood data sample.pose b ((self.ensureTempData true set.samples.length t).tempObs j b) := by
        funext b
        have h := htemp j b
        rwa [Nat.zero_add, hj] at h
      rw [Option.map_some, Option.map_some, Option.some.injEq, hcounts, hrow, mulExp_integrate]
      simp only [forall_read_nonneg, prod_read, idealWeight, mul_assoc]

theorem weights_eq_idealWeights_iff (hskip : self.doBeamskip = true) (hconv : set.converged = true)
    (hok : self.Asserted data set.samples) (t : TempData) :
    (self.sensorFunction data set t).map Update.weights = self.idealWeights data set ↔
      ∀ j sample, set.samples[j]? = some sample → (self.HasLogs data set sample ∧
        ∀ b ∈ self.leaked data set, 0 ≤ (self.ensureTempData true set.samples.length t).tempObs j b) ∧
        self.idealWeight data set sample *
          ∏ b ∈ self.leaked data set, (self.ensureTempData true set.samples.length t).tempObs j b =
            self.idealWeight data set sample := by
  rw [weights_of_asserted hskip hconv hok, idealWeights, if_pos hok, Option.some.injEq, List.mapIdx_eq_iff]
  refine forall_congr' fun j => ?_
  rw [List.getElem?_map]
  cases hj : set.samples[j]? with
  | none => simp
  | some sample =>
      simp only [Option.map_some, Option.some.injEq, forall_eq']
      split
      case isTrue hreal => rw [Option.some.injEq, eq_comm, and_iff_right hreal]
      case isFalse hnan => simp only [hnan, reduceCtorEq, false_and]

theorem weights_of_not_asserted (hskip : self.doBeamskip = true) (hconv : set.converged = true)
    (hok : ¬ self.Asserted data set.samples) (t : TempData) :
    (self.sensorFunction data set t).map Update.weights = none := by
  simp [sensorFunction, hskip, hconv, weighSamples_of_not_asserted hok]

/-- 走査の後の `temp_obs_` では、処理した光線の番号に尤度が入り、ほかは元のままである。 -/
theorem scan_of_asserted (set : SampleSet) (hskip : self.doBeamskip = true) (hconv : set.converged = true)
    (hok : self.Asserted data set.samples) (t : TempData) :
    ∃ obs, self.scan t ⟨data, set⟩ = some { self.ensureTempData true set.samples.length t with tempObs := obs } ∧
      ∀ j b, obs j b = set.samples[j]?.elim ((self.ensureTempData true set.samples.length t).tempObs j b) fun sample =>
        self.likelihood data sample.pose b ((self.ensureTempData true set.samples.length t).tempObs j b) := by
  obtain ⟨s, hrun, -, -, htemp⟩ := weighSamples_of_asserted hok 0
    ⟨some 0, fun _ => 0, (self.ensureTempData true set.samples.length t).tempObs⟩
  refine ⟨s.tempObs, ?_, fun j b => ?_⟩
  · simp only [LikelihoodFieldModelProb.scan, sensorFunction, hskip, hconv, Bool.and_self, hrun, Option.bind_eq_bind,
      Option.bind_some]
    rfl
  · have h := htemp j b
    rwa [Nat.zero_add] at h

/-- 負の尤度を蓄えうるセンサモデルでは、走査を一度行うと、どの行のどの番号にも負の値が残りうる。 -/
theorem exists_negative (hskip : self.doBeamskip = true) (hneg : ¬ self.NeverNegative) {n j b : Nat} (hj : j < n)
    (hb : b < self.maxBeams) :
    ∃ scan t, self.scan TempData.new scan = some t ∧ (self.ensureTempData true n t).tempObs j b < 0 := by
  simp only [NeverNegative, not_or, not_forall, not_le] at hneg
  obtain ⟨hasserts, data, sample, obs, hlt, hpz⟩ := hneg
  let earlier : LaserData := ⟨data.rangeMax, List.replicate self.maxBeams (some obs.1, obs.2)⟩
  have hbeams : (self.maxBeams : ℝ) ≠ 0 := Nat.cast_ne_zero.mpr (by omega)
  have hstep : self.step earlier = 1 := by
    simp [step, earlier, div_self hbeams]
  have hslot : self.slot earlier b = some obs := by
    simp [slot, hstep, LaserData.reading, earlier, hb, not_le.mpr hlt]
  have hok : self.Asserted earlier (List.replicate n ⟨sample, 0⟩) :=
    fun _ _ _ _ _ hfail => hasserts hfail.1
  obtain ⟨row, hscan, hrow⟩ := scan_of_asserted ⟨List.replicate n ⟨sample, 0⟩, true⟩ hskip rfl hok TempData.new
  refine ⟨_, _, hscan, ?_⟩
  have hkept : ∀ t : TempData, self.maxBeams ≤ t.maxObs → n ≤ t.maxSamples → self.ensureTempData true n t = t := by
    intro t hobs hsamples
    rw [ensureTempData, if_neg]
    omega
  obtain ⟨-, hsize⟩ := ensureTempData_within self true n (t := TempData.new) within_zero
  rw [List.length_replicate] at hrow ⊢
  have hstored := hkept { self.ensureTempData true n TempData.new with tempObs := row } (hsize rfl).2 (hsize rfl).1
  refine (congrArg (fun t => TempData.tempObs t j b) hstored).trans_lt ?_
  change row j b < 0
  rw [hrow, List.getElem?_replicate_of_lt hj]
  exact (likelihood_of_some hslot).trans_lt hpz

end Ideal

end LikelihoodFieldModelProb

/-! ## 障害物のない地図の例 -/

open LikelihoodFieldModelProb

/-- 障害物のない地図と、既定の値の設定。光線は二本で、`assert` のないビルドである。 -/
noncomputable def freeRoom : LikelihoodFieldModelProb where
  zHit := 0.5
  zRand := 0.5
  sigmaHit := 0.2
  map := ⟨0, 0, 0.05, 1, 1, fun _ => 2.0, 2.0⟩
  laserPose := ⟨0, 0, 0⟩
  maxBeams := 2
  two_le_maxBeams := Nat.le_refl 2
  asserts := false
  doBeamskip := true
  beamSkipDistance := 0.5
  beamSkipThreshold := 0.3
  beamSkipErrorThreshold := 0.9

def oneSample : SampleSet := ⟨[⟨⟨0, 0, 0⟩, 1⟩], true⟩

/-- 二本の光線の走査。二本目の距離は `second` である。 -/
noncomputable def twoBeams (second : Option ℝ) : LaserData := ⟨10.0, [(some 1, 0), (second, 1)]⟩

section FreeRoom

variable (second : Option ℝ)

theorem freeRoom_hitDistance (sample : PfVector) (obs : ℝ × ℝ) :
    freeRoom.hitDistance sample obs = none ∨ freeRoom.hitDistance sample obs = some 2.0 := by
  simp only [hitDistance, Map.occDistAt]
  split
  · exact .inr rfl
  · exact .inl rfl

theorem freeRoom_pz (sample : PfVector) (obs : ℝ × ℝ) :
    freeRoom.pz (twoBeams second) sample obs = 0.5 * freeRoom.maxDistProb + 0.05 := by
  have hrand : freeRoom.zRand * (1 / (twoBeams second).rangeMax) = 0.05 := by
    norm_num [freeRoom, twoBeams]
  rcases freeRoom_hitDistance sample obs with h | h
  · simp only [pz, h, hrand]
    rfl
  · simp only [pz, h, hrand]
    rfl

theorem freeRoom_not_agrees (sample : PfVector) (obs : ℝ × ℝ) : ¬ freeRoom.Agrees sample obs := by
  rintro ⟨z, hz, hlt⟩
  rcases freeRoom_hitDistance sample obs with h | h
  · rw [h] at hz
    cases hz
  · rw [h] at hz
    cases hz
    norm_num [freeRoom] at hlt

theorem freeRoom_maxDistProb : 0 < freeRoom.maxDistProb ∧ freeRoom.maxDistProb ≤ 1 := by
  refine ⟨Real.exp_pos _, Real.exp_le_one_iff.mpr ?_⟩
  norm_num [freeRoom, zHitDenom]

theorem freeRoom_asserted : freeRoom.Asserted (twoBeams second) oneSample.samples := by
  rintro sample - b obs - ⟨hasserts, -⟩
  cases hasserts

theorem freeRoom_hasLogs (sample : Sample) : freeRoom.HasLogs (twoBeams second) oneSample sample := by
  intro b hb
  simp only [integrated, Finset.mem_filter, mem_processed] at hb
  obtain ⟨obs, hobs⟩ := Option.isSome_iff_exists.mp hb.1
  have hpos := freeRoom_maxDistProb.1
  rw [likelihood_of_some hobs, freeRoom_pz]
  positivity

theorem freeRoom_step : freeRoom.step (twoBeams second) = 1 := by
  norm_num [step, freeRoom, twoBeams]

theorem freeRoom_lost : freeRoom.Lost (twoBeams second) oneSample := by
  have hcount : ∀ b, freeRoom.agreement (twoBeams second) oneSample.samples b = 0 := by
    intro b
    simp [agreement, oneSample, slotCount, freeRoom_not_agrees]
  have hmask : ∀ b, ¬ freeRoom.ObsMask oneSample.samples.length
      (freeRoom.agreement (twoBeams second) oneSample.samples) b := by
    intro b
    rw [ObsMask, hcount b]
    norm_num [freeRoom]
  have hskipped : freeRoom.skippedBeamCount oneSample.samples.length
      (freeRoom.agreement (twoBeams second) oneSample.samples) = 2 := by
    simp only [skippedBeamCount, hmask, not_false_eq_true, decide_true, List.countP_true, List.length_range]
    rfl
  rw [Lost, Error, hskipped]
  norm_num [freeRoom]

theorem freeRoom_slot_zero : freeRoom.slot (twoBeams second) 0 = some (1, 0) := by
  norm_num [slot, freeRoom_step, LaserData.reading, twoBeams]

theorem freeRoom_slot_one : freeRoom.slot (twoBeams (some 1)) 1 = some (1, 1) := by
  rw [slot, freeRoom_step]
  norm_num [LaserData.reading, twoBeams]

theorem freeRoom_slot_nan : freeRoom.slot (twoBeams none) 1 = none := by
  rw [slot, freeRoom_step]
  rfl

theorem freeRoom_integrated : freeRoom.integrated (twoBeams none) oneSample = {0} := by
  ext b
  simp only [integrated, Finset.mem_filter, mem_processed, freeRoom_lost, true_or, and_true, Finset.mem_singleton]
  constructor
  · intro hsome
    obtain ⟨obs, hobs⟩ := Option.isSome_iff_exists.mp hsome
    have hlt : b < 2 := slot_lt_maxBeams hobs
    have hne : b ≠ 1 := by
      rintro rfl
      simp [freeRoom_slot_nan] at hsome
    omega
  · rintro rfl
    simp [freeRoom_slot_zero]

theorem freeRoom_leaked : freeRoom.leaked (twoBeams none) oneSample = {1} := by
  ext b
  simp only [leaked, Finset.mem_filter, freeRoom_lost, true_or, true_and, Finset.mem_range, Finset.mem_singleton]
  constructor
  · rintro ⟨hlt, hnone⟩
    have hlt' : b < 2 := hlt
    have hne : b ≠ 0 := by
      rintro rfl
      simp [freeRoom_slot_zero] at hnone
    omega
  · rintro rfl
    exact ⟨Nat.lt_succ_self 1, freeRoom_slot_nan⟩

theorem freeRoom_idealWeight :
    freeRoom.idealWeight (twoBeams none) oneSample ⟨⟨0, 0, 0⟩, 1⟩ = 0.5 * freeRoom.maxDistProb + 0.05 := by
  rw [idealWeight, freeRoom_integrated, Finset.prod_singleton, likelihood_of_some (freeRoom_slot_zero none), freeRoom_pz,
    one_mul]

/-- 二本目が NaN の走査の新しい重み。二本目の番号に残っていた値が掛かる。 -/
theorem freeRoom_weights_nan {t : TempData} (ht : 0 ≤ (freeRoom.ensureTempData true 1 t).tempObs 0 1) :
    (freeRoom.sensorFunction (twoBeams none) oneSample t).map Update.weights =
      some [some ((0.5 * freeRoom.maxDistProb + 0.05) * (freeRoom.ensureTempData true 1 t).tempObs 0 1)] := by
  have hlen : oneSample.samples.length = 1 := rfl
  have hsamples : oneSample.samples = [⟨⟨0, 0, 0⟩, 1⟩] := rfl
  rw [weights_of_asserted rfl rfl (freeRoom_asserted none), freeRoom_leaked, hlen, hsamples, ← freeRoom_idealWeight]
  simp [freeRoom_hasLogs none, ht]

end FreeRoom

/-! ## 前の走査に依らない条件 -/

/-- 光線を飛ばすとき、どの走査を重ねた後でも新しい重みが処理した光線の尤度だけで決まるのは、重みに掛ける尤度が負でなく、
すべての番号が処理した光線であるか、閾値が負でなく地図と合わない番号が少ないか、負の尤度を蓄えずに正しい重みが `0` であるとき、
またそのときに限る。 -/
theorem sensorFunction_weights_iff (self : LikelihoodFieldModelProb) (data : LaserData) (set : SampleSet)
    (hskip : self.doBeamskip = true) (hconv : set.converged = true) :
    (∀ earlier t, runs self.scan TempData.new earlier = some t →
      (self.sensorFunction data set t).map Update.weights = self.idealWeights data set) ↔
    (self.Asserted data set.samples → ∀ sample ∈ set.samples, self.HasLogs data set sample ∧
      ((Finset.range self.maxBeams ⊆ self.processed data ∨ (0 ≤ self.beamSkipThreshold ∧ ¬ self.Lost data set)) ∨
        (self.NeverNegative ∧ self.idealWeight data set sample = 0))) := by
  by_cases hok : self.Asserted data set.samples
  case neg =>
    refine iff_of_true (fun earlier t _ => ?_) fun h => absurd h hok
    rw [weights_of_not_asserted hskip hconv hok, idealWeights, if_neg hok]
  case pos =>
    rw [← leaked_eq_empty_iff]
    simp only [weights_eq_idealWeights_iff hskip hconv hok]
    constructor
    · intro h _ sample hsample
      obtain ⟨j, hj⟩ := List.mem_iff_getElem?.mp hsample
      -- 走査を一度も重ねていない蓄えでは、書かれなかった番号の値は `0` である。
      obtain ⟨⟨hlogs, -⟩, hfresh⟩ := h [] TempData.new rfl j sample hj
      refine ⟨hlogs, or_iff_not_imp_left.mpr fun hleak => ?_⟩
      obtain ⟨b, hb⟩ := Finset.nonempty_iff_ne_empty.mpr hleak
      constructor
      · by_contra hneg
        have hlt : b < self.maxBeams := by
          simp only [leaked, Finset.mem_filter, Finset.mem_range] at hb
          exact hb.1
        obtain ⟨scan, t, hscan, hstale⟩ := exists_negative hskip hneg (List.getElem?_eq_some_iff.mp hj).1 hlt
        obtain ⟨⟨-, hold⟩, -⟩ := h [scan] t (runs_cons hscan) j sample hj
        exact absurd (hold b hb) (not_le.mpr hstale)
      · have hzero : (self.ensureTempData true set.samples.length TempData.new).tempObs j b = 0 := by
          simp only [ensureTempData]
          split <;> rfl
        rw [Finset.prod_eq_zero hb hzero, mul_zero] at hfresh
        exact hfresh.symm
    · intro h earlier t hrun j sample hj
      obtain ⟨hlogs, hclean⟩ := h hok sample (List.mem_of_getElem? hj)
      rcases hclean with hempty | ⟨hnonneg, hzero⟩
      · simp [hlogs, hempty]
      · obtain ⟨hwithin, -⟩ := ensureTempData_within self true set.samples.length (runs_within hrun)
        exact ⟨⟨hlogs, fun b _ => (hwithin j b).1 hnonneg⟩, by rw [hzero, zero_mul]⟩

-- 二本とも読みのある走査は、二本目が NaN の走査の後でも正しい重みを与える。
theorem sensorFunction_weights_two_beams :
    ∃ t, runs freeRoom.scan TempData.new [⟨twoBeams none, oneSample⟩] = some t ∧
      (freeRoom.sensorFunction (twoBeams (some 1)) oneSample t).map Update.weights =
        freeRoom.idealWeights (twoBeams (some 1)) oneSample := by
  have hall : Finset.range freeRoom.maxBeams ⊆ freeRoom.processed (twoBeams (some 1)) := by
    intro b hb
    have hlt : b < 2 := Finset.mem_range.mp hb
    rw [mem_processed]
    obtain rfl | rfl : b = 0 ∨ b = 1 := by omega
    · simp [freeRoom_slot_zero]
    · simp [freeRoom_slot_one]
  obtain ⟨obs, hscan, -⟩ := scan_of_asserted oneSample rfl rfl (freeRoom_asserted none) TempData.new
  have hrun : runs freeRoom.scan TempData.new [⟨twoBeams none, oneSample⟩] = some _ := runs_cons hscan
  exact ⟨_, hrun, (sensorFunction_weights_iff freeRoom (twoBeams (some 1)) oneSample rfl rfl).mpr
    (fun _ sample _ => ⟨freeRoom_hasLogs (some 1) sample, .inl (.inl hall)⟩) _ _ hrun⟩

-- 二本目が NaN の走査では、前の走査が残した二本目の尤度が重みに掛かる。
theorem sensorFunction_reads_stale :
    freeRoom.doBeamskip = true ∧ oneSample.converged = true ∧
      ∃ t, runs freeRoom.scan TempData.new [⟨twoBeams (some 1), oneSample⟩] = some t ∧
        (freeRoom.sensorFunction (twoBeams none) oneSample t).map Update.weights ≠
          freeRoom.idealWeights (twoBeams none) oneSample ∧
        (freeRoom.sensorFunction (twoBeams none) oneSample t).map Update.weights ≠
          (freeRoom.sensorFunction (twoBeams none) oneSample TempData.new).map Update.weights := by
  obtain ⟨obs, hscan, hobs⟩ :=
    scan_of_asserted oneSample rfl rfl (freeRoom_asserted (some 1)) TempData.new
  have hrun : runs freeRoom.scan TempData.new [⟨twoBeams (some 1), oneSample⟩] =
      some { freeRoom.ensureTempData true 1 TempData.new with tempObs := obs } := runs_cons hscan
  have hstale : obs 0 1 = 0.5 * freeRoom.maxDistProb + 0.05 := by
    rw [hobs, ← freeRoom_pz (some 1) ⟨0, 0, 0⟩ (1, 1)]
    exact likelihood_of_some freeRoom_slot_one
  have hkept : (freeRoom.ensureTempData true 1 { freeRoom.ensureTempData true 1 TempData.new with
      tempObs := obs }).tempObs 0 1 = obs 0 1 := by
    simp [ensureTempData, TempData.reallocTempData, TempData.new, freeRoom]
  have hfresh : (freeRoom.ensureTempData true 1 TempData.new).tempObs 0 1 = 0 := by
    simp [ensureTempData, TempData.reallocTempData, TempData.new]
  have hideal : freeRoom.idealWeights (twoBeams none) oneSample = some [some (0.5 * freeRoom.maxDistProb + 0.05)] := by
    rw [idealWeights, if_pos (freeRoom_asserted none), ← freeRoom_idealWeight]
    rfl
  obtain ⟨hpos, hle⟩ := freeRoom_maxDistProb
  have hstalenonneg : 0 ≤ (freeRoom.ensureTempData true 1 { freeRoom.ensureTempData true 1 TempData.new with
      tempObs := obs }).tempObs 0 1 := by
    rw [hkept, hstale]
    positivity
  refine ⟨rfl, rfl, _, hrun, ?_, ?_⟩
  · rw [freeRoom_weights_nan hstalenonneg, hkept, hstale, hideal, ne_eq, Option.some.injEq, List.singleton_inj,
      Option.some.injEq]
    nlinarith
  · rw [freeRoom_weights_nan hstalenonneg, hkept, hstale, freeRoom_weights_nan hfresh.ge, hfresh, mul_zero,
      ne_eq, Option.some.injEq, List.singleton_inj, Option.some.injEq]
    positivity

end Ranger.Amcl
