import Ranger.Amcl.ParticleFilter

/-!
# 重みの正規化

どの操作の後でも、現在の集合の重みは負でなく、和が `1` で、標本の数は `1` 以上 `maxSamples` 以下である。再標本化の `assert` は
失敗せず、新しい位置は、乱数で選んだ位置か、重みが正の標本の位置である。
-/

namespace Ranger.Amcl
open Ranger.Lib

def totalWeight (samples : List Sample) : ℝ := (samples.map Sample.weight).sum

structure Weighted (samples : List Sample) : Prop where
  nonneg : ∀ s ∈ samples, 0 ≤ s.weight
  total : totalWeight samples = 1

structure Normalized (p : PfParams) (pf : Pf) : Prop where
  weighted : Weighted pf.current.samples
  count_pos : 1 ≤ pf.current.samples.length
  count_le : (pf.current.samples.length : Int) ≤ p.maxSamples

/-- 新しい位置が、乱数で選んだ位置か、重みが正の標本の位置である。 -/
def Drawn (draw : Nat → Draw) (samples : List Sample) (pose : PfVector) : Prop :=
  (∃ k, pose = (draw k).pose) ∨ ∃ a ∈ samples, 0 < a.weight ∧ pose = a.pose

def StepOk (p : PfParams) (pf : Pf) (op : PfOp) (pf' : Pf) : Prop :=
  Normalized p pf' ∧ ∀ draw, op = .updateResample draw →
    (p.minSamples ≤ p.maxSamples → p.minSamples ≤ pf'.current.samples.length) ∧
      ∀ b ∈ pf'.current.samples, Drawn draw pf.current.samples b.pose

/-! ## 等しい重みと、和による正規化 -/

section Weights

variable {samples : List Sample}

/-- `n` 個の標本の重みがどれも `1 / n` である。 -/
theorem Weighted.of_uniform {n : ℝ} (hn : samples.length = n) (hpos : 0 < n) (h : ∀ s ∈ samples, s.weight = 1 / n) :
    Weighted samples where
  nonneg s hs := by
    rw [h s hs]
    positivity
  total := by
    have hsum : totalWeight samples = (samples.map Sample.weight).length • (1 / n) :=
      List.sum_eq_card_nsmul _ _ (by simpa using h)
    rw [hsum, List.length_map, nsmul_eq_mul, hn, mul_one_div_cancel hpos.ne']

theorem totalWeight_map_div (total : ℝ) :
    totalWeight (samples.map fun s => { s with weight := s.weight / total }) = totalWeight samples / total := by
  rw [totalWeight, totalWeight, div_eq_mul_inv, ← List.sum_map_mul_right, List.map_map]
  simp only [div_eq_mul_inv]
  rfl

theorem Weighted.of_div (hnonneg : ∀ s ∈ samples, 0 ≤ s.weight) (hpos : 0 < totalWeight samples) :
    Weighted (samples.map fun s => { s with weight := s.weight / totalWeight samples }) where
  nonneg := by
    intro s hs
    obtain ⟨a, ha, rfl⟩ := List.mem_map.mp hs
    exact div_nonneg (hnonneg a ha) hpos.le
  total := by rw [totalWeight_map_div, div_self hpos.ne']

end Weights

/-! ## 初期化と観測 -/

section Update

variable {p : PfParams} {pf : Pf}

@[simp] theorem current_setCurrent (set : SampleSet) : (pf.setCurrent set).current = set := by
  simp [Pf.setCurrent, Pf.current]

/-- `maxSamples` 個の標本の重みがどれも `1 / maxSamples` である。 -/
theorem Normalized.of_uniform (h : 1 ≤ p.maxSamples) (hlen : pf.current.samples.length = p.maxSamples.toNat)
    (hw : ∀ s ∈ pf.current.samples, s.weight = 1 / (p.maxSamples : ℝ)) : Normalized p pf where
  weighted := by
    have hcast : ((p.maxSamples.toNat : Nat) : ℝ) = p.maxSamples := by exact_mod_cast Int.toNat_of_nonneg (by omega)
    have hpos : (0 : ℝ) < p.maxSamples := by exact_mod_cast h
    exact .of_uniform (by rw [hlen, hcast]) hpos hw
  count_pos := by omega
  count_le := by omega

theorem pfAlloc_normalized (h : 1 ≤ p.maxSamples) : Normalized p (pfAlloc p) :=
  .of_uniform h List.length_replicate fun s hs => by rw [List.eq_of_mem_replicate hs]

theorem initWith_normalized (h : 1 ≤ p.maxSamples) (pose : Nat → PfVector) : Normalized p (initWith p pose pf) := by
  have hcurrent : (initWith p pose pf).current.samples =
      (List.range p.maxSamples.toNat).map fun i => ⟨pose i, 1 / p.maxSamples⟩ := by
    simp [initWith, Pf.setCurrent, Pf.current]
  refine .of_uniform h ?_ fun s hs => ?_
  · rw [hcurrent, List.length_map, List.length_range]
  · rw [hcurrent] at hs
    obtain ⟨i, -, rfl⟩ := List.mem_map.mp hs
    rfl

theorem SensorModel.weight_nonneg (sensor : SensorModel) {set : SampleSet} (h : ∀ s ∈ set.samples, 0 ≤ s.weight) :
    ∀ s ∈ sensor.samples set, 0 ≤ s.weight := by
  intro s hs
  obtain ⟨j, hj, rfl⟩ := List.mem_mapIdx.mp hs
  exact mul_nonneg (h _ (List.getElem_mem hj)) (sensor.factor_nonneg set j)

/-- 標本の数を変えずに、重みを付け直す。 -/
theorem Normalized.reweight {pf' : Pf} {samples : List Sample} (h : Normalized p pf) (hw : Weighted samples)
    (hlen : samples.length = pf.current.samples.length) (hcurrent : pf'.current.samples = samples) : Normalized p pf' where
  weighted := hcurrent ▸ hw
  count_pos := by rw [hcurrent, hlen]; exact h.count_pos
  count_le := by rw [hcurrent, hlen]; exact h.count_le

theorem pfUpdateSensor_normalized (h : Normalized p pf) (sensor : SensorModel) :
    Normalized p (pfUpdateSensor p (fun set => (sensor.samples set, sensor.total set)) pf) := by
  have hlen : (sensor.samples pf.current).length = pf.current.samples.length := List.length_mapIdx
  have hcount : (0 : ℝ) < (sensor.samples pf.current).length := by
    rw [hlen]
    exact_mod_cast h.count_pos
  simp only [pfUpdateSensor]
  split
  case isTrue hpos =>
    refine h.reweight (.of_div (sensor.weight_nonneg h.weighted.nonneg) hpos) ?_ ?_
    · rw [List.length_map, hlen]
    · simp only [Pf.current, Pf.setCurrent, Function.update_self]
      rfl
  case isFalse hzero =>
    have hw : Weighted ((sensor.samples pf.current).map fun s =>
        { s with weight := 1 / (sensor.samples pf.current).length }) := by
      refine .of_uniform (by rw [List.length_map]) hcount fun s hs => ?_
      obtain ⟨a, -, rfl⟩ := List.mem_map.mp hs
      rfl
    refine h.reweight hw ?_ ?_
    · rw [List.length_map, hlen]
    · rw [current_setCurrent]

end Update

/-! ## 再標本化 -/

section Resample

variable {p : PfParams} {samples : List Sample} {draw : Nat → Draw}

theorem cumulative_eq_sum (n : Nat) : cumulative samples n = totalWeight (samples.take n) := by
  induction n with
  | zero => simp [cumulative, totalWeight]
  | succ n ih =>
      rw [cumulative, ih, totalWeight, totalWeight, List.take_add_one, List.map_append, List.sum_append]
      cases samples[n]? <;> simp

/-- 乱数の落ちる区間の標本は、重みが正である。 -/
theorem findInterval_total (h : Weighted samples) {r : ℝ} (hr : 0 ≤ r ∧ r < 1) :
    ∃ i, findInterval samples r = some i ∧ ∃ a, samples[i]? = some a ∧ 0 < a.weight := by
  have htop : cumulative samples samples.length = 1 := by rw [cumulative_eq_sum, List.take_length, h.total]
  obtain ⟨j, hj, hbetween⟩ : ∃ j < samples.length, cumulative samples j ≤ r ∧ r < cumulative samples (j + 1) :=
    exists_crossing hr.1 (htop ▸ hr.2)
  cases hfind : findInterval samples r with
  | none => exact absurd hbetween (by simpa using List.find?_eq_none.mp hfind j (List.mem_range.mpr hj))
  | some i =>
      have hi : i < samples.length := List.mem_range.mp (List.mem_of_find?_eq_some hfind)
      have hpred := List.find?_some hfind
      simp only [decide_eq_true_eq] at hpred
      refine ⟨i, rfl, samples[i], List.getElem?_eq_getElem hi, ?_⟩
      have hstep : cumulative samples (i + 1) = cumulative samples i + samples[i].weight := by
        rw [cumulative, List.getElem?_eq_getElem hi, Option.map_some, Option.getD_some]
      linarith [hpred.1, hpred.2]

theorem drawPose_total (h : Weighted samples) (wDiff : Option EReal) (draw : Nat → Draw) (k : Nat) :
    ∃ pose, drawPose wDiff samples (draw k) = some pose ∧ Drawn draw samples pose := by
  by_cases hrandom : ∃ w, wDiff = some w ∧ ((draw k).first : EReal) < w
  · exact ⟨_, if_pos hrandom, .inl ⟨k, rfl⟩⟩
  · obtain ⟨i, hfind, a, ha, hpos⟩ := findInterval_total h (draw k).second_mem
    refine ⟨a.pose, ?_, .inr ⟨a, List.mem_of_getElem? ha, hpos, rfl⟩⟩
    simp only [drawPose, if_neg hrandom, hfind, ha, Option.bind_eq_bind, Option.bind_some, if_pos hpos]

/-- 再標本化の上限は、最小の標本の数を下回らない。 -/
theorem le_pfResampleLimit (h : p.minSamples ≤ p.maxSamples) (k : Nat) : p.minSamples ≤ pfResampleLimit p k := by
  rw [pfResampleLimit]
  split
  · exact h
  · dsimp only
    split_ifs <;> omega

/-- 繰り返しの途中の状態。`n` は残りの標本の数である。 -/
structure Resampling.Inv (p : PfParams) (draw : Nat → Draw) (samples : List Sample) (n : Nat) (s : Resampling) : Prop where
  count : s.poses.length + n = p.maxSamples.toNat
  total : s.total = s.poses.length
  nodes : s.tree.counts.nodeCount ≤ 2 * s.poses.length
  drawn : ∀ pose ∈ s.poses, Drawn draw samples pose

structure Resampling.Done (p : PfParams) (draw : Nat → Draw) (samples : List Sample) (s : Resampling) : Prop where
  pos : s.poses ≠ []
  le : (s.poses.length : Int) ≤ p.maxSamples
  ge : p.minSamples ≤ p.maxSamples → p.minSamples ≤ s.poses.length
  total : s.total = s.poses.length
  drawn : ∀ pose ∈ s.poses, Drawn draw samples pose

theorem resampleLoop_total (hmax : 1 ≤ p.maxSamples) (h : Weighted samples) (wDiff : Option EReal) {n : Nat}
    {s : Resampling} (hs : s.Inv p draw samples n) :
    ∃ s', resampleLoop p wDiff samples draw n s = some s' ∧ s'.Done p draw samples := by
  induction n generalizing s with
  | zero =>
      have hcount := hs.count
      exact ⟨s, rfl, ⟨List.ne_nil_of_length_pos (by omega), by omega, by omega, hs.total, hs.drawn⟩⟩
  | succ n ih =>
      have hcount := hs.count
      obtain ⟨pose, hpose, hdrawn⟩ := drawPose_total h wDiff draw s.poses.length
      have hroom : s.tree.counts.nodeCount + 2 ≤ (3 * p.maxSamples).toNat := by
        have hnodes := hs.nodes
        omega
      obtain ⟨tree, htree, hnodes⟩ := KdTree.insert_total pose 1 hroom
      have hlen : (s.poses ++ [pose]).length = s.poses.length + 1 := List.length_append
      have htotal : s.total + 1 = (s.poses ++ [pose]).length := by
        rw [hs.total, hlen]
        push_cast
        rfl
      have hall : ∀ q ∈ s.poses ++ [pose], Drawn draw samples q := by
        intro q hq
        rcases List.mem_append.mp hq with hq | hq
        · exact hs.drawn q hq
        · exact List.mem_singleton.mp hq ▸ hdrawn
      have hnext : Resampling.Inv p draw samples n ⟨s.poses ++ [pose], s.total + 1, tree⟩ := by
        have hnodes' := hs.nodes
        exact ⟨by dsimp only; omega, htotal, by dsimp only; omega, hall⟩
      simp only [resampleLoop, hpose, htree, Option.bind_eq_bind, Option.bind_some]
      split
      case isTrue hlimit =>
        refine ⟨_, rfl, ⟨by simp, by dsimp only; omega, fun hle => ?_, htotal, hall⟩⟩
        exact (le_pfResampleLimit hle _).trans hlimit.le
      case isFalse hmore => exact ih hnext

theorem resampling_start (draw : Nat → Draw) : Resampling.Inv p draw samples p.maxSamples.toNat ⟨[], 0, KdTree.clear⟩ where
  count := Nat.zero_add _
  total := Nat.cast_zero.symm
  nodes := Nat.le_refl 0
  drawn := fun _ h => absurd h List.not_mem_nil

theorem current_pfUpdateConverged (pf : Pf) : (pfUpdateConverged p pf).current.samples = pf.current.samples := by
  simp [pfUpdateConverged, Pf.setCurrent, Pf.current]

/-- 繰り返しの結果を現在の集合にした状態。 -/
theorem Resampling.Done.stepOk {pf pf' : Pf} {s : Resampling} (hs : s.Done p draw pf.current.samples)
    (hcurrent : pf'.current.samples = s.poses.map fun pose => ⟨pose, 1 / s.total⟩) :
    StepOk p pf (.updateResample draw) pf' := by
  have hlen : pf'.current.samples.length = s.poses.length := by rw [hcurrent, List.length_map]
  have hpos : (0 : ℝ) < s.total := by
    rw [hs.total]
    exact_mod_cast List.length_pos_of_ne_nil hs.pos
  refine ⟨⟨?_, ?_, ?_⟩, ?_⟩
  · refine .of_uniform (by rw [hlen, ← hs.total]) hpos fun b hb => ?_
    rw [hcurrent] at hb
    obtain ⟨pose, -, rfl⟩ := List.mem_map.mp hb
    rfl
  · rw [hlen]
    exact List.length_pos_of_ne_nil hs.pos
  · rw [hlen]
    exact hs.le
  · rintro draw' ⟨⟩
    refine ⟨fun hle => ?_, fun b hb => ?_⟩
    · rw [hlen]
      exact hs.ge hle
    · rw [hcurrent] at hb
      obtain ⟨pose, hpose, rfl⟩ := List.mem_map.mp hb
      exact hs.drawn pose hpose

theorem pfUpdateResample_total {pf : Pf} (hmax : 1 ≤ p.maxSamples) (h : Weighted pf.current.samples) (draw : Nat → Draw) :
    ∃ pf', pfUpdateResample p draw pf = some pf' ∧ StepOk p pf (.updateResample draw) pf' := by
  obtain ⟨s, hloop, hs⟩ := resampleLoop_total hmax h pf.wDiff (resampling_start draw)
  refine ⟨_, by simp only [pfUpdateResample, hloop, Option.bind_eq_bind, Option.bind_some]; rfl, hs.stepOk ?_⟩
  rw [current_pfUpdateConverged]
  simp [Pf.current]

end Resample

/-! ## `sensorFunction` の因子 -/

section Factors

variable {self : LikelihoodFieldModelProb} {data : LaserData}

theorem expOf_nonneg (x : EReal) : 0 ≤ expOf x := ENNReal.toReal_nonneg

theorem weighSamples_logP {doBeamskip : Bool} {samples : List Sample} {weights : List (Option ℝ)} {j : Nat}
    {s s' : Scratch} (h : self.weighSamples data doBeamskip j samples s = some (weights, s')) :
    ∃ logP : Nat → Option EReal, weights = samples.mapIdx fun j sample => mulExp sample.weight (logP j) := by
  induction samples generalizing weights j s with
  | nil =>
      cases h
      exact ⟨fun _ => none, rfl⟩
  | cons sample samples ih =>
      simp only [LikelihoodFieldModelProb.weighSamples, Option.bind_eq_bind, Option.bind_eq_some_iff] at h
      obtain ⟨t, -, ⟨rest, u⟩, hrest, hret⟩ := h
      cases hret
      obtain ⟨logP, rfl⟩ := ih hrest
      refine ⟨fun j => Nat.casesOn j (if doBeamskip then some 0 else t.logP) logP, ?_⟩
      cases doBeamskip <;> simp [List.mapIdx_cons, mulExp, expOf_zero]

theorem sensorFunction_logP {set : SampleSet} {t : TempData} {u : Update}
    (h : self.sensorFunction data set t = some u) :
    (∃ logP : Nat → Option EReal, u.weights = set.samples.mapIdx fun j sample => mulExp sample.weight (logP j)) ∧
      u.totalWeight = (u.weights.mapM id).map List.sum := by
  simp only [LikelihoodFieldModelProb.sensorFunction, Option.bind_eq_bind, Option.bind_eq_some_iff] at h
  obtain ⟨⟨weights, s⟩, hrun, hret⟩ := h
  cases hret
  refine ⟨?_, rfl⟩
  dsimp only
  split
  · exact ⟨_, rfl⟩
  · exact weighSamples_logP hrun

theorem mapM_id_some (weights : List ℝ) : (weights.map some).mapM id = some weights := by
  induction weights with
  | nil => rfl
  | cons w weights ih => simp [ih]

/-- NaN の重みを作らない `sensorFunction` は、重みに負でない因子を掛け、その和を返すセンサモデルである。 -/
theorem sensorFunction_sensorModel {set : SampleSet} {t : TempData} {u : Update}
    (h : self.sensorFunction data set t = some u) (hreal : none ∉ u.weights) :
    ∃ sensor : SensorModel, u.weights = (sensor.samples set).map (fun sample => some sample.weight) ∧
      u.totalWeight = some (sensor.total set) := by
  obtain ⟨⟨logP, hlogP⟩, htotal⟩ := sensorFunction_logP h
  let sensor : SensorModel :=
    ⟨fun _ j => ((logP j).map expOf).getD 0, fun _ j => by cases logP j <;> simp [expOf_nonneg]⟩
  have hweights : u.weights = (sensor.samples set).map (fun sample => some sample.weight) := by
    refine List.ext_getElem? fun j => ?_
    rw [hlogP, SensorModel.samples, List.getElem?_map, List.getElem?_mapIdx, List.getElem?_mapIdx]
    cases hj : set.samples[j]? with
    | none => rfl
    | some sample =>
        cases hlog : logP j with
        | some p => simp [sensor, mulExp, hlog]
        | none =>
            refine absurd (List.mem_of_getElem? (i := j) ?_) hreal
            simp [hlogP, hj, mulExp, hlog]
  refine ⟨sensor, hweights, ?_⟩
  have hmap : (sensor.samples set).map (fun sample => some sample.weight) =
      ((sensor.samples set).map Sample.weight).map some := by
    rw [List.map_map]
    rfl
  rw [htotal, hweights, hmap, mapM_id_some, Option.map_some, SensorModel.total]

end Factors

/-! ## 操作の列 -/

theorem pfStep_total {p : PfParams} (hmax : 1 ≤ p.maxSamples) {pf : Pf} (h : Normalized p pf) (op : PfOp) :
    ∃ pf', pfStep p pf op = some pf' ∧ StepOk p pf op pf' := by
  cases op with
  | init gaussianSample => exact ⟨_, rfl, initWith_normalized hmax gaussianSample, fun _ hop => by cases hop⟩
  | initModel initFn => exact ⟨_, rfl, initWith_normalized hmax initFn, fun _ hop => by cases hop⟩
  | updateSensor sensor => exact ⟨_, rfl, pfUpdateSensor_normalized h sensor, fun _ hop => by cases hop⟩
  | updateResample draw => exact pfUpdateResample_total hmax h.weighted draw

/-- `maxSamples` が正のとき、どの操作の列も終わりまで進み、どの操作の後でも重みは正規化されている。 -/
theorem pf_stays_normalized {p : PfParams} (hmax : 1 ≤ p.maxSamples) (ops : List PfOp) :
    (∃ pf, runs (pfStep p) (pfAlloc p) ops = some pf) ∧ Normalized p (pfAlloc p) ∧
      Always (pfStep p) (StepOk p) (pfAlloc p) ops := by
  have hstart : Normalized p (pfAlloc p) := pfAlloc_normalized hmax
  obtain ⟨hruns, halways⟩ := Always.of_total (fun pf op h => pfStep_total hmax h op) (fun _ _ _ h => h.1) hstart ops
  exact ⟨hruns, hstart, halways⟩

/-- 標本の数だけが異なる設定。 -/
def particles (count : Int) : PfParams := ⟨count, count, 1, 1, 0, 0, 1⟩

def origin : PfVector := ⟨0, 0, 0⟩

-- 二つの標本のフィルタを初期化し、因子が `0` の観測の後に再標本化する。
theorem pf_stays_normalized_two :
    (∃ pf, runs (pfStep (particles 2)) (pfAlloc (particles 2))
      [.init fun _ => origin, .updateSensor ⟨fun _ _ => 0, fun _ _ => le_rfl⟩,
        .updateResample fun _ => ⟨0, 0, origin, ⟨le_rfl, one_pos⟩, ⟨le_rfl, one_pos⟩⟩] = some pf) ∧
    Normalized (particles 2) (pfAlloc (particles 2)) ∧
    Always (pfStep (particles 2)) (StepOk (particles 2)) (pfAlloc (particles 2))
      [.init fun _ => origin, .updateSensor ⟨fun _ _ => 0, fun _ _ => le_rfl⟩,
        .updateResample fun _ => ⟨0, 0, origin, ⟨le_rfl, one_pos⟩, ⟨le_rfl, one_pos⟩⟩] :=
  pf_stays_normalized (by decide) _

-- 標本の数が `0` の設定では、重みの和は `1` にならない。
theorem pf_empty_not_normalized :
    ∃ pf, runs (pfStep (particles 0)) (pfAlloc (particles 0)) [.init fun _ => origin] = some pf ∧
      totalWeight pf.current.samples ≠ 1 ∧ ¬ 1 ≤ pf.current.samples.length := by
  refine ⟨_, rfl, ?_⟩
  simp [pfInit, initWith, particles, totalWeight, Pf.current, Pf.setCurrent]

end Ranger.Amcl
