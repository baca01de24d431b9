import Mathlib.Analysis.Real.Sqrt
import Mathlib.Data.EReal.Operations
import Ranger.Amcl.KdTree

/-!
# 粒子フィルタ（`pf.c`）

標本の集合を二つ持ち、初期化、観測による更新、再標本化のたびに、現在の集合の重みを正規化する。乱数と、センサモデルの結果は、操作の
引数である。重みに関わらない集団の統計（`pf_cluster_stats`）は書かない。`assert` の失敗は `none` である。
-/

namespace Ranger.Amcl

/-! ## フィルタ -/

/-- `pf_alloc` と `amcl` が定める設定。 -/
structure PfParams where
  minSamples : Int
  maxSamples : Int
  popErr : ℝ
  popZ : ℝ
  alphaSlow : ℝ
  alphaFast : ℝ
  distThreshold : ℝ

structure Pf where
  currentSet : Fin 2
  sets : Fin 2 → SampleSet
  wSlow : ℝ
  wFast : ℝ
  converged : Bool

def Pf.current (pf : Pf) : SampleSet := pf.sets pf.currentSet

def Pf.setCurrent (pf : Pf) (set : SampleSet) : Pf := { pf with sets := Function.update pf.sets pf.currentSet set }

noncomputable def pfAlloc (p : PfParams) : Pf where
  currentSet := 0
  sets _ := ⟨List.replicate p.maxSamples.toNat ⟨⟨0, 0, 0⟩, 1 / p.maxSamples⟩, false⟩
  wSlow := 0
  wFast := 0
  converged := false

/-- `maxSamples` 個の標本を、与えられた位置に等しい重みで置く。 -/
noncomputable def initWith (p : PfParams) (pose : Nat → PfVector) (pf : Pf) : Pf :=
  { pf.setCurrent ⟨(List.range p.maxSamples.toNat).map fun i => ⟨pose i, 1 / p.maxSamples⟩, false⟩ with
    wSlow := 0
    wFast := 0
    converged := false }

/-- `pf_init`。`gaussianSample` は、`pf_pdf_gaussian_sample` の結果の列である。 -/
noncomputable def pfInit (p : PfParams) (gaussianSample : Nat → PfVector) : Pf → Pf := initWith p gaussianSample

/-- `pf_init_model`。`initFn` は、`init_fn` の結果の列である。 -/
noncomputable def pfInitModel (p : PfParams) (initFn : Nat → PfVector) : Pf → Pf := initWith p initFn

/-- すべての標本が、両方の軸で平均から `distThreshold` 以内にある。 -/
def Gathered (p : PfParams) (samples : List Sample) : Prop :=
  let meanX := (samples.map fun s => s.pose.v0).sum / samples.length
  let meanY := (samples.map fun s => s.pose.v1).sum / samples.length
  ∀ s ∈ samples, |s.pose.v0 - meanX| ≤ p.distThreshold ∧ |s.pose.v1 - meanY| ≤ p.distThreshold

open Classical in
noncomputable def pfUpdateConverged (p : PfParams) (pf : Pf) : Pf :=
  { pf.setCurrent { pf.current with converged := decide (Gathered p pf.current.samples) } with
    converged := decide (Gathered p pf.current.samples) }

/-! ## 観測による更新 -/

/-- 重みに負でない因子を掛け、その和を返すセンサモデル。 -/
structure SensorModel where
  factor : SampleSet → Nat → ℝ
  factor_nonneg : ∀ set j, 0 ≤ factor set j

def SensorModel.samples (sensor : SensorModel) (set : SampleSet) : List Sample :=
  set.samples.mapIdx fun j s => { s with weight := s.weight * sensor.factor set j }

def SensorModel.total (sensor : SensorModel) (set : SampleSet) : ℝ :=
  ((sensor.samples set).map Sample.weight).sum

/-- `w_slow` と `w_fast` の移動平均。 -/
noncomputable def runningAverage (alpha w avg : ℝ) : ℝ := if w = 0 then avg else w + alpha * (avg - w)

noncomputable def pfUpdateSensor (p : PfParams) (sensorFn : SampleSet → List Sample × ℝ) (pf : Pf) : Pf :=
  let (samples, total) := sensorFn pf.current
  if 0 < total then
    let avg := (samples.map Sample.weight).sum / samples.length
    { pf.setCurrent { pf.current with samples := samples.map fun s => { s with weight := s.weight / total } } with
      wSlow := runningAverage p.alphaSlow pf.wSlow avg
      wFast := runningAverage p.alphaFast pf.wFast avg }
  else
    pf.setCurrent { pf.current with samples := samples.map fun s => { s with weight := 1 / samples.length } }

/-! ## 再標本化 -/

/-- 一つの標本に使う乱数。`first` と `second` は `drand48` の結果、`pose` は `random_pose_fn` の結果である。 -/
structure Draw where
  first : ℝ
  second : ℝ
  pose : PfVector
  first_mem : 0 ≤ first ∧ first < 1
  second_mem : 0 ≤ second ∧ second < 1

noncomputable def cumulative (samples : List Sample) : Nat → ℝ
  | 0 => 0
  | i + 1 => cumulative samples i + (samples[i]?.map Sample.weight).getD 0

/-- 浮動小数点の割り算。`none` は NaN である。 -/
noncomputable def quotient (a b : ℝ) : Option EReal :=
  if b = 0 then if a = 0 then none else if 0 < a then some ⊤ else some ⊥ else some ((a / b : ℝ) : EReal)

/-- `w_diff`。 -/
noncomputable def Pf.wDiff (pf : Pf) : Option EReal :=
  (quotient pf.wFast pf.wSlow).map fun q => if 1 - q < 0 then 0 else 1 - q

/-- `pf_resample_limit`。 -/
noncomputable def pfResampleLimit (p : PfParams) (k : Nat) : Int :=
  if k ≤ 1 then p.maxSamples
  else
    let b : ℝ := 2.0 / (9.0 * (k - 1))
    let c := √(2.0 / (9.0 * (k - 1))) * p.popZ
    let x := 1 - b + c
    let n := ⌈((k - 1 : ℝ) / (2.0 * p.popErr)) * x * x * x⌉
    if n < p.minSamples then p.minSamples else if p.maxSamples < n then p.maxSamples else n

/-- 再標本化の途中の、新しい標本の位置と kd 木。重みはどれも `1` である。 -/
structure Resampling where
  poses : List PfVector
  total : ℝ
  tree : KdTree

/-- 乱数 `r` の落ちる区間の添字。 -/
noncomputable def findInterval (samples : List Sample) (r : ℝ) : Option Nat :=
  (List.range samples.length).find? fun i => cumulative samples i ≤ r ∧ r < cumulative samples (i + 1)

open Classical in
/-- 新しい標本の位置。二つの `assert` は、添字が見つかることと、その重みが正であることを調べる。 -/
noncomputable def drawPose (wDiff : Option EReal) (samples : List Sample) (d : Draw) : Option PfVector :=
  if ∃ w, wDiff = some w ∧ (d.first : EReal) < w then some d.pose
  else do
    let i ← findInterval samples d.second
    let sampleA ← samples[i]?
    if 0 < sampleA.weight then some sampleA.pose else none

/-- `while (set_b->sample_count < pf->max_samples)` の繰り返し。第一の引数は、残りの標本の数である。 -/
noncomputable def resampleLoop (p : PfParams) (wDiff : Option EReal) (samples : List Sample) (draw : Nat → Draw) :
    Nat → Resampling → Option Resampling
  | 0, s => some s
  | n + 1, s => do
    let pose ← drawPose wDiff samples (draw s.poses.length)
    let tree ← s.tree.insert id (3 * p.maxSamples).toNat pose 1
    let s : Resampling := ⟨s.poses ++ [pose], s.total + 1, tree⟩
    if pfResampleLimit p s.tree.counts.leafCount < s.poses.length then some s
    else resampleLoop p wDiff samples draw n s

open Classical in
noncomputable def pfUpdateResample (p : PfParams) (draw : Nat → Draw) (pf : Pf) : Option Pf := do
  let s ← resampleLoop p pf.wDiff pf.current.samples draw p.maxSamples.toNat ⟨[], 0, KdTree.clear⟩
  let next := pf.currentSet + 1
  let set : SampleSet := { pf.sets next with samples := s.poses.map fun pose => ⟨pose, 1 / s.total⟩ }
  let reset := ∃ w, pf.wDiff = some w ∧ 0 < w
  return pfUpdateConverged p
    { pf with
      currentSet := next
      sets := Function.update pf.sets next set
      wSlow := if reset then 0 else pf.wSlow
      wFast := if reset then 0 else pf.wFast }

/-! ## 操作の列 -/

inductive PfOp
  | init (gaussianSample : Nat → PfVector)
  | initModel (initFn : Nat → PfVector)
  | updateSensor (sensor : SensorModel)
  | updateResample (draw : Nat → Draw)

noncomputable def pfStep (p : PfParams) (pf : Pf) : PfOp → Option Pf
  | .init gaussianSample => some (pfInit p gaussianSample pf)
  | .initModel initFn => some (pfInitModel p initFn pf)
  | .updateSensor sensor => some (pfUpdateSensor p (fun set => (sensor.samples set, sensor.total set)) pf)
  | .updateResample draw => pfUpdateResample p draw pf

end Ranger.Amcl
