import Mathlib.Algebra.Order.Floor.Ring
import Mathlib.Analysis.SpecialFunctions.Complex.Arg
import Ranger.Lib.Loop
import Ranger.Lib.Run

/-!
# レーザのセンサモデル（`LikelihoodFieldModelProb`）

粒子の重みを走査で更新する `sensorFunction` を、実数の上で書く。走査の間に残るのは、尤度を蓄える `temp_obs_` とその大きさだけで、
`TempData` に分ける。`assert` の残るビルドと、`assert` を消したビルドの両方を扱い、`assert` の失敗は `none` である。
-/

namespace Ranger.Amcl
open Ranger.Lib

/-! ## 座標と地図 -/

/-- `pf_vector_t`。 -/
structure PfVector where
  v0 : ℝ
  v1 : ℝ
  v2 : ℝ

noncomputable def atan2 (y x : ℝ) : ℝ := Complex.arg ⟨x, y⟩

noncomputable def pfVectorCoordAdd (a b : PfVector) : PfVector where
  v0 := b.v0 + a.v0 * Real.cos b.v2 - a.v1 * Real.sin b.v2
  v1 := b.v1 + a.v0 * Real.sin b.v2 + a.v1 * Real.cos b.v2
  v2 := atan2 (Real.sin (b.v2 + a.v2)) (Real.cos (b.v2 + a.v2))

/-- `map_t`。`occDist` は、升目の `occ_dist` である。 -/
structure Map where
  originX : ℝ
  originY : ℝ
  scale : ℝ
  sizeX : Nat
  sizeY : Nat
  occDist : Fin (sizeX * sizeY) → ℝ
  maxOccDist : ℝ

/-- `MAP_GXWX` と `MAP_GYWY`。 -/
noncomputable def mapGrid (origin scale : ℝ) (size : Nat) (x : ℝ) : Int :=
  ⌊(x - origin) / scale + 0.5⌋ + (size / 2 : Nat)

namespace Map

/-- `MAP_VALID`。 -/
def Valid (m : Map) (i j : Int) : Prop := 0 ≤ i ∧ i < m.sizeX ∧ 0 ≤ j ∧ j < m.sizeY

instance (m : Map) (i j : Int) : Decidable (m.Valid i j) := inferInstanceAs (Decidable (_ ∧ _))

/-- `MAP_INDEX`。 -/
def index (m : Map) (i j : Int) (h : m.Valid i j) : Fin (m.sizeX * m.sizeY) where
  val := i.toNat + j.toNat * m.sizeX
  isLt := by
    obtain ⟨hi, hix, hj, hjy⟩ := h
    have hrow : j.toNat + 1 ≤ m.sizeY := by omega
    calc i.toNat + j.toNat * m.sizeX < m.sizeX + j.toNat * m.sizeX := by omega
      _ = (j.toNat + 1) * m.sizeX := by rw [Nat.succ_mul, Nat.add_comm]
      _ ≤ m.sizeY * m.sizeX := Nat.mul_le_mul_right _ hrow
      _ = m.sizeX * m.sizeY := Nat.mul_comm _ _

/-- 升目の `occ_dist`。地図の外では `none` である。 -/
def occDistAt (m : Map) (i j : Int) : Option ℝ :=
  if h : m.Valid i j then some (m.occDist (m.index i j h)) else none

end Map

/-! ## 走査、標本とセンサモデル -/

/-- `LaserData`。距離が `none` の読みは NaN で、無限大は `rangeMax` 以上の距離で表す。 -/
structure LaserData where
  rangeMax : ℝ
  ranges : List (Option ℝ × ℝ)

structure Sample where
  pose : PfVector
  weight : ℝ

structure SampleSet where
  samples : List Sample
  converged : Bool

/-- センサモデルの設定。`maxBeams` が `2` より小さいとき、`sensorUpdate` は `sensorFunction` を呼ばない。 -/
structure LikelihoodFieldModelProb where
  zHit : ℝ
  zRand : ℝ
  sigmaHit : ℝ
  map : Map
  laserPose : PfVector
  maxBeams : Nat
  two_le_maxBeams : 2 ≤ maxBeams
  -- `NDEBUG` のないビルドか。
  asserts : Bool
  doBeamskip : Bool
  beamSkipDistance : ℝ
  beamSkipThreshold : ℝ
  beamSkipErrorThreshold : ℝ

/-- 走査の間に残る `temp_obs_`、`max_samples_` と `max_obs_`。 -/
structure TempData where
  maxSamples : Nat
  maxObs : Nat
  tempObs : Nat → Nat → ℝ

def TempData.new : TempData := ⟨0, 0, fun _ _ => 0⟩

/-- `reallocTempData`。新しい領域は `0` で埋まっている。 -/
def TempData.reallocTempData (newMaxSamples newMaxObs : Nat) (t : TempData) : TempData :=
  ⟨max t.maxSamples newMaxSamples, newMaxObs, fun _ _ => 0⟩

/-- 繰り返しの間に変わる `log_p`、`obs_count` と `temp_obs_`。NaN の `log_p` は `none` である。 -/
structure Scratch where
  logP : Option EReal
  obsCount : Nat → Nat
  tempObs : Nat → Nat → ℝ

/-- 走査の結果。NaN の重みは `none` である。 -/
structure Update where
  temp : TempData
  weights : List (Option ℝ)
  totalWeight : Option ℝ

/-- `weight *= exp(log_p)`。 -/
noncomputable def mulExp (weight : ℝ) (logP : Option EReal) : Option ℝ := logP.map fun p => weight * expOf p

/-- 処理される読みの距離と方位。`rangeMax` 以上の読みと NaN は飛ばす。 -/
noncomputable def LaserData.reading (data : LaserData) (i : Nat) : Option (ℝ × ℝ) :=
  match data.ranges[i]? with
  | some (some obsRange, obsBearing) => if data.rangeMax ≤ obsRange then none else some (obsRange, obsBearing)
  | _ => none

namespace LikelihoodFieldModelProb

variable (self : LikelihoodFieldModelProb) (data : LaserData)

noncomputable def step : Nat :=
  let step := ⌈(data.ranges.length : ℝ) / self.maxBeams⌉₊
  if step < 1 then 1 else step

/-! ## 一本の光線 -/

/-- 光線の端から最も近い障害物までの距離。端が地図の外にあるとき、`none` である。 -/
noncomputable def hitDistance (sample : PfVector) (obs : ℝ × ℝ) : Option ℝ :=
  let pose := pfVectorCoordAdd self.laserPose sample
  let hitX := pose.v0 + obs.1 * Real.cos (pose.v2 + obs.2)
  let hitY := pose.v1 + obs.1 * Real.sin (pose.v2 + obs.2)
  self.map.occDistAt (mapGrid self.map.originX self.map.scale self.map.sizeX hitX)
    (mapGrid self.map.originY self.map.scale self.map.sizeY hitY)

noncomputable def zHitDenom : ℝ := 2.0 * self.sigmaHit * self.sigmaHit

noncomputable def maxDistProb : ℝ :=
  Real.exp (-(self.map.maxOccDist * self.map.maxOccDist) / self.zHitDenom)

noncomputable def pz (sample : PfVector) (obs : ℝ × ℝ) : ℝ :=
  let zRandMult := 1 / data.rangeMax
  match self.hitDistance sample obs with
  -- 地図の外は、最大の距離とみなす。
  | none => self.zHit * self.maxDistProb + self.zRand * zRandMult
  | some z => self.zHit * Real.exp (-(z * z) / self.zHitDenom) + self.zRand * zRandMult

def Agrees (sample : PfVector) (obs : ℝ × ℝ) : Prop :=
  ∃ z, self.hitDistance sample obs = some z ∧ z < self.beamSkipDistance

open Classical in
/-- 標本 `j` の、読み `v.1`、番号 `v.2` の光線。 -/
noncomputable def beam (doBeamskip : Bool) (j : Nat) (sample : PfVector) (s : Scratch) (v : Nat × Nat) :
    Option Scratch :=
  match data.reading v.1 with
  | none => some s
  | some obs =>
    let obsCount := if self.Agrees sample obs then Function.update s.obsCount v.2 (s.obsCount v.2 + 1) else s.obsCount
    let pz := self.pz data sample obs
    if self.asserts ∧ ¬ (pz ≤ 1 ∧ 0 ≤ pz) then none
    else if doBeamskip then
      some { s with
        obsCount := obsCount
        tempObs := Function.update s.tempObs j (Function.update (s.tempObs j) v.2 pz) }
    else some { s with obsCount := obsCount, logP := addLog s.logP pz }

/-! ## 標本の重み -/

/-- 一本ずつの光線を、標本の順に処理する。光線を飛ばさないときは、ここで重みも更新する。 -/
noncomputable def weighSamples (doBeamskip : Bool) :
    Nat → List Sample → Scratch → Option (List (Option ℝ) × Scratch)
  | _, [], s => some ([], s)
  | j, sample :: samples, s => do
    let s ← runs (self.beam data doBeamskip j sample.pose) { s with logP := some 0 }
      (stride data.ranges.length (self.step data) 0 0)
    let weight := if doBeamskip then some sample.weight else mulExp sample.weight s.logP
    let (weights, s) ← weighSamples doBeamskip (j + 1) samples s
    return (weight :: weights, s)

/-- `obs_mask`。 -/
def ObsMask (sampleCount : Nat) (obsCount : Nat → Nat) (b : Nat) : Prop :=
  self.beamSkipThreshold < (obsCount b : ℝ) / sampleCount

open Classical in
noncomputable def skippedBeamCount (sampleCount : Nat) (obsCount : Nat → Nat) : Nat :=
  (List.range self.maxBeams).countP fun b => ¬ self.ObsMask sampleCount obsCount b

/-- `error`。粒子が誤った位置に収束したとみなす。 -/
def Error (sampleCount : Nat) (obsCount : Nat → Nat) : Prop :=
  self.maxBeams * self.beamSkipErrorThreshold ≤ self.skippedBeamCount sampleCount obsCount

open Classical in
/-- `temp_obs_` の一行に蓄えた尤度の対数の和。 -/
noncomputable def integrate (sampleCount : Nat) (obsCount : Nat → Nat) (row : Nat → ℝ) : Option EReal :=
  (List.range self.maxBeams).foldl (fun logP b =>
    if self.Error sampleCount obsCount ∨ self.ObsMask sampleCount obsCount b then addLog logP (row b) else logP)
    (some 0)

/-- 光線を飛ばすとき、足りない `temp_obs_` を確保し直す。 -/
def ensureTempData (doBeamskip : Bool) (sampleCount : Nat) (t : TempData) : TempData :=
  if doBeamskip ∧ (t.maxObs < self.maxBeams ∨ t.maxSamples < sampleCount)
    then t.reallocTempData sampleCount self.maxBeams else t

noncomputable def sensorFunction (set : SampleSet) (t : TempData) : Option Update := do
  let doBeamskip := self.doBeamskip && set.converged
  let sampleCount := set.samples.length
  let t := self.ensureTempData doBeamskip sampleCount t
  let (weights, s) ← self.weighSamples data doBeamskip 0 set.samples ⟨some 0, fun _ => 0, t.tempObs⟩
  let weights := if doBeamskip
    then set.samples.mapIdx fun j sample =>
      mulExp sample.weight (self.integrate sampleCount s.obsCount (s.tempObs j))
    else weights
  return { temp := { t with tempObs := s.tempObs }, weights, totalWeight := (weights.mapM id).map List.sum }

end LikelihoodFieldModelProb

structure Scan where
  data : LaserData
  set : SampleSet

/-- 走査の後に残る `TempData`。 -/
noncomputable def LikelihoodFieldModelProb.scan (self : LikelihoodFieldModelProb) (t : TempData) (s : Scan) :
    Option TempData :=
  (self.sensorFunction s.data s.set t).map Update.temp

end Ranger.Amcl
