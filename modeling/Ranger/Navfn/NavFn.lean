import Mathlib.Algebra.Order.Field.Basic
import Mathlib.Data.Rat.Cast.Defs
import Mathlib.Logic.Function.Basic

/-!
# 目標からの距離の場

`NavFn` の配列と、`setCostmap`、`setupNavFn`、`updateCell`、`propNavFnDijkstra`。距離は正確な数である。升目は、行を並べた番号で指す。
-/

namespace Ranger.Navfn

def costUnknownRos : UInt8 := 255
def costObs : UInt8 := 254
def costObsRos : UInt8 := 253
def costNeutral : ℕ := 50
def priorityBufSize : ℕ := 10000

inductive Block
  | cur
  | next
  | overflow
  deriving DecidableEq

/-- `blocks` は、三つの配列の使っている部分である。`refused` は、場所がなくて升目を加えなかったことの記録で、どの操作も読まない。 -/
structure NavFn (K : Type*) where
  nx : ℕ
  ny : ℕ
  costarr : ℕ → UInt8
  potarr : ℕ → K
  pending : ℕ → Bool
  gradx : ℕ → K
  grady : ℕ → K
  blocks : Block → List ℕ
  curT : K
  priInc : K
  goal : ℕ × ℕ
  start : ℕ × ℕ
  refused : Bool

section Potentials

variable {K : Type*} [Field K] [LinearOrder K]

def potHigh : K := 10000000000.0

def invSqrt2 : K := 0.707106781

/-- `updateCell` が、四つの隣の値から求める値。 -/
def planarWave (cost : UInt8) (l r u d : K) : K :=
  let hf : K := (cost.toNat : K)
  let tc := if l < r then l else r
  let ta := if u < d then u else d
  let dc := tc - ta
  let lowest := if dc < 0 then (-dc, tc) else (dc, ta)
  if hf ≤ lowest.1 then lowest.2 + hf
  else
    let d := lowest.1 / hf
    let v := -0.2301 * d * d + 0.5307 * d + 0.7040
    lowest.2 + hf * v

end Potentials

/-- 配列の先頭から `n` 個の番号 `idx` の要素に値を書く。 -/
def fill {α : Type*} (a : ℕ → α) (v : α) (idx : ℕ → ℕ) (n : ℕ) : ℕ → α :=
  (List.range n).foldl (fun a i => Function.update a (idx i) v) a

namespace NavFn

variable {K : Type*} [Field K] [LinearOrder K]

def ns (s : NavFn K) : ℕ := s.nx * s.ny

def goalCell (s : NavFn K) : ℕ := s.goal.1 + s.goal.2 * s.nx

def startCell (s : NavFn K) : ℕ := s.start.2 * s.nx + s.start.1

def setGoal (g : ℕ × ℕ) (s : NavFn K) : NavFn K := { s with goal := g }

def setStart (g : ℕ × ℕ) (s : NavFn K) : NavFn K := { s with start := g }

/-! ## 費用 -/

/-- `setCostmap` が一つの升目に書く値。`unknown` は、未知の升目を通れることを表す。 -/
def translateCost (unknown : Bool) (v : UInt8) : UInt8 :=
  if v < costObsRos then
    let w := costNeutral + 8 * v.toNat / 10
    if costObs.toNat ≤ w then costObs - 1 else UInt8.ofNat w
  else if v = costUnknownRos ∧ unknown then costObs - 1
  else costObs

def setCostmap (cmap : ℕ → UInt8) (isROS allowUnknown : Bool) (s : NavFn K) : NavFn K :=
  { s with
    costarr := fun k =>
      if isROS then translateCost allowUnknown (cmap k)
      else
        let i := k / s.nx
        let j := k % s.nx
        if i < 7 ∨ s.ny < i + 8 ∨ j < 7 ∨ s.nx < j + 8 then costObs else translateCost true (cmap k) }

/-- 地図の縁の升目を障害物にする。 -/
def border (nx ny : ℕ) (costarr : ℕ → UInt8) : ℕ → UInt8 :=
  let costarr := fill costarr costObs id nx
  let costarr := fill costarr costObs (fun i => (ny - 1) * nx + i) nx
  let costarr := fill costarr costObs (fun i => i * nx) ny
  fill costarr costObs (fun i => nx - 1 + i * nx) ny

/-! ## 升目を並べる操作 -/

/-- 配列の外の升目、並んでいる升目、障害物の升目は加えない。 -/
def push (b : Block) (n : ℤ) (s : NavFn K) : NavFn K :=
  if 0 ≤ n ∧ n < s.ns ∧ s.pending n.toNat = false ∧ s.costarr n.toNat < costObs then
    if (s.blocks b).length < priorityBufSize then
      { s with
        blocks := Function.update s.blocks b (s.blocks b ++ [n.toNat])
        pending := Function.update s.pending n.toNat true }
    else { s with refused := true }
  else s

def pushCur (n : ℤ) (s : NavFn K) : NavFn K := s.push .cur n

def pushNext (n : ℤ) (s : NavFn K) : NavFn K := s.push .next n

def pushOver (n : ℤ) (s : NavFn K) : NavFn K := s.push .overflow n

def initCost (k : ℕ) (v : K) (s : NavFn K) : NavFn K :=
  { s with potarr := Function.update s.potarr k v }
    |>.pushCur (k + 1) |>.pushCur (k - 1) |>.pushCur (k - s.nx) |>.pushCur (k + s.nx)

def setupNavFn (keepit : Bool) (s : NavFn K) : NavFn K :=
  initCost s.goalCell 0
    { s with
      potarr := fun _ => potHigh
      costarr := border s.nx s.ny (if keepit then s.costarr else fun _ => UInt8.ofNat costNeutral)
      gradx := fun _ => 0
      grady := fun _ => 0
      curT := (costObs.toNat : K)
      blocks := fun _ => []
      pending := fun _ => false
      refused := false }

/-! ## 広がり -/

/-- 近い升目は次の配列に、遠い升目は溢れた配列に加える。 -/
def pushAffected (pot : K) (n : ℤ) (s : NavFn K) : NavFn K :=
  if pot < s.curT then s.pushNext n else s.pushOver n

def updateCell (n : ℕ) (s : NavFn K) : NavFn K :=
  let l := s.potarr (n - 1)
  let r := s.potarr (n + 1)
  let u := s.potarr (n - s.nx)
  let d := s.potarr (n + s.nx)
  if s.costarr n < costObs then
    let pot := planarWave (s.costarr n) l r u d
    if pot < s.potarr n then
      let le := invSqrt2 * ((s.costarr (n - 1)).toNat : K)
      let re := invSqrt2 * ((s.costarr (n + 1)).toNat : K)
      let ue := invSqrt2 * ((s.costarr (n - s.nx)).toNat : K)
      let de := invSqrt2 * ((s.costarr (n + s.nx)).toNat : K)
      let s := { s with potarr := Function.update s.potarr n pot }
      let s := if pot + le < l then s.pushAffected pot (n - 1) else s
      let s := if pot + re < r then s.pushAffected pot (n + 1) else s
      let s := if pot + ue < u then s.pushAffected pot (n - s.nx) else s
      if pot + de < d then s.pushAffected pot (n + s.nx) else s
    else s
  else s

/-- 今の配列の升目の印を消す。 -/
def clearPending (s : NavFn K) : NavFn K :=
  { s with pending := (s.blocks .cur).foldl (fun p n => Function.update p n false) s.pending }

/-- 次の配列を今の配列にする。空であれば、しきい値を上げて、溢れた配列を今の配列にする。 -/
def swapBlocks (s : NavFn K) : NavFn K :=
  if s.blocks .next = [] then
    { s with
      curT := s.curT + s.priInc
      blocks := fun
        | .cur => s.blocks .overflow
        | .next => []
        | .overflow => [] }
  else
    { s with
      blocks := fun
        | .cur => s.blocks .next
        | .next => []
        | .overflow => s.blocks .overflow }

def runCycle (s : NavFn K) : NavFn K :=
  ((s.blocks .cur).foldl (fun s n => s.updateCell n) s.clearPending).swapBlocks

def Idle (s : NavFn K) : Prop := s.blocks .cur = [] ∧ s.blocks .next = []

instance (s : NavFn K) : Decidable s.Idle := inferInstanceAs (Decidable (_ ∧ _))

/-- 始まりの升目に届いたときに止める。 -/
def Arrived (atStart : Bool) (s : NavFn K) : Prop := atStart = true ∧ s.potarr s.startCell < potHigh

instance (atStart : Bool) (s : NavFn K) : Decidable (s.Arrived atStart) := inferInstanceAs (Decidable (_ ∧ _))

/-- 終わりの状態と、`cycles` 回より前に止まったかどうか。 -/
def propNavFnDijkstra (atStart : Bool) : ℕ → NavFn K → NavFn K × Bool
  | 0, s => (s, false)
  | cycles + 1, s =>
      if s.Idle then (s, true)
      else if s.runCycle.Arrived atStart then (s.runCycle, true)
      else propNavFnDijkstra atStart cycles s.runCycle

/-- `calcNavFnDijkstra` の繰り返しの上限。 -/
def maxCycles (s : NavFn K) : ℕ := max (s.nx * s.ny / 20) (s.nx + s.ny)

def calcNavFnDijkstra (atStart : Bool) (s : NavFn K) : NavFn K × Bool :=
  propNavFnDijkstra atStart s.maxCycles (s.setupNavFn true)

/-! ## 実行の記録 -/

/-- 繰り返しの初めの状態の列。 -/
def cycleStarts (atStart : Bool) : ℕ → NavFn K → List (NavFn K)
  | 0, s => [s]
  | cycles + 1, s =>
      s :: if s.Idle then [] else if s.runCycle.Arrived atStart then [] else cycleStarts atStart cycles s.runCycle

/-- 升目を順に更新するときの、`updateCell` の呼び出しの列。 -/
def updates : List ℕ → NavFn K → List (NavFn K × ℕ)
  | [], _ => []
  | n :: rest, s => (s, n) :: updates rest (s.updateCell n)

/-- 実行の全体での、`updateCell` の呼び出しの列。 -/
def updateCalls (atStart : Bool) : ℕ → NavFn K → List (NavFn K × ℕ)
  | 0, _ => []
  | cycles + 1, s =>
      if s.Idle then []
      else updates (s.blocks .cur) s.clearPending ++
        if s.runCycle.Arrived atStart then [] else updateCalls atStart cycles s.runCycle

end NavFn

end Ranger.Navfn
