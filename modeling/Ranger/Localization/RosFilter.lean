import Mathlib.Data.List.DropRight
import Ranger.Lib.Priority

/-!
# 遅れて届く測定の扱い（`ros_filter.cpp`）

測定を時刻順の待ち行列に入れ、`integrateMeasurements` で推定に渡す。`smooth_lagged_data` では、推定と測定の履歴を
残し、遅れて届いた測定の前まで推定を戻して、後の測定を待ち行列に戻す。推定の方式 `T` は引数とし、`FilterBase` の
`processMeasurement` はここに書く。
-/

namespace Ranger.Localization.Lagged
open Ranger.Lib

variable {E V C : Type}

/-! ## 推定 -/

/-- 待ち行列と履歴が指す測定。`address` は `new Measurement()` の返した場所、`value` は値と共分散である。 -/
structure Measurement (V C : Type) where
  address : ℕ
  time : ℤ
  latestControl : C
  latestControlTime : ℤ
  value : V
  deriving DecidableEq

/-- `RosFilter<T>` の `T` の仮想関数。`E` は状態と共分散である。`predict` は、制御を使うときの最新の制御とその時刻、
基準の時刻、時間の幅を受け取る。 -/
structure Estimator (E V C : Type) where
  predict : E → Option (C × ℤ) → ℤ → ℤ → E
  correct : E → Measurement V C → E
  firstMeasurement : E → Measurement V C → E

structure FilterBase (E C : Type) where
  initialized : Bool
  useControl : Bool
  estimate : E
  lastMeasurementTime : ℤ
  latestControl : C
  latestControlTime : ℤ
  deriving DecidableEq

namespace FilterBase

variable (T : Estimator E V C)

def setControl (f : FilterBase E C) (control : C) (controlTime : ℤ) : FilterBase E C :=
  { f with latestControl := control, latestControlTime := controlTime }

def predict (f : FilterBase E C) (referenceTime delta : ℤ) : FilterBase E C :=
  { f with
    estimate := T.predict f.estimate (if f.useControl then some (f.latestControl, f.latestControlTime) else none)
      referenceTime delta }

def processMeasurement (f : FilterBase E C) (m : Measurement V C) : FilterBase E C :=
  if f.initialized then
    let delta := m.time - f.lastMeasurementTime
    let g := if 0 < delta then f.predict T m.time delta else f
    { g with
      estimate := T.correct g.estimate m
      lastMeasurementTime := if 0 ≤ delta then m.time else f.lastMeasurementTime }
  else
    { f with initialized := true, estimate := T.firstMeasurement f.estimate m, lastMeasurementTime := m.time }

end FilterBase

structure FilterState (E C : Type) where
  estimate : E
  lastMeasurementTime : ℤ
  latestControl : C
  latestControlTime : ℤ
  deriving DecidableEq

def saveFilterState (f : FilterBase E C) : FilterState E C where
  estimate := f.estimate
  lastMeasurementTime := f.lastMeasurementTime
  latestControl := f.latestControl
  latestControlTime := f.latestControlTime

/-! ## 待ち行列と履歴 -/

/-- 履歴は古いものから並べる。`allocated` は、これまでに作られた測定である。 -/
structure RosFilter (E C : Type) {V : Type} (Q : PriorityQueue (Measurement V C) Measurement.time) where
  smoothLaggedData : Bool
  predictToCurrentTime : Bool
  sensorTimeout : ℤ
  filter : FilterBase E C
  measurementQueue : Q.Carrier
  filterStateHistory : List (FilterState E C)
  measurementHistory : List (Measurement V C)
  latestControl : C
  latestControlTime : ℤ
  allocated : List (Measurement V C)

namespace RosFilter

variable {Q : PriorityQueue (Measurement V C) Measurement.time} (T : Estimator E V C)

def enqueueMeasurement (s : RosFilter E C Q) (value : V) (time : ℤ) : RosFilter E C Q :=
  let m : Measurement V C :=
    { address := s.allocated.length
      time := time
      latestControl := s.latestControl
      latestControlTime := s.latestControlTime
      value := value }
  { s with measurementQueue := Q.push s.measurementQueue m, allocated := s.allocated ++ [m] }

def controlStampedCallback (s : RosFilter E C Q) (control : C) (time : ℤ) : RosFilter E C Q :=
  { s with
    latestControl := control
    latestControlTime := time
    filter := s.filter.setControl control time }

def clearExpiredHistory (s : RosFilter E C Q) (cutoffTime : ℤ) : RosFilter E C Q :=
  { s with
    measurementHistory := s.measurementHistory.dropWhile fun m => m.time < cutoffTime
    filterStateHistory := s.filterStateHistory.dropWhile fun h => h.lastMeasurementTime < cutoffTime }

/-- 戻る先の推定。`time` 以前のものがなければ、残っている最も古いものとする。 -/
def lastHistoryState (s : RosFilter E C Q) (time : ℤ) : Option (FilterState E C) :=
  match (s.filterStateHistory.rdropWhile fun h => time < h.lastMeasurementTime).getLast? with
  | some h => some h
  | none => s.filterStateHistory.head?

/-- 戻るときに履歴の後ろから取り除く測定。 -/
def rewound (s : RosFilter E C Q) (time : ℤ) : List (Measurement V C) :=
  s.measurementHistory.rtakeWhile fun m => time < m.time

def revertTo (s : RosFilter E C Q) (time : ℤ) : RosFilter E C Q :=
  let kept := s.filterStateHistory.rdropWhile fun h => time < h.lastMeasurementTime
  match s.lastHistoryState time with
  | none => { s with filterStateHistory := kept }
  | some h =>
      { s with
        filterStateHistory := kept
        filter :=
          { s.filter with estimate := h.estimate, lastMeasurementTime := h.lastMeasurementTime }
        measurementQueue := Q.pushAll s.measurementQueue
          ((s.rewound time).reverse.filter fun m => h.lastMeasurementTime ≤ m.time)
        measurementHistory := s.measurementHistory.rdropWhile fun m => time < m.time }

/-! ## `integrateMeasurements` -/

/-- 待ち行列の先頭が、推定の最後の測定より前の時刻である。 -/
def lagged (s : RosFilter E C Q) (first : Measurement V C) : Bool :=
  s.smoothLaggedData && first.time < s.filter.lastMeasurementTime

/-- 推定に渡した測定を履歴に加える。推定は、同じ時刻の測定が続かないときだけ加える。 -/
def store (s : RosFilter E C Q) (m : Measurement V C) : RosFilter E C Q :=
  if s.smoothLaggedData then
    { s with
      measurementHistory := s.measurementHistory ++ [m]
      filterStateHistory :=
        match Q.pop s.measurementQueue with
        | some (top, _) =>
            if top.time = s.filter.lastMeasurementTime then s.filterStateHistory
            else s.filterStateHistory ++ [saveFilterState s.filter]
        | none => s.filterStateHistory ++ [saveFilterState s.filter] }
  else s

/-- 待ち行列から取り出した一つの測定の処理。`restored` は、戻した測定のうちまだ処理していない個数である。 -/
def integrate (s : RosFilter E C Q) (rest : Q.Carrier) (m : Measurement V C) (restored : ℕ) : RosFilter E C Q :=
  let controlled :=
    if s.filter.useControl && 0 < restored then s.filter.setControl m.latestControl m.latestControlTime
    else s.filter
  store { s with measurementQueue := rest, filter := controlled.processMeasurement T m } m

/-- 待ち行列を順に処理する。`fuel` は待ち行列の長さで足りる。 -/
def processQueue (currentTime : ℤ) : ℕ → ℕ → RosFilter E C Q → RosFilter E C Q
  | 0, _, s => s
  | fuel + 1, restored, s =>
      match Q.pop s.measurementQueue with
      | none => s
      | some (m, rest) =>
          if currentTime < m.time then s
          else
            processQueue currentTime fuel
              (if s.filter.useControl && 0 < restored then restored - 1 else restored)
              (s.integrate T rest m restored)

theorem store_queue (s : RosFilter E C Q) (m : Measurement V C) :
    (s.store m).measurementQueue = s.measurementQueue := by
  unfold store
  split <;> rfl

theorem integrate_queue (s : RosFilter E C Q) (rest : Q.Carrier) (m : Measurement V C) (restored : ℕ) :
    (s.integrate T rest m restored).measurementQueue = rest :=
  store_queue _ m

/-- 待ち行列の長さの燃料があれば、燃料を足しても結果は変わらない。 -/
theorem processQueue_fuel (currentTime : ℤ) {fuel : ℕ} (restored : ℕ) {s : RosFilter E C Q}
    (hfuel : Q.size s.measurementQueue ≤ fuel) :
    s.processQueue T currentTime (fuel + 1) restored = s.processQueue T currentTime fuel restored := by
  induction fuel generalizing s restored with
  | zero =>
      have hempty : Q.elems s.measurementQueue = 0 := Multiset.card_eq_zero.mp (Nat.le_zero.mp hfuel)
      simp only [processQueue, PriorityQueue.pop_eq_none_iff.mpr hempty]
  | succ fuel ih =>
      rw [processQueue, processQueue]
      cases hpop : Q.pop s.measurementQueue with
      | none => rfl
      | some c =>
          dsimp only
          split
          · rfl
          · have hsize : Q.size s.measurementQueue = Q.size c.2 + 1 := PriorityQueue.size_of_pop hpop
            refine ih _ ?_
            rw [integrate_queue]
            omega

/-- 一つの測定の処理が保つ性質は、待ち行列の処理の後で成り立つ。 -/
theorem processQueue_inv {P : RosFilter E C Q → Prop}
    (hstep : ∀ s m rest restored, P s → Q.pop s.measurementQueue = some (m, rest) → P (s.integrate T rest m restored))
    (currentTime : ℤ) (fuel restored : ℕ) {s : RosFilter E C Q} (hs : P s) :
    P (s.processQueue T currentTime fuel restored) := by
  induction fuel generalizing s restored with
  | zero => exact hs
  | succ fuel ih =>
      rw [processQueue]
      cases hpop : Q.pop s.measurementQueue with
      | none => exact hs
      | some c =>
          dsimp only
          split
          · exact hs
          · exact ih _ (hstep s c.1 c.2 restored hs hpop)

/-- 推定を `currentTime` まで進める。 -/
def predictTo (s : RosFilter E C Q) (currentTime : ℤ) : RosFilter E C Q :=
  let delta := currentTime - s.filter.lastMeasurementTime
  { s with
    filter :=
      { s.filter.predict T currentTime delta with
        lastMeasurementTime := s.filter.lastMeasurementTime + delta } }

/-- 測定がないまま `sensor_timeout` を過ぎた。 -/
def timedOut (s : RosFilter E C Q) (currentTime : ℤ) : Bool :=
  s.filter.initialized && s.sensorTimeout ≤ currentTime - s.filter.lastMeasurementTime

def integrateMeasurements (s : RosFilter E C Q) (currentTime : ℤ) : RosFilter E C Q :=
  match Q.pop s.measurementQueue with
  | some (first, _) =>
      let reverted := if s.lagged first then s.revertTo (first.time - 1) else s
      let restored := Q.size reverted.measurementQueue - Q.size s.measurementQueue
      let integrated := processQueue T currentTime (Q.size reverted.measurementQueue) restored reverted
      if integrated.filter.initialized && integrated.predictToCurrentTime then integrated.predictTo T currentTime
      else integrated
  | none =>
      if s.filter.initialized && (s.predictToCurrentTime || s.timedOut currentTime) then s.predictTo T currentTime
      else s

/-! ## 操作の並び -/

inductive Event (V C : Type) where
  | enqueueMeasurement (value : V) (time : ℤ)
  | integrateMeasurements (currentTime : ℤ)
  | clearExpiredHistory (cutoffTime : ℤ)
  | controlStampedCallback (control : C) (time : ℤ)

/-- 制御の購読は `use_control` のときだけ行われる。 -/
def step (s : RosFilter E C Q) : Event V C → Option (RosFilter E C Q)
  | .enqueueMeasurement value time => some (s.enqueueMeasurement value time)
  | .integrateMeasurements currentTime => some (s.integrateMeasurements T currentTime)
  | .clearExpiredHistory cutoffTime => some (s.clearExpiredHistory cutoffTime)
  | .controlStampedCallback control time =>
      if s.filter.useControl then some (s.controlStampedCallback control time) else none

/-- まだ測定のない推定から始める。 -/
def start (smoothLaggedData predictToCurrentTime useControl : Bool) (sensorTimeout : ℤ) (estimate : E) (control : C) :
    RosFilter E C Q where
  smoothLaggedData := smoothLaggedData
  predictToCurrentTime := predictToCurrentTime
  sensorTimeout := sensorTimeout
  filter :=
    { initialized := false
      useControl := useControl
      estimate := estimate
      lastMeasurementTime := 0
      latestControl := control
      latestControlTime := 0 }
  measurementQueue := Q.empty
  filterStateHistory := []
  measurementHistory := []
  latestControl := control
  latestControlTime := 0
  allocated := []

end RosFilter

end Ranger.Localization.Lagged
