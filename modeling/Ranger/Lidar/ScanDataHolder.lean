import Mathlib
import Ranger.Lib.Run
import Ranger.Lidar.NormalNode

/-!
# 一周の受け渡し

`ScanDataHolder`。復号のスレッドは測定を一方の配列に積み、同期の印のある測定で配列を入れ替える。読むスレッドは、知らせを待つことと
鍵を取って読むことの間で割り込まれる。
-/

namespace Ranger.Lidar

open Ranger.Lib

-- 二つの配列の番号 `Fin 2` の数字が、どのモジュールでも同じ項になるように、名前のついたインスタンスにする。
local instance neZeroTwo : NeZero (2 : Nat) := ⟨Nat.succ_ne_zero 1⟩

/-- `_scan_node_available_id` の -1 を `none` とする。 -/
structure ScanDataHolder where
  scanNodeBufferSize : ℕ
  scanNodeAvailableId : Option (Fin 2)
  newScanReady : Bool
  dataWaiter : Bool
  scanBeginTimestamp : Fin 2 → UInt64
  scanbuffer : Fin 2 → List NodeHq

/-- `RPLIDAR_RESP_HQ_FLAG_SYNCBIT`。 -/
def NodeHq.isSync (n : NodeHq) : Bool := n.flag &&& 1 != 0

namespace ScanDataHolder

def create (maxcount : ℕ) : ScanDataHolder := ⟨maxcount, none, false, false, fun _ => 0, fun _ => []⟩

def reset (h : ScanDataHolder) : ScanDataHolder := create h.scanNodeBufferSize

def getOperationBufferID (h : ScanDataHolder) : Fin 2 :=
  match h.scanNodeAvailableId with
  | none => 0
  | some id => 1 - id

def setBuffer (h : ScanDataHolder) (id : Fin 2) (buf : List NodeHq) : ScanDataHolder :=
  { h with scanbuffer := fun i => if i = id then buf else h.scanbuffer i }

/-- 配列を入れ替え、知らせる。 -/
def finishCurrentScanAndSwap (h : ScanDataHolder) : ScanDataHolder :=
  { h.setBuffer (1 - h.getOperationBufferID) [] with
    scanNodeAvailableId := some h.getOperationBufferID, newScanReady := true, dataWaiter := true }

/-- 始まりの時刻を書く。 -/
def stamp (h : ScanDataHolder) (id : Fin 2) (ts : UInt64) : ScanDataHolder :=
  { h with scanBeginTimestamp := fun i => if i = id then ts else h.scanBeginTimestamp i }

/-- 配列が一杯のときは、最後の測定を書き換える。空の配列の `at` は例外になる。 -/
def append (h : ScanDataHolder) (id : Fin 2) (n : NodeHq) : Option ScanDataHolder :=
  let buf := h.scanbuffer id
  if h.scanNodeBufferSize ≤ buf.length then
    if buf.length = 0 then none else some (h.setBuffer id (buf.set (buf.length - 1) n))
  else some (h.setBuffer id (buf ++ [n]))

def pushScanNodeData (h : ScanDataHolder) (ts : UInt64) (n : NodeHq) : Option ScanDataHolder :=
  if n.isSync then
    let h := if (h.scanbuffer h.getOperationBufferID).length ≠ 0 then h.finishCurrentScanAndSwap else h
    let id := h.getOperationBufferID
    if (h.scanbuffer id).length ≠ 0 then none
    else (h.stamp id ts).append id n
  else if (h.scanbuffer h.getOperationBufferID).length = 0 then some h
  else h.append h.getOperationBufferID n

def rewindCurrentScanData (h : ScanDataHolder) : ScanDataHolder := h.setBuffer h.getOperationBufferID []

end ScanDataHolder

/-- 読む側の受け取るもの。 -/
inductive Reply where
  | timeout
  | scan (timestamp : UInt64) (nodes : List NodeHq)
  deriving DecidableEq

/-- 事象。`waiting` は `_data_waiter.wait` が戻ること、`taking` は鍵を取って `count` 個までを写すこと、`restarting` は `_op_locker` を
取っての `reset` である。`waiting` の引数は、知らせのない起床である。 -/
inductive Event where
  | pushing (ts : UInt64) (n : NodeHq)
  | rewinding
  | waiting (spurious : Bool)
  | taking (count : ℕ)
  | restarting

/-- `woken` の間、読むスレッドが `_op_locker` を持つ。 -/
structure Exchange where
  holder : ScanDataHolder
  woken : Bool
  replies : List Reply

namespace Exchange

def create (maxcount : ℕ) : Exchange := ⟨.create maxcount, false, []⟩

/-- 一つの事象。表明に反するとき `none`。`_op_locker` を取れないスレッドは進まない。 -/
def step (s : Exchange) : Event → Option Exchange
  | .pushing ts n => (s.holder.pushScanNodeData ts n).map fun h => { s with holder := h }
  | .rewinding => some { s with holder := s.holder.rewindCurrentScanData }
  | .waiting spurious =>
      if s.woken then some s
      else if s.holder.dataWaiter || spurious then
        some { s with woken := true, holder := { s.holder with dataWaiter := false } }
      else some { s with replies := s.replies ++ [.timeout] }
  | .taking count =>
      if s.woken then
        s.holder.scanNodeAvailableId.map fun id =>
          { holder := { s.holder with newScanReady := false }
            woken := false
            replies := s.replies ++ [.scan (s.holder.scanBeginTimestamp id) ((s.holder.scanbuffer id).take count)] }
      else some s
  | .restarting => if s.woken then some s else some { s with holder := s.holder.reset }

end Exchange

/-! ## 一周の列 -/

/-- 一周の測定と、その始まりの時刻。 -/
structure Revolution where
  begin : UInt64
  nodes : List NodeHq

/-- 配列に残る測定。あふれた測定は最後の一つだけが残る。 -/
def capped (maxcount : ℕ) (ns : List NodeHq) : List NodeHq :=
  ns.take (maxcount - 1) ++ (ns.drop (maxcount - 1)).getLast?.toList

/-- 始めてから終えた一周の列と、途中の一周。`seen` は、最後に起きたときまでに終えた一周の数である。 -/
structure Turning where
  finished : List Revolution
  current : Option Revolution
  seen : ℕ
  woken : Bool
  replies : List Reply

namespace Turning

def create : Turning := ⟨[], none, 0, false, []⟩

def push (a : Turning) (ts : UInt64) (n : NodeHq) : Turning :=
  if n.isSync then { a with finished := a.finished ++ a.current.toList, current := some ⟨ts, [n]⟩ }
  else { a with current := a.current.map fun r => { r with nodes := r.nodes ++ [n] } }

/-- 終えた一周が新しくあるとき起き、最後に終えた一周を渡す。 -/
def step (maxcount : ℕ) (a : Turning) : Event → Option Turning
  | .pushing ts n => some (a.push ts n)
  | .rewinding => some { a with current := none }
  | .waiting spurious =>
      if a.woken then some a
      else if a.seen < a.finished.length || spurious then some { a with woken := true, seen := a.finished.length }
      else some { a with replies := a.replies ++ [.timeout] }
  | .taking count =>
      if a.woken then
        a.finished.getLast?.map fun r =>
          { a with woken := false, replies := a.replies ++ [.scan r.begin ((capped maxcount r.nodes).take count)] }
      else some a
  | .restarting => if a.woken then some a else some { create with replies := a.replies }

end Turning

section Capped

variable {maxcount : ℕ} {ns : List NodeHq}

theorem capped_of_le (h : ns.length ≤ maxcount) : capped maxcount ns = ns := by
  have hone : (ns.drop (maxcount - 1)).length ≤ 1 := by
    rw [List.length_drop]
    omega
  have hlast : ∀ l : List NodeHq, l.length ≤ 1 → l.getLast?.toList = l
    | [], _ => rfl
    | [_], _ => rfl
  rw [capped, hlast _ hone, List.take_append_drop]

theorem capped_ne_nil (h : ns ≠ []) : capped maxcount ns ≠ [] := by
  intro hnil
  obtain ⟨htake, hlast⟩ := List.append_eq_nil_iff.mp hnil
  rw [Option.toList_eq_nil_iff, List.getLast?_eq_none_iff] at hlast
  exact h (by rw [← List.take_append_drop (maxcount - 1) ns, htake, hlast, List.append_nil])

/-- あふれる測定は、最後の測定を書き換える。 -/
theorem capped_concat (hmax : 0 < maxcount) (n : NodeHq) :
    capped maxcount (ns ++ [n]) =
      if maxcount ≤ (capped maxcount ns).length then (capped maxcount ns).set ((capped maxcount ns).length - 1) n
      else capped maxcount ns ++ [n] := by
  by_cases hfull : maxcount ≤ ns.length
  · have hdrop : (ns.drop (maxcount - 1)).getLast?.toList.length = 1 := by
      cases hlast : (ns.drop (maxcount - 1)).getLast? with
      | none =>
          rw [List.getLast?_eq_none_iff, List.drop_eq_nil_iff] at hlast
          omega
      | some l => rfl
    obtain ⟨l, hl⟩ := List.length_eq_one_iff.mp hdrop
    have htake : (ns.take (maxcount - 1)).length = maxcount - 1 := by
      rw [List.length_take]
      omega
    have hlength : (capped maxcount ns).length = maxcount := by
      rw [capped, List.length_append, hdrop, htake]
      omega
    rw [if_pos (by omega), hlength, capped, capped, hl, List.take_append_of_le_length (by omega),
      List.drop_append_of_le_length (by omega), List.getLast?_append, List.set_append_right _ _ (by omega), htake]
    simp
  · have hle : ns.length ≤ maxcount := by omega
    rw [capped_of_le hle, if_neg hfull]
    exact capped_of_le (by simp; omega)

end Capped

/-! ## 対応 -/

/-- 配列は、最後に終えた一周と途中の一周を持つ。 -/
structure Holds (maxcount : ℕ) (h : ScanDataHolder) (finished : List Revolution) (current : Option Revolution)
    (unread : Bool) : Prop where
  size : h.scanNodeBufferSize = maxcount
  buffer : h.scanbuffer h.getOperationBufferID = current.elim [] fun r => capped maxcount r.nodes
  started : ∀ r, current = some r → r.nodes ≠ [] ∧ h.scanBeginTimestamp h.getOperationBufferID = r.begin
  available : (h.scanNodeAvailableId = none ∧ finished = []) ∨
    ∃ id r, h.scanNodeAvailableId = some id ∧ finished.getLast? = some r ∧ h.scanBeginTimestamp id = r.begin ∧
      h.scanbuffer id = capped maxcount r.nodes
  waiter : h.dataWaiter = unread

namespace Holds

variable {maxcount : ℕ} {h : ScanDataHolder} {finished : List Revolution} {current : Option Revolution} {unread : Bool}

theorem create (maxcount : ℕ) : Holds maxcount (.create maxcount) [] none false :=
  ⟨rfl, rfl, by simp, .inl ⟨rfl, rfl⟩, rfl⟩

theorem ne_other (id : Fin 2) : id ≠ 1 - id := by
  revert id
  decide

theorem available_ne {id : Fin 2} (hid : h.scanNodeAvailableId = some id) : id ≠ h.getOperationBufferID := by
  rw [ScanDataHolder.getOperationBufferID, hid]
  exact ne_other id

theorem finish {r : Revolution} (hh : Holds maxcount h finished (some r) unread) :
    Holds maxcount h.finishCurrentScanAndSwap (finished ++ [r]) none true where
  size := hh.size
  buffer := by simp [ScanDataHolder.finishCurrentScanAndSwap, ScanDataHolder.setBuffer, ScanDataHolder.getOperationBufferID]
  started := by simp
  available := by
    refine .inr ⟨h.getOperationBufferID, r, rfl, by simp, (hh.started r rfl).2, ?_⟩
    simpa [ScanDataHolder.finishCurrentScanAndSwap, ScanDataHolder.setBuffer, ne_other] using hh.buffer
  waiter := rfl

/-- 途中の一周だけを書き換える。 -/
theorem write {current' : Option Revolution} {h' : ScanDataHolder} (hh : Holds maxcount h finished current unread)
    (hsize : h'.scanNodeBufferSize = h.scanNodeBufferSize) (hid : h'.scanNodeAvailableId = h.scanNodeAvailableId)
    (hwaiter : h'.dataWaiter = h.dataWaiter)
    (hother : ∀ i, i ≠ h.getOperationBufferID →
      h'.scanbuffer i = h.scanbuffer i ∧ h'.scanBeginTimestamp i = h.scanBeginTimestamp i)
    (hbuffer : h'.scanbuffer h.getOperationBufferID = current'.elim [] fun r => capped maxcount r.nodes)
    (hstarted : ∀ r, current' = some r → r.nodes ≠ [] ∧ h'.scanBeginTimestamp h.getOperationBufferID = r.begin) :
    Holds maxcount h' finished current' unread := by
  have hop : h'.getOperationBufferID = h.getOperationBufferID := by
    rw [ScanDataHolder.getOperationBufferID, ScanDataHolder.getOperationBufferID, hid]
  refine ⟨hsize.trans hh.size, by rw [hop, hbuffer], by rwa [hop], ?_, hwaiter.trans hh.waiter⟩
  rcases hh.available with ⟨hnone, hnil⟩ | ⟨id, r, hsome, hlast, hbegin, hnodes⟩
  · exact .inl ⟨hid.trans hnone, hnil⟩
  · obtain ⟨hsame, hsame'⟩ := hother id (available_ne hsome)
    exact .inr ⟨id, r, hid.trans hsome, hlast, hsame'.trans hbegin, hsame.trans hnodes⟩

theorem rewind (hh : Holds maxcount h finished current unread) :
    Holds maxcount h.rewindCurrentScanData finished none unread := by
  refine hh.write rfl rfl rfl (fun i hi => ⟨?_, rfl⟩) ?_ (by simp)
  · simp [ScanDataHolder.rewindCurrentScanData, ScanDataHolder.setBuffer, hi]
  · simp [ScanDataHolder.rewindCurrentScanData, ScanDataHolder.setBuffer]

theorem start (hmax : 0 < maxcount) (hh : Holds maxcount h finished none unread) (ts : UInt64) (n : NodeHq) :
    ∃ h', (h.stamp h.getOperationBufferID ts).append h.getOperationBufferID n = some h' ∧
      Holds maxcount h' finished (some ⟨ts, [n]⟩) unread := by
  have hempty : h.scanbuffer h.getOperationBufferID = [] := hh.buffer
  have hroom : ¬ h.scanNodeBufferSize ≤ 0 := by
    rw [hh.size]
    omega
  have hwrite : (h.stamp h.getOperationBufferID ts).append h.getOperationBufferID n =
      some ((h.stamp h.getOperationBufferID ts).setBuffer h.getOperationBufferID (capped maxcount [n])) := by
    have hone : capped maxcount [n] = [n] := capped_of_le hmax
    simp only [ScanDataHolder.append, ScanDataHolder.stamp, hempty, List.length_nil, if_neg hroom, hone, List.nil_append]
  refine ⟨_, hwrite, hh.write rfl rfl rfl (fun i hi => ?_) ?_ fun r hr => ?_⟩
  · simp [ScanDataHolder.setBuffer, ScanDataHolder.stamp, hi]
  · simp [ScanDataHolder.setBuffer]
  · cases hr
    simp [ScanDataHolder.setBuffer, ScanDataHolder.stamp]

theorem append (hmax : 0 < maxcount) {r : Revolution} (hh : Holds maxcount h finished (some r) unread) (n : NodeHq) :
    ∃ h', h.append h.getOperationBufferID n = some h' ∧
      Holds maxcount h' finished (some { r with nodes := r.nodes ++ [n] }) unread := by
  have hbuffer : h.scanbuffer h.getOperationBufferID = capped maxcount r.nodes := hh.buffer
  obtain ⟨hne, hbegin⟩ := hh.started r rfl
  have hpos : (capped maxcount r.nodes).length ≠ 0 := fun hzero => capped_ne_nil hne (List.length_eq_zero_iff.mp hzero)
  have hwrite : h.append h.getOperationBufferID n =
      some (h.setBuffer h.getOperationBufferID (capped maxcount (r.nodes ++ [n]))) := by
    rw [ScanDataHolder.append, hbuffer, hh.size, capped_concat hmax]
    split_ifs <;> rfl
  refine ⟨_, hwrite, hh.write rfl rfl rfl (fun i hi => ?_) ?_ fun r' hr' => ?_⟩
  · simp [ScanDataHolder.setBuffer, hi]
  · simp [ScanDataHolder.setBuffer]
  · cases hr'
    exact ⟨by simp, hbegin⟩

theorem push (hmax : 0 < maxcount) {a : Turning} (hh : Holds maxcount h a.finished a.current unread) (ts : UInt64)
    (n : NodeHq) :
    ∃ h', h.pushScanNodeData ts n = some h' ∧
      Holds maxcount h' (a.push ts n).finished (a.push ts n).current
        (unread || (n.isSync && a.current.isSome)) := by
  have hbuffer := hh.buffer
  cases hsync : n.isSync with
  | true =>
      cases hcurrent : a.current with
      | none =>
          rw [hcurrent] at hh hbuffer
          obtain ⟨h', hstart, hend⟩ := hh.start hmax ts n
          refine ⟨h', ?_, by simpa [Turning.push, hsync, hcurrent] using hend⟩
          rw [← hstart]
          simp [ScanDataHolder.pushScanNodeData, hsync, hbuffer, ScanDataHolder.stamp]
      | some r =>
          rw [hcurrent] at hh hbuffer
          have hne : (capped maxcount r.nodes).length ≠ 0 := fun hzero =>
            capped_ne_nil (hh.started r rfl).1 (List.length_eq_zero_iff.mp hzero)
          have hswapped := hh.finish
          obtain ⟨h', hstart, hend⟩ := hswapped.start hmax ts n
          refine ⟨h', ?_, by simpa [Turning.push, hsync, hcurrent] using hend⟩
          have hempty : h.finishCurrentScanAndSwap.scanbuffer h.finishCurrentScanAndSwap.getOperationBufferID = [] :=
            hswapped.buffer
          rw [← hstart]
          simp [ScanDataHolder.pushScanNodeData, hsync, hbuffer, hne, hempty, ScanDataHolder.stamp]
  | false =>
      cases hcurrent : a.current with
      | none =>
          rw [hcurrent] at hh hbuffer
          refine ⟨h, by simp [ScanDataHolder.pushScanNodeData, hsync, hbuffer], ?_⟩
          simpa [Turning.push, hsync, hcurrent] using hh
      | some r =>
          rw [hcurrent] at hh hbuffer
          have hne : (capped maxcount r.nodes).length ≠ 0 := fun hzero =>
            capped_ne_nil (hh.started r rfl).1 (List.length_eq_zero_iff.mp hzero)
          obtain ⟨h', happend, hend⟩ := hh.append hmax n
          refine ⟨h', ?_, by simpa [Turning.push, hsync, hcurrent] using hend⟩
          rw [← happend]
          simp [ScanDataHolder.pushScanNodeData, hsync, hbuffer, hne]

theorem read (hh : Holds maxcount h finished current unread) {id : Fin 2} (hid : h.scanNodeAvailableId = some id) :
    ∃ r, finished.getLast? = some r ∧ h.scanBeginTimestamp id = r.begin ∧ h.scanbuffer id = capped maxcount r.nodes := by
  rcases hh.available with ⟨hnone, -⟩ | ⟨id', r, hsome, hlast⟩
  · rw [hid] at hnone
    cases hnone
  · rw [hid] at hsome
    cases hsome
    exact ⟨r, hlast⟩

/-- 知らせを消すことと、読んだ印を消すこと。 -/
theorem clear (hh : Holds maxcount h finished current unread) (unread' ready : Bool) :
    Holds maxcount { h with dataWaiter := unread', newScanReady := ready } finished current unread' :=
  ⟨hh.size, hh.buffer, hh.started, hh.available, rfl⟩

end Holds

structure Matches (maxcount : ℕ) (s : Exchange) (a : Turning) : Prop where
  holds : Holds maxcount s.holder a.finished a.current (decide (a.seen < a.finished.length))
  seen : a.seen ≤ a.finished.length
  woken : s.woken = a.woken
  replies : s.replies = a.replies

section Simulation

variable {maxcount : ℕ} {s : Exchange} {a : Turning}

theorem matches_create (maxcount : ℕ) : Matches maxcount (.create maxcount) .create :=
  ⟨.create maxcount, Nat.le_refl 0, rfl, rfl⟩

theorem unread_push (hseen : a.seen ≤ a.finished.length) (ts : UInt64) (n : NodeHq) :
    (decide (a.seen < a.finished.length) || (n.isSync && a.current.isSome)) =
      decide ((a.push ts n).seen < (a.push ts n).finished.length) := by
  cases hsync : n.isSync with
  | false => simp [Turning.push, hsync]
  | true =>
      cases hcurrent : a.current with
      | none => simp [Turning.push, hsync, hcurrent]
      | some r =>
          simp [Turning.push, hsync, hcurrent]
          omega

theorem push_keeps (hseen : a.seen ≤ a.finished.length) (ts : UInt64) (n : NodeHq) :
    (a.push ts n).seen ≤ (a.push ts n).finished.length ∧ (a.push ts n).woken = a.woken ∧
      (a.push ts n).replies = a.replies := by
  cases hsync : n.isSync with
  | true =>
      simp [Turning.push, hsync]
      omega
  | false => simpa [Turning.push, hsync] using hseen

/-- 一つの事象は、両方で起こるか、両方で起こらない。 -/
theorem Matches.step (hmax : 0 < maxcount) (hm : Matches maxcount s a) (e : Event) :
    (s.step e = none ∧ a.step maxcount e = none) ∨
      ∃ s' a', s.step e = some s' ∧ a.step maxcount e = some a' ∧ Matches maxcount s' a' := by
  have hholds := hm.holds
  have hwoken := hm.woken
  cases e with
  | pushing ts n =>
      obtain ⟨h', hpush, hend⟩ := hholds.push hmax ts n
      rw [unread_push hm.seen ts n] at hend
      obtain ⟨hseen, hwoken', hreplies⟩ := push_keeps hm.seen ts n
      exact .inr ⟨{ s with holder := h' }, a.push ts n, by simp [Exchange.step, hpush], rfl, hend, hseen,
        hwoken.trans hwoken'.symm, hm.replies.trans hreplies.symm⟩
  | rewinding => exact .inr ⟨_, _, rfl, rfl, hholds.rewind, hm.seen, hwoken, hm.replies⟩
  | waiting spurious =>
      cases hwoke : a.woken with
      | true => exact .inr ⟨s, a, by simp [Exchange.step, hwoken, hwoke], by simp [Turning.step, hwoke], hm⟩
      | false =>
          have hwaiter := hholds.waiter
          rw [hwoke] at hwoken
          by_cases hnew : (decide (a.seen < a.finished.length) || spurious) = true
          · refine .inr ⟨{ s with woken := true, holder := { s.holder with dataWaiter := false } },
              { a with woken := true, seen := a.finished.length }, by simp [Exchange.step, hwoken, hwaiter, hnew],
              by simp [Turning.step, hwoke, hnew], ?_, Nat.le_refl _, rfl, hm.replies⟩
            simpa using hholds.clear false s.holder.newScanReady
          · refine .inr ⟨{ s with replies := s.replies ++ [.timeout] }, { a with replies := a.replies ++ [.timeout] },
              by simp [Exchange.step, hwoken, hwaiter, hnew], by simp [Turning.step, hwoke, hnew], hholds, hm.seen,
              hm.woken, ?_⟩
            rw [hm.replies]
  | taking count =>
      cases hwoke : a.woken with
      | false => exact .inr ⟨s, a, by simp [Exchange.step, hwoken, hwoke], by simp [Turning.step, hwoke], hm⟩
      | true =>
          rw [hwoke] at hwoken
          cases hid : s.holder.scanNodeAvailableId with
          | none =>
              rcases hholds.available with ⟨-, hnil⟩ | ⟨id, r, hsome, -⟩
              · exact .inl ⟨by simp [Exchange.step, hwoken, hid], by simp [Turning.step, hwoke, hnil]⟩
              · rw [hid] at hsome
                cases hsome
          | some id =>
              obtain ⟨r, hlast, hbegin, hnodes⟩ := hholds.read hid
              let reply := Reply.scan r.begin ((capped maxcount r.nodes).take count)
              refine .inr ⟨⟨{ s.holder with newScanReady := false }, false, s.replies ++ [reply]⟩,
                { a with woken := false, replies := a.replies ++ [reply] },
                by simp [Exchange.step, hwoken, hid, hbegin, hnodes, reply],
                by simp [Turning.step, hwoke, hlast, reply], ?_, hm.seen, rfl, ?_⟩
              · simpa [hholds.waiter] using hholds.clear s.holder.dataWaiter false
              · rw [hm.replies]
  | restarting =>
      cases hwoke : a.woken with
      | true => exact .inr ⟨s, a, by simp [Exchange.step, hwoken, hwoke], by simp [Turning.step, hwoke], hm⟩
      | false =>
          rw [hwoke] at hwoken
          refine .inr ⟨{ s with holder := s.holder.reset }, { Turning.create with replies := a.replies },
            by simp [Exchange.step, hwoken], by simp [Turning.step, hwoke], ?_, Nat.le_refl _, hwoken, hm.replies⟩
          rw [ScanDataHolder.reset, hholds.size]
          exact .create maxcount

theorem Matches.runs (hmax : 0 < maxcount) (hm : Matches maxcount s a) (es : List Event) :
    (runs Exchange.step s es).map Exchange.replies = (runs (Turning.step maxcount) a es).map Turning.replies := by
  induction es generalizing s a with
  | nil => simp [hm.replies]
  | cons e es ih =>
      rcases hm.step hmax e with ⟨hnone, hnone'⟩ | ⟨s', a', hsome, hsome', hnext⟩
      · simp [Lib.runs, hnone, hnone']
      · rw [runs_cons hsome, runs_cons hsome', ih hnext]

end Simulation

/-! ## 表明 -/

/-- 起きたときは、終えた一周がある。 -/
structure Turning.Sound (a : Turning) : Prop where
  seen : a.seen ≤ a.finished.length
  woken : a.woken = true → a.finished ≠ []

namespace Turning.Sound

variable {maxcount : ℕ} {a : Turning}

theorem push (h : a.Sound) (ts : UInt64) (n : NodeHq) : (a.push ts n).Sound := by
  obtain ⟨hseen, hwoken, -⟩ := push_keeps h.seen ts n
  refine ⟨hseen, fun hwoke => ?_⟩
  rw [hwoken] at hwoke
  have hne := h.woken hwoke
  cases hsync : n.isSync with
  | true => simp [Turning.push, hsync, hne]
  | false => simpa [Turning.push, hsync] using hne

/-- 知らせのない起床がなければ、表明は破れない。 -/
theorem step (h : a.Sound) {e : Event} (hno : e ≠ .waiting true) : ∃ a', a.step maxcount e = some a' ∧ a'.Sound := by
  cases e with
  | pushing ts n => exact ⟨_, rfl, h.push ts n⟩
  | rewinding => exact ⟨_, rfl, h.seen, h.woken⟩
  | waiting spurious =>
      cases hwoke : a.woken with
      | true => exact ⟨a, by simp [Turning.step, hwoke], h⟩
      | false =>
          have hfalse : spurious = false := by
            cases spurious with
            | true => exact absurd rfl hno
            | false => rfl
          by_cases hnew : a.seen < a.finished.length
          · refine ⟨{ a with woken := true, seen := a.finished.length }, by simp [Turning.step, hwoke, hnew],
              Nat.le_refl _, fun _ hnil => ?_⟩
            rw [hnil] at hnew
            cases hnew
          · exact ⟨{ a with replies := a.replies ++ [.timeout] }, by simp [Turning.step, hwoke, hnew, hfalse], h.seen, h.woken⟩
  | taking count =>
      cases hwoke : a.woken with
      | false => exact ⟨a, by simp [Turning.step, hwoke], h⟩
      | true =>
          cases hlast : a.finished.getLast? with
          | none => exact absurd (List.getLast?_eq_none_iff.mp hlast) (h.woken hwoke)
          | some r =>
              let reply := Reply.scan r.begin ((capped maxcount r.nodes).take count)
              exact ⟨{ a with woken := false, replies := a.replies ++ [reply] }, by simp [Turning.step, hwoke, hlast, reply],
                h.seen, fun hfalse => by cases hfalse⟩
  | restarting =>
      cases hwoke : a.woken with
      | true => exact ⟨a, by simp [Turning.step, hwoke], h⟩
      | false =>
          refine ⟨{ Turning.create with replies := a.replies }, by simp [Turning.step, hwoke], Nat.le_refl _, ?_⟩
          intro hfalse
          cases hfalse

theorem runs (h : a.Sound) {es : List Event} (hno : .waiting true ∉ es) : ∃ a', runs (Turning.step maxcount) a es = some a' := by
  induction es generalizing a with
  | nil => exact ⟨a, rfl⟩
  | cons e es ih =>
      obtain ⟨hfirst, hrest⟩ := List.ne_and_not_mem_of_not_mem_cons hno
      obtain ⟨a', hstep, hnext⟩ : ∃ a', a.step maxcount e = some a' ∧ a'.Sound := h.step (Ne.symm hfirst)
      rw [runs_cons hstep]
      exact ih hnext hrest

end Turning.Sound

/-- どの順に割り込んでも、読む側は、起きるときに新しく終えた一周があり、読むときに最後に終えた一周だけを受け取る。知らせのない起床が
なければ、表明は破れない。 -/
theorem scanDataHolder_runs {maxcount : ℕ} (hmax : 0 < maxcount) (es : List Event) :
    (runs Exchange.step (.create maxcount) es).map Exchange.replies =
        (runs (Turning.step maxcount) .create es).map Turning.replies ∧
      (.waiting true ∉ es → ∃ s, runs Exchange.step (.create maxcount) es = some s) := by
  have heq := (matches_create maxcount).runs hmax es
  refine ⟨heq, fun hno => ?_⟩
  have hsound : Turning.create.Sound := ⟨Nat.le_refl 0, fun hfalse => by cases hfalse⟩
  obtain ⟨a, ha⟩ : ∃ a, runs (Turning.step maxcount) .create es = some a := hsound.runs hno
  rw [ha] at heq
  cases hrun : runs Exchange.step (.create maxcount) es with
  | none =>
      rw [hrun] at heq
      cases heq
  | some s => exact ⟨s, rfl⟩

-- 起きてから読むまでの間に、次の一周が終わる。
theorem scanDataHolder_runs_overtaken :
    (runs Exchange.step (.create 8192) [.pushing 1 ⟨0, 400, 60, 1⟩, .pushing 2 ⟨16384, 404, 60, 0⟩, .pushing 3 ⟨0, 408, 60, 1⟩,
        .waiting false, .pushing 4 ⟨0, 412, 60, 1⟩, .taking 8192]).map Exchange.replies =
      (runs (Turning.step 8192) .create [.pushing 1 ⟨0, 400, 60, 1⟩, .pushing 2 ⟨16384, 404, 60, 0⟩,
        .pushing 3 ⟨0, 408, 60, 1⟩, .waiting false, .pushing 4 ⟨0, 412, 60, 1⟩, .taking 8192]).map Turning.replies ∧
      (.waiting true ∉ ([.pushing 1 ⟨0, 400, 60, 1⟩, .pushing 2 ⟨16384, 404, 60, 0⟩, .pushing 3 ⟨0, 408, 60, 1⟩,
          .waiting false, .pushing 4 ⟨0, 412, 60, 1⟩, .taking 8192] : List Event) →
        ∃ s, runs Exchange.step (.create 8192) [.pushing 1 ⟨0, 400, 60, 1⟩, .pushing 2 ⟨16384, 404, 60, 0⟩,
          .pushing 3 ⟨0, 408, 60, 1⟩, .waiting false, .pushing 4 ⟨0, 412, 60, 1⟩, .taking 8192] = some s) :=
  scanDataHolder_runs (by decide) _

end Ranger.Lidar
