import Mathlib.Data.Nat.Bitwise
import Ranger.Lib.Queue
import Ranger.Lib.Run

/-!
# 環状バッファ

`ring_buffer.hpp` の `RingBuffer<T, N>`。添字は `size_t` のまま進み、読み書きのときだけ `size_mask_` を掛ける。呼び出しの
どの列でも、容量 `N` の待ち行列と同じ値を返すことを示す。
-/

namespace Ranger.Serial
open Ranger.Lib

/-! ## メンバ -/

/-- 大きさ `N`。`static_assert` の条件と、先頭のコメントの上限。 -/
structure BufferSize where
  n : ℕ
  pow : ∃ k, n = 2 ^ k
  le : n ≤ 2 ^ 63

variable {T : Type} {S : BufferSize}

def BufferSize.size (S : BufferSize) : UInt64 := UInt64.ofNat S.n

def BufferSize.sizeMask (S : BufferSize) : UInt64 := S.size - 1

theorem BufferSize.pos (S : BufferSize) : 0 < S.n := by
  obtain ⟨k, hk⟩ := S.pow
  rw [hk]
  exact Nat.two_pow_pos k

theorem BufferSize.dvd (S : BufferSize) : S.n ∣ 2 ^ 64 := by
  obtain ⟨k, hk⟩ := S.pow
  have hle := S.le
  rw [hk] at hle ⊢
  exact Nat.pow_dvd_pow 2 (((Nat.pow_le_pow_iff_right (by omega)).mp hle).trans (by omega))

@[simp] theorem BufferSize.toNat_size (S : BufferSize) : S.size.toNat = S.n := by
  have := S.le
  exact UInt64.toNat_ofNat_of_lt' (by simp only [UInt64.size]; omega)

@[simp] theorem BufferSize.toNat_sizeMask (S : BufferSize) : S.sizeMask.toNat = S.n - 1 := by
  have hle : (1 : UInt64) ≤ S.size := by
    rw [UInt64.le_iff_toNat_le, S.toNat_size]
    exact S.pos
  rw [sizeMask, UInt64.toNat_sub_of_le _ _ hle, S.toNat_size]
  rfl

/-- 添字の指す場所 `index & size_mask_`。 -/
def BufferSize.slot (S : BufferSize) (index : UInt64) : Fin S.n where
  val := (index &&& S.sizeMask).toNat
  isLt := by
    rw [UInt64.toNat_and, S.toNat_sizeMask]
    exact Nat.lt_of_le_of_lt Nat.and_le_right (Nat.sub_lt S.pos Nat.one_pos)

structure RingBuffer (T : Type) (S : BufferSize) where
  buffer : Fin S.n → T
  writeIndex : UInt64
  readIndex : UInt64

namespace RingBuffer

/-- 構築子。`buffer_` は初期化されず、もとの記憶の値のままである。 -/
def new (buffer : Fin S.n → T) : RingBuffer T S := ⟨buffer, 0, 0⟩

def reset (rb : RingBuffer T S) : RingBuffer T S := { rb with writeIndex := 0, readIndex := 0 }

def isEmpty (rb : RingBuffer T S) : Bool := rb.readIndex == rb.writeIndex

def getOccupiedSize (rb : RingBuffer T S) : UInt64 := rb.writeIndex - rb.readIndex

def isFull (rb : RingBuffer T S) : Bool := S.size == rb.getOccupiedSize

def getFreeSize (rb : RingBuffer T S) : UInt64 := S.size - rb.getOccupiedSize

/-! ## 読み書き

一要素の関数は、返り値が 0 のとき `none`、1 のとき `*data` の値と次の状態を返す。 -/

def readByte (rb : RingBuffer T S) : Option (T × RingBuffer T S) :=
  if rb.isEmpty then none
  else some (rb.buffer (S.slot rb.readIndex), { rb with readIndex := rb.readIndex + 1 })

def peekByteAt (rb : RingBuffer T S) (n : UInt64) : Option T :=
  if n ≥ rb.getOccupiedSize then none else some (rb.buffer (S.slot (rb.readIndex + n)))

def writeByte (rb : RingBuffer T S) (newData : T) : Option (RingBuffer T S) :=
  if rb.getOccupiedSize == S.size then none
  else some { rb with
    buffer := Function.update rb.buffer (S.slot rb.writeIndex) newData
    writeIndex := rb.writeIndex + 1 }

/-- `Read` の繰り返し。残りは `rest` 回で、`data[i]` から書く。 -/
def readLoop : ℕ → ℕ → List T → RingBuffer T S → ℕ × List T × RingBuffer T S
  | 0, i, data, rb => (i, data, rb)
  | rest + 1, i, data, rb =>
      match rb.readByte with
      | none => (i, data, rb)
      | some (x, rb') => readLoop rest (i + 1) (data.set i x) rb'

def peekLoop (rb : RingBuffer T S) : ℕ → ℕ → List T → ℕ × List T
  | 0, i, data => (i, data)
  | rest + 1, i, data =>
      match rb.peekByteAt (UInt64.ofNat i) with
      | none => (i, data)
      | some x => peekLoop rb rest (i + 1) (data.set i x)

/-- `Write` の繰り返し。`new_data[i]` からの残りの要素を書く。 -/
def writeLoop : List T → ℕ → RingBuffer T S → ℕ × RingBuffer T S
  | [], i, rb => (i, rb)
  | x :: rest, i, rb =>
      match rb.writeByte x with
      | none => (i, rb)
      | some rb' => writeLoop rest (i + 1) rb'

def read (rb : RingBuffer T S) (data : List T) (btr : ℕ) : ℕ × List T × RingBuffer T S :=
  readLoop btr 0 data rb

def peek (rb : RingBuffer T S) (data : List T) (btp : ℕ) : ℕ × List T := peekLoop rb btp 0 data

def write (rb : RingBuffer T S) (newData : List T) (btw : ℕ) : ℕ × RingBuffer T S :=
  writeLoop (newData.take btw) 0 rb

/-! ## 一要素の操作と中身 -/

theorem wraps_slot (S : BufferSize) : Wraps (fun i => S.slot (UInt64.ofNat i)) S.n := by
  intro i j
  obtain ⟨k, hk⟩ := S.pow
  have hslot : ∀ m, (S.slot (UInt64.ofNat m)).val = m % S.n := by
    intro m
    simp only [BufferSize.slot, UInt64.toNat_and, S.toNat_sizeMask, UInt64.toNat_ofNat']
    rw [hk, Nat.and_two_pow_sub_one_eq_mod, ← hk]
    exact Nat.mod_mod_of_dvd m S.dvd
  rw [Fin.ext_iff, hslot, hslot]
  rfl

/-- 読まれていない要素の並び。 -/
def contents (rb : RingBuffer T S) : List T :=
  window (fun i => S.slot (UInt64.ofNat i)) rb.buffer rb.readIndex.toNat rb.getOccupiedSize.toNat

theorem length_contents (rb : RingBuffer T S) : rb.contents.length = rb.getOccupiedSize.toNat := by
  simp [contents]

@[simp] theorem contents_new (buffer : Fin S.n → T) : (new buffer : RingBuffer T S).contents = [] := by
  simp [contents, new, getOccupiedSize]

theorem toNat_getOccupiedSize (rb : RingBuffer T S) :
    rb.getOccupiedSize.toNat = (2 ^ 64 - rb.readIndex.toNat + rb.writeIndex.toNat) % 2 ^ 64 :=
  UInt64.toNat_sub _ _

/-- 書く位置は、中身の次の番号である。 -/
theorem slot_writeIndex (rb : RingBuffer T S) :
    S.slot rb.writeIndex = S.slot (UInt64.ofNat (rb.readIndex.toNat + rb.contents.length)) := by
  congr 1
  apply UInt64.toNat_inj.mp
  have hr := rb.readIndex.toNat_lt
  have hw := rb.writeIndex.toNat_lt
  rw [UInt64.toNat_ofNat', length_contents, toNat_getOccupiedSize]
  omega

theorem isEmpty_iff (rb : RingBuffer T S) : rb.isEmpty = true ↔ rb.contents = [] := by
  have hr := rb.readIndex.toNat_lt
  have hw := rb.writeIndex.toNat_lt
  rw [← List.length_eq_zero_iff, length_contents, toNat_getOccupiedSize, isEmpty, beq_iff_eq, ← UInt64.toNat_inj]
  omega

theorem isFull_iff (rb : RingBuffer T S) : rb.isFull = true ↔ rb.contents.length = S.n := by
  rw [isFull, beq_iff_eq, ← UInt64.toNat_inj, S.toNat_size, length_contents, eq_comm]

theorem toNat_getFreeSize {rb : RingBuffer T S} (h : rb.contents.length ≤ S.n) :
    rb.getFreeSize.toNat = S.n - rb.contents.length := by
  have hle : rb.getOccupiedSize ≤ S.size := by
    rw [UInt64.le_iff_toNat_le, S.toNat_size, ← rb.length_contents]
    exact h
  rw [getFreeSize, UInt64.toNat_sub_of_le _ _ hle, S.toNat_size, length_contents]

theorem readByte_of_nil {rb : RingBuffer T S} (h : rb.contents = []) : rb.readByte = none := by
  simp [readByte, rb.isEmpty_iff.mpr h]

/-- `ReadByte` は、中身の先頭を取り出す。 -/
theorem readByte_of_cons {rb : RingBuffer T S} {x : T} {xs : List T} (h : rb.contents = x :: xs) :
    ∃ rb', rb.readByte = some (x, rb') ∧ rb'.contents = xs := by
  have hne : ¬ rb.isEmpty = true := by
    rw [rb.isEmpty_iff, h]
    exact List.cons_ne_nil x xs
  have hlen : rb.getOccupiedSize.toNat = xs.length + 1 := by
    rw [← length_contents, h, List.length_cons]
  have hr := rb.readIndex.toNat_lt
  have hw := rb.writeIndex.toNat_lt
  have hnext : (rb.readIndex + 1).toNat = (rb.readIndex.toNat + 1) % 2 ^ 64 := UInt64.toNat_add _ _
  have hsize : ({ rb with readIndex := rb.readIndex + 1 } : RingBuffer T S).getOccupiedSize.toNat =
      xs.length := by
    rw [toNat_getOccupiedSize] at hlen
    rw [toNat_getOccupiedSize, hnext]
    dsimp only
    omega
  have hcons := h
  rw [contents, hlen, window_succ, List.cons.injEq, UInt64.ofNat_toNat] at hcons
  refine ⟨{ rb with readIndex := rb.readIndex + 1 }, ?_, ?_⟩
  · rw [readByte, if_neg hne, hcons.1]
  · rw [contents, hsize]
    refine Eq.trans ?_ hcons.2
    apply window_congr (wraps_slot S)
    rw [hnext]
    exact Nat.mod_mod_of_dvd _ S.dvd

/-- `PeekByteAt` は、中身の `n` 番目を返す。 -/
theorem peekByteAt_eq (rb : RingBuffer T S) {n : ℕ} (hn : n < 2 ^ 64) :
    rb.peekByteAt (UInt64.ofNat n) = rb.contents[n]? := by
  have htoNat : (UInt64.ofNat n).toNat = n := UInt64.toNat_ofNat_of_lt' hn
  unfold peekByteAt
  by_cases hge : UInt64.ofNat n ≥ rb.getOccupiedSize
  · rw [if_pos hge]
    rw [ge_iff_le, UInt64.le_iff_toNat_le, htoNat, ← length_contents] at hge
    exact (List.getElem?_eq_none hge).symm
  · rw [if_neg hge]
    rw [ge_iff_le, UInt64.le_iff_toNat_le, htoNat, not_le] at hge
    rw [contents, getElem?_window _ _ hge]
    simp only [UInt64.ofNat_add, UInt64.ofNat_toNat]

theorem writeByte_of_full {rb : RingBuffer T S} (h : rb.contents.length = S.n) (x : T) :
    rb.writeByte x = none := by
  have hfull : rb.getOccupiedSize = S.size := by
    apply UInt64.toNat_inj.mp
    rw [S.toNat_size, ← h, length_contents]
  simp [writeByte, hfull]

/-- `WriteByte` は、中身の末尾に加える。 -/
theorem writeByte_of_lt {rb : RingBuffer T S} (h : rb.contents.length < S.n) (x : T) :
    ∃ rb', rb.writeByte x = some rb' ∧ rb'.contents = rb.contents ++ [x] := by
  have hne : ¬ (rb.getOccupiedSize == S.size) = true := by
    rw [beq_iff_eq, ← UInt64.toNat_inj, S.toNat_size, ← length_contents]
    omega
  have hr := rb.readIndex.toNat_lt
  have hw := rb.writeIndex.toNat_lt
  have hle := S.le
  have hnext : (rb.writeIndex + 1).toNat = (rb.writeIndex.toNat + 1) % 2 ^ 64 := UInt64.toNat_add _ _
  refine ⟨_, if_neg hne, ?_⟩
  have hsize : ∀ mem : Fin S.n → T,
      (⟨mem, rb.writeIndex + 1, rb.readIndex⟩ : RingBuffer T S).getOccupiedSize.toNat =
        rb.contents.length + 1 := by
    intro mem
    rw [length_contents, toNat_getOccupiedSize] at h
    rw [length_contents, toNat_getOccupiedSize, toNat_getOccupiedSize, hnext]
    dsimp only
    omega
  rw [contents, hsize, slot_writeIndex, window_push (wraps_slot S) _ _ h, contents]
  simp

/-! ## 繰り返しと中身 -/

theorem readLoop_spec (rest i : ℕ) (data : List T) (rb : RingBuffer T S) (hdata : i + rest ≤ data.length) :
    (readLoop rest i data rb).1 = i + min rest rb.contents.length ∧
    (readLoop rest i data rb).2.1 =
      data.take i ++ rb.contents.take rest ++ data.drop (i + min rest rb.contents.length) ∧
    (readLoop rest i data rb).2.2.contents = rb.contents.drop rest := by
  induction rest generalizing i data rb with
  | zero => simp [readLoop]
  | succ rest ih =>
      cases hq : rb.contents with
      | nil => simp [readLoop, readByte_of_nil hq, hq]
      | cons x xs =>
          obtain ⟨rb', hread, hxs⟩ := readByte_of_cons hq
          obtain ⟨hcount, hdata', hrest⟩ := ih (i + 1) (data.set i x) rb' (by simp; omega)
          simp only [readLoop, hread, hcount, hdata', hrest, hxs]
          refine ⟨by simp only [List.length_cons]; omega, ?_, rfl⟩
          have hi : i < data.length := by omega
          rw [List.take_succ_cons, List.length_cons, show i + min (rest + 1) (xs.length + 1) =
            i + 1 + min rest xs.length by omega, List.drop_set_of_lt (by omega), List.take_add_one,
            List.take_set_of_le (le_refl i)]
          simp [hi]

theorem peekLoop_spec (rb : RingBuffer T S) (rest i : ℕ) (data : List T) (hdata : i + rest ≤ data.length)
    (hsmall : i + rest < 2 ^ 31) :
    peekLoop rb rest i data = (i + min rest (rb.contents.drop i).length,
      data.take i ++ (rb.contents.drop i).take rest ++
        data.drop (i + min rest (rb.contents.drop i).length)) := by
  induction rest generalizing i data with
  | zero => simp [peekLoop]
  | succ rest ih =>
      rw [peekLoop, peekByteAt_eq rb (by omega)]
      cases hq : rb.contents.drop i with
      | nil =>
          rw [List.getElem?_eq_none (List.drop_eq_nil_iff.mp hq)]
          simp
      | cons x xs =>
          have hx : rb.contents[i]? = some x := by rw [← List.head?_drop, hq, List.head?_cons]
          have hxs : rb.contents.drop (i + 1) = xs := by rw [← List.tail_drop, hq, List.tail_cons]
          have hi : i < data.length := by omega
          simp only [hx]
          rw [ih (i + 1) (data.set i x) (by simp; omega) (by omega), hxs, List.take_succ_cons,
            List.length_cons, show i + min (rest + 1) (xs.length + 1) = i + 1 + min rest xs.length by omega,
            List.drop_set_of_lt (by omega), List.take_add_one, List.take_set_of_le (le_refl i)]
          simp [hi]

theorem writeLoop_spec (xs : List T) (i : ℕ) (rb : RingBuffer T S) (h : rb.contents.length ≤ S.n) :
    (writeLoop xs i rb).1 = i + min xs.length (S.n - rb.contents.length) ∧
    (writeLoop xs i rb).2.contents = rb.contents ++ xs.take (S.n - rb.contents.length) := by
  induction xs generalizing i rb with
  | nil => simp [writeLoop]
  | cons x xs ih =>
      rcases Nat.lt_or_eq_of_le h with hlt | hfull
      · obtain ⟨rb', hwrite, hcontents⟩ := writeByte_of_lt hlt x
        have hlen : rb'.contents.length = rb.contents.length + 1 := by simp [hcontents]
        obtain ⟨hcount, hrest⟩ := ih (i + 1) rb' (by omega)
        simp only [writeLoop, hwrite, hcount, hrest, hlen]
        refine ⟨by simp only [List.length_cons]; omega, ?_⟩
        rw [hcontents, show S.n - rb.contents.length = S.n - (rb.contents.length + 1) + 1 by omega,
          List.take_succ_cons, List.append_assoc, List.singleton_append]
      · simp [writeLoop, writeByte_of_full hfull x, hfull]

end RingBuffer

/-! ## 呼び出しの列 -/

/-- 要素の個数を指定する呼び出しの引数。配列は指定の個数を持ち、`int` の添字は溢れない。 -/
structure Request (T : Type) where
  data : List T
  len : ℕ
  fits : len ≤ data.length
  small : len < 2 ^ 31

inductive Call (T : Type) where
  | write (req : Request T)
  | read (req : Request T)
  | peek (req : Request T)
  | reset
  | getOccupiedSize
  | getFreeSize
  | isEmpty
  | isFull

/-- 呼び出しの結果。`transferred` は、返り値と、呼び出しの後の配列。 -/
inductive Reply (T : Type) where
  | done
  | transferred (count : ℕ) (data : List T)
  | size (n : ℕ)
  | flag (b : Bool)

def RingBuffer.call (rb : RingBuffer T S) : Call T → RingBuffer T S × Reply T
  | .write req =>
      let (count, rb') := rb.write req.data req.len
      (rb', .transferred count req.data)
  | .read req =>
      let (count, data, rb') := rb.read req.data req.len
      (rb', .transferred count data)
  | .peek req =>
      let (count, data) := rb.peek req.data req.len
      (rb, .transferred count data)
  | .reset => (rb.reset, .done)
  | .getOccupiedSize => (rb, .size rb.getOccupiedSize.toNat)
  | .getFreeSize => (rb, .size rb.getFreeSize.toNat)
  | .isEmpty => (rb, .flag rb.isEmpty)
  | .isFull => (rb, .flag rb.isFull)

/-- 待ち行列としての意味。 -/
def queueCall (q : BoundedQueue T S.n) : Call T → BoundedQueue T S.n × Reply T
  | .write req => (q.append (req.data.take req.len), .transferred (min req.len q.room) req.data)
  | .read req =>
      (q.drop req.len, .transferred (min req.len q.items.length)
        (q.items.take req.len ++ req.data.drop (min req.len q.items.length)))
  | .peek req =>
      (q, .transferred (min req.len q.items.length)
        (q.items.take req.len ++ req.data.drop (min req.len q.items.length)))
  | .reset => (BoundedQueue.empty, .done)
  | .getOccupiedSize => (q, .size q.items.length)
  | .getFreeSize => (q, .size q.room)
  | .isEmpty => (q, .flag (q.items.length = 0))
  | .isFull => (q, .flag (q.items.length = S.n))

/-- 一つの呼び出しは、中身を待ち行列として動かし、同じ結果を返す。 -/
theorem RingBuffer.call_refines (rb : RingBuffer T S) (q : BoundedQueue T S.n) (h : rb.contents = q.items)
    (c : Call T) :
    (rb.call c).1.contents = (queueCall q c).1.items ∧ (rb.call c).2 = (queueCall q c).2 := by
  have hle : rb.contents.length ≤ S.n := h ▸ q.le
  cases c with
  | write req =>
      obtain ⟨hcount, hcontents⟩ := writeLoop_spec (req.data.take req.len) 0 rb hle
      have hlen : (req.data.take req.len).length = req.len := List.length_take_of_le req.fits
      simp only [call, queueCall, RingBuffer.write, BoundedQueue.append, BoundedQueue.room, hcount,
        hcontents, h, hlen, Nat.zero_add, and_self]
  | read req =>
      obtain ⟨hcount, hdata, hcontents⟩ := readLoop_spec req.len 0 req.data rb (by simpa using req.fits)
      simp only [call, queueCall, RingBuffer.read, BoundedQueue.drop, hcount, hdata, hcontents, h,
        Nat.zero_add, List.take_zero, List.nil_append, and_self]
  | peek req =>
      have hpeek := peekLoop_spec rb req.len 0 req.data (by simpa using req.fits) (by simpa using req.small)
      simp only [call, queueCall, RingBuffer.peek, hpeek, h, Nat.zero_add, List.take_zero,
        List.nil_append, List.drop_zero, and_self]
  | reset => exact ⟨contents_new rb.buffer, rfl⟩
  | getOccupiedSize => simp [call, queueCall, h, ← rb.length_contents]
  | getFreeSize => simp [call, queueCall, h, toNat_getFreeSize hle, BoundedQueue.room]
  | isEmpty =>
      refine ⟨h, ?_⟩
      have hiff : rb.isEmpty = true ↔ q.items.length = 0 := by
        rw [rb.isEmpty_iff, h, List.length_eq_zero_iff]
      simp only [call, queueCall, Reply.flag.injEq]
      exact Bool.eq_iff_iff.mpr (hiff.trans decide_eq_true_iff.symm)
  | isFull =>
      refine ⟨h, ?_⟩
      have hiff : rb.isFull = true ↔ q.items.length = S.n := by rw [rb.isFull_iff, h]
      simp only [call, queueCall, Reply.flag.injEq]
      exact Bool.eq_iff_iff.mpr (hiff.trans decide_eq_true_iff.symm)

/-- どの大きさ、どの呼び出しの列でも、環状バッファは、容量 `N` の待ち行列と同じ結果を返す。 -/
theorem RingBuffer.outputs_eq (S : BufferSize) (memory : Fin S.n → T) (calls : List (Call T)) :
    outputs RingBuffer.call (RingBuffer.new memory) calls =
      outputs queueCall (BoundedQueue.empty : BoundedQueue T S.n) calls := by
  apply outputs_eq_of_sim (fun rb q => rb.contents = q.items)
  · intro rb q c h
    exact rb.call_refines q h c
  · exact contents_new memory

end Ranger.Serial
