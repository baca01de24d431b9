import Mathlib.Data.List.Basic
import Mathlib.Data.Nat.ModEq

/-!
# 環状の記憶と待ち行列

番号 `0, 1, 2, …` を周期 `N` で場所に割り当てた記憶から、続いた番号の値を順に読んだ並びを定める。読む個数が `N` を
超えないあいだ、後ろの番号への書き込みは並びの末尾に加わり、前の値には触れない。
-/

namespace Ranger.Lib

variable {κ α : Type*} {slot : ℕ → κ} {N : ℕ}

/-- 番号 `r` から `n` 個の値の並び。 -/
def window (slot : ℕ → κ) (mem : κ → α) (r n : ℕ) : List α :=
  (List.range n).map fun i => mem (slot (r + i))

/-- 場所の割り当ては周期 `N` で、一周のうちでは重ならない。 -/
def Wraps (slot : ℕ → κ) (N : ℕ) : Prop := ∀ i j, slot i = slot j ↔ i ≡ j [MOD N]

@[simp] theorem length_window (mem : κ → α) (r n : ℕ) : (window slot mem r n).length = n := by
  simp [window]

@[simp] theorem window_zero (mem : κ → α) (r : ℕ) : window slot mem r 0 = [] := rfl

theorem window_succ (mem : κ → α) (r n : ℕ) :
    window slot mem r (n + 1) = mem (slot r) :: window slot mem (r + 1) n := by
  simp only [window, List.range_succ_eq_map, List.map_cons, List.map_map, Nat.add_zero]
  congr 1
  apply List.map_congr_left
  intro i _
  simp only [Function.comp_apply]
  rw [show r + (i + 1) = r + 1 + i by omega]

theorem window_concat (mem : κ → α) (r n : ℕ) :
    window slot mem r (n + 1) = window slot mem r n ++ [mem (slot (r + n))] := by
  simp [window, List.range_succ]

theorem getElem?_window (mem : κ → α) (r : ℕ) {n i : ℕ} (h : i < n) :
    (window slot mem r n)[i]? = some (mem (slot (r + i))) := by
  simp [window, h]

theorem window_congr (h : Wraps slot N) (mem : κ → α) {r r' : ℕ} (hr : r ≡ r' [MOD N]) (n : ℕ) :
    window slot mem r n = window slot mem r' n := by
  apply List.map_congr_left
  intro i _
  rw [(h (r + i) (r' + i)).mpr (hr.add_right i)]

variable [DecidableEq κ]

/-- 並びの次の番号に書くと、値が末尾に加わる。 -/
theorem window_push (h : Wraps slot N) (mem : κ → α) (r : ℕ) {n : ℕ} (hn : n < N) (x : α) :
    window slot (Function.update mem (slot (r + n)) x) r (n + 1) = window slot mem r n ++ [x] := by
  rw [window_concat, Function.update_self]
  congr 1
  apply List.map_congr_left
  intro i hi
  have hlt : i < n := List.mem_range.mp hi
  apply Function.update_of_ne
  intro heq
  have hmod : i % N = n % N := Nat.ModEq.add_left_cancel' r ((h _ _).mp heq)
  rw [Nat.mod_eq_of_lt (hlt.trans hn), Nat.mod_eq_of_lt hn] at hmod
  omega

/-! ## 容量の限られた待ち行列 -/

/-- 容量 `cap` の待ち行列。先頭が最も古い。 -/
structure BoundedQueue (α : Type*) (cap : ℕ) where
  items : List α
  le : items.length ≤ cap

namespace BoundedQueue

variable {cap : ℕ}

def empty : BoundedQueue α cap := ⟨[], Nat.zero_le _⟩

def room (q : BoundedQueue α cap) : ℕ := cap - q.items.length

/-- 入るだけの先頭部分を加える。 -/
def append (q : BoundedQueue α cap) (xs : List α) : BoundedQueue α cap where
  items := q.items ++ xs.take q.room
  le := by
    have := q.le
    simp only [List.length_append, List.length_take, room]
    omega

def drop (q : BoundedQueue α cap) (n : ℕ) : BoundedQueue α cap where
  items := q.items.drop n
  le := by
    have := q.le
    rw [List.length_drop]
    omega

end BoundedQueue

end Ranger.Lib
