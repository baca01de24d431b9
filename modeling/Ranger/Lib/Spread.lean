import Mathlib.Algebra.BigOperators.Group.Finset.Basic
import Mathlib.Algebra.Order.BigOperators.Group.Finset
import Mathlib.Data.Finset.Basic
import Mathlib.Data.Set.Finite.Lemmas

/-!
# 箱に分けた待ち行列での広がり

いくつかの源から、隣へ一つずつ、源を渡しながら広がる。待つ点は源からの遠さの順の箱に入り、箱を順に、入れた順に調べる。
調べている間にも箱は延びる。点は一度だけ訪れられ、先に訪れたときの源を持つ。
-/

namespace Ranger.Lib

/-- 広がりの規則。`dist v s` が `radius` を超える点には広がらない。箱の番号 `key` の順は `dist` の順である。 -/
structure Spread (V S : Type*) where
  near : V → List V
  dist : V → S → Nat
  radius : Nat
  key : V → S → Nat
  bins : Nat
  key_lt : ∀ v s, dist v s ≤ radius → key v s < bins
  key_le_iff : ∀ v s v' s', dist v s ≤ radius → dist v' s' ≤ radius →
    (key v s ≤ key v' s' ↔ dist v s ≤ dist v' s')

/-- 待ち行列と、訪れた印と、訪れたときに書き換える値。 -/
structure Front (V S α : Type*) where
  bins : Nat → List (V × S)
  seen : V → Bool
  out : α

namespace Spread

section Defs

variable {V S α : Type*} [DecidableEq V] (r : Spread V S) (mark : V → S → α → α)

def push (f : Front V S α) (k : Nat) (c : V × S) : Front V S α :=
  { f with bins := fun j => if j = k then f.bins j ++ [c] else f.bins j }

def enqueue (s : S) (f : Front V S α) (v : V) : Front V S α :=
  if f.seen v then f else if r.radius < r.dist v s then f else push f (r.key v s) (v, s)

/-- 点を訪れて `mark` で書き換えた状態。 -/
def visit (f : Front V S α) (c : V × S) : Front V S α :=
  { f with seen := fun v => if v = c.1 then true else f.seen v, out := mark c.1 c.2 f.out }

/-- 箱の一つの要素を調べる。 -/
def take (f : Front V S α) (c : V × S) : Front V S α :=
  if f.seen c.1 then f else (r.near c.1).foldl (r.enqueue c.2) (visit mark f c)

/-- 箱 `k` を `i` 番目から調べる。 -/
def scan (k : Nat) : Nat → Nat → Front V S α → Option (Front V S α)
  | 0, i, f => if i < (f.bins k).length then none else some f
  | fuel + 1, i, f =>
      match (f.bins k)[i]? with
      | none => some f
      | some c => scan k fuel (i + 1) (r.take mark f c)

/-- 箱 0 から順に `n` 個の箱を調べる。 -/
def sweep (fuel : Nat) : Nat → Front V S α → Option (Front V S α)
  | 0, f => some f
  | n + 1, f => (sweep fuel n f).bind (r.scan mark n fuel 0)

/-- 源を箱 0 に入れた状態。 -/
def start (init : List (V × S)) (out : α) : Front V S α where
  bins := fun k => if k = 0 then init else []
  seen := fun _ => false
  out := out

end Defs

/-! ## 待ち行列への追加 -/

section Steps

variable {V S α : Type*} {r : Spread V S}

theorem push_bins (f : Front V S α) (k j : Nat) (c : V × S) :
    (push f k c).bins j = if j = k then f.bins j ++ [c] else f.bins j := rfl

theorem enqueue_seen (s : S) (f : Front V S α) (v : V) : (r.enqueue s f v).seen = f.seen := by
  unfold enqueue
  split_ifs <;> rfl

theorem enqueue_out (s : S) (f : Front V S α) (v : V) : (r.enqueue s f v).out = f.out := by
  unfold enqueue
  split_ifs <;> rfl

/-- 箱は、元の並びのまま延びるだけで、増えるのは高々一つである。 -/
theorem enqueue_bins (s : S) (f : Front V S α) (v : V) (k : Nat) :
    ∃ new, (r.enqueue s f v).bins k = f.bins k ++ new ∧ new.length ≤ 1 ∧
      ∀ c ∈ new, c = (v, s) ∧ r.key v s = k ∧ r.dist v s ≤ r.radius := by
  unfold enqueue
  split_ifs with hseen hdist
  · exact ⟨[], by simp⟩
  · exact ⟨[], by simp⟩
  · rcases eq_or_ne k (r.key v s) with rfl | hk
    · exact ⟨[(v, s)], by simp [push_bins], by simp, by simp [Nat.not_lt.mp hdist]⟩
    · exact ⟨[], by simp [push_bins, hk], by simp, by simp⟩

theorem enqueue_mem {s : S} {f : Front V S α} {v : V} (hseen : f.seen v = false) (hdist : r.dist v s ≤ r.radius) :
    (v, s) ∈ (r.enqueue s f v).bins (r.key v s) := by
  rw [enqueue, hseen, if_neg Bool.false_ne_true, if_neg (Nat.not_lt.mpr hdist), push_bins, if_pos rfl]
  simp

theorem foldl_enqueue_seen (s : S) (vs : List V) (f : Front V S α) :
    (vs.foldl (r.enqueue s) f).seen = f.seen ∧ (vs.foldl (r.enqueue s) f).out = f.out := by
  induction vs generalizing f with
  | nil => exact ⟨rfl, rfl⟩
  | cons v vs ih =>
      obtain ⟨hseen, hout⟩ := ih (r.enqueue s f v)
      exact ⟨hseen.trans (enqueue_seen s f v), hout.trans (enqueue_out s f v)⟩

theorem foldl_enqueue_bins (s : S) (vs : List V) (f : Front V S α) (k : Nat) :
    ∃ new, (vs.foldl (r.enqueue s) f).bins k = f.bins k ++ new ∧ new.length ≤ vs.length ∧
      ∀ c ∈ new, c.1 ∈ vs ∧ c.2 = s ∧ r.key c.1 c.2 = k ∧ r.dist c.1 c.2 ≤ r.radius := by
  induction vs generalizing f with
  | nil => exact ⟨[], by simp⟩
  | cons v vs ih =>
      obtain ⟨new, hnew, hlen, hmem⟩ := enqueue_bins (r := r) s f v k
      obtain ⟨new', hnew', hlen', hmem'⟩ := ih (r.enqueue s f v)
      refine ⟨new ++ new', ?_, ?_, fun c hc => ?_⟩
      · rw [List.foldl_cons, hnew', hnew, List.append_assoc]
      · rw [List.length_append, List.length_cons]
        omega
      · rcases List.mem_append.mp hc with hc | hc
        · obtain ⟨rfl, hkey, hdist⟩ := hmem c hc
          exact ⟨List.mem_cons_self, rfl, hkey, hdist⟩
        · obtain ⟨hv, hs⟩ := hmem' c hc
          exact ⟨List.mem_cons_of_mem v hv, hs⟩

theorem foldl_enqueue_mem {s : S} {vs : List V} {f : Front V S α} {v : V} (hv : v ∈ vs) (hseen : f.seen v = false)
    (hdist : r.dist v s ≤ r.radius) : (v, s) ∈ (vs.foldl (r.enqueue s) f).bins (r.key v s) := by
  induction vs generalizing f with
  | nil => simp at hv
  | cons w vs ih =>
      rw [List.foldl_cons]
      rcases List.mem_cons.mp hv with rfl | hv
      · obtain ⟨new, hnew, -, -⟩ := foldl_enqueue_bins (r := r) s vs (r.enqueue s f v) (r.key v s)
        rw [hnew]
        exact List.mem_append_left new (enqueue_mem hseen hdist)
      · exact ih hv (by rw [enqueue_seen]; exact hseen)

end Steps

/-! ## 不変条件 -/

section Invariant

variable {V S α : Type*} {r : Spread V S} {mark : V → S → α → α} {init log : List (V × S)} {out : α}
  {f : Front V S α} {k i : Nat}

/-- 訪れた順の記録 `log` から見て、訪れるべき点。源であるか、訪れた点から、より遠い隣へ渡される。 -/
def Due (r : Spread V S) (init log : List (V × S)) (c : V × S) : Prop :=
  c ∈ init ∨ ∃ q, (q, c.2) ∈ log ∧ c.1 ∈ r.near q ∧ r.dist q c.2 < r.dist c.1 c.2 ∧ r.dist c.1 c.2 ≤ r.radius

/-- 源 `init` から、隣を辿り、`radius` を超えずに届く。 -/
inductive Reached (r : Spread V S) (init : List (V × S)) : V × S → Prop
  | source {c : V × S} : c ∈ init → Reached r init c
  | next {q p : V} {s : S} : Reached r init (q, s) → p ∈ r.near q → r.dist p s ≤ r.radius → Reached r init (p, s)

theorem Reached.dist_le (hinit : ∀ c ∈ init, r.dist c.1 c.2 = 0) {c : V × S}
    (h : Reached r init c) : r.dist c.1 c.2 ≤ r.radius := by
  cases h with
  | source h => rw [hinit _ h]; exact Nat.zero_le _
  | next _ _ h => exact h

/-- 記録 `log` と状態が合っている。箱 `k` より前の箱は調べ終え、箱 `k` の `i` 番目より前の点は訪れた。 -/
structure Inv (r : Spread V S) (mark : V → S → α → α) (init : List (V × S)) (out : α) (k i : Nat)
    (log : List (V × S)) (f : Front V S α) : Prop where
  nodup : (log.map Prod.fst).Nodup
  seen : ∀ v, f.seen v = true ↔ v ∈ log.map Prod.fst
  out : f.out = log.foldl (fun o c => mark c.1 c.2 o) out
  reached : ∀ c ∈ log, Reached r init c
  bins : ∀ j, ∀ c ∈ f.bins j, r.key c.1 c.2 = j ∧ Reached r init c
  key_le : ∀ c ∈ log, r.key c.1 c.2 ≤ k
  before : ∀ j < i, ∀ c, (f.bins k)[j]? = some c → f.seen c.1 = true
  due : ∀ c, Due r init log c → f.seen c.1 = true ∨ c ∈ f.bins (r.key c.1 c.2)
  done : ∀ c, Due r init log c → r.key c.1 c.2 < k → ∃ s, (c.1, s) ∈ log ∧ r.key c.1 s ≤ r.key c.1 c.2

/-- 点 `c` を訪れて、その隣を待ち行列に加えた状態。 -/
structure Taken (r : Spread V S) (mark : V → S → α → α) (f : Front V S α) (c : V × S) (f' : Front V S α) : Prop where
  seen : ∀ v, f'.seen v = true ↔ v = c.1 ∨ f.seen v = true
  out : f'.out = mark c.1 c.2 f.out
  bins : ∀ k, ∃ new, f'.bins k = f.bins k ++ new ∧ new.length ≤ (r.near c.1).length ∧
    ∀ d ∈ new, d.1 ∈ r.near c.1 ∧ d.2 = c.2 ∧ r.key d.1 d.2 = k ∧ r.dist d.1 d.2 ≤ r.radius
  mem : ∀ v ∈ r.near c.1, f'.seen v = false → r.dist v c.2 ≤ r.radius → (v, c.2) ∈ f'.bins (r.key v c.2)

theorem Taken.mem_bins {c d : V × S} {f' : Front V S α} (h : Taken r mark f c f') {j : Nat} (hd : d ∈ f.bins j) :
    d ∈ f'.bins j := by
  obtain ⟨new, hnew, -, -⟩ := h.bins j
  rw [hnew]
  exact List.mem_append_left new hd

theorem start_inv (hkey : ∀ c ∈ init, r.key c.1 c.2 = 0) : Inv r mark init out 0 0 [] (start init out) where
  nodup := List.nodup_nil
  seen v := by simp [start]
  out := rfl
  reached c hc := by simp at hc
  bins j c hc := by
    simp only [start] at hc
    split_ifs at hc with hj
    · exact ⟨(hkey c hc).trans hj.symm, .source hc⟩
    · simp at hc
  key_le c hc := by simp at hc
  before j hj := by simp at hj
  due c hc := by
    rcases hc with hc | ⟨q, hq, -⟩
    · right
      rw [hkey c hc]
      exact hc
    · simp at hq
  done c _ hlt := by simp at hlt

theorem Inv.skip (h : Inv r mark init out k i log f) {c : V × S} (hc : (f.bins k)[i]? = some c)
    (hseen : f.seen c.1 = true) : Inv r mark init out k (i + 1) log f := by
  refine { h with before := fun j hj d hd => ?_ }
  rcases Nat.lt_succ_iff_lt_or_eq.mp hj with hj | rfl
  · exact h.before j hj d hd
  · cases hc.symm.trans hd
    exact hseen

/-- 記録の最後の点から渡される点の他は、前から訪れるべき点である。 -/
theorem Due.of_append {c d : V × S} (h : Due r init (log ++ [c]) d) :
    Due r init log d ∨ (d.2 = c.2 ∧ d.1 ∈ r.near c.1 ∧ r.dist c.1 c.2 < r.dist d.1 d.2 ∧ r.dist d.1 d.2 ≤ r.radius) := by
  rcases h with h | ⟨q, hq, hnear, hlt, hle⟩
  · exact Or.inl (Or.inl h)
  · rcases List.mem_append.mp hq with hq | hq
    · exact Or.inl (Or.inr ⟨q, hq, hnear, hlt, hle⟩)
    · cases List.mem_singleton.mp hq
      exact Or.inr ⟨rfl, hnear, hlt, hle⟩

theorem Inv.visit (h : Inv r mark init out k i log f) (hdist : ∀ c ∈ init, r.dist c.1 c.2 = 0) {c : V × S}
    {f' : Front V S α} (hc : (f.bins k)[i]? = some c) (hseen : f.seen c.1 = false) (ht : Taken r mark f c f') :
    Inv r mark init out k (i + 1) (log ++ [c]) f' := by
  obtain ⟨hkey, hreached⟩ := h.bins k c (List.mem_of_getElem? hc)
  have hmono : ∀ v, f.seen v = true → f'.seen v = true := fun v hv => (ht.seen v).mpr (Or.inr hv)
  refine ⟨?_, fun v => ?_, ?_, fun d hd => ?_, fun j d hd => ?_, fun d hd => ?_, fun j hj d hd => ?_, fun d hd => ?_,
    fun d hd hlt => ?_⟩
  · rw [List.map_append, List.nodup_append]
    refine ⟨h.nodup, by simp, fun v hv w hw => ?_⟩
    rintro rfl
    rw [List.map_singleton, List.mem_singleton] at hw
    rw [hw, ← h.seen, hseen] at hv
    cases hv
  · rw [ht.seen, h.seen, List.map_append, List.mem_append, List.map_singleton, List.mem_singleton, or_comm]
  · rw [ht.out, List.foldl_append, ← h.out]
    rfl
  · rcases List.mem_append.mp hd with hd | hd
    · exact h.reached d hd
    · rw [List.mem_singleton.mp hd]
      exact hreached
  · obtain ⟨new, hnew, -, hmem⟩ := ht.bins j
    rw [hnew] at hd
    rcases List.mem_append.mp hd with hd | hd
    · exact h.bins j d hd
    · obtain ⟨hnear, hs, hj, hle⟩ := hmem d hd
      obtain ⟨v, s⟩ := d
      obtain rfl : s = c.2 := hs
      exact ⟨hj, .next hreached hnear hle⟩
  · rcases List.mem_append.mp hd with hd | hd
    · exact h.key_le d hd
    · rw [List.mem_singleton.mp hd]
      exact hkey.le
  · obtain ⟨new, hnew, -, -⟩ := ht.bins k
    have hlen : i < (f.bins k).length := (List.getElem?_eq_some_iff.mp hc).1
    rw [hnew, List.getElem?_append_left (Nat.lt_of_lt_of_le hj hlen)] at hd
    rcases Nat.lt_succ_iff_lt_or_eq.mp hj with hj | rfl
    · exact hmono d.1 (h.before j hj d hd)
    · cases hc.symm.trans hd
      exact (ht.seen c.1).mpr (Or.inl rfl)
  · rcases hd.of_append with hold | ⟨hs, hnear, -, hle⟩
    · exact (h.due d hold).imp (hmono d.1) ht.mem_bins
    · cases hd' : f'.seen d.1 with
      | true => exact Or.inl rfl
      | false =>
          right
          obtain ⟨v, s⟩ := d
          obtain rfl : s = c.2 := hs
          exact ht.mem v hnear hd' hle
  · rcases hd.of_append with hold | ⟨-, -, hlt', hle⟩
    · obtain ⟨s, hs, hle⟩ := h.done d hold hlt
      exact ⟨s, List.mem_append_left _ hs, hle⟩
    · -- 訪れた点より遠い点は、後の箱に入る。
      have hback := (r.key_le_iff d.1 d.2 c.1 c.2 hle (hreached.dist_le hdist)).mp (hkey ▸ hlt.le)
      exact absurd hlt' (Nat.not_lt.mpr hback)

/-- 箱 `k` を終わりまで調べた。 -/
theorem Inv.next (h : Inv r mark init out k i log f) (hi : (f.bins k).length ≤ i) :
    Inv r mark init out (k + 1) 0 log f := by
  refine { h with
    key_le := fun c hc => Nat.le_succ_of_le (h.key_le c hc)
    before := fun j hj => absurd hj (Nat.not_lt_zero j)
    done := fun c hc hlt => ?_ }
  rcases Nat.lt_succ_iff_lt_or_eq.mp hlt with hlt | heq
  · exact h.done c hc hlt
  · have hseen : f.seen c.1 = true := by
      rcases h.due c hc with hseen | hmem
      · exact hseen
      · rw [heq] at hmem
        obtain ⟨j, hj⟩ := List.mem_iff_getElem?.mp hmem
        have hlen := (List.getElem?_eq_some_iff.mp hj).1
        exact h.before j (Nat.lt_of_lt_of_le hlen hi) c hj
    obtain ⟨⟨v, s⟩, hs, hv⟩ := List.mem_map.mp ((h.seen c.1).mp hseen)
    obtain rfl : v = c.1 := hv
    exact ⟨s, hs, (h.key_le _ hs).trans heq.ge⟩

end Invariant

/-! ## 実行 -/

section Sweep

variable {V S α : Type*} [DecidableEq V] {r : Spread V S} {mark : V → S → α → α} {init log : List (V × S)} {out : α}
  {f : Front V S α} {k i : Nat}

theorem take_seen {c : V × S} (hseen : f.seen c.1 = true) : r.take mark f c = f := by
  rw [take, hseen, if_pos rfl]

theorem take_taken {c : V × S} (hseen : f.seen c.1 = false) : Taken r mark f c (r.take mark f c) := by
  have htake : r.take mark f c = (r.near c.1).foldl (r.enqueue c.2) (visit mark f c) := by
    rw [take, hseen, if_neg Bool.false_ne_true]
  obtain ⟨hseen', hout⟩ := foldl_enqueue_seen (r := r) c.2 (r.near c.1) (visit mark f c)
  rw [htake]
  refine ⟨fun v => ?_, hout, foldl_enqueue_bins c.2 (r.near c.1) (visit mark f c), fun v hv hv' hle => ?_⟩
  · rw [hseen']
    by_cases h : v = c.1 <;> simp [visit, h]
  · rw [hseen'] at hv'
    exact foldl_enqueue_mem hv hv' hle

theorem scan_inv (hdist : ∀ c ∈ init, r.dist c.1 c.2 = 0) {fuel : Nat} {f' : Front V S α}
    (h : Inv r mark init out k i log f) (hscan : r.scan mark k fuel i f = some f') :
    ∃ log', Inv r mark init out (k + 1) 0 log' f' := by
  induction fuel generalizing i log f with
  | zero =>
      unfold scan at hscan
      split_ifs at hscan with hi
      cases hscan
      exact ⟨log, h.next (Nat.not_lt.mp hi)⟩
  | succ fuel ih =>
      unfold scan at hscan
      split at hscan
      · rename_i hnone
        cases hscan
        exact ⟨log, h.next (List.getElem?_eq_none_iff.mp hnone)⟩
      · rename_i c hc
        cases hseen : f.seen c.1 with
        | true =>
            rw [take_seen hseen] at hscan
            exact ih (h.skip hc hseen) hscan
        | false => exact ih (h.visit hdist hc hseen (take_taken hseen)) hscan

theorem sweep_inv (hdist : ∀ c ∈ init, r.dist c.1 c.2 = 0) {fuel n : Nat} {f' : Front V S α}
    (h : Inv r mark init out 0 0 log f) (hsweep : r.sweep mark fuel n f = some f') :
    ∃ log', Inv r mark init out n 0 log' f' := by
  induction n generalizing f' with
  | zero =>
      cases hsweep
      exact ⟨log, h⟩
  | succ n ih =>
      obtain ⟨g, hg, hscan⟩ := Option.bind_eq_some_iff.mp hsweep
      obtain ⟨log', hinv⟩ := ih hg
      exact scan_inv hdist hinv hscan

/-! ## 停止 -/

/-- まだ訪れていない点の、隣の数の和。 -/
def unseen (r : Spread V S) (cells : Finset V) (f : Front V S α) : Nat :=
  ∑ v ∈ cells with f.seen v = false, (r.near v).length

theorem Taken.unseen_add {cells : Finset V} {c : V × S} {f' : Front V S α} (ht : Taken r mark f c f')
    (hc : c.1 ∈ cells) (hseen : f.seen c.1 = false) :
    (r.near c.1).length + unseen r cells f' = unseen r cells f := by
  have herase : cells.filter (fun v => f'.seen v = false) = (cells.filter fun v => f.seen v = false).erase c.1 := by
    ext v
    have hv := ht.seen v
    rw [Finset.mem_filter, Finset.mem_erase, Finset.mem_filter]
    cases h' : f'.seen v with
    | true =>
        rw [h'] at hv
        rcases hv.mp rfl with rfl | hv
        · simp
        · simp [hv]
    | false =>
        rw [h'] at hv
        have hnot : ¬ (v = c.1 ∨ f.seen v = true) := fun h => Bool.false_ne_true (hv.mpr h)
        rw [not_or, Bool.not_eq_true] at hnot
        simp [hnot]
  rw [unseen, unseen, herase]
  exact Finset.add_sum_erase _ (fun v => (r.near v).length) (Finset.mem_filter.mpr ⟨hc, hseen⟩)

/-- どの箱も、まだ訪れていない点から延びても、`bound` を超えない。 -/
def Fits (r : Spread V S) (cells : Finset V) (bound : Nat) (f : Front V S α) : Prop :=
  ∀ k, (f.bins k).length + unseen r cells f ≤ bound

theorem Taken.length_le {cells : Finset V} {c : V × S} {f' : Front V S α} (ht : Taken r mark f c f')
    (hc : c.1 ∈ cells) (hseen : f.seen c.1 = false) (k : Nat) :
    (f'.bins k).length + unseen r cells f' ≤ (f.bins k).length + unseen r cells f := by
  obtain ⟨new, hnew, hlen, -⟩ := ht.bins k
  have hsum := ht.unseen_add hc hseen
  rw [hnew, List.length_append]
  omega

theorem scan_total {cells : Finset V} {bound fuel : Nat} (hdist : ∀ c ∈ init, r.dist c.1 c.2 = 0)
    (hcells : ∀ c, Reached r init c → c.1 ∈ cells) (h : Inv r mark init out k i log f) (hfits : Fits r cells bound f)
    (hfuel : (f.bins k).length + unseen r cells f ≤ fuel + i) :
    ∃ f', r.scan mark k fuel i f = some f' ∧ Fits r cells bound f' := by
  induction fuel generalizing i log f with
  | zero =>
      refine ⟨f, ?_, hfits⟩
      rw [scan, if_neg (by omega)]
  | succ fuel ih =>
      rw [scan]
      split
      · exact ⟨f, rfl, hfits⟩
      · rename_i c hc
        cases hseen : f.seen c.1 with
        | true =>
            rw [take_seen hseen]
            exact ih (h.skip hc hseen) hfits (by omega)
        | false =>
            have ht : Taken r mark f c (r.take mark f c) := take_taken hseen
            have hmem := hcells c (h.bins k c (List.mem_of_getElem? hc)).2
            have hle := ht.length_le hmem hseen
            exact ih (h.visit hdist hc hseen ht) (fun j => (hle j).trans (hfits j)) ((hle k).trans (by omega))

theorem sweep_total {cells : Finset V} {fuel : Nat} (hdist : ∀ c ∈ init, r.dist c.1 c.2 = 0)
    (hcells : ∀ c, Reached r init c → c.1 ∈ cells) (h : Inv r mark init out 0 0 log f) (hfits : Fits r cells fuel f)
    (n : Nat) : ∃ f', r.sweep mark fuel n f = some f' ∧ Fits r cells fuel f' := by
  induction n with
  | zero => exact ⟨f, rfl, hfits⟩
  | succ n ih =>
      obtain ⟨g, hg, hfits'⟩ := ih
      obtain ⟨log', hinv⟩ := sweep_inv hdist h hg
      obtain ⟨f', hf', hfits''⟩ := scan_total hdist hcells hinv hfits' (hfits' n)
      exact ⟨f', by rw [sweep, hg]; exact hf', hfits''⟩

omit [DecidableEq V] in
theorem start_fits (cells : Finset V) :
    Fits r cells (init.length + ∑ v ∈ cells, (r.near v).length) (start init out : Front V S α) := by
  intro k
  have hunseen : unseen r cells (start init out) = ∑ v ∈ cells, (r.near v).length := by simp [unseen, start]
  rw [hunseen]
  simp only [start]
  split_ifs <;> simp

/-- 広がりは終わり、どの点も高々一度、源から届く道で訪れられる。訪れた点から遠い隣へ渡した源より、遠い源で訪れられる点はない。 -/
theorem sweep_spec (mark : V → S → α → α) (out : α) {cells : Finset V}
    (hinit : ∀ c ∈ init, r.dist c.1 c.2 = 0 ∧ r.key c.1 c.2 = 0)
    (hcells : ∀ c, Reached r init c → c.1 ∈ cells) {fuel : Nat}
    (hfuel : init.length + ∑ v ∈ cells, (r.near v).length ≤ fuel) :
    ∃ log f, r.sweep mark fuel r.bins (start init out) = some f ∧ (log.map Prod.fst).Nodup ∧
      f.out = log.foldl (fun o c => mark c.1 c.2 o) out ∧ (∀ c ∈ log, Reached r init c) ∧
      ∀ c, Due r init log c → ∃ s, (c.1, s) ∈ log ∧ r.dist c.1 s ≤ r.dist c.1 c.2 := by
  have hdist : ∀ c ∈ init, r.dist c.1 c.2 = 0 := fun c hc => (hinit c hc).1
  have hstart : Inv r mark init out 0 0 [] (start init out) := start_inv fun c hc => (hinit c hc).2
  obtain ⟨f, hf, -⟩ := sweep_total hdist hcells hstart (fun k => (start_fits cells k).trans hfuel) r.bins
  obtain ⟨log, hinv⟩ := sweep_inv hdist hstart hf
  refine ⟨log, f, hf, hinv.nodup, hinv.out, hinv.reached, fun c hc => ?_⟩
  have hle : r.dist c.1 c.2 ≤ r.radius := by
    rcases hc with hc | ⟨q, -, -, -, hle⟩
    · exact (hdist c hc).le.trans (Nat.zero_le _)
    · exact hle
  obtain ⟨s, hs, hkey⟩ := hinv.done c hc (r.key_lt c.1 c.2 hle)
  exact ⟨s, hs, (r.key_le_iff c.1 s c.1 c.2 ((hinv.reached _ hs).dist_le hdist) hle).mp hkey⟩

end Sweep

/-! ## 最も近い源 -/

section Nearest

variable {V S : Type*} {r : Spread V S} {init log : List (V × S)}

def Nearest (r : Spread V S) (init : List (V × S)) (v : V) (s : S) : Prop :=
  s ∈ init.map Prod.snd ∧ ∀ s' ∈ init.map Prod.snd, r.dist v s ≤ r.dist v s'

/-- 最も近い源が、どれも手前の点から渡されて届く点。 -/
inductive Handed (r : Spread V S) (init : List (V × S)) : V → Prop
  | source {c : V × S} : c ∈ init → Handed r init c.1
  | next {q p : V} : Handed r init q → p ∈ r.near q →
      (∀ s, Nearest r init q s → Nearest r init p s ∧ r.dist q s < r.dist p s ∧ r.dist p s ≤ r.radius) →
      Handed r init p

theorem Reached.mem_sources {c : V × S} (h : Reached r init c) : c.2 ∈ init.map Prod.snd := by
  induction h with
  | source h => exact List.mem_map_of_mem h
  | next _ _ _ ih => exact ih

/-- 最も近い源が手前から渡される点は、最も近い源で訪れられる。 -/
theorem Handed.visited {v : V} (h : Handed r init v) (hdist : ∀ c ∈ init, r.dist c.1 c.2 = 0)
    (hreached : ∀ c ∈ log, Reached r init c)
    (hdue : ∀ c, Due r init log c → ∃ s, (c.1, s) ∈ log ∧ r.dist c.1 s ≤ r.dist c.1 c.2) :
    ∃ s, (v, s) ∈ log ∧ Nearest r init v s := by
  induction h with
  | @source c hc =>
      obtain ⟨s, hs, hle⟩ := hdue c (Or.inl hc)
      rw [hdist c hc] at hle
      exact ⟨s, hs, (hreached _ hs).mem_sources, fun s' _ => hle.trans (Nat.zero_le _)⟩
  | @next q p _ hnear hstep ih =>
      obtain ⟨s, hs, hnearest⟩ := ih
      obtain ⟨hp, hlt, hle⟩ := hstep s hnearest
      obtain ⟨s', hs', hle'⟩ := hdue (p, s) (Or.inr ⟨q, hs, hnear, hlt, hle⟩)
      exact ⟨s', hs', (hreached _ hs').mem_sources, fun s'' h'' => hle'.trans (hp.2 s'' h'')⟩

theorem exists_nearest (r : Spread V S) {init : List (V × S)} {s : S} (hs : s ∈ init.map Prod.snd) (v : V) :
    ∃ s', Nearest r init v s' := by
  obtain ⟨s', hs', hmin⟩ := Set.exists_min_image {s | s ∈ init.map Prod.snd} (r.dist v) (List.finite_toSet _) ⟨s, hs⟩
  exact ⟨s', hs', hmin⟩

/-- 源を減らしても、最も近い源が残る点には、残った源だけで届く。 -/
theorem Handed.of_subset {init' : List (V × S)} {v : V} (h : Handed r init v)
    (hdist : ∀ c ∈ init, r.dist c.1 c.2 = 0) (hsub : ∀ c ∈ init', c ∈ init)
    (hkeep : ∀ c ∈ init, Nearest r init v c.2 → c ∈ init') : Handed r init' v := by
  induction h with
  | @source c hc =>
      apply Handed.source
      exact hkeep c hc ⟨List.mem_map_of_mem hc, fun s' _ => (hdist c hc).le.trans (Nat.zero_le _)⟩
  | @next q p _ hnear hstep ih =>
      have hkeep' : ∀ c ∈ init, Nearest r init q c.2 → c ∈ init' := fun c hc hq => hkeep c hc (hstep c.2 hq).1
      refine Handed.next (ih hkeep') hnear fun s hs => ?_
      have hmem : s ∈ init.map Prod.snd := by
        obtain ⟨c, hc, rfl⟩ := List.mem_map.mp hs.1
        exact List.mem_map_of_mem (hsub c hc)
      -- 残った源のうちで最も近いものは、元の源のうちでも最も近い。
      obtain ⟨s', hs'⟩ := exists_nearest r hmem q
      obtain ⟨c, hc, rfl⟩ := List.mem_map.mp hs'.1
      have hle := hs.2 c.2 (List.mem_map_of_mem (hkeep' c hc hs'))
      obtain ⟨hp, hlt⟩ := hstep s ⟨hmem, fun s'' h'' => hle.trans (hs'.2 s'' h'')⟩
      refine ⟨⟨hs.1, fun s'' h'' => ?_⟩, hlt⟩
      obtain ⟨d, hd, rfl⟩ := List.mem_map.mp h''
      exact hp.2 d.2 (List.mem_map_of_mem (hsub d hd))

end Nearest

/-! ## 点ごとの書き換え -/

section Mark

variable {V S β : Type*} [DecidableEq V]

/-- 点 `v` の値だけを書き換える。 -/
def markAt (change : V → S → β → β) (v : V) (s : S) (out : V → β) : V → β :=
  fun u => if u = v then change v s (out v) else out u

theorem foldl_markAt_of_not_mem (change : V → S → β → β) {log : List (V × S)} {v : V} (out : V → β)
    (hv : v ∉ log.map Prod.fst) : log.foldl (fun o c => markAt change c.1 c.2 o) out v = out v := by
  induction log generalizing out with
  | nil => rfl
  | cons c log ih =>
      rw [List.map_cons, List.mem_cons, not_or] at hv
      rw [List.foldl_cons, ih _ hv.2, markAt, if_neg hv.1]

/-- 一度だけ訪れる点の値は、元の値をその源で書き換えた値である。 -/
theorem foldl_markAt (change : V → S → β → β) {log : List (V × S)} {v : V} {s : S} (out : V → β)
    (hnodup : (log.map Prod.fst).Nodup) (hv : (v, s) ∈ log) :
    log.foldl (fun o c => markAt change c.1 c.2 o) out v = change v s (out v) := by
  induction log generalizing out with
  | nil => simp at hv
  | cons c log ih =>
      rw [List.map_cons, List.nodup_cons] at hnodup
      rw [List.foldl_cons]
      rcases List.mem_cons.mp hv with rfl | hv
      · rw [foldl_markAt_of_not_mem change _ hnodup.1, markAt, if_pos rfl]
      · have hne : v ≠ c.1 := by
          rintro rfl
          exact hnodup.1 (List.mem_map.mpr ⟨(c.1, s), hv, rfl⟩)
        rw [ih _ hnodup.2 hv, markAt, if_neg hne]

end Mark

end Spread

end Ranger.Lib
