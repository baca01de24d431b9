import Mathlib.Algebra.BigOperators.Group.Finset.Basic
import Mathlib.Analysis.SpecialFunctions.Log.ENNRealLogExp

/-!
# 繰り返しと、対数での累積

`for (i = 0; i < n; i += step, k++)` の形の繰り返しが訪れる添字の列、終わらないことのある `while` の繰り返し、対数の和で積を累積する
計算を定める。
-/

namespace Ranger.Lib

/-! ## 飛び飛びの繰り返し -/

/-- 添字が `i`、番号が `k` のところから先に訪れる、添字と番号の組の列。 -/
def stride (n step i k : Nat) : List (Nat × Nat) :=
  if i < n ∧ 0 < step then (i, k) :: stride n step (i + step) (k + 1) else []
termination_by n - i

theorem stride_of_lt {n step i k : Nat} (hi : i < n) (hstep : 0 < step) :
    stride n step i k = (i, k) :: stride n step (i + step) (k + 1) := by
  rw [stride, if_pos ⟨hi, hstep⟩]

theorem stride_of_le {n step i k : Nat} (hi : n ≤ i) : stride n step i k = [] := by
  rw [stride, if_neg (fun h => absurd h.1 (Nat.not_lt.mpr hi))]

/-- 番号が `k` の添字は `k * step` で、番号は `m` の手前まで進む。 -/
theorem stride_eq_map_range {n step m : Nat} (hstep : 0 < step) (hlt : ∀ k < m, k * step < n) (hle : n ≤ m * step) :
    stride n step 0 0 = (List.range m).map fun k => (k * step, k) := by
  suffices h : ∀ d k, k + d = m → stride n step (k * step) k = (List.range' k d).map fun k => (k * step, k) by
    rw [List.range_eq_range']
    simpa using h m 0 (Nat.zero_add m)
  intro d
  induction d with
  | zero =>
      intro k hk
      obtain rfl : k = m := hk
      rw [stride_of_le hle, List.range'_zero, List.map_nil]
  | succ d ih =>
      intro k hk
      have hnext := ih (k + 1) (by omega)
      rw [Nat.succ_mul] at hnext
      rw [stride_of_lt (hlt k (by omega)) hstep, List.range'_succ, List.map_cons, hnext]

/-- 値が初めて `r` を越えるところ。 -/
theorem exists_crossing {α : Type*} [LinearOrder α] {f : Nat → α} {r : α} {n : Nat} (h0 : f 0 ≤ r) (hn : r < f n) :
    ∃ i < n, f i ≤ r ∧ r < f (i + 1) := by
  induction n with
  | zero => exact absurd hn (not_lt.mpr h0)
  | succ n ih =>
      rcases le_or_gt (f n) r with hle | hlt
      · exact ⟨n, Nat.lt_succ_self n, hle, hn⟩
      · obtain ⟨i, hi, hbetween⟩ := ih hlt
        exact ⟨i, Nat.lt_succ_of_lt hi, hbetween⟩

/-! ## 条件つきの繰り返し -/

section While

variable {σ : Type*} {cond : σ → Prop} {body : σ → σ} {s : σ}

open Classical in
/-- `while (cond) body` の終わりの状態。終わらないとき `none`。 -/
noncomputable def whileLoop (cond : σ → Prop) (body : σ → σ) (s : σ) : Option σ :=
  if h : ∃ n, ¬ cond (body^[n] s) then some (body^[Nat.find h] s) else none

theorem whileLoop_eq_some {n : ℕ} (hrun : ∀ k < n, cond (body^[k] s)) (hstop : ¬ cond (body^[n] s)) :
    whileLoop cond body s = some (body^[n] s) := by
  classical
  have h : ∃ n, ¬ cond (body^[n] s) := ⟨n, hstop⟩
  have hfind : Nat.find h = n :=
    (Nat.find_eq_iff h).mpr ⟨hstop, fun k hk => not_not.mpr (hrun k hk)⟩
  rw [whileLoop, dif_pos h, hfind]

/-- 不変条件のもとで、本体が整礎な関係で状態を小さくするとき、繰り返しは終わる。 -/
theorem whileLoop_of_wellFounded {Inv : σ → Prop} {r : σ → σ → Prop} (hwf : WellFounded r)
    (hstep : ∀ s, Inv s → cond s → Inv (body s) ∧ r (body s) s) (hs : Inv s) :
    ∃ t, whileLoop cond body s = some t ∧ Inv t ∧ ¬ cond t := by
  have hstop : ∃ n, (∀ k < n, cond (body^[k] s)) ∧ Inv (body^[n] s) ∧ ¬ cond (body^[n] s) := by
    induction s using hwf.induction with
    | _ s ih =>
        by_cases hcond : cond s
        · obtain ⟨hnext, hless⟩ := hstep s hs hcond
          obtain ⟨n, hrun, hinv, hdone⟩ := ih (body s) hless hnext
          refine ⟨n + 1, fun k hk => ?_, hinv, hdone⟩
          cases k with
          | zero => exact hcond
          | succ k => exact hrun k (Nat.lt_of_succ_lt_succ hk)
        · exact ⟨0, fun k hk => absurd hk (Nat.not_lt_zero k), hs, hcond⟩
  obtain ⟨n, hrun, hinv, hdone⟩ := hstop
  exact ⟨body^[n] s, whileLoop_eq_some hrun hdone, hinv, hdone⟩

theorem whileLoop_eq_none (h : ∀ n, cond (body^[n] s)) : whileLoop cond body s = none :=
  dif_neg fun ⟨n, hn⟩ => hn (h n)

end While

/-! ## 配列への書き込み -/

section Writes

variable {κ α : Type*} (idx : κ → Nat) (val : κ → α)

/-- 添字 `idx k` に値 `val k` を順に書いた配列。 -/
def writes (ks : List κ) (d : List α) : List α := ks.foldl (fun d k => d.set (idx k) (val k)) d

theorem length_writes (ks : List κ) (d : List α) : (writes idx val ks d).length = d.length := by
  induction ks generalizing d with
  | nil => rfl
  | cons k ks ih =>
      have h := ih (d.set (idx k) (val k))
      rwa [List.length_set] at h

variable {idx val}

/-- 値が添字だけで決まるとき、書いた順によらず、どの添字にもその値が入る。 -/
theorem getElem?_writes {ks : List κ} {d : List α} {g : Nat → α} (hval : ∀ k ∈ ks, val k = g (idx k)) {k : κ} (hk : k ∈ ks)
    (hlt : idx k < d.length) : (writes idx val ks d)[idx k]? = some (g (idx k)) := by
  induction ks using List.reverseRecOn with
  | nil => exact absurd hk List.not_mem_nil
  | append_singleton ks l ih =>
      have hlen : (writes idx val ks d).length = d.length := length_writes idx val ks d
      have hlast : writes idx val (ks ++ [l]) d = (writes idx val ks d).set (idx l) (val l) := List.foldl_append
      rw [hlast, hval l (List.mem_append_right ks List.mem_cons_self)]
      by_cases heq : idx l = idx k
      · rw [heq, List.getElem?_set_self (hlen ▸ hlt)]
      · rw [List.getElem?_set_ne heq]
        rcases List.mem_append.mp hk with hmem | hmem
        · exact ih (fun a ha => hval a (List.mem_append_left [l] ha)) hmem
        · exact absurd (List.mem_singleton.mp hmem ▸ rfl) heq

end Writes

/-! ## 対数での累積 -/

/-- `log` の結果。`0` の対数は `-∞` である。 -/
noncomputable def logOf (x : ℝ) : EReal := ENNReal.log (ENNReal.ofReal x)

/-- `exp` の結果。`-∞` の値は `0` である。 -/
noncomputable def expOf (x : EReal) : ℝ := (EReal.exp x).toReal

theorem expOf_add_logOf {x : ℝ} (hx : 0 ≤ x) (p : EReal) : expOf (p + logOf x) = expOf p * x := by
  rw [expOf, EReal.exp_add, logOf, ENNReal.exp_log, ENNReal.toReal_mul, ENNReal.toReal_ofReal hx, expOf]

theorem expOf_zero : expOf 0 = 1 := by
  rw [expOf, EReal.exp_zero, ENNReal.toReal_one]

/-- 累積 `p` に `x` の対数を加える。負の数の対数は NaN で、NaN は `none` である。 -/
noncomputable def addLog (p : Option EReal) (x : ℝ) : Option EReal := if x < 0 then none else p.map (· + logOf x)

theorem expOf_addLog {x : ℝ} (hx : 0 ≤ x) (p : Option EReal) :
    (addLog p x).map expOf = (p.map expOf).map (· * x) := by
  rw [addLog, if_neg (not_lt.mpr hx), Option.map_map, Option.map_map]
  exact congrArg (fun f => p.map f) (funext fun q => expOf_add_logOf hx q)

open Classical in
/-- 対数の和の指数は、加えた値の積である。負の値を加えると NaN になる。 -/
theorem expOf_foldl_addLog (use : Nat → Prop) [DecidablePred use] (x : Nat → ℝ) (n : Nat) :
    ((List.range n).foldl (fun p k => if use k then addLog p (x k) else p) (some 0)).map expOf =
      if ∀ k ∈ Finset.range n, use k → 0 ≤ x k then some (∏ k ∈ Finset.range n with use k, x k) else none := by
  induction n with
  | zero => simp [expOf_zero]
  | succ n ih =>
      rw [List.range_succ, List.foldl_append, Finset.range_add_one, Finset.filter_insert, List.foldl_cons,
        List.foldl_nil]
      simp only [Finset.forall_mem_insert]
      by_cases hn : use n
      · rw [if_pos hn, if_pos hn, Finset.prod_insert (by simp)]
        by_cases hx : 0 ≤ x n
        · rw [expOf_addLog hx, ih, mul_comm]
          simp only [hx, implies_true, true_and]
          split <;> rfl
        · rw [addLog, if_pos (not_le.mp hx), if_neg fun h => hx (h.1 hn)]
          rfl
      · rw [if_neg hn, if_neg hn, ih]
        simp only [hn, false_implies, true_and]

end Ranger.Lib
