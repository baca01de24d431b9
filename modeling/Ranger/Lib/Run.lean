import Mathlib.Data.List.Basic

/-!
# 遷移関数の実行

事象を受けて遷移する部分関数 `step` の、事象の並びに沿った実行を定める。`step s e = none` は、状態 `s` で
事象 `e` が起こりえないことを表す。実行の全体についての性質は、一つの遷移についての性質から導く。
-/

namespace Ranger.Lib

variable {σ ε α : Type*} {step : σ → ε → Option σ}

/-- 事象の並びを状態 `s` から順に実行した結果。起こりえない事象を含むとき `none`。 -/
def runs (step : σ → ε → Option σ) : σ → List ε → Option σ
  | s, [] => some s
  | s, e :: es => (step s e).bind fun t => runs step t es

/-- `s` からの実行のどの遷移でも `P` が成り立つ。起こりえない事象から先は問わない。 -/
def Always (step : σ → ε → Option σ) (P : σ → ε → σ → Prop) : σ → List ε → Prop
  | _, [] => True
  | s, e :: es => ∀ t, step s e = some t → P s e t ∧ Always step P t es

/-! ## 実行 -/

@[simp] theorem runs_nil (s : σ) : runs step s [] = some s := rfl

theorem runs_cons {s t : σ} {e : ε} {es : List ε} (h : step s e = some t) :
    runs step s (e :: es) = runs step t es := by
  simp [runs, h]

theorem runs_cons_some {s u : σ} {e : ε} {es : List ε} (h : runs step s (e :: es) = some u) :
    ∃ t, step s e = some t ∧ runs step t es = some u := by
  simpa [runs, Option.bind_eq_some_iff] using h

theorem runs_eq_none_of_mem {e : ε} {es : List ε} (he : e ∈ es) (hnone : ∀ s, step s e = none) (s : σ) :
    runs step s es = none := by
  induction es generalizing s with
  | nil => exact absurd he List.not_mem_nil
  | cons e' es ih =>
      rcases List.mem_cons.mp he with rfl | hmem
      · simp [runs, hnone]
      · cases h : step s e' with
        | none => simp [runs, h]
        | some t => rw [runs_cons h, ih hmem]

theorem runs_total (htotal : ∀ s e, ∃ t, step s e = some t) (s : σ) (es : List ε) :
    ∃ t, runs step s es = some t := by
  induction es generalizing s with
  | nil => exact ⟨s, rfl⟩
  | cons e es ih =>
      obtain ⟨t, ht⟩ := htotal s e
      rw [runs_cons ht]
      exact ih t

/-! ## 実行のどの遷移でも成り立つ性質 -/

section Always

variable {P Q C : σ → ε → σ → Prop} {Inv : σ → Prop}

theorem Always.nil (s : σ) : Always step P s [] := trivial

theorem Always.of_step (h : ∀ s e t, step s e = some t → P s e t) {s : σ} {es : List ε} :
    Always step P s es := by
  induction es generalizing s with
  | nil => exact Always.nil s
  | cons e es ih => exact fun t ht => ⟨h s e t ht, ih⟩

theorem Always.of_mem {es : List ε} (h : ∀ e ∈ es, ∀ s t, step s e = some t → P s e t) {s : σ} :
    Always step P s es := by
  induction es generalizing s with
  | nil => exact Always.nil s
  | cons e es ih =>
      intro t ht
      exact ⟨h e List.mem_cons_self s t ht, ih fun e' he' => h e' (List.mem_cons_of_mem e he')⟩

/-- 不変条件 `Inv` のもとで、条件 `C` を満たす遷移が `Inv` を保ち、`P` を満たすとき、どの遷移も `C` を満たす
実行は、どの遷移でも `P` を満たす。 -/
theorem Always.of_inv (hinv : ∀ s e t, Inv s → step s e = some t → C s e t → Inv t)
    (hP : ∀ s e t, Inv s → step s e = some t → C s e t → P s e t) {s : σ} {es : List ε}
    (hs : Inv s) (h : Always step C s es) : Always step P s es := by
  induction es generalizing s with
  | nil => exact Always.nil s
  | cons e es ih =>
      intro t ht
      obtain ⟨hc, hrest⟩ := h t ht
      exact ⟨hP s e t hs ht hc, ih (hinv s e t hs ht hc) hrest⟩

/-- 不変条件 `Inv` のもとで、どの事象も起こり、遷移が `P` を満たして `Inv` を保つとき、実行は終わりまで進む。 -/
theorem Always.of_total (h : ∀ s e, Inv s → ∃ t, step s e = some t ∧ P s e t) (hinv : ∀ s e t, P s e t → Inv t)
    {s : σ} (hs : Inv s) (es : List ε) : (∃ t, runs step s es = some t) ∧ Always step P s es := by
  induction es generalizing s with
  | nil => exact ⟨⟨s, rfl⟩, Always.nil s⟩
  | cons e es ih =>
      obtain ⟨t, hstep, hP⟩ := h s e hs
      obtain ⟨hruns, halways⟩ := ih (hinv s e t hP)
      refine ⟨by rwa [runs_cons hstep], fun t' ht' => ?_⟩
      obtain rfl : t = t' := Option.some.inj (hstep.symm.trans ht')
      exact ⟨hP, halways⟩

/-- 条件 `C` を満たす遷移が保つ性質は、どの遷移も `C` を満たす実行の終わりで成り立つ。 -/
theorem runs_inv (hinv : ∀ s e t, Inv s → step s e = some t → C s e t → Inv t) {s t : σ} {es : List ε}
    (hs : Inv s) (h : Always step C s es) (hrun : runs step s es = some t) : Inv t := by
  induction es generalizing s with
  | nil =>
      cases hrun
      exact hs
  | cons e es ih =>
      obtain ⟨u, hstep, hrest⟩ := runs_cons_some hrun
      obtain ⟨hc, halways⟩ := h u hstep
      exact ih (hinv s e u hs hstep hc) halways hrest

theorem Always.mono (hPQ : ∀ s e t, step s e = some t → P s e t → Q s e t) {s : σ} {es : List ε}
    (h : Always step P s es) : Always step Q s es := by
  induction es generalizing s with
  | nil => exact Always.nil s
  | cons e es ih =>
      intro t ht
      obtain ⟨hp, hrest⟩ := h t ht
      exact ⟨hPQ s e t ht hp, ih hrest⟩

/-- 前の部分を実行した後の実行でも成り立つ。 -/
theorem Always.after {s t : σ} {es fs : List ε} (h : Always step P s (es ++ fs)) (hrun : runs step s es = some t) :
    Always step P t fs := by
  induction es generalizing s with
  | nil =>
      cases hrun
      exact h
  | cons e es ih =>
      obtain ⟨u, hstep, hrest⟩ := runs_cons_some hrun
      exact ih (h u hstep).2 hrest

/-- 不変条件のもとで二つの条件が同値であり、それが不変条件を保つとき、実行の全体についても同値である。 -/
theorem Always.iff_of_inv (hinv : ∀ s e t, Inv s → step s e = some t → C s e t → Inv t)
    (hPC : ∀ s e t, Inv s → step s e = some t → (P s e t ↔ C s e t)) {s : σ} {es : List ε}
    (hs : Inv s) : Always step P s es ↔ Always step C s es :=
  ⟨Always.of_inv (fun s e t hi ht hp => hinv s e t hi ht ((hPC s e t hi ht).mp hp))
    (fun s e t hi ht hp => (hPC s e t hi ht).mp hp) hs,
   Always.of_inv hinv (fun s e t hi ht hc => (hPC s e t hi ht).mpr hc) hs⟩

end Always

/-! ## 前提のもとでの実行 -/

section Allowed

variable {C : σ → ε → Prop} {Inv : σ → Prop}

/-- 事象の並びのどの事象も、起こる前の状態で `C` を満たす。 -/
def Allowed (step : σ → ε → Option σ) (C : σ → ε → Prop) : σ → List ε → Prop
  | _, [] => True
  | s, e :: es => C s e ∧ ∀ t, step s e = some t → Allowed step C t es

/-- `C` を満たす事象が起こり、不変条件を保つとき、`C` を満たす実行は終わりまで進み、不変条件を保つ。 -/
theorem Allowed.runs (h : ∀ s e, Inv s → C s e → ∃ t, step s e = some t ∧ Inv t) {s : σ} {es : List ε} (hs : Inv s)
    (hes : Allowed step C s es) : ∃ t, runs step s es = some t ∧ Inv t := by
  induction es generalizing s with
  | nil => exact ⟨s, rfl, hs⟩
  | cons e es ih =>
      obtain ⟨hC, hrest⟩ := hes
      obtain ⟨t, hstep, hinv⟩ := h s e hs hC
      rw [runs_cons hstep]
      exact ih hinv (hrest t hstep)

end Allowed

/-! ## 具体的な実行での判定 -/

instance Always.decidable {P : σ → ε → σ → Prop} [∀ s e t, Decidable (P s e t)] :
    (s : σ) → (es : List ε) → Decidable (Always step P s es)
  | _, [] => isTrue trivial
  | s, e :: es =>
      match h : step s e with
      | none => isTrue fun t ht => by rw [h] at ht; cases ht
      | some t =>
          have := Always.decidable (P := P) t es
          decidable_of_iff (P s e t ∧ Always step P t es)
            ⟨fun hp u hu => by rw [h] at hu; cases hu; exact hp, fun hp => hp t h⟩

/-! ## 最後の書き込み -/

section LastWrite

variable {ι : Type*} {β : ι → Type*} {read : ∀ i, σ → β i} {writes : ∀ i, ε → Option (β i)}

theorem getLast?_filterMap_cons (w : ε → Option α) (e : ε) (es : List ε) (d : α) :
    (((e :: es).filterMap w).getLast?).getD d = ((es.filterMap w).getLast?).getD ((w e).getD d) := by
  cases he : w e with
  | none => rw [List.filterMap_cons_none he, Option.getD_none]
  | some v =>
      rw [List.filterMap_cons_some he, List.getLast?_cons]
      rfl

/-- 実行のどの時点でも、場所 `i` の値が、それまでに最後に書かれた値（なければ元の値）であることは、どの遷移も、場所に
`writes i e` の値を書くか、場所を変えないことと同値である。 -/
theorem lastWrite_iff_always {s : σ} {es : List ε} :
    (∀ pre, pre <+: es → ∀ t, runs step s pre = some t → ∀ i,
      read i t = ((pre.filterMap (writes i)).getLast?).getD (read i s)) ↔
    Always step (fun s e t => ∀ i, read i t = (writes i e).getD (read i s)) s es := by
  induction es generalizing s with
  | nil =>
      refine ⟨fun _ => Always.nil s, fun _ pre hpre t ht i => ?_⟩
      obtain rfl := List.prefix_nil.mp hpre
      cases ht
      rfl
  | cons e es ih =>
      constructor
      · intro h t ht
        have hone : ∀ i, read i t = (writes i e).getD (read i s) := by
          intro i
          have hi := h [e] (by simp) t (by rw [runs_cons ht, runs_nil]) i
          rwa [getLast?_filterMap_cons] at hi
        refine ⟨hone, ih.mp fun pre hpre u hu i => ?_⟩
        have hi := h (e :: pre) ((List.prefix_cons_inj e).mpr hpre) u (by rw [runs_cons ht]; exact hu) i
        rwa [getLast?_filterMap_cons, ← hone i] at hi
      · intro h pre hpre u hu i
        cases pre with
        | nil => cases hu; rfl
        | cons e' pre =>
            obtain ⟨rfl, hrestpre⟩ := List.cons_prefix_cons.mp hpre
            obtain ⟨t, ht, hr⟩ := runs_cons_some hu
            obtain ⟨hone, hrest⟩ := h t ht
            rw [getLast?_filterMap_cons, ← hone i]
            exact ih.mpr hrest pre hrestpre u hr i

/-- どの遷移も、場所に `writes i e` の値を書くか、場所を変えないとき、実行の後の値は、最後に書かれた値である。 -/
theorem runs_lastWrite (hw : ∀ s e t, step s e = some t → ∀ i, read i t = (writes i e).getD (read i s))
    {s t : σ} {es : List ε} (h : runs step s es = some t) (i : ι) :
    read i t = ((es.filterMap (writes i)).getLast?).getD (read i s) :=
  lastWrite_iff_always.mpr (Always.of_step hw) es List.prefix_rfl t h i

end LastWrite

/-! ## 記録 -/

section Log

variable {P : α → Prop} {log : List α} {x y : α} {j k : Nat}

/-- 記録の `k` 番目までで、`P` を満たす最後の要素は `j` 番目である。 -/
def LastAt (P : α → Prop) (log : List α) (j k : Nat) : Prop :=
  j ≤ k ∧ (∃ x, log[j]? = some x ∧ P x) ∧ ∀ i x, j < i → i ≤ k → log[i]? = some x → ¬ P x

theorem getElem?_concat_some :
    (log ++ [x])[k]? = some y ↔ log[k]? = some y ∨ (k = log.length ∧ x = y) := by
  rcases Nat.lt_trichotomy k log.length with h | rfl | h
  · rw [List.getElem?_append_left h]
    exact ⟨Or.inl, fun hy => hy.resolve_right fun hk => Nat.ne_of_lt h hk.1⟩
  · simp
  · have hlong : (log ++ [x]).length ≤ k := List.length_append ▸ h
    rw [List.getElem?_eq_none hlong, List.getElem?_eq_none (Nat.le_of_lt h)]
    simp [Nat.ne_of_gt h]

/-- 記録の要素は、記録が延びても変わらない。 -/
theorem getElem?_concat_of_some (h : log[k]? = some y) : (log ++ [x])[k]? = some y :=
  getElem?_concat_some.mpr (Or.inl h)

theorem lt_length_of_getElem?_some (h : log[k]? = some y) : k < log.length :=
  (List.getElem?_eq_some_iff.mp h).1

theorem LastAt.unique {j' : Nat} (h : LastAt P log j k) (h' : LastAt P log j' k) : j = j' := by
  obtain ⟨hjk, ⟨x, hx, hP⟩, hlast⟩ := h
  obtain ⟨hjk', ⟨x', hx', hP'⟩, hlast'⟩ := h'
  rcases Nat.lt_trichotomy j j' with hlt | heq | hlt
  · exact absurd hP' (hlast j' x' hlt hjk' hx')
  · exact heq
  · exact absurd hP (hlast' j x hlt hjk hx)

theorem LastAt.concat (h : LastAt P log j k) (hk : k < log.length) : LastAt P (log ++ [x]) j k := by
  obtain ⟨hjk, ⟨y, hy, hP⟩, hlast⟩ := h
  refine ⟨hjk, ⟨y, getElem?_concat_of_some hy, hP⟩, fun i z hji hik hz => ?_⟩
  rcases getElem?_concat_some.mp hz with hz | ⟨hi, -⟩
  · exact hlast i z hji hik hz
  · omega

theorem LastAt.concat_self (hx : P x) (hk : log.length ≤ k) : LastAt P (log ++ [x]) log.length k := by
  refine ⟨hk, ⟨x, List.getElem?_concat_length, hx⟩, fun i z hi _ hz => ?_⟩
  have hlt := lt_length_of_getElem?_some hz
  simp only [List.length_append, List.length_singleton] at hlt
  omega

theorem LastAt.concat_of_not (h : LastAt P log j log.length) (hx : ¬ P x) (hk : j ≤ k) :
    LastAt P (log ++ [x]) j k := by
  obtain ⟨-, ⟨y, hy, hP⟩, hlast⟩ := h
  refine ⟨hk, ⟨y, getElem?_concat_of_some hy, hP⟩, fun i z hji _ hz => ?_⟩
  rcases getElem?_concat_some.mp hz with hz | ⟨-, rfl⟩
  · exact hlast i z hji (Nat.le_of_lt (lt_length_of_getElem?_some hz)) hz
  · exact hx

end Log

/-! ## 結果を返す遷移 -/

section Outputs

variable {τ ω : Type*} {f : σ → ε → σ × ω} {g : τ → ε → τ × ω}

def outputs (f : σ → ε → σ × ω) : σ → List ε → List ω
  | _, [] => []
  | s, e :: es => (f s e).2 :: outputs f (f s e).1 es

/-- 対応 `R` を保ち、対応する状態で同じ結果を返す二つの遷移は、どの列でも同じ結果を返す。 -/
theorem outputs_eq_of_sim (R : σ → τ → Prop)
    (hsim : ∀ s t e, R s t → R (f s e).1 (g t e).1 ∧ (f s e).2 = (g t e).2) {s : σ} {t : τ} (h : R s t)
    (es : List ε) : outputs f s es = outputs g t es := by
  induction es generalizing s t with
  | nil => rfl
  | cons e es ih =>
      obtain ⟨hnext, heq⟩ := hsim s t e h
      simp only [outputs, heq, ih hnext]

end Outputs

/-! ## 失敗しうる計算 -/

section Yields

universe u v

variable {σ α : Type u} {ε : Type v} {P Q : σ → Prop} {E : ε → Prop} {x : Except ε σ}

/-- 計算は、`P` を満たす結果を返すか、`E` を満たす例外で終わる。 -/
def Yields (x : Except ε σ) (P : σ → Prop) (E : ε → Prop) : Prop :=
  match x with
  | .ok s => P s
  | .error e => E e

theorem Yields.pure {s : σ} (h : P s) : Yields (Pure.pure s : Except ε σ) P E := h

theorem Yields.bind {y : σ → Except ε α} {R : α → Prop} (hx : Yields x P E) (hy : ∀ s, P s → Yields (y s) R E) :
    Yields (x >>= y) R E := by
  cases x with
  | ok s => exact hy s hx
  | error e => exact hx

theorem Yields.imp (hx : Yields x P E) (h : ∀ s, P s → Q s) : Yields x Q E := by
  cases x with
  | ok s => exact h s hx
  | error e => exact hx

theorem Yields.ok {s : σ} (hx : Yields x P E) (h : x = .ok s) : P s := by
  subst h
  exact hx

theorem Yields.error {e : ε} (hx : Yields x P E) (h : x = .error e) : E e := by
  subst h
  exact hx

/-- 番号 `i` の一歩が `I i` から `I (i + 1)` に移すとき、`a` から `n` 回の繰り返しは `I (a + n)` に移す。 -/
theorem Yields.foldlM_range' {f : σ → ℕ → Except ε σ} {I : ℕ → σ → Prop} {a n : ℕ} {s : σ}
    (hstep : ∀ i s, a ≤ i → i < a + n → I i s → Yields (f s i) (I (i + 1)) E) (hs : I a s) :
    Yields ((List.range' a n).foldlM f s) (I (a + n)) E := by
  induction n generalizing a s with
  | zero => exact hs
  | succ n ih =>
      rw [List.range'_succ, List.foldlM_cons, Nat.add_comm n 1, ← Nat.add_assoc]
      apply (hstep a s (Nat.le_refl a) (by omega) hs).bind
      intro t ht
      exact ih (fun i u hai hi => hstep i u (by omega) (by omega)) ht

theorem Yields.foldlM_range {f : σ → ℕ → Except ε σ} {I : ℕ → σ → Prop} {n : ℕ} {s : σ}
    (hstep : ∀ i s, i < n → I i s → Yields (f s i) (I (i + 1)) E) (hs : I 0 s) :
    Yields ((List.range n).foldlM f s) (I n) E := by
  rw [List.range_eq_range']
  have h := Yields.foldlM_range' (a := 0) (n := n) (I := I) (fun i t _ hi => hstep i t (by omega)) hs
  rwa [Nat.zero_add] at h

end Yields

/-- 番号 `i` の一歩が `I i` から `I (i + 1)` に移すとき、`n` 回の繰り返しは `I n` に移す。 -/
theorem foldl_range_inv {I : ℕ → σ → Prop} {f : σ → ℕ → σ} {n : ℕ} {s : σ}
    (hstep : ∀ i s, i < n → I i s → I (i + 1) (f s i)) (hs : I 0 s) : I n ((List.range n).foldl f s) := by
  induction n with
  | zero => exact hs
  | succ n ih =>
      rw [List.range_succ, List.foldl_append, List.foldl_cons, List.foldl_nil]
      exact hstep n _ (Nat.lt_succ_self n) (ih fun i s hi => hstep i s (Nat.lt_succ_of_lt hi))

end Ranger.Lib
