import Mathlib.Data.List.ProdSigma

/-!
# 反復子

状態を進めながら値を読む反復子と、それが順に返す値の並びを定める。二つの反復子を桁のように組み合わせたものと、条件を満たす値だけを
返すようにしたものの並びを求める。
-/

namespace Ranger.Lib

variable {σ τ α β : Type*}

structure Iterator (σ α : Type*) where
  value : σ → α
  next : σ → σ
  finished : σ → Bool

namespace Iterator

variable {it : Iterator σ α} {s : σ} {a : α} {l : List α}

/-- 状態 `s` から順に `l` の値を返して終わる。 -/
def Enumerates (it : Iterator σ α) : σ → List α → Prop
  | s, [] => it.finished s = true
  | s, a :: l => it.finished s = false ∧ it.value s = a ∧ Enumerates it (it.next s) l

/-! ## 桁の組み合わせ -/

section Prod

variable {outer : Iterator σ α} {inner : Iterator τ β} {reset : τ → τ} {t : τ} {b : β} {m : List β}

/-- 内側が終わると、内側を始めに戻して外側を進める。 -/
def prod (outer : Iterator σ α) (inner : Iterator τ β) (reset : τ → τ) : Iterator (σ × τ) (α × β) where
  value s := (outer.value s.1, inner.value s.2)
  next s := if inner.finished (inner.next s.2) then (outer.next s.1, reset (inner.next s.2)) else (s.1, inner.next s.2)
  finished s := outer.finished s.1

/-- 内側の残りの並びを返した後、外側の次の値に移る。 -/
theorem Enumerates.row {t₀ : τ} {rest : List (α × β)} (houter : outer.finished s = false)
    (hreset : ∀ t, reset (inner.next t) = reset t) (ht : reset t = t₀) (h : inner.Enumerates t (b :: m))
    (hrest : (prod outer inner reset).Enumerates (outer.next s, t₀) rest) :
    (prod outer inner reset).Enumerates (s, t) ((b :: m).map (outer.value s, ·) ++ rest) := by
  induction m generalizing t b with
  | nil =>
      obtain ⟨-, rfl, hend⟩ := h
      refine ⟨houter, rfl, ?_⟩
      have hnext : (prod outer inner reset).next (s, t) = (outer.next s, t₀) := by
        show (if inner.finished (inner.next t) then _ else _) = _
        rw [if_pos (show inner.finished (inner.next t) = true from hend), hreset, ht]
      rw [hnext]
      exact hrest
  | cons c m ih =>
      obtain ⟨-, rfl, hmore⟩ := h
      refine ⟨houter, rfl, ?_⟩
      have hnext : (prod outer inner reset).next (s, t) = (s, inner.next t) := by
        show (if inner.finished (inner.next t) then _ else _) = _
        rw [hmore.1]
        rfl
      rw [hnext]
      exact ih (by rw [hreset, ht]) hmore

theorem Enumerates.prod {l : List α} (hreset : ∀ t, reset (inner.next t) = reset t) (hback : reset t = t)
    (houter : outer.Enumerates s l) (hinner : inner.Enumerates t m) (hne : m ≠ []) :
    (Iterator.prod outer inner reset).Enumerates (s, t) (l ×ˢ m) := by
  induction l generalizing s with
  | nil => exact houter
  | cons a l ih =>
      obtain ⟨hmore, rfl, hrest⟩ := houter
      cases m with
      | nil => exact absurd rfl hne
      | cons b m => exact Enumerates.row hmore hreset hback hinner (ih hrest)

end Prod

/-! ## 条件を満たす値 -/

section Filter

variable (it) (valid : σ → Bool)

/-- 条件を満たす値か終わりまで進める。`fuel` 回のうちに着かないとき `none` である。 -/
def skip : ℕ → σ → Option σ
  | 0, s => if it.finished s then some s else none
  | fuel + 1, s => if it.finished s then some s
    else if valid (it.next s) then some (it.next s) else skip fuel (it.next s)

/-- 条件を満たす値を順に集める。 -/
def collect (fuel : ℕ) : ℕ → σ → Option (List α)
  | 0, s => if it.finished s then some [] else none
  | steps + 1, s => if it.finished s then some []
    else (it.skip valid fuel s).bind fun s' => (collect fuel steps s').map (it.value s :: ·)

/-- 初めの値が条件を満たさなければ、満たす値まで進めてから集める。 -/
def collectAll (fuel : ℕ) (s : σ) : Option (List α) :=
  (if valid s then some s else it.skip valid fuel s).bind (it.collect valid fuel fuel)

variable {it valid} {p : α → Bool}

theorem Enumerates.skip {fuel : ℕ} (hvalid : ∀ s, valid s = p (it.value s)) (h : it.Enumerates s (a :: l))
    (hfuel : l.length < fuel) : ∃ s' l', it.skip valid fuel s = some s' ∧ it.Enumerates s' l' ∧
      l'.filter p = l.filter p ∧ l'.length ≤ l.length ∧ ∀ b ∈ l'.head?, p b = true := by
  induction l generalizing s a fuel with
  | nil =>
      obtain ⟨hmore, -, hend⟩ := h
      obtain ⟨fuel, rfl⟩ := Nat.exists_eq_add_of_lt hfuel
      have hfinished : it.finished (it.next s) = true := hend
      refine ⟨it.next s, [], ?_, hend, rfl, Nat.le_refl _, fun b hb => by cases hb⟩
      rw [Iterator.skip, hmore]
      cases valid (it.next s) with
      | true => rfl
      | false =>
          cases fuel with
          | zero => simp [Iterator.skip, hfinished]
          | succ fuel => simp [Iterator.skip, hfinished]
  | cons b l ih =>
      obtain ⟨hmore, -, hrest⟩ := h
      obtain ⟨fuel, rfl⟩ : ∃ k, fuel = k + 1 := ⟨fuel - 1, by omega⟩
      have hhead := hvalid (it.next s)
      rw [hrest.2.1] at hhead
      rw [Iterator.skip, hmore]
      cases hb : p b with
      | true =>
          rw [hhead, hb]
          refine ⟨it.next s, b :: l, rfl, hrest, rfl, Nat.le_refl _, fun c hc => ?_⟩
          cases hc
          exact hb
      | false =>
          rw [hhead, hb]
          obtain ⟨s', l', hskip, henum, hfilter, hlength, hvalid'⟩ := ih hrest (by simpa using hfuel)
          exact ⟨s', l', hskip, henum, hfilter.trans (List.filter_cons_of_neg (by simp [hb])).symm,
            Nat.le_trans hlength (Nat.le_succ _), hvalid'⟩

theorem Enumerates.collect {fuel steps : ℕ} (hvalid : ∀ s, valid s = p (it.value s)) (h : it.Enumerates s l)
    (hhead : ∀ b ∈ l.head?, p b = true) (hfuel : l.length ≤ fuel) (hsteps : l.length ≤ steps) :
    it.collect valid fuel steps s = some (l.filter p) := by
  induction steps generalizing s l with
  | zero =>
      obtain rfl := List.length_eq_zero_iff.mp (Nat.le_zero.mp hsteps)
      have hfinished : it.finished s = true := h
      simp [Iterator.collect, hfinished]
  | succ steps ih =>
      cases l with
      | nil =>
          have hfinished : it.finished s = true := h
          simp [Iterator.collect, hfinished]
      | cons a l =>
          rw [List.length_cons] at hfuel hsteps
          have hlt : l.length < fuel := hfuel
          obtain ⟨s', l', hskip, henum, hfilter, hlength, hhead'⟩ := h.skip hvalid hlt
          have hmore : ¬ it.finished s = true := by simp [h.1]
          rw [Iterator.collect, if_neg hmore, hskip, Option.bind_some, ih henum hhead' (by omega) (by omega),
            Option.map_some, hfilter, h.2.1, List.filter_cons_of_pos (hhead a rfl)]

/-- 条件を満たす値だけが、同じ順に集まる。 -/
theorem Enumerates.collectAll {fuel : ℕ} (hvalid : ∀ s, valid s = p (it.value s)) (h : it.Enumerates s l)
    (hne : l ≠ []) (hfuel : l.length ≤ fuel) : it.collectAll valid fuel s = some (l.filter p) := by
  cases l with
  | nil => exact absurd rfl hne
  | cons a l =>
      have hvalue := hvalid s
      rw [h.2.1] at hvalue
      rw [Iterator.collectAll, hvalue]
      cases ha : p a with
      | true =>
          refine h.collect hvalid (fun b hb => ?_) hfuel hfuel
          cases hb
          exact ha
      | false =>
          rw [List.length_cons] at hfuel
          have hlt : l.length < fuel := hfuel
          obtain ⟨s', l', hskip, henum, hfilter, hlength, hhead⟩ := h.skip hvalid hlt
          rw [if_neg Bool.false_ne_true, hskip, Option.bind_some, henum.collect hvalid hhead (by omega) (by omega), hfilter,
            List.filter_cons_of_neg (by simp [ha])]

end Filter

end Iterator

end Ranger.Lib
