import Mathlib.Data.List.Basic
import Mathlib.Tactic.Ring

/-!
# 行ごとの写し

幅の決まった行の並びとして置かれた配列の、矩形の写し。一つの行は続いた要素の写しで、範囲の外に触れるとき `none` になる。行の中の
位置で述べた規則は、行の番号と列の番号に直して使う。
-/

namespace Ranger.Lib

variable {α : Type*} {src dst out : List α} {s d n sWidth dWidth rows : ℕ}

/-- `n` 個の要素を、`src` の位置 `s` から `dst` の位置 `d` に写す。 -/
def copyRow (src dst : List α) (s d n : ℕ) : Option (List α) :=
  if n = 0 ∨ (s + n ≤ src.length ∧ d + n ≤ dst.length) then
    some (dst.mapIdx fun k v => if d ≤ k ∧ k < d + n then (src[s + (k - d)]?).getD v else v)
  else none

/-- 幅 `n` の行を、それぞれの配列の幅だけ進みながら、`rows` 回写す。 -/
def copyRegion (src : List α) (sWidth dWidth n : ℕ) : ℕ → ℕ → ℕ → List α → Option (List α)
  | 0, _, _, dst => some dst
  | rows + 1, s, d, dst =>
      (copyRow src dst s d n).bind (copyRegion src sWidth dWidth n rows (s + sWidth) (d + dWidth))

/-! ## 一つの行 -/

theorem copyRow_length (h : copyRow src dst s d n = some out) : out.length = dst.length := by
  unfold copyRow at h
  split_ifs at h
  cases h
  simp

theorem copyRow_inside (h : copyRow src dst s d n = some out) {j : ℕ} (hj : j < n) : out[d + j]? = src[s + j]? := by
  unfold copyRow at h
  split_ifs at h with hrange
  cases h
  obtain ⟨hs, hd⟩ := hrange.resolve_left (by omega)
  have hsrc : s + j < src.length := by omega
  have hdst : d + j < dst.length := by omega
  simp [hdst, hsrc, hj]

theorem copyRow_outside (h : copyRow src dst s d n = some out) {k : ℕ} (hk : ¬ (d ≤ k ∧ k < d + n)) :
    out[k]? = dst[k]? := by
  unfold copyRow at h
  split_ifs at h
  cases h
  simp [List.getElem?_mapIdx, hk]

/-! ## 矩形 -/

theorem copyRegion_length (h : copyRegion src sWidth dWidth n rows s d dst = some out) :
    out.length = dst.length := by
  induction rows generalizing s d dst with
  | zero =>
      cases h
      rfl
  | succ rows ih =>
      obtain ⟨next, hrow, hrest⟩ := Option.bind_eq_some_iff.mp h
      exact (ih hrest).trans (copyRow_length hrow)

/-- 空の矩形の写しは、何も変えない。 -/
theorem copyRegion_empty (hempty : n = 0 ∨ rows = 0) : copyRegion src sWidth dWidth n rows s d dst = some dst := by
  rcases hempty with rfl | rfl
  · induction rows generalizing s d with
    | zero => rfl
    | succ rows ih =>
        obtain ⟨out, hrow⟩ : ∃ out, copyRow src dst s d 0 = some out := by
          rw [copyRow, if_pos (Or.inl rfl)]
          exact ⟨_, rfl⟩
        obtain rfl : out = dst := List.ext_getElem? fun k => copyRow_outside hrow (by omega)
        rw [copyRegion, hrow]
        exact ih
  · rfl

/-- 写しが範囲の中に収まるのは、空であるか、最後の行が両方の配列に収まるとき、そのときに限る。 -/
theorem copyRegion_defined :
    (∃ out, copyRegion src sWidth dWidth n (rows + 1) s d dst = some out) ↔
      n = 0 ∨ (s + rows * sWidth + n ≤ src.length ∧ d + rows * dWidth + n ≤ dst.length) := by
  induction rows generalizing s d dst with
  | zero =>
      simp only [copyRegion, copyRow, Nat.zero_mul, Nat.add_zero]
      split_ifs with hrange
      · simp [hrange]
      · simp [hrange]
  | succ rows ih =>
      have hs : s + sWidth + rows * sWidth = s + (rows + 1) * sWidth := by ring
      have hd : d + dWidth + rows * dWidth = d + (rows + 1) * dWidth := by ring
      constructor
      · rintro ⟨out, h⟩
        obtain ⟨next, hrow, hrest⟩ := Option.bind_eq_some_iff.mp h
        have hlast := ih.mp ⟨out, hrest⟩
        rwa [copyRow_length hrow, hs, hd] at hlast
      · intro h
        have hrange : n = 0 ∨ (s + n ≤ src.length ∧ d + n ≤ dst.length) := by
          rcases h with hzero | ⟨hsrc, hdst⟩
          · exact Or.inl hzero
          · right
            rw [← hs] at hsrc
            rw [← hd] at hdst
            omega
        obtain ⟨next, hrow⟩ : ∃ next, copyRow src dst s d n = some next := by
          rw [copyRow, if_pos hrange]
          exact ⟨_, rfl⟩
        rw [← hs, ← hd, ← copyRow_length hrow] at h
        obtain ⟨out, hout⟩ := ih.mpr h
        exact ⟨out, by rw [copyRegion, hrow]; exact hout⟩

theorem copyRegion_isSome_iff :
    (∃ out, copyRegion src sWidth dWidth n rows s d dst = some out) ↔
      n = 0 ∨ rows = 0 ∨ (s + (rows - 1) * sWidth + n ≤ src.length ∧ d + (rows - 1) * dWidth + n ≤ dst.length) := by
  cases rows with
  | zero => exact iff_of_true ⟨dst, rfl⟩ (Or.inr (Or.inl rfl))
  | succ rows =>
      rw [copyRegion_defined]
      simp

theorem copyRegion_outside (h : copyRegion src sWidth dWidth n rows s d dst = some out) {k : ℕ}
    (hk : ∀ i < rows, ¬ (d + i * dWidth ≤ k ∧ k < d + i * dWidth + n)) : out[k]? = dst[k]? := by
  induction rows generalizing s d dst with
  | zero =>
      cases h
      rfl
  | succ rows ih =>
      obtain ⟨next, hrow, hrest⟩ := Option.bind_eq_some_iff.mp h
      have hfirst := hk 0 (Nat.succ_pos rows)
      rw [Nat.zero_mul, Nat.add_zero] at hfirst
      rw [ih hrest, copyRow_outside hrow hfirst]
      intro i hi
      have hnext := hk (i + 1) (Nat.succ_lt_succ hi)
      rwa [show d + (i + 1) * dWidth = d + dWidth + i * dWidth by ring] at hnext

theorem copyRegion_inside (h : copyRegion src sWidth dWidth n rows s d dst = some out) (hn : n ≤ dWidth)
    {i j : ℕ} (hi : i < rows) (hj : j < n) : out[d + i * dWidth + j]? = src[s + i * sWidth + j]? := by
  induction rows generalizing s d dst i with
  | zero => exact absurd hi (Nat.not_lt_zero i)
  | succ rows ih =>
      obtain ⟨next, hrow, hrest⟩ := Option.bind_eq_some_iff.mp h
      cases i with
      | zero =>
          -- 初めの行は、後の行に書き直されない。
          have hkeep : out[d + j]? = next[d + j]? := by
            apply copyRegion_outside hrest
            rintro k - ⟨hlo, -⟩
            have hk := Nat.zero_le (k * dWidth)
            omega
          simpa [hkeep] using copyRow_inside hrow hj
      | succ i =>
          have hcell := ih hrest (i := i) (Nat.lt_of_succ_lt_succ hi)
          rwa [show d + dWidth + i * dWidth = d + (i + 1) * dWidth by ring,
            show s + sWidth + i * sWidth = s + (i + 1) * sWidth by ring] at hcell

/-- 要素ごとの関数は、写しの後に適用しても同じである。 -/
theorem copyRegion_map {β : Type*} (f : α → β) (src : List α) (sWidth dWidth n rows s d : ℕ) (dst : List α) :
    copyRegion (src.map f) sWidth dWidth n rows s d (dst.map f) =
      (copyRegion src sWidth dWidth n rows s d dst).map (List.map f) := by
  have hrow : ∀ s d dst, copyRow (src.map f) (dst.map f) s d n = (copyRow src dst s d n).map (List.map f) := by
    intro s d dst
    simp only [copyRow, List.length_map]
    split_ifs with hrange
    · rw [Option.map_some, Option.some_inj]
      apply List.ext_getElem?
      intro k
      cases hk : dst[k]? with
      | none => simp [hk]
      | some v =>
          simp only [List.getElem?_map, List.getElem?_mapIdx, hk, Option.map_some, Option.some_inj]
          split_ifs
          · cases src[s + (k - d)]? <;> rfl
          · rfl
    · rfl
  induction rows generalizing s d dst with
  | zero => rfl
  | succ rows ih =>
      rw [copyRegion, copyRegion, hrow]
      cases copyRow src dst s d n with
      | none => rfl
      | some next => exact ih (s + sWidth) (d + dWidth) next

/-! ## 行と列 -/

theorem index_lt {w h x y : ℕ} (hx : x < w) (hy : y < h) : y * w + x < w * h := by
  have hrow : (y + 1) * w ≤ h * w := Nat.mul_le_mul_right w hy
  rw [Nat.succ_mul, Nat.mul_comm h w] at hrow
  omega

/-- 行 `y` の列 `x` の位置が、行 `b` の列 `p` から続く `n` 個に入るのは、同じ行で、列がその中にあるときに限る。 -/
theorem row_eq_of_mem {y b x p w : ℕ} (hx : x < w) (hp : p + n ≤ w) (hlo : b * w + p ≤ y * w + x)
    (hhi : y * w + x < b * w + p + n) : y = b ∧ p ≤ x ∧ x < p + n := by
  have hrow : y = b := by
    rcases Nat.lt_trichotomy y b with hlt | heq | hgt
    · have hstep : (y + 1) * w ≤ b * w := Nat.mul_le_mul_right w hlt
      rw [Nat.succ_mul] at hstep
      omega
    · exact heq
    · have hstep : (b + 1) * w ≤ y * w := Nat.mul_le_mul_right w hgt
      rw [Nat.succ_mul] at hstep
      omega
  subst hrow
  omega

/-- 写しの後の、行 `y` の列 `x` の値。 -/
theorem copyRegion_cell {sx sy dx dy x y : ℕ}
    (h : copyRegion src sWidth dWidth n rows (sy * sWidth + sx) (dy * dWidth + dx) dst = some out)
    (hn : dx + n ≤ dWidth) (hx : x < dWidth) :
    out[y * dWidth + x]? =
      if (dy ≤ y ∧ y < dy + rows) ∧ dx ≤ x ∧ x < dx + n then src[(sy + (y - dy)) * sWidth + (sx + (x - dx))]?
      else dst[y * dWidth + x]? := by
  split_ifs with hin
  · obtain ⟨⟨hylo, hyhi⟩, hxlo, hxhi⟩ := hin
    obtain ⟨i, rfl⟩ := Nat.exists_eq_add_of_le hylo
    obtain ⟨j, rfl⟩ := Nat.exists_eq_add_of_le hxlo
    have hcell := copyRegion_inside h (by omega) (i := i) (j := j) (by omega) (by omega)
    rw [Nat.add_sub_cancel_left, Nat.add_sub_cancel_left]
    rwa [show dy * dWidth + dx + i * dWidth + j = (dy + i) * dWidth + (dx + j) by ring,
      show sy * sWidth + sx + i * sWidth + j = (sy + i) * sWidth + (sx + j) by ring] at hcell
  · apply copyRegion_outside h
    rintro i hi ⟨hlo, hhi⟩
    rw [show dy * dWidth + dx + i * dWidth = (dy + i) * dWidth + dx by ring] at hlo hhi
    obtain ⟨rfl, hcol⟩ := row_eq_of_mem hx hn hlo hhi
    exact hin ⟨⟨by omega, by omega⟩, hcol⟩

end Ranger.Lib
