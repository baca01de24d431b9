import Ranger.Denoise.Scanning

/-!
# 走査の全体

最初の行、行の最初の列、途中の列、最後の列の窓が、どれも画像の隣を読むことから、走査の全体が不変条件を保つことを示す。
-/

namespace Ranger.Denoise
open Ranger.Lib

/-! ## 窓の値 -/

section Windows

variable {α : Type} [OfNat α 0] {image : Image α} {r c n : ℕ}

/-- 画像の中の隣を、そのまま読む。 -/
def Inside (image : Image α) (w : Window α) (p : Pixel) : Prop :=
  ∀ σ q, q ∈ image.pixels → Slot.At σ p q → w.slot σ = image.pixel q.1 q.2

def Outside (image : Image α) (w : Window α) (p : Pixel) : Prop :=
  ∀ σ, (∀ q ∈ image.pixels, ¬ Slot.At σ p q) → w.slot σ = 0

theorem replaceOutOfBounds_inside (hc : c < n) :
    Border.replaceOutOfBounds image.data (image.row r) n (image.row r + c) = image.pixel r c := by
  rw [Border.replaceOutOfBounds, if_neg (by omega)]
  rfl

theorem replaceOutOfBounds_left (n : ℕ) :
    Border.replaceOutOfBounds image.data (image.row r) n (image.row r + (0 : ℕ) - 1) = 0 := by
  rw [Border.replaceOutOfBounds, if_pos (Or.inl (by omega))]

theorem replaceOutOfBounds_right (hc : n ≤ c) :
    Border.replaceOutOfBounds image.data (image.row r) n (image.row r + c) = 0 := by
  rw [Border.replaceOutOfBounds, if_pos (Or.inr (by omega))]

omit [OfNat α 0] in
theorem address_left (image : Image α) (r c : ℕ) : image.row r + ((c + 1 : ℕ) : ℤ) - 1 = image.row r + c := by
  push_cast
  ring

omit [OfNat α 0] in
theorem address_right (image : Image α) (r c : ℕ) : image.row r + (c : ℤ) + 1 = image.row r + ((c + 1 : ℕ) : ℤ) := by
  push_cast
  ring

def Slot.address (up down : ℤ) : Slot → ℤ
  | .a => up - 1
  | .b => up
  | .c => up + 1
  | .d => down - 1

omit [OfNat α 0] in
theorem Slot.At.address_eq {σ : Slot} {q : Pixel} (hat : σ.At (r + 1, c) q) (image : Image α) :
    σ.address (image.row r + c) (image.row (r + 1) + c) = image.row q.1 + q.2 := by
  obtain ⟨q₁, q₂⟩ := q
  cases σ with
  | a =>
      obtain ⟨hrow, hcol⟩ := hat
      obtain rfl : q₁ = r := Nat.succ_injective hrow
      obtain rfl : q₂ + 1 = c := hcol
      exact address_left image q₁ q₂
  | b =>
      obtain ⟨hrow, hcol⟩ := hat
      obtain rfl : q₁ = r := Nat.succ_injective hrow
      obtain rfl : q₂ = c := hcol
      rfl
  | c =>
      obtain ⟨hrow, hcol⟩ := hat
      obtain rfl : q₁ = r := Nat.succ_injective hrow
      obtain rfl : q₂ = c + 1 := hcol
      exact address_right image q₁ c
  | d =>
      obtain ⟨hrow, hcol⟩ := hat
      obtain rfl : q₁ = r + 1 := hrow
      obtain rfl : q₂ + 1 = c := hcol
      exact address_left image (r + 1) q₂

theorem inside_unchecked (image : Image α) (r c : ℕ) :
    Inside image (makeUnsafeWindow image.data (image.row r + c) (image.row (r + 1) + c)) (r + 1, c) := by
  intro σ q _ hat
  have hread := congrArg image.data (hat.address_eq image)
  cases σ <;> exact hread

theorem inside_checked (image : Image α) (r c : ℕ) :
    Inside image (makeSafeWindow image.data (some (image.row r)) (image.row (r + 1)) image.columns c) (r + 1, c) := by
  intro σ q hq hat
  have hlt : q.2 < image.columns := (Image.mem_pixels.mp hq).2
  have hread : Border.replaceOutOfBounds image.data (image.row q.1) image.columns
      (σ.address (image.row r + c) (image.row (r + 1) + c)) = image.pixel q.1 q.2 := by
    rw [hat.address_eq, replaceOutOfBounds_inside hlt]
  rw [← hread]
  cases σ with
  | a =>
      rw [Nat.succ_injective hat.1]
      rfl
  | b =>
      rw [Nat.succ_injective hat.1]
      rfl
  | c =>
      rw [Nat.succ_injective hat.1]
      rfl
  | d =>
      rw [show q.1 = r + 1 from hat.1]
      rfl

theorem inside_first (image : Image α) (c : ℕ) :
    Inside image (makeSafeWindow image.data none (image.row 0) image.columns c) (0, c) := by
  intro σ q hq hat
  obtain ⟨q₁, q₂⟩ := q
  have hlt : q₂ < image.columns := (Image.mem_pixels.mp hq).2
  cases σ with
  | a => exact absurd hat.1 (Nat.succ_ne_zero _)
  | b => exact absurd hat.1 (Nat.succ_ne_zero _)
  | c => exact absurd hat.1 (Nat.succ_ne_zero _)
  | d =>
      obtain ⟨hrow, hcol⟩ := hat
      obtain rfl : q₁ = 0 := hrow
      obtain rfl : q₂ + 1 = c := hcol
      show Border.replaceOutOfBounds image.data (image.row 0) image.columns (image.row 0 + ((q₂ + 1 : ℕ) : ℤ) - 1) = _
      rw [address_left, replaceOutOfBounds_inside hlt]

theorem outside_unchecked (hp : (r + 1, c) ∈ image.pixels) (hleft : 0 < c) (hright : c + 1 < image.columns) :
    Outside image (makeUnsafeWindow image.data (image.row r + c) (image.row (r + 1) + c)) (r + 1, c) := by
  obtain ⟨hrows, hcols⟩ := Image.mem_pixels.mp hp
  dsimp only at hrows hcols
  intro σ hnone
  cases σ with
  | a => exact absurd ⟨rfl, by dsimp only; omega⟩ (hnone (r, c - 1) (Image.mem_pixels.mpr ⟨by dsimp only; omega, by dsimp only; omega⟩))
  | b => exact absurd ⟨rfl, rfl⟩ (hnone (r, c) (Image.mem_pixels.mpr ⟨by dsimp only; omega, hcols⟩))
  | c => exact absurd ⟨rfl, rfl⟩ (hnone (r, c + 1) (Image.mem_pixels.mpr ⟨by dsimp only; omega, hright⟩))
  | d => exact absurd ⟨rfl, by dsimp only; omega⟩ (hnone (r + 1, c - 1) (Image.mem_pixels.mpr ⟨hrows, by dsimp only; omega⟩))

theorem outside_checked (hp : (r + 1, c) ∈ image.pixels) :
    Outside image (makeSafeWindow image.data (some (image.row r)) (image.row (r + 1)) image.columns c) (r + 1, c) := by
  obtain ⟨hrows, hcols⟩ := Image.mem_pixels.mp hp
  dsimp only at hrows hcols
  intro σ hnone
  cases σ with
  | a =>
      rcases Nat.eq_zero_or_eq_succ_pred c with rfl | hc
      · exact replaceOutOfBounds_left image.columns
      · exact absurd ⟨rfl, hc.symm⟩
          (hnone (r, c.pred) (Image.mem_pixels.mpr ⟨by dsimp only; omega, by dsimp only; omega⟩))
  | b => exact absurd ⟨rfl, rfl⟩ (hnone (r, c) (Image.mem_pixels.mpr ⟨by dsimp only; omega, hcols⟩))
  | c =>
      rcases Nat.lt_or_ge (c + 1) image.columns with hlt | hge
      · exact absurd ⟨rfl, rfl⟩ (hnone (r, c + 1) (Image.mem_pixels.mpr ⟨by dsimp only; omega, hlt⟩))
      · show Border.replaceOutOfBounds image.data (image.row r) image.columns (image.row r + (c : ℤ) + 1) = 0
        rw [address_right, replaceOutOfBounds_right hge]
  | d =>
      rcases Nat.eq_zero_or_eq_succ_pred c with rfl | hc
      · exact replaceOutOfBounds_left image.columns
      · exact absurd ⟨rfl, hc.symm⟩ (hnone (r + 1, c.pred) (Image.mem_pixels.mpr ⟨hrows, by dsimp only; omega⟩))

theorem outside_first (hp : (0, c) ∈ image.pixels) :
    Outside image (makeSafeWindow image.data none (image.row 0) image.columns c) (0, c) := by
  obtain ⟨hrows, hcols⟩ := Image.mem_pixels.mp hp
  dsimp only at hrows hcols
  intro σ hnone
  cases σ with
  | a => rfl
  | b => rfl
  | c => rfl
  | d =>
      rcases Nat.eq_zero_or_eq_succ_pred c with rfl | hc
      · exact replaceOutOfBounds_left image.columns
      · exact absurd ⟨rfl, hc.symm⟩ (hnone (0, c.pred) (Image.mem_pixels.mpr ⟨hrows, by dsimp only; omega⟩))

end Windows

/-! ## 走査 -/

section Run

variable {connectivity : ConnectivityType} {bg : Background} {image : Image UInt8} {limit k r c : ℕ} {s : Scan}
  {p : Pixel} {img : Window UInt8} {lbl : Window ℕ}

theorem Scanned.pixels (h : Scanned connectivity bg.isBg image limit k s) : s.labels.pixels = image.pixels := by
  rw [Image.pixels, h.rows, h.columns, Image.pixels]

/-- 画像の窓が隣を読み、外を `0` とするとき、窓は走査の条件を満たす。 -/
theorem Scanned.view (h : Scanned connectivity bg.isBg image limit k s)
    (hcurrent : img.e = image.pixel p.1 p.2) (htarget : lbl.downRow = s.labels.row p.1 + p.2)
    (hinside : Inside image img p) (houtside : Outside image img p) (hlabel : Inside s.labels lbl p)
    (htop : p.1 = 0 → lbl.b = 0) : View bg.isBg image s.labels p img lbl where
  current := hcurrent
  target := htarget
  foreground σ := by
    constructor
    · intro hfg
      by_contra hnone
      have hzero : img.slot σ = 0 ∨ ∃ q ∈ image.pixels, Slot.At σ p q := by
        by_cases hq : ∃ q ∈ image.pixels, Slot.At σ p q
        · exact Or.inr hq
        · exact Or.inl (houtside σ fun q hq' hat => hq ⟨q, hq', hat⟩)
      rcases hzero with hzero | ⟨q, hq, hat⟩
      · rw [hzero, bg.isBg_zero] at hfg
        exact absurd hfg (by decide)
      · rw [hinside σ q hq hat] at hfg
        exact hnone ⟨q, ⟨hq, hfg⟩, hat⟩
    · rintro ⟨q, ⟨hq, hfg⟩, hat⟩
      rwa [hinside σ q hq hat]
  label σ q hq hat := hlabel σ q (h.pixels ▸ hq.1) hat
  above q hq hat := hlabel .b q (h.pixels ▸ hq) hat
  top := htop

theorem scanFirstRow_scanned (hrows : 0 < image.rows) (h : Scanned connectivity bg.isBg image limit 0 s) :
    Yields (scanFirstRow connectivity bg.isBg image s) (Scanned connectivity bg.isBg image limit image.columns)
      (Overflows connectivity bg.isBg image limit) := by
  apply Yields.foldlM_range _ h
  intro c s hc h
  have hp : (0, c) ∈ image.pixels := Image.mem_pixels.mpr ⟨hrows, hc⟩
  apply h.pass hp (by rw [Image.index, Nat.zero_mul, Nat.zero_add])
  have hlabel := inside_first s.labels c
  rw [h.columns] at hlabel
  exact h.view rfl rfl (inside_first image c) (outside_first hp) hlabel fun _ => rfl

theorem scanRow_scanned (hrow : r + 1 < image.rows) (hcols : 0 < image.columns)
    (h : Scanned connectivity bg.isBg image limit ((r + 1) * image.columns) s) :
    Yields (scanRow connectivity bg.isBg image s r)
      (Scanned connectivity bg.isBg image limit ((r + 1 + 1) * image.columns))
      (Overflows connectivity bg.isBg image limit) := by
  have hpixel {c : ℕ} (hc : c < image.columns) : (r + 1, c) ∈ image.pixels := Image.mem_pixels.mpr ⟨hrow, hc⟩
  simp only [scanRow]
  apply Yields.bind (P := Scanned connectivity bg.isBg image limit ((r + 1) * image.columns + 1))
  · apply h.pass (hpixel hcols) rfl
    exact h.view rfl rfl (inside_checked image r 0) (outside_checked (hpixel hcols)) (inside_unchecked s.labels r 0)
      fun hzero => absurd hzero (Nat.succ_ne_zero r)
  · intro s h
    apply Yields.bind (P := Scanned connectivity bg.isBg image limit
      ((r + 1) * image.columns + (1 + (image.columns - 2))))
    · apply Yields.foldlM_range' (I := fun c => Scanned connectivity bg.isBg image limit ((r + 1) * image.columns + c)) _ h
      intro c s hone hc h
      have hlt : c + 1 < image.columns := by omega
      apply h.pass (hpixel (Nat.lt_of_succ_lt hlt)) rfl
      exact h.view rfl rfl (inside_unchecked image r c)
        (outside_unchecked (hpixel (Nat.lt_of_succ_lt hlt)) hone hlt) (inside_unchecked s.labels r c)
        fun hzero => absurd hzero (Nat.succ_ne_zero r)
    · intro s h
      split_ifs with hone
      · have hlast : image.columns - 1 < image.columns := Nat.sub_lt hcols Nat.one_pos
        have hnext : (r + 1 + 1) * image.columns = (r + 1) * image.columns + (image.columns - 1) + 1 := by
          rw [Nat.succ_mul (r + 1)]
          omega
        rw [show 1 + (image.columns - 2) = image.columns - 1 by omega] at h
        rw [hnext]
        apply h.pass (hpixel hlast) rfl
        have hlabel := inside_checked s.labels r (image.columns - 1)
        rw [h.columns] at hlabel
        exact h.view rfl rfl (inside_checked image r (image.columns - 1)) (outside_checked (hpixel hlast)) hlabel
          fun hzero => absurd hzero (Nat.succ_ne_zero r)
      · have hcols1 : image.columns = 1 := by omega
        have hnext : (r + 1 + 1) * image.columns = (r + 1) * image.columns + (1 + (image.columns - 2)) := by
          rw [Nat.succ_mul (r + 1)]
          omega
        rw [hnext]
        exact h

theorem scanImage_scanned (hrows : 0 < image.rows) (hcols : 0 < image.columns)
    (h : Scanned connectivity bg.isBg image limit 0 s) :
    Yields (scanImage connectivity bg.isBg image s)
      (Scanned connectivity bg.isBg image limit (image.rows * image.columns))
      (Overflows connectivity bg.isBg image limit) := by
  apply (scanFirstRow_scanned hrows h).bind
  intro s h
  have hfinal : image.rows * image.columns = (0 + (image.rows - 1) + 1) * image.columns := by
    rw [Nat.zero_add, Nat.sub_add_cancel hrows]
  rw [hfinal, List.range_eq_range']
  apply Yields.foldlM_range' (I := fun r => Scanned connectivity bg.isBg image limit ((r + 1) * image.columns))
  · intro r s _ hr h
    exact scanRow_scanned (by omega) hcols h
  · rwa [Nat.zero_add, Nat.one_mul]

def labelLimit (connectivity : ConnectivityType) (image : Image UInt8) (label : LabelType) : ℕ :=
  (EquivalenceLabelTrees.reset label image.rows image.columns connectivity).labelsSize

theorem initialScan_scanned (label : LabelType) (buffer : ℤ → ℕ) :
    Scanned connectivity bg.isBg image
      (labelLimit connectivity image label) 0
      (initialScan connectivity image label buffer) where
  rows := rfl
  columns := rfl
  step := rfl
  provisional := by
    have hempty : scannedPixels bg.isBg image 0 = ∅ :=
      Set.eq_empty_of_forall_notMem fun p hp => Nat.not_lt_zero _ hp.2
    rw [hempty]
    exact Provisional.init _ _ _
  background p _ _ hlt := absurd hlt (Nat.not_lt_zero _)
  size := rfl
  labelsSize := rfl
  le := by
    have hmax : 1 ≤ label.max := by cases label <;> decide
    refine le_min (le_min ?_ hmax) hmax
    exact Nat.succ_pos _

end Run

end Ranger.Denoise
