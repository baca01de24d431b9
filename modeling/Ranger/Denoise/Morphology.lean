import Ranger.Denoise.Removal

/-!
# 画像の膨張

`nav2_costmap_2d` の `denoise/image_processing.hpp` の `dilate`。三行の形を一行ずつ画像に重ね、画素ごとに重なった値を一つにまとめる。
-/

namespace Ranger.Denoise
open Ranger.Lib

def applyShape (value mask : UInt8) : UInt8 := value &&& mask

/-- 出力の画素を書き換える。`overlay` は、形を重ねた三つの値である。 -/
def touch (touchFn : UInt8 → List UInt8 → UInt8) (output : Image UInt8) (r c : ℕ) (overlay : List UInt8) : Image UInt8 :=
  output.set (output.row r + c) (touchFn (output.pixel r c) overlay)

section ProbeRows

variable (input : Image UInt8) (shape : ℕ → UInt8) (touchFn : UInt8 → List UInt8 → UInt8)

/-- 入力の行 `r` に形を重ね、出力の行 `r'` に書く。画像の外の列は `0` とする。 -/
def probeRow (r r' : ℕ) (output : Image UInt8) : Image UInt8 :=
  if input.columns = 1 then
    touch touchFn output r' 0 [0, applyShape (input.pixel r 0) (shape 1), 0]
  else
    let last := input.columns - 1
    let output := touch touchFn output r' 0
      [0, applyShape (input.pixel r 0) (shape 1), applyShape (input.pixel r 1) (shape 2)]
    let output := (List.range' 1 (last - 1)).foldl (fun output c => touch touchFn output r' c
      [applyShape (input.pixel r (c - 1)) (shape 0), applyShape (input.pixel r c) (shape 1),
        applyShape (input.pixel r (c + 1)) (shape 2)]) output
    touch touchFn output r' last
      [applyShape (input.pixel r (last - 1)) (shape 0), applyShape (input.pixel r last) (shape 1), 0]

def probeRows (firstInputRow firstOutputRow : ℕ) (output : Image UInt8) : Image UInt8 :=
  (List.range (input.rows - max firstInputRow firstOutputRow)).foldl
    (fun output i => probeRow input shape touchFn (i + firstInputRow) (i + firstOutputRow) output) output

end ProbeRows

section MorphologyOperation

variable (aggregate : List UInt8 → UInt8)

def setFn (_ : UInt8) (lst : List UInt8) : UInt8 := aggregate lst

def updateFn (res : UInt8) (lst : List UInt8) : UInt8 := aggregate [res, aggregate lst, 0]

/-- 形の中央の行で書き、上の行と下の行で書き直す。 -/
def morphologyOperation (input output shape : Image UInt8) : Except Exception (Image UInt8) :=
  if input.rows ≠ output.rows ∨ input.columns ≠ output.columns then
    throw (.logicError "morphologyOperation: the sizes of the input and output images are different")
  else if shape.rows ≠ 3 ∨ shape.columns ≠ 3 then
    throw (.logicError "morphologyOperation: wrong shape size")
  else if input.isEmpty then pure output
  else
    let output := probeRows input (shape.pixel 1) (setFn aggregate) 0 0 output
    if 1 < input.rows then
      let output := probeRows input (shape.pixel 0) (updateFn aggregate) 0 1 output
      pure (probeRows input (shape.pixel 2) (updateFn aggregate) 1 0 output)
    else pure output

end MorphologyOperation

/-- 形の一行。 -/
def shapeRow (left center right : UInt8) : ℕ → UInt8
  | 0 => left
  | 1 => center
  | _ => right

theorem shape_fits : 3 * 3 < 2 ^ 63 := by decide

/-- 隣の画素を使うところが `255` の、三行三列の形。 -/
def createShape (connectivity : ConnectivityType) : Image UInt8 where
  rows := 3
  columns := 3
  step := 3
  data v :=
    let buffer : List UInt8 := match connectivity with
      | .way8 => [255, 255, 255, 255, 0, 255, 255, 255, 255]
      | .way4 => [0, 255, 0, 255, 0, 255, 0, 255, 0]
    buffer.getD v.toNat 0
  columns_le_step := Nat.le_refl _
  fits := shape_fits

def dilate (aggregate : List UInt8 → UInt8) (connectivity : ConnectivityType) (input output : Image UInt8) :
    Except Exception (Image UInt8) :=
  morphologyOperation aggregate input output (createShape connectivity)

/-! ## 一行の走査 -/

section Overlay

variable {input : Image UInt8} {shape : ℕ → UInt8} {touchFn : UInt8 → List UInt8 → UInt8}

/-- 画素に重なる三つの値。 -/
def overlay (input : Image UInt8) (shape : ℕ → UInt8) (r c : ℕ) : List UInt8 :=
  [if c = 0 then 0 else applyShape (input.pixel r (c - 1)) (shape 0), applyShape (input.pixel r c) (shape 1),
    if c + 1 < input.columns then applyShape (input.pixel r (c + 1)) (shape 2) else 0]

/-- 端の列の場合分けは、どの列でも同じ走査になる。 -/
theorem probeRow_eq (hcols : 0 < input.columns) (r r' : ℕ) (output : Image UInt8) :
    probeRow input shape touchFn r r' output =
      (List.range input.columns).foldl (fun output c => touch touchFn output r' c (overlay input shape r c)) output := by
  unfold probeRow
  split_ifs with hone
  · rw [hone, List.range_one, List.foldl_cons, List.foldl_nil, overlay, if_pos rfl, if_neg (by omega)]
  · obtain ⟨n, hn⟩ : ∃ n, input.columns = n + 2 := ⟨input.columns - 2, by omega⟩
    have hfirst : overlay input shape r 0 =
        [0, applyShape (input.pixel r 0) (shape 1), applyShape (input.pixel r 1) (shape 2)] := by
      rw [overlay, if_pos rfl, if_pos (by omega)]
    have hlast : overlay input shape r (n + 1) =
        [applyShape (input.pixel r n) (shape 0), applyShape (input.pixel r (n + 1)) (shape 1), 0] := by
      rw [overlay, if_neg (Nat.succ_ne_zero n), if_neg (by omega), Nat.add_sub_cancel]
    have hmiddle (output : Image UInt8) :
        (List.range' 1 n).foldl (fun output c => touch touchFn output r' c
          [applyShape (input.pixel r (c - 1)) (shape 0), applyShape (input.pixel r c) (shape 1),
            applyShape (input.pixel r (c + 1)) (shape 2)]) output =
        (List.range' 1 n).foldl (fun output c => touch touchFn output r' c (overlay input shape r c)) output := by
      apply List.foldl_ext
      intro output c hc
      rw [List.mem_range'_1] at hc
      rw [overlay, if_neg (by omega), if_pos (by omega)]
    have hrange : List.range (n + 2) = 0 :: List.range' 1 n ++ [n + 1] := by
      rw [List.range_eq_range', List.range'_succ, List.range'_concat, Nat.one_mul, Nat.add_comm 1 n, List.cons_append]
    rw [hn, hrange, List.cons_append, List.foldl_cons, List.foldl_append, hfirst, ← hmiddle, List.foldl_cons,
      List.foldl_nil, hlast]
    rfl

theorem probeRows_eq (hcols : 0 < input.columns) (firstInputRow firstOutputRow : ℕ) (output : Image UInt8) :
    probeRows input shape touchFn firstInputRow firstOutputRow output =
      Image.scanPixels (input.rows - max firstInputRow firstOutputRow) input.columns
        (fun output i c => touch touchFn output (i + firstOutputRow) c (overlay input shape (i + firstInputRow) c))
        output := by
  unfold probeRows Image.scanPixels
  apply List.foldl_ext
  intro output i _
  exact probeRow_eq hcols _ _ output

/-- 順番が `k` の手前まで形を重ねた出力。 -/
structure Probed (input output : Image UInt8) (shape : ℕ → UInt8) (touchFn : UInt8 → List UInt8 → UInt8)
    (firstInputRow firstOutputRow k : ℕ) (target : Image UInt8) : Prop where
  rows : target.rows = output.rows
  columns : target.columns = output.columns
  step : target.step = output.step
  pixel : ∀ p ∈ output.pixels, target.pixel p.1 p.2 =
    if firstOutputRow ≤ p.1 ∧ (p.1 - firstOutputRow) * input.columns + p.2 < k then
      touchFn (output.pixel p.1 p.2) (overlay input shape (p.1 - firstOutputRow + firstInputRow) p.2)
    else output.pixel p.1 p.2

theorem probeRows_probed {output : Image UInt8} (shape : ℕ → UInt8) (touchFn : UInt8 → List UInt8 → UInt8)
    (hrows : input.rows = output.rows) (hcols : input.columns = output.columns) (hpos : 0 < input.columns)
    (firstInputRow firstOutputRow : ℕ) :
    Probed input output shape touchFn firstInputRow firstOutputRow
      ((input.rows - max firstInputRow firstOutputRow) * input.columns)
      (probeRows input shape touchFn firstInputRow firstOutputRow output) := by
  rw [probeRows_eq hpos]
  apply scanPixels_inv
  · intro i c target hi hc h
    have hp : (i + firstOutputRow, c) ∈ output.pixels := by
      rw [Image.mem_pixels, ← hrows, ← hcols]
      exact ⟨show i + firstOutputRow < input.rows by omega, hc⟩
    have hbound {q : Pixel} (hq : q ∈ output.pixels) : q.2 < target.step := by
      rw [h.step]
      exact (Image.mem_pixels.mp hq).2.trans_le output.columns_le_step
    refine ⟨h.rows, h.columns, h.step, fun q hq => ?_⟩
    have hqc : q.2 < input.columns := by
      rw [hcols]
      exact (Image.mem_pixels.mp hq).2
    rw [touch, Image.pixel_set target (hbound hp) (hbound hq)]
    split_ifs with heq hlate hlate
    · obtain ⟨hrow, hcol⟩ := heq
      rw [h.pixel _ hp, if_neg (by simp), hrow, hcol, Nat.add_sub_cancel]
    · obtain ⟨hrow, hcol⟩ := heq
      refine absurd ⟨?_, ?_⟩ hlate
      · omega
      · rw [hrow, hcol, Nat.add_sub_cancel]
        exact Nat.lt_succ_self _
    · obtain ⟨hle, hlt⟩ := hlate
      have hne : (q.1 - firstOutputRow) * input.columns + q.2 ≠ i * input.columns + c := by
        intro hidx
        obtain ⟨hrow, hcol⟩ := address_inj hqc hc hidx
        exact heq ⟨by omega, hcol⟩
      rw [h.pixel q hq, if_pos ⟨hle, by omega⟩]
    · rw [h.pixel q hq, if_neg]
      rintro ⟨hle, hlt⟩
      exact hlate ⟨hle, Nat.lt_succ_of_lt hlt⟩
  · exact ⟨rfl, rfl, rfl, fun p _ => by rw [if_neg (by simp)]⟩

theorem Probed.pixel_full {output target : Image UInt8} {firstInputRow firstOutputRow n : ℕ}
    (hcols : input.columns = output.columns)
    (h : Probed input output shape touchFn firstInputRow firstOutputRow (n * input.columns) target) {p : Pixel}
    (hp : p ∈ output.pixels) :
    target.pixel p.1 p.2 =
      if firstOutputRow ≤ p.1 ∧ p.1 - firstOutputRow < n then
        touchFn (output.pixel p.1 p.2) (overlay input shape (p.1 - firstOutputRow + firstInputRow) p.2)
      else output.pixel p.1 p.2 := by
  have hc : p.2 < input.columns := by
    rw [hcols]
    exact (Image.mem_pixels.mp hp).2
  have hiff : (p.1 - firstOutputRow) * input.columns + p.2 < n * input.columns ↔ p.1 - firstOutputRow < n := by
    constructor
    · intro hlt
      by_contra hge
      have hle := Nat.mul_le_mul_right input.columns (Nat.le_of_not_lt hge)
      omega
    · intro hlt
      exact Nat.lt_of_lt_of_le (Nat.add_lt_add_left hc _) (row_end_le hlt)
  rw [h.pixel p hp]
  simp only [hiff]

end Overlay

/-! ## 値のまとめ -/

/-- `x` は、列の値の最大で、列が空か `0` だけのとき `0` である。 -/
structure Greatest (l : List UInt8) (x : UInt8) : Prop where
  upper : ∀ y ∈ l, y ≤ x
  attained : x = 0 ∨ x ∈ l

/-- `aggregate` は、三つの値を `f` で直した後の最大を返す。 -/
structure Aggregates (f : UInt8 → UInt8) (aggregate : List UInt8 → UInt8) : Prop where
  zero : f 0 = 0
  idem : ∀ x, f (f x) = f x
  greatest : ∀ a b c, Greatest [f a, f b, f c] (aggregate [a, b, c])

section Aggregate

variable {f : UInt8 → UInt8} {aggregate : List UInt8 → UInt8} {l : List UInt8} {x : UInt8}

theorem Aggregates.fixed (hagg : Aggregates f aggregate) (h : Greatest (l.map f) x) : f x = x := by
  rcases h.attained with rfl | hmem
  · exact hagg.zero
  · obtain ⟨y, -, rfl⟩ := List.mem_map.mp hmem
    exact hagg.idem y

/-- 書き直しの後は、前の値と新しい三つの値を合わせた最大になる。 -/
theorem Aggregates.update (hagg : Aggregates f aggregate) (h : Greatest (l.map f) x) (a b c : UInt8) :
    Greatest ((l ++ [a, b, c]).map f) (updateFn aggregate x [a, b, c]) := by
  have hnew : Greatest ([a, b, c].map f) (aggregate [a, b, c]) := hagg.greatest a b c
  have hall := hagg.greatest x (aggregate [a, b, c]) 0
  rw [hagg.fixed h, hagg.fixed hnew, hagg.zero] at hall
  rw [updateFn, List.map_append]
  constructor
  · intro y hy
    rcases List.mem_append.mp hy with hy | hy
    · exact UInt8.le_trans (h.upper y hy) (hall.upper x List.mem_cons_self)
    · exact UInt8.le_trans (hnew.upper y hy) (hall.upper _ (List.mem_cons_of_mem _ List.mem_cons_self))
  · rcases hall.attained with hzero | hmem
    · exact Or.inl hzero
    · rcases List.mem_cons.mp hmem with heq | hmem
      · rw [heq]
        exact h.attained.imp id (List.mem_append_left _)
      · rcases List.mem_cons.mp hmem with heq | hmem
        · rw [heq]
          exact hnew.attained.imp id (List.mem_append_right _)
        · exact Or.inl (List.mem_singleton.mp hmem)

end Aggregate

/-! ## 形の全体 -/

section Cover

variable {input output shape : Image UInt8} {f : UInt8 → UInt8} {aggregate : List UInt8 → UInt8} {p q : Pixel} {x : UInt8}

/-- 形の一行で書き直した後。 -/
theorem Probed.greatest {row : ℕ → UInt8} {target : Image UInt8} {firstInputRow firstOutputRow n : ℕ} {l : List UInt8}
    (hagg : Aggregates f aggregate) (hcols : input.columns = output.columns)
    (h : Probed input output row (updateFn aggregate) firstInputRow firstOutputRow (n * input.columns) target)
    (hp : p ∈ output.pixels) (hl : Greatest (l.map f) (output.pixel p.1 p.2)) :
    Greatest ((l ++ if firstOutputRow ≤ p.1 ∧ p.1 - firstOutputRow < n then
      overlay input row (p.1 - firstOutputRow + firstInputRow) p.2 else []).map f) (target.pixel p.1 p.2) := by
  rw [h.pixel_full hcols hp]
  by_cases hrow : firstOutputRow ≤ p.1 ∧ p.1 - firstOutputRow < n
  · rw [if_pos hrow, if_pos hrow]
    exact hagg.update hl _ _ _
  · rwa [if_neg hrow, if_neg hrow, List.append_nil]

/-- 画素の周りの九つの値に形を重ねた値。画像の外の行は現れない。 -/
def cover (input shape : Image UInt8) (p : Pixel) : List UInt8 :=
  overlay input (shape.pixel 1) p.1 p.2 ++
    ((if 0 < p.1 then overlay input (shape.pixel 0) (p.1 - 1) p.2 else []) ++
      if p.1 + 1 < input.rows then overlay input (shape.pixel 2) (p.1 + 1) p.2 else [])

theorem morphologyOperation_greatest (shape : Image UInt8) (hagg : Aggregates f aggregate) (hrows : input.rows = output.rows)
    (hcols : input.columns = output.columns) (hshape : shape.rows = 3 ∧ shape.columns = 3) :
    ∃ output', morphologyOperation aggregate input output shape = .ok output' ∧ output'.rows = output.rows ∧
      output'.columns = output.columns ∧
      ∀ p ∈ input.pixels, Greatest ((cover input shape p).map f) (output'.pixel p.1 p.2) := by
  have hsame : output.pixels = input.pixels := by rw [Image.pixels, Image.pixels, hrows, hcols]
  rw [morphologyOperation, if_neg (by simp [hrows, hcols]), if_neg (by simp [hshape])]
  by_cases hempty : input.isEmpty = true
  · rw [if_pos hempty]
    refine ⟨output, rfl, rfl, rfl, fun p hp => ?_⟩
    rw [Image.mem_pixels] at hp
    simp only [Image.isEmpty, Bool.or_eq_true, beq_iff_eq] at hempty
    omega
  · rw [if_neg hempty]
    have hpos : 0 < input.rows ∧ 0 < input.columns := by
      simp only [Image.isEmpty, Bool.or_eq_true, beq_iff_eq] at hempty
      omega
    have hcentral := probeRows_probed (shape.pixel 1) (setFn aggregate) hrows hcols hpos.2 0 0
    have hfirst {p : Pixel} (hp : p ∈ input.pixels) :
        Greatest ((overlay input (shape.pixel 1) p.1 p.2).map f)
          ((probeRows input (shape.pixel 1) (setFn aggregate) 0 0 output).pixel p.1 p.2) := by
      rw [hcentral.pixel_full hcols (hsame ▸ hp), if_pos ⟨Nat.zero_le _, (Image.mem_pixels.mp hp).1⟩]
      exact hagg.greatest _ _ _
    by_cases hone : 1 < input.rows
    · simp only [if_pos hone]
      have hrows₁ := hrows.trans hcentral.rows.symm
      have hcols₁ := hcols.trans hcentral.columns.symm
      have htop := probeRows_probed (shape.pixel 0) (updateFn aggregate) hrows₁ hcols₁ hpos.2 0 1
      have hrows₂ := hrows₁.trans htop.rows.symm
      have hcols₂ := hcols₁.trans htop.columns.symm
      have hbottom := probeRows_probed (shape.pixel 2) (updateFn aggregate) hrows₂ hcols₂ hpos.2 1 0
      refine ⟨_, rfl, hbottom.rows.trans (htop.rows.trans hcentral.rows),
        hbottom.columns.trans (htop.columns.trans hcentral.columns), fun p hp => ?_⟩
      have hmem {image : Image UInt8} (hr : input.rows = image.rows) (hc : input.columns = image.columns) :
          p ∈ image.pixels := by rwa [Image.mem_pixels, ← hr, ← hc, ← Image.mem_pixels]
      have hcover := hbottom.greatest hagg hcols₂ (hmem hrows₂ hcols₂)
        (htop.greatest hagg hcols₁ (hmem hrows₁ hcols₁) (hfirst hp))
      have hrow := (Image.mem_pixels.mp hp).1
      have habove : 1 ≤ p.1 ∧ p.1 - 1 < input.rows - max 0 1 ↔ 0 < p.1 := by omega
      have hbelow : 0 ≤ p.1 ∧ p.1 < input.rows - max 1 0 ↔ p.1 + 1 < input.rows := by omega
      simp only [habove, hbelow, Nat.add_zero, Nat.sub_zero, List.append_assoc] at hcover
      exact hcover
    · rw [if_neg hone]
      refine ⟨_, rfl, hcentral.rows, hcentral.columns, fun p hp => ?_⟩
      have hrow := (Image.mem_pixels.mp hp).1
      rw [cover, if_neg (by omega), if_neg (by omega), List.append_nil, List.append_nil]
      exact hfirst hp

theorem applyShape_use (x : UInt8) : applyShape x 255 = x := by
  apply UInt8.toNat_inj.mp
  show x.toNat &&& 255 = x.toNat
  have hlt : x.toNat < 2 ^ 8 := x.toNat_lt
  rw [show 255 = 2 ^ 8 - 1 from rfl, Nat.and_two_pow_sub_one_eq_mod, Nat.mod_eq_of_lt hlt]

theorem applyShape_ignore (x : UInt8) : applyShape x 0 = 0 := by
  apply UInt8.toNat_inj.mp
  exact Nat.and_zero _

theorem createShape_pixel (connectivity : ConnectivityType) : ∀ i < 3, ∀ j < 3,
    (createShape connectivity).pixel i j = if Neighbour connectivity (i, j) (1, 1) then 255 else 0 := by
  cases connectivity <;> decide

theorem neighbour_shift (connectivity : ConnectivityType) {i j : ℕ} (hrow : q.1 + 1 = p.1 + i) (hcol : q.2 + 1 = p.2 + j) :
    Neighbour connectivity (i, j) (1, 1) ↔ Neighbour connectivity p q := by
  obtain ⟨r, c⟩ := p
  obtain ⟨r', c'⟩ := q
  cases connectivity <;> simp only [Neighbour, ne_eq, Prod.mk.injEq] at hrow hcol ⊢ <;> omega

/-- 形を重ねると、隣の画素の値だけが残る。 -/
theorem applyShape_createShape (connectivity : ConnectivityType) {i j : ℕ} (hi : i < 3) (hj : j < 3)
    (hrow : q.1 + 1 = p.1 + i) (hcol : q.2 + 1 = p.2 + j) (x : UInt8) :
    applyShape x ((createShape connectivity).pixel i j) = if Neighbour connectivity p q then x else 0 := by
  rw [createShape_pixel connectivity i hi j hj]
  simp only [neighbour_shift connectivity hrow hcol]
  split_ifs
  · exact applyShape_use x
  · exact applyShape_ignore x

section Row

variable {connectivity : ConnectivityType} {i r : ℕ}

theorem masked_neighbour {j : ℕ} (hi : i < 3) (hj : j < 3) (hrow : q.1 + 1 = p.1 + i) (hcol : q.2 + 1 = p.2 + j)
    (hq : q ∈ input.pixels)
    (hx : x = applyShape (input.pixel q.1 q.2) ((createShape connectivity).pixel i j)) :
    x = 0 ∨ ∃ q ∈ input.pixels, Neighbour connectivity p q ∧ x = input.pixel q.1 q.2 := by
  rw [applyShape_createShape connectivity hi hj hrow hcol] at hx
  split_ifs at hx with hnear
  · exact Or.inr ⟨q, hq, hnear, hx⟩
  · exact Or.inl hx

/-- 行 `r` に形の行 `i` を重ねた値は、`0` か、その行の隣の画素の値である。 -/
theorem overlay_neighbour (hi : i < 3) (hr : r < input.rows) (hrow : r + 1 = p.1 + i) (hp : p ∈ input.pixels)
    (hx : x ∈ overlay input ((createShape connectivity).pixel i) r p.2) :
    x = 0 ∨ ∃ q ∈ input.pixels, Neighbour connectivity p q ∧ x = input.pixel q.1 q.2 := by
  have hcol := (Image.mem_pixels.mp hp).2
  simp only [overlay, List.mem_cons, List.not_mem_nil, or_false] at hx
  rcases hx with hx | hx | hx
  · split_ifs at hx with hzero
    · exact Or.inl hx
    · exact masked_neighbour (q := (r, p.2 - 1)) hi (by decide : 0 < 3) hrow (by show p.2 - 1 + 1 = p.2 + 0; omega)
        (Image.mem_pixels.mpr ⟨hr, by show p.2 - 1 < input.columns; omega⟩) hx
  · exact masked_neighbour (q := (r, p.2)) hi (by decide : 1 < 3) hrow rfl (Image.mem_pixels.mpr ⟨hr, hcol⟩) hx
  · split_ifs at hx with hlast
    · exact masked_neighbour (q := (r, p.2 + 1)) hi (by decide : 2 < 3) hrow rfl (Image.mem_pixels.mpr ⟨hr, hlast⟩) hx
    · exact Or.inl hx

theorem neighbour_mem_overlay (hi : i < 3) (hrow : q.1 + 1 = p.1 + i) (hq : q ∈ input.pixels)
    (hnear : Neighbour connectivity p q) :
    input.pixel q.1 q.2 ∈ overlay input ((createShape connectivity).pixel i) q.1 p.2 := by
  have hcol := (Image.mem_pixels.mp hq).2
  have hmask {j : ℕ} (hj : j < 3) (hc : q.2 + 1 = p.2 + j) :
      applyShape (input.pixel q.1 q.2) ((createShape connectivity).pixel i j) = input.pixel q.1 q.2 := by
    rw [applyShape_createShape connectivity hi hj hrow hc, if_pos hnear]
  have hrange : q.2 + 1 = p.2 ∨ q.2 = p.2 ∨ q.2 = p.2 + 1 := by
    cases connectivity <;> simp only [Neighbour] at hnear <;> omega
  simp only [overlay, List.mem_cons, List.not_mem_nil, or_false]
  rcases hrange with hc | hc | hc
  · left
    rw [if_neg (by omega), ← hc, Nat.add_sub_cancel, hmask (by decide) (by omega)]
  · right; left
    rw [← hc, hmask (by decide) (by omega)]
  · right; right
    rw [if_pos (by omega), ← hc, hmask (by decide) (by omega)]

end Row

theorem mem_cover {connectivity : ConnectivityType} (hp : p ∈ input.pixels)
    (hx : x ∈ cover input (createShape connectivity) p) :
    x = 0 ∨ ∃ q ∈ input.pixels, Neighbour connectivity p q ∧ x = input.pixel q.1 q.2 := by
  have hrow := (Image.mem_pixels.mp hp).1
  rcases List.mem_append.mp hx with hx | hx
  · exact overlay_neighbour (by decide) hrow rfl hp hx
  · rcases List.mem_append.mp hx with hx | hx
    · split_ifs at hx with habove
      · exact overlay_neighbour (by decide) (by omega) (by omega) hp hx
      · exact absurd hx List.not_mem_nil
    · split_ifs at hx with hbelow
      · exact overlay_neighbour (by decide) hbelow rfl hp hx
      · exact absurd hx List.not_mem_nil

theorem neighbour_mem_cover {connectivity : ConnectivityType} (hq : q ∈ input.pixels)
    (hnear : Neighbour connectivity p q) : input.pixel q.1 q.2 ∈ cover input (createShape connectivity) p := by
  have hrange : q.1 + 1 = p.1 ∨ q.1 = p.1 ∨ q.1 = p.1 + 1 := by
    cases connectivity <;> simp only [Neighbour] at hnear <;> omega
  have hrow := (Image.mem_pixels.mp hq).1
  simp only [cover, List.mem_append]
  rcases hrange with hr | hr | hr
  · right; left
    rw [if_pos (by omega), ← hr, Nat.add_sub_cancel]
    exact neighbour_mem_overlay (by decide) (by omega) hq hnear
  · left
    rw [← hr]
    exact neighbour_mem_overlay (by decide) (by omega) hq hnear
  · right; right
    rw [if_pos (by omega), ← hr]
    exact neighbour_mem_overlay (by decide) (by omega) hq hnear

/-- `dilate` は、どの画素でも、隣の画素の値の最大を求める。 -/
theorem dilate_greatest {connectivity : ConnectivityType} (hagg : Aggregates f aggregate)
    (hrows : input.rows = output.rows) (hcols : input.columns = output.columns) :
    ∃ output', dilate aggregate connectivity input output = .ok output' ∧ output'.rows = output.rows ∧
      output'.columns = output.columns ∧
      ∀ p ∈ input.pixels,
        (∀ q ∈ input.pixels, Neighbour connectivity p q → f (input.pixel q.1 q.2) ≤ output'.pixel p.1 p.2) ∧
        (output'.pixel p.1 p.2 = 0 ∨
          ∃ q ∈ input.pixels, Neighbour connectivity p q ∧ output'.pixel p.1 p.2 = f (input.pixel q.1 q.2)) := by
  obtain ⟨output', heq, hrows', hcols', hgreatest⟩ :=
    morphologyOperation_greatest (createShape connectivity) hagg hrows hcols ⟨rfl, rfl⟩
  refine ⟨output', heq, hrows', hcols', fun p hp => ⟨fun q hq hnear => ?_, ?_⟩⟩
  · exact (hgreatest p hp).upper _ (List.mem_map_of_mem (neighbour_mem_cover hq hnear))
  · refine (hgreatest p hp).attained.elim Or.inl fun hmem => ?_
    obtain ⟨x, hx, heq⟩ := List.mem_map.mp hmem
    rcases mem_cover hp hx with rfl | ⟨q, hq, hnear, rfl⟩
    · exact Or.inl (heq.symm.trans hagg.zero)
    · exact Or.inr ⟨q, hq, hnear, heq.symm⟩

end Cover

end Ranger.Denoise
