import Ranger.MapServer.MapIo

/-!
# 三値の地図の往復

三値の地図を保存して読み込んだとき、升目の分類が変わらない条件を求める。書き手は分類ごとに決まった灰色を書き、読み手は、YAML に書かれた
閾値とその灰色を比べて分類する。
-/

namespace Ranger.MapServer
open Ranger.Lib

/-! ## 升目の位置 -/

section Index

variable {width height : Nat}

theorem mem_pixels {k : Nat × Nat} : k ∈ pixels width height ↔ k.1 < width ∧ k.2 < height := by
  simp only [pixels, List.mem_flatMap, List.mem_range, List.mem_map]
  constructor
  · rintro ⟨y, hy, x, hx, rfl⟩
    exact ⟨hx, hy⟩
  · rintro ⟨hx, hy⟩
    exact ⟨k.2, hy, k.1, hx, rfl⟩

/-- 画像の行を下から数えると、どの添字にも升目がある。 -/
theorem exists_pixel {i : Nat} (hi : i < width * height) : ∃ k ∈ pixels width height, cellIndex width height k.1 k.2 = i := by
  have hwidth : 0 < width := Nat.pos_of_ne_zero fun h => by simp [h] at hi
  obtain ⟨row, hrow⟩ : ∃ row, i / width = row := ⟨_, rfl⟩
  have hlt : row < height := hrow ▸ Nat.div_lt_of_lt_mul hi
  have hflip : height - (height - 1 - row) - 1 = row := by omega
  refine ⟨(i % width, height - 1 - row), mem_pixels.mpr ⟨Nat.mod_lt i hwidth, by dsimp only; omega⟩, ?_⟩
  rw [cellIndex, hflip, ← hrow, Nat.div_add_mod]

end Index

/-! ## 升目の往復 -/

/-- 値が `v` の升目を保存して読み込んだ値。 -/
def reloadCell (store emit : ℚ → ℚ) (p : SaveParameters) (map : OccupancyGrid) (v : Int) : Int :=
  let (img, lp) := tryWriteMapToFile store emit p map
  let pixel := savePixel p v
  loadCell lp img.matte { pixel with shade := store pixel.shade }

theorem getElem?_reload (store emit : ℚ → ℚ) (p : SaveParameters) (map : OccupancyGrid) {i : Nat} {v : Int}
    (hv : map.data[i]? = some v) :
    (reload store emit p map).data[i]? = some (reloadCell store emit p map v) := by
  have hi : i < map.info.width * map.info.height := map.size_eq ▸ (List.getElem?_eq_some_iff.mp hv).1
  obtain ⟨k, hk, rfl⟩ := exists_pixel hi
  refine (getElem?_writes (g := fun i => reloadCell store emit p map (map.data[i]?.getD 0)) (fun _ _ => rfl) hk ?_).trans ?_
  · rw [List.length_replicate]
    exact hi
  · exact congrArg some (by rw [show map.data[cellIndex map.info.width map.info.height k.1 k.2]? = some v from hv]; rfl)

/-! ## 分類 -/

variable (p : SaveParameters)

/-- 空きの升目。百分率の値を、閾値とそのまま比べる。 -/
def SaveParameters.IsFree (v : Int) : Prop := 0 ≤ v ∧ (v : ℚ) ≤ p.freeThresh * 100

def SaveParameters.IsOccupied (v : Int) : Prop := p.occupiedThresh * 100 ≤ (v : ℚ) ∧ v ≤ 100

/-- 読み込んだ値 `v'` が、元の値 `v` の分類を表す。 -/
structure Classified (v v' : Int) : Prop where
  free : p.IsFree v → v' = occGridFree
  occupied : p.IsOccupied v → v' = occGridOccupied
  unknown : ¬ p.IsFree v → ¬ p.IsOccupied v → v' = occGridUnknown

/-- 大きさが同じで、同じ位置の升目が元の分類を表す。 -/
structure RoundTrip (map map' : OccupancyGrid) : Prop where
  width : map'.info.width = map.info.width
  height : map'.info.height = map.info.height
  cell : ∀ (i : Nat) v, map.data[i]? = some v → ∃ v', map'.data[i]? = some v' ∧ Classified p v v'

/-- 書かれた灰色が、YAML に書かれた閾値のもとで、値が `v` の升目の分類に読まれる。書き手は、百分率に丸めた閾値で灰色を選ぶ。 -/
structure Survives (emit : ℚ → ℚ) (v : Int) : Prop where
  free : p.IsFree v → 1 / 255 < emit p.freeThresh ∧ 1 / 255 ≤ emit p.occupiedThresh
  occupied : p.IsOccupied v → emit p.occupiedThresh < if v ≤ p.freeThreshInt then 1 / 255 else 1
  unknown : ¬ p.IsFree v → ¬ p.IsOccupied v →
    if 0 ≤ v ∧ v ≤ p.freeThreshInt then emit p.freeThresh ≤ 1 / 255 ∧ 1 / 255 ≤ emit p.occupiedThresh
    else if p.occupiedThreshInt ≤ v ∧ v ≤ 100 then emit p.freeThresh ≤ 1 ∧ 1 ≤ emit p.occupiedThresh
    else emit p.freeThresh ≤ 50 / 255 ∧ 50 / 255 ≤ emit p.occupiedThresh

section Classify

variable {p}

theorem rint_mem {q : ℚ} (h0 : 0 ≤ q) (h1 : q ≤ 1) : 0 ≤ rint (q * 100) ∧ rint (q * 100) ≤ 100 := by
  have hnonneg : ¬ q * 100 < 0 := by linarith
  have hle : roundHalfEven (q * 100) ≤ 100 := roundHalfEven_le (by push_cast; linarith)
  rw [rint, if_neg hnonneg]
  omega

/-- 整数との大小は、丸めても逆にならない。 -/
theorem le_rint {q : ℚ} {v : Int} (h0 : 0 ≤ v) (h : (v : ℚ) ≤ q) : v ≤ rint q := by
  lift v to ℕ using h0
  have hnonneg : ¬ q < 0 := not_lt.mpr (le_trans (by positivity) h)
  rw [rint, if_neg hnonneg]
  exact_mod_cast le_roundHalfEven (by exact_mod_cast h)

theorem rint_le {q : ℚ} {v : Int} (h0 : 0 ≤ q) (h : q ≤ v) : rint q ≤ v := by
  have hv : 0 ≤ v := by exact_mod_cast h0.trans h
  lift v to ℕ using hv
  rw [rint, if_neg (not_lt.mpr h0)]
  exact_mod_cast roundHalfEven_le (by exact_mod_cast h)

theorem checkSaveParameters_ok {request : SaveParameters} (h : checkSaveParameters request = .ok p) :
    p.mode = request.mode ∧ 0 ≤ p.freeThresh ∧ p.freeThresh < p.occupiedThresh ∧ p.occupiedThresh ≤ 1 := by
  simp only [checkSaveParameters] at h
  split_ifs at h <;> cases h <;> simp_all

/-- 書き手と読み手を通した、三値の升目の値。灰色 `n / 255` の升目の占有の度合いは `1 - n / 255` である。 -/
theorem reloadCell_trinary {store : ℚ → ℚ} (emit : ℚ → ℚ) (hmode : p.mode = .trinary) (map : OccupancyGrid) (v : Int) {n : ℚ}
    (hshade : (savePixel p v).shade = n / 255) (hstore : store (n / 255) = n / 255) :
    reloadCell store emit p map v =
      if emit p.occupiedThresh < 1 - n / 255 then occGridOccupied
      else if 1 - n / 255 < emit p.freeThresh then occGridFree else occGridUnknown := by
  have hthree : (n / 255 + (n / 255 + n / 255)) / 3 = n / 255 := by ring
  simp [reloadCell, tryWriteMapToFile, loadCell, hmode, pixelShade, hshade, hstore, hthree]

/-- 空きの閾値は占有の閾値より小さいので、どの升目も、両方に分けられることはない。 -/
theorem not_isOccupied_of_isFree (hlt : p.freeThresh < p.occupiedThresh) {v : Int} (hfree : p.IsFree v) :
    ¬ p.IsOccupied v := by
  intro hocc
  have hle := hfree.2
  have hge := hocc.1
  linarith

theorem classified_of_free {v v' : Int} (hfree : p.IsFree v) (hocc : ¬ p.IsOccupied v) :
    Classified p v v' ↔ v' = occGridFree :=
  ⟨fun h => h.free hfree, fun h => ⟨fun _ => h, fun ho => absurd ho hocc, fun hn => absurd hfree hn⟩⟩

theorem classified_of_occupied {v v' : Int} (hfree : ¬ p.IsFree v) (hocc : p.IsOccupied v) :
    Classified p v v' ↔ v' = occGridOccupied :=
  ⟨fun h => h.occupied hocc, fun h => ⟨fun hf => absurd hf hfree, fun _ => h, fun _ hn => absurd hocc hn⟩⟩

theorem classified_of_unknown {v v' : Int} (hfree : ¬ p.IsFree v) (hocc : ¬ p.IsOccupied v) :
    Classified p v v' ↔ v' = occGridUnknown :=
  ⟨fun h => h.unknown hfree hocc, fun h => ⟨fun hf => absurd hf hfree, fun ho => absurd ho hocc, fun _ _ => h⟩⟩

theorem survives_of_free {emit : ℚ → ℚ} {v : Int} (hfree : p.IsFree v) (hocc : ¬ p.IsOccupied v) :
    Survives p emit v ↔ 1 / 255 < emit p.freeThresh ∧ 1 / 255 ≤ emit p.occupiedThresh :=
  ⟨fun h => h.free hfree, fun h => ⟨fun _ => h, fun ho => absurd ho hocc, fun hn => absurd hfree hn⟩⟩

theorem survives_of_occupied {emit : ℚ → ℚ} {v : Int} (hfree : ¬ p.IsFree v) (hocc : p.IsOccupied v) :
    Survives p emit v ↔ emit p.occupiedThresh < if v ≤ p.freeThreshInt then 1 / 255 else 1 :=
  ⟨fun h => h.occupied hocc, fun h => ⟨fun hf => absurd hf hfree, fun _ => h, fun _ hn => absurd hocc hn⟩⟩

theorem survives_of_unknown {emit : ℚ → ℚ} {v : Int} (hfree : ¬ p.IsFree v) (hocc : ¬ p.IsOccupied v) :
    Survives p emit v ↔
      if 0 ≤ v ∧ v ≤ p.freeThreshInt then emit p.freeThresh ≤ 1 / 255 ∧ 1 / 255 ≤ emit p.occupiedThresh
      else if p.occupiedThreshInt ≤ v ∧ v ≤ 100 then emit p.freeThresh ≤ 1 ∧ 1 ≤ emit p.occupiedThresh
      else emit p.freeThresh ≤ 50 / 255 ∧ 50 / 255 ≤ emit p.occupiedThresh :=
  ⟨fun h => h.unknown hfree hocc, fun h => ⟨fun hf => absurd hf hfree, fun ho => absurd ho hocc, fun _ _ => h⟩⟩

section Read

variable {a b : Prop} [Decidable a] [Decidable b]

theorem read_eq_free :
    (if a then occGridOccupied else if b then occGridFree else occGridUnknown) = occGridFree ↔ ¬ a ∧ b := by
  by_cases ha : a <;> by_cases hb : b <;> simp [ha, hb, occGridOccupied, occGridFree, occGridUnknown]

theorem read_eq_occupied :
    (if a then occGridOccupied else if b then occGridFree else occGridUnknown) = occGridOccupied ↔ a := by
  by_cases ha : a <;> by_cases hb : b <;> simp [ha, hb, occGridOccupied, occGridFree, occGridUnknown]

theorem read_eq_unknown :
    (if a then occGridOccupied else if b then occGridFree else occGridUnknown) = occGridUnknown ↔ ¬ a ∧ ¬ b := by
  by_cases ha : a <;> by_cases hb : b <;> simp [ha, hb, occGridOccupied, occGridFree, occGridUnknown]

end Read

theorem savePixel_low (hmode : p.mode = .trinary) (hle : p.freeThreshInt ≤ 100) {v : Int} (h0 : 0 ≤ v)
    (hlow : v ≤ p.freeThreshInt) : (savePixel p v).shade = 254 / 255 := by
  have hin : ¬ (v < 0 ∨ 100 < v) := by omega
  simp only [savePixel, hmode, if_neg hin, if_pos hlow]

theorem savePixel_high (hmode : p.mode = .trinary) (hnonneg : 0 ≤ p.occupiedThreshInt) {v : Int}
    (habove : ¬ v ≤ p.freeThreshInt) (hhigh : p.occupiedThreshInt ≤ v) (h1 : v ≤ 100) : (savePixel p v).shade = 0 / 255 := by
  have hin : ¬ (v < 0 ∨ 100 < v) := by omega
  simp only [savePixel, hmode, if_neg hin, if_neg habove, if_pos hhigh]

theorem savePixel_between (hmode : p.mode = .trinary) {v : Int} (hlow : ¬ (0 ≤ v ∧ v ≤ p.freeThreshInt))
    (hhigh : ¬ (p.occupiedThreshInt ≤ v ∧ v ≤ 100)) : (savePixel p v).shade = 205 / 255 := by
  by_cases hin : v < 0 ∨ 100 < v
  · simp only [savePixel, hmode, if_pos hin]
  · have habove : ¬ v ≤ p.freeThreshInt := fun h => hlow ⟨by omega, h⟩
    have hbelow : ¬ p.occupiedThreshInt ≤ v := fun h => hhigh ⟨h, by omega⟩
    simp only [savePixel, hmode, if_neg hin, if_neg habove, if_neg hbelow]

/-- 升目の分類が往復で変わらないのは、書かれた灰色が元の分類に読まれるとき、またそのときに限る。 -/
theorem classified_reloadCell_iff {store emit : ℚ → ℚ} (hstore : ∀ n : Nat, n ≤ 255 → store (n / 255) = n / 255)
    (hmode : p.mode = .trinary) (h0 : 0 ≤ p.freeThresh) (hlt : p.freeThresh < p.occupiedThresh)
    (h1 : p.occupiedThresh ≤ 1) (map : OccupancyGrid) (v : Int) :
    Classified p v (reloadCell store emit p map v) ↔ Survives p emit v := by
  have hfreeInt := rint_mem h0 (hlt.le.trans h1)
  have hoccInt := rint_mem (h0.trans hlt.le) h1
  have hone : (1 : ℚ) - 254 / 255 = 1 / 255 := by norm_num
  have hwhole : (1 : ℚ) - 0 / 255 = 1 := by norm_num
  have hfifty : (1 : ℚ) - 205 / 255 = 50 / 255 := by norm_num
  have hlow (hv : 0 ≤ v) (hle : v ≤ p.freeThreshInt) :=
    reloadCell_trinary emit hmode map v (savePixel_low hmode hfreeInt.2 hv hle) (hstore 254 (by decide))
  have hhigh (hn : ¬ v ≤ p.freeThreshInt) (hge : p.occupiedThreshInt ≤ v) (hv : v ≤ 100) :=
    reloadCell_trinary emit hmode map v (savePixel_high hmode hoccInt.1 hn hge hv) (by simpa using hstore 0 (by decide))
  by_cases hfree : p.IsFree v
  · -- 空きの升目は、丸めた閾値以下である。
    have hocc := not_isOccupied_of_isFree hlt hfree
    rw [classified_of_free hfree hocc, survives_of_free hfree hocc, hlow hfree.1 (le_rint hfree.1 hfree.2), read_eq_free,
      hone, not_lt, and_comm]
  · by_cases hocc : p.IsOccupied v
    · have hge : p.occupiedThreshInt ≤ v := rint_le (by linarith) hocc.1
      rw [classified_of_occupied hfree hocc, survives_of_occupied hfree hocc]
      split_ifs with hle
      · rw [hlow (hoccInt.1.trans hge) hle, read_eq_occupied, hone]
      · rw [hhigh hle hge hocc.2, read_eq_occupied, hwhole]
    · rw [classified_of_unknown hfree hocc, survives_of_unknown hfree hocc]
      split_ifs with hle hge
      · rw [hlow hle.1 hle.2, read_eq_unknown, hone, not_lt, not_lt, and_comm]
      · have hn : ¬ v ≤ p.freeThreshInt := fun h => hle ⟨hoccInt.1.trans hge.1, h⟩
        rw [hhigh hn hge.1 hge.2, read_eq_unknown, hwhole, not_lt, not_lt, and_comm]
      · rw [reloadCell_trinary emit hmode map v (savePixel_between hmode hle hge) (hstore 205 (by decide)), read_eq_unknown,
          hfifty, not_lt, not_lt, and_comm]

end Classify

/-! ## 地図の往復 -/

/-- 幅が升目の数の、一行の地図。 -/
def oneRow (data : List Int) : OccupancyGrid := ⟨⟨data.length, 1, 1, 0, 0, 0⟩, data, (Nat.mul_one _).symm⟩

end Ranger.MapServer
