import Ranger.Lib.Digits
import Ranger.MapServer.MapIo

/-!
# 保存した地図の原点

`YAML::Precision(3)` は、数を有効数字三桁で書く。原点の誤差は座標の大きさとともに増え、許される誤差は解像度で決まる。
-/

namespace Ranger.MapServer
open Ranger.Lib

variable {emit store : ℚ → ℚ} {p : SaveParameters} {map : OccupancyGrid} {resolution x : ℚ}

/-- `YAML::Precision(3)` の書き出し。 -/
abbrev Precision3 (emit : ℚ → ℚ) : Prop := NearestDigits 3 emit

/-- 座標が、三桁目の単位の倍数から半升以内にある。 -/
def NearThirdDigit (resolution x : ℚ) : Prop := ∃ k : ℤ, |x - k * digitUnit 3 x| ≤ resolution / 2

/-- 読み込んだ地図は、解像度が同じで、原点はどちらの軸でも半升以内にある。 -/
structure InPlace (map map' : OccupancyGrid) : Prop where
  resolution : map'.info.resolution = map.info.resolution
  originX : |map'.info.originX - map.info.originX| ≤ map.info.resolution / 2
  originY : |map'.info.originY - map.info.originY| ≤ map.info.resolution / 2

/-- 三桁目の単位が升より大きくなければ、どの座標でもよい。 -/
theorem nearThirdDigit_of_unit_le (h : digitUnit 3 x ≤ resolution) : NearThirdDigit resolution x := by
  obtain ⟨k, hk⟩ := exists_multiple_half 3 x
  exact ⟨k, hk.trans (by linarith)⟩

/-- 三桁目の単位が升より大きい桁には、誤差が半升を超える座標がある。 -/
theorem exists_not_nearThirdDigit {a : ℤ} (h : resolution < 10 ^ a) :
    ¬ NearThirdDigit resolution (10 ^ (a + 2) + 10 ^ a / 2) := by
  have hten : (10 : ℚ) ≠ 0 := by norm_num
  have hunit : (0 : ℚ) < 10 ^ a := zpow_pos (by norm_num) a
  have hsum : (10 : ℚ) ^ (a + 2) + 10 ^ a / 2 = 10 ^ a * (201 / 2) := by
    rw [zpow_add₀ hten]
    norm_num
    ring
  have hlog : Int.log 10 |(10 : ℚ) ^ (a + 2) + 10 ^ a / 2| = a + 2 := by
    rw [abs_of_pos (by rw [hsum]; positivity)]
    have hpos : (0 : ℚ) < 10 ^ (a + 2) + 10 ^ a / 2 := by
      rw [hsum]
      positivity
    apply le_antisymm
    · apply Int.lt_add_one_iff.mp
      apply (Int.lt_zpow_iff_log_lt (b := 10) (by norm_num) hpos).mp
      push_cast
      rw [hsum, show a + 2 + 1 = a + 3 by ring, zpow_add₀ hten]
      exact mul_lt_mul_of_pos_left (by norm_num) hunit
    · apply (Int.zpow_le_iff_le_log (b := 10) (by norm_num) hpos).mp
      push_cast
      linarith
  rintro ⟨k, hk⟩
  have hdigit : digitUnit 3 ((10 : ℚ) ^ (a + 2) + 10 ^ a / 2) = 10 ^ a := by
    rw [digitUnit, hlog]
    congr 1
    norm_num
    ring
  rw [hdigit, hsum, ← mul_comm (10 ^ a), ← mul_sub, abs_mul, abs_of_pos hunit] at hk
  have hhalf : (1 / 2 : ℚ) ≤ |(201 / 2 : ℚ) - k| := by
    rcases le_or_gt k 100 with hle | hgt
    · have hcast : (k : ℚ) ≤ 100 := by exact_mod_cast hle
      rw [abs_of_nonneg (by linarith)]
      linarith
    · have hcast : (101 : ℚ) ≤ k := by exact_mod_cast hgt
      rw [abs_of_nonpos (by linarith)]
      linarith
  have hscaled := mul_le_mul_of_nonneg_left hhalf hunit.le
  linarith

/-- 保存して読み込んだ地図がもとの場所にあるのは、原点のどちらの座標も、三桁目の単位の倍数から半升以内にあるときに限る。 -/
theorem reload_inPlace_iff (hemit : Precision3 emit) (hdigits : HasDigits 3 map.info.resolution) :
    InPlace map (reload store emit p map) ↔
      NearThirdDigit map.info.resolution map.info.originX ∧ NearThirdDigit map.info.resolution map.info.originY := by
  have haxis (x : ℚ) : |emit x - x| ≤ map.info.resolution / 2 ↔ NearThirdDigit map.info.resolution x :=
    hemit.abs_sub_le_iff (by norm_num)
  constructor
  · intro h
    exact ⟨(haxis _).mp h.originX, (haxis _).mp h.originY⟩
  · rintro ⟨hx, hy⟩
    exact ⟨hemit.eq_of_hasDigits hdigits, (haxis _).mpr hx, (haxis _).mpr hy⟩

/-- 升が `0.05` の、空いた升と塞がった升の地図。 -/
def twoCells (originX originY : ℚ) : OccupancyGrid := ⟨⟨2, 1, 1 / 20, originX, originY, 0⟩, [0, 100], rfl⟩

theorem twoCells_hasDigits (originX originY : ℚ) : HasDigits 3 (twoCells originX originY).info.resolution := by
  refine ⟨5, -2, by norm_num, ?_⟩
  norm_num [twoCells]

theorem digitUnit_tens (hlow : 10 ≤ |x|) (hhigh : |x| < 100) : digitUnit 3 x = 1 / 10 := by
  have hlog : Int.log 10 |x| = 1 := by
    have hpos : 0 < |x| := lt_of_lt_of_le (by norm_num) hlow
    apply le_antisymm
    · exact Int.lt_add_one_iff.mp ((Int.lt_zpow_iff_log_lt (b := 10) (by norm_num) hpos).mp (by norm_num [hhigh]))
    · exact (Int.zpow_le_iff_le_log (b := 10) (by norm_num) hpos).mp (by norm_num [hlow])
  rw [digitUnit, hlog]
  norm_num

-- 原点の座標 `10.05` は、三桁では半升を超えてずれる。
theorem reload_moves_origin : HasDigits 3 (twoCells (10 + 1 / 20) 0).info.resolution ∧
    ¬ InPlace (twoCells (10 + 1 / 20) 0)
      (reload id (roundDigits 3) ⟨.trinary, 1 / 4, 13 / 20⟩ (twoCells (10 + 1 / 20) 0)) := by
  refine ⟨twoCells_hasDigits _ _, fun h => ?_⟩
  have hnot : ¬ NearThirdDigit (1 / 20) (10 ^ ((-1 : ℤ) + 2) + 10 ^ (-1 : ℤ) / 2) :=
    exists_not_nearThirdDigit (by norm_num)
  have hx := ((nearestDigits_roundDigits (by norm_num)).abs_sub_le_iff (by norm_num)).mp h.originX
  refine hnot ?_
  norm_num at hx ⊢
  exact hx

-- 原点 `(12.32, -12.28)` は `(12.3, -12.3)` と書かれ、半升までしかずれない。
theorem reload_inPlace_rounded : Precision3 (roundDigits 3) ∧
    HasDigits 3 (twoCells (308 / 25) (-307 / 25)).info.resolution ∧
    InPlace (twoCells (308 / 25) (-307 / 25))
      (reload id (roundDigits 3) ⟨.trinary, 1 / 4, 13 / 20⟩ (twoCells (308 / 25) (-307 / 25))) := by
  have hround : Precision3 (roundDigits 3) := nearestDigits_roundDigits (by norm_num)
  have hdigits := twoCells_hasDigits (308 / 25) (-307 / 25)
  refine ⟨hround, hdigits, (reload_inPlace_iff hround hdigits).mpr ⟨⟨123, ?_⟩, ⟨-123, ?_⟩⟩⟩
  · rw [twoCells, digitUnit_tens (by norm_num) (by norm_num)]
    norm_num
  · rw [twoCells, digitUnit_tens (by norm_num) (by norm_num)]
    norm_num

end Ranger.MapServer
