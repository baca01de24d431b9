import Mathlib.Data.Rat.Floor

/-!
# 固定長の整数とバイトの並び

固定長の整数を上位のバイトから並べ、またそこから読み戻す操作を定める。符号つきの整数は、算術シフトで分け、符号なしの
整数として組み立ててから符号つきに読み替える。浮動小数点数から整数への変換は、0 の方向への切り捨てである。
-/

namespace Ranger.Lib

/-! ## バイトの並び -/

def be16 (high low : UInt8) : UInt16 := low.toUInt16 ||| high.toUInt16 <<< 8

def be32 (msb high low lsb : UInt8) : UInt32 :=
  lsb.toUInt32 ||| low.toUInt32 <<< 8 ||| high.toUInt32 <<< 16 ||| msb.toUInt32 <<< 24

def highByte (v : UInt16) : UInt8 := (v >>> 8).toUInt8

def lowByte (v : UInt16) : UInt8 := (v &&& 0x00ff).toUInt8

/-- 符号つきの整数の上位のバイト。シフトは符号を保つ。 -/
def highByteSigned (v : Int16) : UInt8 := (v >>> 8).toUInt16.toUInt8

def lowByteSigned (v : Int16) : UInt8 := (v &&& 0x00ff).toUInt16.toUInt8

theorem be16_toNat (high low : UInt8) : (be16 high low).toNat = 256 * high.toNat + low.toNat := by
  have hlow := low.toNat_lt
  have hhigh := high.toNat_lt
  have h8 : (8 : UInt16).toNat % 16 = 8 := rfl
  simp only [be16, UInt16.toNat_or, UInt8.toNat_toUInt16, UInt16.toNat_shiftLeft]
  rw [h8, Nat.mod_eq_of_lt (by rw [Nat.shiftLeft_eq]; omega), Nat.or_comm,
    ← Nat.shiftLeft_add_eq_or_of_lt (by omega), Nat.shiftLeft_eq]
  omega

theorem be16_low (high low : UInt8) : (be16 high low).toUInt8 = low := by
  apply UInt8.toBitVec_inj.mp
  ext i hi
  simp [be16]

theorem be32_lsb (msb high low lsb : UInt8) : (be32 msb high low lsb).toUInt8 = lsb := by
  apply UInt8.toBitVec_inj.mp
  ext i hi
  simp [be32]

theorem be16_split (v : UInt16) : be16 (highByte v) (lowByte v) = v := by
  apply UInt16.toNat_inj.mp
  have hv := v.toNat_lt
  have h8 : (8 : UInt16).toNat % 16 = 8 := rfl
  have hm : (0x00ff : UInt16).toNat = 2 ^ 8 - 1 := rfl
  rw [be16_toNat]
  simp only [highByte, lowByte, UInt16.toNat_toUInt8, UInt16.toNat_and, UInt16.toNat_shiftRight]
  rw [h8, hm, Nat.and_two_pow_sub_one_eq_mod, Nat.shiftRight_eq_div_pow]
  omega

/-- 8 ビットの算術シフトの下位のバイトは、論理シフトの下位のバイトに等しい。 -/
theorem highByteSigned_eq (v : Int16) : highByteSigned v = highByte v.toUInt16 := by
  apply UInt8.toBitVec_inj.mp
  ext i hi
  have hs : (v >>> 8).toUInt16.toBitVec = v.toBitVec.sshiftRight 8 := by
    rw [show (v >>> 8).toUInt16.toBitVec = (v >>> 8).toBitVec from rfl, Int16.toBitVec_shiftRight]
    rfl
  have hu : (v.toUInt16 >>> 8).toBitVec = v.toBitVec >>> 8 := rfl
  have h16 : 8 + i < 16 := by omega
  rw [highByteSigned, highByte, UInt16.toBitVec_toUInt8, UInt16.toBitVec_toUInt8, hs, hu]
  simp only [BitVec.getElem_setWidth, BitVec.getLsbD_sshiftRight, BitVec.getLsbD_ushiftRight]
  simp [h16, show ¬ 16 ≤ i by omega]

theorem be16_split_signed (v : Int16) : (be16 (highByteSigned v) (lowByteSigned v)).toInt16 = v := by
  have hlow : lowByteSigned v = lowByte v.toUInt16 := rfl
  rw [highByteSigned_eq, hlow, be16_split]
  rfl

theorem be16_low_inj {high low low' : UInt8} (h : be16 high low = be16 high low') : low = low' := by
  rw [← be16_low high low, h, be16_low]

theorem be32_lsb_inj {msb high low lsb lsb' : UInt8} (h : be32 msb high low lsb = be32 msb high low lsb') :
    lsb = lsb' := by
  rw [← be32_lsb msb high low lsb, h, be32_lsb]

/-! ## 有理数 -/

def truncate (q : ℚ) : ℤ := q.num.tdiv q.den

theorem truncate_nonneg {q : ℚ} (h : 0 ≤ q) : 0 ≤ truncate q :=
  Int.tdiv_nonneg (Rat.num_nonneg.mpr h) (Int.natCast_nonneg _)

theorem truncate_of_nonneg {q : ℚ} (h : 0 ≤ q) : truncate q = ⌊q⌋ := by
  rw [truncate, Int.tdiv_eq_ediv_of_nonneg (Rat.num_nonneg.mpr h), Rat.floor_def']

theorem truncate_neg (q : ℚ) : truncate (-q) = -truncate q := by
  simp only [truncate, Rat.num_neg_eq_neg_num, Rat.den_neg_eq_den, Int.neg_tdiv]

theorem truncate_mono {q r : ℚ} (hqr : q ≤ r) : truncate q ≤ truncate r := by
  rcases le_total 0 q with hq | hq
  · rw [truncate_of_nonneg hq, truncate_of_nonneg (hq.trans hqr)]
    exact Int.floor_le_floor hqr
  · have hq' : 0 ≤ -q := neg_nonneg.mpr hq
    rcases le_total 0 r with hr | hr
    · have hneg := truncate_nonneg hq'
      rw [truncate_neg] at hneg
      exact (neg_nonneg.mp hneg).trans (truncate_nonneg hr)
    · have hfloor := Int.floor_le_floor (neg_le_neg hqr)
      rw [← truncate_of_nonneg hq', ← truncate_of_nonneg (neg_nonneg.mpr hr), truncate_neg, truncate_neg] at hfloor
      exact neg_le_neg_iff.mp hfloor

theorem truncate_lt {q : ℚ} {n : ℤ} (h₀ : 0 ≤ q) (h : q < n) : truncate q < n := by
  rw [truncate_of_nonneg h₀]
  exact Int.floor_lt.mpr h

theorem abs_truncate_lt {q : ℚ} {n : ℤ} (h : |q| < n) : |truncate q| < n := by
  rcases le_total 0 q with hq | hq
  · rw [abs_of_nonneg hq] at h
    rw [abs_of_nonneg (truncate_nonneg hq)]
    exact truncate_lt hq h
  · rw [abs_of_nonpos hq] at h
    have hneg : 0 ≤ -q := neg_nonneg.mpr hq
    rw [← abs_neg, ← truncate_neg, abs_of_nonneg (truncate_nonneg hneg)]
    exact truncate_lt hneg h

end Ranger.Lib
