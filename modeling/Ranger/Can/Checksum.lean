import Ranger.Can.ParserV1

/-!
# 一版のフレームの検査

復号が受け入れるフレームを、検査のバイト `data[7]` が和に等しいフレームと比べる。復号は検査のバイトを読まないので、二つが
一致するのは、和が 0 でないことと、検査のバイトが正しいことが、ちょうど同時に成り立つフレームだけである。
-/

namespace Ranger.Can
open Ranger.Lib

/-! ## 検査の性質 -/

/-- 検査のバイトは、番号、長さ、はじめの七つのバイトの和に等しい。 -/
def CanFrame.Checked (f : CanFrame) : Prop := f.data 7 = f.checksumV1

instance (f : CanFrame) : Decidable f.Checked := inferInstanceAs (Decidable (_ = _))

/-- 番号の二つのバイト、長さ、はじめの七つのバイトの和。 -/
def CanFrame.byteSum (f : CanFrame) : Nat :=
  f.canId.toNat % 256 + f.canId.toNat / 256 % 256 + f.canDlc.toNat + (f.data 0).toNat +
    (f.data 1).toNat + (f.data 2).toNat + (f.data 3).toNat + (f.data 4).toNat + (f.data 5).toNat +
    (f.data 6).toNat

def AcceptsChecked (rx : CanFrame) (msg : AgxMessage) : Prop :=
  (decodeCanFrameV1 rx msg).1 = true ↔ rx.Checked

/-- 和が 0 でなく検査のバイトがそれに等しいか、和が 0 で検査のバイトが 0 でない。 -/
def CanFrame.SumDecides (f : CanFrame) : Prop :=
  (f.byteSum % 256 ≠ 0 ∧ (f.data 7).toNat = f.byteSum % 256) ∨
    (f.byteSum % 256 = 0 ∧ (f.data 7).toNat ≠ 0)

/-! ## 和 -/

theorem calcChecksum_eq (id : UInt16) (data : Fin 8 → UInt8) :
    calcCanFrameChecksumV1 id data 8 =
      (id &&& 0x00ff).toUInt8 + (id >>> 8).toUInt8 + 8 + data 0 + data 1 + data 2 + data 3 + data 4 +
        data 5 + data 6 := rfl

theorem checksumV1_toNat {f : CanFrame} (h : f.canDlc = 8) : f.checksumV1.toNat = f.byteSum % 256 := by
  have hm : (0x00ff : UInt16).toNat = 2 ^ 8 - 1 := rfl
  have h8 : (8 : UInt16).toNat % 16 = 8 := rfl
  have hlow : (f.canId.toUInt16 &&& 0x00ff).toUInt8.toNat = f.canId.toNat % 256 := by
    rw [UInt16.toNat_toUInt8, UInt16.toNat_and, hm, Nat.and_two_pow_sub_one_eq_mod, UInt32.toNat_toUInt16]
    omega
  have hhigh : (f.canId.toUInt16 >>> 8).toUInt8.toNat = f.canId.toNat / 256 % 256 := by
    rw [UInt16.toNat_toUInt8, UInt16.toNat_shiftRight, h8, Nat.shiftRight_eq_div_pow, UInt32.toNat_toUInt16]
    omega
  rw [CanFrame.checksumV1, h, calcChecksum_eq]
  simp only [UInt8.toNat_add, hlow, hhigh, CanFrame.byteSum, h]
  omega

theorem checksumV1_eq_zero {f : CanFrame} (h : f.canDlc = 8) : f.checksumV1 = 0 ↔ f.byteSum % 256 = 0 := by
  rw [← UInt8.toNat_inj, checksumV1_toNat h]
  rfl

theorem checked_iff {f : CanFrame} (h : f.canDlc = 8) : f.Checked ↔ (f.data 7).toNat = f.byteSum % 256 := by
  rw [CanFrame.Checked, ← UInt8.toNat_inj, checksumV1_toNat h]

/-! ## 復号 -/

theorem decodeV1_accepts {rx : CanFrame} (msg : AgxMessage) (hid : rx.canId ∈ CanMsgV1.feedbackIds)
    (hdlc : rx.canDlc = 8) : (decodeCanFrameV1 rx msg).1 = true ↔ rx.byteSum % 256 ≠ 0 := by
  rw [Ne, ← checksumV1_eq_zero hdlc]
  unfold decodeCanFrameV1
  by_cases hz : rx.checksumV1 = 0
  · simp [hz]
  · simp only [CanMsgV1.feedbackIds, List.mem_cons, List.not_mem_nil, or_false] at hid
    simp only [hz, if_false, not_false_eq_true, iff_true]
    split_ifs <;> first | rfl | tauto

theorem acceptsChecked_iff {rx : CanFrame} (msg : AgxMessage) (hid : rx.canId ∈ CanMsgV1.feedbackIds)
    (hdlc : rx.canDlc = 8) : AcceptsChecked rx msg ↔ rx.SumDecides := by
  rw [AcceptsChecked, decodeV1_accepts msg hid hdlc, checked_iff hdlc, CanFrame.SumDecides]
  constructor
  · intro h
    by_cases hz : rx.byteSum % 256 = 0
    · refine Or.inr ⟨hz, fun h7 => h.mpr ?_ hz⟩
      rw [h7, hz]
    · exact Or.inl ⟨hz, h.mp hz⟩
  · rintro (⟨hz, h7⟩ | ⟨hz, h7⟩)
    · exact iff_of_true hz h7
    · rw [hz]
      exact iff_of_false (fun h => h rfl) h7

/-! ## 一つのバイトの書き換え -/

theorem set_data (f : CanFrame) (i : Fin 8) (v : UInt8) : (f.set i v).data i = v := by
  simp only [CanFrame.set, Function.update_self]

theorem set_data_ne (f : CanFrame) {i j : Fin 8} (v : UInt8) (h : j ≠ i) : (f.set i v).data j = f.data j := by
  simp only [CanFrame.set, Function.update_of_ne h]

theorem set_last_byteSum (f : CanFrame) (v : UInt8) : (f.set 7 v).byteSum = f.byteSum := rfl

theorem set_byteSum (f : CanFrame) (v : UInt8) : ∀ i : Fin 8, i ≠ 7 →
    (f.set i v).byteSum + (f.data i).toNat = f.byteSum + v.toNat := by
  intro i hi
  simp only [CanFrame.byteSum, CanFrame.set]
  match i with
  | 0 | 1 | 2 | 3 | 4 | 5 | 6 => simp [Function.update]; omega
  | 7 => exact absurd rfl hi

theorem set_not_checked {f : CanFrame} {i : Fin 8} {v : UInt8} (hdlc : f.canDlc = 8) (h : f.Checked)
    (hv : v ≠ f.data i) : ¬ (f.set i v).Checked := by
  have hne : v.toNat ≠ (f.data i).toNat := fun he => hv (UInt8.toNat_inj.mp he)
  have hlt := v.toNat_lt
  have hlt' := (f.data i).toNat_lt
  have hsum := (checked_iff hdlc).mp h
  have hset : (f.set i v).canDlc = 8 := hdlc
  rw [checked_iff hset]
  by_cases hi : i = 7
  · subst hi
    rw [set_data, set_last_byteSum]
    omega
  · have hchange := set_byteSum f v i hi
    rw [set_data_ne f v (Ne.symm hi)]
    omega

/-! ## 符号化したフレーム -/

theorem putChecked_checked (tx : CanFrame) (canId : UInt32) (frame : Fin 8 → UInt8) :
    (tx.putChecked canId frame).Checked := by
  have hdlc : (tx.put canId 8 frame).canDlc = 8 := rfl
  have hdlc' : (tx.putChecked canId frame).canDlc = 8 := rfl
  rw [checked_iff hdlc', CanFrame.putChecked, set_data, checksumV1_toNat hdlc, set_last_byteSum]

theorem encodeV1_checked (counts : CountsV1) (msg : AgxMessage) (tx : CanFrame)
    (h : (encodeCanFrameV1 counts msg tx).1 = true) : (encodeCanFrameV1 counts msg tx).2.1.Checked := by
  obtain ⟨type, b⟩ := msg
  cases type with
  | motionCommandV1 => exact putChecked_checked tx _ _
  | valueSetCommandV1 => exact putChecked_checked tx _ _
  | lightCommand => exact putChecked_checked tx _ _
  | _ => cases h

/-! ## 受け入れるフレーム -/

/-- 復号が受け入れることと検査のバイトが正しいことが一致するのは、和が 0 でなく検査のバイトがそれに等しいか、和が 0 で検査の
バイトが 0 でないフレームであり、そのときに限る。符号化したフレームの検査のバイトは、どの内容でも、どの `count` でも
正しいが、検査のバイトの正しいフレームは、和が 0 でないときに限って受け入れられ、その一つのバイトを書き換えたフレームは、
検査のバイトが正しくないのに、和が 0 のときに限って断られる。 -/
theorem checksum_decides_iff {rx : CanFrame} (msg : AgxMessage) (hid : rx.canId ∈ CanMsgV1.feedbackIds)
    (hdlc : rx.canDlc = 8) :
    (AcceptsChecked rx msg ↔ rx.SumDecides) ∧
    (∀ counts sent tx, (encodeCanFrameV1 counts sent tx).1 = true →
      (encodeCanFrameV1 counts sent tx).2.1.Checked) ∧
    (rx.Checked → ((decodeCanFrameV1 rx msg).1 = true ↔ rx.byteSum % 256 ≠ 0)) ∧
    ∀ i v, rx.Checked → v ≠ rx.data i → ¬ (rx.set i v).Checked ∧
      ((decodeCanFrameV1 (rx.set i v) msg).1 = false ↔ (rx.set i v).byteSum % 256 = 0) := by
  refine ⟨acceptsChecked_iff msg hid hdlc, encodeV1_checked, fun _ => decodeV1_accepts msg hid hdlc,
    fun i v hc hv => ⟨set_not_checked hdlc hc hv, ?_⟩⟩
  have hset : (rx.set i v).canDlc = 8 := hdlc
  have hid' : (rx.set i v).canId ∈ CanMsgV1.feedbackIds := hid
  rw [← Bool.not_eq_true, decodeV1_accepts msg hid' hset, not_not]

-- 検査のバイトの正しいフレームと、その末尾を書き換えたフレーム。
theorem checksum_decides_system :
    let rx : CanFrame := ⟨CanMsgV1.systemStateId, 8, ![0, 1, 0, 250, 0, 0, 0, 85]⟩
    rx.canId ∈ CanMsgV1.feedbackIds ∧ rx.canDlc = 8 ∧ rx.Checked ∧ (0 : UInt8) ≠ rx.data 7 ∧
      AcceptsChecked rx default ∧ ¬ (rx.set 7 0).Checked := by
  intro rx
  have hid : rx.canId ∈ CanMsgV1.feedbackIds := by decide
  have hc : rx.Checked := by decide
  have hv : (0 : UInt8) ≠ rx.data 7 := by decide
  obtain ⟨hiff, -, -, haltered⟩ := checksum_decides_iff default hid rfl
  exact ⟨hid, rfl, hc, hv, hiff.mpr (Or.inl (by decide)), (haltered 7 0 hc hv).1⟩

-- すべてのバイトが 0 のフレームは、検査のバイトが正しくないのに受け入れられる。
theorem zero_frame_accepted :
    let rx : CanFrame := ⟨CanMsgV1.systemStateId, 8, fun _ => 0⟩
    rx.canId ∈ CanMsgV1.feedbackIds ∧ rx.canDlc = 8 ∧ (decodeCanFrameV1 rx default).1 = true ∧
      ¬ rx.Checked ∧ ¬ AcceptsChecked rx default := by
  intro rx
  have hid : rx.canId ∈ CanMsgV1.feedbackIds := by decide
  have hacc : (decodeCanFrameV1 rx default).1 = true := (decodeV1_accepts default hid rfl).mpr (by decide)
  have hno : ¬ rx.Checked := by decide
  exact ⟨hid, rfl, hacc, hno, fun h => hno (h.mp hacc)⟩

end Ranger.Can
