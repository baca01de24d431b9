import Ranger.Can.ParserV1

/-!
# 速度の割合への換算（`protocol_v1_parser.hpp`、`robot_limits.hpp`）

`ProtocolV1Parser::EncodeMessage` は、動作の指令の三つの速度を車種の限界に収め、限界に対する百分率にしてから符号化する。
速度は正確な有理数で書き、0 による除算は値を持たないものとして `none` とする。
-/

namespace Ranger.Can
open Ranger.Lib

/-! ## 限界 -/

/-- `ProtocolV1Parser` に渡される車種の限界。 -/
inductive RobotLimits
  | scoutV2 | scoutMini | bunker | hunterV1
  deriving DecidableEq

namespace RobotLimits

def maxLinear : RobotLimits → ℚ
  | .scoutV2 | .hunterV1 => 1.5
  | .scoutMini | .bunker => 3.0

def minLinear (l : RobotLimits) : ℚ := -l.maxLinear

def maxAngular : RobotLimits → ℚ
  | .scoutV2 => 0.5235
  | .scoutMini | .bunker => 2.5235
  | .hunterV1 => 0.444

def minAngular (l : RobotLimits) : ℚ := -l.maxAngular

def maxLateral : RobotLimits → ℚ
  | .scoutV2 | .bunker | .hunterV1 => 0.0
  | .scoutMini => 2.0

def minLateral : RobotLimits → ℚ
  | .scoutV2 | .bunker | .hunterV1 => 0.0
  | .scoutMini => -2.0

end RobotLimits

/-! ## 符号化 -/

def limited (max min v : ℚ) : ℚ :=
  if max < v then max else if v < min then min else v

/-- 限界に対する百分率。 -/
def percentOf (v max : ℚ) : Option ℚ := if max = 0 then none else some (v / max * 100)

def encodeMessageV1 (l : RobotLimits) (counts : CountsV1) (msg : AgxMessage) (tx : CanFrame) :
    Option (Bool × CanFrame × CountsV1) :=
  if msg.type = .motionCommandV1 then do
    let linear := limited l.maxLinear l.minLinear (msg.body.read MotionCommandMsgV1.linear)
    let angular := limited l.maxAngular l.minAngular (msg.body.read MotionCommandMsgV1.angular)
    let lateral := limited l.maxLateral l.minLateral (msg.body.read MotionCommandMsgV1.lateral)
    let linear ← percentOf linear l.maxLinear
    let angular ← percentOf angular l.maxAngular
    let lateral ← percentOf lateral l.maxLateral
    some (encodeCanFrameV1 counts
      { msg with
        body := ((msg.body.write MotionCommandMsgV1.linear linear).write MotionCommandMsgV1.angular angular).write
          MotionCommandMsgV1.lateral lateral } tx)
  else some (encodeCanFrameV1 counts msg tx)

/-! ## 求められる性質 -/

inductive MotionAxis
  | linear | angular | lateral

namespace MotionAxis

def field : MotionAxis → Field Scalar.float
  | .linear => MotionCommandMsgV1.linear
  | .angular => MotionCommandMsgV1.angular
  | .lateral => MotionCommandMsgV1.lateral

/-- 百分率の入るデータの番号。 -/
def byte : MotionAxis → Fin 8
  | .linear => 2
  | .angular => 3
  | .lateral => 4

end MotionAxis

def RobotLimits.max (l : RobotLimits) : MotionAxis → ℚ
  | .linear => l.maxLinear
  | .angular => l.maxAngular
  | .lateral => l.maxLateral

/-- どの動作の指令も除算が定まり、書かれる百分率は、求められた速度の、単調な奇関数で、-100 から 100 までにある。 -/
def EncodesPercentages (l : RobotLimits) : Prop :=
  ∃ pct : MotionAxis → ℚ → ℤ,
    (∀ a, (∀ v w, v ≤ w → pct a v ≤ pct a w) ∧ (∀ v, pct a (-v) = -pct a v) ∧ pct a 0 = 0 ∧ ∀ v, |pct a v| ≤ 100) ∧
      ∀ counts msg tx, msg.type = .motionCommandV1 →
        ∃ ok frame counts', encodeMessageV1 l counts msg tx = some (ok, frame, counts') ∧
          ∀ a, (frame.data a.byte).toInt8.toInt = pct a (msg.body.read a.field)

/-! ## 百分率 -/

section Percent

variable {m v w : ℚ}

theorem limited_mono (m : ℚ) (hm : 0 ≤ m) : Monotone (limited m (-m)) := by
  intro v w hvw
  unfold limited
  split_ifs <;> linarith

theorem limited_neg (hm : 0 ≤ m) (v : ℚ) : limited m (-m) (-v) = -limited m (-m) v := by
  unfold limited
  split_ifs <;> linarith

theorem abs_limited_le (hm : 0 ≤ m) (v : ℚ) : |limited m (-m) v| ≤ m := by
  unfold limited
  rw [abs_le]
  split_ifs <;> constructor <;> linarith

/-- 限界 `m` のときの、`v` の百分率の整数の部分。 -/
def percentByte (m v : ℚ) : ℤ := truncate (limited m (-m) v / m * 100)

theorem percentByte_mono (hm : 0 < m) (v w : ℚ) (hvw : v ≤ w) : percentByte m v ≤ percentByte m w := by
  refine truncate_mono ?_
  have hlimited := limited_mono m hm.le hvw
  gcongr

theorem percentByte_neg (hm : 0 < m) (v : ℚ) : percentByte m (-v) = -percentByte m v := by
  rw [percentByte, limited_neg hm.le, neg_div, neg_mul, truncate_neg, percentByte]

theorem percentByte_zero (hm : 0 < m) : percentByte m 0 = 0 := by
  have h := percentByte_neg hm 0
  rw [neg_zero] at h
  omega

theorem abs_percentByte_le (hm : 0 < m) (v : ℚ) : |percentByte m v| ≤ 100 := by
  have hle : |limited m (-m) v / m * 100| ≤ 100 := by
    rw [abs_mul, abs_div, abs_of_pos hm, abs_of_pos (by norm_num : (0 : ℚ) < 100)]
    have hratio : |limited m (-m) v| / m ≤ 1 := (div_le_one hm).mpr (abs_limited_le hm.le v)
    linarith
  have hlt : |limited m (-m) v / m * 100| < ((101 : ℤ) : ℚ) := by
    push_cast
    linarith
  have := abs_truncate_lt hlt
  rw [percentByte]
  omega

theorem percentage_toInt (hv : |truncate v| ≤ 100) : (percentage v).toInt8.toInt = truncate v := by
  rw [percentage, Int8.toInt8_toUInt8]
  have := abs_le.mp hv
  exact Int8.toInt_ofInt_of_le (by omega) (by omega)

end Percent

/-! ## 一つの指令 -/

section Encode

variable {l : RobotLimits} {counts : CountsV1} {msg : AgxMessage} {tx : CanFrame}

theorem maxLinear_pos (l : RobotLimits) : 0 < l.maxLinear := by
  cases l <;> norm_num [RobotLimits.maxLinear]

theorem maxAngular_pos (l : RobotLimits) : 0 < l.maxAngular := by
  cases l <;> norm_num [RobotLimits.maxAngular]

theorem maxLateral_nonneg (l : RobotLimits) : 0 ≤ l.maxLateral := by
  cases l <;> norm_num [RobotLimits.maxLateral]

theorem minLateral_eq (l : RobotLimits) : l.minLateral = -l.maxLateral := by
  cases l <;> norm_num [RobotLimits.minLateral, RobotLimits.maxLateral]

theorem max_pos (hlateral : l.maxLateral ≠ 0) (a : MotionAxis) : 0 < l.max a := by
  cases a with
  | linear => exact maxLinear_pos l
  | angular => exact maxAngular_pos l
  | lateral => exact lt_of_le_of_ne (maxLateral_nonneg l) hlateral.symm

/-- 横方向の限界が 0 の車種では、どの指令でも 0 で割る。 -/
theorem encodeMessageV1_eq_none (hlateral : l.maxLateral = 0) (htype : msg.type = .motionCommandV1) :
    encodeMessageV1 l counts msg tx = none := by
  simp [encodeMessageV1, htype, percentOf, hlateral]

theorem read_motion (b : Body) (linear angular lateral : Scalar.float.Value) :
    let b' := ((b.write MotionCommandMsgV1.linear linear).write MotionCommandMsgV1.angular angular).write
      MotionCommandMsgV1.lateral lateral
    b'.read MotionCommandMsgV1.linear = linear ∧ b'.read MotionCommandMsgV1.angular = angular ∧
      b'.read MotionCommandMsgV1.lateral = lateral := by
  have hlinear : MotionCommandMsgV1.angular.offset ≠ MotionCommandMsgV1.linear.offset := by decide
  have hlinear' : MotionCommandMsgV1.lateral.offset ≠ MotionCommandMsgV1.linear.offset := by decide
  have hangular : MotionCommandMsgV1.lateral.offset ≠ MotionCommandMsgV1.angular.offset := by decide
  dsimp only
  refine ⟨?_, ?_, Cells.read_write _ _ rfl⟩
  · rw [Cells.read_write_ne _ _ hlinear', Cells.read_write_ne _ _ hlinear, Cells.read_write _ _ rfl]
  · rw [Cells.read_write_ne _ _ hangular, Cells.read_write _ _ rfl]

theorem encodeMessageV1_data (hlateral : l.maxLateral ≠ 0) (htype : msg.type = .motionCommandV1) :
    ∃ ok frame counts', encodeMessageV1 l counts msg tx = some (ok, frame, counts') ∧
      ∀ a, (frame.data a.byte).toInt8.toInt = percentByte (l.max a) (msg.body.read a.field) := by
  have hlinear := maxLinear_pos l
  have hangular := maxAngular_pos l
  simp only [encodeMessageV1, htype, if_true, percentOf, if_neg hlinear.ne', if_neg hangular.ne', if_neg hlateral,
    Option.bind_eq_bind, Option.bind_some, encodeCanFrameV1]
  refine ⟨_, _, _, rfl, fun a => ?_⟩
  have hbyte := percentage_toInt (abs_percentByte_le (max_pos hlateral a) (msg.body.read a.field))
  cases a with
  | linear => exact (congrArg (fun v => (percentage v).toInt8.toInt) (read_motion msg.body _ _ _).1).trans hbyte
  | angular => exact (congrArg (fun v => (percentage v).toInt8.toInt) (read_motion msg.body _ _ _).2.1).trans hbyte
  | lateral =>
      rw [minLateral_eq]
      exact (congrArg (fun v => (percentage v).toInt8.toInt) (read_motion msg.body _ _ _).2.2).trans hbyte

theorem not_encodesPercentages (hlateral : l.maxLateral = 0) : ¬ EncodesPercentages l := by
  rintro ⟨_, -, hencode⟩
  obtain ⟨_, _, _, hsome, -⟩ := hencode {} { (default : AgxMessage) with type := .motionCommandV1 }
    ⟨0, 0, fun _ => 0⟩ rfl
  rw [encodeMessageV1_eq_none hlateral rfl] at hsome
  cases hsome

end Encode

/-- 百分率が求められたとおりになるのは、横方向の限界が 0 でない車種であり、そのときに限る。 -/
theorem encodesPercentages_iff (l : RobotLimits) : EncodesPercentages l ↔ l.maxLateral ≠ 0 := by
  refine ⟨fun hencode hlateral => not_encodesPercentages hlateral hencode, fun hlateral => ?_⟩
  refine ⟨fun a => percentByte (l.max a), fun a => ?_, fun _ _ _ => encodeMessageV1_data hlateral⟩
  have hmax := max_pos hlateral a
  exact ⟨percentByte_mono hmax, percentByte_neg hmax, percentByte_zero hmax, abs_percentByte_le hmax⟩

/-- 前後の速度だけを求める指令。 -/
def crawl : AgxMessage where
  type := .motionCommandV1
  body := (default : AgxMessage).body.write MotionCommandMsgV1.linear (0.15 : ℚ)

-- 車種 `HunterV1` では、横方向の速度を 0 で割る。
theorem hunterV1_divides_by_zero :
    encodeMessageV1 .hunterV1 {} crawl ⟨0, 0, fun _ => 0⟩ = none ∧ ¬ EncodesPercentages .hunterV1 := by
  have hlateral : RobotLimits.hunterV1.maxLateral = 0 := by norm_num [RobotLimits.maxLateral]
  exact ⟨encodeMessageV1_eq_none hlateral rfl, not_encodesPercentages hlateral⟩

end Ranger.Can
