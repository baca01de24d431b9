import Mathlib.Algebra.Order.Field.Basic

/-!
# NaN と無限大を持つ数

`double` の比較と除算を、有限の値では正確な算術で定める。丸めと、`0` の符号は扱わない。
-/

namespace Ranger.Lib

/-- `double` の値。有限の値は、順序体 `K` の元である。 -/
inductive Double (K : Type*)
  | nan
  | inf (negative : Bool)
  | real (v : K)
  deriving DecidableEq

namespace Double

variable {K : Type*}

instance [Zero K] : Zero (Double K) := ⟨real 0⟩

theorem zero_def [Zero K] : (0 : Double K) = real 0 := rfl

def IsReal : Double K → Prop
  | .real _ => True
  | .nan | .inf _ => False

/-! ## 比較 -/

section Order

variable [LinearOrder K]

/-- `<`。NaN との比較は成り立たない。 -/
def Less : Double K → Double K → Prop
  | .inf s, .inf t => s = true ∧ t = false
  | .inf s, .real _ => s = true
  | .real _, .inf t => t = false
  | .real x, .real y => x < y
  | .nan, _ | _, .nan => False

/-- `<=`。NaN との比較は成り立たない。 -/
def Leq : Double K → Double K → Prop
  | .inf s, .inf t => s = true ∨ t = false
  | .inf s, .real _ => s = true
  | .real _, .inf t => t = false
  | .real x, .real y => x ≤ y
  | .nan, _ | _, .nan => False

instance : LT (Double K) := ⟨Less⟩

instance : LE (Double K) := ⟨Leq⟩

instance : DecidableLT (Double K)
  | .inf _, .inf _ => inferInstanceAs (Decidable (_ ∧ _))
  | .inf _, .real _ => inferInstanceAs (Decidable (_ = _))
  | .real _, .inf _ => inferInstanceAs (Decidable (_ = _))
  | .real x, .real y => inferInstanceAs (Decidable (x < y))
  | .nan, .nan | .nan, .inf _ | .nan, .real _ | .inf _, .nan | .real _, .nan => inferInstanceAs (Decidable False)

instance : DecidableLE (Double K)
  | .inf _, .inf _ => inferInstanceAs (Decidable (_ ∨ _))
  | .inf _, .real _ => inferInstanceAs (Decidable (_ = _))
  | .real _, .inf _ => inferInstanceAs (Decidable (_ = _))
  | .real x, .real y => inferInstanceAs (Decidable (x ≤ y))
  | .nan, .nan | .nan, .inf _ | .nan, .real _ | .inf _, .nan | .real _, .nan => inferInstanceAs (Decidable False)

@[simp] theorem real_lt_real {x y : K} : real x < real y ↔ x < y := Iff.rfl

@[simp] theorem real_le_real {x y : K} : real x ≤ real y ↔ x ≤ y := Iff.rfl

theorem ne_nan_of_le {x y : Double K} (h : x ≤ y) : x ≠ nan ∧ y ≠ nan := by
  cases x <;> cases y <;> first | exact h.elim | exact ⟨nofun, nofun⟩

/-- 逆の大小の検査に通る、NaN でない二つの値。 -/
theorem le_iff_not_lt {x y : Double K} : x ≤ y ↔ ¬ y < x ∧ x ≠ nan ∧ y ≠ nan := by
  cases x with
  | nan => exact iff_of_false id fun h => h.2.1 rfl
  | inf s =>
      cases y with
      | nan => exact iff_of_false id fun h => h.2.2 rfl
      | inf t =>
          change s = true ∨ t = false ↔ ¬ (t = true ∧ s = false) ∧ _
          cases s <;> cases t <;> simp
      | real y =>
          change s = true ↔ ¬ s = false ∧ _
          simp
  | real x =>
      cases y with
      | nan => exact iff_of_false id fun h => h.2.2 rfl
      | inf t =>
          change t = false ↔ ¬ t = true ∧ _
          simp
      | real y => simp

end Order

/-! ## 算術 -/

section Neg

variable [InvolutiveNeg K]

instance : Neg (Double K) where
  neg
    | .nan => .nan
    | .inf s => .inf !s
    | .real v => .real (-v)

@[simp] theorem neg_real (v : K) : -real v = real (-v) := rfl

theorem neg_neg_eq (x : Double K) : - -x = x := by
  cases x with
  | nan => rfl
  | inf s => exact congrArg inf (Bool.not_not s)
  | real v => exact congrArg real (neg_neg v)

end Neg

section Div

variable [DivisionRing K] [LinearOrder K]

/-- `/`。`0` は正の `0` とみなす。 -/
instance : Div (Double K) where
  div
    | .inf s, .real y => .inf (s ^^ decide (y < 0))
    | .real _, .inf _ => .real 0
    | .real x, .real y => if y = 0 then (if x = 0 then .nan else .inf (decide (x < 0))) else .real (x / y)
    | .inf _, .inf _ | .nan, _ | _, .nan => .nan

theorem real_div_real {x y : K} (hy : y ≠ 0) : real x / real y = real (x / y) := if_neg hy

end Div

end Double

end Ranger.Lib
