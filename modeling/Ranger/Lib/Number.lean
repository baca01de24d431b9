import Mathlib.Algebra.Order.Floor.Semiring
import Mathlib.Data.List.TakeWhile
import Mathlib.Data.Rat.Floor
import Mathlib.Tactic.Linarith
import Mathlib.Tactic.NormNum

/-!
# 数の読み書き

`std::stod` の読み取りと、`std::fixed` での書き出しを定める。値は、`double` に丸める前の値で、正確な有理数で表す。`int` の演算の
折り返しも定める。
-/

namespace Ranger.Lib

/-! ## `int` の折り返し -/

/-- `int` に収まらない値は、2 の 32 乗を法として読まれる。 -/
def int32 (v : ℤ) : ℤ := if v % 4294967296 < 2147483648 then v % 4294967296 else v % 4294967296 - 4294967296

theorem int32_eq_self_iff {v : ℤ} : int32 v = v ↔ -2147483648 ≤ v ∧ v < 2147483648 := by
  unfold int32
  split_ifs <;> omega

theorem int32_int32_add (v w : ℤ) : int32 (int32 v + w) = int32 (v + w) := by
  unfold int32
  split_ifs <;> omega

/-! ## 読み取り -/

inductive Number
  | finite (value : ℚ)
  | infinite (negative : Bool)
  | nan
  deriving DecidableEq

/-- `isspace`。 -/
def isSpace (c : Char) : Bool := c == ' ' || (9 ≤ c.toNat && c.toNat ≤ 13)

def isHexDigit (c : Char) : Bool := c.isDigit || ('a' ≤ c.toLower && c.toLower ≤ 'f')

def digitVal (c : Char) : Nat :=
  if c.isDigit then c.toNat - '0'.toNat else c.toLower.toNat - 'a'.toNat + 10

def digitsVal (base : Nat) (digits : List Char) : Nat :=
  digits.foldl (fun acc c => base * acc + digitVal c) 0

def scanSign : List Char → Bool × List Char
  | '-' :: cs => (true, cs)
  | '+' :: cs => (false, cs)
  | cs => (false, cs)

/-- 指数。`mark` の後に桁がなければ 0 である。 -/
def scanExponent (mark : Char) : List Char → ℤ
  | [] => 0
  | c :: cs =>
      if c.toLower = mark then
        let (negative, cs) := scanSign cs
        let exponent := digitsVal 10 (cs.takeWhile Char.isDigit)
        if negative then -exponent else exponent
      else 0

/-- 整数部と小数部の桁の並びと、残り。 -/
def scanDigits (digit : Char → Bool) (cs : List Char) : List Char × List Char × List Char :=
  match cs.dropWhile digit with
  | '.' :: rest => (cs.takeWhile digit, rest.takeWhile digit, rest.dropWhile digit)
  | rest => (cs.takeWhile digit, [], rest)

def scanNumeral (base exponentBase : Nat) (digit : Char → Bool) (mark : Char) (cs : List Char) : Option ℚ :=
  let (int, frac, rest) := scanDigits digit cs
  if int ++ frac = [] then none
  else some (digitsVal base (int ++ frac) / (base : ℚ) ^ frac.length * (exponentBase : ℚ) ^ scanExponent mark rest)

/-- 十進の数。`0x` の後に十六進の桁が続けば、十六進の数である。 -/
def scanValue (cs : List Char) : Option ℚ :=
  let decimal := scanNumeral 10 10 Char.isDigit 'e' cs
  match cs with
  | '0' :: x :: rest => if x.toLower = 'x' then (scanNumeral 16 2 isHexDigit 'p' rest).or decimal else decimal
  | _ => decimal

/-- `strtod`。変換できる文字がないとき `none` である。 -/
def strtod (cs : List Char) : Option Number :=
  let (negative, cs) := scanSign (cs.dropWhile isSpace)
  let word := (cs.take 3).map Char.toLower
  if word = ['i', 'n', 'f'] then some (.infinite negative)
  else if word = ['n', 'a', 'n'] then some .nan
  else (scanValue cs).map fun v => .finite (if negative then -v else v)

/-- `double` の有限の値の最大。 -/
def doubleMax : ℚ := 2 ^ 1024 - 2 ^ 971

/-- `strtod` が `ERANGE` にしない。最大の値に丸められず、正規化された最小の値より小さい値は、正確に表される。 -/
def InRange (v : ℚ) : Prop :=
  v = 0 ∨ (|v| < 2 ^ 1024 - 2 ^ 970 ∧ (1 / 2 ^ 1022 ≤ |v| ∨ (v * 2 ^ 1074).den = 1))

instance (v : ℚ) : Decidable (InRange v) := inferInstanceAs (Decidable (_ ∨ _))

/-- `std::stod`。`none` は例外である。 -/
def stod (cs : List Char) : Option Number :=
  match strtod cs with
  | some (.finite v) => if InRange v then some (.finite v) else none
  | r => r

example : stod " -1.5e2x".toList = some (.finite (-150)) ∧ stod "0x1.8p1".toList = some (.finite 3) ∧
    stod "0x".toList = some (.finite 0) ∧ stod ".".toList = none ∧ stod "Infinity".toList = some (.infinite false) := by
  decide +kernel

/-! ## 書き出し -/

/-- 最も近い整数。ちょうど半ばのときは、偶数である。 -/
def roundHalfEven (q : ℚ) : Nat :=
  let n := ⌊q⌋₊
  if q - n < 1 / 2 then n else if 1 / 2 < q - n then n + 1 else if n % 2 = 0 then n else n + 1

def padDigits : Nat → Nat → List Char
  | 0, _ => []
  | k + 1, n => Nat.digitChar (n / 10 ^ k) :: padDigits k (n % 10 ^ k)

/-- 小数点の後が `k` 桁の十進数 `n / 10 ^ k`。 -/
def decimalText (k n : Nat) : List Char := Nat.toDigits 10 (n / 10 ^ k) ++ '.' :: padDigits k (n % 10 ^ k)

/-- 大きさ `q` と符号のビットの `double` を、`std::fixed` の、既定の 6 桁で書いた文字列。 -/
def fixedText (negative : Bool) (q : ℚ) : List Char :=
  (if negative then ['-'] else []) ++ decimalText 6 (roundHalfEven (q * 10 ^ 6))

def fixedValue (negative : Bool) (q : ℚ) : ℚ :=
  let v : ℚ := roundHalfEven (q * 10 ^ 6) / 10 ^ 6
  if negative then -v else v

theorem roundHalfEven_le {q : ℚ} {m : Nat} (h : q ≤ m) : roundHalfEven q ≤ m := by
  have hle : ⌊q⌋₊ ≤ m := Nat.floor_le_of_le h
  have hlt : ¬ q - ⌊q⌋₊ < 1 / 2 → ⌊q⌋₊ < m := by
    intro hfrac
    have hm : (⌊q⌋₊ : ℚ) < m := by linarith
    exact_mod_cast hm
  unfold roundHalfEven
  simp only
  split_ifs with h₁ h₂ h₃
  · exact hle
  · exact hlt h₁
  · exact hle
  · exact hlt h₁

theorem le_roundHalfEven {q : ℚ} {m : Nat} (h : m ≤ q) : m ≤ roundHalfEven q := by
  have hfloor : m ≤ ⌊q⌋₊ := Nat.le_floor h
  unfold roundHalfEven
  simp only
  split_ifs <;> omega

/-- 値との差は、最後の桁の半分を超えない。 -/
theorem abs_roundHalfEven_sub_le {q : ℚ} (hq : 0 ≤ q) : |(roundHalfEven q : ℚ) - q| ≤ 1 / 2 := by
  have hle : (⌊q⌋₊ : ℚ) ≤ q := Nat.floor_le hq
  have hlt : q < ⌊q⌋₊ + 1 := Nat.lt_floor_add_one q
  unfold roundHalfEven
  simp only
  rw [abs_le]
  split_ifs <;> push_cast <;> constructor <;> linarith

theorem padDigits_isDigit {k n : Nat} (h : n < 10 ^ k) : ∀ c ∈ padDigits k n, c.isDigit = true := by
  induction k generalizing n with
  | zero => simp [padDigits]
  | succ k ih =>
      intro c hc
      have hd : n / 10 ^ k < 10 := Nat.div_lt_of_lt_mul (by rwa [Nat.pow_succ] at h)
      rcases List.mem_cons.mp hc with rfl | hc
      · simpa [Nat.isDigit_digitChar] using hd
      · exact ih (Nat.mod_lt _ (by positivity)) c hc

theorem padDigits_length (k n : Nat) : (padDigits k n).length = k := by
  induction k generalizing n with
  | zero => rfl
  | succ k ih => rw [padDigits, List.length_cons, ih]

theorem ofDigitChars_padDigits {k n : Nat} (h : n < 10 ^ k) (init : Nat) :
    Nat.ofDigitChars 10 (padDigits k n) init = 10 ^ k * init + n := by
  induction k generalizing n init with
  | zero =>
      obtain rfl : n = 0 := by simpa using h
      simp [padDigits]
  | succ k ih =>
      have hd : n / 10 ^ k < 10 := Nat.div_lt_of_lt_mul (by rwa [Nat.pow_succ] at h)
      rw [padDigits, Nat.ofDigitChars_cons_digitChar_of_lt_ten hd, ih (Nat.mod_lt _ (by positivity)), Nat.mul_add,
        Nat.add_assoc, Nat.div_add_mod, ← Nat.mul_assoc, Nat.pow_succ]

/-- 書いた桁は、元の数を表す。 -/
theorem ofDigitChars_decimal (k n : Nat) :
    Nat.ofDigitChars 10 (Nat.toDigits 10 (n / 10 ^ k) ++ padDigits k (n % 10 ^ k)) 0 = n := by
  rw [Nat.ofDigitChars_append, Nat.ofDigitChars_ten_toDigits,
    ofDigitChars_padDigits (Nat.mod_lt _ (by positivity)), Nat.div_add_mod]

/-! ## 往復 -/

theorem exists_digitChar {c : Char} (h : c.isDigit = true) : ∃ n < 10, c = Nat.digitChar n := by
  have hc : 48 ≤ c.toNat ∧ c.toNat ≤ 57 := Char.isDigit_iff_toNat.mp h
  refine ⟨c.toNat - 48, by omega, Char.toNat_inj.mp ?_⟩
  rw [Nat.toNat_digitChar_of_lt_ten (by omega)]
  omega

/-- 十進の桁は、空白でも、符号でも、小数点でも、英字でもない。 -/
theorem digit_facts {c : Char} (h : c.isDigit = true) :
    isSpace c = false ∧ c ≠ '-' ∧ c ≠ '+' ∧ c.toLower ≠ 'x' ∧ c.toLower ≠ 'i' ∧ c.toLower ≠ 'n' := by
  obtain ⟨n, hn, rfl⟩ := exists_digitChar h
  have key : ∀ n < 10, isSpace (Nat.digitChar n) = false ∧ Nat.digitChar n ≠ '-' ∧ Nat.digitChar n ≠ '+' ∧
      (Nat.digitChar n).toLower ≠ 'x' ∧ (Nat.digitChar n).toLower ≠ 'i' ∧ (Nat.digitChar n).toLower ≠ 'n' := by
    decide
  exact key n hn

theorem digitsVal_eq {digits : List Char} (h : ∀ c ∈ digits, c.isDigit = true) :
    digitsVal 10 digits = Nat.ofDigitChars 10 digits 0 := by
  have key : ∀ acc, digits.foldl (fun acc c => 10 * acc + digitVal c) acc = Nat.ofDigitChars 10 digits acc := by
    induction digits with
    | nil => simp
    | cons c digits ih =>
        intro acc
        rw [List.foldl_cons, Nat.ofDigitChars_cons, ih fun d hd => h d (List.mem_cons_of_mem c hd), digitVal,
          if_pos (h c List.mem_cons_self)]
  exact key 0

theorem scanDigits_decimal {int frac : List Char} (hi : ∀ c ∈ int, c.isDigit = true)
    (hf : ∀ c ∈ frac, c.isDigit = true) : scanDigits Char.isDigit (int ++ '.' :: frac) = (int, frac, []) := by
  have hpoint : Char.isDigit '.' = false := by decide
  have hdrop : (int ++ '.' :: frac).dropWhile Char.isDigit = '.' :: frac := by
    rw [List.dropWhile_append_of_pos hi, List.dropWhile_cons_of_neg (by simp [hpoint])]
  have htake : (int ++ '.' :: frac).takeWhile Char.isDigit = int := by
    rw [List.takeWhile_append_of_pos hi, List.takeWhile_cons_of_neg (by simp [hpoint]), List.append_nil]
  rw [scanDigits, hdrop, htake]
  simp only [List.takeWhile_eq_self_iff.mpr hf, List.dropWhile_eq_nil_iff.mpr hf]

theorem scanValue_decimal {int frac : List Char} (hne : int ≠ []) (hi : ∀ c ∈ int, c.isDigit = true)
    (hf : ∀ c ∈ frac, c.isDigit = true) :
    scanValue (int ++ '.' :: frac) = some ((Nat.ofDigitChars 10 (int ++ frac) 0 : ℚ) / 10 ^ frac.length) := by
  have hdec : scanNumeral 10 10 Char.isDigit 'e' (int ++ '.' :: frac) =
      some ((Nat.ofDigitChars 10 (int ++ frac) 0 : ℚ) / 10 ^ frac.length) := by
    have hall : ∀ c ∈ int ++ frac, c.isDigit = true := fun c hc => (List.mem_append.mp hc).elim (hi c) (hf c)
    rw [scanNumeral, scanDigits_decimal hi hf]
    simp [hne, digitsVal_eq hall, scanExponent]
  unfold scanValue
  split
  · rename_i x rest heq
    -- 二文字目は、桁か小数点であり、`x` ではない。
    have hx : x.toLower ≠ 'x' := by
      have hmem : x ∈ int ++ '.' :: frac := heq ▸ List.mem_cons_of_mem _ List.mem_cons_self
      rcases List.mem_append.mp hmem with hx | hx
      · exact (digit_facts (hi x hx)).2.2.2.1
      · rcases List.mem_cons.mp hx with rfl | hx
        · decide
        · exact (digit_facts (hf x hx)).2.2.2.1
    rw [if_neg hx, hdec]
  · exact hdec

/-- 符号のない十進の数は、桁で始まるので、空白も符号も語もない。 -/
theorem scan_decimal {int : List Char} (frac : List Char) (hne : int ≠ []) (hi : ∀ c ∈ int, c.isDigit = true) :
    (int ++ '.' :: frac).dropWhile isSpace = int ++ '.' :: frac ∧
      scanSign (int ++ '.' :: frac) = (false, int ++ '.' :: frac) ∧
      ((int ++ '.' :: frac).take 3).map Char.toLower ≠ ['i', 'n', 'f'] ∧
      ((int ++ '.' :: frac).take 3).map Char.toLower ≠ ['n', 'a', 'n'] := by
  obtain ⟨d, int, rfl⟩ := List.exists_cons_of_ne_nil hne
  obtain ⟨hspace, hminus, hplus, -, hinf, hnan⟩ := digit_facts (hi d List.mem_cons_self)
  refine ⟨List.dropWhile_cons_of_neg (by simp [hspace]), ?_, fun h => hinf ?_, fun h => hnan ?_⟩
  · unfold scanSign
    split
    · rename_i heq
      exact absurd (List.cons.inj heq).1 hminus
    · rename_i heq
      exact absurd (List.cons.inj heq).1 hplus
    · rfl
  · exact (List.cons.inj h).1
  · exact (List.cons.inj h).1

theorem strtod_decimal (negative : Bool) {int frac : List Char} (hne : int ≠ [])
    (hi : ∀ c ∈ int, c.isDigit = true) (hf : ∀ c ∈ frac, c.isDigit = true) :
    strtod ((if negative then ['-'] else []) ++ (int ++ '.' :: frac)) =
      some (.finite ((if negative then -1 else 1) * ((Nat.ofDigitChars 10 (int ++ frac) 0 : ℚ) / 10 ^ frac.length))) := by
  obtain ⟨hspace, hsign, hinf, hnan⟩ := scan_decimal frac hne hi
  have hscan : scanSign (((if negative then ['-'] else []) ++ (int ++ '.' :: frac)).dropWhile isSpace) =
      (negative, int ++ '.' :: frac) := by
    cases negative with
    | false => rw [if_neg Bool.false_ne_true, List.nil_append, hspace, hsign]
    | true => rfl
  rw [strtod, hscan]
  simp only [if_neg hinf, if_neg hnan, scanValue_decimal hne hi hf, Option.map_some]
  cases negative <;> simp

theorem inRange_decimal {n : Nat} (h : (n : ℚ) / 10 ^ 6 ≤ doubleMax) (negative : Bool) :
    InRange ((if negative then -1 else 1) * ((n : ℚ) / 10 ^ 6)) := by
  have habs : |(if negative then -1 else 1 : ℚ) * ((n : ℚ) / 10 ^ 6)| = (n : ℚ) / 10 ^ 6 := by
    have hnonneg : (0 : ℚ) ≤ (n : ℚ) / 10 ^ 6 := by positivity
    cases negative <;> simp [abs_of_nonneg hnonneg]
  rcases Nat.eq_zero_or_pos n with rfl | hn
  · exact Or.inl (by simp)
  · refine Or.inr ⟨?_, Or.inl ?_⟩
    · rw [habs]
      have hpow : (2 : ℚ) ^ 970 < 2 ^ 971 := pow_lt_pow_right₀ (by norm_num) (by norm_num)
      exact lt_of_le_of_lt h (sub_lt_sub_left hpow _)
    · rw [habs]
      have hone : (1 : ℚ) ≤ n := by exact_mod_cast hn
      have hpow : (10 : ℚ) ^ 6 ≤ 2 ^ 1022 :=
        le_trans (by norm_num : (10 : ℚ) ^ 6 ≤ 2 ^ 20) (pow_le_pow_right₀ (by norm_num) (by norm_num))
      calc
        (1 : ℚ) / 2 ^ 1022 ≤ 1 / 10 ^ 6 := one_div_le_one_div_of_le (by norm_num) hpow
        _ ≤ n / 10 ^ 6 := by gcongr

theorem exists_nat_pow_sub (a b : Nat) : ∃ m : Nat, (2 : ℚ) ^ (a + b) - 2 ^ a = m := by
  refine ⟨2 ^ a * (2 ^ b - 1), ?_⟩
  rw [Nat.cast_mul, Nat.cast_sub Nat.one_le_two_pow, pow_add]
  push_cast
  ring

/-- 最大の値は整数なので、丸めても超えない。 -/
theorem round_le_doubleMax {q : ℚ} (h : q ≤ doubleMax) :
    (roundHalfEven (q * 10 ^ 6) : ℚ) / 10 ^ 6 ≤ doubleMax := by
  obtain ⟨m, hm⟩ : ∃ m : Nat, doubleMax = m := exists_nat_pow_sub 971 53
  rw [hm] at h ⊢
  have hle : q * 10 ^ 6 ≤ ((m * 10 ^ 6 : Nat) : ℚ) := by
    push_cast
    linarith
  rw [div_le_iff₀ (by norm_num)]
  exact_mod_cast roundHalfEven_le hle

theorem decimalText_isDigit (k n : Nat) :
    (∀ c ∈ Nat.toDigits 10 (n / 10 ^ k), c.isDigit = true) ∧ ∀ c ∈ padDigits k (n % 10 ^ k), c.isDigit = true :=
  ⟨fun _ hc => Nat.isDigit_of_mem_toDigits (by decide) (by decide) hc,
    padDigits_isDigit (Nat.mod_lt _ (by positivity))⟩

/-- 書いた文字列を読むと、書いた値になる。 -/
theorem stod_fixedText (negative : Bool) {q : ℚ} (h : q ≤ doubleMax) :
    stod (fixedText negative q) = some (.finite (fixedValue negative q)) := by
  set n := roundHalfEven (q * 10 ^ 6) with hn
  obtain ⟨hi, hf⟩ := decimalText_isDigit 6 n
  have hread : strtod (fixedText negative q) = some (.finite ((if negative then -1 else 1) * ((n : ℚ) / 10 ^ 6))) := by
    rw [fixedText, ← hn, decimalText, strtod_decimal negative Nat.toDigits_ne_nil hi hf, ofDigitChars_decimal,
      padDigits_length]
  have hvalue : fixedValue negative q = (if negative then -1 else 1) * ((n : ℚ) / 10 ^ 6) := by
    cases negative <;> simp [fixedValue, hn]
  have hrange : InRange ((if negative then -1 else 1) * ((n : ℚ) / 10 ^ 6)) :=
    inRange_decimal (round_le_doubleMax h) negative
  rw [stod, hread, hvalue]
  exact if_pos hrange

/-- 書いた文字列は空でなく、桁と、符号と、小数点だけからなる。 -/
theorem mem_fixedText {negative : Bool} {q : ℚ} {c : Char} (h : c ∈ fixedText negative q) :
    c.isDigit = true ∨ c = '-' ∨ c = '.' := by
  obtain ⟨hi, hf⟩ := decimalText_isDigit 6 (roundHalfEven (q * 10 ^ 6))
  rcases List.mem_append.mp h with h | h
  · cases negative with
    | false => cases h
    | true => exact Or.inr (Or.inl (List.mem_singleton.mp h))
  · rcases List.mem_append.mp h with h | h
    · exact Or.inl (hi c h)
    · rcases List.mem_cons.mp h with rfl | h
      · exact Or.inr (Or.inr rfl)
      · exact Or.inl (hf c h)

theorem fixedText_ne_nil (negative : Bool) (q : ℚ) : fixedText negative q ≠ [] := by
  simp [fixedText, decimalText]

end Ranger.Lib
