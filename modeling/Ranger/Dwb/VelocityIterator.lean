import Mathlib.Algebra.Order.Archimedean.Basic
import Mathlib.Algebra.Order.Field.Basic
import Mathlib.Data.Rat.Floor
import Mathlib.Tactic.FieldSimp
import Mathlib.Tactic.Linarith
import Mathlib.Tactic.NormNum
import Mathlib.Tactic.Ring
import Ranger.Lib.Iterator

/-!
# 速度の標本

`dwb_plugins` の `one_d_velocity_iterator.hpp` と `xy_theta_iterator.cpp`。次の周期までに届く速度を等間隔に、0 をまたぐときは 0 も
加えて返す。三つの方向の標本を桁のように組み合わせ、許される速さのものだけを軌道の候補とする。
-/

namespace Ranger.Dwb
open Ranger.Lib

variable {K : Type*} [Field K] [LinearOrder K]

def epsilon : K := 1e-5

def projectVelocity (v0 accel decel dt target : K) : K :=
  if v0 < target then min target (v0 + accel * dt) else max target (v0 + decel * dt)

structure OneDVelocityIterator (K : Type*) where
  returnZero : Bool
  returnZeroNow : Bool
  minVel : K
  maxVel : K
  current : K
  increment : K

namespace OneDVelocityIterator

def reset (it : OneDVelocityIterator K) : OneDVelocityIterator K :=
  { it with current := it.minVel, returnZero := true, returnZeroNow := false }

/-- 標本の間隔。 -/
def spacing (minVel maxVel : K) (numSamples : ℤ) : K :=
  if |minVel - maxVel| < epsilon then 1
  else (maxVel - minVel) / ((max 1 (max 2 numSamples - 1) : ℤ) : K)

def create (current lower upper accLimit decelLimit accTime : K) (numSamples : ℤ) : OneDVelocityIterator K :=
  let current := if current < lower then lower else if current > upper then upper else current
  let maxVel := projectVelocity current accLimit decelLimit accTime upper
  let minVel := projectVelocity current accLimit decelLimit accTime lower
  { returnZero := true
    returnZeroNow := false
    minVel := minVel
    maxVel := maxVel
    current := minVel
    increment := spacing minVel maxVel numSamples }

def getVelocity (it : OneDVelocityIterator K) : K := if it.returnZeroNow then 0 else it.current

/-- `operator++` -/
def advance (it : OneDVelocityIterator K) : OneDVelocityIterator K :=
  if it.returnZero ∧ it.current < 0 ∧ it.current + it.increment > 0 ∧ it.current + it.increment ≤ it.maxVel + epsilon then
    { it with returnZeroNow := true, returnZero := false }
  else { it with current := it.current + it.increment, returnZeroNow := false }

def isFinished (it : OneDVelocityIterator K) : Bool := it.current > it.maxVel + epsilon

def iterator : Iterator (OneDVelocityIterator K) K := ⟨getVelocity, advance, isFinished⟩

/-! ## 返す速度の並び -/

/-- `c` から始まる間隔 `d` の `n` 個の値。 -/
def ladder (d : K) : K → ℕ → List K
  | _, 0 => []
  | c, n + 1 => c :: ladder d (c + d) n

/-- `c` から間隔 `d` で `n` 回進むと、初めて `limit` を超える。 -/
def Reaches (limit d : K) : K → ℕ → Prop
  | c, 0 => limit < c
  | c, n + 1 => c ≤ limit ∧ Reaches limit d (c + d) n

/-- 隣り合う二つの値の間に 0 があれば加える。 -/
def withZero : List K → List K
  | a :: b :: l => if a < 0 ∧ 0 < b then a :: 0 :: b :: l else a :: withZero (b :: l)
  | l => l

section Enumerate

variable {it : OneDVelocityIterator K} {n : ℕ} {c d limit v : K} {l : List K}

theorem advance_reset (it : OneDVelocityIterator K) : (advance it).reset = it.reset := by
  unfold advance
  split_ifs <;> rfl

theorem enumerates_ladder (hzero : it.returnZero = false) (hnow : it.returnZeroNow = false)
    (h : Reaches (it.maxVel + epsilon) it.increment it.current n) :
    iterator.Enumerates it (ladder it.increment it.current n) := by
  induction n generalizing it with
  | zero => exact decide_eq_true h
  | succ n ih =>
      have hnext : advance it = { it with current := it.current + it.increment, returnZeroNow := false } := by
        simp [advance, hzero]
      refine ⟨decide_eq_false (not_lt.mpr h.1), by simp [iterator, getVelocity, hnow], ?_⟩
      show iterator.Enumerates (advance it) _
      rw [hnext]
      exact ih hzero rfl h.2

theorem enumerates_withZero (hzero : it.returnZero = true) (hnow : it.returnZeroNow = false)
    (h : Reaches (it.maxVel + epsilon) it.increment it.current n) :
    iterator.Enumerates it (withZero (ladder it.increment it.current n)) := by
  induction n generalizing it with
  | zero => exact decide_eq_true h
  | succ n ih =>
      have hvalue : getVelocity it = it.current := by simp [getVelocity, hnow]
      have hmore : isFinished it = false := decide_eq_false (not_lt.mpr h.1)
      cases n with
      | zero =>
          have hnext : advance it = { it with current := it.current + it.increment, returnZeroNow := false } :=
            if_neg fun hcross => absurd hcross.2.2.2 (not_le.mpr h.2)
          refine ⟨hmore, hvalue, ?_⟩
          show iterator.Enumerates (advance it) _
          rw [hnext]
          exact decide_eq_true h.2
      | succ n =>
          obtain ⟨-, hbelow, hrest⟩ := h
          simp only [ladder, withZero]
          split_ifs with hcross
          · have hstop : advance it = { it with returnZeroNow := true, returnZero := false } :=
              if_pos ⟨hzero, hcross.1, hcross.2, hbelow⟩
            have hresume : advance { it with returnZeroNow := true, returnZero := false } =
                { it with current := it.current + it.increment, returnZeroNow := false, returnZero := false } := by
              simp [advance]
            refine ⟨hmore, hvalue, ?_⟩
            show iterator.Enumerates (advance it) _
            rw [hstop]
            refine ⟨hmore, rfl, ?_⟩
            show iterator.Enumerates (advance { it with returnZeroNow := true, returnZero := false }) _
            rw [hresume]
            exact enumerates_ladder (n := n + 1) rfl rfl ⟨hbelow, hrest⟩
          · have hnext : advance it = { it with current := it.current + it.increment, returnZeroNow := false } :=
              if_neg fun h => hcross ⟨h.2.1, h.2.2.1⟩
            refine ⟨hmore, hvalue, ?_⟩
            show iterator.Enumerates (advance it) _
            rw [hnext]
            exact ih hzero rfl ⟨hbelow, hrest⟩

end Enumerate

/-! ## 標本の性質 -/

section Samples

variable [IsStrictOrderedRing K] {n : ℕ} {c d limit v lower upper : K} {l : List K}

theorem reaches_exists [Archimedean K] (hd : 0 < d) (limit c : K) : ∃ n, Reaches limit d c n := by
  obtain ⟨m, hm⟩ := Archimedean.arch (limit - c) hd
  rw [nsmul_eq_mul] at hm
  induction m generalizing c with
  | zero =>
      by_cases hlt : limit < c
      · exact ⟨0, hlt⟩
      · refine ⟨1, not_lt.mp hlt, ?_⟩
        show limit < c + d
        rw [Nat.cast_zero, zero_mul] at hm
        linarith
  | succ m ih =>
      by_cases hlt : limit < c
      · exact ⟨0, hlt⟩
      · obtain ⟨n, hn⟩ := ih (c + d) (by rw [Nat.cast_succ] at hm; linarith)
        exact ⟨n + 1, not_lt.mp hlt, hn⟩

theorem mem_ladder_bounds (hd : 0 < d) (h : Reaches limit d c n) (hv : v ∈ ladder d c n) : c ≤ v ∧ v ≤ limit := by
  induction n generalizing c with
  | zero => exact absurd hv List.not_mem_nil
  | succ n ih =>
      rcases List.mem_cons.mp hv with rfl | hv
      · exact ⟨le_refl _, h.1⟩
      · obtain ⟨hlow, hhigh⟩ := ih h.2 hv
        exact ⟨by linarith, hhigh⟩

theorem ladder_ascending (hd : 0 < d) (h : Reaches limit d c n) : (ladder d c n).Pairwise (· < ·) := by
  induction n generalizing c with
  | zero => exact List.Pairwise.nil
  | succ n ih =>
      refine List.Pairwise.cons (fun v hv => ?_) (ih h.2)
      have hlow := (mem_ladder_bounds hd h.2 hv).1
      linarith

/-- `c` から間隔の `k` 倍の値は、`limit` を超えなければ並びにある。 -/
theorem mem_ladder (hd : 0 < d) (h : Reaches limit d c n) (k : ℕ) (hk : c + k * d ≤ limit) :
    c + k * d ∈ ladder d c n := by
  induction n generalizing c k with
  | zero =>
      have hlt : limit < c := h
      have hpos : (0 : K) ≤ k * d := mul_nonneg (Nat.cast_nonneg k) hd.le
      linarith
  | succ n ih =>
      cases k with
      | zero => simp [ladder]
      | succ k =>
          have hshift : c + ((k + 1 : ℕ) : K) * d = c + d + k * d := by
            rw [Nat.cast_succ]
            ring
          rw [hshift] at hk ⊢
          exact List.mem_cons_of_mem _ (ih h.2 k hk)

end Samples

section WithZero

variable {v : K} {l : List K}

theorem mem_withZero (hv : v ∈ l) : v ∈ withZero l := by
  induction l with
  | nil => exact hv
  | cons a l ih =>
      cases l with
      | nil => exact hv
      | cons b l =>
          rw [withZero]
          split_ifs
          · simp only [List.mem_cons] at hv ⊢
            tauto
          · rcases List.mem_cons.mp hv with rfl | hv
            · exact List.mem_cons_self
            · exact List.mem_cons_of_mem _ (ih hv)

/-- 加えられるのは、二つの値の間の 0 だけである。 -/
theorem mem_of_mem_withZero (hv : v ∈ withZero l) : v ∈ l ∨ v = 0 ∧ (∃ a ∈ l, a < 0) ∧ ∃ b ∈ l, 0 < b := by
  induction l with
  | nil => exact Or.inl hv
  | cons a l ih =>
      cases l with
      | nil => exact Or.inl hv
      | cons b l =>
          rw [withZero] at hv
          split_ifs at hv with hcross
          · simp only [List.mem_cons] at hv
            rcases hv with rfl | rfl | hv
            · exact Or.inl List.mem_cons_self
            · exact Or.inr ⟨rfl, ⟨a, List.mem_cons_self, hcross.1⟩, b, List.mem_cons_of_mem _ List.mem_cons_self, hcross.2⟩
            · exact Or.inl (List.mem_cons_of_mem _ (List.mem_cons.mpr hv))
          · rcases List.mem_cons.mp hv with rfl | hv
            · exact Or.inl List.mem_cons_self
            · rcases ih hv with hv | ⟨rfl, ⟨c, hc, hneg⟩, d, hd, hpos⟩
              · exact Or.inl (List.mem_cons_of_mem _ hv)
              · exact Or.inr ⟨rfl, ⟨c, List.mem_cons_of_mem _ hc, hneg⟩, d, List.mem_cons_of_mem _ hd, hpos⟩

theorem withZero_ascending (h : l.Pairwise (· < ·)) : (withZero l).Pairwise (· < ·) := by
  induction l with
  | nil => exact h
  | cons a l ih =>
      cases l with
      | nil => exact h
      | cons b l =>
          rw [withZero]
          rw [List.pairwise_cons] at h
          split_ifs with hcross
          · have hrest := (List.pairwise_cons.mp h.2).1
            refine List.Pairwise.cons (fun v hv => ?_) (List.Pairwise.cons (fun v hv => ?_) h.2)
            · rcases List.mem_cons.mp hv with rfl | hv
              · exact hcross.1
              · exact h.1 v hv
            · rcases List.mem_cons.mp hv with rfl | hv
              · exact hcross.2
              · exact hcross.2.trans (hrest v hv)
          · refine List.Pairwise.cons (fun v hv => ?_) (ih h.2)
            rcases mem_of_mem_withZero hv with hv | ⟨rfl, ⟨c, hc, hneg⟩, -⟩
            · exact h.1 v hv
            · exact (h.1 c hc).trans hneg

/-- 0 をまたぐ並びには 0 が加わる。 -/
theorem zero_mem_withZero {a b : K} (h : (a :: l).Pairwise (· < ·)) (ha : a ≤ 0) (hb : b ∈ a :: l) (hpos : 0 ≤ b) :
    (0 : K) ∈ withZero (a :: l) := by
  induction l generalizing a with
  | nil =>
      rw [List.mem_singleton.mp hb] at hpos
      rw [le_antisymm ha hpos]
      exact List.mem_singleton_self _
  | cons c l ih =>
      rw [withZero]
      split_ifs with hcross
      · exact List.mem_cons_of_mem _ List.mem_cons_self
      · rcases ha.lt_or_eq with hneg | rfl
        · have hc : c ≤ 0 := not_lt.mp fun hc => hcross ⟨hneg, hc⟩
          refine List.mem_cons_of_mem _ (ih h.of_cons hc ?_)
          rcases List.mem_cons.mp hb with rfl | hb
          · exact absurd hpos (not_le.mpr hneg)
          · exact hb
        · exact List.mem_cons_self

end WithZero

section Create

variable [IsStrictOrderedRing K] {current lower upper accLimit decelLimit accTime : K} {numSamples : ℤ}

theorem epsilon_pos : (0 : K) < epsilon := by
  unfold epsilon
  norm_num

/-- 届く速度は、下限と上限の間で、いまの速度を挟む。 -/
theorem create_limits (hlimits : lower ≤ upper) (hacc : 0 ≤ accLimit) (hdecel : decelLimit ≤ 0) (htime : 0 ≤ accTime)
    (current : K) (numSamples : ℤ) :
    lower ≤ (create current lower upper accLimit decelLimit accTime numSamples).minVel ∧
      (create current lower upper accLimit decelLimit accTime numSamples).minVel ≤
        (create current lower upper accLimit decelLimit accTime numSamples).maxVel ∧
      (create current lower upper accLimit decelLimit accTime numSamples).maxVel ≤ upper := by
  have hup : 0 ≤ accLimit * accTime := mul_nonneg hacc htime
  have hdown : decelLimit * accTime ≤ 0 := mul_nonpos_of_nonpos_of_nonneg hdecel htime
  unfold create
  dsimp only
  generalize hclamped : (if current < lower then lower else if current > upper then upper else current) = v
  have hv : lower ≤ v ∧ v ≤ upper := by
    rw [← hclamped]
    split_ifs with hlow hhigh
    · exact ⟨le_refl _, hlimits⟩
    · exact ⟨hlimits, le_refl _⟩
    · exact ⟨not_lt.mp hlow, not_lt.mp hhigh⟩
  have hmin : lower ≤ projectVelocity v accLimit decelLimit accTime lower ∧
      projectVelocity v accLimit decelLimit accTime lower ≤ v := by
    rw [projectVelocity, if_neg (not_lt.mpr hv.1)]
    exact ⟨le_max_left _ _, max_le hv.1 (by linarith)⟩
  have hmax : v ≤ projectVelocity v accLimit decelLimit accTime upper ∧
      projectVelocity v accLimit decelLimit accTime upper ≤ upper := by
    rw [projectVelocity]
    split_ifs with hlt
    · exact ⟨le_min hv.2 (by linarith), min_le_left _ _⟩
    · have heq : v = upper := le_antisymm hv.2 (not_lt.mp hlt)
      rw [heq]
      exact ⟨le_max_left _ _, max_le (le_refl _) (by linarith)⟩
  exact ⟨hmin.1, hmin.2.trans hmax.1, hmax.2⟩

theorem spacing_pos {minVel maxVel : K} (hle : minVel ≤ maxVel) : 0 < spacing minVel maxVel numSamples := by
  unfold spacing
  split_ifs with hnear
  · exact one_pos
  · have hgap : epsilon ≤ maxVel - minVel := by
      rw [not_lt, abs_sub_comm, abs_of_nonneg (sub_nonneg.mpr hle)] at hnear
      exact hnear
    apply div_pos (lt_of_lt_of_le epsilon_pos hgap)
    exact Int.cast_pos.mpr (lt_of_lt_of_le one_pos (le_max_left _ _))

/-- 上限は、下限から間隔のちょうど何倍かである。 -/
theorem spacing_divides {minVel maxVel : K} (hgap : epsilon ≤ maxVel - minVel) (numSamples : ℤ) :
    ∃ k : ℕ, minVel + k * spacing minVel maxVel numSamples = maxVel := by
  have hfar : ¬ |minVel - maxVel| < epsilon := by
    rw [not_lt, abs_sub_comm]
    exact hgap.trans (le_abs_self _)
  have hcount : (0 : ℤ) < max 1 (max 2 numSamples - 1) := lt_of_lt_of_le one_pos (le_max_left _ _)
  refine ⟨(max 1 (max 2 numSamples - 1)).toNat, ?_⟩
  have hcast : (((max 1 (max 2 numSamples - 1)).toNat : ℕ) : K) = ((max 1 (max 2 numSamples - 1) : ℤ) : K) := by
    rw [← Int.cast_natCast, Int.toNat_of_nonneg hcount.le]
  have hne : ((max 1 (max 2 numSamples - 1) : ℤ) : K) ≠ 0 := (Int.cast_pos.mpr hcount).ne'
  rw [spacing, if_neg hfar, hcast, mul_div_cancel₀ _ hne]
  ring

/-- 一つの方向の標本。 -/
structure Samples (lower upper : K) (it : OneDVelocityIterator K) (l : List K) : Prop where
  enumerates : iterator.Enumerates it l
  nonempty : l ≠ []
  ascending : l.Pairwise (· < ·)
  bounds : ∀ v ∈ l, lower ≤ v ∧ v ≤ upper + epsilon
  reach : epsilon ≤ it.maxVel - it.minVel → it.minVel ∈ l ∧ it.maxVel ∈ l
  zero : epsilon ≤ it.maxVel - it.minVel → it.minVel ≤ 0 → 0 ≤ it.maxVel → 0 ∈ l

theorem create_samples [Archimedean K] (hlimits : lower ≤ upper) (hacc : 0 ≤ accLimit) (hdecel : decelLimit ≤ 0)
    (htime : 0 ≤ accTime) (current : K) (numSamples : ℤ) :
    ∃ l, Samples lower upper (create current lower upper accLimit decelLimit accTime numSamples) l := by
  obtain ⟨hlow, hle, hhigh⟩ := create_limits hlimits hacc hdecel htime current numSamples
  generalize hit : create current lower upper accLimit decelLimit accTime numSamples = it at hlow hle hhigh ⊢
  have hfields : it.returnZero = true ∧ it.returnZeroNow = false ∧ it.current = it.minVel ∧
      it.increment = spacing it.minVel it.maxVel numSamples := by
    rw [← hit]
    exact ⟨rfl, rfl, rfl, rfl⟩
  obtain ⟨hzero, hnow, hstart, hincrement⟩ := hfields
  have hpos : 0 < it.increment := by
    rw [hincrement]
    exact spacing_pos hle
  have heps : (0 : K) < epsilon := epsilon_pos
  obtain ⟨n, hn⟩ := reaches_exists hpos (it.maxVel + epsilon) it.current
  have hmax (hgap : epsilon ≤ it.maxVel - it.minVel) : it.maxVel ∈ ladder it.increment it.current n := by
    obtain ⟨k, hk⟩ := spacing_divides hgap numSamples
    rw [← hincrement, ← hstart] at hk
    have hmem := mem_ladder hpos hn k (by rw [hk]; linarith)
    rwa [hk] at hmem
  cases n with
  | zero =>
      have hlt : it.maxVel + epsilon < it.current := hn
      linarith
  | succ n =>
      have hmin : it.minVel ∈ ladder it.increment it.current (n + 1) := by
        rw [← hstart]
        exact List.mem_cons_self
      have hbounds (v : K) (hv : v ∈ ladder it.increment it.current (n + 1)) : lower ≤ v ∧ v ≤ upper + epsilon := by
        obtain ⟨hv₁, hv₂⟩ := mem_ladder_bounds hpos hn hv
        exact ⟨by linarith, by linarith⟩
      refine ⟨withZero (ladder it.increment it.current (n + 1)), enumerates_withZero hzero hnow hn,
        List.ne_nil_of_mem (mem_withZero hmin), withZero_ascending (ladder_ascending hpos hn), fun v hv => ?_,
        fun hgap => ⟨mem_withZero hmin, mem_withZero (hmax hgap)⟩, fun hgap hneg hpos' => ?_⟩
      · rcases mem_of_mem_withZero hv with hv | ⟨rfl, ⟨a, ha, hneg⟩, b, hb, hpos'⟩
        · exact hbounds v hv
        · exact ⟨(hbounds a ha).1.trans hneg.le, hpos'.le.trans (hbounds b hb).2⟩
      · exact zero_mem_withZero (ladder_ascending hpos hn) (by rw [hstart]; exact hneg) (hmax hgap) hpos'

end Create

end OneDVelocityIterator

/-! ## 三つの方向の組み合わせ -/

structure KinematicParameters (K : Type*) where
  minVelX : K
  maxVelX : K
  minVelY : K
  maxVelY : K
  maxVelTheta : K
  minSpeedXY : K
  maxSpeedXY : K
  minSpeedTheta : K
  accLimX : K
  accLimY : K
  accLimTheta : K
  decelLimX : K
  decelLimY : K
  decelLimTheta : K
  minSpeedXYSq : K
  maxSpeedXYSq : K

structure Twist2D (K : Type*) where
  x : K
  y : K
  theta : K
deriving DecidableEq

structure XYThetaIterator (K : Type*) where
  xIt : OneDVelocityIterator K
  yIt : OneDVelocityIterator K
  thIt : OneDVelocityIterator K

namespace XYThetaIterator

def isValidSpeed (k : KinematicParameters K) (v : Twist2D K) : Bool :=
  let vmagSq := v.x * v.x + v.y * v.y
  if k.maxSpeedXY ≥ 0 ∧ vmagSq > k.maxSpeedXYSq + epsilon then false
  else if k.minSpeedXY ≥ 0 ∧ vmagSq + epsilon < k.minSpeedXYSq ∧
      k.minSpeedTheta ≥ 0 ∧ |v.theta| + epsilon < k.minSpeedTheta then false
  else if vmagSq = 0 ∧ v.theta = 0 then false
  else true

def velocity (it : XYThetaIterator K) : Twist2D K := ⟨it.xIt.getVelocity, it.yIt.getVelocity, it.thIt.getVelocity⟩

def isValidVelocity (k : KinematicParameters K) (it : XYThetaIterator K) : Bool := isValidSpeed k it.velocity

def hasMoreTwists (it : XYThetaIterator K) : Bool := !it.xIt.isFinished

/-- `iterateToValidVelocity` の繰り返しの、検査の前の一歩。 -/
def advance (it : XYThetaIterator K) : XYThetaIterator K :=
  let thIt := it.thIt.advance
  if thIt.isFinished then
    let yIt := it.yIt.advance
    if yIt.isFinished then ⟨it.xIt.advance, yIt.reset, thIt.reset⟩
    else { it with yIt := yIt, thIt := thIt.reset }
  else { it with thIt := thIt }

def iterator : Iterator (XYThetaIterator K) (Twist2D K) := ⟨velocity, advance, fun it => !it.hasMoreTwists⟩

def iterateToValidVelocity (k : KinematicParameters K) (fuel : ℕ) (it : XYThetaIterator K) :
    Option (XYThetaIterator K) := iterator.skip (isValidVelocity k) fuel it

/-- 作った直後の反復子。 -/
def create (k : KinematicParameters K) (current : Twist2D K) (dt : K) (vxSamples vySamples vthetaSamples : ℤ) :
    XYThetaIterator K where
  xIt := .create current.x k.minVelX k.maxVelX k.accLimX k.decelLimX dt vxSamples
  yIt := .create current.y k.minVelY k.maxVelY k.accLimY k.decelLimY dt vySamples
  thIt := .create current.theta (-k.maxVelTheta) k.maxVelTheta k.accLimTheta k.decelLimTheta dt vthetaSamples

/-- `startNewIteration` の後、`hasMoreTwists` の間 `nextTwist` を呼んで得る速度。 -/
def twists (fuel : ℕ) (k : KinematicParameters K) (current : Twist2D K) (dt : K) (vxSamples vySamples vthetaSamples : ℤ) :
    Option (List (Twist2D K)) :=
  iterator.collectAll (isValidVelocity k) fuel (create k current dt vxSamples vySamples vthetaSamples)

/-- 速度の下限は上限を超えず、加速と減速の向きは正しい。 -/
structure Sound (k : KinematicParameters K) : Prop where
  x : k.minVelX ≤ k.maxVelX
  y : k.minVelY ≤ k.maxVelY
  theta : 0 ≤ k.maxVelTheta
  accX : 0 ≤ k.accLimX
  accY : 0 ≤ k.accLimY
  accTheta : 0 ≤ k.accLimTheta
  decelX : k.decelLimX ≤ 0
  decelY : k.decelLimY ≤ 0
  decelTheta : k.decelLimTheta ≤ 0

section Twists

variable {xs ys ths : List K} {it : XYThetaIterator K}

def parts (it : XYThetaIterator K) : (OneDVelocityIterator K × OneDVelocityIterator K) × OneDVelocityIterator K :=
  ((it.xIt, it.yIt), it.thIt)

def toTwist (v : (K × K) × K) : Twist2D K := ⟨v.1.1, v.1.2, v.2⟩

/-- 三つの反復子は、桁のように進む。 -/
theorem enumerates_of_parts {l : List ((K × K) × K)}
    (h : (Iterator.prod (Iterator.prod OneDVelocityIterator.iterator OneDVelocityIterator.iterator OneDVelocityIterator.reset)
      OneDVelocityIterator.iterator OneDVelocityIterator.reset).Enumerates (parts it) l) :
    iterator.Enumerates it (l.map toTwist) := by
  induction l generalizing it with
  | nil =>
      show (!(!it.xIt.isFinished)) = true
      rw [Bool.not_not]
      exact h
  | cons v l ih =>
      obtain ⟨hmore, rfl, hrest⟩ := h
      refine ⟨?_, rfl, ih ?_⟩
      · show (!(!it.xIt.isFinished)) = false
        rw [Bool.not_not]
        exact hmore
      · have hparts : parts (advance it) = (Iterator.prod (Iterator.prod OneDVelocityIterator.iterator
            OneDVelocityIterator.iterator OneDVelocityIterator.reset) OneDVelocityIterator.iterator
            OneDVelocityIterator.reset).next (parts it) := by
          simp only [advance, parts, Iterator.prod, OneDVelocityIterator.iterator]
          split_ifs <;> simp_all
        show (Iterator.prod _ _ _).Enumerates (parts (advance it)) l
        rw [hparts]
        exact hrest

variable [IsStrictOrderedRing K] [Archimedean K] {k : KinematicParameters K} {dt : K}

/-- 候補の速度は、三つの方向の標本のすべての組のうち、許される速さのものである。組は x、y、θ の順に、θ の最も速く変わる順に並ぶ。 -/
theorem twists_eq (hk : Sound k) (htime : 0 ≤ dt) (current : Twist2D K) (vxSamples vySamples vthetaSamples : ℤ) :
    ∃ xs ys ths,
      OneDVelocityIterator.Samples k.minVelX k.maxVelX (create k current dt vxSamples vySamples vthetaSamples).xIt xs ∧
      OneDVelocityIterator.Samples k.minVelY k.maxVelY (create k current dt vxSamples vySamples vthetaSamples).yIt ys ∧
      OneDVelocityIterator.Samples (-k.maxVelTheta) k.maxVelTheta
        (create k current dt vxSamples vySamples vthetaSamples).thIt ths ∧
      ∀ fuel, xs.length * ys.length * ths.length ≤ fuel →
        twists fuel k current dt vxSamples vySamples vthetaSamples =
          some ((((xs ×ˢ ys) ×ˢ ths).map toTwist).filter (isValidSpeed k)) := by
  obtain ⟨xs, hx⟩ := OneDVelocityIterator.create_samples hk.x hk.accX hk.decelX htime current.x vxSamples
  obtain ⟨ys, hy⟩ := OneDVelocityIterator.create_samples hk.y hk.accY hk.decelY htime current.y vySamples
  obtain ⟨ths, hth⟩ := OneDVelocityIterator.create_samples (neg_le_self hk.theta) hk.accTheta hk.decelTheta htime
    current.theta vthetaSamples
  refine ⟨xs, ys, ths, hx, hy, hth, fun fuel hfuel => ?_⟩
  have hplane := hx.enumerates.prod OneDVelocityIterator.advance_reset rfl hy.enumerates hy.nonempty
  have hspace := hplane.prod OneDVelocityIterator.advance_reset rfl hth.enumerates hth.nonempty
  have henum : iterator.Enumerates (create k current dt vxSamples vySamples vthetaSamples)
      (((xs ×ˢ ys) ×ˢ ths).map toTwist) := enumerates_of_parts hspace
  have hlength : (((xs ×ˢ ys) ×ˢ ths).map toTwist).length = xs.length * ys.length * ths.length := by
    rw [List.length_map, List.length_product, List.length_product]
  refine henum.collectAll (fun _ => rfl) (fun hnil => ?_) (by rw [hlength]; exact hfuel)
  have hpos : 0 < xs.length * ys.length * ths.length := Nat.mul_pos (Nat.mul_pos (List.length_pos_of_ne_nil hx.nonempty)
    (List.length_pos_of_ne_nil hy.nonempty)) (List.length_pos_of_ne_nil hth.nonempty)
  rw [← hlength, hnil] at hpos
  exact absurd hpos (Nat.lt_irrefl 0)

end Twists

/-- 前後に進み、左右に回る。 -/
def differential : KinematicParameters ℚ where
  minVelX := -0.5
  maxVelX := 0.5
  minVelY := 0
  maxVelY := 0
  maxVelTheta := 1
  minSpeedXY := 0
  maxSpeedXY := 0.5
  minSpeedTheta := 0
  accLimX := 2.5
  accLimY := 0
  accLimTheta := 3.2
  decelLimX := -2.5
  decelLimY := 0
  decelLimTheta := -3.2
  minSpeedXYSq := 0
  maxSpeedXYSq := 0.25

-- 静止から始める。
theorem twists_eq_differential :
    ∃ xs ys ths,
      OneDVelocityIterator.Samples (-0.5) 0.5 (create differential ⟨0, 0, 0⟩ 0.2 4 1 4).xIt xs ∧
      OneDVelocityIterator.Samples 0 0 (create differential ⟨0, 0, 0⟩ 0.2 4 1 4).yIt ys ∧
      OneDVelocityIterator.Samples (-1) 1 (create differential ⟨0, 0, 0⟩ 0.2 4 1 4).thIt ths ∧
      ∀ fuel, xs.length * ys.length * ths.length ≤ fuel → twists fuel differential ⟨0, 0, 0⟩ 0.2 4 1 4 =
        some ((((xs ×ˢ ys) ×ˢ ths).map toTwist).filter (isValidSpeed differential)) := by
  have hsound : Sound differential := by
    constructor <;> norm_num [differential]
  exact twists_eq hsound (show (0 : ℚ) ≤ 0.2 by norm_num) ⟨0, 0, 0⟩ 4 1 4

end XYThetaIterator

end Ranger.Dwb
