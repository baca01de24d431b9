import Mathlib.Tactic.Linarith
import Ranger.Denoise.Removal

/-!
# 番号の数の上限

先に調べる隣を持たない画素は互いに隣り合わない。四近傍では画像を折り返して一列に並べ、八近傍では二行二列に分けて、その数を抑える。八近傍の上限は、一行または一列の画像では足りないことがある。
-/

namespace Ranger.Denoise
open Ranger.Lib

variable {connectivity : ConnectivityType} {isBg : UInt8 → Bool} {bg : Background} {image : Image UInt8} {p q : Pixel}

theorem Neighbour.irrefl (p : Pixel) : ¬ Neighbour connectivity p p := by
  intro h
  cases connectivity with
  | way4 =>
      simp only [Neighbour] at h
      omega
  | way8 => exact h.1 rfl

theorem starts_independent (hp : p ∈ starts connectivity isBg image) (hq : q ∈ starts connectivity isBg image) :
    ¬ Neighbour connectivity p q := by
  intro hnear
  obtain ⟨hp', hfg, hsp⟩ := Finset.mem_filter.mp hp
  obtain ⟨hq', hfg', hsq⟩ := Finset.mem_filter.mp hq
  have hle := hsp q hq' ⟨hfg, hfg', hnear⟩
  have hge := hsq p hp' ⟨hfg', hfg, hnear.symm⟩
  obtain rfl := index_inj hp' hq' (le_antisymm hle hge)
  exact Neighbour.irrefl p hnear

/-! ## 四近傍 -/

/-- 行ごとに折り返して画像を一列に並べたときの位置。 -/
def snake (image : Image UInt8) (p : Pixel) : ℕ :=
  p.1 * image.columns + if p.1 % 2 = 0 then p.2 else image.columns - 1 - p.2

theorem snake_lt (hp : p ∈ image.pixels) : snake image p < image.rows * image.columns := by
  obtain ⟨hr, hc⟩ := Image.mem_pixels.mp hp
  have hle := row_end_le (n := image.columns) hr
  rw [snake]
  split_ifs <;> omega

theorem snake_inj (hp : p ∈ image.pixels) (hq : q ∈ image.pixels) (h : snake image p = snake image q) : p = q := by
  obtain ⟨-, hc⟩ := Image.mem_pixels.mp hp
  obtain ⟨-, hc'⟩ := Image.mem_pixels.mp hq
  obtain ⟨hrow, hcol⟩ := address_inj (by split_ifs <;> omega) (by split_ifs <;> omega) h
  rw [hrow] at hcol
  refine Prod.ext hrow ?_
  split_ifs at hcol <;> omega

/-- 次の番地は、同じ行の次の列か、次の行の最初の列である。 -/
theorem address_succ {n r c r' c' : ℕ} (hc : c < n) (hc' : c' < n) (h : r' * n + c' = r * n + c + 1) :
    r' = r ∧ c' = c + 1 ∨ r' = r + 1 ∧ c + 1 = n ∧ c' = 0 := by
  rcases Nat.lt_or_ge (c + 1) n with hlt | hge
  · exact Or.inl (address_inj hc' hlt h)
  · have hn : c + 1 = n := by omega
    have hnext : r' * n + c' = (r + 1) * n + 0 := by
      rw [Nat.succ_mul]
      omega
    obtain ⟨hrow, hcol⟩ := address_inj hc' (by omega) hnext
    exact Or.inr ⟨hrow, hn, hcol⟩

theorem snake_succ (hp : p ∈ image.pixels) (hq : q ∈ image.pixels) (h : snake image q = snake image p + 1) :
    Neighbour .way4 p q := by
  obtain ⟨-, hc⟩ := Image.mem_pixels.mp hp
  obtain ⟨-, hc'⟩ := Image.mem_pixels.mp hq
  rcases address_succ (by split_ifs <;> omega) (by split_ifs <;> omega) h with ⟨hrow, hcol⟩ | ⟨hrow, hend, hstart⟩
  · refine Or.inl ⟨hrow.symm, ?_⟩
    rw [hrow] at hcol
    split_ifs at hcol <;> omega
  · refine Or.inr ⟨?_, by omega⟩
    split_ifs at hend hstart <;> omega

theorem card_starts_way4 : (starts .way4 isBg image).card ≤ image.rows * image.columns / 2 + 1 := by
  have hmem {p : Pixel} (hp : p ∈ starts .way4 isBg image) : p ∈ image.pixels := (Finset.mem_filter.mp hp).1
  have hcard : (starts .way4 isBg image).card ≤ (Finset.range ((image.rows * image.columns + 1) / 2)).card := by
    apply Finset.card_le_card_of_injOn (fun p => snake image p / 2)
    · intro p hp
      have hlt := snake_lt (hmem hp)
      exact Finset.mem_coe.mpr (Finset.mem_range.mpr (by dsimp only; omega))
    · intro p hp q hq heq
      have heq' : snake image p / 2 = snake image q / 2 := heq
      rcases Nat.lt_trichotomy (snake image p) (snake image q) with hlt | hsame | hlt
      · exact absurd (snake_succ (hmem hp) (hmem hq) (by omega)) (starts_independent hp hq)
      · exact snake_inj (hmem hp) (hmem hq) hsame
      · exact absurd (snake_succ (hmem hq) (hmem hp) (by omega)) (starts_independent hq hp)
  rw [Finset.card_range] at hcard
  omega

/-! ## 八近傍 -/

theorem card_starts_blocks :
    (starts .way8 isBg image).card ≤ (image.rows + 1) / 2 * ((image.columns + 1) / 2) := by
  rw [← Finset.card_range ((image.rows + 1) / 2), ← Finset.card_range ((image.columns + 1) / 2), ← Finset.card_product]
  apply Finset.card_le_card_of_injOn (fun p => (p.1 / 2, p.2 / 2))
  · intro p hp
    obtain ⟨hr, hc⟩ := Image.mem_pixels.mp (Finset.mem_filter.mp hp).1
    refine Finset.mem_coe.mpr (Finset.mem_product.mpr ⟨Finset.mem_range.mpr ?_, Finset.mem_range.mpr ?_⟩)
    · dsimp only
      omega
    · dsimp only
      omega
  · intro p hp q hq heq
    obtain ⟨hrow, hcol⟩ := Prod.mk.inj heq
    -- 同じ二行二列の中の二つの画素は隣り合う。
    by_contra hne
    exact starts_independent hp hq ⟨hne, by omega, by omega, by omega, by omega⟩

theorem blocks_le {m n : ℕ} (hm : 2 ≤ m) (hn : 2 ≤ n) : (m + 1) / 2 * ((n + 1) / 2) ≤ m * n / 3 + 1 := by
  have hsplit {k : ℕ} (hk : 2 ≤ k) : ∃ i, k = 2 * i + 2 ∧ (k + 1) / 2 = i + 1 ∨ k = 2 * i + 3 ∧ (k + 1) / 2 = i + 2 :=
    ⟨(k - 2) / 2, by omega⟩
  obtain ⟨i, hi⟩ := hsplit hm
  obtain ⟨j, hj⟩ := hsplit hn
  suffices h : 3 * ((m + 1) / 2 * ((n + 1) / 2)) ≤ m * n + 3 by omega
  rcases hi with ⟨rfl, hi⟩ | ⟨rfl, hi⟩ <;> rcases hj with ⟨rfl, hj⟩ | ⟨rfl, hj⟩ <;> rw [hi, hj] <;> nlinarith

theorem card_starts_way8 (hrows : 2 ≤ image.rows) (hcols : 2 ≤ image.columns) :
    (starts .way8 isBg image).card ≤ image.rows * image.columns / 3 + 1 :=
  card_starts_blocks.trans (blocks_le hrows hcols)

/-! ## 上限 -/

section Limit

variable {past : Table ℕ → ℕ → ℕ} {minimalGroupSize : UInt64}

theorem limit_of_le {n : ℕ} {label : LabelType} (hn : n ≤ label.max) : min (min n label.max) label.max = n := by
  rw [min_eq_left hn, min_eq_left hn]

theorem labelLimit_way4 (hn : image.rows * image.columns < 2 ^ 32 / 2) :
    labelLimit .way4 image .uint32 = image.rows * image.columns / 2 + 1 + 1 := by
  have hle : image.rows * image.columns / 2 + 1 + 1 ≤ LabelType.uint32.max := by
    show _ ≤ 2 ^ 32 - 1
    omega
  exact limit_of_le hle

theorem labelLimit_way8 (hn : image.rows * image.columns < 2 ^ 32 / 2) :
    labelLimit .way8 image .uint32 = image.rows * image.columns / 3 + 1 + 1 := by
  have hle : image.rows * image.columns / 3 + 1 + 1 ≤ LabelType.uint32.max := by
    show _ ≤ 2 ^ 32 - 1
    omega
  exact limit_of_le hle

/-- 番号が足りるのは、先に調べる隣を持たない画素の数が、三十二ビットの番号の上限より小さいとき、そのときだけである。 -/
theorem not_overflow_iff (hrows : 0 < image.rows) (hcols : 0 < image.columns) (remover : GroupsRemover)
    (buffer : LabelType → ℤ → ℕ) :
    (∀ message, (remover.removeGroups connectivity bg.isBg past image minimalGroupSize buffer).2 ≠
      .error (.labelOverflow message)) ↔
      (starts connectivity bg.isBg image).card < labelLimit connectivity image .uint32 := by
  have hyields : Yields (remover.removeGroups connectivity bg.isBg past image minimalGroupSize buffer).2 _ _ :=
    removeGroups_yields hrows hcols remover buffer
  constructor
  · intro hno
    cases hresult : (remover.removeGroups connectivity bg.isBg past image minimalGroupSize buffer).2 with
    | ok image' => exact (hyields.ok hresult).1
    | error e =>
        obtain ⟨⟨message, rfl⟩, -⟩ := hyields.error hresult
        exact absurd hresult (hno message)
  · intro hcard message hresult
    exact absurd (hyields.error hresult).2 (Nat.not_le.mpr hcard)

theorem removeGroups_empty (hempty : image.rows * image.columns = 0) (remover : GroupsRemover)
    (buffer : LabelType → ℤ → ℕ) (message : String) :
    (remover.removeGroups connectivity bg.isBg past image minimalGroupSize buffer).2 ≠
      .error (.labelOverflow message) := by
  have himpl (label : LabelType) : removeGroupsImpl connectivity bg.isBg past image minimalGroupSize label
      (buffer label) ≠ .error (.labelOverflow message) := by
    unfold removeGroupsImpl connectedComponents
    rw [if_pos hempty]
    simp only [pure_bind, Image.convert]
    split_ifs
    · intro heq
      cases heq
    · intro heq
      cases heq
  intro herror
  rcases removeGroups_cases remover buffer with ⟨_, -, hresult⟩ | ⟨_, -, hresult⟩ | hresult
  · cases hresult.symm.trans herror
  · cases hresult.symm.trans herror
  · exact himpl .uint32 (hresult.symm.trans herror)

/-- 画素が `2 ^ 32 / 2` 個より少ない画像で番号が尽きないのは、四近傍のときと、八近傍で、一行または一列の画像では、先に調べる隣を持たない前景の画素が画素の数の三分の一より高々一つ多いとき、そのときだけである。 -/
theorem overflow_free_iff (hn : image.rows * image.columns < 2 ^ 32 / 2) (remover : GroupsRemover)
    (buffer : LabelType → ℤ → ℕ) :
    (∀ message, (remover.removeGroups connectivity bg.isBg past image minimalGroupSize buffer).2 ≠
      .error (.labelOverflow message)) ↔
      (connectivity = .way8 → image.rows = 1 ∨ image.columns = 1 →
        (starts connectivity bg.isBg image).card ≤ image.rows * image.columns / 3 + 1) := by
  rcases Nat.eq_zero_or_pos (image.rows * image.columns) with hempty | hpos
  · have hnone : starts connectivity bg.isBg image = ∅ := by
      have hpixels : image.pixels = ∅ := Finset.card_eq_zero.mp ((card_pixels image).trans hempty)
      rw [starts, hpixels, Finset.filter_empty]
    refine iff_of_true (removeGroups_empty hempty remover buffer) fun _ _ => ?_
    rw [hnone, Finset.card_empty]
    exact Nat.zero_le _
  · have hrows := Nat.pos_of_mul_pos_right hpos
    have hcols := Nat.pos_of_mul_pos_left hpos
    rw [not_overflow_iff hrows hcols]
    cases connectivity with
    | way4 =>
        refine iff_of_true ?_ fun h => absurd h (by decide)
        rw [labelLimit_way4 hn]
        exact Nat.lt_succ_of_le card_starts_way4
    | way8 =>
        rw [labelLimit_way8 hn, Nat.lt_succ_iff]
        refine ⟨fun hle _ _ => hle, fun hline => ?_⟩
        by_cases hone : image.rows = 1 ∨ image.columns = 1
        · exact hline rfl hone
        · exact card_starts_way8 (by omega) (by omega)

-- 二行三列の画像では番号が足りる。
theorem overflow_free_iff_bucket :
    (∀ message, (GroupsRemover.create.removeGroups .way8 (Background.ofLayer false).isBg stale bucket 6
      fun _ _ => 7).2 ≠ .error (.labelOverflow message)) ↔
      (ConnectivityType.way8 = .way8 → bucket.rows = 1 ∨ bucket.columns = 1 →
        (starts .way8 (Background.ofLayer false).isBg bucket).card ≤ bucket.rows * bucket.columns / 3 + 1) :=
  overflow_free_iff (by decide) GroupsRemover.create fun _ _ => 7

end Limit

theorem stripe_step : 5 ≤ 5 := Nat.le_refl 5

theorem stripe_fits : 1 * 5 < 2 ^ 63 := by decide

/-- 一行に、前景と背景が交互に並ぶ画像。 -/
def stripe : Image UInt8 where
  rows := 1
  columns := 5
  step := 5
  data v := if v % 2 = 0 then lethalObstacle else 0
  columns_le_step := stripe_step
  fits := stripe_fits

def labelOverflowed {α : Type} : Except Exception α → Bool
  | .error (.labelOverflow _) => true
  | _ => false

theorem exists_message {α : Type} {x : Except Exception α} (h : labelOverflowed x = true) :
    ∃ message, x = .error (.labelOverflow message) := by
  cases x with
  | ok a => cases h
  | error e =>
      cases e with
      | labelOverflow message => exact ⟨message, rfl⟩
      | logicError message => cases h

theorem stripe_labelOverflowed (remover : GroupsRemover) :
    labelOverflowed (remover.removeGroups .way8 (Background.ofLayer false).isBg stale stripe 3 fun _ _ => 0).2 = true := by
  obtain ⟨labelTrees⟩ := remover
  cases labelTrees <;> decide +kernel

-- 三つ目の番号がつけられない。十六ビットでも三十二ビットでも同じである。
theorem stripe_overflows :
    stripe.rows * stripe.columns < 2 ^ 32 / 2 ∧ ∀ remover : GroupsRemover, ∃ message,
      (remover.removeGroups .way8 (Background.ofLayer false).isBg stale stripe 3 fun _ _ => 0).2 =
        .error (.labelOverflow message) :=
  ⟨by decide, fun remover => exists_message (stripe_labelOverflowed remover)⟩

end Ranger.Denoise
