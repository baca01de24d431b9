import Mathlib.Data.Finset.Prod
import Mathlib.Tactic.Ring
import Ranger.Lib.Run
import Ranger.Denoise.Trees

/-!
# 走査の不変条件

走査の途中の番号の画像と木が、調べた前景の画素の、連結の仮の番号であることを示す。
-/

namespace Ranger.Denoise
open Ranger.Lib

abbrev Pixel := ℕ × ℕ

def Neighbour : ConnectivityType → Pixel → Pixel → Prop
  | .way4, p, q => p.1 = q.1 ∧ (p.2 + 1 = q.2 ∨ q.2 + 1 = p.2) ∨ p.2 = q.2 ∧ (p.1 + 1 = q.1 ∨ q.1 + 1 = p.1)
  | .way8, p, q => p ≠ q ∧ p.1 ≤ q.1 + 1 ∧ q.1 ≤ p.1 + 1 ∧ p.2 ≤ q.2 + 1 ∧ q.2 ≤ p.2 + 1

instance Neighbour.decidable (connectivity : ConnectivityType) (p q : Pixel) : Decidable (Neighbour connectivity p q) :=
  match connectivity with
  | .way4 => inferInstanceAs (Decidable (_ ∨ _))
  | .way8 => inferInstanceAs (Decidable (_ ∧ _))

theorem Neighbour.symm {connectivity : ConnectivityType} {p q : Pixel} (h : Neighbour connectivity p q) :
    Neighbour connectivity q p := by
  cases connectivity with
  | way4 =>
      simp only [Neighbour] at h ⊢
      omega
  | way8 => exact ⟨h.1.symm, h.2.2.1, h.2.1, h.2.2.2.2, h.2.2.2.1⟩

namespace Image

variable {α : Type}

/-- 走査で画素を調べる順番。 -/
def index (image : Image α) (p : Pixel) : ℕ := p.1 * image.columns + p.2

def pixels (image : Image α) : Finset Pixel := Finset.range image.rows ×ˢ Finset.range image.columns

theorem mem_pixels {image : Image α} {p : Pixel} : p ∈ image.pixels ↔ p.1 < image.rows ∧ p.2 < image.columns := by
  rw [pixels, Finset.mem_product, Finset.mem_range, Finset.mem_range]

end Image

theorem row_end_le {n r r' : ℕ} (hr : r < r') : r * n + n ≤ r' * n := by
  rw [← Nat.succ_mul]
  exact Nat.mul_le_mul_right n hr

/-- `r * n + c` から `r` と `c` が決まる。 -/
theorem address_inj {n r c r' c' : ℕ} (hc : c < n) (hc' : c' < n) (h : r * n + c = r' * n + c') : r = r' ∧ c = c' := by
  rcases lt_trichotomy r r' with hlt | rfl | hlt
  · have hend := row_end_le (n := n) hlt
    omega
  · omega
  · have hend := row_end_le (n := n) hlt
    omega

theorem address_lt_iff {n r c r' c' : ℕ} (hc : c < n) (hc' : c' < n) :
    r * n + c < r' * n + c' ↔ r < r' ∨ r = r' ∧ c < c' := by
  rcases lt_trichotomy r r' with hlt | rfl | hlt
  · have hend := row_end_le (n := n) hlt
    omega
  · omega
  · have hend := row_end_le (n := n) hlt
    omega

theorem Image.pixel_set {α : Type} (image : Image α) {r c r' c' : ℕ} (hc : c < image.step) (hc' : c' < image.step) (x : α) :
    (image.set (image.row r + c) x).pixel r' c' = if r' = r ∧ c' = c then x else image.pixel r' c' := by
  have hiff : ((r' * image.step : ℤ) + c' = r * image.step + c) ↔ r' = r ∧ c' = c := by
    refine ⟨fun h => address_inj hc' hc (by exact_mod_cast h), ?_⟩
    rintro ⟨rfl, rfl⟩
    rfl
  show Function.update image.data (image.row r + c) x (r' * image.step + c') = _
  rw [Function.update_apply, row]
  simp only [hiff]
  rfl

/-! ## 前景の連結 -/

section Foreground

variable (connectivity : ConnectivityType) (isBg : UInt8 → Bool) (image : Image UInt8)

def Foreground (p : Pixel) : Prop := p ∈ image.pixels ∧ isBg (image.pixel p.1 p.2) = false

instance Foreground.decidable (p : Pixel) : Decidable (Foreground isBg image p) := inferInstanceAs (Decidable (_ ∧ _))

/-- 隣り合う前景の画素。 -/
def Linked (p q : Pixel) : Prop := Foreground isBg image p ∧ Foreground isBg image q ∧ Neighbour connectivity p q

instance Linked.decidable (p q : Pixel) : Decidable (Linked connectivity isBg image p q) :=
  inferInstanceAs (Decidable (_ ∧ _))

/-- 先に調べる前景の隣がない。 -/
def IsStart (p : Pixel) : Prop := ∀ q ∈ image.pixels, Linked connectivity isBg image p q → image.index p ≤ image.index q

instance IsStart.decidable (p : Pixel) : Decidable (IsStart connectivity isBg image p) :=
  inferInstanceAs (Decidable (∀ q ∈ image.pixels, _))

/-- 先に調べる前景の隣がない前景の画素。 -/
def starts : Finset Pixel :=
  image.pixels.filter fun p => Foreground isBg image p ∧ IsStart connectivity isBg image p

/-- 番号が `k` より小さい前景の画素。 -/
def scannedPixels (k : ℕ) : Set Pixel := {p | Foreground isBg image p ∧ image.index p < k}

end Foreground

variable {connectivity : ConnectivityType} {isBg : UInt8 → Bool} {image : Image UInt8} {p q : Pixel} {k : ℕ}

theorem Linked.symm (h : Linked connectivity isBg image p q) : Linked connectivity isBg image q p :=
  ⟨h.2.1, h.1, h.2.2.symm⟩

theorem index_inj (hp : p ∈ image.pixels) (hq : q ∈ image.pixels) (h : image.index p = image.index q) : p = q := by
  obtain ⟨hrow, hcol⟩ := address_inj (Image.mem_pixels.mp hp).2 (Image.mem_pixels.mp hq).2 h
  exact Prod.ext hrow hcol

theorem index_lt_iff (hp : p ∈ image.pixels) (hq : q ∈ image.pixels) :
    image.index p < image.index q ↔ p.1 < q.1 ∨ p.1 = q.1 ∧ p.2 < q.2 :=
  address_lt_iff (Image.mem_pixels.mp hp).2 (Image.mem_pixels.mp hq).2

theorem scannedPixels_succ (hp : Foreground isBg image p) (hk : image.index p = k) :
    scannedPixels isBg image (k + 1) = insert p (scannedPixels isBg image k) := by
  ext q
  constructor
  · rintro ⟨hq, hlt⟩
    rcases Nat.lt_succ_iff_lt_or_eq.mp hlt with hlt | heq
    · exact Or.inr ⟨hq, hlt⟩
    · exact Or.inl (index_inj hq.1 hp.1 (heq.trans hk.symm))
  · rintro (rfl | ⟨hq, hlt⟩)
    · exact ⟨hp, Nat.lt_succ_of_le hk.le⟩
    · exact ⟨hq, Nat.lt_succ_of_lt hlt⟩

theorem scannedPixels_skip (hp : p ∈ image.pixels) (hbg : isBg (image.pixel p.1 p.2) = true) (hk : image.index p = k) :
    scannedPixels isBg image (k + 1) = scannedPixels isBg image k := by
  ext q
  constructor
  · rintro ⟨hq, hlt⟩
    rcases Nat.lt_succ_iff_lt_or_eq.mp hlt with hlt | heq
    · exact ⟨hq, hlt⟩
    · obtain rfl := index_inj hq.1 hp (heq.trans hk.symm)
      exact absurd (hbg.symm.trans hq.2) (by decide)
  · rintro ⟨hq, hlt⟩
    exact ⟨hq, Nat.lt_succ_of_lt hlt⟩

/-! ## 窓の四つの隣 -/

inductive Slot
  | a
  | b
  | c
  | d

/-- 画素 `q` は、画素 `p` の窓の位置 `σ` にある。 -/
def Slot.At : Slot → Pixel → Pixel → Prop
  | a, p, q => q.1 + 1 = p.1 ∧ q.2 + 1 = p.2
  | b, p, q => q.1 + 1 = p.1 ∧ q.2 = p.2
  | c, p, q => q.1 + 1 = p.1 ∧ q.2 = p.2 + 1
  | d, p, q => q.1 = p.1 ∧ q.2 + 1 = p.2

def Window.slot {α : Type} [OfNat α 0] (w : Window α) : Slot → α
  | .a => w.a
  | .b => w.b
  | .c => w.c
  | .d => w.d

theorem Slot.At.unique {σ : Slot} {q' : Pixel} (h : σ.At p q) (h' : σ.At p q') : q = q' := by
  cases σ <;> obtain ⟨hrow, hcol⟩ := h <;> obtain ⟨hrow', hcol'⟩ := h' <;> exact Prod.ext (by omega) (by omega)

theorem Slot.At.index_lt {σ : Slot} (h : σ.At p q) (hp : p ∈ image.pixels) (hq : q ∈ image.pixels) :
    image.index q < image.index p := by
  rw [index_lt_iff hq hp]
  cases σ <;> obtain ⟨hrow, hcol⟩ := h <;> omega

theorem Slot.At.neighbour8 {σ : Slot} (h : σ.At p q) : Neighbour .way8 p q := by
  have hne : p ≠ q := by
    rintro rfl
    cases σ <;> obtain ⟨hrow, hcol⟩ := h <;> omega
  refine ⟨hne, ?_⟩
  cases σ <;> obtain ⟨hrow, hcol⟩ := h <;> omega

theorem Slot.At.neighbour4_above (h : Slot.b.At p q) : Neighbour .way4 p q := Or.inr ⟨h.2.symm, Or.inr h.1⟩

theorem Slot.At.neighbour4_left (h : Slot.d.At p q) : Neighbour .way4 p q := Or.inl ⟨h.1.symm, Or.inr h.2⟩

theorem exists_slot8 (hp : p ∈ image.pixels) (hq : q ∈ image.pixels) (h : Neighbour .way8 p q)
    (hlt : image.index q < image.index p) : ∃ σ : Slot, σ.At p q := by
  rw [index_lt_iff hq hp] at hlt
  obtain ⟨-, h₁, h₂, h₃, h₄⟩ := h
  rcases hlt with hrow | ⟨hrow, hcol⟩
  · have hup : q.1 + 1 = p.1 := by omega
    rcases Nat.lt_trichotomy q.2 p.2 with hcol | hcol | hcol
    · exact ⟨.a, hup, by omega⟩
    · exact ⟨.b, hup, hcol⟩
    · exact ⟨.c, hup, by omega⟩
  · exact ⟨.d, hrow, by omega⟩

theorem exists_slot4 (hp : p ∈ image.pixels) (hq : q ∈ image.pixels) (h : Neighbour .way4 p q)
    (hlt : image.index q < image.index p) : Slot.b.At p q ∨ Slot.d.At p q := by
  rw [index_lt_iff hq hp] at hlt
  rcases h with ⟨hrow, hcol⟩ | ⟨hcol, hrow⟩
  · exact Or.inr ⟨hrow.symm, by omega⟩
  · exact Or.inl ⟨by omega, hcol.symm⟩

/-! ## 走査の途中 -/

/-- 番号が `k` の手前まで調べた番号の画像と木。 -/
structure Scanned (connectivity : ConnectivityType) (isBg : UInt8 → Bool) (image : Image UInt8) (limit k : ℕ) (s : Scan) :
    Prop where
  rows : s.labels.rows = image.rows
  columns : s.labels.columns = image.columns
  step : s.labels.step = image.columns
  provisional : Provisional (Linked connectivity isBg image) (IsStart connectivity isBg image)
    (scannedPixels isBg image k) (fun p => s.labels.pixel p.1 p.2) s.labelTrees.labels.data s.labelTrees.nextFree
  background : ∀ p ∈ image.pixels, isBg (image.pixel p.1 p.2) = true → image.index p < k →
    s.labels.pixel p.1 p.2 = 0
  size : s.labelTrees.labels.size = s.labelTrees.nextFree
  labelsSize : s.labelTrees.labelsSize = limit
  le : s.labelTrees.nextFree ≤ limit

/-- 画素 `p` にある窓。 -/
structure View (isBg : UInt8 → Bool) (image : Image UInt8) (labels : Image ℕ) (p : Pixel) (img : Window UInt8)
    (lbl : Window ℕ) : Prop where
  current : img.e = image.pixel p.1 p.2
  target : lbl.downRow = labels.row p.1 + p.2
  foreground : ∀ σ, isBg (img.slot σ) = false ↔ ∃ q, Foreground isBg image q ∧ Slot.At σ p q
  label : ∀ σ q, Foreground isBg image q → Slot.At σ p q → lbl.slot σ = labels.pixel q.1 q.2
  above : ∀ q ∈ image.pixels, Slot.b.At p q → lbl.b = labels.pixel q.1 q.2
  top : p.1 = 0 → lbl.b = 0

section Scanned

variable {limit l : ℕ} {s : Scan} {img : Window UInt8} {lbl : Window ℕ} {trees : EquivalenceLabelTrees}

theorem Scanned.pixel_set (h : Scanned connectivity isBg image limit k s) (hp : p ∈ image.pixels)
    (hq : q ∈ image.pixels) (l : ℕ) :
    (s.labels.set (s.labels.row p.1 + p.2) l).pixel q.1 q.2 = if q = p then l else s.labels.pixel q.1 q.2 := by
  have hp' : p.2 < s.labels.step := by
    rw [h.step]
    exact (Image.mem_pixels.mp hp).2
  have hq' : q.2 < s.labels.step := by
    rw [h.step]
    exact (Image.mem_pixels.mp hq).2
  rw [Image.pixel_set s.labels hp' hq']
  simp only [Prod.ext_iff]

/-- 番号が `k` の画素 `p` に番号 `l` を書くと、ほかの画素の番号は変わらない。 -/
theorem Scanned.write (h : Scanned connectivity isBg image limit k s) (hp : p ∈ image.pixels) (hk : image.index p = k)
    (l : ℕ) :
    (s.labels.set (s.labels.row p.1 + p.2) l).pixel p.1 p.2 = l ∧
      ∀ q ∈ scannedPixels isBg image k, (s.labels.set (s.labels.row p.1 + p.2) l).pixel q.1 q.2 = s.labels.pixel q.1 q.2 := by
  refine ⟨by rw [h.pixel_set hp hp, if_pos rfl], fun q hq => ?_⟩
  rw [h.pixel_set hp hq.1.1, if_neg]
  rintro rfl
  exact absurd hk hq.2.ne

/-- 画素 `p` を調べ、番号 `l` を書いて、木を `trees` にした後。 -/
theorem Scanned.assign (h : Scanned connectivity isBg image limit k s) (hp : Foreground isBg image p)
    (hk : image.index p = k)
    (hprov : Provisional (Linked connectivity isBg image) (IsStart connectivity isBg image)
      (insert p (scannedPixels isBg image k)) (fun q => (s.labels.set (s.labels.row p.1 + p.2) l).pixel q.1 q.2)
      trees.labels.data trees.nextFree)
    (hsize : trees.labels.size = trees.nextFree) (hlimit : trees.labelsSize = limit) (hle : trees.nextFree ≤ limit) :
    Scanned connectivity isBg image limit (k + 1) ⟨s.labels.set (s.labels.row p.1 + p.2) l, trees⟩ where
  rows := h.rows
  columns := h.columns
  step := h.step
  provisional := by
    rw [scannedPixels_succ hp hk]
    exact hprov
  background q hq hbg hlt := by
    have hne : q ≠ p := by
      rintro rfl
      exact absurd (hbg.symm.trans hp.2) (by decide)
    have hlt' : image.index q < k := by
      rcases Nat.lt_succ_iff_lt_or_eq.mp hlt with hlt | heq
      · exact hlt
      · exact absurd (index_inj hq hp.1 (heq.trans hk.symm)) hne
    show (s.labels.set (s.labels.row p.1 + p.2) l).pixel q.1 q.2 = 0
    rw [h.pixel_set hp.1 hq, if_neg hne]
    exact h.background q hq hbg hlt'
  size := hsize
  labelsSize := hlimit
  le := hle

theorem Scanned.skip (h : Scanned connectivity isBg image limit k s) (hp : p ∈ image.pixels)
    (hbg : isBg (image.pixel p.1 p.2) = true) (hk : image.index p = k) :
    Scanned connectivity isBg image limit (k + 1) ⟨s.labels.set (s.labels.row p.1 + p.2) 0, s.labelTrees⟩ where
  rows := h.rows
  columns := h.columns
  step := h.step
  provisional := by
    rw [scannedPixels_skip hp hbg hk]
    exact h.provisional.congr (h.write hp hk 0).2
  background q hq hbg' hlt := by
    show (s.labels.set (s.labels.row p.1 + p.2) 0).pixel q.1 q.2 = 0
    rw [h.pixel_set hp hq]
    split_ifs with hqp
    · rfl
    · rcases Nat.lt_succ_iff_lt_or_eq.mp hlt with hlt | heq
      · exact h.background q hq hbg' hlt
      · exact absurd (index_inj hq hp (heq.trans hk.symm)) hqp
  size := h.size
  labelsSize := h.labelsSize
  le := h.le

/-! ## 画素の一歩 -/

def Overflows (connectivity : ConnectivityType) (isBg : UInt8 → Bool) (image : Image UInt8) (limit : ℕ) (e : Exception) :
    Prop :=
  (∃ message, e = .labelOverflow message) ∧ limit ≤ (starts connectivity isBg image).card

/-- 画素 `p` の一歩の約束。 -/
def Advances (connectivity : ConnectivityType) (isBg : UInt8 → Bool) (image : Image UInt8) (limit k : ℕ) (s : Scan)
    (p : Pixel) (r : Except Exception (ℕ × EquivalenceLabelTrees)) : Prop :=
  Yields r (fun r => Scanned connectivity isBg image limit (k + 1) ⟨s.labels.set (s.labels.row p.1 + p.2) r.1, r.2⟩)
    (Overflows connectivity isBg image limit)

theorem not_isStart (hlinked : Linked connectivity isBg image p q) (hlt : image.index q < image.index p) :
    ¬ IsStart connectivity isBg image p :=
  fun hstart => absurd (hstart q hlinked.2.1.1 hlinked) (Nat.not_le.mpr hlt)

theorem Scanned.copy (h : Scanned connectivity isBg image limit k s) (hk : image.index p = k)
    (hlinked : Linked connectivity isBg image p q) (hlt : image.index q < k) (hl : l = s.labels.pixel q.1 q.2)
    (hcover : ∀ u ∈ scannedPixels isBg image k, Linked connectivity isBg image p u →
      root s.labelTrees.labels.data (s.labels.pixel u.1 u.2) = root s.labelTrees.labels.data (s.labels.pixel q.1 q.2)) :
    Advances connectivity isBg image limit k s p (pure (l, s.labelTrees)) := by
  obtain ⟨hself, hkeep⟩ := h.write hlinked.1.1 hk l
  exact h.assign hlinked.1 hk
    (h.provisional.copy (fun _ _ => Linked.symm) (not_isStart hlinked (hk ▸ hlt)) ⟨hlinked.2.1, hlt⟩ hlinked hcover
      (hself.trans hl) hkeep)
    h.size h.labelsSize h.le

theorem Scanned.union (h : Scanned connectivity isBg image limit k s) (hk : image.index p = k) {q' : Pixel} {l' : ℕ}
    (hlinked : Linked connectivity isBg image p q) (hlinked' : Linked connectivity isBg image p q')
    (hlt : image.index q < k) (hlt' : image.index q' < k) (hl : l = s.labels.pixel q.1 q.2)
    (hl' : l' = s.labels.pixel q'.1 q'.2)
    (hcover : ∀ u ∈ scannedPixels isBg image k, Linked connectivity isBg image p u →
      root s.labelTrees.labels.data (s.labels.pixel u.1 u.2) = root s.labelTrees.labels.data (s.labels.pixel q.1 q.2) ∨
      root s.labelTrees.labels.data (s.labels.pixel u.1 u.2) =
        root s.labelTrees.labels.data (s.labels.pixel q'.1 q'.2)) :
    Advances connectivity isBg image limit k s p (pure (s.labelTrees.unionTrees l l')) := by
  subst hl hl'
  have hprov := h.provisional
  have hunited := EquivalenceLabelTrees.unionTrees_united hprov.forest (s.labels.pixel q.1 q.2) (s.labels.pixel q'.1 q'.2)
  obtain ⟨hself, hkeep⟩ := h.write hlinked.1.1 hk
    (s.labelTrees.unionTrees (s.labels.pixel q.1 q.2) (s.labels.pixel q'.1 q'.2)).1
  have hq : q ∈ scannedPixels isBg image k := ⟨hlinked.2.1, hlt⟩
  have hq' : q' ∈ scannedPixels isBg image k := ⟨hlinked'.2.1, hlt'⟩
  have hpos := lt_min (hprov.root_pos _ (hprov.label_pos q hq) (hprov.label_lt q hq))
    (hprov.root_pos _ (hprov.label_pos q' hq') (hprov.label_lt q' hq'))
  have hbelow := (min_le_left _ (root s.labelTrees.labels.data (s.labels.pixel q'.1 q'.2))).trans_lt
    ((root_le s.labelTrees.labels.data _).trans_lt (hprov.label_lt q hq))
  have hroot := hunited.merged.root_min hprov.forest
  rw [← hunited.value] at hpos hbelow hroot
  have hjoin := hprov.join (fun _ _ => Linked.symm) (not_isStart hlinked (hk ▸ hlt)) hq hq' hlinked hlinked'
    hunited.forest hunited.merged hpos hbelow (hroot.trans hunited.value) hcover hself hkeep
  rw [← hunited.nextFree] at hjoin
  refine h.assign hlinked.1 hk hjoin ?_ (hunited.labelsSize.trans h.labelsSize) ?_
  · rw [hunited.size, hunited.nextFree, h.size]
  · rw [hunited.nextFree]
    exact h.le

theorem isStart_of_none (hp : Foreground isBg image p) (hk : image.index p = k)
    (hnone : ∀ u ∈ scannedPixels isBg image k, ¬ Linked connectivity isBg image p u) :
    p ∈ starts connectivity isBg image := by
  refine Finset.mem_filter.mpr ⟨hp.1, hp, fun q _ hlinked => ?_⟩
  by_contra hlt
  exact hnone q ⟨hlinked.2.1, hk ▸ Nat.lt_of_not_le hlt⟩ hlinked

/-- 調べた画素の番号の数は、先に調べる隣のない画素の数である。 -/
theorem Scanned.card_starts (h : Scanned connectivity isBg image limit k s) :
    ((starts connectivity isBg image).filter fun p => image.index p < k).card + 1 = s.labelTrees.nextFree := by
  apply h.provisional.card_starts
  intro p
  rw [Finset.mem_filter, starts, Finset.mem_filter]
  constructor
  · rintro ⟨⟨-, hp, hstart⟩, hlt⟩
    exact ⟨⟨hp, hlt⟩, hstart⟩
  · rintro ⟨⟨hp, hlt⟩, hstart⟩
    exact ⟨⟨hp.1, hp, hstart⟩, hlt⟩

theorem Scanned.fresh (h : Scanned connectivity isBg image limit k s) (hk : image.index p = k)
    (hp : Foreground isBg image p)
    (hnone : ∀ u ∈ scannedPixels isBg image k, ¬ Linked connectivity isBg image p u) :
    Advances connectivity isBg image limit k s p s.labelTrees.makeLabel := by
  have hstart := isStart_of_none hp hk hnone
  rw [EquivalenceLabelTrees.makeLabel]
  split_ifs with hfull
  · -- 番号が尽きたとき、`p` の手前までに番号の上限より一つ少ない画素がある。
    refine ⟨⟨_, rfl⟩, ?_⟩
    have hcount := h.card_starts
    have hlt : ((starts connectivity isBg image).filter fun p => image.index p < k).card <
        (starts connectivity isBg image).card := by
      apply Finset.card_lt_card
      refine Finset.filter_ssubset.mpr ⟨p, hstart, ?_⟩
      rw [hk]
      exact lt_irrefl k
    rw [h.labelsSize] at hfull
    omega
  · obtain ⟨hself, hkeep⟩ := h.write hp.1 hk s.labelTrees.nextFree
    have hfresh := h.provisional.fresh (fun _ _ => Linked.symm) (Finset.mem_filter.mp hstart).2.2 hnone hself hkeep
    rw [h.labelsSize] at hfull
    apply h.assign hp hk
    · show Provisional _ _ _ _ (Function.update s.labelTrees.labels.data s.labelTrees.labels.size s.labelTrees.nextFree)
        (s.labelTrees.nextFree + 1)
      rw [h.size]
      exact hfresh
    · exact congrArg (· + 1) h.size
    · exact h.labelsSize
    · exact Nat.lt_of_le_of_ne h.le hfull

/-! ## 窓からの一歩 -/

/-- 窓の前景の位置には、先に調べた前景の隣がある。 -/
theorem View.exists_linked {σ : Slot} (hv : View isBg image s.labels p img lbl) (hp : Foreground isBg image p)
    (hk : image.index p = k) (hnear : ∀ q, σ.At p q → Neighbour connectivity p q) (hσ : isBg (img.slot σ) = false) :
    ∃ q, σ.At p q ∧ Linked connectivity isBg image p q ∧ image.index q < k ∧ lbl.slot σ = s.labels.pixel q.1 q.2 := by
  obtain ⟨q, hq, hat⟩ := (hv.foreground σ).mp hσ
  exact ⟨q, hat, ⟨hp, hq, hnear q hat⟩, hk ▸ hat.index_lt hp.1 hq.1, hv.label σ q hq hat⟩

theorem View.exists_linked8 {σ : Slot} (hv : View isBg image s.labels p img lbl) (hp : Foreground isBg image p)
    (hk : image.index p = k) (hσ : isBg (img.slot σ) = false) :
    ∃ q, σ.At p q ∧ Linked .way8 isBg image p q ∧ image.index q < k ∧ lbl.slot σ = s.labels.pixel q.1 q.2 :=
  hv.exists_linked hp hk (fun _ => Slot.At.neighbour8) hσ

theorem View.not_at {σ : Slot} (hv : View isBg image s.labels p img lbl) (hσ : isBg (img.slot σ) = true)
    (hq : Foreground isBg image q) : ¬ σ.At p q := by
  intro hat
  have hfg := (hv.foreground σ).mpr ⟨q, hq, hat⟩
  exact absurd (hσ.symm.trans hfg) (by decide)

/-- 上の画素の番号が `0` でないのは、上の画素が前景のときに限る。 -/
theorem View.above_iff (hv : View isBg image s.labels p img lbl) (h : Scanned connectivity isBg image limit k s)
    (hp : p ∈ image.pixels) (hk : image.index p = k) : lbl.b ≠ 0 ↔ isBg (img.slot .b) = false := by
  rw [hv.foreground]
  constructor
  · intro hne
    have hrow : p.1 ≠ 0 := fun hzero => hne (hv.top hzero)
    obtain ⟨hp₁, hp₂⟩ := Image.mem_pixels.mp hp
    have hq : (p.1 - 1, p.2) ∈ image.pixels := Image.mem_pixels.mpr ⟨by dsimp only; omega, hp₂⟩
    have hat : Slot.b.At p (p.1 - 1, p.2) := ⟨by dsimp only; omega, rfl⟩
    refine ⟨(p.1 - 1, p.2), ⟨hq, Bool.eq_false_of_not_eq_true fun hbg => hne ?_⟩, hat⟩
    rw [hv.above _ hq hat]
    exact h.background _ hq hbg (hk ▸ hat.index_lt hp hq)
  · rintro ⟨q, hq, hat⟩
    rw [hv.above q hq.1 hat]
    exact (h.provisional.label_pos q ⟨hq, hk ▸ hat.index_lt hp hq.1⟩).ne'

theorem Slot.At.near_above {σ : Slot} {u : Pixel} (hu : σ.At p u) (hq : Slot.b.At p q) :
    u = q ∨ Neighbour .way8 u q := by
  rcases eq_or_ne u q with heq | hne
  · exact Or.inl heq
  · refine Or.inr ⟨hne, ?_⟩
    obtain ⟨hrow', hcol'⟩ := hq
    cases σ <;> obtain ⟨hrow, hcol⟩ := hu <;> omega

theorem Slot.At.left_corner {u : Pixel} (hu : Slot.d.At p u) (hq : Slot.a.At p q) : Neighbour .way8 u q := by
  obtain ⟨hrow, hcol⟩ := hu
  obtain ⟨hrow', hcol'⟩ := hq
  refine ⟨?_, by omega, by omega, by omega, by omega⟩
  rintro rfl
  omega

/-- 左の画素は、左上の画素の下にある。 -/
theorem Scanned.left_eq_corner (h : Scanned .way8 isBg image limit k s) {u : Pixel}
    (hu : u ∈ scannedPixels isBg image k) (hq : q ∈ scannedPixels isBg image k) (hat : Slot.d.At p u)
    (hat' : Slot.a.At p q) :
    root s.labelTrees.labels.data (s.labels.pixel u.1 u.2) = root s.labelTrees.labels.data (s.labels.pixel q.1 q.2) :=
  h.provisional.complete u hu q hq ⟨hu.1, hq.1, hat.left_corner hat'⟩

theorem Scanned.way8_right (h : Scanned .way8 isBg image limit k s) (hp : Foreground isBg image p)
    (hk : image.index p = k) (hv : View isBg image s.labels p img lbl) (hb : isBg (img.slot .b) = true)
    (hc : isBg (img.slot .c) = false) :
    Advances .way8 isBg image limit k s p
      (if !isBg img.a then pure (s.labelTrees.unionTrees lbl.c lbl.a)
      else if !isBg img.d then pure (s.labelTrees.unionTrees lbl.c lbl.d)
      else pure (lbl.c, s.labelTrees)) := by
  obtain ⟨q, hat, hlinked, hlt, hlabel⟩ := hv.exists_linked8 hp hk hc
  cases ha : isBg img.a with
  | false =>
      obtain ⟨q', hat', hlinked', hlt', hlabel'⟩ := hv.exists_linked8 (σ := .a) hp hk ha
      refine h.union hk hlinked hlinked' hlt hlt' hlabel hlabel' fun u hu hpu => ?_
      obtain ⟨σ, hσ⟩ := exists_slot8 hp.1 hu.1.1 hpu.2.2 (hk ▸ hu.2)
      cases σ with
      | a => exact Or.inr (by rw [hσ.unique hat'])
      | b => exact absurd hσ (hv.not_at hb hu.1)
      | c => exact Or.inl (by rw [hσ.unique hat])
      | d => exact Or.inr (h.left_eq_corner hu ⟨hlinked'.2.1, hlt'⟩ hσ hat')
  | true =>
      cases hd : isBg img.d with
      | false =>
          obtain ⟨q', hat', hlinked', hlt', hlabel'⟩ := hv.exists_linked8 (σ := .d) hp hk hd
          refine h.union hk hlinked hlinked' hlt hlt' hlabel hlabel' fun u hu hpu => ?_
          obtain ⟨σ, hσ⟩ := exists_slot8 hp.1 hu.1.1 hpu.2.2 (hk ▸ hu.2)
          cases σ with
          | a => exact absurd hσ (hv.not_at ha hu.1)
          | b => exact absurd hσ (hv.not_at hb hu.1)
          | c => exact Or.inl (by rw [hσ.unique hat])
          | d => exact Or.inr (by rw [hσ.unique hat'])
      | true =>
          refine h.copy hk hlinked hlt hlabel fun u hu hpu => ?_
          obtain ⟨σ, hσ⟩ := exists_slot8 hp.1 hu.1.1 hpu.2.2 (hk ▸ hu.2)
          cases σ with
          | a => exact absurd hσ (hv.not_at ha hu.1)
          | b => exact absurd hσ (hv.not_at hb hu.1)
          | c => rw [hσ.unique hat]
          | d => exact absurd hσ (hv.not_at hd hu.1)

theorem Scanned.way8_left (h : Scanned .way8 isBg image limit k s) (hp : Foreground isBg image p)
    (hk : image.index p = k) (hv : View isBg image s.labels p img lbl) (hb : isBg (img.slot .b) = true)
    (hc : isBg (img.slot .c) = true) :
    Advances .way8 isBg image limit k s p
      (if !isBg img.a then pure (lbl.a, s.labelTrees)
      else if !isBg img.d then pure (lbl.d, s.labelTrees)
      else s.labelTrees.makeLabel) := by
  cases ha : isBg img.a with
  | false =>
      obtain ⟨q, hat, hlinked, hlt, hlabel⟩ := hv.exists_linked8 (σ := .a) hp hk ha
      refine h.copy hk hlinked hlt hlabel fun u hu hpu => ?_
      obtain ⟨σ, hσ⟩ := exists_slot8 hp.1 hu.1.1 hpu.2.2 (hk ▸ hu.2)
      cases σ with
      | a => rw [hσ.unique hat]
      | b => exact absurd hσ (hv.not_at hb hu.1)
      | c => exact absurd hσ (hv.not_at hc hu.1)
      | d => exact h.left_eq_corner hu ⟨hlinked.2.1, hlt⟩ hσ hat
  | true =>
      cases hd : isBg img.d with
      | false =>
          obtain ⟨q, hat, hlinked, hlt, hlabel⟩ := hv.exists_linked8 (σ := .d) hp hk hd
          refine h.copy hk hlinked hlt hlabel fun u hu hpu => ?_
          obtain ⟨σ, hσ⟩ := exists_slot8 hp.1 hu.1.1 hpu.2.2 (hk ▸ hu.2)
          cases σ with
          | a => exact absurd hσ (hv.not_at ha hu.1)
          | b => exact absurd hσ (hv.not_at hb hu.1)
          | c => exact absurd hσ (hv.not_at hc hu.1)
          | d => rw [hσ.unique hat]
      | true =>
          refine h.fresh hk hp fun u hu hpu => ?_
          obtain ⟨σ, hσ⟩ := exists_slot8 hp.1 hu.1.1 hpu.2.2 (hk ▸ hu.2)
          cases σ with
          | a => exact hv.not_at (σ := .a) ha hu.1 hσ
          | b => exact hv.not_at (σ := .b) hb hu.1 hσ
          | c => exact hv.not_at (σ := .c) hc hu.1 hσ
          | d => exact hv.not_at (σ := .d) hd hu.1 hσ

/-- 八近傍の一歩。読まない隣は、読んだ隣とすでに同じ木にある。 -/
theorem Scanned.way8 (h : Scanned .way8 isBg image limit k s) (hp : p ∈ image.pixels) (hk : image.index p = k)
    (hv : View isBg image s.labels p img lbl) :
    Advances .way8 isBg image limit k s p (processPixel .way8 isBg img lbl s.labelTrees) := by
  cases he : isBg img.e with
  | true =>
      rw [processPixel, he]
      exact h.skip hp (hv.current ▸ he) hk
  | false =>
      have hfg : Foreground isBg image p := ⟨hp, hv.current ▸ he⟩
      by_cases hb : lbl.b ≠ 0
      · obtain ⟨q, hat, hlinked, hlt, hlabel⟩ := hv.exists_linked8 hfg hk ((hv.above_iff h hp hk).mp hb)
        have hrun : processPixel .way8 isBg img lbl s.labelTrees = pure (lbl.b, s.labelTrees) := by
          simp [processPixel, he, hb]
        rw [hrun]
        refine h.copy hk hlinked hlt hlabel fun u hu hpu => ?_
        obtain ⟨σ, hσ⟩ := exists_slot8 hp hu.1.1 hpu.2.2 (hk ▸ hu.2)
        rcases hσ.near_above hat with rfl | hnear
        · rfl
        · exact h.provisional.complete u hu q ⟨hlinked.2.1, hlt⟩ ⟨hu.1, hlinked.2.1, hnear⟩
      · have hbg : isBg (img.slot .b) = true :=
          Bool.eq_true_of_not_eq_false fun hfalse => hb ((hv.above_iff h hp hk).mpr hfalse)
        cases hc : isBg img.c with
        | false =>
            have hright := h.way8_right hfg hk hv hbg hc
            simpa [processPixel, he, not_not.mp hb, hc] using hright
        | true =>
            have hleft := h.way8_left hfg hk hv hbg hc
            simpa [processPixel, he, not_not.mp hb, hc] using hleft

theorem Scanned.way4 (h : Scanned .way4 isBg image limit k s) (hp : p ∈ image.pixels) (hk : image.index p = k)
    (hv : View isBg image s.labels p img lbl) :
    Advances .way4 isBg image limit k s p (processPixel .way4 isBg img lbl s.labelTrees) := by
  cases he : isBg img.e with
  | true =>
      rw [processPixel, he]
      exact h.skip hp (hv.current ▸ he) hk
  | false =>
      have hfg : Foreground isBg image p := ⟨hp, hv.current ▸ he⟩
      have habove := hv.exists_linked (σ := .b) hfg hk (fun _ => Slot.At.neighbour4_above)
      have hleft := hv.exists_linked (σ := .d) hfg hk (fun _ => Slot.At.neighbour4_left)
      have hslot {u : Pixel} (hu : u ∈ scannedPixels isBg image k) (hpu : Linked .way4 isBg image p u) :
          Slot.b.At p u ∨ Slot.d.At p u := exists_slot4 hp hu.1.1 hpu.2.2 (hk ▸ hu.2)
      cases hb : isBg img.b with
      | false =>
          obtain ⟨q, hat, hlinked, hlt, hlabel⟩ := habove hb
          cases hd : isBg img.d with
          | false =>
              obtain ⟨q', hat', hlinked', hlt', hlabel'⟩ := hleft hd
              have hrun : processPixel .way4 isBg img lbl s.labelTrees = pure (s.labelTrees.unionTrees lbl.d lbl.b) := by
                simp [processPixel, he, hb, hd]
              rw [hrun]
              refine h.union hk hlinked' hlinked hlt' hlt hlabel' hlabel fun u hu hpu => ?_
              rcases hslot hu hpu with hσ | hσ
              · exact Or.inr (by rw [hσ.unique hat])
              · exact Or.inl (by rw [hσ.unique hat'])
          | true =>
              have hrun : processPixel .way4 isBg img lbl s.labelTrees = pure (lbl.b, s.labelTrees) := by
                simp [processPixel, he, hb, hd]
              rw [hrun]
              refine h.copy hk hlinked hlt hlabel fun u hu hpu => ?_
              rcases hslot hu hpu with hσ | hσ
              · rw [hσ.unique hat]
              · exact absurd hσ (hv.not_at hd hu.1)
      | true =>
          cases hd : isBg img.d with
          | false =>
              obtain ⟨q, hat, hlinked, hlt, hlabel⟩ := hleft hd
              have hrun : processPixel .way4 isBg img lbl s.labelTrees = pure (lbl.d, s.labelTrees) := by
                simp [processPixel, he, hb, hd]
              rw [hrun]
              refine h.copy hk hlinked hlt hlabel fun u hu hpu => ?_
              rcases hslot hu hpu with hσ | hσ
              · exact absurd hσ (hv.not_at hb hu.1)
              · rw [hσ.unique hat]
          | true =>
              have hrun : processPixel .way4 isBg img lbl s.labelTrees = s.labelTrees.makeLabel := by
                simp [processPixel, he, hb, hd]
              rw [hrun]
              refine h.fresh hk hfg fun u hu hpu => ?_
              rcases hslot hu hpu with hσ | hσ
              · exact hv.not_at (σ := .b) hb hu.1 hσ
              · exact hv.not_at (σ := .d) hd hu.1 hσ

theorem Scanned.pass (h : Scanned connectivity isBg image limit k s) (hp : p ∈ image.pixels) (hk : image.index p = k)
    (hv : View isBg image s.labels p img lbl) :
    Yields (Denoise.pass connectivity isBg img lbl s) (Scanned connectivity isBg image limit (k + 1))
      (Overflows connectivity isBg image limit) := by
  have hstep : Advances connectivity isBg image limit k s p (processPixel connectivity isBg img lbl s.labelTrees) := by
    cases connectivity with
    | way4 => exact h.way4 hp hk hv
    | way8 => exact h.way8 hp hk hv
  apply hstep.bind
  intro r hr
  rw [← hv.target] at hr
  exact hr

end Scanned

end Ranger.Denoise
