import Mathlib.Data.Set.Card
import Ranger.Denoise.ScanRun
import Ranger.Denoise.GroupsRemover

/-!
# 除去の結果

番号の詰めなおしと画素の数え上げから、`removeGroups` が、小さい連結成分の画素だけを `0` にすることを示す。
-/

namespace Ranger.Denoise
open Ranger.Lib

/-! ## 画素ごとの繰り返し -/

section Pixels

variable {α β : Type} {I : ℕ → β → Prop} {rows columns : ℕ} {visit : β → ℕ → ℕ → β} {b : β}

/-- 画素の順番 `k` の一歩が `I k` から `I (k + 1)` に移すとき、全体は `I (rows * columns)` に移す。 -/
theorem scanPixels_inv
    (hstep : ∀ r c b, r < rows → c < columns → I (r * columns + c) b → I (r * columns + c + 1) (visit b r c))
    (hb : I 0 b) : I (rows * columns) (Image.scanPixels rows columns visit b) := by
  apply foldl_range_inv (I := fun r => I (r * columns))
  · intro r b hr h
    rw [Nat.succ_mul]
    exact foldl_range_inv (I := fun c => I (r * columns + c)) (fun c b hc h => hstep r c b hr hc h) h
  · rwa [Nat.zero_mul]

/-- 画素ごとに、もとの値から `g` で決まる値を書く。 -/
def rewrite (image : Image β) (g : ℕ → ℕ → β → β) : Image β :=
  Image.scanPixels image.rows image.columns
    (fun target r c => target.set (target.row r + c) (g r c (target.pixel r c))) image

/-- 順番が `k` の手前まで書き換えた画像。 -/
structure Rewritten (image : Image β) (g : ℕ → ℕ → β → β) (k : ℕ) (target : Image β) : Prop where
  rows : target.rows = image.rows
  columns : target.columns = image.columns
  step : target.step = image.step
  done : ∀ p ∈ image.pixels, image.index p < k → target.pixel p.1 p.2 = g p.1 p.2 (image.pixel p.1 p.2)
  todo : ∀ p ∈ image.pixels, k ≤ image.index p → target.pixel p.1 p.2 = image.pixel p.1 p.2
  outside : ∀ v, (∀ p ∈ image.pixels, v ≠ image.row p.1 + p.2) → target.data v = image.data v

theorem rewrite_rewritten (image : Image β) (g : ℕ → ℕ → β → β) :
    Rewritten image g (image.rows * image.columns) (rewrite image g) := by
  apply scanPixels_inv
  · intro r c target hr hc h
    have hp : (r, c) ∈ image.pixels := Image.mem_pixels.mpr ⟨hr, hc⟩
    have hbound {q : Pixel} (hq : q ∈ image.pixels) : q.2 < target.step := by
      rw [h.step]
      exact (Image.mem_pixels.mp hq).2.trans_le image.columns_le_step
    have hpixel {q : Pixel} (hq : q ∈ image.pixels) (x : β) :
        (target.set (target.row r + c) x).pixel q.1 q.2 = if q = (r, c) then x else target.pixel q.1 q.2 := by
      rw [Image.pixel_set target (hbound hp) (hbound hq)]
      simp only [Prod.ext_iff]
    refine ⟨h.rows, h.columns, h.step, fun q hq hlt => ?_, fun q hq hle => ?_, fun v hv => ?_⟩
    · rw [hpixel hq]
      split_ifs with heq
      · subst heq
        rw [h.todo (r, c) hp le_rfl]
      · refine h.done q hq ((Nat.lt_succ_iff_lt_or_eq.mp hlt).resolve_right fun hidx => heq ?_)
        exact Prod.ext_iff.mpr (address_inj (Image.mem_pixels.mp hq).2 hc hidx)
    · rw [hpixel hq, if_neg]
      · exact h.todo q hq (Nat.le_of_succ_le hle)
      · rintro rfl
        exact absurd hle (Nat.not_succ_le_self _)
    · have hne : v ≠ target.row r + c := by
        rw [Image.row, h.step]
        exact hv (r, c) hp
      show Function.update target.data _ _ v = _
      rw [Function.update_of_ne hne]
      exact h.outside v hv
  · exact ⟨rfl, rfl, rfl, fun p _ hlt => absurd hlt (Nat.not_lt_zero _), fun _ _ _ => rfl, fun _ _ => rfl⟩

theorem index_lt (image : Image β) {p : Pixel} (hp : p ∈ image.pixels) :
    image.index p < image.rows * image.columns := by
  obtain ⟨hr, hc⟩ := Image.mem_pixels.mp hp
  exact Nat.lt_of_lt_of_le (Nat.add_lt_add_left hc _) (row_end_le hr)

theorem card_pixels (image : Image β) : image.pixels.card = image.rows * image.columns := by
  rw [Image.pixels, Finset.card_product, Finset.card_range, Finset.card_range]

theorem card_filter_pixels_lt (image : Image β) (P : Pixel → Prop) [DecidablePred P] :
    (image.pixels.filter P).card < 2 ^ 63 := by
  apply Nat.lt_of_le_of_lt (Finset.card_filter_le _ _)
  rw [card_pixels]
  exact image.fits

end Pixels

/-! ## 画素の数え上げ -/

section Histogram

variable {labels : Image ℕ} {k l : ℕ} {p : Pixel}

/-- 順番が `k` の手前までの、番号 `l` の画素。 -/
def labelled (labels : Image ℕ) (k l : ℕ) : Finset Pixel :=
  labels.pixels.filter fun p => labels.index p < k ∧ labels.pixel p.1 p.2 = l

theorem card_labelled_succ (hp : p ∈ labels.pixels) (hk : labels.index p = k) (l : ℕ) :
    (labelled labels (k + 1) l).card = (labelled labels k l).card + if labels.pixel p.1 p.2 = l then 1 else 0 := by
  have hsplit {q : Pixel} (hq : q ∈ labels.pixels) : labels.index q < k + 1 ↔ labels.index q < k ∨ q = p := by
    rw [Nat.lt_succ_iff_lt_or_eq]
    apply or_congr_right
    refine ⟨fun h => ?_, fun h => h ▸ hk⟩
    have heq : labels.index q = labels.index p := h.trans hk.symm
    exact Prod.ext_iff.mpr (address_inj (Image.mem_pixels.mp hq).2 (Image.mem_pixels.mp hp).2 heq)
  split_ifs with hl
  · have hnot : p ∉ labelled labels k l := fun hmem => absurd hk (Finset.mem_filter.mp hmem).2.1.ne
    rw [← Finset.card_insert_of_notMem hnot]
    congr 1
    ext q
    rw [Finset.mem_insert, labelled, Finset.mem_filter, labelled, Finset.mem_filter]
    constructor
    · rintro ⟨hq, hlt, hlabel⟩
      exact ((hsplit hq).mp hlt).elim (fun h => Or.inr ⟨hq, h, hlabel⟩) Or.inl
    · rintro (rfl | ⟨hq, hlt, hlabel⟩)
      · exact ⟨hp, (hsplit hp).mpr (Or.inr rfl), hl⟩
      · exact ⟨hq, Nat.lt_succ_of_lt hlt, hlabel⟩
  · rw [Nat.add_zero]
    congr 1
    ext q
    rw [labelled, Finset.mem_filter, labelled, Finset.mem_filter]
    constructor
    · rintro ⟨hq, hlt, hlabel⟩
      refine ⟨hq, ((hsplit hq).mp hlt).resolve_right fun heq => hl ?_, hlabel⟩
      rwa [← heq]
    · rintro ⟨hq, hlt, hlabel⟩
      exact ⟨hq, Nat.lt_succ_of_lt hlt, hlabel⟩

theorem toNat_min (a b : UInt64) : (min a b).toNat = min a.toNat b.toNat := by
  show (if a ≤ b then a else b).toNat = _
  split_ifs with h
  · exact (min_eq_left (UInt64.le_iff_toNat_le.mp h)).symm
  · exact (min_eq_right (Nat.le_of_not_le fun hle => h (UInt64.le_iff_toNat_le.mpr hle))).symm

theorem toNat_keep {h binMax : UInt64} {n : ℕ} (hh : h.toNat = min n binMax.toNat) (hn : n < 2 ^ 63) :
    (min (h + 1) binMax).toNat = min (n + 1) binMax.toNat := by
  have hadd : (h + 1).toNat = h.toNat + 1 := by
    rw [UInt64.toNat_add]
    apply Nat.mod_eq_of_lt
    show h.toNat + 1 < 2 ^ 64
    omega
  rw [toNat_min, hadd, hh]
  omega

/-- `histogram` は、番号ごとの画素の数と上限の小さい方である。 -/
theorem histogram_data (hne : labels.isEmpty = false) (imageMax : ℕ) (binMax : UInt64) (l : ℕ) :
    ((histogram labels imageMax binMax).data l).toNat =
      min (labels.pixels.filter fun p => labels.pixel p.1 p.2 = l).card binMax.toNat := by
  have hall : labelled labels (labels.rows * labels.columns) l =
      labels.pixels.filter fun p => labels.pixel p.1 p.2 = l := by
    ext q
    rw [labelled, Finset.mem_filter, Finset.mem_filter]
    exact ⟨fun h => ⟨h.1, h.2.2⟩, fun h => ⟨h.1, index_lt labels h.1, h.2⟩⟩
  rw [histogram, hne, if_neg Bool.false_ne_true, ← hall]
  have hinv : ∀ l, ((labels.forEach (fun bins pixel => bins.set pixel (min (bins.data pixel + 1) binMax))
      (⟨imageMax + 1, fun _ => 0⟩ : Table UInt64)).data l).toNat =
      min (labelled labels (labels.rows * labels.columns) l).card binMax.toNat := by
    apply scanPixels_inv
      (I := fun k (bins : Table UInt64) => ∀ l, (bins.data l).toNat = min (labelled labels k l).card binMax.toNat)
    · intro r c bins hr hc h l
      have hp : (r, c) ∈ labels.pixels := Image.mem_pixels.mpr ⟨hr, hc⟩
      rw [Table.data_set, Function.update_apply]
      have hcard := card_labelled_succ hp rfl l
      have hsmall := card_filter_pixels_lt labels fun p =>
        labels.index p < r * labels.columns + c ∧ labels.pixel p.1 p.2 = l
      show _ = min (labelled labels (labels.index (r, c) + 1) l).card binMax.toNat
      rw [hcard]
      split_ifs with heq heq' heq'
      · subst heq
        exact toNat_keep (h _) hsmall
      · exact absurd heq.symm heq'
      · exact absurd heq'.symm heq
      · exact h l
    · intro l
      have hempty : labelled labels 0 l = ∅ :=
        Finset.filter_eq_empty_iff.mpr fun p _ hp => Nat.not_lt_zero _ hp.1
      rw [hempty, Finset.card_empty, Nat.zero_min]
      rfl
  exact hinv l

end Histogram

/-! ## 最後の番号 -/

section Final

variable {connectivity : ConnectivityType} {bg : Background} {image : Image UInt8} {limit : ℕ} {s : Scan} {p q : Pixel}

/-- 画素 `p` の連結成分の大きさ。 -/
noncomputable def groupSize (connectivity : ConnectivityType) (isBg : UInt8 → Bool) (image : Image UInt8) (p : Pixel) : ℕ :=
  {q | Relation.ReflTransGen (Linked connectivity isBg image) p q}.ncard

theorem foreground_of_reaches {isBg : UInt8 → Bool} (hp : Foreground isBg image p)
    (h : Relation.ReflTransGen (Linked connectivity isBg image) p q) : Foreground isBg image q := by
  cases h with
  | refl => exact hp
  | tail _ hlast => exact hlast.2.1

abbrev Complete (connectivity : ConnectivityType) (bg : Background) (image : Image UInt8) (limit : ℕ) (s : Scan) : Prop :=
  Scanned connectivity bg.isBg image limit (image.rows * image.columns) s

def finalLabel (s : Scan) (p : Pixel) : ℕ := s.labelTrees.getLabels.data (s.labels.pixel p.1 p.2)

theorem mem_scannedPixels (hp : Foreground bg.isBg image p) :
    p ∈ scannedPixels bg.isBg image (image.rows * image.columns) := ⟨hp, index_lt image hp.1⟩

theorem scannedPixels_closed (u : Pixel) (_ : u ∈ scannedPixels bg.isBg image (image.rows * image.columns)) (v : Pixel)
    (hlinked : Linked connectivity bg.isBg image u v) :
    v ∈ scannedPixels bg.isBg image (image.rows * image.columns) := mem_scannedPixels hlinked.2.1

theorem finalLabel_foreground (h : Complete connectivity bg image limit s) (hp : Foreground bg.isBg image p) :
    finalLabel s p = rank s.labelTrees.labels.data (root s.labelTrees.labels.data (s.labels.pixel p.1 p.2)) := by
  have hspec := EquivalenceLabelTrees.getLabels_spec h.provisional.forest h.provisional.next_pos
  exact hspec.2 _ (h.provisional.label_lt p (mem_scannedPixels hp))

theorem finalLabel_background (h : Complete connectivity bg image limit s) (hp : p ∈ image.pixels)
    (hbg : bg.isBg (image.pixel p.1 p.2) = true) : finalLabel s p = 0 := by
  have hspec := EquivalenceLabelTrees.getLabels_spec h.provisional.forest h.provisional.next_pos
  have hzero : s.labelTrees.labels.data 0 = 0 := Nat.le_zero.mp (h.provisional.forest 0)
  rw [finalLabel, h.background p hp hbg (index_lt image hp), hspec.2 0 h.provisional.next_pos, root_of_eq hzero,
    rank_zero]

theorem finalLabel_pos (h : Complete connectivity bg image limit s) (hp : Foreground bg.isBg image p) :
    0 < finalLabel s p := by
  have hmem := mem_scannedPixels hp
  have hpos := h.provisional.root_pos _ (h.provisional.label_pos p hmem) (h.provisional.label_lt p hmem)
  rw [finalLabel_foreground h hp, ← rank_zero s.labelTrees.labels.data]
  exact Nat.count_strict_mono (p := fun i => s.labelTrees.labels.data i = i)
    (Nat.le_zero.mp (h.provisional.forest 0)) hpos

/-- 最後の番号が同じことは、同じ連結成分にあることと同値である。 -/
theorem finalLabel_eq_iff (h : Complete connectivity bg image limit s) (hp : Foreground bg.isBg image p)
    (hq : q ∈ image.pixels) :
    finalLabel s q = finalLabel s p ↔ Relation.ReflTransGen (Linked connectivity bg.isBg image) p q := by
  cases hbg : bg.isBg (image.pixel q.1 q.2) with
  | true =>
      refine iff_of_false (fun heq => ?_) fun hpath => ?_
      · rw [finalLabel_background h hq hbg] at heq
        exact absurd heq (finalLabel_pos h hp).ne
      · exact absurd (hbg.symm.trans (foreground_of_reaches hp hpath).2) (by decide)
  | false =>
      have hfg : Foreground bg.isBg image q := ⟨hq, hbg⟩
      rw [← h.provisional.root_eq_iff scannedPixels_closed (mem_scannedPixels hp) (mem_scannedPixels hfg),
        finalLabel_foreground h hfg, finalLabel_foreground h hp]
      exact ⟨fun heq => (h.provisional.forest.rank_root_inj heq).symm, fun heq => by rw [heq]⟩

/-- 前景の画素と同じ最後の番号を持つ画素の数は、その連結成分の大きさである。 -/
theorem card_finalLabel (h : Complete connectivity bg image limit s) (hp : Foreground bg.isBg image p) :
    (image.pixels.filter fun q => finalLabel s q = finalLabel s p).card = groupSize connectivity bg.isBg image p := by
  rw [groupSize, ← Set.ncard_coe_finset]
  congr 1
  ext q
  rw [Finset.mem_coe, Finset.mem_filter]
  constructor
  · rintro ⟨hq, heq⟩
    exact (finalLabel_eq_iff h hp hq).mp heq
  · intro hpath
    have hq := (foreground_of_reaches hp hpath).1
    exact ⟨hq, (finalLabel_eq_iff h hp hq).mpr hpath⟩

end Final

/-! ## 除去 -/

section Removed

variable {connectivity : ConnectivityType} {bg : Background} {image : Image UInt8} {limit : ℕ} {s : Scan} {p : Pixel}
  {past : Table ℕ → ℕ → ℕ} {minimalGroupSize : UInt64}

/-- 大きさが `minimal` より小さい連結成分の画素だけが `0` になった画像。 -/
structure Removed (connectivity : ConnectivityType) (isBg : UInt8 → Bool) (minimal : ℕ) (image image' : Image UInt8) :
    Prop where
  rows : image'.rows = image.rows
  columns : image'.columns = image.columns
  step : image'.step = image.step
  removed : ∀ p ∈ image.pixels, Foreground isBg image p → groupSize connectivity isBg image p < minimal →
    image'.pixel p.1 p.2 = 0
  kept : ∀ p ∈ image.pixels, ¬ (Foreground isBg image p ∧ groupSize connectivity isBg image p < minimal) →
    image'.pixel p.1 p.2 = image.pixel p.1 p.2
  outside : ∀ v, (∀ p ∈ image.pixels, v ≠ image.row p.1 + p.2) → image'.data v = image.data v

theorem convert_eq {α β : Type} {source : Image α} {target : Image β} (hrows : source.rows = target.rows)
    (hcolumns : source.columns = target.columns) (converter : α → β → β) :
    source.convert target converter = pure (rewrite target fun r c x => converter (source.pixel r c) x) := by
  rw [Image.convert, if_neg (not_or.mpr ⟨not_not.mpr hrows, not_not.mpr hcolumns⟩), rewrite, hrows, hcolumns]

theorem connectedComponents_complete (hrows : 0 < image.rows) (hcols : 0 < image.columns) (label : LabelType)
    (past : Table ℕ → ℕ → ℕ) (buffer : ℤ → ℕ) :
    Yields (connectedComponents connectivity bg.isBg image label past buffer)
      (fun r => ∃ s, Complete connectivity bg image
        (labelLimit connectivity image label) s ∧
        r = (s.labels.modifyEach (s.labelTrees.getLabels.read past), s.labelTrees.getLabels.size))
      (Overflows connectivity bg.isBg image
        (labelLimit connectivity image label)) := by
  rw [connectedComponents, if_neg (Nat.mul_pos hrows hcols).ne']
  apply (scanImage_scanned hrows hcols (initialScan_scanned label buffer)).bind
  intro s h
  exact ⟨s, h, rfl⟩

theorem read_asFilled (hpast : AsFilled past) (t : Table ℕ) (i : ℕ) : t.read past i = t.data i := by
  rw [Table.read]
  split_ifs
  · rfl
  · exact hpast t i

theorem modifyEach_pixel (hpast : AsFilled past) (h : Complete connectivity bg image limit s) (hp : p ∈ image.pixels) :
    (s.labels.modifyEach (s.labelTrees.getLabels.read past)).pixel p.1 p.2 = finalLabel s p := by
  have hrewritten := rewrite_rewritten s.labels fun _ _ x => s.labelTrees.getLabels.read past x
  have hp' : p ∈ s.labels.pixels := h.pixels ▸ hp
  have hdone := hrewritten.done p hp' (index_lt s.labels hp')
  rw [read_asFilled hpast] at hdone
  exact hdone

theorem modifyEach_pixels (h : Complete connectivity bg image limit s) (fn : ℕ → ℕ) :
    (s.labels.modifyEach fn).rows = image.rows ∧ (s.labels.modifyEach fn).columns = image.columns := by
  have hrewritten := rewrite_rewritten s.labels fun _ _ x => fn x
  exact ⟨hrewritten.rows.trans h.rows, hrewritten.columns.trans h.columns⟩

/-- 上限つきの数え上げでも、`minimal` との比較は変わらない。 -/
theorem keep_lt_iff {bin m : UInt64} {n : ℕ} (hbin : bin.toNat = min n (m + 1).toNat) (hn : n < 2 ^ 63) :
    bin < m ↔ n < m.toNat := by
  have hlt : m.toNat < 2 ^ 64 := m.toNat_lt
  have hadd : (m + 1).toNat = (m.toNat + 1) % 2 ^ 64 := UInt64.toNat_add m 1
  rw [UInt64.lt_iff_toNat_lt, hbin, hadd]
  rcases Nat.lt_or_ge (m.toNat + 1) (2 ^ 64) with hsmall | hlarge
  · rw [Nat.mod_eq_of_lt hsmall]
    omega
  · have heq : m.toNat + 1 = 2 ^ 64 := by omega
    rw [heq, Nat.mod_self]
    omega

/-- 取り除く番号の表は、連結成分の大きさを比べる。 -/
theorem noise_iff (hpast : AsFilled past) (h : Complete connectivity bg image limit s) (hrows : 0 < image.rows)
    (hcols : 0 < image.columns) (imageMax : ℕ) (hp : Foreground bg.isBg image p) :
    (noiseLabelsTable minimalGroupSize
      (histogram (s.labels.modifyEach (s.labelTrees.getLabels.read past)) imageMax (minimalGroupSize + 1))).data
        (finalLabel s p) = true ↔ groupSize connectivity bg.isBg image p < minimalGroupSize.toNat := by
  obtain ⟨hrows', hcols'⟩ := modifyEach_pixels h (s.labelTrees.getLabels.read past)
  have hpixels : (s.labels.modifyEach (s.labelTrees.getLabels.read past)).pixels = image.pixels := by
    rw [Image.pixels, hrows', hcols', Image.pixels]
  have hne : (s.labels.modifyEach (s.labelTrees.getLabels.read past)).isEmpty = false := by
    rw [Image.isEmpty, hrows', hcols', Bool.or_eq_false_iff, beq_eq_false_iff_ne, beq_eq_false_iff_ne]
    exact ⟨hrows.ne', hcols.ne'⟩
  have hbin := histogram_data hne imageMax (minimalGroupSize + 1) (finalLabel s p)
  have hsame : ((s.labels.modifyEach (s.labelTrees.getLabels.read past)).pixels.filter fun q =>
      (s.labels.modifyEach (s.labelTrees.getLabels.read past)).pixel q.1 q.2 = finalLabel s p) =
      image.pixels.filter fun q => finalLabel s q = finalLabel s p := by
    rw [hpixels]
    apply Finset.filter_congr
    intro q hq
    rw [modifyEach_pixel hpast h hq]
  rw [hsame, card_finalLabel h hp] at hbin
  have hsmall : groupSize connectivity bg.isBg image p < 2 ^ 63 := by
    rw [← card_finalLabel h hp]
    exact card_filter_pixels_lt image _
  rw [noiseLabelsTable, decide_eq_true_iff, Table.data_set, Function.update_of_ne (finalLabel_pos h hp).ne']
  exact keep_lt_iff hbin hsmall

theorem removeGroupsImpl_removed (hrows : 0 < image.rows) (hcols : 0 < image.columns) (label : LabelType)
    (buffer : ℤ → ℕ) :
    Yields (removeGroupsImpl connectivity bg.isBg past image minimalGroupSize label buffer)
      (fun image' => (starts connectivity bg.isBg image).card <
          labelLimit connectivity image label ∧
        (AsFilled past → Removed connectivity bg.isBg minimalGroupSize.toNat image image'))
      (Overflows connectivity bg.isBg image
        (labelLimit connectivity image label)) := by
  apply (connectedComponents_complete hrows hcols label past buffer).bind
  rintro r ⟨s, h, rfl⟩
  obtain ⟨hrows', hcols'⟩ := modifyEach_pixels h (s.labelTrees.getLabels.read past)
  show Yields (Image.convert _ image _) _ _
  rw [convert_eq hrows' hcols']
  have hcount : (starts connectivity bg.isBg image).card + 1 = s.labelTrees.nextFree := by
    rw [← h.card_starts]
    congr 2
    exact (Finset.filter_true_of_mem fun p hp => index_lt image (Finset.mem_filter.mp hp).1).symm
  refine ⟨Nat.lt_of_lt_of_le (Nat.lt_of_succ_le hcount.le) h.le, fun hpast => ?_⟩
  have hrewritten := rewrite_rewritten image fun r c trg =>
    if !bg.isBg trg && (noiseLabelsTable minimalGroupSize
      (histogram (s.labels.modifyEach (s.labelTrees.getLabels.read past)) (s.labelTrees.getLabels.size - 1)
        (minimalGroupSize + 1))).data ((s.labels.modifyEach (s.labelTrees.getLabels.read past)).pixel r c)
    then 0 else trg
  have hvalue {p : Pixel} (hp : p ∈ image.pixels) := hrewritten.done p hp (index_lt image hp)
  refine ⟨hrewritten.rows, hrewritten.columns, hrewritten.step, fun p hp hfg hsmall => ?_, fun p hp hnot => ?_,
    hrewritten.outside⟩
  · refine (hvalue hp).trans (if_pos ?_)
    rw [hfg.2, Bool.not_false, Bool.true_and, modifyEach_pixel hpast h hp]
    exact (noise_iff hpast h hrows hcols _ hfg).mpr hsmall
  · refine (hvalue hp).trans (if_neg fun hboth => hnot ?_)
    obtain ⟨hfg, hnoise⟩ := Bool.and_eq_true_iff.mp hboth
    rw [modifyEach_pixel hpast h hp] at hnoise
    have hfg' : Foreground bg.isBg image p := ⟨hp, by simpa using hfg⟩
    exact ⟨hfg', (noise_iff hpast h hrows hcols _ hfg').mp hnoise⟩

/-! ## 番号の型を選ぶ除去 -/

theorem labelLimit_mono (connectivity : ConnectivityType) (image : Image UInt8) :
    labelLimit connectivity image .uint16 ≤ labelLimit connectivity image .uint32 := by
  have hmax : LabelType.uint16.max ≤ LabelType.uint32.max := by decide
  exact min_le_min (min_le_min_left _ hmax) hmax

/-- 例外を投げなおす呼び出しは、`removeGroupsImpl` の結果をそのまま返す。 -/
theorem tryRemoveGroups_throw (label : LabelType) (buffer : ℤ → ℕ) :
    (tryRemoveGroupsWithLabelType connectivity bg.isBg past image minimalGroupSize label buffer true).map Prod.snd =
      removeGroupsImpl connectivity bg.isBg past image minimalGroupSize label buffer := by
  unfold tryRemoveGroupsWithLabelType
  cases removeGroupsImpl connectivity bg.isBg past image minimalGroupSize label buffer with
  | ok image' => rfl
  | error e => cases e <;> rfl

/-- 十六ビットの番号で足りなければ、三十二ビットの番号での結果になる。 -/
theorem removeGroups_cases (remover : GroupsRemover) (buffer : LabelType → ℤ → ℕ) :
    (∃ image', removeGroupsImpl connectivity bg.isBg past image minimalGroupSize .uint16 (buffer .uint16) = .ok image' ∧
        (remover.removeGroups connectivity bg.isBg past image minimalGroupSize buffer).2 = .ok image') ∨
      (∃ message, removeGroupsImpl connectivity bg.isBg past image minimalGroupSize .uint16 (buffer .uint16) =
        .error (.logicError message) ∧
        (remover.removeGroups connectivity bg.isBg past image minimalGroupSize buffer).2 = .error (.logicError message)) ∨
      (remover.removeGroups connectivity bg.isBg past image minimalGroupSize buffer).2 =
        removeGroupsImpl connectivity bg.isBg past image minimalGroupSize .uint32 (buffer .uint32) := by
  obtain ⟨labelTrees⟩ := remover
  cases labelTrees with
  | uint32 => exact Or.inr (Or.inr (tryRemoveGroups_throw .uint32 (buffer .uint32)))
  | uint16 =>
      cases himpl : removeGroupsImpl connectivity bg.isBg past image minimalGroupSize .uint16 (buffer .uint16) with
      | ok image' =>
          refine Or.inl ⟨image', rfl, ?_⟩
          simp only [GroupsRemover.removeGroups, tryRemoveGroupsWithLabelType, himpl]
          rfl
      | error e =>
          cases e with
          | logicError message =>
              refine Or.inr (Or.inl ⟨message, rfl, ?_⟩)
              simp only [GroupsRemover.removeGroups, tryRemoveGroupsWithLabelType, himpl]
              rfl
          | labelOverflow message =>
              refine Or.inr (Or.inr ?_)
              rw [← tryRemoveGroups_throw]
              simp only [GroupsRemover.removeGroups]
              rw [tryRemoveGroupsWithLabelType, himpl]
              rfl

/-- `removeGroups` は、三十二ビットの番号が足りれば、小さい連結成分の画素だけを `0` にする。 -/
theorem removeGroups_yields (hrows : 0 < image.rows) (hcols : 0 < image.columns) (remover : GroupsRemover)
    (buffer : LabelType → ℤ → ℕ) :
    Yields (remover.removeGroups connectivity bg.isBg past image minimalGroupSize buffer).2
      (fun image' => (starts connectivity bg.isBg image).card < labelLimit connectivity image .uint32 ∧
        (AsFilled past → Removed connectivity bg.isBg minimalGroupSize.toNat image image'))
      (Overflows connectivity bg.isBg image (labelLimit connectivity image .uint32)) := by
  have h16 : Yields (removeGroupsImpl connectivity bg.isBg past image minimalGroupSize .uint16 (buffer .uint16)) _ _ :=
    removeGroupsImpl_removed hrows hcols .uint16 (buffer .uint16)
  rcases removeGroups_cases remover buffer with ⟨image', himpl, hresult⟩ | ⟨message, himpl, -⟩ | hresult
  · obtain ⟨hcard, hremoved⟩ := h16.ok himpl
    rw [hresult]
    exact ⟨hcard.trans_le (labelLimit_mono connectivity image), hremoved⟩
  · obtain ⟨⟨_, heq⟩, -⟩ := h16.error himpl
    cases heq
  · rw [hresult]
    exact removeGroupsImpl_removed hrows hcols .uint32 (buffer .uint32)

/-- 空でない画像では、番号が足り、番号の表を切り詰める前の値で読むとき、`removeGroups` は、大きさが `minimal_group_size` より小さい連結成分の前景の画素だけを `0` にする。 -/
theorem removeGroups_removes (hpast : AsFilled past) (hrows : 0 < image.rows) (hcols : 0 < image.columns)
    (remover : GroupsRemover) (buffer : LabelType → ℤ → ℕ)
    (hno : ∀ message, (remover.removeGroups connectivity bg.isBg past image minimalGroupSize buffer).2 ≠
      .error (.labelOverflow message)) :
    ∃ image', (remover.removeGroups connectivity bg.isBg past image minimalGroupSize buffer).2 = .ok image' ∧
      Removed connectivity bg.isBg minimalGroupSize.toNat image image' := by
  have hyields : Yields (remover.removeGroups connectivity bg.isBg past image minimalGroupSize buffer).2 _ _ :=
    removeGroups_yields hrows hcols remover buffer
  cases hresult : (remover.removeGroups connectivity bg.isBg past image minimalGroupSize buffer).2 with
  | ok image' => exact ⟨image', rfl, (hyields.ok hresult).2 hpast⟩
  | error e =>
      obtain ⟨⟨message, rfl⟩, -⟩ := hyields.error hresult
      exact absurd hresult (hno message)

end Removed

/-- 切り詰める前の値を読む。 -/
def stale (t : Table ℕ) (i : ℕ) : ℕ := t.data i

theorem bucket_step : 3 ≤ 3 := Nat.le_refl 3

theorem bucket_fits : 2 * 3 < 2 ^ 63 := by decide

/-- 上の行の中央だけが背景の画像。 -/
def bucket : Image UInt8 where
  rows := 2
  columns := 3
  step := 3
  data v := if v = 1 then 0 else lethalObstacle
  columns_le_step := bucket_step
  fits := bucket_fits

theorem bucket_ok : ((GroupsRemover.create.removeGroups .way8 (isBackground false) stale bucket 6
    fun _ _ => 7).2).toBool = true := by decide +kernel

theorem bucket_not_overflow (message : String) :
    (GroupsRemover.create.removeGroups .way8 (Background.ofLayer false).isBg stale bucket 6 fun _ _ => 7).2 ≠
      .error (.labelOverflow message) := by
  intro herror
  have hok := bucket_ok
  rw [show isBackground false = (Background.ofLayer false).isBg from rfl, herror] at hok
  cases hok

-- 五つの画素の塊を取り除く。
theorem removeGroups_removes_bucket :
    ∃ image', (GroupsRemover.create.removeGroups .way8 (Background.ofLayer false).isBg stale bucket 6
        fun _ _ => 7).2 = .ok image' ∧
      Removed .way8 (Background.ofLayer false).isBg 6 bucket image' :=
  removeGroups_removes (fun _ _ => rfl) (by decide) (by decide) GroupsRemover.create (fun _ _ => 7) bucket_not_overflow

end Ranger.Denoise
