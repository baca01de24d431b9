import Ranger.Denoise.Removal

/-!
# 番号の表の参照

`getLabels` の表は最後の番号の数に切り詰められるが、仮の番号で参照される。参照が表の中に収まるのは、どの連結成分にも、先に調べる隣を持たない画素が一つしかないときに限る。
-/

namespace Ranger.Denoise
open Ranger.Lib

variable {connectivity : ConnectivityType} {bg : Background} {image : Image UInt8} {label : LabelType} {buffer : ℤ → ℕ}
  {limit : ℕ} {s : Scan}

/-- どの連結成分も、先に調べる隣を持たない画素を一つしか持たない。 -/
def OneStart (connectivity : ConnectivityType) (isBg : UInt8 → Bool) (image : Image UInt8) : Prop :=
  ∀ p ∈ starts connectivity isBg image, ∀ q ∈ starts connectivity isBg image,
    Relation.ReflTransGen (Linked connectivity isBg image) p q → p = q

theorem oneStart_iff (h : Complete connectivity bg image limit s) :
    OneStart connectivity bg.isBg image ↔
      ∀ i < s.labelTrees.nextFree, s.labelTrees.labels.data i = i := by
  rw [h.provisional.all_roots_iff scannedPixels_closed]
  constructor
  · intro hone p hp q hq hsp hsq hpath
    exact hone p (Finset.mem_filter.mpr ⟨hp.1.1, hp.1, hsp⟩) q (Finset.mem_filter.mpr ⟨hq.1.1, hq.1, hsq⟩) hpath
  · intro hone p hp q hq hpath
    obtain ⟨-, hfg, hsp⟩ := Finset.mem_filter.mp hp
    obtain ⟨-, hfg', hsq⟩ := Finset.mem_filter.mp hq
    exact hone p (mem_scannedPixels hfg) q (mem_scannedPixels hfg') hsp hsq hpath

/-- 表が仮の番号の数だけあることと、どの仮の番号も表の中に収まることは同値である。 -/
theorem labels_lt_size_iff (h : Complete connectivity bg image limit s) :
    (∀ p ∈ image.pixels, s.labels.pixel p.1 p.2 < s.labelTrees.getLabels.size) ↔
      s.labelTrees.getLabels.size = s.labelTrees.nextFree := by
  have hprov := h.provisional
  have hsize := (EquivalenceLabelTrees.getLabels_spec hprov.forest hprov.next_pos).1
  have hle : s.labelTrees.getLabels.size ≤ s.labelTrees.nextFree := by
    rw [hsize]
    exact rank_le _ _
  have hone : 1 ≤ s.labelTrees.getLabels.size := by
    rw [hsize, ← hprov.forest.rank_one]
    exact Nat.count_monotone _ hprov.next_pos
  constructor
  · intro hlt
    rcases Nat.lt_or_ge 1 s.labelTrees.nextFree with hnext | hnext
    · -- 最後につけた番号を持つ画素がある。
      obtain ⟨p, hp, -, hlabel⟩ := hprov.origin (s.labelTrees.nextFree - 1) (by omega) (by omega)
      have hlast := hlt p hp.1.1
      rw [hlabel] at hlast
      omega
    · omega
  · intro heq p hp
    rw [heq]
    cases hbg : bg.isBg (image.pixel p.1 p.2) with
    | true =>
        rw [h.background p hp hbg (index_lt image hp)]
        exact hprov.next_pos
    | false => exact hprov.label_lt p (mem_scannedPixels ⟨hp, hbg⟩)

/-- 走査が終わったとき、どの画素の番号も `getLabels` の表の中に収まるのは、どの連結成分も、先に調べる隣を持たない画素を一つしか持たないとき、そのときだけである。 -/
theorem lookup_in_range_iff
    (hscan : scanImage connectivity bg.isBg image (initialScan connectivity image label buffer) = .ok s) :
    (∀ p ∈ image.pixels, s.labels.pixel p.1 p.2 < s.labelTrees.getLabels.size) ↔
      OneStart connectivity bg.isBg image := by
  rcases image.pixels.eq_empty_or_nonempty with hempty | ⟨p, hp⟩
  · have hstarts : starts connectivity bg.isBg image = ∅ := by rw [starts, hempty, Finset.filter_empty]
    refine iff_of_true (fun p hp => ?_) fun p hp => ?_
    · rw [hempty] at hp
      exact absurd hp (Finset.notMem_empty p)
    · rw [hstarts] at hp
      exact absurd hp (Finset.notMem_empty p)
  · obtain ⟨hrow, hcol⟩ := Image.mem_pixels.mp hp
    have h : Complete connectivity bg image (labelLimit connectivity image label) s :=
      (scanImage_scanned (Nat.zero_lt_of_lt hrow) (Nat.zero_lt_of_lt hcol) (initialScan_scanned label buffer)).ok hscan
    rw [labels_lt_size_iff h, oneStart_iff h, ← rank_eq_iff,
      (EquivalenceLabelTrees.getLabels_spec h.provisional.forest h.provisional.next_pos).1]

theorem exists_ok {ε σ : Type} {x : Except ε σ} (h : x.toBool = true) : ∃ s, x = .ok s := by
  cases x with
  | ok s => exact ⟨s, rfl⟩
  | error e => cases h

-- 下の行でつながる二つの画素を持つ画像。
theorem lookup_in_range_iff_bucket :
    ∃ s, scanImage .way8 (Background.ofLayer false).isBg bucket (initialScan .way8 bucket .uint16 fun _ => 7) = .ok s ∧
      ((∀ p ∈ bucket.pixels, s.labels.pixel p.1 p.2 < s.labelTrees.getLabels.size) ↔
        OneStart .way8 (Background.ofLayer false).isBg bucket) := by
  obtain ⟨s, hscan⟩ := exists_ok (x := scanImage .way8 (Background.ofLayer false).isBg bucket
    (initialScan .way8 bucket .uint16 fun _ => 7)) (by decide +kernel)
  exact ⟨s, hscan, lookup_in_range_iff hscan⟩

theorem bucket_lookup (connectivity : ConnectivityType) :
    ((scanImage connectivity (Background.ofLayer false).isBg bucket
      (initialScan connectivity bucket .uint16 fun _ => 7)).map
        fun s => decide (s.labels.pixel 0 2 < s.labelTrees.getLabels.size)).toOption = some false := by
  cases connectivity <;> decide +kernel

theorem exists_of_map {ε σ : Type} {x : Except ε σ} {P : σ → Prop} [DecidablePred P]
    (h : (x.map fun s => decide (P s)).toOption = some false) : ∃ s, x = .ok s ∧ ¬ P s := by
  cases x with
  | ok s => exact ⟨s, rfl, of_decide_eq_false (Option.some.inj h)⟩
  | error e => cases h

-- 右上の画素の番号 `2` は、大きさ `2` の表の外にある。
theorem bucket_lookup_fails :
    (∃ s, scanImage .way4 (Background.ofLayer false).isBg bucket (initialScan .way4 bucket .uint16 fun _ => 7) = .ok s ∧
      ¬ s.labels.pixel 0 2 < s.labelTrees.getLabels.size) ∧
    (∃ s, scanImage .way8 (Background.ofLayer false).isBg bucket (initialScan .way8 bucket .uint16 fun _ => 7) = .ok s ∧
      ¬ s.labels.pixel 0 2 < s.labelTrees.getLabels.size) ∧ (0, 2) ∈ bucket.pixels :=
  ⟨exists_of_map (bucket_lookup .way4), exists_of_map (bucket_lookup .way8), by decide⟩

end Ranger.Denoise
