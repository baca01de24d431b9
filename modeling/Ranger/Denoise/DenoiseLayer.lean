import Ranger.Denoise.SinglePixels
import Ranger.Grid.Costmap2D

/-!
# 雑音を除く層

`nav2_costmap_2d` の `denoise_layer.cpp`。塊の大きさの下限に応じて二つの除去を使い分け、地図の更新の窓に施す。
-/

namespace Ranger.Denoise
open Ranger.Lib

/-- 作業用のメモリに残っている内容。 -/
structure Memory where
  pixels : ℤ → UInt8
  labels : LabelType → ℤ → ℕ

structure DenoiseLayer where
  enabled : Bool
  minimalGroupSize : UInt64
  groupConnectivityType : ConnectivityType
  noInformationIsObstacle : Bool
  groupsRemover : GroupsRemover
deriving DecidableEq, Repr

namespace DenoiseLayer

def onInitialize (enabled : Bool) (minimalGroupSizeParam groupConnectivityTypeParam : ℤ) : DenoiseLayer where
  enabled := enabled
  minimalGroupSize := if minimalGroupSizeParam ≤ 1 then 1 else UInt64.ofNat minimalGroupSizeParam.toNat
  groupConnectivityType := if groupConnectivityTypeParam = 4 then .way4 else .way8
  noInformationIsObstacle := false
  groupsRemover := GroupsRemover.create

section Denoise

variable (layer : DenoiseLayer) (past : Table ℕ → ℕ → ℕ) (memory : Memory) (image : Image UInt8)

def removeGroups : DenoiseLayer × Except Exception (Image UInt8) :=
  let result := layer.groupsRemover.removeGroups layer.groupConnectivityType (isBackground layer.noInformationIsObstacle)
    past image layer.minimalGroupSize memory.labels
  ({ layer with groupsRemover := result.1 }, result.2)

def denoise : DenoiseLayer × Except Exception (Image UInt8) :=
  if image.isEmpty then (layer, pure image)
  else if layer.minimalGroupSize ≤ 1 then (layer, pure image)
  else if layer.minimalGroupSize = 2 then
    (layer, removeSinglePixels layer.groupConnectivityType layer.noInformationIsObstacle memory.pixels image)
  else layer.removeGroups past memory image

end Denoise

end DenoiseLayer

/-! ## 除去の合成 -/

section Removed

variable {connectivity : ConnectivityType} {isBg : UInt8 → Bool} {image image' image'' : Image UInt8} {m n : ℕ}
  {p q : Pixel}

theorem groupSize_pos (hp : Foreground isBg image p) : 0 < groupSize connectivity isBg image p :=
  (Set.ncard_pos (reachable_finite hp)).mpr ⟨p, Relation.ReflTransGen.refl⟩

theorem groupSize_linked (h : Linked connectivity isBg image p q) :
    groupSize connectivity isBg image p = groupSize connectivity isBg image q := by
  rw [groupSize, groupSize]
  congr 1
  ext r
  exact ⟨fun hpath => Relation.ReflTransGen.head h.symm hpath, fun hpath => Relation.ReflTransGen.head h hpath⟩

theorem groupSize_reaches (h : Relation.ReflTransGen (Linked connectivity isBg image) p q) :
    groupSize connectivity isBg image p = groupSize connectivity isBg image q := by
  induction h with
  | refl => rfl
  | tail _ hlinked ih => exact ih.trans (groupSize_linked hlinked)

/-- 塊の大きさが `1` 以上なので、`1` 以下の下限では何も変わらない。 -/
theorem Removed.unchanged (hm : m ≤ 1) : Removed connectivity isBg m image image where
  rows := rfl
  columns := rfl
  step := rfl
  removed p _ hfg hlt := by
    have hpos : 0 < groupSize connectivity isBg image p := groupSize_pos hfg
    omega
  kept _ _ _ := rfl
  outside _ _ := rfl

theorem Removed.pixels (h : Removed connectivity isBg m image image') : image'.pixels = image.pixels := by
  rw [Image.pixels, Image.pixels, h.rows, h.columns]

theorem Removed.foreground_iff (h : Removed connectivity isBg m image image') (hzero : isBg 0 = true) :
    Foreground isBg image' p ↔ Foreground isBg image p ∧ m ≤ groupSize connectivity isBg image p := by
  rw [Foreground, h.pixels]
  by_cases hsmall : Foreground isBg image p ∧ groupSize connectivity isBg image p < m
  · refine iff_of_false (fun hfg => ?_) (fun hlarge => absurd hsmall.2 (Nat.not_lt.mpr hlarge.2))
    rw [h.removed p hfg.1 hsmall.1 hsmall.2, hzero] at hfg
    cases hfg.2
  · constructor
    · intro hfg
      rw [h.kept p hfg.1 hsmall] at hfg
      exact ⟨hfg, Nat.le_of_not_lt fun hlt => hsmall ⟨hfg, hlt⟩⟩
    · rintro ⟨hfg, -⟩
      rw [h.kept p hfg.1 hsmall]
      exact hfg

/-- 残った連結成分は、除去の前の連結成分と同じである。 -/
theorem Removed.groupSize_eq (h : Removed connectivity isBg m image image') (hzero : isBg 0 = true)
    (hp : Foreground isBg image' p) : groupSize connectivity isBg image' p = groupSize connectivity isBg image p := by
  have hlarge := ((h.foreground_iff hzero).mp hp).2
  rw [groupSize, groupSize]
  congr 1
  ext q
  constructor
  · intro hpath
    refine Relation.ReflTransGen.mono (fun u v huv => ?_) _ _ hpath
    exact ⟨((h.foreground_iff hzero).mp huv.1).1, ((h.foreground_iff hzero).mp huv.2.1).1, huv.2.2⟩
  · intro hpath
    induction hpath with
    | refl => exact Relation.ReflTransGen.refl
    | tail hpath hlinked ih =>
        refine ih.tail ⟨?_, ?_, hlinked.2.2⟩
        · exact (h.foreground_iff hzero).mpr ⟨hlinked.1, hlarge.trans (groupSize_reaches hpath).le⟩
        · exact (h.foreground_iff hzero).mpr ⟨hlinked.2.1, hlarge.trans (groupSize_reaches (hpath.tail hlinked)).le⟩

/-- 二度の除去は、大きい方の下限での一度の除去になる。 -/
theorem Removed.trans (h : Removed connectivity isBg m image image') (h' : Removed connectivity isBg n image' image'')
    (hzero : isBg 0 = true) : Removed connectivity isBg (max m n) image image'' where
  rows := h'.rows.trans h.rows
  columns := h'.columns.trans h.columns
  step := h'.step.trans h.step
  removed p hp hfg hsmall := by
    have hp' : p ∈ image'.pixels := h.pixels ▸ hp
    by_cases hlt : groupSize connectivity isBg image p < m
    · rw [h'.kept p hp' fun hsecond => absurd hlt (Nat.not_lt.mpr ((h.foreground_iff hzero).mp hsecond.1).2)]
      exact h.removed p hp hfg hlt
    · have hfg' : Foreground isBg image' p := (h.foreground_iff hzero).mpr ⟨hfg, Nat.le_of_not_lt hlt⟩
      apply h'.removed p hp' hfg'
      rw [h.groupSize_eq hzero hfg']
      exact (lt_max_iff.mp hsmall).resolve_left hlt
  kept p hp hnot := by
    have hp' : p ∈ image'.pixels := h.pixels ▸ hp
    have hfirst : ¬ (Foreground isBg image p ∧ groupSize connectivity isBg image p < m) :=
      fun hsmall => hnot ⟨hsmall.1, lt_max_of_lt_left hsmall.2⟩
    rw [h'.kept p hp' fun hsmall => ?_, h.kept p hp hfirst]
    have hfg := ((h.foreground_iff hzero).mp hsmall.1).1
    rw [h.groupSize_eq hzero hsmall.1] at hsmall
    exact hnot ⟨hfg, lt_max_of_lt_right hsmall.2⟩
  outside v hv := by
    rw [h'.outside v ?_, h.outside v hv]
    intro p hp
    rw [Image.row, h.step]
    exact hv p (h.pixels ▸ hp)

theorem Image.eq_of_fields {a b : Image UInt8} (hrows : a.rows = b.rows) (hcolumns : a.columns = b.columns)
    (hstep : a.step = b.step) (hdata : a.data = b.data) : a = b := by
  cases a
  cases b
  cases hrows
  cases hcolumns
  cases hstep
  cases hdata
  rfl

/-- 除去の結果は、下限で決まる。 -/
theorem Removed.unique (h : Removed connectivity isBg m image image') (h' : Removed connectivity isBg m image image'') :
    image' = image'' := by
  refine Image.eq_of_fields (h.rows.trans h'.rows.symm) (h.columns.trans h'.columns.symm) (h.step.trans h'.step.symm) ?_
  funext v
  by_cases hv : ∀ p ∈ image.pixels, v ≠ image.row p.1 + p.2
  · rw [h.outside v hv, h'.outside v hv]
  · simp only [not_forall, not_not] at hv
    obtain ⟨p, hp, rfl⟩ := hv
    have hdata {a : Image UInt8} (hstep : a.step = image.step) : a.data (image.row p.1 + p.2) = a.pixel p.1 p.2 := by
      rw [Image.pixel, Image.row, Image.row, hstep]
    rw [hdata h.step, hdata h'.step]
    by_cases hsmall : Foreground isBg image p ∧ groupSize connectivity isBg image p < m
    · rw [h.removed p hp hsmall.1 hsmall.2, h'.removed p hp hsmall.1 hsmall.2]
    · rw [h.kept p hp hsmall, h'.kept p hp hsmall]

/-- 除去の後には、先に調べる隣を持たない画素は増えない。 -/
theorem Removed.starts_subset (h : Removed connectivity isBg m image image') (hzero : isBg 0 = true) :
    starts connectivity isBg image' ⊆ starts connectivity isBg image := by
  intro p hp
  obtain ⟨hmem, hfg, hstart⟩ := Finset.mem_filter.mp hp
  rw [h.pixels] at hmem
  have hold := (h.foreground_iff hzero).mp hfg
  refine Finset.mem_filter.mpr ⟨hmem, hold.1, fun q hq hlinked => ?_⟩
  have hq' : Foreground isBg image' q :=
    (h.foreground_iff hzero).mpr ⟨hlinked.2.1, hold.2.trans (groupSize_linked hlinked).le⟩
  have hle := hstart q (h.pixels ▸ hq) ⟨hfg, hq', hlinked.2.2⟩
  rwa [Image.index, Image.index, h.columns] at hle

end Removed

/-! ## 二つの除去 -/

namespace DenoiseLayer

variable {past : Table ℕ → ℕ → ℕ} {memory : Memory} {image image' image₁ image₂ : Image UInt8} {layer : DenoiseLayer}

/-- 番号が足りずに、画像を変えずに終わる。 -/
def Overflowed (layer : DenoiseLayer) (image : Image UInt8) : Prop :=
  image.isEmpty = false ∧ 2 < layer.minimalGroupSize.toNat ∧
    labelLimit layer.groupConnectivityType image .uint32 ≤
      (starts layer.groupConnectivityType (isBackground layer.noInformationIsObstacle) image).card

/-- どちらの除去を使っても、番号が足りれば、下限より小さい塊だけが `0` になる。 -/
theorem denoise_yields (hpast : AsFilled past) (layer : DenoiseLayer) (memory : Memory) (image : Image UInt8) :
    Yields (layer.denoise past memory image).2
      (fun image' => ¬ layer.Overflowed image ∧ Removed layer.groupConnectivityType
        (isBackground layer.noInformationIsObstacle) layer.minimalGroupSize.toNat image image')
      (fun _ => layer.Overflowed image) := by
  unfold denoise
  by_cases hempty : image.isEmpty = true
  · rw [if_pos hempty]
    have hnone : image.pixels = ∅ := by
      simp only [Image.isEmpty, Bool.or_eq_true, beq_iff_eq] at hempty
      ext p
      rw [Image.mem_pixels]
      exact iff_of_false (by omega) (Finset.notMem_empty p)
    refine ⟨fun hover => ?_, rfl, rfl, rfl, fun p hp => ?_, fun _ _ _ => rfl, fun _ _ => rfl⟩
    · rw [hover.1] at hempty
      cases hempty
    · rw [hnone] at hp
      exact absurd hp (Finset.notMem_empty p)
  · rw [if_neg hempty]
    have hpos : 0 < image.rows ∧ 0 < image.columns := by
      simp only [Image.isEmpty, Bool.or_eq_true, beq_iff_eq] at hempty
      omega
    by_cases hone : layer.minimalGroupSize ≤ 1
    · rw [if_pos hone]
      have hle : layer.minimalGroupSize.toNat ≤ 1 := UInt64.le_iff_toNat_le.mp hone
      exact ⟨fun hover => by have hlt := hover.2.1; omega, Removed.unchanged hle⟩
    · rw [if_neg hone]
      by_cases htwo : layer.minimalGroupSize = 2
      · rw [if_pos htwo, htwo]
        obtain ⟨image', heq, hremoved⟩ :=
          removeSinglePixels_removed layer.groupConnectivityType layer.noInformationIsObstacle memory.pixels image
        rw [heq]
        refine ⟨fun hover => ?_, hremoved⟩
        have hlt := hover.2.1
        rw [htwo] at hlt
        exact absurd hlt (by decide)
      · rw [if_neg htwo]
        have hlarge : 2 < layer.minimalGroupSize.toNat := by
          have hone' : ¬ layer.minimalGroupSize.toNat ≤ 1 := fun h => hone (UInt64.le_iff_toNat_le.mpr h)
          have htwo' : layer.minimalGroupSize.toNat ≠ 2 := fun h => htwo (UInt64.toNat_inj.mp h)
          omega
        have hyields : Yields (layer.groupsRemover.removeGroups layer.groupConnectivityType
            (Background.ofLayer layer.noInformationIsObstacle).isBg past image layer.minimalGroupSize memory.labels).2 _ _ :=
          removeGroups_yields hpos.1 hpos.2 layer.groupsRemover memory.labels
        show Yields (layer.groupsRemover.removeGroups layer.groupConnectivityType
          (Background.ofLayer layer.noInformationIsObstacle).isBg past image layer.minimalGroupSize memory.labels).2 _ _
        cases hresult : (layer.groupsRemover.removeGroups layer.groupConnectivityType
            (Background.ofLayer layer.noInformationIsObstacle).isBg past image layer.minimalGroupSize
            memory.labels).2 with
        | ok image' =>
            obtain ⟨hlabels, hremoved⟩ := hyields.ok hresult
            exact ⟨fun hover => absurd hlabels (Nat.not_lt.mpr hover.2.2), hremoved hpast⟩
        | error e => exact ⟨Bool.eq_false_of_not_eq_true hempty, hlarge, (hyields.error hresult).2⟩

/-- 除いた後の画像で番号が足りなければ、もとの画像でも足りない。 -/
theorem Overflowed.of_removed {m : ℕ} (h : layer.Overflowed image')
    (hremoved : Removed layer.groupConnectivityType (isBackground layer.noInformationIsObstacle) m image image') :
    layer.Overflowed image := by
  obtain ⟨hempty, hlarge, hlimit⟩ := h
  have hcard := Finset.card_le_card (hremoved.starts_subset (isBackground_zero layer.noInformationIsObstacle))
  rw [Image.isEmpty, hremoved.rows, hremoved.columns] at hempty
  rw [labelLimit, hremoved.rows, hremoved.columns] at hlimit
  exact ⟨hempty, hlarge, hlimit.trans hcard⟩

/-- 続けて二度除いた画像は、大きい方の下限で一度に除いた画像である。二度目は、番号が足りなくなることもない。 -/
theorem denoise_denoise {l₁ l₂ : DenoiseLayer} {memory₁ memory₂ memory₃ : Memory} (hpast : AsFilled past)
    (hway : l₂.groupConnectivityType = l₁.groupConnectivityType)
    (hno : l₂.noInformationIsObstacle = l₁.noInformationIsObstacle)
    (h₁ : (l₁.denoise past memory₁ image).2 = .ok image₁)
    (h₂ : ((if l₁.minimalGroupSize ≤ l₂.minimalGroupSize then l₂ else l₁).denoise past memory₂ image).2 = .ok image₂) :
    (l₂.denoise past memory₃ image₁).2 = .ok image₂ := by
  have hzero := isBackground_zero l₁.noInformationIsObstacle
  obtain ⟨hover₁, hremoved₁⟩ := (denoise_yields hpast l₁ memory₁ image).ok h₁
  have hboth : ¬ l₂.Overflowed image₁ ∧ Removed l₁.groupConnectivityType (isBackground l₁.noInformationIsObstacle)
      (max l₁.minimalGroupSize.toNat l₂.minimalGroupSize.toNat) image image₂ := by
    have hback (hover : l₂.Overflowed image₁) : l₂.Overflowed image := by
      apply hover.of_removed
      rw [hway, hno]
      exact hremoved₁
    split_ifs at h₂ with hle
    · obtain ⟨hover₂, hremoved₂⟩ := (denoise_yields hpast l₂ memory₂ image).ok h₂
      rw [hway, hno] at hremoved₂
      rw [max_eq_right (UInt64.le_iff_toNat_le.mp hle)]
      exact ⟨fun hover => hover₂ (hback hover), hremoved₂⟩
    · obtain ⟨-, hremoved₂⟩ := (denoise_yields hpast l₁ memory₂ image).ok h₂
      have hlt : l₂.minimalGroupSize.toNat < l₁.minimalGroupSize.toNat :=
        Nat.lt_of_not_le fun h => hle (UInt64.le_iff_toNat_le.mpr h)
      rw [max_eq_left hlt.le]
      refine ⟨fun hover => hover₁ ?_, hremoved₂⟩
      obtain ⟨hempty, hlarge, hlimit⟩ := hback hover
      rw [hway, hno] at hlimit
      exact ⟨hempty, hlarge.trans hlt, hlimit⟩
  obtain ⟨hover, hremoved⟩ := hboth
  have hsecond := denoise_yields hpast l₂ memory₃ image₁
  cases hresult : (l₂.denoise past memory₃ image₁).2 with
  | error e => exact absurd (hsecond.error hresult) hover
  | ok image' =>
      obtain ⟨-, hremoved₂⟩ := hsecond.ok hresult
      rw [hway, hno] at hremoved₂
      rw [(hremoved₁.trans hremoved₂ hzero).unique hremoved]

def leftover : Memory := ⟨fun _ => 7, fun _ _ => 7⟩

theorem exists_ok {ε α : Type} {x : Except ε α} (h : x.toBool = true) : ∃ a, x = .ok a := by
  cases x with
  | ok a => exact ⟨a, rfl⟩
  | error e => cases h

theorem bucket_single_ok : ((onInitialize true 2 8).denoise stale leftover bucket).2.toBool = true := by decide +kernel

theorem bucket_grouped_ok : ((onInitialize true 6 8).denoise stale leftover bucket).2.toBool = true := by decide +kernel

-- 一つだけの画素を除いた後に、五つの画素の塊を除く。
theorem denoise_denoise_bucket : ∃ image₁ image₂,
    ((onInitialize true 2 8).denoise stale leftover bucket).2 = .ok image₁ ∧
      ((onInitialize true 6 8).denoise stale leftover image₁).2 = .ok image₂ := by
  obtain ⟨image₁, h₁⟩ := exists_ok bucket_single_ok
  obtain ⟨image₂, h₂⟩ := exists_ok bucket_grouped_ok
  have hgreater : ((if (onInitialize true 2 8).minimalGroupSize ≤ (onInitialize true 6 8).minimalGroupSize then
      onInitialize true 6 8 else onInitialize true 2 8).denoise stale leftover bucket).2 = .ok image₂ := by
    rw [if_pos (by decide)]
    exact h₂
  have hway : (onInitialize true 6 8).groupConnectivityType = (onInitialize true 2 8).groupConnectivityType := rfl
  have hno : (onInitialize true 6 8).noInformationIsObstacle = (onInitialize true 2 8).noInformationIsObstacle := rfl
  exact ⟨image₁, image₂, h₁, denoise_denoise (fun _ _ => rfl) hway hno h₁ hgreater⟩

/-! ## 地図の更新 -/

variable {K : Type*} [Field K] [LinearOrder K] {g : Grid.Costmap2D K} {c : Grid.MapLocation}

/-- `updateMap` が渡す、地図の中の窓。`area` により、窓の先頭の番地 `min_y * step + min_x` は `int` に収まる。 -/
structure Roi (g : Grid.Costmap2D K) where
  minX : ℕ
  minY : ℕ
  maxX : ℕ
  maxY : ℕ
  maxX_le : maxX ≤ g.sizeX
  maxY_le : maxY ≤ g.sizeY
  area : g.sizeX * g.sizeY < 2147483648

namespace Roi

def start (w : Roi g) : ℤ := w.minY * g.sizeX + w.minX

omit [Field K] [LinearOrder K] in
theorem width_le (w : Roi g) : w.maxX - w.minX ≤ g.sizeX := (Nat.sub_le _ _).trans w.maxX_le

theorem fits (w : Roi g) (hg : g.Valid) : (w.maxY - w.minY) * (w.maxX - w.minX) < 2 ^ 63 := by
  have hmul := Nat.mul_le_mul ((Nat.sub_le _ w.minY).trans w.maxY_le) w.width_le
  have harea := hg.area
  rw [Nat.mul_comm g.sizeX] at harea
  omega

/-- 地図の配列をそのまま使う、窓の画像。 -/
def roiImage (w : Roi g) (hg : g.Valid) : Image UInt8 where
  rows := w.maxY - w.minY
  columns := w.maxX - w.minX
  step := g.sizeX
  data v := g.costmap.getD (w.start + v).toNat 0
  columns_le_step := w.width_le
  fits := w.fits hg

def Contains (w : Roi g) (c : Grid.MapLocation) : Prop := w.minX ≤ c.x ∧ c.x < w.maxX ∧ w.minY ≤ c.y ∧ c.y < w.maxY

/-- 升目に当たる画素。 -/
def pixelOf (w : Roi g) (c : Grid.MapLocation) : Pixel := (c.y - w.minY, c.x - w.minX)

end Roi

/-- 画像に書いた値は、地図の配列に書かれている。 -/
def written (g : Grid.Costmap2D K) (w : Roi g) (image : Image UInt8) : Grid.Costmap2D K :=
  { g with costmap := g.costmap.mapIdx fun i _ => image.data (i - w.start) }

/-- `NO_INFORMATION` の升目は、地図の既定の値でないとき、障害物として扱う。 -/
def onGrid (layer : DenoiseLayer) (g : Grid.Costmap2D K) : DenoiseLayer :=
  { layer with noInformationIsObstacle := g.defaultValue != noInformation }

def updateCosts (layer : DenoiseLayer) (past : Table ℕ → ℕ → ℕ) (memory : Memory) (g : Grid.Costmap2D K) (hg : g.Valid)
    (w : Roi g) : DenoiseLayer × Grid.Costmap2D K :=
  if !layer.enabled then (layer, g)
  else if w.minX ≥ w.maxX ∨ w.minY ≥ w.maxY then (layer, g)
  else
    match (layer.onGrid g).denoise past memory (w.roiImage hg) with
    | (layer, .ok image) => (layer, written g w image)
    | (layer, .error _) => (layer, g)

/-- 窓の中の、下限より小さい塊の升目だけが `FREE_SPACE` になった地図。 -/
structure Denoised (layer : DenoiseLayer) (g : Grid.Costmap2D K) (hg : g.Valid) (w : Roi g) (g' : Grid.Costmap2D K) :
    Prop where
  others : g' = { g with costmap := g'.costmap }
  length : g'.costmap.length = g.costmap.length
  removed : ∀ c, w.Contains c → Foreground (isBackground (g.defaultValue != noInformation)) (w.roiImage hg) (w.pixelOf c) →
    groupSize layer.groupConnectivityType (isBackground (g.defaultValue != noInformation)) (w.roiImage hg) (w.pixelOf c) <
      layer.minimalGroupSize.toNat → g'.getCost c = some 0
  kept : ∀ c, g.Contains c → ¬ (w.Contains c ∧
    Foreground (isBackground (g.defaultValue != noInformation)) (w.roiImage hg) (w.pixelOf c) ∧
      groupSize layer.groupConnectivityType (isBackground (g.defaultValue != noInformation)) (w.roiImage hg) (w.pixelOf c) <
        layer.minimalGroupSize.toNat) → g'.getCost c = g.getCost c

/-- 升目の費用は、窓の画像の番地にある。 -/
theorem getCost_written (hg : g.Valid) (w : Roi g) (image : Image UInt8) (hc : g.Contains c) :
    (written g w image).getCost c = some (image.data (c.y * g.sizeX + c.x - w.start)) := by
  have hindex := Lib.index_lt hc.1 hc.2
  have harea := hg.area
  rw [Grid.Costmap2D.getCost, Grid.Costmap2D.getIndex, Grid.wrap_of_lt (by show c.y * g.sizeX + c.x < _; omega)]
  show (g.costmap.mapIdx _)[c.y * g.sizeX + c.x]? = _
  rw [List.getElem?_mapIdx, List.getElem?_eq_getElem (by rw [hg.costmap]; exact hindex)]
  simp

theorem getCost_eq (hg : g.Valid) (w : Roi g) (hc : g.Contains c) :
    g.getCost c = some ((w.roiImage hg).data (c.y * g.sizeX + c.x - w.start)) := by
  have hindex := Lib.index_lt hc.1 hc.2
  have hlength : c.y * g.sizeX + c.x < g.costmap.length := by rwa [hg.costmap]
  have haddress : (w.start + (c.y * g.sizeX + c.x - w.start)).toNat = c.y * g.sizeX + c.x := by omega
  rw [Grid.Costmap2D.getCost_eq hg hc, List.getElem?_eq_getElem hlength]
  show _ = some (g.costmap.getD _ 0)
  rw [haddress, List.getD_eq_getElem?_getD, List.getElem?_eq_getElem hlength, Option.getD_some]

theorem Roi.contains_iff (w : Roi g) (hg : g.Valid) : w.Contains c ↔
    w.pixelOf c ∈ (w.roiImage hg).pixels ∧ w.minX ≤ c.x ∧ w.minY ≤ c.y := by
  rw [Image.mem_pixels]
  show _ ↔ (c.y - w.minY < w.maxY - w.minY ∧ c.x - w.minX < w.maxX - w.minX) ∧ _
  rw [Roi.Contains]
  omega

/-- 窓の升目の番地は、その画素の番地である。 -/
theorem Roi.address (w : Roi g) (hg : g.Valid) (hc : w.Contains c) :
    (c.y * g.sizeX + c.x - w.start : ℤ) = (w.roiImage hg).row (w.pixelOf c).1 + (w.pixelOf c).2 := by
  obtain ⟨hx, -, hy, -⟩ := hc
  show (c.y * g.sizeX + c.x - (w.minY * g.sizeX + w.minX) : ℤ) = (c.y - w.minY : ℕ) * g.sizeX + (c.x - w.minX : ℕ)
  push_cast [hx, hy]
  ring

/-- 画像の除去は、窓の升目の除去である。 -/
theorem written_denoised (hg : g.Valid) (w : Roi g) {image' : Image UInt8} (layer : DenoiseLayer)
    (h : Removed layer.groupConnectivityType (isBackground (g.defaultValue != noInformation))
      layer.minimalGroupSize.toNat (w.roiImage hg) image') :
    Denoised layer g hg w (written g w image') where
  others := rfl
  length := List.length_mapIdx
  removed c hc hfg hsmall := by
    have hcontains : g.Contains c := ⟨hc.2.1.trans_le w.maxX_le, hc.2.2.2.trans_le w.maxY_le⟩
    have hvalue := h.removed _ hfg.1 hfg hsmall
    rw [getCost_written hg w image' hcontains, w.address hg hc]
    rw [Image.pixel, Image.row, h.step] at hvalue
    exact congrArg some hvalue
  kept c hc hnot := by
    rw [getCost_written hg w image' hc, getCost_eq hg w hc]
    by_cases hin : w.Contains c
    · have hp := ((w.contains_iff hg).mp hin).1
      have hvalue := h.kept _ hp fun hsmall => hnot ⟨hin, hsmall⟩
      rw [Image.pixel, Image.row, h.step] at hvalue
      rw [w.address hg hin]
      exact congrArg some hvalue
    · congr 1
      apply h.outside
      intro p hp heq
      apply hin
      have hp' := Image.mem_pixels.mp hp
      have hwidth : p.2 < w.maxX - w.minX := hp'.2
      have hheight : p.1 < w.maxY - w.minY := hp'.1
      have hle := w.maxX_le
      have haddress : c.y * g.sizeX + c.x = (w.minY + p.1) * g.sizeX + (w.minX + p.2) := by
        have hrow : (c.y * g.sizeX + c.x - (w.minY * g.sizeX + w.minX) : ℤ) = p.1 * g.sizeX + p.2 := heq
        zify
        linarith
      obtain ⟨hy, hx⟩ := address_inj hc.1 (by omega) haddress
      exact ⟨by omega, by omega, by omega, by omega⟩

/-- 地図が変わりうる更新。 -/
def Effective (layer : DenoiseLayer) (hg : g.Valid) (w : Roi g) : Prop :=
  layer.enabled = true ∧ w.minX < w.maxX ∧ w.minY < w.maxY ∧ ¬ (layer.onGrid g).Overflowed (w.roiImage hg)

/-- 層が有効で窓が空でなく、番号が足りるとき、窓の中の下限より小さい塊の升目だけが `FREE_SPACE` になる。そうでなければ、地図は変わらない。 -/
theorem updateCosts_denoised (hpast : AsFilled past) (layer : DenoiseLayer) (memory : Memory) (hg : g.Valid) (w : Roi g) :
    (layer.Effective hg w → Denoised layer g hg w (layer.updateCosts past memory g hg w).2) ∧
      (¬ layer.Effective hg w → (layer.updateCosts past memory g hg w).2 = g) := by
  rw [updateCosts]
  by_cases hon : layer.enabled = true
  · rw [hon, Bool.not_true, if_neg Bool.false_ne_true]
    by_cases hwindow : w.minX ≥ w.maxX ∨ w.minY ≥ w.maxY
    · rw [if_pos hwindow]
      refine ⟨fun heff => ?_, fun _ => rfl⟩
      obtain ⟨-, hx, hy, -⟩ := heff
      omega
    · rw [if_neg hwindow]
      have hyields := denoise_yields hpast (layer.onGrid g) memory (w.roiImage hg)
      generalize (layer.onGrid g).denoise past memory (w.roiImage hg) = result at hyields ⊢
      obtain ⟨layer', result⟩ := result
      cases result with
      | ok image' =>
          refine ⟨fun _ => written_denoised hg w layer hyields.2, fun hnot => absurd ?_ hnot⟩
          exact ⟨hon, by omega, by omega, hyields.1⟩
      | error e => exact ⟨fun heff => absurd hyields heff.2.2.2, fun _ => rfl⟩
  · rw [Bool.eq_false_of_not_eq_true hon, Bool.not_false, if_pos rfl]
    exact ⟨fun heff => absurd heff.1 hon, fun _ => rfl⟩

/-- 上の行の両端だけが障害物の地図。 -/
def corners : Grid.Costmap2D ℚ := ⟨3, 2, 1, 0, 0, [254, 0, 254, 0, 0, 0], 0⟩

theorem corners_valid : corners.Valid := ⟨Rat.num_pos.mp (by decide), by decide, by decide, by decide, rfl⟩

theorem corners_area : corners.sizeX * corners.sizeY < 2147483648 := by decide

def wholeCorners : Roi corners := ⟨0, 0, corners.sizeX, corners.sizeY, Nat.le_refl _, Nat.le_refl _, corners_area⟩

theorem corners_effective : (onInitialize true 3 4).Effective corners_valid wholeCorners := by
  refine ⟨rfl, by decide, by decide, fun hover => absurd hover.2.2 ?_⟩
  decide +kernel

-- 両端の升目は、四近傍で一つずつの塊である。
theorem updateCosts_denoised_corners :
    Denoised (onInitialize true 3 4) corners corners_valid wholeCorners
      ((onInitialize true 3 4).updateCosts stale leftover corners corners_valid wholeCorners).2 :=
  (updateCosts_denoised (fun _ _ => rfl) (onInitialize true 3 4) leftover corners_valid wholeCorners).1 corners_effective

end DenoiseLayer

end Ranger.Denoise
