import Ranger.Grid.Costmap2D

/-!
# 座標の変換の一致

`mapToWorld`、`worldToMap`、`worldToMapNoBounds`、`worldToMapEnforceBounds` を、平面のどの点についても比べる。地図の上の端の点は、
`worldToMapEnforceBounds` で地図の外の番号になる。
-/

namespace Ranger.Grid
namespace Costmap2D

variable {K : Type*} [Field K] [LinearOrder K] [FloorRing K]

/-! ## 性質 -/

/-- 点が升目にある。 -/
def InCell (g : Costmap2D K) (c : MapLocation) (wx wy : K) : Prop :=
  g.Contains c ∧ AxisCell g.resolution g.originX c.x wx ∧ AxisCell g.resolution g.originY c.y wy

/-- 点についての変換の一致。`worldToMap` は、点のある升目があるとき、そのときに限り成功する。 -/
structure Converts (g : Costmap2D K) (wx wy : K) : Prop where
  roundTrip : ∀ c, g.Contains c → g.worldToMap (g.mapToWorld c).1 (g.mapToWorld c).2 = some (some c)
  succeeds : ∃ r, g.worldToMap wx wy = some r ∧ ∀ c, r = some c ↔ g.InCell c wx wy
  agrees : ∀ c, g.worldToMap wx wy = some (some c) →
    g.worldToMapNoBounds wx wy = some ((c.x : ℤ), (c.y : ℤ)) ∧
      g.worldToMapEnforceBounds wx wy = some ((c.x : ℤ), (c.y : ℤ))
  enforced : ∃ mx my : ℤ, g.worldToMapEnforceBounds wx wy = some (mx, my) ∧
    0 ≤ mx ∧ mx < g.sizeX ∧ 0 ≤ my ∧ my < g.sizeY

/-- 軸の座標が、原点より手前か、上の端と `int` の範囲より手前か、上の端より先にある。 -/
def AxisRegular (resolution origin : K) (size : ℕ) (w : K) : Prop :=
  w < origin ∨
    (origin ≤ w ∧ w < origin + resolution * size ∧ ⌊(w - origin) / resolution⌋ < 2147483648) ∨
    (origin + resolution * size < w ∧ size ≤ 2147483648)

/-- 点は上の端になく、原点より手前でなければ、`unsigned int` の範囲の升目の数だけ離れている。 -/
def Regular (g : Costmap2D K) (wx wy : K) : Prop :=
  AxisRegular g.resolution g.originX g.sizeX wx ∧ AxisRegular g.resolution g.originY g.sizeY wy ∧
    (g.originX ≤ wx → g.originY ≤ wy →
      ⌊(wx - g.originX) / g.resolution⌋ < 4294967296 ∧ ⌊(wy - g.originY) / g.resolution⌋ < 4294967296)

/-! ## 一つの軸 -/

variable [IsStrictOrderedRing K]

section Axis

variable {resolution origin w : K} {size i : ℕ}

theorem enforceAxis_inside (hr : 0 < resolution) (hlo : origin ≤ w) (hhi : w ≤ origin + resolution * size) :
    enforceAxis resolution origin size w = toInt ⌊(w - origin) / resolution⌋ := by
  rw [enforceAxis, if_neg (not_lt.mpr hlo), if_neg (by linarith), truncate_axis hr hlo]

/-- 制限した番号が地図の中に定まるのは、座標が `AxisRegular` であるとき、そのときに限る。 -/
theorem enforceAxis_iff (hr : 0 < resolution) (hsize : 0 < size) :
    (∃ m : ℤ, enforceAxis resolution origin size w = some m ∧ 0 ≤ m ∧ m < size) ↔
      AxisRegular resolution origin size w := by
  unfold AxisRegular
  rcases lt_or_ge w origin with hlow | hlow
  · refine iff_of_true ⟨0, ?_, le_refl 0, by exact_mod_cast hsize⟩ (Or.inl hlow)
    rw [enforceAxis, if_pos hlow]
  · rcases lt_or_ge (origin + resolution * size) w with hhigh | hhigh
    · have heq : enforceAxis resolution origin size w = toInt ((size : ℤ) - 1) := by
        rw [enforceAxis, if_neg (not_lt.mpr hlow), if_pos (by linarith)]
      rw [heq]
      constructor
      · rintro ⟨m, hm, -⟩
        obtain ⟨-, -, hlt⟩ := toInt_eq_some.mp hm
        exact Or.inr (Or.inr ⟨hhigh, by omega⟩)
      · rintro (hbelow | ⟨-, hinside, -⟩ | ⟨-, hsmall⟩)
        · exact absurd hbelow (not_lt.mpr hlow)
        · exact absurd hinside (not_lt.mpr hhigh.le)
        · exact ⟨(size : ℤ) - 1, toInt_eq_some.mpr ⟨rfl, by omega, by omega⟩, by omega, by omega⟩
    · rw [enforceAxis_inside hr hlow hhigh]
      have hnonneg : 0 ≤ ⌊(w - origin) / resolution⌋ := Int.floor_nonneg.mpr (cells_nonneg hr hlow)
      constructor
      · rintro ⟨m, hm, -, hlt⟩
        obtain ⟨rfl, -, hint⟩ := toInt_eq_some.mp hm
        exact Or.inr (Or.inl ⟨hlow, (floor_lt_size hr).mp hlt, hint⟩)
      · rintro (hbelow | ⟨-, hinside, hint⟩ | ⟨habove, -⟩)
        · exact absurd hbelow (not_lt.mpr hlow)
        · exact ⟨_, toInt_eq_some.mpr ⟨rfl, by omega, hint⟩, hnonneg, (floor_lt_size hr).mpr hinside⟩
        · exact absurd habove (not_lt.mpr hhigh)

/-- 升目の中の座標は、範囲を調べても調べなくても、同じ番号になる。 -/
theorem axis_agrees (hr : 0 < resolution) (hcell : AxisCell resolution origin i w) (hi : i < size)
    (h : AxisRegular resolution origin size w) :
    toInt (truncate ((w - origin) / resolution)) = some (i : ℤ) ∧
      enforceAxis resolution origin size w = some (i : ℤ) := by
  have hlow := axisCell_origin_le hr hcell
  have hfloor := (axisCell_iff hr).mp hcell
  have hinside : w < origin + resolution * size := by
    rw [← floor_lt_size hr, hfloor]
    exact_mod_cast hi
  have hint : toInt ⌊(w - origin) / resolution⌋ = some (i : ℤ) := by
    rcases h with hbelow | ⟨-, -, hlt⟩ | ⟨habove, -⟩
    · exact absurd hbelow (not_lt.mpr hlow)
    · exact toInt_eq_some.mpr ⟨hfloor, by omega, hlt⟩
    · exact absurd habove (not_lt.mpr hinside.le)
  rw [truncate_axis hr hlow, enforceAxis_inside hr hlow hinside.le]
  exact ⟨hint, hint⟩

end Axis

/-! ## `worldToMap` -/

variable {g : Costmap2D K} {wx wy : K} {c : MapLocation}

omit [IsStrictOrderedRing K] in
theorem worldToMap_of_lt (h : wx < g.originX ∨ wy < g.originY) : g.worldToMap wx wy = some none := by
  rw [worldToMap, if_pos h]

theorem worldToMap_of_le (hr : 0 < g.resolution) (hx : g.originX ≤ wx) (hy : g.originY ≤ wy) :
    g.worldToMap wx wy = (toUnsigned ⌊(wx - g.originX) / g.resolution⌋).bind fun mx =>
      (toUnsigned ⌊(wy - g.originY) / g.resolution⌋).bind fun my =>
        some (if mx < g.sizeX ∧ my < g.sizeY then some ⟨mx, my⟩ else none) := by
  rw [worldToMap, if_neg (not_or.mpr ⟨not_lt.mpr hx, not_lt.mpr hy⟩), truncate_axis hr hx, truncate_axis hr hy]
  rfl

theorem worldToMap_of_inCell (hr : 0 < g.resolution) (hx : g.sizeX ≤ 4294967296) (hy : g.sizeY ≤ 4294967296)
    (h : g.InCell c wx wy) : g.worldToMap wx wy = some (some c) := by
  obtain ⟨⟨hcx, hcy⟩, hwx, hwy⟩ := h
  have hx' : toUnsigned ⌊(wx - g.originX) / g.resolution⌋ = some c.x :=
    toUnsigned_eq_some.mpr ⟨(axisCell_iff hr).mp hwx, by rw [(axisCell_iff hr).mp hwx]; omega⟩
  have hy' : toUnsigned ⌊(wy - g.originY) / g.resolution⌋ = some c.y :=
    toUnsigned_eq_some.mpr ⟨(axisCell_iff hr).mp hwy, by rw [(axisCell_iff hr).mp hwy]; omega⟩
  rw [worldToMap_of_le hr (axisCell_origin_le hr hwx) (axisCell_origin_le hr hwy), hx', hy']
  simp [hcx, hcy]

/-- 成功したとき、点は返された升目にある。 -/
theorem inCell_of_worldToMap (hr : 0 < g.resolution) (h : g.worldToMap wx wy = some (some c)) : g.InCell c wx wy := by
  rcases lt_or_ge wx g.originX with hx | hx
  · rw [worldToMap_of_lt (Or.inl hx)] at h
    cases h
  · rcases lt_or_ge wy g.originY with hy | hy
    · rw [worldToMap_of_lt (Or.inr hy)] at h
      cases h
    · rw [worldToMap_of_le hr hx hy] at h
      obtain ⟨mx, hmx, h⟩ := Option.bind_eq_some_iff.mp h
      obtain ⟨my, hmy, h⟩ := Option.bind_eq_some_iff.mp h
      rw [Option.some.injEq] at h
      split_ifs at h with hsize
      cases h
      exact ⟨hsize, (axisCell_iff hr).mpr (toUnsigned_eq_some.mp hmx).1,
        (axisCell_iff hr).mpr (toUnsigned_eq_some.mp hmy).1⟩

theorem inCell_center (hr : 0 < g.resolution) (h : g.Contains c) :
    g.InCell c (g.mapToWorld c).1 (g.mapToWorld c).2 :=
  ⟨h, axisCell_center hr c.x, axisCell_center hr c.y⟩

/-- 変換が定まるのは、点が原点より手前か、番号が `unsigned int` に収まるとき、そのときに限る。 -/
theorem worldToMap_defined (hr : 0 < g.resolution) :
    (∃ r, g.worldToMap wx wy = some r) ↔ (g.originX ≤ wx → g.originY ≤ wy →
      ⌊(wx - g.originX) / g.resolution⌋ < 4294967296 ∧ ⌊(wy - g.originY) / g.resolution⌋ < 4294967296) := by
  rcases lt_or_ge wx g.originX with hx | hx
  · exact iff_of_true ⟨none, worldToMap_of_lt (Or.inl hx)⟩ fun hx' => absurd hx (not_lt.mpr hx')
  · rcases lt_or_ge wy g.originY with hy | hy
    · exact iff_of_true ⟨none, worldToMap_of_lt (Or.inr hy)⟩ fun _ hy' => absurd hy (not_lt.mpr hy')
    · rw [worldToMap_of_le hr hx hy]
      have hnx := Int.floor_nonneg.mpr (cells_nonneg hr hx)
      have hny := Int.floor_nonneg.mpr (cells_nonneg hr hy)
      constructor
      · rintro ⟨r, h⟩ _ _
        obtain ⟨mx, hmx, h⟩ := Option.bind_eq_some_iff.mp h
        obtain ⟨my, hmy, -⟩ := Option.bind_eq_some_iff.mp h
        exact ⟨(toUnsigned_eq_some.mp hmx).2, (toUnsigned_eq_some.mp hmy).2⟩
      · intro h
        obtain ⟨hxlt, hylt⟩ := h hx hy
        rw [toUnsigned, if_pos ⟨hnx, hxlt⟩, toUnsigned, if_pos ⟨hny, hylt⟩]
        exact ⟨_, rfl⟩

/-! ## 変換の全体 -/

/-- 大きさと解像度が正の地図では、どの点についても、変換が一致するのは、点が `Regular` であるとき、そのときに限る。 -/
theorem converts_iff (g : Costmap2D K) (hr : 0 < g.resolution) (hx : 0 < g.sizeX ∧ g.sizeX < 4294967296)
    (hy : 0 < g.sizeY ∧ g.sizeY < 4294967296) (wx wy : K) : g.Converts wx wy ↔ g.Regular wx wy := by
  constructor
  · rintro ⟨-, ⟨r, hr', -⟩, -, mx, my, henforced, hmx, hmxlt, hmy, hmylt⟩
    obtain ⟨mx', hmx', h⟩ := Option.bind_eq_some_iff.mp henforced
    obtain ⟨my', hmy', h⟩ := Option.bind_eq_some_iff.mp h
    cases h
    refine ⟨(enforceAxis_iff hr hx.1).mp ⟨mx, hmx', hmx, hmxlt⟩, (enforceAxis_iff hr hy.1).mp ⟨my, hmy', hmy, hmylt⟩,
      (worldToMap_defined hr).mp ⟨r, hr'⟩⟩
  · rintro ⟨hregx, hregy, hdefined⟩
    constructor
    · intro c hc
      exact worldToMap_of_inCell hr hx.2.le hy.2.le (inCell_center hr hc)
    · obtain ⟨r, hr'⟩ := (worldToMap_defined hr).mpr hdefined
      refine ⟨r, hr', fun c => ⟨?_, fun hcell => ?_⟩⟩
      · rintro rfl
        exact inCell_of_worldToMap hr hr'
      · rw [worldToMap_of_inCell hr hx.2.le hy.2.le hcell] at hr'
        exact (Option.some.inj hr').symm
    · intro c hc
      obtain ⟨⟨hcx, hcy⟩, hwx, hwy⟩ := inCell_of_worldToMap hr hc
      obtain ⟨hnx, hex⟩ := axis_agrees hr hwx hcx hregx
      obtain ⟨hny, hey⟩ := axis_agrees hr hwy hcy hregy
      constructor
      · simp [worldToMapNoBounds, hnx, hny]
      · simp [worldToMapEnforceBounds, hex, hey]
    · obtain ⟨mx, hmx, hnx, hltx⟩ := (enforceAxis_iff hr hx.1).mpr hregx
      obtain ⟨my, hmy, hny, hlty⟩ := (enforceAxis_iff hr hy.1).mpr hregy
      exact ⟨mx, my, by simp [worldToMapEnforceBounds, hmx, hmy], hnx, hltx, hny, hlty⟩

end Costmap2D

/-- 一辺が 10 の、解像度 1 の地図。 -/
def tenByTen : Costmap2D ℚ := ⟨10, 10, 1, 0, 0, List.replicate 100 0, 0⟩

namespace Costmap2D

theorem valid_tenByTen : tenByTen.Valid := by
  constructor <;> decide +kernel

-- 升目の中の点では、変換が一致する。
theorem converts_iff_inside : 0 < tenByTen.resolution ∧ tenByTen.Regular 2.5 3 ∧ tenByTen.Converts 2.5 3 := by
  have hregular : tenByTen.Regular 2.5 3 := by
    refine ⟨Or.inr (Or.inl ?_), Or.inr (Or.inl ?_), fun _ _ => ?_⟩ <;> decide +kernel
  exact ⟨by decide +kernel, hregular, (converts_iff tenByTen (by decide +kernel) (by decide) (by decide) 2.5 3).mpr
    hregular⟩

-- 上の端の点は、地図の外の番号 10 になる。
theorem converts_fails :
    ¬ ∀ (g : Costmap2D ℚ), 0 < g.resolution → 0 < g.sizeX ∧ g.sizeX < 4294967296 →
      0 < g.sizeY ∧ g.sizeY < 4294967296 → ∀ wx wy, g.Converts wx wy := by
  intro h
  obtain ⟨mx, my, henforced, -, hmx, -⟩ :=
    (h tenByTen (by decide +kernel) (by decide) (by decide) 10 0).enforced
  have hborder : tenByTen.worldToMapEnforceBounds 10 0 = some (10, 0) := by decide +kernel
  rw [hborder] at henforced
  cases henforced
  exact absurd hmx (by decide)

end Costmap2D

end Ranger.Grid
