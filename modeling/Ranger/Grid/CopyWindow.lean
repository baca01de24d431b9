import Ranger.Grid.UpdateOrigin

/-!
# 窓の写し

`Costmap2D::copyCostmapWindow` と `Costmap2D::copyWindow`。前者は、窓の隅を調べる前に自分の配列を消す。後者は、窓の大きさを
`unsigned int` の差で求め、回り込んだ差を足し直してから範囲を調べる。
-/

namespace Ranger.Grid
open Ranger.Lib
namespace Costmap2D

variable {K : Type} [Field K] [LinearOrder K] [FloorRing K]

/-- 返す値と、呼び出しの後の地図。`self` は `this == &map` を表し、`none` は、定まらない変換と、配列の外への写しを表す。 -/
def copyCostmapWindow (self : Bool) (g map : Costmap2D K) (winOriginX winOriginY winSizeX winSizeY : K) :
    Option (Bool × Costmap2D K) :=
  if self then some (false, g)
  else
    -- `deleteMaps`
    let deleted := { g with costmap := [] }
    (map.worldToMap winOriginX winOriginY).bind fun
      | none => some (false, deleted)
      | some lowerLeft =>
          (map.worldToMap (winOriginX + winSizeX) (winOriginY + winSizeY)).bind fun
            | none => some (false, deleted)
            | some upperRight =>
                let sizeX := asUnsigned ((upperRight.x : ℤ) - lowerLeft.x)
                let sizeY := asUnsigned ((upperRight.y : ℤ) - lowerLeft.y)
                (copyMapRegion map.costmap lowerLeft.x lowerLeft.y map.sizeX (List.replicate (wrap (sizeX * sizeY)) 0)
                  0 0 sizeX sizeX sizeY).map fun costmap =>
                    (true, { sizeX := sizeX, sizeY := sizeY, resolution := map.resolution, originX := winOriginX,
                             originY := winOriginY, costmap := costmap, defaultValue := g.defaultValue })

def copyWindow (g source : Costmap2D K) (sx0 sy0 sxn syn dx0 dy0 : UInt32) : Option (Bool × Costmap2D K) :=
  let szX := sxn - sx0
  let szY := syn - sy0
  if source.sizeX < sxn.toNat ∨ source.sizeY < syn.toNat then some (false, g)
  else if g.sizeX < (dx0 + szX).toNat ∨ g.sizeY < (dy0 + szY).toNat then some (false, g)
  else
    (copyMapRegion source.costmap sx0.toNat sy0.toNat source.sizeX g.costmap dx0.toNat dy0.toNat g.sizeX szX.toNat
      szY.toNat).map fun costmap => (true, { g with costmap := costmap })

/-! ## 性質 -/

/-- 失敗したとき、地図は変わらない。 -/
def KeptOnFailure (g : Costmap2D K) (result : Option (Bool × Costmap2D K)) : Prop :=
  ∀ g', result = some (false, g') → g' = g

/-- 自分自身の窓であるか、消す配列がないか、窓の隅が地図の外に出ていない。 -/
def CornersInside (self : Bool) (g map : Costmap2D K) (winOriginX winOriginY winSizeX winSizeY : K) : Prop :=
  self = true ∨ g.costmap = [] ∨
    (map.worldToMap winOriginX winOriginY ≠ some none ∧
      ((map.worldToMap winOriginX winOriginY).isSome = true →
        map.worldToMap (winOriginX + winSizeX) (winOriginY + winSizeY) ≠ some none))

/-- 断られる呼び出しであるか、窓が空であるか、窓の最後の行が両方の配列に収まる。 -/
def RowsInside (g source : Costmap2D K) (sx0 sy0 sxn syn dx0 dy0 : UInt32) : Prop :=
  (source.sizeX < sxn.toNat ∨ source.sizeY < syn.toNat) ∨
    (g.sizeX < (dx0 + (sxn - sx0)).toNat ∨ g.sizeY < (dy0 + (syn - sy0)).toNat) ∨
    sxn = sx0 ∨ syn = sy0 ∨
    (wrap (sy0.toNat * source.sizeX + sx0.toNat) + ((syn - sy0).toNat - 1) * source.sizeX + (sxn - sx0).toNat ≤
        source.costmap.length ∧
      wrap (dy0.toNat * g.sizeX + dx0.toNat) + ((syn - sy0).toNat - 1) * g.sizeX + (sxn - sx0).toNat ≤
        g.costmap.length)

/-! ## `copyCostmapWindow` -/

theorem copyCostmapWindow_iff (self : Bool) (g map : Costmap2D K) (winOriginX winOriginY winSizeX winSizeY : K) :
    g.KeptOnFailure (copyCostmapWindow self g map winOriginX winOriginY winSizeX winSizeY) ↔
      CornersInside self g map winOriginX winOriginY winSizeX winSizeY := by
  unfold KeptOnFailure CornersInside copyCostmapWindow
  cases self with
  | true => simp
  | false =>
      have hdeleted : { g with costmap := [] } = g ↔ g.costmap = [] := by
        cases g
        simp [eq_comm]
      cases hlower : map.worldToMap winOriginX winOriginY with
      | none => simp
      | some lower =>
          cases lower with
          | none => simp [hdeleted]
          | some lowerLeft =>
              cases hupper : map.worldToMap (winOriginX + winSizeX) (winOriginY + winSizeY) with
              | none => simp
              | some upper =>
                  cases upper with
                  | none => simp [hdeleted]
                  | some upperRight => simp

/-! ## `copyWindow` -/

theorem toNat_sub_eq_zero_iff (a b : UInt32) : (a - b).toNat = 0 ↔ a = b := by
  have ha := a.toNat_lt
  have hb := b.toNat_lt
  rw [UInt32.toNat_sub, ← UInt32.toNat_inj]
  omega

omit [Field K] [LinearOrder K] [FloorRing K] in
theorem copyWindow_iff (g source : Costmap2D K) (sx0 sy0 sxn syn dx0 dy0 : UInt32) :
    (∃ result, copyWindow g source sx0 sy0 sxn syn dx0 dy0 = some result ∧ g.KeptOnFailure (some result)) ↔
      RowsInside g source sx0 sy0 sxn syn dx0 dy0 := by
  unfold copyWindow RowsInside
  by_cases hsource : source.sizeX < sxn.toNat ∨ source.sizeY < syn.toNat
  · rw [if_pos hsource]
    refine iff_of_true ⟨(false, g), rfl, fun g' heq => ?_⟩ (Or.inl hsource)
    cases heq
    rfl
  · by_cases hdest : g.sizeX < (dx0 + (sxn - sx0)).toNat ∨ g.sizeY < (dy0 + (syn - sy0)).toNat
    · rw [if_neg hsource, if_pos hdest]
      refine iff_of_true ⟨(false, g), rfl, fun g' heq => ?_⟩ (Or.inr (Or.inl hdest))
      cases heq
      rfl
    · rw [← toNat_sub_eq_zero_iff sxn sx0, ← toNat_sub_eq_zero_iff syn sy0, or_iff_right hsource, or_iff_right hdest,
        if_neg hsource, if_neg hdest, ← copyRegion_isSome_iff]
      constructor
      · rintro ⟨result, hresult, -⟩
        obtain ⟨out, hout, -⟩ := Option.map_eq_some_iff.mp hresult
        exact ⟨out, hout⟩
      · rintro ⟨out, hout⟩
        refine ⟨(true, { g with costmap := out }), ?_, fun g' heq => ?_⟩
        · rw [copyMapRegion, hout]
          rfl
        · cases heq

omit [FloorRing K] in
/-- 逆向きでなく、足し直しても回り込まない窓は、配列の中にある。 -/
theorem rowsInside_of_le {g source : Costmap2D K} (hg : g.Valid) (hsource : source.Valid)
    {sx0 sy0 sxn syn dx0 dy0 : UInt32} (hx : sx0 ≤ sxn) (hy : sy0 ≤ syn)
    (hdx : dx0.toNat + (sxn.toNat - sx0.toNat) < 4294967296)
    (hdy : dy0.toNat + (syn.toNat - sy0.toNat) < 4294967296) : RowsInside g source sx0 sy0 sxn syn dx0 dy0 := by
  have hszx : (sxn - sx0).toNat = sxn.toNat - sx0.toNat := UInt32.toNat_sub_of_le _ _ hx
  have hszy : (syn - sy0).toNat = syn.toNat - sy0.toNat := UInt32.toNat_sub_of_le _ _ hy
  have hendx : (dx0 + (sxn - sx0)).toNat = dx0.toNat + (sxn.toNat - sx0.toNat) := by
    rw [UInt32.toNat_add, hszx, Nat.mod_eq_of_lt hdx]
  have hendy : (dy0 + (syn - sy0)).toNat = dy0.toNat + (syn.toNat - sy0.toNat) := by
    rw [UInt32.toNat_add, hszy, Nat.mod_eq_of_lt hdy]
  rw [UInt32.le_iff_toNat_le] at hx hy
  unfold RowsInside
  by_cases hrejected : (source.sizeX < sxn.toNat ∨ source.sizeY < syn.toNat) ∨
      g.sizeX < (dx0 + (sxn - sx0)).toNat ∨ g.sizeY < (dy0 + (syn - sy0)).toNat
  · rcases hrejected with hs | hd
    · exact Or.inl hs
    · exact Or.inr (Or.inl hd)
  · by_cases hempty : sxn = sx0 ∨ syn = sy0
    · exact Or.inr (Or.inr (hempty.elim Or.inl fun h => Or.inr (Or.inl h)))
    · rw [← toNat_sub_eq_zero_iff, ← toNat_sub_eq_zero_iff] at hempty
      obtain ⟨⟨hsx, hsy⟩, hgx, hgy⟩ : (sxn.toNat ≤ source.sizeX ∧ syn.toNat ≤ source.sizeY) ∧
          dx0.toNat + (sxn.toNat - sx0.toNat) ≤ g.sizeX ∧ dy0.toNat + (syn.toNat - sy0.toNat) ≤ g.sizeY := by
        omega
      rw [hszx, hszy]
      have hsrows : sy0.toNat * source.sizeX + sx0.toNat + (syn.toNat - sy0.toNat - 1) * source.sizeX +
          (sxn.toNat - sx0.toNat) ≤ source.sizeX * source.sizeY := region_end_le (by omega) (by omega) (by omega)
      have hdrows : dy0.toNat * g.sizeX + dx0.toNat + (syn.toNat - sy0.toNat - 1) * g.sizeX +
          (sxn.toNat - sx0.toNat) ≤ g.sizeX * g.sizeY := region_end_le (by omega) (by omega) (by omega)
      have hsarea := hsource.area
      have hdarea := hg.area
      rw [hsource.costmap, hg.costmap, wrap_of_lt (by omega), wrap_of_lt (by omega)]
      exact Or.inr (Or.inr (Or.inr (Or.inr ⟨hsrows, hdrows⟩)))

/-- どの二つの地図とどの窓についても、失敗した写しが何も変えず、`copyWindow` の写しが両方の配列に収まるのは、窓の隅と
行がその条件を満たすとき、そのときに限る。 -/
theorem copyWindows_iff (g source : Costmap2D K) (self : Bool) (winOriginX winOriginY winSizeX winSizeY : K)
    (sx0 sy0 sxn syn dx0 dy0 : UInt32) :
    (g.KeptOnFailure (copyCostmapWindow self g source winOriginX winOriginY winSizeX winSizeY) ∧
      ∃ result, copyWindow g source sx0 sy0 sxn syn dx0 dy0 = some result ∧ g.KeptOnFailure (some result)) ↔
    CornersInside self g source winOriginX winOriginY winSizeX winSizeY ∧
      RowsInside g source sx0 sy0 sxn syn dx0 dy0 :=
  and_congr (copyCostmapWindow_iff self g source winOriginX winOriginY winSizeX winSizeY)
    (copyWindow_iff g source sx0 sy0 sxn syn dx0 dy0)

-- 窓の隅が地図の外にあると、配列は消されている。逆向きの窓は、範囲の検査を通って配列の外を読む。
theorem copyWindows_fails :
    (¬ ∀ (g map : Costmap2D ℚ) (winOriginX winOriginY winSizeX winSizeY : ℚ), g.Valid → map.Valid →
      g.KeptOnFailure (copyCostmapWindow false g map winOriginX winOriginY winSizeX winSizeY)) ∧
    ¬ ∀ (g source : Costmap2D ℚ) (sx0 sy0 sxn syn dx0 dy0 : UInt32), g.Valid → source.Valid →
      ∃ result, copyWindow g source sx0 sy0 sxn syn dx0 dy0 = some result ∧ g.KeptOnFailure (some result) := by
  constructor
  · intro h
    have hinside := (copyCostmapWindow_iff _ _ _ _ _ _ _).mp
      (h tenByTen tenByTen (-1) 0 2 2 valid_tenByTen valid_tenByTen)
    rcases hinside with hself | hempty | ⟨hcorner, -⟩
    · cases hself
    · exact absurd hempty (by decide)
    · exact hcorner (by decide +kernel)
  · intro h
    have hrows := (copyWindow_iff _ _ _ _ _ _ _ _).mp (h tenByTen tenByTen 5 0 3 1 2 0 valid_tenByTen valid_tenByTen)
    unfold RowsInside at hrows
    revert hrows
    decide +kernel

end Costmap2D

end Ranger.Grid
