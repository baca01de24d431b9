import Ranger.Denoise.Morphology
import Ranger.Denoise.Overflow

/-!
# 一つだけの画素の除去

`nav2_costmap_2d` の `denoise_layer.cpp` の `removeSinglePixels`。画素の周りの最大が背景であれば、その画素は一つだけで連結成分をなす。
-/

namespace Ranger.Denoise
open Ranger.Lib

/-- 三つの値の `std::max` と `std::max_element`。 -/
def maxElement (lst : List UInt8) : UInt8 := lst.foldl max 0

def replaceToFree (v : UInt8) : UInt8 := if v = noInformation then 0 else v

def maxFunction (noInformationIsObstacle : Bool) (lst : List UInt8) : UInt8 :=
  if !noInformationIsObstacle then maxElement (lst.map replaceToFree) else maxElement lst

/-- メモリの内容 `buffer` には、画素の周りの最大が書かれる。 -/
def removeSinglePixels (connectivity : ConnectivityType) (noInformationIsObstacle : Bool) (buffer : ℤ → UInt8)
    (image : Image UInt8) : Except Exception (Image UInt8) := do
  let maxNeighborsImage ← dilate (maxFunction noInformationIsObstacle) connectivity image (image.sameSize buffer)
  maxNeighborsImage.convert image fun maxNeighbor img =>
    if !isBackground noInformationIsObstacle img && isBackground noInformationIsObstacle maxNeighbor then 0 else img

/-! ## 三つの値の最大 -/

variable {noInformationIsObstacle : Bool} {connectivity : ConnectivityType} {image : Image UInt8} {p q : Pixel}
  {x y : UInt8}

theorem le_max_uint8 (a b : UInt8) : a ≤ max a b ∧ b ≤ max a b ∧ (max a b = a ∨ max a b = b) := by
  show a ≤ (if a ≤ b then b else a) ∧ b ≤ (if a ≤ b then b else a) ∧ _
  split_ifs with h
  · exact ⟨h, UInt8.le_refl b, Or.inr (if_pos h)⟩
  · refine ⟨UInt8.le_refl a, ?_, Or.inl (if_neg h)⟩
    rw [UInt8.le_iff_toNat_le] at h ⊢
    omega

theorem foldl_max_greatest (l : List UInt8) (x : UInt8) : Greatest (x :: l) (l.foldl max x) := by
  induction l generalizing x with
  | nil => exact ⟨fun y hy => by rw [List.mem_singleton.mp hy]; exact UInt8.le_refl x, Or.inr List.mem_cons_self⟩
  | cons y l ih =>
      obtain ⟨hx, hy, hmax⟩ := le_max_uint8 x y
      have h := ih (max x y)
      have hle := h.upper _ List.mem_cons_self
      refine ⟨fun z hz => ?_, ?_⟩
      · rcases List.mem_cons.mp hz with rfl | hz
        · exact UInt8.le_trans hx hle
        · rcases List.mem_cons.mp hz with rfl | hz
          · exact UInt8.le_trans hy hle
          · exact h.upper z (List.mem_cons_of_mem _ hz)
      · refine h.attained.imp id fun hmem => ?_
        rw [List.foldl_cons]
        rcases List.mem_cons.mp hmem with heq | hmem
        · rw [heq]
          rcases hmax with hmax | hmax
          · rw [hmax]
            exact List.mem_cons_self
          · rw [hmax]
            exact List.mem_cons_of_mem _ List.mem_cons_self
        · exact List.mem_cons_of_mem _ (List.mem_cons_of_mem _ hmem)

theorem maxElement_greatest (l : List UInt8) : Greatest l (maxElement l) := by
  have h := foldl_max_greatest l 0
  refine ⟨fun y hy => h.upper y (List.mem_cons_of_mem _ hy), ?_⟩
  rcases h.attained with hzero | hmem
  · exact Or.inl hzero
  · exact (List.mem_cons.mp hmem).imp id id

/-- 重ねた値を、比べる前に直す。 -/
def neighbourValue (noInformationIsObstacle : Bool) (x : UInt8) : UInt8 :=
  if noInformationIsObstacle then x else replaceToFree x

theorem maxFunction_aggregates (noInformationIsObstacle : Bool) :
    Aggregates (neighbourValue noInformationIsObstacle) (maxFunction noInformationIsObstacle) := by
  cases noInformationIsObstacle with
  | true => exact ⟨rfl, fun _ => rfl, fun a b c => maxElement_greatest [a, b, c]⟩
  | false =>
      refine ⟨rfl, fun x => ?_, fun a b c => maxElement_greatest ([a, b, c].map replaceToFree)⟩
      show replaceToFree (replaceToFree x) = replaceToFree x
      unfold replaceToFree
      split_ifs <;> simp_all

/-- 前景の値は、直した後の値のうちで `253` 以上のものである。 -/
theorem isBackground_iff : isBackground noInformationIsObstacle x = false ↔
    inscribedInflatedObstacle ≤ neighbourValue noInformationIsObstacle x := by
  have hlt : x.toNat < 256 := x.toNat_lt
  have hcode (n : UInt8) : x = n ↔ x.toNat = n.toNat := UInt8.toNat_inj.symm
  have hvalue : isBackground noInformationIsObstacle x = false ↔
      x.toNat = 254 ∨ x.toNat = 253 ∨ x.toNat = 255 ∧ noInformationIsObstacle = true := by
    simp only [isBackground, Bool.not_eq_false', Bool.or_eq_true, Bool.and_eq_true, beq_iff_eq, hcode, or_assoc]
    exact Iff.rfl
  rw [hvalue, UInt8.le_iff_toNat_le, show inscribedInflatedObstacle.toNat = 253 from rfl]
  cases noInformationIsObstacle with
  | true =>
      simp only [neighbourValue, if_true, and_true]
      omega
  | false =>
      simp only [neighbourValue, replaceToFree, Bool.false_eq_true, if_false, and_false, or_false, hcode]
      split_ifs with hno
      · rw [show noInformation.toNat = 255 from rfl] at hno
        simp only [UInt8.toNat_zero]
        omega
      · rw [show noInformation.toNat = 255 from rfl] at hno
        omega

/-! ## 一つだけの連結成分 -/

theorem reachable_subset {isBg : UInt8 → Bool} (hp : Foreground isBg image p) :
    {q | Relation.ReflTransGen (Linked connectivity isBg image) p q} ⊆ (image.pixels : Set Pixel) :=
  fun _ hpath => (foreground_of_reaches hp hpath).1

theorem reachable_finite {isBg : UInt8 → Bool} (hp : Foreground isBg image p) :
    {q | Relation.ReflTransGen (Linked connectivity isBg image) p q}.Finite :=
  image.pixels.finite_toSet.subset (reachable_subset hp)

/-- 前景の画素の連結成分は、前景の隣がないとき、そのときだけ一つの画素である。 -/
theorem groupSize_lt_two_iff {isBg : UInt8 → Bool} (hp : Foreground isBg image p) :
    groupSize connectivity isBg image p < 2 ↔
      ∀ q ∈ image.pixels, Neighbour connectivity p q → isBg (image.pixel q.1 q.2) = true := by
  rw [groupSize, Nat.lt_succ_iff, ← not_lt, Set.one_lt_ncard (reachable_finite hp)]
  constructor
  · intro hsingle q hq hnear
    by_contra hfg
    have hfg' : Foreground isBg image q := ⟨hq, Bool.eq_false_of_not_eq_true hfg⟩
    refine hsingle ⟨p, Relation.ReflTransGen.refl, q, Relation.ReflTransGen.single ⟨hp, hfg', hnear⟩, ?_⟩
    rintro rfl
    exact Neighbour.irrefl p hnear
  · rintro hall ⟨a, ha, b, hb, hne⟩
    have hself (q : Pixel) (hpath : Relation.ReflTransGen (Linked connectivity isBg image) p q) : q = p := by
      rcases Relation.ReflTransGen.cases_head hpath with heq | ⟨r, hlinked, -⟩
      · exact heq.symm
      · have hbg := hall r hlinked.2.1.1 hlinked.2.2
        rw [hlinked.2.1.2] at hbg
        cases hbg
    exact hne ((hself a ha).trans (hself b hb).symm)

/-- `removeSinglePixels` は、一つの画素からなる連結成分だけを `0` にする。 -/
theorem removeSinglePixels_removed (connectivity : ConnectivityType) (noInformationIsObstacle : Bool)
    (buffer : ℤ → UInt8) (image : Image UInt8) :
    ∃ image', removeSinglePixels connectivity noInformationIsObstacle buffer image = .ok image' ∧
      Removed connectivity (isBackground noInformationIsObstacle) 2 image image' := by
  obtain ⟨neighbours, hdilate, hrows, hcols, hgreatest⟩ :=
    @dilate_greatest image (image.sameSize buffer) _ _ connectivity (maxFunction_aggregates noInformationIsObstacle) rfl
      rfl
  rw [removeSinglePixels, hdilate]
  change ∃ image', neighbours.convert image (fun maxNeighbor img =>
    if !isBackground noInformationIsObstacle img && isBackground noInformationIsObstacle maxNeighbor then 0 else img) =
      .ok image' ∧ Removed connectivity (isBackground noInformationIsObstacle) 2 image image'
  rw [convert_eq (show neighbours.rows = image.rows from hrows) (show neighbours.columns = image.columns from hcols)]
  have hrewritten := rewrite_rewritten image fun r c img =>
    if !isBackground noInformationIsObstacle img && isBackground noInformationIsObstacle (neighbours.pixel r c) then 0
    else img
  have hvalue {p : Pixel} (hp : p ∈ image.pixels) := hrewritten.done p hp (index_lt image hp)
  -- 周りの最大が背景であることは、隣がどれも背景であることと同値である。
  have hmax {p : Pixel} (hp : p ∈ image.pixels) :
      isBackground noInformationIsObstacle (neighbours.pixel p.1 p.2) = true ↔
        ∀ q ∈ image.pixels, Neighbour connectivity p q →
          isBackground noInformationIsObstacle (image.pixel q.1 q.2) = true := by
    obtain ⟨hupper, hattained⟩ := hgreatest p hp
    have hfixed : neighbourValue noInformationIsObstacle (neighbours.pixel p.1 p.2) = neighbours.pixel p.1 p.2 := by
      rcases hattained with hzero | ⟨q, -, -, heq⟩
      · rw [hzero]
        exact (maxFunction_aggregates noInformationIsObstacle).zero
      · rw [heq]
        exact (maxFunction_aggregates noInformationIsObstacle).idem _
    constructor
    · intro hbg q hq hnear
      by_contra hfg
      have hle := UInt8.le_trans (isBackground_iff.mp (Bool.eq_false_of_not_eq_true hfg)) (hupper q hq hnear)
      rw [← hfixed] at hle
      rw [isBackground_iff.mpr hle] at hbg
      cases hbg
    · intro hall
      by_contra hfg
      have hle := isBackground_iff.mp (Bool.eq_false_of_not_eq_true hfg)
      rw [hfixed] at hle
      rcases hattained with hzero | ⟨q, hq, hnear, heq⟩
      · rw [hzero] at hle
        exact absurd hle (by decide)
      · rw [heq] at hle
        have hbg := hall q hq hnear
        rw [isBackground_iff.mpr hle] at hbg
        cases hbg
  refine ⟨_, rfl, hrewritten.rows, hrewritten.columns, hrewritten.step, fun p hp hfg hsmall => ?_, fun p hp hnot => ?_,
    hrewritten.outside⟩
  · refine (hvalue hp).trans (if_pos ?_)
    rw [hfg.2, Bool.not_false, Bool.true_and]
    exact (hmax hp).mpr ((groupSize_lt_two_iff hfg).mp hsmall)
  · refine (hvalue hp).trans (if_neg fun hboth => hnot ?_)
    obtain ⟨hfg, hnoise⟩ := Bool.and_eq_true_iff.mp hboth
    have hfg' : Foreground (isBackground noInformationIsObstacle) image p := ⟨hp, by simpa using hfg⟩
    exact ⟨hfg', (groupSize_lt_two_iff hfg').mpr ((hmax hp).mp hnoise)⟩

end Ranger.Denoise
