import Ranger.Lib.Bins
import Ranger.Scan.PointCloud

/-!
# 統合された走査の区画

走査の各区画に、両側の点群のうち範囲に入りその区画に向く点の、丸めた距離の最小が残ることと、受け手が番号から復元する向きの
ずれを調べる。番号は円を `ranges_num` 等分して決まり、公開する刻みは円を `ranges_num - 1` 等分する。
-/

namespace Ranger.Scan
open Ranger.Lib

noncomputable section

variable {p : OutputParams} {r : WithTop ℝ → WithTop ℝ}

/-! ## 点と区画 -/

def PointCloud2.points (c : PointCloud2) : List Point :=
  (List.range c.numberOfPoints).filterMap fun i => (c.words i).point

def mergedPoints (part : Side → Option LaserCloud) : List Point :=
  (part .front).elim [] (fun c => c.points) ++ (part .rear).elim [] fun c => c.points

def Point.sector (p : OutputParams) (q : Point) : ℕ := sectorIndex p.rangesNum p.rangesNum q.direction

/-- 区画 `j` に向き、範囲に入る点の、丸めた距離。 -/
def sectorRanges (p : OutputParams) (r : WithTop ℝ → WithTop ℝ) (qs : List Point) (j : ℕ) : Set (WithTop ℝ) :=
  {v | ∃ q ∈ qs, q.Passes p ∧ q.sector p = j ∧ v = r q.range}

theorem sectorIndex_lt {num size : ℕ} (hsize : 0 < size) (angle : ℝ) : sectorIndex num size angle < size := by
  unfold sectorIndex
  simp only
  split_ifs with h
  · exact Nat.sub_one_lt hsize.ne'
  · exact not_le.mp h

/-! ## `ranges` -/

/-- 点を順に入れた `ranges`。 -/
def depositPoints (p : OutputParams) (r : WithTop ℝ → WithTop ℝ) (d : List (WithTop ℝ)) (qs : List Point) :
    List (WithTop ℝ) :=
  open Classical in
  deposits r (Point.sector p) (fun q => (q.range : WithTop ℝ)) d (qs.filter fun q => q.Passes p)

theorem recordRange_eq {d : List (WithTop ℝ)} (hd : d.length = p.rangesNum) (q : Point) :
    recordRange p r q d = deposit r (Point.sector p) (fun q => (q.range : WithTop ℝ)) d q := by
  simp only [recordRange, deposit, Point.sector, hd]
  cases d[sectorIndex p.rangesNum p.rangesNum q.direction]? with
  | none => rfl
  | some stored => exact if_congr Iff.rfl rfl rfl

theorem depositPoints_cons {q : Point} (hpass : q.Passes p) {d : List (WithTop ℝ)} (hd : d.length = p.rangesNum)
    (qs : List Point) : depositPoints p r d (q :: qs) = depositPoints p r (recordRange p r q d) qs := by
  classical
  rw [recordRange_eq hd, depositPoints, depositPoints, List.filter_cons_of_pos (by simpa using hpass)]
  rfl

theorem depositPoints_skip {q : Point} (hpass : ¬ q.Passes p) (d : List (WithTop ℝ)) (qs : List Point) :
    depositPoints p r d (q :: qs) = depositPoints p r d qs := by
  classical
  rw [depositPoints, depositPoints, List.filter_cons_of_neg (by simpa using hpass)]

theorem length_recordRange {d : List (WithTop ℝ)} (hd : d.length = p.rangesNum) (q : Point) :
    (recordRange p r q d).length = p.rangesNum := by
  rw [recordRange_eq hd, length_deposit, hd]

/-- 点群の点を順に加えた `ranges`。 -/
theorem foldl_appendPoint_ranges {input : PointCloud2} {is : List ℕ} {d : List (WithTop ℝ)}
    {points : Option (List UInt8)} (hd : d.length = p.rangesNum) :
    (is.foldl (appendPoint p r input) ⟨some d, points⟩).ranges =
      some (depositPoints p r d (is.filterMap fun i => (input.words i).point)) := by
  induction is generalizing d points with
  | nil => rfl
  | cons i is ih =>
      rw [List.foldl_cons]
      cases hq : (input.words i).point with
      | none =>
          have hpass : ¬ input.PassesAt p i := fun ⟨q, h, _⟩ => by rw [hq] at h; cases h
          rw [appendPoint_of_not hpass, ih hd, List.filterMap_cons_none (f := fun i => (input.words i).point) hq]
      | some q =>
          rw [List.filterMap_cons_some (f := fun i => (input.words i).point) hq]
          by_cases hpass : q.Passes p
          · rw [appendPoint_of_passes hq hpass, depositPoints_cons hpass hd]
            exact ih (length_recordRange hd q)
          · have hnot : ¬ input.PassesAt p i := fun ⟨q', h, h'⟩ => by
              rw [hq] at h
              cases h
              exact hpass h'
            rw [appendPoint_of_not hnot, ih hd, depositPoints_skip hpass]

theorem length_depositPoints (d : List (WithTop ℝ)) (qs : List Point) : (depositPoints p r d qs).length = d.length :=
  length_deposits d _

theorem depositPoints_append (d : List (WithTop ℝ)) (qs qs' : List Point) :
    depositPoints p r (depositPoints p r d qs) qs' = depositPoints p r d (qs ++ qs') := by
  rw [depositPoints, depositPoints, depositPoints, List.filter_append, deposits, deposits, deposits,
    List.foldl_append]

theorem appendPart_ranges (hscan : p.publishScan = true) (part : Option LaserCloud)
    {out : List (WithTop ℝ) × List UInt8} (hout : out.1.length = p.rangesNum) :
    (appendPart p r part out).1 = depositPoints p r out.1 (part.elim [] fun c => c.points) := by
  cases part with
  | none => rfl
  | some c => simp only [appendPart, hscan, if_true, appendFilteredPoints, foldl_appendPoint_ranges hout,
      Option.getD_some, Option.elim_some, PointCloud2.points]

theorem collect_ranges (hscan : p.publishScan = true) (part : Side → Option LaserCloud) :
    (collect p r part).1 = depositPoints p r (List.replicate p.rangesNum ⊤) (mergedPoints part) := by
  have hfront : (appendPart p r (part .front) (List.replicate p.rangesNum ⊤, [])).1 =
      depositPoints p r (List.replicate p.rangesNum ⊤) ((part .front).elim [] fun c => c.points) :=
    appendPart_ranges hscan (part .front) List.length_replicate
  rw [collect, appendPart_ranges hscan, hfront, depositPoints_append]
  · rfl
  · rw [hfront, length_depositPoints, List.length_replicate]

theorem scanMsg_some {part : Side → Option LaserCloud} {scan : LaserScan} (h : scanMsg p r part = some scan) :
    scan.ranges = depositPoints p r (List.replicate p.rangesNum ⊤) (mergedPoints part) ∧
      scan.angleMin = -Real.pi ∧ scan.angleMax = Real.pi ∧
      scan.angleIncrement = 2.0 * Real.pi / (p.rangesNum - 1) := by
  unfold scanMsg at h
  split_ifs at h with hscan
  obtain rfl := Option.some.inj h
  exact ⟨collect_ranges hscan part, rfl, rfl, rfl⟩

/-! ## 区画の最小の距離 -/

theorem deposited_points (qs : List Point) (j : ℕ) :
    open Classical in
    deposited r (Point.sector p) (fun q => (q.range : WithTop ℝ)) (qs.filter fun q => q.Passes p) j =
      sectorRanges p r qs j := by
  ext v
  simp [deposited, sectorRanges, and_assoc]

/-- どの区画にも、範囲に入りその区画に向く両側の点の、丸めた距離の最小が残り、点がなければ無限大である。残る値は、点の順にも、
点群の順にもよらない。 -/
theorem scan_ranges_least (hmono : Monotone r) (hidem : ∀ x, r (r x) = r x) (hnum : 1 ≤ p.rangesNum)
    {part : Side → Option LaserCloud} {scan : LaserScan} (hscan : scanMsg p r part = some scan) :
    scan.ranges.length = p.rangesNum ∧ (∀ q : Point, q.sector p < p.rangesNum) ∧
      (∀ j < p.rangesNum, ∃ v, scan.ranges[j]? = some v ∧
        (sectorRanges p r (mergedPoints part) j = ∅ → v = ⊤) ∧
        ((sectorRanges p r (mergedPoints part) j).Nonempty → IsLeast (sectorRanges p r (mergedPoints part) j) v)) ∧
      ∀ part' scan', scanMsg p r part' = some scan' → (mergedPoints part).Perm (mergedPoints part') →
        scan'.ranges = scan.ranges := by
  classical
  have hfinite : ∀ qs : List Point, ∀ q ∈ qs, (q.range : WithTop ℝ) ≠ ⊤ := fun _ _ _ => WithTop.coe_ne_top
  obtain ⟨hranges, _⟩ := scanMsg_some hscan
  refine ⟨by rw [hranges, length_depositPoints, List.length_replicate], fun q => sectorIndex_lt hnum _, ?_, ?_⟩
  · intro j hj
    obtain ⟨v, hv, hleast⟩ :
        ∃ v, (depositPoints p r (List.replicate p.rangesNum ⊤) (mergedPoints part))[j]? = some v ∧ IsLeast _ v :=
      deposits_isLeast hmono hidem (hfinite _) hj
    rw [deposited_points] at hleast
    refine ⟨v, hranges ▸ hv, fun hempty => ?_, fun ⟨w, hw⟩ => ?_⟩
    · rw [hempty, insert_empty_eq] at hleast
      exact hleast.1
    · rcases hleast.1 with rfl | hmem
      · have htop : w = ⊤ := top_le_iff.mp (hleast.2 (Or.inr hw))
        exact ⟨htop ▸ hw, fun u hu => hleast.2 (Or.inr hu)⟩
      · exact ⟨hmem, fun u hu => hleast.2 (Or.inr hu)⟩
  · intro part' scan' hscan' hperm
    obtain ⟨hranges', _⟩ := scanMsg_some hscan'
    rw [hranges, hranges', depositPoints, depositPoints]
    exact (deposits_perm hmono hidem (hperm.filter _) (hfinite _) p.rangesNum).symm

-- 整数への切り捨てで丸め、前後の点群を入れ替える
theorem scan_ranges_least_swapped :
    let p : OutputParams := { publishScan := true, rangesNum := 1440 }
    let r : WithTop ℝ → WithTop ℝ := WithTop.map fun x => (⌊x⌋ : ℝ)
    let ahead : LaserCloud :=
      { height := 1, width := 1, fields := [⟨"x", 0⟩, ⟨"y", 4⟩, ⟨"z", 8⟩], pointStep := 12, rowStep := 12
        data := [0, 0, 128, 63, 0, 0, 0, 0, 0, 0, 0, 0]
        height_eq := rfl, has_x := ⟨⟨"x", 0⟩, by simp⟩, has_y := ⟨⟨"y", 4⟩, by simp⟩
        x_fits := by decide, y_fits := by decide, size_eq := rfl }
    let behind : LaserCloud := { ahead with data := [0, 0, 0, 192, 0, 0, 0, 0, 0, 0, 0, 0], size_eq := rfl }
    let part : Side → Option LaserCloud := fun | .front => some ahead | .rear => some behind
    ∃ scan scan', scanMsg p r part = some scan ∧ scanMsg p r (fun side => part side.other) = some scan' ∧
      scan'.ranges = scan.ranges := by
  intro p r ahead behind part
  have hfloor : Monotone fun x : ℝ => (⌊x⌋ : ℝ) := fun x y h => Int.cast_le.mpr (Int.floor_mono h)
  have hmono : Monotone r := hfloor.withTop_map
  have hidem : ∀ x, r (r x) = r x := by
    intro x
    induction x with
    | top => rfl
    | coe x => simp [r]
  refine ⟨_, _, rfl, rfl, ?_⟩
  have hnum : 1 ≤ p.rangesNum := by norm_num [p]
  exact (scan_ranges_least hmono hidem hnum rfl).2.2.2 _ _ rfl List.perm_append_comm

/-! ## 復元される向き -/

theorem clampedFloor_bounds {n : ℕ} (hn : 0 < n) {u : ℝ} (hu : 0 ≤ u) (hun : u ≤ n) :
    let i := if ⌊u⌋₊ ≥ n then n - 1 else ⌊u⌋₊
    (i : ℝ) ≤ u ∧ u ≤ i + 1 := by
  have hfloor : (⌊u⌋₊ : ℝ) ≤ u := Nat.floor_le hu
  simp only
  split_ifs with h
  · have hcast : ((n - 1 : ℕ) : ℝ) = n - 1 := by rw [Nat.cast_sub hn, Nat.cast_one]
    have hclamp : (n : ℝ) ≤ ⌊u⌋₊ := by exact_mod_cast h
    rw [hcast]
    constructor <;> linarith
  · exact ⟨hfloor, (Nat.lt_floor_add_one u).le⟩

/-- 番号は、円を `n` 等分した目盛りの上で、向きを下から挟む。 -/
theorem sectorIndex_bounds {n : ℕ} (hn : 0 < n) {a : ℝ} (hlow : -Real.pi ≤ a) (hhigh : a ≤ Real.pi) :
    let u := n * (a + Real.pi) / (2.0 * Real.pi)
    (sectorIndex n n a : ℝ) ≤ u ∧ u ≤ sectorIndex n n a + 1 := by
  have hpi := Real.pi_pos
  have htwo : (2.0 : ℝ) = 2 := by norm_num
  have hturn : 0 < 2.0 * Real.pi := htwo ▸ Real.two_pi_pos
  have hangle : a + Real.pi ≤ 2.0 * Real.pi := by
    rw [htwo]
    linarith
  refine clampedFloor_bounds hn (div_nonneg (mul_nonneg n.cast_nonneg (by linarith)) hturn.le) ?_
  exact (div_le_iff₀ hturn).mpr (mul_le_mul_of_nonneg_left hangle n.cast_nonneg)

/-- 円を `n` 等分した目盛りと `n - 1` 等分した目盛りのずれは、一つの区画を超えない。 -/
theorem grid_drift {n i u : ℝ} (hn : 1 < n) (hi0 : 0 ≤ i) (hi : i ≤ n - 1) (hlow : i ≤ u) (hhigh : u ≤ i + 1) :
    |i / (n - 1) - u / n| ≤ 1 / n := by
  have hn0 : 0 < n := by linarith
  have hn1 : 0 < n - 1 := by linarith
  have hdrift : i / (n - 1) - u / n = (n * i - (n - 1) * u) / ((n - 1) * n) := by
    field_simp
  have hone : 1 / n = (n - 1) / ((n - 1) * n) := by
    field_simp
  have hmax : (n - 1) * i ≤ (n - 1) * u := mul_le_mul_of_nonneg_left hlow hn1.le
  have hmin : (n - 1) * u ≤ (n - 1) * (i + 1) := mul_le_mul_of_nonneg_left hhigh hn1.le
  rw [hdrift, hone, abs_div, abs_of_pos (mul_pos hn1 hn0)]
  refine div_le_div_of_nonneg_right (abs_le.mpr ⟨?_, ?_⟩) (mul_pos hn1 hn0).le <;> linarith

/-- 点の番号は `ranges` の中にあり、受け手が見出しから復元する向きは、見出しの範囲にあって、点の向きとのずれが一つの区画を
超えない。 -/
theorem direction_reconstructed (hnum : 2 ≤ p.rangesNum) {part : Side → Option LaserCloud} {scan : LaserScan}
    (hscan : scanMsg p r part = some scan) {a : ℝ} (hlow : -Real.pi ≤ a) (hhigh : a ≤ Real.pi) :
    let i := sectorIndex p.rangesNum scan.ranges.length a
    let direction := scan.angleMin + i * scan.angleIncrement
    i < p.rangesNum ∧ scan.angleMin ≤ direction ∧ direction ≤ scan.angleMax ∧
      |direction - a| ≤ 2 * Real.pi / p.rangesNum := by
  obtain ⟨hranges, hmin, hmax, hinc⟩ := scanMsg_some hscan
  have hlen : scan.ranges.length = p.rangesNum := by
    rw [hranges, length_depositPoints, List.length_replicate]
  rw [hlen, hmin, hmax, hinc]
  intro i direction
  have hpi := Real.pi_pos
  have htwo : (2.0 : ℝ) = 2 := by norm_num
  have hi : i < p.rangesNum := sectorIndex_lt (by omega) a
  have hn : (1 : ℝ) < p.rangesNum := by exact_mod_cast hnum
  have hn1 : (0 : ℝ) < p.rangesNum - 1 := by linarith
  have hi0 : (0 : ℝ) ≤ i := i.cast_nonneg
  have hi1 : (i : ℝ) ≤ p.rangesNum - 1 := by
    have hsucc : (i : ℝ) + 1 ≤ p.rangesNum := by exact_mod_cast hi
    linarith
  have hdir : direction = -Real.pi + 2 * Real.pi * (i / (p.rangesNum - 1)) := by
    simp only [direction, htwo]
    ring
  have hfrac0 : 0 ≤ (i : ℝ) / (p.rangesNum - 1) := div_nonneg hi0 hn1.le
  have hfrac1 : (i : ℝ) / (p.rangesNum - 1) ≤ 1 := (div_le_one hn1).mpr hi1
  refine ⟨hi, ?_, ?_, ?_⟩
  · rw [hdir]
    exact le_add_of_nonneg_right (mul_nonneg Real.two_pi_pos.le hfrac0)
  · have hturn : 2 * Real.pi * (i / (p.rangesNum - 1)) ≤ 2 * Real.pi :=
      mul_le_of_le_one_right Real.two_pi_pos.le hfrac1
    rw [hdir]
    linarith
  · obtain ⟨hui, hiu⟩ := sectorIndex_bounds (show 0 < p.rangesNum by omega) hlow hhigh
    have hn0 : (p.rangesNum : ℝ) ≠ 0 := by linarith
    have hdiff : direction - a = 2 * Real.pi *
        (i / (p.rangesNum - 1) - p.rangesNum * (a + Real.pi) / (2.0 * Real.pi) / p.rangesNum) := by
      rw [hdir, htwo]
      field_simp
      ring
    have hdrift := grid_drift hn hi0 hi1 hui hiu
    rw [hdiff, abs_mul, abs_of_pos (by linarith : 0 < 2 * Real.pi), div_eq_mul_one_div (2 * Real.pi)]
    exact mul_le_mul_of_nonneg_left hdrift (by linarith)

-- 真後ろの向き
theorem direction_reconstructed_behind :
    let p : OutputParams := { publishScan := true, rangesNum := 1440 }
    ∃ scan, scanMsg p id (fun _ => none) = some scan ∧
      |scan.angleMin + sectorIndex 1440 scan.ranges.length Real.pi * scan.angleIncrement - Real.pi| ≤
        2 * Real.pi / (1440 : ℕ) := by
  intro p
  have hnum : 2 ≤ p.rangesNum := by norm_num [p]
  have hpi := Real.pi_pos
  exact ⟨_, rfl, (direction_reconstructed hnum rfl (by linarith) le_rfl).2.2.2⟩

end

end Ranger.Scan
