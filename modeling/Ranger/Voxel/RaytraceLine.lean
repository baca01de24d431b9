import Ranger.Grid.Raytrace
import Ranger.Voxel.VoxelGrid

/-!
# 立体の線分に沿った走査

`VoxelGrid::raytraceLine` と `bresenham3D`。柱の番号と高さのビットを一つずつ動かし、`at` の受ける組の列を返す。座標は正確な算術の値で、
格子の座標であり、負でない。
-/

namespace Ranger.Voxel
open Ranger.Lib Ranger.Grid

/-- `at` の受ける、柱の番号と高さのビット。 -/
structure Cursor where
  offset : ℕ
  zMask : BitVec 32

def gridOffset (offsetVal : ℤ) (c : Cursor) : Cursor := { c with offset := asUnsigned (c.offset + offsetVal) }

def zOffset (offsetVal : ℤ) (c : Cursor) : Cursor :=
  { c with zMask := if 0 < offsetVal then c.zMask <<< 1 else c.zMask >>> 1 }

/-- `offA`、`offB`、`offC` は、軸ごとの動かし方にその幅を与えたものである。 -/
def bresenham3D (offA offB offC : Cursor → Cursor) (absDa absDb absDc : ℕ) : ℕ → ℕ → Cursor → ℕ → List Cursor
  | _, _, c, 0 => [c]
  | errorB, errorC, c, length + 1 =>
      let c₁ := offA c
      let c₂ := if absDa ≤ errorB + absDb then offB c₁ else c₁
      let c₃ := if absDa ≤ errorC + absDc then offC c₂ else c₂
      c :: bresenham3D offA offB offC absDa absDb absDc
        (if absDa ≤ errorB + absDb then errorB + absDb - absDa else errorB + absDb)
        (if absDa ≤ errorC + absDc then errorC + absDc - absDa else errorC + absDc) c₃ length

/-- 初めの升目を決めた後の部分。`limit` は、軸の長さを縮めた長さである。 -/
def traceFrom3D (sizeX : ℕ) (start stop : Location) (limit : ℕ → ℕ) : List Cursor :=
  let dx : ℤ := stop.x - start.x
  let dy : ℤ := stop.y - start.y
  let dz : ℤ := stop.z - start.z
  let offX := gridOffset (sign dx)
  let offY := gridOffset (sign dy * sizeX)
  let offZ := zOffset (sign dz)
  let c : Cursor := ⟨wrap (start.y * sizeX + start.x), ((1 : BitVec 32) <<< 16 ||| 1) <<< start.z⟩
  if max dy.natAbs dz.natAbs ≤ dx.natAbs then
    bresenham3D offX offY offZ dx.natAbs dy.natAbs dz.natAbs (dx.natAbs / 2) (dx.natAbs / 2) c
      (min (limit dx.natAbs) dx.natAbs)
  else if dz.natAbs ≤ dy.natAbs then
    bresenham3D offY offX offZ dy.natAbs dx.natAbs dz.natAbs (dy.natAbs / 2) (dy.natAbs / 2) c
      (min (limit dy.natAbs) dy.natAbs)
  else
    bresenham3D offZ offX offY dz.natAbs dx.natAbs dy.natAbs (dz.natAbs / 2) (dz.natAbs / 2) c
      (min (limit dz.natAbs) dz.natAbs)

/-- 格子の座標。 -/
structure Point where
  x : ℝ
  y : ℝ
  z : ℝ
  nonneg : 0 ≤ x ∧ 0 ≤ y ∧ 0 ≤ z

namespace Point

variable (p q : Point)

noncomputable def dist : ℝ :=
  Real.sqrt ((p.x - q.x) * (p.x - q.x) + (p.y - q.y) * (p.y - q.y) + (p.z - q.z) * (p.z - q.z))

noncomputable def scale (maxLength : ℕ) : ℝ := if 0 < p.dist q then min 1 (maxLength / p.dist q) else 1

/-- 一つの軸の、走査を始める座標。 -/
noncomputable def minStart (minLength : ℕ) (v w : ℝ) : ℝ :=
  if 0 < p.dist q then v + (w - v) / p.dist q * minLength else v

noncomputable def start (minLength : ℕ) : Location where
  x := ⌊p.minStart q minLength p.x q.x⌋₊
  y := ⌊p.minStart q minLength p.y q.y⌋₊
  z := ⌊p.minStart q minLength p.z q.z⌋₊

noncomputable def cell : Location where
  x := ⌊p.x⌋₊
  y := ⌊p.y⌋₊
  z := ⌊p.z⌋₊

end Point

noncomputable def raytraceLine3D (sizeX : ℕ) (p q : Point) (maxLength minLength : ℕ) : List Cursor :=
  if ⌊p.dist q⌋₊ < minLength then []
  else traceFrom3D sizeX (p.start q minLength) q.cell fun d => ⌊p.scale q maxLength * d⌋₊

namespace VoxelGrid

/-- 点が、格子の大きさを超えている。 -/
def Beyond (g : VoxelGrid) (p : Point) : Prop := g.sizeX ≤ p.x ∨ g.sizeY ≤ p.y ∨ g.sizeZ ≤ p.z

noncomputable instance (g : VoxelGrid) (p : Point) : Decidable (g.Beyond p) := inferInstanceAs (Decidable (_ ∨ _))

noncomputable def markVoxelLine (g : VoxelGrid) (p q : Point) (maxLength : ℕ) : VoxelGrid :=
  if g.Beyond p ∨ g.Beyond q then g
  else (raytraceLine3D g.sizeX p q maxLength 0).foldl (fun g c => g.mark c.offset c.zMask) g

noncomputable def clearVoxelLine (g : VoxelGrid) (p q : Point) (maxLength minLength : ℕ) : VoxelGrid :=
  if g.Beyond p ∨ g.Beyond q then g
  else (raytraceLine3D g.sizeX p q maxLength minLength).foldl (fun g c => g.clear c.offset c.zMask) g

end VoxelGrid

/-! ## 升目の列 -/

/-- 一つの軸を、`a` から `b` に向けて `t` だけ進んだ位置。 -/
def along (a b t : ℕ) : ℕ := ((a : ℤ) + sign ((b : ℤ) - a) * t).toNat

/-- 三つの軸を `i`、`j`、`k` だけ進んだ升目。 -/
def travel (start stop : Location) (i j k : ℕ) : Location where
  x := along start.x stop.x i
  y := along start.y stop.y j
  z := along start.z stop.z k

/-- 最も長い軸を `k` 進んだときの升目。他の軸は、誤差が溜まるたびに進む。 -/
def voxelAt (start stop : Location) (k : ℕ) : Location :=
  let dx := ((stop.x : ℤ) - start.x).natAbs
  let dy := ((stop.y : ℤ) - start.y).natAbs
  let dz := ((stop.z : ℤ) - start.z).natAbs
  if max dy dz ≤ dx then travel start stop k (minorSteps dx dy k) (minorSteps dx dz k)
  else if dz ≤ dy then travel start stop (minorSteps dy dx k) k (minorSteps dy dz k)
  else travel start stop (minorSteps dz dx k) (minorSteps dz dy k) k

def reach (start stop : Location) : ℕ :=
  max (max ((stop.y : ℤ) - start.y).natAbs ((stop.z : ℤ) - start.z).natAbs) ((stop.x : ℤ) - start.x).natAbs

def voxelsFrom (start stop : Location) (limit : ℕ → ℕ) : List Location :=
  (List.range (min (limit (reach start stop)) (reach start stop) + 1)).map (voxelAt start stop)

/-- 線分の走査がたどる升目。 -/
noncomputable def lineVoxels (p q : Point) (maxLength minLength : ℕ) : List Location :=
  if ⌊p.dist q⌋₊ < minLength then []
  else voxelsFrom (p.start q minLength) q.cell fun d => ⌊p.scale q maxLength * d⌋₊

/-- 升目の番号とビット。 -/
def cursor (sizeX : ℕ) (v : Location) : Cursor := ⟨v.y * sizeX + v.x, fullMask v.z⟩

/-! ## 軸ごとの動き -/

section Moves

variable {start stop : Location} {sizeX sizeY i j k : ℕ}

theorem along_cast {a b t : ℕ} (ht : t ≤ ((b : ℤ) - a).natAbs) : (along a b t : ℤ) = a + sign ((b : ℤ) - a) * t := by
  have hbetween := axis_between ht
  rw [along, Int.toNat_of_nonneg (by omega)]

/-- 両端が同じ箱の中にあれば、途中の位置も箱の中にある。 -/
theorem along_lt {a b t size : ℕ} (h : a < size ∧ b < size) (ht : t ≤ ((b : ℤ) - a).natAbs) : along a b t < size := by
  have hbetween := axis_between ht
  have hcast := along_cast ht
  omega

theorem along_succ {a b t : ℕ} (ht : t < ((b : ℤ) - a).natAbs) :
    (along a b (t + 1) : ℤ) = along a b t + sign ((b : ℤ) - a) := by
  rw [along_cast (Nat.succ_le_of_lt ht), along_cast (Nat.le_of_lt ht)]
  push_cast
  ring

theorem gridOffset_x (harea : sizeX * sizeY < 4294967296) (hx : start.x < sizeX ∧ stop.x < sizeX)
    (hy : start.y < sizeY ∧ stop.y < sizeY) (hi : i < ((stop.x : ℤ) - start.x).natAbs)
    (hj : j ≤ ((stop.y : ℤ) - start.y).natAbs) :
    gridOffset (sign ((stop.x : ℤ) - start.x)) (cursor sizeX (travel start stop i j k)) =
      cursor sizeX (travel start stop (i + 1) j k) := by
  have hstep := along_succ hi
  have hlt := index_lt (along_lt hx (Nat.succ_le_of_lt hi)) (along_lt hy hj)
  simp only [cursor, gridOffset, travel]
  congr 1
  rw [← asUnsigned_natCast (Nat.lt_trans hlt harea)]
  congr 1
  push_cast [hstep]
  ring

theorem gridOffset_y (harea : sizeX * sizeY < 4294967296) (hx : start.x < sizeX ∧ stop.x < sizeX)
    (hy : start.y < sizeY ∧ stop.y < sizeY) (hi : i ≤ ((stop.x : ℤ) - start.x).natAbs)
    (hj : j < ((stop.y : ℤ) - start.y).natAbs) :
    gridOffset (sign ((stop.y : ℤ) - start.y) * sizeX) (cursor sizeX (travel start stop i j k)) =
      cursor sizeX (travel start stop i (j + 1) k) := by
  have hstep := along_succ hj
  have hlt := index_lt (along_lt hx hi) (along_lt hy (Nat.succ_le_of_lt hj))
  simp only [cursor, gridOffset, travel]
  congr 1
  rw [← asUnsigned_natCast (Nat.lt_trans hlt harea)]
  congr 1
  push_cast [hstep]
  ring

theorem fullMask_shiftLeft {z : ℕ} (hz : z + 1 < 16) : fullMask z <<< 1 = fullMask (z + 1) := by
  apply BitVec.eq_of_getLsbD_eq
  intro i hi
  rw [BitVec.getLsbD_shiftLeft, getLsbD_fullMask (by omega), getLsbD_fullMask hz, Bool.eq_iff_iff]
  simp [hi]
  omega

theorem fullMask_ushiftRight {z : ℕ} (hz : z + 1 < 16) : fullMask (z + 1) >>> 1 = fullMask z := by
  apply BitVec.eq_of_getLsbD_eq
  intro i hi
  rw [BitVec.getLsbD_ushiftRight, getLsbD_fullMask hz, getLsbD_fullMask (Nat.lt_of_succ_lt hz), Bool.eq_iff_iff]
  simp
  omega

theorem zOffset_z (hz : start.z < 16 ∧ stop.z < 16) (hk : k < ((stop.z : ℤ) - start.z).natAbs) :
    zOffset (sign ((stop.z : ℤ) - start.z)) (cursor sizeX (travel start stop i j k)) =
      cursor sizeX (travel start stop i j (k + 1)) := by
  have hnow := along_lt hz (Nat.le_of_lt hk)
  have hnext : along start.z stop.z (k + 1) < 16 := along_lt hz (Nat.succ_le_of_lt hk)
  have hstep := along_succ hk
  simp only [cursor, zOffset, travel]
  congr 1
  unfold sign at hstep ⊢
  split_ifs at hstep ⊢ with hup hpos
  · have hz : along start.z stop.z (k + 1) = along start.z stop.z k + 1 := by omega
    rw [hz, fullMask_shiftLeft (by omega)]
  · omega
  · omega
  · have hz : along start.z stop.z k = along start.z stop.z (k + 1) + 1 := by omega
    rw [hz, fullMask_ushiftRight (by omega)]

end Moves

/-! ## 走査の升目 -/

/-- 短い方の軸の一歩。 -/
theorem minor_step {off : Cursor → Cursor} {absDa absDb a : ℕ} {f : ℕ → Cursor}
    (hoff : ∀ b < absDb, off (f b) = f (b + 1)) (hb : absDb ≤ absDa) (ha : a < absDa) :
    (if absDa ≤ minorError absDa absDb a + absDb then off (f (minorSteps absDa absDb a))
        else f (minorSteps absDa absDb a)) = f (minorSteps absDa absDb (a + 1)) ∧
      (if absDa ≤ minorError absDa absDb a + absDb then minorError absDa absDb a + absDb - absDa
        else minorError absDa absDb a + absDb) = minorError absDa absDb (a + 1) := by
  have hle : minorSteps absDa absDb (a + 1) ≤ absDb := minorSteps_le ha
  split_ifs with h
  · obtain ⟨hsteps, herror⟩ := minorSteps_advance (by omega) hb h
    rw [hsteps] at hle
    rw [hsteps, herror]
    exact ⟨hoff _ (by omega), rfl⟩
  · obtain ⟨hsteps, herror⟩ := minorSteps_stay h
    rw [hsteps, herror]
    exact ⟨rfl, rfl⟩

/-- 走査の `k` 番目の組は、三つの軸を進んだ数 `f` で決まる。 -/
theorem bresenham3D_eq {offA offB offC : Cursor → Cursor} {absDa absDb absDc : ℕ} {f : ℕ → ℕ → ℕ → Cursor}
    (hA : ∀ a b c, a < absDa → b ≤ absDb → c ≤ absDc → offA (f a b c) = f (a + 1) b c)
    (hB : ∀ a b c, a ≤ absDa → b < absDb → c ≤ absDc → offB (f a b c) = f a (b + 1) c)
    (hC : ∀ a b c, a ≤ absDa → b ≤ absDb → c < absDc → offC (f a b c) = f a b (c + 1))
    (hb : absDb ≤ absDa) (hc : absDc ≤ absDa) {a length : ℕ} (hlength : a + length ≤ absDa) :
    bresenham3D offA offB offC absDa absDb absDc (minorError absDa absDb a) (minorError absDa absDc a)
        (f a (minorSteps absDa absDb a) (minorSteps absDa absDc a)) length =
      (List.range' a (length + 1)).map fun k => f k (minorSteps absDa absDb k) (minorSteps absDa absDc k) := by
  induction length generalizing a with
  | zero => rfl
  | succ length ih =>
      have hlt : a < absDa := by omega
      have hleB : minorSteps absDa absDb (a + 1) ≤ absDb := minorSteps_le hlt
      have hleC : minorSteps absDa absDc a ≤ absDc := minorSteps_le hlt.le
      have hstepA := hA a _ _ hlt (minorSteps_le hlt.le) hleC
      obtain ⟨hstepB, herrorB⟩ := minor_step (f := fun b => f (a + 1) b (minorSteps absDa absDc a))
        (fun b hb => hB (a + 1) b _ hlt hb hleC) hb hlt
      obtain ⟨hstepC, herrorC⟩ := minor_step (f := fun c => f (a + 1) (minorSteps absDa absDb (a + 1)) c)
        (fun c hc => hC (a + 1) _ c hlt hleB hc) hc hlt
      rw [List.range'_succ, List.map_cons, bresenham3D, hstepA, hstepB, herrorB, hstepC, herrorC, ih (by omega)]

theorem bresenham3D_start {offA offB offC : Cursor → Cursor} {absDa absDb absDc : ℕ} {f : ℕ → ℕ → ℕ → Cursor}
    (hA : ∀ a b c, a < absDa → b ≤ absDb → c ≤ absDc → offA (f a b c) = f (a + 1) b c)
    (hB : ∀ a b c, a ≤ absDa → b < absDb → c ≤ absDc → offB (f a b c) = f a (b + 1) c)
    (hC : ∀ a b c, a ≤ absDa → b ≤ absDb → c < absDc → offC (f a b c) = f a b (c + 1))
    (hb : absDb ≤ absDa) (hc : absDc ≤ absDa) (limit : ℕ) :
    bresenham3D offA offB offC absDa absDb absDc (absDa / 2) (absDa / 2) (f 0 0 0) (min limit absDa) =
      (List.range (min limit absDa + 1)).map fun k => f k (minorSteps absDa absDb k) (minorSteps absDa absDc k) := by
  have hlength : 0 + min limit absDa ≤ absDa := by omega
  have h := bresenham3D_eq hA hB hC hb hc hlength
  rwa [minorError_zero, minorError_zero, minorSteps_zero, minorSteps_zero, ← List.range_eq_range'] at h

/-- 両端が格子の中にある走査は、升目の列をたどる。 -/
theorem traceFrom3D_eq {start stop : Location} {sizeX sizeY : ℕ} (limit : ℕ → ℕ) (harea : sizeX * sizeY < 4294967296)
    (hx : start.x < sizeX ∧ stop.x < sizeX) (hy : start.y < sizeY ∧ stop.y < sizeY) (hz : start.z < 16 ∧ stop.z < 16) :
    traceFrom3D sizeX start stop limit = (voxelsFrom start stop limit).map (cursor sizeX) := by
  have hfirst : (⟨wrap (start.y * sizeX + start.x), ((1 : BitVec 32) <<< 16 ||| 1) <<< start.z⟩ : Cursor) =
      cursor sizeX (travel start stop 0 0 0) := by
    have hlt := index_lt hx.1 hy.1
    have hmask : ((1 : BitVec 32) <<< 16 ||| 1) <<< start.z = fullMask start.z := by
      rw [fullMask, BitVec.shiftLeft_or_distrib, ← BitVec.shiftLeft_add, ← BitVec.shiftLeft_add, Nat.add_comm]
    rw [hmask, wrap_of_lt (by omega)]
    simp [cursor, travel, along]
  simp only [traceFrom3D, hfirst, voxelsFrom, List.map_map, reach]
  generalize hdx : ((stop.x : ℤ) - start.x).natAbs = dx
  generalize hdy : ((stop.y : ℤ) - start.y).natAbs = dy
  generalize hdz : ((stop.z : ℤ) - start.z).natAbs = dz
  have hmoveX (i j k : ℕ) (hi : i < dx) (hj : j ≤ dy) :
      gridOffset (sign ((stop.x : ℤ) - start.x)) (cursor sizeX (travel start stop i j k)) =
        cursor sizeX (travel start stop (i + 1) j k) := gridOffset_x harea hx hy (hdx ▸ hi) (hdy ▸ hj)
  have hmoveY (i j k : ℕ) (hi : i ≤ dx) (hj : j < dy) :
      gridOffset (sign ((stop.y : ℤ) - start.y) * sizeX) (cursor sizeX (travel start stop i j k)) =
        cursor sizeX (travel start stop i (j + 1) k) := gridOffset_y harea hx hy (hdx ▸ hi) (hdy ▸ hj)
  have hmoveZ (i j k : ℕ) (hk : k < dz) :
      zOffset (sign ((stop.z : ℤ) - start.z)) (cursor sizeX (travel start stop i j k)) =
        cursor sizeX (travel start stop i j (k + 1)) := zOffset_z hz (hdz ▸ hk)
  by_cases hxmax : max dy dz ≤ dx
  · have hreach : max (max dy dz) dx = dx := by omega
    rw [if_pos hxmax, hreach]
    rw [bresenham3D_start (f := fun a b c => cursor sizeX (travel start stop a b c))
      (fun a b c ha hb _ => hmoveX a b c ha hb) (fun a b c ha hb _ => hmoveY a b c ha hb)
      (fun a b c _ _ hc => hmoveZ a b c hc) (by omega) (by omega)]
    apply List.map_congr_left
    intro k _
    simp only [Function.comp_apply, voxelAt, hdx, hdy, hdz, if_pos hxmax]
  · rw [if_neg hxmax]
    by_cases hymax : dz ≤ dy
    · have hreach : max (max dy dz) dx = dy := by omega
      rw [if_pos hymax, hreach]
      rw [bresenham3D_start (f := fun a b c => cursor sizeX (travel start stop b a c))
        (fun a b c ha hb _ => hmoveY b a c hb ha) (fun a b c ha hb _ => hmoveX b a c hb ha)
        (fun a b c _ _ hc => hmoveZ b a c hc) (by omega) (by omega)]
      apply List.map_congr_left
      intro k _
      simp only [Function.comp_apply, voxelAt, hdx, hdy, hdz, if_neg hxmax, if_pos hymax]
    · have hreach : max (max dy dz) dx = dz := by omega
      rw [if_neg hymax, hreach]
      rw [bresenham3D_start (f := fun a b c => cursor sizeX (travel start stop b c a))
        (fun a b c ha _ _ => hmoveZ b c a ha) (fun a b c _ hb hc => hmoveX b c a hb hc)
        (fun a b c _ hb hc => hmoveY b c a hb hc) (by omega) (by omega)]
      apply List.map_congr_left
      intro k _
      simp only [Function.comp_apply, voxelAt, hdx, hdy, hdz, if_neg hxmax, if_neg hymax]

/-- 升目の列は、両端の箱の中にある。 -/
theorem voxelsFrom_between {start stop : Location} {limit : ℕ → ℕ} {sizeX sizeY sizeZ : ℕ}
    (hx : start.x < sizeX ∧ stop.x < sizeX) (hy : start.y < sizeY ∧ stop.y < sizeY)
    (hz : start.z < sizeZ ∧ stop.z < sizeZ) {v : Location} (hv : v ∈ voxelsFrom start stop limit) :
    v.x < sizeX ∧ v.y < sizeY ∧ v.z < sizeZ := by
  obtain ⟨k, hk, rfl⟩ := List.mem_map.mp hv
  have hlt := List.mem_range.mp hk
  rw [reach] at hlt
  have hinside (i j l : ℕ) (hi : i ≤ ((stop.x : ℤ) - start.x).natAbs) (hj : j ≤ ((stop.y : ℤ) - start.y).natAbs)
      (hl : l ≤ ((stop.z : ℤ) - start.z).natAbs) : (travel start stop i j l).x < sizeX ∧
        (travel start stop i j l).y < sizeY ∧ (travel start stop i j l).z < sizeZ :=
    ⟨along_lt hx hi, along_lt hy hj, along_lt hz hl⟩
  simp only [voxelAt]
  split_ifs
  · exact hinside _ _ _ (by omega) (minorSteps_le (by omega)) (minorSteps_le (by omega))
  · exact hinside _ _ _ (minorSteps_le (by omega)) (by omega) (minorSteps_le (by omega))
  · exact hinside _ _ _ (minorSteps_le (by omega)) (minorSteps_le (by omega)) (by omega)

/-! ## 線分 -/

section Line

variable {p q : Point} {sizeX sizeY sizeZ maxLength minLength : ℕ}

theorem minStart_between (h : ¬ ⌊p.dist q⌋₊ < minLength) (v w : ℝ) :
    min v w ≤ p.minStart q minLength v w ∧ p.minStart q minLength v w ≤ max v w := by
  have hlength : (minLength : ℝ) ≤ p.dist q :=
    (Nat.le_floor_iff (Real.sqrt_nonneg _)).mp (not_lt.mp h)
  rw [Point.minStart]
  split_ifs with hpos
  · have ht0 : 0 ≤ (minLength : ℝ) / p.dist q := div_nonneg (Nat.cast_nonneg _) hpos.le
    have ht1 : (minLength : ℝ) / p.dist q ≤ 1 := (div_le_one hpos).mpr hlength
    have hmul : (w - v) / p.dist q * minLength = (w - v) * (minLength / p.dist q) := by ring
    rw [hmul]
    rcases le_total v w with hvw | hvw
    · rw [min_eq_left hvw, max_eq_right hvw]
      constructor
      · nlinarith
      · nlinarith
    · rw [min_eq_right hvw, max_eq_left hvw]
      constructor
      · nlinarith
      · nlinarith
  · exact ⟨min_le_left _ _, le_max_left _ _⟩

theorem floor_minStart_lt (h : ¬ ⌊p.dist q⌋₊ < minLength) {v w : ℝ} {size : ℕ} (hv : 0 ≤ v ∧ v < size)
    (hw : 0 ≤ w ∧ w < size) : ⌊p.minStart q minLength v w⌋₊ < size ∧ ⌊w⌋₊ < size := by
  obtain ⟨hlow, hhigh⟩ := minStart_between h v w
  have hnonneg : 0 ≤ p.minStart q minLength v w := (le_min hv.1 hw.1).trans hlow
  exact ⟨(Nat.floor_lt hnonneg).mpr (hhigh.trans_lt (max_lt hv.2 hw.2)), (Nat.floor_lt hw.1).mpr hw.2⟩

theorem ends_inside (h : ¬ ⌊p.dist q⌋₊ < minLength) (hp : ¬ (sizeX ≤ p.x ∨ sizeY ≤ p.y ∨ sizeZ ≤ p.z))
    (hq : ¬ (sizeX ≤ q.x ∨ sizeY ≤ q.y ∨ sizeZ ≤ q.z)) :
    ((p.start q minLength).x < sizeX ∧ q.cell.x < sizeX) ∧ ((p.start q minLength).y < sizeY ∧ q.cell.y < sizeY) ∧
      ((p.start q minLength).z < sizeZ ∧ q.cell.z < sizeZ) := by
  rw [not_or, not_or, not_le, not_le, not_le] at hp hq
  exact ⟨floor_minStart_lt h ⟨p.nonneg.1, hp.1⟩ ⟨q.nonneg.1, hq.1⟩,
    floor_minStart_lt h ⟨p.nonneg.2.1, hp.2.1⟩ ⟨q.nonneg.2.1, hq.2.1⟩,
    floor_minStart_lt h ⟨p.nonneg.2.2, hp.2.2⟩ ⟨q.nonneg.2.2, hq.2.2⟩⟩

theorem lineVoxels_inside (hp : ¬ (sizeX ≤ p.x ∨ sizeY ≤ p.y ∨ sizeZ ≤ p.z))
    (hq : ¬ (sizeX ≤ q.x ∨ sizeY ≤ q.y ∨ sizeZ ≤ q.z)) {v : Location} (hv : v ∈ lineVoxels p q maxLength minLength) :
    v.x < sizeX ∧ v.y < sizeY ∧ v.z < sizeZ := by
  rw [lineVoxels] at hv
  split_ifs at hv with hshort
  · exact absurd hv List.not_mem_nil
  · obtain ⟨hx, hy, hz⟩ := ends_inside hshort hp hq
    exact voxelsFrom_between hx hy hz hv

/-- 格子の中の線分の走査は、升目の列の番号とビットを渡す。 -/
theorem raytraceLine3D_eq {g : VoxelGrid} (hg : g.Valid) (hp : ¬ g.Beyond p) (hq : ¬ g.Beyond q)
    (maxLength minLength : ℕ) :
    raytraceLine3D g.sizeX p q maxLength minLength = (lineVoxels p q maxLength minLength).map (cursor g.sizeX) := by
  have harea := hg.area
  have hheight := hg.sizeZ
  rw [raytraceLine3D, lineVoxels]
  split_ifs with hshort
  · rfl
  · obtain ⟨hx, hy, hz⟩ := ends_inside hshort hp hq
    exact traceFrom3D_eq _ (by omega) hx hy (by omega)

/-- 隣り合う升目。どの軸でも、高々一つ離れている。 -/
def Near (u v : Location) : Prop :=
  ((v.x : ℤ) - u.x).natAbs ≤ 1 ∧ ((v.y : ℤ) - u.y).natAbs ≤ 1 ∧ ((v.z : ℤ) - u.z).natAbs ≤ 1

theorem along_near {a b t t' : ℕ} (ht : t' ≤ ((b : ℤ) - a).natAbs) (hle : t ≤ t') (hstep : t' ≤ t + 1) :
    ((along a b t' : ℤ) - along a b t).natAbs ≤ 1 := by
  rw [along_cast ht, along_cast (hle.trans ht)]
  have hcases : t' = t ∨ t' = t + 1 := by omega
  rcases hcases with rfl | rfl
  · simp
  · unfold sign
    split_ifs
    · push_cast
      omega
    · push_cast
      omega

theorem voxelAt_near {start stop : Location} {k : ℕ} (hk : k + 1 ≤ reach start stop) :
    Near (voxelAt start stop k) (voxelAt start stop (k + 1)) := by
  rw [reach] at hk
  simp only [voxelAt]
  have hnear (i j l i' j' l' : ℕ) (hi : i ≤ i' ∧ i' ≤ i + 1 ∧ i' ≤ ((stop.x : ℤ) - start.x).natAbs)
      (hj : j ≤ j' ∧ j' ≤ j + 1 ∧ j' ≤ ((stop.y : ℤ) - start.y).natAbs)
      (hl : l ≤ l' ∧ l' ≤ l + 1 ∧ l' ≤ ((stop.z : ℤ) - start.z).natAbs) :
      Near (travel start stop i j l) (travel start stop i' j' l') :=
    ⟨along_near hi.2.2 hi.1 hi.2.1, along_near hj.2.2 hj.1 hj.2.1, along_near hl.2.2 hl.1 hl.2.1⟩
  have hmajor {a : ℕ} (ha : k + 1 ≤ a) : k ≤ k + 1 ∧ k + 1 ≤ k + 1 ∧ k + 1 ≤ a := ⟨Nat.le_succ k, le_refl _, ha⟩
  have hminor {a b : ℕ} (hb : b ≤ a) (ha : k + 1 ≤ a) : minorSteps a b k ≤ minorSteps a b (k + 1) ∧
      minorSteps a b (k + 1) ≤ minorSteps a b k + 1 ∧ minorSteps a b (k + 1) ≤ b :=
    ⟨minorSteps_mono (Nat.le_succ k), minorSteps_succ_le hb, minorSteps_le ha⟩
  split_ifs
  · exact hnear _ _ _ _ _ _ (hmajor (by omega)) (hminor (by omega) (by omega)) (hminor (by omega) (by omega))
  · exact hnear _ _ _ _ _ _ (hminor (by omega) (by omega)) (hmajor (by omega)) (hminor (by omega) (by omega))
  · exact hnear _ _ _ _ _ _ (hminor (by omega) (by omega)) (hminor (by omega) (by omega)) (hmajor (by omega))

theorem voxelAt_zero (start stop : Location) : voxelAt start stop 0 = start := by
  simp [voxelAt, travel, along]

theorem along_end (a b : ℕ) : along a b ((b : ℤ) - a).natAbs = b := by
  rw [along, axis_end, Int.toNat_natCast]

theorem voxelAt_reach (start stop : Location) : voxelAt start stop (reach start stop) = stop := by
  have hfull {a b : ℕ} (hb : b ≤ a) : minorSteps a b a = b := by
    rcases Nat.eq_zero_or_pos a with rfl | ha
    · obtain rfl : b = 0 := by omega
      rfl
    · exact minorSteps_full ha
  simp only [voxelAt, reach]
  split_ifs with hx hy
  · rw [max_eq_right hx, hfull (by omega), hfull (by omega)]
    simp only [travel, along_end]
  · have hmax : max (max ((stop.y : ℤ) - start.y).natAbs ((stop.z : ℤ) - start.z).natAbs)
        ((stop.x : ℤ) - start.x).natAbs = ((stop.y : ℤ) - start.y).natAbs := by omega
    rw [hmax, hfull (by omega), hfull (by omega)]
    simp only [travel, along_end]
  · have hmax : max (max ((stop.y : ℤ) - start.y).natAbs ((stop.z : ℤ) - start.z).natAbs)
        ((stop.x : ℤ) - start.x).natAbs = ((stop.z : ℤ) - start.z).natAbs := by omega
    rw [hmax, hfull (by omega), hfull (by omega)]
    simp only [travel, along_end]

theorem scale_eq_one (h : p.dist q ≤ maxLength) : p.scale q maxLength = 1 := by
  rw [Point.scale]
  split_ifs with hpos
  · exact min_eq_left ((one_le_div hpos).mpr h)
  · rfl

/-- 走査は、始めの升目から隣の升目へと続き、格子から出ない。長さが `maxLength` に収まれば、終わりの升目に着く。 -/
theorem raytraceLine3D_path {g : VoxelGrid} (hg : g.Valid) (hp : ¬ g.Beyond p) (hq : ¬ g.Beyond q)
    (hshort : ¬ ⌊p.dist q⌋₊ < minLength) (maxLength : ℕ) :
    ∃ vs : List Location, raytraceLine3D g.sizeX p q maxLength minLength = vs.map (cursor g.sizeX) ∧
      vs.head? = some (p.start q minLength) ∧ vs.IsChain Near ∧ (∀ v ∈ vs, g.Contains v) ∧
      (p.dist q ≤ maxLength → vs.getLast? = some q.cell) := by
  refine ⟨lineVoxels p q maxLength minLength, raytraceLine3D_eq hg hp hq maxLength minLength, ?_, ?_,
    fun v hv => lineVoxels_inside hp hq hv, fun hlong => ?_⟩
  · rw [lineVoxels, if_neg hshort, voxelsFrom, List.range_succ_eq_map, List.map_cons, voxelAt_zero]
    rfl
  · rw [lineVoxels, if_neg hshort, voxelsFrom, List.isChain_map, List.isChain_range_succ]
    intro k hk
    exact voxelAt_near (by omega)
  · rw [lineVoxels, if_neg hshort, voxelsFrom, scale_eq_one hlong, List.range_succ, List.map_append, List.map_singleton,
      List.getLast?_concat]
    simp [voxelAt_reach]

end Line

-- 空の格子の、低い角から始まる走査。
theorem raytraceLine3D_path_corner :
    ∃ vs : List Location, raytraceLine3D 8 ⟨0, 0, 0, by norm_num⟩ ⟨7, 3, 2, by norm_num⟩ 100 0 = vs.map (cursor 8) ∧
      vs.head? = some (Point.start ⟨0, 0, 0, by norm_num⟩ ⟨7, 3, 2, by norm_num⟩ 0) ∧ vs.IsChain Near ∧
      (∀ v ∈ vs, (VoxelGrid.create 8 8 8).Contains v) ∧
      (Point.dist ⟨0, 0, 0, by norm_num⟩ ⟨7, 3, 2, by norm_num⟩ ≤ (100 : ℕ) →
        vs.getLast? = some (Point.cell ⟨7, 3, 2, by norm_num⟩)) :=
  raytraceLine3D_path (g := .create 8 8 8) (shows_create 8 (by decide)).valid
    (by norm_num [VoxelGrid.Beyond, VoxelGrid.create]) (by norm_num [VoxelGrid.Beyond, VoxelGrid.create])
    (Nat.not_lt_zero _) 100

end Ranger.Voxel
