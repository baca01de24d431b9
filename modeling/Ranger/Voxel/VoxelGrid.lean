import Mathlib.Order.Interval.Finset.Nat
import Mathlib.Tactic.SplitIfs
import Ranger.Grid.Costmap2D
import Ranger.Lib.Bits
import Ranger.Lib.Run

/-!
# 立体の格子

`nav2_voxel_grid` の `VoxelGrid`。一つの柱を 32 ビットの列で持ち、下の半分は未知または有り、上の半分は有りを表す。高さは 16 までである。
-/

namespace Ranger.Voxel
open Ranger.Lib Ranger.Grid

inductive VoxelStatus where
  | free
  | unknown
  | marked
  deriving DecidableEq

structure Location where
  x : ℕ
  y : ℕ
  z : ℕ
  deriving DecidableEq

structure VoxelGrid where
  sizeX : ℕ
  sizeY : ℕ
  sizeZ : ℕ
  data : List (BitVec 32)

/-! ## ビットの数 -/

def numBits (n : BitVec 32) : ℕ := if n = 0 then 0 else numBits (clearLowest n) + 1
termination_by n.toNat
decreasing_by exact clearLowest_lt ‹_›

/-- `bitCount` は、それまでに消したビットの数である。 -/
def countBits (bitThreshold bitCount : ℕ) (n : BitVec 32) : Bool :=
  if n = 0 then true
  else if bitThreshold < bitCount + 1 then false
  else countBits bitThreshold (bitCount + 1) (clearLowest n)
termination_by n.toNat
decreasing_by exact clearLowest_lt ‹_›

def bitsBelowThreshold (n : BitVec 32) (bitThreshold : ℕ) : Bool := countBits bitThreshold 0 n

theorem numBits_eq (n : BitVec 32) : numBits n = (bits n).card := by
  fun_induction numBits n with
  | case1 => rfl
  | case2 n h ih => rw [ih, card_clearLowest h]

theorem countBits_eq {bitThreshold bitCount : ℕ} {n : BitVec 32} (h : bitCount ≤ bitThreshold) :
    countBits bitThreshold bitCount n = decide (bitCount + (bits n).card ≤ bitThreshold) := by
  fun_induction countBits bitThreshold bitCount n with
  | case1 bitCount => simp [h]
  | case2 bitCount n hn hlt =>
      have hcard := card_clearLowest hn
      simp only [Bool.false_eq, decide_eq_false_iff_not]
      omega
  | case3 bitCount n hn hle ih =>
      rw [ih (by omega), card_clearLowest hn, Nat.add_assoc, Nat.add_comm 1]

theorem bitsBelowThreshold_eq (n : BitVec 32) (bitThreshold : ℕ) :
    bitsBelowThreshold n bitThreshold = decide ((bits n).card ≤ bitThreshold) := by
  rw [bitsBelowThreshold, countBits_eq (Nat.zero_le _), Nat.zero_add]

/-! ## 柱 -/

def fullMask (z : ℕ) : BitVec 32 := (1 : BitVec 32) <<< z <<< 16 ||| (1 : BitVec 32) <<< z

def unknownCol : BitVec 32 := ~~~(0 : BitVec 32) >>> 16

def markedBits (col : BitVec 32) : BitVec 32 := col >>> 16

def unknownBits (col : BitVec 32) : BitVec 32 := ((col >>> 16).setWidth 16 ^^^ col.setWidth 16).setWidth 32

/-- 柱 `col` が、高さごとの状態 `s` を表す。 -/
def Column (col : BitVec 32) (s : ℕ → VoxelStatus) : Prop :=
  ∀ z < 16, col.getLsbD (z + 16) = decide (s z = .marked) ∧ col.getLsbD z = decide (s z ≠ .free)

/-- 高さの数のうち、状態が `st` であるもの。 -/
def levels (s : ℕ → VoxelStatus) (st : VoxelStatus) : Finset ℕ := (Finset.range 16).filter fun z => s z = st

theorem getLsbD_fullMask {z : ℕ} (hz : z < 16) (i : ℕ) :
    (fullMask z).getLsbD i = (decide (i = z) || decide (i = z + 16)) := by
  simp only [fullMask, BitVec.getLsbD_or, BitVec.getLsbD_shiftLeft, BitVec.ofNat_eq_ofNat, BitVec.getLsbD_one]
  by_cases hi : i < 32
  · rw [Bool.eq_iff_iff]
    simp [hi]
    omega
  · rw [Bool.eq_iff_iff]
    simp [hi]
    omega

section Column

variable {col : BitVec 32} {s : ℕ → VoxelStatus} {z : ℕ}

theorem column_unknown : Column unknownCol fun _ => .unknown := by
  unfold Column
  decide

theorem Column.mark (h : Column col s) (hz : z < 16) : Column (col ||| fullMask z) (Function.update s z .marked) := by
  intro i hi
  obtain ⟨hhigh, hlow⟩ := h i hi
  rw [BitVec.getLsbD_or, BitVec.getLsbD_or, getLsbD_fullMask hz, getLsbD_fullMask hz, hhigh, hlow]
  by_cases hiz : i = z
  · subst hiz
    simp
  · have hne : i + 16 ≠ z := by omega
    have hne' : i ≠ z + 16 := by omega
    simp [hiz, hne, hne']

theorem Column.clear (h : Column col s) (hz : z < 16) : Column (col &&& ~~~ fullMask z) (Function.update s z .free) := by
  intro i hi
  obtain ⟨hhigh, hlow⟩ := h i hi
  rw [BitVec.getLsbD_and, BitVec.getLsbD_and, BitVec.getLsbD_not, BitVec.getLsbD_not, getLsbD_fullMask hz,
    getLsbD_fullMask hz, hhigh, hlow]
  have hi32 : i < 32 := by omega
  have hi16 : i + 16 < 32 := by omega
  by_cases hiz : i = z
  · subst hiz
    simp
  · have hne : i + 16 ≠ z := by omega
    have hne' : i ≠ z + 16 := by omega
    simp [hiz, hne, hne', hi32, hi16]

theorem Column.bits_marked (h : Column col s) : bits (markedBits col) = levels s .marked := by
  ext z
  rw [mem_bits, markedBits, BitVec.getLsbD_ushiftRight, levels, Finset.mem_filter, Finset.mem_range, Nat.add_comm]
  constructor
  · intro hbit
    have hz : z < 16 := by
      have hlt := BitVec.lt_of_getLsbD hbit
      omega
    exact ⟨hz, by simpa [(h z hz).1] using hbit⟩
  · intro ⟨hz, hs⟩
    simp [(h z hz).1, hs]

theorem Column.bits_unknown (h : Column col s) : bits (unknownBits col) = levels s .unknown := by
  ext z
  rw [mem_bits, unknownBits, levels, Finset.mem_filter, Finset.mem_range, BitVec.getLsbD_setWidth, BitVec.getLsbD_xor,
    BitVec.getLsbD_setWidth, BitVec.getLsbD_setWidth, BitVec.getLsbD_ushiftRight, Nat.add_comm 16]
  by_cases hz : z < 16
  · have hz32 : z < 32 := by omega
    obtain ⟨hhigh, hlow⟩ := h z hz
    rw [hhigh, hlow]
    cases hs : s z <;> simp [hz, hz32]
  · simp [hz]

theorem Column.numBits_eq (h : Column col s) (hz : z < 16) :
    numBits (col &&& fullMask z) = if s z = .marked then 2 else if s z = .unknown then 1 else 0 := by
  obtain ⟨hhigh, hlow⟩ := h z hz
  have hbits : bits (col &&& fullMask z) = ({z, z + 16} : Finset ℕ).filter fun i => col.getLsbD i = true := by
    ext i
    rw [mem_bits, BitVec.getLsbD_and, getLsbD_fullMask hz]
    simp [and_comm]
  rw [Voxel.numBits_eq, hbits, Finset.filter_insert, Finset.filter_singleton, hhigh, hlow]
  cases hs : s z with
  | free => rfl
  | unknown => rfl
  | marked =>
      have hne : z ∉ ({z + 16} : Finset ℕ) := by simp
      simp [Finset.card_insert_of_notMem hne]

end Column

/-! ## 格子の操作 -/

namespace VoxelGrid

def Contains (g : VoxelGrid) (v : Location) : Prop := v.x < g.sizeX ∧ v.y < g.sizeY ∧ v.z < g.sizeZ

instance (g : VoxelGrid) (v : Location) : Decidable (g.Contains v) := inferInstanceAs (Decidable (_ ∧ _))

def index (g : VoxelGrid) (x y : ℕ) : ℕ := wrap (y * g.sizeX + x)

/-- 16 を超える高さは 16 にする。 -/
def create (sizeX sizeY sizeZ : ℕ) : VoxelGrid where
  sizeX := sizeX
  sizeY := sizeY
  sizeZ := if 16 < sizeZ then 16 else sizeZ
  data := List.replicate (wrap (sizeX * sizeY)) unknownCol

def reset (g : VoxelGrid) : VoxelGrid :=
  { g with data := List.replicate (wrap (g.sizeX * g.sizeY)) unknownCol }

def resize (g : VoxelGrid) (sizeX sizeY sizeZ : ℕ) : VoxelGrid :=
  if sizeX = g.sizeX ∧ sizeY = g.sizeY ∧ sizeZ = g.sizeZ then g.reset else create sizeX sizeY sizeZ

/-- 番号 `offset` の柱に、`z_mask` のビットを立てる。 -/
def mark (g : VoxelGrid) (offset : ℕ) (zMask : BitVec 32) : VoxelGrid :=
  { g with data := g.data.modify offset (· ||| zMask) }

def clear (g : VoxelGrid) (offset : ℕ) (zMask : BitVec 32) : VoxelGrid :=
  { g with data := g.data.modify offset (· &&& ~~~ zMask) }

def markVoxel (g : VoxelGrid) (v : Location) : VoxelGrid :=
  if g.Contains v then g.mark (g.index v.x v.y) (fullMask v.z) else g

/-- 柱 `(x, y)` の値。 -/
def col (g : VoxelGrid) (x y : ℕ) : BitVec 32 := (g.data[g.index x y]?).getD 0

def markVoxelInMap (g : VoxelGrid) (v : Location) (markedThreshold : ℕ) : VoxelGrid × Bool :=
  if g.Contains v then
    let g' := g.mark (g.index v.x v.y) (fullMask v.z)
    (g', !bitsBelowThreshold (markedBits (g'.col v.x v.y)) markedThreshold)
  else (g, false)

def clearVoxel (g : VoxelGrid) (v : Location) : VoxelGrid :=
  if g.Contains v then g.clear (g.index v.x v.y) (fullMask v.z) else g

def getVoxel (g : VoxelGrid) (v : Location) : VoxelStatus :=
  if g.Contains v then
    let bits := numBits (g.col v.x v.y &&& fullMask v.z)
    if bits < 2 then if bits < 1 then .free else .unknown else .marked
  else .unknown

def getVoxelColumn (g : VoxelGrid) (x y unknownThreshold markedThreshold : ℕ) : VoxelStatus :=
  if x < g.sizeX ∧ y < g.sizeY then
    if !bitsBelowThreshold (markedBits (g.col x y)) markedThreshold then .marked
    else if !bitsBelowThreshold (unknownBits (g.col x y)) unknownThreshold then .unknown
    else .free
  else .unknown

/-- 大きさの通りの配列を持つ。番号は `int` に収まる。 -/
structure Valid (g : VoxelGrid) : Prop where
  sizeZ : g.sizeZ ≤ 16
  area : g.sizeX * g.sizeY < 2147483648
  data : g.data.length = g.sizeX * g.sizeY

end VoxelGrid

/-! ## 状態の空間 -/

/-- 升目ごとの状態。格子の外は未知である。 -/
structure Space where
  sizeX : ℕ
  sizeY : ℕ
  sizeZ : ℕ
  status : Location → VoxelStatus
  height : sizeZ ≤ 16
  outside : ∀ v, ¬ (v.x < sizeX ∧ v.y < sizeY ∧ v.z < sizeZ) → status v = .unknown

namespace Space

def Contains (s : Space) (v : Location) : Prop := v.x < s.sizeX ∧ v.y < s.sizeY ∧ v.z < s.sizeZ

instance (s : Space) (v : Location) : Decidable (s.Contains v) := inferInstanceAs (Decidable (_ ∧ _))

def create (sizeX sizeY sizeZ : ℕ) : Space where
  sizeX := sizeX
  sizeY := sizeY
  sizeZ := min sizeZ 16
  status := fun _ => .unknown
  height := Nat.min_le_right _ _
  outside := fun _ _ => rfl

/-- 格子の中の一つの升目の状態を変える。 -/
def set (s : Space) (v : Location) (st : VoxelStatus) : Space where
  sizeX := s.sizeX
  sizeY := s.sizeY
  sizeZ := s.sizeZ
  status := if s.Contains v then Function.update s.status v st else s.status
  height := s.height
  outside := by
    intro u hu
    split_ifs with hv
    · have hne : u ≠ v := fun heq => hu (heq ▸ hv)
      rw [Function.update_of_ne hne, s.outside u hu]
    · exact s.outside u hu

/-- 柱の升目のうち、状態が `st` であるものの数。 -/
def count (s : Space) (x y : ℕ) (st : VoxelStatus) : ℕ :=
  ((Finset.range s.sizeZ).filter fun z => s.status ⟨x, y, z⟩ = st).card

/-- 使わない高さは、未知の升目として数える。 -/
def columnStatus (s : Space) (x y unknownThreshold markedThreshold : ℕ) : VoxelStatus :=
  if x < s.sizeX ∧ y < s.sizeY then
    if markedThreshold < s.count x y .marked then .marked
    else if unknownThreshold < s.count x y .unknown + (16 - s.sizeZ) then .unknown
    else .free
  else .unknown

theorem card_levels_marked (s : Space) (x y : ℕ) :
    (levels (fun z => s.status ⟨x, y, z⟩) .marked).card = s.count x y .marked := by
  have hheight := s.height
  rw [levels, count]
  congr 1
  ext z
  simp only [Finset.mem_filter, Finset.mem_range, and_congr_left_iff]
  intro hz
  constructor
  · intro _
    by_contra hhigh
    rw [s.outside ⟨x, y, z⟩ fun hin => hhigh hin.2.2] at hz
    cases hz
  · intro hlow
    omega

theorem card_levels_unknown (s : Space) (x y : ℕ) :
    (levels (fun z => s.status ⟨x, y, z⟩) .unknown).card = s.count x y .unknown + (16 - s.sizeZ) := by
  have hheight := s.height
  have hsplit : levels (fun z => s.status ⟨x, y, z⟩) .unknown =
      ((Finset.range s.sizeZ).filter fun z => s.status ⟨x, y, z⟩ = .unknown) ∪ Finset.Ico s.sizeZ 16 := by
    ext z
    simp only [levels, Finset.mem_filter, Finset.mem_range, Finset.mem_union, Finset.mem_Ico]
    by_cases hz : z < s.sizeZ
    · have hlt : z < 16 := by omega
      simp [hz, hlt]
    · have hunknown := s.outside ⟨x, y, z⟩ fun hin => hz hin.2.2
      simp [hz, hunknown, not_lt.mp hz]
  have hdisjoint : Disjoint ((Finset.range s.sizeZ).filter fun z => s.status ⟨x, y, z⟩ = .unknown)
      (Finset.Ico s.sizeZ 16) := by
    rw [Finset.disjoint_left]
    intro z hz hz'
    have hlow := Finset.mem_range.mp (Finset.mem_filter.mp hz).1
    have hhigh := (Finset.mem_Ico.mp hz').1
    omega
  rw [hsplit, Finset.card_union_of_disjoint hdisjoint, Nat.card_Ico, count]

end Space

/-- 格子 `g` が、空間 `s` を表す。 -/
structure Shows (g : VoxelGrid) (s : Space) : Prop where
  valid : g.Valid
  sizeX : g.sizeX = s.sizeX
  sizeY : g.sizeY = s.sizeY
  sizeZ : g.sizeZ = s.sizeZ
  column : ∀ x y, x < g.sizeX → y < g.sizeY → Column (g.col x y) fun z => s.status ⟨x, y, z⟩

section Shows

variable {g : VoxelGrid} {s : Space} {v : Location}

theorem VoxelGrid.Valid.index (h : g.Valid) {x y : ℕ} (hx : x < g.sizeX) (hy : y < g.sizeY) :
    g.index x y = y * g.sizeX + x ∧ g.index x y < g.data.length := by
  have hlt := index_lt hx hy
  have harea := h.area
  rw [VoxelGrid.index, wrap_of_lt (by omega), h.data]
  exact ⟨rfl, hlt⟩

theorem VoxelGrid.Valid.index_inj (h : g.Valid) {x y x' y' : ℕ} (hx : x < g.sizeX) (hy : y < g.sizeY)
    (hx' : x' < g.sizeX) (hy' : y' < g.sizeY) (heq : g.index x y = g.index x' y') : x = x' ∧ y = y' := by
  rw [(h.index hx hy).1, (h.index hx' hy').1] at heq
  have hpos : 0 < g.sizeX := by omega
  have hrow : (y * g.sizeX + x) / g.sizeX = y := by
    rw [Nat.mul_comm, Nat.mul_add_div hpos, Nat.div_eq_of_lt hx, Nat.add_zero]
  have hrow' : (y' * g.sizeX + x') / g.sizeX = y' := by
    rw [Nat.mul_comm, Nat.mul_add_div hpos, Nat.div_eq_of_lt hx', Nat.add_zero]
  have hy : y = y' := by rw [← hrow, heq, hrow']
  subst hy
  exact ⟨Nat.add_left_cancel heq, rfl⟩

theorem Shows.contains_iff (h : Shows g s) : g.Contains v ↔ s.Contains v := by
  rw [VoxelGrid.Contains, Space.Contains, h.sizeX, h.sizeY, h.sizeZ]

/-- 一つの柱を書き換えた後。 -/
theorem Shows.write (h : Shows g s) (hv : s.Contains v) {f : BitVec 32 → BitVec 32} {st : VoxelStatus}
    (hf : ∀ col t, Column col t → Column (f col) (Function.update t v.z st)) :
    Shows { g with data := g.data.modify (g.index v.x v.y) f } (s.set v st) := by
  obtain ⟨hvx, hvy, hvz⟩ := h.contains_iff.mpr hv
  obtain ⟨-, hin⟩ := h.valid.index hvx hvy
  refine ⟨⟨h.valid.sizeZ, h.valid.area, by simp [h.valid.data]⟩, h.sizeX, h.sizeY, h.sizeZ, fun x y hx hy => ?_⟩
  have hset : (s.set v st).status = Function.update s.status v st := if_pos hv
  rw [hset]
  by_cases hxy : x = v.x ∧ y = v.y
  · obtain ⟨rfl, rfl⟩ := hxy
    have hcol : VoxelGrid.col { g with data := g.data.modify (g.index v.x v.y) f } v.x v.y = f (g.col v.x v.y) := by
      show ((g.data.modify (g.index v.x v.y) f)[g.index v.x v.y]?).getD 0 = f ((g.data[g.index v.x v.y]?).getD 0)
      simp [List.getElem?_eq_getElem hin]
    have hstatus : (fun z => Function.update s.status v st ⟨v.x, v.y, z⟩) =
        Function.update (fun z => s.status ⟨v.x, v.y, z⟩) v.z st := by
      funext z
      by_cases hz : z = v.z
      · subst hz
        simp
      · rw [Function.update_of_ne hz, Function.update_of_ne fun heq => hz (congrArg Location.z heq)]
    rw [hcol, hstatus]
    exact hf _ _ (h.column v.x v.y hvx hvy)
  · have hne : g.index v.x v.y ≠ g.index x y := fun heq =>
      hxy ((h.valid.index_inj hx hy hvx hvy heq.symm))
    have hcol : VoxelGrid.col { g with data := g.data.modify (g.index v.x v.y) f } x y = g.col x y := by
      show ((g.data.modify (g.index v.x v.y) f)[g.index x y]?).getD 0 = (g.data[g.index x y]?).getD 0
      simp [hne]
    have hstatus : (fun z => Function.update s.status v st ⟨x, y, z⟩) = fun z => s.status ⟨x, y, z⟩ := by
      funext z
      exact Function.update_of_ne (fun heq => hxy ⟨congrArg Location.x heq, congrArg Location.y heq⟩) _ _
    rw [hcol, hstatus]
    exact h.column x y hx hy

theorem Shows.level_lt (h : Shows g s) (hv : s.Contains v) : v.z < 16 := by
  have hz := (h.contains_iff.mpr hv).2.2
  have hheight := h.valid.sizeZ
  omega

theorem Shows.mark (h : Shows g s) (hv : s.Contains v) :
    Shows (g.mark (g.index v.x v.y) (fullMask v.z)) (s.set v .marked) :=
  h.write hv fun _ _ hcol => hcol.mark (h.level_lt hv)

theorem Shows.clear (h : Shows g s) (hv : s.Contains v) :
    Shows (g.clear (g.index v.x v.y) (fullMask v.z)) (s.set v .free) :=
  h.write hv fun _ _ hcol => hcol.clear (h.level_lt hv)

theorem Space.set_of_not (hv : ¬ s.Contains v) (st : VoxelStatus) : s.set v st = s := by
  simp [Space.set, hv]

theorem shows_create {sizeX sizeY : ℕ} (sizeZ : ℕ) (harea : sizeX * sizeY < 2147483648) :
    Shows (.create sizeX sizeY sizeZ) (.create sizeX sizeY sizeZ) := by
  have hdata : (VoxelGrid.create sizeX sizeY sizeZ).data.length = sizeX * sizeY := by
    rw [VoxelGrid.create, List.length_replicate, wrap_of_lt (by omega)]
  have hheight : (VoxelGrid.create sizeX sizeY sizeZ).sizeZ = min sizeZ 16 := by
    simp only [VoxelGrid.create]
    split_ifs
    · omega
    · omega
  have hvalid : (VoxelGrid.create sizeX sizeY sizeZ).Valid := ⟨by rw [hheight]; exact Nat.min_le_right _ _, harea, hdata⟩
  refine ⟨hvalid, rfl, rfl, hheight, fun x y hx hy => ?_⟩
  have hcol : (VoxelGrid.create sizeX sizeY sizeZ).col x y = unknownCol := by
    rw [VoxelGrid.col, List.getElem?_eq_getElem (hvalid.index hx hy).2]
    simp [VoxelGrid.create]
  rw [hcol]
  exact column_unknown

theorem Shows.reset (h : Shows g s) : Shows g.reset (.create s.sizeX s.sizeY s.sizeZ) := by
  have hcreate := shows_create g.sizeZ h.valid.area
  rw [h.sizeX, h.sizeY, h.sizeZ] at hcreate
  have hreset : g.reset = .create s.sizeX s.sizeY s.sizeZ := by
    have hheight := s.height
    rw [VoxelGrid.reset, VoxelGrid.create, if_neg (by omega), h.sizeX, h.sizeY, h.sizeZ]
  rwa [hreset]

/-- 大きさが同じでも違っても、作り直した格子と同じになる。 -/
theorem Shows.resize (h : Shows g s) {sizeX sizeY : ℕ} (sizeZ : ℕ) (harea : sizeX * sizeY < 2147483648) :
    Shows (g.resize sizeX sizeY sizeZ) (.create sizeX sizeY sizeZ) := by
  rw [VoxelGrid.resize]
  split_ifs with hsame
  · obtain ⟨hx, hy, hz⟩ := hsame
    rw [hx, hy, hz, h.sizeX, h.sizeY, h.sizeZ]
    exact h.reset
  · exact shows_create sizeZ harea

theorem Shows.markVoxel (h : Shows g s) (v : Location) : Shows (g.markVoxel v) (s.set v .marked) := by
  rw [VoxelGrid.markVoxel]
  split_ifs with hv
  · exact h.mark (h.contains_iff.mp hv)
  · rwa [Space.set_of_not (fun hs => hv (h.contains_iff.mpr hs))]

theorem Shows.clearVoxel (h : Shows g s) (v : Location) : Shows (g.clearVoxel v) (s.set v .free) := by
  rw [VoxelGrid.clearVoxel]
  split_ifs with hv
  · exact h.clear (h.contains_iff.mp hv)
  · rwa [Space.set_of_not (fun hs => hv (h.contains_iff.mpr hs))]

theorem Shows.card_marked (h : Shows g s) {x y : ℕ} (hx : x < g.sizeX) (hy : y < g.sizeY) :
    (bits (markedBits (g.col x y))).card = s.count x y .marked := by
  rw [(h.column x y hx hy).bits_marked, s.card_levels_marked]

theorem Shows.card_unknown (h : Shows g s) {x y : ℕ} (hx : x < g.sizeX) (hy : y < g.sizeY) :
    (bits (unknownBits (g.col x y))).card = s.count x y .unknown + (16 - s.sizeZ) := by
  rw [(h.column x y hx hy).bits_unknown, s.card_levels_unknown]

theorem Shows.getVoxel (h : Shows g s) (v : Location) : g.getVoxel v = s.status v := by
  rw [VoxelGrid.getVoxel]
  split_ifs with hv
  · have hz := h.level_lt (h.contains_iff.mp hv)
    rw [(h.column v.x v.y hv.1 hv.2.1).numBits_eq hz]
    cases s.status ⟨v.x, v.y, v.z⟩ <;> simp
  · exact (s.outside v fun hs => hv (h.contains_iff.mpr hs)).symm

theorem Shows.getVoxelColumn (h : Shows g s) (x y unknownThreshold markedThreshold : ℕ) :
    g.getVoxelColumn x y unknownThreshold markedThreshold = s.columnStatus x y unknownThreshold markedThreshold := by
  rw [VoxelGrid.getVoxelColumn, Space.columnStatus, ← h.sizeX, ← h.sizeY]
  by_cases hxy : x < g.sizeX ∧ y < g.sizeY
  · rw [if_pos hxy, if_pos hxy, bitsBelowThreshold_eq, bitsBelowThreshold_eq, h.card_marked hxy.1 hxy.2,
      h.card_unknown hxy.1 hxy.2]
    simp only [Bool.not_eq_true', decide_eq_false_iff_not, Nat.not_le]
  · rw [if_neg hxy, if_neg hxy]

theorem Shows.markVoxelInMap (h : Shows g s) (v : Location) (markedThreshold : ℕ) :
    Shows (g.markVoxelInMap v markedThreshold).1 (s.set v .marked) ∧
      (g.markVoxelInMap v markedThreshold).2 =
        decide (s.Contains v ∧ markedThreshold < (s.set v .marked).count v.x v.y .marked) := by
  rw [VoxelGrid.markVoxelInMap]
  split_ifs with hv
  · have hs := h.contains_iff.mp hv
    have hmark := h.mark hs
    refine ⟨hmark, ?_⟩
    have hcard := hmark.card_marked (x := v.x) (y := v.y) hv.1 hv.2.1
    simp only [bitsBelowThreshold_eq, hcard, hs, true_and]
    rw [Bool.eq_iff_iff]
    simp
  · have hs : ¬ s.Contains v := fun hs => hv (h.contains_iff.mpr hs)
    rw [Space.set_of_not hs]
    exact ⟨h, by simp [hs]⟩

end Shows

end Ranger.Voxel
