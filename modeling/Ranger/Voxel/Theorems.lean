import Ranger.Voxel.RaytraceLine

/-!
# 立体の格子の呼び出し

どの呼び出しの列でも、ビットの列で持つ格子は、升目ごとの状態の空間と同じ結果を返す。
-/

namespace Ranger.Voxel
open Ranger.Lib

/-- 番号が `int` に収まる大きさだけを与える。 -/
inductive VoxelOp where
  | reset
  | resize (sizeX sizeY sizeZ : ℕ) (area : sizeX * sizeY < 2147483648)
  | markVoxel (v : Location)
  | markVoxelInMap (v : Location) (markedThreshold : ℕ)
  | clearVoxel (v : Location)
  | markVoxelLine (p q : Point) (maxLength : ℕ)
  | clearVoxelLine (p q : Point) (maxLength minLength : ℕ)
  | getVoxel (v : Location)
  | getVoxelColumn (x y unknownThreshold markedThreshold : ℕ)

inductive Answer where
  | done
  | status (st : VoxelStatus)
  | reached (b : Bool)

noncomputable def VoxelGrid.apply (g : VoxelGrid) : VoxelOp → VoxelGrid × Answer
  | .reset => (g.reset, .done)
  | .resize sizeX sizeY sizeZ _ => (g.resize sizeX sizeY sizeZ, .done)
  | .markVoxel v => (g.markVoxel v, .done)
  | .markVoxelInMap v markedThreshold =>
      ((g.markVoxelInMap v markedThreshold).1, .reached (g.markVoxelInMap v markedThreshold).2)
  | .clearVoxel v => (g.clearVoxel v, .done)
  | .markVoxelLine p q maxLength => (g.markVoxelLine p q maxLength, .done)
  | .clearVoxelLine p q maxLength minLength => (g.clearVoxelLine p q maxLength minLength, .done)
  | .getVoxel v => (g, .status (g.getVoxel v))
  | .getVoxelColumn x y unknownThreshold markedThreshold =>
      (g, .status (g.getVoxelColumn x y unknownThreshold markedThreshold))

namespace Space

def setAll (s : Space) (vs : List Location) (st : VoxelStatus) : Space := vs.foldl (fun s v => s.set v st) s

/-- 端が空間の外にある線分は、何も変えない。 -/
noncomputable def setLine (s : Space) (p q : Point) (maxLength minLength : ℕ) (st : VoxelStatus) : Space :=
  if (s.sizeX ≤ p.x ∨ s.sizeY ≤ p.y ∨ s.sizeZ ≤ p.z) ∨ (s.sizeX ≤ q.x ∨ s.sizeY ≤ q.y ∨ s.sizeZ ≤ q.z) then s
  else s.setAll (lineVoxels p q maxLength minLength) st

noncomputable def apply (s : Space) : VoxelOp → Space × Answer
  | .reset => (create s.sizeX s.sizeY s.sizeZ, .done)
  | .resize sizeX sizeY sizeZ _ => (create sizeX sizeY sizeZ, .done)
  | .markVoxel v => (s.set v .marked, .done)
  | .markVoxelInMap v markedThreshold =>
      (s.set v .marked, .reached (decide (s.Contains v ∧ markedThreshold < (s.set v .marked).count v.x v.y .marked)))
  | .clearVoxel v => (s.set v .free, .done)
  | .markVoxelLine p q maxLength => (s.setLine p q maxLength 0 .marked, .done)
  | .clearVoxelLine p q maxLength minLength => (s.setLine p q maxLength minLength .free, .done)
  | .getVoxel v => (s, .status (s.status v))
  | .getVoxelColumn x y unknownThreshold markedThreshold =>
      (s, .status (s.columnStatus x y unknownThreshold markedThreshold))

end Space

section Lines

variable {g : VoxelGrid} {s : Space} {f : VoxelGrid → ℕ → BitVec 32 → VoxelGrid} {st : VoxelStatus}

/-- 列の升目を一つずつ書き換えても、格子は空間を表す。 -/
theorem Shows.foldl (hf : ∀ g s v, Shows g s → s.Contains v → Shows (f g (g.index v.x v.y) (fullMask v.z)) (s.set v st))
    (hsize : ∀ g offset zMask, (f g offset zMask).sizeX = g.sizeX) (h : Shows g s) {vs : List Location}
    (hvs : ∀ v ∈ vs, s.Contains v) :
    Shows ((vs.map (cursor g.sizeX)).foldl (fun g c => f g c.offset c.zMask) g) (s.setAll vs st) := by
  induction vs generalizing g s with
  | nil => exact h
  | cons v vs ih =>
      have hv := hvs v List.mem_cons_self
      obtain ⟨hx, hy, -⟩ := h.contains_iff.mpr hv
      have hnext := hf g s v h hv
      rw [(h.valid.index hx hy).1] at hnext
      have htail := ih hnext fun u hu => hvs u (List.mem_cons_of_mem v hu)
      rwa [hsize] at htail

theorem Shows.line (hf : ∀ g s v, Shows g s → s.Contains v → Shows (f g (g.index v.x v.y) (fullMask v.z)) (s.set v st))
    (hsize : ∀ g offset zMask, (f g offset zMask).sizeX = g.sizeX) (h : Shows g s) (p q : Point)
    (maxLength minLength : ℕ) :
    Shows (if g.Beyond p ∨ g.Beyond q then g
        else (raytraceLine3D g.sizeX p q maxLength minLength).foldl (fun g c => f g c.offset c.zMask) g)
      (s.setLine p q maxLength minLength st) := by
  have hbeyond (r : Point) : g.Beyond r ↔ s.sizeX ≤ r.x ∨ s.sizeY ≤ r.y ∨ s.sizeZ ≤ r.z := by
    rw [VoxelGrid.Beyond, h.sizeX, h.sizeY, h.sizeZ]
  rw [Space.setLine]
  by_cases hout : g.Beyond p ∨ g.Beyond q
  · rw [if_pos hout, if_pos (by rwa [← hbeyond, ← hbeyond])]
    exact h
  · rw [if_neg hout, if_neg (by rwa [← hbeyond, ← hbeyond])]
    obtain ⟨hp, hq⟩ := not_or.mp hout
    rw [raytraceLine3D_eq h.valid hp hq]
    exact h.foldl hf hsize fun v hv => lineVoxels_inside (mt (hbeyond p).mpr hp) (mt (hbeyond q).mpr hq) hv

theorem Shows.markVoxelLine (h : Shows g s) (p q : Point) (maxLength : ℕ) :
    Shows (g.markVoxelLine p q maxLength) (s.setLine p q maxLength 0 .marked) :=
  h.line (fun _ _ _ h hv => h.mark hv) (fun _ _ _ => rfl) p q maxLength 0

theorem Shows.clearVoxelLine (h : Shows g s) (p q : Point) (maxLength minLength : ℕ) :
    Shows (g.clearVoxelLine p q maxLength minLength) (s.setLine p q maxLength minLength .free) :=
  h.line (fun _ _ _ h hv => h.clear hv) (fun _ _ _ => rfl) p q maxLength minLength

end Lines

theorem Shows.apply {g : VoxelGrid} {s : Space} (h : Shows g s) (op : VoxelOp) :
    Shows (g.apply op).1 (s.apply op).1 ∧ (g.apply op).2 = (s.apply op).2 := by
  cases op with
  | reset => exact ⟨h.reset, rfl⟩
  | resize sizeX sizeY sizeZ area => exact ⟨h.resize sizeZ area, rfl⟩
  | markVoxel v => exact ⟨h.markVoxel v, rfl⟩
  | markVoxelInMap v markedThreshold =>
      obtain ⟨hmark, hreached⟩ := h.markVoxelInMap v markedThreshold
      exact ⟨hmark, congrArg Answer.reached hreached⟩
  | clearVoxel v => exact ⟨h.clearVoxel v, rfl⟩
  | markVoxelLine p q maxLength => exact ⟨h.markVoxelLine p q maxLength, rfl⟩
  | clearVoxelLine p q maxLength minLength => exact ⟨h.clearVoxelLine p q maxLength minLength, rfl⟩
  | getVoxel v => exact ⟨h, congrArg Answer.status (h.getVoxel v)⟩
  | getVoxelColumn x y unknownThreshold markedThreshold =>
      exact ⟨h, congrArg Answer.status (h.getVoxelColumn x y unknownThreshold markedThreshold)⟩

/-- どの呼び出しの列でも、格子は、升目ごとの状態を覚える空間と同じ結果を返す。線分の呼び出しは、両端を結ぶ升目の列を書き換える。 -/
theorem voxelGrid_outputs {sizeX sizeY : ℕ} (sizeZ : ℕ) (harea : sizeX * sizeY < 2147483648) (ops : List VoxelOp) :
    outputs VoxelGrid.apply (.create sizeX sizeY sizeZ) ops = outputs Space.apply (.create sizeX sizeY sizeZ) ops :=
  outputs_eq_of_sim Shows (fun _ _ op h => h.apply op) (shows_create sizeZ harea) ops

-- 一つの柱に二つの印を付け、一つを消した後で、柱の状態を尋ねる。
theorem voxelGrid_outputs_column :
    outputs VoxelGrid.apply (.create 5 2 10)
        [.markVoxel ⟨1, 1, 0⟩, .markVoxelInMap ⟨1, 1, 9⟩ 1, .clearVoxel ⟨1, 1, 0⟩, .getVoxelColumn 1 1 14 0] =
      outputs Space.apply (.create 5 2 10)
        [.markVoxel ⟨1, 1, 0⟩, .markVoxelInMap ⟨1, 1, 9⟩ 1, .clearVoxel ⟨1, 1, 0⟩, .getVoxelColumn 1 1 14 0] :=
  voxelGrid_outputs 10 (by decide) _

end Ranger.Voxel
