import Ranger.Denoise.Components

/-!
# 小さい塊の除去

`nav2_costmap_2d` の `denoise/image_processing.hpp` の `histogram` と `GroupsRemover`、`denoise_layer.cpp` の背景の条件。`size_t` は `UInt64` である。
-/

namespace Ranger.Denoise

/-- 番号ごとの画素の数。`bin_max` を越えない。 -/
def histogram (image : Image ℕ) (imageMax : ℕ) (binMax : UInt64) : Table UInt64 :=
  if image.isEmpty then ⟨0, fun _ => 0⟩
  else image.forEach (fun bins pixel => bins.set pixel (min (bins.data pixel + 1) binMax)) ⟨imageMax + 1, fun _ => 0⟩

section GroupsRemover

variable (connectivity : ConnectivityType) (isBg : UInt8 → Bool) (past : Table ℕ → ℕ → ℕ) (image : Image UInt8)
  (minimalGroupSize : UInt64)

/-- 番号 `0` の数を `0` にした後の、取り除く番号の表。 -/
def noiseLabelsTable (groupsSizes : Table UInt64) : Table Bool where
  size := groupsSizes.size
  data i := decide ((groupsSizes.set 0 0).data i < minimalGroupSize)

/-- 空の画像では `groups_sizes.front()` がないので、呼び出し元は空の画像を渡さない。 -/
def removeGroupsImpl (label : LabelType) (buffer : ℤ → ℕ) : Except Exception (Image UInt8) := do
  let (labels, groupsCount) ← connectedComponents connectivity isBg image label past buffer
  let maxLabelValue := groupsCount - 1
  let groupsSizes := histogram labels maxLabelValue (minimalGroupSize + 1)
  let noise := noiseLabelsTable minimalGroupSize groupsSizes
  labels.convert image fun src trg => if !isBg trg && noise.data src then 0 else trg

/-- 成功したかどうかと、その後の画像。 -/
def tryRemoveGroupsWithLabelType (label : LabelType) (buffer : ℤ → ℕ) (throwOnLabelOverflow : Bool) :
    Except Exception (Bool × Image UInt8) :=
  match removeGroupsImpl connectivity isBg past image minimalGroupSize label buffer with
  | .ok image' => pure (true, image')
  | .error (.labelOverflow message) =>
    if throwOnLabelOverflow then throw (.labelOverflow message) else pure (false, image)
  | .error (.logicError message) => throw (.logicError message)

/-- 持っている木の番号の型。木の中身は、使う前に作り直される。 -/
structure GroupsRemover where
  labelTrees : LabelType
deriving DecidableEq, Repr

def GroupsRemover.create : GroupsRemover := ⟨.uint16⟩

/-- メモリの内容 `buffer` は、番号の型ごとに読み方が違う。 -/
def GroupsRemover.removeGroups (remover : GroupsRemover) (buffer : LabelType → ℤ → ℕ) :
    GroupsRemover × Except Exception (Image UInt8) :=
  let retry : GroupsRemover × Except Exception (Image UInt8) :=
    (⟨.uint32⟩, (tryRemoveGroupsWithLabelType connectivity isBg past image minimalGroupSize .uint32 (buffer .uint32)
      true).map Prod.snd)
  match remover.labelTrees with
  | .uint16 =>
    match tryRemoveGroupsWithLabelType connectivity isBg past image minimalGroupSize .uint16 (buffer .uint16) false with
    | .ok (true, image') => (remover, .ok image')
    | .ok (false, _) => retry
    | .error e => (remover, .error e)
  | .uint32 => retry

end GroupsRemover

/-! ## `DenoiseLayer` の背景 -/

def inscribedInflatedObstacle : UInt8 := 253
def lethalObstacle : UInt8 := 254
def noInformation : UInt8 := 255

/-- `DenoiseLayer::isBackground` -/
def isBackground (noInformationIsObstacle : Bool) (pixel : UInt8) : Bool :=
  let isObstacle :=
    pixel == lethalObstacle || pixel == inscribedInflatedObstacle || (pixel == noInformation && noInformationIsObstacle)
  !isObstacle

theorem isBackground_zero (noInformationIsObstacle : Bool) : isBackground noInformationIsObstacle 0 = true := by
  cases noInformationIsObstacle <;> decide

def Background.ofLayer (noInformationIsObstacle : Bool) : Background where
  isBg := isBackground noInformationIsObstacle
  isBg_zero := isBackground_zero noInformationIsObstacle

end Ranger.Denoise
