import Ranger.Denoise.Image

/-!
# 連結成分の番号づけ

`nav2_costmap_2d` の `denoise/image_processing.hpp` の `EquivalenceLabelTrees`、`ProcessPixel`、`connectedComponents`。画像を一度走査して仮の番号をつけ、同じ成分になった番号を木に合併し、最後に番号を詰めて画素の番号を書き換える。
-/

namespace Ranger.Denoise

/-- `std::vector`。`size` から先の `data` は、切り詰める前に書かれた値である。 -/
structure Table (α : Type) where
  size : ℕ
  data : ℕ → α

namespace Table

variable {α : Type}

def set (t : Table α) (i : ℕ) (x : α) : Table α := { t with data := Function.update t.data i x }

def pushBack (t : Table α) (x : α) : Table α where
  size := t.size + 1
  data := Function.update t.data t.size x

def resize (t : Table α) (size : ℕ) : Table α := { t with size := size }

@[simp] theorem data_set (t : Table α) (i : ℕ) (x : α) : (t.set i x).data = Function.update t.data i x := rfl

@[simp] theorem data_pushBack (t : Table α) (x : α) : (t.pushBack x).data = Function.update t.data t.size x := rfl

/-- 添字 `i` の値。範囲の外を読んだときの値は `past` が決める。 -/
def read (past : Table α → ℕ → α) (t : Table α) (i : ℕ) : α := if i < t.size then t.data i else past t i

end Table

/-- 範囲の外を読むと、切り詰める前に書かれた値が返る。 -/
def AsFilled {α : Type} (past : Table α → ℕ → α) : Prop := ∀ t i, past t i = t.data i

inductive LabelType
  | uint16
  | uint32
deriving DecidableEq, Repr

/-- `std::numeric_limits<Label>::max()`。 -/
def LabelType.max : LabelType → ℕ
  | uint16 => 2 ^ 16 - 1
  | uint32 => 2 ^ 32 - 1

/-- 背景の値を選ぶ条件。`0` は背景である。 -/
structure Background where
  isBg : UInt8 → Bool
  isBg_zero : isBg 0 = true

/-! ## 仮の番号の木 -/

structure EquivalenceLabelTrees where
  labels : Table ℕ
  labelsSize : ℕ
  nextFree : ℕ

namespace EquivalenceLabelTrees

def maxLabels (label : LabelType) (rows columns : ℕ) (connectivity : ConnectivityType) : ℕ :=
  let maxLabels := match connectivity with
    | .way4 => rows * columns / 2 + 1
    | .way8 => rows * columns / 3 + 1
  min (maxLabels + 1) label.max

def reset (label : LabelType) (rows columns : ℕ) (connectivity : ConnectivityType) : EquivalenceLabelTrees where
  labels := ⟨1, fun _ => 0⟩
  labelsSize := min (maxLabels label rows columns connectivity) label.max
  nextFree := 1

def makeLabel (trees : EquivalenceLabelTrees) : Except Exception (ℕ × EquivalenceLabelTrees) :=
  if trees.nextFree = trees.labelsSize then
    throw (.labelOverflow "EquivalenceLabelTrees: Can't create new label")
  else
    pure (trees.nextFree,
      { trees with labels := trees.labels.pushBack trees.nextFree, nextFree := trees.nextFree + 1 })

/-- 根は番号の小さい方にあるので、`fuel` は番号で足りる。 -/
def findRootLoop (labels : ℕ → ℕ) : ℕ → ℕ → ℕ
  | 0, root => root
  | fuel + 1, root => if labels root < root then findRootLoop labels fuel (labels root) else root

def findRoot (trees : EquivalenceLabelTrees) (i : ℕ) : ℕ := findRootLoop trees.labels.data i i

def setRootLoop (root : ℕ) : ℕ → Table ℕ → ℕ → Table ℕ
  | 0, labels, i => labels.set i root
  | fuel + 1, labels, i =>
    if labels.data i < i then setRootLoop root fuel (labels.set i root) (labels.data i) else labels.set i root

def setRoot (trees : EquivalenceLabelTrees) (i root : ℕ) : EquivalenceLabelTrees :=
  { trees with labels := setRootLoop root i trees.labels i }

def unionTrees (trees : EquivalenceLabelTrees) (i j : ℕ) : ℕ × EquivalenceLabelTrees :=
  let root := trees.findRoot i
  if i ≠ j then
    let rootJ := trees.findRoot j
    let root := min root rootJ
    (root, (trees.setRoot j root).setRoot i root)
  else
    (root, trees.setRoot i root)

/-- 番号 `i` を、親の最後の番号か、次の最後の番号に書き換える。 -/
def flattenLabel (s : Table ℕ × ℕ) (i : ℕ) : Table ℕ × ℕ :=
  if s.1.data i < i then (s.1.set i (s.1.data (s.1.data i)), s.2) else (s.1.set i s.2, s.2 + 1)

def getLabels (trees : EquivalenceLabelTrees) : Table ℕ :=
  let s := (List.range' 1 (trees.nextFree - 1)).foldl flattenLabel (trees.labels, 1)
  s.1.resize s.2

end EquivalenceLabelTrees

/-! ## 走査 -/

/-- 画素 `e` の番号と、その後の木。 -/
def processPixel (connectivity : ConnectivityType) (isBg : UInt8 → Bool) (image : Window UInt8) (label : Window ℕ)
    (trees : EquivalenceLabelTrees) : Except Exception (ℕ × EquivalenceLabelTrees) :=
  match connectivity with
  | .way8 =>
    if !isBg image.e then
      if label.b ≠ 0 then pure (label.b, trees)
      else if !isBg image.c then
        if !isBg image.a then pure (trees.unionTrees label.c label.a)
        else if !isBg image.d then pure (trees.unionTrees label.c label.d)
        else pure (label.c, trees)
      else if !isBg image.a then pure (label.a, trees)
      else if !isBg image.d then pure (label.d, trees)
      else trees.makeLabel
    else pure (0, trees)
  | .way4 =>
    if !isBg image.e then
      if !isBg image.b then
        if !isBg image.d then pure (trees.unionTrees label.d label.b)
        else pure (label.b, trees)
      else if !isBg image.d then pure (label.d, trees)
      else trees.makeLabel
    else pure (0, trees)

structure Scan where
  labels : Image ℕ
  labelTrees : EquivalenceLabelTrees

section Phases

variable (connectivity : ConnectivityType) (isBg : UInt8 → Bool) (image : Image UInt8)

/-- `PixelPass::pass`。番号は、番号の画像の窓の画素 `e` に書かれる。 -/
def pass (img : Window UInt8) (lbl : Window ℕ) (s : Scan) : Except Exception Scan := do
  let (current, labelTrees) ← processPixel connectivity isBg img lbl s.labelTrees
  pure { labels := s.labels.set lbl.downRow current, labelTrees := labelTrees }

def scanFirstRow (s : Scan) : Except Exception Scan :=
  (List.range image.columns).foldlM (fun s c =>
    pass connectivity isBg (makeSafeWindow image.data none (image.row 0) image.columns c)
      (makeSafeWindow s.labels.data none (s.labels.row 0) image.columns c) s) s

/-- 行 `row + 1` の走査。最初の列では番号の画像の範囲を確かめず、途中の列では何も確かめない。 -/
def scanRow (s : Scan) (row : ℕ) : Except Exception Scan := do
  let up := image.row row
  let current := image.row (row + 1)
  let labelWindow (s : Scan) (c : ℕ) : Window ℕ :=
    makeUnsafeWindow s.labels.data (s.labels.row row + c) (s.labels.row (row + 1) + c)
  let s ← pass connectivity isBg (makeSafeWindow image.data (some up) current image.columns 0) (labelWindow s 0) s
  let s ← (List.range' 1 (image.columns - 2)).foldlM (fun s (c : ℕ) =>
    pass connectivity isBg (makeUnsafeWindow image.data (up + c) (current + c)) (labelWindow s c) s) s
  if 1 < image.columns then
    pass connectivity isBg (makeSafeWindow image.data (some up) current image.columns (image.columns - 1))
      (makeSafeWindow s.labels.data (some (s.labels.row row)) (s.labels.row (row + 1)) image.columns
        (image.columns - 1)) s
  else pure s

def scanImage (s : Scan) : Except Exception Scan := do
  let s ← scanFirstRow connectivity isBg image s
  (List.range (image.rows - 1)).foldlM (scanRow connectivity isBg image) s

/-- 番号の画像と、背景を含めた番号の数。 -/
def connectedComponentsImpl (past : Table ℕ → ℕ → ℕ) (s : Scan) : Except Exception (Image ℕ × ℕ) := do
  let s ← scanImage connectivity isBg image s
  let labelsMap := s.labelTrees.getLabels
  pure (s.labels.modifyEach (labelsMap.read past), labelsMap.size)

/-- 走査の前の番号の画像と木。番号の画像には、メモリの内容 `buffer` が残っている。 -/
def initialScan (label : LabelType) (buffer : ℤ → ℕ) : Scan where
  labels := image.sameSize buffer
  labelTrees := EquivalenceLabelTrees.reset label image.rows image.columns connectivity

def connectedComponents (label : LabelType) (past : Table ℕ → ℕ → ℕ) (buffer : ℤ → ℕ) :
    Except Exception (Image ℕ × ℕ) :=
  if image.rows * image.columns = 0 then pure (Image.empty buffer, 0)
  else connectedComponentsImpl connectivity isBg image past (initialScan connectivity image label buffer)

end Phases

end Ranger.Denoise
