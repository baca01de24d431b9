import Mathlib.Algebra.Group.Nat.Defs
import Mathlib.Data.Int.Basic
import Mathlib.Logic.Function.Basic

/-!
# 画像と走査の窓

`nav2_costmap_2d` の `denoise/image.hpp` の画像と、`denoise/image_processing.hpp` の前方走査の窓。画素の位置は、最初の画素からの番地で表す。
-/

namespace Ranger.Denoise

inductive ConnectivityType
  | way4
  | way8
deriving DecidableEq, Repr

inductive Exception
  | labelOverflow (message : String)
  | logicError (message : String)
deriving DecidableEq, Repr

/-- `data` は `data_start_` からの番地にある値で、行は重ならず、画素の全体はメモリに収まる。 -/
structure Image (α : Type) where
  rows : ℕ
  columns : ℕ
  step : ℕ
  data : ℤ → α
  columns_le_step : columns ≤ step
  fits : rows * columns < 2 ^ 63

namespace Image

variable {α β : Type}

/-- 行 `r` の最初の画素の番地。 -/
def row (image : Image α) (r : ℕ) : ℤ := r * image.step

def pixel (image : Image α) (r c : ℕ) : α := image.data (image.row r + c)

def isEmpty (image : Image α) : Bool := image.rows == 0 || image.columns == 0

def set (image : Image α) (v : ℤ) (x : α) : Image α := { image with data := Function.update image.data v x }

theorem columns_le_columns (image : Image α) : image.columns ≤ image.columns := Nat.le_refl _

/-- `image` と同じ大きさで、行が続けて置かれた画像。 -/
def sameSize (image : Image α) (data : ℤ → β) : Image β where
  rows := image.rows
  columns := image.columns
  step := image.columns
  data := data
  columns_le_step := image.columns_le_columns
  fits := image.fits

theorem zero_le_step : 0 ≤ 0 := Nat.le_refl 0

theorem zero_fits : 0 * 0 < 2 ^ 63 := by decide

def empty (data : ℤ → α) : Image α where
  rows := 0
  columns := 0
  step := 0
  data := data
  columns_le_step := zero_le_step
  fits := zero_fits

/-- 行ごとに左から右へ、どの画素にも `visit` を行う。 -/
def scanPixels (rows columns : ℕ) (visit : β → ℕ → ℕ → β) (b : β) : β :=
  (List.range rows).foldl (fun b r => (List.range columns).foldl (fun b c => visit b r c) b) b

def forEach (image : Image α) (fn : β → α → β) (b : β) : β :=
  scanPixels image.rows image.columns (fun b r c => fn b (image.pixel r c)) b

/-- 値を書き換える `forEach`。 -/
def modifyEach (image : Image α) (fn : α → α) : Image α :=
  scanPixels image.rows image.columns (fun image r c => image.set (image.row r + c) (fn (image.pixel r c))) image

/-- 大きさの同じ `target` の画素を、対応する画素の値で書き換える。 -/
def convert (image : Image α) (target : Image β) (converter : α → β → β) : Except Exception (Image β) :=
  if image.rows ≠ target.rows ∨ image.columns ≠ target.columns then
    throw (.logicError "Image::convert. The source and target images size are different")
  else
    pure (scanPixels image.rows image.columns
      (fun target r c => target.set (target.row r + c) (converter (image.pixel r c) (target.pixel r c))) target)

end Image

/-! ## 走査の窓 -/

/-- 範囲の外の画素の扱い。`doNothing` は確かめずに読み、`replaceToZero` は `0` とする。上の行がないとき `upRowStart` は `none` である。 -/
inductive Border
  | doNothing
  | replaceToZero (upRowStart : Option ℤ) (downRowStart : ℤ) (columns : ℕ)

namespace Border

variable {α : Type} [OfNat α 0]

def replaceOutOfBounds (memory : ℤ → α) (start : ℤ) (columns : ℕ) (v : ℤ) : α :=
  if v < start ∨ start + columns ≤ v then 0 else memory v

def up (memory : ℤ → α) : Border → ℤ → α
  | doNothing, v => memory v
  | replaceToZero none _ _, _ => 0
  | replaceToZero (some start) _ columns, v => replaceOutOfBounds memory start columns v

def down (memory : ℤ → α) : Border → ℤ → α
  | doNothing, v => memory v
  | replaceToZero _ start columns, v => replaceOutOfBounds memory start columns v

end Border

/-- 画素 `e` とその上の三つ `a`、`b`、`c`、左の `d` を見る窓。 -/
structure Window (α : Type) where
  memory : ℤ → α
  upRow : ℤ
  downRow : ℤ
  border : Border

namespace Window

variable {α : Type} [OfNat α 0]

def a (w : Window α) : α := w.border.up w.memory (w.upRow - 1)

def b (w : Window α) : α := w.border.up w.memory w.upRow

def c (w : Window α) : α := w.border.up w.memory (w.upRow + 1)

def d (w : Window α) : α := w.border.down w.memory (w.downRow - 1)

omit [OfNat α 0] in
def e (w : Window α) : α := w.memory w.downRow

end Window

def makeSafeWindow {α : Type} (memory : ℤ → α) (upRow : Option ℤ) (downRow : ℤ) (columns offset : ℕ) : Window α where
  memory := memory
  upRow := upRow.getD 0 + offset
  downRow := downRow + offset
  border := .replaceToZero upRow downRow columns

def makeUnsafeWindow {α : Type} (memory : ℤ → α) (upRow downRow : ℤ) : Window α where
  memory := memory
  upRow := upRow
  downRow := downRow
  border := .doNothing

end Ranger.Denoise
