import Mathlib.Logic.Function.Basic

/-!
# 型つきの記憶

C の共用体のように、一つの領域を、種類の異なる値の並びとして書き、また読む記憶を定める。値は、先頭の位置と種類で
指す。同じ位置に同じ種類で書いた値は、どの名前を通しても読める。書いた種類と異なる種類で読んだときの値は定めず、
既定値とする。
-/

namespace Ranger.Lib

variable {τ : Type} {V : τ → Type}

structure Cells (V : τ → Type) where
  cell : Nat → Σ t, V t

structure Field (t : τ) where
  offset : Nat

def Cells.write {t : τ} (m : Cells V) (f : Field t) (v : V t) : Cells V :=
  ⟨Function.update m.cell f.offset ⟨t, v⟩⟩

variable [DecidableEq τ] [∀ t, Inhabited (V t)]

def valueAs (t : τ) (c : Σ t, V t) : V t := if h : c.1 = t then h ▸ c.2 else default

def Cells.read {t : τ} (m : Cells V) (f : Field t) : V t := valueAs t (m.cell f.offset)

theorem Cells.read_write {t : τ} (m : Cells V) {f g : Field t} (v : V t) (h : f.offset = g.offset) :
    (m.write f v).read g = v := by
  simp only [Cells.read, Cells.write, ← h, Function.update_self]
  simp [valueAs]

theorem Cells.read_write_ne {t u : τ} (m : Cells V) {f : Field t} {g : Field u} (v : V t)
    (h : f.offset ≠ g.offset) : (m.write f v).read g = m.read g := by
  simp only [Cells.read, Cells.write, Function.update_of_ne (Ne.symm h)]

end Ranger.Lib
