import Mathlib.Algebra.BigOperators.Group.List.Basic
import Mathlib.Data.Prod.Lex
import Ranger.Lib.Loop

/-!
# 隣どうしの入れ替えによる並べ替え

位置を一つ持ち、隣の要素と逆順であれば入れ替えて一つ戻り、そうでなければ一つ進む並べ替え。入れ替えるたびに位置の重みをつけた和が
増えるので、繰り返しは終わる。
-/

namespace Ranger.Lib

variable {α : Type*} (key : α → ℕ)

def swapStep (s : ℕ × List α) : ℕ × List α :=
  match s.2[s.1]?, s.2[s.1 + 1]? with
  | some a, some b =>
      if key b < key a then (s.1 - 1, (s.2.set s.1 b).set (s.1 + 1) a) else (s.1 + 1, s.2)
  | _, _ => s

noncomputable def adjacentSort (l : List α) : Option (List α) :=
  (whileLoop (fun s => s.1 < s.2.length - 1) (swapStep key) (0, l)).map Prod.snd

/-! ## 位置の重み -/

/-- 鍵に位置を掛けた和。 -/
def weight : List ℕ → ℕ
  | [] => 0
  | _ :: l => l.sum + weight l

variable {key}

theorem weight_le (l : List ℕ) : weight l ≤ l.length * l.sum := by
  induction l with
  | nil => exact Nat.le_refl 0
  | cons a l ih =>
      rw [weight, List.length_cons, List.sum_cons, Nat.succ_mul]
      have hmono : l.length * l.sum ≤ l.length * (a + l.sum) := Nat.mul_le_mul_left _ (Nat.le_add_left _ _)
      omega

theorem weight_swap_lt {a b : ℕ} (h : b < a) (pre post : List ℕ) :
    weight (pre ++ a :: b :: post) < weight (pre ++ b :: a :: post) := by
  induction pre with
  | nil =>
      simp only [List.nil_append, weight, List.sum_cons]
      omega
  | cons c pre ih =>
      have hsum : (pre ++ a :: b :: post).sum = (pre ++ b :: a :: post).sum := by
        simp only [List.sum_append, List.sum_cons]
        omega
      simp only [List.cons_append, weight, hsum]
      exact Nat.add_lt_add_left ih _

/-! ## 一歩 -/

theorem split_at {l : List α} {i : ℕ} (h : i < l.length - 1) :
    ∃ pre a b post, l = pre ++ a :: b :: post ∧ pre.length = i := by
  have hi : i < l.length := by omega
  have hnext : i + 1 < l.length := by omega
  refine ⟨l.take i, l[i], l[i + 1], l.drop (i + 2), ?_, List.length_take_of_le (by omega)⟩
  rw [List.getElem_cons_drop hnext, List.getElem_cons_drop hi, List.take_append_drop]

theorem swapStep_split (pre post : List α) (a b : α) :
    swapStep key (pre.length, pre ++ a :: b :: post) =
      if key b < key a then (pre.length - 1, pre ++ b :: a :: post)
      else (pre.length + 1, pre ++ a :: b :: post) := by
  have hfirst : (pre ++ a :: b :: post)[pre.length]? = some a := by simp
  have hsecond : (pre ++ a :: b :: post)[pre.length + 1]? = some b := by
    rw [List.getElem?_append_right (by omega), Nat.add_sub_cancel_left]
    rfl
  have hset : ((pre ++ a :: b :: post).set pre.length b).set (pre.length + 1) a = pre ++ b :: a :: post := by
    rw [List.set_append_right _ _ (Nat.le_refl _), Nat.sub_self, List.set_cons_zero,
      List.set_append_right _ _ (by omega : pre.length ≤ pre.length + 1), Nat.add_sub_cancel_left]
    rfl
  simp only [swapStep, hfirst, hsecond, hset]

/-! ## 不変条件 -/

/-- 要素は元の列の並べ替えで、位置までの部分は順に並ぶ。 -/
structure SortInv (key : α → ℕ) (l : List α) (s : ℕ × List α) : Prop where
  perm : s.2.Perm l
  ordered : (s.2.take (s.1 + 1)).Pairwise fun a b => key a ≤ key b

/-- 残りの重みと、残りの位置。 -/
def sortMeasure (key : α → ℕ) (s : ℕ × List α) : ℕ ×ₗ ℕ :=
  toLex ((s.2.map key).length * (s.2.map key).sum - weight (s.2.map key), s.2.length - s.1)

theorem swapStep_inv {l : List α} {s : ℕ × List α} (h : SortInv key l s) (hcond : s.1 < s.2.length - 1) :
    SortInv key l (swapStep key s) ∧ sortMeasure key (swapStep key s) < sortMeasure key s := by
  obtain ⟨i, cells⟩ := s
  obtain ⟨pre, a, b, post, rfl, rfl⟩ := split_at hcond
  obtain ⟨hperm, hordered⟩ := h
  have hprefix : (pre ++ [a]).Pairwise fun a b => key a ≤ key b := by
    have htake : (pre ++ a :: b :: post).take (pre.length + 1) = pre ++ [a] := by
      rw [List.take_append, List.take_of_length_le (by omega), Nat.add_sub_cancel_left]
      rfl
    rwa [htake] at hordered
  obtain ⟨hpre, -, hlast⟩ := List.pairwise_append.mp hprefix
  rw [swapStep_split]
  split_ifs with hswap
  · have hswapped : (pre ++ b :: a :: post).Perm (pre ++ a :: b :: post) :=
      List.Perm.append_left pre (List.Perm.swap a b post)
    refine ⟨⟨hswapped.trans hperm, ?_⟩, ?_⟩
    · cases pre with
      | nil => simp
      | cons c pre =>
          have htake : (c :: pre ++ b :: a :: post).take ((c :: pre).length - 1 + 1) = c :: pre := by
            rw [List.length_cons, Nat.add_sub_cancel, List.take_append, List.take_of_length_le (by simp),
              List.length_cons, Nat.sub_self, List.take_zero, List.append_nil]
          rw [htake]
          exact hpre
    · have hgrow := weight_swap_lt hswap (pre.map key) (post.map key)
      have hbound := weight_le ((pre ++ b :: a :: post).map key)
      have hsame := hswapped.map key
      have hless : ((pre ++ b :: a :: post).map key).length * ((pre ++ b :: a :: post).map key).sum -
          weight ((pre ++ b :: a :: post).map key) <
          ((pre ++ a :: b :: post).map key).length * ((pre ++ a :: b :: post).map key).sum -
            weight ((pre ++ a :: b :: post).map key) := by
        rw [hsame.length_eq, hsame.sum_eq] at hbound ⊢
        simp only [List.map_append, List.map_cons] at hbound ⊢
        omega
      exact Prod.Lex.toLex_lt_toLex.mpr (Or.inl hless)
  · have hle : key a ≤ key b := Nat.not_lt.mp hswap
    refine ⟨⟨hperm, ?_⟩, ?_⟩
    · have htake : (pre ++ a :: b :: post).take (pre.length + 1 + 1) = pre ++ [a, b] := by
        rw [List.take_append, List.take_of_length_le (by omega), Nat.add_assoc, Nat.add_sub_cancel_left]
        rfl
      rw [htake]
      apply List.pairwise_append.mpr
      refine ⟨hpre, by simpa using hle, fun x hx y hy => ?_⟩
      have hxa := hlast x hx a List.mem_cons_self
      rcases List.mem_pair.mp hy with rfl | rfl
      · exact hxa
      · exact hxa.trans hle
    · apply Prod.Lex.toLex_lt_toLex.mpr
      refine Or.inr ⟨rfl, ?_⟩
      dsimp only at hcond ⊢
      omega

/-- 並べ替えは終わり、鍵の順に並んだ並べ替えを返す。 -/
theorem adjacentSort_spec (key : α → ℕ) (l : List α) :
    ∃ out, adjacentSort key l = some out ∧ out.Perm l ∧ out.Pairwise fun a b => key a ≤ key b := by
  have hinit : SortInv key l (0, l) := by
    refine ⟨List.Perm.refl l, ?_⟩
    cases l <;> simp
  obtain ⟨⟨i, out⟩, hloop, ⟨hperm, hordered⟩, hdone⟩ : ∃ t,
      whileLoop (fun s : ℕ × List α => s.1 < s.2.length - 1) (swapStep key) (0, l) = some t ∧
        SortInv key l t ∧ ¬ t.1 < t.2.length - 1 :=
    whileLoop_of_wellFounded (InvImage.wf (sortMeasure key) wellFounded_lt)
      (fun s hs hcond => swapStep_inv hs hcond) hinit
  refine ⟨out, by rw [adjacentSort, hloop]; rfl, hperm, ?_⟩
  rwa [List.take_of_length_le (by dsimp only at hdone ⊢; omega)] at hordered

end Ranger.Lib
