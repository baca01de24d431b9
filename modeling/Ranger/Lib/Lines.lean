import Mathlib.Data.List.Basic

/-!
# 区切り文字による分割

`std::getline` の一回の呼び出しと、それを繰り返して得られる行の並びを定める。最後の行は、区切り文字で終わらなくてもよい。
-/

namespace Ranger.Lib

variable {α : Type*} [DecidableEq α] {delim : α} {line rest : List α}

/-- `std::getline(is, line, delim)`。読む文字がないとき `none`、そうでないとき、行と残りである。 -/
def getline (delim : α) : List α → Option (List α × List α)
  | [] => none
  | c :: cs =>
      if c = delim then some ([], cs)
      else
        match getline delim cs with
        | none => some ([c], [])
        | some (line, rest) => some (c :: line, rest)

/-- `getline` が失敗するまでの行の並び。 -/
def getlines (delim : α) : List α → List (List α)
  | [] => []
  | c :: cs =>
      if c = delim then [] :: getlines delim cs
      else
        match getlines delim cs with
        | [] => [[c]]
        | line :: lines => (c :: line) :: lines

theorem getlines_eq (cs : List α) :
    getlines delim cs =
      match getline delim cs with
      | none => []
      | some (line, rest) => line :: getlines delim rest := by
  induction cs with
  | nil => rfl
  | cons c cs ih =>
      unfold getline
      by_cases h : c = delim
      · simp only [getlines, if_pos h]
      · rw [getlines, if_neg h, if_neg h, ih]
        cases getline delim cs with
        | none => rfl
        | some r => rfl

theorem getline_line (h : delim ∉ line) : getline delim (line ++ delim :: rest) = some (line, rest) := by
  induction line with
  | nil => simp [getline]
  | cons c line ih =>
      rw [List.mem_cons, not_or] at h
      rw [List.cons_append, getline, if_neg (Ne.symm h.1), ih h.2]

theorem getline_last (h : delim ∉ line) (hne : line ≠ []) : getline delim line = some (line, []) := by
  induction line with
  | nil => exact absurd rfl hne
  | cons c line ih =>
      rw [List.mem_cons, not_or] at h
      rw [getline, if_neg (Ne.symm h.1)]
      cases line with
      | nil => rfl
      | cons d line => rw [ih h.2 (List.cons_ne_nil d line)]

theorem getlines_line (h : delim ∉ line) :
    getlines delim (line ++ delim :: rest) = line :: getlines delim rest := by
  rw [getlines_eq, getline_line h]

theorem getlines_ne_nil (c : α) (cs : List α) : getlines delim (c :: cs) ≠ [] := by
  rw [getlines]
  split_ifs
  · exact List.cons_ne_nil _ _
  · cases getlines delim cs <;> exact List.cons_ne_nil _ _

/-- 区切り文字で終わる並びに続けると、行の並びも続く。 -/
theorem getlines_append {cs : List α} (h : cs = [] ∨ cs.getLast? = some delim) (more : List α) :
    getlines delim (cs ++ more) = getlines delim cs ++ getlines delim more := by
  induction cs with
  | nil => rfl
  | cons c cs ih =>
      have hlast : (c :: cs).getLast? = some delim := h.resolve_left (List.cons_ne_nil c cs)
      cases cs with
      | nil =>
          obtain rfl : c = delim := by simpa using hlast
          simp [getlines]
      | cons d cs =>
          rw [List.getLast?_cons_cons] at hlast
          have hrest := ih (Or.inr hlast)
          rw [List.cons_append, getlines, getlines, hrest]
          split_ifs with hc
          · rfl
          · -- 空でない並びには、少なくとも一つの行がある。
            obtain ⟨line, lines, hlines⟩ := List.exists_cons_of_ne_nil (@getlines_ne_nil _ _ delim d cs)
            rw [hlines]
            rfl

end Ranger.Lib
