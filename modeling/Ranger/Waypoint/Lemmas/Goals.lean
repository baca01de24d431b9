import Ranger.Waypoint.Lemmas.Task

/-!
# 送ったゴールの変化

サービスの動作は、ゴールを末尾に加えるほかに、ゴールを変えない。サーバの動作は、一つのゴールの段階と、処理した
経由点の数だけを変える。
-/

namespace Ranger.Waypoint

variable {Pose : Type}

theorem Sys.executing_iff {s : Sys Pose} {g} :
    s.Executing g ↔ ∃ goal, s.goals[g]? = some goal ∧ goal.phase = .accepted := by
  simp [Sys.Executing]

theorem getElem?_set_of_some {gs : List (Goal Pose)} {g h : Nat} {goal goal' : Goal Pose}
    (hg : gs[g]? = some goal) : (gs.set g goal')[h]? = if h = g then some goal' else gs[h]? := by
  have hlt : g < gs.length := (List.getElem?_eq_some_iff.mp hg).1
  rw [List.getElem?_set]
  by_cases he : g = h
  · subst he; simp [hlt]
  · rw [if_neg he, if_neg (Ne.symm he)]

/-! ## サービスの動作 -/

theorem Sys.perform_quiet {s : Sys Pose} {b} {o : Outcome Pose} (h : o.send = none) :
    (s.perform b o).goals = s.goals := by
  simp [Sys.perform, h]

theorem Sys.perform_sent {s : Sys Pose} {b ps} {o : Outcome Pose} (h : o.send = some ps) :
    (s.perform b o).goals =
      s.goals ++ [{ poses := ps, base := o.runner.baseStartIdx, byContinue := b }] := by
  simp [Sys.perform, h]

theorem Sys.perform_goal {s : Sys Pose} {b} {o : Outcome Pose} {h : Nat} {goal : Goal Pose}
    (hg : (s.perform b o).goals[h]? = some goal) :
    s.goals[h]? = some goal ∨
      ∃ ps, o.send = some ps ∧ h = s.goals.length ∧
        goal = { poses := ps, base := o.runner.baseStartIdx, byContinue := b } := by
  cases ho : o.send with
  | none =>
      rw [Sys.perform_quiet ho] at hg
      exact Or.inl hg
  | some ps =>
      rw [Sys.perform_sent ho] at hg
      by_cases hlt : h < s.goals.length
      · rw [List.getElem?_append_left hlt] at hg
        exact Or.inl hg
      · rw [List.getElem?_append_right (by omega), List.getElem?_singleton] at hg
        split at hg
        · cases hg
          exact Or.inr ⟨ps, rfl, by omega, rfl⟩
        · cases hg

theorem Sys.perform_goal_old {s : Sys Pose} {b} {o : Outcome Pose} {h : Nat} {goal : Goal Pose}
    (hg : s.goals[h]? = some goal) : (s.perform b o).goals[h]? = some goal := by
  have hlt : h < s.goals.length := (List.getElem?_eq_some_iff.mp hg).1
  cases ho : o.send with
  | none => rw [Sys.perform_quiet ho]; exact hg
  | some ps => rw [Sys.perform_sent ho, List.getElem?_append_left hlt]; exact hg

theorem Sys.Executing.perform {s : Sys Pose} {b g} {o : Outcome Pose} (h : s.Executing g) :
    (s.perform b o).Executing g := by
  obtain ⟨goal, hg, hp⟩ := Sys.executing_iff.mp h
  exact Sys.executing_iff.mpr ⟨goal, Sys.perform_goal_old hg, hp⟩

/-! ## サーバの動作 -/

theorem Sys.executing_set {s : Sys Pose} {r task g h} {goal goal' : Goal Pose}
    (hg : s.goals[g]? = some goal) :
    Sys.Executing ⟨r, task, s.goals.set g goal'⟩ h ↔
      if h = g then goal'.phase = .accepted else s.Executing h := by
  unfold Sys.Executing
  simp only [getElem?_set_of_some hg]
  split <;> simp

theorem Step.length_of_callback {s t : Sys Pose} {e : Event Pose} (h : Step s e t)
    (he : s.reply e = none) : t.goals.length = s.goals.length := by
  cases h with
  | serve ho => rw [ho] at he; cases he
  | accept _ _ => exact List.length_set
  | reject _ _ => exact List.length_set
  | progress _ _ => exact List.length_set
  | feedback _ _ => rfl
  | result _ _ => exact List.length_set

theorem Step.outstanding_of_callback {s t : Sys Pose} {e : Event Pose} (h : Step s e t)
    (he : s.reply e = none) {g : Nat} {goal' : Goal Pose} (hg : t.goals[g]? = some goal')
    (ho : goal'.Outstanding) : ∃ goal, s.goals[g]? = some goal ∧ goal.Outstanding := by
  -- 書き換わるのは事象のゴールだけで、それは前から未了である。
  have key : ∀ {k : Nat} {old new : Goal Pose}, s.goals[k]? = some old → old.Outstanding →
      (s.goals.set k new)[g]? = some goal' → ∃ goal, s.goals[g]? = some goal ∧ goal.Outstanding := by
    intro k old new hk hold hset
    rw [getElem?_set_of_some hk] at hset
    split at hset
    · rename_i heq
      subst heq
      exact ⟨old, hk, hold⟩
    · exact ⟨goal', hset, ho⟩
  cases h with
  | serve hr => rw [hr] at he; cases he
  | accept hk hp => exact key hk (Or.inl hp) hg
  | reject hk hp => exact key hk (Or.inl hp) hg
  | progress hk hp => exact key hk (Or.inr hp) hg
  | feedback _ _ => exact ⟨goal', hg, ho⟩
  | result hk hp => exact key hk (Or.inr hp) hg

/-- ゴールの経由点と始まりは変わらず、処理した経由点の数は減らない。 -/
theorem Step.goal_grows {s t : Sys Pose} {e : Event Pose} (h : Step s e t) {g : Nat} {goal : Goal Pose}
    (hg : s.goals[g]? = some goal) :
    ∃ goal', t.goals[g]? = some goal' ∧ goal'.poses = goal.poses ∧ goal'.base = goal.base ∧
      goal.processed ≤ goal'.processed := by
  have key : ∀ {k : Nat} {old new : Goal Pose}, s.goals[k]? = some old → new.poses = old.poses →
      new.base = old.base → old.processed ≤ new.processed →
      ∃ goal', (s.goals.set k new)[g]? = some goal' ∧ goal'.poses = goal.poses ∧
        goal'.base = goal.base ∧ goal.processed ≤ goal'.processed := by
    intro k old new hk hposes hbase hproc
    rw [getElem?_set_of_some hk]
    split
    · rename_i heq
      subst heq
      rw [hg] at hk; cases hk
      exact ⟨new, rfl, hposes, hbase, hproc⟩
    · exact ⟨goal, hg, rfl, rfl, Nat.le_refl _⟩
  cases h with
  | serve _ => exact ⟨goal, Sys.perform_goal_old hg, rfl, rfl, Nat.le_refl _⟩
  | accept hk _ => exact key hk rfl rfl (Nat.le_refl _)
  | reject hk _ => exact key hk rfl rfl (Nat.le_refl _)
  | progress hk _ => exact key hk rfl rfl (Nat.le_succ _)
  | feedback _ _ => exact ⟨goal, hg, rfl, rfl, Nat.le_refl _⟩
  | result hk _ => exact key hk rfl rfl (Nat.le_refl _)

end Ranger.Waypoint
