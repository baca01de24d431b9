import Ranger.Nav.HardReset

/-!
# 活動中の系とボンド

`system_active_` が真のあいだ、管理されるノードが全て活動中で、成立したボンドを持つことを、要求とタイマーのどの列についても
調べる。成立しなかったボンドは `bond_map_` に残り、次の起動や再開は、それを作り直さない。
-/

namespace Ranger.Nav
open Ranger.Lib

variable {Name : Type} [DecidableEq Name] {p : ManagerParams Name}

namespace Manager

/-! ## 一つのノードの遷移 -/

@[simp] theorem systemActive_afterTransition (m : Manager Name) (name : Name) (transition : Transition)
    (formed : Bool) : (afterTransition p m name transition formed).2.systemActive = m.systemActive := by
  obtain ⟨bondMap, h⟩ := afterTransition_manager (p := p) m name transition formed
  rw [h]

theorem systemActive_changeStateForNode (m : Manager Name) (name : Name) (transition : Transition)
    (attempt : Attempt) :
    (changeStateForNode p m name transition attempt).2.systemActive = m.systemActive := by
  obtain ⟨state, -, ⟨r, -, heq⟩ | ⟨-, heq⟩⟩ := changeStateForNode_cases p m name transition attempt
  · rw [heq]
    rfl
  · rw [heq, systemActive_afterTransition]
    rfl

/-- 成功した試みは、始まりか目標の状態のノードを、目標の状態にする。 -/
theorem changeStateForNode_true {m : Manager Name} {name : Name} {transition : Transition} {attempt : Attempt}
    (h : (changeStateForNode p m name transition attempt).1 = some true) :
    (changeStateForNode p m name transition attempt).2.nodes name = transition.target ∧
      (m.nodes name = transition.source ∨ m.nodes name = transition.target) := by
  obtain ⟨state, hstate, ⟨r, hr, heq⟩ | ⟨htarget, heq⟩⟩ := changeStateForNode_cases p m name transition attempt
  · rw [heq] at h
    exact absurd h hr
  · rw [heq, nodes_afterTransition]
    refine ⟨by simp [setNode, htarget], ?_⟩
    rcases hstate with hsame | hsource
    · exact Or.inr (hsame.symm.trans htarget)
    · exact Or.inl hsource

/-- 遷移の始まりの状態にないノードは、変わらない。 -/
theorem nodes_changeStateForNode_of_ne_source (m : Manager Name) (name : Name) {transition : Transition}
    (attempt : Attempt) {n : Name} (hn : m.nodes n ≠ transition.source) :
    (changeStateForNode p m name transition attempt).2.nodes n = m.nodes n := by
  by_cases hne : n = name
  · subst hne
    obtain ⟨state, hstate, ⟨r, -, heq⟩ | ⟨-, heq⟩⟩ := changeStateForNode_cases p m n transition attempt
    · rw [heq]
      simpa [setNode] using hstate.resolve_right hn
    · rw [heq, nodes_afterTransition]
      simpa [setNode] using hstate.resolve_right hn
  · exact nodes_changeStateForNode_of_ne m hne transition attempt

theorem bondMap_configure (m : Manager Name) (name : Name) (attempt : Attempt) :
    (changeStateForNode p m name .configure attempt).2.bondMap = m.bondMap := by
  obtain ⟨state, -, ⟨r, -, heq⟩ | ⟨-, heq⟩⟩ := changeStateForNode_cases p m name .configure attempt
  · rw [heq]
    rfl
  · rw [heq]
    rfl

/-- 活動の遷移は、あるボンドを変えない。 -/
theorem bondMap_activate_keep (m : Manager Name) (name : Name) (attempt : Attempt) {n : Name} {formed : Bool}
    (hn : m.bondMap n = some formed) :
    (changeStateForNode p m name .activate attempt).2.bondMap n = some formed := by
  obtain ⟨state, -, ⟨r, -, heq⟩ | ⟨-, heq⟩⟩ := changeStateForNode_cases p m name .activate attempt
  · rw [heq]
    exact hn
  · rw [heq]
    simp only [afterTransition, createBondConnection]
    split
    · rename_i hcond
      have hne : n ≠ name := by
        rintro rfl
        rw [setNode, hn] at hcond
        cases hcond.1
      simpa [setNode, hne] using hn
    · exact hn

/-- 活動の遷移が成功したとき、そのノードのボンドは、前からあったものか、成立したものである。 -/
theorem bondMap_activate_true (hp : p.bondTimeout > 0) {m : Manager Name} {name : Name} {attempt : Attempt}
    (h : (changeStateForNode p m name .activate attempt).1 = some true) {n : Name}
    (hn : m.bondMap n ≠ some false) :
    (changeStateForNode p m name .activate attempt).2.bondMap n ≠ some false ∧
      (n = name → (changeStateForNode p m name .activate attempt).2.bondMap n = some true) := by
  obtain ⟨state, -, ⟨r, hr, heq⟩ | ⟨-, heq⟩⟩ := changeStateForNode_cases p m name .activate attempt
  · rw [heq] at h
    exact absurd h hr
  · rw [heq] at h ⊢
    by_cases hnone : m.bondMap name = none
    · have hcond : (m.setNode name state).bondMap name = none ∧ p.bondTimeout > 0 := ⟨hnone, hp⟩
      simp only [afterTransition, createBondConnection, if_pos hcond] at h ⊢
      have hformed : attempt.formed = true := by simpa using h
      by_cases hne : n = name
      · subst hne
        simp [hformed]
      · simp only [Function.update_of_ne hne]
        exact ⟨hn, fun hname => absurd hname hne⟩
    · have hcond : ¬ ((m.setNode name state).bondMap name = none ∧ p.bondTimeout > 0) := by
        rintro ⟨hnone', -⟩
        exact hnone hnone'
      simp only [afterTransition, createBondConnection, if_neg hcond]
      change m.bondMap n ≠ some false ∧ (n = name → m.bondMap n = some true)
      refine ⟨hn, ?_⟩
      rintro rfl
      cases hb : m.bondMap n with
      | none => exact absurd hb hnone
      | some formed =>
          cases formed with
          | true => rfl
          | false => exact absurd hb hn

/-! ## 全てのノードの遷移 -/

section Nodes

variable {transition : Transition} {hard : Bool} {attempts : ℕ → Name → Attempt}

/-- 一つのノードの遷移が保つ性質は、全てのノードの遷移が保つ。 -/
theorem changeStateForNodes_inv {P : Manager Name → Prop}
    (hP : ∀ m name attempt, P m → P (changeStateForNode p m name transition attempt).2) (i : ℕ)
    (names : List Name) {m : Manager Name} (h : P m) :
    P (changeStateForNodes p transition hard attempts i names m).2 := by
  induction names generalizing i m with
  | nil => exact h
  | cons name rest ih =>
      have hnext := hP m name (attempts i name) h
      rw [changeStateForNodes]
      split
      · rename_i m' heq
        rw [heq] at hnext
        exact hnext
      · rename_i ok m' heq
        rw [heq] at hnext
        split
        · exact hnext
        · exact ih (i + 1) hnext

theorem changeStateForNodes_systemActive (i : ℕ) (names : List Name) (m : Manager Name) :
    (changeStateForNodes p transition hard attempts i names m).2.systemActive = m.systemActive :=
  changeStateForNodes_inv (P := fun m' => m'.systemActive = m.systemActive)
    (fun m' name attempt h => (systemActive_changeStateForNode m' name transition attempt).trans h) i names rfl

theorem changeStateForNodes_nodes_of_ne_source (i : ℕ) (names : List Name) {m : Manager Name} {n : Name}
    (hn : m.nodes n ≠ transition.source) :
    (changeStateForNodes p transition hard attempts i names m).2.nodes n = m.nodes n :=
  changeStateForNodes_inv (P := fun m' => m'.nodes n = m.nodes n)
    (fun m' name attempt h =>
      (nodes_changeStateForNode_of_ne_source m' name attempt (by rwa [h])).trans h) i names rfl

/-- 途中で打ち切らない遷移が成功したときの、先頭のノードと残り。 -/
theorem changeStateForNodes_cons_true {i : ℕ} {name : Name} {rest : List Name} {m : Manager Name}
    (h : (changeStateForNodes p transition false attempts i (name :: rest) m).1 = true) :
    (changeStateForNode p m name transition (attempts i name)).1 = some true ∧
      changeStateForNodes p transition false attempts i (name :: rest) m =
        changeStateForNodes p transition false attempts (i + 1) rest
          (changeStateForNode p m name transition (attempts i name)).2 := by
  rw [changeStateForNodes] at h ⊢
  split at h
  · cases h
  · rename_i ok m' heq
    rw [heq]
    cases ok with
    | false => cases h
    | true => exact ⟨rfl, rfl⟩

/-- 全てのノードの遷移が成功したとき、どのノードも初めは、始まりか目標の状態にあった。 -/
theorem changeStateForNodes_true_source {i : ℕ} {names : List Name} {m : Manager Name}
    (h : (changeStateForNodes p transition false attempts i names m).1 = true) {n : Name} (hn : n ∈ names) :
    m.nodes n = transition.source ∨ m.nodes n = transition.target := by
  induction names generalizing i m with
  | nil => cases hn
  | cons name rest ih =>
      obtain ⟨hhead, heq⟩ := changeStateForNodes_cons_true h
      rw [heq] at h
      by_cases hname : n = name
      · subst hname
        exact (changeStateForNode_true hhead).2
      · have hrest := ih h ((List.mem_cons.mp hn).resolve_left hname)
        rwa [nodes_changeStateForNode_of_ne m hname] at hrest

theorem changeStateForNodes_configure_bondMap (i : ℕ) (names : List Name) (m : Manager Name) :
    (changeStateForNodes p .configure hard attempts i names m).2.bondMap = m.bondMap :=
  changeStateForNodes_inv (P := fun m' => m'.bondMap = m.bondMap)
    (fun m' name attempt h => (bondMap_configure m' name attempt).trans h) i names rfl

theorem changeStateForNodes_activate_keep (i : ℕ) (names : List Name) {m : Manager Name} {n : Name}
    {formed : Bool} (hn : m.bondMap n = some formed) :
    (changeStateForNodes p .activate hard attempts i names m).2.bondMap n = some formed :=
  changeStateForNodes_inv (P := fun m' => m'.bondMap n = some formed)
    (fun m' name attempt h => bondMap_activate_keep m' name attempt h) i names hn

/-- 全てのノードの遷移が成功したとき、どのノードも目標の状態にある。 -/
theorem changeStateForNodes_true_target {transition : Transition} {attempts : ℕ → Name → Attempt} {i : ℕ}
    {names : List Name} {m : Manager Name} (hne : transition.target ≠ transition.source)
    (h : (changeStateForNodes p transition false attempts i names m).1 = true) {n : Name} (hn : n ∈ names) :
    (changeStateForNodes p transition false attempts i names m).2.nodes n = transition.target := by
  induction names generalizing i m with
  | nil => cases hn
  | cons name rest ih =>
      obtain ⟨hhead, heq⟩ := changeStateForNodes_cons_true h
      rw [heq] at h ⊢
      by_cases hname : n = name
      · subst hname
        have htarget := (changeStateForNode_true hhead).1
        rw [changeStateForNodes_nodes_of_ne_source _ _ (by rw [htarget]; exact hne), htarget]
      · exact ih h ((List.mem_cons.mp hn).resolve_left hname)

theorem changeStateForNodes_activate_bond (hp : p.bondTimeout > 0) {i : ℕ} {names : List Name}
    {m : Manager Name} (h : (changeStateForNodes p .activate false attempts i names m).1 = true) {n : Name}
    (hn : n ∈ names) (hbond : m.bondMap n ≠ some false) :
    (changeStateForNodes p .activate false attempts i names m).2.bondMap n = some true := by
  induction names generalizing i m with
  | nil => cases hn
  | cons name rest ih =>
      obtain ⟨hhead, heq⟩ := changeStateForNodes_cons_true h
      rw [heq] at h ⊢
      have hformed := bondMap_activate_true hp hhead hbond
      by_cases hname : n = name
      · exact changeStateForNodes_activate_keep _ _ (hformed.2 hname)
      · exact ih h ((List.mem_cons.mp hn).resolve_left hname) hformed.1

/-- 全てのノードの活動が成功し、成立していないボンドがなかったとき、どのノードも活動中で、成立したボンドを持つ。 -/
theorem changeStateForNodes_activate_true (hp : p.bondTimeout > 0) {i : ℕ} {names : List Name}
    {m : Manager Name} (h : (changeStateForNodes p .activate false attempts i names m).1 = true) {n : Name}
    (hn : n ∈ names) :
    (changeStateForNodes p .activate false attempts i names m).2.nodes n = .active ∧
      (m.bondMap n ≠ some false →
        (changeStateForNodes p .activate false attempts i names m).2.bondMap n = some true) :=
  ⟨changeStateForNodes_true_target (by decide) h hn, changeStateForNodes_activate_bond hp h hn⟩

end Nodes

/-! ## 要求とタイマー -/

/-- `system_active_` が真のとき、どのノードも活動中で、成立したボンドを持つ。 -/
def Healthy (p : ManagerParams Name) (m : Manager Name) : Prop :=
  m.systemActive = true → ∀ n ∈ p.nodeNames, m.nodes n = .active ∧ m.bondMap n = some true

/-- 成立しなかったボンドが残っている。 -/
def Unformed (p : ManagerParams Name) (m : Manager Name) : Prop := ∃ n ∈ p.nodeNames, m.bondMap n = some false

/-- 起動は、どのノードも未設定か不活動のときにだけ成功しうる。 -/
def StartupSafe (p : ManagerParams Name) (m : Manager Name) : Prop :=
  ¬ Unformed p m ∨ ∃ n ∈ p.nodeNames, m.nodes n = .active ∨ m.nodes n = .finalized

/-- 再開は、どのノードも不活動か活動中のときにだけ成功しうる。 -/
def ResumeSafe (p : ManagerParams Name) (m : Manager Name) : Prop :=
  ¬ Unformed p m ∨ ∃ n ∈ p.nodeNames, m.nodes n = .unconfigured ∨ m.nodes n = .finalized

omit [DecidableEq Name] in
theorem healthy_of_inactive {m : Manager Name} (h : m.systemActive = false) : Healthy p m := by
  intro hactive
  rw [h] at hactive
  cases hactive

omit [DecidableEq Name] in
theorem not_unformed_iff {m : Manager Name} : ¬ Unformed p m ↔ ∀ n ∈ p.nodeNames, m.bondMap n ≠ some false := by
  simp [Unformed]

theorem resume_healthy (hp : p.bondTimeout > 0) {m : Manager Name} (h : Healthy p m) (hsafe : ResumeSafe p m)
    (oracle : Oracle Name) : Healthy p (m.resume p oracle) := by
  have hsystem : (changeStateForAllNodes p m .activate false oracle).2.systemActive = m.systemActive :=
    changeStateForNodes_systemActive _ _ _
  rw [resume]
  dsimp only
  cases hok : (changeStateForAllNodes p m .activate false oracle).1 with
  | false =>
      rw [Bool.not_false, if_pos rfl]
      -- 失敗しても、活動中のノードと、あるボンドは変わらない。
      intro hactive n hn
      rw [hsystem] at hactive
      obtain ⟨hnode, hbond⟩ := h hactive n hn
      refine ⟨?_, changeStateForNodes_activate_keep _ _ hbond⟩
      exact (changeStateForNodes_nodes_of_ne_source _ _ (by rw [hnode]; decide)).trans hnode
  | true =>
      rw [if_neg (by simp)]
      have hunformed : ¬ Unformed p m := by
        rcases hsafe with hnone | ⟨n, hn, hstate⟩
        · exact hnone
        · rcases changeStateForNodes_true_source hok hn with heq | heq <;> rw [heq] at hstate <;>
            simp [Transition.source, Transition.target] at hstate
      intro _ n hn
      obtain ⟨hnode, hbond⟩ := changeStateForNodes_activate_true hp hok hn
      exact ⟨hnode, hbond (not_unformed_iff.mp hunformed n hn)⟩

theorem startup_healthy (hp : p.bondTimeout > 0) {m : Manager Name} (h : Healthy p m) (hsafe : StartupSafe p m)
    (oracle : Oracle Name) : Healthy p (m.startup p oracle) := by
  have hsystem : (changeStateForAllNodes p m .configure false oracle).2.systemActive = m.systemActive :=
    changeStateForNodes_systemActive _ _ _
  have hbonds : (changeStateForAllNodes p m .configure false oracle).2.bondMap = m.bondMap :=
    changeStateForNodes_configure_bondMap _ _ _
  rw [startup]
  dsimp only
  cases hconfigured : (changeStateForAllNodes p m .configure false oracle).1 with
  | false =>
      rw [Bool.not_false, if_pos rfl]
      intro hactive n hn
      rw [hsystem] at hactive
      obtain ⟨hnode, hbond⟩ := h hactive n hn
      refine ⟨?_, by rw [hbonds, hbond]⟩
      exact (changeStateForNodes_nodes_of_ne_source _ _ (by rw [hnode]; decide)).trans hnode
  | true =>
      rw [if_neg (by simp)]
      -- どのノードも活動中でなかったので、設定の後は再開と同じである。
      have hstates : ∀ n ∈ p.nodeNames, m.nodes n ≠ .active ∧ m.nodes n ≠ .finalized := by
        intro n hn
        rcases changeStateForNodes_true_source hconfigured hn with heq | heq <;> rw [heq] <;> decide
      have hunformed : ¬ Unformed p m := by
        rcases hsafe with hnone | ⟨n, hn, hstate⟩
        · exact hnone
        · exact absurd hstate (by simp [hstates n hn])
      apply resume_healthy hp _ (Or.inl _)
      · intro hactive n hn
        rw [hsystem] at hactive
        exact absurd (h hactive n hn).1 (hstates n hn).1
      · rw [not_unformed_iff] at hunformed ⊢
        rwa [hbonds]

theorem pause_systemActive (m : Manager Name) (oracle : Oracle Name) : (m.pause p oracle).systemActive = false :=
  changeStateForNodes_systemActive _ _ _

theorem reset_systemActive (m : Manager Name) (hard : Bool) (oracle : Oracle Name) :
    (m.reset p hard oracle).systemActive = false := by
  have hdeactivate : (changeStateForAllNodes p (deactivated m) .deactivate hard oracle).2.systemActive = false :=
    changeStateForNodes_systemActive _ _ _
  rw [reset]
  dsimp only
  split
  · exact hdeactivate
  · exact (changeStateForNodes_systemActive _ _ _).trans hdeactivate

theorem shutdown_systemActive (m : Manager Name) (oracle : Oracle Name) :
    (m.shutdown p oracle).systemActive = false := by
  rw [shutdown]
  dsimp only [changeStateForAllNodes]
  rw [changeStateForNodes_systemActive, changeStateForNodes_systemActive, changeStateForNodes_systemActive]
  rfl

theorem checkBonds_healthy {broken : Name → Bool} {oracle : Oracle Name} {names : List Name} {m t : Manager Name}
    (h : Healthy p m) (hcheck : checkBonds p broken oracle names m = some t) : Healthy p t := by
  induction names with
  | nil =>
      cases hcheck
      exact h
  | cons name rest ih =>
      rw [checkBonds] at hcheck
      split at hcheck
      · cases hcheck
      · split at hcheck
        · cases hcheck
          exact healthy_of_inactive (reset_systemActive m true oracle)
        · exact ih hcheck

/-- どのノードもボンドを持つとき、`checkBondConnections` はないボンドを参照しない。 -/
theorem checkBonds_ne_none {broken : Name → Bool} {oracle : Oracle Name} {names : List Name} {m : Manager Name}
    (h : ∀ n ∈ names, m.bondMap n = some true) : checkBonds p broken oracle names m ≠ none := by
  induction names with
  | nil => simp [checkBonds]
  | cons name rest ih =>
      rw [checkBonds, h name List.mem_cons_self]
      dsimp only
      split
      · simp
      · exact ih fun n hn => h n (List.mem_cons_of_mem name hn)

theorem Healthy.checkBondConnections_ne_none {m : Manager Name} (h : Healthy p m) (broken : Name → Bool)
    (oracle : Oracle Name) : m.checkBondConnections p broken oracle ≠ none := by
  rw [checkBondConnections]
  split
  · simp
  · rename_i hcond
    have hactive : m.systemActive = true := by
      by_contra hinactive
      simp [hinactive] at hcond
    exact checkBonds_ne_none fun n hn => (h hactive n hn).2

/-- 成立しなかったボンドが残っているあいだに、成功しうる起動と再開を行わない。 -/
def Guarded (p : ManagerParams Name) (m : Manager Name) : Event Name → Manager Name → Prop
  | .startup _, _ => StartupSafe p m
  | .resume _, _ => ResumeSafe p m
  | .bondRespawnTimer alive _ _, _ =>
      m.systemActive = true ∨ p.nodeNames.all alive = false ∨ StartupSafe p m
  | .pause _, _ | .reset _, _ | .shutdown _, _ | .bondTimer _ _, _ => True

theorem step_healthy (hp : p.bondTimeout > 0) {m t : Manager Name} {e : Event Name} (h : Healthy p m)
    (hstep : m.step p e = some t) (hguard : Guarded p m e t) : Healthy p t := by
  unfold step at hstep
  split at hstep
  · cases hstep
  · cases e with
    | startup oracle =>
        cases hstep
        exact startup_healthy hp h hguard oracle
    | resume oracle =>
        cases hstep
        exact resume_healthy hp h hguard oracle
    | pause oracle =>
        cases hstep
        exact healthy_of_inactive (pause_systemActive m oracle)
    | reset oracle =>
        cases hstep
        exact healthy_of_inactive (reset_systemActive m false oracle)
    | shutdown oracle =>
        cases hstep
        exact healthy_of_inactive (shutdown_systemActive m oracle)
    | bondTimer broken oracle =>
        simp only at hstep
        split at hstep
        · rw [checkBondConnections] at hstep
          split at hstep
          · cases hstep
            exact h
          · exact checkBonds_healthy h hstep
        · cases hstep
    | bondRespawnTimer alive expired oracle =>
        simp only at hstep
        split at hstep
        · cases hstep
          rw [checkBondRespawnConnection]
          split
          · exact h
          · rename_i hcond
            split
            · rename_i halive
              have hsafe : StartupSafe p m := by
                rcases hguard with hactive | hdead | hsafe
                · exact absurd (by simp [hactive]) hcond
                · rw [halive] at hdead
                  cases hdead
                · exact hsafe
              exact startup_healthy (m := { m with bondRespawnTimer := false }) hp h hsafe oracle
            · split <;> exact h
        · cases hstep

/-! ## 残ったボンド -/

/-- どの呼び出しも遷移もボンドも成功する試み。 -/
def smooth : Oracle Name := fun _ _ _ => ⟨.sent .success true, true, true⟩

theorem changeStateForNode_smooth {m : Manager Name} {name : Name} {transition : Transition} (i : ℕ)
    (h : m.nodes name = transition.source ∨ m.nodes name = transition.target) :
    (changeStateForNode p m name transition (smooth transition i name)).1 = some true := by
  simp only [changeStateForNode, smooth, Bool.not_true, Bool.false_eq_true, if_false, Function.update_self,
    Effect.success_apply h, ne_eq, not_true_eq_false]
  cases transition with
  | activate =>
      simp only [afterTransition, createBondConnection]
      split <;> rfl
  | configure | cleanup | deactivate | unconfiguredShutdown => rfl

theorem changeStateForNodes_smooth {transition : Transition} (i : ℕ) {names : List Name} {m : Manager Name}
    (h : ∀ n ∈ names, m.nodes n = transition.source ∨ m.nodes n = transition.target) :
    (changeStateForNodes p transition false (smooth transition) i names m).1 = true := by
  induction names generalizing i m with
  | nil => rfl
  | cons name rest ih =>
      have hhead := changeStateForNode_smooth (p := p) i (h name List.mem_cons_self)
      have htarget := (changeStateForNode_true hhead).1
      rw [changeStateForNodes]
      split
      · rename_i m' heq
        rw [heq] at hhead
        cases hhead
      · rename_i ok m' heq
        rw [heq] at hhead htarget
        cases hhead
        apply ih
        intro n hn
        by_cases hname : n = name
        · subst hname
          exact Or.inr htarget
        · have hkeep := nodes_changeStateForNode_of_ne (p := p) m hname transition (smooth transition i name)
          rw [heq] at hkeep
          rw [hkeep]
          exact h n (List.mem_cons_of_mem name hn)

theorem resume_unhealthy {m : Manager Name} (h : ¬ ResumeSafe p m) : ¬ Healthy p (m.resume p smooth) := by
  simp only [ResumeSafe, not_or, not_not, not_exists, not_and] at h
  obtain ⟨⟨n, hn, hunformed⟩, hstates⟩ := h
  have hsource : ∀ n ∈ order p .activate,
      m.nodes n = Transition.activate.source ∨ m.nodes n = Transition.activate.target := by
    intro n' hn'
    obtain ⟨hu, hf⟩ := hstates n' hn'
    cases hstate : m.nodes n' with
    | unconfigured => exact absurd hstate hu
    | inactive => exact Or.inl rfl
    | active => exact Or.inr rfl
    | finalized => exact absurd hstate hf
  have hok : (changeStateForAllNodes p m .activate false smooth).1 = true := changeStateForNodes_smooth 0 hsource
  have hbond : (changeStateForAllNodes p m .activate false smooth).2.bondMap n = some false :=
    changeStateForNodes_activate_keep _ _ hunformed
  intro hhealthy
  rw [resume] at hhealthy
  dsimp only at hhealthy
  rw [if_neg (by simp [hok])] at hhealthy
  have hformed := (hhealthy rfl n hn).2
  rw [activated, hbond] at hformed
  cases hformed

theorem startup_unhealthy {m : Manager Name} (h : ¬ StartupSafe p m) : ¬ Healthy p (m.startup p smooth) := by
  simp only [StartupSafe, not_or, not_not, not_exists, not_and] at h
  obtain ⟨⟨n, hn, hunformed⟩, hstates⟩ := h
  have hsource : ∀ n ∈ order p .configure,
      m.nodes n = Transition.configure.source ∨ m.nodes n = Transition.configure.target := by
    intro n' hn'
    obtain ⟨ha, hf⟩ := hstates n' hn'
    cases hstate : m.nodes n' with
    | unconfigured => exact Or.inl rfl
    | inactive => exact Or.inr rfl
    | active => exact absurd hstate ha
    | finalized => exact absurd hstate hf
  have hok : (changeStateForAllNodes p m .configure false smooth).1 = true := changeStateForNodes_smooth 0 hsource
  have hinactive : ∀ n' ∈ p.nodeNames,
      (changeStateForAllNodes p m .configure false smooth).2.nodes n' = .inactive := by
    intro n' hn'
    exact changeStateForNodes_true_target (by decide) hok hn'
  have hsafe : ¬ ResumeSafe p (changeStateForAllNodes p m .configure false smooth).2 := by
    rintro (hnone | ⟨n', hn', hstate⟩)
    · apply hnone
      exact ⟨n, hn, by rw [changeStateForAllNodes, changeStateForNodes_configure_bondMap, hunformed]⟩
    · simp [hinactive n' hn'] at hstate
  rw [startup]
  dsimp only
  rw [if_neg (by simp [hok])]
  exact resume_unhealthy hsafe

/-- どの遷移も `Guarded` な実行のどの状態でも、`system_active_` が真であれば、どのノードも活動中で成立したボンドを持ち、
`checkBondConnections` はないボンドを参照しない。`Guarded` でない起動と再開は、呼び出しが成功すると、これを破る。 -/
theorem healthy_of_guarded (p : ManagerParams Name) (hp : p.bondTimeout > 0) (nodes : Name → NodeState)
    (es : List (Event Name)) (t : Manager Name) (hrun : runs (step p) (start nodes) es = some t) :
    (Always (step p) (Guarded p) (start nodes) es →
      Healthy p t ∧ ∀ broken oracle, t.checkBondConnections p broken oracle ≠ none) ∧
    (¬ StartupSafe p t → ¬ Healthy p (t.startup p smooth)) ∧
    (¬ ResumeSafe p t → ¬ Healthy p (t.resume p smooth)) := by
  refine ⟨fun halways => ?_, startup_unhealthy, resume_unhealthy⟩
  have hhealthy : Healthy p t :=
    runs_inv (fun m e u h hstep hguard => step_healthy hp h hstep hguard) (healthy_of_inactive rfl) halways hrun
  exact ⟨hhealthy, hhealthy.checkBondConnections_ne_none⟩

end Manager

/-! ## 具体的な実行 -/

section Servers

def oneServer : ManagerParams String where
  nodeNames := ["controller_server"]
  bondTimeout := 4000
  attemptRespawnReconnection := false

/-- `planner_server` の活動だけが失敗する試み。 -/
def plannerFails : Oracle String := fun transition _ name =>
  if transition = .activate ∧ name = "planner_server" then ⟨.sent .failure true, true, true⟩
  else ⟨.sent .success true, true, true⟩

/-- ボンドだけが成立しない試み。 -/
def noBond : Oracle String := fun _ _ _ => ⟨.sent .success true, true, false⟩

open Manager

def retries : List (Event String) := [.startup plannerFails, .startup smooth, .resume smooth]

-- `planner_server` の活動が失敗した後、二度目の起動は `controller_server` の設定で失敗し、再開が成功する。
theorem healthy_of_guarded_retried :
    ∃ t, runs (step twoServers) (start fun _ => .unconfigured) retries = some t ∧
      (t.systemActive = true ∧ t.nodes "planner_server" = .active) ∧ Healthy twoServers t ∧
      ∀ broken oracle, t.checkBondConnections twoServers broken oracle ≠ none := by
  refine ⟨_, rfl, ⟨by decide, by decide⟩, ?_⟩
  refine (healthy_of_guarded twoServers (by decide) (fun _ => .unconfigured) retries _ rfl).1 ?_
  intro t ht
  obtain rfl := Option.some.inj ht
  refine ⟨.inl (by unfold Unformed; decide), fun t ht => ?_⟩
  obtain rfl := Option.some.inj ht
  refine ⟨.inl (by unfold Unformed; decide), fun t ht => ?_⟩
  obtain rfl := Option.some.inj ht
  exact ⟨.inl (by unfold Unformed; decide), trivial⟩

-- ボンドの成立しなかった起動の後の再開は、成立していないボンドのまま系を活動中にする。
theorem unhealthy_after_resume :
    ∃ t, runs (step oneServer) (start fun _ => .unconfigured) [.startup noBond, .resume smooth] = some t ∧
      t.systemActive = true ∧ t.bondMap "controller_server" = some false ∧ ¬ Healthy oneServer t := by
  refine ⟨_, rfl, by decide, by decide, fun h => ?_⟩
  have hformed := (h (by decide) "controller_server" (by decide)).2
  exact absurd hformed (by decide)

end Servers

end Ranger.Nav
