import Mathlib.Algebra.Order.BigOperators.Group.List
import Mathlib.Algebra.Order.Field.Basic
import Mathlib.Algebra.Order.Ring.Rat
import Mathlib.Data.List.Basic
import Mathlib.Tactic.Linarith
import Mathlib.Tactic.NormNum
import Mathlib.Tactic.Positivity
import Ranger.Lib.Run

/-!
# 軌道の選択

`dwb_core` の `dwb_local_planner.cpp` と `illegal_trajectory_tracker.cpp`。評価関数の重み付きの和の最も小さい軌道を選ぶ。途中で和が
それまでの最も小さい和を超えた軌道の評価を打ち切ることもある。メッセージの `float` の得点は、正確な算術の値で表す。
-/

namespace Ranger.Dwb
open Ranger.Lib

/-- `IllegalTrajectoryException` の評価関数の名前と文。 -/
abbrev Illegal : Type := String × String

structure Critic (K τ : Type*) where
  name : String
  scale : K
  scoreTrajectory : τ → Except Illegal K

structure CriticScore (K : Type*) where
  name : String
  scale : K
  rawScore : K
deriving DecidableEq

structure TrajectoryScore (K τ : Type*) where
  traj : τ
  scores : List (CriticScore K)
  total : K
deriving DecidableEq

structure IllegalTrajectoryTracker where
  counts : Illegal → ℕ
  legalCount : ℕ
  illegalCount : ℕ

namespace IllegalTrajectoryTracker

def empty : IllegalTrajectoryTracker := ⟨fun _ => 0, 0, 0⟩

def addIllegalTrajectory (t : IllegalTrajectoryTracker) (e : Illegal) : IllegalTrajectoryTracker :=
  { t with counts := Function.update t.counts e (t.counts e + 1), illegalCount := t.illegalCount + 1 }

def addLegalTrajectory (t : IllegalTrajectoryTracker) : IllegalTrajectoryTracker :=
  { t with legalCount := t.legalCount + 1 }

end IllegalTrajectoryTracker

/-- 番号は 16 ビットである。 -/
structure LocalPlanEvaluation (K τ : Type*) where
  twists : List (TrajectoryScore K τ)
  bestIndex : ℕ
  worstIndex : ℕ

namespace CoreScoring

variable {K τ : Type*} [Field K] [LinearOrder K]

def scoreFrom (shortCircuit : Bool) (traj : τ) (bestScore : K) :
    List (Critic K τ) → TrajectoryScore K τ → Except Illegal (TrajectoryScore K τ)
  | [], score => .ok score
  | critic :: critics, score =>
    if critic.scale = 0 then
      scoreFrom shortCircuit traj bestScore critics
        { score with scores := score.scores ++ [⟨critic.name, critic.scale, 0⟩] }
    else
      match critic.scoreTrajectory traj with
      | .error e => .error e
      | .ok criticScore =>
        let score := { score with
          scores := score.scores ++ [⟨critic.name, critic.scale, criticScore⟩]
          total := score.total + criticScore * critic.scale }
        if shortCircuit ∧ bestScore > 0 ∧ score.total > bestScore then .ok score
        else scoreFrom shortCircuit traj bestScore critics score

def scoreTrajectory (critics : List (Critic K τ)) (shortCircuit : Bool) (traj : τ) (bestScore : K) :
    Except Illegal (TrajectoryScore K τ) :=
  scoreFrom shortCircuit traj bestScore critics ⟨traj, [], 0⟩

structure Scoring (K τ : Type*) where
  best : TrajectoryScore K τ
  worst : TrajectoryScore K τ
  tracker : IllegalTrajectoryTracker
  results : Option (LocalPlanEvaluation K τ)

/-- 得点のない軌道の和は -1 である。 -/
def unscored [Inhabited τ] : TrajectoryScore K τ := ⟨default, [], -1⟩

def initial [Inhabited τ] (results : Option (LocalPlanEvaluation K τ)) : Scoring K τ :=
  ⟨unscored, unscored, .empty, results⟩

def push (s : Scoring K τ) (score : TrajectoryScore K τ) : Option (LocalPlanEvaluation K τ) :=
  s.results.map fun r => { r with twists := r.twists ++ [score] }

/-- `twists` の最後の番号。 -/
def lastIndex (r : LocalPlanEvaluation K τ) : ℕ := (r.twists.length - 1) % 65536

def addScore (s : Scoring K τ) (score : TrajectoryScore K τ) : Scoring K τ :=
  let results := push s score
  let better := s.best.total < 0 ∨ score.total < s.best.total
  let worse := s.worst.total < 0 ∨ score.total > s.worst.total
  let results := if better then results.map fun r => { r with bestIndex := lastIndex r } else results
  { best := if better then score else s.best
    worst := if worse then score else s.worst
    tracker := s.tracker.addLegalTrajectory
    results := if worse then results.map fun r => { r with worstIndex := lastIndex r } else results }

def addFailure (s : Scoring K τ) (traj : τ) (e : Illegal) : Scoring K τ :=
  { s with
    tracker := s.tracker.addIllegalTrajectory e
    results := push s ⟨traj, [⟨e.1, 0, -1⟩], -1⟩ }

def consider (critics : List (Critic K τ)) (shortCircuit : Bool) (s : Scoring K τ) (traj : τ) : Scoring K τ :=
  match scoreTrajectory critics shortCircuit traj s.best.total with
  | .ok score => addScore s score
  | .error e => addFailure s traj e

/-- 作られた軌道 `trajs` から選ぶ。選べないときは `NoLegalTrajectoriesException` で終わる。 -/
def coreScoringAlgorithm [Inhabited τ] (critics : List (Critic K τ)) (shortCircuit : Bool) (trajs : List τ)
    (results : Option (LocalPlanEvaluation K τ)) :
    Except IllegalTrajectoryTracker (TrajectoryScore K τ) × Option (LocalPlanEvaluation K τ) :=
  let s := trajs.foldl (consider critics shortCircuit) (initial results)
  (if s.best.total < 0 then .error s.tracker else .ok s.best, s.results)

/-! ## 打ち切らない評価 -/

def rate (traj : τ) (critic : Critic K τ) : Except Illegal (CriticScore K) :=
  if critic.scale = 0 then .ok ⟨critic.name, critic.scale, 0⟩
  else (critic.scoreTrajectory traj).map fun raw => ⟨critic.name, critic.scale, raw⟩

def weighted (scores : List (CriticScore K)) : K := (scores.map fun s => s.rawScore * s.scale).sum

/-- すべての評価関数による評価。 -/
def evaluate (critics : List (Critic K τ)) (traj : τ) : Except Illegal (TrajectoryScore K τ) :=
  (critics.mapM (rate traj)).map fun scores => ⟨traj, scores, weighted scores⟩

/-- 評価関数は、和を減らさない。 -/
def Nonnegative (critics : List (Critic K τ)) : Prop :=
  ∀ critic ∈ critics, critic.scale ≠ 0 → ∀ traj raw, critic.scoreTrajectory traj = .ok raw → 0 ≤ raw * critic.scale

section Evaluate

variable {critics : List (Critic K τ)} {traj : τ} {bestScore : K} {score : TrajectoryScore K τ} {scores : List (CriticScore K)}

/-- 打ち切らないとき、評価は残りの評価関数の得点を加える。 -/
theorem scoreFrom_false (critics : List (Critic K τ)) (score : TrajectoryScore K τ) :
    scoreFrom false traj bestScore critics score = (critics.mapM (rate traj)).map fun scores =>
      ⟨score.traj, score.scores ++ scores, score.total + weighted scores⟩ := by
  induction critics generalizing score with
  | nil => simp [scoreFrom, weighted, Except.map, pure, Except.pure]
  | cons critic critics ih =>
      rw [scoreFrom, List.mapM_cons, rate]
      by_cases hscale : critic.scale = 0
      · rw [if_pos hscale, if_pos hscale, ih]
        cases critics.mapM (rate traj) with
        | error e => rfl
        | ok scores => simp [Except.map, bind, Except.bind, pure, Except.pure, weighted, hscale]
      · rw [if_neg hscale, if_neg hscale]
        cases critic.scoreTrajectory traj with
        | error e => rfl
        | ok raw =>
            simp only [Bool.false_eq_true, false_and, if_false, ih]
            cases critics.mapM (rate traj) with
            | error e => rfl
            | ok scores => simp [Except.map, bind, Except.bind, pure, Except.pure, weighted, add_assoc]

theorem scoreTrajectory_false (critics : List (Critic K τ)) (traj : τ) (bestScore : K) :
    scoreTrajectory critics false traj bestScore = evaluate critics traj := by
  rw [scoreTrajectory, scoreFrom_false, evaluate]
  simp

variable [IsStrictOrderedRing K]

theorem le_of_scoreFrom (hcritics : Nonnegative critics) {full : TrajectoryScore K τ}
    (h : scoreFrom false traj bestScore critics score = .ok full) : score.total ≤ full.total := by
  induction critics generalizing score with
  | nil =>
      cases h
      exact le_refl _
  | cons critic critics ih =>
      have hrest : Nonnegative critics := fun c hc => hcritics c (List.mem_cons_of_mem _ hc)
      rw [scoreFrom] at h
      split_ifs at h with hscale
      · have hle := ih hrest h
        exact hle
      · cases hraw : critic.scoreTrajectory traj with
        | error e =>
            rw [hraw] at h
            cases h
        | ok raw =>
            rw [hraw] at h
            simp only [Bool.false_eq_true, false_and, if_false] at h
            have hpos := hcritics critic List.mem_cons_self hscale traj raw hraw
            have hle := ih hrest h
            dsimp only at hle
            linarith

/-- 打ち切った評価は、打ち切らない評価と同じか、どちらもそれまでの最も小さい和を超える。 -/
theorem scoreFrom_true (hcritics : Nonnegative critics) :
    scoreFrom true traj bestScore critics score = scoreFrom false traj bestScore critics score ∨
      0 < bestScore ∧ (∃ cut, scoreFrom true traj bestScore critics score = .ok cut ∧ bestScore < cut.total) ∧
        ∀ full, scoreFrom false traj bestScore critics score = .ok full → bestScore < full.total := by
  induction critics generalizing score with
  | nil => exact Or.inl rfl
  | cons critic critics ih =>
      have hrest : Nonnegative critics := fun c hc => hcritics c (List.mem_cons_of_mem _ hc)
      simp only [scoreFrom]
      split_ifs with hscale
      · exact ih hrest
      · cases hraw : critic.scoreTrajectory traj with
        | error e => exact Or.inl rfl
        | ok raw =>
            simp only [true_and, false_and, if_false]
            split_ifs with hcut
            · refine Or.inr ⟨hcut.1, ⟨_, rfl, hcut.2⟩, fun full hfull => ?_⟩
              exact lt_of_lt_of_le hcut.2 (le_of_scoreFrom hrest hfull)
            · exact ih hrest

theorem evaluate_nonneg (hcritics : Nonnegative critics) (h : evaluate critics traj = .ok score) : 0 ≤ score.total := by
  rw [← scoreTrajectory_false critics traj 0] at h
  exact le_of_scoreFrom hcritics h

end Evaluate

/-! ## 選択の不変条件 -/

def legal (critics : List (Critic K τ)) (traj : τ) : Option (TrajectoryScore K τ) := (evaluate critics traj).toOption

/-- すべてを評価したときの数え上げ。 -/
def tally (critics : List (Critic K τ)) (t : IllegalTrajectoryTracker) (traj : τ) : IllegalTrajectoryTracker :=
  match evaluate critics traj with
  | .ok _ => t.addLegalTrajectory
  | .error e => t.addIllegalTrajectory e

/-- `best` は、和の最も小さいもののうちはじめのものである。 -/
def First (scores : List (TrajectoryScore K τ)) (best : TrajectoryScore K τ) : Prop :=
  ∃ before after, scores = before ++ best :: after ∧ (∀ s ∈ before, best.total < s.total) ∧
    ∀ s ∈ after, best.total ≤ s.total

section Run

variable {critics : List (Critic K τ)} {scores : List (TrajectoryScore K τ)} {best score : TrajectoryScore K τ}
  {done : List τ} {traj : τ} {s : Scoring K τ}

omit [Field K] in
theorem First.le (h : First scores best) (hscore : score ∈ scores) : best.total ≤ score.total := by
  obtain ⟨before, after, rfl, hbefore, hafter⟩ := h
  rcases List.mem_append.mp hscore with hscore | hscore
  · exact (hbefore score hscore).le
  · rcases List.mem_cons.mp hscore with rfl | hscore
    · exact le_refl _
    · exact hafter score hscore

omit [Field K] in
theorem First.keep (h : First scores best) (hle : best.total ≤ score.total) : First (scores ++ [score]) best := by
  obtain ⟨before, after, rfl, hbefore, hafter⟩ := h
  refine ⟨before, after ++ [score], by simp, hbefore, fun s hs => ?_⟩
  rcases List.mem_append.mp hs with hs | hs
  · exact hafter s hs
  · rw [List.mem_singleton.mp hs]
    exact hle

omit [Field K] in
theorem First.replace (h : First scores best) (hlt : score.total < best.total) : First (scores ++ [score]) score :=
  ⟨scores, [], rfl, fun _ hs => hlt.trans_le (h.le hs), fun _ hs => absurd hs List.not_mem_nil⟩

/-- 軌道 `done` を評価した後。 -/
structure Tracks (critics : List (Critic K τ)) (done : List τ) (s : Scoring K τ) : Prop where
  rejected : s.best.total < 0 → done.filterMap (legal critics) = [] ∧ s.tracker = done.foldl (tally critics) .empty
  first : 0 ≤ s.best.total → First (done.filterMap (legal critics)) s.best
  twists : ∀ r ∈ s.results, r.twists.length = done.length
  index : ∀ r ∈ s.results, 0 ≤ s.best.total → done.length ≤ 65536 → r.twists[r.bestIndex]? = some s.best

theorem filterMap_ok (h : evaluate critics traj = .ok score) :
    (done ++ [traj]).filterMap (legal critics) = done.filterMap (legal critics) ++ [score] := by
  simp [legal, h, Except.toOption]

theorem filterMap_error {e : Illegal} (h : evaluate critics traj = .error e) :
    (done ++ [traj]).filterMap (legal critics) = done.filterMap (legal critics) := by
  simp [legal, h, Except.toOption]

/-- 評価を一つ書き加えた後。 -/
theorem Tracks.extend {s' : Scoring K τ} (h : Tracks critics done s) (entry : TrajectoryScore K τ)
    (hresults : ∀ r' ∈ s'.results, ∃ r ∈ s.results, r'.twists = r.twists ++ [entry] ∧
      (s'.best = s.best ∧ r'.bestIndex = r.bestIndex ∨ s'.best = entry ∧ r'.bestIndex = r.twists.length % 65536))
    (hrejected : s'.best.total < 0 → (done ++ [traj]).filterMap (legal critics) = [] ∧
      s'.tracker = (done ++ [traj]).foldl (tally critics) .empty)
    (hfirst : 0 ≤ s'.best.total → First ((done ++ [traj]).filterMap (legal critics)) s'.best) :
    Tracks critics (done ++ [traj]) s' := by
  refine ⟨hrejected, hfirst, fun r' hr' => ?_, fun r' hr' hnonneg hshort => ?_⟩
  · obtain ⟨r, hr, htwists, -⟩ := hresults r' hr'
    rw [htwists, List.length_append, List.length_append, h.twists r hr]
    rfl
  · obtain ⟨r, hr, htwists, ⟨hbest, hindex⟩ | ⟨hbest, hindex⟩⟩ := hresults r' hr'
    · rw [hbest] at hnonneg ⊢
      rw [List.length_append, List.length_singleton] at hshort
      rw [htwists, hindex]
      exact getElem?_concat_of_some (h.index r hr hnonneg (by omega))
    · rw [List.length_append, List.length_singleton] at hshort
      have hlength := h.twists r hr
      rw [htwists, hindex, hbest, Nat.mod_eq_of_lt (by omega), List.getElem?_concat_length]

omit [LinearOrder K] in
theorem addFailure_results (s : Scoring K τ) (traj : τ) (e : Illegal) :
    ∀ r' ∈ (addFailure s traj e).results, ∃ r ∈ s.results,
      r'.twists = r.twists ++ [⟨traj, [⟨e.1, 0, -1⟩], -1⟩] ∧ r'.bestIndex = r.bestIndex := by
  intro r' hr'
  obtain ⟨r, hr, rfl⟩ := Option.map_eq_some_iff.mp hr'
  exact ⟨r, hr, rfl, rfl⟩

theorem addScore_results (s : Scoring K τ) (score : TrajectoryScore K τ) :
    ∀ r' ∈ (addScore s score).results, ∃ r ∈ s.results, r'.twists = r.twists ++ [score] ∧
      r'.bestIndex = if s.best.total < 0 ∨ score.total < s.best.total then r.twists.length % 65536 else r.bestIndex := by
  intro r' hr'
  cases hs : s.results with
  | none => simp [addScore, push, hs] at hr'
  | some r =>
      refine ⟨r, rfl, ?_⟩
      simp only [addScore, push, hs, Option.map_some] at hr'
      split_ifs at hr' ⊢ <;> cases hr' <;> simp [lastIndex]

theorem Tracks.addFailure {e : Illegal} (h : Tracks critics done s) (he : evaluate critics traj = .error e) :
    Tracks critics (done ++ [traj]) (addFailure s traj e) := by
  refine h.extend ⟨traj, [⟨e.1, 0, -1⟩], -1⟩ (fun r' hr' => ?_) (fun hnone => ?_) fun hnonneg => ?_
  · obtain ⟨r, hr, htwists, hindex⟩ := addFailure_results s traj e r' hr'
    exact ⟨r, hr, htwists, Or.inl ⟨rfl, hindex⟩⟩
  · obtain ⟨hlegal, htracker⟩ := h.rejected hnone
    refine ⟨(filterMap_error he).trans hlegal, ?_⟩
    rw [List.foldl_append, ← htracker, List.foldl_cons, List.foldl_nil, tally, he]
    rfl
  · rw [filterMap_error he]
    exact h.first hnonneg

/-- 最も小さい和を超えた軌道は、選択を変えない。 -/
theorem Tracks.addWorse {cut : TrajectoryScore K τ} (h : Tracks critics done s) (hpos : 0 < s.best.total)
    (hcut : s.best.total < cut.total) (hfull : ∀ full, evaluate critics traj = .ok full → s.best.total < full.total) :
    Tracks critics (done ++ [traj]) (addScore s cut) := by
  have hkeep : ¬ (s.best.total < 0 ∨ cut.total < s.best.total) := not_or.mpr ⟨not_lt.mpr hpos.le, not_lt.mpr hcut.le⟩
  have hbest : (addScore s cut).best = s.best := if_neg hkeep
  refine h.extend cut (fun r' hr' => ?_) (fun hnone => ?_) fun hnonneg => ?_
  · obtain ⟨r, hr, htwists, hindex⟩ := addScore_results s cut r' hr'
    rw [if_neg hkeep] at hindex
    exact ⟨r, hr, htwists, Or.inl ⟨hbest, hindex⟩⟩
  · rw [hbest] at hnone
    exact absurd hpos (not_lt.mpr hnone.le)
  · rw [hbest]
    have hfirst := h.first hpos.le
    cases heval : evaluate critics traj with
    | error e => rwa [filterMap_error heval]
    | ok full =>
        rw [filterMap_ok heval]
        exact hfirst.keep (hfull full heval).le

theorem Tracks.addScore (h : Tracks critics done s) (heval : evaluate critics traj = .ok score)
    (hnonneg : 0 ≤ score.total) : Tracks critics (done ++ [traj]) (addScore s score) := by
  by_cases hbetter : s.best.total < 0 ∨ score.total < s.best.total
  · have hbest : (CoreScoring.addScore s score).best = score := if_pos hbetter
    refine h.extend score (fun r' hr' => ?_) (fun hnone => ?_) fun _ => ?_
    · obtain ⟨r, hr, htwists, hindex⟩ := addScore_results s score r' hr'
      rw [if_pos hbetter] at hindex
      exact ⟨r, hr, htwists, Or.inr ⟨hbest, hindex⟩⟩
    · rw [hbest] at hnone
      exact absurd hnonneg (not_le.mpr hnone)
    · rw [hbest, filterMap_ok heval]
      by_cases hnone : s.best.total < 0
      · rw [(h.rejected hnone).1]
        exact ⟨[], [], rfl, fun _ hs => absurd hs List.not_mem_nil, fun _ hs => absurd hs List.not_mem_nil⟩
      · exact (h.first (not_lt.mp hnone)).replace (hbetter.resolve_left hnone)
  · have hbest : (CoreScoring.addScore s score).best = s.best := if_neg hbetter
    rw [not_or, not_lt, not_lt] at hbetter
    refine h.extend score (fun r' hr' => ?_) (fun hnone => ?_) fun _ => ?_
    · obtain ⟨r, hr, htwists, hindex⟩ := addScore_results s score r' hr'
      rw [if_neg (by rw [not_or, not_lt, not_lt]; exact hbetter)] at hindex
      exact ⟨r, hr, htwists, Or.inl ⟨hbest, hindex⟩⟩
    · rw [hbest] at hnone
      exact absurd hbetter.1 (not_le.mpr hnone)
    · rw [hbest, filterMap_ok heval]
      exact (h.first hbetter.1).keep hbetter.2

variable [IsStrictOrderedRing K]

theorem scoreTrajectory_cases (hcritics : Nonnegative critics) (shortCircuit : Bool) (traj : τ) (bestScore : K) :
    scoreTrajectory critics shortCircuit traj bestScore = evaluate critics traj ∨
      0 < bestScore ∧ (∃ cut, scoreTrajectory critics shortCircuit traj bestScore = .ok cut ∧ bestScore < cut.total) ∧
        ∀ full, evaluate critics traj = .ok full → bestScore < full.total := by
  rw [← scoreTrajectory_false critics traj bestScore]
  cases shortCircuit with
  | false => exact Or.inl rfl
  | true => exact scoreFrom_true hcritics

theorem Tracks.consider (hcritics : Nonnegative critics) (shortCircuit : Bool) (h : Tracks critics done s) (traj : τ) :
    Tracks critics (done ++ [traj]) (consider critics shortCircuit s traj) := by
  unfold CoreScoring.consider
  rcases scoreTrajectory_cases hcritics shortCircuit traj s.best.total with heq | ⟨hpos, ⟨cut, hcut, hworse⟩, hfull⟩
  · rw [heq]
    cases heval : evaluate critics traj with
    | error e => exact h.addFailure heval
    | ok score => exact h.addScore heval (evaluate_nonneg hcritics heval)
  · rw [hcut]
    exact h.addWorse hpos hworse hfull

theorem Tracks.foldl (hcritics : Nonnegative critics) (shortCircuit : Bool) (trajs : List τ) (h : Tracks critics done s) :
    Tracks critics (done ++ trajs) (trajs.foldl (CoreScoring.consider critics shortCircuit) s) := by
  induction trajs generalizing done s with
  | nil => rwa [List.append_nil]
  | cons traj trajs ih =>
      have hnext := ih (h.consider hcritics shortCircuit traj)
      rwa [List.append_assoc, List.singleton_append] at hnext

end Run

/-! ## 選ばれる軌道 -/

section Choice

variable [IsStrictOrderedRing K] [Inhabited τ] {critics : List (Critic K τ)}

/-- 空の記録。 -/
def noTwists : LocalPlanEvaluation K τ := ⟨[], 0, 0⟩

omit [IsStrictOrderedRing K] [Inhabited τ] in
/-- 記録は、失われも作られもしない。 -/
theorem consider_isSome (shortCircuit : Bool) (s : Scoring K τ) (traj : τ) :
    (consider critics shortCircuit s traj).results.isSome = s.results.isSome := by
  unfold consider
  cases scoreTrajectory critics shortCircuit traj s.best.total with
  | error e => exact Option.isSome_map
  | ok score =>
      simp only [addScore, push]
      split_ifs <;> simp

omit [IsStrictOrderedRing K] [Inhabited τ] in
theorem foldl_isSome (shortCircuit : Bool) (trajs : List τ) (s : Scoring K τ) :
    (trajs.foldl (consider critics shortCircuit) s).results.isSome = s.results.isSome := by
  induction trajs generalizing s with
  | nil => rfl
  | cons traj trajs ih => exact (ih _).trans (consider_isSome shortCircuit s traj)

/-- 打ち切りの有無と記録の有無によらず、どの評価関数にも退けられない軌道のうち、和の最も小さいはじめのものを選び、記録があれば、その番号も
それを指す。すべてが退けられたときは、その内訳を伝える例外で終わる。 -/
theorem coreScoringAlgorithm_chooses (hcritics : Nonnegative critics) (shortCircuit : Bool) (trajs : List τ)
    {results : Option (LocalPlanEvaluation K τ)} (hresults : ∀ r ∈ results, r.twists = []) :
    (coreScoringAlgorithm critics shortCircuit trajs results).2.isSome = results.isSome ∧
      (∀ best, (coreScoringAlgorithm critics shortCircuit trajs results).1 = .ok best →
        First (trajs.filterMap (legal critics)) best ∧
          ∀ r ∈ (coreScoringAlgorithm critics shortCircuit trajs results).2,
            trajs.length ≤ 65536 → r.twists[r.bestIndex]? = some best) ∧
      ∀ tracker, (coreScoringAlgorithm critics shortCircuit trajs results).1 = .error tracker →
        trajs.filterMap (legal critics) = [] ∧ tracker = trajs.foldl (tally critics) .empty := by
  have hstart : Tracks critics [] (initial results) := by
    refine ⟨fun _ => ⟨rfl, rfl⟩, fun h => ?_, fun r hr => ?_, fun r hr h => ?_⟩
    · exact absurd h (by simp [initial, unscored])
    · exact congrArg List.length (hresults r hr)
    · exact absurd h (by simp [initial, unscored])
  have htracks := hstart.foldl hcritics shortCircuit trajs
  rw [List.nil_append] at htracks
  refine ⟨foldl_isSome shortCircuit trajs (initial results), ?_⟩
  unfold coreScoringAlgorithm
  dsimp only
  split_ifs with hnone
  · refine ⟨fun best h => (by cases h), fun tracker h => ?_⟩
    cases h
    exact htracks.rejected hnone
  · rw [not_lt] at hnone
    refine ⟨fun best h => ?_, fun tracker h => (by cases h)⟩
    cases h
    exact ⟨htracks.first hnone, fun r hr => htracks.index r hr hnone⟩

end Choice

/-- 軌道 1 が障害物に当たる。 -/
def pathAndObstacle : List (Critic ℚ ℕ) :=
  [⟨"PathDist", 2, fun t => .ok t⟩,
    ⟨"BaseObstacle", 1, fun t => if t = 1 then .error ("BaseObstacle", "Trajectory Hits Obstacle.") else .ok 1⟩]

theorem nonnegative_pathAndObstacle : Nonnegative pathAndObstacle := by
  intro critic hcritic _ traj raw hraw
  rcases List.mem_cons.mp hcritic with rfl | hcritic
  · cases hraw
    positivity
  · rw [List.mem_singleton.mp hcritic] at hraw ⊢
    dsimp only at hraw
    split_ifs at hraw
    cases hraw
    norm_num

-- 軌道 9 の評価は打ち切られる。
theorem coreScoringAlgorithm_chooses_path :
    ∃ best, (coreScoringAlgorithm pathAndObstacle true [5, 1, 3, 9] (some noTwists)).1 = .ok best ∧ best.total = 7 ∧
      First ([5, 1, 3, 9].filterMap (legal pathAndObstacle)) best := by
  have hoption : (coreScoringAlgorithm pathAndObstacle true [5, 1, 3, 9] (some noTwists)).1.toOption =
      some ⟨3, [⟨"PathDist", 2, 3⟩, ⟨"BaseObstacle", 1, 1⟩], 7⟩ := by decide +kernel
  cases hresult : (coreScoringAlgorithm pathAndObstacle true [5, 1, 3, 9] (some noTwists)).1 with
  | error tracker =>
      rw [hresult] at hoption
      cases hoption
  | ok best =>
      rw [hresult] at hoption
      cases hoption
      have hchooses := coreScoringAlgorithm_chooses nonnegative_pathAndObstacle true [5, 1, 3, 9]
        fun r (hr : r ∈ some noTwists) => by rw [← Option.some.inj hr]; rfl
      exact ⟨_, rfl, rfl, (hchooses.2.1 _ hresult).1⟩

end CoreScoring

end Ranger.Dwb
