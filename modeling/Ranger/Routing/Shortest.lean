import Mathlib.Algebra.BigOperators.Group.Finset.Basic
import Mathlib.Algebra.Order.Group.Int
import Mathlib.Data.Bool.Basic
import Mathlib.Data.Fintype.EquivFin
import Mathlib.Data.Prod.Lex
import Ranger.Lib.Shortest
import Ranger.Routing.Planner

/-!
# 経路の最短性

待ち行列には、前の計画の要素や古い費用の要素が残っていてもよい。グラフの節点を指す要素は、費用が合えば今の要素と同じであり、
合わなければ読み飛ばされる。グラフの外の節点を指し、費用の合う要素は、目標より先に取り出されてはならない。
-/

namespace Ranger.Routing
open Ranger.Lib

variable {ν K : Type} [AddCommGroup K] [LinearOrder K] {nodes : ν → Node ν K} {scorer : EdgeScorer ν K}
  {graph : List ν} {blockedIds : List ℕ}

/-! ## グラフ -/

/-- 番号は節点ごとに異なり、辺は自分の節点から始まって、グラフの節点で終わる。 -/
structure RoutingGraph (nodes : ν → Node ν K) (graph : List ν) : Prop where
  nodeid : ∀ a ∈ graph, ∀ b ∈ graph, (nodes a).nodeid = (nodes b).nodeid → a = b
  start : ∀ a ∈ graph, ∀ edge ∈ (nodes a).neighbors, edge.start = a
  end_ : ∀ a ∈ graph, ∀ edge ∈ (nodes a).neighbors, edge.end_ ∈ graph

/-- 辺の費用は正で、部品では変わらない。 -/
structure Priced (nodes : ν → Node ν K) (scorer : EdgeScorer ν K) (graph : List ν) : Prop where
  pos : ∀ a ∈ graph, ∀ edge ∈ (nodes a).neighbors, 0 < edge.edgeCost.cost
  plain : ∀ a ∈ graph, ∀ edge ∈ (nodes a).neighbors, edge.edgeCost.overridable = false ∨ scorer.numPlugins = 0

/-- 止められていない、グラフの辺。 -/
def Passable (nodes : ν → Node ν K) (graph : List ν) (blockedIds : List ℕ) (edge : DirectionalEdge ν K) : Prop :=
  edge.start ∈ graph ∧ edge ∈ (nodes edge.start).neighbors ∧
    ∀ id ∈ blockedIds, id ≠ edge.edgeid ∧ id ≠ (nodes edge.end_).nodeid

/-- 止められていない辺のなすグラフ。 -/
def passage (hgraph : RoutingGraph nodes graph) (hpriced : Priced nodes scorer graph) (blockedIds : List ℕ) :
    Network ν (DirectionalEdge ν K) K where
  node := (· ∈ graph)
  usable := Passable nodes graph blockedIds
  src := DirectionalEdge.start
  dst := DirectionalEdge.end_
  length := fun edge => edge.edgeCost.cost
  node_src := fun he => he.1
  node_dst := fun he => hgraph.end_ _ he.1 _ he.2.1
  pos := fun he => hpriced.pos _ he.1 _ he.2.1

namespace RoutePlanner

variable {Q : PriorityQueue (K × ν) Prod.fst} {p q : RoutePlanner Q} {c : K} {edge : DirectionalEdge ν K}

omit [AddCommGroup K] [LinearOrder K] in
theorem isBlocked_eq_false_iff : isBlocked nodes blockedIds edge = false ↔
    ∀ id ∈ blockedIds, id ≠ edge.edgeid ∧ id ≠ (nodes edge.end_).nodeid := by
  simp [isBlocked]

theorem getTraversalCost_of_blocked (hblocked : isBlocked nodes blockedIds edge = true) (p : RoutePlanner Q) :
    p.getTraversalCost nodes scorer blockedIds edge = .ok none := by
  rw [getTraversalCost, if_pos hblocked]

/-- 費用が正で部品で変わらない辺では、例外は起こらない。 -/
theorem getTraversalCost_of_priced (hopen : isBlocked nodes blockedIds edge = false)
    (hpos : 0 < edge.edgeCost.cost) (hplain : edge.edgeCost.overridable = false ∨ scorer.numPlugins = 0)
    (p : RoutePlanner Q) : p.getTraversalCost nodes scorer blockedIds edge = .ok (some edge.edgeCost.cost) := by
  have hplain' : (!edge.edgeCost.overridable || scorer.numPlugins == 0) = true := by
    rcases hplain with h | h
    · simp [h]
    · simp [h]
  rw [getTraversalCost, if_neg (by simp [hopen]), if_pos hplain', if_neg (not_le.mpr hpos)]

/-! ## 一つの節点から出る辺 -/

variable [DecidableEq ν]

def dist (p : RoutePlanner Q) (v : ν) : WithTop K := (p.searchState v).integratedCost

def parent (p : RoutePlanner Q) (v : ν) : Option (DirectionalEdge ν K) := (p.searchState v).parentEdge

def Queued (p : RoutePlanner Q) (a : K × ν) : Prop := a ∈ Q.elems p.queue

theorem visit_of_not_lt {t : K} (hle : p.dist edge.end_ ≤ (c + t : K)) : p.visit c edge t = p :=
  if_neg (not_lt.mpr hle)

section VisitLt

variable {t : K} (hlt : ((c + t : K) : WithTop K) < p.dist edge.end_)
include hlt

theorem visit_of_lt : p.visit c edge t =
    (p.setState edge.end_
      { parentEdge := some edge, integratedCost := (c + t : K), traversalCost := t }).addNode (c + t) edge.end_ :=
  if_pos hlt

theorem visit_dist : (p.visit c edge t).dist = Function.update p.dist edge.end_ (c + t : K) := by
  funext v
  rw [visit_of_lt hlt]
  by_cases hv : v = edge.end_
  · subst hv
    simp [dist, setState, addNode]
  · simp [dist, setState, addNode, hv]

theorem visit_parent : (p.visit c edge t).parent = Function.update p.parent edge.end_ (some edge) := by
  funext v
  rw [visit_of_lt hlt]
  by_cases hv : v = edge.end_
  · subst hv
    simp [parent, setState, addNode]
  · simp [parent, setState, addNode, hv]

theorem visit_queued (a : K × ν) : (p.visit c edge t).Queued a ↔ p.Queued a ∨ a = (c + t, edge.end_) := by
  rw [visit_of_lt hlt]
  simp [Queued, addNode, setState, or_comm]

end VisitLt

/-- 節点を調べても変わらないものと、待ち行列の増え方。 -/
structure Grows (graph : List ν) (p q : RoutePlanner Q) (n : ℕ) : Prop where
  goalId : q.goalId = p.goalId
  foreign : ∀ v, v ∉ graph → q.searchState v = p.searchState v
  queue : ∀ a, q.Queued a → p.Queued a ∨ a.2 ∈ graph
  keep : ∀ a, p.Queued a → q.Queued a
  size : Q.size q.queue ≤ Q.size p.queue + n

omit [AddCommGroup K] [DecidableEq ν] in
theorem Grows.refl (p : RoutePlanner Q) : p.Grows graph p 0 where
  goalId := rfl
  foreign := fun _ _ => rfl
  queue := fun _ => Or.inl
  keep := fun _ ha => ha
  size := le_rfl

omit [AddCommGroup K] [DecidableEq ν] in
theorem Grows.trans {r : RoutePlanner Q} {m n : ℕ} (h : p.Grows graph q m) (h' : q.Grows graph r n) :
    p.Grows graph r (m + n) where
  goalId := h'.goalId.trans h.goalId
  foreign := fun v hv => (h'.foreign v hv).trans (h.foreign v hv)
  queue := fun a ha => (h'.queue a ha).elim (h.queue a) Or.inr
  keep := fun a ha => h'.keep a (h.keep a ha)
  size := by
    have hsize := h.size
    have hsize' := h'.size
    omega

omit [AddCommGroup K] [DecidableEq ν] in
theorem Grows.mono {m n : ℕ} (h : p.Grows graph q m) (hle : m ≤ n) : p.Grows graph q n :=
  { h with size := h.size.trans (Nat.add_le_add_left hle _) }

theorem visit_grows (hend : edge.end_ ∈ graph) (p : RoutePlanner Q) (c t : K) :
    p.Grows graph (p.visit c edge t) 1 := by
  unfold visit
  split
  · exact
      { goalId := rfl
        foreign := by
          intro v hv
          have hne : v ≠ edge.end_ := by
            rintro rfl
            exact hv hend
          exact Function.update_of_ne hne _ _
        queue := by
          intro a ha
          rcases Multiset.mem_cons.mp (by simpa [Queued, addNode, setState] using ha) with rfl | hmem
          · exact Or.inr hend
          · exact Or.inl hmem
        keep := by
          intro a ha
          simpa [Queued, addNode, setState] using Or.inr ha
        size := by simp [PriorityQueue.size, addNode, setState] }
  · exact (Grows.refl p).mono (Nat.zero_le 1)

section Invariant

variable [IsOrderedAddMonoid K] {hgraph : RoutingGraph nodes graph} {hpriced : Priced nodes scorer graph} {root v : ν}
  {settled : Finset ν} {pending pending' : DirectionalEdge ν K → Prop}

variable (hgraph hpriced blockedIds) in
abbrev Labelled (p : RoutePlanner Q) (root : ν) (settled : Finset ν) (pending : DirectionalEdge ν K → Prop) : Prop :=
  (passage hgraph hpriced blockedIds).Searching root p.dist p.parent settled pending p.Queued

theorem Labelled.visit (h : p.Labelled blockedIds hgraph hpriced root settled pending)
    (hmax : ∀ u ∈ settled, p.dist u ≤ c) (he : Passable nodes graph blockedIds edge) (hsettled : edge.start ∈ settled)
    (hdist : p.dist edge.start = c) (hpending : ∀ d, pending d → d = edge ∨ pending' d) :
    (p.visit c edge edge.edgeCost.cost).Labelled blockedIds hgraph hpriced root settled pending' ∧
      ∀ u ∈ settled, (p.visit c edge edge.edgeCost.cost).dist u = p.dist u := by
  by_cases hlt : ((c + edge.edgeCost.cost : K) : WithTop K) < p.dist edge.end_
  · have hfresh : edge.end_ ∉ settled :=
      Network.Searching.notMem_of_lt (N := passage hgraph hpriced blockedIds) hmax he hlt
    constructor
    · unfold Labelled
      rw [visit_dist hlt, visit_parent hlt]
      exact h.relax hmax he hsettled hdist hlt hpending (visit_queued hlt)
    · intro u hu
      have hne : u ≠ edge.end_ := by
        rintro rfl
        exact hfresh hu
      rw [visit_dist hlt, Function.update_of_ne hne]
  · rw [visit_of_not_lt (not_lt.mp hlt)]
    refine ⟨h.discharge fun d _ _ hd hnot => ?_, fun _ _ => rfl⟩
    obtain rfl : d = edge := (hpending d hd).resolve_right hnot
    show p.dist d.end_ ≤ p.dist d.start + d.edgeCost.cost
    rw [hdist, ← WithTop.coe_add]
    exact not_lt.mp hlt

/-- 落ち着いた節点から出る辺を調べ終えると、その辺はみな反映されている。 -/
theorem Labelled.expand {es : List (DirectionalEdge ν K)} (h : p.Labelled blockedIds hgraph hpriced root settled (· ∈ es))
    (hnode : v ∈ graph) (hes : ∀ edge ∈ es, edge ∈ (nodes v).neighbors) (hv : v ∈ settled)
    (hmax : ∀ u ∈ settled, p.dist u ≤ c) (hdist : p.dist v = c) :
    ∃ q, RoutePlanner.expand nodes scorer blockedIds c es p = (q, none) ∧
      q.Labelled blockedIds hgraph hpriced root settled (fun _ => False) ∧ p.Grows graph q es.length := by
  induction es generalizing p with
  | nil => exact ⟨p, rfl, h.discharge fun _ _ _ hd _ => absurd hd List.not_mem_nil, Grows.refl p⟩
  | cons edge es ih =>
      have hmem := hes edge List.mem_cons_self
      have hstart := hgraph.start v hnode edge hmem
      have hes' : ∀ d ∈ es, d ∈ (nodes v).neighbors := fun d hd => hes d (List.mem_cons_of_mem edge hd)
      rw [RoutePlanner.expand]
      cases hblocked : isBlocked nodes blockedIds edge with
      | true =>
          rw [getTraversalCost_of_blocked hblocked]
          dsimp only
          have hrest : p.Labelled blockedIds hgraph hpriced root settled (· ∈ es) := by
            refine h.discharge fun d hd _ hmem' hnot => ?_
            obtain rfl : d = edge := (List.mem_cons.mp hmem').resolve_right hnot
            rw [isBlocked_eq_false_iff.mpr hd.2.2] at hblocked
            cases hblocked
          obtain ⟨q, hq, hlabelled, hgrows⟩ := ih hrest hes' hmax hdist
          exact ⟨q, hq, hlabelled, hgrows.mono (Nat.le_succ _)⟩
      | false =>
          rw [getTraversalCost_of_priced hblocked (hpriced.pos v hnode edge hmem) (hpriced.plain v hnode edge hmem)]
          dsimp only
          have he : Passable nodes graph blockedIds edge :=
            ⟨hstart ▸ hnode, hstart ▸ hmem, isBlocked_eq_false_iff.mp hblocked⟩
          obtain ⟨hvisit, hsame⟩ := h.visit hmax he (hstart ▸ hv) (hstart ▸ hdist) fun d hd => List.mem_cons.mp hd
          have hmax' : ∀ u ∈ settled, (p.visit c edge edge.edgeCost.cost).dist u ≤ c := fun u hu =>
            (hsame u hu).trans_le (hmax u hu)
          obtain ⟨q, hq, hlabelled, hgrows⟩ := ih hvisit hes' hmax' ((hsame v hv).trans hdist)
          have hstep := visit_grows (hgraph.end_ v hnode edge hmem) p c edge.edgeCost.cost
          exact ⟨q, hq, hlabelled, (hstep.trans hgrows).mono (by rw [List.length_cons, Nat.add_comm])⟩

omit [IsOrderedAddMonoid K] in
/-- 反映の済んだ辺を調べても、何も変わらない。 -/
theorem expand_of_relaxed {es : List (DirectionalEdge ν K)} (hpriced : Priced nodes scorer graph) (hnode : v ∈ graph)
    (hes : ∀ edge ∈ es, edge ∈ (nodes v).neighbors)
    (hrelaxed : ∀ edge ∈ es, isBlocked nodes blockedIds edge = false → p.dist edge.end_ ≤ (c + edge.edgeCost.cost : K)) :
    expand nodes scorer blockedIds c es p = (p, none) := by
  induction es with
  | nil => rfl
  | cons edge es ih =>
      have hmem := hes edge List.mem_cons_self
      have hrest := ih (fun d hd => hes d (List.mem_cons_of_mem edge hd)) fun d hd => hrelaxed d (List.mem_cons_of_mem edge hd)
      rw [expand]
      cases hblocked : isBlocked nodes blockedIds edge with
      | true =>
          rw [getTraversalCost_of_blocked hblocked]
          exact hrest
      | false =>
          rw [getTraversalCost_of_priced hblocked (hpriced.pos v hnode edge hmem) (hpriced.plain v hnode edge hmem)]
          dsimp only
          rw [visit_of_not_lt (hrelaxed edge List.mem_cons_self hblocked)]
          exact hrest

/-! ## 繰り返し -/

/-- 待ち行列の長さと、落ち着いていない節点から出る辺の個数の和。 -/
def measure (nodes : ν → Node ν K) (graph : List ν) (p : RoutePlanner Q) (settled : Finset ν) : ℕ :=
  Q.size p.queue + ∑ v ∈ graph.toFinset \ settled, (nodes v).neighbors.length

/-- グラフの外の節点を指し、費用の合う要素。 -/
def Astray (graph : List ν) (p : RoutePlanner Q) (a : K × ν) : Prop := p.Queued a ∧ a.2 ∉ graph ∧ p.dist a.2 = a.1

/-- グラフの外の節点の状態と、そこを指す要素は変わらない。 -/
structure Kept (graph : List ν) (p q : RoutePlanner Q) : Prop where
  goalId : q.goalId = p.goalId
  astray : ∀ a, q.Astray graph a ↔ p.Astray graph a

omit [AddCommGroup K] [DecidableEq ν] [IsOrderedAddMonoid K] in
theorem Kept.trans {r : RoutePlanner Q} (h : p.Kept graph q) (h' : q.Kept graph r) : p.Kept graph r :=
  ⟨h'.goalId.trans h.goalId, fun a => (h'.astray a).trans (h.astray a)⟩

omit [AddCommGroup K] [DecidableEq ν] [IsOrderedAddMonoid K] in
theorem Grows.kept {n : ℕ} (h : p.Grows graph q n) : p.Kept graph q := by
  refine ⟨h.goalId, fun a => ?_⟩
  have hdist (hforeign : a.2 ∉ graph) : q.dist a.2 = p.dist a.2 :=
    congrArg SearchState.integratedCost (h.foreign a.2 hforeign)
  constructor
  · rintro ⟨ha, hforeign, hcost⟩
    exact ⟨(h.queue a ha).resolve_right hforeign, hforeign, hdist hforeign ▸ hcost⟩
  · rintro ⟨ha, hforeign, hcost⟩
    exact ⟨h.keep a ha, hforeign, (hdist hforeign).trans hcost⟩

omit [AddCommGroup K] [DecidableEq ν] [IsOrderedAddMonoid K] in
/-- 取り出した要素が、グラフの節点を指すか費用の合わないものであれば、グラフの外は変わらない。 -/
theorem kept_of_pop {c : K} {v : ν} {rest : Q.Carrier} (hpop : Q.pop p.queue = some ((c, v), rest))
    (h : v ∈ graph ∨ p.dist v ≠ c) : p.Kept graph { p with queue := rest } := by
  refine ⟨rfl, fun a => ⟨fun ha => ⟨PriorityQueue.mem_of_mem_rest hpop ha.1, ha.2⟩, fun ha => ⟨?_, ha.2⟩⟩⟩
  refine PriorityQueue.mem_rest_of_ne hpop ha.1 ?_
  rintro rfl
  exact h.elim ha.2.1 (absurd ha.2.2)

variable (hgraph hpriced blockedIds) in
/-- 目標に至る最短の道が親の辺に書かれているか、目標に届かない。 -/
def Answered (q : RoutePlanner Q) (root goal : ν) : Prop :=
  (∃ settled es, goal ∉ settled ∧ (∀ u ∈ settled, u ∈ graph) ∧ es.length ≤ settled.card ∧
    (passage hgraph hpriced blockedIds).Traced root q.dist q.parent settled goal es ∧
    ∀ es', (passage hgraph hpriced blockedIds).IsPath root es' goal →
      (passage hgraph hpriced blockedIds).pathLength es ≤ (passage hgraph hpriced blockedIds).pathLength es') ∨
  (q.parent goal = none ∧ ∀ es, ¬ (passage hgraph hpriced blockedIds).IsPath root es goal)

/-- 目標を取り出したときの答え。 -/
theorem Labelled.found {goal : ν} (h : p.Labelled blockedIds hgraph hpriced root settled (fun _ => False))
    (hroot : root ∈ graph) (hgoal : goal ∈ graph) (hsettled : goal ∉ settled) (hdist : p.dist goal = c)
    (hmin : ∀ a, p.Queued a → c ≤ a.1) : p.Answered blockedIds hgraph hpriced root goal := by
  obtain ⟨es, htraced, hlength⟩ := h.traced goal hgoal (hdist ▸ WithTop.coe_ne_top)
  rw [if_neg hsettled] at hlength
  refine Or.inl ⟨settled, es, hsettled, h.node, hlength, htraced, fun es' hpath => ?_⟩
  have hc : c = (passage hgraph hpriced blockedIds).pathLength es :=
    WithTop.coe_injective (hdist.symm.trans htraced.dist_eq)
  rw [← hc]
  exact h.optimal hroot hdist hmin hpath

/-- 待ち行列が空になったときの答え。 -/
theorem Labelled.missed {goal : ν} (h : p.Labelled blockedIds hgraph hpriced root settled (fun _ => False))
    (hroot : root ∈ graph) (hgoal : goal ∈ graph) (hsettled : goal ∉ settled) (hempty : ∀ a, ¬ p.Queued a) :
    p.Answered blockedIds hgraph hpriced root goal := by
  refine Or.inr ⟨h.unreached goal hgoal ?_, h.unreachable hroot hempty hgoal hsettled⟩
  by_contra htop
  obtain ⟨d, hd⟩ := WithTop.ne_top_iff_exists.mp htop
  exact hempty _ (h.queued goal d hgoal hd.symm hsettled)

/-- 取り出した節点を落ち着かせ、そこから出る辺を調べる。初めて落ち着く節点の辺の分だけ、残りが減る。 -/
theorem Labelled.advance (h : p.Labelled blockedIds hgraph hpriced root settled (fun _ => False)) (hv : v ∈ graph)
    (hdist : p.dist v = c) (hmin : ∀ a, p.Queued a → c ≤ a.1) (hmem : p.Queued (c, v)) {rest : Q.Carrier}
    (hrest : ∀ a, a ∈ Q.elems rest → p.Queued a) (hkeep : ∀ a, p.Queued a → a ≠ (c, v) → a ∈ Q.elems rest) :
    ∃ q n, RoutePlanner.expand nodes scorer blockedIds c (nodes v).neighbors { p with queue := rest } = (q, none) ∧
      q.Labelled blockedIds hgraph hpriced root (insert v settled) (fun _ => False) ∧
      Grows graph { p with queue := rest } q n ∧
      q.measure nodes graph (insert v settled) ≤ measure nodes graph { p with queue := rest } settled := by
  have hsettle : Labelled blockedIds hgraph hpriced { p with queue := rest } root (insert v settled)
      (fun edge => edge.start = v) := h.settle hv hdist hmin hrest hkeep
  by_cases hold : v ∈ settled
  · have hrelaxed : ∀ edge ∈ (nodes v).neighbors, isBlocked nodes blockedIds edge = false →
        p.dist edge.end_ ≤ (c + edge.edgeCost.cost : K) := by
      intro edge hedge hopen
      have hstart := hgraph.start v hv edge hedge
      have hsrc : edge.start ∈ settled := hstart ▸ hold
      have hle := h.relaxed edge ⟨hstart ▸ hv, hstart ▸ hedge, isBlocked_eq_false_iff.mp hopen⟩ hsrc not_false
      rw [WithTop.coe_add, ← hdist, ← hstart]
      exact hle
    refine ⟨{ p with queue := rest }, 0, expand_of_relaxed hpriced hv (fun _ => id) hrelaxed, ?_, Grows.refl _, ?_⟩
    · rw [Finset.insert_eq_of_mem hold] at hsettle ⊢
      exact hsettle.discharge fun edge hedge hsrc _ _ => h.relaxed edge hedge hsrc not_false
    · rw [Finset.insert_eq_of_mem hold]
  · have hpending : Labelled blockedIds hgraph hpriced { p with queue := rest } root (insert v settled)
        (· ∈ (nodes v).neighbors) :=
      hsettle.discharge fun edge hedge _ hsrc hnot => absurd (hsrc ▸ hedge.2.1) hnot
    obtain ⟨q, hq, hlabelled, hgrows⟩ := hpending.expand hv (fun _ => id) (Finset.mem_insert_self v settled)
      (h.dist_le_popped hdist hmem) hdist
    refine ⟨q, _, hq, hlabelled, hgrows, ?_⟩
    have hsum := Finset.add_sum_erase (graph.toFinset \ settled) (fun u => (nodes u).neighbors.length)
      (Finset.mem_sdiff.mpr ⟨List.mem_toFinset.mpr hv, hold⟩)
    have hsize := hgrows.size
    simp only [measure, Finset.sdiff_insert] at hsum hsize ⊢
    omega

/-- 経路のないことを表す例外。 -/
def noRoute : RouteError := .noValidRouteCouldBeFound "Could not find a route to the requested goal!"

def tooLong : RouteError := .timedOut "Maximum iterations was exceeded!"

/-- 待ち行列が空であるか、次に取り出す要素が、費用の合う、目標かグラフの外の節点を指す。 -/
def Halts (graph : List ν) (q : RoutePlanner Q) (goal : ν) : Prop :=
  Q.pop q.queue = none ∨
    ∃ c v rest, Q.pop q.queue = some ((c, v), rest) ∧ q.dist v = c ∧ (v = goal ∨ v ∉ graph)

/-- 繰り返しは、上限に達するか、札の正しいまま、止まるべき所に着く。 -/
theorem search_reaches {goal : ν} (remaining : ℕ)
    (h : p.Labelled blockedIds hgraph hpriced root settled (fun _ => False)) (hgoalId : p.goalId = (nodes goal).nodeid)
    (hgoal : goal ∈ graph) (hsettled : goal ∉ settled) :
    ((search nodes scorer blockedIds remaining p).2 = some tooLong ∧ remaining ≤ p.measure nodes graph settled) ∨
      ∃ n q settled', search nodes scorer blockedIds remaining p = search nodes scorer blockedIds (n + 1) q ∧
        q.Labelled blockedIds hgraph hpriced root settled' (fun _ => False) ∧ goal ∉ settled' ∧ p.Kept graph q ∧
        q.Halts graph goal := by
  induction remaining generalizing p settled with
  | zero => exact Or.inl ⟨rfl, Nat.zero_le _⟩
  | succ remaining ih =>
      by_cases hhalts : p.Halts graph goal
      · exact Or.inr ⟨remaining, p, settled, rfl, h, hsettled, ⟨rfl, fun _ => Iff.rfl⟩, hhalts⟩
      · rw [Halts, not_or] at hhalts
        obtain ⟨⟨⟨c, v⟩, rest⟩, hpop⟩ := Option.ne_none_iff_exists'.mp hhalts.1
        have hmem : p.Queued (c, v) := PriorityQueue.mem_of_pop hpop
        have hmin : ∀ a, p.Queued a → c ≤ a.1 := Q.le_of_pop hpop
        have hrest : ∀ a, a ∈ Q.elems rest → p.Queued a := fun a => PriorityQueue.mem_of_mem_rest hpop
        have hkeep : ∀ a, p.Queued a → a ≠ (c, v) → a ∈ Q.elems rest := fun a => PriorityQueue.mem_rest_of_ne hpop
        have hmeasure : p.measure nodes graph settled = measure nodes graph { p with queue := rest } settled + 1 := by
          have hsize : Q.size p.queue = Q.size rest + 1 := PriorityQueue.size_of_pop hpop
          simp only [measure]
          omega
        rw [search, hpop]
        dsimp only
        by_cases hdead : (c : WithTop K) ≠ (p.searchState v).integratedCost
        · rw [if_pos hdead, hmeasure]
          have hdrop : Labelled blockedIds hgraph hpriced { p with queue := rest } root settled (fun _ => False) :=
            h.drop (fun _ => hdead.symm) hrest hkeep
          have hkept : p.Kept graph { p with queue := rest } := kept_of_pop hpop (Or.inr hdead.symm)
          refine (ih hdrop hgoalId hsettled).imp (fun hout => ⟨hout.1, Nat.succ_le_succ hout.2⟩) ?_
          rintro ⟨n, q, settled', hrun, hlabelled, hnot, hq, hq'⟩
          exact ⟨n, q, settled', hrun, hlabelled, hnot, hkept.trans hq, hq'⟩
        · rw [if_neg hdead]
          have hdist : p.dist v = c := (not_not.mp hdead).symm
          obtain ⟨hne, hv⟩ : v ≠ goal ∧ v ∈ graph := by
            by_contra hnot
            exact hhalts.2 ⟨c, v, rest, hpop, hdist, by tauto⟩
          have hisGoal : ¬ isGoal nodes { p with queue := rest } v = true :=
            fun hid => hne (hgraph.nodeid v hv goal hgoal ((beq_iff_eq.mp hid).trans hgoalId))
          obtain ⟨q, k, hq, hlabelled, hgrows, hle⟩ := h.advance hv hdist hmin hmem hrest hkeep
          have hkept : p.Kept graph q := (kept_of_pop hpop (Or.inl hv)).trans hgrows.kept
          have hnotin : goal ∉ insert v settled := by
            rw [Finset.mem_insert, not_or]
            exact ⟨hne.symm, hsettled⟩
          rw [if_neg hisGoal, hq, hmeasure]
          refine (ih hlabelled (hgrows.goalId.trans hgoalId) hnotin).imp
            (fun hout => ⟨hout.1, Nat.succ_le_succ (hout.2.trans hle)⟩) ?_
          rintro ⟨n, r, settled', hrun, hlabelled', hnot, hr, hr'⟩
          exact ⟨n, r, settled', hrun, hlabelled', hnot, hkept.trans hr, hr'⟩

variable (hgraph hpriced blockedIds) in
/-- グラフの外の節点を指し、費用の合う要素は、目標へのある道より遠い。 -/
def Late (p : RoutePlanner Q) (root goal : ν) : Prop :=
  ∀ a, p.Astray graph a → ∃ es, (passage hgraph hpriced blockedIds).IsPath root es goal ∧
    (passage hgraph hpriced blockedIds).pathLength es < a.1

omit [AddCommGroup K] [DecidableEq ν] [IsOrderedAddMonoid K] in
theorem not_queued_of_pop_none (hpop : Q.pop p.queue = none) (a : K × ν) : ¬ p.Queued a := by
  intro ha
  rw [Queued, PriorityQueue.pop_eq_none_iff.mp hpop] at ha
  exact Multiset.notMem_zero a ha

theorem search_answered {goal : ν} (remaining : ℕ)
    (h : p.Labelled blockedIds hgraph hpriced root settled (fun _ => False))
    (hlate : p.Late blockedIds hgraph hpriced root goal) (hroot : root ∈ graph) (hgoal : goal ∈ graph)
    (hgoalId : p.goalId = (nodes goal).nodeid) (hsettled : goal ∉ settled) :
    ((search nodes scorer blockedIds remaining p).2 = some tooLong ∧ remaining ≤ p.measure nodes graph settled) ∨
      ((search nodes scorer blockedIds remaining p).2 = none ∧
        (search nodes scorer blockedIds remaining p).1.Answered blockedIds hgraph hpriced root goal) := by
  refine (search_reaches remaining h hgoalId hgoal hsettled).imp_right ?_
  rintro ⟨n, q, settled', hrun, hlabelled, hnot, hkept, hpop | ⟨c, v, rest, hpop, hdist, hend⟩⟩
  · rw [hrun, search, hpop]
    exact ⟨rfl, hlabelled.missed hroot hgoal hnot (not_queued_of_pop_none hpop)⟩
  · have hmin : ∀ a, q.Queued a → c ≤ a.1 := Q.le_of_pop hpop
    obtain rfl : v = goal := by
      refine hend.resolve_right fun hforeign => ?_
      obtain ⟨es, hpath, hlt⟩ := hlate (c, v) ((hkept.astray _).mp ⟨PriorityQueue.mem_of_pop hpop, hforeign, hdist⟩)
      obtain ⟨a, ha, hle⟩ := hlabelled.exists_queued_le hroot hgoal hnot hpath
      exact absurd ((hmin a ha).trans hle) (not_le.mpr hlt)
    have halive : ¬ (c : WithTop K) ≠ (q.searchState v).integratedCost := not_not.mpr hdist.symm
    have hisGoal : isGoal nodes { q with queue := rest } v = true := beq_iff_eq.mpr (hgoalId.symm.trans hkept.goalId.symm)
    rw [hrun, search, hpop]
    dsimp only
    rw [if_neg halive, if_pos hisGoal]
    exact ⟨rfl, hlabelled.found hroot hgoal hnot hdist hmin⟩

/-! ## 計画の結果 -/

omit [AddCommGroup K] [IsOrderedAddMonoid K] in
theorem backtrack_of_none {goal : ν} (hnone : p.parent goal = none) (fuel : ℕ) (edges : List (DirectionalEdge ν K)) :
    p.backtrack goal fuel edges = some (p, edges) := by
  have hend : (p.searchState goal).parentEdge = none := hnone
  cases fuel with
  | zero => rw [backtrack, hend]
  | succ fuel => rw [backtrack, hend]

omit [AddCommGroup K] [IsOrderedAddMonoid K] in
theorem backtrack_of_some {goal : ν} (hsome : p.parent goal = some edge) (fuel : ℕ) (edges : List (DirectionalEdge ν K)) :
    p.backtrack goal (fuel + 1) edges =
      backtrack goal fuel
        (p.setState goal { p.searchState goal with parentEdge := (p.searchState edge.start).parentEdge })
        (edges ++ [edge]) := by
  have hnext : (p.searchState goal).parentEdge = some edge := hsome
  rw [backtrack, hnext]

omit [IsOrderedAddMonoid K] in
/-- 親の辺をたどると、道が逆順に集まる。途中の節点は目標ではないので、目標の `parent_edge` に書いても道は変わらない。 -/
theorem backtrack_traced {goal : ν} {es acc : List (DirectionalEdge ν K)} {fuel : ℕ} (hgoal : goal ∉ settled)
    (h : (passage hgraph hpriced blockedIds).Traced root q.dist q.parent settled v es) (hparent : p.parent goal = q.parent v)
    (hsame : ∀ u ∈ settled, p.parent u = q.parent u) (hfuel : es.length ≤ fuel) :
    ∃ p', p.backtrack goal fuel acc = some (p', acc ++ es.reverse) ∧ p'.dist goal = p.dist goal := by
  induction h generalizing p acc fuel with
  | root hnone _ =>
      refine ⟨p, ?_, rfl⟩
      rw [backtrack_of_none (hparent.trans hnone), List.reverse_nil, List.append_nil]
  | @step edge es _ hedge hsettled _ _ ih =>
      rw [List.length_append, List.length_singleton] at hfuel
      obtain ⟨k, rfl⟩ : ∃ k, fuel = k + 1 := ⟨fuel - 1, by omega⟩
      let next : RoutePlanner Q := p.setState goal
        { p.searchState goal with parentEdge := (p.searchState edge.start).parentEdge }
      have hnext : next.parent goal = q.parent edge.start := by
        simp only [next, parent, setState, Function.update_self]
        exact hsame _ hsettled
      have hrest : ∀ u ∈ settled, next.parent u = q.parent u := by
        intro u hu
        have hne : u ≠ goal := by
          rintro rfl
          exact hgoal hu
        simp only [next, parent, setState, Function.update_of_ne hne]
        exact hsame u hu
      obtain ⟨p', hp', hdist⟩ := ih hnext hrest (Nat.le_of_succ_le_succ hfuel)
      refine ⟨p', ?_, hdist.trans ?_⟩
      · rw [backtrack_of_some (hparent.trans hedge), hp', List.reverse_append, List.reverse_singleton, List.append_assoc]
      · simp [next, dist, setState]

omit [IsOrderedAddMonoid K] in
theorem setup_labelled {startNode goalNode : ν} (hstart : startNode ∈ graph) (p : RoutePlanner Q) :
    (p.setup nodes graph startNode goalNode).Labelled blockedIds hgraph hpriced startNode ∅ (fun _ => False) := by
  refine Network.Searching.start ?_ (fun v hv hne => ?_) (fun v hv => ?_) hstart ?_
  · simp [dist, setup, setState, addNode]
  · have hv' : v ∈ graph := hv
    simp [dist, setup, setState, addNode, resetSearchStates, SearchState.reset, hne, hv']
  · have hv' : v ∈ graph := hv
    by_cases hne : v = startNode
    · subst hne
      simp [parent, setup, setState, addNode, resetSearchStates, SearchState.reset, hv']
    · simp [parent, setup, setState, addNode, resetSearchStates, SearchState.reset, hne, hv']
  · simp [Queued, setup, addNode]

omit [IsOrderedAddMonoid K] in
theorem setup_astray {startNode goalNode : ν} (hstart : startNode ∈ graph) (p : RoutePlanner Q) (a : K × ν) :
    (p.setup nodes graph startNode goalNode).Astray graph a ↔ p.Astray graph a := by
  have hdist (hforeign : a.2 ∉ graph) : (p.setup nodes graph startNode goalNode).dist a.2 = p.dist a.2 := by
    have hne : a.2 ≠ startNode := by
      rintro heq
      exact hforeign (heq ▸ hstart)
    simp [dist, setup, setState, addNode, resetSearchStates, hne, hforeign]
  have hqueued : (p.setup nodes graph startNode goalNode).Queued a ↔ a = (0, startNode) ∨ p.Queued a := by
    simp [Queued, setup, addNode, setState, resetSearchStates]
  rw [Astray, Astray, hqueued]
  constructor
  · rintro ⟨ha, hforeign, hcost⟩
    refine ⟨ha.resolve_left ?_, hforeign, hdist hforeign ▸ hcost⟩
    rintro rfl
    exact hforeign hstart
  · rintro ⟨ha, hforeign, hcost⟩
    exact ⟨Or.inr ha, hforeign, (hdist hforeign).trans hcost⟩

section Outcome

variable {startIndex goalIndex : ℕ} {startNode goalNode : ν} (hstart : graph[startIndex]? = some startNode)
  (hgoal : graph[goalIndex]? = some goalNode)
include hstart hgoal

omit [IsOrderedAddMonoid K] in
theorem findRoute_of_error {error : RouteError}
    (hfound : p.findShortestGraphTraversal nodes scorer blockedIds graph startNode goalNode = (q, some error)) :
    (p.findRoute nodes scorer blockedIds graph startIndex goalIndex).2 = some (.error error) := by
  have hne : graph ≠ [] := List.ne_nil_of_mem (List.mem_of_getElem? hstart)
  rw [findRoute, if_neg hne, hstart, hgoal]
  dsimp only
  rw [hfound]

omit [IsOrderedAddMonoid K] in
theorem findRoute_of_unreached
    (hfound : p.findShortestGraphTraversal nodes scorer blockedIds graph startNode goalNode = (q, none))
    (hparent : q.parent goalNode = none) :
    (p.findRoute nodes scorer blockedIds graph startIndex goalIndex).2 = some (.error noRoute) := by
  have hne : graph ≠ [] := List.ne_nil_of_mem (List.mem_of_getElem? hstart)
  have hnone : (q.searchState goalNode).parentEdge = none := hparent
  rw [findRoute, if_neg hne, hstart, hgoal]
  dsimp only
  rw [hfound]
  dsimp only
  rw [if_pos hnone]
  rfl

omit [IsOrderedAddMonoid K] in
theorem findRoute_of_reached {edges : List (DirectionalEdge ν K)} {r : RoutePlanner Q}
    (hfound : p.findShortestGraphTraversal nodes scorer blockedIds graph startNode goalNode = (q, none))
    (hparent : q.parent goalNode ≠ none) (hback : q.backtrack goalNode graph.length [] = some (r, edges)) :
    (p.findRoute nodes scorer blockedIds graph startIndex goalIndex).2 =
      some (.ok { startNode := startNode, edges := edges.reverse, routeCost := r.dist goalNode }) := by
  have hne : graph ≠ [] := List.ne_nil_of_mem (List.mem_of_getElem? hstart)
  have hsome : ¬ (q.searchState goalNode).parentEdge = none := hparent
  rw [findRoute, if_neg hne, hstart, hgoal]
  dsimp only
  rw [hfound]
  dsimp only
  rw [if_neg hsome, hback]
  rfl

end Outcome

variable (hgraph hpriced blockedIds) in
/-- 経路は、`source` から `target` への最短の道である。 -/
structure Shortest (source target : ν) (route : Route ν K) : Prop where
  startNode : route.startNode = source
  isPath : (passage hgraph hpriced blockedIds).IsPath source route.edges target
  routeCost : route.routeCost = (passage hgraph hpriced blockedIds).pathLength route.edges
  minimal : ∀ es, (passage hgraph hpriced blockedIds).IsPath source es target →
    (passage hgraph hpriced blockedIds).pathLength route.edges ≤ (passage hgraph hpriced blockedIds).pathLength es

variable (hgraph hpriced blockedIds) in
/-- 繰り返しの上限に達しないとき、経路がないと答えるか、最短の経路を答える。 -/
theorem findRoute_cases {startIndex goalIndex : ℕ} {startNode goalNode : ν}
    (hstart : graph[startIndex]? = some startNode) (hgoal : graph[goalIndex]? = some goalNode)
    (hne : startNode ≠ goalNode) (hlate : p.Late blockedIds hgraph hpriced startNode goalNode) :
    ((p.findRoute nodes scorer blockedIds graph startIndex goalIndex).2 = some (.error tooLong) ∧
        p.maxIterations ≤ Q.size p.queue + ∑ v ∈ graph.toFinset, (nodes v).neighbors.length + 1) ∨
      ((p.findRoute nodes scorer blockedIds graph startIndex goalIndex).2 = some (.error noRoute) ∧
        ∀ es, ¬ (passage hgraph hpriced blockedIds).IsPath startNode es goalNode) ∨
      ∃ route, (p.findRoute nodes scorer blockedIds graph startIndex goalIndex).2 = some (.ok route) ∧
        Shortest blockedIds hgraph hpriced startNode goalNode route := by
  have hstart' : startNode ∈ graph := List.mem_of_getElem? hstart
  have hgoal' : goalNode ∈ graph := List.mem_of_getElem? hgoal
  have hlabelled : (p.setup nodes graph startNode goalNode).Labelled blockedIds hgraph hpriced startNode ∅
      (fun _ => False) := setup_labelled hstart' p
  have hlate' : (p.setup nodes graph startNode goalNode).Late blockedIds hgraph hpriced startNode goalNode :=
    fun a ha => hlate a ((setup_astray hstart' p a).mp ha)
  have hsearch := search_answered p.maxIterations hlabelled hlate' hstart' hgoal' rfl (Finset.notMem_empty goalNode)
  cases hfound : p.findShortestGraphTraversal nodes scorer blockedIds graph startNode goalNode with
  | mk q error =>
      rw [← findShortestGraphTraversal, hfound] at hsearch
      rcases hsearch with ⟨hlimit, hmeasure⟩ | ⟨hdone, hanswer⟩
      · obtain rfl : error = some tooLong := hlimit
        refine Or.inl ⟨findRoute_of_error hstart hgoal hfound, hmeasure.trans_eq ?_⟩
        simp [measure, PriorityQueue.size, setup, setState, addNode, resetSearchStates]
        omega
      · obtain rfl : error = none := hdone
        rcases hanswer with ⟨settled, es, hgoalsettled, hsub, hlength, htraced, hbest⟩ | ⟨hparent, hpath⟩
        · have hparent : q.parent goalNode ≠ none := htraced.parent_ne_none hne.symm
          have hcard : settled.card ≤ graph.length :=
            (Finset.card_le_card fun u hu => List.mem_toFinset.mpr (hsub u hu)).trans (List.toFinset_card_le graph)
          obtain ⟨r, hback, hdist⟩ := backtrack_traced hgoalsettled htraced rfl (fun _ _ => rfl) (hlength.trans hcard)
          refine Or.inr (Or.inr ⟨_, findRoute_of_reached hstart hgoal hfound hparent hback, ?_⟩)
          rw [List.nil_append, List.reverse_reverse]
          exact ⟨rfl, htraced.isPath, hdist.trans htraced.dist_eq, hbest⟩
        · exact Or.inr (Or.inl ⟨findRoute_of_unreached hstart hgoal hfound hparent, hpath⟩)

end Invariant

/-! ## 続けての計画 -/

/-- 待ち行列の要素は、グラフの節点を指す。 -/
def Own (graph : List ν) (p : RoutePlanner Q) : Prop := ∀ a, p.Queued a → a.2 ∈ graph

omit [AddCommGroup K] [DecidableEq ν] in
theorem Own.not_astray (h : p.Own graph) (a : K × ν) : ¬ p.Astray graph a := fun ha => ha.2.1 (h a ha.1)

omit [AddCommGroup K] [DecidableEq ν] in
theorem Own.grows (h : p.Own graph) {n : ℕ} (hgrows : p.Grows graph q n) : q.Own graph := fun a ha =>
  (hgrows.queue a ha).elim (h a) id

/-- 例外で終わっても、待ち行列にはグラフの節点だけが加わる。 -/
theorem expand_own {es : List (DirectionalEdge ν K)} (hend : ∀ edge ∈ es, edge.end_ ∈ graph) (h : p.Own graph) :
    (expand nodes scorer blockedIds c es p).1.Own graph := by
  induction es generalizing p with
  | nil => exact h
  | cons edge es ih =>
      have hrest : ∀ d ∈ es, d.end_ ∈ graph := fun d hd => hend d (List.mem_cons_of_mem edge hd)
      rw [expand]
      cases p.getTraversalCost nodes scorer blockedIds edge with
      | error error => exact h
      | ok cost =>
          cases cost with
          | none => exact ih hrest h
          | some t => exact ih hrest (h.grows (visit_grows (hend edge List.mem_cons_self) p c t))

omit [AddCommGroup K] [DecidableEq ν] in
theorem clearQueue_own (p : RoutePlanner Q) : p.clearQueue.Own graph := by
  intro a ha
  rw [Queued, clearQueue, Q.elems_empty] at ha
  exact absurd ha (Multiset.notMem_zero a)

theorem search_own (hgraph : RoutingGraph nodes graph) (remaining : ℕ) (h : p.Own graph) :
    (search nodes scorer blockedIds remaining p).1.Own graph := by
  induction remaining generalizing p with
  | zero => exact clearQueue_own p
  | succ remaining ih =>
      rw [search]
      cases hpop : Q.pop p.queue with
      | none => exact h
      | some popped =>
          obtain ⟨⟨c, v⟩, rest⟩ := popped
          have hv : v ∈ graph := h (c, v) (PriorityQueue.mem_of_pop hpop)
          have hrest : Own graph { p with queue := rest } :=
            fun a ha => h a (PriorityQueue.mem_of_mem_rest hpop ha)
          dsimp only
          split
          · exact ih hrest
          · split
            · exact clearQueue_own _
            · have hexpand : (expand nodes scorer blockedIds c (nodes v).neighbors { p with queue := rest }).1.Own graph :=
                expand_own (hgraph.end_ v hv) hrest
              generalize expand nodes scorer blockedIds c (nodes v).neighbors { p with queue := rest } = expanded at hexpand ⊢
              obtain ⟨q, error⟩ := expanded
              cases error with
              | none => exact ih hexpand
              | some error => exact hexpand

theorem setup_own {startNode goalNode : ν} (hstart : startNode ∈ graph) (h : p.Own graph) :
    (p.setup nodes graph startNode goalNode).Own graph := by
  intro a ha
  rcases Multiset.mem_cons.mp (by simpa [Queued, setup, addNode, setState, resetSearchStates] using ha) with rfl | hmem
  · exact hstart
  · exact h a hmem

omit [AddCommGroup K] in
theorem backtrack_queue {goal : ν} {fuel : ℕ} {edges : List (DirectionalEdge ν K)}
    {r : RoutePlanner Q × List (DirectionalEdge ν K)} (h : p.backtrack goal fuel edges = some r) :
    r.1.queue = p.queue := by
  induction fuel generalizing p edges with
  | zero =>
      rw [backtrack] at h
      split at h
      · cases h
        rfl
      · cases h
  | succ fuel ih =>
      rw [backtrack] at h
      split at h
      · cases h
        rfl
      · exact (ih h).trans rfl

/-- 待ち行列の要素がグラフの節点を指すことは、例外で終わった計画の後にも成り立つ。 -/
theorem findRoute_own (hgraph : RoutingGraph nodes graph) (startIndex goalIndex : ℕ) (h : p.Own graph) :
    (p.findRoute nodes scorer blockedIds graph startIndex goalIndex).1.Own graph := by
  rw [findRoute]
  split
  · exact h
  · cases hstart : graph[startIndex]? with
    | none => exact h
    | some startNode =>
        cases hgoal : graph[goalIndex]? with
        | none => exact h
        | some goalNode =>
            have hsearch : (p.findShortestGraphTraversal nodes scorer blockedIds graph startNode goalNode).1.Own graph :=
              search_own hgraph p.maxIterations (setup_own (List.mem_of_getElem? hstart) h)
            dsimp only
            generalize p.findShortestGraphTraversal nodes scorer blockedIds graph startNode goalNode = found at hsearch ⊢
            obtain ⟨q, error⟩ := found
            cases error with
            | some error => exact hsearch
            | none =>
                dsimp only
                split
                · exact hsearch
                · cases hback : q.backtrack goalNode graph.length [] with
                  | none => exact hsearch
                  | some r =>
                      intro a ha
                      refine hsearch a ?_
                      rw [Queued, ← backtrack_queue hback]
                      exact ha

structure Call (ν K : Type) where
  nodes : ν → Node ν K
  scorer : EdgeScorer ν K
  blockedIds : List ℕ
  startIndex : ℕ
  goalIndex : ℕ

def afterCalls (graph : List ν) (p : RoutePlanner Q) (calls : List (Call ν K)) : RoutePlanner Q :=
  calls.foldl (fun p call => (p.findRoute call.nodes call.scorer call.blockedIds graph call.startIndex call.goalIndex).1) p

/-- 同じ節点のグラフで続けて計画するとき、辺が途中で変わっても、前の計画が例外で終わっていても、グラフの外を指す要素は残らない。 -/
theorem afterCalls_own {calls : List (Call ν K)} (hcalls : ∀ call ∈ calls, RoutingGraph call.nodes graph)
    (h : p.Own graph) : (p.afterCalls graph calls).Own graph := by
  induction calls generalizing p with
  | nil => exact h
  | cons call calls ih =>
      refine ih (fun d hd => hcalls d (List.mem_cons_of_mem call hd)) ?_
      exact findRoute_own (hcalls call List.mem_cons_self) call.startIndex call.goalIndex h

/-! ## 計画の正しさ -/

section Answers

variable [IsOrderedAddMonoid K] {hgraph : RoutingGraph nodes graph} {hpriced : Priced nodes scorer graph}
  {startIndex goalIndex : ℕ} {startNode goalNode : ν}

variable (hgraph hpriced blockedIds) in
/-- 上限に達しないとき、目標に届かないことを答えるか、最短の経路を答える。上限は、待ち行列の長さと辺の個数の和を超えれば達しない。 -/
def Answers (p : RoutePlanner Q) (startIndex goalIndex : ℕ) (startNode goalNode : ν) : Prop :=
  (Q.size p.queue + ∑ v ∈ graph.toFinset, (nodes v).neighbors.length + 1 < p.maxIterations →
    (p.findRoute nodes scorer blockedIds graph startIndex goalIndex).2 ≠ some (.error tooLong)) ∧
  ((p.findRoute nodes scorer blockedIds graph startIndex goalIndex).2 ≠ some (.error tooLong) →
    ((p.findRoute nodes scorer blockedIds graph startIndex goalIndex).2 = some (.error noRoute) ↔
      ∀ es, ¬ (passage hgraph hpriced blockedIds).IsPath startNode es goalNode) ∧
    ((p.findRoute nodes scorer blockedIds graph startIndex goalIndex).2 ≠ some (.error noRoute) →
      ∃ route, (p.findRoute nodes scorer blockedIds graph startIndex goalIndex).2 = some (.ok route) ∧
        Shortest blockedIds hgraph hpriced startNode goalNode route))

theorem answers_of_late (hstart : graph[startIndex]? = some startNode) (hgoal : graph[goalIndex]? = some goalNode)
    (hne : startNode ≠ goalNode) (hlate : p.Late blockedIds hgraph hpriced startNode goalNode) :
    p.Answers blockedIds hgraph hpriced startIndex goalIndex startNode goalNode := by
  unfold Answers
  rcases findRoute_cases blockedIds hgraph hpriced hstart hgoal hne hlate with
    ⟨hout, hle⟩ | ⟨hout, hnone⟩ | ⟨route, hout, hshortest⟩
  · exact ⟨fun hlt => absurd hlt (not_lt.mpr (by omega)), fun hnot => absurd hout hnot⟩
  · rw [hout]
    exact ⟨fun _ => by simp [noRoute, tooLong], fun _ => ⟨⟨fun _ => hnone, fun _ => rfl⟩, fun hnot => absurd rfl hnot⟩⟩
  · rw [hout]
    refine ⟨fun _ => by simp, fun _ => ⟨⟨fun h => by simp at h, fun h => absurd hshortest.isPath (h _)⟩, fun _ => ?_⟩⟩
    exact ⟨route, rfl, hshortest⟩

/-! ## 先に取り出される要素 -/

/-- 止められていない、費用の正しくない辺を持つ節点。 -/
def trap (id : ℕ) (v : ν) : Node ν K where
  nodeid := id
  neighbors := [⟨id, v, v, ⟨0, false⟩⟩]

omit [IsOrderedAddMonoid K] in
theorem expand_trap (scorer : EdgeScorer ν K) {id : ℕ} {v : ν} (hid : id ∉ blockedIds) (hv : nodes v = trap id v) (c : K)
    (q : RoutePlanner Q) : ∃ message,
      expand nodes scorer blockedIds c (nodes v).neighbors q = (q, some (.noValidGraph message)) := by
  have hopen : isBlocked nodes blockedIds (⟨id, v, v, ⟨0, false⟩⟩ : DirectionalEdge ν K) = false := by
    rw [isBlocked_eq_false_iff]
    intro b hb
    have hne : b ≠ id := fun heq => hid (heq ▸ hb)
    rw [hv]
    exact ⟨hne, hne⟩
  refine ⟨"Edge " ++ toString id ++ " doesn't contain and cannot compute a valid edge cost!", ?_⟩
  rw [hv, trap, expand, getTraversalCost, if_neg (by simp [hopen]), if_pos (by simp), if_pos le_rfl]

/-- グラフの外の節点がどれも `trap` であり、費用の等しい要素ではそこを指すものが先に出るとき、目標への道より遠くない要素は、探索を
例外で終わらせる。 -/
theorem search_trapped {goal root : ν} {settled : Finset ν} {id : ℕ} (hid : id ∉ blockedIds)
    (hgoalNot : (nodes goal).nodeid ≠ id) (htrap : ∀ v, v ∉ graph → nodes v = trap id v) (remaining : ℕ)
    (h : p.Labelled blockedIds hgraph hpriced root settled (fun _ => False)) (hgoalId : p.goalId = (nodes goal).nodeid)
    (hgoal : goal ∈ graph) (hsettled : goal ∉ settled) {a : K × ν} (ha : p.Astray graph a)
    (hshort : ∀ es, (passage hgraph hpriced blockedIds).IsPath root es goal →
      a.1 ≤ (passage hgraph hpriced blockedIds).pathLength es)
    (hfirst : ∀ q b r, Q.pop q = some (b, r) → ∀ a ∈ Q.elems q, a.2 ∉ graph → a.1 = b.1 → b.2 ∉ graph) :
    ((search nodes scorer blockedIds remaining p).2 = some tooLong ∧ remaining ≤ p.measure nodes graph settled) ∨
      ∃ message, (search nodes scorer blockedIds remaining p).2 = some (.noValidGraph message) := by
  refine (search_reaches remaining h hgoalId hgoal hsettled).imp_right ?_
  rintro ⟨n, q, settled', hrun, hlabelled, hnot, hkept, hpop | ⟨c, v, rest, hpop, hdist, hend⟩⟩
  · exact absurd ((hkept.astray a).mpr ha).1 (not_queued_of_pop_none hpop a)
  · have hqueued : q.Queued a := ((hkept.astray a).mpr ha).1
    have hforeign : v ∉ graph := by
      intro hin
      obtain rfl : v = goal := hend.resolve_right (not_not.mpr hin)
      revert hin
      obtain ⟨es, htraced, -⟩ := hlabelled.traced v hgoal (hdist ▸ WithTop.coe_ne_top)
      have hc : c = (passage hgraph hpriced blockedIds).pathLength es :=
        WithTop.coe_injective (hdist.symm.trans htraced.dist_eq)
      have hle : a.1 ≤ c := hc ▸ hshort es htraced.isPath
      exact hfirst q.queue (c, v) rest hpop a hqueued ha.2.1 (le_antisymm hle (Q.le_of_pop hpop a hqueued))
    have halive : ¬ (c : WithTop K) ≠ (q.searchState v).integratedCost := not_not.mpr hdist.symm
    have hnotGoal : ¬ isGoal nodes { q with queue := rest } v = true := by
      intro hisGoal
      have heq : (nodes v).nodeid = q.goalId := beq_iff_eq.mp hisGoal
      rw [hkept.goalId, hgoalId, htrap v hforeign] at heq
      exact hgoalNot heq.symm
    obtain ⟨message, hexpand⟩ := expand_trap scorer hid (htrap v hforeign) c { q with queue := rest }
    refine ⟨message, ?_⟩
    rw [hrun, search, hpop]
    dsimp only
    rw [if_neg halive, if_neg hnotGoal, hexpand]

omit [DecidableEq ν] [IsOrderedAddMonoid K] in
/-- グラフの節点の等しい二つの配置では、止められていない辺は等しい。 -/
theorem passage_congr (hgraph : RoutingGraph nodes graph) (hpriced : Priced nodes scorer graph) {nodes' : ν → Node ν K}
    (hgraph' : RoutingGraph nodes' graph) (hpriced' : Priced nodes' scorer graph) (hsame : ∀ v ∈ graph, nodes' v = nodes v) :
    passage hgraph' hpriced' blockedIds = passage hgraph hpriced blockedIds := by
  have husable : Passable nodes' graph blockedIds = Passable nodes graph blockedIds := by
    funext edge
    refine propext (and_congr_right fun hstart => ?_)
    rw [hsame _ hstart]
    refine and_congr_right fun hedge => ?_
    rw [hsame _ (hgraph.end_ _ hstart edge hedge)]
  simp only [passage, husable]

/-- 費用の等しい要素では、グラフの外の節点を指すものから取り出す待ち行列。 -/
def foreignFirst (graph : List ν) : PriorityQueue (K × ν) Prod.fst :=
  (PriorityQueue.sorted fun a : K × ν => toLex (a.1, decide (a.2 ∈ graph))).coarsen Prod.fst
    fun a b => Prod.Lex.monotone_fst (toLex (a.1, decide (a.2 ∈ graph))) (toLex (b.1, decide (b.2 ∈ graph)))

omit [AddCommGroup K] [IsOrderedAddMonoid K] in
theorem foreignFirst_first {q : (foreignFirst (K := K) graph).Carrier} {a b : K × ν}
    {r : (foreignFirst (K := K) graph).Carrier} (hpop : (foreignFirst graph).pop q = some (b, r))
    (ha : a ∈ (foreignFirst graph).elems q) (hforeign : a.2 ∉ graph) (heq : a.1 = b.1) : b.2 ∉ graph := by
  have hle := (PriorityQueue.sorted fun a : K × ν => toLex (a.1, decide (a.2 ∈ graph))).le_of_pop hpop a ha
  rw [Prod.Lex.toLex_le_toLex] at hle
  intro hmem
  simp only [heq, hforeign, hmem, lt_irrefl, decide_true, decide_false, true_and, false_or] at hle
  exact absurd hle (by decide)

/-- グラフの外に何があり、費用の等しい要素がどの順に出ても計画が正しいのは、前の計画から残った、グラフの外の節点を指し、費用の合う要素が、
どれも目標へのある道より遠いとき、そのときに限る。 -/
theorem findRoute_answers_iff (hgraph : RoutingGraph nodes graph) (hpriced : Priced nodes scorer graph)
    (hstart : graph[startIndex]? = some startNode) (hgoal : graph[goalIndex]? = some goalNode)
    (hne : startNode ≠ goalNode) (blockedIds : List ℕ) (entries : Multiset (K × ν)) (state : ν → SearchState ν K) :
    (∀ (Q : PriorityQueue (K × ν) Prod.fst) (p : RoutePlanner Q) (nodes' : ν → Node ν K)
      (hgraph' : RoutingGraph nodes' graph) (hpriced' : Priced nodes' scorer graph), Q.elems p.queue = entries →
      p.searchState = state → (∀ v ∈ graph, nodes' v = nodes v) →
      p.Answers blockedIds hgraph' hpriced' startIndex goalIndex startNode goalNode) ↔
    ∀ a ∈ entries, a.2 ∉ graph → (state a.2).integratedCost = a.1 →
      ∃ es, (passage hgraph hpriced blockedIds).IsPath startNode es goalNode ∧
        (passage hgraph hpriced blockedIds).pathLength es < a.1 := by
  have hstart' : startNode ∈ graph := List.mem_of_getElem? hstart
  have hgoal' : goalNode ∈ graph := List.mem_of_getElem? hgoal
  constructor
  · intro hall a ha hforeign hcost
    by_contra hnone
    obtain ⟨id, hid⟩ := Infinite.exists_notMem_finset (insert (nodes goalNode).nodeid blockedIds.toFinset)
    rw [Finset.mem_insert, not_or, List.mem_toFinset] at hid
    let nodes' : ν → Node ν K := fun v => if v ∈ graph then nodes v else trap id v
    have hsame : ∀ v ∈ graph, nodes' v = nodes v := fun v hv => if_pos hv
    have hgraph' : RoutingGraph nodes' graph :=
      { nodeid := fun a ha b hb => by rw [hsame a ha, hsame b hb]; exact hgraph.nodeid a ha b hb
        start := fun a ha => by rw [hsame a ha]; exact hgraph.start a ha
        end_ := fun a ha => by rw [hsame a ha]; exact hgraph.end_ a ha }
    have hpriced' : Priced nodes' scorer graph :=
      { pos := fun a ha => by rw [hsame a ha]; exact hpriced.pos a ha
        plain := fun a ha => by rw [hsame a ha]; exact hpriced.plain a ha }
    let p : RoutePlanner (foreignFirst (K := K) graph) :=
      { maxIterations := entries.card + ∑ v ∈ graph.toFinset, (nodes' v).neighbors.length + 2
        startId := 0
        goalId := 0
        queue := (foreignFirst graph).pushAll (foreignFirst graph).empty entries.toList
        searchState := state }
    have helems : (foreignFirst graph).elems p.queue = entries := by
      rw [PriorityQueue.elems_pushAll, PriorityQueue.elems_empty, add_zero, Multiset.coe_toList]
    obtain ⟨hlimit, hanswer⟩ := hall _ p nodes' hgraph' hpriced' helems rfl hsame
    have hsize : (foreignFirst graph).size p.queue = entries.card := congrArg Multiset.card helems
    have hout := hlimit (by rw [hsize]; exact Nat.lt_succ_self _)
    have hlabelled : (p.setup nodes' graph startNode goalNode).Labelled blockedIds hgraph' hpriced' startNode ∅
        (fun _ => False) := setup_labelled hstart' p
    have hastray : p.Astray graph a := ⟨by rw [Queued, helems]; exact ha, hforeign, hcost⟩
    have hshort : ∀ es, (passage hgraph' hpriced' blockedIds).IsPath startNode es goalNode →
        a.1 ≤ (passage hgraph' hpriced' blockedIds).pathLength es := by
      rw [passage_congr hgraph hpriced hgraph' hpriced' hsame]
      exact fun es hpath => not_lt.mp fun hlt => hnone ⟨es, hpath, hlt⟩
    have hgoalNot : (nodes' goalNode).nodeid ≠ id := by
      rw [hsame goalNode hgoal']
      exact fun heq => hid.1 heq.symm
    have hsearch := search_trapped hid.2 hgoalNot (fun v hv => if_neg hv)
      p.maxIterations hlabelled rfl hgoal' (Finset.notMem_empty goalNode) ((setup_astray hstart' p a).mpr hastray) hshort
      fun q b r hpop c hc => foreignFirst_first hpop hc
    cases hfound : p.findShortestGraphTraversal nodes' scorer blockedIds graph startNode goalNode with
    | mk q error =>
        rw [← findShortestGraphTraversal, hfound] at hsearch
        rcases hsearch with ⟨htooLong, -⟩ | ⟨message, hmessage⟩
        · obtain rfl : error = some tooLong := htooLong
          exact hout (findRoute_of_error hstart hgoal hfound)
        · obtain rfl : error = some (.noValidGraph message) := hmessage
          have hresult := findRoute_of_error hstart hgoal hfound
          obtain ⟨route, hroute, -⟩ := (hanswer hout).2 (by rw [hresult]; simp [noRoute])
          rw [hresult] at hroute
          cases hroute
  · intro hlate Q p nodes' hgraph' hpriced' helems hstate hsame
    refine answers_of_late hstart hgoal hne fun a ha => ?_
    obtain ⟨hqueued, hforeign, hcost⟩ := ha
    rw [passage_congr hgraph hpriced hgraph' hpriced' hsame]
    rw [dist, hstate] at hcost
    rw [Queued, helems] at hqueued
    exact hlate a hqueued hforeign hcost

end Answers

/-! ## 例外の後の計画の例 -/

abbrev costQueue : PriorityQueue (ℤ × ℕ) Prod.fst := PriorityQueue.sorted Prod.fst

def noPlugins : EdgeScorer ℕ ℤ where
  numPlugins := 0
  score := fun _ _ => .ok none

/-- 待ち行列の空な計画。 -/
def fresh : RoutePlanner costQueue where
  maxIterations := 100
  startId := 0
  goalId := 0
  queue := costQueue.empty
  searchState := fun _ => .reset

/-- 番地 0、1、2 のグラフと番地 20、21、22 のグラフには、費用が 0 の辺がある。番地 10、11、12 のグラフの辺の費用は正である。 -/
def someGraphs : ℕ → Node ℕ ℤ
  | 0 => { nodeid := 1, neighbors := [⟨4, 0, 1, ⟨1, false⟩⟩, ⟨5, 0, 2, ⟨0, false⟩⟩] }
  | 1 => { nodeid := 2, neighbors := [] }
  | 2 => { nodeid := 3, neighbors := [] }
  | 10 => { nodeid := 1, neighbors := [⟨4, 10, 12, ⟨5, false⟩⟩] }
  | 11 => { nodeid := 2, neighbors := [] }
  | 12 => { nodeid := 3, neighbors := [⟨5, 12, 11, ⟨5, false⟩⟩] }
  | 20 => { nodeid := 1, neighbors := [⟨4, 20, 21, ⟨20, false⟩⟩, ⟨5, 20, 22, ⟨0, false⟩⟩] }
  | 21 => { nodeid := 2, neighbors := [] }
  | 22 => { nodeid := 3, neighbors := [] }
  | _ => { nodeid := 0, neighbors := [] }

theorem someGraphs_routing : RoutingGraph someGraphs [10, 11, 12] where
  nodeid := by decide
  start := by decide
  end_ := by decide

theorem someGraphs_priced : Priced someGraphs noPlugins [10, 11, 12] where
  pos := by decide
  plain := by decide

/-- 番地 21 の節点を費用 20 で待ち行列に残し、例外で終わった計画。 -/
def thrown : RoutePlanner costQueue := (fresh.findRoute someGraphs noPlugins [] [20, 21, 22] 0 2).1

-- 費用 20 の要素が残っていても、費用 10 の経路を答える。
theorem findRoute_answers_iff_thrown :
    (fresh.findRoute someGraphs noPlugins [] [20, 21, 22] 0 2).2 =
        some (.error (.noValidGraph "Edge 5 doesn't contain and cannot compute a valid edge cost!")) ∧
      costQueue.elems thrown.queue = {(20, 21)} ∧
      ∃ route, (thrown.findRoute someGraphs noPlugins [] [10, 11, 12] 0 1).2 = some (.ok route) ∧
        Shortest [] someGraphs_routing someGraphs_priced 10 11 route := by
  have hstart : ([10, 11, 12] : List ℕ)[0]? = some 10 := rfl
  have hgoal : ([10, 11, 12] : List ℕ)[1]? = some 11 := rfl
  have hqueue : costQueue.elems thrown.queue = {(20, 21)} := rfl
  have hanswers := (findRoute_answers_iff someGraphs_routing someGraphs_priced hstart hgoal (by decide) []
    {(20, 21)} thrown.searchState).mpr (by
      intro a ha _ _
      obtain rfl := Multiset.mem_singleton.mp ha
      refine ⟨[⟨4, 10, 12, ⟨5, false⟩⟩, ⟨5, 12, 11, ⟨5, false⟩⟩], ?_, ?_⟩
      · exact ⟨⟨by decide, by decide, by simp⟩, rfl, ⟨by decide, by decide, by simp⟩, rfl, rfl⟩
      · show (5 + (5 + 0) : ℤ) < 20
        decide)
  obtain ⟨hlimit, hcorrect⟩ :=
    hanswers costQueue thrown someGraphs someGraphs_routing someGraphs_priced hqueue rfl fun _ _ => rfl
  exact ⟨rfl, hqueue, (hcorrect (hlimit (by decide))).2 (by decide)⟩

-- 前の計画は、番地 1 の節点を費用 1 で待ち行列に入れてから例外で終わる。次の計画は、それを目標と取り違えて終わる。
theorem findRoute_foreign :
    (fresh.findRoute someGraphs noPlugins [] [0, 1, 2] 0 2).2 =
        some (.error (.noValidGraph "Edge 5 doesn't contain and cannot compute a valid edge cost!")) ∧
      ((fresh.findRoute someGraphs noPlugins [] [0, 1, 2] 0 2).1.findRoute someGraphs noPlugins [] [10, 11, 12] 0 1).2 =
        some (.error noRoute) ∧
      (passage someGraphs_routing someGraphs_priced []).IsPath 10 [⟨4, 10, 12, ⟨5, false⟩⟩, ⟨5, 12, 11, ⟨5, false⟩⟩] 11 := by
  refine ⟨rfl, rfl, ⟨by decide, by decide, by simp⟩, rfl, ⟨by decide, by decide, by simp⟩, rfl, rfl⟩

end RoutePlanner

end Ranger.Routing
