import Mathlib.Algebra.Order.Group.Defs
import Mathlib.Algebra.Order.Monoid.Unbundled.WithTop
import Ranger.Lib.Priority

/-!
# 経路の計画（`route_planner.cpp`）

節点は番地 `ν` に置かれ、辺は両端の番地を持つ。グラフは節点の番地の並びであり、探索の状態は節点のところに置かれるので、
グラフがいくつあっても番地で区別される。費用は正確な値とし、`numeric_limits<float>::max()` は `⊤` とする。
辺の費用を求める部品は引数とする。
-/

namespace Ranger.Routing
open Ranger.Lib

variable {ν K : Type} [DecidableEq ν] [AddCommGroup K] [LinearOrder K]

/-! ## グラフ -/

structure EdgeCost (K : Type) where
  cost : K
  overridable : Bool
  deriving DecidableEq

structure DirectionalEdge (ν K : Type) where
  edgeid : ℕ
  start : ν
  end_ : ν
  edgeCost : EdgeCost K
  deriving DecidableEq

structure Node (ν K : Type) where
  nodeid : ℕ
  neighbors : List (DirectionalEdge ν K)

structure SearchState (ν K : Type) where
  parentEdge : Option (DirectionalEdge ν K)
  integratedCost : WithTop K
  traversalCost : WithTop K

def SearchState.reset : SearchState ν K where
  parentEdge := none
  integratedCost := ⊤
  traversalCost := ⊤

structure Route (ν K : Type) where
  startNode : ν
  edges : List (DirectionalEdge ν K)
  routeCost : WithTop K
  deriving DecidableEq

inductive RouteError where
  | noValidGraph (message : String)
  | noValidRouteCouldBeFound (message : String)
  | timedOut (message : String)
  | outOfRange
  deriving DecidableEq

inductive EdgeType where
  | none
  | start
  | end_
  deriving DecidableEq

/-- `score` の `none` は、その辺を通れないことを表す。 -/
structure EdgeScorer (ν K : Type) where
  numPlugins : ℕ
  score : DirectionalEdge ν K → EdgeType → Except RouteError (Option K)

/-! ## 計画 -/

/-- `searchState` は、節点のところに置かれる探索の状態である。 -/
structure RoutePlanner {ν K : Type} [LE K] (Q : PriorityQueue (K × ν) Prod.fst) where
  maxIterations : ℕ
  startId : ℕ
  goalId : ℕ
  queue : Q.Carrier
  searchState : ν → SearchState ν K

namespace RoutePlanner

variable {Q : PriorityQueue (K × ν) Prod.fst}

section Search

variable (nodes : ν → Node ν K) (scorer : EdgeScorer ν K) (blockedIds : List ℕ)

def isStart (p : RoutePlanner Q) (node : ν) : Bool := (nodes node).nodeid == p.startId

def isGoal (p : RoutePlanner Q) (node : ν) : Bool := (nodes node).nodeid == p.goalId

def classifyEdge (p : RoutePlanner Q) (edge : DirectionalEdge ν K) : EdgeType :=
  if p.isStart nodes edge.start then .start else if p.isGoal nodes edge.end_ then .end_ else .none

def isBlocked (edge : DirectionalEdge ν K) : Bool :=
  blockedIds.any fun id => id == edge.edgeid || id == (nodes edge.end_).nodeid

def getTraversalCost (p : RoutePlanner Q) (edge : DirectionalEdge ν K) : Except RouteError (Option K) :=
  if isBlocked nodes blockedIds edge then .ok none
  else if !edge.edgeCost.overridable || scorer.numPlugins == 0 then
    if edge.edgeCost.cost ≤ 0 then
      .error (.noValidGraph ("Edge " ++ toString edge.edgeid ++ " doesn't contain and cannot compute a valid edge cost!"))
    else .ok (some edge.edgeCost.cost)
  else scorer.score edge (p.classifyEdge nodes edge)

def addNode (p : RoutePlanner Q) (cost : K) (node : ν) : RoutePlanner Q :=
  { p with queue := Q.push p.queue (cost, node) }

def clearQueue (p : RoutePlanner Q) : RoutePlanner Q := { p with queue := Q.empty }

def setState (p : RoutePlanner Q) (node : ν) (state : SearchState ν K) : RoutePlanner Q :=
  { p with searchState := Function.update p.searchState node state }

def resetSearchStates (p : RoutePlanner Q) (graph : List ν) : RoutePlanner Q :=
  { p with searchState := fun node => if node ∈ graph then .reset else p.searchState node }

def visit (p : RoutePlanner Q) (currCost : K) (edge : DirectionalEdge ν K) (traversalCost : K) : RoutePlanner Q :=
  if ((currCost + traversalCost : K) : WithTop K) < (p.searchState edge.end_).integratedCost then
    (p.setState edge.end_
      { parentEdge := some edge
        integratedCost := (currCost + traversalCost : K)
        traversalCost := traversalCost }).addNode (currCost + traversalCost) edge.end_
  else p

/-- 節点から出る辺を順に調べる。例外のときは、そこまでの状態が残る。 -/
def expand (currCost : K) : List (DirectionalEdge ν K) → RoutePlanner Q → RoutePlanner Q × Option RouteError
  | [], p => (p, none)
  | edge :: edges, p =>
      match p.getTraversalCost nodes scorer blockedIds edge with
      | .error error => (p, some error)
      | .ok none => expand currCost edges p
      | .ok (some traversalCost) => expand currCost edges (p.visit currCost edge traversalCost)

/-- 残りの回数を数える、`findShortestGraphTraversal` の繰り返し。 -/
def search : ℕ → RoutePlanner Q → RoutePlanner Q × Option RouteError
  | 0, p => (p.clearQueue, some (.timedOut "Maximum iterations was exceeded!"))
  | remaining + 1, p =>
      match Q.pop p.queue with
      | none => (p, none)
      | some ((currCost, node), rest) =>
          let p := { p with queue := rest }
          if (currCost : WithTop K) ≠ (p.searchState node).integratedCost then search remaining p
          else if p.isGoal nodes node then (p.clearQueue, none)
          else
            match expand nodes scorer blockedIds currCost (nodes node).neighbors p with
            | (p, some error) => (p, some error)
            | (p, none) => search remaining p

def setup (p : RoutePlanner Q) (graph : List ν) (startNode goalNode : ν) : RoutePlanner Q :=
  let p := p.resetSearchStates graph
  let p := { p with startId := (nodes startNode).nodeid, goalId := (nodes goalNode).nodeid }
  (p.setState startNode { p.searchState startNode with integratedCost := (0 : K) }).addNode 0 startNode

def findShortestGraphTraversal (p : RoutePlanner Q) (graph : List ν) (startNode goalNode : ν) :
    RoutePlanner Q × Option RouteError :=
  search nodes scorer blockedIds p.maxIterations (p.setup nodes graph startNode goalNode)

/-- 目標から親の辺を集める。たどった辺は目標の `parent_edge` に書かれる。`none` は、`fuel` 回で終わらないことを表す。 -/
def backtrack (goalNode : ν) : ℕ → RoutePlanner Q → List (DirectionalEdge ν K) →
    Option (RoutePlanner Q × List (DirectionalEdge ν K))
  | fuel, p, edges =>
      match (p.searchState goalNode).parentEdge with
      | none => some (p, edges)
      | some edge =>
          match fuel with
          | 0 => none
          | fuel + 1 =>
              backtrack goalNode fuel
                (p.setState goalNode
                  { p.searchState goalNode with parentEdge := (p.searchState edge.start).parentEdge })
                (edges ++ [edge])

/-- 親の辺は、節点の数より多くはたどられない。結果の `none` は、それで終わらないことを表す。 -/
def findRoute (p : RoutePlanner Q) (graph : List ν) (startIndex goalIndex : ℕ) :
    RoutePlanner Q × Option (Except RouteError (Route ν K)) :=
  if graph = [] then (p, some (.error (.noValidGraph "Graph is invalid for routing!")))
  else
    match graph[startIndex]?, graph[goalIndex]? with
    | some startNode, some goalNode =>
        match p.findShortestGraphTraversal nodes scorer blockedIds graph startNode goalNode with
        | (p, some error) => (p, some (.error error))
        | (p, none) =>
            if (p.searchState goalNode).parentEdge = none then
              (p, some (.error (.noValidRouteCouldBeFound "Could not find a route to the requested goal!")))
            else
              match p.backtrack goalNode graph.length [] with
              | none => (p, none)
              | some (p', edges) =>
                  (p', some (.ok
                    { startNode := startNode
                      edges := edges.reverse
                      routeCost := (p'.searchState goalNode).integratedCost }))
    | _, _ => (p, some (.error .outOfRange))

end Search

end RoutePlanner

end Ranger.Routing
