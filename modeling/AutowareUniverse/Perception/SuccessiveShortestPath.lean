import AutowareUniverse.Library.Fallible
import AutowareUniverse.Library.UnitFlow
import AutowareUniverse.Library.LabelSearch
import AutowareUniverse.Library.AssignmentDuality
import Mathlib.Tactic.DeriveFintype
import Mathlib.Algebra.BigOperators.Fin

/-!
# The successive shortest path solver

The solver assigns tasks to agents such that the sum of the scores is maximal.
It sends units of flow from the source over agents and tasks to the sink, each
along a shortest path of the residual graph.  Scores are exact rationals, and
vectors indexed by nodes are functions.  A failed assertion ends the program,
and so does an access out of range.  The two `while` loops are given the number
of iterations that they may take.
-/

namespace AutowareUniverse.Perception

namespace SuccessiveShortestPath

def maxCost : ℚ := 10

def infDist : ℚ := 10000000

def eps : ℚ := 1 / 100000

inductive Error where
  | assertionFailed
  | outOfRange
  | outOfFuel
  deriving DecidableEq

def assert (condition : Prop) [Decidable condition] : Except Error Unit :=
  if condition then .ok () else .error .assertionFailed

/-- The nodes of the graph, in the ranges of their numbers. -/
inductive Node (nAgents nTasks : Nat) where
  | source
  | agent (agent : Fin nAgents)
  | task (task : Fin nTasks)
  | sink
  | dummy (agent : Fin nAgents)
  deriving DecidableEq, Fintype

namespace Node

variable {nAgents nTasks : Nat}

def index : Node nAgents nTasks → Nat
  | .source => 0
  | .agent i => i + 1
  | .task j => j + nAgents + 1
  | .sink => nAgents + nTasks + 1
  | .dummy i => i + nAgents + nTasks + 2

def task? : Node nAgents nTasks → Option (Fin nTasks)
  | .task j => some j
  | _ => none

end Node

structure ResidualEdge (nAgents nTasks : Nat) where
  dst : Node nAgents nTasks
  capacity : Int
  cost : ℚ
  flow : Int
  reverse : Nat
  deriving DecidableEq

variable {nAgents nTasks : Nat}

/-- The residual graph: the incident edges of each node. -/
structure AdjacencyList (nAgents nTasks : Nat) where
  incident : Node nAgents nTasks → List (ResidualEdge nAgents nTasks)

variable (adjacency : AdjacencyList nAgents nTasks)

def AdjacencyList.push (v : Node nAgents nTasks)
    (edge : ResidualEdge nAgents nTasks) : AdjacencyList nAgents nTasks :=
  ⟨Function.update adjacency.incident v (adjacency.incident v ++ [edge])⟩

/-- Write an edge through its reference. -/
def AdjacencyList.set (v : Node nAgents nTasks)
    (index : Nat) (edge : ResidualEdge nAgents nTasks) : AdjacencyList nAgents nTasks :=
  ⟨Function.update adjacency.incident v ((adjacency.incident v).set index edge)⟩

def addEdge
    (edge : Node nAgents nTasks × Node nAgents nTasks × ℚ) :
    AdjacencyList nAgents nTasks :=
  let (src, dst, cost) := edge
  let added := adjacency.push src ⟨dst, 1, cost, 0, (adjacency.incident dst).length⟩
  added.push dst ⟨src, 0, -cost, 0, (added.incident src).length - 1⟩

/-- The edges in the order in which they are added. -/
def edges (cost : Fin nAgents → Fin nTasks → ℚ) :
    List (Node nAgents nTasks × Node nAgents nTasks × ℚ) :=
  ((List.finRange nAgents).map fun agent => (.source, .agent agent, 0)) ++
  ((List.finRange nAgents).flatMap fun agent =>
    ((List.finRange nTasks).filter fun task => eps < cost agent task).map fun task =>
      (.agent agent, .task task, maxCost - cost agent task)) ++
  ((List.finRange nTasks).map fun task => (.task task, .sink, 0)) ++
  ((List.finRange nAgents).flatMap fun agent =>
    [(.agent agent, .dummy agent, maxCost), (.dummy agent, .sink, 0)])

def graph (cost : Fin nAgents → Fin nTasks → ℚ) : AdjacencyList nAgents nTasks :=
  (edges cost).foldl addEdge ⟨fun _ => []⟩

/-- An element of the priority queue comes before another. -/
def Precedes (first second : ℚ × Node nAgents nTasks) : Prop :=
  first.1 < second.1 ∨ (first.1 = second.1 ∧ first.2.index ≤ second.2.index)

instance : DecidableRel (@Precedes nAgents nTasks) :=
  fun first second => inferInstanceAs (Decidable
    (first.1 < second.1 ∨ (first.1 = second.1 ∧ first.2.index ≤ second.2.index)))

/-- The state of a search; the queue is kept in order. -/
structure Search (nAgents nTasks : Nat) where
  potentials : Node nAgents nTasks → ℚ
  distances : Node nAgents nTasks → ℚ
  isVisited : Node nAgents nTasks → Bool
  prevValues : Node nAgents nTasks → Node nAgents nTasks × Nat
  queue : List (ℚ × Node nAgents nTasks)

def relax (curNode : Node nAgents nTasks) (search : Search nAgents nTasks)
    (incident : ResidualEdge nAgents nTasks × Nat) :
    Except Error (Search nAgents nTasks) :=
  let (edge, index) := incident
  if search.isVisited edge.dst = false ∧ 0 < edge.capacity then do
    let reducedCost := edge.cost + search.potentials curNode - search.potentials edge.dst
    assert (0 ≤ reducedCost)
    if reducedCost < search.distances edge.dst then
      return { search with
        distances := Function.update search.distances edge.dst reducedCost
        prevValues := Function.update search.prevValues edge.dst (curNode, index)
        queue := search.queue.orderedInsert Precedes (reducedCost, edge.dst) }
    else
      return search
  else
    .ok search

/-- The loop over the priority queue, up to the visit of the sink. -/
def searchLoop (adjacency : AdjacencyList nAgents nTasks) :
    Nat → Search nAgents nTasks → Except Error (Search nAgents nTasks)
  | 0, _ => .error .outOfFuel
  | fuel + 1, search =>
    match search.queue with
    | [] => .ok search
    | (curNodeDist, curNode) :: rest =>
      let popped := { search with queue := rest }
      if popped.isVisited curNode then
        searchLoop adjacency fuel popped
      else do
        assert (curNodeDist = popped.distances curNode)
        let visited := { popped with
          isVisited := Function.update popped.isVisited curNode true
          potentials := Function.update popped.potentials curNode
            (popped.potentials curNode + curNodeDist) }
        if curNode = .sink then
          return visited
        else
          let relaxed ← (adjacency.incident curNode).zipIdx.foldlM (relax curNode) visited
          searchLoop adjacency fuel relaxed

def startSearch (potentials : Node nAgents nTasks → ℚ)
    (prevValues : Node nAgents nTasks → Node nAgents nTasks × Nat) :
    Search nAgents nTasks where
  potentials := potentials
  distances := Function.update (fun _ => infDist) .source 0
  isVisited := fun _ => false
  prevValues := prevValues
  queue := [(0, .source)]

def raisedPotentials (found : Search nAgents nTasks) (v : Node nAgents nTasks) : ℚ :=
  if found.isVisited v then found.potentials v
  else found.potentials v + found.distances .sink

/-- `at`, which throws if the index is out of range. -/
def edgeAt (incident : List (ResidualEdge nAgents nTasks)) (index : Nat) :
    Except Error (ResidualEdge nAgents nTasks) :=
  match incident[index]? with
  | some edge => .ok edge
  | none => .error .outOfRange

def HasState (forward backward : ResidualEdge nAgents nTasks)
    (capacity flow backwardCapacity backwardFlow : Int) : Prop :=
  forward.capacity = capacity ∧ forward.flow = flow ∧
    backward.capacity = backwardCapacity ∧ backward.flow = backwardFlow

instance (forward backward : ResidualEdge nAgents nTasks)
    (capacity flow backwardCapacity backwardFlow : Int) :
    Decidable (HasState forward backward capacity flow backwardCapacity backwardFlow) :=
  inferInstanceAs (Decidable (_ ∧ _ ∧ _ ∧ _))

/-- Send a unit of flow along the last edge of the path to a node, and return the node
before it. -/
def augmentEdge (prevValues : Node nAgents nTasks → Node nAgents nTasks × Nat)
    (v : Node nAgents nTasks) (adjacency : AdjacencyList nAgents nTasks) :
    Except Error (Node nAgents nTasks × AdjacencyList nAgents nTasks) := do
  let (prev, index) := prevValues v
  let forward ← edgeAt (adjacency.incident prev) index
  assert (forward.dst = v)
  let backward ← edgeAt (adjacency.incident v) forward.reverse
  if backward.flow = 0 then
    -- increase the flow
    assert (HasState forward backward 1 0 0 0)
    let forward' := { forward with
      capacity := forward.capacity - 1
      flow := forward.flow + 1 }
    let backward' := { backward with capacity := backward.capacity + 1 }
    assert (HasState forward' backward' 0 1 1 0)
    return (backward.dst, (adjacency.set prev index forward').set v forward.reverse backward')
  else
    -- decrease the flow
    assert (HasState forward backward 1 0 0 1)
    let forward' := { forward with capacity := forward.capacity - 1 }
    let backward' := { backward with
      capacity := backward.capacity + 1
      flow := backward.flow - 1 }
    assert (HasState forward' backward' 0 0 1 0)
    return (backward.dst, (adjacency.set prev index forward').set v forward.reverse backward')

def augmentLoop (prevValues : Node nAgents nTasks → Node nAgents nTasks × Nat) :
    Nat → Node nAgents nTasks → AdjacencyList nAgents nTasks →
      Except Error (AdjacencyList nAgents nTasks)
  | fuel, v, adjacency =>
    if v = .source then
      .ok adjacency
    else
      match fuel with
      | 0 => .error .outOfFuel
      | fuel + 1 => do
        let (prevV, augmented) ← augmentEdge prevValues v adjacency
        augmentLoop prevValues fuel prevV augmented

/-- Edges with capacity have no negative reduced cost. -/
def Feasible (adjacency : AdjacencyList nAgents nTasks)
    (potentials : Node nAgents nTasks → ℚ) : Prop :=
  ∀ v, ∀ edge ∈ adjacency.incident v, 0 < edge.capacity →
    0 ≤ edge.cost + potentials v - potentials edge.dst

instance (adjacency : AdjacencyList nAgents nTasks) (potentials : Node nAgents nTasks → ℚ) :
    Decidable (Feasible adjacency potentials) :=
  inferInstanceAs (Decidable (∀ v, ∀ edge ∈ adjacency.incident v, 0 < edge.capacity →
    0 ≤ edge.cost + potentials v - potentials edge.dst))

def flowLoop (fuel : Nat) : Nat → AdjacencyList nAgents nTasks → (Node nAgents nTasks → ℚ) →
      (Node nAgents nTasks → Node nAgents nTasks × Nat) →
      Except Error (AdjacencyList nAgents nTasks)
  | 0, adjacency, _, _ => .ok adjacency
  | remaining + 1, adjacency, potentials, prevValues => do
    let found ← searchLoop adjacency fuel (startSearch potentials prevValues)
    if maxCost ≤ found.potentials .sink then
      return adjacency
    else
      let raised := raisedPotentials found
      let augmented ← augmentLoop found.prevValues fuel .sink adjacency
      assert (Feasible augmented raised)
      flowLoop fuel remaining augmented raised found.prevValues

/-- `direct_assignment` and `reverse_assignment`. -/
structure Assignment (nAgents nTasks : Nat) where
  direct : Fin nAgents → Option (Fin nTasks)
  reverse : Fin nTasks → Option (Fin nAgents)

def assignAgent (adjacency : AdjacencyList nAgents nTasks)
    (assignment : Assignment nAgents nTasks) (agent : Fin nAgents) :
    Assignment nAgents nTasks :=
  let assigned := (adjacency.incident (.agent agent)).findSome? fun edge =>
    if edge.flow = 1 then edge.dst.task? else none
  match assigned with
  | some task =>
    { direct := Function.update assignment.direct agent (some task)
      reverse := Function.update assignment.reverse task (some agent) }
  | none => assignment

def Valid (assignment : Assignment nAgents nTasks) : Prop :=
  ∀ agent, ∀ task ∈ assignment.direct agent, assignment.reverse task = some agent

instance (assignment : Assignment nAgents nTasks) : Decidable (Valid assignment) :=
  inferInstanceAs (Decidable
    (∀ agent, ∀ task ∈ assignment.direct agent, assignment.reverse task = some agent))

def maximizeLinearAssignment (fuel : Nat) (cost : Fin nAgents → Fin nTasks → ℚ)
    (assignment : Assignment nAgents nTasks) : Except Error (Assignment nAgents nTasks) :=
  if nAgents = 0 ∨ nTasks = 0 then
    .ok assignment
  else do
    let maxFlow := min nAgents nTasks
    let adjacency ←
      flowLoop fuel maxFlow (graph cost) (fun _ => 0) fun _ => (.source, 0)
    let assigned := (List.finRange nAgents).foldl (assignAgent adjacency) assignment
    assert (Valid assigned)
    return assigned

end SuccessiveShortestPath

end AutowareUniverse.Perception

/-!
## The residual graph of a flow

The adjacency list represents a flow: the capacity of each entry is the room of
the edge less the flow along it, and its reverse entry stands where the entry
says.  The graph that is built for a score matrix represents the zero flow.
-/

namespace AutowareUniverse.Perception.SuccessiveShortestPath

section

open Library.UnitFlow

variable {nAgents nTasks : Nat} (cost : Fin nAgents → Fin nTasks → ℚ)

/-- The capacity of the edges of the bipartite graph. -/
def room : Node nAgents nTasks → Node nAgents nTasks → ℤ
  | .source, .agent _ => 1
  | .agent i, .task j => if eps < cost i j then 1 else 0
  | .task _, .sink => 1
  | .agent i, .dummy k => if i = k then 1 else 0
  | .dummy _, .sink => 1
  | _, _ => 0

/-- The cost of the edges, and of their reverse edges. -/
def weight : Node nAgents nTasks → Node nAgents nTasks → ℚ
  | .agent i, .task j => maxCost - cost i j
  | .task j, .agent i => -(maxCost - cost i j)
  | .agent _, .dummy _ => maxCost
  | .dummy _, .agent _ => -maxCost
  | _, _ => 0

theorem room_cases (u v : Node nAgents nTasks) : room cost u v = 0 ∨ room cost u v = 1 := by
  cases u <;> cases v <;> simp only [room] <;> (try split) <;> simp

variable {u v : Node nAgents nTasks}

/-- No edge has an edge in the other direction. -/
theorem room_swap (hroom : room cost u v = 1) :
    room cost v u = 0 := by
  cases u <;> cases v <;> first | rfl | (simp [room] at hroom)

theorem room_self (v : Node nAgents nTasks) : room cost v v = 0 := by
  cases v <;> rfl

theorem weight_swap (u v : Node nAgents nTasks) : weight cost v u = -weight cost u v := by
  cases u <;> cases v <;> simp [weight]

theorem mem_edges {edgeCost : ℚ} :
    (u, v, edgeCost) ∈ edges cost ↔ room cost u v = 1 ∧ edgeCost = weight cost u v := by
  cases u <;> cases v <;> simp [edges, room, weight, eq_comm]

theorem nodup_edges : ((edges cost).map fun edge => (edge.1, edge.2.1)).Nodup := by
  have hdistinct : (List.finRange nAgents).Pairwise (· ≠ ·) := List.nodup_finRange nAgents
  simp only [edges, List.map_append, List.map_map, List.map_flatMap, List.nodup_append,
    List.nodup_flatMap]
  refine ⟨⟨⟨?_, ⟨?_, ?_⟩, ?_⟩, ?_, ?_⟩, ⟨?_, ?_⟩, ?_⟩
  · refine (List.nodup_finRange nAgents).map fun first second heq => ?_
    simpa using heq
  · intro agent _
    refine ((List.nodup_finRange nTasks).filter _).map fun first second heq => ?_
    simpa using heq
  · refine hdistinct.imp fun {first second} hne ends hfirst hsecond => ?_
    obtain ⟨task, _, rfl⟩ := List.mem_map.mp hfirst
    obtain ⟨other, _, heq⟩ := List.mem_map.mp hsecond
    refine hne ?_
    simpa using (congrArg Prod.fst heq).symm
  · simp only [List.mem_map, List.mem_flatMap]
    rintro _ ⟨agent, _, rfl⟩ _ ⟨other, _, task, _, rfl⟩
    simp
  · refine (List.nodup_finRange nTasks).map fun first second heq => ?_
    simpa using heq
  · simp only [List.mem_append, List.mem_map, List.mem_flatMap]
    rintro _ (⟨agent, _, rfl⟩ | ⟨agent, _, task, _, rfl⟩) _ ⟨other, _, rfl⟩
    · simp
    · simp
  · intro agent _
    simp
  · refine hdistinct.imp fun {first second} hne ends hfirst hsecond => ?_
    simp only [List.map_cons, List.map_nil, List.mem_cons, List.not_mem_nil, or_false]
      at hfirst hsecond
    rcases hfirst with rfl | rfl
    · simp [hne] at hsecond
    · simp [hne] at hsecond
  · simp only [List.mem_append, List.mem_map, List.mem_flatMap, List.map_cons, List.map_nil,
      List.mem_cons, List.not_mem_nil, or_false]
    rintro _ ((⟨agent, _, rfl⟩ | ⟨agent, _, task, _, rfl⟩) | ⟨task, _, rfl⟩) _ ⟨other, _, rfl | rfl⟩
    all_goals simp

/-! ## The adjacency list -/

def EdgeAt (adjacency : AdjacencyList nAgents nTasks) (u : Node nAgents nTasks) (index : Nat)
    (edge : ResidualEdge nAgents nTasks) : Prop :=
  (adjacency.incident u)[index]? = some edge

structure Represents (joined : Node nAgents nTasks → Node nAgents nTasks → Prop)
    (flow : Node nAgents nTasks → Node nAgents nTasks → ℤ)
    (adjacency : AdjacencyList nAgents nTasks) : Prop where
  capacity : ∀ {u index edge}, EdgeAt adjacency u index edge →
    edge.capacity = room cost u edge.dst - flow u edge.dst
  weight : ∀ {u index edge}, EdgeAt adjacency u index edge → edge.cost = weight cost u edge.dst
  flow : ∀ {u index edge}, EdgeAt adjacency u index edge →
    edge.flow = room cost u edge.dst * flow u edge.dst
  link : ∀ {u index edge}, EdgeAt adjacency u index edge →
    ∃ backward, EdgeAt adjacency edge.dst edge.reverse backward ∧ backward.dst = u ∧
      backward.reverse = index
  unique : ∀ {u index edge index' edge'}, EdgeAt adjacency u index edge →
    EdgeAt adjacency u index' edge' → edge.dst = edge'.dst → index = index'
  joined : ∀ {u v}, joined u v ↔ ∃ index edge, EdgeAt adjacency u index edge ∧ edge.dst = v

section

variable (adjacency : AdjacencyList nAgents nTasks)

theorem incident_push_self (v : Node nAgents nTasks) (edge : ResidualEdge nAgents nTasks) :
    (adjacency.push v edge).incident v = adjacency.incident v ++ [edge] :=
  Function.update_self _ _ _

theorem incident_push_of_ne (hne : u ≠ v) (edge : ResidualEdge nAgents nTasks) :
    (adjacency.push v edge).incident u = adjacency.incident u :=
  Function.update_of_ne hne _ _

theorem incident_set_self
    (v : Node nAgents nTasks) (index : Nat) (edge : ResidualEdge nAgents nTasks) :
    (adjacency.set v index edge).incident v = (adjacency.incident v).set index edge :=
  Function.update_self _ _ _

theorem incident_set_of_ne (hne : u ≠ v) (index : Nat) (edge : ResidualEdge nAgents nTasks) :
    (adjacency.set v index edge).incident u = adjacency.incident u :=
  Function.update_of_ne hne _ _

end

variable {adjacency : AdjacencyList nAgents nTasks} {index : Nat}

theorem edgeAt_push {new edge : ResidualEdge nAgents nTasks} :
    EdgeAt (adjacency.push v new) u index edge ↔ EdgeAt adjacency u index edge ∨
        (u = v ∧ index = (adjacency.incident v).length ∧ edge = new) := by
  unfold EdgeAt
  by_cases hv : u = v
  · subst hv
    rw [incident_push_self, List.getElem?_append]
    split
    · rename_i hlt
      constructor
      · exact .inl
      · rintro (hold | ⟨_, rfl, _⟩)
        · exact hold
        · exact absurd hlt (Nat.lt_irrefl _)
    · rename_i hge
      rw [List.getElem?_eq_none (Nat.le_of_not_lt hge), List.getElem?_singleton]
      constructor
      · intro hnew
        split at hnew
        · exact .inr ⟨rfl, by omega, (Option.some.inj hnew).symm⟩
        · cases hnew
      · rintro (hold | ⟨_, rfl, rfl⟩)
        · cases hold
        · simp
  · rw [incident_push_of_ne adjacency hv]
    simp [hv]

theorem edgeAt_addEdge {src dst u : Node nAgents nTasks}
    (hne : src ≠ dst) {edgeCost : ℚ} {edge : ResidualEdge nAgents nTasks} :
    EdgeAt (addEdge adjacency (src, dst, edgeCost)) u index edge ↔ EdgeAt adjacency u index edge ∨
        (u = src ∧ index = (adjacency.incident src).length ∧
          edge = ⟨dst, 1, edgeCost, 0, (adjacency.incident dst).length⟩) ∨
        (u = dst ∧ index = (adjacency.incident dst).length ∧
          edge = ⟨src, 0, -edgeCost, 0, (adjacency.incident src).length⟩) := by
  unfold addEdge
  dsimp only
  rw [edgeAt_push, edgeAt_push, or_assoc]
  have hdst : ((adjacency.push src ⟨dst, 1, edgeCost, 0,
      (adjacency.incident dst).length⟩).incident dst).length =
      (adjacency.incident dst).length := by
    rw [incident_push_of_ne adjacency hne.symm]
  have hsrc : ((adjacency.push src ⟨dst, 1, edgeCost, 0,
      (adjacency.incident dst).length⟩).incident src).length - 1 =
      (adjacency.incident src).length := by
    rw [incident_push_self, List.length_append]
    rfl
  rw [hdst, hsrc]

namespace Represents

variable {cost} {joined : Node nAgents nTasks → Node nAgents nTasks → Prop}
  {flow : Node nAgents nTasks → Node nAgents nTasks → ℤ}
  {adjacency : AdjacencyList nAgents nTasks}

theorem swap (hrepresents : Represents cost joined flow adjacency)
    (hjoined : joined u v) : joined v u := by
  obtain ⟨index, edge, hedge, rfl⟩ := hrepresents.joined.mp hjoined
  obtain ⟨backward, hbackward, hdst, _⟩ := hrepresents.link hedge
  exact hrepresents.joined.mpr ⟨_, backward, hbackward, hdst⟩

theorem addEdge (hrepresents : Represents cost joined (fun _ _ => 0) adjacency)
    {src dst : Node nAgents nTasks} (hroom : room cost src dst = 1) (hfresh : ¬ joined src dst) :
    Represents cost
      (fun u v => joined u v ∨ (u = src ∧ v = dst) ∨ (u = dst ∧ v = src)) (fun _ _ => 0)
      (SuccessiveShortestPath.addEdge adjacency
        (src, dst, SuccessiveShortestPath.weight cost src dst)) := by
  have hne : src ≠ dst := by
    rintro rfl
    rw [room_self] at hroom
    cases hroom
  have hswap := room_swap cost hroom
  have hnotForward : ∀ {index edge}, EdgeAt adjacency src index edge → edge.dst ≠ dst :=
    fun hedge heq => hfresh (hrepresents.joined.mpr ⟨_, _, hedge, heq⟩)
  have hnotBackward : ∀ {index edge}, EdgeAt adjacency dst index edge → edge.dst ≠ src :=
    fun hedge heq => hfresh (hrepresents.swap (hrepresents.joined.mpr ⟨_, _, hedge, heq⟩))
  refine ⟨?_, ?_, ?_, ?_, ?_, ?_⟩
  · intro u index edge hedge
    rcases (edgeAt_addEdge hne).mp hedge with hold | ⟨rfl, _, rfl⟩ | ⟨rfl, _, rfl⟩
    · exact hrepresents.capacity hold
    · rw [hroom, sub_zero]
    · rw [hswap, sub_zero]
  · intro u index edge hedge
    rcases (edgeAt_addEdge hne).mp hedge with hold | ⟨rfl, _, rfl⟩ | ⟨rfl, _, rfl⟩
    · exact hrepresents.weight hold
    · rfl
    · exact (weight_swap cost src u).symm
  · intro u index edge hedge
    rcases (edgeAt_addEdge hne).mp hedge with hold | ⟨rfl, _, rfl⟩ | ⟨rfl, _, rfl⟩
    · exact hrepresents.flow hold
    · exact (mul_zero _).symm
    · exact (mul_zero _).symm
  · intro u index edge hedge
    rcases (edgeAt_addEdge hne).mp hedge with hold | ⟨rfl, rfl, rfl⟩ | ⟨rfl, rfl, rfl⟩
    · obtain ⟨backward, hbackward, hlink⟩ := hrepresents.link hold
      exact ⟨backward, (edgeAt_addEdge hne).mpr (.inl hbackward), hlink⟩
    · exact ⟨_, (edgeAt_addEdge hne).mpr (.inr (.inr ⟨rfl, rfl, rfl⟩)), rfl, rfl⟩
    · exact ⟨_, (edgeAt_addEdge hne).mpr (.inr (.inl ⟨rfl, rfl, rfl⟩)), rfl, rfl⟩
  · intro u index edge index' edge' hedge hedge' hdst
    rcases (edgeAt_addEdge hne).mp hedge with hold | ⟨rfl, rfl, rfl⟩ | ⟨rfl, rfl, rfl⟩
    · rcases (edgeAt_addEdge hne).mp hedge' with hold' | ⟨rfl, _, rfl⟩ | ⟨rfl, _, rfl⟩
      · exact hrepresents.unique hold hold' hdst
      · exact absurd hdst (hnotForward hold)
      · exact absurd hdst (hnotBackward hold)
    · rcases (edgeAt_addEdge hne).mp hedge' with hold' | ⟨_, rfl, _⟩ | ⟨heq, _⟩
      · exact absurd hdst.symm (hnotForward hold')
      · rfl
      · exact absurd heq hne
    · rcases (edgeAt_addEdge hne).mp hedge' with hold' | ⟨heq, _⟩ | ⟨_, rfl, _⟩
      · exact absurd hdst.symm (hnotBackward hold')
      · exact absurd heq.symm hne
      · rfl
  · intro u v
    constructor
    · rintro (hold | ⟨rfl, rfl⟩ | ⟨rfl, rfl⟩)
      · obtain ⟨index, edge, hedge, hdst⟩ := hrepresents.joined.mp hold
        exact ⟨index, edge, (edgeAt_addEdge hne).mpr (.inl hedge), hdst⟩
      · exact ⟨_, _, (edgeAt_addEdge hne).mpr (.inr (.inl ⟨rfl, rfl, rfl⟩)), rfl⟩
      · exact ⟨_, _, (edgeAt_addEdge hne).mpr (.inr (.inr ⟨rfl, rfl, rfl⟩)), rfl⟩
    · rintro ⟨index, edge, hedge, rfl⟩
      rcases (edgeAt_addEdge hne).mp hedge with hold | ⟨rfl, _, rfl⟩ | ⟨rfl, _, rfl⟩
      · exact .inl (hrepresents.joined.mpr ⟨index, edge, hold, rfl⟩)
      · exact .inr (.inl ⟨rfl, rfl⟩)
      · exact .inr (.inr ⟨rfl, rfl⟩)

theorem congr {joined' : Node nAgents nTasks → Node nAgents nTasks → Prop}
    (hrepresents : Represents cost joined flow adjacency)
    (hjoined : ∀ u v, joined' u v ↔ joined u v) : Represents cost joined' flow adjacency :=
  ⟨hrepresents.capacity, hrepresents.weight, hrepresents.flow, hrepresents.link,
    hrepresents.unique, (hjoined _ _).trans hrepresents.joined⟩

end Represents

def JoinedBy (added : List (Node nAgents nTasks × Node nAgents nTasks × ℚ))
    (u v : Node nAgents nTasks) : Prop :=
  (u, v) ∈ added.map (fun edge => (edge.1, edge.2.1)) ∨
    (v, u) ∈ added.map (fun edge => (edge.1, edge.2.1))

/-- Adding edges of the graph one after the other. -/
theorem represents_foldl (added rest : List (Node nAgents nTasks × Node nAgents nTasks × ℚ))
    (hedges : ∀ edge ∈ added ++ rest, edge ∈ edges cost)
    (hnodup : ((added ++ rest).map fun edge => (edge.1, edge.2.1)).Nodup)
    (hrepresents : Represents cost (JoinedBy added) (fun _ _ => 0) adjacency) :
    Represents cost (JoinedBy (added ++ rest)) (fun _ _ => 0) (rest.foldl addEdge adjacency) := by
  induction rest generalizing added adjacency with
  | nil =>
    rw [List.append_nil]
    exact hrepresents
  | cons edge rest ih =>
    obtain ⟨src, dst, edgeCost⟩ := edge
    have hedge := hedges (src, dst, edgeCost) (List.mem_append_right _ (List.mem_cons_self ..))
    obtain ⟨hroom, rfl⟩ := (mem_edges cost).mp hedge
    have hfresh : ¬ JoinedBy added src dst := by
      rw [List.map_append, List.nodup_append] at hnodup
      rintro (hforward | hbackward)
      · exact hnodup.2.2 _ hforward _ (List.mem_cons_self ..) rfl
      · obtain ⟨⟨u, v, other⟩, hother, heq⟩ := List.mem_map.mp hbackward
        obtain ⟨rfl, rfl⟩ := Prod.mk.inj heq
        have hswap := ((mem_edges cost).mp (hedges _ (List.mem_append_left _ hother))).1
        rw [room_swap cost hroom] at hswap
        cases hswap
    have hsplit : added ++ (src, dst, weight cost src dst) :: rest =
        (added ++ [(src, dst, weight cost src dst)]) ++ rest := by
      rw [List.append_assoc, List.singleton_append]
    rw [hsplit] at hedges hnodup ⊢
    refine ih _ hedges hnodup ((hrepresents.addEdge hroom hfresh).congr fun u v => ?_)
    unfold JoinedBy
    simp only [List.map_append, List.map_cons, List.map_nil, List.mem_append,
      List.mem_singleton, Prod.mk.injEq]
    tauto

def Joined (u v : Node nAgents nTasks) : Prop := room cost u v = 1 ∨ room cost v u = 1

theorem represents_graph : Represents cost (Joined cost) (fun _ _ => 0) (graph cost) := by
  have hempty : Represents cost (JoinedBy []) (fun _ _ => 0) ⟨fun _ => []⟩ := by
    refine ⟨?_, ?_, ?_, ?_, ?_, ?_⟩
    all_goals simp [EdgeAt, JoinedBy]
  have hgraph : Represents cost (JoinedBy ([] ++ edges cost)) (fun _ _ => 0) (graph cost) :=
    represents_foldl cost [] (edges cost) (fun _ hmem => hmem) (nodup_edges cost) hempty
  refine hgraph.congr fun u v => ?_
  have hends (u v : Node nAgents nTasks) :
      (u, v) ∈ (edges cost).map (fun edge => (edge.1, edge.2.1)) ↔ room cost u v = 1 := by
    constructor
    · intro hmem
      obtain ⟨⟨u', v', edgeCost⟩, hedge, heq⟩ := List.mem_map.mp hmem
      obtain ⟨rfl, rfl⟩ := Prod.mk.inj heq
      exact ((mem_edges cost).mp hedge).1
    · intro hroom
      exact List.mem_map.mpr ⟨(u, v, weight cost u v), (mem_edges cost).mpr ⟨hroom, rfl⟩, rfl⟩
  unfold JoinedBy Joined
  rw [List.nil_append, hends, hends]

open Library Library.Fallible Library.LabelSearch Library.ResidualPotentials Library.UnitFlow

instance : IsTrans (ℚ × Node nAgents nTasks) Precedes where
  trans first second third := by
    unfold Precedes
    rintro (hless | ⟨heq, hle⟩) (hless' | ⟨heq', hle'⟩)
    · exact .inl (hless.trans hless')
    · exact .inl (heq' ▸ hless)
    · exact .inl (heq ▸ hless')
    · exact .inr ⟨heq.trans heq', hle.trans hle'⟩

instance : Std.Total (α := ℚ × Node nAgents nTasks) Precedes where
  total first second := by
    unfold Precedes
    rcases lt_trichotomy first.1 second.1 with hless | heq | hgreater
    · exact .inl (.inl hless)
    · rcases Nat.le_total first.2.index second.2.index with hle | hge
      · exact .inl (.inr ⟨heq, hle⟩)
      · exact .inr (.inr ⟨heq.symm, hge⟩)
    · exact .inr (.inl hgreater)

theorem Precedes.le {first second : ℚ × Node nAgents nTasks} (hprecedes : Precedes first second) :
    first.1 ≤ second.1 := by
  rcases hprecedes with hless | ⟨heq, _⟩
  · exact hless.le
  · exact heq.le

theorem assert_of {condition : Prop} [Decidable condition] (hcondition : condition) :
    assert condition = .ok () :=
  if_pos hcondition

/-! ## Edges with room -/

def Residual (flow : Node nAgents nTasks → Node nAgents nTasks → ℤ)
    (u v : Node nAgents nTasks) : Prop :=
  flow u v < room cost u v

def EndsAt (adjacency : AdjacencyList nAgents nTasks) (u : Node nAgents nTasks) (index : Nat)
    (v : Node nAgents nTasks) : Prop :=
  ∃ edge, EdgeAt adjacency u index edge ∧ edge.dst = v

/-- The entry is for an edge with room left. -/
def HasRoom (flow : Node nAgents nTasks → Node nAgents nTasks → ℤ)
    (adjacency : AdjacencyList nAgents nTasks) (u : Node nAgents nTasks) (index : Nat)
    (v : Node nAgents nTasks) : Prop :=
  EndsAt adjacency u index v ∧ Residual cost flow u v

variable {cost} {flow : Node nAgents nTasks → Node nAgents nTasks → ℤ}
  {adjacency : AdjacencyList nAgents nTasks}

theorem flow_eq_zero (hflow : IsFlow (room cost) flow)
    (hapart : ¬ Joined cost u v) : flow u v = 0 := by
  unfold Joined at hapart
  have hskew := hflow.skew u v
  have hle := hflow.le u v
  have hge := hflow.le v u
  have hforward := room_cases cost u v
  have hbackward := room_cases cost v u
  omega

theorem joined_of_residual (hflow : IsFlow (room cost) flow)
    (hresidual : Residual cost flow u v) : Joined cost u v := by
  by_contra hapart
  have hzero := flow_eq_zero hflow hapart
  unfold Joined at hapart
  unfold Residual at hresidual
  have hforward := room_cases cost u v
  omega

theorem exists_hasRoom (hrepresents : Represents cost (Joined cost) flow adjacency)
    (hflow : IsFlow (room cost) flow)
    (hresidual : Residual cost flow u v) : ∃ index, HasRoom cost flow adjacency u index v := by
  obtain ⟨index, edge, hedge, hdst⟩ := hrepresents.joined.mp (joined_of_residual hflow hresidual)
  exact ⟨index, ⟨edge, hedge, hdst⟩, hresidual⟩

/-- A list has at most one entry for each node. -/
theorem length_incident_le (hrepresents : Represents cost (Joined cost) flow adjacency)
    (u : Node nAgents nTasks) :
    (adjacency.incident u).length ≤ Fintype.card (Node nAgents nTasks) := by
  have hnodup : ((adjacency.incident u).map (·.dst)).Nodup := by
    refine List.nodup_iff_injective_get.mpr fun first second heq => Fin.ext ?_
    have hfirst : first.1 < (adjacency.incident u).length := by simpa using first.2
    have hsecond : second.1 < (adjacency.incident u).length := by simpa using second.2
    refine hrepresents.unique (List.getElem?_eq_getElem hfirst)
      (List.getElem?_eq_getElem hsecond) ?_
    simpa using heq
  have hle := hnodup.length_le_card
  rwa [List.length_map] at hle

def Search.labels (search : Search nAgents nTasks) : Labels (Node nAgents nTasks) Nat ℚ :=
  ⟨search.isVisited, search.distances, search.prevValues, search.queue⟩

variable (cost flow adjacency) in
structure Searching (potentials : Node nAgents nTasks → ℚ) (front : ℚ)
    (exempt : Node nAgents nTasks → Nat → Prop) (search : Search nAgents nTasks) : Prop where
  explored : Explored (HasRoom cost flow adjacency) (reduced (weight cost) potentials) .source
    infDist front exempt search.labels
  potentials : ∀ v, search.potentials v =
    if search.isVisited v then potentials v + search.distances v else potentials v
  sorted : search.queue.Pairwise Precedes

variable {potentials : Node nAgents nTasks → ℚ} {front : ℚ}
  {exempt : Node nAgents nTasks → Nat → Prop} {search : Search nAgents nTasks}

theorem searching_start (prevValues : Node nAgents nTasks → Node nAgents nTasks × Nat) :
    Searching cost flow adjacency potentials 0 (fun _ _ => False)
      (startSearch potentials prevValues) where
  explored := Explored.start prevValues (by norm_num [infDist])
  potentials _ := rfl
  sorted := List.pairwise_singleton _ _

/-! ## Going over the edges of a node -/

/-- What stays the same while the edges of a node are gone over. -/
structure Relaxes (u : Node nAgents nTasks) (count : Nat) (search next : Search nAgents nTasks) :
    Prop where
  isVisited : next.isVisited = search.isVisited
  distance : next.distances u = search.distances u
  length_le : next.queue.length ≤ search.queue.length + count

/-- One edge of the node that was just visited. -/
theorem relax_succeeds (hrepresents : Represents cost (Joined cost) flow adjacency)
    (hfeasible : ResidualPotentials.Feasible (Residual cost flow) (weight cost) potentials)
    {u : Node nAgents nTasks} {edge : ResidualEdge nAgents nTasks}
    (hedge : EdgeAt adjacency u index edge)
    (hsearching : Searching cost flow adjacency potentials front
      (fun v i => v = u ∧ index ≤ i) search)
    (hu : search.isVisited u = true) (hfront : search.distances u = front) :
    Succeeds (relax u search (edge, index)) fun next =>
      Searching cost flow adjacency potentials front (fun v i => v = u ∧ index + 1 ≤ i) next ∧
        Relaxes u 1 search next := by
  have hone {v i} (hbefore : v = u ∧ index ≤ i) (hafter : ¬ (v = u ∧ index + 1 ≤ i)) :
      v = u ∧ i = index := by
    have hnotLater : ¬ index + 1 ≤ i := fun hle => hafter ⟨hbefore.1, hle⟩
    exact ⟨hbefore.1, by omega⟩
  have hends {v w i} (hbefore : v = u ∧ index ≤ i) (hafter : ¬ (v = u ∧ index + 1 ≤ i))
      (hroom : HasRoom cost flow adjacency v i w) : w = edge.dst ∧ Residual cost flow u w := by
    obtain ⟨rfl, rfl⟩ := hone hbefore hafter
    obtain ⟨⟨other, hother, rfl⟩, hresidual⟩ := hroom
    unfold EdgeAt at hedge hother
    rw [hedge] at hother
    cases hother
    exact ⟨rfl, hresidual⟩
  unfold relax
  dsimp only
  split
  · rename_i hcondition
    obtain ⟨hnew, hcapacity⟩ := hcondition
    rw [hrepresents.capacity hedge] at hcapacity
    have hresidual : Residual cost flow u edge.dst := by
      unfold Residual
      omega
    have hreduced := hfeasible u edge.dst hresidual
    have hvalue : edge.cost + search.potentials u - search.potentials edge.dst =
        search.distances u + reduced (weight cost) potentials u edge.dst := by
      rw [hsearching.potentials, hsearching.potentials, if_pos hu, if_neg (by simp [hnew]),
        hrepresents.weight hedge]
      unfold reduced
      ring
    have hnonneg : 0 ≤ search.distances u := hsearching.explored.nonneg u
    rw [hvalue]
    refine .bind_eq (assert_of (add_nonneg hnonneg hreduced)) ?_
    split
    · rename_i hless
      have hne : u ≠ edge.dst := by
        rintro heq
        rw [← heq, hu] at hnew
        cases hnew
      refine .ok ⟨⟨?_, ?_, ?_⟩, rfl, Function.update_of_ne hne .., ?_⟩
      · refine hsearching.explored.improve hu hfront ⟨⟨edge, hedge, rfl⟩, hresidual⟩ hreduced
          hnew hless (fun entry => List.mem_orderedInsert ..) ?_
        intro v i hbefore hafter w hroom
        exact ⟨(hone hbefore hafter).1, (hends hbefore hafter hroom).1⟩
      · intro v
        rw [hsearching.potentials]
        split
        · rename_i hv
          have hapart : v ≠ edge.dst := by
            rintro rfl
            rw [hnew] at hv
            cases hv
          dsimp only
          rw [Function.update_of_ne hapart]
        · rfl
      · exact hsearching.sorted.orderedInsert _ _
      · rw [List.orderedInsert_length]
    · rename_i hless
      refine .ok ⟨⟨hsearching.explored.keep ?_, hsearching.potentials, hsearching.sorted⟩,
        rfl, rfl, Nat.le_succ _⟩
      intro v i w hbefore hafter hroom
      obtain ⟨rfl, _⟩ := hends hbefore hafter hroom
      obtain ⟨rfl, _⟩ := hone hbefore hafter
      exact not_lt.mp hless
  · rename_i hcondition
    refine .ok ⟨⟨hsearching.explored.keep ?_, hsearching.potentials, hsearching.sorted⟩,
      rfl, rfl, Nat.le_succ _⟩
    intro v i w hbefore hafter hroom
    obtain ⟨rfl, hresidual⟩ := hends hbefore hafter hroom
    obtain ⟨rfl, _⟩ := hone hbefore hafter
    -- the edge has room, so its end was visited before
    have hcapacity : 0 < edge.capacity := by
      rw [hrepresents.capacity hedge]
      unfold Residual at hresidual
      omega
    have hvisited : search.isVisited edge.dst = true := by
      by_contra hnew
      exact hcondition ⟨by simpa using hnew, hcapacity⟩
    have hle : search.distances edge.dst ≤ front := hsearching.explored.visited_le _ hvisited
    have hreduced := hfeasible v edge.dst hresidual
    change search.distances edge.dst ≤ search.distances v + _
    rw [hfront]
    linarith

/-- All edges from an index on. -/
theorem relaxAll_succeeds (hrepresents : Represents cost (Joined cost) flow adjacency)
    (hfeasible : ResidualPotentials.Feasible (Residual cost flow) (weight cost) potentials)
    {u : Node nAgents nTasks} {rest : List (ResidualEdge nAgents nTasks)} (index : Nat)
    (hrest : (adjacency.incident u).drop index = rest)
    (hsearching : Searching cost flow adjacency potentials front
      (fun v i => v = u ∧ index ≤ i) search)
    (hu : search.isVisited u = true) (hfront : search.distances u = front) :
    Succeeds ((rest.zipIdx index).foldlM (relax u) search) fun next =>
      Searching cost flow adjacency potentials front (fun _ _ => False) next ∧
        Relaxes u rest.length search next := by
  induction rest generalizing index search with
  | nil =>
    refine .ok ⟨⟨hsearching.explored.keep ?_, hsearching.potentials, hsearching.sorted⟩,
      rfl, rfl, Nat.le_add_right _ _⟩
    rintro _ i w ⟨rfl, hle⟩ _ ⟨⟨edge, hedge, _⟩, _⟩
    unfold EdgeAt at hedge
    rw [List.getElem?_eq_none ((List.drop_eq_nil_iff.mp hrest).trans hle)] at hedge
    cases hedge
  | cons edge rest ih =>
    have hedge : EdgeAt adjacency u index edge := by
      unfold EdgeAt
      rw [← List.head?_drop, hrest]
      rfl
    have hlater : (adjacency.incident u).drop (index + 1) = rest := by
      rw [← List.tail_drop, hrest]
      rfl
    rw [List.zipIdx_cons, List.foldlM_cons]
    refine .bind (relax_succeeds hrepresents hfeasible hedge hsearching hu hfront) ?_
    rintro next ⟨hnext, hvisited, hdistance, hlength⟩
    refine (ih (index + 1) hlater hnext (by rw [hvisited, hu]) (by rw [hdistance, hfront])).mono ?_
    rintro last ⟨hlast, hvisited', hdistance', hlength'⟩
    refine ⟨hlast, hvisited'.trans hvisited, hdistance'.trans hdistance, ?_⟩
    rw [List.length_cons]
    omega

/-! ## The loop over the queue -/

section

variable (search : Search nAgents nTasks)

def Search.visit (distance : ℚ) (v : Node nAgents nTasks)
    (rest : List (ℚ × Node nAgents nTasks)) : Search nAgents nTasks :=
  { search with
    queue := rest
    isVisited := Function.update search.isVisited v true
    potentials := Function.update search.potentials v (search.potentials v + distance) }

theorem visit_isVisited_self (distance : ℚ)
    (v : Node nAgents nTasks) (rest : List (ℚ × Node nAgents nTasks)) :
    (search.visit distance v rest).isVisited v = true :=
  Function.update_self ..

theorem visit_isVisited_of_ne (distance : ℚ)
    {v w : Node nAgents nTasks} (hne : w ≠ v) (rest : List (ℚ × Node nAgents nTasks)) :
    (search.visit distance v rest).isVisited w = search.isVisited w :=
  Function.update_of_ne hne ..

end

variable {rest : List (ℚ × Node nAgents nTasks)} {v : Node nAgents nTasks} {distance : ℚ}

theorem searchLoop_cons (fuel : Nat) (hqueue : search.queue = (distance, v) :: rest) :
    searchLoop adjacency (fuel + 1) search =
      (if search.isVisited v then searchLoop adjacency fuel { search with queue := rest }
      else do
        assert (distance = search.distances v)
        if v = .sink then
          return search.visit distance v rest
        else
          let relaxed ← (adjacency.incident v).zipIdx.foldlM (relax v)
            (search.visit distance v rest)
          searchLoop adjacency fuel relaxed) := by
  rw [searchLoop, hqueue]
  rfl

namespace Searching

section

variable (hsearching : Searching cost flow adjacency potentials front exempt search)

include hsearching

theorem le_of_queue
    (hqueue : search.queue = (distance, v) :: rest) : ∀ entry ∈ rest, distance ≤ entry.1 := by
  intro entry hmem
  have hsorted := hsearching.sorted
  rw [hqueue] at hsorted
  exact ((List.pairwise_cons.mp hsorted).1 entry hmem).le

theorem sorted_rest
    {entry : ℚ × Node nAgents nTasks}
    (hqueue : search.queue = entry :: rest) : rest.Pairwise Precedes := by
  have hsorted := hsearching.sorted
  rw [hqueue] at hsorted
  exact hsorted.of_cons

theorem skip (hqueue : search.queue = (distance, v) :: rest) (hvisited : search.isVisited v = true) :
    Searching cost flow adjacency potentials front exempt { search with queue := rest } where
  explored := hsearching.explored.skip hqueue hvisited
  potentials := hsearching.potentials
  sorted := hsearching.sorted_rest hqueue

end

theorem visit
    (hsearching : Searching cost flow adjacency potentials front (fun _ _ => False) search)
    (hqueue : search.queue = (distance, v) :: rest) (hnew : search.isVisited v = false) :
    distance = search.distances v ∧
      Searching cost flow adjacency potentials distance (fun u _ => u = v)
        (search.visit distance v rest) := by
  have hleast := hsearching.le_of_queue hqueue
  have hdistance : distance = search.distances v :=
    hsearching.explored.distance_eq hqueue hleast hnew
  refine ⟨hdistance, hsearching.explored.visit hqueue hleast hnew, fun w => ?_,
    hsearching.sorted_rest hqueue⟩
  have hpotential := hsearching.potentials w
  by_cases hw : w = v
  · subst hw
    rw [if_neg (by simp [hnew])] at hpotential
    rw [if_pos (visit_isVisited_self ..)]
    exact (Function.update_self ..).trans (by rw [hpotential, hdistance]; rfl)
  · simp only [visit_isVisited_of_ne search distance hw rest]
    exact (Function.update_of_ne hw ..).trans hpotential

end Searching

variable (cost flow) in
/-- There is an agent with room on the path over its dummy. -/
def HasFreeAgent : Prop :=
  ∃ agent : Fin nAgents, Residual cost flow .source (.agent agent) ∧
    Residual cost flow (.agent agent) (.dummy agent) ∧ Residual cost flow (.dummy agent) .sink

theorem sink_visited_of_empty (hrepresents : Represents cost (Joined cost) flow adjacency)
    (hflow : IsFlow (room cost) flow) (hfree : HasFreeAgent cost flow)
    (hnonneg : ∀ v, 0 ≤ potentials v) (hsource : potentials .source = 0)
    (hsearching : Searching cost flow adjacency potentials front (fun _ _ => False) search)
    (hempty : search.queue = []) : search.isVisited .sink = true := by
  obtain ⟨agent, hagent, hdummy, hsink⟩ := hfree
  have hvisited {v : Node nAgents nTasks} {distance : ℚ}
      (hnear : search.distances v + potentials v ≤ distance) (hlt : distance < infDist) :
      search.isVisited v = true := by
    refine hsearching.explored.visited_of_empty hempty ?_
    change search.distances v < infDist
    linarith [hnonneg v]
  have hstep {u v : Node nAgents nTasks} (hu : search.isVisited u = true)
      (hresidual : Residual cost flow u v) : search.distances v + potentials v ≤
        search.distances u + potentials u + weight cost u v := by
    obtain ⟨index, hroom⟩ := exists_hasRoom hrepresents hflow hresidual
    have hrelaxed : search.distances v ≤
        search.distances u + reduced (weight cost) potentials u v :=
      hsearching.explored.relaxed u index v hu hroom not_false
    unfold reduced at hrelaxed
    linarith
  have hatSource : search.distances .source + potentials .source ≤ 0 := by
    have hzero : search.distances .source = 0 := hsearching.explored.distance_source
    rw [hzero, hsource, add_zero]
  have hatAgent : search.distances (.agent agent) + potentials (.agent agent) ≤ 0 := by
    have hnext := hstep (hvisited hatSource (by norm_num [infDist])) hagent
    simp only [weight] at hnext
    linarith
  have hatDummy : search.distances (.dummy agent) + potentials (.dummy agent) ≤ maxCost := by
    have hnext := hstep (hvisited hatAgent (by norm_num [infDist])) hdummy
    simp only [weight] at hnext
    linarith
  have hatSink : search.distances .sink + potentials .sink ≤ maxCost := by
    have hnext := hstep (hvisited hatDummy (by norm_num [infDist, maxCost])) hsink
    simp only [weight] at hnext
    linarith
  exact hvisited hatSink (by norm_num [infDist, maxCost])

def unvisited (search : Search nAgents nTasks) : Finset (Node nAgents nTasks) :=
  Finset.univ.filter fun v => search.isVisited v = false

@[simp] theorem mem_unvisited {v : Node nAgents nTasks} :
    v ∈ unvisited search ↔ search.isVisited v = false := by
  unfold unvisited
  rw [Finset.mem_filter]
  simp

theorem card_unvisited_visit (hnew : search.isVisited v = false)
    (distance : ℚ) (rest : List (ℚ × Node nAgents nTasks)) :
    (unvisited (search.visit distance v rest)).card + 1 = (unvisited search).card := by
  have herase : unvisited (search.visit distance v rest) = (unvisited search).erase v := by
    ext w
    by_cases hw : w = v
    · simp [hw, visit_isVisited_self]
    · simp [hw, visit_isVisited_of_ne]
  rw [herase]
  exact Finset.card_erase_add_one (mem_unvisited.mpr hnew)

/-- The entries that the loop may still take from the queue. -/
def entriesLeft (search : Search nAgents nTasks) : Nat :=
  search.queue.length + Fintype.card (Node nAgents nTasks) * (unvisited search).card

variable (cost flow adjacency) in
structure Finds (potentials : Node nAgents nTasks → ℚ) (found : Search nAgents nTasks) :
    Prop where
  searching : Searching cost flow adjacency potentials (found.distances .sink)
    (fun u _ => u = .sink) found
  sink : found.isVisited .sink = true

theorem searchLoop_succeeds (hrepresents : Represents cost (Joined cost) flow adjacency)
    (hflow : IsFlow (room cost) flow) (hfree : HasFreeAgent cost flow)
    (hfeasible : ResidualPotentials.Feasible (Residual cost flow) (weight cost) potentials)
    (hnonneg : ∀ v, 0 ≤ potentials v) (hsource : potentials .source = 0) {fuel : Nat}
    (hsearching : Searching cost flow adjacency potentials front (fun _ _ => False) search)
    (hsink : search.isVisited .sink = false) (hfuel : entriesLeft search < fuel) :
    Succeeds (searchLoop adjacency fuel search) (Finds cost flow adjacency potentials) := by
  induction fuel generalizing search front with
  | zero => exact absurd hfuel (Nat.not_lt_zero _)
  | succ fuel ih =>
    cases hqueue : search.queue with
    | nil =>
      have hvisited := sink_visited_of_empty hrepresents hflow hfree hnonneg hsource
        hsearching hqueue
      rw [hsink] at hvisited
      cases hvisited
    | cons entry rest =>
      obtain ⟨distance, v⟩ := entry
      unfold entriesLeft at hfuel
      rw [hqueue, List.length_cons] at hfuel
      rw [searchLoop_cons fuel hqueue]
      split
      · rename_i hvisited
        refine ih (hsearching.skip hqueue hvisited) hsink ?_
        unfold entriesLeft
        change rest.length + _ * (unvisited search).card < fuel
        omega
      · rename_i hvisited
        have hnew : search.isVisited v = false := by simpa using hvisited
        obtain ⟨hdistance, hnext⟩ := hsearching.visit hqueue hnew
        have hself := visit_isVisited_self search distance v rest
        refine .bind_eq (assert_of hdistance) ?_
        split
        · rename_i hv
          subst hv
          exact .ok ⟨hdistance ▸ hnext, hself⟩
        · rename_i hv
          have hrelaxes := relaxAll_succeeds hrepresents hfeasible (u := v) 0
            List.drop_zero (by simpa using hnext) hself hdistance.symm
          refine .bind hrelaxes ?_
          rintro next ⟨hsearching, hvisited, _, hlength⟩
          have hsink' : next.isVisited .sink = false := by
            rw [hvisited, visit_isVisited_of_ne search distance (Ne.symm hv), hsink]
          refine ih hsearching hsink' ?_
          have hcard := card_unvisited_visit hnew distance rest
          have hunvisited : unvisited next = unvisited (search.visit distance v rest) := by
            unfold unvisited
            rw [hvisited]
          have hdegree := length_incident_le hrepresents v
          have hlength' : next.queue.length ≤ rest.length + (adjacency.incident v).length := hlength
          unfold entriesLeft
          rw [hunvisited]
          rw [← hcard, Nat.mul_succ] at hfuel
          omega

end

/-!
## The augmentation of the successive shortest path solver

Sending a unit along the path of the search writes two entries for each edge.  The
adjacency list represents the flow with the unit added, and no assertion fails.
-/

section

section

open Library Library.Fallible Library.LabelSearch Library.ResidualPotentials
  Library.RootedTree Library.UnitFlow

variable {nAgents nTasks : Nat} {cost : Fin nAgents → Fin nTasks → ℚ}
  {joined : Node nAgents nTasks → Node nAgents nTasks → Prop}
  {flow : Node nAgents nTasks → Node nAgents nTasks → ℤ}
  {adjacency : AdjacencyList nAgents nTasks}

/-! ## Writing an entry -/

/-- What an augmentation leaves of an entry. -/
def shape (edge : ResidualEdge nAgents nTasks) : Node nAgents nTasks × ℚ × Nat :=
  (edge.dst, edge.cost, edge.reverse)

theorem shape_eq_iff {edge edge' : ResidualEdge nAgents nTasks} : shape edge = shape edge' ↔
      edge.dst = edge'.dst ∧ edge.cost = edge'.cost ∧ edge.reverse = edge'.reverse := by
  unfold shape
  rw [Prod.mk.injEq, Prod.mk.injEq]

def SameShape (adjacency adjacency' : AdjacencyList nAgents nTasks) : Prop :=
  ∀ u, (adjacency'.incident u).map shape = (adjacency.incident u).map shape

namespace SameShape

variable {adjacency' adjacency'' : AdjacencyList nAgents nTasks}
  (hsame : SameShape adjacency adjacency')

include hsame

theorem symm : SameShape adjacency' adjacency :=
  fun u => (hsame u).symm

theorem trans (hsame' : SameShape adjacency' adjacency'') : SameShape adjacency adjacency'' :=
  fun u => (hsame' u).trans (hsame u)

theorem exists_edgeAt {u : Node nAgents nTasks}
    {index : Nat} {edge : ResidualEdge nAgents nTasks} (hedge : EdgeAt adjacency' u index edge) :
    ∃ edge', EdgeAt adjacency u index edge' ∧ shape edge' = shape edge := by
  have hshape := congrArg (fun shapes => shapes[index]?) (hsame u)
  simp only [List.getElem?_map] at hshape
  unfold EdgeAt at hedge ⊢
  rw [hedge, Option.map_some] at hshape
  exact Option.map_eq_some_iff.mp hshape.symm

theorem endsAt {u v : Node nAgents nTasks} {index : Nat}
    (hends : EndsAt adjacency u index v) : EndsAt adjacency' u index v := by
  obtain ⟨edge, hedge, rfl⟩ := hends
  obtain ⟨edge', hedge', hshape⟩ := hsame.symm.exists_edgeAt hedge
  exact ⟨edge', hedge', congrArg Prod.fst hshape⟩

end SameShape

theorem sameShape_set {u : Node nAgents nTasks} {index : Nat}
    {edge edge' : ResidualEdge nAgents nTasks} (hedge : EdgeAt adjacency u index edge)
    (hshape : shape edge' = shape edge) : SameShape adjacency (adjacency.set u index edge') := by
  intro v
  by_cases hv : v = u
  · subst hv
    rw [incident_set_self, List.map_set, hshape]
    refine List.ext_getElem? fun i => ?_
    rw [List.getElem?_set]
    split
    · rename_i heq
      obtain ⟨hlt, _⟩ := List.getElem?_eq_some_iff.mp hedge
      rw [if_pos (by rwa [List.length_map]), ← heq, List.getElem?_map, hedge]
      rfl
    · rfl
  · rw [incident_set_of_ne adjacency hv]

variable {u v : Node nAgents nTasks}

theorem edgeAt_set {index index' : Nat} {new edge : ResidualEdge nAgents nTasks}
    (hedge : EdgeAt (adjacency.set v index' new) u index edge) :
    (u = v ∧ index = index' ∧ edge = new) ∨
      (EdgeAt adjacency u index edge ∧ ¬ (u = v ∧ index = index')) := by
  unfold EdgeAt at hedge ⊢
  by_cases hv : u = v
  · subst hv
    rw [incident_set_self, List.getElem?_set] at hedge
    split at hedge
    · rename_i heq
      split at hedge
      · exact .inl ⟨rfl, heq.symm, (Option.some.inj hedge).symm⟩
      · cases hedge
    · rename_i hne
      exact .inr ⟨hedge, fun hsame => hne hsame.2.symm⟩
  · rw [incident_set_of_ne adjacency hv] at hedge
    exact .inr ⟨hedge, fun hsame => hv hsame.1⟩

/-- The entries stay linked when only what is sent changes. -/
theorem Represents.of_sameShape (hrepresents : Represents cost joined flow adjacency)
    {adjacency' : AdjacencyList nAgents nTasks} (hsame : SameShape adjacency adjacency')
    {flow' : Node nAgents nTasks → Node nAgents nTasks → ℤ}
    (hcapacity : ∀ {u index edge}, EdgeAt adjacency' u index edge →
      edge.capacity = room cost u edge.dst - flow' u edge.dst)
    (hflow : ∀ {u index edge}, EdgeAt adjacency' u index edge →
      edge.flow = room cost u edge.dst * flow' u edge.dst) :
    Represents cost joined flow' adjacency' where
  capacity := hcapacity
  flow := hflow
  weight := by
    intro u index edge hedge
    obtain ⟨old, hold, hshape⟩ := hsame.exists_edgeAt hedge
    obtain ⟨hdst, hcost, _⟩ := shape_eq_iff.mp hshape
    rw [← hcost, ← hdst, hrepresents.weight hold]
  link := by
    intro u index edge hedge
    obtain ⟨old, hold, hshape⟩ := hsame.exists_edgeAt hedge
    obtain ⟨hdst, _, hreverse⟩ := shape_eq_iff.mp hshape
    obtain ⟨backward, hbackward, hback, hindex⟩ := hrepresents.link hold
    rw [hdst, hreverse] at hbackward
    obtain ⟨backward', hbackward', hshape'⟩ := hsame.symm.exists_edgeAt hbackward
    obtain ⟨hdst', _, hreverse'⟩ := shape_eq_iff.mp hshape'
    exact ⟨backward', hbackward', hdst'.trans hback, hreverse'.trans hindex⟩
  unique := by
    intro u index edge index' edge' hedge hedge' heq
    obtain ⟨old, hold, hshape⟩ := hsame.exists_edgeAt hedge
    obtain ⟨old', hold', hshape'⟩ := hsame.exists_edgeAt hedge'
    refine hrepresents.unique hold hold' ?_
    rw [(shape_eq_iff.mp hshape).1, (shape_eq_iff.mp hshape').1, heq]
  joined := by
    intro u v
    refine hrepresents.joined.trans ⟨?_, ?_⟩
    · rintro ⟨index, edge, hedge, hdst⟩
      exact ⟨index, hsame.endsAt ⟨edge, hedge, hdst⟩⟩
    · rintro ⟨index, edge, hedge, hdst⟩
      exact ⟨index, hsame.symm.endsAt ⟨edge, hedge, hdst⟩⟩

/-! ## One edge -/

theorem edgeAt_eq {u : Node nAgents nTasks} {index : Nat}
    {edge : ResidualEdge nAgents nTasks} (hedge : EdgeAt adjacency u index edge) :
    edgeAt (adjacency.incident u) index = .ok edge := by
  unfold EdgeAt at hedge
  unfold edgeAt
  rw [hedge]

theorem Represents.send (hrepresents : Represents cost joined flow adjacency) (hne : u ≠ v)
    {index reverse : Nat} {forward backward forward' backward' : ResidualEdge nAgents nTasks}
    (hforward : EdgeAt adjacency u index forward) (hdst : forward.dst = v)
    (hbackward : EdgeAt adjacency v reverse backward) (hback : backward.dst = u)
    (hshape : shape forward' = shape forward) (hshape' : shape backward' = shape backward)
    (hcapacity : forward'.capacity = forward.capacity - 1)
    (hcapacity' : backward'.capacity = backward.capacity + 1)
    (hflow : forward'.flow = room cost u v * (flow u v + 1))
    (hflow' : backward'.flow = room cost v u * (flow v u - 1)) :
    SameShape adjacency ((adjacency.set u index forward').set v reverse backward') ∧
      Represents cost joined (push flow u v)
        ((adjacency.set u index forward').set v reverse backward') := by
  have hkept : EdgeAt (adjacency.set u index forward') v reverse backward := by
    unfold EdgeAt
    rw [incident_set_of_ne adjacency hne.symm]
    exact hbackward
  have hsame := (sameShape_set hforward hshape).trans (sameShape_set hkept hshape')
  have hdst' : forward'.dst = v := (shape_eq_iff.mp hshape).1.trans hdst
  have hback' : backward'.dst = u := (shape_eq_iff.mp hshape').1.trans hback
  have hcases {a : Node nAgents nTasks} {i : Nat} {edge : ResidualEdge nAgents nTasks}
      (hedge : EdgeAt ((adjacency.set u index forward').set v reverse backward') a i edge) :
      (a = v ∧ edge = backward') ∨ (a = u ∧ edge = forward') ∨
        (EdgeAt adjacency a i edge ∧ push flow u v a edge.dst = flow a edge.dst) := by
    rcases edgeAt_set hedge with ⟨ha, _, rfl⟩ | ⟨hfirst, hnot⟩
    · exact .inl ⟨ha, rfl⟩
    rcases edgeAt_set hfirst with ⟨ha, _, rfl⟩ | ⟨hold, hnot'⟩
    · exact .inr (.inl ⟨ha, rfl⟩)
    refine .inr (.inr ⟨hold, push_of_ne flow ?_ ?_⟩)
    · rintro ⟨rfl, hend⟩
      exact hnot' ⟨rfl, hrepresents.unique hold hforward (hend.trans hdst.symm)⟩
    · rintro ⟨rfl, hend⟩
      exact hnot ⟨rfl, hrepresents.unique hold hbackward (hend.trans hback.symm)⟩
  refine ⟨hsame, hrepresents.of_sameShape hsame ?_ ?_⟩
  · intro a i edge hedge
    rcases hcases hedge with ⟨rfl, rfl⟩ | ⟨rfl, rfl⟩ | ⟨hold, hpush⟩
    · rw [hback', hcapacity', hrepresents.capacity hbackward, hback, push_swap flow hne]
      ring
    · rw [hdst', hcapacity, hrepresents.capacity hforward, hdst, push_self flow hne]
      ring
    · rw [hpush, hrepresents.capacity hold]
  · intro a i edge hedge
    rcases hcases hedge with ⟨rfl, rfl⟩ | ⟨rfl, rfl⟩ | ⟨hold, hpush⟩
    · rw [hback', hflow', push_swap flow hne]
    · rw [hdst', hflow, push_self flow hne]
    · rw [hpush, hrepresents.flow hold]

theorem ne_of_residual (hflow : IsFlow (room cost) flow)
    (hresidual : Residual cost flow u v) : u ≠ v := by
  rintro rfl
  have hskew := hflow.skew u u
  unfold Residual at hresidual
  rw [room_self] at hresidual
  omega

theorem augmentEdge_succeeds (hrepresents : Represents cost (Joined cost) flow adjacency)
    (hflow : IsFlow (room cost) flow) {prevValues : Node nAgents nTasks → Node nAgents nTasks × Nat}
    {v : Node nAgents nTasks} (hends : EndsAt adjacency (prevValues v).1 (prevValues v).2 v)
    (hresidual : Residual cost flow (prevValues v).1 v) :
    Succeeds (augmentEdge prevValues v adjacency) fun result =>
      result.1 = (prevValues v).1 ∧ SameShape adjacency result.2 ∧
        Represents cost (Joined cost) (push flow (prevValues v).1 v) result.2 := by
  obtain ⟨forward, hforward, hdst⟩ := hends
  obtain ⟨backward, hbackward, hback, _⟩ := hrepresents.link hforward
  rw [hdst] at hbackward
  have hne := ne_of_residual hflow hresidual
  have hjoined := joined_of_residual hflow hresidual
  have hskew := hflow.skew (prevValues v).1 v
  have hle := hflow.le v (prevValues v).1
  have hcapacity := hrepresents.capacity hforward
  have hcapacity' := hrepresents.capacity hbackward
  have hsent := hrepresents.flow hforward
  have hsent' := hrepresents.flow hbackward
  rw [hdst] at hcapacity hsent
  rw [hback] at hcapacity' hsent'
  unfold Residual at hresidual
  unfold augmentEdge
  dsimp only
  refine .bind_eq (edgeAt_eq hforward) (.bind_eq (assert_of hdst)
    (.bind_eq (edgeAt_eq hbackward) ?_))
  rcases hjoined with hroom | hroom
  · -- an edge of the bipartite graph, which has no flow
    have hroom' := room_swap cost hroom
    have hzero : flow (prevValues v).1 v = 0 := by omega
    have hzero' : flow v (prevValues v).1 = 0 := by omega
    rw [hroom, hzero] at hcapacity hsent
    rw [hroom', hzero'] at hcapacity' hsent'
    have hstate : HasState forward backward 1 0 0 0 := ⟨hcapacity, hsent, hcapacity', hsent'⟩
    rw [if_pos hstate.2.2.2]
    refine .bind_eq (assert_of hstate) (.bind_eq (assert_of ?_) (.ok ⟨hback, ?_⟩))
    · unfold HasState
      dsimp only
      omega
    · refine hrepresents.send hne hforward hdst hbackward hback rfl rfl rfl rfl ?_ ?_
      · change forward.flow + 1 = _
        rw [hroom, hzero, hstate.2.1]
        rfl
      · rw [hroom', hstate.2.2.2, zero_mul]
  · -- the reverse of an edge, which has flow
    have hroom' := room_swap cost hroom
    have hone : flow v (prevValues v).1 = 1 := by omega
    have hone' : flow (prevValues v).1 v = -1 := by omega
    rw [hroom', hone'] at hcapacity hsent
    rw [hroom, hone] at hcapacity' hsent'
    have hstate : HasState forward backward 1 0 0 1 := ⟨hcapacity, hsent, hcapacity', hsent'⟩
    rw [if_neg (by rw [hstate.2.2.2]; decide)]
    refine .bind_eq (assert_of hstate) (.bind_eq (assert_of ?_) (.ok ⟨hback, ?_⟩))
    · unfold HasState
      dsimp only
      omega
    · refine hrepresents.send hne hforward hdst hbackward hback rfl rfl rfl rfl ?_ ?_
      · rw [hroom', hstate.2.1, zero_mul]
      · change backward.flow - 1 = _
        rw [hroom, hone, hstate.2.2.2]
        rfl

theorem augmentLoop_succeeds {prevValues : Node nAgents nTasks → Node nAgents nTasks × Nat}
    {path : List (Node nAgents nTasks)} (hpath : PathTo (parent prevValues .source) .source path)
    (hrepresents : Represents cost (Joined cost) flow adjacency)
    (hflow : IsFlow (room cost) flow) (hnodup : path.Nodup)
    (hends : ∀ v ∈ path, v ≠ .source → EndsAt adjacency (prevValues v).1 (prevValues v).2 v)
    (hroom : path.IsChain fun w w' => flow w' w < room cost w' w) {fuel : Nat}
    (hfuel : path.length ≤ fuel) {v : Node nAgents nTasks} (hhead : path.head? = some v) :
    Succeeds (augmentLoop prevValues fuel v adjacency)
      (Represents cost (Joined cost) (pushPath flow path)) := by
  induction hpath generalizing flow adjacency fuel v with
  | root =>
    cases hhead
    refine ⟨adjacency, ?_, hrepresents⟩
    unfold augmentLoop
    rw [if_pos rfl]
  | @step vertex above path hparent _ ih =>
    cases hhead
    have hne : vertex ≠ .source := by
      rintro rfl
      rw [parent_source] at hparent
      cases hparent
    rw [parent_of_ne prevValues hne] at hparent
    obtain rfl := Option.some.inj hparent
    obtain ⟨hnot, hrest⟩ := List.nodup_cons.mp hnodup
    obtain ⟨hfirst, hchain⟩ := List.isChain_cons_cons.mp hroom
    obtain ⟨fuel, rfl⟩ : ∃ left, fuel = left + 1 := by
      rw [List.length_cons] at hfuel
      exact ⟨fuel - 1, by omega⟩
    rw [augmentLoop, if_neg hne]
    refine .bind (augmentEdge_succeeds hrepresents hflow
      (hends vertex List.mem_cons_self hne) hfirst) ?_
    rintro ⟨prev, augmented⟩ ⟨rfl, hsame, hsent⟩
    refine ih hsent (hflow.push (ne_of_residual hflow hfirst) hfirst) hrest ?_
      (isChain_push hnot hchain) (Nat.le_of_succ_le_succ hfuel) rfl
    intro w hmem hsource
    exact hsame.endsAt (hends w (List.mem_cons_of_mem _ hmem) hsource)

end

open Library Library.Fallible Library.LabelSearch Library.ResidualPotentials
  Library.RootedTree Library.UnitFlow

variable {nAgents nTasks : Nat} {cost : Fin nAgents → Fin nTasks → ℚ}
  {flow : Node nAgents nTasks → Node nAgents nTasks → ℤ}
  {adjacency : AdjacencyList nAgents nTasks} {amount : Nat}

/-! ## Balanced flows -/

def nodeEquiv : Node nAgents nTasks ≃
    Unit ⊕ Fin nAgents ⊕ Fin nTasks ⊕ Unit ⊕ Fin nAgents where
  toFun
    | .source => .inl ()
    | .agent i => .inr (.inl i)
    | .task j => .inr (.inr (.inl j))
    | .sink => .inr (.inr (.inr (.inl ())))
    | .dummy i => .inr (.inr (.inr (.inr i)))
  invFun
    | .inl () => .source
    | .inr (.inl i) => .agent i
    | .inr (.inr (.inl j)) => .task j
    | .inr (.inr (.inr (.inl ()))) => .sink
    | .inr (.inr (.inr (.inr i))) => .dummy i
  left_inv v := by cases v <;> rfl
  right_inv v := by rcases v with _ | _ | _ | _ | _ <;> rfl

theorem net_eq (flow : Node nAgents nTasks → Node nAgents nTasks → ℤ) (v : Node nAgents nTasks) :
    net flow v = flow v .source + (∑ i, flow v (.agent i) + (∑ j, flow v (.task j) +
      (flow v .sink + ∑ i, flow v (.dummy i)))) := by
  unfold net
  rw [← Equiv.sum_comp nodeEquiv.symm]
  simp only [Fintype.sum_sum_type, Fintype.sum_unique]
  rfl

variable (cost flow) in
structure Balanced (amount : Nat) : Prop where
  isFlow : IsFlow (room cost) flow
  inner : ∀ v, v ≠ .source → v ≠ .sink → net flow v = 0
  source : net flow .source = amount

namespace Balanced

variable (hbalanced : Balanced cost flow amount)

include hbalanced

theorem flow_eq_zero {u v : Node nAgents nTasks}
    (hforward : room cost u v = 0) (hbackward : room cost v u = 0) : flow u v = 0 := by
  refine SuccessiveShortestPath.flow_eq_zero hbalanced.isFlow ?_
  unfold Joined
  omega

theorem flow_cases {u v : Node nAgents nTasks}
    (hbackward : room cost v u = 0) : flow u v = 0 ∨ flow u v = 1 := by
  have hskew := hbalanced.isFlow.skew u v
  have hle := hbalanced.isFlow.le u v
  have hge := hbalanced.isFlow.le v u
  have hroom := room_cases cost u v
  omega

theorem source_eq :
    ∑ i, flow .source (.agent i) = amount := by
  rw [← hbalanced.source, net_eq, hbalanced.flow_eq_zero (u := .source) (v := .source) rfl rfl,
    hbalanced.flow_eq_zero (u := .source) (v := .sink) rfl rfl,
    Finset.sum_eq_zero fun j _ =>
      hbalanced.flow_eq_zero (u := .source) (v := .task j) rfl rfl,
    Finset.sum_eq_zero fun i _ =>
      hbalanced.flow_eq_zero (u := .source) (v := .dummy i) rfl rfl]
  ring

theorem agent_eq (i : Fin nAgents) :
    flow .source (.agent i) = ∑ j, flow (.agent i) (.task j) + flow (.agent i) (.dummy i) := by
  have hnet := hbalanced.inner (.agent i) (by simp) (by simp)
  rw [net_eq, hbalanced.flow_eq_zero (u := .agent i) (v := .sink) rfl rfl,
    Finset.sum_eq_zero fun k _ =>
      hbalanced.flow_eq_zero (u := .agent i) (v := .agent k) rfl rfl,
    Finset.sum_eq_single i (fun k _ hne => ?_) (by simp)] at hnet
  · rw [hbalanced.isFlow.skew]
    omega
  · exact hbalanced.flow_eq_zero (if_neg hne.symm) rfl

theorem task_eq (j : Fin nTasks) :
    ∑ i, flow (.agent i) (.task j) = flow (.task j) .sink := by
  have hnet := hbalanced.inner (.task j) (by simp) (by simp)
  rw [net_eq, hbalanced.flow_eq_zero (u := .task j) (v := .source) rfl rfl,
    Finset.sum_eq_zero fun k _ =>
      hbalanced.flow_eq_zero (u := .task j) (v := .task k) rfl rfl,
    Finset.sum_eq_zero fun k _ =>
      hbalanced.flow_eq_zero (u := .task j) (v := .dummy k) rfl rfl] at hnet
  have hback : ∑ i, flow (.task j) (.agent i) = -∑ i, flow (.agent i) (.task j) := by
    rw [← Finset.sum_neg_distrib]
    exact Finset.sum_congr rfl fun i _ => hbalanced.isFlow.skew _ _
  omega

theorem dummy_eq (i : Fin nAgents) :
    flow (.agent i) (.dummy i) = flow (.dummy i) .sink := by
  have hnet := hbalanced.inner (.dummy i) (by simp) (by simp)
  rw [net_eq, hbalanced.flow_eq_zero (u := .dummy i) (v := .source) rfl rfl,
    Finset.sum_eq_zero fun k _ =>
      hbalanced.flow_eq_zero (u := .dummy i) (v := .task k) rfl rfl,
    Finset.sum_eq_zero fun k _ =>
      hbalanced.flow_eq_zero (u := .dummy i) (v := .dummy k) rfl rfl,
    Finset.sum_eq_single i (fun k _ hne => ?_) (by simp)] at hnet
  · rw [hbalanced.isFlow.skew]
    omega
  · exact hbalanced.flow_eq_zero rfl (if_neg hne)

end Balanced

variable (cost flow) in
structure Certified (potentials : Node nAgents nTasks → ℚ) : Prop where
  feasible : ResidualPotentials.Feasible (Residual cost flow) (weight cost) potentials
  nonneg : ∀ v, 0 ≤ potentials v
  source : potentials .source = 0

variable {potentials : Node nAgents nTasks → ℚ}

namespace Certified

variable (hcertified : Certified cost flow potentials)

include hcertified

theorem reduced_nonneg {u v : Node nAgents nTasks} (hresidual : flow u v < room cost u v) :
    0 ≤ weight cost u v + potentials u - potentials v :=
  hcertified.feasible u v hresidual

theorem dummy_flow (hbalanced : Balanced cost flow amount) (hlevel : potentials .sink < maxCost)
    (i : Fin nAgents) : flow (.agent i) (.dummy i) = 0 := by
  rcases hbalanced.flow_cases (u := .agent i) (v := .dummy i) rfl with hzero | hone
  · exact hzero
  · have hback : flow (.dummy i) (.agent i) < room cost (.dummy i) (.agent i) := by
      rw [hbalanced.isFlow.skew, hone]
      exact neg_one_lt_zero
    have hsink : flow .sink (.dummy i) < room cost .sink (.dummy i) := by
      rw [hbalanced.isFlow.skew, ← hbalanced.dummy_eq, hone]
      exact neg_one_lt_zero
    have hdummy := hcertified.reduced_nonneg hback
    have hlast := hcertified.reduced_nonneg hsink
    simp only [weight] at hdummy hlast
    linarith [hcertified.nonneg (.agent i)]

theorem hasFreeAgent (hbalanced : Balanced cost flow amount) (hlevel : potentials .sink < maxCost)
    (hamount : amount < nAgents) : HasFreeAgent cost flow := by
  have hfree : ∃ i : Fin nAgents, flow .source (.agent i) < 1 := by
    by_contra hall
    have hle : ∑ _i : Fin nAgents, (1 : ℤ) ≤ ∑ i, flow .source (.agent i) :=
      Finset.sum_le_sum fun i _ => not_lt.mp fun hless => hall ⟨i, hless⟩
    rw [hbalanced.source_eq] at hle
    simp at hle
    omega
  obtain ⟨i, hi⟩ := hfree
  have hdummy := hcertified.dummy_flow hbalanced hlevel i
  refine ⟨i, hi, ?_, ?_⟩
  · unfold Residual
    rw [hdummy, room, if_pos rfl]
    exact zero_lt_one
  · unfold Residual
    rw [← hbalanced.dummy_eq, hdummy]
    exact zero_lt_one

end Certified

namespace Finds

variable {found : Search nAgents nTasks} (hfinds : Finds cost flow adjacency potentials found)

include hfinds

theorem raised_eq :
    raisedPotentials found = raise potentials found.labels .sink := by
  funext v
  have hpotential := hfinds.searching.potentials v
  cases hv : found.isVisited v with
  | true =>
    rw [if_pos hv] at hpotential
    rw [raise_of_visited hv]
    exact (if_pos hv).trans hpotential
  | false =>
    rw [if_neg (by simp [hv])] at hpotential
    rw [raise_of_not_visited hv, ← hpotential]
    exact if_neg (by simp [hv])

theorem raised_sink :
    raisedPotentials found .sink = found.potentials .sink :=
  if_pos hfinds.sink

theorem exists_path :
    ∃ path, PathTo (parent found.prevValues .source) .source (.sink :: path) ∧
      ∀ v ∈ .sink :: path, v ≠ .source →
        HasRoom cost flow adjacency (found.prevValues v).1 (found.prevValues v).2 v ∧
          reduced (weight cost) (raisedPotentials found) (found.prevValues v).1 v = 0 := by
  have hexplored := hfinds.searching.explored
  obtain ⟨path, hpath, hvisited⟩ := hexplored.rooted .sink hfinds.sink
  refine ⟨path, hpath, fun v hmem hne => ?_⟩
  have hv := hvisited v hmem
  obtain ⟨hroom, hprevious, hdistance⟩ := hexplored.label v hne (hexplored.below v hv)
  rw [hfinds.raised_eq]
  exact ⟨hroom, reduced_raise_eq_zero hprevious hv hdistance⟩

theorem certified (hrepresents : Represents cost (Joined cost) flow adjacency)
    (hflow : IsFlow (room cost) flow) (hcertified : Certified cost flow potentials) :
    Certified cost flow (raisedPotentials found) := by
  have hexplored := hfinds.searching.explored
  rw [hfinds.raised_eq]
  refine ⟨?_, fun v => ?_, ?_⟩
  · exact hcertified.feasible.raise (fun u v => exists_hasRoom hrepresents hflow) hexplored
      hfinds.sink
  · exact (hcertified.nonneg v).trans (le_raise hexplored.nonneg v)
  · obtain ⟨path, hpath, hvisited⟩ := hexplored.rooted .sink hfinds.sink
    rw [raise_of_visited (hvisited .source hpath.root_mem), hcertified.source,
      hexplored.distance_source, add_zero]

end Finds

theorem Balanced.pushPath (hbalanced : Balanced cost flow amount)
    {path : List (Node nAgents nTasks)} (hnodup : (.sink :: path).Nodup)
    (hroom : (.sink :: path).IsChain fun w w' => flow w' w < room cost w' w)
    (hlast : (.sink :: path).getLast (List.cons_ne_nil _ _) = .source) :
    Balanced cost (UnitFlow.pushPath flow (.sink :: path)) (amount + 1) where
  isFlow := hbalanced.isFlow.pushPath hnodup hroom
  inner v hsource hsink := by
    rw [net_pushPath, hlast, if_neg hsource, if_neg hsink, hbalanced.inner v hsource hsink]
    rfl
  source := by
    rw [net_pushPath, hlast, if_pos rfl, if_neg (by simp), hbalanced.source]
    simp

/-- Tight edges may be turned around. -/
theorem Certified.pushPath (hcertified : Certified cost flow potentials)
    {path : List (Node nAgents nTasks)}
    (htight : path.IsChain fun w w' => reduced (weight cost) potentials w' w = 0) :
    Certified cost (UnitFlow.pushPath flow path) potentials where
  feasible := by
    refine hcertified.feasible.turn (weight_swap cost) fun u v hresidual => ?_
    rcases lt_or_ge (UnitFlow.pushPath flow path u v) (flow u v) with hless | hge
    · exact .inr (of_pushPath_lt (fun a b => reduced (weight cost) potentials a b = 0) htight hless)
    · exact .inl (hge.trans_lt hresidual)
  nonneg := hcertified.nonneg
  source := hcertified.source

/-! ## The loop -/

/-- The final assertion of a round holds. -/
theorem feasible_of_certified (hrepresents : Represents cost (Joined cost) flow adjacency)
    (hcertified : Certified cost flow potentials) : Feasible adjacency potentials := by
  intro v edge hmem hcapacity
  obtain ⟨index, hedge⟩ := List.mem_iff_getElem?.mp hmem
  rw [hrepresents.capacity hedge] at hcapacity
  rw [hrepresents.weight hedge]
  exact hcertified.reduced_nonneg (by omega)

variable (cost flow amount potentials adjacency) in
/-- What holds between two rounds. -/
structure Round : Prop where
  represents : Represents cost (Joined cost) flow adjacency
  balanced : Balanced cost flow amount
  certified : Certified cost flow potentials
  level : potentials .sink < maxCost

/-- The flow is as large as it may be, or the next path costs as much as one over a dummy. -/
def Solved (cost : Fin nAgents → Fin nTasks → ℚ) (adjacency : AdjacencyList nAgents nTasks) :
    Prop :=
  ∃ flow amount potentials, Round cost flow adjacency amount potentials ∧
    (amount = min nAgents nTasks ∨ ∃ raised, Certified cost flow raised ∧ maxCost ≤ raised .sink)

/-- The iterations that each of the inner loops may take. -/
def iterations (nAgents nTasks : Nat) : Nat :=
  Fintype.card (Node nAgents nTasks) ^ 2 + 2

variable {fuel : Nat} (hround : Round cost flow adjacency amount potentials)

include hround

theorem Round.search_succeeds (hfuel : iterations nAgents nTasks ≤ fuel)
    (hamount : amount < nAgents) (prevValues : Node nAgents nTasks → Node nAgents nTasks × Nat) :
    Succeeds (searchLoop adjacency fuel (startSearch potentials prevValues))
      (Finds cost flow adjacency potentials) := by
  obtain ⟨hrepresents, hbalanced, hcertified, hlevel⟩ := hround
  refine searchLoop_succeeds hrepresents hbalanced.isFlow
    (hcertified.hasFreeAgent hbalanced hlevel hamount) hcertified.feasible hcertified.nonneg
    hcertified.source (searching_start prevValues) rfl ?_
  have hcard : (unvisited (startSearch potentials prevValues)).card ≤
      Fintype.card (Node nAgents nTasks) := Finset.card_le_univ _
  have hproduct := Nat.mul_le_mul_left (Fintype.card (Node nAgents nTasks)) hcard
  unfold iterations at hfuel
  unfold entriesLeft
  change 1 + _ < fuel
  rw [← sq] at hproduct
  omega

theorem Round.augment_succeeds (hfuel : iterations nAgents nTasks ≤ fuel)
    {found : Search nAgents nTasks} (hfinds : Finds cost flow adjacency potentials found)
    (hlevel : found.potentials .sink < maxCost) :
    Succeeds (augmentLoop found.prevValues fuel .sink adjacency) fun augmented =>
      ∃ flow', Round cost flow' augmented (amount + 1) (raisedPotentials found) := by
  obtain ⟨hrepresents, hbalanced, hcertified, _⟩ := hround
  obtain ⟨path, hpath, hedges⟩ := hfinds.exists_path
  have hnodup := hpath.nodup (parent_source found.prevValues .source)
  have hlast := hpath.getLast_eq (List.cons_ne_nil _ _)
  have hchain {related : Node nAgents nTasks → Node nAgents nTasks → Prop}
      (hrelated : ∀ v ∈ .sink :: path, v ≠ .source → related v (found.prevValues v).1) :
      (.sink :: path).IsChain related := by
    refine hpath.isChain fun v hmem above habove => ?_
    have hne : v ≠ .source := by
      rintro rfl
      rw [parent_source] at habove
      cases habove
    rw [parent_of_ne found.prevValues hne] at habove
    exact Option.some.inj habove ▸ hrelated v hmem hne
  have hroom : (.sink :: path).IsChain fun w w' => flow w' w < room cost w' w :=
    hchain fun v hmem hne => (hedges v hmem hne).1.2
  have htight : (.sink :: path).IsChain fun w w' =>
      reduced (weight cost) (raisedPotentials found) w' w = 0 :=
    hchain fun v hmem hne => (hedges v hmem hne).2
  have hlength : (.sink :: path).length ≤ fuel := by
    have hle := hnodup.length_le_card
    have hself := Nat.le_self_pow two_ne_zero (Fintype.card (Node nAgents nTasks))
    unfold iterations at hfuel
    omega
  refine (augmentLoop_succeeds hpath hrepresents hbalanced.isFlow hnodup
    (fun v hmem hne => (hedges v hmem hne).1.1) hroom hlength rfl).mono ?_
  intro augmented haugmented
  exact ⟨_, haugmented, hbalanced.pushPath hnodup hroom hlast,
    (hfinds.certified hrepresents hbalanced.isFlow hcertified).pushPath htight,
    hfinds.raised_sink ▸ hlevel⟩

theorem flowLoop_succeeds (hfuel : iterations nAgents nTasks ≤ fuel) {remaining : Nat}
    (htotal : amount + remaining = min nAgents nTasks)
    (prevValues : Node nAgents nTasks → Node nAgents nTasks × Nat) :
    Succeeds (flowLoop fuel remaining adjacency potentials prevValues) (Solved cost) := by
  induction remaining generalizing flow adjacency amount potentials prevValues with
  | zero => exact .ok ⟨flow, amount, potentials, hround, .inl htotal⟩
  | succ remaining ih =>
    rw [flowLoop]
    refine .bind (hround.search_succeeds hfuel (by omega) prevValues) fun found hfinds => ?_
    split
    · rename_i hlevel
      refine .ok ⟨flow, amount, potentials, hround, .inr ⟨raisedPotentials found, ?_, ?_⟩⟩
      · exact hfinds.certified hround.represents hround.balanced.isFlow hround.certified
      · rwa [hfinds.raised_sink]
    · rename_i hlevel
      refine .bind (hround.augment_succeeds hfuel hfinds (not_le.mp hlevel)) ?_
      rintro augmented ⟨flow', hnext⟩
      refine .bind_eq (assert_of (feasible_of_certified hnext.represents hnext.certified)) ?_
      exact ih hnext (by omega) found.prevValues

end

/-! ## The assignment of the successive shortest path solver -/

open Library Library.AssignmentDuality Library.Fallible Library.UnitFlow

variable {nAgents nTasks : Nat} {cost : Fin nAgents → Fin nTasks → ℚ}
  {flow : Node nAgents nTasks → Node nAgents nTasks → ℤ}
  {adjacency : AdjacencyList nAgents nTasks} {amount : Nat}
  {potentials : Node nAgents nTasks → ℚ}

/-! ## The pairs with flow -/

theorem eq_of_sum_le_one {ι : Type*} [Fintype ι] [DecidableEq ι] {f : ι → ℤ}
    (hnonneg : ∀ i, 0 ≤ f i) (hsum : ∑ i, f i ≤ 1) {i j : ι} (hi : f i = 1) (hj : f j = 1) :
    i = j := by
  by_contra hne
  have hpair : ∑ k ∈ {i, j}, f k ≤ ∑ k, f k :=
    Finset.sum_le_sum_of_subset_of_nonneg (Finset.subset_univ _) fun k _ _ => hnonneg k
  rw [Finset.sum_pair hne] at hpair
  omega

def flowPairs (flow : Node nAgents nTasks → Node nAgents nTasks → ℤ) :
    Finset (Fin nAgents × Fin nTasks) :=
  Finset.univ.filter fun pair => flow (.agent pair.1) (.task pair.2) = 1

@[simp] theorem mem_flowPairs {pair : Fin nAgents × Fin nTasks} :
    pair ∈ flowPairs flow ↔ flow (.agent pair.1) (.task pair.2) = 1 := by
  unfold flowPairs
  rw [Finset.mem_filter]
  simp

namespace Round

variable (hround : Round cost flow adjacency amount potentials)

include hround

variable (i : Fin nAgents)

theorem flow_cases (j : Fin nTasks) :
    flow (.agent i) (.task j) = 0 ∨ flow (.agent i) (.task j) = 1 :=
  hround.balanced.flow_cases rfl

theorem flow_nonneg (j : Fin nTasks) : 0 ≤ flow (.agent i) (.task j) := by
  rcases hround.flow_cases i j with hzero | hone <;> omega

theorem sum_agent :
    ∑ j, flow (.agent i) (.task j) = flow .source (.agent i) := by
  have hdummy := hround.certified.dummy_flow hround.balanced hround.level i
  have hagent := hround.balanced.agent_eq i
  omega

theorem sum_agent_le : ∑ j, flow (.agent i) (.task j) ≤ 1 := by
  rw [hround.sum_agent]
  exact hround.balanced.isFlow.le _ _

theorem sum_task_le (j : Fin nTasks) : ∑ i, flow (.agent i) (.task j) ≤ 1 := by
  rw [hround.balanced.task_eq]
  exact hround.balanced.isFlow.le _ _

theorem task_unique {i : Fin nAgents} {j j' : Fin nTasks}
    (hflow : flow (.agent i) (.task j) = 1) (hflow' : flow (.agent i) (.task j') = 1) :
    j = j' :=
  eq_of_sum_le_one (hround.flow_nonneg i) (hround.sum_agent_le i) hflow hflow'

theorem agent_unique {i i' : Fin nAgents} {j : Fin nTasks}
    (hflow : flow (.agent i) (.task j) = 1) (hflow' : flow (.agent i') (.task j) = 1) :
    i = i' :=
  eq_of_sum_le_one (f := fun i => flow (.agent i) (.task j)) (fun i => hround.flow_nonneg i j)
    (hround.sum_task_le j) hflow hflow'

theorem isAssignment : IsAssignment (flowPairs flow) where
  left := by
    rintro ⟨i, j⟩ hpair ⟨i', j'⟩ hpair' heq
    obtain rfl : i = i' := heq
    exact Prod.ext rfl (hround.task_unique (mem_flowPairs.mp hpair) (mem_flowPairs.mp hpair'))
  right := by
    rintro ⟨i, j⟩ hpair ⟨i', j'⟩ hpair' heq
    obtain rfl : j = j' := heq
    exact Prod.ext (hround.agent_unique (mem_flowPairs.mp hpair) (mem_flowPairs.mp hpair')) rfl

theorem card_flowPairs : (flowPairs flow).card = amount := by
  have hcount : ((flowPairs flow).card : ℤ) = ∑ i, ∑ j, flow (.agent i) (.task j) := by
    unfold flowPairs
    rw [Finset.natCast_card_filter, Fintype.sum_prod_type]
    refine Finset.sum_congr rfl fun i _ => Finset.sum_congr rfl fun j _ => ?_
    rcases hround.flow_cases i j with hzero | hone
    · simp [hzero]
    · simp [hone]
  rw [Finset.sum_congr rfl fun i _ => hround.sum_agent i, hround.balanced.source_eq] at hcount
  exact_mod_cast hcount

/-- The pairs that may be assigned have an edge. -/
theorem eps_lt_of_flow {i : Fin nAgents} {j : Fin nTasks}
    (hflow : flow (.agent i) (.task j) = 1) : eps < cost i j := by
  have hle := hround.balanced.isFlow.le (.agent i) (.task j)
  rw [hflow, room] at hle
  by_contra hnot
  rw [if_neg hnot] at hle
  omega

theorem fits {raised : Node nAgents nTasks → ℚ} (hraised : Certified cost flow raised) :
    Fits (flowPairs flow) (fun pair => eps < cost pair.1 pair.2) (fun pair => cost pair.1 pair.2)
      maxCost (raised .sink) (fun i => raised (.agent i)) (fun j => raised (.task j)) where
  assigned := by
    rintro ⟨i, j⟩ hpair
    have hback : flow (.task j) (.agent i) < room cost (.task j) (.agent i) := by
      rw [hround.balanced.isFlow.skew, mem_flowPairs.mp hpair]
      exact neg_one_lt_zero
    have hreduced := hraised.reduced_nonneg hback
    simp only [weight] at hreduced
    dsimp only
    linarith
  other := by
    rintro ⟨i, j⟩ hallowed hpair
    have hzero : flow (.agent i) (.task j) = 0 :=
      (hround.flow_cases i j).resolve_right fun hone => hpair (mem_flowPairs.mpr hone)
    have hforward : flow (.agent i) (.task j) < room cost (.agent i) (.task j) := by
      rw [hzero, room, if_pos hallowed]
      exact zero_lt_one
    have hreduced := hraised.reduced_nonneg hforward
    simp only [weight] at hreduced
    dsimp only
    linarith
  left_nonneg i := hraised.nonneg _
  left_free i hfree := by
    have hnone : flow .source (.agent i) = 0 := by
      rw [← hround.sum_agent]
      refine Finset.sum_eq_zero fun j _ => (hround.flow_cases i j).resolve_right fun hone => ?_
      exact hfree (Finset.mem_image.mpr ⟨(i, j), mem_flowPairs.mpr hone, rfl⟩)
    have hforward : flow .source (.agent i) < room cost .source (.agent i) := by
      rw [hnone]
      exact zero_lt_one
    have hreduced := hraised.reduced_nonneg hforward
    rw [hraised.source] at hreduced
    simp only [weight] at hreduced
    linarith
  right_le j hmem := by
    obtain ⟨⟨i, _⟩, hpair, rfl⟩ := Finset.mem_image.mp hmem
    rw [mem_flowPairs] at hpair
    dsimp only at hpair ⊢
    rename_i j
    have hsent : flow (.agent i) (.task j) ≤ flow (.task j) .sink := by
      rw [← hround.balanced.task_eq]
      exact Finset.single_le_sum (f := fun i => flow (.agent i) (.task j))
        (fun k _ => hround.flow_nonneg k j) (Finset.mem_univ i)
    have hback : flow .sink (.task j) < room cost .sink (.task j) := by
      rw [hround.balanced.isFlow.skew]
      change _ < (0 : ℤ)
      omega
    have hreduced := hraised.reduced_nonneg hback
    simp only [weight] at hreduced
    linarith
  right_free j hfree := by
    have hnone : flow (.task j) .sink = 0 := by
      rw [← hround.balanced.task_eq]
      refine Finset.sum_eq_zero fun i _ => (hround.flow_cases i j).resolve_right fun hone => ?_
      exact hfree (Finset.mem_image.mpr ⟨(i, j), mem_flowPairs.mpr hone, rfl⟩)
    have hforward : flow (.task j) .sink < room cost (.task j) .sink := by
      rw [hnone]
      exact zero_lt_one
    have hreduced := hraised.reduced_nonneg hforward
    simp only [weight] at hreduced
    linarith

end Round

/-- An assignment has at most one pair for each agent and for each task. -/
theorem card_le_min {others : Finset (Fin nAgents × Fin nTasks)} (hothers : IsAssignment others) :
    others.card ≤ min nAgents nTasks := by
  refine Nat.le_min.mpr ⟨?_, ?_⟩
  · rw [← Finset.card_image_of_injOn hothers.left]
    exact (Finset.card_le_univ _).trans_eq (Fintype.card_fin nAgents)
  · rw [← Finset.card_image_of_injOn hothers.right]
    exact (Finset.card_le_univ _).trans_eq (Fintype.card_fin nTasks)

/-- No other assignment of pairs that may be assigned scores more. -/
theorem Round.optimal (hround : Round cost flow adjacency amount potentials)
    (hlast : amount = min nAgents nTasks ∨
      ∃ raised, Certified cost flow raised ∧ maxCost ≤ raised .sink)
    {others : Finset (Fin nAgents × Fin nTasks)} (hothers : IsAssignment others)
    (hallowed : ∀ pair ∈ others, eps < cost pair.1 pair.2) :
    ∑ pair ∈ others, cost pair.1 pair.2 ≤ ∑ pair ∈ flowPairs flow, cost pair.1 pair.2 := by
  have hfits := hround.fits hround.certified
  rcases Nat.le_total others.card (flowPairs flow).card with hfewer | hmore
  · exact hfits.score_le_of_card_le hround.isAssignment hothers hallowed hround.level.le hfewer
  · rcases hlast with hfull | ⟨raised, hraised, hlevel⟩
    · refine hfits.score_le_of_card_le hround.isAssignment hothers hallowed hround.level.le ?_
      rw [hround.card_flowPairs, hfull]
      exact card_le_min hothers
    · exact (hround.fits hraised).score_le_of_le_card hround.isAssignment hothers hallowed
        hlevel hmore

def assignedTask (adjacency : AdjacencyList nAgents nTasks) (agent : Fin nAgents) :
    Option (Fin nTasks) :=
  (adjacency.incident (.agent agent)).findSome? fun edge =>
    if edge.flow = 1 then edge.dst.task? else none

theorem assignAgent_eq (assignment : Assignment nAgents nTasks) (agent : Fin nAgents) :
    assignAgent adjacency assignment agent =
      match assignedTask adjacency agent with
      | some task =>
        { direct := Function.update assignment.direct agent (some task)
          reverse := Function.update assignment.reverse task (some agent) }
      | none => assignment :=
  rfl

theorem Round.assignedTask_eq_some (hround : Round cost flow adjacency amount potentials)
    {i : Fin nAgents} {j : Fin nTasks} :
    assignedTask adjacency i = some j ↔ flow (.agent i) (.task j) = 1 := by
  have hsound {j : Fin nTasks} (hassigned : assignedTask adjacency i = some j) :
      flow (.agent i) (.task j) = 1 := by
    obtain ⟨edge, hmem, htask⟩ := List.exists_of_findSome?_eq_some hassigned
    obtain ⟨index, hedge⟩ := List.mem_iff_getElem?.mp hmem
    split at htask
    · rename_i hone
      have hdst : edge.dst = .task j := by
        cases hdst : edge.dst with
        | task k =>
          rw [hdst] at htask
          exact congrArg Node.task (Option.some.inj htask)
        | _ =>
          rw [hdst] at htask
          cases htask
      rw [hround.represents.flow hedge, hdst] at hone
      rcases hround.flow_cases i j with hzero | hflow
      · rw [hzero, mul_zero] at hone
        cases hone
      · exact hflow
    · cases htask
  refine ⟨hsound, fun hflow => ?_⟩
  have hroom : room cost (.agent i) (.task j) = 1 := by
    rw [room, if_pos (hround.eps_lt_of_flow hflow)]
  obtain ⟨index, edge, hedge, hdst⟩ := hround.represents.joined.mp (.inl hroom)
  have hone : edge.flow = 1 := by
    rw [hround.represents.flow hedge, hdst, hroom, hflow, mul_one]
  cases hassigned : assignedTask adjacency i with
  | none =>
    have hnone := List.findSome?_eq_none_iff.mp hassigned edge (List.mem_of_getElem? hedge)
    rw [if_pos hone, hdst] at hnone
    cases hnone
  | some k => rw [hround.task_unique (hsound hassigned) hflow]

/-- Both maps are the relation. -/
def Agrees (matched : Fin nAgents → Fin nTasks → Prop)
    (assignment : Assignment nAgents nTasks) : Prop :=
  ∀ i j, (assignment.direct i = some j ↔ matched i j) ∧
    (assignment.reverse j = some i ↔ matched i j)

theorem Round.agrees_assignAgent (hround : Round cost flow adjacency amount potentials)
    {done : Fin nAgents → Prop} {assignment : Assignment nAgents nTasks}
    (hagrees : Agrees (fun i j => done i ∧ flow (.agent i) (.task j) = 1) assignment)
    (agent : Fin nAgents) :
    Agrees (fun i j => (done i ∨ i = agent) ∧ flow (.agent i) (.task j) = 1)
      (assignAgent adjacency assignment agent) := by
  intro i j
  obtain ⟨hdirect, hreverse⟩ := hagrees i j
  rw [assignAgent_eq]
  cases hassigned : assignedTask adjacency agent with
  | none =>
    have hnone : ¬ (i = agent ∧ flow (.agent i) (.task j) = 1) := by
      rintro ⟨rfl, hflow⟩
      rw [hround.assignedTask_eq_some.mpr hflow] at hassigned
      cases hassigned
    dsimp only
    rw [hdirect, hreverse]
    constructor <;> tauto
  | some task =>
    have hflow := hround.assignedTask_eq_some.mp hassigned
    dsimp only
    constructor
    · by_cases hi : i = agent
      · subst hi
        rw [Function.update_self, Option.some.injEq]
        refine ⟨fun heq => ⟨.inr rfl, heq ▸ hflow⟩, fun hmatched => ?_⟩
        exact hround.task_unique hflow hmatched.2
      · rw [Function.update_of_ne hi, hdirect]
        tauto
    · by_cases hj : j = task
      · subst hj
        rw [Function.update_self, Option.some.injEq]
        refine ⟨fun heq => heq ▸ ⟨.inr rfl, hflow⟩, fun hmatched => ?_⟩
        exact hround.agent_unique hflow hmatched.2
      · rw [Function.update_of_ne hj, hreverse]
        refine ⟨fun hmatched => ⟨.inl hmatched.1, hmatched.2⟩, ?_⟩
        rintro ⟨hdone | rfl, hmatched⟩
        · exact ⟨hdone, hmatched⟩
        · exact absurd (hround.task_unique hmatched hflow) hj

theorem Round.agrees_foldl (hround : Round cost flow adjacency amount potentials)
    (agents : List (Fin nAgents)) {done : Fin nAgents → Prop}
    {assignment : Assignment nAgents nTasks}
    (hagrees : Agrees (fun i j => done i ∧ flow (.agent i) (.task j) = 1) assignment) :
    Agrees (fun i j => (done i ∨ i ∈ agents) ∧ flow (.agent i) (.task j) = 1)
      (agents.foldl (assignAgent adjacency) assignment) := by
  induction agents generalizing done assignment with
  | nil => simpa using hagrees
  | cons agent agents ih =>
    simpa only [List.foldl_cons, List.mem_cons, or_assoc] using
      ih (hround.agrees_assignAgent hagrees agent)

theorem feasible_zero (hcost : ∀ i j, cost i j ≤ maxCost) :
    Certified cost (fun _ _ => 0) fun _ => 0 where
  feasible := by
    intro u v hresidual
    unfold Residual at hresidual
    have hweight : 0 ≤ weight cost u v := by
      cases u <;> cases v <;> simp_all [room, weight, maxCost]
    simpa [ResidualPotentials.reduced] using hweight
  nonneg _ := le_rfl
  source := rfl

theorem round_graph (hcost : ∀ i j, cost i j ≤ maxCost) :
    Round cost (fun _ _ => 0) (graph cost) 0 fun _ => 0 where
  represents := represents_graph cost
  balanced :=
    { isFlow :=
        { skew := fun _ _ => rfl
          le := fun u v => by
            rcases room_cases cost u v with hzero | hone <;> omega }
      inner := fun v _ _ => Finset.sum_const_zero
      source := Finset.sum_const_zero }
  certified := feasible_zero hcost
  level := by norm_num [maxCost]

def Assignment.pairs (assignment : Assignment nAgents nTasks) : Finset (Fin nAgents × Fin nTasks) :=
  Finset.univ.filter fun pair => assignment.direct pair.1 = some pair.2

def Assignment.empty : Assignment nAgents nTasks :=
  ⟨fun _ => none, fun _ => none⟩

/-- The maps that are returned are inverse to each other and assign only pairs whose score
is above the threshold, and no other assignment of such pairs scores more. -/
theorem maximizeLinearAssignment_optimal (hagents : 1 ≤ nAgents) (htasks : 1 ≤ nTasks)
    (hcost : ∀ i j, cost i j ≤ maxCost) {fuel : Nat} (hfuel : iterations nAgents nTasks ≤ fuel) :
    ∃ assigned, maximizeLinearAssignment fuel cost .empty = .ok assigned ∧
      (∀ i j, assigned.direct i = some j ↔ assigned.reverse j = some i) ∧
      (∀ i j, assigned.direct i = some j → eps < cost i j) ∧
      ∀ others : Finset (Fin nAgents × Fin nTasks), IsAssignment others →
        (∀ pair ∈ others, eps < cost pair.1 pair.2) →
        ∑ pair ∈ others, cost pair.1 pair.2 ≤ ∑ pair ∈ assigned.pairs, cost pair.1 pair.2 := by
  obtain ⟨adjacency, hloop, flow, amount, potentials, hround, hlast⟩ :=
    flowLoop_succeeds (round_graph hcost) hfuel (zero_add _) fun _ => (.source, 0)
  have hempty : Agrees (fun i j => False ∧ flow (.agent i) (.task j) = 1)
      (Assignment.empty : Assignment nAgents nTasks) := by
    simp [Agrees, Assignment.empty]
  have hagrees := hround.agrees_foldl (List.finRange nAgents) hempty
  simp only [List.mem_finRange, or_true, true_and] at hagrees
  refine ⟨(List.finRange nAgents).foldl (assignAgent adjacency) .empty, ?_, ?_, ?_, ?_⟩
  · have hvalid : Valid ((List.finRange nAgents).foldl (assignAgent adjacency) .empty) :=
      fun i j hmem => (hagrees i j).2.mpr ((hagrees i j).1.mp hmem)
    unfold maximizeLinearAssignment
    rw [if_neg (by omega)]
    exact bind_eq_ok.mpr ⟨adjacency, hloop, bind_eq_ok.mpr ⟨(), assert_of hvalid, rfl⟩⟩
  · exact fun i j => (hagrees i j).1.trans (hagrees i j).2.symm
  · exact fun i j hassigned => hround.eps_lt_of_flow ((hagrees i j).1.mp hassigned)
  · intro others hothers hallowed
    have hpairs : Assignment.pairs ((List.finRange nAgents).foldl (assignAgent adjacency) .empty) =
        flowPairs flow := by
      ext ⟨i, j⟩
      unfold Assignment.pairs
      rw [Finset.mem_filter, mem_flowPairs]
      simpa using (hagrees i j).1
    rw [hpairs]
    exact hround.optimal hlast hothers hallowed

/-- Two agents that both score most with the first task. -/
theorem maximizeLinearAssignment_shared : ∃ assigned, maximizeLinearAssignment 66
        (![![9, 5], ![8, 1]] : Fin 2 → Fin 2 → ℚ) .empty = .ok assigned ∧
      (∀ i j, assigned.direct i = some j ↔ assigned.reverse j = some i) ∧
      (∀ i j, assigned.direct i = some j → eps < (![![9, 5], ![8, 1]] : Fin 2 → Fin 2 → ℚ) i j) ∧
      ∀ others : Finset (Fin 2 × Fin 2), IsAssignment others →
        (∀ pair ∈ others, eps < (![![9, 5], ![8, 1]] : Fin 2 → Fin 2 → ℚ) pair.1 pair.2) →
        ∑ pair ∈ others, (![![9, 5], ![8, 1]] : Fin 2 → Fin 2 → ℚ) pair.1 pair.2 ≤
          ∑ pair ∈ assigned.pairs, (![![9, 5], ![8, 1]] : Fin 2 → Fin 2 → ℚ) pair.1 pair.2 :=
  maximizeLinearAssignment_optimal (by decide) (by decide) (by decide +kernel) (by decide)

end AutowareUniverse.Perception.SuccessiveShortestPath
