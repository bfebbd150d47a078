import AutowareUniverse.Library.Fallible
import AutowareUniverse.Library.RootedTree
import Mathlib.Data.Finset.Sort
import Mathlib.Algebra.Order.Group.Defs
import Mathlib.Tactic.Abel

/-!
# The RRT* planner

The nodes of the planner are objects on a heap that point to each other, to the
parent weakly and to the children.  Costs are taken from an ordered group, so that
the arithmetic is exact.  The configuration space is a parameter with its distance
and its collision check, and the random sample of an extension is an argument of
the extension.  The dump of the state is left out.
-/

namespace AutowareUniverse.Planning

/-- The configuration space, as far as the planner uses it. -/
structure CSpace (Pose K : Type) where
  distance : Pose → Pose → K
  distanceLowerBound : Pose → Pose → K
  interpolateChild2Parent : Pose → Pose → K → Pose
  isValidPathChild2Parent : Pose → Pose → K → Bool

namespace RRTStar

abbrev NodeId := ℕ

structure Node (Pose K : Type) where
  pose : Pose
  costFromStart : Option K
  costToGoal : Option K
  costToParent : Option K
  parent : Option NodeId
  childs : List NodeId

/-- Where the source would have undefined behaviour: an empty optional or a null
pointer is dereferenced, or a child is erased that is not there.  A loop over nodes
that takes more iterations than there are nodes does not end. -/
inductive Failure where
  | noValue
  | nullPointer
  | childNotFound
  | diverges
  deriving DecidableEq

/-- The constant members. -/
structure Param (Pose K : Type) where
  mu : K
  collisionCheckResolution : K
  cspace : CSpace Pose K

end RRTStar

open RRTStar in
/-- The members of the planner with the heap.  Addresses from `created` on are free. -/
structure RRTStar (Pose K : Type) where
  heap : NodeId → Node Pose K
  created : ℕ
  nodeStart : NodeId
  nodeGoal : Node Pose K
  nodes : List NodeId
  reachedNodes : List NodeId

namespace RRTStar

variable {Pose K : Type}

/-- `*optional`. -/
def value (optional : Option K) : Except Failure K :=
  match optional with
  | some content => return content
  | none => throw .noValue

/-- `cost < bound`, where no bound is infinity. -/
def below [LT K] [DecidableLT K] (bound : Option K) (cost : K) : Bool :=
  match bound with
  | some bound => decide (cost < bound)
  | none => true

variable (self : RRTStar Pose K)

/-- The pointer to a node that `nodes_` holds; others may have expired. -/
def getParent (node : NodeId) : Except Failure NodeId :=
  match (self.heap node).parent with
  | some parent => if parent ∈ self.nodes then return parent else throw .nullPointer
  | none => throw .nullPointer

def setNode (node : NodeId) (content : Node Pose K) : RRTStar Pose K :=
  { self with heap := Function.update self.heap node content }

/-- `node->deleteChild(child)`. -/
def deleteChild (node child : NodeId) : Except Failure (RRTStar Pose K) :=
  if child ∈ (self.heap node).childs then
    return self.setNode node
      { self.heap node with childs := (self.heap node).childs.erase child }
  else throw .childNotFound

variable [Zero K]

/-- The constructor. -/
def initial (xStart xGoal : Pose) : RRTStar Pose K :=
  let nodeStart : Node Pose K := ⟨xStart, some 0, none, none, none, []⟩
  { heap := fun _ => nodeStart
    created := 1
    nodeStart := 0
    nodeGoal := ⟨xGoal, none, some 0, none, none, []⟩
    nodes := [0]
    reachedNodes := [] }

def isSolutionFound (self : RRTStar Pose K) : Bool := !self.reachedNodes.isEmpty

variable [Add K] [LinearOrder K] (param : Param Pose K)

/-! ## Extending -/

def findNearestNode (self : RRTStar Pose K) (xRand : Pose) : Option NodeId :=
  (self.nodes.foldl (fun (distMin, nearest) node =>
    let pose := (self.heap node).pose
    if below distMin (param.cspace.distanceLowerBound pose xRand) then
      let distReal := param.cspace.distance pose xRand
      if below distMin distReal then (some distReal, some node) else (distMin, nearest)
    else (distMin, nearest)) ((none, none) : Option K × Option NodeId)).2

def findNeighborNodes (self : RRTStar Pose K) (xNew : Pose) : List NodeId :=
  let radiusNeighbor := param.mu
  self.nodes.filter fun node =>
    let pose := (self.heap node).pose
    !decide (radiusNeighbor < param.cspace.distanceLowerBound pose xNew) &&
      decide (param.cspace.distance pose xNew < radiusNeighbor)

def isValidPath (child parent : Pose) : Bool :=
  param.cspace.isValidPathChild2Parent child parent param.collisionCheckResolution

def getBestParentNode (poseNew : Pose) (nodeNearest : NodeId)
    (neighborNodes : List NodeId) : Except Failure NodeId := do
  let costNearest ← value (self.heap nodeNearest).costFromStart
  let best ← neighborNodes.foldlM (fun (best : NodeId × K) node => do
      let pose := (self.heap node).pose
      let costFromStart ← value (self.heap node).costFromStart
      let costStartToNew := costFromStart + param.cspace.distance pose poseNew
      if costStartToNew < best.2 ∧ isValidPath param poseNew pose then
        return (node, costStartToNew)
      else return best)
    (nodeNearest, costNearest + param.cspace.distance (self.heap nodeNearest).pose poseNew)
  return best.1

def addNewNode (pose : Pose) (nodeParent : NodeId) :
    Except Failure (RRTStar Pose K) := do
  let parent := self.heap nodeParent
  let costToParent := param.cspace.distance pose parent.pose
  let costFromStart := (← value parent.costFromStart) + costToParent
  let nodeNew := self.created
  let self := self.setNode nodeNew
    ⟨pose, some costFromStart, none, some costToParent, some nodeParent, []⟩
  let self := { self with created := self.created + 1, nodes := self.nodes ++ [nodeNew] }
  return self.setNode nodeParent
    { self.heap nodeParent with childs := (self.heap nodeParent).childs ++ [nodeNew] }

def getReconnectTargeNode (nodeNew : NodeId)
    (neighborNodes : List NodeId) : Except Failure (Option NodeId) :=
  neighborNodes.foldlM (fun reconnect neighbor => do
    let poseNew := (self.heap nodeNew).pose
    let pose := (self.heap neighbor).pose
    if isValidPath param pose poseNew then
      let costNew ← value (self.heap nodeNew).costFromStart
      let costFromStartRewired := costNew + param.cspace.distance poseNew pose
      let costNeighbor ← value (self.heap neighbor).costFromStart
      if costFromStartRewired < costNeighbor then return some neighbor else return reconnect
    else return reconnect) none

/-- The loop over the children of a node that refreshes their costs. -/
def updateChilds (heap : NodeId → Node Pose K) (node : NodeId) :
    Except Failure (NodeId → Node Pose K) :=
  (heap node).childs.foldlM (fun heap child => do
    let costFromStart ← value (heap node).costFromStart
    let costToParent ← value (heap child).costToParent
    return Function.update heap child
      { heap child with costFromStart := some (costFromStart + costToParent) }) heap

/-- The loop over the descendants in `reconnect`. -/
def updateDescendants : ℕ → (NodeId → Node Pose K) → List NodeId →
    Except Failure (NodeId → Node Pose K)
  | _, heap, [] => return heap
  | 0, _, _ :: _ => throw .diverges
  | iterations + 1, heap, node :: bfQueue => do
    let updated ← updateChilds heap node
    updateDescendants iterations updated (bfQueue ++ (heap node).childs)

def reconnect (nodeNew nodeReconnect : NodeId) :
    Except Failure (RRTStar Pose K) := do
  let nodeReconnectParent ← self.getParent nodeReconnect
  let self ← self.deleteChild nodeReconnectParent nodeReconnect
  let costA2B := param.cspace.distance (self.heap nodeNew).pose (self.heap nodeReconnect).pose
  let self := self.setNode nodeNew
    { self.heap nodeNew with childs := (self.heap nodeNew).childs ++ [nodeReconnect] }
  let costNew ← value (self.heap nodeNew).costFromStart
  let self := self.setNode nodeReconnect
    { self.heap nodeReconnect with
      parent := some nodeNew
      costToParent := some costA2B
      costFromStart := some (costNew + costA2B) }
  let heap ← updateDescendants self.nodes.length self.heap [nodeReconnect]
  return { self with heap := heap }

def findBestReachedNode : Except Failure (Option K × Option NodeId) :=
  self.reachedNodes.foldlM (fun best node => do
    let cost := (← value (self.heap node).costFromStart) + (← value (self.heap node).costToGoal)
    if below best.1 cost then return (some cost, some node) else return best) (none, none)

/-- The end of an extension, once a solution is found. -/
def updateGoal : Except Failure (RRTStar Pose K) := do
  let (costMin, nodeBestParent) ← self.findBestReachedNode
  match nodeBestParent with
  | some nodeBestParent =>
    return { self with
      nodeGoal := { self.nodeGoal with
        costFromStart := costMin
        parent := some nodeBestParent
        costToParent := (self.heap nodeBestParent).costToGoal } }
  | none => throw .nullPointer

/-- The check of `extend` whether the goal is reached from the new node. -/
def checkReached (nodeNew : NodeId) : RRTStar Pose K :=
  let new := self.heap nodeNew
  if isValidPath param self.nodeGoal.pose new.pose then
    let self := self.setNode nodeNew
      { new with costToGoal := some (param.cspace.distance new.pose self.nodeGoal.pose) }
    { self with reachedNodes := self.reachedNodes ++ [nodeNew] }
  else self

/-- The part of `extend` that rewires one neighbor below the new node. -/
def rewire (nodeNew : NodeId) (neighborNodes : List NodeId) :
    Except Failure (RRTStar Pose K) := do
  match ← self.getReconnectTargeNode param nodeNew neighborNodes with
  | some nodeReconnect => self.reconnect param nodeNew nodeReconnect
  | none => return self

def extend (xRand : Pose) : Except Failure (RRTStar Pose K) := do
  match self.findNearestNode param xRand with
  | none => throw .nullPointer
  | some nodeNearest =>
    let xNew := param.cspace.interpolateChild2Parent (self.heap nodeNearest).pose xRand param.mu
    if isValidPath param xNew (self.heap nodeNearest).pose then
      let neighborNodes := self.findNeighborNodes param xNew
      let nodeBestParent ← self.getBestParentNode param xNew nodeNearest neighborNodes
      let nodeNew := self.created
      let self ← self.addNewNode param xNew nodeBestParent
      let self ← self.rewire param nodeNew neighborNodes
      let self := self.checkReached param nodeNew
      if self.isSolutionFound then self.updateGoal else return self
    else return self

/-! ## Pruning -/

/-- `node_index_map`: the last index of a node in `nodes_`, and zero for others. -/
def nodeIndexMap (nodes : List NodeId) : NodeId → ℕ :=
  nodes.zipIdx.foldl (fun map entry => Function.update map entry.1 entry.2) fun _ => 0

/-- The loop that collects the indices of a node and its descendants. -/
def deleteChilds (index : NodeId → ℕ) (heap : NodeId → Node Pose K) :
    ℕ → Finset ℕ → List NodeId → Except Failure (Finset ℕ)
  | _, deleteIndices, [] => return deleteIndices
  | 0, _, _ :: _ => throw .diverges
  | iterations + 1, deleteIndices, nodeHere :: nodeStack =>
    let deleteIndices := insert (index nodeHere) deleteIndices
    let pushed := (heap nodeHere).childs.filter fun child => index child ∉ deleteIndices
    deleteChilds index heap iterations deleteIndices (pushed.reverse ++ nodeStack)

/-- `cost > bound`, where an empty optional is less than any value. -/
def exceeds (cost : K) (bound : Option K) : Bool :=
  match bound with
  | some bound => decide (bound < cost)
  | none => true

/-- One iteration of the loop over `nodes_`. -/
def pruneNode (index : NodeId → ℕ) (state : RRTStar Pose K × Finset ℕ) (node : NodeId) :
    Except Failure (RRTStar Pose K × Finset ℕ) := do
  let (self, deleteIndices) := state
  if index node ∈ deleteIndices then return (self, deleteIndices)
  else
    let hereCostToGoalLbound :=
      param.cspace.distance (self.heap node).pose self.nodeGoal.pose
    let hereOptimalCostLbound := hereCostToGoalLbound + (← value (self.heap node).costFromStart)
    if exceeds hereOptimalCostLbound self.nodeGoal.costFromStart then
      let deleteIndices := insert (index node) deleteIndices
      let nodeParent ← self.getParent node
      let self ← self.deleteChild nodeParent node
      let deleteIndices ←
        deleteChilds index self.heap self.nodes.length deleteIndices [node]
      return (self, deleteIndices)
    else return (self, deleteIndices)

def eraseIndices (nodes : List NodeId) (deleteIndices : Finset ℕ) : List NodeId :=
  (deleteIndices.sort (· ≥ ·)).foldl List.eraseIdx nodes

def deleteNodeUsingBranchAndBound (self : RRTStar Pose K) :
    Except Failure (RRTStar Pose K) := do
  if self.isSolutionFound then
    let index := nodeIndexMap self.nodes
    let (pruned, deleteIndices) ← self.nodes.foldlM (pruneNode param index) (self, ∅)
    return { pruned with nodes := eraseIndices pruned.nodes deleteIndices }
  else return self

inductive Operation (Pose : Type) where
  | extend (xRand : Pose)
  | deleteNodeUsingBranchAndBound

def perform (self : RRTStar Pose K) : Operation Pose → Except Failure (RRTStar Pose K)
  | .extend xRand => self.extend param xRand
  | .deleteNodeUsingBranchAndBound => self.deleteNodeUsingBranchAndBound param

def performAll (self : RRTStar Pose K) (operations : List (Operation Pose)) :
    Except Failure (RRTStar Pose K) :=
  operations.foldlM (perform param) self

end RRTStar

end AutowareUniverse.Planning

namespace AutowareUniverse.Planning.RRTStar

open Library.Fallible Library.RootedTree Relation

section

variable {Pose K : Type}

theorem value_of {optional : Option K} {content : K} (hsome : optional = some content) :
    value optional = .ok content := by
  rw [hsome]
  rfl

variable {self : RRTStar Pose K}

theorem getParent_of {node parent : NodeId}
    (hparent : (self.heap node).parent = some parent) (hmem : parent ∈ self.nodes) :
    self.getParent node = .ok parent := by
  unfold getParent
  rw [hparent]
  exact if_pos hmem

theorem deleteChild_of {node child : NodeId} (hchild : child ∈ (self.heap node).childs) :
    self.deleteChild node child = .ok (self.setNode node
      { self.heap node with childs := (self.heap node).childs.erase child }) :=
  if_pos hchild

def parentOf (heap : NodeId → Node Pose K) (node : NodeId) : Option NodeId :=
  (heap node).parent

def childsOf (heap : NodeId → Node Pose K) (node : NodeId) : List NodeId :=
  (heap node).childs

/-- The pointer to the parent of one node, with the cost and the check of the path. -/
structure IsEdge (param : Param Pose K) (heap : NodeId → Node Pose K) (vertex above : NodeId) :
    Prop where
  parent : (heap vertex).parent = some above
  costToParent : (heap vertex).costToParent =
    some (param.cspace.distance (heap vertex).pose (heap above).pose)
  valid : isValidPath param (heap vertex).pose (heap above).pose = true

/-- The pointers between the nodes are those of a tree. -/
structure Shape (param : Param Pose K) (heap : NodeId → Node Pose K) (start : NodeId)
    (nodes : List NodeId) : Prop where
  nodup : nodes.Nodup
  start_mem : start ∈ nodes
  root : (heap start).parent = none
  edge : ∀ v ∈ nodes, v ≠ start → ∃ p ∈ nodes, IsEdge param heap v p
  nodup_childs : ∀ p ∈ nodes, (heap p).childs.Nodup
  mem_childs : ∀ p ∈ nodes, ∀ c, c ∈ (heap p).childs ↔ c ∈ nodes ∧ (heap c).parent = some p
  reaches : ∀ v ∈ nodes, Reaches (parentOf heap) v start

def costOf [Zero K] (heap : NodeId → Node Pose K) (node : NodeId) : K :=
  (heap node).costFromStart.getD 0

structure Costs [Zero K] [Add K] (param : Param Pose K) (heap : NodeId → Node Pose K)
    (start : NodeId) (nodes : List NodeId) : Prop where
  root : (heap start).costFromStart = some 0
  hasCost : ∀ v ∈ nodes, (heap v).costFromStart = some (costOf heap v)
  edge : ∀ v ∈ nodes, ∀ p, (heap v).parent = some p →
    costOf heap v = costOf heap p + param.cspace.distance (heap v).pose (heap p).pose

/-- The axioms of a metric that the planner relies on. -/
structure IsMetric [AddCommGroup K] [LinearOrder K] (distance : Pose → Pose → K) : Prop where
  nonneg : ∀ x y, 0 ≤ distance x y
  symm : ∀ x y, distance x y = distance y x
  triangle : ∀ x y z, distance x z ≤ distance x y + distance y z

namespace Shape

variable {param : Param Pose K} {heap : NodeId → Node Pose K} {start : NodeId}
  {nodes : List NodeId}

section

variable (hshape : Shape param heap start nodes)

include hshape

theorem ne_start {v p : NodeId} (hparent : (heap v).parent = some p) : v ≠ start := by
  rintro rfl
  rw [hshape.root] at hparent
  cases hparent

theorem parent_mem {v p : NodeId} (hv : v ∈ nodes)
    (hparent : (heap v).parent = some p) : p ∈ nodes ∧ IsEdge param heap v p := by
  obtain ⟨q, hq, hedge⟩ := hshape.edge v hv (hshape.ne_start hparent)
  rw [hedge.parent] at hparent
  cases hparent
  exact ⟨hq, hedge⟩

theorem reached_mem {v above : NodeId} (hv : v ∈ nodes)
    (hreaches : Reaches (parentOf heap) v above) : above ∈ nodes := by
  induction hreaches with
  | refl => exact hv
  | tail _ hparent ih => exact (hshape.parent_mem ih hparent).1

theorem not_cycle {v : NodeId} (hv : v ∈ nodes) :
    ¬TransGen (IsParent (parentOf heap)) v v :=
  Reaches.not_cycle hshape.root (hshape.reaches v hv)

theorem count_childs {v p : NodeId} (hv : v ∈ nodes)
    (hparent : (heap v).parent = some p) : (heap p).childs.count v = 1 := by
  have hp := (hshape.parent_mem hv hparent).1
  exact List.count_eq_one_of_mem (hshape.nodup_childs p hp)
    ((hshape.mem_childs p hp v).mpr ⟨hv, hparent⟩)

end

variable {heap' : NodeId → Node Pose K}

/-- The shape does not depend on the costs of the nodes. -/
theorem congr (hshape : Shape param heap start nodes)
    (hsame : ∀ v, heap' v = { heap v with
      costFromStart := (heap' v).costFromStart, costToGoal := (heap' v).costToGoal }) :
    Shape param heap' start nodes where
  nodup := hshape.nodup
  start_mem := hshape.start_mem
  root := by
    rw [hsame start]
    exact hshape.root
  edge := by
    intro v hv hstart
    obtain ⟨p, hp, hedge⟩ := hshape.edge v hv hstart
    refine ⟨p, hp, ?_, ?_, ?_⟩
    · rw [hsame v]
      exact hedge.parent
    · rw [hsame v, hsame p]
      exact hedge.costToParent
    · rw [hsame v, hsame p]
      exact hedge.valid
  nodup_childs := by
    intro p hp
    rw [hsame p]
    exact hshape.nodup_childs p hp
  mem_childs := by
    intro p hp c
    rw [hsame p, hsame c]
    exact hshape.mem_childs p hp c
  reaches := by
    have hparents : parentOf heap' = parentOf heap := by
      funext v
      unfold parentOf
      rw [hsame v]
    rw [hparents]
    exact hshape.reaches

end Shape

section

variable [AddCommGroup K] [LinearOrder K] [IsOrderedAddMonoid K] {param : Param Pose K}
  {heap : NodeId → Node Pose K} {start : NodeId} {nodes : List NodeId}

/-- No path to a pose is cheaper over a node below another one. -/
theorem Costs.lowerBound (hcosts : Costs param heap start nodes)
    (hshape : Shape param heap start nodes) (hmetric : IsMetric param.cspace.distance) (goal : Pose)
    {v above : NodeId} (hv : v ∈ nodes) (hreaches : Reaches (parentOf heap) v above) :
    param.cspace.distance (heap above).pose goal + costOf heap above ≤
      param.cspace.distance (heap v).pose goal + costOf heap v := by
  induction hreaches using ReflTransGen.head_induction_on with
  | refl => exact le_rfl
  | @head v p hparent _ ih =>
    have hp := (hshape.parent_mem hv hparent).1
    refine (ih hp).trans ?_
    rw [hcosts.edge v hv p hparent]
    have htriangle := hmetric.triangle (heap p).pose (heap v).pose goal
    rw [hmetric.symm (heap p).pose (heap v).pose] at htriangle
    calc param.cspace.distance (heap p).pose goal + costOf heap p
        ≤ param.cspace.distance (heap v).pose (heap p).pose +
            param.cspace.distance (heap v).pose goal + costOf heap p := by
          exact add_le_add_left htriangle _
      _ = param.cspace.distance (heap v).pose goal + (costOf heap p +
            param.cspace.distance (heap v).pose (heap p).pose) := by abel

theorem Costs.le_of_reaches (hcosts : Costs param heap start nodes)
    (hshape : Shape param heap start nodes) (hmetric : IsMetric param.cspace.distance)
    {v above : NodeId} (hv : v ∈ nodes) (hreaches : Reaches (parentOf heap) v above) :
    costOf heap above ≤ costOf heap v := by
  induction hreaches using ReflTransGen.head_induction_on with
  | refl => exact le_rfl
  | @head v p hparent _ ih =>
    refine (ih (hshape.parent_mem hv hparent).1).trans ?_
    rw [hcosts.edge v hv p hparent]
    exact le_add_of_nonneg_right (hmetric.nonneg _ _)

end

/-! ## A new node -/

variable {param : Param Pose K} {heap heap' : NodeId → Node Pose K} {start : NodeId}
  {nodes : List NodeId} {nodeNew nodeParent : NodeId} {pose : Pose}

structure Added [Zero K] [Add K] (param : Param Pose K) (heap heap' : NodeId → Node Pose K)
    (nodeNew nodeParent : NodeId) (pose : Pose) : Prop where
  atNew : heap' nodeNew = ⟨pose, some (costOf heap nodeParent +
    param.cspace.distance pose (heap nodeParent).pose), none,
    some (param.cspace.distance pose (heap nodeParent).pose), some nodeParent, []⟩
  atParent : heap' nodeParent =
    { heap nodeParent with childs := (heap nodeParent).childs ++ [nodeNew] }
  elsewhere : ∀ v, v ≠ nodeNew → v ≠ nodeParent → heap' v = heap v

namespace Added

/-- Every other node keeps all but its children. -/
theorem old [Zero K] [Add K] (hadded : Added param heap heap' nodeNew nodeParent pose)
    {v : NodeId} (hv : v ≠ nodeNew) :
    heap' v = { heap v with childs := (heap' v).childs } := by
  by_cases hparent : v = nodeParent
  · rw [hparent, hadded.atParent]
  · rw [hadded.elsewhere v hv hparent]

theorem costOf_old [Zero K] [Add K] (hadded : Added param heap heap' nodeNew nodeParent pose)
    {v : NodeId} (hv : v ≠ nodeNew) : costOf heap' v = costOf heap v := by
  unfold costOf
  rw [hadded.old hv]

variable [Zero K] [Add K] (hadded : Added param heap heap' nodeNew nodeParent pose)

include hadded

theorem mem_childs {p c : NodeId} (hp : p ≠ nodeNew) :
    c ∈ (heap' p).childs ↔ c ∈ (heap p).childs ∨ p = nodeParent ∧ c = nodeNew := by
  by_cases hparent : p = nodeParent
  · rw [hparent, hadded.atParent, List.mem_append, List.mem_singleton]
    simp only [true_and]
  · rw [hadded.elsewhere p hp hparent]
    simp only [hparent, false_and, or_false]

theorem shape (hshape : Shape param heap start nodes) (hparent : nodeParent ∈ nodes)
    (hnew : nodeNew ∉ nodes) (hvalid : isValidPath param pose (heap nodeParent).pose = true) :
    Shape param heap' start (nodes ++ [nodeNew]) := by
  have hne : ∀ {v}, v ∈ nodes → v ≠ nodeNew := fun hv heq => hnew (heq ▸ hv)
  have hmem : ∀ {v}, v ∈ nodes ++ [nodeNew] ↔ v ∈ nodes ∨ v = nodeNew := by
    intro v
    rw [List.mem_append, List.mem_singleton]
  have hparents : ∀ {v}, v ∈ nodes → (heap' v).parent = (heap v).parent := by
    intro v hv
    rw [hadded.old (hne hv)]
  have hframe : ∀ v, v ≠ nodeNew → parentOf heap' v = parentOf heap v := by
    intro v hv
    unfold parentOf
    rw [hadded.old hv]
  have hreaches : ∀ v ∈ nodes, Reaches (parentOf heap') v start := by
    intro v hv
    apply (hshape.reaches v hv).of_not_reaches hframe
    exact fun hbelow => hnew (hshape.reached_mem hv hbelow)
  have hedges : ∀ v ∈ nodes, ∀ p, IsEdge param heap v p → p ∈ nodes → IsEdge param heap' v p := by
    intro v hv p hedge hp
    refine ⟨?_, ?_, ?_⟩
    · rw [hparents hv]
      exact hedge.parent
    · rw [hadded.old (hne hv), hadded.old (hne hp)]
      exact hedge.costToParent
    · rw [hadded.old (hne hv), hadded.old (hne hp)]
      exact hedge.valid
  have hnewEdge : IsEdge param heap' nodeNew nodeParent := by
    refine ⟨?_, ?_, ?_⟩
    · rw [hadded.atNew]
    · rw [hadded.atNew, hadded.atParent]
    · rw [hadded.atNew, hadded.atParent]
      exact hvalid
  refine ⟨?_, ?_, ?_, ?_, ?_, ?_, ?_⟩
  · exact hshape.nodup.append (List.nodup_singleton nodeNew) (List.disjoint_singleton.mpr hnew)
  · exact hmem.mpr (.inl hshape.start_mem)
  · rw [hparents hshape.start_mem]
    exact hshape.root
  · intro v hv hstart
    rcases hmem.mp hv with hold | rfl
    · obtain ⟨p, hp, hedge⟩ := hshape.edge v hold hstart
      exact ⟨p, hmem.mpr (.inl hp), hedges v hold p hedge hp⟩
    · exact ⟨nodeParent, hmem.mpr (.inl hparent), hnewEdge⟩
  · intro p hp
    rcases hmem.mp hp with hold | rfl
    · by_cases hp' : p = nodeParent
      · rw [hp', hadded.atParent]
        refine (hshape.nodup_childs nodeParent hparent).append (List.nodup_singleton _) ?_
        rw [List.disjoint_singleton]
        intro hchild
        exact hnew ((hshape.mem_childs nodeParent hparent nodeNew).mp hchild).1
      · rw [hadded.elsewhere p (hne hold) hp']
        exact hshape.nodup_childs p hold
    · rw [hadded.atNew]
      exact List.nodup_nil
  · intro p hp c
    rcases hmem.mp hp with hold | rfl
    · rw [hadded.mem_childs (hne hold), hshape.mem_childs p hold, hmem]
      by_cases hc : c = nodeNew
      · rw [hc, hnewEdge.parent]
        constructor
        · rintro (⟨habsent, _⟩ | ⟨rfl, _⟩)
          · exact (hnew habsent).elim
          · exact ⟨.inr rfl, rfl⟩
        · rintro ⟨_, hsame⟩
          exact .inr ⟨(Option.some.inj hsame).symm, rfl⟩
      · rw [hadded.old hc]
        simp only [hc, and_false, or_false]
    · rw [hadded.atNew]
      constructor
      · intro habsent
        cases habsent
      · rintro ⟨hc, hbelow⟩
        rcases hmem.mp hc with hold | rfl
        · rw [hparents hold] at hbelow
          exact (hnew (hshape.parent_mem hold hbelow).1).elim
        · rw [hnewEdge.parent] at hbelow
          cases hbelow
          exact (hnew hparent).elim
  · intro v hv
    rcases hmem.mp hv with hold | rfl
    · exact hreaches v hold
    · exact Reaches.head hnewEdge.parent (hreaches nodeParent hparent)

theorem costs (hshape : Shape param heap start nodes) (hcosts : Costs param heap start nodes)
    (hparent : nodeParent ∈ nodes) (hnew : nodeNew ∉ nodes) :
    Costs param heap' start (nodes ++ [nodeNew]) := by
  have hne : ∀ {v}, v ∈ nodes → v ≠ nodeNew := fun hv heq => hnew (heq ▸ hv)
  refine ⟨?_, ?_, ?_⟩
  · rw [hadded.old (hne hshape.start_mem)]
    exact hcosts.root
  · intro v hv
    rcases List.mem_append.mp hv with hold | hnew'
    · rw [hadded.costOf_old (hne hold), hadded.old (hne hold)]
      exact hcosts.hasCost v hold
    · rw [List.mem_singleton.mp hnew']
      unfold costOf
      rw [hadded.atNew]
      rfl
  · intro v hv p hp
    rcases List.mem_append.mp hv with hold | hnew'
    · rw [hadded.old (hne hold)] at hp
      have hmem := (hshape.parent_mem hold hp).1
      rw [hadded.costOf_old (hne hold), hadded.costOf_old (hne hmem), hadded.old (hne hold),
        hadded.old (hne hmem)]
      exact hcosts.edge v hold p hp
    · rw [List.mem_singleton.mp hnew'] at hp ⊢
      rw [hadded.atNew] at hp
      cases hp
      rw [hadded.costOf_old (hne hparent), hadded.old (hne hparent)]
      unfold costOf
      rw [hadded.atNew]
      rfl

end Added

theorem addNewNode_succeeds [Zero K] [Add K] [LinearOrder K]
    (hcost : (self.heap nodeParent).costFromStart = some (costOf self.heap nodeParent))
    (hparent : nodeParent ≠ self.created) :
    Succeeds (self.addNewNode param pose nodeParent) fun added =>
      Added param self.heap added.heap self.created nodeParent pose ∧
        added = { self with
          heap := added.heap
          created := self.created + 1
          nodes := self.nodes ++ [self.created] } := by
  unfold addNewNode
  refine .bind_eq (value_of hcost) (.ok ⟨⟨?_, ?_, ?_⟩, rfl⟩)
  · simp [setNode, hparent, hparent.symm]
  · simp [setNode, hparent]
  · intro v hv hv'
    simp [setNode, Function.update_apply, hv, hv']

end

/-!
## Rewiring the tree of the RRT* planner

A node is taken from its parent and becomes a child of another node, with the cost
of the path over it.  The costs of its descendants are then refreshed by a queue:
an edge whose cost is not consistent starts at a node of the queue.
-/

variable {Pose K : Type} {param : Param Pose K}

/-! ## Refreshing the costs -/

def SameTree (heap heap' : NodeId → Node Pose K) : Prop :=
  ∀ v, heap' v = { heap v with costFromStart := (heap' v).costFromStart }

namespace SameTree

variable {heap heap' heap'' : NodeId → Node Pose K}

theorem refl (heap : NodeId → Node Pose K) : SameTree heap heap := fun _ => rfl

theorem trans (hfirst : SameTree heap heap') (hsecond : SameTree heap' heap'') :
    SameTree heap heap'' := by
  intro v
  rw [hsecond v, hfirst v]

variable (hsame : SameTree heap heap')

include hsame

theorem parentOf_eq : parentOf heap' = parentOf heap := by
  funext v
  unfold parentOf
  rw [hsame v]

theorem childsOf_eq : childsOf heap' = childsOf heap := by
  funext v
  unfold childsOf
  rw [hsame v]

theorem isEdge {v p : NodeId} (hedge : IsEdge param heap v p) :
    IsEdge param heap' v p := by
  refine ⟨?_, ?_, ?_⟩
  · rw [hsame v]
    exact hedge.parent
  · rw [hsame v, hsame p]
    exact hedge.costToParent
  · rw [hsame v, hsame p]
    exact hedge.valid

theorem shape {start : NodeId} {nodes : List NodeId}
    (hshape : Shape param heap start nodes) : Shape param heap' start nodes := by
  apply hshape.congr
  intro v
  rw [hsame v]

end SameTree

section

variable [Zero K] [Add K]

def refreshed (heap : NodeId → Node Pose K) (node : NodeId) (childs : List NodeId) :
    NodeId → Node Pose K :=
  fun v =>
    if v ∈ childs then
      { heap v with costFromStart := some (costOf heap node + (heap v).costToParent.getD 0) }
    else heap v

variable {heap : NodeId → Node Pose K} {node : NodeId} {childs : List NodeId} {v : NodeId}

theorem refreshed_of_mem (hv : v ∈ childs) : refreshed heap node childs v =
      { heap v with costFromStart := some (costOf heap node + (heap v).costToParent.getD 0) } :=
  if_pos hv

theorem refreshed_of_not_mem (hv : v ∉ childs) : refreshed heap node childs v = heap v :=
  if_neg hv

theorem sameTree_refreshed : SameTree heap (refreshed heap node childs) := by
  intro v
  by_cases hv : v ∈ childs
  · rw [refreshed_of_mem hv]
  · rw [refreshed_of_not_mem hv]

theorem costOf_refreshed (hv : v ∈ childs) :
    costOf (refreshed heap node childs) v = costOf heap node + (heap v).costToParent.getD 0 := by
  unfold costOf
  rw [refreshed_of_mem hv]
  rfl

theorem costOf_refreshed_of_not_mem (hv : v ∉ childs) :
    costOf (refreshed heap node childs) v = costOf heap v := by
  unfold costOf
  rw [refreshed_of_not_mem hv]

theorem foldlM_updateChilds (hcost : (heap node).costFromStart = some (costOf heap node))
    (later earlier : List NodeId) (hloop : node ∉ earlier ++ later)
    (hvalue : ∀ c ∈ later, (heap c).costToParent = some ((heap c).costToParent.getD 0)) :
    later.foldlM (fun heap child => do
      let costFromStart ← value (heap node).costFromStart
      let costToParent ← value (heap child).costToParent
      return Function.update heap child
        { heap child with costFromStart := some (costFromStart + costToParent) })
      (refreshed heap node earlier) = .ok (refreshed heap node (earlier ++ later)) := by
  induction later generalizing earlier with
  | nil =>
    rw [List.append_nil]
    rfl
  | cons child later ih =>
    have hnode : refreshed heap node earlier node = heap node :=
      refreshed_of_not_mem fun hmem => hloop (List.mem_append_left _ hmem)
    have hchild : (refreshed heap node earlier child).costToParent =
        some ((heap child).costToParent.getD 0) := by
      rw [sameTree_refreshed child]
      exact hvalue child List.mem_cons_self
    have hupdate : Function.update (refreshed heap node earlier) child
        { refreshed heap node earlier child with
          costFromStart := some (costOf heap node + (heap child).costToParent.getD 0) } =
        refreshed heap node (earlier ++ [child]) := by
      funext v
      by_cases hv : v = child
      · rw [hv, Function.update_self,
          refreshed_of_mem (show child ∈ earlier ++ [child] by simp)]
        by_cases hmem : child ∈ earlier
        · rw [refreshed_of_mem hmem]
        · rw [refreshed_of_not_mem hmem]
      · rw [Function.update_of_ne hv]
        unfold refreshed
        simp [hv]
    rw [List.append_cons, List.foldlM_cons]
    refine bind_eq_ok.mpr ⟨refreshed heap node (earlier ++ [child]), ?_, ?_⟩
    · exact bind_eq_ok.mpr ⟨_, value_of (hnode ▸ hcost),
        bind_eq_ok.mpr ⟨_, value_of hchild, congrArg Except.ok hupdate⟩⟩
    · apply ih
      · rwa [← List.append_cons]
      · exact fun c hc => hvalue c (List.mem_cons_of_mem _ hc)

theorem updateChilds_eq (hcost : (heap node).costFromStart = some (costOf heap node))
    (hloop : node ∉ (heap node).childs) (hvalue : ∀ c ∈ (heap node).childs,
      (heap c).costToParent = some ((heap c).costToParent.getD 0)) :
    updateChilds heap node = .ok (refreshed heap node (heap node).childs) := by
  have hfold := foldlM_updateChilds hcost (heap node).childs [] hloop hvalue
  have hstart : refreshed heap node [] = heap := funext fun v => refreshed_of_not_mem (by simp)
  rw [hstart] at hfold
  exact hfold

end

/-! ## The queue of descendants -/

section

variable [Zero K] [Add K] {start top : NodeId} {nodes : List NodeId}

/-- The state of the loop over the descendants: the costs are consistent along every
edge that does not start at a node of the queue. -/
structure Refreshing (param : Param Pose K) (heap : NodeId → Node Pose K)
    (start : NodeId) (nodes : List NodeId) (top : NodeId) (visited bfQueue : List NodeId) :
    Prop where
  shape : Shape param heap start nodes
  top_mem : top ∈ nodes
  frontier : Frontier (parentOf heap) (childsOf heap) (· ∈ nodes) top visited bfQueue
  root : (heap start).costFromStart = some 0
  hasCost : ∀ v ∈ nodes, (heap v).costFromStart = some (costOf heap v)
  edge : ∀ v ∈ nodes, ∀ p, (heap v).parent = some p → p ∈ bfQueue ∨
    costOf heap v = costOf heap p + param.cspace.distance (heap v).pose (heap p).pose

namespace Refreshing

variable {heap : NodeId → Node Pose K} {visited bfQueue : List NodeId} {node : NodeId}

section

variable (hrefreshing : Refreshing param heap start nodes top visited (node :: bfQueue))

include hrefreshing

theorem node_mem :
    node ∈ nodes :=
  hrefreshing.frontier.property node (List.mem_append_right _ List.mem_cons_self)

theorem not_mem_childs :
    node ∉ (heap node).childs := by
  intro hloop
  have hnode := hrefreshing.node_mem
  have hparent := ((hrefreshing.shape.mem_childs node hnode node).mp hloop).2
  exact hrefreshing.shape.not_cycle hnode (.single hparent)

theorem costToParent {c : NodeId} (hc : c ∈ (heap node).childs) :
    (heap c).costToParent =
      some (param.cspace.distance (heap c).pose (heap node).pose) := by
  obtain ⟨hmem, hparent⟩ := (hrefreshing.shape.mem_childs node hrefreshing.node_mem c).mp hc
  exact (hrefreshing.shape.parent_mem hmem hparent).2.costToParent

theorem updateChilds_eq :
    updateChilds heap node = .ok (refreshed heap node (heap node).childs) := by
  apply RRTStar.updateChilds_eq (hrefreshing.hasCost node hrefreshing.node_mem)
    hrefreshing.not_mem_childs
  intro c hc
  rw [hrefreshing.costToParent hc]
  rfl

/-- The children of the first node of the queue are refreshed and join the queue. -/
theorem step :
    Refreshing param (refreshed heap node (heap node).childs) start nodes top (node :: visited)
      (bfQueue ++ (heap node).childs) := by
  have hsame : SameTree heap (refreshed heap node (heap node).childs) := sameTree_refreshed
  have hnode := hrefreshing.node_mem
  have hshape := hrefreshing.shape
  have hchilds := hshape.mem_childs node hnode
  have hcostNode : costOf (refreshed heap node (heap node).childs) node = costOf heap node :=
    costOf_refreshed_of_not_mem hrefreshing.not_mem_childs
  refine ⟨hsame.shape hshape, hrefreshing.top_mem, ?_, ?_, ?_, ?_⟩
  · rw [hsame.parentOf_eq, hsame.childsOf_eq]
    exact hrefreshing.frontier.step (fun c hc => ((hchilds c).mp hc).2)
      (hshape.nodup_childs node hnode) (fun c hc => ((hchilds c).mp hc).1)
      (hshape.not_cycle hrefreshing.top_mem) (.refl _)
  · rw [refreshed_of_not_mem]
    · exact hrefreshing.root
    · intro hstart
      exact hshape.ne_start ((hchilds start).mp hstart).2 rfl
  · intro v hv
    by_cases hchild : v ∈ (heap node).childs
    · rw [costOf_refreshed hchild, refreshed_of_mem hchild]
    · rw [costOf_refreshed_of_not_mem hchild, refreshed_of_not_mem hchild]
      exact hrefreshing.hasCost v hv
  · intro v hv p hp
    rw [hsame v] at hp
    by_cases hchild : v ∈ (heap node).childs
    · have hpnode : p = node :=
        Option.some.inj (hp.symm.trans ((hchilds v).mp hchild).2)
      right
      rw [hpnode, hcostNode, costOf_refreshed hchild, hrefreshing.costToParent hchild, hsame v,
        hsame node]
      rfl
    · by_cases hparent : p ∈ (heap node).childs
      · exact .inl (List.mem_append_right _ hparent)
      · rcases hrefreshing.edge v hv p hp with hqueue | hconsistent
        · rcases List.mem_cons.mp hqueue with rfl | hrest
          · exact (hchild ((hchilds v).mpr ⟨hv, hp⟩)).elim
          · exact .inl (List.mem_append_left _ hrest)
        · right
          rw [costOf_refreshed_of_not_mem hchild, costOf_refreshed_of_not_mem hparent, hsame v,
            hsame p]
          exact hconsistent

end

theorem costs (hrefreshing : Refreshing param heap start nodes top visited []) :
    Costs param heap start nodes where
  root := hrefreshing.root
  hasCost := hrefreshing.hasCost
  edge := by
    intro v hv p hp
    rcases hrefreshing.edge v hv p hp with habsent | hconsistent
    · cases habsent
    · exact hconsistent

end Refreshing

theorem updateDescendants_succeeds {heap : NodeId → Node Pose K} {visited bfQueue : List NodeId}
    {iterations : ℕ} (hrefreshing : Refreshing param heap start nodes top visited bfQueue)
    (hiterations : nodes.length ≤ visited.length + iterations) :
    Succeeds (updateDescendants iterations heap bfQueue) fun heap' =>
      SameTree heap heap' ∧ Costs param heap' start nodes ∧ ∀ v, v ∉ nodes → heap' v = heap v := by
  induction iterations generalizing heap visited bfQueue with
  | zero =>
    cases bfQueue with
    | nil => exact .ok ⟨.refl heap, hrefreshing.costs, fun _ _ => rfl⟩
    | cons node bfQueue =>
      have hlength := hrefreshing.frontier.length_le fun _ hv => hv
      rw [List.length_cons] at hlength
      omega
  | succ iterations ih =>
    cases bfQueue with
    | nil => exact .ok ⟨.refl heap, hrefreshing.costs, fun _ _ => rfl⟩
    | cons node bfQueue =>
      refine .bind_eq hrefreshing.updateChilds_eq ?_
      have hrest := ih hrefreshing.step (by rw [List.length_cons]; omega)
      refine hrest.mono ?_
      rintro heap' ⟨hsame, hcosts, hframe⟩
      refine ⟨sameTree_refreshed.trans hsame, hcosts, ?_⟩
      intro v hv
      rw [hframe v hv, refreshed_of_not_mem]
      intro hchild
      exact hv ((hrefreshing.shape.mem_childs node hrefreshing.node_mem v).mp hchild).1

end

/-! ## Moving a node below another one -/

section

variable {heap heap' : NodeId → Node Pose K} {start nodeParent nodeNew nodeReconnect : NodeId}
  {nodes : List NodeId}

/-- The heap after a node was taken from its parent and became a child of another
node, before the costs of its descendants are refreshed. -/
structure Rewired [Zero K] [Add K] (param : Param Pose K) (heap heap' : NodeId → Node Pose K)
    (nodeParent nodeNew nodeReconnect : NodeId) : Prop where
  atReconnect : heap' nodeReconnect =
    { heap nodeReconnect with
      parent := some nodeNew
      costToParent :=
        some (param.cspace.distance (heap nodeNew).pose (heap nodeReconnect).pose)
      costFromStart := some (costOf heap nodeNew +
        param.cspace.distance (heap nodeNew).pose (heap nodeReconnect).pose) }
  atNew : heap' nodeNew =
    { heap nodeNew with childs := (heap nodeNew).childs ++ [nodeReconnect] }
  atParent : heap' nodeParent =
    { heap nodeParent with childs := (heap nodeParent).childs.erase nodeReconnect }
  elsewhere : ∀ v, v ≠ nodeReconnect → v ≠ nodeNew → v ≠ nodeParent → heap' v = heap v

/-- Where the node that is moved is taken from, and where it goes. -/
structure Placed (param : Param Pose K) (heap : NodeId → Node Pose K) (start : NodeId)
    (nodes : List NodeId) (nodeParent nodeNew nodeReconnect : NodeId) : Prop where
  shape : Shape param heap start nodes
  parent_mem : nodeParent ∈ nodes
  new_mem : nodeNew ∈ nodes
  reconnect_mem : nodeReconnect ∈ nodes
  parent : (heap nodeReconnect).parent = some nodeParent
  ne : nodeParent ≠ nodeNew
  apart : ¬Reaches (parentOf heap) nodeNew nodeReconnect

theorem Placed.ne_new (hplaced : Placed param heap start nodes nodeParent nodeNew nodeReconnect) :
    nodeReconnect ≠ nodeNew := by
  rintro rfl
  exact hplaced.apart .refl

theorem Placed.ne_parent (hplaced : Placed param heap start nodes nodeParent nodeNew nodeReconnect) :
    nodeReconnect ≠ nodeParent := by
  rintro rfl
  exact hplaced.shape.not_cycle hplaced.reconnect_mem (.single hplaced.parent)

namespace Rewired

variable [Zero K] [Add K] (hrewired : Rewired param heap heap' nodeParent nodeNew nodeReconnect)

include hrewired

/-- Every other node keeps all but its children. -/
theorem old {v : NodeId}
    (hv : v ≠ nodeReconnect) : heap' v = { heap v with childs := (heap' v).childs } := by
  by_cases hnew : v = nodeNew
  · rw [hnew, hrewired.atNew]
  · by_cases hparent : v = nodeParent
    · rw [hparent, hrewired.atParent]
    · rw [hrewired.elsewhere v hv hnew hparent]

theorem pose_eq (v : NodeId) : (heap' v).pose = (heap v).pose := by
  by_cases hv : v = nodeReconnect
  · rw [hv, hrewired.atReconnect]
  · rw [hrewired.old hv]

theorem costToGoal_eq (v : NodeId) : (heap' v).costToGoal = (heap v).costToGoal := by
  by_cases hv : v = nodeReconnect
  · rw [hv, hrewired.atReconnect]
  · rw [hrewired.old hv]

theorem costOf_old {v : NodeId} (hv : v ≠ nodeReconnect) : costOf heap' v = costOf heap v := by
  unfold costOf
  rw [hrewired.old hv]

theorem costOf_reconnect :
    costOf heap' nodeReconnect = costOf heap nodeNew +
      param.cspace.distance (heap nodeNew).pose (heap nodeReconnect).pose := by
  unfold costOf
  rw [hrewired.atReconnect]
  rfl

theorem mem_childs (hplaced : Placed param heap start nodes nodeParent nodeNew nodeReconnect)
    {p c : NodeId} (hp : p ∈ nodes) :
    c ∈ (heap' p).childs ↔
      c ≠ nodeReconnect ∧ c ∈ (heap p).childs ∨ p = nodeNew ∧ c = nodeReconnect := by
  have habsent : p ≠ nodeParent → nodeReconnect ∉ (heap p).childs := by
    intro hne hchild
    have hparent := ((hplaced.shape.mem_childs p hp nodeReconnect).mp hchild).2
    rw [hplaced.parent] at hparent
    exact hne (Option.some.inj hparent).symm
  have hother : p ≠ nodeParent →
      (c ≠ nodeReconnect ∧ c ∈ (heap p).childs ↔ c ∈ (heap p).childs) := by
    intro hne
    refine and_iff_right_of_imp fun hchild heq => ?_
    rw [heq] at hchild
    exact habsent hne hchild
  by_cases hnew : p = nodeNew
  · rw [hother (hnew ▸ hplaced.ne.symm), hnew, hrewired.atNew, List.mem_append, List.mem_singleton]
    simp only [true_and]
  · by_cases hparent : p = nodeParent
    · rw [hparent, hrewired.atParent,
        (hplaced.shape.nodup_childs nodeParent hplaced.parent_mem).mem_erase_iff]
      simp only [hplaced.ne, false_and, or_false]
    · rw [hother hparent]
      simp only [hnew, false_and, or_false]
      by_cases hreconnect : p = nodeReconnect
      · rw [hreconnect, hrewired.atReconnect]
      · rw [hrewired.elsewhere p hreconnect hnew hparent]

theorem isEdge (hsymm : ∀ x y, param.cspace.distance x y = param.cspace.distance y x)
    (hvalid : isValidPath param (heap nodeReconnect).pose (heap nodeNew).pose = true) :
    IsEdge param heap' nodeReconnect nodeNew := by
  refine ⟨?_, ?_, ?_⟩
  · rw [hrewired.atReconnect]
  · rw [hrewired.pose_eq, hrewired.pose_eq, hsymm, hrewired.atReconnect]
  · rw [hrewired.pose_eq, hrewired.pose_eq]
    exact hvalid

/-- The moved tree is a tree again. -/
theorem shape (hplaced : Placed param heap start nodes nodeParent nodeNew nodeReconnect)
    (hedge : IsEdge param heap' nodeReconnect nodeNew) : Shape param heap' start nodes where
  nodup := hplaced.shape.nodup
  start_mem := hplaced.shape.start_mem
  root := by
    rw [hrewired.old (hplaced.shape.ne_start hplaced.parent).symm]
    exact hplaced.shape.root
  edge := by
    intro v hv hstart
    by_cases hreconnect : v = nodeReconnect
    · rw [hreconnect]
      exact ⟨nodeNew, hplaced.new_mem, hedge⟩
    · obtain ⟨p, hp, hold⟩ := hplaced.shape.edge v hv hstart
      refine ⟨p, hp, ?_, ?_, ?_⟩
      · rw [hrewired.old hreconnect]
        exact hold.parent
      · rw [hrewired.pose_eq p, hrewired.old hreconnect]
        exact hold.costToParent
      · rw [hrewired.pose_eq, hrewired.pose_eq]
        exact hold.valid
  nodup_childs := by
    intro p hp
    have hnodup := hplaced.shape.nodup_childs p hp
    by_cases hnew : p = nodeNew
    · rw [hnew] at hnodup ⊢
      rw [hrewired.atNew]
      refine hnodup.append (List.nodup_singleton _) (List.disjoint_singleton.mpr ?_)
      intro hchild
      have hparent := ((hplaced.shape.mem_childs _ hplaced.new_mem _).mp hchild).2
      rw [hplaced.parent] at hparent
      exact hplaced.ne (Option.some.inj hparent)
    · by_cases hparent : p = nodeParent
      · rw [hparent] at hnodup ⊢
        rw [hrewired.atParent]
        exact hnodup.erase _
      · by_cases hreconnect : p = nodeReconnect
        · rw [hreconnect] at hnodup ⊢
          rw [hrewired.atReconnect]
          exact hnodup
        · rw [hrewired.elsewhere p hreconnect hnew hparent]
          exact hnodup
  mem_childs := by
    intro p hp c
    rw [hrewired.mem_childs hplaced hp, hplaced.shape.mem_childs p hp]
    by_cases hreconnect : c = nodeReconnect
    · rw [hreconnect, hedge.parent]
      simp only [ne_eq, not_true, false_and, and_true, false_or, hplaced.reconnect_mem, true_and,
        Option.some.injEq]
      exact eq_comm
    · rw [hrewired.old hreconnect]
      simp only [ne_eq, hreconnect, not_false_iff, true_and, and_false, or_false]
  reaches := by
    intro v hv
    have hframe : ∀ w, w ≠ nodeReconnect → parentOf heap' w = parentOf heap w := by
      intro w hw
      unfold parentOf
      rw [hrewired.old hw]
    exact Reaches.move hframe hedge.parent (hplaced.shape.reaches nodeNew hplaced.new_mem)
      hplaced.apart (hplaced.shape.reaches v hv)

/-- Only the edges that start at the moved node may have inconsistent costs. -/
theorem refreshing (hplaced : Placed param heap start nodes nodeParent nodeNew nodeReconnect)
    (hcosts : Costs param heap start nodes)
    (hsymm : ∀ x y, param.cspace.distance x y = param.cspace.distance y x)
    (hedge : IsEdge param heap' nodeReconnect nodeNew) :
    Refreshing param heap' start nodes nodeReconnect [] [nodeReconnect] where
  shape := hrewired.shape hplaced hedge
  top_mem := hplaced.reconnect_mem
  frontier := .start hplaced.reconnect_mem
  root := by
    rw [hrewired.old (hplaced.shape.ne_start hplaced.parent).symm]
    exact hcosts.root
  hasCost := by
    intro v hv
    by_cases hreconnect : v = nodeReconnect
    · rw [hreconnect, hrewired.costOf_reconnect, hrewired.atReconnect]
    · rw [hrewired.costOf_old hreconnect, hrewired.old hreconnect]
      exact hcosts.hasCost v hv
  edge := by
    intro v hv p hp
    by_cases hpending : p = nodeReconnect
    · exact .inl (List.mem_singleton.mpr hpending)
    · right
      rw [hrewired.pose_eq, hrewired.pose_eq, hrewired.costOf_old hpending]
      by_cases hreconnect : v = nodeReconnect
      · rw [hreconnect, hedge.parent] at hp
        cases hp
        rw [hreconnect, hrewired.costOf_reconnect, hsymm]
      · rw [hrewired.old hreconnect] at hp
        rw [hrewired.costOf_old hreconnect]
        exact hcosts.edge v hv p hp

end Rewired

theorem move_below [AddCommGroup K] [LinearOrder K] [IsOrderedAddMonoid K]
    (hmetric : IsMetric param.cspace.distance) (hshape : Shape param heap start nodes)
    (hcosts : Costs param heap start nodes) (hnew : nodeNew ∈ nodes)
    (hreconnect : nodeReconnect ∈ nodes) (hlower : costOf heap nodeNew +
      param.cspace.distance (heap nodeNew).pose (heap nodeReconnect).pose <
        costOf heap nodeReconnect) :
    ¬Reaches (parentOf heap) nodeNew nodeReconnect ∧
      (heap nodeReconnect).parent ≠ some nodeNew := by
  constructor
  · intro habove
    have hle := hcosts.le_of_reaches hshape hmetric hnew habove
    have hnonneg := hmetric.nonneg (heap nodeNew).pose (heap nodeReconnect).pose
    exact absurd hlower (not_lt.mpr (hle.trans (le_add_of_nonneg_right hnonneg)))
  · intro hparent
    have hcost := hcosts.edge nodeReconnect hreconnect nodeNew hparent
    rw [hmetric.symm] at hcost
    exact hlower.ne hcost.symm

def deletedHeap (heap : NodeId → Node Pose K) (nodeParent nodeReconnect : NodeId) :
    NodeId → Node Pose K :=
  Function.update heap nodeParent
    { heap nodeParent with childs := (heap nodeParent).childs.erase nodeReconnect }

/-- The heap after the child was added to another node. -/
def movedHeap (heap : NodeId → Node Pose K) (nodeParent nodeNew nodeReconnect : NodeId) :
    NodeId → Node Pose K :=
  let deleted := deletedHeap heap nodeParent nodeReconnect
  Function.update deleted nodeNew
    { deleted nodeNew with childs := (deleted nodeNew).childs ++ [nodeReconnect] }

/-- The heap for which `reconnect` starts to refresh the costs. -/
def rewiredHeap [Zero K] [Add K] (param : Param Pose K) (heap : NodeId → Node Pose K)
    (nodeParent nodeNew nodeReconnect : NodeId) : NodeId → Node Pose K :=
  let deleted := deletedHeap heap nodeParent nodeReconnect
  let moved := movedHeap heap nodeParent nodeNew nodeReconnect
  let costA2B := param.cspace.distance (deleted nodeNew).pose (deleted nodeReconnect).pose
  Function.update moved nodeReconnect
    { moved nodeReconnect with
      parent := some nodeNew
      costToParent := some costA2B
      costFromStart := some (costOf heap nodeNew + costA2B) }

theorem Placed.rewired [Zero K] [Add K]
    (hplaced : Placed param heap start nodes nodeParent nodeNew nodeReconnect) :
    Rewired param heap (rewiredHeap param heap nodeParent nodeNew nodeReconnect) nodeParent nodeNew
      nodeReconnect := by
  have hnew := hplaced.ne_new
  have hparent := hplaced.ne_parent
  have hne := hplaced.ne
  refine ⟨?_, ?_, ?_, ?_⟩
  · simp [rewiredHeap, movedHeap, deletedHeap, hnew, hparent, hne.symm]
  · simp [rewiredHeap, movedHeap, deletedHeap, hnew.symm, hne.symm]
  · simp [rewiredHeap, movedHeap, deletedHeap, hparent.symm, hne]
  · intro v hreconnect hnew' hparent'
    simp [rewiredHeap, movedHeap, deletedHeap, hreconnect, hnew', hparent']

theorem costOf_le_of_move [AddCommGroup K] [LinearOrder K] [IsOrderedAddMonoid K]
    (hshape : Shape param heap' start nodes) (hcosts : Costs param heap start nodes)
    (hcosts' : Costs param heap' start nodes) (hpose : ∀ v, (heap' v).pose = (heap v).pose)
    (hparent : ∀ v, v ≠ nodeReconnect → (heap' v).parent = (heap v).parent)
    (hmoved : (heap' nodeReconnect).parent = some nodeNew) (hlower : costOf heap nodeNew +
      param.cspace.distance (heap nodeNew).pose (heap nodeReconnect).pose <
        costOf heap nodeReconnect)
    (hsymm : ∀ x y, param.cspace.distance x y = param.cspace.distance y x)
    {v : NodeId} (hv : v ∈ nodes) : costOf heap' v ≤ costOf heap v := by
  induction hshape.reaches v hv using ReflTransGen.head_induction_on with
  | refl =>
    unfold costOf
    rw [hcosts.root, hcosts'.root]
  | @head v p hvp _ ih =>
    have hp := (hshape.parent_mem hv hvp).1
    rw [hcosts'.edge v hv p hvp, hpose, hpose]
    by_cases hreconnect : v = nodeReconnect
    · rw [hreconnect] at hvp ⊢
      have hpnew : p = nodeNew := Option.some.inj (hvp.symm.trans hmoved)
      rw [hpnew] at ih hp ⊢
      refine le_trans ?_ hlower.le
      rw [hsymm]
      exact add_le_add_left (ih hp) _
    · rw [hcosts.edge v hv p ((hparent v hreconnect).symm.trans hvp)]
      exact add_le_add_left (ih hp) _

structure Moved [Zero K] [LE K] (before after : RRTStar Pose K) : Prop where
  eq : after = { before with heap := after.heap }
  pose : ∀ v, (after.heap v).pose = (before.heap v).pose
  costToGoal : ∀ v, (after.heap v).costToGoal = (before.heap v).costToGoal
  costOf_le : ∀ v ∈ before.nodes, costOf after.heap v ≤ costOf before.heap v
  elsewhere : ∀ v, v ∉ before.nodes → after.heap v = before.heap v

theorem reconnect_succeeds [AddCommGroup K] [LinearOrder K] [IsOrderedAddMonoid K]
    {self : RRTStar Pose K} (hmetric : IsMetric param.cspace.distance)
    (hshape : Shape param self.heap self.nodeStart self.nodes)
    (hcosts : Costs param self.heap self.nodeStart self.nodes)
    (hnew : nodeNew ∈ self.nodes) (hreconnect : nodeReconnect ∈ self.nodes)
    (hvalid : isValidPath param (self.heap nodeReconnect).pose (self.heap nodeNew).pose = true)
    (hlower : costOf self.heap nodeNew + param.cspace.distance (self.heap nodeNew).pose
      (self.heap nodeReconnect).pose < costOf self.heap nodeReconnect) :
    Succeeds (self.reconnect param nodeNew nodeReconnect) fun after =>
      Moved self after ∧ Shape param after.heap self.nodeStart self.nodes ∧
        Costs param after.heap self.nodeStart self.nodes := by
  obtain ⟨hapart, hnotChild⟩ := move_below hmetric hshape hcosts hnew hreconnect hlower
  have hstart : nodeReconnect ≠ self.nodeStart := by
    rintro rfl
    exact hapart (hshape.reaches nodeNew hnew)
  obtain ⟨nodeParent, hparentMem, hold⟩ := hshape.edge nodeReconnect hreconnect hstart
  have hplaced : Placed param self.heap self.nodeStart self.nodes nodeParent nodeNew
      nodeReconnect :=
    ⟨hshape, hparentMem, hnew, hreconnect, hold.parent, fun heq => hnotChild (heq ▸ hold.parent),
      hapart⟩
  have hchild := (hshape.mem_childs nodeParent hparentMem nodeReconnect).mpr
    ⟨hreconnect, hold.parent⟩
  unfold reconnect
  refine .bind_eq (getParent_of hold.parent hparentMem) ?_
  refine .bind_eq (deleteChild_of hchild) ?_
  have hcostNew : (movedHeap self.heap nodeParent nodeNew nodeReconnect nodeNew).costFromStart =
      some (costOf self.heap nodeNew) := by
    have hcost := hcosts.hasCost nodeNew hnew
    simpa [movedHeap, deletedHeap, hplaced.ne.symm] using hcost
  refine .bind_eq (value_of hcostNew) ?_
  have hrewired := hplaced.rewired
  have hedge := hrewired.isEdge hmetric.symm hvalid
  have hrefreshing := hrewired.refreshing hplaced hcosts hmetric.symm hedge
  have hloop := updateDescendants_succeeds hrefreshing (Nat.le_add_left self.nodes.length 0)
  refine .bind hloop ?_
  rintro heap' ⟨hsame, hcosts', hframe⟩
  have hpose : ∀ v, (heap' v).pose = (self.heap v).pose := by
    intro v
    rw [hsame v]
    exact hrewired.pose_eq v
  have hparents : ∀ v, v ≠ nodeReconnect → (heap' v).parent = (self.heap v).parent := by
    intro v hv
    rw [hsame v, hrewired.old hv]
  have hshape' := hsame.shape hrefreshing.shape
  have hcostToGoal : ∀ v, (heap' v).costToGoal = (self.heap v).costToGoal := by
    intro v
    rw [hsame v]
    exact hrewired.costToGoal_eq v
  have helsewhere : ∀ v, v ∉ self.nodes → heap' v = self.heap v := by
    intro v hv
    rw [hframe v hv]
    exact hrewired.elsewhere v (fun heq => hv (heq ▸ hreconnect)) (fun heq => hv (heq ▸ hnew))
      fun heq => hv (heq ▸ hparentMem)
  have hle : ∀ v ∈ self.nodes, costOf heap' v ≤ costOf self.heap v := fun v hv =>
    costOf_le_of_move hshape' hcosts hcosts' hpose hparents (hsame.isEdge hedge).parent hlower
      hmetric.symm hv
  exact .ok ⟨⟨rfl, hpose, hcostToGoal, hle, helsewhere⟩, hshape', hcosts'⟩

end

/-!
## Pruning the tree of the RRT* planner

A node whose lower bound exceeds the cost of the solution is deleted with all of its
descendants.  No path over a descendant is cheaper, so that all deleted nodes exceed
the bound, and neither the start nor the best node is ever among them.
-/

/-! ## Indices -/

section

variable {nodes : List NodeId} {v : NodeId}

theorem nodeIndexMap_of_mem (hnodup : nodes.Nodup)
    (hv : v ∈ nodes) : nodeIndexMap nodes v = nodes.idxOf v := by
  have hfold : ∀ (later : List NodeId) (first : ℕ) (map : NodeId → ℕ), later.Nodup →
      (later.zipIdx first).foldl (fun map entry => Function.update map entry.1 entry.2) map v =
        if v ∈ later then first + later.idxOf v else map v := by
    intro later
    induction later with
    | nil => intro first map _; rfl
    | cons node later ih =>
      intro first map hnodup
      obtain ⟨hnode, hlater⟩ := List.nodup_cons.mp hnodup
      rw [List.zipIdx_cons, List.foldl_cons, ih (first + 1) _ hlater]
      by_cases heq : v = node
      · rw [heq, if_neg hnode, if_pos List.mem_cons_self, Function.update_self,
          List.idxOf_cons_self, Nat.add_zero]
      · rw [Function.update_of_ne heq, List.idxOf_cons_ne later (Ne.symm heq)]
        by_cases hmem : v ∈ later
        · rw [if_pos hmem, if_pos (List.mem_cons_of_mem node hmem)]
          omega
        · rw [if_neg hmem, if_neg (fun hmem' => hmem ((List.mem_cons.mp hmem').resolve_left heq))]
  unfold nodeIndexMap
  rw [hfold nodes 0 _ hnodup, if_pos hv, Nat.zero_add]

theorem nodeIndexMap_inj (hnodup : nodes.Nodup) {v w : NodeId}
    (hv : v ∈ nodes) (hw : w ∈ nodes) (hindex : nodeIndexMap nodes v = nodeIndexMap nodes w) :
    v = w := by
  rw [nodeIndexMap_of_mem hnodup hv, nodeIndexMap_of_mem hnodup hw] at hindex
  exact (List.idxOf_inj hv).mp hindex

theorem mem_eraseIdx_iff (hnodup : nodes.Nodup) {d : ℕ} :
    v ∈ nodes.eraseIdx d ↔ v ∈ nodes ∧ nodes.idxOf v ≠ d := by
  induction nodes generalizing d with
  | nil => simp only [List.eraseIdx_nil, List.not_mem_nil, false_and]
  | cons node rest ih =>
    obtain ⟨hnode, hrest⟩ := List.nodup_cons.mp hnodup
    by_cases heq : v = node
    · rw [heq, List.idxOf_cons_self]
      cases d with
      | zero => simpa only [List.eraseIdx_cons_zero, ne_eq, not_true, and_false, iff_false]
      | succ d => simp
    · have hmem : v ∈ node :: rest ↔ v ∈ rest := by
        rw [List.mem_cons]
        exact or_iff_right heq
      rw [hmem, List.idxOf_cons_ne rest (Ne.symm heq)]
      cases d with
      | zero => simp
      | succ d =>
        rw [List.eraseIdx_cons_succ, List.mem_cons, or_iff_right heq, ih hrest]
        simp

theorem idxOf_eraseIdx (hnodup : nodes.Nodup) {d : ℕ} (hv : v ∈ nodes.eraseIdx d) :
    (nodes.eraseIdx d).idxOf v = if nodes.idxOf v < d then nodes.idxOf v
      else nodes.idxOf v - 1 := by
  induction nodes generalizing d with
  | nil => cases hv
  | cons node rest ih =>
    obtain ⟨hnode, hrest⟩ := List.nodup_cons.mp hnodup
    cases d with
    | zero =>
      have heq : node ≠ v := fun heq => hnode (heq ▸ hv)
      rw [List.eraseIdx_cons_zero, List.idxOf_cons_ne rest heq]
      rfl
    | succ d =>
      rw [List.eraseIdx_cons_succ] at hv ⊢
      by_cases heq : node = v
      · rw [heq, List.idxOf_cons_self, List.idxOf_cons_self, if_pos (Nat.succ_pos d)]
      · have hmem : v ∈ rest.eraseIdx d :=
          (List.mem_cons.mp hv).resolve_left (Ne.symm heq)
        have hne := ((mem_eraseIdx_iff hrest).mp hmem).2
        rw [List.idxOf_cons_ne _ heq, List.idxOf_cons_ne _ heq, ih hrest hmem]
        split_ifs <;> omega

theorem mem_foldl_eraseIdx {indices : List ℕ} (hsorted : indices.Pairwise (· > ·))
    (hnodup : nodes.Nodup) :
    v ∈ indices.foldl List.eraseIdx nodes ↔ v ∈ nodes ∧ nodes.idxOf v ∉ indices := by
  induction indices generalizing nodes with
  | nil => simp only [List.foldl_nil, List.not_mem_nil, not_false_iff, and_true]
  | cons d rest ih =>
    obtain ⟨hlast, hrest⟩ := List.pairwise_cons.mp hsorted
    have hnodup' := hnodup.sublist (List.eraseIdx_sublist nodes d)
    rw [List.foldl_cons, ih hrest hnodup', List.mem_cons, not_or, ← and_assoc,
      ← mem_eraseIdx_iff hnodup]
    refine and_congr_right fun hv => ?_
    have hne := ((mem_eraseIdx_iff hnodup).mp hv).2
    rw [idxOf_eraseIdx hnodup hv]
    by_cases hbefore : nodes.idxOf v < d
    · rw [if_pos hbefore]
    · rw [if_neg hbefore]
      -- behind the erased index no other index is erased any more
      constructor
      · intro _ hmem
        exact hbefore (hlast _ hmem)
      · intro _ hmem
        have := hlast _ hmem
        omega

theorem mem_eraseIndices (hnodup : nodes.Nodup) {deleteIndices : Finset ℕ} :
    v ∈ eraseIndices nodes deleteIndices ↔
      v ∈ nodes ∧ nodeIndexMap nodes v ∉ deleteIndices := by
  have hsorted : (deleteIndices.sort (· ≥ ·)).Pairwise (· > ·) :=
    (Finset.sortedGT_sort deleteIndices).pairwise
  unfold eraseIndices
  rw [mem_foldl_eraseIdx hsorted hnodup, Finset.mem_sort]
  refine and_congr_right fun hv => ?_
  rw [nodeIndexMap_of_mem hnodup hv]

theorem nodup_eraseIndices (hnodup : nodes.Nodup)
    (deleteIndices : Finset ℕ) : (eraseIndices nodes deleteIndices).Nodup := by
  unfold eraseIndices
  generalize deleteIndices.sort (· ≥ ·) = indices
  induction indices generalizing nodes with
  | nil => exact hnodup
  | cons d rest ih => exact ih (hnodup.sublist (List.eraseIdx_sublist nodes d))

end

section

/-- What the traversal relies on of the nodes it may meet, none of which is deleted
before. -/
structure Deletable (index : NodeId → ℕ) (heap : NodeId → Node Pose K)
    (parent : NodeId → Option NodeId) (nodes : List NodeId) (deleteIndices : Finset ℕ)
    (property : NodeId → Prop) : Prop where
  mem : ∀ v, property v → v ∈ nodes
  index_inj : ∀ v w, property v → property w → index v = index w → v = w
  kept : ∀ v, property v → index v ∉ deleteIndices
  nodup : ∀ v, property v → (heap v).childs.Nodup
  parent : ∀ v, property v → ∀ c ∈ (heap v).childs, parent c = some v
  childs : ∀ v, property v → ∀ c ∈ (heap v).childs, property c

variable {index : NodeId → ℕ} {heap : NodeId → Node Pose K} {above : NodeId → Option NodeId}
  {nodes : List NodeId} {deleteIndices : Finset ℕ} {property : NodeId → Prop}

/-- The top is among the visited nodes once none is pending. -/
theorem mem_indices_of_frontier {top : NodeId} {visited : List NodeId} {indices : Finset ℕ}
    (hfrontier : Frontier above (childsOf heap) property top visited [])
    (hindices : ∀ i, i ∈ indices ↔
      i = index top ∨ i ∈ deleteIndices ∨ i ∈ visited.map index) (i : ℕ) :
    i ∈ indices ↔ i ∈ deleteIndices ∨ i ∈ visited.map index := by
  have htop : top ∈ visited := by simpa using hfrontier.top_mem
  rw [hindices i]
  refine or_iff_right_of_imp ?_
  rintro rfl
  exact .inr (List.mem_map_of_mem htop)

theorem deleteChilds_succeeds {top : NodeId}
    (hdeletable : Deletable index heap above nodes deleteIndices property)
    (hacyclic : ¬TransGen (IsParent above) top top) {iterations : ℕ}
    {visited nodeStack : List NodeId} {indices : Finset ℕ}
    (hfrontier : Frontier above (childsOf heap) property top visited nodeStack)
    (hindices : ∀ i, i ∈ indices ↔ i = index top ∨ i ∈ deleteIndices ∨ i ∈ visited.map index)
    (hbound : nodes.length ≤ visited.length + iterations) :
    Succeeds (deleteChilds index heap iterations indices nodeStack) fun deleted =>
      ∃ all, Frontier above (childsOf heap) property top all [] ∧
        ∀ i, i ∈ deleted ↔ i ∈ deleteIndices ∨ i ∈ all.map index := by
  induction iterations generalizing visited nodeStack indices with
  | zero =>
    cases nodeStack with
    | nil =>
      unfold deleteChilds
      exact .ok ⟨visited, hfrontier, mem_indices_of_frontier hfrontier hindices⟩
    | cons nodeHere rest =>
      have hlength := hfrontier.length_le hdeletable.mem
      rw [List.length_cons] at hlength
      omega
  | succ iterations ih =>
    cases nodeStack with
    | nil =>
      unfold deleteChilds
      exact .ok ⟨visited, hfrontier, mem_indices_of_frontier hfrontier hindices⟩
    | cons nodeHere rest =>
      have hhere : property nodeHere :=
        hfrontier.property nodeHere (List.mem_append_right visited List.mem_cons_self)
      have hfresh := hfrontier.fresh (hdeletable.parent nodeHere hhere) hacyclic
      have hinserted : ∀ i, i ∈ insert (index nodeHere) indices ↔ i = index top ∨
          i ∈ deleteIndices ∨ i ∈ (nodeHere :: visited).map index := by
        intro i
        rw [Finset.mem_insert, hindices i, List.map_cons, List.mem_cons]
        tauto
      have hpushed : (heap nodeHere).childs.filter
          (fun child => index child ∉ insert (index nodeHere) indices) =
            (heap nodeHere).childs := by
        rw [List.filter_eq_self]
        intro c hchild
        have hproperty := hdeletable.childs nodeHere hhere c hchild
        have hne : ∀ v ∈ visited ++ nodeHere :: rest, index c ≠ index v := by
          intro v hv hsame
          have heq := hdeletable.index_inj c v hproperty (hfrontier.property v hv) hsame
          exact hfresh c hchild (heq ▸ hv)
        rw [decide_eq_true_iff, hinserted, List.mem_map]
        rintro (htop | hdeleted | ⟨v, hv, hsame⟩)
        · exact hne top hfrontier.top_mem htop
        · exact hdeletable.kept c hproperty hdeleted
        · refine hne v ?_ hsame.symm
          rcases List.mem_cons.mp hv with rfl | hvisited
          · exact List.mem_append_right visited List.mem_cons_self
          · exact List.mem_append_left _ hvisited
      unfold deleteChilds
      simp only [hpushed]
      refine ih ?_ hinserted ?_
      · refine hfrontier.step (hdeletable.parent nodeHere hhere)
          (hdeletable.nodup nodeHere hhere) (hdeletable.childs nodeHere hhere) hacyclic ?_
        exact ((List.reverse_perm _).append_right rest).trans List.perm_append_comm
      · rw [List.length_cons]
        omega

end

/-! ## Deleting the nodes over the bound -/

variable [AddCommGroup K] [LinearOrder K] {heap heap' : NodeId → Node Pose K} {start : NodeId}
  {nodes : List NodeId} {goal : Pose} {bound : K} {deleteIndices : Finset ℕ}

def lowerBound (param : Param Pose K) (heap : NodeId → Node Pose K) (goal : Pose)
    (node : NodeId) : K :=
  param.cspace.distance (heap node).pose goal + costOf heap node

structure Pruning (param : Param Pose K) (heap heap' : NodeId → Node Pose K)
    (nodes : List NodeId) (goal : Pose) (bound : K) (deleteIndices : Finset ℕ) : Prop where
  same : ∀ v, heap' v = { heap v with childs := (heap' v).childs }
  nodup_childs : ∀ p ∈ nodes, (heap' p).childs.Nodup
  mem_childs : ∀ p ∈ nodes, nodeIndexMap nodes p ∉ deleteIndices → ∀ c,
    c ∈ (heap' p).childs ↔ c ∈ (heap p).childs ∧ nodeIndexMap nodes c ∉ deleteIndices
  closed : ∀ p ∈ nodes, nodeIndexMap nodes p ∈ deleteIndices → ∀ c ∈ (heap p).childs,
    nodeIndexMap nodes c ∈ deleteIndices
  exceeds : ∀ v ∈ nodes, nodeIndexMap nodes v ∈ deleteIndices → bound < lowerBound param heap goal v

namespace Pruning

theorem empty (hshape : Shape param heap start nodes) :
    Pruning param heap heap nodes goal bound ∅ where
  same := fun _ => rfl
  nodup_childs := hshape.nodup_childs
  mem_childs := fun p _ _ c => by
    rw [and_iff_left (Finset.notMem_empty _)]
  closed := fun _ _ hdeleted => (Finset.notMem_empty _ hdeleted).elim
  exceeds := fun _ _ hdeleted => (Finset.notMem_empty _ hdeleted).elim

variable (hpruning : Pruning param heap heap' nodes goal bound deleteIndices)

include hpruning

theorem parentOf_eq : parentOf heap' = parentOf heap := by
  funext v
  unfold parentOf
  rw [hpruning.same v]

theorem costOf_eq (v : NodeId) : costOf heap' v = costOf heap v := by
  unfold costOf
  rw [hpruning.same v]

theorem parent_kept (hshape : Shape param heap start nodes) {v p : NodeId} (hv : v ∈ nodes)
    (hkept : nodeIndexMap nodes v ∉ deleteIndices) (hparent : (heap v).parent = some p) :
    nodeIndexMap nodes p ∉ deleteIndices := by
  intro hdeleted
  have hp := (hshape.parent_mem hv hparent).1
  exact hkept (hpruning.closed p hp hdeleted v ((hshape.mem_childs p hp v).mpr ⟨hv, hparent⟩))

/-- The nodes below a node over the bound may be met by the traversal. -/
theorem deletable [IsOrderedAddMonoid K] (hshape : Shape param heap start nodes)
    (hcosts : Costs param heap start nodes) (hmetric : IsMetric param.cspace.distance)
    (p node : NodeId) :
    Deletable (nodeIndexMap nodes) (deletedHeap heap' p node) (parentOf heap) nodes deleteIndices
      fun v => v ∈ nodes ∧ nodeIndexMap nodes v ∉ deleteIndices ∧
        bound < lowerBound param heap goal v := by
  have hchilds : ∀ v, (deletedHeap heap' p node v).childs ⊆ (heap' v).childs := by
    intro v c hchild
    unfold deletedHeap at hchild
    by_cases hv : v = p
    · rw [hv, Function.update_self] at hchild
      rw [hv]
      exact List.mem_of_mem_erase hchild
    · rwa [Function.update_of_ne hv] at hchild
  have hold : ∀ v ∈ nodes, nodeIndexMap nodes v ∉ deleteIndices →
      ∀ c ∈ (deletedHeap heap' p node v).childs,
        (c ∈ nodes ∧ (heap c).parent = some v) ∧ nodeIndexMap nodes c ∉ deleteIndices := by
    intro v hv hkept c hchild
    obtain ⟨hc, hkept'⟩ := (hpruning.mem_childs v hv hkept c).mp (hchilds v hchild)
    exact ⟨(hshape.mem_childs v hv c).mp hc, hkept'⟩
  refine ⟨?_, ?_, ?_, ?_, ?_, ?_⟩
  · exact fun v hv => hv.1
  · exact fun v w hv hw => nodeIndexMap_inj hshape.nodup hv.1 hw.1
  · exact fun v hv => hv.2.1
  · rintro v ⟨hv, _, _⟩
    unfold deletedHeap
    by_cases hp : v = p
    · rw [hp, Function.update_self]
      exact (hpruning.nodup_childs p (hp ▸ hv)).erase node
    · rw [Function.update_of_ne hp]
      exact hpruning.nodup_childs v hv
  · rintro v ⟨hv, hkept, _⟩ c hchild
    exact (hold v hv hkept c hchild).1.2
  · rintro v ⟨hv, hkept, hexceeds⟩ c hchild
    obtain ⟨⟨hc, hparent⟩, hkept'⟩ := hold v hv hkept c hchild
    refine ⟨hc, hkept', hexceeds.trans_le ?_⟩
    exact hcosts.lowerBound hshape hmetric goal hc (.single hparent)

/-- The traversal deleted a node and what is below it. -/
theorem step (hshape : Shape param heap start nodes) {p node : NodeId}
    (hparent : (heap node).parent = some p) {property : NodeId → Prop}
    (hproperty : ∀ v, property v → v ∈ nodes ∧ nodeIndexMap nodes v ∉ deleteIndices ∧
      bound < lowerBound param heap goal v)
    {all : List NodeId}
    (hall : Frontier (parentOf heap) (childsOf (deletedHeap heap' p node)) property node all [])
    {deleted : Finset ℕ}
    (hdeleted : ∀ i, i ∈ deleted ↔ i ∈ deleteIndices ∨ i ∈ all.map (nodeIndexMap nodes)) :
    Pruning param heap (deletedHeap heap' p node) nodes goal bound deleted := by
  have hmet : ∀ v ∈ all, property v := by
    intro v hv
    exact hall.property v (List.mem_append_left [] hv)
  have hindex : ∀ v ∈ nodes, nodeIndexMap nodes v ∈ deleted ↔
      nodeIndexMap nodes v ∈ deleteIndices ∨ v ∈ all := by
    intro v hv
    rw [hdeleted, List.mem_map]
    refine or_congr_right ⟨?_, fun hv' => ⟨v, hv', rfl⟩⟩
    rintro ⟨w, hw, hsame⟩
    rwa [← nodeIndexMap_inj hshape.nodup (hproperty w (hmet w hw)).1 hv hsame]
  have hnodeAll : node ∈ all := by simpa using hall.top_mem
  -- the children of a node that was not deleted before
  have hchilds : ∀ q ∈ nodes, nodeIndexMap nodes q ∉ deleteIndices → ∀ c,
      c ∈ (deletedHeap heap' p node q).childs ↔
        ((heap c).parent = some q ∧ c ∈ nodes ∧ nodeIndexMap nodes c ∉ deleteIndices) ∧
          c ≠ node := by
    intro q hq hkept' c
    have hold : c ∈ (heap' q).childs ↔
        (heap c).parent = some q ∧ c ∈ nodes ∧ nodeIndexMap nodes c ∉ deleteIndices := by
      rw [hpruning.mem_childs q hq hkept', hshape.mem_childs q hq]
      tauto
    rw [← hold]
    unfold deletedHeap
    by_cases hqp : q = p
    · rw [hqp, Function.update_self, (hpruning.nodup_childs p (hqp ▸ hq)).mem_erase_iff, and_comm]
    · rw [Function.update_of_ne hqp]
      refine (and_iff_left_of_imp fun hchild heq => ?_).symm
      rw [hold, heq, hparent] at hchild
      exact hqp (Option.some.inj hchild.1).symm
  refine ⟨?_, ?_, ?_, ?_, ?_⟩
  · intro v
    unfold deletedHeap
    by_cases hv : v = p
    · rw [hv, Function.update_self, hpruning.same p]
    · rw [Function.update_of_ne hv]
      exact hpruning.same v
  · intro q hq
    unfold deletedHeap
    by_cases hqp : q = p
    · rw [hqp, Function.update_self]
      exact (hpruning.nodup_childs p (hqp ▸ hq)).erase node
    · rw [Function.update_of_ne hqp]
      exact hpruning.nodup_childs q hq
  · intro q hq hkept' c
    rw [hindex q hq, not_or] at hkept'
    rw [hchilds q hq hkept'.1, hshape.mem_childs q hq]
    constructor
    · rintro ⟨⟨hcq, hc, hcKept⟩, hne⟩
      refine ⟨⟨hc, hcq⟩, ?_⟩
      rw [hindex c hc, not_or]
      refine ⟨hcKept, fun hcAll => ?_⟩
      -- a met node other than the top one has a visited parent
      obtain ⟨above, habove, hcAbove⟩ := hall.parents c (List.mem_append_left [] hcAll) hne
      have hsame : above = q := Option.some.inj (hcAbove.symm.trans hcq)
      exact hkept'.2 (hsame ▸ habove)
    · rintro ⟨⟨hc, hcq⟩, hcKept⟩
      rw [hindex c hc, not_or] at hcKept
      exact ⟨⟨hcq, hc, hcKept.1⟩, fun heq => hcKept.2 (heq ▸ hnodeAll)⟩
  · intro q hq hqDeleted c hchild
    obtain ⟨hc, hcq⟩ := (hshape.mem_childs q hq c).mp hchild
    rw [hindex c hc]
    rcases (hindex q hq).mp hqDeleted with hbefore | hqAll
    · exact .inl (hpruning.closed q hq hbefore c hchild)
    · by_cases hcDeleted : nodeIndexMap nodes c ∈ deleteIndices
      · exact .inl hcDeleted
      · right
        by_cases hne : c = node
        · rw [hne]
          exact hnodeAll
        · have hqKept := (hproperty q (hmet q hqAll)).2.1
          have hlater := (hchilds q hq hqKept c).mpr ⟨⟨hcq, hc, hcDeleted⟩, hne⟩
          simpa using hall.closed q hqAll c hlater
  · intro v hv hvDeleted
    rcases (hindex v hv).mp hvDeleted with hbefore | hvAll
    · exact hpruning.exceeds v hv hbefore
    · exact (hproperty v (hmet v hvAll)).2.2

/-- The nodes that are kept are a tree. -/
theorem shape (hshape : Shape param heap start nodes)
    (hstart : nodeIndexMap nodes start ∉ deleteIndices) :
    Shape param heap' start (eraseIndices nodes deleteIndices) where
  nodup := nodup_eraseIndices hshape.nodup deleteIndices
  start_mem := (mem_eraseIndices hshape.nodup).mpr ⟨hshape.start_mem, hstart⟩
  root := by
    rw [hpruning.same start]
    exact hshape.root
  edge := by
    intro v hv hne
    obtain ⟨hold, hkept⟩ := (mem_eraseIndices hshape.nodup).mp hv
    obtain ⟨p, hp, hedge⟩ := hshape.edge v hold hne
    have hparentKept := hpruning.parent_kept hshape hold hkept hedge.parent
    refine ⟨p, (mem_eraseIndices hshape.nodup).mpr ⟨hp, hparentKept⟩, ?_, ?_, ?_⟩
    · rw [hpruning.same v]
      exact hedge.parent
    · rw [hpruning.same v, hpruning.same p]
      exact hedge.costToParent
    · rw [hpruning.same v, hpruning.same p]
      exact hedge.valid
  nodup_childs := fun p hp => hpruning.nodup_childs p ((mem_eraseIndices hshape.nodup).mp hp).1
  mem_childs := by
    intro p hp c
    obtain ⟨hold, hkept⟩ := (mem_eraseIndices hshape.nodup).mp hp
    rw [hpruning.mem_childs p hold hkept, hshape.mem_childs p hold,
      mem_eraseIndices hshape.nodup, hpruning.same c]
    exact and_right_comm
  reaches := by
    intro v hv
    rw [hpruning.parentOf_eq]
    exact hshape.reaches v ((mem_eraseIndices hshape.nodup).mp hv).1

theorem costs (hshape : Shape param heap start nodes) (hcosts : Costs param heap start nodes) :
    Costs param heap' start (eraseIndices nodes deleteIndices) where
  root := by
    rw [hpruning.same start]
    exact hcosts.root
  hasCost := by
    intro v hv
    rw [hpruning.costOf_eq, hpruning.same v]
    exact hcosts.hasCost v ((mem_eraseIndices hshape.nodup).mp hv).1
  edge := by
    intro v hv p hp
    rw [hpruning.same v] at hp
    rw [hpruning.costOf_eq, hpruning.costOf_eq, hpruning.same v, hpruning.same p]
    exact hcosts.edge v ((mem_eraseIndices hshape.nodup).mp hv).1 p hp

end Pruning

/-- The planner while its nodes are pruned. -/
def IsPruned (param : Param Pose K) (self : RRTStar Pose K) (bound : K)
    (state : RRTStar Pose K × Finset ℕ) : Prop :=
  state.1 = { self with heap := state.1.heap } ∧
    Pruning param self.heap state.1.heap self.nodes self.nodeGoal.pose bound state.2

/-- The tree with a solution that reaches the bound. -/
structure Bounded (param : Param Pose K) (planner : RRTStar Pose K) (bound : K) : Prop where
  metric : IsMetric param.cspace.distance
  shape : Shape param planner.heap planner.nodeStart planner.nodes
  costs : Costs param planner.heap planner.nodeStart planner.nodes
  goalCost : planner.nodeGoal.costFromStart = some bound
  best : ∃ best ∈ planner.nodes, lowerBound param planner.heap planner.nodeGoal.pose best ≤ bound

variable [IsOrderedAddMonoid K] {self : RRTStar Pose K}

theorem Bounded.start_le (hbounded : Bounded param self bound) :
    lowerBound param self.heap self.nodeGoal.pose self.nodeStart ≤ bound := by
  obtain ⟨best, hbest, hle⟩ := hbounded.best
  exact (hbounded.costs.lowerBound hbounded.shape hbounded.metric self.nodeGoal.pose hbest
    (hbounded.shape.reaches best hbest)).trans hle

theorem pruneNode_succeeds (hbounded : Bounded param self bound) {state : RRTStar Pose K × Finset ℕ}
    {node : NodeId} (hnode : node ∈ self.nodes) (hstate : IsPruned param self bound state) :
    Succeeds (pruneNode param (nodeIndexMap self.nodes) state node)
      (IsPruned param self bound) := by
  obtain ⟨pruned, deleteIndices⟩ := state
  obtain ⟨hpruned, hpruning⟩ := hstate
  simp only at hpruned hpruning
  generalize pruned.heap = heap' at hpruned hpruning
  subst hpruned
  have hshape := hbounded.shape
  unfold pruneNode
  by_cases hkept : nodeIndexMap self.nodes node ∈ deleteIndices
  · simp only [hkept, if_true]
    exact .ok ⟨rfl, hpruning⟩
  simp only [hkept, if_false]
  have hcost : (heap' node).costFromStart = some (costOf self.heap node) := by
    rw [hpruning.same node]
    exact hbounded.costs.hasCost node hnode
  have hpose : (heap' node).pose = (self.heap node).pose := by
    rw [hpruning.same node]
  refine .bind_eq (value_of hcost) ?_
  rw [hpose, hbounded.goalCost]
  by_cases hexceeds : bound < lowerBound param self.heap self.nodeGoal.pose node
  · have hover : exceeds (param.cspace.distance (self.heap node).pose self.nodeGoal.pose +
        costOf self.heap node) (some bound) = true := decide_eq_true hexceeds
    rw [if_pos hover]
    have hstart : node ≠ self.nodeStart := by
      rintro rfl
      exact absurd hexceeds (not_lt.mpr hbounded.start_le)
    obtain ⟨p, hp, hedge⟩ := hshape.edge node hnode hstart
    have hparentKept := hpruning.parent_kept hshape hnode hkept hedge.parent
    have hchild : node ∈ (heap' p).childs := by
      rw [hpruning.mem_childs p hp hparentKept, hshape.mem_childs p hp]
      exact ⟨⟨hnode, hedge.parent⟩, hkept⟩
    have hparent : (heap' node).parent = some p := by
      rw [hpruning.same node]
      exact hedge.parent
    refine .bind_eq (getParent_of hparent hp) (.bind_eq (deleteChild_of hchild) ?_)
    have hdeletable := hpruning.deletable hshape hbounded.costs hbounded.metric p node
    have hindices : ∀ i, i ∈ insert (nodeIndexMap self.nodes node) deleteIndices ↔
        i = nodeIndexMap self.nodes node ∨ i ∈ deleteIndices ∨
          i ∈ [].map (nodeIndexMap self.nodes) := by
      intro i
      rw [Finset.mem_insert, List.map_nil, or_iff_left (List.not_mem_nil)]
    have hloop := deleteChilds_succeeds hdeletable (hshape.not_cycle hnode)
      (.start ⟨hnode, hkept, hexceeds⟩) hindices (Nat.le_add_left _ _)
    refine .bind hloop ?_
    rintro deleted ⟨all, hall, hdeleted⟩
    exact .ok ⟨rfl, hpruning.step hshape hedge.parent (fun v hv => hv) hall hdeleted⟩
  · have hover : exceeds (param.cspace.distance (self.heap node).pose self.nodeGoal.pose +
        costOf self.heap node) (some bound) = false := decide_eq_false hexceeds
    rw [hover]
    exact .ok ⟨rfl, hpruning⟩

/-- What pruning keeps. -/
structure Kept (param : Param Pose K) (before after : RRTStar Pose K) (bound : K) : Prop where
  eq : after = { before with heap := after.heap, nodes := after.nodes }
  same : ∀ v, after.heap v = { before.heap v with childs := (after.heap v).childs }
  mem : ∀ v ∈ before.nodes, v ∈ after.nodes ∨
    bound < lowerBound param before.heap before.nodeGoal.pose v
  subset : after.nodes ⊆ before.nodes

theorem deleteNodeUsingBranchAndBound_succeeds (hbounded : Bounded param self bound)
    (hfound : self.isSolutionFound = true) :
    Succeeds (self.deleteNodeUsingBranchAndBound param) fun after =>
      Kept param self after bound ∧ Shape param after.heap self.nodeStart after.nodes ∧
        Costs param after.heap self.nodeStart after.nodes := by
  have hshape := hbounded.shape
  unfold deleteNodeUsingBranchAndBound
  rw [if_pos hfound]
  refine .bind (Succeeds.foldlM
    (fun remaining state => remaining ⊆ self.nodes ∧ IsPruned param self bound state)
    ?_ ⟨List.Subset.refl _, rfl, .empty hshape⟩) ?_
  · rintro node rest state ⟨hsubset, hstate⟩
    obtain ⟨hnode, hrest⟩ := List.cons_subset.mp hsubset
    exact (pruneNode_succeeds hbounded hnode hstate).mono fun next hnext => ⟨hrest, hnext⟩
  · rintro ⟨pruned, deleteIndices⟩ ⟨_, hpruned, hpruning⟩
    simp only at hpruned hpruning
    generalize pruned.heap = heap' at hpruned hpruning
    subst hpruned
    have hstart : nodeIndexMap self.nodes self.nodeStart ∉ deleteIndices := by
      intro hdeleted
      exact absurd (hpruning.exceeds self.nodeStart hshape.start_mem hdeleted)
        (not_lt.mpr hbounded.start_le)
    refine .ok ⟨⟨rfl, hpruning.same, ?_, ?_⟩, hpruning.shape hshape hstart,
      hpruning.costs hshape hbounded.costs⟩
    · intro v hv
      by_cases hkept : nodeIndexMap self.nodes v ∈ deleteIndices
      · exact .inr (hpruning.exceeds v hv hkept)
      · exact .inl ((mem_eraseIndices hshape.nodup).mpr ⟨hv, hkept⟩)
    · exact fun v hv => ((mem_eraseIndices hshape.nodup).mp hv).1

end AutowareUniverse.Planning.RRTStar
