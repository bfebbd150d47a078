import AutowareUniverse.Planning.RRTStar
import Mathlib.Algebra.Order.Ring.Rat
import Mathlib.Algebra.Order.Group.Abs

/-!
# Runs of the RRT* planner

The goal has the least cost over the reached nodes, among which there may be nodes
that were pruned.  None of these is ever the best one, so that the best node of the
tree protects the start from being pruned.
-/

namespace AutowareUniverse.Planning.RRTStar

open Library.Fallible Library.RootedTree Relation

section

variable {Pose K : Type} [LinearOrder K] {param : Param Pose K}
  {self : RRTStar Pose K}

/-! ## Choosing nodes -/

section

theorem below_some {bound cost : K} : below (some bound) cost = true ↔ cost < bound :=
  decide_eq_true_iff

theorem findNearestNode_mem (param : Param Pose K) (xRand : Pose) (hnodes : self.nodes ≠ []) :
    ∃ nearest ∈ self.nodes, self.findNearestNode param xRand = some nearest := by
  obtain ⟨first, rest, hcons⟩ := List.exists_cons_of_ne_nil hnodes
  have hloop : ∀ (later : List NodeId) (distMin : K) (nearest : NodeId), nearest ∈ self.nodes →
      later ⊆ self.nodes → ∃ nearest' ∈ self.nodes,
        (later.foldl (fun closest node =>
          let pose := (self.heap node).pose
          if below closest.1 (param.cspace.distanceLowerBound pose xRand) then
            let distReal := param.cspace.distance pose xRand
            if below closest.1 distReal then (some distReal, some node) else closest
          else closest)
          ((some distMin, some nearest) : Option K × Option NodeId)).2 = some nearest' := by
    intro later
    induction later with
    | nil => exact fun distMin nearest hnearest _ => ⟨nearest, hnearest, rfl⟩
    | cons node later ih =>
      intro distMin nearest hnearest hsubset
      obtain ⟨hnode, hlater⟩ := List.cons_subset.mp hsubset
      rw [List.foldl_cons]
      dsimp only
      split_ifs
      · exact ih _ node hnode hlater
      · exact ih distMin nearest hnearest hlater
      · exact ih distMin nearest hnearest hlater
  have hfirst : first ∈ self.nodes := hcons ▸ List.mem_cons_self
  have hrest : rest ⊆ self.nodes := hcons ▸ List.subset_cons_self first rest
  unfold findNearestNode
  rw [hcons, List.foldl_cons]
  rw [← hcons]
  exact hloop rest _ first hfirst hrest

theorem findNeighborNodes_subset {xNew : Pose} : self.findNeighborNodes param xNew ⊆ self.nodes :=
  List.filter_sublist.subset

variable [AddCommGroup K]

theorem getBestParentNode_succeeds (hcosts : Costs param self.heap self.nodeStart self.nodes)
    {poseNew : Pose} {nodeNearest : NodeId} {neighborNodes : List NodeId}
    (hnearest : nodeNearest ∈ self.nodes) (hneighbors : neighborNodes ⊆ self.nodes)
    (hvalid : isValidPath param poseNew (self.heap nodeNearest).pose = true) :
    Succeeds (self.getBestParentNode param poseNew nodeNearest neighborNodes) fun best =>
      best ∈ self.nodes ∧ isValidPath param poseNew (self.heap best).pose = true := by
  unfold getBestParentNode
  refine .bind_eq (value_of (hcosts.hasCost nodeNearest hnearest)) ?_
  refine .bind (Succeeds.foldlM (fun remaining best => remaining ⊆ self.nodes ∧
    best.1 ∈ self.nodes ∧ isValidPath param poseNew (self.heap best.1).pose = true)
    ?_ ⟨hneighbors, hnearest, hvalid⟩) ?_
  · rintro node rest best ⟨hsubset, hbest⟩
    obtain ⟨hnode, hrest⟩ := List.cons_subset.mp hsubset
    refine .bind_eq (value_of (hcosts.hasCost node hnode)) ?_
    by_cases hbetter : costOf self.heap node +
        param.cspace.distance (self.heap node).pose poseNew < best.2 ∧
          isValidPath param poseNew (self.heap node).pose = true
    · rw [if_pos hbetter]
      exact .ok ⟨hrest, hnode, hbetter.2⟩
    · rw [if_neg hbetter]
      exact .ok ⟨hrest, hbest⟩
  · exact fun best hbest => .ok hbest.2

def IsTarget (param : Param Pose K) (heap : NodeId → Node Pose K) (nodeNew : NodeId)
    (neighborNodes : List NodeId) (target : NodeId) : Prop :=
  target ∈ neighborNodes ∧ isValidPath param (heap target).pose (heap nodeNew).pose = true ∧
    costOf heap nodeNew + param.cspace.distance (heap nodeNew).pose (heap target).pose <
      costOf heap target

theorem getReconnectTargeNode_succeeds (hcosts : Costs param self.heap self.nodeStart self.nodes)
    {nodeNew : NodeId} {neighborNodes : List NodeId} (hnew : nodeNew ∈ self.nodes)
    (hneighbors : neighborNodes ⊆ self.nodes) :
    Succeeds (self.getReconnectTargeNode param nodeNew neighborNodes) fun reconnect =>
      ∀ target, reconnect = some target → IsTarget param self.heap nodeNew neighborNodes target := by
  unfold getReconnectTargeNode
  refine (Succeeds.foldlM (fun remaining reconnect => remaining ⊆ neighborNodes ∧
    ∀ target, reconnect = some target → IsTarget param self.heap nodeNew neighborNodes target)
    ?_ ⟨List.Subset.refl _, fun target hsome => by cases hsome⟩).mono fun _ hfound => hfound.2
  rintro neighbor rest reconnect ⟨hsubset, hreconnect⟩
  obtain ⟨hneighbor, hrest⟩ := List.cons_subset.mp hsubset
  by_cases hvalid : isValidPath param (self.heap neighbor).pose (self.heap nodeNew).pose = true
  · simp only [hvalid, if_true]
    refine .bind_eq (value_of (hcosts.hasCost nodeNew hnew)) ?_
    refine .bind_eq (value_of (hcosts.hasCost neighbor (hneighbors hneighbor))) ?_
    by_cases hlower : costOf self.heap nodeNew +
        param.cspace.distance (self.heap nodeNew).pose (self.heap neighbor).pose <
          costOf self.heap neighbor
    · rw [if_pos hlower]
      refine .ok ⟨hrest, fun target hsome => ?_⟩
      cases hsome
      exact ⟨hneighbor, hvalid, hlower⟩
    · rw [if_neg hlower]
      exact .ok ⟨hrest, hreconnect⟩
  · simp only [hvalid]
    exact .ok ⟨hrest, hreconnect⟩

end

/-- The tree and the reached nodes, whether they are in the tree or pruned. -/
structure Consistent [AddCommGroup K] (param : Param Pose K) (planner : RRTStar Pose K) : Prop where
  shape : Shape param planner.heap planner.nodeStart planner.nodes
  costs : Costs param planner.heap planner.nodeStart planner.nodes
  nodes_lt : ∀ v ∈ planner.nodes, v < planner.created
  reached_lt : ∀ r ∈ planner.reachedNodes, r < planner.created
  hasCost : ∀ r ∈ planner.reachedNodes,
    (planner.heap r).costFromStart = some (costOf planner.heap r)
  costToGoal : ∀ r ∈ planner.reachedNodes, (planner.heap r).costToGoal =
    some (param.cspace.distance (planner.heap r).pose planner.nodeGoal.pose)
  pruned : ∀ r ∈ planner.reachedNodes, r ∉ planner.nodes →
    ∃ best ∈ planner.reachedNodes, best ∈ planner.nodes ∧
      lowerBound param planner.heap planner.nodeGoal.pose best <
        lowerBound param planner.heap planner.nodeGoal.pose r

/-- The goal is reached over the best of the reached nodes. -/
def IsUpdated [AddCommGroup K] (param : Param Pose K) (planner : RRTStar Pose K) : Prop :=
  planner.reachedNodes ≠ [] → ∃ best ∈ planner.reachedNodes, planner.nodeGoal.costFromStart =
      some (lowerBound param planner.heap planner.nodeGoal.pose best) ∧
    ∀ r ∈ planner.reachedNodes, lowerBound param planner.heap planner.nodeGoal.pose best ≤
        lowerBound param planner.heap planner.nodeGoal.pose r

/-- The goal is below the reached node whose cost it has. -/
def IsLinked [AddCommGroup K] (param : Param Pose K) (planner : RRTStar Pose K) : Prop :=
  planner.reachedNodes ≠ [] → ∃ best ∈ planner.reachedNodes, planner.nodeGoal.parent = some best ∧
      planner.nodeGoal.costFromStart =
        some (lowerBound param planner.heap planner.nodeGoal.pose best)

/-- No reached node of the tree gets worse. -/
structure NoWorse [AddCommGroup K] (param : Param Pose K) (before after : RRTStar Pose K) :
    Prop where
  goal : after.nodeGoal.pose = before.nodeGoal.pose
  nodes : before.nodes ⊆ after.nodes
  reached : before.reachedNodes ⊆ after.reachedNodes
  le : ∀ r ∈ before.reachedNodes, r ∈ before.nodes →
    lowerBound param after.heap before.nodeGoal.pose r ≤
      lowerBound param before.heap before.nodeGoal.pose r

section

variable [AddCommGroup K]

theorem NoWorse.refl (planner : RRTStar Pose K) : NoWorse param planner planner where
  goal := rfl
  nodes := List.Subset.refl _
  reached := List.Subset.refl _
  le := fun _ _ _ => le_rfl

theorem NoWorse.trans {first second third : RRTStar Pose K} (hfirst : NoWorse param first second)
    (hsecond : NoWorse param second third) : NoWorse param first third where
  goal := hsecond.goal.trans hfirst.goal
  nodes := List.Subset.trans hfirst.nodes hsecond.nodes
  reached := List.Subset.trans hfirst.reached hsecond.reached
  le := by
    intro r hr hmem
    have hle := hsecond.le r (hfirst.reached hr) (hfirst.nodes hmem)
    rw [hfirst.goal] at hle
    exact hle.trans (hfirst.le r hr hmem)

/-- The least of the reached nodes is in the tree. -/
theorem Consistent.best_mem (hconsistent : Consistent param self) {best : NodeId}
    (hbest : best ∈ self.reachedNodes)
    (hleast : ∀ r ∈ self.reachedNodes, lowerBound param self.heap self.nodeGoal.pose best ≤
        lowerBound param self.heap self.nodeGoal.pose r) :
    best ∈ self.nodes := by
  by_contra hpruned
  obtain ⟨other, hother, _, hlt⟩ := hconsistent.pruned best hbest hpruned
  exact absurd hlt (not_lt.mpr (hleast other hother))

theorem consistent_initial (xStart xGoal : Pose) :
    Consistent param (initial xStart xGoal : RRTStar Pose K) where
  shape := by
    refine ⟨List.nodup_singleton 0, List.mem_singleton_self 0, rfl, ?_, ?_, ?_, ?_⟩
    · intro v hv hne
      exact (hne (List.mem_singleton.mp hv)).elim
    · exact fun _ _ => List.nodup_nil
    · intro p _ c
      simp [initial]
    · intro v hv
      rw [List.mem_singleton.mp hv]
      exact .refl
  costs := by
    refine ⟨rfl, fun _ _ => rfl, ?_⟩
    intro v _ p hp
    cases hp
  nodes_lt := by
    intro v hv
    rw [List.mem_singleton.mp hv]
    exact Nat.one_pos
  reached_lt := fun r hr => by cases hr
  hasCost := fun r hr => by cases hr
  costToGoal := fun r hr => by cases hr
  pruned := fun r hr => by cases hr

/-! ## Extending -/

theorem Consistent.addNewNode (hconsistent : Consistent param self) {pose : Pose}
    {nodeParent : NodeId} (hparent : nodeParent ∈ self.nodes)
    (hvalid : isValidPath param pose (self.heap nodeParent).pose = true) :
    Succeeds (self.addNewNode param pose nodeParent) fun added =>
      Consistent param added ∧ added.nodes = self.nodes ++ [self.created] ∧
        NoWorse param self added := by
  have hnew : self.created ∉ self.nodes := fun hmem =>
    lt_irrefl _ (hconsistent.nodes_lt _ hmem)
  have hnewReached : self.created ∉ self.reachedNodes := fun hmem =>
    lt_irrefl _ (hconsistent.reached_lt _ hmem)
  have hne : nodeParent ≠ self.created := fun heq => hnew (heq ▸ hparent)
  refine (addNewNode_succeeds (hconsistent.costs.hasCost nodeParent hparent) hne).mono ?_
  rintro added ⟨hadded, heq⟩
  generalize added.heap = heap' at hadded heq
  subst heq
  have hold : ∀ r ∈ self.reachedNodes, heap' r = { self.heap r with childs := (heap' r).childs } :=
    fun r hr => hadded.old fun heq => hnewReached (heq ▸ hr)
  have hcostOf : ∀ r ∈ self.reachedNodes, costOf heap' r = costOf self.heap r :=
    fun r hr => hadded.costOf_old fun heq => hnewReached (heq ▸ hr)
  have hlowerBound : ∀ r ∈ self.reachedNodes, lowerBound param heap' self.nodeGoal.pose r =
      lowerBound param self.heap self.nodeGoal.pose r := by
    intro r hr
    unfold lowerBound
    rw [hcostOf r hr, hold r hr]
  refine ⟨⟨hadded.shape hconsistent.shape hparent hnew hvalid,
    hadded.costs hconsistent.shape hconsistent.costs hparent hnew, ?_, ?_, ?_, ?_, ?_⟩,
    rfl, rfl, List.subset_append_left _ _, List.Subset.refl _,
    fun r hr _ => (hlowerBound r hr).le⟩
  · intro v hv
    rcases List.mem_append.mp hv with hmem | hmem
    · exact Nat.lt_succ_of_lt (hconsistent.nodes_lt v hmem)
    · rw [List.mem_singleton.mp hmem]
      exact Nat.lt_succ_self _
  · exact fun r hr => Nat.lt_succ_of_lt (hconsistent.reached_lt r hr)
  · intro r hr
    dsimp only
    rw [hcostOf r hr, hold r hr]
    exact hconsistent.hasCost r hr
  · intro r hr
    dsimp only
    rw [hold r hr]
    exact hconsistent.costToGoal r hr
  · intro r hr hpruned
    obtain ⟨best, hbest, hmem, hlt⟩ := hconsistent.pruned r hr fun hmem =>
      hpruned (List.mem_append_left _ hmem)
    refine ⟨best, hbest, List.mem_append_left _ hmem, ?_⟩
    dsimp only
    rw [hlowerBound r hr, hlowerBound best hbest]
    exact hlt

theorem Consistent.rewire [IsOrderedAddMonoid K] (hconsistent : Consistent param self)
    (hmetric : IsMetric param.cspace.distance) {nodeNew : NodeId} {neighborNodes : List NodeId}
    (hnew : nodeNew ∈ self.nodes) (hneighbors : neighborNodes ⊆ self.nodes) :
    Succeeds (self.rewire param nodeNew neighborNodes) fun rewired =>
      Consistent param rewired ∧ rewired = { self with heap := rewired.heap } ∧
        NoWorse param self rewired := by
  unfold RRTStar.rewire
  refine .bind (getReconnectTargeNode_succeeds hconsistent.costs hnew hneighbors) ?_
  intro reconnect hreconnect
  cases reconnect with
  | none => exact .ok ⟨hconsistent, rfl, .refl self⟩
  | some nodeReconnect =>
    obtain ⟨hneighbor, hvalid, hlower⟩ := hreconnect nodeReconnect rfl
    refine (reconnect_succeeds hmetric hconsistent.shape hconsistent.costs hnew
      (hneighbors hneighbor) hvalid hlower).mono ?_
    rintro after ⟨hmoved, hshape, hcosts⟩
    obtain ⟨heq, hpose, hcostToGoal, hle, helsewhere⟩ := hmoved
    generalize after.heap = heap' at *
    subst heq
    have hlowerBound : ∀ r ∈ self.nodes, lowerBound param heap' self.nodeGoal.pose r ≤
        lowerBound param self.heap self.nodeGoal.pose r := by
      intro r hr
      unfold lowerBound
      rw [hpose]
      exact add_le_add_right (hle r hr) _
    refine ⟨⟨hshape, hcosts, hconsistent.nodes_lt, hconsistent.reached_lt, ?_, ?_, ?_⟩, rfl,
      rfl, List.Subset.refl _, List.Subset.refl _, fun r _ hmem => hlowerBound r hmem⟩
    · intro r hr
      by_cases hmem : r ∈ self.nodes
      · exact hcosts.hasCost r hmem
      · unfold costOf
        dsimp only
        rw [helsewhere r hmem]
        exact hconsistent.hasCost r hr
    · intro r hr
      rw [hcostToGoal, hpose]
      exact hconsistent.costToGoal r hr
    · intro r hr hpruned
      obtain ⟨best, hbest, hmem, hlt⟩ := hconsistent.pruned r hr hpruned
      refine ⟨best, hbest, hmem, (hlowerBound best hmem).trans_lt (hlt.trans_eq ?_)⟩
      unfold lowerBound costOf
      dsimp only
      rw [helsewhere r hpruned]

theorem Consistent.checkReached (hconsistent : Consistent param self) {nodeNew : NodeId}
    (hnew : nodeNew ∈ self.nodes) :
    Consistent param (self.checkReached param nodeNew) ∧
      NoWorse param self (self.checkReached param nodeNew) := by
  unfold RRTStar.checkReached
  by_cases hvalid : isValidPath param self.nodeGoal.pose (self.heap nodeNew).pose = true
  · simp only [hvalid, if_true]
    set heap' := Function.update self.heap nodeNew { self.heap nodeNew with
      costToGoal := some
        (param.cspace.distance (self.heap nodeNew).pose self.nodeGoal.pose) } with hheap
    have hatNew : heap' nodeNew = { self.heap nodeNew with
        costToGoal := some (param.cspace.distance (self.heap nodeNew).pose self.nodeGoal.pose) } :=
      Function.update_self ..
    have hsame : ∀ v, heap' v = { self.heap v with costToGoal := (heap' v).costToGoal } := by
      intro v
      by_cases hv : v = nodeNew
      · rw [hv, hatNew]
      · rw [hheap, Function.update_of_ne hv]
    have hcostOf : ∀ v, costOf heap' v = costOf self.heap v := by
      intro v
      unfold costOf
      rw [hsame v]
    have hlowerBound : ∀ v, lowerBound param heap' self.nodeGoal.pose v =
        lowerBound param self.heap self.nodeGoal.pose v := by
      intro v
      unfold lowerBound
      rw [hcostOf, hsame v]
    have hmem : ∀ {r}, r ∈ self.reachedNodes ++ [nodeNew] →
        r ∈ self.reachedNodes ∨ r = nodeNew := by
      intro r hr
      rwa [List.mem_append, List.mem_singleton] at hr
    refine ⟨⟨hconsistent.shape.congr ?_, ⟨?_, ?_, ?_⟩, hconsistent.nodes_lt, ?_, ?_, ?_, ?_⟩,
      rfl, List.Subset.refl _, List.subset_append_left _ _, fun r _ _ => (hlowerBound r).le⟩
    · intro v
      change heap' v = { self.heap v with
        costFromStart := (heap' v).costFromStart, costToGoal := (heap' v).costToGoal }
      rw [hsame v]
    · change (heap' self.nodeStart).costFromStart = some 0
      rw [hsame]
      exact hconsistent.costs.root
    · intro v hv
      change (heap' v).costFromStart = some (costOf heap' v)
      rw [hcostOf, hsame]
      exact hconsistent.costs.hasCost v hv
    · intro v hv p hp
      change (heap' v).parent = some p at hp
      change costOf heap' v = costOf heap' p + param.cspace.distance (heap' v).pose (heap' p).pose
      rw [hsame] at hp
      rw [hcostOf, hcostOf, hsame v, hsame p]
      exact hconsistent.costs.edge v hv p hp
    · intro r hr
      rcases hmem hr with hold | rfl
      · exact hconsistent.reached_lt r hold
      · exact hconsistent.nodes_lt r hnew
    · intro r hr
      change (heap' r).costFromStart = some (costOf heap' r)
      rw [hcostOf, hsame]
      rcases hmem hr with hold | rfl
      · exact hconsistent.hasCost r hold
      · exact hconsistent.costs.hasCost r hnew
    · intro r hr
      change (heap' r).costToGoal = some (param.cspace.distance (heap' r).pose self.nodeGoal.pose)
      by_cases hr' : r = nodeNew
      · rw [hr', hatNew]
      · rw [hheap, Function.update_of_ne hr']
        exact hconsistent.costToGoal r ((hmem hr).resolve_right hr')
    · intro r hr hpruned
      have hold : r ∈ self.reachedNodes := (hmem hr).resolve_right fun heq => hpruned (heq ▸ hnew)
      obtain ⟨best, hbest, hbestMem, hlt⟩ := hconsistent.pruned r hold hpruned
      refine ⟨best, List.mem_append_left _ hbest, hbestMem, ?_⟩
      change lowerBound param heap' self.nodeGoal.pose best <
        lowerBound param heap' self.nodeGoal.pose r
      rwa [hlowerBound, hlowerBound]
  · simp only [hvalid]
    exact ⟨hconsistent, .refl self⟩

theorem Consistent.findBestReachedNode (hconsistent : Consistent param self)
    (hfound : self.isSolutionFound = true) :
    Succeeds self.findBestReachedNode fun found => ∃ best ∈ self.reachedNodes,
      found = (some (lowerBound param self.heap self.nodeGoal.pose best), some best) ∧
        ∀ r ∈ self.reachedNodes, lowerBound param self.heap self.nodeGoal.pose best ≤
          lowerBound param self.heap self.nodeGoal.pose r := by
  have hne : self.reachedNodes ≠ [] := by
    intro hnil
    rw [isSolutionFound, hnil] at hfound
    cases hfound
  unfold RRTStar.findBestReachedNode
  -- the best of the nodes before the remaining ones
  refine (Succeeds.foldlM (fun remaining found => ∃ before,
    self.reachedNodes = before ++ remaining ∧ (before = [] ∧ found = (none, none) ∨ ∃ best ∈ before,
        found = (some (lowerBound param self.heap self.nodeGoal.pose best), some best) ∧
        ∀ r ∈ before, lowerBound param self.heap self.nodeGoal.pose best ≤
          lowerBound param self.heap self.nodeGoal.pose r))
    ?_ ⟨[], rfl, .inl ⟨rfl, rfl⟩⟩).mono ?_
  · rintro node rest found ⟨before, hsplit, hbefore⟩
    have hnode : node ∈ self.reachedNodes := by
      rw [hsplit]
      exact List.mem_append_right before List.mem_cons_self
    have hsplit' : self.reachedNodes = (before ++ [node]) ++ rest := by
      rw [hsplit, List.append_assoc]
      rfl
    have hlast : node ∈ before ++ [node] := List.mem_append_right before List.mem_cons_self
    have hcost : costOf self.heap node +
        param.cspace.distance (self.heap node).pose self.nodeGoal.pose =
          lowerBound param self.heap self.nodeGoal.pose node := add_comm _ _
    refine .bind_eq (value_of (hconsistent.hasCost node hnode)) ?_
    refine .bind_eq (value_of (hconsistent.costToGoal node hnode)) ?_
    rw [hcost]
    rcases hbefore with ⟨rfl, rfl⟩ | ⟨best, hbest, rfl, hleast⟩
    · refine .ok ⟨[node], hsplit', .inr ⟨node, hlast, rfl, fun r hr => ?_⟩⟩
      rw [List.mem_singleton.mp hr]
    · by_cases hbetter : lowerBound param self.heap self.nodeGoal.pose node <
          lowerBound param self.heap self.nodeGoal.pose best
      · rw [if_pos (below_some.mpr hbetter)]
        refine .ok ⟨before ++ [node], hsplit', .inr ⟨node, hlast, rfl, fun r hr => ?_⟩⟩
        rcases List.mem_append.mp hr with hold | hnew
        · exact hbetter.le.trans (hleast r hold)
        · rw [List.mem_singleton.mp hnew]
      · rw [if_neg (below_some.not.mpr hbetter)]
        refine .ok ⟨before ++ [node], hsplit',
          .inr ⟨best, List.mem_append_left _ hbest, rfl, fun r hr => ?_⟩⟩
        rcases List.mem_append.mp hr with hold | hnew
        · exact hleast r hold
        · rw [List.mem_singleton.mp hnew]
          exact not_lt.mp hbetter
  · rintro found ⟨before, hsplit, hbefore⟩
    rw [List.append_nil] at hsplit
    subst hsplit
    exact hbefore.resolve_left fun hnil => hne hnil.1

theorem Consistent.updateGoal (hconsistent : Consistent param self)
    (hfound : self.isSolutionFound = true) :
    Succeeds self.updateGoal fun updated =>
      Consistent param updated ∧ IsUpdated param updated ∧ IsLinked param updated ∧
        NoWorse param self updated := by
  unfold RRTStar.updateGoal
  refine .bind (hconsistent.findBestReachedNode hfound) ?_
  rintro found ⟨best, hbest, rfl, hleast⟩
  exact .ok ⟨⟨hconsistent.shape, hconsistent.costs, hconsistent.nodes_lt,
    hconsistent.reached_lt, hconsistent.hasCost, hconsistent.costToGoal, hconsistent.pruned⟩,
    fun _ => ⟨best, hbest, rfl, hleast⟩, fun _ => ⟨best, hbest, rfl, rfl⟩,
    ⟨rfl, List.Subset.refl _, List.Subset.refl _, fun _ _ _ => le_rfl⟩⟩

theorem extend_succeeds [IsOrderedAddMonoid K] (hmetric : IsMetric param.cspace.distance)
    (hconsistent : Consistent param self) (hupdated : IsUpdated param self)
    (hlinked : IsLinked param self) (xRand : Pose) :
    Succeeds (self.extend param xRand) fun after =>
      Consistent param after ∧ IsUpdated param after ∧ IsLinked param after ∧
        NoWorse param self after := by
  have hnodes : self.nodes ≠ [] := List.ne_nil_of_mem hconsistent.shape.start_mem
  obtain ⟨nodeNearest, hnearest, hfind⟩ := findNearestNode_mem param xRand hnodes
  unfold extend
  rw [hfind]
  dsimp only
  by_cases hvalid : isValidPath param
      (param.cspace.interpolateChild2Parent (self.heap nodeNearest).pose xRand param.mu)
      (self.heap nodeNearest).pose = true
  · rw [if_pos hvalid]
    refine .bind (getBestParentNode_succeeds hconsistent.costs hnearest
      findNeighborNodes_subset hvalid) ?_
    rintro nodeBestParent ⟨hbestParent, hvalid'⟩
    refine .bind (hconsistent.addNewNode hbestParent hvalid') ?_
    rintro added ⟨hadded, hnodes', haddedNoWorse⟩
    have hnew : self.created ∈ added.nodes := by
      rw [hnodes']
      exact List.mem_append_right _ List.mem_cons_self
    have hneighbors : self.findNeighborNodes param
        (param.cspace.interpolateChild2Parent (self.heap nodeNearest).pose xRand param.mu) ⊆
          added.nodes := by
      rw [hnodes']
      exact List.Subset.trans findNeighborNodes_subset (List.subset_append_left _ _)
    refine .bind (hadded.rewire hmetric hnew hneighbors) ?_
    rintro rewired ⟨hrewired, heq, hrewiredNoWorse⟩
    have hnew' : self.created ∈ rewired.nodes := by
      rw [heq]
      exact hnew
    obtain ⟨hchecked, hcheckedNoWorse⟩ := hrewired.checkReached hnew'
    have hnoWorse := (haddedNoWorse.trans hrewiredNoWorse).trans hcheckedNoWorse
    by_cases hfound : (rewired.checkReached param self.created).isSolutionFound = true
    · rw [if_pos hfound]
      refine (hchecked.updateGoal hfound).mono fun after hafter => ?_
      exact ⟨hafter.1, hafter.2.1, hafter.2.2.1, hnoWorse.trans hafter.2.2.2⟩
    · rw [if_neg hfound]
      have hnone : (rewired.checkReached param self.created).reachedNodes = [] := by
        rwa [isSolutionFound, Bool.not_eq_true', List.isEmpty_eq_false_iff, not_not] at hfound
      exact .ok ⟨hchecked, fun hreached => (hreached hnone).elim,
        fun hreached => (hreached hnone).elim, hnoWorse⟩
  · rw [if_neg hvalid]
    exact .ok ⟨hconsistent, hupdated, hlinked, .refl self⟩

/-- The nodes above one that reaches the goal at the cost of the goal are kept. -/
def KeepsBest (param : Param Pose K) (before after : RRTStar Pose K) : Prop :=
  ∀ best ∈ before.nodes, before.nodeGoal.costFromStart =
      some (lowerBound param before.heap before.nodeGoal.pose best) →
    ∀ above, Reaches (parentOf before.heap) best above → above ∈ after.nodes

theorem prune_succeeds [IsOrderedAddMonoid K] (hmetric : IsMetric param.cspace.distance)
    (hconsistent : Consistent param self) (hupdated : IsUpdated param self)
    (hlinked : IsLinked param self) :
    Succeeds (self.deleteNodeUsingBranchAndBound param) fun after =>
      Consistent param after ∧ IsUpdated param after ∧ IsLinked param after ∧
        after.nodeGoal = self.nodeGoal ∧ after.reachedNodes = self.reachedNodes ∧
        KeepsBest param self after := by
  by_cases hfound : self.isSolutionFound = true
  · have hreached : self.reachedNodes ≠ [] := by
      intro hnil
      rw [isSolutionFound, hnil] at hfound
      cases hfound
    obtain ⟨best, hbest, hgoal, hleast⟩ := hupdated hreached
    have hbestMem := hconsistent.best_mem hbest hleast
    have hbounded : Bounded param self (lowerBound param self.heap self.nodeGoal.pose best) :=
      ⟨hmetric, hconsistent.shape, hconsistent.costs, hgoal, best, hbestMem, le_rfl⟩
    refine (deleteNodeUsingBranchAndBound_succeeds hbounded hfound).mono ?_
    rintro after ⟨⟨heq, hsame, hmem, hsubset⟩, hshape, hcosts⟩
    generalize after.heap = heap' at *
    generalize after.nodes = nodes' at *
    subst heq
    have hcostOf : ∀ v, costOf heap' v = costOf self.heap v := by
      intro v
      unfold costOf
      rw [hsame v]
    have hlowerBound : ∀ v, lowerBound param heap' self.nodeGoal.pose v =
        lowerBound param self.heap self.nodeGoal.pose v := by
      intro v
      unfold lowerBound
      rw [hcostOf, hsame v]
    have hbestKept : best ∈ nodes' := (hmem best hbestMem).resolve_right (lt_irrefl _)
    refine ⟨⟨hshape, hcosts, ?_, hconsistent.reached_lt, ?_, ?_, ?_⟩, ?_, ?_, rfl, rfl, ?_⟩
    · exact fun v hv => hconsistent.nodes_lt v (hsubset hv)
    · intro r hr
      change (heap' r).costFromStart = some (costOf heap' r)
      rw [hcostOf, hsame r]
      exact hconsistent.hasCost r hr
    · intro r hr
      change (heap' r).costToGoal = some (param.cspace.distance (heap' r).pose self.nodeGoal.pose)
      rw [hsame r]
      exact hconsistent.costToGoal r hr
    · intro r hr hpruned
      refine ⟨best, hbest, hbestKept, ?_⟩
      change lowerBound param heap' self.nodeGoal.pose best <
        lowerBound param heap' self.nodeGoal.pose r
      rw [hlowerBound, hlowerBound]
      by_cases hold : r ∈ self.nodes
      · exact (hmem r hold).resolve_left hpruned
      · obtain ⟨other, hother, _, hlt⟩ := hconsistent.pruned r hr hold
        exact (hleast other hother).trans_lt hlt
    · intro _
      refine ⟨best, hbest, ?_, fun r hr => ?_⟩
      · change self.nodeGoal.costFromStart = some (lowerBound param heap' self.nodeGoal.pose best)
        rw [hlowerBound]
        exact hgoal
      · change lowerBound param heap' self.nodeGoal.pose best ≤
          lowerBound param heap' self.nodeGoal.pose r
        rw [hlowerBound, hlowerBound]
        exact hleast r hr
    · intro _
      obtain ⟨linked, hreachedLinked, hparent, hcost⟩ := hlinked hreached
      refine ⟨linked, hreachedLinked, hparent, ?_⟩
      change self.nodeGoal.costFromStart = some (lowerBound param heap' self.nodeGoal.pose linked)
      rw [hlowerBound]
      exact hcost
    · intro linked hlinkedMem hcost above habove
      have hle := hconsistent.costs.lowerBound hconsistent.shape hmetric self.nodeGoal.pose
        hlinkedMem habove
      have hbound := Option.some.inj (hgoal.symm.trans hcost)
      refine (hmem above (hconsistent.shape.reached_mem hlinkedMem habove)).resolve_right ?_
      rw [hbound]
      exact not_lt.mpr hle
  · unfold deleteNodeUsingBranchAndBound
    rw [if_neg hfound]
    exact .ok ⟨hconsistent, hupdated, hlinked, rfl, rfl,
      fun best hbest _ above habove => hconsistent.shape.reached_mem hbest habove⟩

end

/-! ## Runs -/

variable [AddCommGroup K]

structure IsSound (param : Param Pose K) (planner : RRTStar Pose K) : Prop where
  consistent : Consistent param planner
  updated : IsUpdated param planner
  linked : IsLinked param planner

theorem isSound_initial (xStart xGoal : Pose) :
    IsSound param (initial xStart xGoal : RRTStar Pose K) :=
  ⟨consistent_initial xStart xGoal, fun hreached => (hreached rfl).elim,
    fun hreached => (hreached rfl).elim⟩

/-- The cost of a solution that was found does not rise. -/
def CostLe (before after : RRTStar Pose K) : Prop :=
  before.reachedNodes ≠ [] → after.reachedNodes ≠ [] ∧
    ∀ cost, before.nodeGoal.costFromStart = some cost →
      ∃ cost' ≤ cost, after.nodeGoal.costFromStart = some cost'

section
omit [AddCommGroup K]

theorem CostLe.refl (planner : RRTStar Pose K) : CostLe planner planner :=
  fun hreached => ⟨hreached, fun cost hcost => ⟨cost, le_rfl, hcost⟩⟩

theorem CostLe.trans {first second third : RRTStar Pose K} (hfirst : CostLe first second)
    (hsecond : CostLe second third) : CostLe first third := by
  intro hreached
  obtain ⟨hreached', hle⟩ := hfirst hreached
  obtain ⟨hreached'', hle'⟩ := hsecond hreached'
  refine ⟨hreached'', fun cost hcost => ?_⟩
  obtain ⟨middle, hmiddle, hcost'⟩ := hle cost hcost
  obtain ⟨last, hlast, hcost''⟩ := hle' middle hcost'
  exact ⟨last, hlast.trans hmiddle, hcost''⟩

end

theorem NoWorse.costLe {after : RRTStar Pose K} (hnoWorse : NoWorse param self after)
    (hconsistent : Consistent param self) (hupdated : IsUpdated param self)
    (hupdated' : IsUpdated param after) : CostLe self after := by
  intro hreached
  obtain ⟨best, hbest, hcost, hleast⟩ := hupdated hreached
  have hbest' : best ∈ after.reachedNodes := hnoWorse.reached hbest
  have hreached' : after.reachedNodes ≠ [] := List.ne_nil_of_mem hbest'
  obtain ⟨other, _, hcost', hleast'⟩ := hupdated' hreached'
  refine ⟨hreached', fun cost hsome => ⟨_, ?_, hcost'⟩⟩
  rw [hcost] at hsome
  cases hsome
  calc lowerBound param after.heap after.nodeGoal.pose other
      ≤ lowerBound param after.heap after.nodeGoal.pose best := hleast' best hbest'
    _ ≤ lowerBound param self.heap self.nodeGoal.pose best := by
        rw [hnoWorse.goal]
        exact hnoWorse.le best hbest (hconsistent.best_mem hbest hleast)

/-- One operation keeps the invariant, and the cost of the solution does not rise. -/
theorem perform_succeeds [IsOrderedAddMonoid K] (hmetric : IsMetric param.cspace.distance)
    (hsound : IsSound param self) (operation : Operation Pose) :
    Succeeds (self.perform param operation) fun after =>
      IsSound param after ∧ CostLe self after := by
  obtain ⟨hconsistent, hupdated, hlinked⟩ := hsound
  cases operation with
  | extend xRand =>
    refine (extend_succeeds hmetric hconsistent hupdated hlinked xRand).mono ?_
    rintro after ⟨hconsistent', hupdated', hlinked', hnoWorse⟩
    exact ⟨⟨hconsistent', hupdated', hlinked'⟩, hnoWorse.costLe hconsistent hupdated hupdated'⟩
  | deleteNodeUsingBranchAndBound =>
    refine (prune_succeeds hmetric hconsistent hupdated hlinked).mono ?_
    rintro after ⟨hconsistent', hupdated', hlinked', hgoal, hreached, _⟩
    refine ⟨⟨hconsistent', hupdated', hlinked'⟩, fun hfound => ⟨hreached.symm ▸ hfound, ?_⟩⟩
    intro cost hcost
    exact ⟨cost, le_rfl, hgoal.symm ▸ hcost⟩

theorem performAll_succeeds [IsOrderedAddMonoid K] (hmetric : IsMetric param.cspace.distance)
    (operations : List (Operation Pose)) (hsound : IsSound param self) :
    Succeeds (self.performAll param operations) fun after =>
      IsSound param after ∧ CostLe self after := by
  unfold performAll
  refine Succeeds.foldlM (fun _ state => IsSound param state ∧ CostLe self state) ?_
    ⟨hsound, .refl self⟩
  rintro operation _ state ⟨hstate, hcost⟩
  refine (perform_succeeds hmetric hstate operation).mono fun after hafter => ?_
  exact ⟨hafter.1, hcost.trans hafter.2⟩

/-- The nodes are a tree with its root at the start, and the costs and the checks of
its edges are those of the paths. -/
structure IsTree (param : Param Pose K) (planner : RRTStar Pose K) : Prop where
  start_mem : planner.nodeStart ∈ planner.nodes
  root : (planner.heap planner.nodeStart).parent = none ∧
    (planner.heap planner.nodeStart).costFromStart = some 0
  parent : ∀ v ∈ planner.nodes, v ≠ planner.nodeStart → ∃ p ∈ planner.nodes,
    (planner.heap v).parent = some p ∧ (planner.heap p).childs.count v = 1
  costFromStart : ∀ v ∈ planner.nodes, ∀ p, (planner.heap v).parent = some p →
    ∃ costParent costToParent, (planner.heap p).costFromStart = some costParent ∧
      (planner.heap v).costToParent = some costToParent ∧
      (planner.heap v).costFromStart = some (costParent + costToParent)
  valid : ∀ v ∈ planner.nodes, ∀ p, (planner.heap v).parent = some p →
    isValidPath param (planner.heap v).pose (planner.heap p).pose = true
  acyclic : ∀ v ∈ planner.nodes, ¬TransGen (IsParent (parentOf planner.heap)) v v
  reaches : ∀ v ∈ planner.nodes, Reaches (parentOf planner.heap) v planner.nodeStart

theorem Consistent.isTree (hconsistent : Consistent param self) : IsTree param self where
  start_mem := hconsistent.shape.start_mem
  root := ⟨hconsistent.shape.root, hconsistent.costs.root⟩
  parent := by
    intro v hv hne
    obtain ⟨p, hp, hedge⟩ := hconsistent.shape.edge v hv hne
    exact ⟨p, hp, hedge.parent, hconsistent.shape.count_childs hv hedge.parent⟩
  costFromStart := by
    intro v hv p hparent
    obtain ⟨hp, hedge⟩ := hconsistent.shape.parent_mem hv hparent
    refine ⟨_, _, hconsistent.costs.hasCost p hp, hedge.costToParent, ?_⟩
    rw [hconsistent.costs.hasCost v hv, hconsistent.costs.edge v hv p hparent]
  valid := by
    intro v hv p hparent
    exact (hconsistent.shape.parent_mem hv hparent).2.valid
  acyclic := fun v hv => hconsistent.shape.not_cycle hv
  reaches := hconsistent.shape.reaches

/-- After every sequence of extensions and prunings the nodes are a tree, and no
operation of the sequence fails. -/
theorem isTree_of_performAll [IsOrderedAddMonoid K] (param : Param Pose K)
    (hmetric : IsMetric param.cspace.distance) (xStart xGoal : Pose)
    (operations : List (Operation Pose)) :
    ∃ planner, (initial xStart xGoal : RRTStar Pose K).performAll param operations = .ok planner ∧
      IsTree param planner := by
  obtain ⟨planner, hplanner, hsound, _⟩ :=
    performAll_succeeds hmetric operations (isSound_initial xStart xGoal)
  exact ⟨planner, hplanner, hsound.consistent.isTree⟩

/-- Positions on a line, between which every path is free. -/
def line : Param ℚ ℚ where
  mu := 2
  collisionCheckResolution := 1
  cspace :=
    { distance := fun x y => |x - y|
      distanceLowerBound := fun x y => |x - y|
      interpolateChild2Parent := fun parent child step =>
        max (parent - step) (min (parent + step) child)
      isValidPathChild2Parent := fun _ _ _ => true }

theorem isMetric_line : IsMetric line.cspace.distance where
  nonneg := fun x y => abs_nonneg (x - y)
  symm := abs_sub_comm
  triangle := abs_sub_le

theorem isTree_line : ∃ planner, (initial 0 3 : RRTStar ℚ ℚ).performAll line
      [.extend 2, .extend (-5), .extend 4, .deleteNodeUsingBranchAndBound] = .ok planner ∧
    IsTree line planner :=
  isTree_of_performAll line isMetric_line 0 3 _

end

/-! ## The solution of the RRT* planner -/

variable {Pose K : Type}

def ownedOver (heap : NodeId → Node Pose K) : ℕ → List NodeId → List NodeId
  | 0, owned => owned
  | generations + 1, owned =>
    ownedOver heap generations (owned ++ owned.flatMap fun node => (heap node).childs)

variable (self : RRTStar Pose K)

def owned : List NodeId :=
  ownedOver self.heap self.created (self.nodeStart :: (self.nodes ++ self.reachedNodes))

/-- `parent.lock()`. -/
def lock (parent : Option NodeId) : Option NodeId :=
  parent.filter fun node => node ∈ self.owned

def getSolutionCost : Except Failure K :=
  value self.nodeGoal.costFromStart

section

variable (param : Param Pose K) (sampleWayPointsChild2Parent : Pose → Pose → K → List Pose)

def sampleLoop (self : RRTStar Pose K) : ℕ → Node Pose K → List Pose → Except Failure (List Pose)
  | iterations, node, poses =>
    match self.lock node.parent with
    | none => return poses
    | some nodeParent =>
      match iterations with
      | 0 => throw .diverges
      | iterations + 1 =>
        let parent := self.heap nodeParent
        sampleLoop self iterations parent (poses ++ sampleWayPointsChild2Parent node.pose
          parent.pose param.collisionCheckResolution)

def sampleSolutionWaypoints (self : RRTStar Pose K) : Except Failure (List Pose) := do
  let poses ← self.sampleLoop param sampleWayPointsChild2Parent self.nodes.length self.nodeGoal []
  return (poses ++ [(self.heap self.nodeStart).pose]).reverse

end

theorem subset_ownedOver (heap : NodeId → Node Pose K) (generations : ℕ) (owned : List NodeId) :
    owned ⊆ ownedOver heap generations owned := by
  induction generations generalizing owned with
  | zero => exact List.Subset.refl _
  | succ generations ih => exact List.Subset.trans (List.subset_append_left _ _) (ih _)

/-- A pointer to a node of the planner is alive. -/
theorem lock_of_mem {self : RRTStar Pose K} {node : NodeId} (hnode : node ∈ self.nodes) :
    self.lock (some node) = some node := by
  have howned : node ∈ self.owned :=
    subset_ownedOver _ _ _ (List.mem_cons_of_mem _ (List.mem_append_left _ hnode))
  rw [lock, Option.filter_some, if_pos (decide_eq_true howned)]

def pathLength [Zero K] [Add K] (distance : Pose → Pose → K) : List Pose → K
  | child :: parent :: poses => distance child parent + pathLength distance (parent :: poses)
  | _ => 0

def waypoints (sample : Pose → Pose → List Pose) : List Pose → List Pose
  | child :: parent :: poses => sample child parent ++ waypoints sample (parent :: poses)
  | _ => []

def liveParent (planner : RRTStar Pose K) (node : NodeId) : Option NodeId :=
  planner.lock (planner.heap node).parent

def posesFromGoal (planner : RRTStar Pose K) (path : List NodeId) : List Pose :=
  planner.nodeGoal.pose :: path.map fun node => (planner.heap node).pose

structure IsSolutionPath (planner : RRTStar Pose K) (path : List NodeId) : Prop where
  linked : planner.lock planner.nodeGoal.parent = path.head?
  followed : PathTo (liveParent planner) planner.nodeStart path
  root : liveParent planner planner.nodeStart = none
  held : path ⊆ planner.nodes

section

variable (param : Param Pose K) (sample : Pose → Pose → K → List Pose) {self : RRTStar Pose K}
  {node : Node Pose K}

theorem sampleLoop_none (hparent : self.lock node.parent = none)
    (iterations : ℕ) (poses : List Pose) :
    self.sampleLoop param sample iterations node poses = .ok poses := by
  unfold sampleLoop
  rw [hparent]
  rfl

theorem sampleLoop_some {nodeParent : NodeId}
    (hparent : self.lock node.parent = some nodeParent) (iterations : ℕ) (poses : List Pose) :
    self.sampleLoop param sample (iterations + 1) node poses =
      self.sampleLoop param sample iterations (self.heap nodeParent)
        (poses ++ sample node.pose (self.heap nodeParent).pose param.collisionCheckResolution) := by
  rw [sampleLoop.eq_def]
  simp only [hparent]

theorem sampleLoop_eq (hroot : liveParent self self.nodeStart = none) {path : List NodeId}
    (hpath : PathTo (liveParent self) self.nodeStart path) {iterations : ℕ}
    (hlinked : self.lock node.parent = path.head?) (hlength : path.length ≤ iterations)
    (poses : List Pose) :
    self.sampleLoop param sample iterations node poses =
      .ok (poses ++ waypoints (fun child parent => sample child parent param.collisionCheckResolution)
        (node.pose :: path.map fun node => (self.heap node).pose)) := by
  induction hpath generalizing iterations node poses with
  | root =>
    cases iterations with
    | zero => exact absurd hlength (Nat.not_succ_le_zero _)
    | succ iterations =>
      rw [sampleLoop_some param sample hlinked, sampleLoop_none param sample hroot]
      simp [waypoints]
  | @step vertex above path hparent hrest ih =>
    cases iterations with
    | zero => exact absurd hlength (Nat.not_succ_le_zero _)
    | succ iterations =>
      rw [sampleLoop_some param sample hlinked,
        ih hparent (Nat.le_of_succ_le_succ hlength), List.append_assoc]
      rfl

end

/-! ## Solutions -/

variable [AddCommGroup K] [LinearOrder K] {param : Param Pose K} {self : RRTStar Pose K}

omit [LinearOrder K] in
theorem Costs.pathLength_eq {heap : NodeId → Node Pose K} {start : NodeId} {nodes : List NodeId}
    (hcosts : Costs param heap start nodes) {path : List NodeId}
    (hpath : PathTo (parentOf heap) start path) (hheld : path ⊆ nodes) {node : NodeId}
    (hnode : path.head? = some node) :
    pathLength param.cspace.distance (path.map fun node => (heap node).pose) =
      costOf heap node := by
  induction hpath generalizing node with
  | root =>
    cases hnode
    rw [costOf, hcosts.root]
    rfl
  | @step vertex above path hparent hrest ih =>
    cases hnode
    have hvertex : vertex ∈ nodes := hheld List.mem_cons_self
    rw [hcosts.edge vertex hvertex above hparent,
      ← ih (List.Subset.trans (List.subset_cons_self _ _) hheld) rfl, add_comm]
    rfl

/-- The goal is linked to a node of the tree, over which it has its cost. -/
theorem IsSound.best (hsound : IsSound param self) (hreached : self.reachedNodes ≠ []) :
    ∃ best ∈ self.nodes, self.nodeGoal.parent = some best ∧
      self.nodeGoal.costFromStart = some (lowerBound param self.heap self.nodeGoal.pose best) := by
  obtain ⟨best, hbest, hparent, hcost⟩ := hsound.linked hreached
  obtain ⟨least, _, hcost', hleast⟩ := hsound.updated hreached
  refine ⟨best, hsound.consistent.best_mem hbest fun r hr => ?_, hparent, hcost⟩
  rw [hcost] at hcost'
  rw [Option.some.inj hcost']
  exact hleast r hr

omit [AddCommGroup K] [LinearOrder K] in
theorem Shape.exists_path {heap : NodeId → Node Pose K} {start : NodeId} {nodes : List NodeId}
    (hshape : Shape param heap start nodes) {best : NodeId} (hbest : best ∈ nodes) :
    ∃ path, path.head? = some best ∧ PathTo (parentOf heap) start path ∧ path ⊆ nodes ∧
      path.length ≤ nodes.length := by
  obtain ⟨path, hpath⟩ := (hshape.reaches best hbest).exists_path
  have hheld : best :: path ⊆ nodes := fun above habove =>
    hshape.reached_mem hbest (hpath.reaches best rfl above habove)
  have hnodup : (best :: path).Nodup := hpath.nodup hshape.root
  exact ⟨best :: path, rfl, hpath, hheld, (hnodup.subperm hheld).length_le⟩

structure HasSolution (param : Param Pose K) (sample : Pose → Pose → K → List Pose)
    (planner : RRTStar Pose K) (cost : K) (path : List NodeId) : Prop where
  getSolutionCost : planner.getSolutionCost = .ok cost
  followed : IsSolutionPath planner path
  length : pathLength param.cspace.distance (posesFromGoal planner path) = cost
  sampled : planner.sampleSolutionWaypoints param sample = .ok
    ((waypoints (fun child parent => sample child parent param.collisionCheckResolution)
      (posesFromGoal planner path) ++ [(planner.heap planner.nodeStart).pose]).reverse)
  kept : ∃ pruned, planner.deleteNodeUsingBranchAndBound param = .ok pruned ∧ path ⊆ pruned.nodes

theorem IsSound.hasSolution [IsOrderedAddMonoid K] (hsound : IsSound param self)
    (hmetric : IsMetric param.cspace.distance) (hreached : self.reachedNodes ≠ [])
    (sample : Pose → Pose → K → List Pose) : ∃ cost path, HasSolution param sample self cost path := by
  obtain ⟨hconsistent, hupdated, hlinked⟩ := hsound
  obtain ⟨best, hbest, hparent, hcost⟩ := IsSound.best ⟨hconsistent, hupdated, hlinked⟩ hreached
  obtain ⟨path, hhead, hpath, hheld, hlength⟩ := hconsistent.shape.exists_path hbest
  have hlive : ∀ node ∈ path, liveParent self node = parentOf self.heap node := by
    intro node hnode
    unfold liveParent parentOf
    cases hnodeParent : (self.heap node).parent with
    | none => rfl
    | some above =>
      exact lock_of_mem (hconsistent.shape.parent_mem (hheld hnode) hnodeParent).1
  have hroot : liveParent self self.nodeStart = none := by
    unfold liveParent
    rw [hconsistent.shape.root]
    rfl
  have hgoal : self.lock self.nodeGoal.parent = path.head? := by
    rw [hparent, hhead, lock_of_mem hbest]
  have hfollowed := hpath.congr hlive
  refine ⟨_, path, value_of hcost, ⟨hgoal, hfollowed, hroot, hheld⟩, ?_, ?_, ?_⟩
  · have hnodes := hconsistent.costs.pathLength_eq hpath hheld hhead
    unfold posesFromGoal lowerBound
    cases path with
    | nil => cases hhead
    | cons first path =>
      cases hhead
      rw [← hnodes, hmetric.symm (self.heap best).pose]
      rfl
  · unfold sampleSolutionWaypoints
    rw [sampleLoop_eq param sample hroot hfollowed hgoal hlength]
    rfl
  · obtain ⟨pruned, hpruned, _, _, _, _, _, hkeeps⟩ :=
      prune_succeeds hmetric hconsistent hupdated hlinked
    refine ⟨pruned, hpruned, fun above habove => ?_⟩
    exact hkeeps best hbest hcost above (hpath.reaches best hhead above habove)

omit [AddCommGroup K] [LinearOrder K] in
theorem getSolutionCost_eq_ok {cost : K} :
    self.getSolutionCost = .ok cost ↔ self.nodeGoal.costFromStart = some cost := by
  rw [getSolutionCost, value.eq_def]
  cases self.nodeGoal.costFromStart with
  | none => exact iff_of_false (fun herror => by cases herror) fun hnone => by cases hnone
  | some content =>
    constructor
    · rintro ⟨⟩
      rfl
    · rintro ⟨⟩
      rfl

end AutowareUniverse.Planning.RRTStar
