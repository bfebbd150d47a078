import AutowareUniverse.Library.RootedTree
import AutowareUniverse.Library.Runs
import AutowareUniverse.Planning.FreespaceFootprint

/-!
# A* search of freespace planning

Nodes are kept under keys that are packed from the cells of a costmap.  The search expands a
node of least cost, and a cell without a node gets one when a transition first reaches it.
-/

namespace AutowareUniverse.Planning.Freespace

open Library.Runs Library.SinglePrecision

inductive NodeStatus where
  | None
  | Open
  | Closed
  deriving DecidableEq

/-- The parent is given by its key. -/
structure AstarNode (K : Type) where
  status : NodeStatus
  x : K
  y : K
  theta : K
  gc : K
  hc : K
  isBack : Bool
  parent : Option ℤ

structure NodeUpdate (K : Type) where
  shiftX : K
  shiftY : K
  shiftTheta : K
  distance : K
  isCurve : Bool
  isBack : Bool
  deriving DecidableEq

structure AstarParam (K : Type) where
  onlyBehindSolutions : Bool
  useBack : Bool
  distanceHeuristicWeight : K

/-- The parameters of `PlannerCommonParam` that only a search depends on. -/
structure SearchParam (K : Type) where
  minimumTurningRadius : K
  maximumTurningRadius : K
  turningRadiusSize : ℕ
  reverseWeight : K
  lateralGoalRange : K
  longitudinalGoalRange : K
  angleGoalRange : K

structure PlannerWaypoint (K : Type) where
  pose : Pose K
  isBack : Bool

structure Nodes (K : Type) where
  graph : ℤ → AstarNode K
  openlist : List ℤ

structure AstarSearch (K G : Type) where
  planner : AbstractPlanningAlgorithm K G
  searchParam : SearchParam K
  astarParam : AstarParam K
  transitionTable : List (List (NodeUpdate K))
  nodes : Nodes K
  startPose : Pose K
  goalPose : Pose K
  xScale : ℤ
  yScale : ℤ
  waypoints : List (PlannerWaypoint K)

/-- The functions on poses that the search uses, where the first argument of a distance is the
turning radius. -/
structure Geometry (K G : Type) [Zero K] [LT K] where
  angles : Angles K
  frames : Frames K G
  calcRelativePose : Pose K → Pose K → Pose K
  calcReedsSheppDistance : K → Pose K → Pose K → K

variable {K G : Type} [Field K] [LinearOrder K] [FloorRing K]

section

variable (angles : Angles K)

def NodeUpdate.rotated (update : NodeUpdate K) (theta : K) : NodeUpdate K :=
  { update with
    shiftX := angles.cos theta * update.shiftX - angles.sin theta * update.shiftY
    shiftY := angles.sin theta * update.shiftX + angles.cos theta * update.shiftY }

omit [LinearOrder K] [FloorRing K] in
def NodeUpdate.flipped (update : NodeUpdate K) : NodeUpdate K :=
  { update with
    shiftY := -update.shiftY
    shiftTheta := -update.shiftTheta }

omit [LinearOrder K] [FloorRing K] in
def NodeUpdate.reversed (update : NodeUpdate K) : NodeUpdate K :=
  { update with
    shiftX := -update.shiftX
    shiftTheta := -update.shiftTheta
    isBack := !update.isBack }

/-- The moves forward: straight ahead, and to both sides with every turning radius. -/
def forwardNodeCandidates (param : SearchParam K) (thetaSize : ℕ) : List (NodeUpdate K) :=
  let dtheta := 2 * angles.pi / thetaSize
  let stepMin := param.minimumTurningRadius * dtheta
  let dR := (param.maximumTurningRadius - param.minimumTurningRadius) /
    (max (param.turningRadiusSize - 1) 1 : ℕ)
  ⟨stepMin, 0, 0, stepMin, false, false⟩ ::
    (List.range param.turningRadiusSize).flatMap fun i =>
      let radius := param.minimumTurningRadius + i * dR
      let forwardLeft : NodeUpdate K :=
        ⟨radius * angles.sin dtheta, radius * (1 - angles.cos dtheta), dtheta, radius * dtheta,
          true, false⟩
      [forwardLeft, forwardLeft.flipped]

def createTransitionTable (param : SearchParam K) (thetaSize : ℕ) (useBack : Bool) :
    List (List (NodeUpdate K)) :=
  let candidates := forwardNodeCandidates angles param thetaSize
  (List.range thetaSize).map fun i =>
    let theta := 2 * angles.pi / thetaSize * (i : ℕ)
    (candidates.map fun update => update.rotated angles theta) ++
      if useBack then candidates.map fun update => update.reversed.rotated angles theta else []

end

namespace AstarSearch

/-! ## Nodes -/

/-- A result that is not an `int` is not defined. -/
def toInt (value : ℤ) : Option ℤ :=
  if IsInt32 value then some value else none

def getKey (search : AstarSearch K G) (index : IndexXYT) : Option ℤ := do
  let row ← toInt (index.y * search.xScale)
  let cell ← toInt (row + index.x)
  let offset ← toInt (cell * search.yScale)
  toInt (index.theta + offset)

/-- The pose of a node that was just made is not read. -/
def newNode : AstarNode K :=
  ⟨.None, 0, 0, 0, 0, 0, false, none⟩

def clearNodes (search : AstarSearch K G) : AstarSearch K G :=
  { search with nodes := ⟨fun _ => newNode, []⟩ }

def ofTable (planner : AbstractPlanningAlgorithm K G) (searchParam : SearchParam K)
    (astarParam : AstarParam K) (transitionTable : List (List (NodeUpdate K))) :
    AstarSearch K G where
  planner := planner
  searchParam := searchParam
  astarParam := astarParam
  transitionTable := transitionTable
  nodes := ⟨fun _ => newNode, []⟩
  startPose := ⟨0, 0, 0, 0⟩
  goalPose := ⟨0, 0, 0, 0⟩
  xScale := 0
  yScale := planner.plannerCommonParam.thetaSize
  waypoints := []

variable (geometry : Geometry K G)

section

variable (search : AstarSearch K G)

def setMap (costmap : OccupancyGrid K G) : AstarSearch K G :=
  { clearNodes { search with
      planner := Freespace.setMap geometry.angles search.planner costmap } with
    xScale := costmap.height }

def node2pose (node : AstarNode K) : Pose K :=
  ⟨node.x, node.y, search.goalPose.z, getYaw geometry.angles node.theta⟩

def estimateCost (pose : Pose K) : K :=
  let radius :=
    (search.searchParam.minimumTurningRadius + search.searchParam.maximumTurningRadius) / 2
  geometry.calcReedsSheppDistance radius pose search.goalPose *
    search.astarParam.distanceHeuristicWeight

def isGoal (node : AstarNode K) : Bool :=
  let lateralGoalRange := search.searchParam.lateralGoalRange / 2
  let longitudinalGoalRange := search.searchParam.longitudinalGoalRange / 2
  let goalAngle := search.searchParam.angleGoalRange / 2 * geometry.angles.pi / 180
  let relativePose := geometry.calcRelativePose search.goalPose (node2pose geometry search node)
  if search.astarParam.onlyBehindSolutions ∧ 0 < relativePose.x then false
  else if longitudinalGoalRange < |relativePose.x| ∨ lateralGoalRange < |relativePose.y| then false
  else
    let angleDiff := normalizeRadian geometry.angles relativePose.yaw (-geometry.angles.pi)
    !decide (goalAngle < |angleDiff|)

/-! ## The search -/

end

variable (costmap : OccupancyGrid K G)

section

variable (search : AstarSearch K G)

def cellOfPose (pose : Pose K) : IndexXYT :=
  pose2index geometry.angles costmap pose search.planner.plannerCommonParam.thetaSize

def startNode (index : IndexXYT) : AstarNode K where
  status := .Open
  x := search.startPose.x
  y := search.startPose.y
  theta := 2 * geometry.angles.pi / search.planner.plannerCommonParam.thetaSize * index.theta
  gc := 0
  hc := estimateCost geometry search search.startPose
  isBack := false
  parent := none

/-- The start node is put under the key of its cell unless there is a collision. -/
def setStartNode : Option (Bool × AstarSearch K G) := do
  let index := cellOfPose geometry costmap search search.startPose
  if ← detectCollision search.planner index then return (false, search)
  else
    let key ← search.getKey index
    return (true,
      { search with
        nodes := ⟨Function.update search.nodes.graph key (startNode geometry search index),
          key :: search.nodes.openlist⟩ })

def setGoalNode : Option Bool := do
  return !(← detectCollision search.planner (cellOfPose geometry costmap search search.goalPose))

end

def nextPose (node : AstarNode K) (transition : NodeUpdate K) : Pose K :=
  ⟨node.x + transition.shiftX, node.y + transition.shiftY, 0,
    getYaw geometry.angles (node.theta + transition.shiftTheta)⟩

def nextNode (search : AstarSearch K G) (key : ℤ) (node : AstarNode K)
    (transition : NodeUpdate K) : AstarNode K :=
  let pose := nextPose geometry node transition
  let isTurningPoint := transition.isBack != node.isBack
  let moveCost := if isTurningPoint then search.searchParam.reverseWeight * transition.distance
    else transition.distance
  { status := .Open
    x := pose.x
    y := pose.y
    theta := pose.yaw
    gc := node.gc + moveCost
    hc := estimateCost geometry search pose
    isBack := transition.isBack
    parent := some key }

def transit (search : AstarSearch K G) (key : ℤ) (nodes : Nodes K) (transition : NodeUpdate K) :
    Option (Nodes K) := do
  let node := nodes.graph key
  let index := cellOfPose geometry costmap search (nextPose geometry node transition)
  if ← detectCollision search.planner index then return nodes
  else
    let next ← search.getKey index
    if (nodes.graph next).status = .None then
      return ⟨Function.update nodes.graph next (nextNode geometry search key node transition),
        next :: nodes.openlist⟩
    else return nodes

def close (nodes : Nodes K) (key : ℤ) : Nodes K :=
  ⟨Function.update nodes.graph key { nodes.graph key with status := .Closed },
    nodes.openlist.erase key⟩

def expand (search : AstarSearch K G) (nodes : Nodes K) (key : ℤ) : Option (Nodes K) := do
  let row ← at? search.transitionTable (discretizeAngle geometry.angles (nodes.graph key).theta
    search.planner.plannerCommonParam.thetaSize)
  row.foldlM (transit geometry costmap search key) nodes

def cost (node : AstarNode K) : K :=
  node.gc + node.hc

/-- A node of least cost, of which the queue returns any. -/
def IsTop (nodes : Nodes K) (key : ℤ) : Prop :=
  key ∈ nodes.openlist ∧ ∀ other ∈ nodes.openlist, cost (nodes.graph key) ≤ cost (nodes.graph other)

inductive Step (search : AstarSearch K G) : Nodes K → ℤ → Nodes K → Prop
  | expand {nodes later : Nodes K} {key : ℤ} (htop : IsTop nodes key)
      (hgoal : isGoal geometry search (nodes.graph key) = false)
      (hexpand : expand geometry costmap search (close nodes key) key = some later) :
      Step search nodes key later

def updateFirst : List (PlannerWaypoint K) → List (PlannerWaypoint K)
  | first :: second :: later => { first with isBack := second.isBack } :: second :: later
  | waypoints => waypoints

section

variable (search : AstarSearch K G)

def toWaypoint (node : AstarNode K) : PlannerWaypoint K :=
  ⟨geometry.frames.local2global costmap.origin (node2pose geometry search node), node.isBack⟩

def setPath (nodes : Nodes K) (fuel : ℕ) (key : ℤ) : Option (List (PlannerWaypoint K)) :=
  (Library.RootedTree.follow (fun key => (nodes.graph key).parent) fuel key).map fun keys =>
    updateFirst (keys.map fun key => toWaypoint geometry costmap search (nodes.graph key)).reverse

def setPoses (startPose goalPose : Pose K) : AstarSearch K G :=
  { search with
    startPose := geometry.frames.global2local costmap.origin startPose
    goalPose := geometry.frames.global2local costmap.origin goalPose }

def Starts (startPose goalPose : Pose K) (started : AstarSearch K G) : Prop :=
  setStartNode geometry costmap (setPoses geometry costmap search startPose goalPose) =
      some (true, started) ∧
    setGoalNode geometry costmap started = some true

end

/-- A search that takes a goal from its queue, and so sets its path. -/
structure Finds (search : AstarSearch K G) (startPose goalPose : Pose K)
    (started : AstarSearch K G) (nodes : Nodes K) (key : ℤ) : Prop where
  starts : Starts geometry costmap search startPose goalPose started
  run : ∃ keys, Run (Step geometry costmap started) started.nodes keys nodes
  top : IsTop nodes key
  goal : isGoal geometry started (nodes.graph key) = true

/-- The planner when `makePlan` returns `true`. -/
inductive Plans (search : AstarSearch K G) (startPose goalPose : Pose K) : AstarSearch K G → Prop
  | found {started : AstarSearch K G} {nodes : Nodes K} {key : ℤ} {fuel : ℕ}
      {waypoints : List (PlannerWaypoint K)}
      (hfinds : Finds geometry costmap search startPose goalPose started nodes key)
      (hpath : setPath geometry costmap started (close nodes key) fuel key = some waypoints) :
      Plans search startPose goalPose
        { started with nodes := close nodes key, waypoints := waypoints }

end AstarSearch

end AutowareUniverse.Planning.Freespace

/-!
# Keys of the cells

The rows of a costmap are told apart in a key by its height.  Every cell has a key of its own
exactly if the costmap is not wider than high, or has one row only, and the last key is an `int`.
-/

namespace AutowareUniverse.Planning.Freespace.AstarSearch

open Library.RootedTree Library.Runs

section

open Library.SinglePrecision

variable {K G : Type} {costmap : OccupancyGrid K G} {search : AstarSearch K G}

/-! ## Keys -/

def IndexInRange (costmap : OccupancyGrid K G) (thetaSize : ℕ) (index : IndexXYT) : Prop :=
  InRange costmap index.x index.y ∧ 0 ≤ index.theta ∧ index.theta < thetaSize

/-- Every cell of the costmap has a key, and no two cells have the same. -/
structure KeysDistinct (search : AstarSearch K G) (costmap : OccupancyGrid K G) : Prop where
  defined : ∀ index, IndexInRange costmap search.planner.plannerCommonParam.thetaSize index →
    ∃ key, search.getKey index = some key
  injective : ∀ first second,
    IndexInRange costmap search.planner.plannerCommonParam.thetaSize first →
    IndexInRange costmap search.planner.plannerCommonParam.thetaSize second →
    search.getKey first = search.getKey second → first = second

theorem toInt_eq_some {value result : ℤ} :
    toInt value = some result ↔ IsInt32 value ∧ value = result := by
  rw [toInt]
  split
  · rename_i hint
    rw [Option.some.injEq, and_iff_right hint]
  · rename_i hint
    exact iff_of_false (fun heq => by cases heq) fun hvalue => hint hvalue.1

theorem getKey_eq_some {index : IndexXYT} {key : ℤ} (hkey : search.getKey index = some key) :
    key = index.theta + (index.y * search.xScale + index.x) * search.yScale ∧ IsInt32 key := by
  rw [getKey] at hkey
  obtain ⟨row, hrow, hkey⟩ := Option.bind_eq_some_iff.mp hkey
  obtain ⟨cell, hcell, hkey⟩ := Option.bind_eq_some_iff.mp hkey
  obtain ⟨offset, hoffset, hkey⟩ := Option.bind_eq_some_iff.mp hkey
  obtain ⟨_, rfl⟩ := toInt_eq_some.mp hrow
  obtain ⟨_, rfl⟩ := toInt_eq_some.mp hcell
  obtain ⟨_, rfl⟩ := toInt_eq_some.mp hoffset
  obtain ⟨hint, rfl⟩ := toInt_eq_some.mp hkey
  exact ⟨rfl, hint⟩

theorem digits_inj {base low low' high high' : ℤ} (hlow : 0 ≤ low ∧ low < base)
    (hlow' : 0 ≤ low' ∧ low' < base) (heq : low + high * base = low' + high' * base) :
    low = low' ∧ high = high' := by
  have hmod := congrArg (· % base) heq
  simp only [Int.add_mul_emod_self_right] at hmod
  rw [Int.emod_eq_of_lt hlow.1 hlow.2, Int.emod_eq_of_lt hlow'.1 hlow'.2] at hmod
  subst hmod
  have hbase : base ≠ 0 := by omega
  exact ⟨rfl, Int.eq_of_mul_eq_mul_right hbase (by omega)⟩

/-- The keys of a planner after a map was set. -/
structure Scales (search : AstarSearch K G) (costmap : OccupancyGrid K G) : Prop where
  xScale : search.xScale = costmap.height
  yScale : search.yScale = search.planner.plannerCommonParam.thetaSize

theorem getKey_of_fits (hscales : Scales search costmap) {index : IndexXYT}
    (hrange : IndexInRange costmap search.planner.plannerCommonParam.thetaSize index)
    (hfits : ((costmap.height - 1) * costmap.height + costmap.width) *
      search.planner.plannerCommonParam.thetaSize ≤ 2 ^ 31) :
    search.getKey index =
      some (index.theta + (index.y * search.xScale + index.x) * search.yScale) := by
  obtain ⟨⟨hx, hxWidth, hy, hyHeight⟩, htheta, hthetaSize⟩ := hrange
  rw [getKey, hscales.xScale, hscales.yScale]
  generalize search.planner.plannerCommonParam.thetaSize = thetaSize at *
  have hrow : 0 ≤ index.y * costmap.height := mul_nonneg hy (Int.natCast_nonneg _)
  have hcell : 0 ≤ index.y * costmap.height + index.x := by omega
  have hrowLe : index.y * costmap.height ≤ ((costmap.height - 1) * costmap.height : ℕ) := by
    rw [Nat.cast_mul, Nat.cast_sub (by omega), Nat.cast_one]
    exact mul_le_mul_of_nonneg_right (by omega) (Int.natCast_nonneg _)
  have hlast : (index.y * costmap.height + index.x + 1) * thetaSize ≤ 2 ^ 31 := by
    have hcellLe : index.y * costmap.height + index.x + 1 ≤
        ((costmap.height - 1) * costmap.height + costmap.width : ℕ) := by
      push_cast at hrowLe ⊢
      omega
    refine (mul_le_mul_of_nonneg_right hcellLe (Int.natCast_nonneg _)).trans ?_
    exact_mod_cast hfits
  have hoffset : index.y * costmap.height + index.x ≤
      (index.y * costmap.height + index.x) * thetaSize :=
    le_mul_of_one_le_right hcell (by omega)
  rw [add_mul, one_mul] at hlast
  have hint {value : ℤ} (hnonneg : 0 ≤ value) (hlt : value < 2 ^ 31) : toInt value = some value :=
    toInt_eq_some.mpr ⟨⟨by omega, hlt⟩, rfl⟩
  simp only [Option.bind_eq_bind]
  rw [hint hrow (by omega), Option.bind_some, hint hcell (by omega), Option.bind_some,
    hint (by omega) (by omega), Option.bind_some, hint (by omega) (by omega)]

theorem keysDistinct_iff (hscales : Scales search costmap)
    (hsize : 1 ≤ search.planner.plannerCommonParam.thetaSize) :
    KeysDistinct search costmap ↔ costmap.width = 0 ∨ costmap.height = 0 ∨
      (costmap.width ≤ costmap.height ∨ costmap.height ≤ 1) ∧
        ((costmap.height - 1) * costmap.height + costmap.width) *
          search.planner.plannerCommonParam.thetaSize ≤ 2 ^ 31 := by
  constructor
  · intro hdistinct
    by_contra hcondition
    push Not at hcondition
    obtain ⟨hwidth, hheight, hfits⟩ := hcondition
    have hrange (x y theta : ℕ) (hx : x < costmap.width) (hy : y < costmap.height)
        (htheta : theta < search.planner.plannerCommonParam.thetaSize) :
        IndexInRange costmap search.planner.plannerCommonParam.thetaSize ⟨x, y, theta⟩ :=
      ⟨⟨Int.natCast_nonneg x, Int.ofNat_lt.mpr hx, Int.natCast_nonneg y, Int.ofNat_lt.mpr hy⟩,
        Int.natCast_nonneg theta, Int.ofNat_lt.mpr htheta⟩
    by_cases hwide : costmap.width ≤ costmap.height ∨ costmap.height ≤ 1
    · -- the last cell has a key
      obtain ⟨x, hx⟩ := Nat.exists_eq_add_one_of_ne_zero hwidth
      obtain ⟨y, hy⟩ := Nat.exists_eq_add_one_of_ne_zero hheight
      obtain ⟨theta, htheta⟩ := Nat.exists_eq_add_of_le' hsize
      obtain ⟨key, hkey⟩ := hdistinct.defined _ (hrange x y theta (by omega) (by omega) (by omega))
      obtain ⟨rfl, hint⟩ := getKey_eq_some hkey
      have hlarge := hfits hwide
      have hlast := hint.2
      rw [hscales.xScale, hscales.yScale] at hlast
      rw [hx, hy, htheta, Nat.add_sub_cancel] at hlarge
      rw [hy, htheta] at hlast
      have hcount : (((y * (y + 1) + (x + 1)) * (theta + 1) : ℕ) : ℤ) =
          theta + (y * (y + 1 : ℕ) + x) * (theta + 1 : ℕ) + 1 := by
        push_cast
        ring
      dsimp only at hlast
      omega
    · -- the first cell of the second row has the key of a cell of the first row
      push Not at hwide
      have hfirst := hrange costmap.height 0 0 (by omega) (by omega) (by omega)
      have hsecond := hrange 0 1 0 (by omega) (by omega) (by omega)
      obtain ⟨key, hkey⟩ := hdistinct.defined _ hfirst
      obtain ⟨key', hkey'⟩ := hdistinct.defined _ hsecond
      obtain ⟨rfl, _⟩ := getKey_eq_some hkey
      obtain ⟨rfl, _⟩ := getKey_eq_some hkey'
      have hsame := hdistinct.injective _ _ hfirst hsecond (by
        rw [hkey, hkey', hscales.xScale]
        simp)
      have hy := congrArg IndexXYT.y hsame
      cases hy
  · intro hcondition
    have hfits {index : IndexXYT}
        (hrange : IndexInRange costmap search.planner.plannerCommonParam.thetaSize index) :
        (costmap.width ≤ costmap.height ∨ costmap.height ≤ 1) ∧
          ((costmap.height - 1) * costmap.height + costmap.width) *
            search.planner.plannerCommonParam.thetaSize ≤ 2 ^ 31 := by
      obtain ⟨⟨hx, hxWidth, hy, hyHeight⟩, _⟩ := hrange
      rcases hcondition with hwidth | hheight | hfits
      · omega
      · omega
      · exact hfits
    constructor
    · exact fun index hrange => ⟨_, getKey_of_fits hscales hrange (hfits hrange).2⟩
    · intro first second hfirst hsecond heq
      rw [getKey_of_fits hscales hfirst (hfits hfirst).2,
        getKey_of_fits hscales hsecond (hfits hsecond).2, Option.some.injEq, hscales.xScale,
        hscales.yScale] at heq
      obtain ⟨htheta, hcell⟩ := digits_inj hfirst.2 hsecond.2 heq
      have hshape := (hfits hfirst).1
      obtain ⟨⟨hx, hxWidth, hy, hyHeight⟩, _⟩ := hfirst
      obtain ⟨⟨hx', hxWidth', hy', hyHeight'⟩, _⟩ := hsecond
      obtain ⟨hxEq, hyEq⟩ : first.x = second.x ∧ first.y = second.y := by
        rcases hshape with hwide | hrow
        · have hlt {x : ℤ} (hxWidth : x < costmap.width) : x < costmap.height := by omega
          exact digits_inj ⟨hx, hlt hxWidth⟩ ⟨hx', hlt hxWidth'⟩ (by omega)
        · have hy : first.y = 0 := by omega
          have hy' : second.y = 0 := by omega
          rw [hy, hy', zero_mul, zero_add, zero_add] at hcell
          exact ⟨hcell, hy.trans hy'.symm⟩
      exact (IndexXYT.mk.injEq ..).mpr ⟨hxEq, hyEq, htheta⟩

end

/-!
## Nodes of a search

A cell gets its node once, from a transition of a node that is closed, and the pose, the direction
and the parent of the node are not changed afterwards.  The parents therefore lead back to the
start, and the path along them is one of transitions between free cells.
-/

section

section

variable {K G : Type} [Field K] [LinearOrder K] [FloorRing K] {geometry : Geometry K G}
  {costmap : OccupancyGrid K G} {search : AstarSearch K G} {nodes later : Nodes K}
  {key : ℤ} {transition : NodeUpdate K}

def Visited (nodes : Nodes K) (key : ℤ) : Prop :=
  (nodes.graph key).status ≠ .None

instance (nodes : Nodes K) (key : ℤ) : Decidable (Visited nodes key) :=
  inferInstanceAs (Decidable (_ ≠ _))

section
omit [Field K] [LinearOrder K] [FloorRing K]

theorem visited_of_closed (hclosed : (nodes.graph key).status = .Closed) : Visited nodes key := by
  rw [Visited, hclosed]
  exact NodeStatus.noConfusion

theorem visited_of_open (hopen : (nodes.graph key).status = .Open) : Visited nodes key := by
  rw [Visited, hopen]
  exact NodeStatus.noConfusion

end

def parents (nodes : Nodes K) (key : ℤ) : Option ℤ :=
  (nodes.graph key).parent

section

variable (geometry : Geometry K G)

def nodeIndex (costmap : OccupancyGrid K G) (search : AstarSearch K G)
    (node : AstarNode K) : IndexXYT :=
  cellOfPose geometry costmap search (node2pose geometry search node)

def nextIndex (costmap : OccupancyGrid K G) (search : AstarSearch K G)
    (node : AstarNode K) (transition : NodeUpdate K) : IndexXYT :=
  cellOfPose geometry costmap search (nextPose geometry node transition)

def rowOf (search : AstarSearch K G) (node : AstarNode K) : Option (List (NodeUpdate K)) :=
  at? search.transitionTable (discretizeAngle geometry.angles node.theta
    search.planner.plannerCommonParam.thetaSize)

/-- One transition at the heading of a node leads to another one. -/
def Reached (search : AstarSearch K G) (node next : AstarNode K) : Prop :=
  ∃ row, rowOf geometry search node = some row ∧ ∃ transition ∈ row,
    next.x = node.x + transition.shiftX ∧ next.y = node.y + transition.shiftY ∧
      next.theta = getYaw geometry.angles (node.theta + transition.shiftTheta) ∧
      next.isBack = transition.isBack

/-! ## One transition -/

def reach (search : AstarSearch K G) (nodes : Nodes K) (key : ℤ)
    (transition : NodeUpdate K) (next : ℤ) : Nodes K :=
  ⟨Function.update nodes.graph next (nextNode geometry search key (nodes.graph key) transition),
    next :: nodes.openlist⟩

end

theorem transit_cases (htransit : transit geometry costmap search key nodes transition = some later) :
    let index := nextIndex geometry costmap search (nodes.graph key) transition
    detectCollision search.planner index = some true ∧ later = nodes ∨
      detectCollision search.planner index = some false ∧ ∃ next, search.getKey index = some next ∧
          (Visited nodes next ∧ later = nodes ∨ (nodes.graph next).status = .None ∧
              later = reach geometry search nodes key transition next) := by
  rw [transit] at htransit
  obtain ⟨collision, hcollision, hrest⟩ := Option.bind_eq_some_iff.mp htransit
  cases collision with
  | true =>
    rw [if_pos rfl] at hrest
    exact .inl ⟨hcollision, (Option.some.inj hrest).symm⟩
  | false =>
    rw [if_neg Bool.false_ne_true] at hrest
    obtain ⟨next, hnext, hnode⟩ := Option.bind_eq_some_iff.mp hrest
    refine .inr ⟨hcollision, next, hnext, ?_⟩
    split at hnode
    · rename_i hnew
      exact .inr ⟨hnew, (Option.some.inj hnode).symm⟩
    · rename_i hvisited
      exact .inl ⟨hvisited, (Option.some.inj hnode).symm⟩

theorem reach_graph_self (next : ℤ) : (reach geometry search nodes key transition next).graph next =
      nextNode geometry search key (nodes.graph key) transition :=
  Function.update_self ..

theorem reach_graph_of_ne {next other : ℤ} (hne : other ≠ next) :
    (reach geometry search nodes key transition next).graph other = nodes.graph other :=
  Function.update_of_ne hne ..

section
omit [Field K] [LinearOrder K] [FloorRing K]

theorem close_graph (nodes : Nodes K) (key other : ℤ) : (close nodes key).graph other =
      { nodes.graph other with
        status := if other = key then .Closed else (nodes.graph other).status } := by
  by_cases heq : other = key
  · subst heq
    rw [if_pos rfl]
    exact Function.update_self ..
  · rw [if_neg heq]
    exact Function.update_of_ne heq ..

theorem visited_close (hkey : Visited nodes key) {other : ℤ} :
    Visited (close nodes key) other ↔ Visited nodes other := by
  rw [Visited, close_graph]
  dsimp only
  split
  · rename_i heq
    subst heq
    exact iff_of_true NodeStatus.noConfusion hkey
  · rfl

end

/-- The nodes that were visited stay as they are. -/
def Keeps (nodes later : Nodes K) : Prop :=
  ∀ key, Visited nodes key → later.graph key = nodes.graph key

section
omit [Field K] [LinearOrder K] [FloorRing K]

theorem Keeps.visited (hkeeps : Keeps nodes later) (hvisited : Visited nodes key) :
    Visited later key := by
  rw [Visited, hkeeps key hvisited]
  exact hvisited

theorem Keeps.trans {middle : Nodes K} (hfirst : Keeps nodes middle) (hsecond : Keeps middle later) :
    Keeps nodes later :=
  fun key hvisited => (hsecond key (hfirst.visited hvisited)).trans (hfirst key hvisited)

end

theorem keeps_reach {next : ℤ} (hnew : (nodes.graph next).status = .None) :
    Keeps nodes (reach geometry search nodes key transition next) := by
  intro other hvisited
  have hne : other ≠ next := by
    rintro rfl
    exact hvisited hnew
  exact reach_graph_of_ne hne

theorem keeps_transit (htransit : transit geometry costmap search key nodes transition = some later) :
    Keeps nodes later := by
  rcases transit_cases htransit with ⟨_, rfl⟩ | ⟨_, next, _, ⟨_, rfl⟩ | ⟨hnew, rfl⟩⟩
  · exact fun _ _ => rfl
  · exact fun _ _ => rfl
  · exact keeps_reach hnew

variable [IsStrictOrderedRing K]

theorem nodeIndex_nextNode (node : AstarNode K) :
    nodeIndex geometry costmap search (nextNode geometry search key node transition) =
      nextIndex geometry costmap search node transition := by
  simp only [nodeIndex, nextIndex, cellOfPose, pose2index, node2pose, nextNode, nextPose,
    getYaw_getYaw]

/-! ## What holds during a search -/

structure Sound (geometry : Geometry K G) (costmap : OccupancyGrid K G) (search : AstarSearch K G)
    (start : ℤ) (nodes : Nodes K) : Prop where
  visited_start : Visited nodes start
  parent_start : parents nodes start = none
  pose_start : (nodes.graph start).x = search.startPose.x ∧
    (nodes.graph start).y = search.startPose.y
  rooted : ∀ key, Visited nodes key →
    ∃ path, PathTo (parents nodes) start (key :: path) ∧ ∀ v ∈ key :: path, Visited nodes v
  free : ∀ key, Visited nodes key →
    detectCollision search.planner (nodeIndex geometry costmap search (nodes.graph key)) = some false
  key_eq : ∀ key, Visited nodes key →
    search.getKey (nodeIndex geometry costmap search (nodes.graph key)) = some key
  reached : ∀ key, Visited nodes key → ∀ previous, parents nodes key = some previous →
    (nodes.graph previous).status = .Closed ∧
      Reached geometry search (nodes.graph previous) (nodes.graph key)
  mem_openlist : ∀ key, key ∈ nodes.openlist ↔ (nodes.graph key).status = .Open
  nodup : nodes.openlist.Nodup

namespace Sound

variable {start : ℤ} (hsound : Sound geometry costmap search start nodes)

include hsound

/-- Nodes are kept when a new one is added under a key without a node. -/
theorem reach (hclosed : (nodes.graph key).status = .Closed) {row : List (NodeUpdate K)}
    (hrow : rowOf geometry search (nodes.graph key) = some row) (hmem : transition ∈ row) {next : ℤ}
    (hnew : (nodes.graph next).status = .None) (hfree : detectCollision search.planner
      (nextIndex geometry costmap search (nodes.graph key) transition) = some false)
    (hnext : search.getKey (nextIndex geometry costmap search (nodes.graph key) transition) =
      some next) :
    Sound geometry costmap search start
      (AstarSearch.reach geometry search nodes key transition next) := by
  have hkey : Visited nodes key := visited_of_closed hclosed
  have hkeeps : Keeps nodes (AstarSearch.reach geometry search nodes key transition next) :=
    keeps_reach hnew
  have hcases {other : ℤ}
      (hvisited : Visited (AstarSearch.reach geometry search nodes key transition next) other) :
      other = next ∨ other ≠ next ∧ Visited nodes other := by
    by_cases heq : other = next
    · exact .inl heq
    · rw [Visited, reach_graph_of_ne heq] at hvisited
      exact .inr ⟨heq, hvisited⟩
  have hpath {other : ℤ} {path : List ℤ} (hpath : PathTo (parents nodes) start (other :: path))
      (hvisited : ∀ v ∈ other :: path, Visited nodes v) :
      PathTo (parents (AstarSearch.reach geometry search nodes key transition next)) start
        (other :: path) :=
    hpath.congr fun v hv => congrArg AstarNode.parent (hkeeps v (hvisited v hv))
  constructor
  case visited_start => exact hkeeps.visited hsound.visited_start
  case parent_start => rw [parents, hkeeps start hsound.visited_start]; exact hsound.parent_start
  case pose_start => rw [hkeeps start hsound.visited_start]; exact hsound.pose_start
  case rooted =>
    intro other hvisited
    rcases hcases hvisited with rfl | ⟨_, hvisited⟩
    · obtain ⟨path, hrooted, hall⟩ := hsound.rooted key hkey
      refine ⟨key :: path, .step (congrArg AstarNode.parent (reach_graph_self _)) (hpath hrooted hall), ?_⟩
      refine List.forall_mem_cons.mpr ⟨‹_›, fun v hv => hkeeps.visited (hall v hv)⟩
    · obtain ⟨path, hrooted, hall⟩ := hsound.rooted other hvisited
      exact ⟨path, hpath hrooted hall, fun v hv => hkeeps.visited (hall v hv)⟩
  case free =>
    intro other hvisited
    rcases hcases hvisited with rfl | ⟨hne, hvisited⟩
    · rwa [reach_graph_self, nodeIndex_nextNode]
    · rw [reach_graph_of_ne hne]
      exact hsound.free other hvisited
  case key_eq =>
    intro other hvisited
    rcases hcases hvisited with rfl | ⟨hne, hvisited⟩
    · rwa [reach_graph_self, nodeIndex_nextNode]
    · rw [reach_graph_of_ne hne]
      exact hsound.key_eq other hvisited
  case reached =>
    intro other hvisited previous hprevious
    rcases hcases hvisited with rfl | ⟨hne, hvisited⟩
    · rw [parents, reach_graph_self] at hprevious
      obtain rfl : key = previous := Option.some.inj hprevious
      rw [hkeeps key hkey, reach_graph_self]
      exact ⟨hclosed, row, hrow, transition, hmem, rfl, rfl, rfl, rfl⟩
    · rw [parents, reach_graph_of_ne hne] at hprevious
      obtain ⟨hpreviousClosed, hreached⟩ := hsound.reached other hvisited previous hprevious
      rw [hkeeps previous (visited_of_closed hpreviousClosed), reach_graph_of_ne hne]
      exact ⟨hpreviousClosed, hreached⟩
  case mem_openlist =>
    intro other
    by_cases heq : other = next
    · subst heq
      rw [reach_graph_self]
      exact iff_of_true List.mem_cons_self rfl
    · rw [reach_graph_of_ne heq, ← hsound.mem_openlist other]
      exact List.mem_cons.trans (or_iff_right heq)
  case nodup =>
    refine List.nodup_cons.mpr ⟨fun hmem => ?_, hsound.nodup⟩
    rw [hsound.mem_openlist, hnew] at hmem
    cases hmem

theorem transit (hclosed : (nodes.graph key).status = .Closed) {row : List (NodeUpdate K)}
    (hrow : rowOf geometry search (nodes.graph key) = some row) (hmem : transition ∈ row)
    (htransit : transit geometry costmap search key nodes transition = some later) :
    Sound geometry costmap search start later := by
  rcases transit_cases htransit with ⟨_, rfl⟩ | ⟨hfree, next, hnext, ⟨_, rfl⟩ | ⟨hnew, rfl⟩⟩
  · exact hsound
  · exact hsound
  · exact hsound.reach hclosed hrow hmem hnew hfree hnext

omit [IsStrictOrderedRing K] in
theorem close (htop : key ∈ nodes.openlist) :
    Sound geometry costmap search start (AstarSearch.close nodes key) := by
  have hkey : Visited nodes key := visited_of_open ((hsound.mem_openlist key).mp htop)
  have hparents : parents (AstarSearch.close nodes key) = parents nodes := by
    funext other
    rw [parents, close_graph]
    rfl
  constructor
  case visited_start => exact (visited_close hkey).mpr hsound.visited_start
  case parent_start => rw [hparents]; exact hsound.parent_start
  case pose_start => rw [close_graph]; exact hsound.pose_start
  case rooted =>
    intro other hvisited
    obtain ⟨path, hpath, hall⟩ := hsound.rooted other ((visited_close hkey).mp hvisited)
    rw [hparents]
    exact ⟨path, hpath, fun v hv => (visited_close hkey).mpr (hall v hv)⟩
  case free =>
    intro other hvisited
    rw [close_graph]
    exact hsound.free other ((visited_close hkey).mp hvisited)
  case key_eq =>
    intro other hvisited
    rw [close_graph]
    exact hsound.key_eq other ((visited_close hkey).mp hvisited)
  case reached =>
    intro other hvisited previous hprevious
    rw [hparents] at hprevious
    obtain ⟨hclosed, hreached⟩ :=
      hsound.reached other ((visited_close hkey).mp hvisited) previous hprevious
    rw [close_graph, close_graph]
    exact ⟨by dsimp only; rw [hclosed, ite_self], hreached⟩
  case mem_openlist =>
    intro other
    rw [close_graph, AstarSearch.close, hsound.nodup.mem_erase_iff, hsound.mem_openlist]
    dsimp only
    split
    · rename_i heq
      exact iff_of_false (fun hmem => hmem.1 heq) NodeStatus.noConfusion
    · rename_i hne
      exact and_iff_right hne
  case nodup => exact hsound.nodup.erase key

end Sound

/-! ## One round of the search -/

def Explored (geometry : Geometry K G) (costmap : OccupancyGrid K G) (search : AstarSearch K G)
    (node : AstarNode K) (nodes : Nodes K) (transition : NodeUpdate K) : Prop :=
  detectCollision search.planner (nextIndex geometry costmap search node transition) = some false →
    ∃ next, search.getKey (nextIndex geometry costmap search node transition) = some next ∧
      Visited nodes next

section
omit [IsStrictOrderedRing K]

theorem Explored.mono {node : AstarNode K}
    (hexplored : Explored geometry costmap search node nodes transition)
    (hmono : ∀ key, Visited nodes key → Visited later key) :
    Explored geometry costmap search node later transition := by
  intro hfree
  obtain ⟨next, hnext, hvisited⟩ := hexplored hfree
  exact ⟨next, hnext, hmono next hvisited⟩

theorem explored_transit
    (htransit : transit geometry costmap search key nodes transition = some later) :
    Explored geometry costmap search (nodes.graph key) later transition := by
  intro hfree
  rcases transit_cases htransit with ⟨hcollision, _⟩ | ⟨_, next, hnext, ⟨hvisited, rfl⟩ | ⟨_, rfl⟩⟩
  · cases hcollision.symm.trans hfree
  · exact ⟨next, hnext, hvisited⟩
  · exact ⟨next, hnext, visited_of_open (congrArg AstarNode.status (reach_graph_self next))⟩

theorem closed_of_transit
    (htransit : transit geometry costmap search key nodes transition = some later) {other : ℤ}
    (hclosed : (later.graph other).status = .Closed) : (nodes.graph other).status = .Closed := by
  rcases transit_cases htransit with ⟨_, rfl⟩ | ⟨_, next, _, ⟨_, rfl⟩ | ⟨_, rfl⟩⟩
  · exact hclosed
  · exact hclosed
  · by_cases heq : other = next
    · subst heq
      rw [reach_graph_self] at hclosed
      cases hclosed
    · rwa [reach_graph_of_ne heq] at hclosed

end

/-- What the loop over some transitions of a closed node leaves. -/
structure Expanded (geometry : Geometry K G) (costmap : OccupancyGrid K G)
    (search : AstarSearch K G) (start : ℤ) (node : AstarNode K) (row : List (NodeUpdate K))
    (nodes later : Nodes K) : Prop where
  sound : Sound geometry costmap search start later
  keeps : Keeps nodes later
  explored : ∀ transition ∈ row, Explored geometry costmap search node later transition
  closed : ∀ key, (later.graph key).status = .Closed → (nodes.graph key).status = .Closed

theorem expanded_foldlM {start : ℤ} (hsound : Sound geometry costmap search start nodes)
    (hclosed : (nodes.graph key).status = .Closed) {row todo : List (NodeUpdate K)}
    (hrow : rowOf geometry search (nodes.graph key) = some row) (htodo : todo ⊆ row)
    (hfold : todo.foldlM (transit geometry costmap search key) nodes = some later) :
    Expanded geometry costmap search start (nodes.graph key) todo nodes later := by
  induction todo generalizing nodes with
  | nil =>
    cases hfold
    exact ⟨hsound, fun _ _ => rfl, fun _ hmem => absurd hmem List.not_mem_nil, fun _ => id⟩
  | cons transition todo ih =>
    rw [List.foldlM_cons] at hfold
    obtain ⟨middle, htransit, hrest⟩ := Option.bind_eq_some_iff.mp hfold
    have hkeeps := keeps_transit htransit
    have hkey : middle.graph key = nodes.graph key := hkeeps key (visited_of_closed hclosed)
    have hmiddle := hsound.transit hclosed hrow (htodo List.mem_cons_self) htransit
    have hexpanded := ih hmiddle (by rw [hkey, hclosed]) (by rw [hkey, hrow])
      (fun _ hmem => htodo (List.mem_cons_of_mem _ hmem)) hrest
    rw [hkey] at hexpanded
    refine ⟨hexpanded.sound, hkeeps.trans hexpanded.keeps, ?_, fun other hother =>
      closed_of_transit htransit (hexpanded.closed other hother)⟩
    refine List.forall_mem_cons.mpr ⟨?_, hexpanded.explored⟩
    exact (explored_transit htransit).mono fun _ => hexpanded.keeps.visited

theorem expanded_step {start : ℤ} (hsound : Sound geometry costmap search start nodes)
    (hstep : Step geometry costmap search nodes key later) :
    ∃ row, rowOf geometry search (nodes.graph key) = some row ∧
      Expanded geometry costmap search start (nodes.graph key) row (close nodes key) later := by
  cases hstep with
  | expand htop _ hexpand =>
    obtain ⟨row, hrow, hfold⟩ := Option.bind_eq_some_iff.mp hexpand
    have hnode : (close nodes key).graph key = { nodes.graph key with status := .Closed } :=
      Function.update_self ..
    have hexpanded := expanded_foldlM (hsound.close htop.1) (by rw [hnode]) hrow
      (List.Subset.refl row) hfold
    rw [hnode] at hrow hexpanded
    exact ⟨row, hrow, hexpanded.sound, hexpanded.keeps, hexpanded.explored, hexpanded.closed⟩

theorem sound_run {start : ℤ} (hsound : Sound geometry costmap search start nodes)
    {keys : List ℤ} (hrun : Run (Step geometry costmap search) nodes keys later) :
    Sound geometry costmap search start later := by
  refine hrun.preserves (Sound geometry costmap search start) ?_ hsound
  intro before key after hbefore hstep
  obtain ⟨row, _, hexpanded⟩ := expanded_step hbefore hstep
  exact hexpanded.sound

end

/-! ## Plans -/

variable {K G : Type} [Field K] [LinearOrder K] [FloorRing K] {geometry : Geometry K G}
  {costmap : OccupancyGrid K G} {search started : AstarSearch K G}

/-! ## The start -/

def noNodes : Nodes K :=
  ⟨fun _ => newNode, []⟩

def startNodes (geometry : Geometry K G) (costmap : OccupancyGrid K G) (search : AstarSearch K G)
    (start : ℤ) : Nodes K :=
  ⟨Function.update noNodes.graph start
    (startNode geometry search (cellOfPose geometry costmap search search.startPose)), [start]⟩

theorem startNodes_graph_self (start : ℤ) : (startNodes geometry costmap search start).graph start =
      startNode geometry search (cellOfPose geometry costmap search search.startPose) :=
  Function.update_self ..

variable {start key : ℤ}

theorem startNodes_graph_of_ne (hne : key ≠ start) :
    (startNodes geometry costmap search start).graph key = newNode :=
  Function.update_of_ne hne ..

theorem visited_startNodes :
    Visited (startNodes geometry costmap search start) key ↔ key = start := by
  constructor
  · intro hvisited
    by_contra hne
    rw [Visited, startNodes_graph_of_ne hne] at hvisited
    exact hvisited rfl
  · rintro rfl
    exact visited_of_open (congrArg AstarNode.status (startNodes_graph_self key))

theorem setStartNode_eq (hnodes : search.nodes = noNodes)
    (hset : setStartNode geometry costmap search = some (true, started)) :
    detectCollision search.planner (cellOfPose geometry costmap search search.startPose) =
        some false ∧
      ∃ key, search.getKey (cellOfPose geometry costmap search search.startPose) = some key ∧
        started = { search with nodes := startNodes geometry costmap search key } := by
  rw [setStartNode] at hset
  obtain ⟨collision, hcollision, hrest⟩ := Option.bind_eq_some_iff.mp hset
  cases collision with
  | true =>
    rw [if_pos rfl] at hrest
    cases hrest
  | false =>
    rw [if_neg Bool.false_ne_true] at hrest
    obtain ⟨key, hkey, hstarted⟩ := Option.bind_eq_some_iff.mp hrest
    refine ⟨hcollision, key, hkey, (Prod.mk.inj (Option.some.inj hstarted)).2.symm.trans ?_⟩
    rw [hnodes]
    rfl

theorem setStartNode_of_free {start : ℤ} (hnodes : search.nodes = noNodes)
    (hfree : detectCollision search.planner (cellOfPose geometry costmap search search.startPose) =
      some false)
    (hkey : search.getKey (cellOfPose geometry costmap search search.startPose) = some start) :
    setStartNode geometry costmap search =
      some (true, { search with nodes := startNodes geometry costmap search start }) := by
  rw [setStartNode, hfree, hkey, hnodes]
  rfl

variable [IsStrictOrderedRing K]

theorem nodeIndex_startNode (hsize : 1 ≤ search.planner.plannerCommonParam.thetaSize) :
    nodeIndex geometry costmap search (startNode geometry search
        (cellOfPose geometry costmap search search.startPose)) =
      cellOfPose geometry costmap search search.startPose := by
  have hheading := discretizeAngle_getYaw geometry.angles
    (discretizeAngle_bounds geometry.angles search.startPose.yaw hsize)
  simp only [nodeIndex, cellOfPose, pose2index, node2pose, startNode, hheading]

/-- What the start node leaves of a planner without nodes. -/
structure Begun (geometry : Geometry K G) (costmap : OccupancyGrid K G)
    (search started : AstarSearch K G) (start : ℤ) : Prop where
  eq_search : started = { search with nodes := started.nodes }
  key_eq : search.getKey (cellOfPose geometry costmap search search.startPose) = some start
  sound : Sound geometry costmap started start started.nodes
  not_closed : ∀ key, (started.nodes.graph key).status ≠ .Closed

theorem exists_begun (hnodes : search.nodes = noNodes)
    (hsize : 1 ≤ search.planner.plannerCommonParam.thetaSize)
    (hset : setStartNode geometry costmap search = some (true, started)) :
    ∃ start, Begun geometry costmap search started start := by
  obtain ⟨hfree, start, hkey, rfl⟩ := setStartNode_eq hnodes hset
  refine ⟨start, ⟨rfl, hkey, ?_, fun key hclosed => ?_⟩⟩
  · dsimp only
    constructor
    case visited_start => exact visited_startNodes.mpr rfl
    case parent_start => rw [parents, startNodes_graph_self]; rfl
    case pose_start => rw [startNodes_graph_self]; exact ⟨rfl, rfl⟩
    case rooted =>
      intro key hvisited
      cases visited_startNodes.mp hvisited
      exact ⟨[], .root, List.forall_mem_singleton.mpr hvisited⟩
    case free =>
      intro key hvisited
      cases visited_startNodes.mp hvisited
      rw [startNodes_graph_self]
      exact (congrArg _ (nodeIndex_startNode hsize)).trans hfree
    case key_eq =>
      intro key hvisited
      cases visited_startNodes.mp hvisited
      rw [startNodes_graph_self]
      exact (congrArg _ (nodeIndex_startNode hsize)).trans hkey
    case reached =>
      intro key hvisited previous hprevious
      cases visited_startNodes.mp hvisited
      rw [parents, startNodes_graph_self] at hprevious
      cases hprevious
    case mem_openlist =>
      intro key
      by_cases heq : key = start
      · subst heq
        rw [startNodes_graph_self]
        exact iff_of_true List.mem_cons_self rfl
      · rw [startNodes_graph_of_ne heq]
        exact iff_of_false (fun hmem => heq (List.mem_singleton.mp hmem)) NodeStatus.noConfusion
    case nodup => exact List.nodup_singleton start
  · have hvisited : Visited (startNodes geometry costmap search start) key := by
      intro hnone
      cases hnone.symm.trans hclosed
    cases visited_startNodes.mp hvisited
    dsimp only at hclosed
    rw [startNodes_graph_self] at hclosed
    cases hclosed

theorem exists_begun_of_starts {startPose goalPose : Pose K}
    (hsize : 1 ≤ search.planner.plannerCommonParam.thetaSize)
    (hstarts : Starts geometry costmap (setMap geometry search costmap) startPose goalPose
      started) :
    ∃ start, Begun geometry costmap
      (setPoses geometry costmap (setMap geometry search costmap) startPose goalPose) started
      start :=
  exists_begun rfl hsize hstarts.1

/-! ## The path -/

/-- The nodes under some keys, from the start to a goal, are joined by transitions. -/
structure ValidPath (geometry : Geometry K G) (costmap : OccupancyGrid K G)
    (search : AstarSearch K G) (nodes : Nodes K) (keys : List ℤ) : Prop where
  nodup : keys.Nodup
  parents : keys.IsChain fun previous key => parents nodes key = some previous
  start : ∃ start, keys.head? = some start ∧ AstarSearch.parents nodes start = none ∧
    (nodes.graph start).x = search.startPose.x ∧ (nodes.graph start).y = search.startPose.y
  reached : keys.IsChain fun previous key =>
    Reached geometry search (nodes.graph previous) (nodes.graph key)
  free : ∀ key ∈ keys,
    detectCollision search.planner (nodeIndex geometry costmap search (nodes.graph key)) = some false
  goal : ∃ goal, keys.getLast? = some goal ∧ isGoal geometry search (nodes.graph goal) = true

variable {nodes : Nodes K} {path : List ℤ}

omit [IsStrictOrderedRing K] in
theorem validPath_of_pathTo (hsound : Sound geometry costmap search start nodes)
    (hpath : PathTo (parents nodes) start (key :: path))
    (hvisited : ∀ v ∈ key :: path, Visited nodes v)
    (hgoal : isGoal geometry search (nodes.graph key) = true) :
    ValidPath geometry costmap search nodes (key :: path).reverse where
  nodup := List.nodup_reverse.mpr (hpath.nodup hsound.parent_start)
  parents := List.isChain_reverse.mpr (hpath.isChain fun _ _ _ hparent => hparent)
  start := by
    refine ⟨start, ?_, hsound.parent_start, hsound.pose_start⟩
    rw [List.head?_reverse, List.getLast?_eq_getLast_of_ne_nil (List.cons_ne_nil _ _),
      hpath.getLast_eq]
  reached := List.isChain_reverse.mpr (hpath.isChain fun v hv above hparent =>
    (hsound.reached v (hvisited v hv) above hparent).2)
  free := fun v hv => hsound.free v (hvisited v (List.mem_reverse.mp hv))
  goal := ⟨key, by rw [List.getLast?_reverse, List.head?_cons], hgoal⟩

/-- The parents of a goal that is taken from the queue. -/
theorem exists_path_of_finds {startPose goalPose : Pose K} {key : ℤ}
    (hsize : 1 ≤ search.planner.plannerCommonParam.thetaSize)
    (hfinds : Finds geometry costmap (setMap geometry search costmap) startPose goalPose started
      nodes key) :
    ∃ start path, AstarSearch.parents (close nodes key) start = none ∧
      PathTo (parents (close nodes key)) start (key :: path) ∧
      ValidPath geometry costmap started (close nodes key) (key :: path).reverse := by
  obtain ⟨start, hbegun⟩ := exists_begun_of_starts hsize hfinds.starts
  obtain ⟨keys, hrun⟩ := hfinds.run
  have hsound := (sound_run hbegun.sound hrun).close hfinds.top.1
  have hkey : Visited (close nodes key) key := visited_of_closed (by
    rw [close_graph]
    exact if_pos rfl)
  obtain ⟨path, hpath, hvisited⟩ := hsound.rooted key hkey
  refine ⟨start, path, hsound.parent_start, hpath, ?_⟩
  refine validPath_of_pathTo hsound hpath hvisited ?_
  rw [close_graph]
  exact hfinds.goal

/-- Poses keep their place in the plane when their height and their yaw are replaced in the frame
of the costmap. -/
def Planar (frames : Frames K G) (origin : G) : Prop :=
  ∀ (pose : Pose K) (z yaw : K),
    let poseLocal := frames.global2local origin pose
    let back := frames.local2global origin ⟨poseLocal.x, poseLocal.y, z, yaw⟩
    back.x = pose.x ∧ back.y = pose.y

omit [Field K] [LinearOrder K] [FloorRing K] [IsStrictOrderedRing K] in
theorem updateFirst_head? (waypoints : List (PlannerWaypoint K)) :
    (updateFirst waypoints).head?.map PlannerWaypoint.pose =
      waypoints.head?.map PlannerWaypoint.pose := by
  fun_cases updateFirst waypoints with
  | case1 first second later => rfl
  | case2 waypoints => rfl

section
omit [IsStrictOrderedRing K]

theorem setPath_eq (hroot : parents nodes start = none)
    (hpath : PathTo (parents nodes) start (key :: path)) {fuel : ℕ} (hfuel : path.length < fuel) :
    setPath geometry costmap search nodes fuel key =
      some (updateFirst ((key :: path).reverse.map fun key =>
        toWaypoint geometry costmap search (nodes.graph key))) := by
  rw [List.map_reverse]
  exact congrArg (Option.map _) (hpath.follow hroot hfuel)

theorem eq_of_setPath
    (hroot : parents nodes start = none) (hpath : PathTo (parents nodes) start (key :: path))
    {fuel : ℕ} {waypoints : List (PlannerWaypoint K)}
    (hset : setPath geometry costmap search nodes fuel key = some waypoints) :
    waypoints = updateFirst ((key :: path).reverse.map fun key =>
      toWaypoint geometry costmap search (nodes.graph key)) := by
  obtain ⟨found, hfound, rfl⟩ := Option.map_eq_some_iff.mp hset
  rw [hpath.eq_of_follow hroot hfound, List.map_reverse]

end

/-- When the search finds a goal, the loop of `setPath` ends, and the waypoints are those of a
path of transitions from the start to the goal. -/
theorem plans_valid (geometry : Geometry K G) (search : AstarSearch K G)
    (costmap : OccupancyGrid K G) (startPose goalPose : Pose K)
    (hsize : 1 ≤ search.planner.plannerCommonParam.thetaSize) :
    (∀ started nodes key,
      Finds geometry costmap (setMap geometry search costmap) startPose goalPose started nodes key →
      ∃ rounds waypoints, ∀ fuel, rounds ≤ fuel →
        setPath geometry costmap started (close nodes key) fuel key = some waypoints) ∧
    ∀ result, Plans geometry costmap (setMap geometry search costmap) startPose goalPose result →
      result.startPose = geometry.frames.global2local costmap.origin startPose ∧
      result.goalPose = geometry.frames.global2local costmap.origin goalPose ∧
      result.transitionTable = search.transitionTable ∧
      (∃ keys, ValidPath geometry costmap result result.nodes keys ∧ result.waypoints = updateFirst
          (keys.map fun key => toWaypoint geometry costmap result (result.nodes.graph key))) ∧
      (Planar geometry.frames costmap.origin → ∀ first, result.waypoints.head? = some first →
        first.pose.x = startPose.x ∧ first.pose.y = startPose.y) := by
  constructor
  · intro started nodes key hfinds
    obtain ⟨start, path, hroot, hpath, _⟩ := exists_path_of_finds hsize hfinds
    exact ⟨path.length + 1, _, fun fuel hfuel => setPath_eq hroot hpath hfuel⟩
  · rintro result ⟨hfinds, hset⟩
    rename_i started nodes key fuel waypoints
    obtain ⟨start, path, hroot, hpath, hvalid⟩ := exists_path_of_finds hsize hfinds
    obtain ⟨_, hbegun⟩ := exists_begun_of_starts hsize hfinds.starts
    obtain rfl := eq_of_setPath hroot hpath hset
    have hstart : started.startPose = geometry.frames.global2local costmap.origin startPose := by
      rw [hbegun.eq_search]
      rfl
    refine ⟨hstart, ?_, ?_, ⟨(key :: path).reverse, ⟨hvalid.nodup, hvalid.parents, hvalid.start,
      hvalid.reached, hvalid.free, hvalid.goal⟩, rfl⟩, ?_⟩
    · dsimp only
      rw [hbegun.eq_search]
      rfl
    · dsimp only
      rw [hbegun.eq_search]
      rfl
    · intro hplanar first hfirst
      obtain ⟨head, hhead, _, hx, hy⟩ := hvalid.start
      have hpose := congrArg (Option.map PlannerWaypoint.pose) hfirst
      rw [updateFirst_head?, List.head?_map, hhead] at hpose
      have hlocal : geometry.frames.local2global costmap.origin
          (node2pose geometry started ((close nodes key).graph head)) = first.pose :=
        Option.some.inj hpose
      rw [← hlocal, node2pose, hx, hy, hstart]
      exact hplanar startPose _ _

/-- Poses on a line along the costmap, without a turn. -/
def lineGeometry : Geometry ℚ Unit where
  angles := straightAngles
  frames := ⟨fun _ pose => pose, fun _ pose => pose⟩
  calcRelativePose base pose := ⟨pose.x - base.x, pose.y - base.y, pose.z - base.z,
    pose.yaw - base.yaw⟩
  calcReedsSheppDistance _ first second := |first.x - second.x|

/-- A vehicle of two cells, whose base link is in the middle. -/
def lineShape : VehicleShape ℚ :=
  .ofVehicleInfo ⟨1 / 2, 1 / 2, 1 / 2, 1, 0, 0⟩ 0

/-- A planner whose only move is one cell straight ahead. -/
def lineSearch : AstarSearch ℚ Unit :=
  let param : SearchParam ℚ := ⟨7 / 44, 7 / 44, 0, 2, 1, 1, 60⟩
  ofTable (create ⟨1, 100⟩ lineShape) param ⟨false, false, 1⟩
    (createTransitionTable straightAngles param 1 false)

/-- The planner that looks for a path between two neighboring cells. -/
def lineStarted : AstarSearch ℚ Unit :=
  let search := setPoses lineGeometry rowMap (setMap lineGeometry lineSearch rowMap)
    ⟨1, 0, 0, 0⟩ ⟨2, 0, 0, 0⟩
  { search with nodes := startNodes lineGeometry rowMap search 1 }

theorem starts_line : Starts lineGeometry rowMap (setMap lineGeometry lineSearch rowMap)
    ⟨1, 0, 0, 0⟩ ⟨2, 0, 0, 0⟩ lineStarted :=
  ⟨setStartNode_of_free rfl (by decide +kernel) (by decide +kernel), by decide +kernel⟩

theorem plans_line : ∃ result, Plans lineGeometry rowMap (setMap lineGeometry lineSearch rowMap)
    ⟨1, 0, 0, 0⟩ ⟨2, 0, 0, 0⟩ result := by
  have hsome : (expand lineGeometry rowMap lineStarted (close lineStarted.nodes 1) 1).map
      (fun later => (later.openlist, isGoal lineGeometry lineStarted (later.graph 2))) =
        some ([2], true) := by decide +kernel
  obtain ⟨later, hexpand, hlater⟩ := Option.map_eq_some_iff.mp hsome
  obtain ⟨hopenlist, hgoal⟩ := Prod.mk.inj hlater
  have hstep : Step lineGeometry rowMap lineStarted lineStarted.nodes 1 later :=
    .expand ⟨List.mem_singleton_self 1, fun other hother => by
      rw [List.mem_singleton.mp hother]⟩ (by decide +kernel) hexpand
  have hfinds : Finds lineGeometry rowMap (setMap lineGeometry lineSearch rowMap) ⟨1, 0, 0, 0⟩
      ⟨2, 0, 0, 0⟩ lineStarted later 2 := by
    refine ⟨starts_line, ⟨[1], .single hstep⟩, ⟨?_, fun other hother => ?_⟩, hgoal⟩
    · rw [hopenlist]
      exact List.mem_singleton_self 2
    · rw [hopenlist] at hother
      rw [List.mem_singleton.mp hother]
  obtain ⟨_, path, hroot, hpath, _⟩ := exists_path_of_finds le_rfl hfinds
  exact ⟨_, .found hfinds (setPath_eq hroot hpath (Nat.lt_succ_self _))⟩

theorem plans_valid_line : ∃ result keys,
    Plans lineGeometry rowMap (setMap lineGeometry lineSearch rowMap) ⟨1, 0, 0, 0⟩ ⟨2, 0, 0, 0⟩
        result ∧
      ValidPath lineGeometry rowMap result result.nodes keys := by
  obtain ⟨result, hplans⟩ := plans_line
  obtain ⟨_, _, _, ⟨keys, hvalid, _⟩, _⟩ :=
    (plans_valid lineGeometry lineSearch rowMap ⟨1, 0, 0, 0⟩ ⟨2, 0, 0, 0⟩ le_rfl).2 result hplans
  exact ⟨result, keys, hplans, hvalid⟩

end

variable {K G : Type} [Field K] [LinearOrder K] [FloorRing K] {geometry : Geometry K G}
  {costmap : OccupancyGrid K G} {search started : AstarSearch K G} {nodes later : Nodes K}

/-- The transitions of a closed node were gone through, and it is not a goal. -/
def ClosedExplored (geometry : Geometry K G) (costmap : OccupancyGrid K G)
    (search : AstarSearch K G) (nodes : Nodes K) (key : ℤ) : Prop :=
  isGoal geometry search (nodes.graph key) = false ∧
    ∃ row, rowOf geometry search (nodes.graph key) = some row ∧ ∀ transition ∈ row,
      Explored geometry costmap search (nodes.graph key) nodes transition

structure Closure (geometry : Geometry K G) (costmap : OccupancyGrid K G) (search : AstarSearch K G)
    (nodes : Nodes K) : Prop where
  start : ∃ key, search.getKey (cellOfPose geometry costmap search search.startPose) = some key ∧
    Visited nodes key
  closed : ∀ key, Visited nodes key →
    (nodes.graph key).status = .Closed ∧ isGoal geometry search (nodes.graph key) = false
  reached : ∀ key, (nodes.graph key).status = .Closed →
    ∃ row, rowOf geometry search (nodes.graph key) = some row ∧ ∀ transition ∈ row,
      detectCollision search.planner
        (nextIndex geometry costmap search (nodes.graph key) transition) = some false →
      ∃ next, (nodes.graph next).status = .Closed ∧
        nodeIndex geometry costmap search (nodes.graph next) =
          nextIndex geometry costmap search (nodes.graph key) transition

variable [IsStrictOrderedRing K]

theorem closedExplored_step {start key : ℤ} (hsound : Sound geometry costmap search start nodes)
    (hexplored : ∀ key, (nodes.graph key).status = .Closed →
      ClosedExplored geometry costmap search nodes key)
    (hstep : Step geometry costmap search nodes key later) :
    ∀ key, (later.graph key).status = .Closed →
      ClosedExplored geometry costmap search later key := by
  obtain ⟨row, hrow, hexpanded⟩ := expanded_step hsound hstep
  cases hstep with
  | expand htop hgoal _ =>
    have hkey : Visited nodes key := visited_of_open ((hsound.mem_openlist key).mp htop.1)
    intro other hclosed
    have hclosedBefore := hexpanded.closed other hclosed
    have hkept : later.graph other = (close nodes key).graph other :=
      hexpanded.keeps other (visited_of_closed hclosedBefore)
    rw [close_graph] at hclosedBefore hkept
    rw [ClosedExplored, hkept]
    by_cases heq : other = key
    · subst heq
      exact ⟨hgoal, row, hrow, hexpanded.explored⟩
    · dsimp only at hclosedBefore
      rw [if_neg heq] at hclosedBefore
      obtain ⟨hnotGoal, otherRow, hotherRow, hall⟩ := hexplored other hclosedBefore
      refine ⟨hnotGoal, otherRow, hotherRow, fun transition htransition => ?_⟩
      exact (hall transition htransition).mono fun v hv =>
        hexpanded.keeps.visited ((visited_close hkey).mpr hv)

theorem closedExplored_run {start : ℤ} (hbegun : Begun geometry costmap search started start)
    {keys : List ℤ} (hrun : Run (Step geometry costmap started) started.nodes keys nodes) :
    Sound geometry costmap started start nodes ∧ ∀ key, (nodes.graph key).status = .Closed →
      ClosedExplored geometry costmap started nodes key := by
  refine hrun.preserves (fun nodes => Sound geometry costmap started start nodes ∧
    ∀ key, (nodes.graph key).status = .Closed → ClosedExplored geometry costmap started nodes key)
    ?_ ⟨hbegun.sound, fun key hclosed => absurd hclosed (hbegun.not_closed key)⟩
  rintro before key after ⟨hsound, hexplored⟩ hstep
  obtain ⟨_, _, hexpanded⟩ := expanded_step hsound hstep
  exact ⟨hexpanded.sound, closedExplored_step hsound hexplored hstep⟩

/-! ## Free cells -/

theorem inRange_of_free {param : PlannerCommonParam} {shape : VehicleShape K}
    {earlier : List (OccupancyGrid K G)} (hinside : BaseInside shape)
    (hresolution : ∀ map ∈ earlier ++ [costmap], 0 < map.resolution) {index : IndexXYT}
    (htheta : 0 ≤ index.theta ∧ index.theta < param.thetaSize)
    (hfree : detectCollision (setMaps geometry.angles param shape (earlier ++ [costmap])) index =
      some false) : InRange costmap index.x index.y := by
  obtain ⟨first, later, hlist⟩ : ∃ first later, earlier ++ [costmap] = first :: later :=
    List.exists_cons_of_ne_nil (by simp)
  have hholds := holds_setMaps geometry.angles param shape (earlier ++ [costmap])
  have hempty : (setMaps geometry.angles param shape
      (earlier ++ [costmap])).collIndexesTable.isEmpty = decide (param.thetaSize = 0) :=
    isEmpty_collIndexesTable (by simp)
  have hlookup := (hlist ▸ hholds).lookup htheta
  rw [← hlist] at hlookup
  have hcollIndexes : ¬(setMaps geometry.angles param shape
      (earlier ++ [costmap])).collIndexesTable.isEmpty = true := by
    rw [hempty, decide_eq_true_iff]
    omega
  rw [detectCollision, hholds.costmap, List.getLast?_concat] at hfree
  dsimp only at hfree
  rw [if_neg hcollIndexes, hlookup.2, Option.bind_eq_bind, Option.bind_some] at hfree
  split at hfree
  · cases hfree
  · rename_i hvertices
    have hfirst : 0 < first.resolution := hresolution first (hlist ▸ List.mem_cons_self)
    have hvertexRange : ∀ vertex ∈ (computeCollisionIndexes geometry.angles shape first
        param.thetaSize index.theta).2,
        InRange costmap (vertex.x + index.x) (vertex.y + index.y) := by
      intro vertex hvertex
      exact isOutOfRange_eq_false.mp (Bool.eq_false_iff.mpr fun hout =>
        hvertices (List.any_eq_true.mpr ⟨vertex, hvertex, hout⟩))
    exact base_inRange geometry.angles hfirst hinside hvertexRange

theorem closure_of_run {start : ℤ} {keys : List ℤ}
    (hsize : 1 ≤ started.planner.plannerCommonParam.thetaSize)
    (hbegun : Begun geometry costmap search started start)
    (hrun : Run (Step geometry costmap started) started.nodes keys nodes)
    (hempty : nodes.openlist = []) (hdistinct : KeysDistinct started costmap)
    (hrange : ∀ index : IndexXYT, 0 ≤ index.theta →
      index.theta < started.planner.plannerCommonParam.thetaSize →
      detectCollision started.planner index = some false → InRange costmap index.x index.y) :
    Closure geometry costmap started nodes := by
  obtain ⟨hsound, hexplored⟩ := closedExplored_run hbegun hrun
  have hindex {pose : Pose K} (hfree : detectCollision started.planner
      (cellOfPose geometry costmap started pose) = some false) :
      IndexInRange costmap started.planner.plannerCommonParam.thetaSize
        (cellOfPose geometry costmap started pose) := by
    have hbounds := discretizeAngle_bounds geometry.angles pose.yaw hsize
    exact ⟨hrange _ hbounds.1 hbounds.2 hfree, hbounds⟩
  have hclosed {key : ℤ} (hvisited : Visited nodes key) :
      (nodes.graph key).status = .Closed := by
    cases hstatus : (nodes.graph key).status with
    | None => exact absurd hstatus hvisited
    | Open =>
      rw [← hsound.mem_openlist, hempty] at hstatus
      cases hstatus
    | Closed => rfl
  constructor
  case start =>
    refine ⟨start, ?_, hsound.visited_start⟩
    rw [hbegun.eq_search]
    exact hbegun.key_eq
  case closed =>
    intro key hvisited
    exact ⟨hclosed hvisited, (hexplored key (hclosed hvisited)).1⟩
  case reached =>
    intro key hkeyClosed
    obtain ⟨_, row, hrow, hall⟩ := hexplored key hkeyClosed
    refine ⟨row, hrow, fun transition htransition hfree => ?_⟩
    obtain ⟨next, hnext, hvisited⟩ := hall transition htransition hfree
    refine ⟨next, hclosed hvisited, ?_⟩
    exact hdistinct.injective _ _ (hindex (hsound.free next hvisited)) (hindex hfree)
      ((hsound.key_eq next hvisited).trans hnext.symm)

/-- Every cell has a key of its own, and a search that runs out of nodes has visited what its
transitions lead to: this is so exactly if the costmap is not wider than high, or has one row only,
and its last key is an `int`. -/
theorem nodesComplete_iff (geometry : Geometry K G) (search : AstarSearch K G)
    (param : PlannerCommonParam) (shape : VehicleShape K) (earlier : List (OccupancyGrid K G))
    (costmap : OccupancyGrid K G)
    (hplanner : search.planner = setMaps geometry.angles param shape earlier)
    (hyScale : search.yScale = param.thetaSize) (hsize : 1 ≤ param.thetaSize)
    (hinside : BaseInside shape) (hresolution : ∀ map ∈ earlier ++ [costmap], 0 < map.resolution) :
    (KeysDistinct (setMap geometry search costmap) costmap ∧
      ∀ startPose goalPose started nodes keys,
        Starts geometry costmap (setMap geometry search costmap) startPose goalPose started →
        Run (Step geometry costmap started) started.nodes keys nodes → nodes.openlist = [] →
        Closure geometry costmap started nodes) ↔
      costmap.width = 0 ∨ costmap.height = 0 ∨
        (costmap.width ≤ costmap.height ∨ costmap.height ≤ 1) ∧
          ((costmap.height - 1) * costmap.height + costmap.width) * param.thetaSize ≤ 2 ^ 31 := by
  have hparam : search.planner.plannerCommonParam = param := by
    rw [hplanner]
    exact (holds_setMaps geometry.angles param shape earlier).plannerCommonParam
  have hscales : Scales (setMap geometry search costmap) costmap :=
    ⟨rfl, hyScale.trans (congrArg (fun p => (p.thetaSize : ℤ)) hparam.symm)⟩
  have hmap : (setMap geometry search costmap).planner =
      setMaps geometry.angles param shape (earlier ++ [costmap]) := by
    rw [setMaps, List.foldl_concat]
    exact congrArg (Freespace.setMap geometry.angles · costmap) hplanner
  have hiff := keysDistinct_iff hscales (hparam ▸ hsize)
  rw [show (setMap geometry search costmap).planner.plannerCommonParam = param from hparam] at hiff
  rw [← hiff]
  refine ⟨And.left, fun hdistinct => ⟨hdistinct, ?_⟩⟩
  intro startPose goalPose started nodes keys hstarts hrun hempty
  obtain ⟨start, hbegun⟩ := exists_begun_of_starts (hparam ▸ hsize) hstarts
  have hstartedPlanner : started.planner = (setMap geometry search costmap).planner := by
    rw [hbegun.eq_search]
    rfl
  have hstartedParam : started.planner.plannerCommonParam = param := by
    rw [hstartedPlanner]
    exact hparam
  have hstartedKeys : KeysDistinct started costmap := by
    rw [hbegun.eq_search]
    exact ⟨hdistinct.defined, hdistinct.injective⟩
  refine closure_of_run (hstartedParam ▸ hsize) hbegun hrun hempty hstartedKeys ?_
  intro index hnonneg hlt hfree
  rw [hstartedParam] at hlt
  rw [hstartedPlanner, hmap] at hfree
  exact inRange_of_free hinside hresolution ⟨hnonneg, hlt⟩ hfree

theorem nodesComplete_row : (KeysDistinct (setMap lineGeometry lineSearch rowMap) rowMap ∧
      ∀ startPose goalPose started nodes keys,
        Starts lineGeometry rowMap (setMap lineGeometry lineSearch rowMap) startPose goalPose
          started →
        Run (Step lineGeometry rowMap started) started.nodes keys nodes → nodes.openlist = [] →
        Closure lineGeometry rowMap started nodes) ↔
      rowMap.width = 0 ∨ rowMap.height = 0 ∨ (rowMap.width ≤ rowMap.height ∨ rowMap.height ≤ 1) ∧
          ((rowMap.height - 1) * rowMap.height + rowMap.width) * 1 ≤ 2 ^ 31 :=
  nodesComplete_iff lineGeometry lineSearch ⟨1, 100⟩ lineShape [] rowMap rfl rfl le_rfl
    (baseInside_ofVehicleInfo le_rfl (by norm_num) (by norm_num) (by norm_num)) (by simp [rowMap])

/-- Two rows of three cells. -/
def wideMap : OccupancyGrid ℚ Unit := ⟨3, 2, 1, (), [0, 0, 0, 0, 0, 0]⟩

/-- A planner of a point that moves two cells to the right and one row back. -/
def wideSearch : AstarSearch ℚ Unit :=
  ofTable (create ⟨1, 100⟩ ⟨0, 0, 0⟩) ⟨7 / 44, 7 / 44, 0, 2, 1, 1, 60⟩ ⟨false, false, 1⟩
    [[⟨2, -1, 0, 2, false, false⟩]]

/-- The planner that looks for a path from the second row to the end of the first one. -/
def wideStarted : AstarSearch ℚ Unit :=
  let search := setPoses lineGeometry wideMap (setMap lineGeometry wideSearch wideMap)
    ⟨0, 1, 0, 0⟩ ⟨2, 0, 0, 0⟩
  { search with nodes := startNodes lineGeometry wideMap search 2 }

/-- The cell of the goal has the key of the start, and so it is not visited. -/
theorem wideMap_not_complete : (setMap lineGeometry wideSearch wideMap).getKey ⟨2, 0, 0⟩ =
        (setMap lineGeometry wideSearch wideMap).getKey ⟨0, 1, 0⟩ ∧
      ¬ ∀ startPose goalPose started nodes keys,
        Starts lineGeometry wideMap (setMap lineGeometry wideSearch wideMap) startPose goalPose
          started →
        Run (Step lineGeometry wideMap started) started.nodes keys nodes → nodes.openlist = [] →
        Closure lineGeometry wideMap started nodes := by
  refine ⟨by decide +kernel, fun hcomplete => ?_⟩
  have hstarts : Starts lineGeometry wideMap (setMap lineGeometry wideSearch wideMap)
      ⟨0, 1, 0, 0⟩ ⟨2, 0, 0, 0⟩ wideStarted :=
    ⟨setStartNode_of_free rfl (by decide +kernel) (by decide +kernel), by decide +kernel⟩
  have hsome : (expand lineGeometry wideMap wideStarted (close wideStarted.nodes 2) 2).map
      Nodes.openlist = some [] := by decide +kernel
  obtain ⟨later, hexpand, hopenlist⟩ := Option.map_eq_some_iff.mp hsome
  have hstep : Step lineGeometry wideMap wideStarted wideStarted.nodes 2 later :=
    .expand ⟨List.mem_singleton_self 2, fun other hother => by
      rw [List.mem_singleton.mp hother]⟩ (by decide +kernel) hexpand
  have hclosure := hcomplete _ _ _ _ _ hstarts (.single hstep) hopenlist
  obtain ⟨start, hbegun⟩ := exists_begun_of_starts le_rfl hstarts
  obtain ⟨_, _, hexpanded⟩ := expanded_step hbegun.sound hstep
  have hkey : later.graph 2 = (close wideStarted.nodes 2).graph 2 :=
    hexpanded.keeps 2 (by decide +kernel)
  obtain ⟨row, hrow, hall⟩ := hclosure.reached 2 (by rw [hkey]; decide +kernel)
  rw [hkey] at hrow hall
  have hmove : rowOf lineGeometry wideStarted ((close wideStarted.nodes 2).graph 2) =
      some [⟨2, -1, 0, 2, false, false⟩] := by decide +kernel
  obtain rfl := Option.some.inj (hmove.symm.trans hrow)
  obtain ⟨next, hclosed, hindex⟩ := hall _ List.mem_cons_self (by decide +kernel)
  have hclosedBefore := hexpanded.closed next hclosed
  have hstart : Visited wideStarted.nodes 2 := by decide +kernel
  have hvisited : Visited wideStarted.nodes next :=
    (visited_close hstart).mp (visited_of_closed hclosedBefore)
  obtain rfl : next = 2 := visited_startNodes.mp hvisited
  rw [hkey] at hindex
  exact absurd hindex (by decide +kernel)

end AutowareUniverse.Planning.Freespace.AstarSearch
