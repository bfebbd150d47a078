import AutowareUniverse.Library.SinglePrecision
import Mathlib.Data.List.Sort
import Mathlib.Data.Prod.Lex
import Mathlib.Data.Rat.Floor

/-!
# Costmaps of freespace planning

The planner keeps a table of obstacles and, for each heading, the cells of the footprint and of
its vertices around the cell of the base link.  A collision is looked for in these tables.
-/

namespace AutowareUniverse.Planning.Freespace

section

section

section

section

open Library.SinglePrecision

/-- `info.origin` is left to the transformation of poses. -/
structure OccupancyGrid (K G : Type) where
  width : ℕ
  height : ℕ
  resolution : K
  origin : G
  data : List ℤ

/-- The yaw is that of the orientation. -/
structure Pose (K : Type) where
  x : K
  y : K
  z : K
  yaw : K
  deriving DecidableEq

structure IndexXYT where
  x : ℤ
  y : ℤ
  theta : ℤ
  deriving DecidableEq

structure IndexXY where
  x : ℤ
  y : ℤ
  deriving DecidableEq

structure VehicleShape (K : Type) where
  length : K
  width : K
  base2back : K

structure PlannerCommonParam where
  thetaSize : ℕ
  obstacleThreshold : ℤ

/-- The functions on real numbers that the planner uses. -/
structure Angles (K : Type) [Zero K] [LT K] where
  pi : K
  pi_pos : 0 < pi
  cos : K → K
  sin : K → K

/-- The transformations between the frame of the map and that of the costmap. -/
structure Frames (K G : Type) where
  global2local : G → Pose K → Pose K
  local2global : G → Pose K → Pose K

variable {K G : Type} [Field K] [LinearOrder K] [FloorRing K]

/-- The conversion to `int`, which truncates toward zero. -/
def truncate (value : K) : ℤ :=
  if 0 ≤ value then ⌊value⌋ else ⌈value⌉

/-- `std::fmod`. -/
def fmod (value divisor : K) : K :=
  value - divisor * truncate (value / divisor)

section

variable (angles : Angles K)

/-- `normalizeRadian` with a lower bound. -/
def normalizeRadian (rad minRad : K) : K :=
  let maxRad := minRad + 2 * angles.pi
  let value := fmod rad (2 * angles.pi)
  if minRad ≤ value ∧ value < maxRad then value
  else if value < 0 then value + 2 * angles.pi else value - 2 * angles.pi

/-- `tf2::getYaw` of the quaternion that is created from a yaw. -/
def getYaw (yaw : K) : K :=
  yaw - 2 * angles.pi * ⌈(yaw - angles.pi) / (2 * angles.pi)⌉

def oneAngleRange (thetaSize : ℕ) : K :=
  2 * angles.pi / thetaSize

def discretizeAngle (theta : K) (thetaSize : ℕ) : ℤ :=
  (roundHalfEven (normalizeRadian angles theta 0 / oneAngleRange angles thetaSize)).tmod thetaSize

def pose2index (costmap : OccupancyGrid K G) (poseLocal : Pose K) (thetaSize : ℕ) : IndexXYT where
  x := truncate (poseLocal.x / costmap.resolution)
  y := truncate (poseLocal.y / costmap.resolution)
  theta := discretizeAngle angles poseLocal.yaw thetaSize

def index2pose (costmap : OccupancyGrid K G) (index : IndexXYT) (thetaSize : ℕ) : Pose K where
  x := index.x * costmap.resolution
  y := index.y * costmap.resolution
  z := 0
  yaw := getYaw angles (index.theta * oneAngleRange angles thetaSize)

/-! ## Footprints -/

def samples (start stop step : K) : List K :=
  (List.range (⌊(stop - start) / step⌋ + 1).toNat).map fun k : ℕ => start + k * step

/-- A point of the vehicle, in the frame of the base link, that is turned by a heading. -/
def rotate (theta x y : K) : K × K :=
  (angles.cos theta * x - angles.sin theta * y, angles.sin theta * x + angles.cos theta * y)

variable (shape : VehicleShape K)

def back : K := -1 * shape.base2back
def front : K := shape.length - shape.base2back
def right : K := -1 * shape.width / 2
def left : K := shape.width / 2

/-- The points of the vehicle whose cells are checked. -/
def footprintPoints (resolution : K) : List (K × K) :=
  ((samples (back shape) (front shape) (resolution / 2)).flatMap fun x =>
    ((samples (right shape) (left shape) (resolution / 2)).map fun y => (x, y)) ++
      [(x, left shape)]) ++
  ((samples (right shape) (left shape) (resolution / 2)).map fun y => (front shape, y)) ++
  [(front shape, left shape)]

def vertexPoints : List (K × K) :=
  [(front shape, left shape), (front shape, right shape), (back shape, right shape),
    (back shape, left shape)]

/-- `addIndex2d`, for a base link in the cell at the origin. -/
def addIndex2d (costmap : OccupancyGrid K G) (thetaSize : ℕ) (thetaIndex : ℤ) (point : K × K) :
    IndexXY :=
  let basePose := index2pose angles costmap ⟨0, 0, thetaIndex⟩ thetaSize
  let offset := rotate angles basePose.yaw point.1 point.2
  let index := pose2index angles costmap
    ⟨basePose.x + offset.1, basePose.y + offset.2, 0, 0⟩ thetaSize
  ⟨index.x, index.y⟩

/-- `compareIndex2d`, as the order that is not strict. -/
def indexLe (first second : IndexXY) : Prop :=
  first.x < second.x ∨ first.x = second.x ∧ first.y ≤ second.y

instance : DecidableRel indexLe :=
  fun _ _ => inferInstanceAs (Decidable (_ ∨ _))

/-- `std::unique` and `erase`. -/
def unique : List IndexXY → List IndexXY
  | first :: second :: later =>
    if first = second then unique (second :: later) else first :: unique (second :: later)
  | indexes => indexes

/-- The cells of the footprint and those of the vertices. -/
def computeCollisionIndexes (costmap : OccupancyGrid K G) (thetaSize : ℕ) (thetaIndex : ℤ) :
    List IndexXY × List IndexXY :=
  (unique (((footprintPoints shape costmap.resolution).map
      (addIndex2d angles costmap thetaSize thetaIndex)).insertionSort indexLe),
    (vertexPoints shape).map (addIndex2d angles costmap thetaSize thetaIndex))

end

/-! ## The planner -/

structure AbstractPlanningAlgorithm (K G : Type) where
  plannerCommonParam : PlannerCommonParam
  collisionVehicleShape : VehicleShape K
  costmap : Option (OccupancyGrid K G)
  collIndexesTable : List (List IndexXY)
  vertexIndexesTable : List (List IndexXY)
  isObstacleTable : List (List Bool)

def create (plannerCommonParam : PlannerCommonParam) (collisionVehicleShape : VehicleShape K) :
    AbstractPlanningAlgorithm K G :=
  ⟨plannerCommonParam, collisionVehicleShape, none, [], [], []⟩

def obstacleTable (param : PlannerCommonParam) (costmap : OccupancyGrid K G) : List (List Bool) :=
  (List.range costmap.height).map fun i => (List.range costmap.width).map fun j =>
    let cost := costmap.data.getD (i * costmap.width + j) 0
    decide (cost < 0) || decide (param.obstacleThreshold ≤ cost)

/-- The indexes of the headings are appended to the tables. -/
def setMap (angles : Angles K) (planner : AbstractPlanningAlgorithm K G)
    (costmap : OccupancyGrid K G) : AbstractPlanningAlgorithm K G :=
  let thetaSize := planner.plannerCommonParam.thetaSize
  let indexes := (List.range thetaSize).map fun i =>
    computeCollisionIndexes angles planner.collisionVehicleShape costmap thetaSize (i : ℕ)
  { planner with
    costmap := some costmap
    isObstacleTable := obstacleTable planner.plannerCommonParam costmap
    collIndexesTable := planner.collIndexesTable ++ indexes.map Prod.fst
    vertexIndexesTable := planner.vertexIndexesTable ++ indexes.map Prod.snd }

def isOutOfRange (costmap : OccupancyGrid K G) (x y : ℤ) : Bool :=
  decide (x < 0) || decide ((costmap.width : ℤ) ≤ x) || decide (y < 0) ||
    decide ((costmap.height : ℤ) ≤ y)

def at? {α : Type} (values : List α) (idx : ℤ) : Option α :=
  if idx < 0 then none else values[idx.toNat]?

def isObs (isObstacleTable : List (List Bool)) (x y : ℤ) : Option Bool := do
  let row ← at? isObstacleTable y
  at? row x

/-- The loop over the cells of the footprint. -/
def anyObs (isObstacleTable : List (List Bool)) (baseX baseY : ℤ) : List IndexXY → Option Bool
  | [] => some false
  | collIndex :: later => do
    if ← isObs isObstacleTable (collIndex.x + baseX) (collIndex.y + baseY) then return true
    else anyObs isObstacleTable baseX baseY later

/-- Without a map there is no collision; a read outside of a table is not defined. -/
def detectCollision (planner : AbstractPlanningAlgorithm K G) (baseIndex : IndexXYT) :
    Option Bool :=
  match planner.costmap with
  | none => some false
  | some costmap => do
    if planner.collIndexesTable.isEmpty then return false
    else
      let vertexIndexes ← at? planner.vertexIndexesTable baseIndex.theta
      if vertexIndexes.any fun vertex =>
          isOutOfRange costmap (vertex.x + baseIndex.x) (vertex.y + baseIndex.y) then
        return true
      else
        let collIndexes ← at? planner.collIndexesTable baseIndex.theta
        anyObs planner.isObstacleTable baseIndex.x baseIndex.y collIndexes

/-- The loop over the poses of a trajectory. -/
def anyCollision (angles : Angles K) (frames : Frames K G)
    (planner : AbstractPlanningAlgorithm K G) (costmap : OccupancyGrid K G) :
    List (Pose K) → Option Bool
  | [] => some false
  | pose :: later => do
    let poseLocal := frames.global2local costmap.origin pose
    let index := pose2index angles costmap poseLocal planner.plannerCommonParam.thetaSize
    if ← detectCollision planner index then return true
    else anyCollision angles frames planner costmap later

/-- A planner without a map has an empty costmap, whose resolution is zero. -/
def hasObstacleOnTrajectory (angles : Angles K) (frames : Frames K G)
    (planner : AbstractPlanningAlgorithm K G) (trajectory : List (Pose K)) : Option Bool :=
  match planner.costmap with
  | none => if trajectory.isEmpty then some false else none
  | some costmap => anyCollision angles frames planner costmap trajectory

end

open Library.SinglePrecision

variable {K G : Type} [Field K] [LinearOrder K] [FloorRing K] [IsStrictOrderedRing K]

omit [IsStrictOrderedRing K] in
theorem truncate_mono {first second : K} (hle : first ≤ second) :
    truncate first ≤ truncate second := by
  unfold truncate
  split
  · rename_i hfirst
    rw [if_pos (hfirst.trans hle)]
    exact Int.floor_mono hle
  · rename_i hfirst
    split
    · rename_i hsecond
      exact (Int.ceil_le.mpr (by push_cast; exact (not_le.mp hfirst).le)).trans
        (Int.floor_nonneg.mpr hsecond)
    · exact Int.ceil_mono hle

theorem truncate_bounds (value : K) : -1 < value - truncate value ∧ value - truncate value < 1 ∧
      (0 ≤ value → 0 ≤ value - truncate value) ∧ (value < 0 → value - truncate value ≤ 0) := by
  unfold truncate
  split
  · rename_i hnonneg
    have hfloor := Int.floor_le value
    have hlt := Int.lt_floor_add_one value
    exact ⟨by linarith, by linarith, fun _ => by linarith, fun hneg => by linarith⟩
  · rename_i hneg
    have hceil := Int.le_ceil value
    have hlt := Int.ceil_lt_add_one value
    exact ⟨by linarith, by linarith, fun hnonneg => absurd hnonneg hneg, fun _ => by linarith⟩

/-- The remainder is smaller than the divisor. -/
theorem fmod_bounds (value : K) {divisor : K} (hdivisor : 0 < divisor) :
    -divisor < fmod value divisor ∧ fmod value divisor < divisor := by
  have hbounds := truncate_bounds (value / divisor)
  have heq : fmod value divisor = divisor * (value / divisor - truncate (value / divisor)) := by
    rw [fmod, mul_sub, mul_div_cancel₀ _ hdivisor.ne']
  rw [heq]
  constructor
  · have hlow := mul_lt_mul_of_pos_left hbounds.1 hdivisor
    linarith
  · have hhigh := mul_lt_mul_of_pos_left hbounds.2.1 hdivisor
    linarith

variable (angles : Angles K)

theorem normalizeRadian_bounds (rad : K) :
    0 ≤ normalizeRadian angles rad 0 ∧ normalizeRadian angles rad 0 < 2 * angles.pi := by
  have hpi := angles.pi_pos
  obtain ⟨hlow, hhigh⟩ := fmod_bounds rad (mul_pos two_pos hpi)
  unfold normalizeRadian
  dsimp only
  split
  · rename_i hvalue
    exact ⟨hvalue.1, by linarith⟩
  · rename_i hvalue
    split
    · exact ⟨by linarith, by linarith⟩
    · rename_i hnonneg
      exact absurd ⟨not_lt.mp hnonneg, by linarith⟩ hvalue

/-- A heading is an index of the tables. -/
theorem discretizeAngle_bounds (theta : K) {thetaSize : ℕ} (hsize : 1 ≤ thetaSize) :
    0 ≤ discretizeAngle angles theta thetaSize ∧
      discretizeAngle angles theta thetaSize < thetaSize := by
  have hrange : 0 < oneAngleRange angles thetaSize :=
    div_pos (mul_pos two_pos angles.pi_pos) (by exact_mod_cast hsize)
  have hround : 0 ≤ roundHalfEven (normalizeRadian angles theta 0 / oneAngleRange angles thetaSize) :=
    (Int.floor_nonneg.mpr (div_nonneg (normalizeRadian_bounds angles theta).1 hrange.le)).trans
      (floor_le_roundHalfEven _)
  unfold discretizeAngle
  exact ⟨Int.tmod_nonneg _ hround, Int.tmod_lt_of_pos _ (by omega)⟩

theorem mem_samples {start stop step value : K} (hstep : 0 < step)
    (hmem : value ∈ samples start stop step) : start ≤ value ∧ value ≤ stop := by
  obtain ⟨k, hk, rfl⟩ := List.mem_map.mp hmem
  have hfloor : (k : ℤ) ≤ ⌊(stop - start) / step⌋ := by
    have := List.mem_range.mp hk
    omega
  have hle : (k : K) ≤ (stop - start) / step := by
    have hcast := Int.le_floor.mp hfloor
    exact_mod_cast hcast
  rw [le_div_iff₀ hstep] at hle
  exact ⟨le_add_of_nonneg_right (mul_nonneg k.cast_nonneg hstep.le), by linarith⟩

theorem samples_eq {start stop step : K} (hstep : 0 < step) : samples start stop step =
      if start ≤ stop then start :: samples (start + step) stop step else [] := by
  have hshift : (stop - (start + step)) / step = (stop - start) / step - 1 := by
    rw [← sub_sub, sub_div, div_self hstep.ne']
  unfold samples
  rw [hshift, Int.floor_sub_one, sub_add_cancel]
  split
  · rename_i hle
    have hnonneg : 0 ≤ ⌊(stop - start) / step⌋ :=
      Int.floor_nonneg.mpr (div_nonneg (sub_nonneg.mpr hle) hstep.le)
    have hsucc : (⌊(stop - start) / step⌋ + 1).toNat = ⌊(stop - start) / step⌋.toNat + 1 := by omega
    rw [hsucc, List.range_succ_eq_map, List.map_cons, List.map_map]
    refine congrArg₂ List.cons (by simp) (List.map_congr_left fun k _ => ?_)
    simp only [Function.comp_apply, Nat.succ_eq_add_one, Nat.cast_add, Nat.cast_one]
    ring
  · rename_i hlt
    have hneg : ⌊(stop - start) / step⌋ < 0 :=
      Int.floor_lt.mpr (by
        rw [Int.cast_zero]
        exact div_neg_of_neg_of_pos (sub_neg.mpr (not_le.mp hlt)) hstep)
    rw [show (⌊(stop - start) / step⌋ + 1).toNat = 0 by omega]
    rfl

/-- A coordinate between two others; a loop that is not entered leaves the second one. -/
def Spans (first second value : K) : Prop :=
  (first ≤ value ∧ value ≤ second) ∨ value = second

omit [FloorRing K] in
theorem Spans.exists_le {first second value : K} (hspans : Spans first second value) (factor : K) :
    ∃ bound, (bound = first ∨ bound = second) ∧ factor * bound ≤ factor * value := by
  rcases hspans with ⟨hfirst, hsecond⟩ | rfl
  · rcases le_total 0 factor with hfactor | hfactor
    · exact ⟨first, .inl rfl, mul_le_mul_of_nonneg_left hfirst hfactor⟩
    · exact ⟨second, .inr rfl, mul_le_mul_of_nonpos_left hsecond hfactor⟩
  · exact ⟨value, .inr rfl, le_rfl⟩

variable {shape : VehicleShape K} {point : K × K}

theorem mem_footprintPoints {resolution : K} (hresolution : 0 < resolution)
    (hmem : point ∈ footprintPoints shape resolution) :
    Spans (back shape) (front shape) point.1 ∧ Spans (right shape) (left shape) point.2 := by
  have hhalf : 0 < resolution / 2 := half_pos hresolution
  simp only [footprintPoints, List.mem_append, List.mem_flatMap, List.mem_map,
    List.mem_singleton] at hmem
  rcases hmem with (⟨x, hx, ⟨y, hy, rfl⟩ | rfl⟩ | ⟨y, hy, rfl⟩) | rfl
  · exact ⟨.inl (mem_samples hhalf hx), .inl (mem_samples hhalf hy)⟩
  · exact ⟨.inl (mem_samples hhalf hx), .inr rfl⟩
  · exact ⟨.inr rfl, .inl (mem_samples hhalf hy)⟩
  · exact ⟨.inr rfl, .inr rfl⟩

omit [LinearOrder K] [FloorRing K] [IsStrictOrderedRing K] in
theorem mem_vertexPoints {x y : K} (hx : x = back shape ∨ x = front shape)
    (hy : y = right shape ∨ y = left shape) : (x, y) ∈ vertexPoints shape := by
  rcases hx with rfl | rfl
  · rcases hy with rfl | rfl
    · simp [vertexPoints]
    · simp [vertexPoints]
  · rcases hy with rfl | rfl
    · simp [vertexPoints]
    · simp [vertexPoints]

omit [FloorRing K] in
theorem exists_vertex_le
    (hpoint : Spans (back shape) (front shape) point.1 ∧ Spans (right shape) (left shape) point.2)
    (first second : K) :
    ∃ vertex ∈ vertexPoints shape,
      first * vertex.1 + second * vertex.2 ≤ first * point.1 + second * point.2 := by
  obtain ⟨x, hx, hxle⟩ := hpoint.1.exists_le first
  obtain ⟨y, hy, hyle⟩ := hpoint.2.exists_le second
  exact ⟨(x, y), mem_vertexPoints hx hy, add_le_add hxle hyle⟩

/-! ## Cells of the footprint -/

variable {costmap : OccupancyGrid K G} {thetaSize : ℕ} {thetaIndex : ℤ}

section
omit [IsStrictOrderedRing K]

theorem addIndex2d_x (point : K × K) : (addIndex2d angles costmap thetaSize thetaIndex point).x =
      truncate ((rotate angles (getYaw angles (thetaIndex * oneAngleRange angles thetaSize))
        point.1 point.2).1 / costmap.resolution) := by
  simp [addIndex2d, index2pose, pose2index]

theorem addIndex2d_y (point : K × K) : (addIndex2d angles costmap thetaSize thetaIndex point).y =
      truncate ((rotate angles (getYaw angles (thetaIndex * oneAngleRange angles thetaSize))
        point.1 point.2).2 / costmap.resolution) := by
  simp [addIndex2d, index2pose, pose2index]

end

structure Enclosed (vertexIndexes : List IndexXY) (cell : IndexXY) : Prop where
  x_low : ∃ vertex ∈ vertexIndexes, vertex.x ≤ cell.x
  x_high : ∃ vertex ∈ vertexIndexes, cell.x ≤ vertex.x
  y_low : ∃ vertex ∈ vertexIndexes, vertex.y ≤ cell.y
  y_high : ∃ vertex ∈ vertexIndexes, cell.y ≤ vertex.y

theorem enclosed_addIndex2d (hresolution : 0 < costmap.resolution)
    (hpoint : Spans (back shape) (front shape) point.1 ∧ Spans (right shape) (left shape) point.2) :
    Enclosed ((vertexPoints shape).map (addIndex2d angles costmap thetaSize thetaIndex))
      (addIndex2d angles costmap thetaSize thetaIndex point) := by
  have hcell {first second : K} (hle : first ≤ second) :
      truncate (first / costmap.resolution) ≤ truncate (second / costmap.resolution) :=
    truncate_mono (div_le_div_of_nonneg_right hle hresolution.le)
  generalize hyaw : getYaw angles (thetaIndex * oneAngleRange angles thetaSize) = yaw
  constructor
  · obtain ⟨vertex, hvertex, hle⟩ := exists_vertex_le hpoint (angles.cos yaw) (-angles.sin yaw)
    refine ⟨_, List.mem_map_of_mem hvertex, ?_⟩
    rw [addIndex2d_x, addIndex2d_x, hyaw]
    exact hcell (by simp only [rotate]; linarith)
  · obtain ⟨vertex, hvertex, hle⟩ := exists_vertex_le hpoint (-angles.cos yaw) (angles.sin yaw)
    refine ⟨_, List.mem_map_of_mem hvertex, ?_⟩
    rw [addIndex2d_x, addIndex2d_x, hyaw]
    exact hcell (by simp only [rotate]; linarith)
  · obtain ⟨vertex, hvertex, hle⟩ := exists_vertex_le hpoint (angles.sin yaw) (angles.cos yaw)
    refine ⟨_, List.mem_map_of_mem hvertex, ?_⟩
    rw [addIndex2d_y, addIndex2d_y, hyaw]
    exact hcell hle
  · obtain ⟨vertex, hvertex, hle⟩ := exists_vertex_le hpoint (-angles.sin yaw) (-angles.cos yaw)
    refine ⟨_, List.mem_map_of_mem hvertex, ?_⟩
    rw [addIndex2d_y, addIndex2d_y, hyaw]
    exact hcell (by simp only [rotate]; linarith)

variable {cell : IndexXY}

omit [Field K] [LinearOrder K] [FloorRing K] [IsStrictOrderedRing K] in
theorem mem_unique {indexes : List IndexXY} :
    cell ∈ unique indexes ↔ cell ∈ indexes := by
  fun_induction unique indexes with
  | case1 first later ih =>
    rw [ih]
    exact (or_iff_right_of_imp fun heq => heq ▸ List.mem_cons_self).symm.trans List.mem_cons.symm
  | case2 first second later hne ih => rw [List.mem_cons, ih, ← List.mem_cons]
  | case3 indexes => rfl

omit [IsStrictOrderedRing K] in
theorem mem_collisionIndexes :
    cell ∈ (computeCollisionIndexes angles shape costmap thetaSize thetaIndex).1 ↔
      ∃ point ∈ footprintPoints shape costmap.resolution,
        addIndex2d angles costmap thetaSize thetaIndex point = cell := by
  rw [computeCollisionIndexes, mem_unique, List.mem_insertionSort, List.mem_map]

def InRange (costmap : OccupancyGrid K G) (x y : ℤ) : Prop :=
  0 ≤ x ∧ x < costmap.width ∧ 0 ≤ y ∧ y < costmap.height

section
omit [Field K] [LinearOrder K] [FloorRing K] [IsStrictOrderedRing K]

theorem isOutOfRange_eq_false {x y : ℤ} :
    isOutOfRange costmap x y = false ↔ InRange costmap x y := by
  simp only [isOutOfRange, InRange, Bool.or_eq_false_iff, decide_eq_false_iff_not]
  omega

theorem Enclosed.inRange {vertexIndexes : List IndexXY}
    (henclosed : Enclosed vertexIndexes cell) {baseX baseY : ℤ}
    (hvertices : ∀ vertex ∈ vertexIndexes, InRange costmap (vertex.x + baseX) (vertex.y + baseY)) :
    InRange costmap (cell.x + baseX) (cell.y + baseY) := by
  obtain ⟨xLow, hxLow, hxLowLe⟩ := henclosed.x_low
  obtain ⟨xHigh, hxHigh, hxHighLe⟩ := henclosed.x_high
  obtain ⟨yLow, hyLow, hyLowLe⟩ := henclosed.y_low
  obtain ⟨yHigh, hyHigh, hyHighLe⟩ := henclosed.y_high
  have hxLow := (hvertices xLow hxLow).1
  have hxHigh := (hvertices xHigh hxHigh).2.1
  have hyLow := (hvertices yLow hyLow).2.2.1
  have hyHigh := (hvertices yHigh hyHigh).2.2.2
  exact ⟨by omega, by omega, by omega, by omega⟩

end

variable {baseX baseY : ℤ}

theorem footprint_inRange (hresolution : 0 < costmap.resolution)
    (hvertices : ∀ vertex ∈ (computeCollisionIndexes angles shape costmap thetaSize thetaIndex).2,
      InRange costmap (vertex.x + baseX) (vertex.y + baseY)) :
    ∀ cell ∈ (computeCollisionIndexes angles shape costmap thetaSize thetaIndex).1,
      InRange costmap (cell.x + baseX) (cell.y + baseY) := by
  intro cell hcell
  obtain ⟨point, hpoint, rfl⟩ := (mem_collisionIndexes angles).mp hcell
  exact (enclosed_addIndex2d angles hresolution (mem_footprintPoints hresolution hpoint)).inRange
    hvertices

structure BaseInside (shape : VehicleShape K) : Prop where
  base2back : 0 ≤ shape.base2back ∧ shape.base2back ≤ shape.length
  width : 0 ≤ shape.width

structure VehicleInfo (K : Type) where
  wheelBase : K
  wheelTread : K
  frontOverhang : K
  rearOverhang : K
  leftOverhang : K
  rightOverhang : K

def VehicleShape.ofVehicleInfo (vehicleInfo : VehicleInfo K) (margin : K) : VehicleShape K where
  length := vehicleInfo.frontOverhang + vehicleInfo.wheelBase + vehicleInfo.rearOverhang + margin
  width := vehicleInfo.wheelTread + vehicleInfo.leftOverhang + vehicleInfo.rightOverhang + margin
  base2back := vehicleInfo.rearOverhang + margin / 2

omit [FloorRing K] in
theorem baseInside_ofVehicleInfo {vehicleInfo : VehicleInfo K} {margin : K} (hmargin : 0 ≤ margin)
    (hlength : 0 ≤ vehicleInfo.frontOverhang + vehicleInfo.wheelBase)
    (hrear : 0 ≤ vehicleInfo.rearOverhang)
    (hwidth : 0 ≤ vehicleInfo.wheelTread + vehicleInfo.leftOverhang + vehicleInfo.rightOverhang) :
    BaseInside (VehicleShape.ofVehicleInfo vehicleInfo margin) where
  base2back := by
    simp only [VehicleShape.ofVehicleInfo]
    constructor
    · linarith
    · linarith
  width := by
    simp only [VehicleShape.ofVehicleInfo]
    linarith

theorem base_inRange (hresolution : 0 < costmap.resolution) (hinside : BaseInside shape)
    {map : OccupancyGrid K G}
    (hvertices : ∀ vertex ∈ (computeCollisionIndexes angles shape costmap thetaSize thetaIndex).2,
      InRange map (vertex.x + baseX) (vertex.y + baseY)) :
    InRange map baseX baseY := by
  have hbase : Spans (back shape) (front shape) 0 ∧ Spans (right shape) (left shape) 0 := by
    have hlength := hinside.base2back
    have hwidth := hinside.width
    refine ⟨.inl ⟨?_, ?_⟩, .inl ⟨?_, ?_⟩⟩
    · rw [back]
      linarith
    · rw [front]
      linarith
    · rw [right]
      linarith
    · rw [left]
      linarith
  have henclosed : Enclosed (computeCollisionIndexes angles shape costmap thetaSize thetaIndex).2
      (addIndex2d angles costmap thetaSize thetaIndex (0, 0)) :=
    enclosed_addIndex2d angles hresolution hbase
  have hzero : addIndex2d angles costmap thetaSize thetaIndex (0, 0) = ⟨0, 0⟩ := by
    simp [addIndex2d, index2pose, pose2index, rotate, truncate]
  rw [hzero] at henclosed
  simpa using henclosed.inRange hvertices

section

omit [Field K] [LinearOrder K] [FloorRing K] [IsStrictOrderedRing K]

theorem at?_range {α : Type} (f : ℕ → α) {n : ℕ} {idx : ℤ} (hnonneg : 0 ≤ idx) (hlt : idx < n) :
    at? ((List.range n).map f) idx = some (f idx.toNat) := by
  rw [at?, if_neg (not_lt.mpr hnonneg), List.getElem?_map, List.getElem?_range (by omega)]
  rfl

def cellIsObstacle (param : PlannerCommonParam) (costmap : OccupancyGrid K G) (x y : ℤ) : Bool :=
  let cost := costmap.data.getD (y.toNat * costmap.width + x.toNat) 0
  decide (cost < 0) || decide (param.obstacleThreshold ≤ cost)

theorem isObs_obstacleTable {param : PlannerCommonParam} {x y : ℤ} (hrange : InRange costmap x y) :
    isObs (obstacleTable param costmap) x y = some (cellIsObstacle param costmap x y) := by
  rw [isObs, obstacleTable, at?_range _ hrange.2.2.1 hrange.2.2.2]
  exact at?_range _ hrange.1 hrange.2.1

theorem anyObs_eq {param : PlannerCommonParam} {collIndexes : List IndexXY}
    (hrange : ∀ cell ∈ collIndexes, InRange costmap (cell.x + baseX) (cell.y + baseY)) :
    anyObs (obstacleTable param costmap) baseX baseY collIndexes =
      some (collIndexes.any fun cell =>
        cellIsObstacle param costmap (cell.x + baseX) (cell.y + baseY)) := by
  induction collIndexes with
  | nil => rfl
  | cons cell later ih =>
    obtain ⟨hcell, hlater⟩ := List.forall_mem_cons.mp hrange
    rw [anyObs, isObs_obstacleTable hcell, ih hlater, List.any_cons]
    cases cellIsObstacle param costmap (cell.x + baseX) (cell.y + baseY) with
    | false => rfl
    | true => rfl

end

section

variable {param : PlannerCommonParam} {baseIndex : IndexXYT}

section
omit [IsStrictOrderedRing K]

theorem vertexIndexesTable_setMap (htheta : 0 ≤ baseIndex.theta ∧ baseIndex.theta < param.thetaSize) :
    at? (setMap angles (create param shape) costmap).vertexIndexesTable baseIndex.theta =
      some (computeCollisionIndexes angles shape costmap param.thetaSize baseIndex.theta).2 := by
  have htable : (setMap angles (create param shape) costmap).vertexIndexesTable =
      (List.range param.thetaSize).map fun i =>
        (computeCollisionIndexes angles shape costmap param.thetaSize (i : ℕ)).2 :=
    List.map_map
  rw [htable, at?_range _ htheta.1 htheta.2, Int.toNat_of_nonneg htheta.1]

theorem collIndexesTable_setMap (htheta : 0 ≤ baseIndex.theta ∧ baseIndex.theta < param.thetaSize) :
    at? (setMap angles (create param shape) costmap).collIndexesTable baseIndex.theta =
      some (computeCollisionIndexes angles shape costmap param.thetaSize baseIndex.theta).1 := by
  have htable : (setMap angles (create param shape) costmap).collIndexesTable =
      (List.range param.thetaSize).map fun i =>
        (computeCollisionIndexes angles shape costmap param.thetaSize (i : ℕ)).1 :=
    List.map_map
  rw [htable, at?_range _ htheta.1 htheta.2, Int.toNat_of_nonneg htheta.1]

end

def vertexOutOfRange (angles : Angles K) (shape : VehicleShape K) (costmap : OccupancyGrid K G)
    (thetaSize : ℕ) (baseIndex : IndexXYT) : Bool :=
  (computeCollisionIndexes angles shape costmap thetaSize baseIndex.theta).2.any fun vertex =>
    isOutOfRange costmap (vertex.x + baseIndex.x) (vertex.y + baseIndex.y)

def footprintHits (angles : Angles K) (shape : VehicleShape K) (param : PlannerCommonParam)
    (costmap : OccupancyGrid K G) (baseIndex : IndexXYT) : Bool :=
  (computeCollisionIndexes angles shape costmap param.thetaSize baseIndex.theta).1.any fun cell =>
    cellIsObstacle param costmap (cell.x + baseIndex.x) (cell.y + baseIndex.y)

theorem detectCollision_setMap (hresolution : 0 < costmap.resolution)
    (htheta : 0 ≤ baseIndex.theta ∧ baseIndex.theta < param.thetaSize) :
    detectCollision (setMap angles (create param shape) costmap) baseIndex =
      some (vertexOutOfRange angles shape costmap param.thetaSize baseIndex ||
        footprintHits angles shape param costmap baseIndex) := by
  have hne : ¬ ((setMap angles (create param shape) costmap).collIndexesTable.isEmpty = true) := by
    simp [setMap, create]
    omega
  rw [detectCollision]
  change (if (setMap angles (create param shape) costmap).collIndexesTable.isEmpty = true then _
    else _) = _
  rw [if_neg hne, vertexIndexesTable_setMap angles htheta]
  simp only [Option.bind_eq_bind, Option.bind_some]
  change (if vertexOutOfRange angles shape costmap param.thetaSize baseIndex = true then _
    else _) = _
  cases hout : vertexOutOfRange angles shape costmap param.thetaSize baseIndex with
  | true => rfl
  | false =>
    rw [if_neg Bool.false_ne_true, collIndexesTable_setMap angles htheta, Bool.false_or]
    refine anyObs_eq (footprint_inRange angles hresolution fun vertex hvertex => ?_)
    exact isOutOfRange_eq_false.mp
      (Bool.eq_false_iff.mpr (List.any_eq_false.mp hout vertex hvertex))

end

/-- The collision check of a pose reads its tables inside only. -/
theorem detectCollision_reads_inside (param : PlannerCommonParam) (shape : VehicleShape K)
    (costmap : OccupancyGrid K G) (pose : Pose K) (hsize : 1 ≤ param.thetaSize)
    (hresolution : 0 < costmap.resolution) :
    let planner := setMap angles (create param shape) costmap
    let index := pose2index angles costmap pose param.thetaSize
    (0 ≤ index.theta ∧ index.theta < param.thetaSize) ∧ (∀ vertexIndexes collIndexes,
        at? planner.vertexIndexesTable index.theta = some vertexIndexes →
        at? planner.collIndexesTable index.theta = some collIndexes →
        (∀ vertex ∈ vertexIndexes,
          isOutOfRange costmap (vertex.x + index.x) (vertex.y + index.y) = false) →
        ∀ cell ∈ collIndexes, InRange costmap (cell.x + index.x) (cell.y + index.y)) ∧
      ∃ answer, detectCollision planner index = some answer := by
  have htheta := discretizeAngle_bounds angles pose.yaw hsize
  refine ⟨htheta, ?_, _, detectCollision_setMap angles hresolution htheta⟩
  intro vertexIndexes collIndexes hvertexIndexes hcollIndexes hvertices
  obtain rfl := Option.some.inj
    ((vertexIndexesTable_setMap angles htheta).symm.trans hvertexIndexes)
  obtain rfl := Option.some.inj ((collIndexesTable_setMap angles htheta).symm.trans hcollIndexes)
  exact footprint_inRange angles hresolution fun vertex hvertex =>
    isOutOfRange_eq_false.mp (hvertices vertex hvertex)

/-! ## A costmap of one row -/

/-- Rational numbers, with the heading of zero. -/
def straightAngles : Angles ℚ := ⟨22 / 7, by norm_num, fun _ => 1, fun _ => 0⟩

def rowMap : OccupancyGrid ℚ Unit := ⟨5, 1, 1, (), [0, 0, 0, 0, 0]⟩

theorem detectCollision_reads_rowMap :
    ∃ answer, detectCollision (setMap straightAngles (create ⟨1, 100⟩ ⟨2, 1 / 2, 1⟩) rowMap)
      (pose2index straightAngles rowMap ⟨2, 0, 0, 0⟩ 1) = some answer :=
  (detectCollision_reads_inside straightAngles ⟨1, 100⟩ ⟨2, 1 / 2, 1⟩ rowMap ⟨2, 0, 0, 0⟩
    le_rfl (by norm_num [rowMap])).2.2

end

/-!
# Headings

A yaw is read back up to full turns, and the heading of a cell is found again from its yaw.
-/

open Library.SinglePrecision

variable {K : Type} [Field K] [LinearOrder K] [FloorRing K] [IsStrictOrderedRing K]
  (angles : Angles K)

theorem two_pi_pos : 0 < 2 * angles.pi :=
  mul_pos two_pos angles.pi_pos

theorem getYaw_sub_turns (yaw : K) (turns : ℤ) :
    getYaw angles (yaw - 2 * angles.pi * turns) = getYaw angles yaw := by
  have hquotient : (yaw - 2 * angles.pi * turns - angles.pi) / (2 * angles.pi) =
      (yaw - angles.pi) / (2 * angles.pi) - turns := by
    rw [sub_right_comm, sub_div, mul_div_cancel_left₀ _ (two_pi_pos angles).ne']
  rw [getYaw, getYaw, hquotient, Int.ceil_sub_intCast]
  push_cast
  ring

theorem getYaw_getYaw (yaw : K) : getYaw angles (getYaw angles yaw) = getYaw angles yaw :=
  getYaw_sub_turns angles yaw _

theorem normalizeRadian_eq (rad : K) :
    normalizeRadian angles rad 0 = rad - 2 * angles.pi * ⌊rad / (2 * angles.pi)⌋ := by
  have hpi := two_pi_pos angles
  obtain ⟨turns, hturns⟩ : ∃ turns : ℤ,
      normalizeRadian angles rad 0 = rad - 2 * angles.pi * turns := by
    unfold normalizeRadian
    dsimp only
    split
    · exact ⟨_, rfl⟩
    · split
      · refine ⟨truncate (rad / (2 * angles.pi)) - 1, ?_⟩
        rw [fmod]
        push_cast
        ring
      · refine ⟨truncate (rad / (2 * angles.pi)) + 1, ?_⟩
        rw [fmod]
        push_cast
        ring
  have hbounds := normalizeRadian_bounds angles rad
  rw [hturns] at hbounds
  have hfloor : ⌊rad / (2 * angles.pi)⌋ = turns := by
    rw [Int.floor_eq_iff, le_div_iff₀ hpi, div_lt_iff₀ hpi]
    constructor
    · linarith
    · linarith
  rw [hturns, hfloor]

theorem normalizeRadian_getYaw (yaw : K) :
    normalizeRadian angles (getYaw angles yaw) 0 = normalizeRadian angles yaw 0 := by
  have hquotient : getYaw angles yaw / (2 * angles.pi) =
      yaw / (2 * angles.pi) - ⌈(yaw - angles.pi) / (2 * angles.pi)⌉ := by
    rw [getYaw, sub_div _ (2 * angles.pi * _), mul_div_cancel_left₀ _ (two_pi_pos angles).ne']
  rw [normalizeRadian_eq, normalizeRadian_eq, hquotient, Int.floor_sub_intCast, getYaw]
  push_cast
  ring

theorem discretizeAngle_getYaw {thetaSize : ℕ} {thetaIndex : ℤ}
    (htheta : 0 ≤ thetaIndex ∧ thetaIndex < thetaSize) :
    discretizeAngle angles (getYaw angles (2 * angles.pi / thetaSize * thetaIndex)) thetaSize =
      thetaIndex := by
  have hpi := two_pi_pos angles
  have hsize : (0 : K) < thetaSize := by
    exact_mod_cast (show 0 < thetaSize by omega)
  have hturn : ⌊2 * angles.pi / thetaSize * thetaIndex / (2 * angles.pi)⌋ = 0 := by
    have hquotient : 2 * angles.pi / thetaSize * thetaIndex / (2 * angles.pi) =
        (thetaIndex : K) / thetaSize := by
      rw [div_mul_eq_mul_div, div_right_comm, mul_div_cancel_left₀ _ hpi.ne']
    rw [hquotient, Int.floor_eq_zero_iff]
    constructor
    · exact div_nonneg (by exact_mod_cast htheta.1) hsize.le
    · rw [div_lt_one hsize]
      exact_mod_cast htheta.2
  have hindex : 2 * angles.pi / thetaSize * thetaIndex / oneAngleRange angles thetaSize =
      ((thetaIndex : ℤ) : K) := by
    rw [oneAngleRange, mul_div_cancel_left₀ _ (div_pos hpi hsize).ne']
  rw [discretizeAngle, normalizeRadian_getYaw, normalizeRadian_eq, hturn, Int.cast_zero, mul_zero,
    sub_zero, hindex, roundHalfEven_intCast]
  exact Int.tmod_eq_of_lt htheta.1 htheta.2

end

/-! ## Coverage of the vehicle -/

variable {K G : Type} [Field K] [LinearOrder K] [FloorRing K] (angles : Angles K)

def cellOf (costmap : OccupancyGrid K G) (thetaSize : ℕ) (baseIndex : IndexXYT)
    (point : K × K) : IndexXY :=
  let basePose := index2pose angles costmap baseIndex thetaSize
  let offset := rotate angles basePose.yaw point.1 point.2
  ⟨⌊(basePose.x + offset.1) / costmap.resolution⌋, ⌊(basePose.y + offset.2) / costmap.resolution⌋⟩

/-- The cell of a point around the cell of the base link, by rounding down. -/
def floorIndex2d (resolution : K) (thetaSize : ℕ) (thetaIndex : ℤ) (point : K × K) : IndexXY :=
  let offset := rotate angles (getYaw angles (thetaIndex * oneAngleRange angles thetaSize))
    point.1 point.2
  ⟨⌊offset.1 / resolution⌋, ⌊offset.2 / resolution⌋⟩

/-- The cell of a point around the cell of the base link, by truncation. -/
def truncIndex2d (resolution : K) (thetaSize : ℕ) (thetaIndex : ℤ) (point : K × K) : IndexXY :=
  let offset := rotate angles (getYaw angles (thetaIndex * oneAngleRange angles thetaSize))
    point.1 point.2
  ⟨truncate (offset.1 / resolution), truncate (offset.2 / resolution)⟩

def FindsObstacles (G : Type) (param : PlannerCommonParam) (shape : VehicleShape K) (resolution : K)
    (thetaIndex : ℤ) : Prop :=
  ∀ (costmap : OccupancyGrid K G) (baseIndex : IndexXYT), costmap.resolution = resolution →
    baseIndex.theta = thetaIndex → InRange costmap baseIndex.x baseIndex.y →
    ∀ point ∈ footprintPoints shape resolution,
      InRange costmap (cellOf angles costmap param.thetaSize baseIndex point).x
        (cellOf angles costmap param.thetaSize baseIndex point).y →
      cellIsObstacle param costmap (cellOf angles costmap param.thetaSize baseIndex point).x
        (cellOf angles costmap param.thetaSize baseIndex point).y = true →
      detectCollision (setMap angles (create param shape) costmap) baseIndex = some true

def CellsCovered (shape : VehicleShape K) (resolution : K) (thetaSize : ℕ) (thetaIndex : ℤ) :
    Prop :=
  ∀ point ∈ footprintPoints shape resolution, ∃ other ∈ footprintPoints shape resolution,
    truncIndex2d angles resolution thetaSize thetaIndex other =
      floorIndex2d angles resolution thetaSize thetaIndex point

variable [IsStrictOrderedRing K] {param : PlannerCommonParam} {shape : VehicleShape K}
  {costmap : OccupancyGrid K G} {baseIndex : IndexXYT}

omit [IsStrictOrderedRing K] in
theorem addIndex2d_eq (thetaSize : ℕ) (thetaIndex : ℤ) (point : K × K) :
    addIndex2d angles costmap thetaSize thetaIndex point =
      truncIndex2d angles costmap.resolution thetaSize thetaIndex point := by
  simp [addIndex2d, truncIndex2d, index2pose, pose2index]

theorem cellOf_eq (hresolution : 0 < costmap.resolution) (thetaSize : ℕ) (point : K × K) :
    cellOf angles costmap thetaSize baseIndex point =
      ⟨(floorIndex2d angles costmap.resolution thetaSize baseIndex.theta point).x + baseIndex.x,
        (floorIndex2d angles costmap.resolution thetaSize baseIndex.theta point).y +
          baseIndex.y⟩ := by
  have hshift (base : ℤ) (offset : K) :
      ⌊(base * costmap.resolution + offset) / costmap.resolution⌋ =
        ⌊offset / costmap.resolution⌋ + base := by
    rw [add_div, mul_div_cancel_right₀ _ hresolution.ne', Int.floor_intCast_add, add_comm]
  simp only [cellOf, floorIndex2d, index2pose, hshift]

variable {resolution : K} {thetaIndex : ℤ}

theorem findsObstacles_of_covered (hresolution : 0 < resolution)
    (htheta : 0 ≤ thetaIndex ∧ thetaIndex < param.thetaSize)
    (hcovered : CellsCovered angles shape resolution param.thetaSize thetaIndex) :
    FindsObstacles angles G param shape resolution thetaIndex := by
  rintro costmap baseIndex rfl rfl _ point hpoint _ hobstacle
  obtain ⟨other, hother, heq⟩ := hcovered point hpoint
  rw [detectCollision_setMap angles hresolution htheta]
  refine congrArg some ((Bool.or_eq_true _ _).mpr (.inr (List.any_eq_true.mpr
    ⟨addIndex2d angles costmap param.thetaSize baseIndex.theta other,
      (mem_collisionIndexes angles).mpr ⟨other, hother, rfl⟩, ?_⟩)))
  rw [addIndex2d_eq, heq]
  rwa [cellOf_eq angles hresolution] at hobstacle

theorem findsObstacles_of_threshold
    (hresolution : 0 < resolution) (htheta : 0 ≤ thetaIndex ∧ thetaIndex < param.thetaSize)
    (hthreshold : param.obstacleThreshold ≤ 0) :
    FindsObstacles angles G param shape resolution thetaIndex := by
  rintro costmap baseIndex rfl rfl _ point hpoint _ _
  rw [detectCollision_setMap angles hresolution htheta]
  refine congrArg some ((Bool.or_eq_true _ _).mpr (.inr (List.any_eq_true.mpr
    ⟨addIndex2d angles costmap param.thetaSize baseIndex.theta point,
      (mem_collisionIndexes angles).mpr ⟨point, hpoint, rfl⟩, ?_⟩)))
  unfold cellIsObstacle
  dsimp only
  rw [Bool.or_eq_true, decide_eq_true_iff, decide_eq_true_iff]
  omega

/-! ## A costmap with one obstacle -/

section

omit [Field K] [LinearOrder K] [FloorRing K] [IsStrictOrderedRing K]

/-- A square costmap on which one cell is not free. -/
def oneObstacle (size : ℕ) (resolution : K) (origin : G) (x y : ℕ) : OccupancyGrid K G where
  width := size
  height := size
  resolution := resolution
  origin := origin
  data := (List.range (size * size)).map fun k => if k = y * size + x then -1 else 0

theorem cellIsObstacle_oneObstacle {size : ℕ} {origin : G} {x y : ℕ} {i j : ℤ}
    (hthreshold : 0 < param.obstacleThreshold) (hx : x < size)
    (hrange : InRange (oneObstacle size resolution origin x y) i j) :
    cellIsObstacle param (oneObstacle size resolution origin x y) i j = true ↔
      i = x ∧ j = y := by
  obtain ⟨hi, hisize, hj, hjsize⟩ := hrange
  lift i to ℕ using hi
  lift j to ℕ using hj
  change (i : ℤ) < (size : ℤ) at hisize
  change (j : ℤ) < (size : ℤ) at hjsize
  have hisize : i < size := by omega
  have hjsize : j < size := by omega
  have hbound : j * size + i < size * size := by
    calc j * size + i < j * size + size := Nat.add_lt_add_left hisize _
      _ = (j + 1) * size := by ring
      _ ≤ size * size := Nat.mul_le_mul_right size hjsize
  have hsame : j * size + i = y * size + x ↔ i = x ∧ j = y := by
    constructor
    · intro heq
      have hmod : i = x := by
        rw [← Nat.mul_add_mod_of_lt hisize, heq, Nat.mul_add_mod_of_lt hx]
      subst hmod
      exact ⟨rfl, Nat.eq_of_mul_eq_mul_right (Nat.zero_lt_of_lt hx) (Nat.add_right_cancel heq)⟩
    · rintro ⟨rfl, rfl⟩
      rfl
  have hdata : (oneObstacle size resolution origin x y).data.getD
      ((j : ℤ).toNat * size + (i : ℤ).toNat) 0 = if j * size + i = y * size + x then -1 else 0 := by
    rw [Int.toNat_natCast, Int.toNat_natCast, oneObstacle, List.getD_eq_getElem?_getD,
      List.getElem?_map, List.getElem?_range hbound]
    rfl
  unfold cellIsObstacle
  dsimp only
  rw [show (oneObstacle size resolution origin x y).width = size from rfl, hdata, Nat.cast_inj,
    Nat.cast_inj, ← hsame]
  split
  · rename_i heq
    simp [heq]
  · rename_i hne
    simp [hne, hthreshold]

end

/-- Finitely many cells lie in a square around the base link. -/
theorem exists_bound (cells : List IndexXY) :
    ∃ bound : ℕ, ∀ cell ∈ cells, -bound ≤ cell.x ∧ cell.x ≤ bound ∧ -bound ≤ cell.y ∧
      cell.y ≤ bound := by
  induction cells with
  | nil => exact ⟨0, by simp⟩
  | cons cell later ih =>
    obtain ⟨bound, hbound⟩ := ih
    refine ⟨max bound (max cell.x.natAbs cell.y.natAbs), List.forall_mem_cons.mpr ⟨by omega, ?_⟩⟩
    intro other hother
    have hlater := hbound other hother
    omega

theorem covered_of_findsObstacles [Nonempty G]
    (hresolution : 0 < resolution) (htheta : 0 ≤ thetaIndex ∧ thetaIndex < param.thetaSize)
    (hthreshold : 0 < param.obstacleThreshold)
    (hfinds : FindsObstacles angles G param shape resolution thetaIndex) :
    CellsCovered angles shape resolution param.thetaSize thetaIndex := by
  intro point hpoint
  by_contra hmissed
  push Not at hmissed
  obtain ⟨origin⟩ := ‹Nonempty G›
  obtain ⟨bound, hbound⟩ := exists_bound
    (floorIndex2d angles resolution param.thetaSize thetaIndex point ::
      (vertexPoints shape).map (truncIndex2d angles resolution param.thetaSize thetaIndex))
  obtain ⟨hcell, hvertices⟩ := List.forall_mem_cons.mp hbound
  generalize hcellEq : floorIndex2d angles resolution param.thetaSize thetaIndex point = cell
    at hmissed hcell
  let costmap := oneObstacle (2 * bound + 1) resolution origin (cell.x + bound).toNat
    (cell.y + bound).toNat
  let baseIndex : IndexXYT := ⟨bound, bound, thetaIndex⟩
  have hadd (other : K × K) : addIndex2d angles costmap param.thetaSize thetaIndex other =
      truncIndex2d angles resolution param.thetaSize thetaIndex other :=
    addIndex2d_eq angles param.thetaSize thetaIndex other
  have hcellOf : cellOf angles costmap param.thetaSize baseIndex point =
      ⟨cell.x + bound, cell.y + bound⟩ := by
    rw [cellOf_eq angles hresolution, ← hcellEq]
    rfl
  have hinside {x y : ℤ} (hx : -bound ≤ x ∧ x ≤ bound) (hy : -bound ≤ y ∧ y ≤ bound) :
      InRange costmap (x + bound) (y + bound) := by
    change 0 ≤ x + bound ∧ x + bound < (2 * bound + 1 : ℕ) ∧ 0 ≤ y + bound ∧
      y + bound < (2 * bound + 1 : ℕ)
    omega
  have hobstacle {x y : ℤ} (hrange : InRange costmap x y) :
      cellIsObstacle param costmap x y = true ↔ x = cell.x + bound ∧ y = cell.y + bound := by
    rw [cellIsObstacle_oneObstacle hthreshold (by omega) hrange, Int.toNat_of_nonneg (by omega),
      Int.toNat_of_nonneg (by omega)]
  have hfound := hfinds costmap baseIndex rfl rfl
    (by simpa using hinside (x := 0) (y := 0) (by omega) (by omega)) point hpoint
  rw [hcellOf] at hfound
  have hpointRange := hinside ⟨hcell.1, hcell.2.1⟩ hcell.2.2
  specialize hfound hpointRange ((hobstacle hpointRange).mpr ⟨rfl, rfl⟩)
  -- the vertices are on the costmap, so the footprint has to contain the obstacle
  rw [detectCollision_setMap angles hresolution htheta, Option.some.injEq, Bool.or_eq_true] at hfound
  have hvertexRange : ∀ vertex ∈ (computeCollisionIndexes angles shape costmap param.thetaSize
      thetaIndex).2, InRange costmap (vertex.x + bound) (vertex.y + bound) := by
    intro vertex hvertex
    obtain ⟨corner, hcorner, rfl⟩ := List.mem_map.mp hvertex
    have hbounds := hvertices _ (List.mem_map_of_mem hcorner)
    rw [hadd]
    exact hinside ⟨hbounds.1, hbounds.2.1⟩ hbounds.2.2
  rcases hfound with hout | hany
  · obtain ⟨vertex, hvertex, hvertexOut⟩ := List.any_eq_true.mp hout
    have hvertexIn := isOutOfRange_eq_false.mpr (hvertexRange vertex hvertex)
    exact absurd hvertexOut (by rw [hvertexIn]; exact Bool.false_ne_true)
  · obtain ⟨other, hother, hotherObstacle⟩ := List.any_eq_true.mp hany
    have hotherRange := footprint_inRange angles hresolution hvertexRange other hother
    have heq := (hobstacle hotherRange).mp hotherObstacle
    obtain ⟨sample, hsample, rfl⟩ := (mem_collisionIndexes angles).mp hother
    refine hmissed sample hsample ?_
    rw [← hadd]
    exact congrArg₂ IndexXY.mk (add_right_cancel heq.1) (add_right_cancel heq.2)

/-- Obstacles below the points of the vehicle are found exactly if every cell is an obstacle or
the truncated cells cover those of the points. -/
theorem findsObstacles_iff [Nonempty G] (param : PlannerCommonParam) (shape : VehicleShape K)
    {resolution : K} {thetaIndex : ℤ} (hresolution : 0 < resolution) (hnonneg : 0 ≤ thetaIndex)
    (hlt : thetaIndex < param.thetaSize) :
    FindsObstacles angles G param shape resolution thetaIndex ↔ param.obstacleThreshold ≤ 0 ∨
        CellsCovered angles shape resolution param.thetaSize thetaIndex := by
  constructor
  · intro hfinds
    rcases le_or_gt param.obstacleThreshold 0 with hthreshold | hthreshold
    · exact .inl hthreshold
    · exact .inr (covered_of_findsObstacles angles hresolution ⟨hnonneg, hlt⟩ hthreshold hfinds)
  · rintro (hthreshold | hcovered)
    · exact findsObstacles_of_threshold angles hresolution ⟨hnonneg, hlt⟩ hthreshold
    · exact findsObstacles_of_covered angles hresolution ⟨hnonneg, hlt⟩ hcovered

theorem findsObstacles_short : FindsObstacles straightAngles Unit ⟨1, 100⟩ ⟨2, 1, 1⟩ (2 / 3) 0 ↔
      (100 : ℤ) ≤ 0 ∨ CellsCovered straightAngles ⟨2, 1, 1⟩ (2 / 3) 1 0 :=
  findsObstacles_iff straightAngles ⟨1, 100⟩ ⟨2, 1, 1⟩ (by norm_num) le_rfl (by decide)

def rearObstacle : OccupancyGrid ℚ Unit :=
  ⟨5, 3, 2 / 3, (), [0, 0, 0, 0, 0, 100, 0, 0, 0, 0, 0, 0, 0, 0, 0]⟩

theorem findsObstacles_rear :
    ¬ FindsObstacles straightAngles Unit ⟨1, 100⟩ ⟨2, 1 / 2, 1⟩ (2 / 3) 0 := by
  intro hfinds
  have hfound := hfinds rearObstacle ⟨2, 1, 0⟩ rfl rfl (by unfold InRange; decide) (-1, 1 / 4)
    (by decide +kernel) (by unfold InRange; decide +kernel) (by decide +kernel)
  exact absurd hfound (by decide +kernel)

end

/-! ## Histories of costmaps -/

variable {K G : Type} [Field K] [LinearOrder K] [FloorRing K] (angles : Angles K)

def setMaps (param : PlannerCommonParam) (shape : VehicleShape K)
    (costmaps : List (OccupancyGrid K G)) : AbstractPlanningAlgorithm K G :=
  costmaps.foldl (setMap angles) (create param shape)

variable {angles} {param : PlannerCommonParam} {shape : VehicleShape K}

def footprints (angles : Angles K) (param : PlannerCommonParam) (shape : VehicleShape K)
    (costmap : OccupancyGrid K G) : List (List IndexXY × List IndexXY) :=
  (List.range param.thetaSize).map fun i =>
    computeCollisionIndexes angles shape costmap param.thetaSize (i : ℕ)

structure Holds (angles : Angles K) (param : PlannerCommonParam) (shape : VehicleShape K)
    (costmaps : List (OccupancyGrid K G)) (planner : AbstractPlanningAlgorithm K G) : Prop where
  plannerCommonParam : planner.plannerCommonParam = param
  collisionVehicleShape : planner.collisionVehicleShape = shape
  collIndexesTable : planner.collIndexesTable =
    (costmaps.flatMap (footprints angles param shape)).map Prod.fst
  vertexIndexesTable : planner.vertexIndexesTable =
    (costmaps.flatMap (footprints angles param shape)).map Prod.snd
  costmap : planner.costmap = costmaps.getLast?
  isObstacleTable : planner.isObstacleTable = (costmaps.getLast?.map (obstacleTable param)).getD []

theorem Holds.setMap {costmaps : List (OccupancyGrid K G)} {planner : AbstractPlanningAlgorithm K G}
    (hholds : Holds angles param shape costmaps planner) (costmap : OccupancyGrid K G) :
    Holds angles param shape (costmaps ++ [costmap]) (setMap angles planner costmap) where
  plannerCommonParam := hholds.plannerCommonParam
  collisionVehicleShape := hholds.collisionVehicleShape
  collIndexesTable := by
    simp only [Freespace.setMap, hholds.plannerCommonParam, hholds.collisionVehicleShape,
      hholds.collIndexesTable, List.flatMap_append, List.flatMap_singleton, List.map_append]
    rfl
  vertexIndexesTable := by
    simp only [Freespace.setMap, hholds.plannerCommonParam, hholds.collisionVehicleShape,
      hholds.vertexIndexesTable, List.flatMap_append, List.flatMap_singleton, List.map_append]
    rfl
  costmap := by
    rw [List.getLast?_concat]
    rfl
  isObstacleTable := by
    rw [List.getLast?_concat, ← hholds.plannerCommonParam]
    rfl

theorem holds_setMaps (angles : Angles K) (param : PlannerCommonParam) (shape : VehicleShape K)
    (costmaps : List (OccupancyGrid K G)) :
    Holds angles param shape costmaps (setMaps angles param shape costmaps) := by
  have hrun {earlier later : List (OccupancyGrid K G)} {planner : AbstractPlanningAlgorithm K G}
      (hholds : Holds angles param shape earlier planner) :
      Holds angles param shape (earlier ++ later) (later.foldl (setMap angles) planner) := by
    induction later generalizing earlier planner with
    | nil => rwa [List.append_nil]
    | cons costmap later ih =>
      have hnext := ih (hholds.setMap costmap)
      rwa [List.append_assoc, List.singleton_append] at hnext
  exact @hrun [] costmaps _ ⟨rfl, rfl, rfl, rfl, rfl, rfl⟩

/-! ## Lookups -/

theorem Holds.lookup {first : OccupancyGrid K G} {later : List (OccupancyGrid K G)}
    {planner : AbstractPlanningAlgorithm K G}
    (hholds : Holds angles param shape (first :: later) planner) {theta : ℤ}
    (htheta : 0 ≤ theta ∧ theta < param.thetaSize) :
    at? planner.collIndexesTable theta =
        some (computeCollisionIndexes angles shape first param.thetaSize theta).1 ∧
      at? planner.vertexIndexesTable theta =
        some (computeCollisionIndexes angles shape first param.thetaSize theta).2 := by
  have hentry : (List.flatMap (footprints angles param shape) (first :: later))[theta.toNat]? =
      some (computeCollisionIndexes angles shape first param.thetaSize theta) := by
    rw [List.flatMap_cons, List.getElem?_append_left (by
      rw [footprints, List.length_map, List.length_range]
      omega), footprints, List.getElem?_map, List.getElem?_range (by omega), Option.map_some,
      Int.toNat_of_nonneg htheta.1]
  constructor
  · rw [hholds.collIndexesTable, at?, if_neg (not_lt.mpr htheta.1), List.getElem?_map, hentry]
    rfl
  · rw [hholds.vertexIndexesTable, at?, if_neg (not_lt.mpr htheta.1), List.getElem?_map, hentry]
    rfl

omit [Field K] [LinearOrder K] [FloorRing K] in
/-- Two planners that hold the same costmap and find the same footprints give the same answer. -/
theorem detectCollision_congr {planner other : AbstractPlanningAlgorithm K G}
    {baseIndex : IndexXYT} (hcostmap : planner.costmap = other.costmap)
    (hobstacles : planner.isObstacleTable = other.isObstacleTable)
    (hempty : planner.collIndexesTable.isEmpty = other.collIndexesTable.isEmpty)
    (hcoll : at? planner.collIndexesTable baseIndex.theta =
      at? other.collIndexesTable baseIndex.theta)
    (hvertex : at? planner.vertexIndexesTable baseIndex.theta =
      at? other.vertexIndexesTable baseIndex.theta) :
    detectCollision planner baseIndex = detectCollision other baseIndex := by
  rw [detectCollision, detectCollision, hcostmap, hobstacles, hempty, hcoll, hvertex]

/-- The footprints of two costmaps are the same; they depend on the resolutions only. -/
def SameFootprints (angles : Angles K) (param : PlannerCommonParam) (shape : VehicleShape K)
    (first last : OccupancyGrid K G) : Prop :=
  ∀ i < param.thetaSize, computeCollisionIndexes angles shape first param.thetaSize (i : ℕ) =
    computeCollisionIndexes angles shape last param.thetaSize (i : ℕ)

theorem sameFootprints_of_resolution {first last : OccupancyGrid K G}
    (hresolution : first.resolution = last.resolution) :
    SameFootprints angles param shape first last := by
  intro i _
  have hindex : addIndex2d angles first param.thetaSize (i : ℕ) =
      addIndex2d angles last param.thetaSize (i : ℕ) := by
    funext point
    simp only [addIndex2d, index2pose, pose2index, hresolution]
  rw [computeCollisionIndexes, computeCollisionIndexes, hresolution, hindex]

theorem isEmpty_collIndexesTable {costmaps : List (OccupancyGrid K G)} (hne : costmaps ≠ []) :
    (setMaps angles param shape costmaps).collIndexesTable.isEmpty = decide (param.thetaSize = 0) := by
  rw [(holds_setMaps angles param shape costmaps).collIndexesTable]
  obtain ⟨first, later, rfl⟩ := List.exists_cons_of_ne_nil hne
  cases hsize : param.thetaSize with
  | zero => simp [footprints, hsize]
  | succ size => simp [footprints, hsize, List.range_succ_eq_map]

variable [IsStrictOrderedRing K]

omit [IsStrictOrderedRing K] in
theorem detectCollision_setMaps {first last : OccupancyGrid K G}
    {earlier : List (OccupancyGrid K G)} (hhead : (earlier ++ [last]).head? = some first)
    (hsame : SameFootprints angles param shape first last) {baseIndex : IndexXYT}
    (htheta : 0 ≤ baseIndex.theta ∧ baseIndex.theta < param.thetaSize) :
    detectCollision (setMaps angles param shape (earlier ++ [last])) baseIndex =
      detectCollision (setMaps angles param shape [last]) baseIndex := by
  obtain ⟨later, hlater⟩ : ∃ later, earlier ++ [last] = first :: later :=
    List.head?_eq_some_iff.mp hhead
  have hholds := holds_setMaps angles param shape (earlier ++ [last])
  have hfresh := holds_setMaps angles param shape [last]
  have hfootprint := hsame baseIndex.theta.toNat (by omega)
  rw [Int.toNat_of_nonneg htheta.1] at hfootprint
  have hempty : (setMaps angles param shape (earlier ++ [last])).collIndexesTable.isEmpty =
      (setMaps angles param shape [last]).collIndexesTable.isEmpty := by
    rw [isEmpty_collIndexesTable (by simp), isEmpty_collIndexesTable (by simp)]
  have hlookup := (hlater ▸ hholds).lookup htheta
  have hlookupLast := hfresh.lookup htheta
  refine detectCollision_congr ?_ ?_ hempty ?_ ?_
  · rw [hholds.costmap, hfresh.costmap, List.getLast?_concat, List.getLast?_singleton]
  · rw [hholds.isObstacleTable, hfresh.isObstacleTable, List.getLast?_concat,
      List.getLast?_singleton]
  · rw [hlookupLast.1, ← hfootprint, ← hlookup.1, hlater]
  · rw [hlookupLast.2, ← hfootprint, ← hlookup.2, hlater]

/-- The footprints of the first costmap of a history are those of the last one: then collisions,
and those on a trajectory, are found as if the last costmap had been the first. -/
theorem setMaps_last (param : PlannerCommonParam) (shape : VehicleShape K)
    (earlier : List (OccupancyGrid K G)) (last : OccupancyGrid K G) (hsize : 1 ≤ param.thetaSize)
    (hsame : ∀ first, (earlier ++ [last]).head? = some first →
      SameFootprints angles param shape first last) :
    (∀ baseIndex : IndexXYT, 0 ≤ baseIndex.theta → baseIndex.theta < param.thetaSize →
      detectCollision (setMaps angles param shape (earlier ++ [last])) baseIndex =
        detectCollision (setMaps angles param shape [last]) baseIndex) ∧
      ∀ (frames : Frames K G) (trajectory : List (Pose K)),
        hasObstacleOnTrajectory angles frames (setMaps angles param shape (earlier ++ [last]))
            trajectory =
          hasObstacleOnTrajectory angles frames (setMaps angles param shape [last]) trajectory := by
  obtain ⟨first, later, hlist⟩ : ∃ first later, earlier ++ [last] = first :: later :=
    List.exists_cons_of_ne_nil (by simp)
  have hhead : (earlier ++ [last]).head? = some first := by rw [hlist, List.head?_cons]
  have hdetect (baseIndex : IndexXYT) (hnonneg : 0 ≤ baseIndex.theta)
      (hlt : baseIndex.theta < param.thetaSize) :
      detectCollision (setMaps angles param shape (earlier ++ [last])) baseIndex =
        detectCollision (setMaps angles param shape [last]) baseIndex :=
    detectCollision_setMaps hhead (hsame first hhead) ⟨hnonneg, hlt⟩
  refine ⟨hdetect, fun frames trajectory => ?_⟩
  have hholds := holds_setMaps angles param shape (earlier ++ [last])
  have hfresh := holds_setMaps angles param shape [last]
  have hany : ∀ poses : List (Pose K),
      anyCollision angles frames (setMaps angles param shape (earlier ++ [last])) last poses =
        anyCollision angles frames (setMaps angles param shape [last]) last poses := by
    intro poses
    induction poses with
    | nil => rfl
    | cons pose later ih =>
      have hbounds := discretizeAngle_bounds angles (frames.global2local last.origin pose).yaw hsize
      rw [anyCollision, anyCollision, ih, hholds.plannerCommonParam, hfresh.plannerCommonParam,
        hdetect _ hbounds.1 hbounds.2]
  rw [hasObstacleOnTrajectory, hasObstacleOnTrajectory, hholds.costmap, hfresh.costmap,
    List.getLast?_concat, List.getLast?_singleton]
  exact hany trajectory

def fiveCells (resolution : ℚ) : OccupancyGrid ℚ Unit := ⟨5, 1, resolution, (), [0, 0, 0, 0, 100]⟩

theorem setMaps_fiveCells : detectCollision (setMaps straightAngles ⟨1, 100⟩ ⟨2, 1 / 2, 1⟩
        ([fiveCells (1 / 2), fiveCells 2] ++ [fiveCells (1 / 2)])) ⟨2, 0, 0⟩ =
      detectCollision (setMaps straightAngles ⟨1, 100⟩ ⟨2, 1 / 2, 1⟩ [fiveCells (1 / 2)])
        ⟨2, 0, 0⟩ :=
  (setMaps_last ⟨1, 100⟩ ⟨2, 1 / 2, 1⟩ [fiveCells (1 / 2), fiveCells 2] (fiveCells (1 / 2)) le_rfl
    fun first hfirst => by
      cases hfirst
      exact sameFootprints_of_resolution rfl).1 ⟨2, 0, 0⟩ le_rfl zero_lt_one

/-- After a coarse costmap the footprint is one cell, and the obstacle is not seen. -/
theorem setMaps_coarse_first : detectCollision (setMaps straightAngles ⟨1, 100⟩ ⟨2, 1 / 2, 1⟩
        [fiveCells 2, fiveCells (1 / 2)]) ⟨2, 0, 0⟩ = some false ∧
      detectCollision (setMaps straightAngles ⟨1, 100⟩ ⟨2, 1 / 2, 1⟩
        [fiveCells (1 / 2)]) ⟨2, 0, 0⟩ = some true := by
  decide +kernel

end AutowareUniverse.Planning.Freespace
