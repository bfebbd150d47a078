import AutowareUniverse.Common.MotionUtils
import AutowareUniverse.Common.Interpolation

/-!
# Resampling

Paths and trajectories at given arc lengths.  The three overloads do the same with the poses,
velocities and heading rates of their points; that of paths with lane ids first puts the arc
lengths of points with several lane ids into the list.  Lists that are not accepted leave the
input as it is.
-/

namespace AutowareUniverse.Common.Resample

section

open Common.Interpolation

open Common.MotionUtils (Point Pose Trigonometry calcDistance2d calcSignedArcLength)

variable {K O H : Type} [Field K] [LinearOrder K] (geometry : Trigonometry K O)

/-- `motion_utils::overlap_threshold`. -/
def overlapThreshold : K := 1 / 10

/-- `CLOSE_S_THRESHOLD`. -/
def closeSThreshold : K := 1 / 1000000

/-- `calcArcLength`. -/
def calcArcLength (points : List (Point K)) : K :=
  (points.zipWith (calcDistance2d geometry) points.tail).sum

/-! ## Checks -/

def validateSize {α : Type} (points : List α) : Bool :=
  !decide (points.length < 2)

variable (points : List (Point K))

def validateResamplingRange (resamplingIntervals : List K) : Bool :=
  !decide (calcArcLength geometry points < resamplingIntervals.getLastD 0)

def validatePointsDuplication : Bool :=
  (points.zipWith (calcDistance2d geometry) points.tail).all fun ds => !decide (ds < closeSThreshold)

/-- `validate_arguments` with a list of arc lengths. -/
def validateArguments (resamplingIntervals : List K) : Bool :=
  validateSize points && validateSize resamplingIntervals &&
    validateResamplingRange geometry points resamplingIntervals &&
    validatePointsDuplication geometry points

/-- `validate_arguments` with an interval. -/
def validateInterval (resamplingInterval : K) : Bool :=
  validateSize points && !decide (resamplingInterval < overlapThreshold) &&
    validatePointsDuplication geometry points

def inputArclength : List K :=
  (points.zipWith (calcDistance2d geometry) points.tail).scanl (fun back ds => ds + back) 0

structure Options where
  useAkimaSplineForXy : Bool
  useLerpForZ : Bool
  useZeroOrderHold : Bool

def resamplePointVector (options : Options) (points : List (Point K))
    (resampledArclength : List K) : Except Failure (List (Point K)) :=
  if !validateArguments geometry points resampledArclength then .ok points
  else do
    let inputArclength := inputArclength geometry points
    let interpolate (useLerp : Bool) (spline : List K → List K → List K → Except Failure (List K))
        (input : List K) :=
      if useLerp then lerp inputArclength input resampledArclength
      else spline inputArclength input resampledArclength
    let spline (baseKeys baseValues queryKeys : List K) := do
      let interpolator ← calcSplineCoefficients baseKeys baseValues
      interpolator.getSplineInterpolatedValues queryKeys
    let x ← interpolate options.useAkimaSplineForXy splineByAkima (points.map Point.x)
    let y ← interpolate options.useAkimaSplineForXy splineByAkima (points.map Point.y)
    let z ← interpolate options.useLerpForZ spline (points.map Point.z)
    (List.range x.length).mapM fun i =>
      return ⟨← atIndex x i, ← atIndex y i, ← atIndex z i⟩

/-- The orientation to the next point; the last point has that of the point before it. -/
def orientForward : List (Pose K O) → List (Pose K O)
  | src :: dst :: later =>
    let orientation := geometry.orientationTo src.position dst.position
    { src with orientation := orientation } ::
      (if later.isEmpty then [{ dst with orientation := orientation }]
      else orientForward (dst :: later))
  | points => points

/-- The orientation to the point before, for the points after the first one. -/
def orientBackward : List (Pose K O) → List (Pose K O)
  | dst :: src :: later =>
    { src with orientation := geometry.orientationTo src.position dst.position } ::
      orientBackward (src :: later)
  | _ => []

def insertOrientation (points : List (Pose K O)) (isDrivingForward : Bool) :
    Except Failure (List (Pose K O)) :=
  match points with
  | [] => .error .outOfRange
  | first :: later =>
    if isDrivingForward then .ok (orientForward geometry points)
    else
      match orientBackward geometry (first :: later) with
      | [] => .error .outOfRange
      | second :: others =>
        .ok ({ first with orientation := second.orientation } :: second :: others)

/-- The first orientation of a backward path is that of the input. -/
def resamplePoseVector [Inhabited O] (options : Options) (points : List (Pose K O))
    (resampledArclength : List K) : Except Failure (List (Pose K O)) :=
  let position := points.map Pose.position
  if !validateArguments geometry position resampledArclength then .ok points
  else do
    let resampledPosition ← resamplePointVector geometry options position resampledArclength
    let front ← atIndex points 0
    let second ← atIndex points 1
    let isDrivingForward := geometry.isDrivingForward front second
    let resampledPoints ← insertOrientation geometry (resampledPosition.map fun point =>
      ⟨point, default⟩) isDrivingForward
    return if !isDrivingForward && decide (resampledArclength.headD 0 < 1 / 1000) then
        resampledPoints.modify 0 fun pose => { pose with orientation := front.orientation }
      else resampledPoints

/-! ## Paths and trajectories -/

structure PathPoint (K O : Type) where
  pose : Pose K O
  longitudinalVelocityMps : K
  lateralVelocityMps : K
  headingRateRps : K
  isFinal : Bool
  deriving DecidableEq

structure PathPointWithLaneId (K O : Type) where
  point : PathPoint K O
  laneIds : List ℤ
  deriving DecidableEq

/-- The time is in seconds. -/
structure TrajectoryPoint (K O : Type) where
  timeFromStart : K
  pose : Pose K O
  longitudinalVelocityMps : K
  lateralVelocityMps : K
  accelerationMps2 : K
  headingRateRps : K
  frontWheelAngleRad : K
  rearWheelAngleRad : K
  deriving DecidableEq

structure Path (K O H : Type) where
  header : H
  points : List (PathPoint K O)
  leftBound : List (Point K)
  rightBound : List (Point K)
  deriving DecidableEq

structure PathWithLaneId (K O H : Type) where
  header : H
  points : List (PathPointWithLaneId K O)
  leftBound : List (Point K)
  rightBound : List (Point K)
  deriving DecidableEq

structure Trajectory (K O H : Type) where
  header : H
  points : List (TrajectoryPoint K O)
  deriving DecidableEq

/-- `use_zero_order_hold ? zoh(input) : lerp(input)`. -/
def holdOrLerp (options : Options) (inputArclength resampledArclength : List K)
    (closestSegmentIndices : List ℕ) (input : List K) : Except Failure (List K) :=
  if options.useZeroOrderHold then zeroOrderHoldAt inputArclength input closestSegmentIndices
  else lerp inputArclength input resampledArclength

/-- The default threshold of `calc_closest_segment_indices`. -/
def holdThreshold : K := 1 / 1000

/-- The closest segments are looked for only where they are used. -/
def heldSegments (options : Options) (inputArclength resampledArclength : List K) :
    Except Failure (List ℕ) :=
  if options.useZeroOrderHold then
    calcClosestSegmentIndices inputArclength resampledArclength holdThreshold
  else .ok []

/-- The right bound of the result is assigned from itself. -/
def resamplePath [Inhabited O] (options : Options) (inputPath : Path K O H)
    (resampledArclength : List K) : Except Failure (Path K O H) :=
  let inputPose := inputPath.points.map PathPoint.pose
  if !validateArguments geometry (inputPose.map Pose.position) resampledArclength then
    .ok inputPath
  else do
    let inputArclength := inputArclength geometry (inputPose.map Pose.position)
    let closestSegmentIndices ← heldSegments options inputArclength resampledArclength
    let interpolatedPose ← resamplePoseVector geometry options inputPose resampledArclength
    let interpolatedVLon ← holdOrLerp options inputArclength resampledArclength
      closestSegmentIndices (inputPath.points.map PathPoint.longitudinalVelocityMps)
    let interpolatedVLat ← holdOrLerp options inputArclength resampledArclength
      closestSegmentIndices (inputPath.points.map PathPoint.lateralVelocityMps)
    let interpolatedHeadingRate ←
      lerp inputArclength (inputPath.points.map PathPoint.headingRateRps) resampledArclength
    if interpolatedPose.length ≠ resampledArclength.length then return inputPath
    else
      let points ← (List.range interpolatedPose.length).mapM fun i => do
        let pose ← atIndex interpolatedPose i
        let vLon ← atIndex interpolatedVLon i
        let vLat ← atIndex interpolatedVLat i
        let headingRate ← atIndex interpolatedHeadingRate i
        return { pose := pose, longitudinalVelocityMps := vLon, lateralVelocityMps := vLat,
                 headingRateRps := headingRate, isFinal := false }
      return { header := inputPath.header, points := points, leftBound := inputPath.leftBound,
               rightBound := [] }

def resampleTrajectory [Inhabited O] (options : Options) (inputTrajectory : Trajectory K O H)
    (resampledArclength : List K) : Except Failure (Trajectory K O H) :=
  let inputPose := inputTrajectory.points.map TrajectoryPoint.pose
  if !validateArguments geometry (inputPose.map Pose.position) resampledArclength then
    .ok inputTrajectory
  else do
    let inputArclength := inputArclength geometry (inputPose.map Pose.position)
    let closestSegmentIndices ← heldSegments options inputArclength resampledArclength
    let interpolatedPose ← resamplePoseVector geometry options inputPose resampledArclength
    let interpolatedVLon ← holdOrLerp options inputArclength resampledArclength
      closestSegmentIndices (inputTrajectory.points.map TrajectoryPoint.longitudinalVelocityMps)
    let interpolatedVLat ← holdOrLerp options inputArclength resampledArclength
      closestSegmentIndices (inputTrajectory.points.map TrajectoryPoint.lateralVelocityMps)
    let interpolatedHeadingRate ← lerp inputArclength
      (inputTrajectory.points.map TrajectoryPoint.headingRateRps) resampledArclength
    let interpolatedAcceleration ← holdOrLerp options inputArclength resampledArclength
      closestSegmentIndices (inputTrajectory.points.map TrajectoryPoint.accelerationMps2)
    let interpolatedFrontWheelAngle ← lerp inputArclength
      (inputTrajectory.points.map TrajectoryPoint.frontWheelAngleRad) resampledArclength
    let interpolatedRearWheelAngle ← lerp inputArclength
      (inputTrajectory.points.map TrajectoryPoint.rearWheelAngleRad) resampledArclength
    let interpolatedTimeFromStart ← lerp inputArclength
      (inputTrajectory.points.map TrajectoryPoint.timeFromStart) resampledArclength
    if interpolatedPose.length ≠ resampledArclength.length then return inputTrajectory
    else
      let points ← (List.range interpolatedPose.length).mapM fun i => do
        let pose ← atIndex interpolatedPose i
        let vLon ← atIndex interpolatedVLon i
        let vLat ← atIndex interpolatedVLat i
        let headingRate ← atIndex interpolatedHeadingRate i
        let acceleration ← atIndex interpolatedAcceleration i
        let frontWheelAngle ← atIndex interpolatedFrontWheelAngle i
        let rearWheelAngle ← atIndex interpolatedRearWheelAngle i
        let timeFromStart ← atIndex interpolatedTimeFromStart i
        return { timeFromStart := timeFromStart, pose := pose, longitudinalVelocityMps := vLon,
                 lateralVelocityMps := vLat, accelerationMps2 := acceleration,
                 headingRateRps := headingRate, frontWheelAngleRad := frontWheelAngle,
                 rearWheelAngleRad := rearWheelAngle }
      return { header := inputTrajectory.header, points := points }

/-! ## Paths with lane ids -/

/-- The arc length is put between its neighbours, or replaces the one before or behind it that
is close. -/
def insertArcLength (distance : K) : List K → List K
  | prev :: following :: later =>
    if prev ≤ distance ∧ distance < following then
      if |distance - prev| < overlapThreshold then distance :: following :: later
      else if |following - distance| < overlapThreshold then prev :: distance :: later
      else prev :: distance :: following :: later
    else prev :: insertArcLength distance (following :: later)
  | resamplingArclength => resamplingArclength

def insertLanePoints (points : List (PathPointWithLaneId K O)) (resampledArclength : List K) :
    List K :=
  points.zipIdx.foldl
    (fun resamplingArclength (point, i) =>
      if point.laneIds.length < 2 then resamplingArclength
      else insertArcLength
        (calcSignedArcLength geometry (points.map fun point => point.point.pose) 0 i)
        resamplingArclength)
    resampledArclength

def interpolateLaneIds (points : List (PathPointWithLaneId K O)) (inputArclength : List K)
    (closestSegmentIdx : ℕ) (arclength : K) : Except Failure (List ℤ) := do
  let segIdx := min closestSegmentIdx (points.length - 2)
  let prevPoint ← atIndex points segIdx
  let nextPoint ← atIndex points (segIdx + 1)
  let prevArclength ← atIndex inputArclength segIdx
  let nextArclength ← atIndex inputArclength (segIdx + 1)
  if |prevArclength - arclength| ≤ 1 / 1000000 then return prevPoint.laneIds
  else if |nextArclength - arclength| ≤ 1 / 1000000 then return nextPoint.laneIds
  else
    let common := prevPoint.laneIds.filter fun laneId => nextPoint.laneIds.contains laneId
    return if common.isEmpty then prevPoint.laneIds else common

def resamplePathWithLaneId [Inhabited O] (options : Options) (inputPath : PathWithLaneId K O H)
    (resampledArclength : List K) : Except Failure (PathWithLaneId K O H) :=
  let resamplingArclength := insertLanePoints geometry inputPath.points resampledArclength
  let inputPose := inputPath.points.map fun point => point.point.pose
  if !validateArguments geometry (inputPose.map Pose.position) resamplingArclength then
    .ok inputPath
  else
    let inputArclength := inputArclength geometry (inputPose.map Pose.position)
    if inputArclength.getLastD 0 < resamplingArclength.getLastD 0 then .ok inputPath
    else do
      let closestSegmentIndices ←
        calcClosestSegmentIndices inputArclength resamplingArclength holdThreshold
      let interpolatedPose ← resamplePoseVector geometry options inputPose resamplingArclength
      let interpolatedVLon ← holdOrLerp options inputArclength resamplingArclength
        closestSegmentIndices
        (inputPath.points.map fun point => point.point.longitudinalVelocityMps)
      let interpolatedVLat ← holdOrLerp options inputArclength resamplingArclength
        closestSegmentIndices (inputPath.points.map fun point => point.point.lateralVelocityMps)
      let interpolatedHeadingRate ← lerp inputArclength
        (inputPath.points.map fun point => point.point.headingRateRps) resamplingArclength
      let interpolatedIsFinal ← zeroOrderHoldAt inputArclength
        (inputPath.points.map fun point => point.point.isFinal) closestSegmentIndices
      let interpolatedLaneIds ← (List.range resamplingArclength.length).mapM fun i => do
        let closestSegmentIdx ← atIndex closestSegmentIndices i
        let arclength ← atIndex resamplingArclength i
        interpolateLaneIds inputPath.points inputArclength closestSegmentIdx arclength
      if interpolatedPose.length ≠ resamplingArclength.length then return inputPath
      else
        let points ← (List.range interpolatedPose.length).mapM fun i => do
          let pose ← atIndex interpolatedPose i
          let vLon ← atIndex interpolatedVLon i
          let vLat ← atIndex interpolatedVLat i
          let headingRate ← atIndex interpolatedHeadingRate i
          let isFinal ← atIndex interpolatedIsFinal i
          let laneIds ← atIndex interpolatedLaneIds i
          return { point := { pose := pose, longitudinalVelocityMps := vLon,
                              lateralVelocityMps := vLat, headingRateRps := headingRate,
                              isFinal := isFinal },
                   laneIds := laneIds }
        return { header := inputPath.header, points := points, leftBound := inputPath.leftBound,
                 rightBound := inputPath.rightBound }

end

open Common.Interpolation Library.Fallible Library.PrefixSums

open Common.MotionUtils (Point Pose Trigonometry calcDistance2d)

variable {K O : Type} [Field K] [LinearOrder K] {geometry : Trigonometry K O}

/-- A list of arc lengths that is accepted: the checks pass, and the interpolation does not throw
since the arc lengths do not decrease and do not start before the path. -/
structure Accepted (geometry : Trigonometry K O) (points : List (Point K))
    (resampledArclength : List K) : Prop where
  arguments : validateArguments geometry points resampledArclength = true
  sorted : resampledArclength.Pairwise (· ≤ ·)
  front : ∀ first ∈ resampledArclength.head?, -Interpolation.epsilon ≤ first

/-! ## Keys -/

variable {points : List (Point K)} {resampledArclength : List K}

section
omit [LinearOrder K]

theorem foldl_add_eq (lengths : List K) (start : K) :
    lengths.foldl (fun back ds => ds + back) start = start + lengths.sum := by
  induction lengths generalizing start with
  | nil => simp
  | cons length lengths ih =>
    rw [List.foldl_cons, ih, List.sum_cons]
    ring

theorem length_inputArclength (hne : points ≠ []) :
    (inputArclength geometry points).length = points.length := by
  have hpos := List.length_pos_iff.mpr hne
  rw [inputArclength, List.length_scanl, List.length_zipWith, List.length_tail]
  omega

theorem getLast?_inputArclength :
    (inputArclength geometry points).getLast? = some (calcArcLength geometry points) := by
  rw [inputArclength, List.getLast?_scanl, foldl_add_eq, zero_add, calcArcLength]

end

variable {values : List K}

omit [Field K] [LinearOrder K] in
theorem allAdjacent_ok {holds : K → K → Bool} (hne : values ≠ [])
    (hchain : values.IsChain fun first second => holds first second = true) :
    allAdjacent holds values = .ok true := by
  rw [allAdjacent, if_neg (by simpa using hne)]
  refine congrArg Except.ok ?_
  clear hne
  induction values with
  | nil => rfl
  | cons first later ih =>
    cases later with
    | nil => rfl
    | cons second later =>
      obtain ⟨hholds, hchain⟩ := List.isChain_cons_cons.mp hchain
      rw [List.tail_cons, List.zip_cons_cons, List.all_cons, hholds, Bool.true_and]
      exact ih hchain

theorem validateKeys_ok {baseKeys queryKeys : List K} {baseFront baseBack : K}
    (htwo : 2 ≤ baseKeys.length) (hincreasing : baseKeys.Pairwise (· < ·))
    (hfront : baseKeys[0]? = some baseFront) (hback : baseKeys.getLast? = some baseBack)
    (hne : queryKeys ≠ []) (hsorted : queryKeys.Pairwise (· ≤ ·))
    (hqueryFront : ∀ first ∈ queryKeys.head?, baseFront - Interpolation.epsilon ≤ first)
    (hqueryBack : ∀ last ∈ queryKeys.getLast?, last ≤ baseBack + Interpolation.epsilon) :
    ∃ validated, validateKeys baseKeys queryKeys = .ok validated := by
  have hbaseNe : baseKeys ≠ [] := List.ne_nil_of_length_pos (by omega)
  obtain ⟨queryFront, hqueryFront'⟩ : ∃ queryFront, queryKeys[0]? = some queryFront :=
    ⟨_, List.getElem?_eq_getElem (List.length_pos_iff.mpr hne)⟩
  obtain ⟨queryBack, hqueryBack'⟩ : ∃ queryBack, queryKeys.getLast? = some queryBack :=
    ⟨_, List.getLast?_eq_some_getLast hne⟩
  have hbaseIncreasing : isIncreasing baseKeys = .ok true :=
    allAdjacent_ok hbaseNe (hincreasing.isChain.imp fun _ _ hlt => decide_eq_true hlt)
  have hnotDecreasing : isNotDecreasing queryKeys = .ok true :=
    allAdjacent_ok hne (hsorted.isChain.imp fun _ _ hle => decide_eq_true hle)
  have hrange : ¬ (queryFront < baseFront - Interpolation.epsilon ∨
      baseBack + Interpolation.epsilon < queryBack) := by
    rw [List.head?_eq_getElem?] at hqueryFront
    rw [not_or, not_lt, not_lt]
    exact ⟨hqueryFront _ hqueryFront', hqueryBack _ hqueryBack'⟩
  rw [List.getLast?_eq_getElem?] at hback hqueryBack'
  refine ⟨cropped baseFront baseBack queryKeys, ?_⟩
  rw [validateKeys, if_neg (by simp [hbaseNe, hne]), if_neg (by omega)]
  refine bind_eq_ok.mpr ⟨true, hbaseIncreasing, bind_eq_ok.mpr ⟨true, hnotDecreasing, ?_⟩⟩
  rw [if_neg (by simp)]
  refine bind_eq_ok.mpr ⟨_, atIndex_eq_ok.mpr hfront, bind_eq_ok.mpr
    ⟨_, atIndex_eq_ok.mpr hback, bind_eq_ok.mpr ⟨_, atIndex_eq_ok.mpr hqueryFront',
      bind_eq_ok.mpr ⟨_, atIndex_eq_ok.mpr hqueryBack', ?_⟩⟩⟩⟩
  rw [if_neg hrange]

structure Checked (geometry : Trigonometry K O) (points : List (Point K))
    (resampledArclength : List K) : Prop where
  twoPoints : 2 ≤ points.length
  twoArclengths : 2 ≤ resampledArclength.length
  range : resampledArclength.getLastD 0 ≤ calcArcLength geometry points
  apart : ∀ ds ∈ points.zipWith (calcDistance2d geometry) points.tail, closeSThreshold ≤ ds

theorem validateArguments_iff : validateArguments geometry points resampledArclength = true ↔
    Checked geometry points resampledArclength := by
  simp only [validateArguments, validateSize, validateResamplingRange, validatePointsDuplication,
    Bool.and_eq_true, Bool.not_eq_true', decide_eq_false_iff_not, not_lt, List.all_eq_true]
  exact ⟨fun ⟨⟨⟨hpoints, harclengths⟩, hrange⟩, hapart⟩ => ⟨hpoints, harclengths, hrange, hapart⟩,
    fun hchecked => ⟨⟨⟨hchecked.twoPoints, hchecked.twoArclengths⟩, hchecked.range⟩, hchecked.apart⟩⟩

variable [IsStrictOrderedRing K]

theorem scanl_increasing {lengths : List K} (hpositive : ∀ length ∈ lengths, 0 < length)
    (start : K) : (lengths.scanl (fun back ds => ds + back) start).IsChain (· < ·) := by
  induction lengths generalizing start with
  | nil => exact List.isChain_singleton start
  | cons length lengths ih =>
    obtain ⟨hlength, hlengths⟩ := List.forall_mem_cons.mp hpositive
    have hrest := ih hlengths (length + start)
    rw [List.scanl_cons]
    cases lengths with
    | nil => exact .cons_cons (lt_add_of_pos_left start hlength) hrest
    | cons next lengths =>
      rw [List.scanl_cons] at hrest ⊢
      exact .cons_cons (lt_add_of_pos_left start hlength) hrest

theorem closeSThreshold_pos : (0 : K) < closeSThreshold := by
  unfold closeSThreshold
  positivity

namespace Accepted

variable (haccepted : Accepted geometry points resampledArclength)

include haccepted

section
omit [IsStrictOrderedRing K]

theorem checked : Checked geometry points resampledArclength :=
  validateArguments_iff.mp haccepted.arguments

theorem le_arcLength : ∀ arclength ∈ resampledArclength, arclength ≤ calcArcLength geometry points := by
  have hne : resampledArclength ≠ [] :=
    List.ne_nil_of_length_pos (by have := haccepted.checked.twoArclengths; omega)
  obtain ⟨front, last, rfl⟩ := (List.eq_nil_or_concat' resampledArclength).resolve_left hne
  intro arclength hmem
  have hrange := haccepted.checked.range
  rw [List.getLastD_concat] at hrange
  rcases List.mem_append.mp hmem with hfront | hlast
  · exact ((List.pairwise_append.mp haccepted.sorted).2.2 _ hfront _ List.mem_cons_self).trans hrange
  · rwa [List.mem_singleton.mp hlast]

end

/-- What the keys of an accepted list are for the interpolation. -/
theorem validated :
    ∃ validated, validateKeys (inputArclength geometry points) resampledArclength = .ok validated ∧
      Validated (inputArclength geometry points) resampledArclength validated 0
        (calcArcLength geometry points) := by
  have hchecked := haccepted.checked
  have hpoints : points ≠ [] := List.ne_nil_of_length_pos (by have := hchecked.twoPoints; omega)
  have hfront : (inputArclength geometry points)[0]? = some 0 := List.getElem?_scanl_zero
  have hback : (inputArclength geometry points).getLast? = some (calcArcLength geometry points) :=
    getLast?_inputArclength
  have hincreasing : (inputArclength geometry points).Pairwise (· < ·) :=
    List.isChain_iff_pairwise.mp (scanl_increasing (fun ds hds =>
      closeSThreshold_pos.trans_le (hchecked.apart ds hds)) 0)
  have hepsilon : (0 : K) < Interpolation.epsilon := by
    unfold Interpolation.epsilon
    positivity
  have htwo : 2 ≤ (inputArclength geometry points).length := by
    rw [length_inputArclength hpoints]
    exact hchecked.twoPoints
  obtain ⟨validated, hkeys⟩ := validateKeys_ok htwo hincreasing hfront hback
    (List.ne_nil_of_length_pos (by have := hchecked.twoArclengths; omega)) haccepted.sorted
    (fun first hfirst => by rw [zero_sub]; exact haccepted.front first hfirst)
    (fun last hlast =>
      (haccepted.le_arcLength last (List.mem_of_getLast? hlast)).trans (by linarith))
  obtain ⟨front, back, hvalid⟩ := validated_of_ok hkeys
  obtain rfl : front = 0 := Option.some.inj (hvalid.frontKey.symm.trans hfront)
  obtain rfl : back = calcArcLength geometry points :=
    Option.some.inj (hvalid.backKey.symm.trans hback)
  exact ⟨validated, hkeys, hvalid⟩

/-! ## Interpolation -/

section
omit [IsStrictOrderedRing K]

theorem length_base : (inputArclength geometry points).length = points.length :=
  length_inputArclength (List.ne_nil_of_length_pos (by have := haccepted.checked.twoPoints; omega))

theorem dropLast_le : ∀ other ∈ resampledArclength.dropLast,
    other ≤ calcArcLength geometry points :=
  fun other hmem => haccepted.le_arcLength other (List.mem_of_mem_dropLast hmem)

end

theorem lerp_succeeds (hlength : values.length = points.length) :
    Succeeds (lerp (inputArclength geometry points) values resampledArclength)
      fun results => results.length = resampledArclength.length := by
  obtain ⟨validated, hkeys, hvalid⟩ := haccepted.validated
  have hbase : (inputArclength geometry points).length = values.length :=
    haccepted.length_base.trans hlength.symm
  obtain ⟨results, hloop, hresults⟩ := hvalid.queryLoop_length
    (lerpAt (inputArclength geometry points) values)
    (fun j queryKey hj => lerpAt_ok hbase hj) haccepted.dropLast_le
  exact ⟨results, bind_eq_ok.mpr ⟨validated, hkeys, bind_eq_ok.mpr
    ⟨(), validateKeysAndValues_ok hvalid.two hbase, hloop⟩⟩, hresults⟩

theorem spline_succeeds (hlength : values.length = points.length) :
    Succeeds (do
      let interpolator ← calcSplineCoefficients (inputArclength geometry points) values
      interpolator.getSplineInterpolatedValues resampledArclength)
      fun results => results.length = resampledArclength.length := by
  obtain ⟨validated, hkeys, hvalid⟩ := haccepted.validated
  have hbase : (inputArclength geometry points).length = values.length :=
    haccepted.length_base.trans hlength.symm
  obtain ⟨self, hself, hselfKeys, ha, hb, hc, hd⟩ :=
    calcSplineCoefficients_ok (validateKeysAndValues_ok hvalid.two hbase)
  obtain ⟨results, hloop, hresults⟩ := hvalid.queryLoop_length self.valueAt
    (fun j queryKey hj => SplineInterpolation.valueAt_ok (by rw [hselfKeys]; omega) (by omega)
      (by omega) (by omega) (by omega)) haccepted.dropLast_le
  refine ⟨results, bind_eq_ok.mpr ⟨self, hself, ?_⟩, hresults⟩
  rw [SplineInterpolation.getSplineInterpolatedValues, hselfKeys]
  exact bind_eq_ok.mpr ⟨validated, hkeys, hloop⟩

theorem akima_succeeds (hlength : values.length = points.length) :
    Succeeds (splineByAkima (inputArclength geometry points) values resampledArclength)
      fun results => results.length = resampledArclength.length := by
  obtain ⟨validated, hkeys, hvalid⟩ := haccepted.validated
  exact splineByAkima_succeeds hvalid (haccepted.length_base.trans hlength.symm)
    haccepted.le_arcLength

theorem segments_succeed :
    Succeeds (calcClosestSegmentIndices (inputArclength geometry points) resampledArclength
      holdThreshold) fun indices => indices.length = resampledArclength.length ∧
        ∀ k ∈ indices, k < points.length := by
  obtain ⟨validated, hkeys, hvalid⟩ := haccepted.validated
  have htwo := hvalid.two
  have hback : (inputArclength geometry points)[(inputArclength geometry points).length - 1]? =
      some (calcArcLength geometry points) := by
    rw [← List.getLast?_eq_getElem?, hvalid.backKey]
  obtain ⟨indices, hloop, hsorted, hlength⟩ := @closestSegmentLoop_ok K _ _
    (inputArclength geometry points) holdThreshold (calcArcLength geometry points) 0 hback
    (by omega) validated
  refine ⟨indices, bind_eq_ok.mpr ⟨validated, hkeys, hloop⟩, ?_, fun k hmem => ?_⟩
  · rw [closestSegmentLoop_length hloop, hvalid.length_eq]
  · have hk := hlength k hmem
    rwa [haccepted.length_base] at hk

theorem zeroOrderHoldAt_succeeds {α : Type} {values : List α} {indices : List ℕ}
    (hlength : values.length = points.length) (hindices : ∀ k ∈ indices, k < points.length) :
    Succeeds (zeroOrderHoldAt (inputArclength geometry points) values indices)
      fun results => results.length = indices.length := by
  obtain ⟨validated, hkeys, hvalid⟩ := haccepted.validated
  have hbase : (inputArclength geometry points).length = values.length :=
    haccepted.length_base.trans hlength.symm
  have hbound : ∀ k ∈ indices, k < values.length := fun k hmem => hlength ▸ hindices k hmem
  obtain ⟨results, hresults, hall⟩ := mapM_atIndex_ok hbound
  exact ⟨results, bind_eq_ok.mpr ⟨(), validateKeysAndValues_ok hvalid.two hbase, hresults⟩,
    hall.length_eq.symm⟩

theorem heldSegments_succeeds (options : Options) :
    Succeeds (heldSegments options (inputArclength geometry points) resampledArclength)
      fun indices => (options.useZeroOrderHold = true → indices.length = resampledArclength.length) ∧
        ∀ k ∈ indices, k < points.length := by
  unfold heldSegments
  split
  · exact haccepted.segments_succeed.mono fun indices ⟨hlength, hindices⟩ =>
      ⟨fun _ => hlength, hindices⟩
  · rename_i hhold
    exact .ok ⟨fun htrue => absurd htrue hhold, fun _ hmem => absurd hmem List.not_mem_nil⟩

theorem holdOrLerp_succeeds {options : Options} {indices : List ℕ}
    (hlength : values.length = points.length)
    (hheld : options.useZeroOrderHold = true → indices.length = resampledArclength.length)
    (hindices : ∀ k ∈ indices, k < points.length) :
    Succeeds (holdOrLerp options (inputArclength geometry points) resampledArclength indices values)
      fun results => results.length = resampledArclength.length := by
  unfold holdOrLerp
  split
  · rename_i hhold
    exact (haccepted.zeroOrderHoldAt_succeeds hlength hindices).mono fun results hresults =>
      hresults.trans (hheld hhold)
  · exact haccepted.lerp_succeeds hlength

theorem resamplePointVector_succeeds {options : Options} :
    Succeeds (resamplePointVector geometry options points resampledArclength)
      fun results => results.length = resampledArclength.length := by
  have hxy {values : List K} (hlength : values.length = points.length) :
      Succeeds (if options.useAkimaSplineForXy then
          lerp (inputArclength geometry points) values resampledArclength
        else splineByAkima (inputArclength geometry points) values resampledArclength)
        fun results => results.length = resampledArclength.length := by
    split
    · exact haccepted.lerp_succeeds hlength
    · exact haccepted.akima_succeeds hlength
  have hz {values : List K} (hlength : values.length = points.length) :
      Succeeds (if options.useLerpForZ then
          lerp (inputArclength geometry points) values resampledArclength
        else do
          let interpolator ← calcSplineCoefficients (inputArclength geometry points) values
          interpolator.getSplineInterpolatedValues resampledArclength)
        fun results => results.length = resampledArclength.length := by
    split
    · exact haccepted.lerp_succeeds hlength
    · exact haccepted.spline_succeeds hlength
  rw [resamplePointVector, if_neg (by rw [haccepted.arguments]; decide)]
  refine (hxy (List.length_map _)).bind fun x hx => ?_
  refine (hxy (List.length_map _)).bind fun y hy => ?_
  refine (hz (List.length_map _)).bind fun z hz => ?_
  refine (Succeeds.mapM fun i hi => ?_).mono fun results hresults => by
    rw [hresults, List.length_range, hx]
  have hi := List.mem_range.mp hi
  obtain ⟨xi, hxi⟩ := exists_atIndex hi
  obtain ⟨yi, hyi⟩ : ∃ value, atIndex y i = .ok value := exists_atIndex (by omega)
  obtain ⟨zi, hzi⟩ : ∃ value, atIndex z i = .ok value := exists_atIndex (by omega)
  exact .bind_eq hxi (.bind_eq hyi (.bind_eq hzi (.ok trivial)))

end Accepted

section
omit [Field K] [LinearOrder K] [IsStrictOrderedRing K]

theorem length_orientForward (poses : List (Pose K O)) :
    (orientForward geometry poses).length = poses.length := by
  fun_induction orientForward geometry poses with
  | case1 src dst later orientation ih =>
    rw [List.length_cons, List.length_cons]
    split
    · rename_i hempty
      rw [List.isEmpty_iff.mp hempty, List.length_singleton, List.length_singleton]
    · rw [ih]
  | case2 poses => rfl

theorem length_orientBackward (geometry : Trigonometry K O) (poses : List (Pose K O)) :
    (orientBackward geometry poses).length = poses.length - 1 := by
  fun_induction orientBackward geometry poses with
  | case1 dst src later ih =>
    simp only [List.length_cons] at ih ⊢
    omega
  | case2 poses hshort =>
    match poses with
    | [] => rfl
    | [_] => rfl
    | dst :: src :: later => exact absurd rfl (hshort dst src later)

theorem insertOrientation_succeeds {poses : List (Pose K O)} (htwo : 2 ≤ poses.length)
    (isDrivingForward : Bool) :
    Succeeds (insertOrientation geometry poses isDrivingForward)
      fun results => results.length = poses.length := by
  have hbackward := length_orientBackward geometry poses
  match poses with
  | first :: later =>
    rw [insertOrientation]
    cases isDrivingForward with
    | true => exact .ok (length_orientForward _)
    | false =>
      cases hbehind : orientBackward geometry (first :: later) with
      | nil =>
        rw [hbehind, List.length_nil] at hbackward
        omega
      | cons second others =>
        rw [hbehind] at hbackward
        refine .ok ?_
        rw [List.length_cons, hbackward]
        omega

end

theorem Accepted.resamplePoseVector_succeeds [Inhabited O] (options : Options)
    {poses : List (Pose K O)}
    (haccepted : Accepted geometry (poses.map Pose.position) resampledArclength) :
    Succeeds (resamplePoseVector geometry options poses resampledArclength)
      fun results => results.length = resampledArclength.length := by
  have htwo := haccepted.checked.twoPoints
  rw [List.length_map] at htwo
  obtain ⟨front, hfront⟩ : ∃ value, atIndex poses 0 = .ok value := exists_atIndex (by omega)
  obtain ⟨second, hsecond⟩ : ∃ value, atIndex poses 1 = .ok value := exists_atIndex (by omega)
  rw [resamplePoseVector, if_neg (by rw [haccepted.arguments]; decide)]
  refine haccepted.resamplePointVector_succeeds.bind fun positions hpositions =>
    .bind_eq hfront (.bind_eq hsecond ?_)
  have hpoints := haccepted.checked.twoArclengths
  refine (insertOrientation_succeeds (by rwa [List.length_map, hpositions]) _).bind
    fun results hresults => .ok ?_
  rw [List.length_map, hpositions] at hresults
  split
  · rw [List.length_modify, hresults]
  · exact hresults

end AutowareUniverse.Common.Resample
